import ManagedAgents.MetadataPatches

/-!
# Merging metadata again

Metadata which the checks accepted once is accepted again as it is.  A patch that was
merged changes nothing the second time, also where it adds and deletes keys at the limit.
-/

namespace ManagedAgents

open Fallible

/-! ## Entries which are there already -/

section

variable {fields : Dict} {key : String} {value : Json}

theorem Dict.set_fresh
    (hkey : key ∉ fields.map Prod.fst) :
    Dict.set fields key value = fields ++ [(key, value)] := by
  induction fields with
  | nil => rfl
  | cons first rest ih =>
      rw [List.map_cons, List.mem_cons, not_or] at hkey
      rw [Dict.set, if_neg (Ne.symm hkey.1), ih hkey.2]
      rfl

theorem Dict.set_found
    (hfind : Dict.find fields key = some value) : Dict.set fields key value = fields := by
  induction fields with
  | nil => cases hfind
  | cons first rest ih =>
      by_cases hname : first.1 = key
      · simp only [Dict.find, hname, if_true, Option.some.injEq] at hfind
        simp [Dict.set, ← hname, ← hfind]
      · simp only [Dict.find, hname, if_false] at hfind
        simp [Dict.set, hname, ih hfind]

end

/-! ## Accepted metadata -/

/-- Valid metadata which is a dictionary. -/
structure StoredMetadata (metadata : Dict) : Prop extends ValidMetadata metadata where
  distinct : (metadata.map Prod.fst).Nodup

theorem normalizeMetadata_stored
    {metadata : Json} {result : Dict}
    (hresult : normalizeMetadata metadata = .ok result) :
    StoredMetadata result :=
  ⟨(normalizeMetadata_valid hresult).1, (normalizeMetadata_valid hresult).2⟩

theorem normalizeMetadataFields_valid
    {before fields : Dict} (hfields : ∀ field ∈ fields, ValidMetadataField field)
    (hdistinct : ((before ++ fields).map Prod.fst).Nodup) :
    normalizeMetadataFields before fields = .ok (before ++ fields) := by
  induction fields generalizing before with
  | nil => simp [normalizeMetadataFields]
  | cons field rest ih =>
      obtain ⟨key, value⟩ := field
      rw [List.forall_mem_cons] at hfields
      have hfresh : key ∉ before.map Prod.fst := by
        rw [List.map_append, List.map_cons, List.nodup_append] at hdistinct
        exact fun hmem => hdistinct.2.2 _ hmem _ List.mem_cons_self rfl
      rw [normalizeMetadataFields_cons_eq_ok, Dict.set_fresh hfresh]
      refine ⟨hfields.1, ?_⟩
      rw [List.append_cons before _ rest] at hdistinct ⊢
      exact ih hfields.2 hdistinct

theorem StoredMetadata.normalize
    {metadata : Dict} (hstored : StoredMetadata metadata) :
    normalizeMetadata (.dict metadata) = .ok metadata := by
  have hfields : normalizeMetadataFields [] metadata = .ok metadata :=
    @normalizeMetadataFields_valid [] metadata hstored.fields hstored.distinct
  simp only [normalizeMetadata, hfields, bind_eq_ok, pure_eq_ok,
    validateMetadataSize_eq_ok]
  exact ⟨metadata, rfl, (), hstored.size, rfl⟩

/-! ## Merges -/

theorem mergeMetadataFields_stored
    {merged patch result : Dict} (hmerged : StoredMetadata merged)
    (hresult : mergeMetadataFields merged patch = .ok result) :
    StoredMetadata result := by
  induction patch generalizing merged with
  | nil =>
      cases hresult
      exact hmerged
  | cons field rest ih =>
      rw [mergeMetadataFields_cons_eq_ok] at hresult
      obtain ⟨next, hnext, -, -, hsize, hresult⟩ := hresult
      refine ih ?_ hresult
      rcases hnext with ⟨rfl, -⟩ | ⟨rfl, -, -, hvalid⟩
      · exact ⟨⟨hsize, Dict.forall_pop hmerged.fields⟩,
          Dict.pop_distinct hmerged.distinct _⟩
      · exact ⟨⟨hsize, Dict.forall_set hmerged.fields hvalid⟩,
          Dict.set_distinct hmerged.distinct _ _⟩

theorem mergeMetadata_stored
    {current patch : Json} {result : Dict}
    (hresult : mergeMetadata current patch = .ok result) : StoredMetadata result := by
  unfold mergeMetadata at hresult
  obtain ⟨merged, hmerged, hresult⟩ := bind_eq_ok.mp hresult
  have hstored := normalizeMetadata_stored hmerged
  cases patch with
  | null =>
      rw [pure_eq_ok] at hresult
      exact hresult ▸ hstored
  | dict fields => exact mergeMetadataFields_stored hstored hresult
  | bool | int | float | str | list => cases hresult

/-- What a field of a patch leaves under its key. -/
def patchedValue (value : Json) : Option Json :=
  if value = .null ∨ value = .str "" then none else some value

theorem find_of_merged
    {merged next : Dict} {key : String} {value : Json}
    (hnext : next = Dict.pop merged key ∧ (value = .null ∨ value = .str "") ∨
      next = Dict.set merged key value ∧ value ≠ .null ∧ value ≠ .str "" ∧
        ValidMetadataField (key, value)) (other : String) :
    Dict.find next other =
      if other = key then patchedValue value else Dict.find merged other := by
  rcases hnext with ⟨rfl, hclear⟩ | ⟨rfl, hnull, hblank, -⟩
  · rw [Dict.find_pop, patchedValue, if_pos hclear]
  · rw [patchedValue, if_neg (not_or.mpr ⟨hnull, hblank⟩)]
    split
    next hother => rw [hother, Dict.find_set_same]
    next hother => rw [Dict.find_set_other _ (Ne.symm hother)]

theorem mergeMetadataFields_find
    {merged patch result : Dict} (hpatch : (patch.map Prod.fst).Nodup)
    (hresult : mergeMetadataFields merged patch = .ok result) :
    (∀ key ∉ patch.map Prod.fst, Dict.find result key = Dict.find merged key) ∧
      ∀ field ∈ patch, Dict.find result field.1 = patchedValue field.2 := by
  induction patch generalizing merged with
  | nil =>
      cases hresult
      simp
  | cons field rest ih =>
      rw [List.map_cons, List.nodup_cons] at hpatch
      rw [mergeMetadataFields_cons_eq_ok] at hresult
      obtain ⟨next, hnext, -, -, -, hresult⟩ := hresult
      obtain ⟨hkept, hrest⟩ := ih hpatch.2 hresult
      have hfind := find_of_merged hnext
      refine ⟨fun key hkey => ?_, List.forall_mem_cons.mpr ⟨?_, hrest⟩⟩
      · rw [List.map_cons, List.mem_cons, not_or] at hkey
        rw [hkept key hkey.2, hfind, if_neg hkey.1]
      · rw [hkept _ hpatch.1, hfind, if_pos rfl]

/-- A patch whose fields are in the metadata already leaves it as it is. -/
theorem mergeMetadataFields_settled
    {merged patch result metadata : Dict}
    (haccepted : mergeMetadataFields merged patch = .ok result)
    (hsize : metadata.length ≤ MAX_METADATA_KEYS)
    (hsettled : ∀ field ∈ patch, Dict.find metadata field.1 = patchedValue field.2) :
    mergeMetadataFields metadata patch = .ok metadata := by
  induction patch generalizing merged with
  | nil => rfl
  | cons field rest ih =>
      rw [List.forall_mem_cons] at hsettled
      rw [mergeMetadataFields_cons_eq_ok] at haccepted ⊢
      obtain ⟨next, hnext, hempty, hlong, -, haccepted⟩ := haccepted
      refine ⟨metadata, ?_, hempty, hlong, hsize, ih haccepted hsettled.2⟩
      have hfind := hsettled.1
      unfold patchedValue at hfind
      rcases hnext with ⟨-, hclear⟩ | ⟨-, hnull, hblank, hvalid⟩
      · rw [if_pos hclear, Dict.find_eq_none] at hfind
        exact Or.inl ⟨(Dict.pop_of_absent (Dict.not_mem_keys hfind)).symm, hclear⟩
      · rw [if_neg (not_or.mpr ⟨hnull, hblank⟩)] at hfind
        exact Or.inr ⟨(Dict.set_found hfind).symm, hnull, hblank, hvalid⟩

/-- Merging a patch again changes nothing. -/
theorem mergeMetadata_again
    {current patch : Json} {merged : Dict}
    (hpatch : ∀ fields, patch = .dict fields → (fields.map Prod.fst).Nodup)
    (hmerged : mergeMetadata current patch = .ok merged) :
    mergeMetadata (.dict merged) patch = .ok merged := by
  have hstored := mergeMetadata_stored hmerged
  unfold mergeMetadata at hmerged ⊢
  rw [hstored.normalize]
  obtain ⟨first, -, hmerged⟩ := bind_eq_ok.mp hmerged
  refine bind_eq_ok.mpr ⟨merged, rfl, ?_⟩
  cases patch with
  | null => rfl
  | dict fields =>
      exact mergeMetadataFields_settled hmerged hstored.size
        (mergeMetadataFields_find (hpatch fields rfl) hmerged).2
  | bool | int | float | str | list => cases hmerged

end ManagedAgents
