import ManagedAgents.DictEquality
import ManagedAgents.ValidMetadata

/-!
# Metadata patches as a whole

The keys of a patch have no order, but its size is checked after every key.  A
patch that adds keys before it deletes others may then be refused although what
it asks for is within the limits.
-/

namespace ManagedAgents

open Fallible

/-- The value deletes its key. -/
def emptied (value : Json) : Bool := value = .null ∨ value = .str ""

/-- What a patch asks for: its additions and replacements, without the keys that it
deletes. -/
def patchedMetadata (current patch : Dict) : Dict :=
  (current.filter fun field => field.1 ∉ patch.map Prod.fst) ++
    patch.filter fun field => !emptied field.2

/-- The fields of a patch whose keys are new. -/
def addedFields (current patch : Dict) : Dict :=
  patch.filter fun field => !emptied field.2 && !Dict.contains current field.1

def ValidMetadataKey (key : String) : Prop :=
  key ≠ "" ∧ key.length ≤ MAX_METADATA_KEY_CHARS

/-! ## One key -/

section

variable {fields : Dict} {key : String} {value : Json}

theorem Dict.pop_of_absent
    (hkey : key ∉ fields.map Prod.fst) : Dict.pop fields key = fields := by
  apply List.filter_eq_self.mpr
  intro field hfield
  have hne : field.1 ≠ key := by
    rintro rfl
    exact hkey (List.mem_map_of_mem hfield)
  simpa using hne

theorem Dict.set_perm
    (hdistinct : (fields.map Prod.fst).Nodup) :
    (Dict.set fields key value).Perm ((key, value) :: Dict.pop fields key) := by
  induction fields with
  | nil => rfl
  | cons first rest ih =>
      rw [List.map_cons, List.nodup_cons] at hdistinct
      by_cases hkey : first.1 = key
      · have hpop : Dict.pop (first :: rest) key = rest := by
          rw [Dict.pop, List.filter_cons_of_neg (by simpa using hkey)]
          exact Dict.pop_of_absent (hkey ▸ hdistinct.1)
        rw [hpop]
        simp [Dict.set, hkey]
      · have hpop : Dict.pop (first :: rest) key = first :: Dict.pop rest key :=
          List.filter_cons_of_pos (by simpa using hkey)
        rw [hpop]
        simp only [Dict.set, hkey, if_false]
        exact ((ih hdistinct.2).cons first).trans (List.Perm.swap _ _ _)

theorem Dict.length_set :
    (Dict.set fields key value).length =
      fields.length + if Dict.contains fields key then 0 else 1 := by
  have hkeys := congrArg List.length (Dict.keys_set fields key value)
  rw [List.length_map] at hkeys
  rw [hkeys]
  split <;> simp

end

section

variable {merged rest : Dict} {key : String} {value : Json}

/-- What the first key of a patch leaves to the others. -/
theorem filter_pop :
    (Dict.pop merged key).filter (fun field => field.1 ∉ rest.map Prod.fst) =
      merged.filter fun field => field.1 ∉ ((key, value) :: rest).map Prod.fst := by
  unfold Dict.pop
  rw [List.filter_filter]
  apply List.filter_congr
  intro field _
  rw [Bool.eq_iff_iff]
  simp only [Bool.and_eq_true, decide_eq_true_eq, List.map_cons, List.mem_cons, not_or]
  exact and_comm

theorem patchedMetadata_pop
    (hemptied : emptied value = true) :
    patchedMetadata (Dict.pop merged key) rest =
      patchedMetadata merged ((key, value) :: rest) := by
  unfold patchedMetadata
  rw [@filter_pop _ _ _ value, List.filter_cons_of_neg (by simp [hemptied])]

theorem patchedMetadata_set
    (hdistinct : (merged.map Prod.fst).Nodup) (hkey : key ∉ rest.map Prod.fst)
    (hvalue : emptied value = false) :
    (patchedMetadata (Dict.set merged key value) rest).Perm
      (patchedMetadata merged ((key, value) :: rest)) := by
  have hrest : (patchedMetadata merged ((key, value) :: rest)).Perm
      ((key, value) :: patchedMetadata (Dict.pop merged key) rest) := by
    unfold patchedMetadata
    rw [@filter_pop _ _ _ value, List.filter_cons_of_pos (by simp [hvalue])]
    exact List.perm_middle
  refine List.Perm.trans ?_ hrest.symm
  unfold patchedMetadata
  have hset := (@Dict.set_perm merged key value hdistinct).filter
    fun field => decide (field.1 ∉ rest.map Prod.fst)
  rw [List.filter_cons_of_pos (by simpa using hkey)] at hset
  exact hset.append_right _

theorem addedFields_of_same
    {next : Dict} (hkey : key ∉ rest.map Prod.fst)
    (hsame : ∀ other, other ≠ key →
      Dict.contains next other = Dict.contains merged other) :
    addedFields next rest = addedFields merged rest := by
  apply List.filter_congr
  intro field hfield
  have hne : field.1 ≠ key := by
    rintro rfl
    exact hkey (List.mem_map_of_mem hfield)
  rw [hsame field.1 hne]

end

/-! ## The whole patch -/

section

variable {merged patch result : Dict}

/-- An accepted patch does what it asks for. -/
theorem mergeMetadataFields_perm
    (hmerged : (merged.map Prod.fst).Nodup) (hpatch : (patch.map Prod.fst).Nodup)
    (hresult : mergeMetadataFields merged patch = .ok result) :
    result.Perm (patchedMetadata merged patch) := by
  induction patch generalizing merged with
  | nil =>
      cases hresult
      simp [patchedMetadata]
  | cons field rest ih =>
      obtain ⟨key, value⟩ := field
      rw [List.map_cons, List.nodup_cons] at hpatch
      obtain ⟨hkey, hrest⟩ := hpatch
      obtain ⟨next, hnext, -, -, -, hresult⟩ := mergeMetadataFields_cons_eq_ok.mp hresult
      obtain ⟨rfl, hemptied⟩ | ⟨rfl, hnull, hblank, -⟩ := hnext
      · rw [← patchedMetadata_pop (by simpa [emptied] using hemptied)]
        exact ih (Dict.pop_distinct hmerged key) hrest hresult
      · exact (ih (Dict.set_distinct hmerged key value) hrest hresult).trans
          (patchedMetadata_set hmerged hkey (by simp [emptied, hnull, hblank]))

theorem mergeMetadataFields_size
    (hmerged : merged.length ≤ MAX_METADATA_KEYS)
    (hresult : mergeMetadataFields merged patch = .ok result) :
    result.length ≤ MAX_METADATA_KEYS := by
  induction patch generalizing merged with
  | nil =>
      cases hresult
      exact hmerged
  | cons field rest ih =>
      obtain ⟨next, -, -, -, hsize, hresult⟩ := mergeMetadataFields_cons_eq_ok.mp hresult
      exact ih hsize hresult

theorem mergeMetadataFields_keys
    (hresult : mergeMetadataFields merged patch = .ok result) :
    ∀ field ∈ patch, ValidMetadataKey field.1 := by
  induction patch generalizing merged with
  | nil => simp
  | cons field rest ih =>
      obtain ⟨next, -, hempty, hlong, -, hresult⟩ :=
        mergeMetadataFields_cons_eq_ok.mp hresult
      exact List.forall_mem_cons.mpr ⟨⟨hempty, hlong⟩, ih hresult⟩

/-- While a patch adds keys their number grows. -/
theorem mergeMetadataFields_added
    {added rest : Dict} (hmerged : merged.length ≤ MAX_METADATA_KEYS)
    (hdistinct : (added.map Prod.fst).Nodup)
    (hadded : ∀ field ∈ added,
      emptied field.2 = false ∧ Dict.contains merged field.1 = false)
    (hresult : mergeMetadataFields merged (added ++ rest) = .ok result) :
    merged.length + added.length ≤ MAX_METADATA_KEYS := by
  induction added generalizing merged with
  | nil => exact hmerged
  | cons field later ih =>
      obtain ⟨key, value⟩ := field
      rw [List.forall_mem_cons] at hadded
      obtain ⟨⟨hvalue, hnew⟩, hlater⟩ := hadded
      rw [List.map_cons, List.nodup_cons] at hdistinct
      rw [List.cons_append] at hresult
      obtain ⟨next, hnext, -, -, hsize, hresult⟩ :=
        mergeMetadataFields_cons_eq_ok.mp hresult
      obtain ⟨-, hclear⟩ | ⟨rfl, -⟩ := hnext
      · simp [emptied] at hvalue
        simp [hvalue] at hclear
      · have hstill : ∀ field ∈ later, emptied field.2 = false ∧
            Dict.contains (Dict.set merged key value) field.1 = false := by
          intro other hother
          have hne : key ≠ other.1 := by
            intro hsame
            have hmem : other.1 ∈ later.map Prod.fst := List.mem_map_of_mem hother
            exact hdistinct.1 (hsame ▸ hmem)
          rw [Dict.contains_set_of_ne value hne]
          exact hlater other hother
        have hgrown := ih hsize hdistinct.2 hstill hresult
        rw [Dict.length_set, hnew] at hgrown
        simp only [Bool.false_eq_true, if_false] at hgrown
        rw [List.length_cons]
        omega

/-- A patch that fits in every order is accepted. -/
theorem exists_mergeMetadataFields_eq_ok
    (hpatch : (patch.map Prod.fst).Nodup)
    (hkeys : ∀ field ∈ patch, ValidMetadataKey field.1)
    (hvalues : ∀ field ∈ patch, emptied field.2 = false → ValidMetadataField field)
    (hsize : merged.length + (addedFields merged patch).length ≤ MAX_METADATA_KEYS) :
    ∃ result, mergeMetadataFields merged patch = .ok result := by
  induction patch generalizing merged with
  | nil => exact ⟨merged, rfl⟩
  | cons field rest ih =>
      obtain ⟨key, value⟩ := field
      rw [List.map_cons, List.nodup_cons] at hpatch
      obtain ⟨hkey, hrest⟩ := hpatch
      rw [List.forall_mem_cons] at hkeys hvalues
      obtain ⟨⟨hempty, hlong⟩, hkeys⟩ := hkeys
      cases hvalue : emptied value with
      | true =>
          have hsame : addedFields (Dict.pop merged key) rest = addedFields merged rest :=
            addedFields_of_same hkey fun other hne => Dict.contains_pop_other hne.symm
          have hall :
              addedFields merged ((key, value) :: rest) = addedFields merged rest :=
            List.filter_cons_of_neg (by simp [hvalue])
          have hfewer : (Dict.pop merged key).length ≤ merged.length :=
            List.length_filter_le _ _
          rw [hall] at hsize
          obtain ⟨result, hresult⟩ :=
            @ih (Dict.pop merged key) hrest hkeys hvalues.2 (by rw [hsame]; omega)
          refine ⟨result, mergeMetadataFields_cons_eq_ok.mpr
            ⟨_, .inl ⟨rfl, ?_⟩, hempty, hlong, by omega, hresult⟩⟩
          simpa [emptied] using hvalue
      | false =>
          have hsame : addedFields (Dict.set merged key value) rest =
              addedFields merged rest :=
            addedFields_of_same hkey fun other hne =>
              Dict.contains_set_of_ne value hne.symm
          have hlength := @Dict.length_set merged key value
          have hnotEmptied : value ≠ .null ∧ value ≠ .str "" := by
            simpa [emptied, not_or] using hvalue
          have hgrown : (Dict.set merged key value).length +
              (addedFields merged rest).length ≤ MAX_METADATA_KEYS := by
            unfold addedFields at hsize ⊢
            rw [hlength]
            cases hknown : Dict.contains merged key with
            | true =>
                rw [List.filter_cons_of_neg (by simp [hknown])] at hsize
                simpa using hsize
            | false =>
                rw [List.filter_cons_of_pos (by simp [hvalue, hknown]),
                  List.length_cons] at hsize
                simp only [Bool.false_eq_true, if_false]
                omega
          obtain ⟨result, hresult⟩ :=
            @ih (Dict.set merged key value) hrest hkeys hvalues.2
              (by rw [hsame]; exact hgrown)
          exact ⟨result, mergeMetadataFields_cons_eq_ok.mpr
            ⟨_, .inr ⟨rfl, hnotEmptied.1, hnotEmptied.2, hvalues.1 hvalue⟩, hempty, hlong,
              by omega, hresult⟩⟩

end

/-! ## Every order of the keys -/

section

variable {metadata patch ordering : Dict} {current : Json}

theorem patchedMetadata_perm
    (hordering : ordering.Perm patch) :
    (patchedMetadata metadata ordering).Perm (patchedMetadata metadata patch) := by
  have hkeys : (metadata.filter fun field => field.1 ∉ ordering.map Prod.fst) =
      metadata.filter fun field => field.1 ∉ patch.map Prod.fst := by
    apply List.filter_congr
    intro field _
    rw [decide_eq_decide, (hordering.map Prod.fst).mem_iff]
  unfold patchedMetadata
  rw [hkeys]
  exact (hordering.filter _).append_left _

theorem ValidMetadata.perm
    {left right : Dict} (hvalid : ValidMetadata left) (hperm : left.Perm right) :
    ValidMetadata right where
  size := hperm.length_eq ▸ hvalid.size
  fields field hfield := hvalid.fields field (hperm.mem_iff.mpr hfield)

theorem normalizeMetadataFields_distinct
    {normalized fields result : Dict} (hnormalized : (normalized.map Prod.fst).Nodup)
    (hresult : normalizeMetadataFields normalized fields = .ok result) :
    (result.map Prod.fst).Nodup := by
  induction fields generalizing normalized with
  | nil =>
      cases hresult
      exact hnormalized
  | cons field rest ih =>
      obtain ⟨key, value⟩ := field
      rw [normalizeMetadataFields_cons_eq_ok] at hresult
      exact ih (Dict.set_distinct hnormalized key value) hresult.2

theorem normalizeMetadata_valid
    (hcurrent : normalizeMetadata current = .ok metadata) :
    ValidMetadata metadata ∧ (metadata.map Prod.fst).Nodup := by
  have hfields : ∀ field ∈ metadata, ValidMetadataField field :=
    normalizeMetadata_forall (fun _ _ _ _ hvalid => hvalid) hcurrent
  have hempty : (([] : Dict).map Prod.fst).Nodup := List.nodup_nil
  unfold normalizeMetadata at hcurrent
  split at hcurrent
  · cases hcurrent
    exact ⟨⟨by simp, hfields⟩, hempty⟩
  next fields =>
    simp only [bind_eq_ok, pure_eq_ok, validateMetadataSize_eq_ok] at hcurrent
    obtain ⟨normalized, hnormalized, -, hsize, rfl⟩ := hcurrent
    exact ⟨⟨hsize, hfields⟩, normalizeMetadataFields_distinct hempty hnormalized⟩
  · cases hcurrent

theorem mergeMetadata_eq
    (hcurrent : normalizeMetadata current = .ok metadata) :
    mergeMetadata current (.dict patch) = mergeMetadataFields metadata patch := by
  unfold mergeMetadata
  rw [hcurrent]
  rfl

/-- In every order of its keys the patch is accepted exactly if what it asks for is
within the limits, and the result is what it asks for. -/
def MergesAsWhole (current : Json) (metadata patch : Dict) : Prop :=
  ∀ ordering, ordering.Perm patch →
    ((∃ result, mergeMetadata current (.dict ordering) = .ok result) ↔
      ValidMetadata (patchedMetadata metadata patch)) ∧
    ∀ result, mergeMetadata current (.dict ordering) = .ok result →
      result.Perm (patchedMetadata metadata patch)

/-- The keys that the patch names are valid, and there is room for all keys that it
adds before it deletes any. -/
def FitsAnyOrder (metadata patch : Dict) : Prop :=
  (∀ field ∈ patch, ValidMetadataKey field.1) ∧
    metadata.length + (addedFields metadata patch).length ≤ MAX_METADATA_KEYS

/-- The additions may come first. -/
theorem fitsAnyOrder_of_merges
    (hcurrent : normalizeMetadata current = .ok metadata)
    (hpatch : (patch.map Prod.fst).Nodup) (hmerges : MergesAsWhole current metadata patch)
    (hvalid : ValidMetadata (patchedMetadata metadata patch)) :
    FitsAnyOrder metadata patch := by
  have hsplit := List.filter_append_perm
    (fun field => !emptied field.2 && !Dict.contains metadata field.1) patch
  obtain ⟨result, hresult⟩ := (hmerges _ hsplit).1.mpr hvalid
  rw [mergeMetadata_eq hcurrent] at hresult
  constructor
  · intro field hfield
    exact mergeMetadataFields_keys hresult field (hsplit.mem_iff.mpr hfield)
  · refine mergeMetadataFields_added
      (normalizeMetadata_valid hcurrent).1.size ?_ ?_ hresult
    · exact hpatch.sublist (List.filter_sublist.map _)
    · intro field hfield
      simpa using (List.mem_filter.mp hfield).2

/-- What a patch within the limits sets is within the limits. -/
theorem valid_of_patched
    (hvalid : ValidMetadata (patchedMetadata metadata patch)) {field : String × Json}
    (hfield : field ∈ patch) (hvalue : emptied field.2 = false) :
    ValidMetadataField field :=
  hvalid.fields field
    (List.mem_append_right _ (List.mem_filter.mpr ⟨hfield, by simp [hvalue]⟩))

/-- Merging does not depend on the order of the keys, if what the patch asks for is
out of the limits in any case or is within them in every order. -/
theorem mergeMetadata_whole_iff
    (hcurrent : normalizeMetadata current = .ok metadata)
    (hpatch : (patch.map Prod.fst).Nodup) :
    MergesAsWhole current metadata patch ↔
      (ValidMetadata (patchedMetadata metadata patch) → FitsAnyOrder metadata patch) := by
  constructor
  · exact fitsAnyOrder_of_merges hcurrent hpatch
  intro hfits ordering hordering
  obtain ⟨hmetadata, hdistinct⟩ := normalizeMetadata_valid hcurrent
  have hkeys : (ordering.map Prod.fst).Nodup :=
    (hordering.map Prod.fst).nodup_iff.mpr hpatch
  have hfinal := @patchedMetadata_perm metadata patch ordering hordering
  rw [mergeMetadata_eq hcurrent]
  refine ⟨⟨?_, fun hvalid => ?_⟩, fun result hresult => ?_⟩
  · rintro ⟨result, hresult⟩
    refine ValidMetadata.perm ⟨mergeMetadataFields_size hmetadata.size hresult, ?_⟩
      ((mergeMetadataFields_perm hdistinct hkeys hresult).trans hfinal)
    exact mergeMetadataFields_forall hmetadata.fields
      (fun _ _ hfield _ => hfield) hresult
  · obtain ⟨hvalidKeys, hroom⟩ := hfits hvalid
    have hadded : (addedFields metadata ordering).length =
        (addedFields metadata patch).length := (hordering.filter _).length_eq
    exact exists_mergeMetadataFields_eq_ok hkeys
      (fun field hfield => hvalidKeys field (hordering.mem_iff.mp hfield))
      (fun field hfield => valid_of_patched hvalid (hordering.mem_iff.mp hfield))
      (hadded ▸ hroom)
  · exact (mergeMetadataFields_perm hdistinct hkeys hresult).trans hfinal

end

def sampleMetadata : Dict := [("a", .str "old"), ("b", .str "old")]

theorem sample_mergeMetadata_whole_iff :
    MergesAsWhole (.dict sampleMetadata) sampleMetadata
      [("c", .str "new"), ("a", .null), ("b", .str "new")] := by
  refine (mergeMetadata_whole_iff rfl (by decide)).mpr fun _ => ⟨?_, by decide⟩
  intro field hfield
  simp only [List.mem_cons, List.not_mem_nil, or_false] at hfield
  rcases hfield with rfl | rfl | rfl <;> exact ⟨by decide, by decide⟩

def fullMetadata : Dict :=
  ["a", "b", "c", "d", "e", "f", "g", "h", "i", "j", "k", "l", "m", "n", "o", "p"].map
    fun key => (key, .str "old")

/-- A full dictionary takes a new key only after one was deleted. -/
theorem order_of_patch_decides :
    ¬ MergesAsWhole (.dict fullMetadata) fullMetadata
      [("q", .str "new"), ("a", .null)] := by
  intro hmerges
  have haccepted :
      (mergeMetadata (.dict fullMetadata)
        (.dict [("a", .null), ("q", .str "new")])).toOption.isSome = true := by
    decide
  have hrefused :
      (mergeMetadata (.dict fullMetadata)
        (.dict [("q", .str "new"), ("a", .null)])).toOption.isSome = false := by
    decide
  cases hresult : mergeMetadata (.dict fullMetadata)
      (.dict [("a", .null), ("q", .str "new")]) with
  | error error =>
      rw [hresult] at haccepted
      cases haccepted
  | ok result =>
      have hvalid := (hmerges _ (List.Perm.swap _ _ _)).1.mp ⟨result, hresult⟩
      obtain ⟨other, hother⟩ := (hmerges _ (List.Perm.refl _)).1.mpr hvalid
      rw [hother] at hrefused
      cases hrefused

end ManagedAgents
