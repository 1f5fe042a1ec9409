import ManagedAgents.Library.Fallible
import ManagedAgents.Metadata

/-!
# Valid metadata

What the checks of metadata accept and what they make of it: a dictionary with at
most sixteen keys, none of them empty or long, and with short texts as values.
-/

namespace ManagedAgents

open Fallible

/-! ## Fields of a dictionary -/

section

variable {Holds : String × Json → Prop} {fields : Dict} {key : String} {value : Json}

theorem Dict.forall_set
    (hfields : ∀ field ∈ fields, Holds field) (hvalue : Holds (key, value)) :
    ∀ field ∈ Dict.set fields key value, Holds field := by
  induction fields with
  | nil => simpa [Dict.set] using hvalue
  | cons first rest ih =>
      rw [List.forall_mem_cons] at hfields
      obtain ⟨hfirst, hrest⟩ := hfields
      by_cases hkey : first.1 = key
      · simp only [Dict.set, hkey, if_true, List.forall_mem_cons]
        exact ⟨hvalue, hrest⟩
      · simp only [Dict.set, hkey, if_false, List.forall_mem_cons]
        exact ⟨hfirst, ih hrest⟩

theorem Dict.forall_pop
    (hfields : ∀ field ∈ fields, Holds field) :
    ∀ field ∈ Dict.pop fields key, Holds field :=
  fun field hfield => hfields field (List.mem_filter.mp hfield).1

/-- A missing value counts as null. -/
theorem Dict.get_holds
    (hfields : ∀ field ∈ fields, Holds field) (hnull : Holds (key, .null)) :
    Holds (key, Dict.get fields key) := by
  induction fields with
  | nil => exact hnull
  | cons first rest ih =>
      rw [List.forall_mem_cons] at hfields
      by_cases hkey : first.1 = key
      · rw [Dict.get, if_pos hkey, ← hkey]
        exact hfields.1
      · rw [Dict.get, if_neg hkey]
        exact ih hfields.2

end

/-! ## Accepted fields -/

/-- A key and a value which the checks accept. -/
def ValidMetadataField (field : String × Json) : Prop :=
  field.1 ≠ "" ∧ field.1.length ≤ MAX_METADATA_KEY_CHARS ∧
    ∃ text, field.2 = .str text ∧ text.length ≤ MAX_METADATA_VALUE_CHARS

structure ValidMetadata (metadata : Dict) : Prop where
  size : metadata.length ≤ MAX_METADATA_KEYS
  fields : ∀ field ∈ metadata, ValidMetadataField field

theorem metadataKey_eq_ok
    {rawKey key : String} :
    metadataKey rawKey = .ok key ↔
      key = rawKey ∧ rawKey ≠ "" ∧ rawKey.length ≤ MAX_METADATA_KEY_CHARS := by
  unfold metadataKey
  split
  next hempty => simp [hempty]
  next hempty =>
    split
    next hlong =>
      refine iff_of_false (by simp) ?_
      rintro ⟨-, -, hshort⟩
      omega
    next hshort => simp [hempty, eq_comm, Nat.le_of_not_lt hshort]

theorem metadataValue_eq_ok
    {value : Json} {text : String} :
    metadataValue value = .ok text ↔
      value = .str text ∧ text.length ≤ MAX_METADATA_VALUE_CHARS := by
  unfold metadataValue
  split
  next given =>
    split
    next hlong =>
      refine iff_of_false (by simp) ?_
      rintro ⟨hsame, hshort⟩
      cases hsame
      omega
    next hshort =>
      simp only [Except.ok.injEq, Json.str.injEq]
      refine ⟨?_, fun hsame => hsame.1⟩
      rintro rfl
      exact ⟨rfl, Nat.le_of_not_lt hshort⟩
  next hother =>
    refine iff_of_false (by simp) ?_
    rintro ⟨rfl, -⟩
    exact hother text rfl

theorem validateMetadataSize_eq_ok
    {metadata : Dict} {value : Unit} :
    validateMetadataSize metadata = .ok value ↔ metadata.length ≤ MAX_METADATA_KEYS := by
  unfold validateMetadataSize
  split
  next hlarge =>
    refine iff_of_false (by simp) ?_
    omega
  next hsmall => simpa using Nat.le_of_not_lt hsmall

theorem normalizeMetadataFields_cons_eq_ok
    {normalized rest result : Dict} {key : String} {value : Json} :
    normalizeMetadataFields normalized ((key, value) :: rest) = .ok result ↔
      ValidMetadataField (key, value) ∧
        normalizeMetadataFields (Dict.set normalized key value) rest = .ok result := by
  conv_lhs => rw [normalizeMetadataFields]
  unfold ValidMetadataField
  by_cases hnull : value = .null
  · simp only [hnull, if_true, bind_eq_ok]
    refine iff_of_false ?_ (by simp)
    rintro ⟨_, -, _, hthrow, -⟩
    cases hthrow
  · simp only [hnull, if_false, bind_eq_ok, metadataKey_eq_ok, metadataValue_eq_ok]
    constructor
    · rintro ⟨_, ⟨rfl, hempty, hlong⟩, text, ⟨rfl, hshort⟩, hresult⟩
      exact ⟨⟨hempty, hlong, text, rfl, hshort⟩, hresult⟩
    · rintro ⟨⟨hempty, hlong, text, rfl, hshort⟩, hresult⟩
      exact ⟨key, ⟨rfl, hempty, hlong⟩, text, ⟨rfl, hshort⟩, hresult⟩

theorem mergeMetadataFields_cons_eq_ok
    {merged rest result : Dict} {key : String} {value : Json} :
    mergeMetadataFields merged ((key, value) :: rest) = .ok result ↔
      ∃ next, (next = Dict.pop merged key ∧ (value = .null ∨ value = .str "") ∨
          next = Dict.set merged key value ∧ value ≠ .null ∧ value ≠ .str "" ∧
            ValidMetadataField (key, value)) ∧
        key ≠ "" ∧ key.length ≤ MAX_METADATA_KEY_CHARS ∧
        next.length ≤ MAX_METADATA_KEYS ∧ mergeMetadataFields next rest = .ok result := by
  conv_lhs => rw [mergeMetadataFields]
  unfold ValidMetadataField
  by_cases hclear : value = .null ∨ value = .str ""
  · simp only [hclear, if_true, bind_eq_ok, pure_eq_ok, metadataKey_eq_ok,
      validateMetadataSize_eq_ok]
    constructor
    · rintro ⟨_, ⟨rfl, hempty, hlong⟩, next, rfl, -, hsize, hresult⟩
      exact ⟨_, .inl ⟨rfl, trivial⟩, hempty, hlong, hsize, hresult⟩
    · rintro ⟨next, hnext, hempty, hlong, hsize, hresult⟩
      obtain ⟨rfl, -⟩ | ⟨-, hnull, hblank, -⟩ := hnext
      · exact ⟨key, ⟨rfl, hempty, hlong⟩, _, rfl, (), hsize, hresult⟩
      · exact absurd hclear (not_or.mpr ⟨hnull, hblank⟩)
  · simp only [hclear, if_false, bind_eq_ok, pure_eq_ok, metadataKey_eq_ok,
      metadataValue_eq_ok, validateMetadataSize_eq_ok]
    obtain ⟨hnull, hblank⟩ := not_or.mp hclear
    constructor
    · rintro ⟨_, ⟨rfl, hempty, hlong⟩, text, ⟨rfl, hshort⟩, next, rfl, -, hsize, hresult⟩
      exact ⟨_, .inr ⟨rfl, hnull, hblank, hempty, hlong, text, rfl, hshort⟩, hempty,
        hlong, hsize, hresult⟩
    · rintro ⟨next, hnext, hempty, hlong, hsize, hresult⟩
      obtain ⟨-, hfalse⟩ | ⟨rfl, -, -, -, -, text, rfl, hshort⟩ := hnext
      · exact hfalse.elim
      · exact ⟨key, ⟨rfl, hempty, hlong⟩, text, ⟨rfl, hshort⟩, _, rfl, (), hsize, hresult⟩

/-! ## What the results hold -/

section

variable {Holds : String × Json → Prop}

theorem normalizeMetadataFields_forall
    {normalized fields result : Dict} (hnormalized : ∀ field ∈ normalized, Holds field)
    (hfields : ∀ field ∈ fields, ValidMetadataField field → Holds field)
    (hresult : normalizeMetadataFields normalized fields = .ok result) :
    ∀ field ∈ result, Holds field := by
  induction fields generalizing normalized with
  | nil =>
      cases hresult
      exact hnormalized
  | cons field rest ih =>
      obtain ⟨key, value⟩ := field
      rw [normalizeMetadataFields_cons_eq_ok] at hresult
      rw [List.forall_mem_cons] at hfields
      exact ih (Dict.forall_set hnormalized (hfields.1 hresult.1)) hfields.2 hresult.2

theorem normalizeMetadata_forall
    {metadata : Json} {result : Dict}
    (hfields : ∀ fields, metadata = .dict fields →
      ∀ field ∈ fields, ValidMetadataField field → Holds field)
    (hresult : normalizeMetadata metadata = .ok result) :
    ∀ field ∈ result, Holds field := by
  unfold normalizeMetadata at hresult
  split at hresult
  · cases hresult
    simp
  next fields =>
    simp only [bind_eq_ok, pure_eq_ok] at hresult
    obtain ⟨normalized, hnormalized, -, -, rfl⟩ := hresult
    exact normalizeMetadataFields_forall (by simp) (hfields fields rfl) hnormalized
  · cases hresult

theorem mergeMetadataFields_forall
    {merged fields result : Dict} (hmerged : ∀ field ∈ merged, Holds field)
    (hfields : ∀ field ∈ fields, ValidMetadataField field → field.2 ≠ .str "" →
      Holds field)
    (hresult : mergeMetadataFields merged fields = .ok result) :
    ∀ field ∈ result, Holds field := by
  induction fields generalizing merged with
  | nil =>
      cases hresult
      exact hmerged
  | cons field rest ih =>
      obtain ⟨key, value⟩ := field
      rw [mergeMetadataFields_cons_eq_ok] at hresult
      rw [List.forall_mem_cons] at hfields
      obtain ⟨next, hnext, -, -, -, hresult⟩ := hresult
      refine ih ?_ hfields.2 hresult
      rcases hnext with ⟨rfl, -⟩ | ⟨rfl, -, hblank, hvalid⟩
      · exact Dict.forall_pop hmerged
      · exact Dict.forall_set hmerged (hfields.1 hvalid hblank)

theorem mergeMetadata_forall
    {current patch : Json} {result : Dict}
    (hcurrent : ∀ fields, current = .dict fields →
      ∀ field ∈ fields, ValidMetadataField field → Holds field)
    (hpatch : ∀ fields, patch = .dict fields →
      ∀ field ∈ fields, ValidMetadataField field → field.2 ≠ .str "" → Holds field)
    (hresult : mergeMetadata current patch = .ok result) :
    ∀ field ∈ result, Holds field := by
  unfold mergeMetadata at hresult
  obtain ⟨merged, hmerged, hresult⟩ := bind_eq_ok.mp hresult
  have hheld := normalizeMetadata_forall hcurrent hmerged
  cases patch with
  | null =>
      rw [pure_eq_ok] at hresult
      exact hresult ▸ hheld
  | dict fields => exact mergeMetadataFields_forall hheld (hpatch fields rfl) hresult
  | bool | int | float | str | list => cases hresult

end

/-! ## Errors -/

section

variable {kind : HTTPException → Prop} (hkind : ∀ detail, kind ⟨422, detail⟩)

include hkind

theorem onlyRaises_metadataKey
    (value : String) :
    OnlyRaises kind (metadataKey value) := by
  simp [metadataKey, hkind]

theorem onlyRaises_metadataValue (value : Json) :
    OnlyRaises kind (metadataValue value) := by
  unfold metadataValue
  split <;> simp [hkind]

theorem onlyRaises_metadataSize (value : Dict) :
    OnlyRaises kind (validateMetadataSize value) := by
  simp [validateMetadataSize, hkind]

theorem onlyRaises_normalizeMetadata (value : Json) :
    OnlyRaises kind (normalizeMetadata value) := by
  have hfields : ∀ fields normalized : Dict,
      OnlyRaises kind (normalizeMetadataFields normalized fields) := by
    intro fields
    induction fields with
    | nil => simp [normalizeMetadataFields]
    | cons field rest ih =>
        intro normalized
        simp [normalizeMetadataFields, onlyRaises_bind, onlyRaises_metadataKey hkind,
          onlyRaises_metadataValue hkind, hkind, ih]
  unfold normalizeMetadata
  split
  · simp
  · simp [onlyRaises_bind, hfields, onlyRaises_metadataSize hkind]
  · simp [hkind]

theorem onlyRaises_mergeMetadata (current patch : Json) :
    OnlyRaises kind (mergeMetadata current patch) := by
  have hfields : ∀ fields merged : Dict,
      OnlyRaises kind (mergeMetadataFields merged fields) := by
    intro fields
    induction fields with
    | nil => simp [mergeMetadataFields]
    | cons field rest ih =>
        intro merged
        simp [mergeMetadataFields, onlyRaises_bind, onlyRaises_metadataKey hkind,
          onlyRaises_metadataValue hkind, onlyRaises_metadataSize hkind, ih]
  unfold mergeMetadata
  refine (onlyRaises_normalizeMetadata hkind current).bind fun merged => ?_
  split
  · simp
  · exact hfields _ _
  · simp [hkind]

end

end ManagedAgents
