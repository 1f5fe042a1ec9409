import ManagedAgents.DictAgreement
import ManagedAgents.JsonEquality

/-!
# Dictionaries key by key

The dictionaries in a Python value have distinct keys.  Such dictionaries are equal
exactly if they have the same keys with equal values.
-/

namespace ManagedAgents

mutual

/-- No dictionary in the value has a key twice. -/
def Json.keyed : Json → Bool
  | .list items => Json.itemsKeyed items
  | .dict fields => decide (fields.map Prod.fst).Nodup && Json.fieldsKeyed fields
  | .null | .bool _ | .int _ | .float _ | .str _ => true

def Json.itemsKeyed : List Json → Bool
  | [] => true
  | item :: rest => Json.keyed item && Json.itemsKeyed rest

def Json.fieldsKeyed : List (String × Json) → Bool
  | [] => true
  | (_, value) :: rest => Json.keyed value && Json.fieldsKeyed rest

end

/-- The dictionary and all dictionaries in it have distinct keys. -/
structure Dict.Keyed (fields : Dict) : Prop where
  distinct : (fields.map Prod.fst).Nodup
  values : ∀ field ∈ fields, field.2.keyed = true

theorem Json.itemsKeyed_iff
    {items : List Json} :
    Json.itemsKeyed items = true ↔ ∀ item ∈ items, item.keyed = true := by
  induction items with
  | nil => simp [Json.itemsKeyed]
  | cons item rest ih => simp [Json.itemsKeyed, ih]

theorem Json.fieldsKeyed_iff
    {fields : List (String × Json)} :
    Json.fieldsKeyed fields = true ↔ ∀ field ∈ fields, field.2.keyed = true := by
  induction fields with
  | nil => simp [Json.fieldsKeyed]
  | cons field rest ih => simp [Json.fieldsKeyed, ih]

theorem Json.keyed_dict
    {fields : Dict} : (Json.dict fields).keyed = true ↔ Dict.Keyed fields := by
  rw [Json.keyed, Bool.and_eq_true, decide_eq_true_eq, Json.fieldsKeyed_iff]
  exact ⟨fun hkeyed => ⟨hkeyed.1, hkeyed.2⟩, fun hkeyed => ⟨hkeyed.1, hkeyed.2⟩⟩

instance (fields : Dict) : Decidable (Dict.Keyed fields) :=
  decidable_of_iff _ Json.keyed_dict

section

variable {fields left right : Dict} {key other : String} {value : Json}

theorem Dict.get_of_mem
    (hdistinct : (fields.map Prod.fst).Nodup) {field : String × Json}
    (hfield : field ∈ fields) : Dict.get fields field.1 = field.2 := by
  induction fields with
  | nil => cases hfield
  | cons first rest ih =>
      rw [List.map_cons, List.nodup_cons] at hdistinct
      rcases List.mem_cons.mp hfield with rfl | hrest
      · simp [Dict.get]
      · have hne : first.1 ≠ field.1 := by
          intro hsame
          exact hdistinct.1 (hsame ▸ List.mem_map_of_mem hrest)
        simp [Dict.get, hne, ih hdistinct.2 hrest]

theorem Dict.contains_iff :
    Dict.contains fields key = true ↔ key ∈ fields.map Prod.fst := by
  simp [Dict.contains]

theorem Dict.exists_of_contains
    (hkey : Dict.contains fields key = true) :
    ∃ field ∈ fields, field.1 = key := by
  simpa [Dict.contains] using hkey

/-- Setting an entry again changes nothing. -/
theorem Dict.mem_set_of_agree
    (hagree : ∀ old, (key, old) ∈ fields → old = value) {field : String × Json} :
    field ∈ Dict.set fields key value ↔ field ∈ fields ∨ field = (key, value) := by
  induction fields with
  | nil => simp [Dict.set]
  | cons first rest ih =>
      obtain ⟨name, old⟩ := first
      by_cases hname : name = key
      · subst hname
        have hold := hagree old List.mem_cons_self
        simp only [Dict.set, if_true, hold, List.mem_cons]
        tauto
      · simp only [Dict.set, hname, if_false, List.mem_cons,
          ih fun old hold => hagree old (List.mem_cons_of_mem _ hold), or_assoc]

theorem Dict.mem_setdefault_of_agree
    (hagree : ∀ old, (key, old) ∈ fields → old = value) {field : String × Json} :
    field ∈ Dict.setdefault fields key value ↔ field ∈ fields ∨ field = (key, value) := by
  unfold Dict.setdefault
  split
  next hcontains =>
    obtain ⟨⟨name, old⟩, hmem, rfl⟩ := Dict.exists_of_contains hcontains
    rw [or_iff_left_of_imp]
    rintro rfl
    rwa [← hagree old hmem]
  · exact Dict.mem_set_of_agree hagree

/-! ## Distinct keys -/

theorem Dict.Keyed.get
    (hkeyed : Dict.Keyed fields) (key : String) : (Dict.get fields key).keyed = true := by
  by_cases hget : Dict.get fields key = .null
  · rw [hget]
    rfl
  · exact hkeyed.values _ (Dict.mem_of_get hget)

theorem Dict.Keyed.set
    (hkeyed : Dict.Keyed fields) (key : String) (hvalue : value.keyed = true) :
    Dict.Keyed (Dict.set fields key value) := by
  refine ⟨Dict.set_distinct hkeyed.distinct key value, ?_⟩
  have hvalues := hkeyed.values
  clear hkeyed
  induction fields with
  | nil => simpa [Dict.set] using hvalue
  | cons field rest ih =>
      simp only [List.forall_mem_cons] at hvalues
      unfold Dict.set
      split
      · exact List.forall_mem_cons.mpr ⟨hvalue, hvalues.2⟩
      · exact List.forall_mem_cons.mpr ⟨hvalues.1, ih hvalues.2⟩

theorem Dict.Keyed.setdefault
    (hkeyed : Dict.Keyed fields) (key : String) (hvalue : value.keyed = true) :
    Dict.Keyed (Dict.setdefault fields key value) := by
  unfold Dict.setdefault
  split
  · exact hkeyed
  · exact hkeyed.set key hvalue

theorem Dict.Keyed.filter
    (hkeyed : Dict.Keyed fields) (kept : String × Json → Bool) :
    Dict.Keyed (fields.filter kept) :=
  ⟨hkeyed.distinct.sublist (List.filter_sublist.map _),
    fun field hfield => hkeyed.values field (List.mem_filter.mp hfield).1⟩

theorem Dict.Keyed.pop
    (hkeyed : Dict.Keyed fields) (key : String) : Dict.Keyed (Dict.pop fields key) :=
  hkeyed.filter _

mutual

/-- A value is equal to itself. -/
theorem Json.equal_self : ∀ {value : Json}, value.keyed = true →
    Json.equal value value = true
  | .null, _ | .bool _, _ | .int _, _ | .float _, _ | .str _, _ => by simp [Json.equal]
  | .list items, hkeyed => by
      rw [Json.equal]
      exact Json.equalItems_self (by simpa [Json.keyed] using hkeyed)
  | .dict fields, hkeyed => by
      have hdistinct := (Json.keyed_dict.mp hkeyed).distinct
      rw [Json.keyed, Bool.and_eq_true] at hkeyed
      rw [Json.equal, decide_eq_true rfl, Bool.true_and]
      exact Json.equalFields_self hkeyed.2 fun field hfield =>
        ⟨Dict.contains_iff.mpr (List.mem_map_of_mem hfield),
          Dict.get_of_mem hdistinct hfield⟩

theorem Json.equalItems_self : ∀ {items : List Json}, Json.itemsKeyed items = true →
    Json.equalItems items items = true
  | [], _ => rfl
  | item :: rest, hkeyed => by
      rw [Json.itemsKeyed, Bool.and_eq_true] at hkeyed
      rw [Json.equalItems, Bool.and_eq_true]
      exact ⟨Json.equal_self hkeyed.1, Json.equalItems_self hkeyed.2⟩

theorem Json.equalFields_self : ∀ {fields : List (String × Json)} {whole : Dict},
    Json.fieldsKeyed fields = true →
    (∀ field ∈ fields, Dict.contains whole field.1 = true ∧
      Dict.get whole field.1 = field.2) →
    Json.equalFields fields whole = true
  | [], _, _, _ => by simp [Json.equalFields]
  | (key, value) :: rest, whole, hkeyed, hwhole => by
      rw [Json.fieldsKeyed, Bool.and_eq_true] at hkeyed
      rw [List.forall_mem_cons] at hwhole
      rw [Json.equalFields, hwhole.1.1, hwhole.1.2, Json.equal_self hkeyed.1,
        Json.equalFields_self hkeyed.2 hwhole.2]
      rfl

end

/-! ## Fields which may be absent -/

/-- The value under the key, if the key is there. -/
def Dict.find (fields : Dict) (key : String) : Option Json :=
  match fields with
  | [] => none
  | (name, value) :: rest => if name = key then some value else Dict.find rest key

theorem Dict.get_eq_find (fields : Dict) (key : String) :
    Dict.get fields key = (Dict.find fields key).getD .null := by
  induction fields with
  | nil => rfl
  | cons field rest ih =>
      by_cases hkey : field.1 = key <;> simp [Dict.get, Dict.find, hkey, ih]

theorem Dict.contains_eq_find (fields : Dict) (key : String) :
    Dict.contains fields key = (Dict.find fields key).isSome := by
  induction fields with
  | nil => rfl
  | cons field rest ih =>
      simp only [Dict.contains, List.any_cons] at ih ⊢
      by_cases hkey : field.1 = key <;> simp [Dict.find, hkey, ih]

theorem Dict.find_of_contains
    (hkey : Dict.contains fields key = true) :
    Dict.find fields key = some (Dict.get fields key) := by
  rw [Dict.contains_eq_find] at hkey
  obtain ⟨value, hvalue⟩ := Option.isSome_iff_exists.mp hkey
  rw [Dict.get_eq_find, hvalue]
  rfl

theorem Dict.find_eq_none :
    Dict.find fields key = none ↔ Dict.contains fields key = false := by
  rw [Dict.contains_eq_find, Option.isSome_eq_false_iff, Option.isNone_iff_eq_none]

@[simp] theorem Dict.find_set_same (fields : Dict) (key : String) (value : Json) :
    Dict.find (Dict.set fields key value) key = some value := by
  induction fields with
  | nil => simp [Dict.set, Dict.find]
  | cons field rest ih =>
      by_cases hkey : field.1 = key <;> simp [Dict.set, Dict.find, hkey, ih]

@[simp] theorem Dict.find_set_other (value : Json) (hne : key ≠ other) :
    Dict.find (Dict.set fields key value) other = Dict.find fields other := by
  induction fields with
  | nil => simp [Dict.set, Dict.find, hne]
  | cons field rest ih =>
      by_cases hkey : field.1 = key
      · simp [Dict.set, Dict.find, hkey, hne]
      · by_cases hother : field.1 = other <;>
          simp [Dict.set, Dict.find, hkey, hother, ih, hne.symm]

theorem Dict.find_filter {kept : String → Bool} :
    Dict.find (fields.filter fun field => kept field.1) key =
      if kept key then Dict.find fields key else none := by
  induction fields with
  | nil => simp [Dict.find]
  | cons field rest ih =>
      by_cases hfield : field.1 = key
      · subst hfield
        cases hkept : kept field.1 <;> simp [Dict.find, hkept, ih]
      · cases hkept : kept field.1 <;> simp [Dict.find, hkept, hfield, ih]

theorem Dict.find_pop :
    Dict.find (Dict.pop fields key) other =
      if other = key then none else Dict.find fields other := by
  have hfilter := @Dict.find_filter fields other fun field => decide (field ≠ key)
  simpa [Dict.pop] using hfilter

theorem Dict.find_setdefault (value : Json) :
    Dict.find (Dict.setdefault fields key value) other =
      if other = key then some ((Dict.find fields key).getD value)
      else Dict.find fields other := by
  unfold Dict.setdefault
  by_cases hother : other = key
  · subst hother
    rw [Dict.contains_eq_find]
    cases hfind : Dict.find fields other <;> simp [hfind]
  · split
    · simp
    · simp [Ne.symm hother]

theorem Dict.Keyed.find
    (hkeyed : Dict.Keyed fields) (hvalue : Dict.find fields key = some value) :
    value.keyed = true := by
  have hget := hkeyed.get key
  rwa [Dict.get_eq_find, hvalue] at hget

/-! ## Equality -/

/-- Two values which may be absent are equal. -/
def sameValue : (left right : Option Json) → Bool
  | none, none => true
  | some left, some right => Json.equal left right
  | none, some _ | some _, none => false

theorem sameValue_self
    {found : Option Json} (hkeyed : ∀ value ∈ found, value.keyed = true) :
    sameValue found found = true := by
  cases found with
  | none => rfl
  | some value => exact Json.equal_self (hkeyed value rfl)

theorem Dict.Keyed.sameValue
    (hkeyed : Dict.Keyed fields) (key : String) :
    sameValue (Dict.find fields key) (Dict.find fields key) = true :=
  sameValue_self fun _ hvalue => hkeyed.find hvalue

theorem Dict.contains_of_equal
    (hleft : (left.map Prod.fst).Nodup) (hlength : left.length = right.length)
    (hfields : ∀ field ∈ left, Dict.contains right field.1 = true) :
    Dict.contains left key = Dict.contains right key := by
  have hsubset : left.map Prod.fst ⊆ right.map Prod.fst := by
    intro name hname
    obtain ⟨field, hfield, rfl⟩ := List.mem_map.mp hname
    exact Dict.contains_iff.mp (hfields field hfield)
  have hperm : (left.map Prod.fst).Perm (right.map Prod.fst) :=
    (hleft.subperm hsubset).perm_of_length_le (by simp [hlength])
  rw [Bool.eq_iff_iff, Dict.contains_iff, Dict.contains_iff]
  exact hperm.mem_iff

theorem Dict.contains_of_sameValue
    (hsame : sameValue (Dict.find left key) (Dict.find right key) = true) :
    Dict.contains left key = Dict.contains right key := by
  rw [Dict.contains_eq_find, Dict.contains_eq_find]
  cases hfirst : Dict.find left key <;> cases hsecond : Dict.find right key <;>
    simp [hfirst, hsecond, ManagedAgents.sameValue] at hsame ⊢

theorem Dict.equal_iff
    (hleft : Dict.Keyed left) (hright : (right.map Prod.fst).Nodup) :
    Dict.equal left right = true ↔
      ∀ key, sameValue (Dict.find left key) (Dict.find right key) = true := by
  simp only [Dict.equal, Bool.or_eq_true, decide_eq_true_eq, Json.equal,
    Bool.and_eq_true, Json.equalFields_iff]
  constructor
  · rintro (rfl | ⟨hlength, hfields⟩) key
    · exact hleft.sameValue key
    · have hcontains := @Dict.contains_of_equal left right key hleft.distinct hlength
        fun field hfield => (hfields field hfield).1
      by_cases hkey : Dict.contains left key = true
      · obtain ⟨field, hfield, rfl⟩ := Dict.exists_of_contains hkey
        rw [Dict.find_of_contains hkey, Dict.find_of_contains (hcontains.symm.trans hkey),
          Dict.get_of_mem hleft.distinct hfield]
        exact (hfields field hfield).2
      · rw [Bool.not_eq_true] at hkey
        rw [Dict.find_eq_none.mpr hkey, Dict.find_eq_none.mpr (hcontains.symm.trans hkey)]
        rfl
  · intro hsame
    refine Or.inr ⟨?_, fun field hfield => ?_⟩
    · have hperm : (left.map Prod.fst).Perm (right.map Prod.fst) := by
        rw [List.perm_ext_iff_of_nodup hleft.distinct hright]
        intro key
        rw [← Dict.contains_iff, ← Dict.contains_iff,
          Dict.contains_of_sameValue (hsame key)]
      simpa using hperm.length_eq
    · have hcontains : Dict.contains left field.1 = true :=
        Dict.contains_iff.mpr (List.mem_map_of_mem hfield)
      have hright := (Dict.contains_of_sameValue (hsame field.1)).symm.trans hcontains
      have hvalue := hsame field.1
      rw [Dict.find_of_contains hcontains, Dict.find_of_contains hright,
        Dict.get_of_mem hleft.distinct hfield] at hvalue
      exact ⟨hright, hvalue⟩

end

/-! ## Equal texts -/

theorem Json.equal_text
    {value : Json} {text : String} (hequal : Json.equal value (.str text) = true) :
    value = .str text := by
  cases value <;> simp_all [Json.equal, Json.number, eq_comm]

theorem Json.equalItems_mem
    {items others : List Json} (hequal : Json.equalItems items others = true)
    {other : Json} (hother : other ∈ others) :
    ∃ item ∈ items, Json.equal item other = true := by
  induction items generalizing others with
  | nil =>
      cases others with
      | nil => cases hother
      | cons _ _ => simp [Json.equalItems] at hequal
  | cons item rest ih =>
      cases others with
      | nil => cases hother
      | cons first tail =>
          rw [Json.equalItems, Bool.and_eq_true] at hequal
          rcases List.mem_cons.mp hother with rfl | hmem
          · exact ⟨item, List.mem_cons_self, hequal.1⟩
          · obtain ⟨found, hfound, hsame⟩ := ih hequal.2 hmem
            exact ⟨found, List.mem_cons_of_mem _ hfound, hsame⟩

/-- Equal dictionaries have the same text under a key. -/
theorem Json.get_text_of_equal
    {fields others : Dict} {key text : String}
    (hkeyed : (fields.map Prod.fst).Nodup)
    (hequal : Json.equal (.dict fields) (.dict others) = true)
    (htext : Dict.get others key = .str text) : Dict.get fields key = .str text := by
  rw [Json.equal, Bool.and_eq_true, decide_eq_true_eq, Json.equalFields_iff] at hequal
  obtain ⟨hlength, hfields⟩ := hequal
  have hcontains : Dict.contains fields key = true := by
    rw [Dict.contains_of_equal hkeyed hlength fun field hfield =>
      (hfields field hfield).1]
    exact Dict.contains_of_get (by simp [htext])
  obtain ⟨field, hfield, rfl⟩ := Dict.exists_of_contains hcontains
  have hsame := (hfields field hfield).2
  rw [htext] at hsame
  rw [Dict.get_of_mem hkeyed hfield]
  exact Json.equal_text hsame

end ManagedAgents
