import Mathlib.Data.List.Forall2
import ManagedAgents.JsonEquality

/-!
# Dictionaries which differ under some keys

Two dictionaries with the same keys in the same order which may have different
values under given keys.  Every operation of a dictionary keeps the agreement,
and a value which is set under one of these keys in both removes it from them.
-/

namespace ManagedAgents

/-- The same keys in the same order, and the same values under all other keys
than the given ones. -/
def Dict.AgreeExcept (keys : List String) (left right : Dict) : Prop :=
  List.Forall₂
    (fun field other => field.1 = other.1 ∧ (field.1 ∉ keys → field.2 = other.2))
    left right

section

variable {keys : List String} {left right : Dict}

theorem Dict.AgreeExcept.refl (keys : List String) (fields : Dict) :
    Dict.AgreeExcept keys fields fields :=
  List.forall₂_same.mpr fun _ _ => ⟨rfl, fun _ => rfl⟩

theorem Dict.AgreeExcept.eq_of_nil (hagree : Dict.AgreeExcept [] left right) :
    left = right := by
  induction hagree with
  | nil => rfl
  | cons hfield _ ih =>
      rw [ih, Prod.ext hfield.1 (hfield.2 List.not_mem_nil)]

theorem Dict.AgreeExcept.mono
    {more : List String} (hagree : Dict.AgreeExcept keys left right)
    (hkeys : ∀ key ∈ keys, key ∈ more) : Dict.AgreeExcept more left right :=
  hagree.imp fun _ _ hfield => ⟨hfield.1, fun hnot => hfield.2 (fun hmem =>
    hnot (hkeys _ hmem))⟩

theorem Dict.AgreeExcept.get
    {key : String} (hagree : Dict.AgreeExcept keys left right) (hkey : key ∉ keys) :
    Dict.get left key = Dict.get right key := by
  induction hagree with
  | nil => rfl
  | @cons field other _ _ hfield _ ih =>
      by_cases hfound : field.1 = key
      · have hvalue := hfield.2 (by rw [hfound]; exact hkey)
        simp [Dict.get, ← hfield.1, hfound, hvalue]
      · simp [Dict.get, ← hfield.1, hfound, ih]

theorem Dict.AgreeExcept.contains
    (hagree : Dict.AgreeExcept keys left right) (key : String) :
    Dict.contains left key = Dict.contains right key := by
  induction hagree with
  | nil => rfl
  | cons hfield _ ih =>
      simp only [Dict.contains, List.any_cons] at ih ⊢
      rw [hfield.1, ih]

theorem Dict.AgreeExcept.set
    (hagree : Dict.AgreeExcept keys left right) (key : String) (value : Json) :
    Dict.AgreeExcept keys (Dict.set left key value) (Dict.set right key value) := by
  induction hagree with
  | nil => exact Dict.AgreeExcept.refl keys _
  | @cons field other _ _ hfield hrest ih =>
      by_cases hfound : field.1 = key
      · simp only [Dict.set, ← hfield.1, hfound, if_true]
        exact .cons ⟨rfl, fun _ => rfl⟩ hrest
      · simp only [Dict.set, ← hfield.1, hfound, if_false]
        exact .cons ⟨rfl, hfield.2⟩ ih

/-- A key that does not occur makes no difference. -/
theorem Dict.AgreeExcept.of_absent
    {key : String} (hagree : Dict.AgreeExcept (key :: keys) left right)
    (habsent : key ∉ left.map Prod.fst) : Dict.AgreeExcept keys left right := by
  induction hagree with
  | nil => exact .nil
  | @cons field other _ _ hfield _ ih =>
      rw [List.map_cons, List.mem_cons, not_or] at habsent
      refine .cons ⟨hfield.1, fun hnot => hfield.2 ?_⟩ (ih habsent.2)
      rw [List.mem_cons, not_or]
      exact ⟨Ne.symm habsent.1, hnot⟩

/-- A key which is set no longer counts among those that may differ. -/
theorem Dict.AgreeExcept.set_hidden
    {key : String} (hagree : Dict.AgreeExcept (key :: keys) left right)
    (hdistinct : (left.map Prod.fst).Nodup) (value : Json) :
    Dict.AgreeExcept keys (Dict.set left key value) (Dict.set right key value) := by
  induction hagree with
  | nil => exact Dict.AgreeExcept.refl keys _
  | @cons field other rest others hfield hrest ih =>
      rw [List.map_cons, List.nodup_cons] at hdistinct
      by_cases hfound : field.1 = key
      · simp only [Dict.set, ← hfield.1, hfound, if_true]
        rw [hfound] at hdistinct
        exact .cons ⟨rfl, fun _ => rfl⟩
          (Dict.AgreeExcept.of_absent hrest hdistinct.1)
      · simp only [Dict.set, ← hfield.1, hfound, if_false]
        refine .cons ⟨rfl, fun hnot => hfield.2 ?_⟩ (ih hdistinct.2)
        rw [List.mem_cons, not_or]
        exact ⟨hfound, hnot⟩

/-- A key with the same value in both no longer counts either. -/
theorem Dict.AgreeExcept.of_get
    {key : String} (hagree : Dict.AgreeExcept (key :: keys) left right)
    (hdistinct : (left.map Prod.fst).Nodup)
    (hget : Dict.get left key = Dict.get right key) :
    Dict.AgreeExcept keys left right := by
  induction hagree with
  | nil => exact .nil
  | @cons field other rest others hfield hrest ih =>
      rw [List.map_cons, List.nodup_cons] at hdistinct
      by_cases hfound : field.1 = key
      · simp only [Dict.get, ← hfield.1, hfound, if_true] at hget
        rw [hfound] at hdistinct
        exact .cons ⟨hfield.1, fun _ => hget⟩
          (Dict.AgreeExcept.of_absent hrest hdistinct.1)
      · simp only [Dict.get, ← hfield.1, hfound, if_false] at hget
        refine .cons ⟨hfield.1, fun hnot => hfield.2 ?_⟩ (ih hdistinct.2 hget)
        rw [List.mem_cons, not_or]
        exact ⟨hfound, hnot⟩

theorem Dict.AgreeExcept.setdefault
    (hagree : Dict.AgreeExcept keys left right) (key : String) (value : Json) :
    Dict.AgreeExcept keys (Dict.setdefault left key value)
      (Dict.setdefault right key value) := by
  unfold Dict.setdefault
  rw [hagree.contains key]
  split
  · exact hagree
  · exact hagree.set key value

theorem Dict.AgreeExcept.pop
    (hagree : Dict.AgreeExcept keys left right) (key : String) :
    Dict.AgreeExcept keys (Dict.pop left key) (Dict.pop right key) := by
  unfold Dict.pop
  induction hagree with
  | nil => exact .nil
  | @cons field other _ _ hfield _ ih =>
      by_cases hfound : field.1 = key
      · simpa [List.filter_cons, ← hfield.1, hfound] using ih
      · have hcons : Dict.AgreeExcept keys (_ :: _) (_ :: _) := .cons hfield ih
        simpa only [List.filter_cons, ← hfield.1, hfound, ne_eq, not_false_eq_true,
          decide_true, if_true] using hcons

end

/-! ## Distinct keys -/

section

variable {fields : Dict}

theorem Dict.keys_set (fields : Dict) (key : String) (value : Json) :
    (Dict.set fields key value).map Prod.fst =
      if Dict.contains fields key then fields.map Prod.fst
      else fields.map Prod.fst ++ [key] := by
  induction fields with
  | nil => rfl
  | cons field rest ih =>
      by_cases hfound : field.1 = key
      · simp [Dict.set, Dict.contains, hfound]
      · simp only [Dict.contains] at ih
        simp only [Dict.set, hfound, if_false, Dict.contains, List.any_cons,
          decide_false, Bool.false_or, List.map_cons, ih]
        split
        next hrest => simp [hrest]
        next hrest => simp [hrest]

theorem Dict.contains_set_of_ne
    {fields : Dict} {key other : String} (value : Json) (hkey : key ≠ other) :
    Dict.contains (Dict.set fields key value) other = Dict.contains fields other := by
  induction fields with
  | nil => simpa [Dict.set, Dict.contains] using hkey
  | cons first rest ih =>
      simp only [Dict.contains] at ih
      by_cases hsame : first.1 = key
      · simp [Dict.set, Dict.contains, hsame]
      · simp [Dict.set, Dict.contains, hsame, ih]

theorem Dict.contains_set_self
    (fields : Dict) (key : String) (value : Json) :
    Dict.contains (Dict.set fields key value) key = true := by
  induction fields with
  | nil => simp [Dict.set, Dict.contains]
  | cons first rest ih =>
      simp only [Dict.contains] at ih
      by_cases hsame : first.1 = key
      · simp [Dict.set, Dict.contains, hsame]
      · simp [Dict.set, Dict.contains, hsame, ih]

theorem Dict.not_mem_keys
    {key : String} (hkey : Dict.contains fields key = false) :
    key ∉ fields.map Prod.fst := by
  intro hmem
  obtain ⟨field, hfield, hsame⟩ := List.mem_map.mp hmem
  have hcontains : Dict.contains fields key = true :=
    List.any_eq_true.mpr ⟨field, hfield, by simpa using hsame⟩
  rw [hkey] at hcontains
  cases hcontains

theorem Dict.set_distinct
    (hdistinct : (fields.map Prod.fst).Nodup) (key : String) (value : Json) :
    ((Dict.set fields key value).map Prod.fst).Nodup := by
  rw [Dict.keys_set]
  split
  · exact hdistinct
  next hkey =>
    rw [Bool.not_eq_true] at hkey
    rw [List.nodup_append]
    refine ⟨hdistinct, List.nodup_singleton _, ?_⟩
    rintro _ hmem _ hother rfl
    obtain rfl := List.mem_singleton.mp hother
    exact Dict.not_mem_keys hkey hmem

theorem Dict.setdefault_distinct
    (hdistinct : (fields.map Prod.fst).Nodup) (key : String) (value : Json) :
    ((Dict.setdefault fields key value).map Prod.fst).Nodup := by
  unfold Dict.setdefault
  split
  · exact hdistinct
  · exact Dict.set_distinct hdistinct key value

theorem Dict.pop_distinct
    (hdistinct : (fields.map Prod.fst).Nodup) (key : String) :
    ((Dict.pop fields key).map Prod.fst).Nodup :=
  hdistinct.sublist (List.filter_sublist.map _)

end

/-! ## Both together -/

/-- Dictionaries with distinct keys which agree. -/
structure Dict.Alike (keys : List String) (left right : Dict) : Prop where
  agree : Dict.AgreeExcept keys left right
  distinct : (left.map Prod.fst).Nodup

section

variable {keys : List String} {left right : Dict}

theorem Dict.Alike.set
    (halike : Dict.Alike keys left right) (key : String) (value : Json) :
    Dict.Alike keys (Dict.set left key value) (Dict.set right key value) :=
  ⟨halike.agree.set key value, Dict.set_distinct halike.distinct key value⟩

theorem Dict.Alike.set_hidden
    {key : String} (halike : Dict.Alike (key :: keys) left right) (value : Json) :
    Dict.Alike keys (Dict.set left key value) (Dict.set right key value) :=
  ⟨halike.agree.set_hidden halike.distinct value,
    Dict.set_distinct halike.distinct key value⟩

theorem Dict.Alike.setdefault
    (halike : Dict.Alike keys left right) (key : String) (value : Json) :
    Dict.Alike keys (Dict.setdefault left key value) (Dict.setdefault right key value) :=
  ⟨halike.agree.setdefault key value, Dict.setdefault_distinct halike.distinct key value⟩

theorem Dict.Alike.pop
    (halike : Dict.Alike keys left right) (key : String) :
    Dict.Alike keys (Dict.pop left key) (Dict.pop right key) :=
  ⟨halike.agree.pop key, Dict.pop_distinct halike.distinct key⟩

theorem Dict.Alike.of_get
    {key : String} (halike : Dict.Alike (key :: keys) left right)
    (hget : Dict.get left key = Dict.get right key) : Dict.Alike keys left right :=
  ⟨halike.agree.of_get halike.distinct hget, halike.distinct⟩

end

end ManagedAgents
