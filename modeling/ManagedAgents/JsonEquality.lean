import ManagedAgents.Python

/-!
# Equality and keys of dictionaries

Python's `==` on JSON values: numbers are compared by value whatever their
type, and dictionaries without regard to the order of their keys.  A value
counts as equal to itself, as it does inside containers.
-/

namespace ManagedAgents

/-- `bool` is a subclass of `int`. -/
def Json.number : Json → Option PyFloat
  | .bool value => some (.finite (if value then 1 else 0))
  | .int value => some (.finite value)
  | .float value => some value
  | .null | .str _ | .list _ | .dict _ => none

mutual

/-- `left == right`. -/
def Json.equal : (left right : Json) → Bool
  | .null, right => right = .null
  | .bool value, right => Json.number right = Json.number (.bool value)
  | .int value, right => Json.number right = Json.number (.int value)
  | .float value, right => Json.number right = Json.number (.float value)
  | .str value, right => right = .str value
  | .list items, .list others => Json.equalItems items others
  | .dict fields, .dict others =>
      fields.length = others.length && Json.equalFields fields others
  | .list _, _ | .dict _, _ => false

def Json.equalItems : (left right : List Json) → Bool
  | [], [] => true
  | x :: xs, y :: ys => Json.equal x y && Json.equalItems xs ys
  | [], _ :: _ | _ :: _, [] => false

/-- Every key is in the other dictionary too and has an equal value there. -/
def Json.equalFields : (left right : List (String × Json)) → Bool
  | [], _ => true
  | (key, value) :: rest, others =>
      Dict.contains others key && Json.equal value (Dict.get others key) &&
        Json.equalFields rest others

end

/-- `left == right` of two dictionaries. -/
def Dict.equal (left right : Dict) : Bool :=
  left = right || Json.equal (.dict left) (.dict right)

@[simp] theorem Dict.equal_self (fields : Dict) : Dict.equal fields fields = true := by
  simp [Dict.equal]

theorem Json.equalFields_iff (left right : Dict) :
    Json.equalFields left right = true ↔
      ∀ field ∈ left, Dict.contains right field.1 = true ∧
        Json.equal field.2 (Dict.get right field.1) = true := by
  induction left with
  | nil => simp [Json.equalFields]
  | cons field rest ih => simp [Json.equalFields, ih]

/-! ## Keys -/

/-- Nothing but a text is equal to a text. -/
theorem Json.equalItems_texts
    {texts : List String} {items : List Json} :
    Json.equalItems (texts.map .str) items = true ↔ items = texts.map .str := by
  induction texts generalizing items with
  | nil => cases items <;> simp [Json.equalItems]
  | cons text rest ih =>
      cases items with
      | nil => simp [Json.equalItems]
      | cons item items =>
          simp only [List.map_cons, Json.equalItems, Json.equal, Bool.and_eq_true,
            decide_eq_true_eq, ih, List.cons.injEq]

theorem Dict.mem_of_get
    {fields : Dict} {key : String} (hget : Dict.get fields key ≠ .null) :
    (key, Dict.get fields key) ∈ fields := by
  induction fields with
  | nil => exact absurd rfl hget
  | cons field rest ih =>
      by_cases hkey : field.1 = key
      · subst hkey
        simp [Dict.get]
      · simp only [Dict.get, hkey, if_false] at hget ⊢
        exact List.mem_cons_of_mem _ (ih hget)

theorem Dict.contains_of_get
    {fields : Dict} {key : String} (hget : Dict.get fields key ≠ .null) :
    Dict.contains fields key = true :=
  List.any_eq_true.mpr ⟨_, Dict.mem_of_get hget, by simp⟩

theorem Dict.get_of_not_contains
    {fields : Dict} {key : String} (hkey : Dict.contains fields key = false) :
    Dict.get fields key = .null := by
  by_contra hget
  rw [Dict.contains_of_get hget] at hkey
  cases hkey

@[simp] theorem Dict.get_pop_same (fields : Dict) (key : String) :
    Dict.get (Dict.pop fields key) key = .null := by
  apply Dict.get_of_not_contains
  simp [Dict.contains, Dict.pop]

theorem Dict.get_filter
    {fields : Dict} {key : String} {kept : String → Bool} (hkey : kept key = true) :
    Dict.get (fields.filter fun field => kept field.1) key = Dict.get fields key := by
  induction fields with
  | nil => rfl
  | cons field rest ih =>
      by_cases hfield : field.1 = key
      · subst hfield
        simp [Dict.get, hkey]
      · cases hkept : kept field.1 <;>
          simp [Dict.get, hkept, hfield, ih]

@[simp] theorem Dict.get_pop_other
    {fields : Dict} {key other : String} (hne : key ≠ other) :
    Dict.get (Dict.pop fields key) other = Dict.get fields other :=
  @Dict.get_filter fields other (fun field => decide (field ≠ key)) (by simp [hne.symm])

@[simp] theorem Dict.contains_pop_other
    {fields : Dict} {key other : String} (hne : key ≠ other) :
    Dict.contains (Dict.pop fields key) other = Dict.contains fields other := by
  unfold Dict.contains Dict.pop
  rw [List.any_filter]
  congr 1
  funext field
  by_cases hother : field.1 = other
  · simp [hother, hne.symm]
  · simp [hother]

theorem Dict.set_get_self
    {fields : Dict} {key : String} (hkey : Dict.get fields key ≠ .null) :
    Dict.set fields key (Dict.get fields key) = fields := by
  induction fields with
  | nil => exact absurd rfl hkey
  | cons field rest ih =>
      by_cases hfield : field.1 = key
      · subst hfield
        simp [Dict.set, Dict.get]
      · simp only [Dict.get, hfield, if_false] at hkey
        simp [Dict.set, Dict.get, hfield, ih hkey]

/-- Equal dictionaries have equal values under every key. -/
theorem Dict.get_equal_of_equal
    {left right : Dict} {key : String} (hequal : Dict.equal left right = true)
    (hget : Dict.get left key ≠ .null) :
    Dict.get left key = Dict.get right key ∨
      Json.equal (Dict.get left key) (Dict.get right key) = true := by
  simp only [Dict.equal, Bool.or_eq_true, decide_eq_true_eq] at hequal
  rcases hequal with rfl | hequal
  · exact Or.inl rfl
  · simp only [Json.equal, Bool.and_eq_true] at hequal
    exact Or.inr
      ((Json.equalFields_iff left right).mp hequal.2 _ (Dict.mem_of_get hget)).2

/-- Dictionaries with different numbers under a key are not equal. -/
theorem Dict.equal_of_int_ne
    {left right : Dict} {key : String} {first second : ℤ}
    (hleft : Dict.get left key = .int first) (hright : Dict.get right key = .int second)
    (hne : first ≠ second) :
    Dict.equal left right = false := by
  rw [← Bool.not_eq_true]
  intro hequal
  have hsome : Dict.get left key ≠ .null := by simp [hleft]
  rcases Dict.get_equal_of_equal hequal hsome with hsame | hsame
  · rw [hleft, hright, Json.int.injEq] at hsame
    exact hne hsame
  · rw [hleft, hright] at hsame
    simp [Json.equal, Json.number, hne.symm] at hsame

end ManagedAgents
