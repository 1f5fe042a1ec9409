import Mathlib.Data.List.Forall2
import Mathlib.Tactic.Basic

/-!
# Computations that may fail

How a sequence of fallible steps ends: with a value when every step gave one,
and with an error when a step failed after the ones before it succeeded.
-/

namespace Fallible

variable {Error Value Result : Type}

/-- Stop with the error if the condition holds. -/
def raiseIf (condition : Prop) [Decidable condition] (error : Error) :
    Except Error Unit :=
  if condition then .error error else .ok ()

@[simp] theorem raiseIf_eq_ok
    {condition : Prop} [Decidable condition] {error : Error} {value : Unit} :
    raiseIf condition error = .ok value ↔ ¬condition := by
  unfold raiseIf
  split <;> simp_all

theorem bind_eq_ok
    {first : Except Error Value}
    {second : Value → Except Error Result} {result : Result} :
    (first >>= second) = .ok result ↔
      ∃ value, first = .ok value ∧ second value = .ok result := by
  cases first <;> simp [bind, Except.bind]

theorem bind_eq_error
    {first : Except Error Value}
    {second : Value → Except Error Result} {error : Error} :
    (first >>= second) = .error error ↔
      first = .error error ∨
        ∃ value, first = .ok value ∧ second value = .error error := by
  cases first <;> simp [bind, Except.bind]

/-- Steps with the same start whose ends differ by a map of the results. -/
theorem bind_eq_map
    {computation : Except Error Value} {first second : Value → Except Error Result}
    {edit : Result → Result} (hsame : ∀ value, first value = (second value).map edit) :
    (computation >>= first) = (computation >>= second).map edit := by
  cases computation with
  | error error => rfl
  | ok value => exact hsame value

/-- The start may differ by a map too. -/
theorem map_bind_eq_map
    {computation : Except Error Value} {first second : Value → Except Error Result}
    {change : Value → Value} {edit : Result → Result}
    (hsame : ∀ value, first (change value) = (second value).map edit) :
    (computation.map change >>= first) = (computation >>= second).map edit := by
  cases computation with
  | error error => rfl
  | ok value => exact hsame value

@[simp] theorem pure_eq_ok {given value : Value} :
    (pure given : Except Error Value) = .ok value ↔ given = value := by
  simp [pure, Except.pure]

theorem map_eq_ok
    {computation : Except Error Value} {edit : Value → Result} {result : Result} :
    edit <$> computation = .ok result ↔
      ∃ value, computation = .ok value ∧ edit value = result := by
  cases computation <;> simp [Functor.map, Except.map]

/-! ## Lists of computations -/

theorem exists_mapM_eq_ok_iff
    {Item : Type} {computation : Item → Except Error Value} {items : List Item} :
    (∃ values, items.mapM computation = .ok values) ↔
      ∀ item ∈ items, ∃ value, computation item = .ok value := by
  induction items with
  | nil => simp
  | cons item items ih =>
      simp only [List.mapM_cons, bind_eq_ok, pure_eq_ok, List.forall_mem_cons, ← ih]
      constructor
      · rintro ⟨-, value, hvalue, rest, hrest, -⟩
        exact ⟨⟨value, hvalue⟩, rest, hrest⟩
      · rintro ⟨⟨value, hvalue⟩, rest, hrest⟩
        exact ⟨value :: rest, value, hvalue, rest, hrest, rfl⟩

theorem mem_of_mapM
    {Item : Type} {computation : Item → Except Error Value} {items : List Item}
    {values : List Value} (hvalues : items.mapM computation = .ok values)
    {value : Value} :
    value ∈ values ↔ ∃ item ∈ items, computation item = .ok value := by
  induction items generalizing values with
  | nil =>
      cases hvalues
      simp
  | cons item items ih =>
      simp only [List.mapM_cons, bind_eq_ok, pure_eq_ok] at hvalues
      obtain ⟨first, hfirst, rest, hrest, rfl⟩ := hvalues
      simp only [List.mem_cons, exists_eq_or_imp, hfirst, Except.ok.injEq, ih hrest]
      rw [eq_comm]

/-- A property of the results that is known from the items. -/
theorem map_of_mapM
    {Item Mark : Type} {computation : Item → Except Error Value} {items : List Item}
    {values : List Value} {before : Item → Mark} {after : Value → Mark}
    (hvalues : items.mapM computation = .ok values)
    (hsame : ∀ item ∈ items, ∀ value, computation item = .ok value →
      after value = before item) :
    values.map after = items.map before := by
  induction items generalizing values with
  | nil =>
      cases hvalues
      rfl
  | cons item items ih =>
      simp only [List.mapM_cons, bind_eq_ok, pure_eq_ok] at hvalues
      obtain ⟨value, hvalue, rest, hrest, rfl⟩ := hvalues
      rw [List.map_cons, List.map_cons, hsame item List.mem_cons_self value hvalue,
        ih hrest fun other hother => hsame other (List.mem_cons_of_mem _ hother)]

/-! ## Optional values -/

/-- Items that are read one by one, where each value stands for a code. -/
theorem mapM_eq_some_iff
    {Item Code : Type} {read : Item → Option Value} {Denotes : Item → Code → Prop}
    {valueOf : Code → Value}
    (hread : ∀ item value, read item = some value ↔
      ∃ code, Denotes item code ∧ valueOf code = value)
    {items : List Item} {values : List Value} :
    items.mapM read = some values ↔
      ∃ codes, List.Forall₂ Denotes items codes ∧ codes.map valueOf = values := by
  induction items generalizing values with
  | nil =>
      simp only [List.mapM_nil, List.forall₂_nil_left_iff, exists_eq_left, List.map_nil]
      exact Option.some_inj
  | cons item items ih =>
      simp only [List.mapM_cons, Option.bind_eq_bind, Option.bind_eq_some_iff, hread, ih,
        List.forall₂_cons_left_iff]
      constructor
      · rintro ⟨_, ⟨code, hcode, rfl⟩, _, ⟨codes, hcodes, rfl⟩, hvalues⟩
        exact ⟨code :: codes, ⟨code, codes, hcode, hcodes, rfl⟩, Option.some.inj hvalues⟩
      · rintro ⟨_, ⟨code, codes, hcode, hcodes, rfl⟩, rfl⟩
        exact ⟨_, ⟨code, hcode, rfl⟩, _, ⟨codes, hcodes, rfl⟩, rfl⟩

/-! ## Kinds of errors -/

/-- Every error of the computation is of the kind. -/
def OnlyRaises (kind : Error → Prop) (computation : Except Error Value) : Prop :=
  ∀ error, computation = .error error → kind error

@[simp] theorem onlyRaises_ok (kind : Error → Prop) (value : Value) :
    OnlyRaises kind (.ok value : Except Error Value) := by
  simp [OnlyRaises]

@[simp] theorem onlyRaises_pure (kind : Error → Prop) (value : Value) :
    OnlyRaises kind (pure value : Except Error Value) :=
  onlyRaises_ok kind value

@[simp] theorem onlyRaises_error {kind : Error → Prop} {error : Error} :
    OnlyRaises kind (.error error : Except Error Value) ↔ kind error := by
  simp [OnlyRaises]

@[simp] theorem onlyRaises_throw {kind : Error → Prop} {error : Error} :
    OnlyRaises kind (throw error : Except Error Value) ↔ kind error :=
  onlyRaises_error

@[simp] theorem onlyRaises_raiseIf
    {kind : Error → Prop} {condition : Prop} [Decidable condition] {error : Error} :
    OnlyRaises kind (raiseIf condition error) ↔ (condition → kind error) := by
  unfold raiseIf
  split <;> simp_all

@[simp] theorem onlyRaises_ite
    {kind : Error → Prop} {condition : Prop} [Decidable condition]
    {first second : Except Error Value} :
    OnlyRaises kind (if condition then first else second) ↔
      (condition → OnlyRaises kind first) ∧ (¬condition → OnlyRaises kind second) := by
  split <;> simp_all

theorem onlyRaises_bind
    {kind : Error → Prop} {first : Except Error Value}
    {second : Value → Except Error Result} :
    OnlyRaises kind (first >>= second) ↔
      OnlyRaises kind first ∧
        ∀ value, first = .ok value → OnlyRaises kind (second value) := by
  cases first with
  | error error => simp [bind, Except.bind]
  | ok value => simp [bind, Except.bind]

@[simp] theorem onlyRaises_map
    {kind : Error → Prop} {computation : Except Error Value} {edit : Value → Result} :
    OnlyRaises kind (edit <$> computation) ↔ OnlyRaises kind computation := by
  cases computation with
  | error error => simp [Functor.map, Except.map]
  | ok value => simp [Functor.map, Except.map]

/-- A sequence raises what its steps raise. -/
theorem OnlyRaises.bind
    {kind : Error → Prop} {first : Except Error Value}
    {second : Value → Except Error Result} (hfirst : OnlyRaises kind first)
    (hsecond : ∀ value, OnlyRaises kind (second value)) :
    OnlyRaises kind (first >>= second) :=
  onlyRaises_bind.mpr ⟨hfirst, fun value _ => hsecond value⟩

theorem OnlyRaises.mapM
    {kind : Error → Prop} {Item : Type} {computation : Item → Except Error Value}
    (hitems : ∀ item, OnlyRaises kind (computation item)) (items : List Item) :
    OnlyRaises kind (items.mapM computation) := by
  induction items with
  | nil => exact onlyRaises_pure _ _
  | cons item rest ih =>
      rw [List.mapM_cons]
      exact (hitems item).bind fun _ => ih.bind fun _ => onlyRaises_pure _ _

/-- The computation fails with an error of the kind. -/
def Raises (kind : Error → Prop) (computation : Except Error Value) : Prop :=
  ∃ error, computation = .error error ∧ kind error

@[simp] theorem not_raises_ok (kind : Error → Prop) (value : Value) :
    ¬Raises kind (.ok value : Except Error Value) := by
  simp [Raises]

@[simp] theorem raises_error {kind : Error → Prop} {error : Error} :
    Raises kind (.error error : Except Error Value) ↔ kind error := by
  simp [Raises]

theorem OnlyRaises.not_raises
    {kind other : Error → Prop} {computation : Except Error Value}
    (honly : OnlyRaises other computation) (hother : ∀ error, other error → ¬kind error) :
    ¬Raises kind computation := by
  rintro ⟨error, herror, hkind⟩
  exact hother error (honly error herror) hkind

@[simp] theorem raises_map
    {kind : Error → Prop} {computation : Except Error Value} {edit : Value → Result} :
    Raises kind (edit <$> computation) ↔ Raises kind computation := by
  cases computation with
  | error error => simp [Functor.map, Except.map, Raises]
  | ok value => simp [Functor.map, Except.map, Raises]

/-- The first step of a sequence fails, or a later one. -/
theorem raises_bind
    {kind : Error → Prop} {first : Except Error Value}
    {second : Value → Except Error Result} :
    Raises kind (first >>= second) ↔
      Raises kind first ∨ ∃ value, first = .ok value ∧ Raises kind (second value) := by
  cases first with
  | error error => simp [bind, Except.bind, Raises]
  | ok value => simp [bind, Except.bind, Raises]

/-- The value of a computation which succeeds. -/
theorem eq_ok_get
    {computation : Except Error Value} (hvalue : computation.toOption.isSome = true) :
    computation = .ok (computation.toOption.get hvalue) := by
  cases computation with
  | error error => cases hvalue
  | ok value => rfl

end Fallible
