import Mathlib.Data.Finset.Card
import Mathlib.Tactic

/-!
# The first elements with a property

The first so many elements of an order which have a property, as a list.  A map takes
them to the first elements with another property exactly if it keeps their order and
leaves nothing out.
-/

namespace FirstElements

variable {α : Type*} [LinearOrder α] {count : ℕ} {P Q : α → Prop} {elements : List α}

/-- All elements with the property in increasing order, or the first so many of them. -/
structure IsFirst (count : ℕ) (P : α → Prop) (elements : List α) : Prop where
  increasing : elements.Pairwise (· < ·)
  holds : ∀ element ∈ elements, P element
  length_le : elements.length ≤ count
  complete : ∀ element, P element →
    element ∈ elements ∨ (elements.length = count ∧ ∀ other ∈ elements, other < element)

/-- Fewer than so many elements with the property come before the element. -/
def AmongFirst (count : ℕ) (P : α → Prop) (element : α) : Prop :=
  P element ∧ ∀ before : Finset α, (∀ other ∈ before, P other ∧ other < element) →
    before.card < count

def AtLeast (count : ℕ) (P : α → Prop) : Prop :=
  ∃ chosen : Finset α, chosen.card = count ∧ ∀ element ∈ chosen, P element

/-! ## Building the list -/

theorem isFirst_nil (hnone : ∀ element, ¬P element) : IsFirst count P [] where
  increasing := List.Pairwise.nil
  holds := by simp
  length_le := Nat.zero_le _
  complete := fun element helement => absurd helement (hnone element)

theorem isFirst_zero : IsFirst 0 P [] where
  increasing := List.Pairwise.nil
  holds := by simp
  length_le := le_rfl
  complete := fun _ _ => Or.inr ⟨rfl, by simp⟩

theorem IsFirst.congr
    (hfirst : IsFirst count P elements) (hsame : ∀ element, P element ↔ Q element) :
    IsFirst count Q elements := by
  obtain rfl : P = Q := funext fun element => propext (hsame element)
  exact hfirst

theorem IsFirst.cons
    {first : α} {rest : List α} (hholds : P first)
    (hleast : ∀ element, P element → first ≤ element)
    (hrest : IsFirst count (fun element => P element ∧ first < element) rest) :
    IsFirst (count + 1) P (first :: rest) where
  increasing :=
    List.pairwise_cons.mpr ⟨fun other hother => (hrest.holds other hother).2,
      hrest.increasing⟩
  holds := List.forall_mem_cons.mpr
    ⟨hholds, fun other hother => (hrest.holds other hother).1⟩
  length_le := Nat.succ_le_succ hrest.length_le
  complete := by
    intro element helement
    rcases (hleast element helement).eq_or_lt with rfl | hlater
    · exact Or.inl List.mem_cons_self
    · rcases hrest.complete element ⟨helement, hlater⟩ with hmem | ⟨hlength, hafter⟩
      · exact Or.inl (List.mem_cons_of_mem _ hmem)
      · exact Or.inr ⟨congrArg (· + 1) hlength, List.forall_mem_cons.mpr ⟨hlater, hafter⟩⟩

/-! ## What the list has -/

theorem IsFirst.card_toFinset (hfirst : IsFirst count P elements) :
    elements.toFinset.card = elements.length :=
  List.toFinset_card_of_nodup (hfirst.increasing.imp ne_of_lt)

theorem IsFirst.mem_iff (hfirst : IsFirst count P elements) {element : α} :
    element ∈ elements ↔ AmongFirst count P element := by
  constructor
  · intro hmem
    refine ⟨hfirst.holds element hmem, fun before hbefore => ?_⟩
    have hsubset : before ⊆ elements.toFinset.erase element := by
      intro other hother
      obtain ⟨hholds, hless⟩ := hbefore other hother
      rw [Finset.mem_erase, List.mem_toFinset]
      refine ⟨hless.ne, (hfirst.complete other hholds).resolve_right ?_⟩
      rintro ⟨-, hafter⟩
      exact (hafter element hmem).asymm hless
    have hcard := Finset.card_le_card hsubset
    rw [Finset.card_erase_of_mem (List.mem_toFinset.mpr hmem), hfirst.card_toFinset]
      at hcard
    have hpos := List.length_pos_of_mem hmem
    have hlength := hfirst.length_le
    omega
  · rintro ⟨hholds, hfew⟩
    refine (hfirst.complete element hholds).resolve_right ?_
    rintro ⟨hlength, hafter⟩
    have hcard := hfew elements.toFinset fun other hother =>
      ⟨hfirst.holds other (List.mem_toFinset.mp hother),
        hafter other (List.mem_toFinset.mp hother)⟩
    rw [hfirst.card_toFinset] at hcard
    omega

theorem IsFirst.length_eq_iff (hfirst : IsFirst count P elements) :
    elements.length = count ↔ AtLeast count P := by
  constructor
  · intro hlength
    exact ⟨elements.toFinset, hfirst.card_toFinset.trans hlength, fun element helement =>
      hfirst.holds element (List.mem_toFinset.mp helement)⟩
  · rintro ⟨chosen, hcard, hchosen⟩
    by_contra hshort
    have hsubset : chosen ⊆ elements.toFinset := by
      intro element helement
      rw [List.mem_toFinset]
      exact (hfirst.complete element (hchosen element helement)).resolve_right
        fun hfull => hshort hfull.1
    have hle := Finset.card_le_card hsubset
    rw [hfirst.card_toFinset] at hle
    exact hshort (hfirst.length_le.antisymm (hcard ▸ hle))

omit [LinearOrder α] in
theorem AtLeast.mono
    (hmany : AtLeast count P) (himp : ∀ element, P element → Q element) :
    AtLeast count Q := by
  obtain ⟨chosen, hcard, hchosen⟩ := hmany
  exact ⟨chosen, hcard, fun element helement => himp element (hchosen element helement)⟩

/-- Where enough elements come first, the first ones are among them. -/
theorem AmongFirst.le_of_atLeast
    {element bound : α} (helement : AmongFirst count P element)
    (hmany : AtLeast count fun other => P other ∧ other ≤ bound) : element ≤ bound := by
  obtain ⟨chosen, hcard, hchosen⟩ := hmany
  by_contra hlate
  have hfew := helement.2 chosen fun other hother =>
    ⟨(hchosen other hother).1, (hchosen other hother).2.trans_lt (not_le.mp hlate)⟩
  omega

theorem AmongFirst.lt_of_not
    {element other : α} (helement : AmongFirst count P element) (hother : P other)
    (hnot : ¬AmongFirst count P other) : element < other := by
  by_contra hlate
  refine hnot ⟨hother, fun before hbefore => helement.2 before fun earlier hearlier => ?_⟩
  obtain ⟨hholds, hless⟩ := hbefore earlier hearlier
  exact ⟨hholds, hless.trans_le (not_lt.mp hlate)⟩

/-! ## Maps -/

/-- The map takes the first elements with the one property to those with the other. -/
structure Carries {β : Type*} [LinearOrder β] (count : ℕ) (P : α → Prop) (Q : β → Prop)
    (image : α → β) : Prop where
  holds : ∀ element, AmongFirst count P element → Q (image element)
  increasing : ∀ first second, AmongFirst count P first → AmongFirst count P second →
    first < second → image first < image second
  complete : ∀ value, Q value →
    (∃ element, AmongFirst count P element ∧ image element = value) ∨
      (AtLeast count P ∧ ∀ element, AmongFirst count P element → image element < value)

theorem IsFirst.map_iff
    {β : Type*} [LinearOrder β] {Q : β → Prop} {image : α → β}
    (hfirst : IsFirst count P elements) :
    IsFirst count Q (elements.map image) ↔ Carries count P Q image := by
  have hmem := fun element => @IsFirst.mem_iff _ _ _ _ _ hfirst element
  constructor
  · intro himage
    refine ⟨fun element helement => ?_, ?_, fun value hvalue => ?_⟩
    · exact himage.holds _ (List.mem_map_of_mem ((hmem element).mpr helement))
    · have hforward : elements.Pairwise fun first second =>
          first < second → image first < image second := by
        refine (List.pairwise_map.mp himage.increasing).imp ?_
        exact fun hless _ => hless
      have hbackward : elements.Pairwise (flip fun first second =>
          first < second → image first < image second) :=
        hfirst.increasing.imp fun hless hgreater => absurd hless hgreater.asymm
      have hall := List.Pairwise.forall_of_forall_of_flip
        (fun element _ hless => absurd hless (lt_irrefl element)) hforward hbackward
      exact fun first second hone hother =>
        hall ((hmem first).mpr hone) ((hmem second).mpr hother)
    · rcases himage.complete value hvalue with hvalue | ⟨hlength, hafter⟩
      · obtain ⟨element, helement, rfl⟩ := List.mem_map.mp hvalue
        exact Or.inl ⟨element, (hmem element).mp helement, rfl⟩
      · rw [List.length_map] at hlength
        exact Or.inr ⟨hfirst.length_eq_iff.mp hlength, fun element helement =>
          hafter _ (List.mem_map_of_mem ((hmem element).mpr helement))⟩
  · intro hcarries
    refine ⟨?_, ?_, ?_, fun value hvalue => ?_⟩
    · exact List.pairwise_map.mpr (hfirst.increasing.imp_of_mem fun hone hother hless =>
        hcarries.increasing _ _ ((hmem _).mp hone) ((hmem _).mp hother) hless)
    · rw [List.forall_mem_map]
      exact fun element helement => hcarries.holds element ((hmem element).mp helement)
    · rw [List.length_map]
      exact hfirst.length_le
    · rcases hcarries.complete value hvalue with
        ⟨element, helement, rfl⟩ | ⟨hmany, hafter⟩
      · exact Or.inl (List.mem_map_of_mem ((hmem element).mpr helement))
      · refine Or.inr ⟨?_, List.forall_mem_map.mpr fun element helement =>
          hafter element ((hmem element).mp helement)⟩
        rw [List.length_map]
        exact hfirst.length_eq_iff.mpr hmany

end FirstElements
