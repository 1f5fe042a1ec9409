import Mathlib.Data.List.Infix
import Mathlib.Data.List.TakeWhile
import Mathlib.Tactic

/-!
# Texts cut at a separator

A text is the join of its segments.  It starts with another text and a separator
exactly if it has more segments than the other one and starts with them, and it
has a segment between two separators exactly if that is neither its first nor
its last one.
-/

namespace Segments

theorem intercalate_append
    {α : Type*} (separator : List α) {front back : List (List α)} (hfront : front ≠ [])
    (hback : back ≠ []) :
    separator.intercalate (front ++ back) =
      separator.intercalate front ++ (separator ++ separator.intercalate back) := by
  induction front with
  | nil => exact absurd rfl hfront
  | cons first rest ih =>
      by_cases hrest : rest = []
      · subst hrest
        rw [List.singleton_append, List.intercalate_cons_of_ne_nil hback,
          List.intercalate_singleton, List.append_assoc]
      · rw [List.cons_append, List.intercalate_cons_of_ne_nil (by simp [hrest]), ih hrest,
          List.intercalate_cons_of_ne_nil hrest, List.append_assoc, List.append_assoc,
          List.append_assoc]

theorem mem_intercalate
    {α : Type*} {separator item : α} {segments : List (List α)}
    (hitem : item ∈ [separator].intercalate segments) :
    item = separator ∨ ∃ segment ∈ segments, item ∈ segment := by
  induction segments with
  | nil => simp at hitem
  | cons first rest ih =>
      by_cases hrest : rest = []
      · subst hrest
        rw [List.intercalate_singleton] at hitem
        exact Or.inr ⟨first, List.mem_cons_self, hitem⟩
      · rw [List.intercalate_cons_of_ne_nil hrest, List.append_assoc, List.mem_append,
          List.mem_append, List.mem_singleton] at hitem
        rcases hitem with hfirst | hseparator | hlater
        · exact Or.inr ⟨first, List.mem_cons_self, hfirst⟩
        · exact Or.inl hseparator
        · exact (ih hlater).imp_right fun ⟨segment, hsegment, hmem⟩ =>
            ⟨segment, List.mem_cons_of_mem _ hsegment, hmem⟩

variable {α : Type*} [DecidableEq α] {separator : α}

/-- The text is put together from its segments. -/
theorem eq_of_splitOn_eq_append
    {text : List α} {front back : List (List α)} (hfront : front ≠ []) (hback : back ≠ [])
    (hsplit : text.splitOn separator = front ++ back) :
    text =
      [separator].intercalate front ++ separator :: [separator].intercalate back := by
  have htext : [separator].intercalate (text.splitOn separator) = text :=
    List.intercalate_splitOn separator
  rw [← htext, hsplit, intercalate_append _ hfront hback]
  rfl

theorem splitOn_eq_append_iff
    {text first : List α} {back : List (List α)} :
    (∃ rest, text = first ++ separator :: rest ∧ rest.splitOn separator = back) ↔
      back ≠ [] ∧ text.splitOn separator = first.splitOn separator ++ back := by
  constructor
  · rintro ⟨rest, rfl, rfl⟩
    exact ⟨List.splitOn_ne_nil _ _, List.splitOn_append_cons_self first rest⟩
  · rintro ⟨hback, hsplit⟩
    have htext := eq_of_splitOn_eq_append (List.splitOn_ne_nil _ _) hback hsplit
    rw [List.intercalate_splitOn] at htext
    refine ⟨_, htext, ?_⟩
    rw [htext, List.splitOn_append_cons_self, List.append_cancel_left_eq] at hsplit
    exact hsplit

/-- The text starts with the other one and a separator. -/
theorem isPrefix_iff
    {text first : List α} :
    first ++ [separator] <+: text ↔
      ∃ back, back ≠ [] ∧
        text.splitOn separator = first.splitOn separator ++ back := by
  simp only [← splitOn_eq_append_iff]
  constructor
  · rintro ⟨rest, rfl⟩
    exact ⟨_, rest, by simp, rfl⟩
  · rintro ⟨-, rest, rfl, -⟩
    exact ⟨rest, by simp⟩

/-- The text has the segment between two separators. -/
theorem isInfix_iff
    {text segment : List α} (hsegment : separator ∉ segment) :
    separator :: segment ++ [separator] <:+: text ↔
      ∃ front back, front ≠ [] ∧ back ≠ [] ∧
        text.splitOn separator = front ++ segment :: back := by
  constructor
  · rintro ⟨front, back, rfl⟩
    refine ⟨_, _, List.splitOn_ne_nil separator front, List.splitOn_ne_nil separator back,
      ?_⟩
    have hsame : front ++ (separator :: segment ++ [separator]) ++ back =
        front ++ separator :: (segment ++ separator :: back) := by simp
    rw [hsame, List.splitOn_append_cons_self,
      List.splitOn_append_cons_self_of_not_mem hsegment]
  · rintro ⟨front, back, hfront, hback, hsplit⟩
    have htext := eq_of_splitOn_eq_append hfront (List.cons_ne_nil _ _) hsplit
    rw [List.intercalate_cons_of_ne_nil hback] at htext
    exact ⟨[separator].intercalate front, [separator].intercalate back, by simp [htext]⟩

theorem not_mem_of_mem_splitOn
    {text segment : List α} (hsegment : segment ∈ text.splitOn separator) :
    separator ∉ segment := by
  induction text generalizing segment with
  | nil =>
      rw [List.splitOn_nil, List.mem_singleton] at hsegment
      rw [hsegment]
      exact List.not_mem_nil
  | cons first rest ih =>
      rw [List.splitOn_cons_eq_if_modifyHead] at hsegment
      split at hsegment
      · rcases List.mem_cons.mp hsegment with rfl | hlater
        · exact List.not_mem_nil
        · exact ih hlater
      next hfirst =>
        obtain ⟨head, tail, hsplit⟩ :=
          List.exists_cons_of_ne_nil (List.splitOn_ne_nil separator rest)
        rw [hsplit, List.modifyHead_cons] at hsegment
        rw [hsplit] at ih
        rcases List.mem_cons.mp hsegment with rfl | hlater
        · rw [List.mem_cons, not_or]
          refine ⟨fun hsame => hfirst ?_, ih List.mem_cons_self⟩
          rw [hsame]
          exact beq_self_eq_true _
        · exact ih (List.mem_cons_of_mem _ hlater)

/-- The segments of a joined text are the ones it was joined from. -/
theorem splitOn_join
    {segments : List (List α)} (hsegments : ∀ segment ∈ segments, separator ∉ segment)
    (hne : segments ≠ []) :
    ([separator].intercalate segments).splitOn separator = segments :=
  List.splitOn_intercalate separator hsegments hne

/-- Without empty segments no separator stands at either end. -/
theorem dropWhile_of_splitOn
    {text : List α} (hsegments : [] ∉ text.splitOn separator) :
    text.dropWhile (· = separator) = text ∧
      text.reverse.dropWhile (· = separator) = text.reverse := by
  constructor
  · cases text with
    | nil => rfl
    | cons first rest =>
        have hfirst : first ≠ separator := by
          rintro rfl
          have hsplit := List.splitOn_append_cons_self (a := first) [] rest
          exact hsegments (by rw [← List.nil_append (first :: rest), hsplit]; simp)
        simp [hfirst]
  · cases hreverse : text.reverse with
    | nil => rfl
    | cons last rest =>
        have hlast : last ≠ separator := by
          rintro rfl
          have htext : text = rest.reverse ++ [last] := by
            rw [← List.reverse_cons, ← hreverse, List.reverse_reverse]
          have hsplit := List.splitOn_append_cons_self (a := last) rest.reverse []
          exact hsegments (by rw [htext, hsplit]; simp)
        simp [hlast]

/-- An element between the first one and the last one. -/
theorem exists_between_iff
    {β : Type*} {first last item : β} {middle : List β} :
    (∃ front back, front ≠ [] ∧ back ≠ [] ∧
      first :: (middle ++ [last]) = front ++ item :: back) ↔ item ∈ middle := by
  constructor
  · rintro ⟨front, back, hfront, hback, hsame⟩
    obtain ⟨head, front, rfl⟩ := List.exists_cons_of_ne_nil hfront
    obtain ⟨back, tail, rfl⟩ := List.eq_nil_or_concat'  back |>.resolve_left hback
    rw [List.cons_append, List.cons.injEq, ← List.cons_append, ← List.append_assoc]
      at hsame
    have hmiddle := List.append_inj_left' hsame.2 rfl
    rw [hmiddle]
    exact List.mem_append_right _ List.mem_cons_self
  · intro hitem
    obtain ⟨front, back, rfl⟩ := List.append_of_mem hitem
    exact ⟨first :: front, back ++ [last], List.cons_ne_nil _ _, by simp, by simp⟩

/-- Before equally many separators stands the same text. -/
theorem append_separator_inj
    {first other rest last : List α}
    (hsame : first ++ separator :: rest = other ++ separator :: last)
    (hcount : first.count separator = other.count separator) :
    first = other ∧ rest = last := by
  induction first generalizing other with
  | nil =>
      cases other with
      | nil => exact ⟨rfl, (List.cons.inj hsame).2⟩
      | cons head tail =>
          obtain rfl := (List.cons.inj hsame).1
          rw [List.count_nil, List.count_cons_self] at hcount
          omega
  | cons item first ih =>
      cases other with
      | nil =>
          obtain rfl := (List.cons.inj hsame).1
          rw [List.count_nil, List.count_cons_self] at hcount
          omega
      | cons head tail =>
          obtain ⟨rfl, hrest⟩ := List.cons.inj hsame
          rw [List.count_cons, List.count_cons, Nat.add_right_cancel_iff] at hcount
          obtain ⟨rfl, rfl⟩ := ih hrest hcount
          exact ⟨rfl, rfl⟩

/-- The first separator of a text and what stands on its two sides. -/
theorem eq_append_cons_iff
    {text front back : List α} :
    text = front ++ separator :: back ∧ separator ∉ front ↔
      separator ∈ text ∧ text.takeWhile (· ≠ separator) = front ∧
        (text.dropWhile (· ≠ separator)).tail = back := by
  constructor
  · rintro ⟨rfl, hfront⟩
    have hpasses : ∀ item ∈ front, decide (item ≠ separator) = true := by
      intro item hitem
      exact decide_eq_true fun hsame => hfront (hsame ▸ hitem)
    refine ⟨by simp, ?_, ?_⟩
    · rw [List.takeWhile_append_of_pos hpasses]
      simp
    · rw [List.dropWhile_append_of_pos hpasses]
      simp
  · rintro ⟨hmem, rfl, rfl⟩
    have hrest : text.dropWhile (· ≠ separator) ≠ [] := by
      intro hnil
      have hpasses := List.dropWhile_eq_nil_iff.mp hnil separator hmem
      simp at hpasses
    have hhead := List.head_dropWhile_not (· ≠ separator) hrest
    obtain ⟨first, back, hback⟩ := List.exists_cons_of_ne_nil hrest
    simp only [hback, List.head_cons] at hhead
    obtain rfl : first = separator := by simpa using hhead
    refine ⟨?_, fun hseparator => ?_⟩
    · rw [hback, List.tail_cons, ← hback, List.takeWhile_append_dropWhile]
    · simpa using List.mem_takeWhile_imp hseparator

end Segments
