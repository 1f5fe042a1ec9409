import Mathlib.Data.List.Basic

/-!
# Lists cut by keys

The items of a list that belong to some key, taken key by key, are those items
of the list that belong to a key at all.
-/

namespace Partitions

variable {Key Item : Type*}

/-- No item belongs to two of the keys. -/
def Exclusive (belongs : Key → Item → Bool) (keys : List Key) : Prop :=
  keys.Pairwise fun left right =>
    ∀ item, belongs left item = true → belongs right item = false

def owned (belongs : Key → Item → Bool) (keys : List Key) (item : Item) : Bool :=
  keys.any fun key => belongs key item

theorem filter_or_perm
    {first second : Item → Bool} (items : List Item)
    (hdisjoint : ∀ item, first item = true → second item = false) :
    (items.filter first ++ items.filter second).Perm
      (items.filter fun item => first item || second item) := by
  have hperm := List.filter_append_perm first
    (items.filter fun item => first item || second item)
  have hfirst : (items.filter fun item => first item || second item).filter first =
      items.filter first := by
    rw [List.filter_filter]
    apply List.filter_congr
    intro item _
    cases hitem : first item <;> simp
  have hsecond : (items.filter fun item => first item || second item).filter
      (fun item => !first item) = items.filter second := by
    rw [List.filter_filter]
    apply List.filter_congr
    intro item _
    cases hitem : first item with
    | true => simp [hdisjoint item hitem]
    | false => simp
  rw [hfirst, hsecond] at hperm
  exact hperm

theorem flatMap_filter_perm
    {belongs : Key → Item → Bool} {keys : List Key} (items : List Item)
    (hexclusive : Exclusive belongs keys) :
    (keys.flatMap fun key => items.filter (belongs key)).Perm
      (items.filter (owned belongs keys)) := by
  induction keys with
  | nil => simp [owned]
  | cons key rest ih =>
      obtain ⟨hkey, hrest⟩ := List.pairwise_cons.mp hexclusive
      have hdisjoint : ∀ item, belongs key item = true →
          owned belongs rest item = false := by
        intro item hitem
        rw [owned, List.any_eq_false]
        intro other hother
        rw [hkey other hother item hitem]
        exact Bool.false_ne_true
      rw [List.flatMap_cons]
      exact ((ih hrest).append_left _).trans (filter_or_perm items hdisjoint)

end Partitions
