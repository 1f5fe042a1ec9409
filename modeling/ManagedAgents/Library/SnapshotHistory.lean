import Mathlib.Data.List.Basic

/-!
# Histories of snapshot transactions

Each transaction reads one earlier committed state, computes from it and
commits on top of the current state.  A history lists the committed states,
newest first.  The rule at the end proves an invariant of every committed
state together with an order between older and newer ones: a transaction may
assume both of the state it read and of the state it commits on.
-/

namespace SnapshotHistory

variable {State : Type*}

/-- The histories which transactions with the commit relation
`commits snapshot current next` can leave behind. -/
inductive Interleaved (start : State → Prop)
    (commits : State → State → State → Prop) : List State → Prop
  | initial {first : State} (hfirst : start first) :
      Interleaved start commits [first]
  | commit {snapshot current next : State} {past : List State}
      (hpast : Interleaved start commits (current :: past))
      (hread : snapshot ∈ current :: past)
      (hcommit : commits snapshot current next) :
      Interleaved start commits (next :: current :: past)

variable {start : State → Prop} {commits : State → State → State → Prop}

/-- Every committed state satisfies the invariant, and older states stand in
the order to newer ones. -/
theorem Interleaved.invariant
    {Invariant : State → Prop} {Earlier : State → State → Prop}
    (hrefl : ∀ state, Earlier state state)
    (htrans : ∀ first second third,
      Earlier first second → Earlier second third → Earlier first third)
    (hstart : ∀ state, start state → Invariant state)
    (hcommit : ∀ snapshot current next,
      Invariant snapshot → Invariant current → Earlier snapshot current →
      commits snapshot current next →
      Invariant next ∧ Earlier current next)
    {history : List State} (hhistory : Interleaved start commits history) :
    (∀ state ∈ history, Invariant state) ∧
      history.Pairwise fun newer older => Earlier older newer := by
  induction hhistory with
  | initial hfirst => simpa using hstart _ hfirst
  | @commit snapshot current next past hpast hread hstep ih =>
      obtain ⟨hinv, horder⟩ := ih
      have hearlier : ∀ state ∈ current :: past, Earlier state current := by
        intro state hstate
        rcases List.mem_cons.mp hstate with rfl | hstate
        · exact hrefl state
        · exact (List.pairwise_cons.mp horder).1 state hstate
      obtain ⟨hnext, hcurrent⟩ :=
        hcommit snapshot current next (hinv snapshot hread)
          (hinv current List.mem_cons_self) (hearlier snapshot hread) hstep
      constructor
      · intro state hstate
        rcases List.mem_cons.mp hstate with rfl | hstate
        · exact hnext
        · exact hinv state hstate
      · refine List.pairwise_cons.mpr ⟨?_, horder⟩
        intro state hstate
        exact htrans state current next (hearlier state hstate) hcurrent

/-! ## Entries and what came before them -/

/-- The property holds of every entry, given the entries before it. -/
def EveryEntry (Property : State → List State → Prop) (history : List State) :
    Prop :=
  ∀ newer entry older, history = newer ++ entry :: older → Property entry older

variable {Property : State → List State → Prop} {history : List State}

theorem everyEntry_nil : EveryEntry Property [] := by
  intro newer entry older hsplit
  exact absurd hsplit.symm (by simp)

theorem EveryEntry.cons
    {entry : State} (hhistory : EveryEntry Property history)
    (hentry : Property entry history) :
    EveryEntry Property (entry :: history) := by
  intro newer other older hsplit
  cases newer with
  | nil =>
      obtain ⟨rfl, rfl⟩ := List.cons.inj hsplit
      exact hentry
  | cons newest newer =>
      obtain ⟨-, hrest⟩ := List.cons.inj hsplit
      exact hhistory newer other older hrest

theorem everyEntry_cons
    {entry : State} :
    EveryEntry Property (entry :: history) ↔
      EveryEntry Property history ∧ Property entry history := by
  refine ⟨fun hall => ⟨?_, hall [] entry history rfl⟩, fun hall => hall.1.cons hall.2⟩
  intro newer other older hsplit
  exact hall (entry :: newer) other older (congrArg (entry :: ·) hsplit)

theorem EveryEntry.head
    {entry : State} (hhistory : EveryEntry Property (entry :: history)) :
    Property entry history :=
  (everyEntry_cons.mp hhistory).2

end SnapshotHistory
