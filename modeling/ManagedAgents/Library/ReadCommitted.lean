import ManagedAgents.Library.LabelledRuns
import Mathlib.Data.List.GetD
import Mathlib.Tactic

/-!
# Transactions that read committed states

Every query of a transaction sees a committed state, never an older one than
the query before it, and the commit is applied to the current state.  The rule
at the end proves an invariant of all committed states together with an order
between older and newer ones.
-/

namespace ReadCommitted

open LabelledRuns

variable {State Label : Type*}

/-- The committed states, newest first. -/
structure Timeline (State : Type*) where
  current : State
  past : List State

def Timeline.history (timeline : Timeline State) : List State :=
  timeline.current :: timeline.past

/-- By how many commits the states are old which the queries of a transaction
see, in the order of the queries. -/
def Admissible (timeline : Timeline State) (ages : List ℕ) : Prop :=
  (ages.Pairwise fun first second => second ≤ first) ∧
    ∀ age ∈ ages, age ≤ timeline.past.length

instance (timeline : Timeline State) (ages : List ℕ) :
    Decidable (Admissible timeline ages) :=
  inferInstanceAs (Decidable (_ ∧ _))

/-- The state which a query sees; after the listed ones it is the current one. -/
def Timeline.view (timeline : Timeline State) (ages : List ℕ) (query : ℕ) : State :=
  timeline.history.getD (ages.getD query 0) timeline.current

/-- A transaction computes the next state from what its queries saw and from
the state it commits on, or ends without a commit. -/
def step (body : Label → (ℕ → State) → State → Option State) (timeline : Timeline State)
    (call : Label × List ℕ) : Option (Timeline State) :=
  if Admissible timeline call.2 then
    match body call.1 (timeline.view call.2) timeline.current with
    | none => some timeline
    | some next => some { current := next, past := timeline.history }
  else none

/-! ## Views -/

theorem getD_le_getD
    {ages : List ℕ} (hages : ages.Pairwise fun first second => second ≤ first)
    {first second : ℕ} (hle : first ≤ second) :
    ages.getD second 0 ≤ ages.getD first 0 := by
  rcases Nat.lt_or_ge second ages.length with hsecond | hsecond
  · have hfirst := hle.trans_lt hsecond
    rw [List.getD_eq_getElem _ _ hsecond, List.getD_eq_getElem _ _ hfirst]
    rcases hle.eq_or_lt with rfl | hlt
    · exact le_rfl
    · exact List.pairwise_iff_getElem.mp hages first second hfirst hsecond hlt
  · rw [List.getD_eq_default _ _ hsecond]
    exact Nat.zero_le _

theorem getD_le
    {timeline : Timeline State} {ages : List ℕ} (hages : Admissible timeline ages)
    (query : ℕ) :
    ages.getD query 0 ≤ timeline.past.length := by
  rcases Nat.lt_or_ge query ages.length with hquery | hquery
  · rw [List.getD_eq_getElem _ _ hquery]
    exact hages.2 _ (List.getElem_mem hquery)
  · rw [List.getD_eq_default _ _ hquery]
    exact Nat.zero_le _

/-- Every committed state satisfies the invariant, and older states stand in
the order to newer ones. -/
structure Timeline.Ordered (Invariant : State → Prop) (Earlier : State → State → Prop)
    (timeline : Timeline State) : Prop where
  states : ∀ state ∈ timeline.history, Invariant state
  order : timeline.history.Pairwise fun newer older => Earlier older newer

section

variable {Invariant : State → Prop} {Earlier : State → State → Prop}
  {timeline : Timeline State} {ages : List ℕ}

theorem Timeline.view_eq_getElem (hages : Admissible timeline ages) (query : ℕ) :
    ∃ hlt : ages.getD query 0 < timeline.history.length,
      timeline.view ages query = timeline.history[ages.getD query 0] := by
  have hlt : ages.getD query 0 < timeline.history.length :=
    Nat.lt_succ_of_le (getD_le hages query)
  exact ⟨hlt, List.getD_eq_getElem _ _ hlt⟩

theorem Timeline.view_mem (hages : Admissible timeline ages) (query : ℕ) :
    timeline.view ages query ∈ timeline.history := by
  obtain ⟨hlt, hview⟩ := Timeline.view_eq_getElem hages query
  rw [hview]
  exact List.getElem_mem hlt

/-- A later query sees the same state or a newer one. -/
theorem Timeline.Ordered.view_earlier
    (hordered : timeline.Ordered Invariant Earlier) (hrefl : ∀ state, Earlier state state)
    (hages : Admissible timeline ages) {first second : ℕ} (hle : first ≤ second) :
    Earlier (timeline.view ages first) (timeline.view ages second) := by
  obtain ⟨hfirst, hfirstView⟩ := Timeline.view_eq_getElem hages first
  obtain ⟨hsecond, hsecondView⟩ := Timeline.view_eq_getElem hages second
  rw [hfirstView, hsecondView]
  rcases (getD_le_getD hages.1 hle).eq_or_lt with hsame | hlt
  · simp only [hsame]
    exact hrefl _
  · exact List.pairwise_iff_getElem.mp hordered.order _ _ hsecond hfirst hlt

theorem Timeline.Ordered.view_earlier_current
    (hordered : timeline.Ordered Invariant Earlier) (hrefl : ∀ state, Earlier state state)
    (hages : Admissible timeline ages) (query : ℕ) :
    Earlier (timeline.view ages query) timeline.current := by
  rcases List.mem_cons.mp (Timeline.view_mem hages query) with hview | hview
  · rw [hview]
    exact hrefl _
  · exact (List.pairwise_cons.mp hordered.order).1 _ hview

theorem Timeline.Ordered.push
    (hordered : timeline.Ordered Invariant Earlier) (hrefl : ∀ state, Earlier state state)
    (htrans : ∀ first second third,
      Earlier first second → Earlier second third → Earlier first third)
    {next : State} (hnext : Invariant next) (hlater : Earlier timeline.current next) :
    Timeline.Ordered Invariant Earlier { current := next, past := timeline.history } := by
  constructor
  · intro state hstate
    rcases List.mem_cons.mp hstate with rfl | hstate
    · exact hnext
    · exact hordered.states state hstate
  · refine List.pairwise_cons.mpr ⟨?_, hordered.order⟩
    intro state hstate
    refine htrans state timeline.current next ?_ hlater
    rcases List.mem_cons.mp hstate with rfl | hstate
    · exact hrefl _
    · exact (List.pairwise_cons.mp hordered.order).1 state hstate

end

theorem step_cases
    {body : Label → (ℕ → State) → State → Option State} {timeline next : Timeline State}
    {call : Label × List ℕ} (hstep : step body timeline call = some next) :
    Admissible timeline call.2 ∧
      (next = timeline ∨
        ∃ state, body call.1 (timeline.view call.2) timeline.current = some state ∧
        next = { current := state, past := timeline.history }) := by
  unfold step at hstep
  split at hstep
  next hages =>
    refine ⟨hages, ?_⟩
    split at hstep
    · cases hstep
      exact Or.inl rfl
    next state hbody =>
      cases hstep
      exact Or.inr ⟨state, hbody, rfl⟩
  next => cases hstep

/-- A run adds states to the history and takes none away. -/
theorem run_history
    {body : Label → (ℕ → State) → State → Option State} {first last : Timeline State}
    {calls : List (Label × List ℕ)} (hrun : run (step body) first calls = some last) :
    ∃ since, last.history = since ++ first.history := by
  have hkeeps : ∀ timeline call next,
      (∃ since, timeline.history = since ++ first.history) →
      step body timeline call = some next →
      ∃ since, next.history = since ++ first.history := by
    rintro timeline call next ⟨since, hsince⟩ hstep
    obtain ⟨-, rfl | ⟨state, -, rfl⟩⟩ := step_cases hstep
    · exact ⟨since, hsince⟩
    · exact ⟨state :: since, congrArg (state :: ·) hsince⟩
  exact run_invariant hkeeps ⟨[], rfl⟩ hrun

/-- If the steps that meet a condition keep the invariant and the order, they
hold after every run of such steps.  A commit may assume them of the states its
queries saw and of the state it commits on. -/
theorem run_ordered
    {body : Label → (ℕ → State) → State → Option State}
    {allowed : Timeline State → Label × List ℕ → Prop}
    {Invariant : State → Prop} {Earlier : State → State → Prop}
    (hrefl : ∀ state, Earlier state state)
    (htrans : ∀ first second third,
      Earlier first second → Earlier second third → Earlier first third)
    (hcommit : ∀ timeline label ages next, allowed timeline (label, ages) →
      (∀ query, Invariant (timeline.view ages query)) →
      (∀ first second, first ≤ second →
        Earlier (timeline.view ages first) (timeline.view ages second)) →
      (∀ query, Earlier (timeline.view ages query) timeline.current) →
      Invariant timeline.current →
      body label (timeline.view ages) timeline.current = some next →
      Invariant next ∧ Earlier timeline.current next)
    {start last : Timeline State} {calls : List (Label × List ℕ)}
    (hstart : start.Ordered Invariant Earlier)
    (hallowed : AllSteps (step body) allowed start calls)
    (hrun : run (step body) start calls = some last) :
    last.Ordered Invariant Earlier := by
  refine run_invariant_of_allSteps ?_ hstart hallowed hrun
  rintro timeline ⟨label, ages⟩ next hordered hallow hstep
  obtain ⟨hages, rfl | ⟨state, hbody, rfl⟩⟩ := step_cases hstep
  · exact hordered
  · obtain ⟨hinvariant, hlater⟩ := hcommit timeline label ages state hallow
      (fun query => hordered.states _ (Timeline.view_mem hages query))
      (fun first second hle => hordered.view_earlier hrefl hages hle)
      (fun query => hordered.view_earlier_current hrefl hages query)
      (hordered.states _ List.mem_cons_self) hbody
    exact hordered.push hrefl htrans hinvariant hlater

/-! ## What a transaction may assume -/

/-- What the queries of a transaction see, and the state it commits on. -/
structure Reads (Invariant : State → Prop) (Earlier : State → State → Prop)
    (view : ℕ → State) (current : State) : Prop where
  views : ∀ query, Invariant (view query)
  later : ∀ first second, first ≤ second → Earlier (view first) (view second)
  kept : ∀ query, Earlier (view query) current
  invariant : Invariant current

theorem Timeline.Ordered.reads
    {Invariant : State → Prop} {Earlier : State → State → Prop}
    {timeline : Timeline State} {ages : List ℕ}
    (hordered : timeline.Ordered Invariant Earlier) (hrefl : ∀ state, Earlier state state)
    (hages : Admissible timeline ages) :
    Reads Invariant Earlier (timeline.view ages) timeline.current where
  views := fun query => hordered.states _ (Timeline.view_mem hages query)
  later := fun _ _ hle => hordered.view_earlier hrefl hages hle
  kept := fun query => hordered.view_earlier_current hrefl hages query
  invariant := hordered.states _ List.mem_cons_self

/-- The condition which a transaction must meet if it commits. -/
def OnCommit (body : Label → (ℕ → State) → State → Option State)
    (condition : Label → (ℕ → State) → State → Prop) (timeline : Timeline State)
    (call : Label × List ℕ) : Prop :=
  (body call.1 (timeline.view call.2) timeline.current).isSome →
    condition call.1 (timeline.view call.2) timeline.current

instance (body : Label → (ℕ → State) → State → Option State)
    (condition : Label → (ℕ → State) → State → Prop)
    [∀ label view current, Decidable (condition label view current)]
    (timeline : Timeline State) (call : Label × List ℕ) :
    Decidable (OnCommit body condition timeline call) :=
  inferInstanceAs (Decidable (_ → _))

section

variable {body : Label → (ℕ → State) → State → Option State}
  {Invariant : State → Prop} {Earlier : State → State → Prop}

theorem step_ordered
    (hrefl : ∀ state, Earlier state state)
    (htrans : ∀ first second third,
      Earlier first second → Earlier second third → Earlier first third)
    (hcommit : ∀ label view current next, Reads Invariant Earlier view current →
      body label view current = some next → Invariant next ∧ Earlier current next)
    {timeline next : Timeline State} {call : Label × List ℕ}
    (hordered : timeline.Ordered Invariant Earlier)
    (hstep : step body timeline call = some next) :
    next.Ordered Invariant Earlier := by
  obtain ⟨hages, rfl | ⟨state, hbody, rfl⟩⟩ := step_cases hstep
  · exact hordered
  · obtain ⟨hinvariant, hlater⟩ :=
      hcommit _ _ _ _ (hordered.reads hrefl hages) hbody
    exact hordered.push hrefl htrans hinvariant hlater

/-- A property which a commit keeps exactly under a condition is kept by a step
exactly if the transaction meets the condition when it commits. -/
theorem step_iff
    {condition : Label → (ℕ → State) → State → Prop} {Property : State → Prop}
    (hrefl : ∀ state, Earlier state state)
    (hproperty : ∀ label view current next, Reads Invariant Earlier view current →
      (∀ query, Property (view query)) → Property current →
      body label view current = some next →
      (Property next ↔ condition label view current))
    {timeline next : Timeline State} {call : Label × List ℕ}
    (hordered : timeline.Ordered Invariant Earlier)
    (hstep : step body timeline call = some next) :
    (∀ state ∈ next.history, Property state) ↔
      (∀ state ∈ timeline.history, Property state) ∧
        OnCommit body condition timeline call := by
  unfold step at hstep
  unfold OnCommit
  split at hstep
  next hages =>
    cases hbody : body call.1 (timeline.view call.2) timeline.current with
    | none =>
        simp only [hbody, Option.some.injEq] at hstep
        subst hstep
        simp
    | some state =>
        simp only [hbody, Option.some.injEq] at hstep
        subst hstep
        simp only [Timeline.history, List.mem_cons, forall_eq_or_imp, Option.isSome_some,
          forall_const]
        rw [and_comm]
        apply and_congr_right
        intro hhistory
        have hall : ∀ state ∈ timeline.history, Property state := by
          simpa [Timeline.history] using hhistory
        exact hproperty _ _ _ _ (hordered.reads hrefl hages)
          (fun query => hall _ (Timeline.view_mem hages query)) hhistory.1 hbody
  next => cases hstep

/-- A property which a commit keeps exactly under a condition holds of all
committed states of a run exactly if the transactions which commit meet it. -/
theorem run_iff
    {condition : Label → (ℕ → State) → State → Prop} {Property : State → Prop}
    (hrefl : ∀ state, Earlier state state)
    (htrans : ∀ first second third,
      Earlier first second → Earlier second third → Earlier first third)
    (hcommit : ∀ label view current next, Reads Invariant Earlier view current →
      body label view current = some next → Invariant next ∧ Earlier current next)
    (hproperty : ∀ label view current next, Reads Invariant Earlier view current →
      (∀ query, Property (view query)) → Property current →
      body label view current = some next →
      (Property next ↔ condition label view current))
    {start last : Timeline State} {calls : List (Label × List ℕ)}
    (hstart : start.Ordered Invariant Earlier)
    (hrun : run (step body) start calls = some last) :
    (∀ state ∈ last.history, Property state) ↔
      (∀ state ∈ start.history, Property state) ∧
        AllSteps (step body) (OnCommit body condition) start calls := by
  have hordered : AllSteps (step body)
      (fun timeline _ => True ∧ timeline.Ordered Invariant Earlier) start calls := by
    refine AllSteps.and_invariant ?_ hstart (allSteps_true _ _)
    intro timeline call next htimeline _ hstep
    exact step_ordered hrefl htrans hcommit htimeline hstep
  exact run_iff_allSteps
    (fun timeline call next htimeline hstep => step_iff hrefl hproperty htimeline.2 hstep)
    hordered hrun

end

end ReadCommitted
