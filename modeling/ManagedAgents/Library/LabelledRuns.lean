import Mathlib.Data.List.Basic

/-!
# Runs of a partial step function

A system is a partial function from a state and a label to the next state.
A run executes a word of labels and is refused as a whole when one label is
refused.  The rules below carry a property along a run, either from every
step or from the steps that meet a stated condition.
-/

namespace LabelledRuns

variable {State Label : Type*}

/-- Execute a word of labels from the first to the last. -/
def run (step : State → Label → Option State) :
    State → List Label → Option State
  | state, [] => some state
  | state, label :: rest =>
      (step state label).bind fun next => run step next rest

/-- Every step which the word executes meets the condition, judged on the
state before the step. -/
def AllSteps (step : State → Label → Option State)
    (allowed : State → Label → Prop) : State → List Label → Prop
  | _, [] => True
  | state, label :: rest =>
      allowed state label ∧
        ∀ next, step state label = some next →
          AllSteps step allowed next rest

/-- A concrete run can be checked step by step. -/
def decideAllSteps (step : State → Label → Option State)
    (allowed : State → Label → Prop)
    [∀ state label, Decidable (allowed state label)] :
    (labels : List Label) → (state : State) →
      Decidable (AllSteps step allowed state labels)
  | [], _ => isTrue trivial
  | label :: rest, state =>
      match hstep : step state label with
      | none => decidable_of_iff (allowed state label) (by simp [AllSteps, hstep])
      | some next =>
          haveI := decideAllSteps step allowed rest next
          decidable_of_iff
            (allowed state label ∧ AllSteps step allowed next rest)
            (by simp [AllSteps, hstep])

instance (step : State → Label → Option State) (allowed : State → Label → Prop)
    [∀ state label, Decidable (allowed state label)] (state : State)
    (labels : List Label) : Decidable (AllSteps step allowed state labels) :=
  decideAllSteps step allowed labels state

variable {step : State → Label → Option State}

@[simp] theorem run_nil (state : State) :
    run step state [] = some state := rfl

theorem run_cons_eq_some
    {state last : State} {label : Label} {rest : List Label} :
    run step state (label :: rest) = some last ↔
      ∃ next, step state label = some next ∧
        run step next rest = some last := by
  simp [run, Option.bind_eq_some_iff]

theorem run_append_eq_some
    {state last : State} {front back : List Label} :
    run step state (front ++ back) = some last ↔
      ∃ middle, run step state front = some middle ∧
        run step middle back = some last := by
  induction front generalizing state with
  | nil => simp
  | cons label rest ih =>
      simp only [List.cons_append, run_cons_eq_some, ih]
      constructor
      · rintro ⟨next, hstep, middle, hfront, hback⟩
        exact ⟨middle, ⟨next, hstep, hfront⟩, hback⟩
      · rintro ⟨middle, ⟨next, hstep, hfront⟩, hback⟩
        exact ⟨next, hstep, middle, hfront, hback⟩

/-- A property kept by every step that meets the condition holds after every
run whose steps all meet it. -/
theorem run_invariant_of_allSteps
    {Invariant : State → Prop} {allowed : State → Label → Prop}
    (hstep : ∀ state label next, Invariant state → allowed state label →
      step state label = some next → Invariant next)
    {state last : State} {labels : List Label}
    (hstart : Invariant state)
    (hallowed : AllSteps step allowed state labels)
    (hrun : run step state labels = some last) :
    Invariant last := by
  induction labels generalizing state with
  | nil =>
      obtain rfl : state = last := by simpa using hrun
      exact hstart
  | cons label rest ih =>
      obtain ⟨next, hnext, hrest⟩ := run_cons_eq_some.mp hrun
      exact ih (hstep state label next hstart hallowed.1 hnext)
        (hallowed.2 next hnext) hrest

theorem AllSteps.mono
    {weak strong : State → Label → Prop}
    (hweaker : ∀ state label, strong state label → weak state label)
    {state : State} {labels : List Label}
    (hsteps : AllSteps step strong state labels) :
    AllSteps step weak state labels := by
  induction labels generalizing state with
  | nil => trivial
  | cons label rest ih =>
      exact ⟨hweaker state label hsteps.1, fun next hnext => ih (hsteps.2 next hnext)⟩

theorem AllSteps.and
    {first second : State → Label → Prop} {state : State} {labels : List Label}
    (hfirst : AllSteps step first state labels)
    (hsecond : AllSteps step second state labels) :
    AllSteps step (fun state label => first state label ∧ second state label) state
      labels := by
  induction labels generalizing state with
  | nil => trivial
  | cons label rest ih =>
      exact ⟨⟨hfirst.1, hsecond.1⟩, fun next hnext =>
        ih (hfirst.2 next hnext) (hsecond.2 next hnext)⟩

/-- The condition on the steps of a run may use an invariant of its states. -/
theorem AllSteps.and_invariant
    {Invariant : State → Prop} {allowed : State → Label → Prop}
    (hstep : ∀ state label next, Invariant state → allowed state label →
      step state label = some next → Invariant next)
    {state : State} {labels : List Label} (hstart : Invariant state)
    (hsteps : AllSteps step allowed state labels) :
    AllSteps step (fun state label => allowed state label ∧ Invariant state) state
      labels := by
  induction labels generalizing state with
  | nil => trivial
  | cons label rest ih =>
      refine ⟨⟨hsteps.1, hstart⟩, ?_⟩
      intro next hnext
      exact ih (hstep state label next hstart hsteps.1 hnext) (hsteps.2 next hnext)

/-- What holds of all steps of a run holds of those after a part of it. -/
theorem AllSteps.of_append
    {allowed : State → Label → Prop} {state middle : State}
    {front back : List Label}
    (hsteps : AllSteps step allowed state (front ++ back))
    (hrun : run step state front = some middle) :
    AllSteps step allowed middle back := by
  induction front generalizing state with
  | nil =>
      obtain rfl : state = middle := by simpa using hrun
      exact hsteps
  | cons label rest ih =>
      obtain ⟨next, hnext, hrest⟩ := run_cons_eq_some.mp hrun
      exact ih (hsteps.2 next hnext) hrest

theorem allSteps_true (state : State) (labels : List Label) :
    AllSteps step (fun _ _ => True) state labels := by
  induction labels generalizing state with
  | nil => trivial
  | cons label rest ih => exact ⟨trivial, fun next _ => ih next⟩

theorem allSteps_mem (state : State) (labels : List Label) :
    AllSteps step (fun _ label => label ∈ labels) state labels := by
  induction labels generalizing state with
  | nil => trivial
  | cons label rest ih =>
      refine ⟨List.mem_cons_self, fun next _ => ?_⟩
      exact (ih next).mono fun _ _ hmem => List.mem_cons_of_mem _ hmem

/-- What an invariant says of the steps that succeed holds of all steps of a run. -/
theorem allSteps_of_run
    {Invariant : State → Prop} {allowed : State → Label → Prop}
    (hstep : ∀ state label next, Invariant state → step state label = some next →
      Invariant next ∧ allowed state label)
    {state last : State} {labels : List Label} (hstart : Invariant state)
    (hrun : run step state labels = some last) :
    AllSteps step allowed state labels := by
  induction labels generalizing state with
  | nil => trivial
  | cons label rest ih =>
      obtain ⟨next, hnext, hrest⟩ := run_cons_eq_some.mp hrun
      obtain ⟨hinvariant, hallowed⟩ := hstep state label next hstart hnext
      refine ⟨hallowed, fun other hother => ?_⟩
      obtain rfl := Option.some.inj (hnext.symm.trans hother)
      exact ih hinvariant hrest

/-- A property kept by every step holds after every run. -/
theorem run_invariant
    {Invariant : State → Prop}
    (hstep : ∀ state label next, Invariant state →
      step state label = some next → Invariant next)
    {state last : State} {labels : List Label}
    (hstart : Invariant state)
    (hrun : run step state labels = some last) :
    Invariant last :=
  run_invariant_of_allSteps
    (fun state label next hinv _ => hstep state label next hinv)
    hstart (allSteps_true state labels) hrun

/-- Two conditions that agree on the states of an invariant agree on whole
runs, if the steps that meet one of them keep the invariant. -/
theorem allSteps_iff_of_invariant
    {Invariant : State → Prop} {assumed first second : State → Label → Prop}
    (hsame : ∀ state label, Invariant state → assumed state label →
      (first state label ↔ second state label))
    (hkeeps : ∀ state label next, Invariant state → first state label →
      step state label = some next → Invariant next)
    {state : State} {labels : List Label}
    (hstart : Invariant state) (hassumed : AllSteps step assumed state labels) :
    AllSteps step first state labels ↔ AllSteps step second state labels := by
  induction labels generalizing state with
  | nil => exact Iff.rfl
  | cons label rest ih =>
      have hhead := hsame state label hstart hassumed.1
      constructor
      · rintro ⟨hfirst, hrest⟩
        refine ⟨hhead.mp hfirst, ?_⟩
        intro next hnext
        have hinvariant := hkeeps state label next hstart hfirst hnext
        exact (ih hinvariant (hassumed.2 next hnext)).mp (hrest next hnext)
      · rintro ⟨hsecond, hrest⟩
        have hfirst := hhead.mpr hsecond
        refine ⟨hfirst, ?_⟩
        intro next hnext
        have hinvariant := hkeeps state label next hstart hfirst hnext
        exact (ih hinvariant (hassumed.2 next hnext)).mpr (hrest next hnext)

/-- A property which a step keeps exactly when it meets the condition holds
after a run exactly when all of its steps meet it. -/
theorem run_iff_allSteps
    {Property : State → Prop} {assumed allowed : State → Label → Prop}
    (hstep : ∀ state label next, assumed state label →
      step state label = some next →
      (Property next ↔ Property state ∧ allowed state label))
    {state last : State} {labels : List Label}
    (hassumed : AllSteps step assumed state labels)
    (hrun : run step state labels = some last) :
    Property last ↔ Property state ∧ AllSteps step allowed state labels := by
  induction labels generalizing state with
  | nil =>
      obtain rfl : state = last := by simpa using hrun
      exact (and_iff_left trivial).symm
  | cons label rest ih =>
      obtain ⟨next, hnext, hrest⟩ := run_cons_eq_some.mp hrun
      rw [ih (hassumed.2 next hnext) hrest, hstep state label next hassumed.1 hnext,
        and_assoc]
      apply and_congr_right
      intro _
      constructor
      · rintro ⟨hlabel, hsteps⟩
        refine ⟨hlabel, ?_⟩
        intro other hother
        obtain rfl := Option.some.inj (hnext.symm.trans hother)
        exact hsteps
      · rintro ⟨hlabel, hsteps⟩
        exact ⟨hlabel, hsteps next hnext⟩

/-! ## Recorded histories -/

section

variable {Record : Type*}

/-- The system with a record of its past, which each step updates and which
restrains none. -/
def recording (step : State → Label → Option State)
    (update : State → Label → State → Record → Record)
    (state : State × Record) (label : Label) : Option (State × Record) :=
  (step state.1 label).map fun next => (next, update state.1 label next state.2)

variable {update : State → Label → State → Record → Record}

theorem recording_eq_some
    {state next : State × Record} {label : Label} :
    recording step update state label = some next ↔
      step state.1 label = some next.1 ∧
        next.2 = update state.1 label next.1 state.2 := by
  unfold recording
  rw [Option.map_eq_some_iff]
  constructor
  · rintro ⟨after, hstep, rfl⟩
    exact ⟨hstep, rfl⟩
  · rintro ⟨hstep, hrecord⟩
    exact ⟨next.1, hstep, Prod.ext rfl hrecord.symm⟩

end

end LabelledRuns
