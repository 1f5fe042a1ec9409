import Mathlib.Tactic.Basic
import ManagedAgents.Library.LabelledRuns

/-!
# Programs on a shared state

A program is a tree of operations on a state which it shares with other
programs: after each operation it goes on with what the operation replied.  Any
number of programs run at a time, one operation after the other in any order,
and a program may stop for good between two operations.

A program learns something at each operation.  If every operation that it calls
is justified by what it has learnt, and no operation spoils what another program
has learnt, then an invariant of the state holds at every point of a run.
-/

namespace SharedPrograms

open LabelledRuns

variable {State Operation Result Knowledge Request : Type}
  {Reply : Operation → Type}

inductive Program (Reply : Operation → Type) (Result : Type) where
  | done (result : Result)
  | call (operation : Operation)
      (next : Reply operation → Program Reply Result)

/-- The program alone, from its first operation to its last. -/
def Program.execute
    (perform : (operation : Operation) → State → State × Reply operation) :
    Program Reply Result → State → State × Result
  | .done result, state => (state, result)
  | .call operation next, state =>
      (next (perform operation state).2).execute perform (perform operation state).1

@[simp] theorem Program.execute_done
    (perform : (operation : Operation) → State → State × Reply operation)
    (result : Result) (state : State) :
    (Program.done result : Program Reply Result).execute perform state =
      (state, result) := rfl

theorem Program.execute_call
    (perform : (operation : Operation) → State → State × Reply operation)
    (operation : Operation) (next : Reply operation → Program Reply Result)
    (state : State) :
    (Program.call operation next).execute perform state =
      (next (perform operation state).2).execute perform (perform operation state).1 :=
  rfl

/-- Every operation is justified by what the program has learnt before, in all
states in which it fits that knowledge. -/
def Program.Follows
    (perform : (operation : Operation) → State → State × Reply operation)
    (learn : Knowledge → Operation → State → Knowledge)
    (fits justified : Knowledge → Operation → State → Prop) :
    Knowledge → Program Reply Result → Prop
  | _, .done _ => True
  | knowledge, .call operation next =>
      ∀ state, fits knowledge operation state →
        justified knowledge operation state ∧
          Program.Follows perform learn fits justified (learn knowledge operation state)
            (next (perform operation state).2)

/-! ## Several programs -/

structure Process (Knowledge : Type) (Reply : Operation → Type) (Result : Type) where
  knowledge : Knowledge
  program : Program Reply Result

structure Pool (State Knowledge : Type) (Reply : Operation → Type) (Result : Type) where
  shared : State
  processes : List (Process Knowledge Reply Result)

inductive Event (Request : Type) where
  | start (request : Request)
  | advance (index : ℕ)
  | crash (index : ℕ)
deriving DecidableEq

/-- The step of the system; a program that has ended makes no more steps. -/
def step (perform : (operation : Operation) → State → State × Reply operation)
    (learn : Knowledge → Operation → State → Knowledge) (ignorant : Knowledge)
    (program : Request → Program Reply Result)
    (pool : Pool State Knowledge Reply Result) (event : Event Request) :
    Option (Pool State Knowledge Reply Result) :=
  match event with
  | .start request =>
      some { pool with processes := pool.processes ++ [⟨ignorant, program request⟩] }
  | .crash index => some { pool with processes := pool.processes.eraseIdx index }
  | .advance index =>
      match pool.processes[index]? with
      | some ⟨knowledge, .call operation next⟩ =>
          some
            { shared := (perform operation pool.shared).1
              processes := pool.processes.set index
                ⟨learn knowledge operation pool.shared,
                  next (perform operation pool.shared).2⟩ }
      | _ => none

/-- The next operation of the process that advances meets the condition. -/
def OnOperation
    (condition : Pool State Knowledge Reply Result → Knowledge → Operation → Prop)
    (pool : Pool State Knowledge Reply Result) (event : Event Request) : Prop :=
  match event with
  | .advance index =>
      match pool.processes[index]? with
      | some ⟨knowledge, .call operation _⟩ => condition pool knowledge operation
      | _ => True
  | _ => True

instance
    (condition : Pool State Knowledge Reply Result → Knowledge → Operation → Prop)
    [∀ pool knowledge operation, Decidable (condition pool knowledge operation)]
    (pool : Pool State Knowledge Reply Result) (event : Event Request) :
    Decidable (OnOperation condition pool event) :=
  match event with
  | .start _ | .crash _ => isTrue trivial
  | .advance index =>
      match hprocess : pool.processes[index]? with
      | none => isTrue (by simp [OnOperation, hprocess])
      | some ⟨_, .done _⟩ => isTrue (by simp [OnOperation, hprocess])
      | some ⟨knowledge, .call operation _⟩ =>
          decidable_of_iff (condition pool knowledge operation)
            (by simp [OnOperation, hprocess])

/-- The invariant of the shared state, and what the programs rely on. -/
structure Pool.Consistent
    (perform : (operation : Operation) → State → State × Reply operation)
    (learn : Knowledge → Operation → State → Knowledge)
    (fits justified : Knowledge → Operation → State → Prop)
    (Invariant : State → Prop) (Holds : State → Knowledge → Prop)
    (pool : Pool State Knowledge Reply Result) : Prop where
  invariant : Invariant pool.shared
  holds : ∀ process ∈ pool.processes, Holds pool.shared process.knowledge
  follows : ∀ process ∈ pool.processes,
    process.program.Follows perform learn fits justified process.knowledge

section

variable {perform : (operation : Operation) → State → State × Reply operation}
  {learn : Knowledge → Operation → State → Knowledge} {ignorant : Knowledge}
  {program : Request → Program Reply Result}
  {fits justified : Knowledge → Operation → State → Prop}
  {Invariant : State → Prop} {Holds : State → Knowledge → Prop}
  {condition : Pool State Knowledge Reply Result → Knowledge → Operation → Prop}

/-- An operation that is justified and meets the condition keeps the invariant
and what all programs know, and adds to what its own program knows. -/
def Preserved
    (perform : (operation : Operation) → State → State × Reply operation)
    (learn : Knowledge → Operation → State → Knowledge)
    (justified : Knowledge → Operation → State → Prop)
    (Invariant : State → Prop) (Holds : State → Knowledge → Prop)
    (condition : Pool State Knowledge Reply Result → Knowledge → Operation → Prop) :
    Prop :=
  ∀ (pool : Pool State Knowledge Reply Result) (process : Process Knowledge Reply Result)
    (operation : Operation),
    process ∈ pool.processes → Invariant pool.shared →
    (∀ other ∈ pool.processes, Holds pool.shared other.knowledge) →
    condition pool process.knowledge operation →
    justified process.knowledge operation pool.shared →
    Invariant (perform operation pool.shared).1 ∧
      (∀ other ∈ pool.processes,
        Holds (perform operation pool.shared).1 other.knowledge) ∧
      Holds (perform operation pool.shared).1
        (learn process.knowledge operation pool.shared)

theorem step_consistent
    (hstart : ∀ state request, Holds state ignorant ∧
      (program request).Follows perform learn fits justified ignorant)
    (hfits : ∀ (pool : Pool State Knowledge Reply Result) knowledge operation,
      Invariant pool.shared → condition pool knowledge operation →
      fits knowledge operation pool.shared)
    (hpreserved : Preserved perform learn justified Invariant Holds condition)
    {pool next : Pool State Knowledge Reply Result} {event : Event Request}
    (hpool : pool.Consistent perform learn fits justified Invariant Holds)
    (hcondition : OnOperation condition pool event)
    (hstep : step perform learn ignorant program pool event = some next) :
    next.Consistent perform learn fits justified Invariant Holds := by
  cases event with
  | start request =>
      cases hstep
      refine ⟨hpool.invariant, ?_, ?_⟩
      · intro process hprocess
        rcases List.mem_append.mp hprocess with hprocess | hprocess
        · exact hpool.holds process hprocess
        · obtain rfl := List.mem_singleton.mp hprocess
          exact (hstart _ request).1
      · intro process hprocess
        rcases List.mem_append.mp hprocess with hprocess | hprocess
        · exact hpool.follows process hprocess
        · obtain rfl := List.mem_singleton.mp hprocess
          exact (hstart pool.shared request).2
  | crash index =>
      cases hstep
      exact ⟨hpool.invariant,
        fun process hprocess => hpool.holds process (List.mem_of_mem_eraseIdx hprocess),
        fun process hprocess => hpool.follows process (List.mem_of_mem_eraseIdx hprocess)⟩
  | advance index =>
      simp only [step] at hstep
      simp only [OnOperation] at hcondition
      split at hstep
      next knowledge operation rest hprocess =>
        simp only [hprocess] at hcondition
        have hmem := List.mem_of_getElem? hprocess
        have hfollows := hpool.follows _ hmem pool.shared
          (hfits pool knowledge operation hpool.invariant hcondition)
        obtain ⟨hinvariant, hothers, hown⟩ := hpreserved pool _ operation hmem
          hpool.invariant hpool.holds hcondition hfollows.1
        cases hstep
        refine ⟨hinvariant, ?_, ?_⟩
        · intro process hmember
          rcases List.mem_or_eq_of_mem_set hmember with hmember | rfl
          · exact hothers process hmember
          · exact hown
        · intro process hmember
          rcases List.mem_or_eq_of_mem_set hmember with hmember | rfl
          · exact hpool.follows process hmember
          · exact hfollows.2
      next => cases hstep

/-- The invariant holds at every point of a run whose operations meet the
condition. -/
theorem run_invariant
    (hstart : ∀ state request, Holds state ignorant ∧
      (program request).Follows perform learn fits justified ignorant)
    (hfits : ∀ (pool : Pool State Knowledge Reply Result) knowledge operation,
      Invariant pool.shared → condition pool knowledge operation →
      fits knowledge operation pool.shared)
    (hpreserved : Preserved perform learn justified Invariant Holds condition)
    {state : State} {last : Pool State Knowledge Reply Result}
    {events : List (Event Request)} (hinitial : Invariant state)
    (hsteps : AllSteps (step perform learn ignorant program) (OnOperation condition)
      { shared := state, processes := [] } events)
    (hrun : run (step perform learn ignorant program)
      { shared := state, processes := [] } events = some last) :
    Invariant last.shared := by
  have hconsistent : last.Consistent perform learn fits justified Invariant Holds := by
    refine run_invariant_of_allSteps ?_ ?_ hsteps hrun
    · intro pool event next hpool hcondition hstep
      exact step_consistent hstart hfits hpreserved hpool hcondition hstep
    · exact ⟨hinitial, by simp, by simp⟩
  exact hconsistent.invariant

end

end SharedPrograms
