import ManagedAgents.Library.ReadCommitted

/-!
# Projections of committed states

A part of the state of which some transactions see nothing else and which all other
transactions leave alone evolves as if these did not exist.  Every run projects to a
run of the own transactions of the part, which read the states that correspond to
those they have read and give the same answers.
-/

namespace ReadCommitted

open LabelledRuns

variable {State Part Label Answer : Type*}

/-- What the transactions of a run answer. -/
def answers (body : Label → (ℕ → State) → State → Option State)
    (answer : Label → (ℕ → State) → State → Answer) :
    Timeline State → List (Label × List ℕ) → List (Label × Answer)
  | _, [] => []
  | timeline, call :: rest =>
      (call.1, answer call.1 (timeline.view call.2) timeline.current) ::
        match step body timeline call with
        | none => []
        | some next => answers body answer next rest

/-- Every state of the timeline projects to the one at its place in the timeline of
the part, a newer one not to an older one. -/
structure Projects (project : State → Part) (places : ℕ → ℕ) (timeline : Timeline State)
    (part : Timeline Part) : Prop where
  current : places 0 = 0
  monotone : Monotone places
  states : ∀ index state, timeline.history[index]? = some state →
    part.history[places index]? = some (project state)

section

variable {project : State → Part} {places : ℕ → ℕ} {timeline : Timeline State}
  {part : Timeline Part}

theorem Projects.current_eq
    (hprojects : Projects project places timeline part) :
    part.current = project timeline.current := by
  have hcurrent := hprojects.states 0 timeline.current rfl
  rw [hprojects.current] at hcurrent
  exact Option.some.inj hcurrent

/-- The places of the ages are ages in the timeline of the part. -/
theorem Projects.admissible
    (hprojects : Projects project places timeline part) {ages : List ℕ}
    (hages : Admissible timeline ages) : Admissible part (ages.map places) := by
  constructor
  · rw [List.pairwise_map]
    exact hages.1.imp fun hle => hprojects.monotone hle
  · intro place hplace
    obtain ⟨age, hage, rfl⟩ := List.mem_map.mp hplace
    have hlt : age < timeline.history.length := Nat.lt_succ_of_le (hages.2 age hage)
    have hstate := hprojects.states age _ (List.getElem?_eq_getElem hlt)
    obtain ⟨hpart, -⟩ := List.getElem?_eq_some_iff.mp hstate
    exact Nat.le_of_lt_succ hpart

theorem Projects.view_eq
    (hprojects : Projects project places timeline part) {ages : List ℕ}
    (hages : Admissible timeline ages) (query : ℕ) :
    part.view (ages.map places) query = project (timeline.view ages query) := by
  obtain ⟨hlt, hview⟩ := Timeline.view_eq_getElem hages query
  have hplace : (ages.map places).getD query 0 = places (ages.getD query 0) := by
    have hmap := @List.getD_map _ _ ages 0 query places
    rwa [hprojects.current] at hmap
  have hstate := hprojects.states _ _ (List.getElem?_eq_getElem hlt)
  unfold Timeline.view at hview ⊢
  rw [hplace, List.getD_eq_getElem?_getD, hstate, Option.getD_some, hview]

/-- Both timelines take a step. -/
theorem Projects.push
    (hprojects : Projects project places timeline part) (next : State) :
    Projects project (fun index => index.casesOn 0 fun index => places index + 1)
      { current := next, past := timeline.history }
      { current := project next, past := part.history } := by
  refine ⟨rfl, ?_, ?_⟩
  · intro first second hle
    cases first with
    | zero => exact Nat.zero_le _
    | succ first =>
        cases second with
        | zero => exact absurd hle (Nat.not_succ_le_zero first)
        | succ second =>
            exact Nat.succ_le_succ (hprojects.monotone (Nat.le_of_succ_le_succ hle))
  · intro index state hstate
    cases index with
    | zero =>
        obtain rfl : next = state := Option.some.inj hstate
        rfl
    | succ index => exact hprojects.states index state hstate

/-- The step of another transaction, which leaves the part alone. -/
theorem Projects.stay
    (hprojects : Projects project places timeline part) {next : State}
    (hsame : project next = project timeline.current) :
    Projects project (fun index => index.casesOn 0 places)
      { current := next, past := timeline.history } part := by
  refine ⟨rfl, ?_, ?_⟩
  · intro first second hle
    cases first with
    | zero => exact Nat.zero_le _
    | succ first =>
        cases second with
        | zero => exact absurd hle (Nat.not_succ_le_zero first)
        | succ second => exact hprojects.monotone (Nat.le_of_succ_le_succ hle)
  · intro index state hstate
    cases index with
    | zero =>
        obtain rfl : next = state := Option.some.inj hstate
        rw [hsame, ← hprojects.current_eq]
        rfl
    | succ index => exact hprojects.states index state hstate

end

/-! ## Runs -/

/-- A transaction of the part sees nothing but the part. -/
def SeesPart (body : Label → (ℕ → State) → State → Option State)
    (partBody : Label → (ℕ → Part) → Part → Option Part)
    (answer : Label → (ℕ → State) → State → Answer)
    (partAnswer : Label → (ℕ → Part) → Part → Answer) (project : State → Part)
    (timeline : Timeline State) (call : Label × List ℕ) : Prop :=
  partBody call.1 (fun query => project (timeline.view call.2 query))
      (project timeline.current) =
    (body call.1 (timeline.view call.2) timeline.current).map project ∧
  partAnswer call.1 (fun query => project (timeline.view call.2 query))
      (project timeline.current) =
    answer call.1 (timeline.view call.2) timeline.current

/-- A transaction leaves the part alone if it commits. -/
def SparesPart (body : Label → (ℕ → State) → State → Option State)
    (project : State → Part) (timeline : Timeline State) (call : Label × List ℕ) : Prop :=
  ∀ next, body call.1 (timeline.view call.2) timeline.current = some next →
    project next = project timeline.current

section

variable {body : Label → (ℕ → State) → State → Option State}
  {partBody : Label → (ℕ → Part) → Part → Option Part}
  {answer : Label → (ℕ → State) → State → Answer}
  {partAnswer : Label → (ℕ → Part) → Part → Answer} {project : State → Part}
  {own : Label → Bool}

/-- One step projects to a step of the part or to none. -/
theorem step_project
    {timeline next : Timeline State} {part : Timeline Part} {places : ℕ → ℕ}
    {call : Label × List ℕ} (hprojects : Projects project places timeline part)
    (hsees : SeesPart body partBody answer partAnswer project timeline call)
    (hstep : step body timeline call = some next) :
    ∃ places' next', step partBody part (call.1, call.2.map places) = some next' ∧
      Projects project places' next next' ∧
      partAnswer call.1 (part.view (call.2.map places)) part.current =
        answer call.1 (timeline.view call.2) timeline.current := by
  have hages : Admissible timeline call.2 := (step_cases hstep).1
  have hview : part.view (call.2.map places) =
      fun query => project (timeline.view call.2 query) :=
    funext fun query => hprojects.view_eq hages query
  have hcurrent := hprojects.current_eq
  unfold step at hstep ⊢
  rw [if_pos hages] at hstep
  rw [if_pos (hprojects.admissible hages)]
  dsimp only
  rw [hview, hcurrent, hsees.1, hsees.2]
  cases hbody : body call.1 (timeline.view call.2) timeline.current with
  | none =>
      simp only [hbody, Option.some.injEq] at hstep
      exact ⟨places, part, rfl, hstep ▸ hprojects, rfl⟩
  | some state =>
      simp only [hbody, Option.some.injEq] at hstep
      exact ⟨_, _, rfl, hstep ▸ hprojects.push state, rfl⟩

theorem step_spares
    {timeline next : Timeline State} {part : Timeline Part} {places : ℕ → ℕ}
    {call : Label × List ℕ} (hprojects : Projects project places timeline part)
    (hspares : SparesPart body project timeline call)
    (hstep : step body timeline call = some next) :
    ∃ places', Projects project places' next part := by
  obtain ⟨-, rfl | ⟨state, hbody, rfl⟩⟩ := step_cases hstep
  · exact ⟨places, hprojects⟩
  · exact ⟨_, hprojects.stay (hspares state hbody)⟩

theorem run_project
    {start last : Timeline State} {part : Timeline Part} {places : ℕ → ℕ}
    {calls : List (Label × List ℕ)}
    (hcalls : AllSteps (step body) (fun timeline call =>
      if own call.1 then SeesPart body partBody answer partAnswer project timeline call
      else SparesPart body project timeline call) start calls)
    (hprojects : Projects project places start part)
    (hrun : run (step body) start calls = some last) :
    ∃ ownCalls lastPart places',
      ownCalls.map Prod.fst = (calls.map Prod.fst).filter own ∧
      run (step partBody) part ownCalls = some lastPart ∧
      Projects project places' last lastPart ∧
      answers partBody partAnswer part ownCalls =
        (answers body answer start calls).filter fun entry => own entry.1 := by
  induction calls generalizing start part places with
  | nil =>
      cases hrun
      exact ⟨[], part, places, rfl, rfl, hprojects, rfl⟩
  | cons call rest ih =>
      obtain ⟨next, hstep, hrest⟩ := run_cons_eq_some.mp hrun
      obtain ⟨hcall, hlater⟩ := hcalls
      cases hown : own call.1 with
      | true =>
          rw [if_pos hown] at hcall
          obtain ⟨middle, nextPart, hpartStep, hnext, hanswer⟩ :=
            step_project hprojects hcall hstep
          obtain ⟨ownCalls, lastPart, places', hlabels, hpartRun, hlast, hanswers⟩ :=
            ih (hlater next hstep) hnext hrest
          refine ⟨(call.1, call.2.map places) :: ownCalls, lastPart, places', ?_, ?_,
            hlast, ?_⟩
          · simp [hown, hlabels]
          · exact run_cons_eq_some.mpr ⟨nextPart, hpartStep, hpartRun⟩
          · simp [answers, hown, hpartStep, hstep, hanswer, hanswers]
      | false =>
          rw [if_neg (by simp [hown])] at hcall
          obtain ⟨middle, hnext⟩ := step_spares hprojects hcall hstep
          obtain ⟨ownCalls, lastPart, places', hlabels, hpartRun, hlast, hanswers⟩ :=
            ih (hlater next hstep) hnext hrest
          refine ⟨ownCalls, lastPart, places', ?_, hpartRun, hlast, ?_⟩
          · simp [hown, hlabels]
          · simp [answers, hown, hstep, hanswers]

end

end ReadCommitted
