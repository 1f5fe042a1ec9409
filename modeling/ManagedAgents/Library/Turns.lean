import Mathlib.Data.List.Chain

/-!
# Turns of a conversation

A server works on a conversation in turns.  A turn can end with questions, which hold
back the next turn; it can be interrupted, fail and be tried again; the conversation
can be closed and deleted.  The rules at the end say what lies between two entries of
a trace, which lists the moves and the states they led to, newest first.
-/

namespace Turns

variable {Question : Type*}

inductive State (Question : Type*)
  | ready
  | waiting (questions : List Question)
  | running
  | retrying
  | closed
  | deleted
deriving DecidableEq

/-- A message comes with all the answers given so far. -/
inductive Move (Question : Type*)
  | message (answered : List Question)
  | interrupt
  | cancel
  | delete
  | start
  | conclude
  | fail
  | other
deriving DecidableEq

/-- A failure is recorded late when the conversation has gone on since. -/
inductive Step : State Question → Move Question → State Question → Prop
  | message (state : State Question) (answered : List Question) :
      Step state (.message answered) state
  | other (state : State Question) : Step state .other state
  | answer {questions answered : List Question} (hanswered : questions ⊆ answered) :
      Step (.waiting questions) (.message answered) .ready
  | interrupt {state : State Question} (hclosed : state ≠ .closed)
      (hdeleted : state ≠ .deleted) : Step state .interrupt .ready
  | cancel {state : State Question} (hdeleted : state ≠ .deleted) :
      Step state .cancel .closed
  | delete {state : State Question} (hrunning : state ≠ .running)
      (hretrying : state ≠ .retrying) (hdeleted : state ≠ .deleted) :
      Step state .delete .deleted
  | start {state : State Question} (hstate : state = .ready ∨ state = .retrying) :
      Step state .start .running
  | conclude : Step .running .conclude .ready
  | ask (questions : List Question) : Step .running .conclude (.waiting questions)
  | retry {state : State Question} (hdeleted : state ≠ .deleted) :
      Step state .fail .retrying
  | fail {state : State Question} (hdeleted : state ≠ .deleted) :
      Step state .fail .closed
  | late : Step .deleted .fail .deleted

theorem Step.of_start
    {before after : State Question} (hstep : Step before .start after) :
    before = .ready ∨ before = .retrying := by
  cases hstep with
  | start hstate => exact hstate

theorem Step.starts
    {before after : State Question} (hstep : Step before .start after) :
    after = .running := by
  cases hstep with
  | start => rfl

theorem Step.of_conclude
    {before after : State Question} (hstep : Step before .conclude after) :
    before = .running := by
  cases hstep with
  | conclude => rfl
  | ask => rfl

/-- The moves during a turn which leave it alone. -/
def Move.listens : Move Question → Prop
  | .message _ | .other => True
  | _ => False

theorem Step.into_running
    {before : State Question} {move : Move Question} (hstep : Step before move .running) :
    move = .start ∨ before = .running ∧ move.listens := by
  cases hstep with
  | message state answered => exact Or.inr ⟨rfl, trivial⟩
  | other => exact Or.inr ⟨rfl, trivial⟩
  | start => exact Or.inl rfl

/-- A move and the state after it. -/
abbrev Entry (Question : Type*) := Move Question × State Question

/-- Every entry follows from the one before it. -/
def Follows (trace : List (Entry Question)) : Prop :=
  trace.IsChain fun newer older => Step older.2 newer.1 newer.2

section

variable {trace between older : List (Entry Question)} {later earlier : Entry Question}

/-- What the moves in between keep holds before the later move. -/
theorem Follows.step_after
    {Inside : State Question → Prop} {allowed : Move Question → Prop}
    (hkept : ∀ before move after, Inside before → allowed move →
      Step before move after → Inside after)
    (hfollows : Follows (later :: (between ++ earlier :: older)))
    (hearlier : Inside earlier.2) (hbetween : ∀ entry ∈ between, allowed entry.1) :
    ∃ before, Inside before ∧ Step before later.1 later.2 := by
  induction between generalizing later with
  | nil => exact ⟨earlier.2, hearlier, (List.isChain_cons_cons.mp hfollows).1⟩
  | cons entry rest ih =>
      obtain ⟨hstep, hrest⟩ := List.isChain_cons_cons.mp hfollows
      obtain ⟨hentry, hothers⟩ := List.forall_mem_cons.mp hbetween
      obtain ⟨before, hbefore, hinner⟩ := ih hrest hothers
      exact ⟨entry.2, hkept before entry.1 entry.2 hbefore hentry hinner, hstep⟩

/-- A deleted conversation stays deleted. -/
theorem Follows.deleted
    (hfollows : Follows (later :: (between ++ earlier :: older)))
    (hearlier : earlier.2 = .deleted) : later.2 = .deleted := by
  have hkept : ∀ (before : State Question) move after, before = .deleted → True →
      Step before move after → after = .deleted := by
    rintro before move after rfl - hstep
    cases hstep with
    | message => rfl
    | other => rfl
    | late => rfl
    | interrupt hclosed hdeleted => exact absurd rfl hdeleted
    | cancel hdeleted => exact absurd rfl hdeleted
    | delete hrunning hretrying hdeleted => exact absurd rfl hdeleted
    | start hstate => simp at hstate
    | retry hdeleted => exact absurd rfl hdeleted
    | fail hdeleted => exact absurd rfl hdeleted
  obtain ⟨before, hbefore, hstep⟩ :=
    hfollows.step_after hkept hearlier fun _ _ => trivial
  exact hkept before later.1 later.2 hbefore trivial hstep

/-- The moves which end a turn and leave the conversation open. -/
def Move.endsTurn (move : Move Question) : Prop :=
  move = .conclude ∨ move = .interrupt ∨ move = .fail

/-- Without such a move no turn can start after another. -/
theorem kept_unstartable
    {before : State Question} {move : Move Question} {after : State Question}
    (hbefore : before = .running ∨ before = .closed ∨ before = .deleted)
    (hmove : ¬move.endsTurn) (hstep : Step before move after) :
    after = .running ∨ after = .closed ∨ after = .deleted := by
  unfold Move.endsTurn at hmove
  cases hstep with
  | message => exact hbefore
  | other => exact hbefore
  | answer => simp at hbefore
  | interrupt => simp at hmove
  | cancel => simp
  | delete => simp
  | start => simp
  | conclude => simp at hmove
  | ask => simp at hmove
  | retry => simp at hmove
  | fail => simp at hmove
  | late => simp

/-- Two turns do not overlap. -/
theorem Follows.turn_ended
    (hfollows : Follows (later :: (between ++ earlier :: older)))
    (hearlier : earlier.2 = .running) (hlater : later.1 = .start) :
    ∃ entry ∈ between, entry.1.endsTurn := by
  by_contra hnone
  push Not at hnone
  obtain ⟨before, hbefore, hstep⟩ := hfollows.step_after
    (fun _ _ _ => kept_unstartable) (Or.inl hearlier) hnone
  rw [hlater] at hstep
  have hstate := hstep.of_start
  rcases hbefore with rfl | rfl | rfl <;> simp at hstate

/-- Whatever can follow on questions without an answer. -/
theorem kept_waiting
    {questions : List Question} {before : State Question} {move : Move Question}
    {after : State Question}
    (hbefore : before = .waiting questions ∨ before = .closed ∨ before = .deleted)
    (hmove : (∀ answered, move = .message answered → ¬questions ⊆ answered) ∧
      move ≠ .interrupt ∧ move ≠ .fail) (hstep : Step before move after) :
    after = .waiting questions ∨ after = .closed ∨ after = .deleted := by
  obtain ⟨hmessage, hinterrupt, hfail⟩ := hmove
  cases hstep with
  | message => exact hbefore
  | other => exact hbefore
  | answer hanswered =>
      rcases hbefore with hbefore | hbefore | hbefore
      · cases hbefore
        exact absurd hanswered (hmessage _ rfl)
      · cases hbefore
      · cases hbefore
  | interrupt => exact absurd rfl hinterrupt
  | cancel => simp
  | delete => simp
  | start hstate => rcases hbefore with rfl | rfl | rfl <;> simp at hstate
  | conclude => simp at hbefore
  | ask => simp at hbefore
  | retry => exact absurd rfl hfail
  | fail => exact absurd rfl hfail
  | late => simp

/-- A turn does not start before the questions of an earlier one are answered. -/
theorem Follows.answered
    {questions : List Question}
    (hfollows : Follows (later :: (between ++ earlier :: older)))
    (hearlier : earlier.2 = .waiting questions) (hlater : later.1 = .start) :
    ∃ entry ∈ between,
      (∃ answered, entry.1 = .message answered ∧ questions ⊆ answered) ∨
        entry.1 = .interrupt ∨ entry.1 = .fail := by
  by_contra hnone
  push Not at hnone
  obtain ⟨before, hbefore, hstep⟩ := hfollows.step_after
    (fun _ _ _ => kept_waiting) (Or.inl hearlier) hnone
  rw [hlater] at hstep
  have hstate := hstep.of_start
  rcases hbefore with rfl | rfl | rfl <;> simp at hstate

theorem kept_closed
    {before : State Question} {move : Move Question} {after : State Question}
    (hbefore : before = .closed ∨ before = .deleted) (hmove : move ≠ .fail)
    (hstep : Step before move after) : after = .closed ∨ after = .deleted := by
  cases hstep with
  | message => exact hbefore
  | other => exact hbefore
  | answer => simp at hbefore
  | interrupt hclosed hdeleted => rcases hbefore with rfl | rfl <;> contradiction
  | cancel => simp
  | delete => simp
  | start hstate => rcases hbefore with rfl | rfl <;> simp at hstate
  | conclude => simp at hbefore
  | ask => simp at hbefore
  | retry => exact absurd rfl hmove
  | fail => exact absurd rfl hmove
  | late => simp

/-- No turn starts in a closed conversation unless a failure has opened it again. -/
theorem Follows.reopened
    (hfollows : Follows (later :: (between ++ earlier :: older)))
    (hearlier : earlier.2 = .closed) (hlater : later.1 = .start) :
    ∃ entry ∈ between, entry.1 = .fail := by
  by_contra hnone
  push Not at hnone
  obtain ⟨before, hbefore, hstep⟩ := hfollows.step_after
    (fun _ _ _ => kept_closed) (Or.inl hearlier) hnone
  rw [hlater] at hstep
  have hstate := hstep.of_start
  rcases hbefore with rfl | rfl <;> simp at hstate

/-- A running conversation has started its turn, and since then only messages came in. -/
theorem Follows.started
    {trace : List (Entry Question)} {last first : Entry Question}
    (hfollows : Follows (last :: trace)) (hlast : last.2 = .running)
    (hfirst : (last :: trace).getLast? = some first) (hready : first.2 ≠ .running) :
    ∃ since entry older, last :: trace = since ++ entry :: older ∧ entry.1 = .start ∧
      ∀ other ∈ since, other.1.listens := by
  induction trace generalizing last with
  | nil =>
      cases hfirst
      exact absurd hlast hready
  | cons entry rest ih =>
      obtain ⟨hstep, hrest⟩ := List.isChain_cons_cons.mp hfollows
      rw [hlast] at hstep
      rcases hstep.into_running with hstart | ⟨hrunning, hmove⟩
      · exact ⟨[], last, entry :: rest, rfl, hstart, by simp⟩
      · obtain ⟨since, start, older, hsplit, hstart, hsince⟩ :=
          ih hrest hrunning (by rwa [List.getLast?_cons_cons] at hfirst)
        exact ⟨last :: since, start, older, by rw [hsplit, List.cons_append], hstart,
          List.forall_mem_cons.mpr ⟨hmove, hsince⟩⟩

end

end Turns
