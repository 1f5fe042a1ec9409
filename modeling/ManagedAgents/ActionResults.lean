import ManagedAgents.CommittedStates
import ManagedAgents.Library.PendingKeys

/-!
# Acceptable action results

Which results a waiting session accepts, judged on a log: each has to name an
unanswered pending action, each another one, and be of the type that answers
it.  The program judges them on the first rows of the log only.
-/

namespace ManagedAgents

open SequencedLog PendingKeys

/-! ## Results and the events they answer -/

/-- The id which the result answers, if it names one. -/
def SessionEventInput.target (py : Python) (input : SessionEventInput) :
    Option String :=
  (actionResultTarget py input.type input.payload).filter fun target => target ≠ ""

def SessionEvent.target (py : Python) (event : SessionEvent) : Option String :=
  (actionResultTarget py event.type event.payload).filter fun target => target ≠ ""

def resultTargets (py : Python) (results : List SessionEventInput) : List String :=
  results.filterMap (SessionEventInput.target py)

/-- Which type of result answers which type of tool use. -/
inductive AnswersType : String → String → Prop
  | customToolResult : AnswersType "user.custom_tool_result" "agent.custom_tool_use"
  | toolResult : AnswersType "user.tool_result" "agent.tool_use"
  | toolConfirmation : AnswersType "user.tool_confirmation" "agent.tool_use"
  | mcpToolConfirmation : AnswersType "user.tool_confirmation" "agent.mcp_tool_use"

/-- A confirmation denies, or it allows and gives no reason for a denial. -/
def Decides (payload : Dict) : Prop :=
  Dict.get payload "result" = .str "deny" ∨
    Dict.get payload "result" = .str "allow" ∧
      Dict.get payload "deny_message" = .null

theorem validateActionResultMatchesBlocker_ok_iff
    {resultType blockerType : String} {payload : Dict}
    (hresult : resultType ∈ ACTION_RESULT_EVENTS) :
    validateActionResultMatchesBlocker resultType payload blockerType = .ok () ↔
      AnswersType resultType blockerType ∧
        (resultType = "user.tool_confirmation" → Decides payload) := by
  simp only [ACTION_RESULT_EVENTS, List.mem_cons, List.not_mem_nil, or_false]
    at hresult
  unfold validateActionResultMatchesBlocker
  constructor
  · intro hok
    rcases hresult with rfl | rfl | rfl
    · by_cases hblocker : blockerType = "agent.custom_tool_use"
      · subst hblocker
        exact ⟨.customToolResult, by simp⟩
      · simp [hblocker] at hok
    · have hne : "user.tool_confirmation" ≠ "user.custom_tool_result" := by decide
      have hne' : "user.tool_confirmation" ≠ "user.tool_result" := by decide
      simp only [hne, hne', if_false, if_true] at hok
      split at hok
      · cases hok
      next hblocker =>
      split at hok
      · cases hok
      · cases hok
      split at hok
      · cases hok
      next hresult =>
      split at hok
      · cases hok
      next hreason =>
      constructor
      · by_cases htool : blockerType = "agent.tool_use"
        · subst htool
          exact .toolConfirmation
        · have hmcp : blockerType = "agent.mcp_tool_use" := by tauto
          subst hmcp
          exact .mcpToolConfirmation
      · intro _
        unfold Decides
        tauto
    · by_cases hblocker : blockerType = "agent.tool_use"
      · subst hblocker
        exact ⟨.toolResult, by simp⟩
      · simp [hblocker] at hok
  · rintro ⟨hanswers, hdecides⟩
    cases hanswers with
    | customToolResult => rfl
    | toolResult => rfl
    | toolConfirmation =>
        rcases hdecides rfl with hdeny | ⟨hallow, hreason⟩
        · simp [hdeny]
        · simp [hallow, hreason]
    | mcpToolConfirmation =>
        rcases hdecides rfl with hdeny | ⟨hallow, hreason⟩
        · simp [hdeny]
        · simp [hallow, hreason]

/-- The event with the target's id is in the history, and the result answers
it. -/
def MatchesBlocker (history : List SessionEvent) (input : SessionEventInput)
    (target : String) : Prop :=
  ∃ blocker ∈ history, blocker.id = target ∧ AnswersType input.type blocker.type ∧
    (input.type = "user.tool_confirmation" → Decides input.payload)

/-- Each result answers a pending action, each another one. -/
structure AcceptableResults (py : Python) (pending : Finset String)
    (history : List SessionEvent) (results : List SessionEventInput) : Prop where
  matched : ∀ input ∈ results, ∃ target, input.target py = some target ∧
    MatchesBlocker history input target
  admissible : Admissible pending (resultTargets py results)

/-- The pending actions which no event of the log answers. -/
def unanswered (py : Python) (pendingIds : List String)
    (events : List SessionEvent) : Finset String :=
  settle pendingIds.toFinset (resolvedActionIds py events)

/-! ## The loop of `_validate_action_results` -/

section

variable {py : Python} {history : List SessionEvent}

theorem acceptableResults_nil (pending : Finset String) :
    AcceptableResults py pending history [] where
  matched := by simp
  admissible := admissible_nil

theorem acceptableResults_cons_iff
    {pending : Finset String} {input : SessionEventInput}
    {rest : List SessionEventInput} :
    AcceptableResults py pending history (input :: rest) ↔
      ∃ target, input.target py = some target ∧ target ∈ pending ∧
        MatchesBlocker history input target ∧
        AcceptableResults py (settle pending [target]) history rest := by
  constructor
  · intro haccept
    obtain ⟨target, htarget, hmatches⟩ :=
      haccept.matched input List.mem_cons_self
    have hadmissible := haccept.admissible
    unfold resultTargets at hadmissible
    rw [List.filterMap_cons_some htarget] at hadmissible
    obtain ⟨hpending, hrest⟩ := admissible_cons_iff.mp hadmissible
    refine ⟨target, htarget, hpending, hmatches, ?_, hrest⟩
    intro other hother
    exact haccept.matched other (List.mem_cons_of_mem _ hother)
  · rintro ⟨target, htarget, hpending, hmatches, hrest⟩
    constructor
    · intro other hother
      rcases List.mem_cons.mp hother with rfl | hother
      · exact ⟨target, htarget, hmatches⟩
      · exact hrest.matched other hother
    · unfold resultTargets
      rw [List.filterMap_cons_some htarget]
      exact admissible_cons_iff.mpr ⟨hpending, hrest.admissible⟩

/-- On a history without repeated ids, the row with an id is the only one. -/
theorem eventById_eq_some_iff
    (hids : (history.map SessionEvent.id).Nodup)
    {id : String} {event : SessionEvent} :
    eventById history id = some event ↔ event ∈ history ∧ event.id = id := by
  unfold eventById
  constructor
  · intro hlast
    simpa using List.mem_filter.mp (List.mem_of_getLast? hlast)
  · rintro ⟨hevent, hid⟩
    have hmem : event ∈ history.filter fun other => other.id = id := by
      simp [hevent, hid]
    cases hlast : (history.filter fun other => other.id = id).getLast? with
    | none =>
        rw [List.getLast?_eq_none_iff] at hlast
        rw [hlast] at hmem
        cases hmem
    | some last =>
        have hlastMem : last ∈ history ∧ last.id = id := by
          simpa using List.mem_filter.mp (List.mem_of_getLast? hlast)
        have hsame := List.inj_on_of_nodup_map hids hlastMem.1 hevent
          (hlastMem.2.trans hid.symm)
        rw [hsame]

theorem matchesBlocker_iff
    (hids : (history.map SessionEvent.id).Nodup)
    {input : SessionEventInput} {target : String} {blocker : SessionEvent}
    (hinput : input.type ∈ ACTION_RESULT_EVENTS)
    (hblocker : eventById history target = some blocker) :
    MatchesBlocker history input target ↔
      validateActionResultMatchesBlocker input.type input.payload blocker.type =
        .ok () := by
  obtain ⟨hmem, hid⟩ := (eventById_eq_some_iff hids).mp hblocker
  rw [validateActionResultMatchesBlocker_ok_iff hinput]
  constructor
  · rintro ⟨other, hother, hotherId, hanswers⟩
    have hsame := (eventById_eq_some_iff hids).mpr ⟨hother, hotherId⟩
    rw [hblocker] at hsame
    cases hsame
    exact hanswers
  · intro hanswers
    exact ⟨blocker, hmem, hid, hanswers⟩

/-- The loop accepts the acceptable results. -/
theorem validateActionResultsLoop_ok_iff
    {pendingIds resolvedIds taken : List String}
    {results : List SessionEventInput}
    (hids : (history.map SessionEvent.id).Nodup)
    (htypes : ∀ input ∈ results, input.type ∈ ACTION_RESULT_EVENTS) :
    validateActionResultsLoop py pendingIds resolvedIds history taken results =
        .ok () ↔
      AcceptableResults py (settle (settle pendingIds.toFinset resolvedIds) taken)
        history results := by
  induction results generalizing taken with
  | nil =>
      constructor
      · intro _
        exact acceptableResults_nil _
      · intro _
        rfl
  | cons input rest ih =>
      have hinput := htypes input List.mem_cons_self
      have hrest := fun other hother => htypes other (List.mem_cons_of_mem _ hother)
      rw [acceptableResults_cons_iff]
      unfold validateActionResultsLoop
      cases htarget : actionResultTarget py input.type input.payload with
      | none => simp [SessionEventInput.target, htarget]
      | some target =>
          by_cases hempty : target = ""
          · simp [SessionEventInput.target, htarget, hempty]
          have hsame : input.target py = some target := by
            simp [SessionEventInput.target, htarget, hempty]
          simp only [hsame, Option.some.injEq, exists_eq_left', hempty, if_false,
            mem_settle, List.mem_toFinset]
          by_cases hpending : target ∈ pendingIds
          swap
          · simp [hpending]
          by_cases hused : target ∈ resolvedIds ∨ target ∈ taken
          · simp only [hpending, hused, not_true_eq_false, if_false, if_true]
            constructor
            · intro hok
              cases hok
            · rintro ⟨⟨⟨-, hresolved⟩, htaken⟩, -⟩
              exact absurd hused (not_or.mpr ⟨hresolved, htaken⟩)
          · have hfree : (target ∈ pendingIds ∧ target ∉ resolvedIds) ∧
                target ∉ taken := by tauto
            simp only [hpending, hused, not_true_eq_false, if_false]
            rw [← settle_cons]
            cases hblocker : eventById history target with
            | none =>
                constructor
                · intro hok
                  cases hok
                · rintro ⟨-, ⟨blocker, hmem, hid, -⟩, -⟩
                  have hsome := (eventById_eq_some_iff hids).mpr ⟨hmem, hid⟩
                  rw [hblocker] at hsome
                  cases hsome
            | some blocker =>
                have hmatches := matchesBlocker_iff hids hinput hblocker
                simp only
                cases hvalid : validateActionResultMatchesBlocker input.type
                    input.payload blocker.type with
                | error error =>
                    rw [hvalid] at hmatches
                    simp [hmatches]
                | ok _ =>
                    rw [hvalid] at hmatches
                    simp only
                    rw [ih hrest]
                    simp [hmatches, hfree]

end

/-! ## The first rows and the whole log -/

/-- The rows which the two scans for action results read. -/
def actionPage (events : List SessionEvent) : List SessionEvent :=
  events.take ACTION_HISTORY_LIMIT

theorem resolvedActionIds_append
    (py : Python) (older newer : List SessionEvent) :
    resolvedActionIds py (older ++ newer) =
      resolvedActionIds py older ++ resolvedActionIds py newer :=
  List.filterMap_append

theorem resolvedActionIds_subset
    {py : Python} {older newer : List SessionEvent} (hextends : older <+: newer) :
    resolvedActionIds py older ⊆ resolvedActionIds py newer := by
  obtain ⟨added, rfl⟩ := hextends
  rw [resolvedActionIds_append]
  exact List.subset_append_left _ _

theorem unanswered_append
    (py : Python) (pendingIds : List String) (older newer : List SessionEvent) :
    unanswered py pendingIds (older ++ newer) =
      settle (unanswered py pendingIds older) (resolvedActionIds py newer) := by
  unfold unanswered
  rw [resolvedActionIds_append, settle_append]

/-- A longer log answers more. -/
theorem unanswered_subset
    {py : Python} {pendingIds : List String} {older newer : List SessionEvent}
    (hextends : older <+: newer) :
    unanswered py pendingIds newer ⊆ unanswered py pendingIds older := by
  intro id hid
  obtain ⟨hpending, hopen⟩ := mem_settle.mp hid
  refine mem_settle.mpr ⟨hpending, ?_⟩
  intro hanswered
  exact hopen (resolvedActionIds_subset hextends hanswered)

section

variable {py : Python} {pendingIds : List String} {events : List SessionEvent}
  {results : List SessionEventInput}

theorem AcceptableResults.exists_input
    {pending : Finset String} {history : List SessionEvent} {target : String}
    (haccept : AcceptableResults py pending history results)
    (htarget : target ∈ resultTargets py results) :
    ∃ input ∈ results, input.target py = some target ∧
      MatchesBlocker history input target := by
  obtain ⟨input, hinput, hsame⟩ := List.mem_filterMap.mp htarget
  obtain ⟨other, hother, hmatches⟩ := haccept.matched input hinput
  rw [hsame] at hother
  cases hother
  exact ⟨input, hinput, hsame, hmatches⟩

/-- Acceptable on the first rows and nowhere answered past them: acceptable on
the whole log. -/
theorem AcceptableResults.of_page
    (hopen : ∀ target ∈ resultTargets py results,
      target ∉ resolvedActionIds py events)
    (haccept : AcceptableResults py
      (unanswered py pendingIds (actionPage events)) (actionPage events) results) :
    AcceptableResults py (unanswered py pendingIds events) events results where
  matched := by
    intro input hinput
    obtain ⟨target, htarget, blocker, hblocker, hmatches⟩ :=
      haccept.matched input hinput
    exact ⟨target, htarget, blocker, List.mem_of_mem_take hblocker, hmatches⟩
  admissible := by
    refine ⟨haccept.admissible.nodup, ?_⟩
    intro target htarget
    have hpending := haccept.admissible.pending target htarget
    exact mem_settle.mpr ⟨(mem_settle.mp hpending).1, hopen target htarget⟩

/-- Acceptable on the whole log and the answered events among the first rows:
acceptable on the first rows. -/
theorem AcceptableResults.to_page
    (hids : (events.map SessionEvent.id).Nodup)
    (hshown : ∀ target ∈ resultTargets py results,
      ∃ blocker ∈ actionPage events, blocker.id = target)
    (haccept : AcceptableResults py (unanswered py pendingIds events) events
      results) :
    AcceptableResults py (unanswered py pendingIds (actionPage events))
      (actionPage events) results where
  matched := by
    intro input hinput
    obtain ⟨target, htarget, blocker, hblocker, hid, hmatches⟩ :=
      haccept.matched input hinput
    have hmem : target ∈ resultTargets py results :=
      List.mem_filterMap.mpr ⟨input, hinput, htarget⟩
    obtain ⟨shown, hshownMem, hshownId⟩ := hshown target hmem
    have hsame : shown = blocker :=
      List.inj_on_of_nodup_map hids (List.mem_of_mem_take hshownMem) hblocker
        (hshownId.trans hid.symm)
    subst hsame
    exact ⟨target, htarget, shown, hshownMem, hid, hmatches⟩
  admissible := by
    refine ⟨haccept.admissible.nodup, ?_⟩
    intro target htarget
    exact unanswered_subset (List.take_prefix _ _)
      (haccept.admissible.pending target htarget)

end

end ManagedAgents
