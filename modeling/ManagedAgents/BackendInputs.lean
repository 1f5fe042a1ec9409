import ManagedAgents.LatestInput
import ManagedAgents.Runtime.LocalBackend

/-!
# The input of the two backends

The local backend answers the newest action result, or else the newest message or
outcome.  The conversation for the model is made of messages alone, so it has the same
input exactly if the messages happen to say it.
-/

namespace ManagedAgents

/-- What an action result says: its text, or the decision with the message of a
denial. -/
def actionResultTexts (py : Python) (event : SessionEvent) : List String :=
  if event.type = "user.tool_confirmation" then
    if Dict.get event.payload "result" = .str "deny" then
      if (Dict.get event.payload "deny_message").truthy then
        ["deny", py.str (Dict.get event.payload "deny_message")]
      else ["deny"]
    else ["allow"]
  else [textFromPayload event.payload]

/-- All the texts stand in the given one. -/
def Says (text : String) (texts : List String) : Prop :=
  ∀ part ∈ texts, part.toList <:+: text.toList

/-- The conversation for the model has the input which the local backend acts on. -/
structure SharesInput (py : Python) (history : List SessionEvent) : Prop where
  action : ∀ event, latestUserActionEvent history = some event →
    ∃ item ∈ historyToOpenaiInput history,
      Says item.content (actionResultTexts py event)
  text : latestUserActionEvent history = none →
    ∀ text, latestUserText py history = .ok text → text ≠ "" →
      ∃ item, lastUserItem (historyToOpenaiInput history) = some item ∧
        item.content = text

def isSaidMessage (event : SessionEvent) : Bool :=
  event.type = "user.message" && textFromPayload event.payload ≠ ""

/-- A message says what the action result says, or that says nothing; and the newest
message of the user says what the outcome asks for. -/
structure MessagesSay (py : Python) (history : List SessionEvent) : Prop where
  action : ∀ event, latestUserActionEvent history = some event →
    (∃ message ∈ history, message.type ∈ ["user.message", "agent.message"] ∧
      textFromPayload message.payload ≠ "" ∧
      Says (textFromPayload message.payload) (actionResultTexts py event)) ∨
    ∀ part ∈ actionResultTexts py event, part = ""
  outcome : latestUserActionEvent history = none →
    ∀ event, latestEvent isUserInput history = some event →
      event.type = "user.define_outcome" →
      ∀ prompt, outcomePrompt py event.payload = .ok prompt → prompt ≠ "" →
        ∃ message, latestEvent isSaidMessage history = some message ∧
          textFromPayload message.payload = prompt

/-! ## Items -/

theorem openaiInputItem_eq_some
    {event : SessionEvent} {item : OpenAIInputItem} :
    openaiInputItem event = some item ↔
      event.type ∈ ["user.message", "agent.message"] ∧
        textFromPayload event.payload ≠ "" ∧
        item = { role := if event.type = "user.message" then "user" else "assistant"
                 content := textFromPayload event.payload } := by
  unfold openaiInputItem
  dsimp only
  by_cases htext : textFromPayload event.payload = ""
  · simp [htext]
  by_cases huser : event.type = "user.message"
  · simp [htext, huser, eq_comm]
  by_cases hagent : event.type = "agent.message"
  · simp [htext, hagent, eq_comm]
  · simp [htext, huser, hagent]

theorem lastUserItem_inputItems (history : List SessionEvent) :
    lastUserItem (inputItems history) =
      (latestEvent isSaidMessage history).map fun message =>
        { role := "user", content := textFromPayload message.payload } := by
  have hsaid : ∀ event,
      ((openaiInputItem event).any fun item => item.role = "user") =
        isSaidMessage event := by
    intro event
    unfold openaiInputItem isSaidMessage
    dsimp only
    split
    next hempty => simp [hempty]
    next hnonempty =>
      split
      next huser => simp [huser, hnonempty]
      next huser =>
        split <;> simp [huser]
  unfold lastUserItem inputItems latestEvent
  rw [← List.filterMap_reverse, List.find?_filterMap]
  simp only [hsaid]
  cases hfound : history.reverse.find? isSaidMessage with
  | none => rfl
  | some message =>
      have hmessage := List.find?_some hfound
      simp only [isSaidMessage, Bool.and_eq_true, decide_eq_true_eq] at hmessage
      rw [Option.bind_some, Option.map_some]
      exact openaiInputItem_eq_some.mpr ⟨by simp [hmessage.1], hmessage.2, by
        simp [hmessage.1]⟩

/-- The newest event of a kind is the newest one of each narrower kind it is of. -/
theorem latestEvent_of_imp
    {wide narrow : SessionEvent → Bool} {history : List SessionEvent}
    {event : SessionEvent} (himp : ∀ other, narrow other = true → wide other = true)
    (hlatest : latestEvent wide history = some event) (hnarrow : narrow event = true) :
    latestEvent narrow history = some event := by
  unfold latestEvent at hlatest ⊢
  generalize history.reverse = newest at hlatest ⊢
  induction newest with
  | nil => cases hlatest
  | cons first rest ih =>
      rw [List.find?_cons] at hlatest ⊢
      cases hwide : wide first with
      | true =>
          rw [hwide] at hlatest
          cases hlatest
          rw [hnarrow]
      | false =>
          have hfirst : narrow first = false := by
            rw [← Bool.not_eq_true]
            intro hnarrowFirst
            rw [himp first hnarrowFirst] at hwide
            cases hwide
          rw [hwide] at hlatest
          rw [hfirst]
          exact ih hlatest

/-! ## The backends -/

theorem says_of_empty
    {text : String} {texts : List String} (htexts : ∀ part ∈ texts, part = "") :
    Says text texts := by
  intro part hpart
  rw [htexts part hpart]
  exact List.nil_infix

theorem mem_historyToOpenaiInput
    {history : List SessionEvent} {item : OpenAIInputItem} :
    item ∈ historyToOpenaiInput history ↔
      item ∈ inputItems history ∨
        inputItems history = [] ∧ item = { role := "user", content := "" } := by
  unfold historyToOpenaiInput inputItems
  cases history.filterMap openaiInputItem <;> simp

theorem carried_iff (history : List SessionEvent) (texts : List String) :
    (∃ item ∈ historyToOpenaiInput history, Says item.content texts) ↔
      (∃ message ∈ history, message.type ∈ ["user.message", "agent.message"] ∧
        textFromPayload message.payload ≠ "" ∧
        Says (textFromPayload message.payload) texts) ∨
      ∀ part ∈ texts, part = "" := by
  constructor
  · rintro ⟨item, hitem, hword⟩
    rcases mem_historyToOpenaiInput.mp hitem with hmem | ⟨-, rfl⟩
    · obtain ⟨message, hmessage, hsome⟩ := List.mem_filterMap.mp hmem
      obtain ⟨htype, htext, rfl⟩ := openaiInputItem_eq_some.mp hsome
      exact Or.inl ⟨message, hmessage, htype, htext, hword⟩
    · refine Or.inr fun part hpart => ?_
      have hempty : part.toList = [] := List.infix_nil.mp (hword part hpart)
      simpa using hempty
  · rintro (⟨message, hmessage, htype, htext, hword⟩ | hempty)
    · have hsome := openaiInputItem_eq_some.mpr ⟨htype, htext, rfl⟩
      exact ⟨_, mem_historyToOpenaiInput.mpr
        (Or.inl (List.mem_filterMap.mpr ⟨message, hmessage, hsome⟩)), hword⟩
    · cases hitems : inputItems history with
      | nil =>
          exact ⟨_, mem_historyToOpenaiInput.mpr (Or.inr ⟨hitems, rfl⟩),
            says_of_empty hempty⟩
      | cons item rest =>
          exact ⟨item, mem_historyToOpenaiInput.mpr (Or.inl (by simp [hitems])),
            says_of_empty hempty⟩

/-- The last item of the user is the newest message which says something, or empty. -/
theorem lastUserItem_content_iff
    {history : List SessionEvent} {text : String} (htext : text ≠ "") :
    (∃ item, lastUserItem (historyToOpenaiInput history) = some item ∧
      item.content = text) ↔
      ∃ message, latestEvent isSaidMessage history = some message ∧
        textFromPayload message.payload = text := by
  rw [lastUserItem_historyToOpenaiInput]
  by_cases hitems : inputItems history = []
  · rw [if_pos hitems]
    have hlast := lastUserItem_inputItems history
    rw [hitems] at hlast
    have hnone : latestEvent isSaidMessage history = none :=
      Option.map_eq_none_iff.mp hlast.symm
    simp [hnone, htext.symm]
  · rw [if_neg hitems, lastUserItem_inputItems]
    constructor
    · rintro ⟨item, hitem, rfl⟩
      obtain ⟨message, hmessage, rfl⟩ := Option.map_eq_some_iff.mp hitem
      exact ⟨message, hmessage, rfl⟩
    · rintro ⟨message, hmessage, rfl⟩
      exact ⟨_, Option.map_eq_some_iff.mpr ⟨message, hmessage, rfl⟩, rfl⟩

/-- The newest input, a message or an outcome, is the last item of the user exactly if
the messages say so. -/
theorem latestUserText_shared_iff (py : Python) (history : List SessionEvent) :
    (∀ text, latestUserText py history = .ok text → text ≠ "" →
      ∃ item, lastUserItem (historyToOpenaiInput history) = some item ∧
        item.content = text) ↔
    ∀ event, latestEvent isUserInput history = some event →
      event.type = "user.define_outcome" →
      ∀ prompt, outcomePrompt py event.payload = .ok prompt → prompt ≠ "" →
        ∃ message, latestEvent isSaidMessage history = some message ∧
          textFromPayload message.payload = prompt := by
  unfold latestUserText
  cases hlatest : latestEvent isUserInput history with
  | none =>
      refine iff_of_true ?_ (by simp)
      rintro text ⟨⟩ hempty
      exact absurd rfl hempty
  | some event =>
      have hinput := (latestEvent_some hlatest).2
      simp only [isUserInput, Bool.or_eq_true, decide_eq_true_eq] at hinput
      simp only [Option.some.injEq, forall_eq']
      unfold userInputText
      by_cases hmessage : event.type = "user.message"
      · rw [if_pos hmessage]
        refine iff_of_true ?_ fun houtcome =>
          absurd (hmessage.symm.trans houtcome) (by decide)
        rintro text ⟨⟩ htext
        refine (lastUserItem_content_iff htext).mpr ⟨event, ?_, rfl⟩
        refine latestEvent_of_imp (fun other hsaid => ?_) hlatest (by
          simp [isSaidMessage, hmessage, htext])
        simp only [isSaidMessage, Bool.and_eq_true, decide_eq_true_eq] at hsaid
        simp [isUserInput, hsaid.1]
      · have houtcome := hinput.resolve_left hmessage
        rw [if_neg hmessage]
        simp only [houtcome, true_implies]
        constructor
        · intro hshared prompt hprompt hne
          exact (lastUserItem_content_iff hne).mp (hshared prompt hprompt hne)
        · intro hsaid prompt hprompt hne
          exact (lastUserItem_content_iff hne).mpr (hsaid prompt hprompt hne)

/-- The model gets what the local backend acts on exactly if the messages say it. -/
theorem backends_share_input_iff
    (py : Python) (history : List SessionEvent) :
    SharesInput py history ↔ MessagesSay py history := by
  constructor
  · rintro ⟨haction, htext⟩
    constructor
    · intro event hevent
      exact (carried_iff history _).mp (haction event hevent)
    · intro hnone
      exact (latestUserText_shared_iff py history).mp (htext hnone)
  · rintro ⟨haction, houtcome⟩
    constructor
    · intro event hevent
      exact (carried_iff history _).mpr (haction event hevent)
    · intro hnone
      exact (latestUserText_shared_iff py history).mpr (houtcome hnone)

/-! ## Sample histories -/

def sampleInput (seq : ℕ) (type : String) (payload : Dict) : SessionEvent where
  id := "evt_" ++ toString seq
  seq := seq
  type := type
  source := "user"
  payload := payload
  createdAt := seq
  origin := .client

/-- The result of a tool follows a message. -/
def sampleResultHistory : List SessionEvent :=
  [sampleInput 1 "user.message" [("content", .str "look it up")],
   sampleInput 2 "user.custom_tool_result" [("content", .str "42")]]

def sampleOutcomeHistory : List SessionEvent :=
  [sampleInput 1 "user.define_outcome" [("description", .str "Write a report.")]]

/-- Neither the result nor the outcome is in the conversation for the model. -/
theorem inputs_missing_for_model :
    ¬SharesInput samplePython sampleResultHistory ∧
      ¬SharesInput samplePython sampleOutcomeHistory := by
  constructor
  · intro hshares
    obtain ⟨item, hitem, hword⟩ := hshares.action
      (sampleInput 2 "user.custom_tool_result" [("content", .str "42")]) (by decide)
    have hitems : historyToOpenaiInput sampleResultHistory =
        [{ role := "user", content := "look it up" }] := by decide
    rw [hitems, List.mem_singleton] at hitem
    subst hitem
    have hinfix := hword "42" (by decide)
    revert hinfix
    decide
  · intro hshares
    obtain ⟨item, hitem, hcontent⟩ := hshares.text (by decide) "Write a report."
      (by decide) (by decide)
    have hlast : lastUserItem (historyToOpenaiInput sampleOutcomeHistory) =
        some { role := "user", content := "" } := by decide
    rw [hlast, Option.some.injEq] at hitem
    subst hitem
    exact absurd hcontent (by decide)

end ManagedAgents
