import ManagedAgents.SessionSystem

/-!
# The latest input of a turn

A turn loads the first page of the session's log, and its readers look for the
latest input from the end of what was loaded.  What they find is the latest
input of the session exactly when the events past the page have nothing to add.
-/

namespace ManagedAgents

open SequencedLog

/-! ## The loaded page -/

theorem loadTurn_history
    {py : Python} {rows : TurnRows} {start tx : Tx} {turn : LoadedTurn}
    (hload : loadTurn py rows start = .ok (turn, tx)) :
    turn.history = listEvents start.events 0 HISTORY_LIMIT := by
  unfold loadTurn at hload
  repeat' split at hload
  all_goals cases hload
  rfl

def loadedPage (log : List SessionEvent) : List SessionEvent :=
  log.take HISTORY_LIMIT

def pastPage (log : List SessionEvent) : List SessionEvent :=
  log.drop HISTORY_LIMIT

theorem loadedPage_append_pastPage (log : List SessionEvent) :
    loadedPage log ++ pastPage log = log :=
  List.take_append_drop HISTORY_LIMIT log

theorem not_mem_loadedPage
    {log : List SessionEvent} (hlog : GapFree SessionEvent.seq log)
    {event : SessionEvent} (hpast : event ∈ pastPage log) :
    event ∉ loadedPage log := by
  intro hpage
  have hordered := hlog.pairwise_lt
  rw [← loadedPage_append_pastPage log] at hordered
  have hlt := (List.pairwise_append.mp hordered).2.2 event hpage event hpast
  exact absurd hlt (lt_irrefl _)

/-! ## The latest text -/

/-- The newest input past the page has the text of the newest one in it. -/
def TextSuffices (py : Python) (log : List SessionEvent) : Prop :=
  ∀ event, latestEvent isUserInput (pastPage log) = some event →
    userInputText py event = latestUserText py (loadedPage log)

theorem latestUserText_page_iff (py : Python) (log : List SessionEvent) :
    latestUserText py (loadedPage log) = latestUserText py log ↔
      TextSuffices py log := by
  have hsplit : latestEvent isUserInput log =
      (latestEvent isUserInput (pastPage log)).or
        (latestEvent isUserInput (loadedPage log)) := by
    rw [← latestEvent_append, loadedPage_append_pastPage]
  unfold TextSuffices
  cases hpast : latestEvent isUserInput (pastPage log) with
  | none =>
      rw [hpast, Option.none_or] at hsplit
      unfold latestUserText
      rw [hsplit]
      simp
  | some event =>
      rw [hpast, Option.some_or] at hsplit
      have hfull : latestUserText py log = userInputText py event := by
        unfold latestUserText
        rw [hsplit]
      rw [hfull]
      constructor
      · rintro hsame other hother
        cases hother
        exact hsame.symm
      · intro hsuffices
        exact (hsuffices event rfl).symm

/-! ## The latest action result -/

/-- Past the page there is no event of the user, or the newest one there is no
action result and neither is the newest one in the page. -/
def ActionSuffices (log : List SessionEvent) : Prop :=
  ∀ event, latestEvent isUserEvent (pastPage log) = some event →
    event.type ∉ ACTION_RESULT_EVENTS ∧
      latestUserActionEvent (loadedPage log) = none

theorem latestUserActionEvent_page_iff
    {log : List SessionEvent} (hlog : GapFree SessionEvent.seq log) :
    latestUserActionEvent (loadedPage log) = latestUserActionEvent log ↔
      ActionSuffices log := by
  have hsplit : latestEvent isUserEvent log =
      (latestEvent isUserEvent (pastPage log)).or
        (latestEvent isUserEvent (loadedPage log)) := by
    rw [← latestEvent_append, loadedPage_append_pastPage]
  unfold ActionSuffices
  cases hpast : latestEvent isUserEvent (pastPage log) with
  | none =>
      rw [hpast, Option.none_or] at hsplit
      unfold latestUserActionEvent
      rw [hsplit]
      simp
  | some event =>
      rw [hpast, Option.some_or] at hsplit
      have hmem := (latestEvent_some hpast).1
      have hfull : latestUserActionEvent log =
          if event.type ∈ ACTION_RESULT_EVENTS then some event else none := by
        unfold latestUserActionEvent
        rw [hsplit]
        by_cases haction : event.type ∈ ACTION_RESULT_EVENTS
        · simp [haction]
        · simp [haction]
      rw [hfull]
      by_cases haction : event.type ∈ ACTION_RESULT_EVENTS
      · rw [if_pos haction]
        constructor
        · intro hsame
          have hfound := (Option.filter_eq_some_iff.mp hsame).1
          exact absurd (latestEvent_some hfound).1 (not_mem_loadedPage hlog hmem)
        · intro hsuffices
          exact absurd haction (hsuffices event rfl).1
      · rw [if_neg haction]
        constructor
        · rintro hnone other hother
          cases hother
          exact ⟨haction, hnone⟩
        · intro hsuffices
          exact (hsuffices event rfl).2

/-! ## The last user item -/

def inputItems (history : List SessionEvent) : List OpenAIInputItem :=
  history.filterMap openaiInputItem

/-- Past the page there are no items, or the page has items and the last user
item past it, if there is one, is that of the page. -/
def ItemSuffices (log : List SessionEvent) : Prop :=
  inputItems (pastPage log) = [] ∨
    inputItems (loadedPage log) ≠ [] ∧
      ∀ item, lastUserItem (inputItems (pastPage log)) = some item →
        lastUserItem (inputItems (loadedPage log)) = some item

theorem lastUserItem_append (older newer : List OpenAIInputItem) :
    lastUserItem (older ++ newer) =
      (lastUserItem newer).or (lastUserItem older) := by
  unfold lastUserItem
  rw [List.reverse_append, List.find?_append]

theorem lastUserItem_historyToOpenaiInput (history : List SessionEvent) :
    lastUserItem (historyToOpenaiInput history) =
      if inputItems history = [] then some { role := "user", content := "" }
      else lastUserItem (inputItems history) := by
  unfold historyToOpenaiInput inputItems
  cases history.filterMap openaiInputItem <;> rfl

theorem openaiInputItem_content
    {event : SessionEvent} {item : OpenAIInputItem}
    (hitem : openaiInputItem event = some item) : item.content ≠ "" := by
  unfold openaiInputItem at hitem
  simp only at hitem
  repeat' split at hitem
  all_goals cases hitem
  all_goals assumption

theorem lastUserItem_content
    {history : List SessionEvent} {item : OpenAIInputItem}
    (hlast : lastUserItem (inputItems history) = some item) :
    item.content ≠ "" := by
  unfold lastUserItem at hlast
  have hmem := List.mem_reverse.mp (List.mem_of_find?_eq_some hlast)
  obtain ⟨event, -, hitem⟩ := List.mem_filterMap.mp hmem
  exact openaiInputItem_content hitem

theorem lastUserItem_page_iff (log : List SessionEvent) :
    lastUserItem (historyToOpenaiInput (loadedPage log)) =
        lastUserItem (historyToOpenaiInput log) ↔
      ItemSuffices log := by
  have hitems : inputItems log =
      inputItems (loadedPage log) ++ inputItems (pastPage log) := by
    unfold inputItems
    rw [← List.filterMap_append, loadedPage_append_pastPage]
  rw [lastUserItem_historyToOpenaiInput, lastUserItem_historyToOpenaiInput, hitems]
  unfold ItemSuffices
  by_cases hpast : inputItems (pastPage log) = []
  · simp [hpast]
  have hfull : inputItems (loadedPage log) ++ inputItems (pastPage log) ≠ [] := by
    simp [hpast]
  rw [if_neg hfull, lastUserItem_append]
  by_cases hpage : inputItems (loadedPage log) = []
  · -- nothing was loaded, and the model is given an empty message
    rw [if_pos hpage, hpage]
    constructor
    · intro hsame
      exfalso
      have hlast : lastUserItem (inputItems (pastPage log)) =
          some { role := "user", content := "" } := by
        rw [hsame]
        simp [lastUserItem]
      exact lastUserItem_content hlast rfl
    · rintro (hnone | ⟨hsome, -⟩)
      · exact absurd hnone hpast
      · exact absurd rfl hsome
  · rw [if_neg hpage]
    cases hlast : lastUserItem (inputItems (pastPage log)) with
    | none => simp [hpage]
    | some item => simp [hpast, hpage]

/-! ## Every log -/

/-- The readers find in the history what they would find in the whole log. -/
structure ActsOnLatestInput (py : Python) (history log : List SessionEvent) :
    Prop where
  text : latestUserText py history = latestUserText py log
  action : latestUserActionEvent history = latestUserActionEvent log
  item : lastUserItem (historyToOpenaiInput history) =
    lastUserItem (historyToOpenaiInput log)

/-- The events past the page have nothing to add. -/
structure PageSuffices (py : Python) (log : List SessionEvent) : Prop where
  text : TextSuffices py log
  action : ActionSuffices log
  item : ItemSuffices log

/-- A turn acts on the latest input of the log exactly when the page which it
loads suffices. -/
theorem turn_acts_on_latest_input_iff
    {py : Python} {rows : TurnRows} {db : Db} {context : Context} {tx : Tx}
    {turn : LoadedTurn} (hlog : GapFree SessionEvent.seq db.events)
    (hload : loadTurn py rows (Tx.begin db context) = .ok (turn, tx)) :
    ActsOnLatestInput py turn.history db.events ↔ PageSuffices py db.events := by
  have hevents : (Tx.begin db context).events = db.events := by
    simp [Tx.events]
  have hhistory : turn.history = loadedPage db.events := by
    rw [loadTurn_history hload, hevents, listEvents_eq_take hlog]
    rfl
  rw [hhistory]
  constructor
  · intro hacts
    constructor
    · exact (latestUserText_page_iff py db.events).mp hacts.text
    · exact (latestUserActionEvent_page_iff hlog).mp hacts.action
    · exact (lastUserItem_page_iff db.events).mp hacts.item
  · intro hsuffices
    constructor
    · exact (latestUserText_page_iff py db.events).mpr hsuffices.text
    · exact (latestUserActionEvent_page_iff hlog).mpr hsuffices.action
    · exact (lastUserItem_page_iff db.events).mpr hsuffices.item

/-- A log that fits the page suffices. -/
theorem PageSuffices.of_length_le
    {py : Python} {log : List SessionEvent} (hlength : log.length ≤ HISTORY_LIMIT) :
    PageSuffices py log := by
  have hpast : pastPage log = [] := List.drop_eq_nil_of_le hlength
  constructor
  · intro event hevent
    rw [hpast] at hevent
    cases hevent
  · intro event hevent
    rw [hpast] at hevent
    cases hevent
  · left
    rw [hpast]
    rfl

/-! ## Sample logs -/

/-- The user's message with the number `index`. -/
def messageAt (index : ℕ) : SessionEvent where
  id := "evt_" ++ toString index
  seq := index + 2
  type := "user.message"
  source := "user"
  payload :=
    [("type", .str "user.message"),
     ("content", .str (toString index)),
     ("processed_at", .null)]
  createdAt := 0
  origin := .client

def messages (count : ℕ) : List SessionEvent :=
  (List.range count).map messageAt

theorem messages_numbered (count : ℕ) :
    NumberedFrom SessionEvent.seq 1 (messages count) := by
  unfold NumberedFrom messages
  rw [List.length_map, List.length_range, List.map_map,
    List.range'_eq_map_range]
  apply List.map_congr_left
  intro index _
  exact Nat.add_comm index 2

/-- A new session with so many messages. -/
def messagesDb (count : ℕ) : Db :=
  { sampleDb with
    session := { sampleDb.session with lastEventSeq := count + 1 }
    events := sampleDb.events ++ messages count }

theorem messagesDb_gapFree (count : ℕ) :
    GapFree SessionEvent.seq (messagesDb count).events :=
  sampleDb_created.wellFormed.gapFree.append (messages_numbered count)

def sampleLoad : LoadedTurn × Tx :=
  (loadTurn samplePython sampleRows
    (Tx.begin (messagesDb 3) (sampleContext "b"))).toOption.get (by decide)

theorem sample_turn_acts_on_latest_input :
    ActsOnLatestInput samplePython sampleLoad.1.history (messagesDb 3).events := by
  have hload : loadTurn samplePython sampleRows
      (Tx.begin (messagesDb 3) (sampleContext "b")) = .ok (sampleLoad.1, sampleLoad.2) :=
    Except.toOption_eq_some.mp (Option.some_get (by decide)).symm
  exact (turn_acts_on_latest_input_iff (messagesDb_gapFree 3) hload).mpr
    (PageSuffices.of_length_le (by decide))

/-! ## A log longer than the page -/

theorem latestEvent_messages
    (events : List SessionEvent) (count : ℕ) :
    latestEvent isUserInput (events ++ messages (count + 1)) =
      some (messageAt count) := by
  unfold messages
  rw [List.range_succ, List.map_append, ← List.append_assoc, latestEvent_append]
  rfl

/-- The first event and 499 messages fill the page. -/
def longDb : Db := messagesDb 501

theorem loadedPage_longDb :
    loadedPage longDb.events = sampleDb.events ++ messages 499 := by
  have hone : sampleDb.events.length = 1 := by decide
  change (sampleDb.events ++ messages 501).take 500 = _
  rw [List.take_append, List.take_of_length_le (by omega), hone]
  unfold messages
  rw [← List.map_take, List.take_range]
  rfl

theorem pastPage_longDb :
    pastPage longDb.events = [messageAt 499, messageAt 500] := by
  have hone : sampleDb.events.length = 1 := by decide
  have hall : longDb.events =
      loadedPage longDb.events ++ [messageAt 499, messageAt 500] := by
    rw [loadedPage_longDb]
    change sampleDb.events ++ messages 501 = _
    unfold messages
    rw [List.range_succ, List.range_succ]
    simp
  apply @List.append_cancel_left _ (loadedPage longDb.events)
  rw [loadedPage_append_pastPage]
  exact hall

/-- A turn does not act on the latest input of every log: on this one it
repeats an old message and leaves the newest one out. -/
theorem turn_misses_latest_message :
    ∃ turn tx,
      loadTurn samplePython sampleRows (Tx.begin longDb (sampleContext "b")) =
          .ok (turn, tx) ∧
        ¬ ActsOnLatestInput samplePython turn.history longDb.events := by
  obtain ⟨turn, tx, hload⟩ : ∃ turn tx,
      loadTurn samplePython sampleRows (Tx.begin longDb (sampleContext "b")) =
        .ok (turn, tx) := ⟨_, _, rfl⟩
  refine ⟨turn, tx, hload, ?_⟩
  intro hacts
  have hevents : (Tx.begin longDb (sampleContext "b")).events = longDb.events := by
    simp [Tx.events]
  have hgapFree : GapFree SessionEvent.seq longDb.events := messagesDb_gapFree 501
  have hpage : turn.history = loadedPage longDb.events := by
    rw [loadTurn_history hload, hevents, listEvents_eq_take hgapFree]
    rfl
  have htext := hacts.text
  rw [hpage, latestUserText_page_iff] at htext
  have hpast : latestEvent isUserInput (pastPage longDb.events) =
      some (messageAt 500) := by
    rw [pastPage_longDb]
    rfl
  have hsame := htext (messageAt 500) hpast
  have hlatest : latestEvent isUserInput (loadedPage longDb.events) =
      some (messageAt 498) := by
    rw [loadedPage_longDb]
    exact latestEvent_messages sampleDb.events 498
  unfold latestUserText at hsame
  rw [hlatest] at hsame
  revert hsame
  decide

end ManagedAgents
