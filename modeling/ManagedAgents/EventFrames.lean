import ManagedAgents.CommittedStates
import ManagedAgents.JsonText
import ManagedAgents.Library.EventSource

/-!
# Frames of the event stream

Each event is sent as one frame of server-sent events.  Its data is the JSON
text of the response, where everything but printable ASCII is escaped; its
name is the type of the event as the client or the runtime chose it, written
without escapes.
-/

namespace ManagedAgents

open EventSource

/-! ## Frames -/

/-- The declared fields of `SessionEventResponse`. -/
def EVENT_RESPONSE_FIELDS : List String :=
  ["id", "type", "session_id", "seq", "created_at", "processed_at"]

/-- `event_to_response(event).model_dump(mode="json")`.  The model renders its
timestamps itself; `append_event` leaves `None` or a timestamp under
`processed_at`. -/
def eventToResponse (py : Python) (timestamp : String → String)
    (sessionId : String) (event : SessionEvent) : Dict :=
  [("id", .str event.id),
   ("type", .str event.type),
   ("session_id", .str sessionId),
   ("seq", .int event.seq),
   ("created_at", .str (timestamp (py.isoformat event.createdAt))),
   ("processed_at",
     match Dict.get event.payload "processed_at" with
     | .str processedAt => .str (timestamp processedAt)
     | _ => .null)] ++
  event.payload.filter fun field => field.1 ∉ EVENT_RESPONSE_FIELDS

def eventToSse (py : Python) (timestamp : String → String) (sessionId : String)
    (event : SessionEvent) : String :=
  "id: " ++ toString event.seq ++ "\n" ++
    "event: " ++ event.type ++ "\n" ++
    "data: " ++ dumpsCompact py (.dict (eventToResponse py timestamp sessionId event)) ++
    "\n\n"

/-- The message carries the event: its number, its type, and its response on
one line of JSON. -/
structure Delivers (py : Python) (timestamp : String → String)
    (sessionId : String) (event : SessionEvent) (message : Message) : Prop where
  id : message.id = (toString event.seq).toList
  name : message.event = event.type.toList
  singleLine : NoLineEnd message.data
  data : readJson py (String.ofList message.data) =
    some (.dict (eventToResponse py timestamp sessionId event))

/-! ## Responses as JSON -/

theorem Json.fieldsPrint_iff {py : Python} {fields : List (String × Json)} :
    Json.FieldsPrint py fields ↔ ∀ field ∈ fields, field.2.Prints py := by
  induction fields with
  | nil => simp [Json.FieldsPrint]
  | cons field fields ih =>
      obtain ⟨key, value⟩ := field
      simp [Json.FieldsPrint, ih]

section

variable {py : Python} {timestamp : String → String} {sessionId : String}
  {event : SessionEvent}

theorem eventToResponse_prints (hprints : (Json.dict event.payload).Prints py) :
    (Json.dict (eventToResponse py timestamp sessionId event)).Prints py := by
  have hpayload : ∀ field ∈ event.payload, field.2.Prints py :=
    Json.fieldsPrint_iff.mp hprints
  apply Json.fieldsPrint_iff.mpr
  intro field hfield
  rcases List.mem_append.mp hfield with hdeclared | hextra
  · simp only [List.mem_cons, List.not_mem_nil, or_false] at hdeclared
    rcases hdeclared with rfl | rfl | rfl | rfl | rfl | rfl
    · trivial
    · trivial
    · trivial
    · trivial
    · trivial
    · simp only
      split
      · trivial
      · trivial
  · exact hpayload field (List.mem_filter.mp hextra).1

/-- The message which the frame of an event is written for. -/
def eventMessage (py : Python) (timestamp : String → String) (sessionId : String)
    (event : SessionEvent) : Message where
  id := (toString event.seq).toList
  event := event.type.toList
  data := (Json.dict (eventToResponse py timestamp sessionId event)).text py

theorem eventToSse_toList :
    (eventToSse py timestamp sessionId event).toList =
      (eventMessage py timestamp sessionId event).frame := by
  have hid : "id: ".toList = "id".toList ++ [':', ' '] := rfl
  have hevent : "event: ".toList = "event".toList ++ [':', ' '] := rfl
  have hdata : "data: ".toList = "data".toList ++ [':', ' '] := rfl
  have hnewline : "\n".toList = ['\n'] := rfl
  have hblank : "\n\n".toList = ['\n', '\n'] := rfl
  unfold eventToSse Message.frame field eventMessage dumpsCompact
  simp only [String.toList_append, String.toList_ofList, hid, hevent, hdata, hnewline,
    hblank, List.append_assoc, List.cons_append, List.nil_append]

theorem toString_digits (n : ℕ) : ∀ c ∈ (toString n).toList, c.isDigit = true := by
  have htext : (toString n).toList = Nat.toDigits 10 n := Nat.toList_repr
  rw [htext]
  exact isDigit_toDigits n

theorem AllPrintable.noLineEnd {text : List Char} (htext : AllPrintable text) :
    NoLineEnd text := by
  constructor
  · intro hc
    exact absurd (htext _ hc) (by decide)
  · intro hc
    exact absurd (htext _ hc) (by decide)

theorem eventMessage_inline (hprints : (Json.dict event.payload).Prints py) :
    (eventMessage py timestamp sessionId event).Inline := by
  have hdigits := toString_digits event.seq
  have hid : ∀ c : Char, c.isDigit = false → c ∉ (toString event.seq).toList := by
    intro c hc hmem
    rw [hdigits c hmem] at hc
    cases hc
  refine ⟨⟨hid _ rfl, hid _ rfl⟩, hid _ rfl, ?_⟩
  have hresponse : (Json.dict (eventToResponse py timestamp sessionId event)).Prints py :=
    eventToResponse_prints hprints
  exact (Json.text_printable py _ hresponse).noLineEnd

theorem eventMessage_delivers (hprints : (Json.dict event.payload).Prints py) :
    Delivers py timestamp sessionId event
      (eventMessage py timestamp sessionId event) where
  id := rfl
  name := rfl
  singleLine := (eventMessage_inline hprints).2.2
  data := readJson_dumpsCompact (eventToResponse_prints hprints)

end

/-! ## Streams of frames -/

section

variable {py : Python} {timestamp : String → String} {sessionId : String}
  {events : List SessionEvent}

theorem join_eventToSse :
    String.join (events.map (eventToSse py timestamp sessionId)) =
      String.ofList ((events.map (eventMessage py timestamp sessionId)).flatMap
        Message.frame) := by
  apply String.toList_inj.mp
  rw [String.toList_join, String.toList_ofList, List.flatMap_map, List.flatMap_map]
  apply List.flatMap_congr
  intro event _
  exact eventToSse_toList

/-- What is delivered under the name of its type has a type without line ends. -/
theorem nameable_of_delivers
    {text : String}
    (hdelivers : List.Forall₂ (Delivers py timestamp sessionId) events (read text)) :
    ∀ event ∈ events, Nameable event.type.toList := by
  have hnames := read_nameable text
  generalize read text = messages at hdelivers hnames
  induction hdelivers with
  | nil => simp
  | cons hhead _ ih =>
      have hfirst := hnames _ List.mem_cons_self
      rw [hhead.name] at hfirst
      have hrest := ih fun message hmessage =>
        hnames message (List.mem_cons_of_mem _ hmessage)
      intro event hevent
      rcases List.mem_cons.mp hevent with rfl | hevent
      · exact hfirst
      · exact hrest event hevent

/-- The frames of any events are read back as these events, one message for
each, exactly when no type is empty or holds a line end. -/
theorem event_frames_read_back_iff
    (hprints : ∀ event ∈ events, (Json.dict event.payload).Prints py) :
    List.Forall₂ (Delivers py timestamp sessionId) events
        (read (String.join (events.map (eventToSse py timestamp sessionId)))) ↔
      ∀ event ∈ events, Nameable event.type.toList := by
  constructor
  · exact nameable_of_delivers
  · intro hnames
    have hinline : ∀ message ∈ events.map (eventMessage py timestamp sessionId),
        message.Inline := by
      intro message hmessage
      obtain ⟨event, hevent, rfl⟩ := List.mem_map.mp hmessage
      exact eventMessage_inline (hprints event hevent)
    have hnameable : ∀ message ∈ events.map (eventMessage py timestamp sessionId),
        Nameable message.event := by
      intro message hmessage
      obtain ⟨event, hevent, rfl⟩ := List.mem_map.mp hmessage
      exact hnames event hevent
    rw [join_eventToSse, (read_frames_iff hinline).mpr hnameable,
      List.forall₂_map_right_iff, List.forall₂_same]
    intro event hevent
    exact eventMessage_delivers (hprints event hevent)

end

/-! ## Sample frames -/

/-- An interpreter that prints and parses the float `1.5`. -/
def floatPython : Python :=
  { samplePython with
    repr := fun _ => "1.5"
    floatOfStr := fun _ => some (.finite (3 / 2)) }

def sampleFloatEvent : SessionEvent :=
  (Tx.begin sampleDb (sampleContext "b")).newEvent floatPython .client "user.message"
    [("type", .str "user.message"),
     ("content", .list [.str "héllo\n", .float (.finite (3 / 2)), .int (-7)])]

theorem sampleFloatEvent_prints :
    (Json.dict sampleFloatEvent.payload).Prints floatPython := by
  have hfloat : FloatPrints floatPython (.finite (3 / 2)) := ⟨by decide, by decide, rfl⟩
  exact ⟨trivial, ⟨trivial, hfloat, trivial, trivial⟩, trivial, trivial⟩

theorem sample_frames_read_back :
    List.Forall₂ (Delivers floatPython (fun text => text) "sess_1")
      [sampleFloatEvent, sampleFloatEvent]
      (read (String.join ([sampleFloatEvent, sampleFloatEvent].map
        (eventToSse floatPython (fun text => text) "sess_1")))) := by
  refine (event_frames_read_back_iff ?_).mpr (by decide)
  intro event hevent
  obtain rfl : event = sampleFloatEvent := by simpa using hevent
  exact sampleFloatEvent_prints

/-- A type which a client may choose and which ends the line of the name. -/
def sampleSplitType : SessionEventInput where
  type := "user.message\ndata: {}"

theorem split_type_injects_message :
    ∃ db, sampleCommit
        (.request (.sendEvents (some sampleEnvironment) [sampleSplitType]))
        sampleDb sampleDb "b" = some db ∧
      ∃ event ∈ db.events,
        ¬ List.Forall₂ (Delivers samplePython (fun text => text) "sess_1") [event]
          (read (eventToSse samplePython (fun text => text) "sess_1" event)) := by
  have hfacts : (sampleCommit
      (.request (.sendEvents (some sampleEnvironment) [sampleSplitType]))
      sampleDb sampleDb "b").map
        (fun db => decide (∃ event ∈ db.events, ¬ Nameable event.type.toList)) =
      some true := by
    decide
  obtain ⟨db, hcommit, hdb⟩ := Option.map_eq_some_iff.mp hfacts
  obtain ⟨event, hevent, hname⟩ := of_decide_eq_true hdb
  refine ⟨db, hcommit, event, hevent, ?_⟩
  intro hdelivers
  exact hname (nameable_of_delivers hdelivers event List.mem_cons_self)

end ManagedAgents
