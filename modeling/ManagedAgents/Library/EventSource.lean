import Mathlib.Data.List.Basic
import Mathlib.Tactic

/-!
# Server-sent events

How a client reads an event stream: the text is split into lines, the field
of a line stands before its first colon, and a blank line dispatches the
message collected so far.  A frame of three fields is read back as one message
exactly when its values hold no line ends and the name is not empty.
-/

namespace EventSource

structure Message where
  id : List Char
  event : List Char
  data : List Char
deriving DecidableEq

/-- The fields of the message under way; the id outlives it. -/
structure Buffers where
  id : List Char := []
  event : List Char := []
  data : List Char := []

/-- A line ends with LF, CR LF or CR; what follows the last end is no line. -/
def lines : List Char → List Char → List (List Char)
  | _, [] => []
  | line, '\r' :: '\n' :: rest => line :: lines [] rest
  | line, '\r' :: rest => line :: lines [] rest
  | line, '\n' :: rest => line :: lines [] rest
  | line, c :: rest => lines (line ++ [c]) rest

def fieldName (line : List Char) : List Char :=
  line.takeWhile fun c => c ≠ ':'

/-- What follows the first colon and one space after it. -/
def fieldValue (line : List Char) : List Char :=
  match line.dropWhile fun c => c ≠ ':' with
  | ':' :: ' ' :: value => value
  | ':' :: value => value
  | _ => []

def Buffers.add (buffers : Buffers) (line : List Char) : Buffers :=
  let value := fieldValue line
  if fieldName line = "event".toList then { buffers with event := value }
  else if fieldName line = "data".toList then
    { buffers with data := buffers.data ++ value ++ ['\n'] }
  else if fieldName line = "id".toList ∧ Char.ofNat 0 ∉ value then
    { buffers with id := value }
  else buffers

def Buffers.message (buffers : Buffers) : Message where
  id := buffers.id
  event := if buffers.event = [] then "message".toList else buffers.event
  data := buffers.data.dropLast

def readLines : Buffers → List (List Char) → List Message
  | _, [] => []
  | buffers, [] :: rest =>
      if buffers.data = [] then readLines { id := buffers.id } rest
      else buffers.message :: readLines { id := buffers.id } rest
  | buffers, line :: rest => readLines (buffers.add line) rest

/-- The messages of a stream; a byte order mark at its start is skipped. -/
def read (text : String) : List Message :=
  match text.toList with
  | c :: rest =>
      if c = Char.ofNat 0xfeff then readLines {} (lines [] rest)
      else readLines {} (lines [] (c :: rest))
  | [] => []

/-! ## Lines -/

def NoLineEnd (text : List Char) : Prop := '\n' ∉ text ∧ '\r' ∉ text

instance (text : List Char) : Decidable (NoLineEnd text) :=
  inferInstanceAs (Decidable (_ ∧ _))

theorem NoLineEnd.append
    {front back : List Char} (hfront : NoLineEnd front) (hback : NoLineEnd back) :
    NoLineEnd (front ++ back) := by
  unfold NoLineEnd at *
  simp only [List.mem_append, not_or]
  exact ⟨⟨hfront.1, hback.1⟩, hfront.2, hback.2⟩

theorem lines_cons_of_ne
    {line rest : List Char} {c : Char} (hnewline : c ≠ '\n') (hreturn : c ≠ '\r') :
    lines line (c :: rest) = lines (line ++ [c]) rest := by
  rw [lines]
  · intro _ hc
    exact absurd hc hreturn
  · intro hc
    exact absurd hc hreturn
  · intro hc
    exact absurd hc hnewline

/-- A text without line ends is read as one line. -/
theorem lines_newline
    {line text rest : List Char} (htext : NoLineEnd text) :
    lines line (text ++ '\n' :: rest) = (line ++ text) :: lines [] rest := by
  induction text generalizing line with
  | nil =>
      rw [List.nil_append, lines, List.append_nil]
  | cons c text ih =>
      obtain ⟨hnewline, hreturn⟩ := htext
      simp only [List.mem_cons, not_or] at hnewline hreturn
      rw [List.cons_append, lines_cons_of_ne (Ne.symm hnewline.1) (Ne.symm hreturn.1),
        ih ⟨hnewline.2, hreturn.2⟩, List.append_assoc]
      rfl

theorem lines_noLineEnd
    {line text : List Char} (hline : NoLineEnd line) :
    ∀ other ∈ lines line text, NoLineEnd other := by
  have hnil : NoLineEnd [] := ⟨by simp, by simp⟩
  fun_induction lines line text with
  | case1 line => simp
  | case2 line rest ih =>
      intro other hother
      rcases List.mem_cons.mp hother with rfl | hother
      · exact hline
      · exact ih hnil other hother
  | case3 line rest _ ih =>
      intro other hother
      rcases List.mem_cons.mp hother with rfl | hother
      · exact hline
      · exact ih hnil other hother
  | case4 line rest ih =>
      intro other hother
      rcases List.mem_cons.mp hother with rfl | hother
      · exact hline
      · exact ih hnil other hother
  | case5 line c rest _ hreturn hnewline ih =>
      apply ih
      apply hline.append
      constructor
      · simpa using fun hc => hnewline hc.symm
      · simpa using fun hc => hreturn hc.symm

/-! ## Fields -/

/-- The line of a field. -/
def field (name : String) (value : List Char) : List Char :=
  name.toList ++ ':' :: ' ' :: value

section

variable {name : String} {value : List Char}

theorem fieldName_field (hname : ':' ∉ name.toList) :
    fieldName (field name value) = name.toList := by
  have hall : ∀ c ∈ name.toList, decide (c ≠ ':') = true := by
    intro c hc
    rw [decide_eq_true_eq]
    rintro rfl
    exact hname hc
  unfold fieldName field
  rw [List.takeWhile_append_of_pos hall]
  simp

theorem fieldValue_field (hname : ':' ∉ name.toList) :
    fieldValue (field name value) = value := by
  have hall : ∀ c ∈ name.toList, decide (c ≠ ':') = true := by
    intro c hc
    rw [decide_eq_true_eq]
    rintro rfl
    exact hname hc
  unfold fieldValue field
  rw [List.dropWhile_append_of_pos hall]
  simp

theorem field_noLineEnd (hname : NoLineEnd name.toList) (hvalue : NoLineEnd value) :
    NoLineEnd (field name value) := by
  apply hname.append
  unfold NoLineEnd at *
  simp [hvalue]

theorem field_ne_nil : field name value ≠ [] := by
  simp [field]

end

/-- The fields of a line hold no line ends. -/
theorem fieldValue_noLineEnd {line : List Char} (hline : NoLineEnd line) :
    NoLineEnd (fieldValue line) := by
  have hsubset : fieldValue line ⊆ line := by
    have hdrop : (line.dropWhile fun c => c ≠ ':') ⊆ line :=
      (List.dropWhile_suffix _).subset
    unfold fieldValue
    split
    next value hvalue =>
      rw [hvalue] at hdrop
      intro c hc
      exact hdrop (List.mem_cons_of_mem _ (List.mem_cons_of_mem _ hc))
    next value _ hvalue =>
      rw [hvalue] at hdrop
      intro c hc
      exact hdrop (List.mem_cons_of_mem _ hc)
    next => exact List.nil_subset _
  exact ⟨fun hc => hline.1 (hsubset hc), fun hc => hline.2 (hsubset hc)⟩

/-! ## Frames -/

/-- The text of a message as a server writes it: three fields and a blank
line. -/
def Message.frame (message : Message) : List Char :=
  field "id" message.id ++ '\n' ::
    (field "event" message.event ++ '\n' :: (field "data" message.data ++ ['\n', '\n']))

/-- The id and the data fit into one line each. -/
def Message.Inline (message : Message) : Prop :=
  NoLineEnd message.id ∧ Char.ofNat 0 ∉ message.id ∧ NoLineEnd message.data

/-- The name can stand in an event field. -/
def Nameable (event : List Char) : Prop := event ≠ [] ∧ NoLineEnd event

instance (event : List Char) : Decidable (Nameable event) :=
  inferInstanceAs (Decidable (_ ∧ _))

theorem readLines_field
    {buffers : Buffers} {line : List Char} {rest : List (List Char)}
    (hline : line ≠ []) :
    readLines buffers (line :: rest) = readLines (buffers.add line) rest := by
  cases line with
  | nil => exact absurd rfl hline
  | cons c line => rfl

theorem lines_frame
    {message : Message} (rest : List Char) (hinline : message.Inline)
    (hevent : NoLineEnd message.event) :
    lines [] (message.frame ++ rest) =
      field "id" message.id :: field "event" message.event ::
        field "data" message.data :: [] :: lines [] rest := by
  obtain ⟨hid, -, hdata⟩ := hinline
  have hidLine : NoLineEnd (field "id" message.id) :=
    field_noLineEnd (by decide) hid
  have heventLine : NoLineEnd (field "event" message.event) :=
    field_noLineEnd (by decide) hevent
  have hdataLine : NoLineEnd (field "data" message.data) :=
    field_noLineEnd (by decide) hdata
  have hblank : lines [] ('\n' :: rest) = [] :: lines [] rest := by
    rw [lines]
  unfold Message.frame
  simp only [List.append_assoc, List.cons_append, List.nil_append]
  rw [lines_newline hidLine, lines_newline heventLine, lines_newline hdataLine, hblank]
  simp

theorem readLines_frame
    {message : Message} {last : List Char} {rest : List (List Char)}
    (hid : Char.ofNat 0 ∉ message.id) (hevent : message.event ≠ []) :
    readLines { id := last }
        (field "id" message.id :: field "event" message.event ::
          field "data" message.data :: [] :: rest) =
      message :: readLines { id := message.id } rest := by
  have hidAdd : ({ id := last } : Buffers).add (field "id" message.id) =
      { id := message.id } := by
    unfold Buffers.add
    rw [fieldName_field (by decide), fieldValue_field (by decide)]
    simp [hid]
  have heventAdd : ({ id := message.id } : Buffers).add (field "event" message.event) =
      { id := message.id, event := message.event } := by
    unfold Buffers.add
    rw [fieldName_field (by decide), fieldValue_field (by decide)]
    simp
  have hdataAdd : ({ id := message.id, event := message.event } : Buffers).add
      (field "data" message.data) =
      { id := message.id, event := message.event, data := message.data ++ ['\n'] } := by
    unfold Buffers.add
    rw [fieldName_field (by decide), fieldValue_field (by decide)]
    simp
  rw [readLines_field field_ne_nil, hidAdd, readLines_field field_ne_nil, heventAdd,
    readLines_field field_ne_nil, hdataAdd, readLines]
  simp [Buffers.message, hevent]

/-- The frames of nameable messages are read back as these messages. -/
theorem readLines_frames
    {messages : List Message} {last : List Char}
    (hinline : ∀ message ∈ messages, message.Inline)
    (hnames : ∀ message ∈ messages, Nameable message.event) :
    readLines { id := last } (lines [] (messages.flatMap Message.frame)) =
      messages := by
  induction messages generalizing last with
  | nil => rfl
  | cons message rest ih =>
      have hfirst := hinline message List.mem_cons_self
      have hname := hnames message List.mem_cons_self
      rw [List.flatMap_cons, lines_frame _ hfirst hname.2,
        readLines_frame hfirst.2.1 hname.1]
      rw [ih (fun other hother => hinline other (List.mem_cons_of_mem _ hother))
        (fun other hother => hnames other (List.mem_cons_of_mem _ hother))]

/-- No reader ever sees a name with a line end, nor an empty one. -/
theorem readLines_nameable
    {buffers : Buffers} {text : List (List Char)}
    (hbuffers : NoLineEnd buffers.event) (htext : ∀ line ∈ text, NoLineEnd line) :
    ∀ message ∈ readLines buffers text, Nameable message.event := by
  have hnil : NoLineEnd [] := by decide
  induction text generalizing buffers with
  | nil =>
      intro message hmessage
      cases hmessage
  | cons line rest ih =>
      have hrest : ∀ other ∈ rest, NoLineEnd other :=
        fun other hother => htext other (List.mem_cons_of_mem _ hother)
      cases line with
      | nil =>
          intro message hmessage
          rw [readLines] at hmessage
          split at hmessage
          · exact ih hnil hrest message hmessage
          · rcases List.mem_cons.mp hmessage with rfl | hmessage
            · unfold Buffers.message Nameable
              by_cases hempty : buffers.event = []
              · simp only [hempty, if_true]
                decide
              · simp only [hempty, if_false]
                exact ⟨hempty, hbuffers⟩
            · exact ih hnil hrest message hmessage
      | cons c line =>
          rw [readLines_field (List.cons_ne_nil c line)]
          apply ih _ hrest
          have hvalue := fieldValue_noLineEnd (htext _ List.mem_cons_self)
          unfold Buffers.add
          simp only
          split
          · exact hvalue
          · split
            · exact hbuffers
            · split
              · exact hbuffers
              · exact hbuffers

theorem read_nameable (text : String) :
    ∀ message ∈ read text, Nameable message.event := by
  have hlines : ∀ chars, ∀ message ∈ readLines {} (lines [] chars),
      Nameable message.event :=
    fun chars => readLines_nameable (by decide) (lines_noLineEnd (by decide))
  unfold read
  split
  · split
    · exact hlines _
    · exact hlines _
  · simp

theorem read_ofList
    {text : List Char} (hmark : text.head? ≠ some (Char.ofNat 0xfeff)) :
    read (String.ofList text) = readLines {} (lines [] text) := by
  unfold read
  rw [String.toList_ofList]
  cases text with
  | nil => rfl
  | cons c rest =>
      have hc : c ≠ Char.ofNat 0xfeff := by simpa using hmark
      simp [hc]

theorem flatMap_frame_head
    (messages : List Message) :
    (messages.flatMap Message.frame).head? ≠ some (Char.ofNat 0xfeff) := by
  cases messages with
  | nil => simp
  | cons message rest =>
      have hhead : (List.flatMap Message.frame (message :: rest)).head? = some 'i' := rfl
      rw [hhead]
      decide

/-- Frames are read back as the messages they were written for exactly when
all names are nameable. -/
theorem read_frames_iff
    {messages : List Message} (hinline : ∀ message ∈ messages, message.Inline) :
    read (String.ofList (messages.flatMap Message.frame)) = messages ↔
      ∀ message ∈ messages, Nameable message.event := by
  constructor
  · intro hread message hmessage
    rw [← hread] at hmessage
    exact read_nameable _ message hmessage
  · intro hnames
    rw [read_ofList (flatMap_frame_head messages)]
    exact readLines_frames hinline hnames

end EventSource
