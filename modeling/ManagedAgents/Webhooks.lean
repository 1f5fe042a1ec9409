import ManagedAgents.CommittedStates
import ManagedAgents.Cron
import ManagedAgents.Library.Segments
import ManagedAgents.SecretRoundTrips

/-!
# Webhook signatures

A signature covers the event id, the timestamp and the payload, joined by dots.
It determines them once it is known how many dots the event id has.
-/

namespace ManagedAgents

open Fallible

def WEBHOOK_ID_HEADER : String := "webhook-id"
def WEBHOOK_SIGNATURE_HEADER : String := "webhook-signature"
def WEBHOOK_TIMESTAMP_HEADER : String := "webhook-timestamp"
def WEBHOOK_SIGNATURE_VERSION : String := "v1"
def DEFAULT_WEBHOOK_TOLERANCE_SECONDS : ℤ := 5 * 60

inductive TextOrBytes
  | text (value : String)
  | bytes (value : List UInt8)
deriving DecidableEq

inductive WebhookError
  /-- `WebhookSignatureError`. -/
  | signature (message : String)
  | unicodeDecodeError
  | typeError
deriving DecidableEq

/-! ## Signing -/

def payloadText : TextOrBytes → Except WebhookError String
  | .text value => .ok value
  | .bytes value =>
      match decodeUtf8 value with
      | some text => .ok text
      | none => .error .unicodeDecodeError

/-- The padding that strict decoding takes after so many characters. -/
def paddingFits (characters padding : ℕ) : Bool :=
  match characters % 4 with
  | 0 => characters ≠ 0 || padding = 0
  | 1 => false
  | 2 => padding = 2
  | _ => padding = 1

/-- `base64.b64decode(raw, validate=True)`. -/
def b64decodeStrict (raw : List Char) : Option (List UInt8) :=
  let characters := raw.takeWhile (· ≠ '=')
  let padding := raw.dropWhile (· ≠ '=')
  if characters.all (fun c => (base64Value c).isSome) && padding.all (· = '=') &&
      paddingFits characters.length padding.length then a2bBase64 0 0 0 raw
  else none

def decodeKey : TextOrBytes → List UInt8
  | .bytes key => key
  | .text key =>
      let raw := if startswith key "whsec_" then key.toList.drop 6 else key.toList
      (b64decodeStrict raw).getD (utf8 key)

/-- What a signature is about. -/
structure WebhookMessage where
  eventId : String
  timestamp : ℤ
  text : String
deriving DecidableEq

def WebhookMessage.signedPayload (message : WebhookMessage) : String :=
  message.eventId ++ "." ++ toString message.timestamp ++ "." ++ message.text

section

variable (hmacSha256 : List UInt8 → List UInt8 → List UInt8)

def WebhookMessage.signature (message : WebhookMessage) (key : TextOrBytes) : String :=
  String.ofList (b64encode (hmacSha256 (decodeKey key) (utf8 message.signedPayload)))

/-- `_signature`. -/
def webhookSignature (payload key : TextOrBytes) (eventId : String) (timestamp : ℤ) :
    Except WebhookError String := do
  let text ← payloadText payload
  return WebhookMessage.signature hmacSha256
    { eventId := eventId, timestamp := timestamp, text := text } key

/-- The random bytes and the clock of a call. -/
structure WebhookCall where
  uuidHex : String
  clock : Time

/-- `int(given or time.time())`. -/
def WebhookCall.seconds (call : WebhookCall) (given : Option ℤ) : ℤ :=
  (given.filter (· ≠ 0)).getD (nowEpochSeconds call.clock)

/-- `given or new_id("evt")`. -/
def WebhookCall.eventId (call : WebhookCall) (given : Option String) : String :=
  (given.filter (· ≠ "")).getD ("evt_" ++ call.uuidHex)

def signWebhookPayload (call : WebhookCall) (payload key : TextOrBytes)
    (eventId : Option String) (timestamp : Option ℤ) :
    Except WebhookError (List (String × String)) := do
  let eventId := call.eventId eventId
  let timestamp := call.seconds timestamp
  let signature ← webhookSignature hmacSha256 payload key eventId timestamp
  return [(WEBHOOK_ID_HEADER, eventId),
    (WEBHOOK_TIMESTAMP_HEADER, toString timestamp),
    (WEBHOOK_SIGNATURE_HEADER, WEBHOOK_SIGNATURE_VERSION ++ "," ++ signature)]

/-! ## Verification -/

/-- `name.lower()`: besides the capital letters only the Kelvin sign becomes an ASCII
letter. -/
def lowerName (name : String) : String :=
  String.ofList (name.toList.map fun c =>
    if c = Char.ofNat 0x212A then 'k' else lowerChar c)

/-- A header under any spelling of its name; the last one counts. -/
def headerValue (headers : List (String × String)) (name : String) : Option String :=
  (headers.reverse.find? fun header => lowerName header.1 = name).map Prod.snd

def signatureCandidates (signatureHeader : String) : List String :=
  (splitWhitespace signatureHeader).filterMap fun value =>
    if startswith value (WEBHOOK_SIGNATURE_VERSION ++ ",") then
      (splitOnce ',' value).map Prod.snd
    else none

/-- The comparison of the candidates, `hmac.compare_digest`, which raises `TypeError`
for a text that is not ASCII. -/
def matchSignature (expected : String) : List String → Except WebhookError Unit
  | [] => .error (.signature "Webhook signature does not match")
  | candidate :: rest =>
      if encodeAscii candidate.toList = none then .error .typeError
      else if candidate = expected then .ok ()
      else matchSignature expected rest

def verifyWebhookSignature (py : Python) (call : WebhookCall) (payload : TextOrBytes)
    (headers : List (String × String)) (key : TextOrBytes)
    (toleranceSeconds : ℤ := DEFAULT_WEBHOOK_TOLERANCE_SECONDS)
    (now : Option ℤ := none) : Except WebhookError Unit :=
  let given name := (headerValue headers name).filter (· ≠ "")
  match given WEBHOOK_ID_HEADER, given WEBHOOK_TIMESTAMP_HEADER,
    given WEBHOOK_SIGNATURE_HEADER with
  | some eventId, some timestampRaw, some signatureHeader => do
      let timestamp ←
        match py.intOfStr timestampRaw with
        | some timestamp => .ok timestamp
        | none => .error (.signature "Invalid webhook timestamp")
      let currentTime := call.seconds now
      raiseIf (0 < toleranceSeconds ∧ toleranceSeconds < |currentTime - timestamp|)
        (.signature "Webhook timestamp is outside the tolerance window")
      let expected ← webhookSignature hmacSha256 payload key eventId timestamp
      matchSignature expected (signatureCandidates signatureHeader)
  | _, _, _ => .error (.signature "Missing required webhook signature headers")

end

/-! ## The signed text -/

theorem toString_toList (value : ℤ) : (toString value).toList = intText value := by
  change value.repr.toList = intText value
  rw [Int.repr_eq_if]
  unfold intText
  by_cases hvalue : value < 0
  · have hnat : (-value).toNat = value.natAbs := by omega
    rw [if_neg (by omega), if_pos hvalue, String.toList_append, Nat.toList_repr, hnat]
    rfl
  · have hnat : value.toNat = value.natAbs := by omega
    rw [if_pos (by omega), if_neg hvalue, Nat.toList_repr, hnat]

theorem intText_no_dot (value : ℤ) : '.' ∉ intText value := by
  intro hdot
  have hdigits := isDigit_toDigits value.natAbs
  rcases intText_cases value with ⟨htext, -⟩ | ⟨htext, -⟩
  · rw [htext] at hdot
    cases hdigits '.' hdot
  · rw [htext] at hdot
    rcases List.mem_cons.mp hdot with hminus | hdigit
    · revert hminus
      decide
    · cases hdigits '.' hdigit

theorem intText_inj {value other : ℤ} (hsame : intText value = intText other) :
    value = other := by
  rw [← intOfToken_intText value, hsame, intOfToken_intText]

theorem signedPayload_toList (message : WebhookMessage) :
    message.signedPayload.toList =
      message.eventId.toList ++ '.' ::
        (intText message.timestamp ++ '.' :: message.text.toList) := by
  rw [← toString_toList]
  simp [WebhookMessage.signedPayload]

/-- The signed text determines the message, once the dots of the event id are
counted. -/
theorem signedPayload_inj_iff
    {message other : WebhookMessage}
    (hsame : message.signedPayload = other.signedPayload) :
    message = other ↔
      message.eventId.toList.count '.' = other.eventId.toList.count '.' := by
  constructor
  · rintro rfl
    rfl
  intro hcount
  have hlist := congrArg String.toList hsame
  rw [signedPayload_toList, signedPayload_toList] at hlist
  obtain ⟨hid, hrest⟩ := Segments.append_separator_inj hlist hcount
  have hnone := fun value => List.count_eq_zero.mpr (intText_no_dot value)
  obtain ⟨htimestamp, htext⟩ := Segments.append_separator_inj hrest
    ((hnone message.timestamp).trans (hnone other.timestamp).symm)
  cases message
  cases other
  simp only [WebhookMessage.mk.injEq]
  exact ⟨String.toList_inj.mp hid, intText_inj htimestamp, String.toList_inj.mp htext⟩

theorem utf8_inj
    {text other : String} (hsame : utf8 text = utf8 other) :
    text = other := by
  have hdecode := congrArg decodeUtf8 hsame
  rw [decodeUtf8_utf8, decodeUtf8_utf8] at hdecode
  exact Option.some.inj hdecode

theorem b64encode_inj
    {data other : List UInt8} (hsame : b64encode data = b64encode other) :
    data = other := by
  have hdecode := congrArg b64decode hsame
  rw [b64decode_b64encode, b64decode_b64encode] at hdecode
  exact Option.some.inj hdecode

/-! ## Headers -/

theorem b64encode_ascii (data : List UInt8) :
    encodeAscii (b64encode data) = some (b64encode data) := by
  have hdecode := b64decode_b64encode data
  unfold b64decode at hdecode
  obtain ⟨ascii, hascii, -⟩ := Option.bind_eq_some_iff.mp hdecode
  unfold encodeAscii at hascii ⊢
  split at hascii
  next hall => rw [if_pos hall]
  next hall => cases hascii

/-- No character of a signature is a space. -/
theorem b64encode_no_space (data : List UInt8) :
    ∀ c ∈ b64encode data, isspace c = false := by
  have hchar : ∀ value, isspace (base64Char value) = false := by
    intro value
    rcases Nat.lt_or_ge value 64 with hsmall | hlarge
    · have hall : ∀ value < 64, isspace (base64Char value) = false := by decide +kernel
      exact hall value hsmall
    · have hdefault : base64Char value = 'A' := List.getD_eq_default _ _ hlarge
      rw [hdefault]
      decide
  have hpadding : isspace '=' = false := by decide
  fun_induction b64encode data with
  | case1 => simp
  | case2 first bits => simp [hchar, hpadding]
  | case3 first second bits => simp [hchar, hpadding]
  | case4 first second third rest bits ih => simpa [hchar] using ih

/-- The one candidate of a header that was signed. -/
theorem signatureCandidates_signed (data : List UInt8) :
    signatureCandidates
        (WEBHOOK_SIGNATURE_VERSION ++ "," ++ String.ofList (b64encode data)) =
      [String.ofList (b64encode data)] := by
  set header := WEBHOOK_SIGNATURE_VERSION ++ "," ++ String.ofList (b64encode data)
    with hheader
  have hlist : header.toList = 'v' :: '1' :: ',' :: b64encode data := by
    simp [hheader, WEBHOOK_SIGNATURE_VERSION]
  have hsplit : splitWhitespace header = [header] := by
    have hspace : ∀ c ∈ header.toList, isspace c = false := by
      rw [hlist]
      simp only [List.forall_mem_cons]
      exact ⟨by decide, by decide, by decide, b64encode_no_space data⟩
    have hne : header.toList ≠ [] := by simp [hlist]
    unfold splitWhitespace
    rw [List.splitOnP_eq_singleton hspace]
    simp [hne]
  have hversion : startswith header (WEBHOOK_SIGNATURE_VERSION ++ ",") = true := by
    have hprefix : (WEBHOOK_SIGNATURE_VERSION ++ ",").toList = ['v', '1', ','] := by
      decide
    unfold startswith
    rw [hlist, hprefix]
    simp
  have hrest : splitOnce ',' header =
      some (String.ofList ['v', '1'], String.ofList (b64encode data)) := by
    unfold splitOnce
    rw [hlist]
    simp
  unfold signatureCandidates
  rw [hsplit]
  simp [hversion, hrest]

section

variable {py : Python} {hmacSha256 : List UInt8 → List UInt8 → List UInt8}

theorem matchSignature_single (data : List UInt8) :
    matchSignature (String.ofList (b64encode data)) [String.ofList (b64encode data)] =
      .ok () := by
  unfold matchSignature
  rw [String.toList_ofList, b64encode_ascii]
  simp

theorem mem_of_matchSignature
    {expected : String} {candidates : List String}
    (hmatch : matchSignature expected candidates = .ok ()) : expected ∈ candidates := by
  induction candidates with
  | nil => cases hmatch
  | cons candidate rest ih =>
      unfold matchSignature at hmatch
      split at hmatch
      · cases hmatch
      split at hmatch
      next hsame => exact hsame ▸ List.mem_cons_self
      next => exact List.mem_cons_of_mem _ (ih hmatch)

/-- Signing a payload whose text can be read. -/
theorem signWebhookPayload_eq_ok
    {call : WebhookCall} {payload key : TextOrBytes} {eventId : Option String}
    {timestamp : Option ℤ} {headers : List (String × String)} :
    signWebhookPayload hmacSha256 call payload key eventId timestamp = .ok headers ↔
      ∃ text, payloadText payload = .ok text ∧
        headers =
          [(WEBHOOK_ID_HEADER, call.eventId eventId),
           (WEBHOOK_TIMESTAMP_HEADER, toString (call.seconds timestamp)),
           (WEBHOOK_SIGNATURE_HEADER, WEBHOOK_SIGNATURE_VERSION ++ "," ++
             WebhookMessage.signature hmacSha256
              { eventId := call.eventId eventId
                timestamp := call.seconds timestamp
                text := text } key)] := by
  unfold signWebhookPayload webhookSignature
  simp only [bind_eq_ok, pure_eq_ok]
  constructor
  · rintro ⟨signature, ⟨text, htext, rfl⟩, rfl⟩
    exact ⟨text, htext, rfl⟩
  · rintro ⟨text, htext, rfl⟩
    exact ⟨_, ⟨text, htext, rfl⟩, rfl⟩

theorem WebhookCall.eventId_ne_empty
    (call : WebhookCall) (given : Option String) : call.eventId given ≠ "" := by
  have hnew : "evt_" ++ call.uuidHex ≠ "" := by
    intro hempty
    have hlist := congrArg String.toList hempty
    rw [String.toList_append] at hlist
    cases hlist
  unfold WebhookCall.eventId
  cases given with
  | none => exact hnew
  | some given =>
      by_cases hgiven : given = ""
      · subst hgiven
        exact hnew
      · have hkept : (some given).filter (· ≠ "") = some given := by simp [hgiven]
        rw [hkept]
        exact hgiven

/-- The three headers of a signed message are found under their names. -/
theorem headerValue_signed (eventId timestamp signature : String) :
    let headers :=
      [(WEBHOOK_ID_HEADER, eventId), (WEBHOOK_TIMESTAMP_HEADER, timestamp),
       (WEBHOOK_SIGNATURE_HEADER, signature)]
    headerValue headers WEBHOOK_ID_HEADER = some eventId ∧
      headerValue headers WEBHOOK_TIMESTAMP_HEADER = some timestamp ∧
      headerValue headers WEBHOOK_SIGNATURE_HEADER = some signature := by
  have hid : lowerName WEBHOOK_ID_HEADER = WEBHOOK_ID_HEADER := by decide
  have htimestamp : lowerName WEBHOOK_TIMESTAMP_HEADER = WEBHOOK_TIMESTAMP_HEADER := by
    decide
  have hsignature : lowerName WEBHOOK_SIGNATURE_HEADER = WEBHOOK_SIGNATURE_HEADER := by
    decide
  have hdistinct : WEBHOOK_SIGNATURE_HEADER ≠ WEBHOOK_ID_HEADER ∧
      WEBHOOK_TIMESTAMP_HEADER ≠ WEBHOOK_ID_HEADER ∧
      WEBHOOK_SIGNATURE_HEADER ≠ WEBHOOK_TIMESTAMP_HEADER := by
    decide
  simp [headerValue, hid, htimestamp, hsignature, hdistinct]

theorem toString_ne_empty (value : ℤ) : toString value ≠ "" := by
  intro hempty
  have hlist := toString_toList value
  rw [hempty] at hlist
  have hdigits : Nat.toDigits 10 value.natAbs ≠ [] := Nat.toDigits_ne_nil
  rcases intText_cases value with ⟨htext, -⟩ | ⟨htext, -⟩
  · rw [htext] at hlist
    exact hdigits hlist.symm
  · rw [htext] at hlist
    cases hlist

/-- The headers of a signed payload are accepted within the tolerance. -/
theorem verifyWebhookSignature_signed
    (hint : ∀ value : ℤ, py.intOfStr (toString value) = some value)
    {call later : WebhookCall} {payload key : TextOrBytes} {eventId : Option String}
    {timestamp now : Option ℤ} {headers : List (String × String)} {tolerance : ℤ}
    (hsigned : signWebhookPayload hmacSha256 call payload key eventId timestamp =
      .ok headers)
    (hfresh : 0 < tolerance → |later.seconds now - call.seconds timestamp| ≤ tolerance) :
    verifyWebhookSignature hmacSha256 py later payload headers key tolerance now =
      .ok () := by
  obtain ⟨text, htext, hheaders⟩ := signWebhookPayload_eq_ok.mp hsigned
  set message : WebhookMessage :=
    { eventId := call.eventId eventId
      timestamp := call.seconds timestamp
      text := text } with hmessage
  have hkept : ∀ value : String, value ≠ "" →
      (some value).filter (· ≠ "") = some value := by
    intro value hvalue
    simp [hvalue]
  have hversion : WEBHOOK_SIGNATURE_VERSION ++ "," ++
      WebhookMessage.signature hmacSha256 message key ≠ "" := by
    intro hempty
    have hlist := congrArg String.toList hempty
    rw [String.toList_append, String.toList_append] at hlist
    cases hlist
  obtain ⟨hid, htimestamp, hsignature⟩ := headerValue_signed message.eventId
    (toString message.timestamp) (WEBHOOK_SIGNATURE_VERSION ++ "," ++
      WebhookMessage.signature hmacSha256 message key)
  rw [← hheaders] at hid htimestamp hsignature
  have hidKept := hkept message.eventId (call.eventId_ne_empty eventId)
  have htimestampKept := hkept _ (toString_ne_empty message.timestamp)
  have hsignatureKept := hkept _ hversion
  have hwithin : ¬ (0 < tolerance ∧
      tolerance < |later.seconds now - message.timestamp|) := by
    rintro ⟨hpos, hlate⟩
    exact absurd (hfresh hpos) (not_le.mpr hlate)
  have hintime : ∀ error : WebhookError,
      raiseIf (0 < tolerance ∧ tolerance < |later.seconds now - message.timestamp|)
        error = .ok () := fun _ => raiseIf_eq_ok.mpr hwithin
  have hexpected :
      webhookSignature hmacSha256 payload key message.eventId message.timestamp =
        .ok (WebhookMessage.signature hmacSha256 message key) := by
    unfold webhookSignature
    rw [htext]
    rfl
  unfold verifyWebhookSignature
  simp only [hid, htimestamp, hsignature, hidKept, htimestampKept, hsignatureKept, hint]
  change raiseIf (0 < tolerance ∧ tolerance < |later.seconds now - message.timestamp|) _
    >>= _ = Except.ok ()
  rw [hintime]
  change webhookSignature hmacSha256 payload key message.eventId message.timestamp >>=
    _ = Except.ok ()
  rw [hexpected]
  change matchSignature (WebhookMessage.signature hmacSha256 message key)
    (signatureCandidates (WEBHOOK_SIGNATURE_VERSION ++ "," ++
      WebhookMessage.signature hmacSha256 message key)) = .ok ()
  unfold WebhookMessage.signature
  rw [signatureCandidates_signed]
  exact matchSignature_single _

/-- The headers and the payload carry the message. -/
structure Presents (py : Python) (headers : List (String × String))
    (payload : TextOrBytes) (message : WebhookMessage) : Prop where
  eventId : headerValue headers WEBHOOK_ID_HEADER = some message.eventId
  timestamp : ∃ raw, headerValue headers WEBHOOK_TIMESTAMP_HEADER = some raw ∧
    py.intOfStr raw = some message.timestamp
  text : payloadText payload = .ok message.text

/-- What is accepted carries a message with one of the signatures. -/
theorem verifyWebhookSignature_spec
    {call : WebhookCall} {payload key : TextOrBytes} {now : Option ℤ}
    {headers : List (String × String)} {tolerance : ℤ}
    (hverified :
      verifyWebhookSignature hmacSha256 py call payload headers key tolerance now =
        .ok ()) :
    ∃ message header, Presents py headers payload message ∧
      headerValue headers WEBHOOK_SIGNATURE_HEADER = some header ∧
      WebhookMessage.signature hmacSha256 message key ∈ signatureCandidates header := by
  unfold verifyWebhookSignature at hverified
  dsimp only at hverified
  split at hverified
  next eventId raw header hid hraw hheader =>
    cases hparsed : py.intOfStr raw with
    | none =>
        rw [hparsed] at hverified
        cases hverified
    | some timestamp =>
        rw [hparsed] at hverified
        obtain ⟨_, hread, hverified⟩ := bind_eq_ok.mp hverified
        obtain rfl := Except.ok.inj hread
        obtain ⟨_, _, hverified⟩ := bind_eq_ok.mp hverified
        obtain ⟨expected, hexpected, hmatch⟩ := bind_eq_ok.mp hverified
        unfold webhookSignature at hexpected
        obtain ⟨text, htext, hsignature⟩ := bind_eq_ok.mp hexpected
        obtain rfl := Except.ok.inj hsignature
        refine ⟨{ eventId := eventId, timestamp := timestamp, text := text }, header,
          ⟨?_, ⟨raw, ?_, hparsed⟩, htext⟩, ?_, mem_of_matchSignature hmatch⟩
        · exact (Option.filter_eq_some_iff.mp hid).1
        · exact (Option.filter_eq_some_iff.mp hraw).1
        · exact (Option.filter_eq_some_iff.mp hheader).1
  next => cases hverified

/-! ## What a signature says -/

variable (hmacSha256) in
/-- Signing the message with the key gives this signature. -/
def SignedAs (message : WebhookMessage) (key : TextOrBytes) (signature : String) : Prop :=
  ∃ call payload eventId timestamp,
    payloadText payload = .ok message.text ∧
    signWebhookPayload hmacSha256 call payload key eventId timestamp =
      .ok
        [(WEBHOOK_ID_HEADER, message.eventId),
         (WEBHOOK_TIMESTAMP_HEADER, toString message.timestamp),
         (WEBHOOK_SIGNATURE_HEADER, WEBHOOK_SIGNATURE_VERSION ++ "," ++ signature)]

theorem SignedAs.eq
    {message : WebhookMessage} {key : TextOrBytes} {signature : String}
    (hsigned : SignedAs hmacSha256 message key signature) :
    signature = message.signature hmacSha256 key := by
  obtain ⟨call, payload, eventId, timestamp, hpayload, hsign⟩ := hsigned
  obtain ⟨text, htext, hheaders⟩ := signWebhookPayload_eq_ok.mp hsign
  rw [hpayload] at htext
  obtain rfl := Except.ok.inj htext
  simp only [List.cons.injEq, Prod.mk.injEq, true_and, and_true] at hheaders
  obtain ⟨hid, htimestamp, hsignature⟩ := hheaders
  have hseconds : message.timestamp = call.seconds timestamp := by
    apply intText_inj
    rw [← toString_toList, ← toString_toList, htimestamp]
  rw [← hid, ← hseconds] at hsignature
  have hlist := congrArg String.toList hsignature
  simp only [String.toList_append] at hlist
  exact String.toList_inj.mp (List.append_cancel_left hlist)

/-- What is signed verifies.  What verifies with a signature is what was signed if the
event ids have equally many dots, and only then. -/
theorem webhook_signature_iff
    (hint : ∀ value : ℤ, py.intOfStr (toString value) = some value)
    (hhmac : ∀ key, Function.Injective (hmacSha256 key)) :
    (∀ call payload key eventId timestamp headers,
      signWebhookPayload hmacSha256 call payload key eventId timestamp = .ok headers →
      ∀ later tolerance now,
        (0 < tolerance → |later.seconds now - call.seconds timestamp| ≤ tolerance) →
        verifyWebhookSignature hmacSha256 py later payload headers key tolerance now =
          .ok ()) ∧
    ∀ call payload headers key tolerance now,
      verifyWebhookSignature hmacSha256 py call payload headers key tolerance now =
        .ok () →
      ∃ presented header signature, Presents py headers payload presented ∧
        headerValue headers WEBHOOK_SIGNATURE_HEADER = some header ∧
        signature ∈ signatureCandidates header ∧
        signature = presented.signature hmacSha256 key ∧
        ∀ message, SignedAs hmacSha256 message key signature →
          (presented = message ↔
            presented.eventId.toList.count '.' = message.eventId.toList.count '.') := by
  constructor
  · intro call payload key eventId timestamp headers hsigned later tolerance now hfresh
    exact verifyWebhookSignature_signed hint hsigned hfresh
  · intro call payload headers key tolerance now hverified
    obtain ⟨presented, header, hpresents, hheader, hcandidate⟩ :=
      verifyWebhookSignature_spec hverified
    refine ⟨presented, header, _, hpresents, hheader, hcandidate, rfl, ?_⟩
    intro message hsigned
    have hsame := hsigned.eq
    unfold WebhookMessage.signature at hsame
    have hbytes := b64encode_inj (String.ofList_inj.mp hsame)
    exact signedPayload_inj_iff (utf8_inj (hhmac _ hbytes))

end

/-- An interpreter that reads the timestamps which it writes. -/
def sampleReader : Python :=
  { samplePython with intOfStr := fun text => some (intOfToken text.toList) }

theorem sampleReader_int (value : ℤ) :
    sampleReader.intOfStr (toString value) = some value := by
  change some (intOfToken (toString value).toList) = some value
  rw [toString_toList, intOfToken_intText]

theorem sample_webhook_signature_iff :
    ∃ headers,
      signWebhookPayload (fun _ message => message) { uuidHex := "ab", clock := 0 }
          (.text "x") (.text "whsec_QQ==") none (some 7) = .ok headers ∧
        verifyWebhookSignature (fun _ message => message) sampleReader
          { uuidHex := "cd", clock := 9000000 } (.text "x") headers
          (.text "whsec_QQ==") = .ok () := by
  obtain ⟨hverifies, -⟩ := @webhook_signature_iff sampleReader (fun _ message => message)
    sampleReader_int fun _ _ _ hsame => hsame
  exact ⟨_, rfl, hverifies _ _ _ _ _ _ rfl _ _ _ fun _ => by decide⟩

/-- A dot in the event id moves into the timestamp. -/
theorem dots_move_between_fields :
    ∃ signature,
      SignedAs (fun _ message => message)
          { eventId := "evt", timestamp := 1, text := "5.x" } (.bytes []) signature ∧
        verifyWebhookSignature (fun _ message => message) sampleReader
          { uuidHex := "ab", clock := 0 } (.text "x")
          [(WEBHOOK_ID_HEADER, "evt.1"), (WEBHOOK_TIMESTAMP_HEADER, "5"),
           (WEBHOOK_SIGNATURE_HEADER, WEBHOOK_SIGNATURE_VERSION ++ "," ++ signature)]
          (.bytes []) = .ok () := by
  refine ⟨_, ⟨{ uuidHex := "ab", clock := 0 }, .text "5.x", some "evt", some 1, rfl,
    rfl⟩, ?_⟩
  exact @verifyWebhookSignature_signed sampleReader (fun _ message => message)
    sampleReader_int { uuidHex := "ab", clock := 0 } { uuidHex := "ab", clock := 0 }
    (.text "x") (.bytes []) (some "evt.1") (some 5) none _ _ rfl (fun _ => by decide)

end ManagedAgents
