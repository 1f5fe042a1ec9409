import ManagedAgents.PageCursors
import ManagedAgents.PurgedSecrets

/-!
# Encryption and decryption

Decryption gives back what was encrypted, except for a text which looked like a
ciphertext before and which encryption therefore leaves alone.
-/

namespace ManagedAgents

open Fallible

/-! ## Decryption -/

/-- The cipher with its other direction, which refuses a forged ciphertext. -/
structure SecretCodec extends SecretCipher where
  aesgcmDecrypt : (key nonce ciphertext : List UInt8) → Option (List UInt8)

def NONCE_BYTES : ℕ := 12

/-- `base64.b64decode(text)`. -/
def b64decode (text : List Char) : Option (List UInt8) := do
  let ascii ← encodeAscii text
  a2bBase64 0 0 0 ascii

/-- The text of a ciphertext without its prefix; there is none where Python raises. -/
def openSecret (codec : SecretCodec) (key : List UInt8) (body : List Char) :
    Option String := do
  let raw ← b64decode body
  let plaintext ← codec.aesgcmDecrypt key (raw.take NONCE_BYTES) (raw.drop NONCE_BYTES)
  decodeUtf8 plaintext

def decryptSecret (codec : SecretCodec) (value : String) : Encrypting String :=
    fun draw =>
  if startswith value ENCRYPTED_PREFIX then
    match codec.encryptionKey with
    | .error _ | .ok none => .error internalServerError
    | .ok (some key) =>
        match openSecret codec key (value.toList.drop ENCRYPTED_PREFIX.length) with
        | none => .error internalServerError
        | some text => .ok (text, draw)
  else .ok (value, draw)

/-- `encrypt_secret_values`. -/
def SecretCodec.encryptValues (codec : SecretCodec) (value : Json) : Encrypting Json :=
  walk (encryptSecret codec.toSecretCipher) value

/-- `decrypt_secret_values`. -/
def SecretCodec.decryptValues (codec : SecretCodec) (value : Json) : Encrypting Json :=
  walk (decryptSecret codec) value

/-- Fresh nonces have 12 bytes, AES-256-GCM decrypts what it encrypts, and a plaintext
is never longer than its ciphertext. -/
structure SecretCodec.Sound (codec : SecretCodec) : Prop where
  nonce_length : ∀ draw, (codec.nonce draw).length = NONCE_BYTES
  decrypt_encrypt : ∀ key nonce plaintext,
    codec.aesgcmDecrypt key nonce (codec.aesgcmEncrypt key nonce plaintext) =
      some plaintext
  decrypt_length : ∀ key nonce ciphertext plaintext,
    codec.aesgcmDecrypt key nonce ciphertext = some plaintext →
      plaintext.length ≤ ciphertext.length

/-! ## Base64 with padding -/

theorem base64Char_read
    {value : ℕ} (hvalue : value < 64) :
    base64Char value ≠ '=' ∧ base64Value (base64Char value) = some value := by
  have hall : ∀ value < 64,
      base64Char value ≠ '=' ∧ base64Value (base64Char value) = some value := by
    decide +kernel
  exact hall value hvalue

theorem base64Char_ascii (value : ℕ) : (base64Char value).toNat < 128 := by
  rcases Nat.lt_or_ge value 64 with hsmall | hlarge
  · have hall : ∀ value < 64, (base64Char value).toNat < 128 := by decide +kernel
    exact hall value hsmall
  · have hdefault : base64Char value = 'A' := by
      unfold base64Char
      exact List.getD_eq_default _ _ hlarge
    rw [hdefault]
    decide

section

variable {pads leftchar value : ℕ} {rest : List Char}

theorem a2bBase64_one
    (hvalue : value < 64) :
    a2bBase64 0 pads leftchar (base64Char value :: rest) = a2bBase64 1 0 value rest := by
  simp [a2bBase64, base64Char_read hvalue]

theorem a2bBase64_two
    (hvalue : value < 64) :
    a2bBase64 1 pads leftchar (base64Char value :: rest) =
      (a2bBase64 2 0 (value % 16) rest).map
        (UInt8.ofNat (leftchar * 4 + value / 16) :: ·) := by
  simp [a2bBase64, base64Char_read hvalue]

theorem a2bBase64_three
    (hvalue : value < 64) :
    a2bBase64 2 pads leftchar (base64Char value :: rest) =
      (a2bBase64 3 0 (value % 4) rest).map
        (UInt8.ofNat (leftchar * 16 + value / 4) :: ·) := by
  simp [a2bBase64, base64Char_read hvalue]

theorem a2bBase64_four
    (hvalue : value < 64) :
    a2bBase64 3 pads leftchar (base64Char value :: rest) =
      (a2bBase64 0 0 0 rest).map (UInt8.ofNat (leftchar * 64 + value) :: ·) := by
  simp [a2bBase64, base64Char_read hvalue]

end

theorem a2bBase64_b64encode
    (data : List UInt8) (pads leftchar : ℕ) :
    a2bBase64 0 pads leftchar (b64encode data) = some data := by
  fun_induction b64encode data generalizing pads leftchar with
  | case1 => rfl
  | case2 first bits =>
      have hbyte := first.toNat_lt
      have hfirst : UInt8.ofNat
          (first.toNat * 16 / 64 * 4 + first.toNat * 16 % 64 / 16) = first :=
        ofNat_toNat_of_eq (by omega)
      rw [a2bBase64_one (by omega), a2bBase64_two (by omega), hfirst]
      rfl
  | case3 first second bits =>
      have hbytes := And.intro first.toNat_lt second.toNat_lt
      set bits := (first.toNat * 256 + second.toNat) * 4 with hbits
      have hfirst : UInt8.ofNat (bits / 4096 * 4 + bits / 64 % 64 / 16) = first :=
        ofNat_toNat_of_eq (by omega)
      have hsecond : UInt8.ofNat (bits / 64 % 64 % 16 * 16 + bits % 64 / 4) = second :=
        ofNat_toNat_of_eq (by omega)
      rw [a2bBase64_one (by omega), a2bBase64_two (by omega), a2bBase64_three (by omega),
        hfirst, hsecond]
      rfl
  | case4 first second third rest bits ih =>
      have hbytes := And.intro first.toNat_lt (And.intro second.toNat_lt third.toNat_lt)
      set bits := (first.toNat * 256 + second.toNat) * 256 + third.toNat with hbits
      have hfirst : UInt8.ofNat (bits / 262144 * 4 + bits / 4096 % 64 / 16) = first :=
        ofNat_toNat_of_eq (by omega)
      have hsecond : UInt8.ofNat (bits / 4096 % 64 % 16 * 16 + bits / 64 % 64 / 4) =
          second := ofNat_toNat_of_eq (by omega)
      have hthird : UInt8.ofNat (bits / 64 % 64 % 4 * 64 + bits % 64) = third :=
        ofNat_toNat_of_eq (by omega)
      rw [a2bBase64_one (by omega), a2bBase64_two (by omega), a2bBase64_three (by omega),
        a2bBase64_four (by omega), hfirst, hsecond, hthird, ih]
      rfl

theorem b64decode_b64encode
    (data : List UInt8) :
    b64decode (b64encode data) = some data := by
  have hascii : ∀ c ∈ b64encode data, c.toNat < 128 := by
    fun_induction b64encode data with
    | case1 => simp
    | case2 first bits => simp [base64Char_ascii]
    | case3 first second bits => simp [base64Char_ascii]
    | case4 first second third rest bits ih => simpa [base64Char_ascii] using ih
  have hencode : encodeAscii (b64encode data) = some (b64encode data) :=
    if_pos (List.all_eq_true.mpr fun c hc => decide_eq_true (hascii c hc))
  unfold b64decode
  rw [hencode]
  exact a2bBase64_b64encode data 0 0

/-- No more bytes are read than there are characters. -/
theorem a2bBase64_length
    {quadPos pads leftchar : ℕ} {chars : List Char} {data : List UInt8}
    (hdata : a2bBase64 quadPos pads leftchar chars = some data) :
    data.length ≤ chars.length := by
  induction chars generalizing quadPos pads leftchar data with
  | nil =>
      rw [a2bBase64] at hdata
      split at hdata
      · cases hdata
        exact le_rfl
      · cases hdata
  | cons c rest ih =>
      rw [a2bBase64] at hdata
      split at hdata
      · split at hdata
        · cases hdata
          exact Nat.zero_le _
        · exact (ih hdata).trans (Nat.le_succ _)
      · split at hdata
        · exact (ih hdata).trans (Nat.le_succ _)
        · split at hdata
          · exact (ih hdata).trans (Nat.le_succ _)
          all_goals
            obtain ⟨tail, htail, rfl⟩ := Option.map_eq_some_iff.mp hdata
            exact Nat.succ_le_succ (ih htail)

/-! ## Texts -/

section

variable {codec : SecretCodec} {key : List UInt8}

theorem startswith_iff {text mark : String} :
    startswith text mark = true ↔ mark.toList <+: text.toList := by
  unfold startswith
  exact List.isPrefixOf_iff_prefix

theorem encryptSecret_marked
    {cipher : SecretCipher} {value : String}
    (hkey : cipher.encryptionKey = .ok (some key))
    (hmarked : startswith value ENCRYPTED_PREFIX = true) (draw : ℕ) :
    encryptSecret cipher value draw = .ok (value, draw) := by
  unfold encryptSecret
  simp [hkey, hmarked]

/-- An unmarked text becomes a marked one, which decrypts to it. -/
theorem encryptSecret_unmarked
    (hsound : codec.Sound) (hkey : codec.encryptionKey = .ok (some key)) {value : String}
    (hunmarked : startswith value ENCRYPTED_PREFIX = false) (draw : ℕ) :
    ∃ text, encryptSecret codec.toSecretCipher value draw = .ok (text, draw + 1) ∧
      startswith text ENCRYPTED_PREFIX = true ∧
      ∀ other, decryptSecret codec text other = .ok (value, other) := by
  set raw := codec.nonce draw ++ codec.aesgcmEncrypt key (codec.nonce draw) (utf8 value)
    with hraw
  have htext : (ENCRYPTED_PREFIX ++ String.ofList (b64encode raw)).toList =
      ENCRYPTED_PREFIX.toList ++ b64encode raw := by
    simp
  have hmarked : startswith (ENCRYPTED_PREFIX ++ String.ofList (b64encode raw))
      ENCRYPTED_PREFIX = true := by
    rw [startswith_iff, htext]
    exact List.prefix_append _ _
  have hbody : (ENCRYPTED_PREFIX ++ String.ofList (b64encode raw)).toList.drop
      ENCRYPTED_PREFIX.length = b64encode raw := by
    rw [htext]
    exact List.drop_left
  have hnonce : raw.take NONCE_BYTES = codec.nonce draw := by
    rw [hraw, ← hsound.nonce_length draw]
    exact List.take_left
  have hcipher : raw.drop NONCE_BYTES =
      codec.aesgcmEncrypt key (codec.nonce draw) (utf8 value) := by
    rw [hraw, ← hsound.nonce_length draw]
    exact List.drop_left
  have hopen : openSecret codec key (b64encode raw) = some value := by
    unfold openSecret
    rw [b64decode_b64encode]
    simp only [Option.bind_eq_bind, Option.bind_some, hnonce, hcipher,
      hsound.decrypt_encrypt, decodeUtf8_utf8]
  refine ⟨ENCRYPTED_PREFIX ++ String.ofList (b64encode raw), ?_, hmarked, ?_⟩
  · unfold encryptSecret
    simp [hkey, hunmarked, hraw]
  · intro other
    unfold decryptSecret
    simp only [hmarked, if_true, hkey, hbody, hopen]

theorem utf8_of_decodeUtf8
    {data : List UInt8} {text : String} (hdata : decodeUtf8 data = some text) :
    utf8 text = data := by
  unfold decodeUtf8 at hdata
  obtain ⟨chars, hchars, rfl⟩ := Option.map_eq_some_iff.mp hdata
  obtain ⟨encoded, hencoded⟩ := ByteArray.isSome_utf8Decode?_iff.mp
    (Option.isSome_of_eq_some hchars)
  rw [hencoded, List.utf8Decode?_utf8Encode, Option.some.injEq] at hchars
  subst hchars
  have hsame : (encoded.flatMap String.utf8EncodeChar).toByteArray = data.toByteArray :=
    hencoded.symm
  simpa [utf8] using List.toByteArray_inj.mp hsame

theorem utf8_length_ge (text : String) : text.toList.length ≤ (utf8 text).length := by
  unfold utf8
  rw [List.length_flatMap]
  have hpos : ∀ char ∈ text.toList, 1 ≤ (String.utf8EncodeChar char).length := by
    intro char _
    rw [String.length_utf8EncodeChar]
    exact char.utf8Size_pos
  calc text.toList.length = (text.toList.map fun _ => 1).sum := by simp
    _ ≤ _ := List.sum_le_sum hpos

/-- A marked text never decrypts to itself. -/
theorem decryptSecret_marked
    (hsound : codec.Sound) (hkey : codec.encryptionKey = .ok (some key)) {value : String}
    (hmarked : startswith value ENCRYPTED_PREFIX = true) (draw next : ℕ) :
    decryptSecret codec value draw ≠ .ok (value, next) := by
  intro hdecrypted
  unfold decryptSecret at hdecrypted
  simp only [hmarked, if_true, hkey] at hdecrypted
  split at hdecrypted
  next hnone => cases hdecrypted
  next text hopen =>
    cases hdecrypted
    unfold openSecret at hopen
    simp only [Option.bind_eq_bind, Option.bind_eq_some_iff] at hopen
    obtain ⟨raw, hraw, plaintext, hplaintext, htext⟩ := hopen
    have hbytes : (utf8 value).length ≤ raw.length := by
      rw [utf8_of_decodeUtf8 htext]
      have hcipher := hsound.decrypt_length _ _ _ _ hplaintext
      rw [List.length_drop] at hcipher
      omega
    have hread : raw.length ≤ (value.toList.drop ENCRYPTED_PREFIX.length).length := by
      unfold b64decode at hraw
      simp only [Option.bind_eq_bind, Option.bind_eq_some_iff] at hraw
      obtain ⟨ascii, hascii, hraw⟩ := hraw
      unfold encodeAscii at hascii
      split at hascii
      · cases hascii
        exact a2bBase64_length hraw
      · cases hascii
    have hchars := utf8_length_ge value
    have hlong := (startswith_iff.mp hmarked).length_le
    have hseven : ENCRYPTED_PREFIX.toList.length = 7 := by decide
    have hsize : ENCRYPTED_PREFIX.length = 7 := by decide
    rw [List.length_drop] at hread
    omega

end

/-! ## Walks -/

section

variable {first second transform : String → Encrypting String} {Holds : Json → Prop}

mutual

/-- A walk that leaves every text under a secret key alone. -/
theorem walk_eq_self
    (hself : ∀ text, Holds (.str text) → ∀ draw, transform text draw = .ok (text, draw)) :
    ∀ (value : Json), Json.SecretsHold Holds value →
      ∀ draw, walk transform value draw = .ok (value, draw)
  | .dict fields, hvalue, draw => by
      rw [walk]
      exact encrypting_bind_eq_ok.mpr
        ⟨fields, draw, walkFields_eq_self hself fields hvalue draw, rfl⟩
  | .list items, hvalue, draw => by
      rw [walk]
      exact encrypting_bind_eq_ok.mpr
        ⟨items, draw, walkItems_eq_self hself items hvalue draw, rfl⟩
  | .null, _, draw => walk_leaf .null trivial draw
  | .bool value, _, draw => walk_leaf (.bool value) trivial draw
  | .int value, _, draw => walk_leaf (.int value) trivial draw
  | .float value, _, draw => walk_leaf (.float value) trivial draw
  | .str text, _, draw => walk_leaf (.str text) trivial draw

theorem walkItems_eq_self
    (hself : ∀ text, Holds (.str text) → ∀ draw, transform text draw = .ok (text, draw)) :
    ∀ (items : List Json), Json.ItemSecretsHold Holds items →
      ∀ draw, walkItems transform items draw = .ok (items, draw)
  | [], _, draw => by
      rw [walkItems]
      rfl
  | item :: rest, hitems, draw => by
      rw [walkItems]
      refine encrypting_bind_eq_ok.mpr
        ⟨item, draw, walk_eq_self hself item hitems.1 draw, ?_⟩
      exact encrypting_bind_eq_ok.mpr
        ⟨rest, draw, walkItems_eq_self hself rest hitems.2 draw, rfl⟩

theorem walkFields_eq_self
    (hself : ∀ text, Holds (.str text) → ∀ draw, transform text draw = .ok (text, draw)) :
    ∀ (fields : List (String × Json)), Json.FieldSecretsHold Holds fields →
      ∀ draw, walkFields transform fields draw = .ok (fields, draw)
  | [], _, draw => by
      rw [walkFields]
      rfl
  | (key, child) :: rest, hfields, draw => by
      rw [walkFields]
      have hrest := walkFields_eq_self hself rest hfields.2 draw
      cases htext : secretText key child with
      | some text =>
          obtain ⟨hkey, rfl⟩ := secretText_eq_some.mp htext
          refine encrypting_bind_eq_ok.mpr ⟨.str text, draw, ?_, ?_⟩
          · exact encrypting_map_eq_ok.mpr ⟨text, hself text (hfields.1.1 hkey) draw, rfl⟩
          · exact encrypting_bind_eq_ok.mpr ⟨rest, draw, hrest, rfl⟩
      | none =>
          refine encrypting_bind_eq_ok.mpr
            ⟨child, draw, walk_eq_self hself child hfields.1.2 draw, ?_⟩
          exact encrypting_bind_eq_ok.mpr ⟨rest, draw, hrest, rfl⟩

end

/-- A value which is no text under a secret key does not become one. -/
theorem secretText_walk
    {key : String} {child walked : Json} {draw next : ℕ}
    (hchild : secretText key child = none)
    (hwalk : walk transform child draw = .ok (walked, next)) :
    secretText key walked = none := by
  cases htext : secretText key walked with
  | none => rfl
  | some text =>
      obtain ⟨hkey, hwalked⟩ := secretText_eq_some.mp htext
      have hsame := (walk_eq_leaf (isLeaf_str text) hwalk).mp hwalked
      rw [secretText_eq_some.mpr ⟨hkey, hsame⟩] at hchild
      cases hchild

theorem leaf_undone
    (value : Json) (hleaf : value.IsLeaf) (draw : ℕ) :
    ∃ encrypted next, walk first value draw = .ok (encrypted, next) ∧
      ∀ other, walk second encrypted other = .ok (value, other) :=
  ⟨value, draw, walk_leaf value hleaf draw, walk_leaf value hleaf⟩

/-- The second transform takes back what the first makes of such texts. -/
def Undoes (second first : String → Encrypting String) (Holds : Json → Prop) : Prop :=
  ∀ text, Holds (.str text) → ∀ draw, ∃ encrypted next,
    first text draw = .ok (encrypted, next) ∧
      ∀ other, second encrypted other = .ok (text, other)

mutual

theorem walk_undone (hundoes : Undoes second first Holds) :
    ∀ (value : Json), Json.SecretsHold Holds value → ∀ draw, ∃ encrypted next,
      walk first value draw = .ok (encrypted, next) ∧
        ∀ other, walk second encrypted other = .ok (value, other)
  | .dict fields, hvalue, draw => by
      obtain ⟨encrypted, next, hfirst, hsecond⟩ :=
        walkFields_undone hundoes fields hvalue draw
      refine ⟨.dict encrypted, next, ?_, fun other => ?_⟩
      · rw [walk]
        exact encrypting_bind_eq_ok.mpr ⟨encrypted, next, hfirst, rfl⟩
      · rw [walk]
        exact encrypting_bind_eq_ok.mpr ⟨fields, other, hsecond other, rfl⟩
  | .list items, hvalue, draw => by
      obtain ⟨encrypted, next, hfirst, hsecond⟩ :=
        walkItems_undone hundoes items hvalue draw
      refine ⟨.list encrypted, next, ?_, fun other => ?_⟩
      · rw [walk]
        exact encrypting_bind_eq_ok.mpr ⟨encrypted, next, hfirst, rfl⟩
      · rw [walk]
        exact encrypting_bind_eq_ok.mpr ⟨items, other, hsecond other, rfl⟩
  | .null, _, draw => leaf_undone .null trivial draw
  | .bool value, _, draw => leaf_undone (.bool value) trivial draw
  | .int value, _, draw => leaf_undone (.int value) trivial draw
  | .float value, _, draw => leaf_undone (.float value) trivial draw
  | .str text, _, draw => leaf_undone (.str text) trivial draw

theorem walkItems_undone (hundoes : Undoes second first Holds) :
    ∀ (items : List Json), Json.ItemSecretsHold Holds items → ∀ draw, ∃ encrypted next,
      walkItems first items draw = .ok (encrypted, next) ∧
        ∀ other, walkItems second encrypted other = .ok (items, other)
  | [], _, draw => by
      refine ⟨[], draw, ?_, fun other => ?_⟩
      all_goals
        rw [walkItems]
        rfl
  | item :: rest, hitems, draw => by
      obtain ⟨encrypted, middle, hfirst, hsecond⟩ :=
        walk_undone hundoes item hitems.1 draw
      obtain ⟨others, next, hfirsts, hseconds⟩ :=
        walkItems_undone hundoes rest hitems.2 middle
      refine ⟨encrypted :: others, next, ?_, fun other => ?_⟩
      · rw [walkItems]
        refine encrypting_bind_eq_ok.mpr ⟨encrypted, middle, hfirst, ?_⟩
        exact encrypting_bind_eq_ok.mpr ⟨others, next, hfirsts, rfl⟩
      · rw [walkItems]
        refine encrypting_bind_eq_ok.mpr ⟨item, other, hsecond other, ?_⟩
        exact encrypting_bind_eq_ok.mpr ⟨rest, other, hseconds other, rfl⟩

theorem walkFields_undone (hundoes : Undoes second first Holds) :
    ∀ (fields : List (String × Json)), Json.FieldSecretsHold Holds fields →
      ∀ draw, ∃ encrypted next,
        walkFields first fields draw = .ok (encrypted, next) ∧
          ∀ other, walkFields second encrypted other = .ok (fields, other)
  | [], _, draw => by
      refine ⟨[], draw, ?_, fun other => ?_⟩
      all_goals
        rw [walkFields]
        rfl
  | (key, child) :: rest, hfields, draw => by
      cases htext : secretText key child with
      | some text =>
          obtain ⟨hkey, rfl⟩ := secretText_eq_some.mp htext
          obtain ⟨encrypted, middle, hfirst, hsecond⟩ :=
            hundoes text (hfields.1.1 hkey) draw
          obtain ⟨others, next, hfirsts, hseconds⟩ :=
            walkFields_undone hundoes rest hfields.2 middle
          refine ⟨(key, .str encrypted) :: others, next, ?_, fun other => ?_⟩
          · rw [walkFields]
            simp only [htext]
            refine encrypting_bind_eq_ok.mpr ⟨.str encrypted, middle, ?_, ?_⟩
            · exact encrypting_map_eq_ok.mpr ⟨encrypted, hfirst, rfl⟩
            · exact encrypting_bind_eq_ok.mpr ⟨others, next, hfirsts, rfl⟩
          · rw [walkFields]
            simp only [secretText_eq_some.mpr ⟨hkey, rfl⟩]
            refine encrypting_bind_eq_ok.mpr ⟨.str text, other, ?_, ?_⟩
            · exact encrypting_map_eq_ok.mpr ⟨text, hsecond other, rfl⟩
            · exact encrypting_bind_eq_ok.mpr ⟨rest, other, hseconds other, rfl⟩
      | none =>
          obtain ⟨encrypted, middle, hfirst, hsecond⟩ :=
            walk_undone hundoes child hfields.1.2 draw
          obtain ⟨others, next, hfirsts, hseconds⟩ :=
            walkFields_undone hundoes rest hfields.2 middle
          refine ⟨(key, encrypted) :: others, next, ?_, fun other => ?_⟩
          · rw [walkFields]
            simp only [htext]
            refine encrypting_bind_eq_ok.mpr ⟨encrypted, middle, hfirst, ?_⟩
            exact encrypting_bind_eq_ok.mpr ⟨others, next, hfirsts, rfl⟩
          · rw [walkFields]
            simp only [secretText_walk htext hfirst]
            refine encrypting_bind_eq_ok.mpr ⟨child, other, hsecond other, ?_⟩
            exact encrypting_bind_eq_ok.mpr ⟨rest, other, hseconds other, rfl⟩

end

/-- Only for such texts may the second transform take back what the first makes. -/
structure UndoesOnly (second first : String → Encrypting String) (Holds : Json → Prop) :
    Prop where
  text : ∀ text draw encrypted next other last, first text draw = .ok (encrypted, next) →
    second encrypted other = .ok (text, last) → Holds (.str text)
  plain : ∀ value, (∀ text, value ≠ .str text) → Holds value

mutual

theorem holds_of_undone (honly : UndoesOnly second first Holds) :
    ∀ (value : Json) {encrypted : Json} {draw next other last : ℕ},
      walk first value draw = .ok (encrypted, next) →
      walk second encrypted other = .ok (value, last) → Json.SecretsHold Holds value
  | .dict fields, encrypted, draw, next, other, last, hfirst, hsecond => by
      rw [walk] at hfirst
      obtain ⟨walked, _, hwalked, hresult⟩ := encrypting_bind_eq_ok.mp hfirst
      cases encrypting_pure_eq_ok.mp hresult
      rw [walk] at hsecond
      obtain ⟨undone, _, hundone, hresult⟩ := encrypting_bind_eq_ok.mp hsecond
      cases encrypting_pure_eq_ok.mp hresult
      exact fields_hold_of_undone honly fields hwalked hundone
  | .list items, encrypted, draw, next, other, last, hfirst, hsecond => by
      rw [walk] at hfirst
      obtain ⟨walked, _, hwalked, hresult⟩ := encrypting_bind_eq_ok.mp hfirst
      cases encrypting_pure_eq_ok.mp hresult
      rw [walk] at hsecond
      obtain ⟨undone, _, hundone, hresult⟩ := encrypting_bind_eq_ok.mp hsecond
      cases encrypting_pure_eq_ok.mp hresult
      exact items_hold_of_undone honly items hwalked hundone
  | .null, _, _, _, _, _, _, _ | .bool _, _, _, _, _, _, _, _
  | .int _, _, _, _, _, _, _, _ | .float _, _, _, _, _, _, _, _
  | .str _, _, _, _, _, _, _, _ => trivial

theorem items_hold_of_undone (honly : UndoesOnly second first Holds) :
    ∀ (items : List Json) {encrypted : List Json} {draw next other last : ℕ},
      walkItems first items draw = .ok (encrypted, next) →
      walkItems second encrypted other = .ok (items, last) →
      Json.ItemSecretsHold Holds items
  | [], _, _, _, _, _, _, _ => trivial
  | item :: rest, encrypted, draw, next, other, last, hfirst, hsecond => by
      rw [walkItems] at hfirst
      obtain ⟨walked, _, hwalked, hfirst⟩ := encrypting_bind_eq_ok.mp hfirst
      obtain ⟨walkedRest, _, hwalkedRest, hresult⟩ := encrypting_bind_eq_ok.mp hfirst
      cases encrypting_pure_eq_ok.mp hresult
      rw [walkItems] at hsecond
      obtain ⟨undone, _, hundone, hsecond⟩ := encrypting_bind_eq_ok.mp hsecond
      obtain ⟨undoneRest, _, hundoneRest, hresult⟩ := encrypting_bind_eq_ok.mp hsecond
      cases encrypting_pure_eq_ok.mp hresult
      exact ⟨holds_of_undone honly item hwalked hundone,
        items_hold_of_undone honly rest hwalkedRest hundoneRest⟩

theorem fields_hold_of_undone (honly : UndoesOnly second first Holds) :
    ∀ (fields : List (String × Json)) {encrypted : List (String × Json)}
      {draw next other last : ℕ}, walkFields first fields draw = .ok (encrypted, next) →
      walkFields second encrypted other = .ok (fields, last) →
      Json.FieldSecretsHold Holds fields
  | [], _, _, _, _, _, _, _ => trivial
  | (key, child) :: rest, encrypted, draw, next, other, last, hfirst, hsecond => by
      rw [walkFields] at hfirst
      cases htext : secretText key child with
      | some text =>
          obtain ⟨hkey, rfl⟩ := secretText_eq_some.mp htext
          simp only [htext] at hfirst
          obtain ⟨walked, _, hwalked, hfirst⟩ := encrypting_bind_eq_ok.mp hfirst
          obtain ⟨walkedRest, _, hwalkedRest, hresult⟩ := encrypting_bind_eq_ok.mp hfirst
          cases encrypting_pure_eq_ok.mp hresult
          obtain ⟨sealedText, hsealed, rfl⟩ := encrypting_map_eq_ok.mp hwalked
          rw [walkFields] at hsecond
          simp only [secretText_eq_some.mpr ⟨hkey, rfl⟩] at hsecond
          obtain ⟨undone, _, hundone, hsecond⟩ := encrypting_bind_eq_ok.mp hsecond
          obtain ⟨undoneRest, _, hundoneRest, hresult⟩ := encrypting_bind_eq_ok.mp hsecond
          cases encrypting_pure_eq_ok.mp hresult
          obtain ⟨opened, hopened, hsame⟩ := encrypting_map_eq_ok.mp hundone
          cases hsame
          exact ⟨⟨fun _ => honly.text _ _ _ _ _ _ hsealed hopened, trivial⟩,
            fields_hold_of_undone honly rest hwalkedRest hundoneRest⟩
      | none =>
          simp only [htext] at hfirst
          obtain ⟨walked, _, hwalked, hfirst⟩ := encrypting_bind_eq_ok.mp hfirst
          obtain ⟨walkedRest, _, hwalkedRest, hresult⟩ := encrypting_bind_eq_ok.mp hfirst
          cases encrypting_pure_eq_ok.mp hresult
          rw [walkFields] at hsecond
          simp only [secretText_walk htext hwalked] at hsecond
          obtain ⟨undone, _, hundone, hsecond⟩ := encrypting_bind_eq_ok.mp hsecond
          obtain ⟨undoneRest, _, hundoneRest, hresult⟩ := encrypting_bind_eq_ok.mp hsecond
          cases encrypting_pure_eq_ok.mp hresult
          refine ⟨⟨fun hkey => honly.plain _ fun text hchild => ?_,
            holds_of_undone honly child hwalked hundone⟩,
            fields_hold_of_undone honly rest hwalkedRest hundoneRest⟩
          rw [secretText_eq_some.mpr ⟨hkey, hchild⟩] at htext
          cases htext

end

end

/-! ## Round trips -/

/-- The text does not look like a ciphertext. -/
def Unmarked (value : Json) : Prop :=
  ∀ text, value = .str text → startswith text ENCRYPTED_PREFIX = false

def MarkedText (value : Json) : Prop :=
  ∀ text, value = .str text → startswith text ENCRYPTED_PREFIX = true

/-- No text under a secret key looks like a ciphertext. -/
def HoldsNoCiphertext (value : Json) : Prop := Json.SecretsHold Unmarked value

/-- Decryption gives back the value from what encryption makes of it, and from what a
second encryption makes of that. -/
def SecretCodec.Restores (codec : SecretCodec) (value : Json) : Prop :=
  (∀ draw, ∃ encrypted next last,
    codec.encryptValues value draw = .ok (encrypted, next) ∧
      codec.decryptValues encrypted next = .ok (value, last)) ∧
  ∀ draw, ∃ once twice next after last,
    codec.encryptValues value draw = .ok (once, next) ∧
      codec.encryptValues once next = .ok (twice, after) ∧
        codec.decryptValues twice after = .ok (value, last)

section

variable {codec : SecretCodec} {key : List UInt8}

theorem unmarked_undone
    (hsound : codec.Sound) (hkey : codec.encryptionKey = .ok (some key)) :
    Undoes (decryptSecret codec) (encryptSecret codec.toSecretCipher) Unmarked := by
  intro text hunmarked draw
  obtain ⟨encrypted, hencrypted, -, hdecrypted⟩ :=
    encryptSecret_unmarked hsound hkey (hunmarked text rfl) draw
  exact ⟨encrypted, draw + 1, hencrypted, hdecrypted⟩

theorem undone_unmarked
    (hsound : codec.Sound) (hkey : codec.encryptionKey = .ok (some key)) :
    UndoesOnly (decryptSecret codec) (encryptSecret codec.toSecretCipher) Unmarked where
  text := by
    intro text draw encrypted next other last hencrypted hdecrypted given hgiven
    obtain rfl := Json.str.inj hgiven
    by_contra hmarked
    rw [Bool.not_eq_false] at hmarked
    rw [encryptSecret_marked hkey hmarked draw] at hencrypted
    cases hencrypted
    exact decryptSecret_marked hsound hkey hmarked other last hdecrypted
  plain := fun value hplain text htext => absurd htext (hplain text)

theorem encrypted_marked
    (hsound : codec.Sound) (hkey : codec.encryptionKey = .ok (some key)) :
    Encrypts (encryptSecret codec.toSecretCipher) (fun _ => True) MarkedText where
  text := by
    intro value draw encrypted next hencrypted
    refine iff_true_intro fun text htext => ?_
    obtain rfl := Json.str.inj htext
    by_cases hmarked : startswith value ENCRYPTED_PREFIX = true
    · rw [encryptSecret_marked hkey hmarked draw] at hencrypted
      cases hencrypted
      exact hmarked
    · rw [Bool.not_eq_true] at hmarked
      obtain ⟨sealedText, hsealed, hprefixed, -⟩ :=
        encryptSecret_unmarked hsound hkey hmarked draw
      rw [hsealed] at hencrypted
      cases hencrypted
      exact hprefixed
  other := by
    intro value draw encrypted next hvalue hwalk
    refine iff_true_intro fun text htext => ?_
    exact absurd ((walk_eq_leaf (isLeaf_str text) hwalk).mp htext) (hvalue text)

theorem holdsNoCiphertext_of_restores
    (hsound : codec.Sound) (hkey : codec.encryptionKey = .ok (some key)) {value : Json}
    (hrestores : codec.Restores value) : HoldsNoCiphertext value := by
  obtain ⟨encrypted, next, last, hencrypted, hdecrypted⟩ := hrestores.1 0
  exact holds_of_undone (undone_unmarked hsound hkey) value hencrypted hdecrypted

/-- With a key, decryption undoes encryption exactly if no secret text looks like a
ciphertext; without one both leave such values alone. -/
theorem decryption_undoes_encryption_iff
    {codec : SecretCodec} (hsound : codec.Sound) :
    (∀ key, codec.encryptionKey = .ok (some key) →
      ∀ value, codec.Restores value ↔ HoldsNoCiphertext value) ∧
    (codec.encryptionKey = .ok none → ∀ value, HoldsNoCiphertext value →
      ∀ draw, codec.encryptValues value draw = .ok (value, draw) ∧
        codec.decryptValues value draw = .ok (value, draw)) := by
  constructor
  · intro key hkey value
    constructor
    · exact holdsNoCiphertext_of_restores hsound hkey
    · intro hunmarked
      have hundone := walk_undone (unmarked_undone hsound hkey) value hunmarked
      constructor
      · intro draw
        obtain ⟨encrypted, next, hencrypted, hdecrypted⟩ := hundone draw
        exact ⟨encrypted, next, next, hencrypted, hdecrypted next⟩
      · intro draw
        obtain ⟨encrypted, next, hencrypted, hdecrypted⟩ := hundone draw
        have hmarked :=
          (walk_secretsHold (encrypted_marked hsound hkey) value hencrypted).mpr
            (Json.SecretsHold.mono (fun _ _ => trivial) value hunmarked)
        have hagain := walk_eq_self
          (fun text htext => encryptSecret_marked hkey (htext text rfl)) encrypted hmarked
          next
        exact ⟨encrypted, encrypted, next, next, next, hencrypted, hagain,
          hdecrypted next⟩
  · intro hkey value hunmarked draw
    constructor
    · refine walk_eq_self (fun text _ draw => ?_) value hunmarked draw
      unfold encryptSecret
      rw [hkey]
    · refine walk_eq_self (fun text htext draw => ?_) value hunmarked draw
      unfold decryptSecret
      rw [if_neg (by simp [htext text rfl])]

end

/-! ## A sample codec -/

/-- AES-256-GCM of the text `abc` at the zero key and nonce; other texts are followed
by a tag of zeros. -/
def sampleCodec : SecretCodec where
  encryptionKey := .ok (some (List.replicate 32 0))
  nonce := fun _ => List.replicate 12 0
  aesgcmEncrypt := fun _ _ plaintext =>
    if plaintext = utf8 "abc" then sampleSettings.aesgcmEncrypt [] [] plaintext
    else plaintext ++ List.replicate 16 0
  aesgcmDecrypt := fun _ _ ciphertext =>
    if ciphertext = sampleSettings.aesgcmEncrypt [] [] (utf8 "abc") then
      some (utf8 "abc")
    else some (ciphertext.take (ciphertext.length - 16))

theorem sampleCodec_sound : sampleCodec.Sound where
  nonce_length := fun _ => rfl
  decrypt_encrypt := by
    intro key nonce plaintext
    by_cases hsample : plaintext = utf8 "abc"
    · subst hsample
      simp only [sampleCodec, if_true]
    · have hother : plaintext ++ List.replicate 16 0 ≠
          sampleSettings.aesgcmEncrypt [] [] (utf8 "abc") := by
        intro hsame
        have hlast := congrArg List.getLast? hsame
        have hleft : (plaintext ++ List.replicate 16 (0 : UInt8)).getLast? = some 0 := by
          simp [List.getLast?_append]
        have hright : (sampleSettings.aesgcmEncrypt [] [] (utf8 "abc")).getLast? =
            some 60 := by decide
        rw [hleft, hright] at hlast
        exact absurd hlast (by decide)
      simp only [sampleCodec, if_neg hsample, if_neg hother, List.length_append,
        List.length_replicate, Nat.add_sub_cancel, List.take_left]
  decrypt_length := by
    intro key nonce ciphertext plaintext hplaintext
    simp only [sampleCodec] at hplaintext
    split at hplaintext
    next hsample =>
      cases hplaintext
      rw [hsample]
      decide
    next =>
      cases hplaintext
      exact List.length_take_le' _ _

theorem sample_decryption_undoes_encryption :
    sampleCodec.Restores (.dict [("token", .str "abc")]) ↔
      HoldsNoCiphertext (.dict [("token", .str "abc")]) :=
  (@decryption_undoes_encryption_iff sampleCodec sampleCodec_sound).1
    (List.replicate 32 0) rfl _

theorem marked_token_not_restored :
    ¬sampleCodec.Restores (.dict [("token", .str "enc:v1:abc")]) := by
  intro hrestores
  have hunmarked := holdsNoCiphertext_of_restores sampleCodec_sound rfl hrestores
  have htoken : isSecretKey "token" = true := isSecretKey_secret _ (by simp)
  have hmarked : startswith "enc:v1:abc" ENCRYPTED_PREFIX = true := by decide
  have hfield := (Json.secretsHold_dict.mp hunmarked) _ List.mem_cons_self
  have hnot := hfield.1 htoken "enc:v1:abc" rfl
  rw [hmarked] at hnot
  cases hnot

end ManagedAgents
