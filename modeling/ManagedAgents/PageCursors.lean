import Mathlib.Data.List.GetD
import ManagedAgents.Pagination

/-!
# Page cursors

A cursor is read back as the offset for which it was written until it expires,
and refused afterwards.
-/

namespace ManagedAgents

open OffsetPages

/-! ## Base64 without padding -/

/-- A character that `urlsafe_b64encode` writes. -/
structure Written64 (value : ℕ) (c : Char) : Prop where
  padding : c ≠ '='
  ascii : c.toNat < 128
  plain : plainChar c ≠ '='
  value : base64Value (plainChar c) = some value

theorem written64_base64Char
    {value : ℕ} (hvalue : value < 64) :
    Written64 value (urlsafeChar (base64Char value)) := by
  have hall : ∀ value < 64,
      let c := urlsafeChar (base64Char value)
      c ≠ '=' ∧ c.toNat < 128 ∧ plainChar c ≠ '=' ∧
        base64Value (plainChar c) = some value := by
    decide +kernel
  obtain ⟨hpadding, hascii, hplain, hread⟩ := hall value hvalue
  exact ⟨hpadding, hascii, hplain, hread⟩

/-- The text which a cursor carries after its prefix. -/
def unpadded (data : List UInt8) : List Char :=
  rstripPadding ((b64encode data).map urlsafeChar)

theorem rstripPadding_cons
    {c : Char} (hc : c ≠ '=') (chars : List Char) :
    rstripPadding (c :: chars) = c :: rstripPadding chars := by
  unfold rstripPadding
  induction chars using List.reverseRecOn with
  | nil => simp [hc, List.rdropWhile_singleton]
  | append_singleton chars last ih =>
      rw [← List.cons_append, List.rdropWhile_concat, List.rdropWhile_concat]
      split
      · exact ih
      · rfl

section

variable {pads leftchar : ℕ} {rest : List Char} {value : ℕ} {c : Char}

theorem a2bBase64_first
    (hc : Written64 value c) :
    a2bBase64 0 pads leftchar (plainChar c :: rest) = a2bBase64 1 0 value rest := by
  simp [a2bBase64, hc.plain, hc.value]

theorem a2bBase64_second
    (hc : Written64 value c) :
    a2bBase64 1 pads leftchar (plainChar c :: rest) =
      (a2bBase64 2 0 (value % 16) rest).map
        (UInt8.ofNat (leftchar * 4 + value / 16) :: ·) := by
  simp [a2bBase64, hc.plain, hc.value]

theorem a2bBase64_third
    (hc : Written64 value c) :
    a2bBase64 2 pads leftchar (plainChar c :: rest) =
      (a2bBase64 3 0 (value % 4) rest).map
        (UInt8.ofNat (leftchar * 16 + value / 4) :: ·) := by
  simp [a2bBase64, hc.plain, hc.value]

theorem a2bBase64_fourth
    (hc : Written64 value c) :
    a2bBase64 3 pads leftchar (plainChar c :: rest) =
      (a2bBase64 0 0 0 rest).map (UInt8.ofNat (leftchar * 64 + value) :: ·) := by
  simp [a2bBase64, hc.plain, hc.value]

end

theorem ofNat_toNat_of_eq {byte : UInt8} {value : ℕ} (hvalue : value = byte.toNat) :
    UInt8.ofNat value = byte := by
  rw [hvalue]
  exact UInt8.ofNat_toNat

theorem a2bBase64_unpadded
    (data : List UInt8) (pads leftchar : ℕ) :
    a2bBase64 0 pads leftchar ((unpadded data ++ ['=', '=', '=']).map plainChar) =
      some data := by
  fun_induction b64encode data generalizing pads leftchar with
  | case1 => rfl
  | case2 first bits =>
      have hbyte := first.toNat_lt
      have hhead := written64_base64Char (by omega : first.toNat * 16 / 64 < 64)
      have hlast := written64_base64Char (by omega : first.toNat * 16 % 64 < 64)
      have hfirst : UInt8.ofNat
          (first.toNat * 16 / 64 * 4 + first.toNat * 16 % 64 / 16) = first :=
        ofNat_toNat_of_eq (by omega)
      have htext : unpadded [first] =
          [urlsafeChar (base64Char (first.toNat * 16 / 64)),
            urlsafeChar (base64Char (first.toNat * 16 % 64))] := by
        simp only [unpadded, b64encode, List.map_cons, List.map_nil]
        rw [rstripPadding_cons hhead.padding, rstripPadding_cons hlast.padding]
        rfl
      simp only [htext, List.cons_append, List.nil_append, List.map_cons, List.map_nil]
      rw [a2bBase64_first hhead, a2bBase64_second hlast, hfirst]
      rfl
  | case3 first second bits =>
      have hbytes := And.intro first.toNat_lt second.toNat_lt
      set bits := (first.toNat * 256 + second.toNat) * 4 with hbits
      have hhead := written64_base64Char (by omega : bits / 4096 < 64)
      have hmiddle := written64_base64Char (by omega : bits / 64 % 64 < 64)
      have hlast := written64_base64Char (by omega : bits % 64 < 64)
      have hfirst : UInt8.ofNat (bits / 4096 * 4 + bits / 64 % 64 / 16) = first :=
        ofNat_toNat_of_eq (by omega)
      have hsecond : UInt8.ofNat (bits / 64 % 64 % 16 * 16 + bits % 64 / 4) = second :=
        ofNat_toNat_of_eq (by omega)
      have htext : unpadded [first, second] =
          [urlsafeChar (base64Char (bits / 4096)),
            urlsafeChar (base64Char (bits / 64 % 64)),
            urlsafeChar (base64Char (bits % 64))] := by
        simp only [unpadded, b64encode, List.map_cons, List.map_nil, ← hbits]
        rw [rstripPadding_cons hhead.padding, rstripPadding_cons hmiddle.padding,
          rstripPadding_cons hlast.padding]
        rfl
      simp only [htext, List.cons_append, List.nil_append, List.map_cons, List.map_nil]
      rw [a2bBase64_first hhead, a2bBase64_second hmiddle, a2bBase64_third hlast, hfirst,
        hsecond]
      rfl
  | case4 first second third rest bits ih =>
      have hbytes := And.intro first.toNat_lt (And.intro second.toNat_lt third.toNat_lt)
      set bits := (first.toNat * 256 + second.toNat) * 256 + third.toNat with hbits
      have hhead := written64_base64Char (by omega : bits / 262144 < 64)
      have hnext := written64_base64Char (by omega : bits / 4096 % 64 < 64)
      have hmiddle := written64_base64Char (by omega : bits / 64 % 64 < 64)
      have hlast := written64_base64Char (by omega : bits % 64 < 64)
      have hfirst : UInt8.ofNat (bits / 262144 * 4 + bits / 4096 % 64 / 16) = first :=
        ofNat_toNat_of_eq (by omega)
      have hsecond : UInt8.ofNat (bits / 4096 % 64 % 16 * 16 + bits / 64 % 64 / 4) =
          second := ofNat_toNat_of_eq (by omega)
      have hthird : UInt8.ofNat (bits / 64 % 64 % 4 * 64 + bits % 64) = third :=
        ofNat_toNat_of_eq (by omega)
      have htext : unpadded (first :: second :: third :: rest) =
          urlsafeChar (base64Char (bits / 262144)) ::
            urlsafeChar (base64Char (bits / 4096 % 64)) ::
              urlsafeChar (base64Char (bits / 64 % 64)) ::
                urlsafeChar (base64Char (bits % 64)) :: unpadded rest := by
        simp only [unpadded, b64encode, List.map_cons, ← hbits]
        rw [rstripPadding_cons hhead.padding, rstripPadding_cons hnext.padding,
          rstripPadding_cons hmiddle.padding, rstripPadding_cons hlast.padding]
      simp only [htext, List.cons_append, List.map_cons]
      rw [a2bBase64_first hhead, a2bBase64_second hnext, a2bBase64_third hmiddle,
        a2bBase64_fourth hlast, hfirst, hsecond, hthird, ih]
      rfl

theorem urlsafe_ascii (value : ℕ) : (urlsafeChar (base64Char value)).toNat < 128 := by
  rcases Nat.lt_or_ge value 64 with hsmall | hlarge
  · exact (written64_base64Char hsmall).ascii
  · have hdefault : base64Char value = 'A' := by
      unfold base64Char
      exact List.getD_eq_default _ _ hlarge
    rw [hdefault]
    decide

theorem encodeAscii_unpadded (data : List UInt8) :
    encodeAscii (unpadded data) = some (unpadded data) := by
  have hall : ∀ c ∈ (b64encode data).map urlsafeChar, c.toNat < 128 := by
    fun_induction b64encode data with
    | case1 => simp
    | case2 first bits => simp [urlsafe_ascii]; decide
    | case3 first second bits => simp [urlsafe_ascii]; decide
    | case4 first second third rest bits ih => simpa [urlsafe_ascii] using ih
  apply if_pos
  apply List.all_eq_true.mpr
  intro c hc
  exact decide_eq_true (hall c ((List.rdropWhile_prefix _ _).subset hc))

theorem decodeUtf8_utf8 (text : String) : decodeUtf8 (utf8 text) = some text := by
  have hencode : (utf8 text).toByteArray = text.toList.utf8Encode := rfl
  unfold decodeUtf8
  rw [hencode, List.utf8Decode?_utf8Encode]
  simp

/-! ## The cursor of a page -/

theorem readCursor_payload (py : Python) (offset : ℕ) (now : Time) :
    readCursor py (unpadded (utf8 (dumpsCompact py (cursorPayload offset now)))) =
      some ((offset : ℤ), some (nowEpochSeconds now + PAGE_CURSOR_TTL_SECONDS)) := by
  have hprints : (cursorPayload offset now).Prints py := ⟨trivial, trivial, trivial⟩
  unfold readCursor
  rw [encodeAscii_unpadded]
  simp only [Option.bind_eq_bind, Option.bind_some]
  rw [a2bBase64_unpadded, Option.bind_some, decodeUtf8_utf8, Option.bind_some,
    readJson_dumpsCompact hprints]
  rfl

theorem decodePage_encodePage (py : Python) (offset : ℕ) (handed now : Time) :
    decodePage py (some (encodePage py offset handed)) now =
      if nowEpochSeconds handed + PAGE_CURSOR_TTL_SECONDS ≤ nowEpochSeconds now then
        .error ⟨400, "Expired page cursor"⟩
      else .ok offset := by
  have htext : (encodePage py offset handed).toList =
      PAGE_PREFIX.toList ++
        unpadded (utf8 (dumpsCompact py (cursorPayload offset handed))) := by
    simp [encodePage, unpadded]
  have hne : encodePage py offset handed ≠ "" := by
    intro hempty
    rw [hempty] at htext
    cases htext
  have hprefix : startswith (encodePage py offset handed) PAGE_PREFIX = true := by
    unfold startswith
    rw [htext, List.isPrefixOf_iff_prefix]
    exact List.prefix_append _ _
  have hpayload : (encodePage py offset handed).toList.drop PAGE_PREFIX.length =
      unpadded (utf8 (dumpsCompact py (cursorPayload offset handed))) := by
    rw [htext]
    exact List.drop_left
  unfold decodePage
  simp only [hne, if_false, hprefix, Bool.not_true, Bool.false_eq_true, hpayload,
    readCursor_payload, Option.any_some, decide_eq_true_eq, Int.toNat_natCast]

/-! ## The cursors of a walk -/

/-- The cursors of the pages that are asked for at the given times. -/
def pageCodec (py : Python) (clock : ℕ → Time) : Codec String where
  encode request offset := encodePage py offset (clock request)
  decode request cursor := (decodePage py cursor (clock request)).toOption

/-- The page after this one is asked for before its cursor expires. -/
def InTime (clock : ℕ → Time) (request : ℕ) : Prop :=
  nowEpochSeconds (clock (request + 1)) <
    nowEpochSeconds (clock request) + PAGE_CURSOR_TTL_SECONDS

theorem pageCodec_accepts_iff
    {py : Python} {clock : ℕ → Time} {request offset : ℕ} :
    (pageCodec py clock).accepts request offset ↔ InTime clock request := by
  unfold Codec.accepts pageCodec InTime
  simp only [decodePage_encodePage]
  split
  next hexpired => simp [Except.toOption, Int.not_lt.mpr hexpired]
  next hvalid => simp [Except.toOption, Int.not_le.mp hvalid]

theorem pageCodec_faithful (py : Python) (clock : ℕ → Time) :
    (pageCodec py clock).Faithful := by
  refine ⟨fun _ => rfl, fun request offset => ?_⟩
  unfold Codec.accepts pageCodec
  simp only [decodePage_encodePage]
  split
  · exact Or.inr rfl
  · exact Or.inl rfl

section

variable {Item : Type}

/-- What the client sees of a list endpoint. -/
def served
    (endpoint : Time → Option String → Except HTTPException (ListResponse Item))
    (clock : ℕ → Time) (request : ℕ) (page : Option String) :
    Option (Page String Item) :=
  (endpoint (clock request) page).toOption.map fun response =>
    { items := response.data
      next := response.nextPage }

/-- A client of the endpoint ends up with these items. -/
def WalkReturns
    (endpoint : Time → Option String → Except HTTPException (ListResponse Item))
    (clock : ℕ → Time) (items : List Item) : Prop :=
  Collects (served endpoint clock) items

/-- Every cursor that a walk over so many items needs is used in time. -/
def WalkedInTime (clock : ℕ → Time) (limit : Option ℤ) (count : ℕ)
    (maxLimit : ℤ := MAX_LIMIT) : Prop :=
  ∀ step, (step + 1) * pageSizeOf limit maxLimit < count → InTime clock step

theorem pageSizeOf_pos (limit : Option ℤ) (maxLimit : ℤ) :
    0 < pageSizeOf limit maxLimit := by
  unfold pageSizeOf
  cases limit with
  | none => exact (by decide : 0 < DEFAULT_LIMIT.toNat)
  | some value =>
      dsimp only
      omega

variable [HasId Item]

theorem served_paginate
    (py : Python) (allItems : List Item) (limit : Option ℤ) (maxLimit : ℤ)
    (clock : ℕ → Time) :
    served (fun now page => paginate py now allItems limit page maxLimit) clock =
      serve (pageCodec py clock) allItems (pageSizeOf limit maxLimit) := by
  funext request cursor
  unfold served serve paginate pageCodec
  dsimp only
  cases decodePage py cursor (clock request) <;> rfl

/-- A walk returns all items if its cursors are used in time. -/
theorem walkReturns_paginate_iff
    {py : Python} {allItems items : List Item} {limit : Option ℤ} {maxLimit : ℤ}
    {clock : ℕ → Time} :
    WalkReturns (fun now page => paginate py now allItems limit page maxLimit) clock
        items ↔
      items = allItems ∧ WalkedInTime clock limit allItems.length maxLimit := by
  unfold WalkReturns
  rw [served_paginate,
    (pageCodec_faithful py clock).collects_iff (pageSizeOf_pos limit maxLimit)]
  simp only [pageCodec_accepts_iff]
  rfl

end

end ManagedAgents
