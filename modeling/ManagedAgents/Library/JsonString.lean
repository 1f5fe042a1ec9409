import Mathlib.Data.List.Basic
import Mathlib.Tactic

/-!
# Strings in ASCII JSON text

A writer that keeps to ASCII escapes every other UTF-16 unit of a string as
`\u` and four hexadecimal digits; a reader undoes this and joins the two units
of a character outside of the basic plane.
-/

namespace JsonString

/-! ## UTF-16 -/

def isHighSurrogate (unit : ℕ) : Bool := 0xd800 ≤ unit && unit < 0xdc00

def isLowSurrogate (unit : ℕ) : Bool := 0xdc00 ≤ unit && unit < 0xe000

def units (c : Char) : List ℕ :=
  if c.toNat < 0x10000 then [c.toNat]
  else
    [0xd800 + (c.toNat - 0x10000) / 0x400, 0xdc00 + (c.toNat - 0x10000) % 0x400]

/-- The text of a list of units; a lone surrogate stands for no character. -/
def decodeUnits : List ℕ → Option (List Char)
  | [] => some []
  | [unit] =>
      if isHighSurrogate unit || isLowSurrogate unit then none
      else some [Char.ofNat unit]
  | unit :: next :: rest =>
      if isHighSurrogate unit then
        if isLowSurrogate next then
          (decodeUnits rest).map fun text =>
            Char.ofNat (0x10000 + (unit - 0xd800) * 0x400 + (next - 0xdc00)) :: text
        else none
      else if isLowSurrogate unit then none
      else (decodeUnits (next :: rest)).map fun text => Char.ofNat unit :: text

theorem char_bounds (c : Char) :
    c.toNat < 0xd800 ∨ (0xdfff < c.toNat ∧ c.toNat < 0x110000) :=
  c.valid

theorem decodeUnits_basic
    {unit : ℕ} (rest : List ℕ) (hhigh : isHighSurrogate unit = false)
    (hlow : isLowSurrogate unit = false) :
    decodeUnits (unit :: rest) =
      (decodeUnits rest).map fun text => Char.ofNat unit :: text := by
  cases rest with
  | nil => simp [decodeUnits, hhigh, hlow]
  | cons next rest => simp [decodeUnits, hhigh, hlow]

theorem decodeUnits_units (text : List Char) :
    decodeUnits (text.flatMap units) = some text := by
  induction text with
  | nil => rfl
  | cons c rest ih =>
      rw [List.flatMap_cons]
      have hbounds := char_bounds c
      by_cases hbasic : c.toNat < 0x10000
      · have hhigh : isHighSurrogate c.toNat = false := by
          simp only [isHighSurrogate, Bool.and_eq_false_iff, decide_eq_false_iff_not]
          omega
        have hlow : isLowSurrogate c.toNat = false := by
          simp only [isLowSurrogate, Bool.and_eq_false_iff, decide_eq_false_iff_not]
          omega
        rw [units, if_pos hbasic, List.singleton_append,
          decodeUnits_basic _ hhigh hlow, ih, Option.map_some, Char.ofNat_toNat]
      · have hhigh :
            isHighSurrogate (0xd800 + (c.toNat - 0x10000) / 0x400) = true := by
          simp only [isHighSurrogate, Bool.and_eq_true, decide_eq_true_eq]
          omega
        have hlow : isLowSurrogate (0xdc00 + (c.toNat - 0x10000) % 0x400) = true := by
          simp only [isLowSurrogate, Bool.and_eq_true, decide_eq_true_eq]
          omega
        have hjoin : 0x10000 + (0xd800 + (c.toNat - 0x10000) / 0x400 - 0xd800) * 0x400 +
            (0xdc00 + (c.toNat - 0x10000) % 0x400 - 0xdc00) = c.toNat := by
          omega
        rw [units, if_neg hbasic, List.cons_append, List.singleton_append, decodeUnits,
          if_pos hhigh, if_pos hlow, ih, hjoin, Option.map_some, Char.ofNat_toNat]

/-! ## Escapes -/

def hexDigits (unit : ℕ) : List Char :=
  [Nat.digitChar (unit / 4096 % 16), Nat.digitChar (unit / 256 % 16),
    Nat.digitChar (unit / 16 % 16), Nat.digitChar (unit % 16)]

/-- The characters which stand for themselves. -/
def isPlain (unit : ℕ) : Bool :=
  32 ≤ unit && unit ≤ 126 && unit ≠ '"'.toNat && unit ≠ '\\'.toNat

def escapeUnit (unit : ℕ) : List Char :=
  if isPlain unit then [Char.ofNat unit]
  else if unit = '"'.toNat then ['\\', '"']
  else if unit = '\\'.toNat then ['\\', '\\']
  else if unit = 10 then ['\\', 'n']
  else if unit = 13 then ['\\', 'r']
  else if unit = 9 then ['\\', 't']
  else if unit = 12 then ['\\', 'f']
  else if unit = 8 then ['\\', 'b']
  else '\\' :: 'u' :: hexDigits unit

/-- The text between the quotes. -/
def escape (text : List Char) : List Char :=
  (text.flatMap units).flatMap escapeUnit

def hexValue (c : Char) : Option ℕ :=
  if '0' ≤ c ∧ c ≤ '9' then some (c.toNat - '0'.toNat)
  else if 'a' ≤ c ∧ c ≤ 'f' then some (c.toNat - 'a'.toNat + 10)
  else if 'A' ≤ c ∧ c ≤ 'F' then some (c.toNat - 'A'.toNat + 10)
  else none

def hexUnit (a b c d : Char) : Option ℕ := do
  let a ← hexValue a
  let b ← hexValue b
  let c ← hexValue c
  let d ← hexValue d
  return ((a * 16 + b) * 16 + c) * 16 + d

def unescape (c : Char) : Option ℕ :=
  if c = '"' ∨ c = '\\' ∨ c = '/' then some c.toNat
  else if c = 'n' then some 10
  else if c = 'r' then some 13
  else if c = 't' then some 9
  else if c = 'f' then some 12
  else if c = 'b' then some 8
  else none

/-- The units up to the closing quote, and what follows it. -/
def readUnits : List Char → Option (List ℕ × List Char)
  | [] => none
  | '"' :: rest => some ([], rest)
  | '\\' :: 'u' :: a :: b :: c :: d :: rest =>
      match hexUnit a b c d with
      | none => none
      | some unit => (readUnits rest).map fun read => (unit :: read.1, read.2)
  | '\\' :: c :: rest =>
      match unescape c with
      | none => none
      | some unit => (readUnits rest).map fun read => (unit :: read.1, read.2)
  | c :: rest =>
      if c.toNat < 32 then none
      else (readUnits rest).map fun read => (units c ++ read.1, read.2)

/-- The string up to the closing quote, and what follows it. -/
def readString (chars : List Char) : Option (List Char × List Char) :=
  (readUnits chars).bind fun read =>
    (decodeUnits read.1).map fun text => (text, read.2)

theorem hexValue_digitChar {digit : ℕ} (hdigit : digit < 16) :
    hexValue (Nat.digitChar digit) = some digit := by
  revert digit
  decide

theorem hexUnit_hexDigits {unit : ℕ} (hunit : unit < 65536) :
    hexUnit (Nat.digitChar (unit / 4096 % 16)) (Nat.digitChar (unit / 256 % 16))
      (Nat.digitChar (unit / 16 % 16)) (Nat.digitChar (unit % 16)) = some unit := by
  have hmod : ∀ n : ℕ, n % 16 < 16 := fun n => Nat.mod_lt n (by decide)
  unfold hexUnit
  simp only [hexValue_digitChar (hmod _), Option.bind_eq_bind, Option.bind_some,
    Option.pure_def, Option.some.injEq]
  omega

theorem toNat_ofNat_of_lt {unit : ℕ} (hunit : unit < 127) :
    (Char.ofNat unit).toNat = unit := by
  revert unit
  decide

theorem readUnits_plain
    {c : Char} (hplain : isPlain c.toNat = true) (rest : List Char) :
    readUnits (c :: rest) =
      (readUnits rest).map fun read => (c.toNat :: read.1, read.2) := by
  simp only [isPlain, Bool.and_eq_true, decide_eq_true_eq] at hplain
  obtain ⟨⟨⟨hlow, hhigh⟩, hquote⟩, hslash⟩ := hplain
  have hunits : units c = [c.toNat] := if_pos (by omega)
  rw [readUnits, if_neg (by omega), hunits]
  · rfl
  · rintro rfl
    exact hquote rfl
  · rintro a b d e other rfl
    exact absurd rfl hslash
  · rintro a other rfl
    exact absurd rfl hslash

theorem readUnits_escapeUnit
    {unit : ℕ} (hunit : unit < 65536) (rest : List Char) :
    readUnits (escapeUnit unit ++ rest) =
      (readUnits rest).map fun read => (unit :: read.1, read.2) := by
  unfold escapeUnit
  by_cases hplain : isPlain unit = true
  · have hlt : unit < 127 := by
      simp only [isPlain, Bool.and_eq_true, decide_eq_true_eq] at hplain
      omega
    have hsame := toNat_ofNat_of_lt hlt
    rw [if_pos hplain]
    rw [← hsame] at hplain
    rw [List.singleton_append, readUnits_plain hplain, hsame]
  rw [if_neg hplain]
  by_cases hquote : unit = '"'.toNat
  · subst hquote
    rfl
  rw [if_neg hquote]
  by_cases hslash : unit = '\\'.toNat
  · subst hslash
    rfl
  rw [if_neg hslash]
  by_cases hshort : unit = 10 ∨ unit = 13 ∨ unit = 9 ∨ unit = 12 ∨ unit = 8
  · rcases hshort with rfl | rfl | rfl | rfl | rfl
    all_goals rfl
  · simp only [not_or] at hshort
    rw [if_neg hshort.1, if_neg hshort.2.1, if_neg hshort.2.2.1, if_neg hshort.2.2.2.1,
      if_neg hshort.2.2.2.2]
    unfold hexDigits
    simp only [List.cons_append, List.nil_append]
    rw [readUnits, hexUnit_hexDigits hunit]

theorem units_lt (c : Char) : ∀ unit ∈ units c, unit < 65536 := by
  have hbounds := char_bounds c
  intro unit hunit
  unfold units at hunit
  split at hunit
  · rw [List.mem_singleton.mp hunit]
    assumption
  · simp only [List.mem_cons, List.not_mem_nil, or_false] at hunit
    omega

theorem readUnits_escape
    {codes : List ℕ} (hcodes : ∀ unit ∈ codes, unit < 65536) (rest : List Char) :
    readUnits (codes.flatMap escapeUnit ++ '"' :: rest) = some (codes, rest) := by
  induction codes with
  | nil => rfl
  | cons unit codes ih =>
      have hrest := ih fun other hother => hcodes other (List.mem_cons_of_mem _ hother)
      rw [List.flatMap_cons, List.append_assoc,
        readUnits_escapeUnit (hcodes unit List.mem_cons_self), hrest]
      rfl

/-- An escaped string is read back. -/
theorem readString_escape (text rest : List Char) :
    readString (escape text ++ '"' :: rest) = some (text, rest) := by
  have hcodes : ∀ unit ∈ text.flatMap units, unit < 65536 := by
    intro unit hunit
    obtain ⟨c, -, hunit⟩ := List.mem_flatMap.mp hunit
    exact units_lt c unit hunit
  unfold readString escape
  rw [readUnits_escape hcodes, Option.bind_some, decodeUnits_units, Option.map_some]

/-! ## Printable text -/

/-- The character is one of ASCII from the space to the tilde. -/
def IsPrintable (c : Char) : Prop := 32 ≤ c.toNat ∧ c.toNat ≤ 126

instance (c : Char) : Decidable (IsPrintable c) :=
  inferInstanceAs (Decidable (_ ∧ _))

theorem printable_of_all
    {chars : List Char} (hall : (chars.all fun c => decide (IsPrintable c)) = true) :
    ∀ c ∈ chars, IsPrintable c := by
  simpa using hall

theorem digitChar_printable (digit : ℕ) (hdigit : digit < 16) :
    IsPrintable (Nat.digitChar digit) := by
  revert digit
  decide

theorem escapeUnit_printable (unit : ℕ) : ∀ c ∈ escapeUnit unit, IsPrintable c := by
  unfold escapeUnit
  split
  next hplain =>
    intro c hc
    simp only [isPlain, Bool.and_eq_true, decide_eq_true_eq] at hplain
    have hsame : (Char.ofNat unit).toNat = unit := toNat_ofNat_of_lt (by omega)
    rw [List.mem_singleton.mp hc]
    unfold IsPrintable
    omega
  · repeat' split
    any_goals exact printable_of_all rfl
    · have hdigit : ∀ n : ℕ, IsPrintable (Nat.digitChar (n % 16)) :=
        fun n => digitChar_printable _ (Nat.mod_lt n (by decide))
      intro c hc
      unfold hexDigits at hc
      simp only [List.mem_cons, List.not_mem_nil, or_false] at hc
      rcases hc with rfl | rfl | rfl | rfl | rfl | rfl
      · decide
      · decide
      all_goals exact hdigit _

theorem escape_printable (text : List Char) : ∀ c ∈ escape text, IsPrintable c := by
  intro c hc
  obtain ⟨unit, -, hc⟩ := List.mem_flatMap.mp hc
  exact escapeUnit_printable unit c hc

end JsonString
