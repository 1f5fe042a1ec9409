import Mathlib.Data.List.TakeWhile
import ManagedAgents.Library.JsonString
import ManagedAgents.Python

/-!
# JSON text

`json.dumps` with the separators `,` and `:`, and a reader of JSON text.  The
text of a float is the interpreter's `repr`; every value whose floats are
printed as JSON numbers is read back from its text.
-/

namespace ManagedAgents

open JsonString

/-! ## Writing -/

def quoted (text : String) : List Char :=
  '"' :: (escape text.toList ++ ['"'])

def intText (value : ℤ) : List Char :=
  if value < 0 then '-' :: Nat.toDigits 10 value.natAbs
  else Nat.toDigits 10 value.natAbs

def floatText (py : Python) : PyFloat → List Char
  | .nan => "NaN".toList
  | .inf false => "Infinity".toList
  | .inf true => "-Infinity".toList
  | .finite value => (py.repr (.float (.finite value))).toList

mutual

def Json.text (py : Python) : Json → List Char
  | .null => "null".toList
  | .bool true => "true".toList
  | .bool false => "false".toList
  | .int value => intText value
  | .float value => floatText py value
  | .str value => quoted value
  | .list [] => ['[', ']']
  | .list (item :: items) => '[' :: (Json.text py item ++ Json.itemsText py items)
  | .dict [] => ['{', '}']
  | .dict ((key, value) :: fields) =>
      '{' :: (quoted key ++ ':' :: (Json.text py value ++ Json.fieldsText py fields))

/-- The items after the first and the closing bracket. -/
def Json.itemsText (py : Python) : List Json → List Char
  | [] => [']']
  | item :: items => ',' :: (Json.text py item ++ Json.itemsText py items)

def Json.fieldsText (py : Python) : List (String × Json) → List Char
  | [] => ['}']
  | (key, value) :: fields =>
      ',' :: (quoted key ++ ':' :: (Json.text py value ++ Json.fieldsText py fields))

end

/-- `json.dumps(value, separators=(",", ":"))`. -/
def dumpsCompact (py : Python) (value : Json) : String :=
  String.ofList (value.text py)

/-! ## Reading -/

def isJsonSpace (c : Char) : Bool := c = ' ' || c = '\n' || c = '\r' || c = '\t'

def skipJsonSpace (chars : List Char) : List Char := chars.dropWhile isJsonSpace

def isNumberChar (c : Char) : Bool :=
  c.isDigit || c = '-' || c = '+' || c = '.' || c = 'e' || c = 'E'

def dropSign : List Char → List Char
  | '+' :: rest => rest
  | '-' :: rest => rest
  | rest => rest

def isExponent : List Char → Bool
  | [] => true
  | c :: rest =>
      (c = 'e' || c = 'E') && dropSign rest ≠ [] &&
        (dropSign rest).all Char.isDigit

def isFraction : List Char → Bool
  | '.' :: rest =>
      rest.takeWhile Char.isDigit ≠ [] && isExponent (rest.dropWhile Char.isDigit)
  | rest => isExponent rest

def dropMinus : List Char → List Char
  | '-' :: rest => rest
  | rest => rest

/-- The grammar of JSON numbers. -/
def isNumber (token : List Char) : Bool :=
  let whole := (dropMinus token).takeWhile Char.isDigit
  (whole = ['0'] || (whole ≠ [] && whole.head? ≠ some '0')) &&
    isFraction ((dropMinus token).dropWhile Char.isDigit)

def isIntToken (token : List Char) : Bool :=
  token.all fun c => c.isDigit || c = '-'

def intOfToken : List Char → ℤ
  | '-' :: digits => -(Nat.ofDigitChars 10 digits 0 : ℤ)
  | digits => (Nat.ofDigitChars 10 digits 0 : ℤ)

def readNumber (py : Python) (chars : List Char) : Option (Json × List Char) :=
  let token := chars.takeWhile isNumberChar
  let rest := chars.dropWhile isNumberChar
  if !isNumber token then none
  else if isIntToken token then some (.int (intOfToken token), rest)
  else (py.floatOfStr (String.ofList token)).map fun value => (.float value, rest)

/-- The three values that are words. -/
def readWord (chars : List Char) : Option (Json × List Char) :=
  if "null".toList.isPrefixOf chars then some (.null, chars.drop 4)
  else if "true".toList.isPrefixOf chars then some (.bool true, chars.drop 4)
  else if "false".toList.isPrefixOf chars then some (.bool false, chars.drop 5)
  else none

/-- A key and the colon after it. -/
def readKey : List Char → Option (String × List Char)
  | '"' :: rest =>
      match readString rest with
      | none => none
      | some (key, rest) =>
          match skipJsonSpace rest with
          | ':' :: rest => some (String.ofList key, rest)
          | _ => none
  | _ => none

mutual

def readValue (py : Python) : ℕ → List Char → Option (Json × List Char)
  | 0, _ => none
  | fuel + 1, chars =>
      match skipJsonSpace chars with
      | [] => none
      | c :: rest =>
          if c = '"' then
            (readString rest).map fun read => (.str (String.ofList read.1), read.2)
          else if c = '[' then
            if (skipJsonSpace rest).head? = some ']' then
              some (.list [], (skipJsonSpace rest).tail)
            else (readItems py fuel rest).map fun read => (.list read.1, read.2)
          else if c = '{' then
            if (skipJsonSpace rest).head? = some '}' then
              some (.dict [], (skipJsonSpace rest).tail)
            else (readFields py fuel rest).map fun read => (.dict read.1, read.2)
          else
            match readWord (c :: rest) with
            | some read => some read
            | none => readNumber py (c :: rest)

def readItems (py : Python) : ℕ → List Char → Option (List Json × List Char)
  | 0, _ => none
  | fuel + 1, chars =>
      match readValue py fuel chars with
      | none => none
      | some (item, rest) =>
          match skipJsonSpace rest with
          | [] => none
          | c :: rest =>
              if c = ',' then
                (readItems py fuel rest).map fun read => (item :: read.1, read.2)
              else if c = ']' then some ([item], rest)
              else none

def readFields (py : Python) :
    ℕ → List Char → Option (List (String × Json) × List Char)
  | 0, _ => none
  | fuel + 1, chars =>
      match readKey (skipJsonSpace chars) with
      | none => none
      | some (key, rest) =>
          match readValue py fuel rest with
          | none => none
          | some (value, rest) =>
              match skipJsonSpace rest with
              | [] => none
              | c :: rest =>
                  if c = ',' then
                    (readFields py fuel rest).map fun read =>
                      ((key, value) :: read.1, read.2)
                  else if c = '}' then some ([(key, value)], rest)
                  else none

end

/-- The value of a JSON text; every value takes at least one character. -/
def readJson (py : Python) (text : String) : Option Json :=
  match readValue py (text.length + 1) text.toList with
  | none => none
  | some (value, rest) => if skipJsonSpace rest = [] then some value else none

/-! ## Numbers -/

theorem isDigit_toDigits (n : ℕ) : ∀ c ∈ Nat.toDigits 10 n, c.isDigit = true :=
  fun _ hc => Nat.isDigit_of_mem_toDigits (by decide) (by decide) hc

theorem toDigits_head (n : ℕ) (hn : n ≠ 0) :
    (Nat.toDigits 10 n).head? ≠ some '0' := by
  induction n using Nat.strong_induction_on with
  | _ n ih =>
      by_cases hlt : n < 10
      · rw [Nat.toDigits_of_lt_base hlt]
        have hdigits : ∀ digit < 10, digit ≠ 0 →
            [Nat.digitChar digit].head? ≠ some '0' := by decide
        exact hdigits n hlt hn
      · rw [Nat.toDigits_of_base_le (by decide) (by omega)]
        have hrest := ih (n / 10) (by omega) (by omega)
        have hne : Nat.toDigits 10 (n / 10) ≠ [] := Nat.toDigits_ne_nil
        rwa [List.head?_append_of_ne_nil _ hne]

theorem digit_ne {c d : Char} (hc : c.isDigit = true) (hd : d.isDigit = false) :
    c ≠ d := by
  rintro rfl
  rw [hc] at hd
  cases hd

theorem dropMinus_digits
    {digits : List Char} (hdigits : ∀ c ∈ digits, c.isDigit = true) :
    dropMinus digits = digits := by
  unfold dropMinus
  split
  next rest =>
    have hminus := hdigits '-' List.mem_cons_self
    cases hminus
  next => rfl

theorem isNumber_toDigits (n : ℕ) :
    isNumber (Nat.toDigits 10 n) = true ∧
      isNumber ('-' :: Nat.toDigits 10 n) = true := by
  have hdigits := isDigit_toDigits n
  have htake : (Nat.toDigits 10 n).takeWhile Char.isDigit = Nat.toDigits 10 n :=
    List.takeWhile_eq_self_iff.mpr hdigits
  have hdrop : (Nat.toDigits 10 n).dropWhile Char.isDigit = [] :=
    List.dropWhile_eq_nil_iff.mpr hdigits
  have hne : Nat.toDigits 10 n ≠ [] := Nat.toDigits_ne_nil
  have hwhole : Nat.toDigits 10 n = ['0'] ∨
      (Nat.toDigits 10 n ≠ [] ∧ (Nat.toDigits 10 n).head? ≠ some '0') := by
    by_cases hn : n = 0
    · left
      rw [hn]
      rfl
    · exact Or.inr ⟨hne, toDigits_head n hn⟩
  have hminus : dropMinus ('-' :: Nat.toDigits 10 n) = Nat.toDigits 10 n := rfl
  unfold isNumber
  simp only [hminus, dropMinus_digits hdigits, htake, hdrop, isFraction, isExponent,
    Bool.and_true, Bool.or_eq_true, decide_eq_true_eq, Bool.and_eq_true, ne_eq,
    decide_not, Bool.not_eq_true', decide_eq_false_iff_not, and_self]
  exact hwhole

theorem intText_cases (value : ℤ) :
    (intText value = Nat.toDigits 10 value.natAbs ∧ (value.natAbs : ℤ) = value) ∨
      (intText value = '-' :: Nat.toDigits 10 value.natAbs ∧
        -(value.natAbs : ℤ) = value) := by
  unfold intText
  by_cases hneg : value < 0
  · right
    rw [if_pos hneg]
    exact ⟨rfl, by omega⟩
  · left
    rw [if_neg hneg]
    exact ⟨rfl, by omega⟩

theorem isNumber_intText (value : ℤ) : isNumber (intText value) = true := by
  rcases intText_cases value with ⟨htext, -⟩ | ⟨htext, -⟩
  · rw [htext]
    exact (isNumber_toDigits _).1
  · rw [htext]
    exact (isNumber_toDigits _).2

theorem isIntToken_intText (value : ℤ) : isIntToken (intText value) = true := by
  have hdigits := isDigit_toDigits value.natAbs
  unfold isIntToken
  rcases intText_cases value with ⟨htext, -⟩ | ⟨htext, -⟩
  · rw [htext, List.all_eq_true]
    intro c hc
    simp [hdigits c hc]
  · rw [htext, List.all_eq_true]
    intro c hc
    rcases List.mem_cons.mp hc with rfl | hc
    · rfl
    · simp [hdigits c hc]

theorem intOfToken_intText (value : ℤ) : intOfToken (intText value) = value := by
  have hdigits := isDigit_toDigits value.natAbs
  rcases intText_cases value with ⟨htext, hvalue⟩ | ⟨htext, hvalue⟩
  · rw [htext]
    unfold intOfToken
    split
    next rest hminus =>
      rw [hminus] at hdigits
      have hbad := hdigits '-' List.mem_cons_self
      cases hbad
    next =>
      rw [Nat.ofDigitChars_ten_toDigits]
      exact hvalue
  · rw [htext]
    change -(Nat.ofDigitChars 10 (Nat.toDigits 10 value.natAbs) 0 : ℤ) = value
    rw [Nat.ofDigitChars_ten_toDigits]
    exact hvalue

/-! ## Tokens -/

theorem dropSign_subset_chars
    {chars : List Char} (hdigits : (dropSign chars).all Char.isDigit = true) :
    ∀ c ∈ chars, isNumberChar c = true := by
  rw [List.all_eq_true] at hdigits
  have hdigit : ∀ c, c.isDigit = true → isNumberChar c = true := by
    intro c hc
    simp [isNumberChar, hc]
  unfold dropSign at hdigits
  split at hdigits
  all_goals intro c hc
  · rcases List.mem_cons.mp hc with rfl | hc
    · rfl
    · exact hdigit c (hdigits c hc)
  · rcases List.mem_cons.mp hc with rfl | hc
    · rfl
    · exact hdigit c (hdigits c hc)
  · exact hdigit c (hdigits c hc)

theorem isExponent_chars
    {chars : List Char} (hexponent : isExponent chars = true) :
    ∀ c ∈ chars, isNumberChar c = true := by
  cases chars with
  | nil => simp
  | cons e rest =>
      simp only [isExponent, Bool.and_eq_true, Bool.or_eq_true, decide_eq_true_eq]
        at hexponent
      obtain ⟨⟨he, -⟩, hdigits⟩ := hexponent
      intro c hc
      rcases List.mem_cons.mp hc with rfl | hc
      · rcases he with rfl | rfl
        · rfl
        · rfl
      · exact dropSign_subset_chars hdigits c hc

theorem takeWhile_digit_chars
    (chars : List Char) :
    ∀ c ∈ chars.takeWhile Char.isDigit, isNumberChar c = true := by
  intro c hc
  have hdigit := List.mem_takeWhile_imp hc
  simp [isNumberChar, hdigit]

theorem isFraction_chars
    {chars : List Char} (hfraction : isFraction chars = true) :
    ∀ c ∈ chars, isNumberChar c = true := by
  unfold isFraction at hfraction
  split at hfraction
  next rest =>
    rw [Bool.and_eq_true] at hfraction
    intro c hc
    rcases List.mem_cons.mp hc with rfl | hc
    · rfl
    · rw [← List.takeWhile_append_dropWhile (p := Char.isDigit) (l := rest)] at hc
      rcases List.mem_append.mp hc with hc | hc
      · exact takeWhile_digit_chars rest c hc
      · exact isExponent_chars hfraction.2 c hc
  next => exact isExponent_chars hfraction

theorem isNumber_chars
    {token : List Char} (hnumber : isNumber token = true) :
    ∀ c ∈ token, isNumberChar c = true := by
  unfold isNumber at hnumber
  rw [Bool.and_eq_true] at hnumber
  have hunsigned : ∀ c ∈ dropMinus token, isNumberChar c = true := by
    intro c hc
    rw [← List.takeWhile_append_dropWhile (p := Char.isDigit)
      (l := dropMinus token)] at hc
    rcases List.mem_append.mp hc with hc | hc
    · exact takeWhile_digit_chars _ c hc
    · exact isFraction_chars hnumber.2 c hc
  intro c hc
  by_cases hminus : c = '-'
  · rw [hminus]
    rfl
  · apply hunsigned c
    unfold dropMinus
    split
    · rcases List.mem_cons.mp hc with rfl | hc
      · exact absurd rfl hminus
      · exact hc
    · exact hc

/-- What follows a value is not read as a part of a number. -/
def NoNumberHead (rest : List Char) : Prop :=
  ∀ c ∈ rest.head?, isNumberChar c = false

theorem noNumberHead_cons {c : Char} {rest : List Char}
    (hc : isNumberChar c = false) : NoNumberHead (c :: rest) := by
  intro d hd
  obtain rfl : c = d := by simpa using hd
  exact hc

theorem token_append
    {token rest : List Char} (htoken : ∀ c ∈ token, isNumberChar c = true)
    (hrest : NoNumberHead rest) :
    (token ++ rest).takeWhile isNumberChar = token ∧
      (token ++ rest).dropWhile isNumberChar = rest := by
  rw [List.takeWhile_append_of_pos htoken, List.dropWhile_append_of_pos htoken]
  cases rest with
  | nil => simp
  | cons c rest =>
      have hc : isNumberChar c = false := hrest c rfl
      simp [hc]

/-! ## Values that print as JSON -/

/-- The interpreter prints the float as a JSON number with a fraction or an
exponent, and reads that number back as the float. -/
def FloatPrints (py : Python) : PyFloat → Prop
  | .finite value =>
      isNumber (py.repr (.float (.finite value))).toList = true ∧
        isIntToken (py.repr (.float (.finite value))).toList = false ∧
          py.floatOfStr (py.repr (.float (.finite value))) = some (.finite value)
  | _ => False

mutual

/-- The value is JSON: its floats are numbers which the interpreter prints. -/
def Json.Prints (py : Python) : Json → Prop
  | .float value => FloatPrints py value
  | .list items => Json.ItemsPrint py items
  | .dict fields => Json.FieldsPrint py fields
  | _ => True

def Json.ItemsPrint (py : Python) : List Json → Prop
  | [] => True
  | item :: items => Json.Prints py item ∧ Json.ItemsPrint py items

def Json.FieldsPrint (py : Python) : List (String × Json) → Prop
  | [] => True
  | (_, value) :: fields => Json.Prints py value ∧ Json.FieldsPrint py fields

end

/-- The text of the value is read back, whatever follows it. -/
def ReadsBack (py : Python) (value : Json) : Prop :=
  ∀ fuel rest, (value.text py).length ≤ fuel → NoNumberHead rest →
    readValue py fuel (value.text py ++ rest) = some (value, rest)

/-! ## The first character of a value -/

def StartsValue (chars : List Char) : Prop :=
  ∃ c rest, chars = c :: rest ∧ isJsonSpace c = false ∧ c ≠ ']'

theorem isNumber_head
    {token : List Char} (hnumber : isNumber token = true) :
    ∃ c rest, token = c :: rest ∧ (c.isDigit = true ∨ c = '-') := by
  cases token with
  | nil => cases hnumber
  | cons c rest =>
      refine ⟨c, rest, rfl, ?_⟩
      by_cases hminus : c = '-'
      · exact Or.inr hminus
      · left
        by_contra hdigit
        have hunsigned : dropMinus (c :: rest) = c :: rest := by
          unfold dropMinus
          split
          next heq => exact absurd (List.cons.inj heq).1 hminus
          next => rfl
        unfold isNumber at hnumber
        rw [hunsigned, List.takeWhile_cons_of_neg hdigit] at hnumber
        simp at hnumber

theorem number_char_ne
    {c : Char} (hc : c.isDigit = true ∨ c = '-') :
    isJsonSpace c = false ∧ c ≠ ']' ∧ c ≠ 'n' ∧ c ≠ 't' ∧ c ≠ 'f' ∧ c ≠ '"' ∧ c ≠ '[' ∧
      c ≠ '{' := by
  rcases hc with hdigit | rfl
  · have hne : ∀ d : Char, d.isDigit = false → c ≠ d := fun d hd => digit_ne hdigit hd
    refine ⟨?_, hne _ rfl, hne _ rfl, hne _ rfl, hne _ rfl, hne _ rfl, hne _ rfl,
      hne _ rfl⟩
    simp [isJsonSpace, hne ' ' rfl, hne '\n' rfl, hne '\r' rfl, hne '\t' rfl]
  · decide

theorem Json.text_startsValue
    {py : Python} {value : Json} (hprints : value.Prints py) :
    StartsValue (value.text py) := by
  have hnumber : ∀ token, isNumber token = true → StartsValue token := by
    intro token htoken
    obtain ⟨c, rest, htext, hc⟩ := isNumber_head htoken
    have hne := number_char_ne hc
    exact ⟨c, rest, htext, hne.1, hne.2.1⟩
  cases value with
  | null => exact ⟨_, _, by rw [Json.text]; rfl, by decide, by decide⟩
  | bool value =>
      cases value with
      | false => exact ⟨_, _, by rw [Json.text]; rfl, by decide, by decide⟩
      | true => exact ⟨_, _, by rw [Json.text]; rfl, by decide, by decide⟩
  | int value =>
      rw [Json.text]
      exact hnumber _ (isNumber_intText value)
  | float value =>
      rw [Json.text]
      cases value with
      | nan => exact hprints.elim
      | inf negative => exact hprints.elim
      | finite value => exact hnumber _ hprints.1
  | str value => exact ⟨_, _, by rw [Json.text]; rfl, by decide, by decide⟩
  | list items =>
      cases items with
      | nil => exact ⟨_, _, by rw [Json.text], by decide, by decide⟩
      | cons item items => exact ⟨_, _, by rw [Json.text], by decide, by decide⟩
  | dict fields =>
      cases fields with
      | nil => exact ⟨_, _, by rw [Json.text], by decide, by decide⟩
      | cons field fields =>
          obtain ⟨key, value⟩ := field
          exact ⟨_, _, by rw [Json.text], by decide, by decide⟩

theorem skipJsonSpace_startsValue
    {chars : List Char} (hstarts : StartsValue chars) (rest : List Char) :
    skipJsonSpace (chars ++ rest) = chars ++ rest := by
  obtain ⟨c, tail, rfl, hspace, -⟩ := hstarts
  simp [skipJsonSpace, hspace]

/-! ## Reading values back -/

section

variable {py : Python}

theorem readValue_number
    {token rest : List Char} (fuel : ℕ) (hnumber : isNumber token = true) :
    readValue py (fuel + 1) (token ++ rest) = readNumber py (token ++ rest) := by
  obtain ⟨c, tail, rfl, hc⟩ := isNumber_head hnumber
  obtain ⟨hspace, -, hn, ht, hf, hquote, hbracket, hbrace⟩ := number_char_ne hc
  have hskip : skipJsonSpace (c :: (tail ++ rest)) = c :: (tail ++ rest) := by
    simp [skipJsonSpace, hspace]
  have hword : readWord (c :: (tail ++ rest)) = none := by
    have hnull : "null".toList = ['n', 'u', 'l', 'l'] := rfl
    have htrue : "true".toList = ['t', 'r', 'u', 'e'] := rfl
    have hfalse : "false".toList = ['f', 'a', 'l', 's', 'e'] := rfl
    simp [readWord, hnull, htrue, hfalse, hn.symm, ht.symm, hf.symm]
  rw [List.cons_append, readValue, hskip]
  simp only [if_neg hquote, if_neg hbracket, if_neg hbrace, hword]

theorem readNumber_token
    {token rest : List Char} (hnumber : isNumber token = true)
    (hrest : NoNumberHead rest) :
    readNumber py (token ++ rest) =
      if isIntToken token then some (.int (intOfToken token), rest)
      else (py.floatOfStr (String.ofList token)).map fun value =>
        (.float value, rest) := by
  obtain ⟨htake, hdrop⟩ := token_append (isNumber_chars hnumber) hrest
  unfold readNumber
  simp only [htake, hdrop, hnumber, Bool.not_true, Bool.false_eq_true, if_false]

theorem readValue_token
    {token rest : List Char} {fuel : ℕ} (hnumber : isNumber token = true)
    (hfuel : token.length ≤ fuel) (hrest : NoNumberHead rest) :
    readValue py fuel (token ++ rest) =
      if isIntToken token then some (.int (intOfToken token), rest)
      else (py.floatOfStr (String.ofList token)).map fun value =>
        (.float value, rest) := by
  cases fuel with
  | zero =>
      obtain ⟨c, tail, rfl, -⟩ := isNumber_head hnumber
      simp at hfuel
  | succ fuel => rw [readValue_number fuel hnumber, readNumber_token hnumber hrest]

theorem readsBack_int (value : ℤ) : ReadsBack py (.int value) := by
  intro fuel rest hfuel hrest
  rw [Json.text] at hfuel ⊢
  rw [readValue_token (isNumber_intText value) hfuel hrest,
    if_pos (isIntToken_intText value), intOfToken_intText]

theorem readsBack_float {value : PyFloat} (hprints : FloatPrints py value) :
    ReadsBack py (.float value) := by
  cases value with
  | nan => exact hprints.elim
  | inf negative => exact hprints.elim
  | finite value =>
      have hnumber := hprints.1
      have hfloat := hprints.2.1
      have hreads := hprints.2.2
      intro fuel rest hfuel hrest
      have htext : Json.text py (.float (.finite value)) =
          (py.repr (.float (.finite value))).toList := by
        rw [Json.text]
        rfl
      rw [htext] at hfuel ⊢
      rw [readValue_token hnumber hfuel hrest, hfloat, String.ofList_toList, hreads]
      simp

/-- A text that opens with a quote is read as the string it quotes. -/
theorem readString_quoted (value : String) (rest : List Char) :
    ∃ chars, quoted value ++ rest = '"' :: chars ∧
      readString chars = some (value.toList, rest) := by
  refine ⟨escape value.toList ++ '"' :: rest, ?_, readString_escape _ _⟩
  unfold quoted
  simp

theorem skipJsonSpace_cons {c : Char} (rest : List Char) (hc : isJsonSpace c = false) :
    skipJsonSpace (c :: rest) = c :: rest := by
  simp [skipJsonSpace, hc]

theorem readsBack_str (value : String) : ReadsBack py (.str value) := by
  intro fuel rest hfuel _
  rw [Json.text] at hfuel ⊢
  obtain ⟨chars, htext, hread⟩ := readString_quoted value rest
  cases fuel with
  | zero => simp [quoted] at hfuel
  | succ fuel =>
      rw [htext, readValue, skipJsonSpace_cons chars rfl]
      simp [hread]

theorem readsBack_null : ReadsBack py .null := by
  intro fuel rest hfuel _
  rw [Json.text] at hfuel ⊢
  cases fuel with
  | zero => cases hfuel
  | succ fuel => rfl

theorem readsBack_bool (value : Bool) : ReadsBack py (.bool value) := by
  intro fuel rest hfuel _
  cases value with
  | false =>
      rw [Json.text] at hfuel ⊢
      cases fuel with
      | zero => cases hfuel
      | succ fuel => rfl
  | true =>
      rw [Json.text] at hfuel ⊢
      cases fuel with
      | zero => cases hfuel
      | succ fuel => rfl

/-! ## Lists and dictionaries -/

theorem itemsText_noNumberHead (items : List Json) (rest : List Char) :
    NoNumberHead (Json.itemsText py items ++ rest) := by
  cases items with
  | nil =>
      rw [Json.itemsText]
      exact noNumberHead_cons rfl
  | cons item items =>
      rw [Json.itemsText]
      exact noNumberHead_cons rfl

theorem fieldsText_noNumberHead
    (fields : List (String × Json)) (rest : List Char) :
    NoNumberHead (Json.fieldsText py fields ++ rest) := by
  cases fields with
  | nil =>
      rw [Json.fieldsText]
      exact noNumberHead_cons rfl
  | cons field fields =>
      obtain ⟨key, value⟩ := field
      rw [Json.fieldsText]
      exact noNumberHead_cons rfl

theorem itemsText_length_pos (items : List Json) :
    0 < (Json.itemsText py items).length := by
  cases items with
  | nil =>
      rw [Json.itemsText]
      exact Nat.succ_pos _
  | cons item items =>
      rw [Json.itemsText]
      exact Nat.succ_pos _

theorem readKey_text (key : String) (rest : List Char) :
    readKey (skipJsonSpace (quoted key ++ ':' :: rest)) = some (key, rest) := by
  obtain ⟨chars, htext, hread⟩ := readString_quoted key (':' :: rest)
  rw [htext, skipJsonSpace_cons chars rfl]
  simp only [readKey, hread, String.ofList_toList]
  rw [skipJsonSpace_cons rest rfl]
  rfl

/-- The items of a list are read back one after the other. -/
theorem readItems_text
    {item : Json} {items : List Json} {fuel : ℕ} (rest : List Char)
    (hread : ∀ other ∈ item :: items, ReadsBack py other)
    (hfuel : (item.text py ++ Json.itemsText py items).length ≤ fuel) :
    readItems py fuel (item.text py ++ (Json.itemsText py items ++ rest)) =
      some (item :: items, rest) := by
  induction items generalizing item fuel with
  | nil =>
      have hpos := @itemsText_length_pos py []
      rw [List.length_append] at hfuel
      cases fuel with
      | zero => omega
      | succ fuel =>
          have hitem := hread item List.mem_cons_self fuel
            (Json.itemsText py [] ++ rest) (by omega) (itemsText_noNumberHead [] rest)
          rw [readItems, hitem]
          simp [Json.itemsText, skipJsonSpace_cons rest (c := ']') rfl]
  | cons next items ih =>
      have hpos := @itemsText_length_pos py (next :: items)
      rw [List.length_append] at hfuel
      cases fuel with
      | zero => omega
      | succ fuel =>
          have hitem := hread item List.mem_cons_self fuel
            (Json.itemsText py (next :: items) ++ rest) (by omega)
            (itemsText_noNumberHead (next :: items) rest)
          have hlength : (next.text py ++ Json.itemsText py items).length ≤ fuel := by
            rw [Json.itemsText, List.length_cons] at hfuel
            omega
          have hnext := ih (fun other hother =>
            hread other (List.mem_cons_of_mem _ hother)) hlength
          rw [readItems, hitem, Json.itemsText, List.cons_append, List.append_assoc]
          simp [skipJsonSpace_cons _ (c := ',') rfl, hnext]

theorem readFields_text
    {key : String} {value : Json} {fields : List (String × Json)} {fuel : ℕ}
    (rest : List Char)
    (hread : ∀ field ∈ (key, value) :: fields, ReadsBack py field.2)
    (hfuel : (quoted key ++ ':' :: (value.text py ++
      Json.fieldsText py fields)).length ≤ fuel) :
    readFields py fuel
        (quoted key ++ ':' :: (value.text py ++ (Json.fieldsText py fields ++ rest))) =
      some ((key, value) :: fields, rest) := by
  induction fields generalizing key value fuel with
  | nil =>
      simp only [List.length_append, List.length_cons] at hfuel
      cases fuel with
      | zero => omega
      | succ fuel =>
          have hvalue := hread (key, value) List.mem_cons_self fuel
            (Json.fieldsText py [] ++ rest) (by simp only; omega)
            (fieldsText_noNumberHead [] rest)
          rw [readFields, readKey_text]
          simp only [hvalue]
          simp [Json.fieldsText, skipJsonSpace_cons rest (c := '}') rfl]
  | cons next fields ih =>
      obtain ⟨nextKey, nextValue⟩ := next
      simp only [List.length_append, List.length_cons] at hfuel
      cases fuel with
      | zero => omega
      | succ fuel =>
          have hvalue := hread (key, value) List.mem_cons_self fuel
            (Json.fieldsText py ((nextKey, nextValue) :: fields) ++ rest)
            (by simp only; omega)
            (fieldsText_noNumberHead ((nextKey, nextValue) :: fields) rest)
          have hlength : (quoted nextKey ++ ':' :: (nextValue.text py ++
              Json.fieldsText py fields)).length ≤ fuel := by
            rw [Json.fieldsText, List.length_cons] at hfuel
            omega
          have hnext := ih (fun other hother =>
            hread other (List.mem_cons_of_mem _ hother)) hlength
          rw [readFields, readKey_text]
          simp only [hvalue]
          rw [Json.fieldsText, List.cons_append, skipJsonSpace_cons _ rfl]
          simp only [List.append_assoc, List.cons_append, if_true, hnext, Option.map_some]

theorem readsBack_list
    {items : List Json} (hread : ∀ item ∈ items, ReadsBack py item)
    (hprints : Json.ItemsPrint py items) : ReadsBack py (.list items) := by
  intro fuel rest hfuel _
  cases items with
  | nil =>
      rw [Json.text] at hfuel ⊢
      cases fuel with
      | zero => cases hfuel
      | succ fuel =>
          simp [readValue, skipJsonSpace_cons (']' :: rest) (c := '[') rfl,
            skipJsonSpace_cons rest (c := ']') rfl]
  | cons item items =>
      rw [Json.text] at hfuel ⊢
      cases fuel with
      | zero => cases hfuel
      | succ fuel =>
          rw [List.length_cons] at hfuel
          have hitems := readItems_text rest hread (Nat.le_of_succ_le_succ hfuel)
          have hstarts := Json.text_startsValue hprints.1
          have hskip :=
            skipJsonSpace_startsValue hstarts (Json.itemsText py items ++ rest)
          obtain ⟨c, tail, htext, -, hbracket⟩ := hstarts
          have hhead : (item.text py ++ (Json.itemsText py items ++ rest)).head? ≠
              some ']' := by
            rw [htext]
            simpa using hbracket
          rw [List.cons_append, List.append_assoc, readValue, skipJsonSpace_cons _ rfl]
          simp only [Char.reduceEq, if_false, if_true, hskip, if_neg hhead, hitems,
            Option.map_some]

theorem readsBack_dict
    {fields : List (String × Json)}
    (hread : ∀ field ∈ fields, ReadsBack py field.2) :
    ReadsBack py (.dict fields) := by
  intro fuel rest hfuel _
  cases fields with
  | nil =>
      rw [Json.text] at hfuel ⊢
      cases fuel with
      | zero => cases hfuel
      | succ fuel =>
          simp [readValue, skipJsonSpace_cons ('}' :: rest) (c := '{') rfl,
            skipJsonSpace_cons rest (c := '}') rfl]
  | cons field fields =>
      obtain ⟨key, value⟩ := field
      rw [Json.text] at hfuel ⊢
      cases fuel with
      | zero => cases hfuel
      | succ fuel =>
          rw [List.length_cons] at hfuel
          have hfields := readFields_text rest hread (Nat.le_of_succ_le_succ hfuel)
          obtain ⟨chars, htext, -⟩ := readString_quoted key
            (':' :: (value.text py ++ (Json.fieldsText py fields ++ rest)))
          have hskip : skipJsonSpace (quoted key ++
              ':' :: (value.text py ++ (Json.fieldsText py fields ++ rest))) =
                '"' :: chars := by
            rw [htext, skipJsonSpace_cons chars rfl]
          simp only [List.cons_append, List.append_assoc]
          rw [readValue, skipJsonSpace_cons _ rfl]
          simp [hskip, hfields]

end

mutual

/-- Every JSON value is read back from its text. -/
theorem Json.readsBack (py : Python) :
    (value : Json) → value.Prints py → ReadsBack py value
  | .null, _ => readsBack_null
  | .bool value, _ => readsBack_bool value
  | .int value, _ => readsBack_int value
  | .float _, hprints => readsBack_float hprints
  | .str value, _ => readsBack_str value
  | .list items, hprints => readsBack_list (Json.itemsReadBack py items hprints) hprints
  | .dict fields, hprints => readsBack_dict (Json.fieldsReadBack py fields hprints)

theorem Json.itemsReadBack (py : Python) :
    (items : List Json) → Json.ItemsPrint py items →
      ∀ item ∈ items, ReadsBack py item
  | [], _ => by simp
  | first :: items, hprints => by
      intro item hitem
      rcases List.mem_cons.mp hitem with hfirst | hitem
      · rw [hfirst]
        exact Json.readsBack py first hprints.1
      · exact Json.itemsReadBack py items hprints.2 item hitem

theorem Json.fieldsReadBack (py : Python) :
    (fields : List (String × Json)) → Json.FieldsPrint py fields →
      ∀ field ∈ fields, ReadsBack py field.2
  | [], _ => by simp
  | (key, value) :: fields, hprints => by
      intro field hfield
      rcases List.mem_cons.mp hfield with hfirst | hfield
      · rw [hfirst]
        exact Json.readsBack py value hprints.1
      · exact Json.fieldsReadBack py fields hprints.2 field hfield

end

/-- The text of `json.dumps` decodes to the value it was written for. -/
theorem readJson_dumpsCompact
    {py : Python} {value : Json} (hprints : value.Prints py) :
    readJson py (dumpsCompact py value) = some value := by
  have hread := Json.readsBack py value hprints ((value.text py).length + 1) []
    (Nat.le_succ _) (by simp [NoNumberHead])
  rw [List.append_nil] at hread
  unfold readJson dumpsCompact
  rw [String.toList_ofList, String.length_ofList, hread]
  rfl

/-! ## Printable text -/

theorem isNumberChar_printable {c : Char} (hc : isNumberChar c = true) :
    IsPrintable c := by
  simp only [isNumberChar, Bool.or_eq_true, decide_eq_true_eq] at hc
  rcases hc with ((((hdigit | rfl) | rfl) | rfl) | rfl) | rfl
  · simp only [Char.isDigit, Bool.and_eq_true, decide_eq_true_eq, UInt32.le_iff_toNat_le]
      at hdigit
    unfold IsPrintable
    change 48 ≤ c.toNat ∧ c.toNat ≤ 57 at hdigit
    omega
  all_goals decide

def AllPrintable (chars : List Char) : Prop := ∀ c ∈ chars, IsPrintable c

theorem AllPrintable.append
    {front back : List Char} (hfront : AllPrintable front)
    (hback : AllPrintable back) : AllPrintable (front ++ back) := by
  intro c hc
  rcases List.mem_append.mp hc with hc | hc
  · exact hfront c hc
  · exact hback c hc

theorem AllPrintable.cons
    {c : Char} {rest : List Char} (hc : IsPrintable c) (hrest : AllPrintable rest) :
    AllPrintable (c :: rest) := by
  intro d hd
  rcases List.mem_cons.mp hd with rfl | hd
  · exact hc
  · exact hrest d hd

theorem allPrintable_nil : AllPrintable [] := by
  intro c hc
  cases hc

theorem quoted_printable (value : String) : AllPrintable (quoted value) := by
  have hquote : IsPrintable '"' := by decide
  have hescape : AllPrintable (escape value.toList) := escape_printable _
  exact (hescape.append (allPrintable_nil.cons hquote)).cons hquote

theorem number_printable {token : List Char} (hnumber : isNumber token = true) :
    AllPrintable token :=
  fun c hc => isNumberChar_printable (isNumber_chars hnumber c hc)

mutual

theorem Json.text_printable (py : Python) :
    (value : Json) → value.Prints py → AllPrintable (value.text py)
  | .null, _ => by
      rw [Json.text]
      exact printable_of_all rfl
  | .bool true, _ => by
      rw [Json.text]
      exact printable_of_all rfl
  | .bool false, _ => by
      rw [Json.text]
      exact printable_of_all rfl
  | .int value, _ => by
      rw [Json.text]
      exact number_printable (isNumber_intText value)
  | .float value, hprints => by
      rw [Json.text]
      cases value with
      | nan => exact hprints.elim
      | inf negative => exact hprints.elim
      | finite value => exact number_printable hprints.1
  | .str value, _ => by
      rw [Json.text]
      exact quoted_printable value
  | .list [], _ => by
      rw [Json.text]
      exact printable_of_all rfl
  | .list (item :: items), hprints => by
      rw [Json.text]
      have hitem := Json.text_printable py item hprints.1
      have hitems := Json.itemsText_printable py items hprints.2
      exact (hitem.append hitems).cons (by decide)
  | .dict [], _ => by
      rw [Json.text]
      exact printable_of_all rfl
  | .dict ((key, value) :: fields), hprints => by
      rw [Json.text]
      have hvalue := Json.text_printable py value hprints.1
      have hfields := Json.fieldsText_printable py fields hprints.2
      have hrest := (hvalue.append hfields).cons (show IsPrintable ':' by decide)
      exact ((quoted_printable key).append hrest).cons (by decide)

theorem Json.itemsText_printable (py : Python) :
    (items : List Json) → Json.ItemsPrint py items →
      AllPrintable (Json.itemsText py items)
  | [], _ => by
      rw [Json.itemsText]
      exact printable_of_all rfl
  | item :: items, hprints => by
      rw [Json.itemsText]
      have hitem := Json.text_printable py item hprints.1
      have hitems := Json.itemsText_printable py items hprints.2
      exact (hitem.append hitems).cons (by decide)

theorem Json.fieldsText_printable (py : Python) :
    (fields : List (String × Json)) → Json.FieldsPrint py fields →
      AllPrintable (Json.fieldsText py fields)
  | [], _ => by
      rw [Json.fieldsText]
      exact printable_of_all rfl
  | (key, value) :: fields, hprints => by
      rw [Json.fieldsText]
      have hvalue := Json.text_printable py value hprints.1
      have hfields := Json.fieldsText_printable py fields hprints.2
      have hrest := (hvalue.append hfields).cons (show IsPrintable ':' by decide)
      exact ((quoted_printable key).append hrest).cons (by decide)

end

end ManagedAgents
