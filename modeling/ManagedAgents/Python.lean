import Mathlib.Data.Rat.Defs
import Mathlib.Tactic

/-!
# Python values

The program stores and exchanges JSON values and reads them with Python's
dictionary, truth and conversion rules.  This file fixes those rules.  Text
which the interpreter renders or parses (`repr`, `float`, `json.loads`, …)
is left as the functions of a `Python` record: every result below holds
whatever they return.
-/

namespace ManagedAgents

/-- Microseconds since the epoch, in UTC. -/
abbrev Time := ℕ

/-- The values of a Python `float`. -/
inductive PyFloat
  | nan
  | inf (negative : Bool)
  | finite (value : ℚ)
deriving DecidableEq, Repr

/-- A JSON value; dictionaries keep their keys in insertion order. -/
inductive Json
  | null
  | bool (value : Bool)
  | int (value : ℤ)
  | float (value : PyFloat)
  | str (value : String)
  | list (items : List Json)
  | dict (fields : List (String × Json))
deriving Inhabited

abbrev Dict := List (String × Json)

/-! ## Equality of JSON values -/

mutual

def Json.decEq : (left right : Json) → Decidable (left = right)
  | .null, .null => isTrue rfl
  | .bool a, .bool b => decidable_of_iff (a = b) (by simp)
  | .int a, .int b => decidable_of_iff (a = b) (by simp)
  | .float a, .float b => decidable_of_iff (a = b) (by simp)
  | .str a, .str b => decidable_of_iff (a = b) (by simp)
  | .list a, .list b =>
      haveI := Json.decEqItems a b
      decidable_of_iff (a = b) (by simp)
  | .dict a, .dict b =>
      haveI := Json.decEqFields a b
      decidable_of_iff (a = b) (by simp)
  | .null, .bool _ | .null, .int _ | .null, .float _ | .null, .str _
  | .null, .list _ | .null, .dict _
  | .bool _, .null | .bool _, .int _ | .bool _, .float _ | .bool _, .str _
  | .bool _, .list _ | .bool _, .dict _
  | .int _, .null | .int _, .bool _ | .int _, .float _ | .int _, .str _
  | .int _, .list _ | .int _, .dict _
  | .float _, .null | .float _, .bool _ | .float _, .int _ | .float _, .str _
  | .float _, .list _ | .float _, .dict _
  | .str _, .null | .str _, .bool _ | .str _, .int _ | .str _, .float _
  | .str _, .list _ | .str _, .dict _
  | .list _, .null | .list _, .bool _ | .list _, .int _ | .list _, .float _
  | .list _, .str _ | .list _, .dict _
  | .dict _, .null | .dict _, .bool _ | .dict _, .int _ | .dict _, .float _
  | .dict _, .str _ | .dict _, .list _ => isFalse (by simp)

def Json.decEqItems : (left right : List Json) → Decidable (left = right)
  | [], [] => isTrue rfl
  | [], _ :: _ => isFalse (by simp)
  | _ :: _, [] => isFalse (by simp)
  | x :: xs, y :: ys =>
      haveI := Json.decEq x y
      haveI := Json.decEqItems xs ys
      decidable_of_iff (x = y ∧ xs = ys) (by simp)

def Json.decEqFields : (left right : List (String × Json)) → Decidable (left = right)
  | [], [] => isTrue rfl
  | [], _ :: _ => isFalse (by simp)
  | _ :: _, [] => isFalse (by simp)
  | (k, x) :: xs, (l, y) :: ys =>
      haveI := Json.decEq x y
      haveI := Json.decEqFields xs ys
      decidable_of_iff (k = l ∧ x = y ∧ xs = ys) (by simp [and_assoc])

end

instance : DecidableEq Json := Json.decEq

/-! ## Dictionaries -/

/-- `d.get(key)`: the value under the key, `None` when it is missing. -/
def Dict.get (fields : Dict) (key : String) : Json :=
  match fields with
  | [] => .null
  | (k, value) :: rest => if k = key then value else Dict.get rest key

/-- `key in d`. -/
def Dict.contains (fields : Dict) (key : String) : Bool :=
  fields.any fun field => field.1 = key

/-- `d[key] = value`: an existing key keeps its position. -/
def Dict.set (fields : Dict) (key : String) (value : Json) : Dict :=
  match fields with
  | [] => [(key, value)]
  | (k, old) :: rest =>
      if k = key then (k, value) :: rest else (k, old) :: Dict.set rest key value

def Dict.setdefault (fields : Dict) (key : String) (value : Json) : Dict :=
  if Dict.contains fields key then fields else Dict.set fields key value

/-- `d.pop(key, None)`. -/
def Dict.pop (fields : Dict) (key : String) : Dict :=
  fields.filter fun field => field.1 ≠ key

/-- `{**fields, **update}`. -/
def Dict.update (fields update : Dict) : Dict :=
  update.foldl (fun merged field => Dict.set merged field.1 field.2) fields

@[simp] theorem Dict.get_set_same
    (fields : Dict) (key : String) (value : Json) :
    Dict.get (Dict.set fields key value) key = value := by
  induction fields with
  | nil => simp [Dict.set, Dict.get]
  | cons field rest ih =>
      by_cases hkey : field.1 = key <;>
        simp [Dict.set, Dict.get, hkey, ih]

@[simp] theorem Dict.get_set_other
    {fields : Dict} {key other : String} (value : Json)
    (hne : key ≠ other) :
    Dict.get (Dict.set fields key value) other = Dict.get fields other := by
  induction fields with
  | nil => simp [Dict.set, Dict.get, hne]
  | cons field rest ih =>
      by_cases hkey : field.1 = key
      · simp [Dict.set, Dict.get, hkey, hne]
      · by_cases hother : field.1 = other <;>
          simp [Dict.set, Dict.get, hkey, hother, ih, hne.symm]

theorem Dict.get_setdefault_other
    {fields : Dict} {key other : String} (value : Json)
    (hne : key ≠ other) :
    Dict.get (Dict.setdefault fields key value) other =
      Dict.get fields other := by
  unfold Dict.setdefault
  split
  · rfl
  · exact Dict.get_set_other value hne

/-! ## Truth and field access -/

/-- `bool(value)`. -/
def Json.truthy : Json → Bool
  | .null => false
  | .bool value => value
  | .int value => value ≠ 0
  | .float value => value ≠ .finite 0
  | .str value => value ≠ ""
  | .list items => !items.isEmpty
  | .dict fields => !fields.isEmpty

/-- `left or right`. -/
def Json.or (left right : Json) : Json :=
  if left.truthy then left else right

/-- `value.get(key)` on a dictionary; any other value has no fields. -/
def Json.get (value : Json) (key : String) : Json :=
  match value with
  | .dict fields => Dict.get fields key
  | _ => .null

/-! ## Strings -/

/-- `text.startswith(start)`. -/
def startswith (text start : String) : Bool :=
  start.toList.isPrefixOf text.toList

/-- The characters for which `str.isspace` holds. -/
def isspace (c : Char) : Bool :=
  let code := c.toNat
  (9 ≤ code && code ≤ 13) || (28 ≤ code && code ≤ 32) || code = 133 ||
    code = 160 || code = 5760 || (8192 ≤ code && code ≤ 8202) ||
    code = 8232 || code = 8233 || code = 8239 || code = 8287 || code = 12288

/-- `text.strip()`. -/
def strip (text : String) : String :=
  String.ofList
    ((text.toList.dropWhile isspace).reverse.dropWhile isspace).reverse

/-! ## Conversions -/

/-- The built-in exceptions a conversion raises. -/
inductive PyError
  | typeError
  | valueError
  | overflowError
deriving DecidableEq, Repr

/-- Functions of the interpreter and its standard library which render or
parse text.  A parser returns `none` where Python raises `ValueError`, and
`floatOfInt` where it raises `OverflowError`.  The lower case is that of texts
with other than ASCII characters. -/
structure Python where
  repr : Json → String
  lowerUnicode : String → String
  intOfStr : String → Option ℤ
  floatOfStr : String → Option PyFloat
  floatOfInt : ℤ → Option PyFloat
  loads : String → Option Json
  dumps : Json → String
  isoformat : Time → String

/-- `str(value)`. -/
def Python.str (py : Python) : Json → String
  | .null => "None"
  | .bool true => "True"
  | .bool false => "False"
  | .int value => toString value
  | .str value => value
  | value => py.repr value

/-- `int(value)` of a float: truncation towards zero. -/
def PyFloat.toInt : PyFloat → Except PyError ℤ
  | .nan => .error .valueError
  | .inf _ => .error .overflowError
  | .finite value => .ok (value.num.tdiv value.den)

/-- `int(value)`. -/
def Python.int (py : Python) : Json → Except PyError ℤ
  | .bool value => .ok (if value then 1 else 0)
  | .int value => .ok value
  | .float value => value.toInt
  | .str value =>
      match py.intOfStr value with
      | some parsed => .ok parsed
      | none => .error .valueError
  | .null | .list _ | .dict _ => .error .typeError

/-- `float(value)`. -/
def Python.float (py : Python) : Json → Except PyError PyFloat
  | .bool value => .ok (.finite (if value then 1 else 0))
  | .int value =>
      match py.floatOfInt value with
      | some converted => .ok converted
      | none => .error .overflowError
  | .float value => .ok value
  | .str value =>
      match py.floatOfStr value with
      | some parsed => .ok parsed
      | none => .error .valueError
  | .null | .list _ | .dict _ => .error .typeError

end ManagedAgents
