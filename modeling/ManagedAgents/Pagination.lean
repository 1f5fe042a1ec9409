import Mathlib.Data.List.DropRight
import ManagedAgents.Credentials
import ManagedAgents.EventFrames
import ManagedAgents.Library.OffsetPages
import ManagedAgents.Responses

/-!
# Pagination

A list endpoint reads its rows, sorts and renders them, and cuts one page from
the result.  The cursor of the next page is an offset with a time at which it
expires, as JSON in the URL-safe variant of base64.
-/

namespace ManagedAgents

open Fallible

def DEFAULT_LIMIT : ℤ := 50
def MAX_LIMIT : ℤ := 1000
def PAGE_CURSOR_TTL_SECONDS : ℤ := 15 * 60

/-- `_limit`. -/
def pageSizeOf (value : Option ℤ) (maxLimit : ℤ := MAX_LIMIT) : ℕ :=
  match value with
  | none => DEFAULT_LIMIT.toNat
  | some value => (max 1 (min value maxLimit)).toNat

def nowEpochSeconds (now : Time) : ℤ := (now / 1000000 : ℕ)

/-! ## Cursors -/

/-- The characters of `urlsafe_b64encode` for those of `b64encode`. -/
def urlsafeChar (c : Char) : Char :=
  if c = '+' then '-' else if c = '/' then '_' else c

/-- The characters of `b64decode` for those of `urlsafe_b64decode`. -/
def plainChar (c : Char) : Char :=
  if c = '-' then '+' else if c = '_' then '/' else c

/-- `text.rstrip("=")`. -/
def rstripPadding (chars : List Char) : List Char :=
  chars.rdropWhile (· = '=')

def base64Alphabet : List Char :=
  "ABCDEFGHIJKLMNOPQRSTUVWXYZabcdefghijklmnopqrstuvwxyz0123456789+/".toList

def base64Value (c : Char) : Option ℕ := base64Alphabet.findIdx? (· = c)

/-- `binascii.a2b_base64`, at a position in a group of four, after so many signs
of padding and with the bits that are left of the last character.  Characters
outside the alphabet are skipped. -/
def a2bBase64 : ℕ → ℕ → ℕ → List Char → Option (List UInt8)
  | quadPos, _, _, [] => if quadPos = 0 then some [] else none
  | quadPos, pads, leftchar, c :: rest =>
      if c = '=' then
        if 2 ≤ quadPos ∧ 4 ≤ quadPos + (pads + 1) then some []
        else a2bBase64 quadPos (if 2 ≤ quadPos then pads + 1 else pads) leftchar rest
      else
        match base64Value c with
        | none => a2bBase64 quadPos pads leftchar rest
        | some value =>
            match quadPos with
            | 0 => a2bBase64 1 0 value rest
            | 1 =>
                (a2bBase64 2 0 (value % 16) rest).map
                  (UInt8.ofNat (leftchar * 4 + value / 16) :: ·)
            | 2 =>
                (a2bBase64 3 0 (value % 4) rest).map
                  (UInt8.ofNat (leftchar * 16 + value / 4) :: ·)
            | _ =>
                (a2bBase64 0 0 0 rest).map (UInt8.ofNat (leftchar * 64 + value) :: ·)

/-- `text.encode("ascii")`. -/
def encodeAscii (chars : List Char) : Option (List Char) :=
  if chars.all fun c => c.toNat < 128 then some chars else none

/-- `data.decode("utf-8")`. -/
def decodeUtf8 (data : List UInt8) : Option String :=
  data.toByteArray.utf8Decode?.map fun chars => String.ofList chars.toList

/-- The offset and the time of expiry of a cursor without its prefix. -/
def readCursor (py : Python) (payload : List Char) : Option (ℤ × Option ℤ) := do
  let ascii ← encodeAscii payload
  let decoded ← a2bBase64 0 0 0 ((ascii ++ ['=', '=', '=']).map plainChar)
  let text ← decodeUtf8 decoded
  match ← readJson py text with
  | .dict cursor =>
      let offset ← (py.int (Dict.get cursor "offset")).toOption
      let expiresAt ←
        match Dict.get cursor "expires_at" with
        | .null => some none
        | value => (py.int value).toOption.map some
      return (offset, expiresAt)
  | _ => none

def PAGE_PREFIX : String := "page_"

def decodePage (py : Python) (value : Option String) (now : Time) :
    Except HTTPException ℕ :=
  match value with
  | none => .ok 0
  | some value =>
      if value = "" then .ok 0
      else if !startswith value PAGE_PREFIX then .error ⟨400, "Invalid page cursor"⟩
      else
        match readCursor py (value.toList.drop PAGE_PREFIX.length) with
        | none => .error ⟨400, "Invalid page cursor"⟩
        | some (offset, expiresAt) =>
            if expiresAt.any (· ≤ nowEpochSeconds now) then
              .error ⟨400, "Expired page cursor"⟩
            else .ok offset.toNat

def cursorPayload (offset : ℕ) (now : Time) : Json :=
  .dict
    [("offset", .int offset),
     ("expires_at", .int (nowEpochSeconds now + PAGE_CURSOR_TTL_SECONDS))]

def encodePage (py : Python) (offset : ℕ) (now : Time) : String :=
  let payload := utf8 (dumpsCompact py (cursorPayload offset now))
  PAGE_PREFIX ++ String.ofList (rstripPadding ((b64encode payload).map urlsafeChar))

/-! ## Pages -/

structure ListResponse (Item : Type) where
  data : List Item
  hasMore : Bool
  firstId : Option String
  lastId : Option String
  nextPage : Option String
deriving DecidableEq

/-- The `id` of an item, a dictionary or an object with attributes, if it is a
text. -/
class HasId (Item : Type) where
  idOf : Item → Option String

def itemId (item : Dict) : Option String :=
  match Dict.get item "id" with
  | .str id => some id
  | _ => none

instance : HasId Dict := ⟨itemId⟩

def ListResponse.fromItems {Item : Type} [HasId Item] (items : List Item)
    (hasMore : Bool) (nextPage : Option String) : ListResponse Item where
  data := items
  hasMore := hasMore
  firstId := items.head?.bind HasId.idOf
  lastId := items.getLast?.bind HasId.idOf
  nextPage := nextPage

def paginate {Item : Type} [HasId Item] (py : Python) (now : Time)
    (allItems : List Item) (limit : Option ℤ) (page : Option String)
    (maxLimit : ℤ := MAX_LIMIT) : Except HTTPException (ListResponse Item) := do
  let pageSize := pageSizeOf limit maxLimit
  let offset ← decodePage py page now
  let sliced := (allItems.drop offset).take pageSize
  let nextOffset := offset + pageSize
  let nextPage :=
    if nextOffset < allItems.length then some (encodePage py nextOffset now) else none
  return ListResponse.fromItems sliced nextPage.isSome nextPage

/-! ## Pages around an item -/

section

variable {Item : Type} [HasId Item]

/-- `_index_of`. -/
def indexOf (items : List Item) (itemId : String) : Except HTTPException ℕ :=
  match items.findIdx? fun item => HasId.idOf item = some itemId with
  | some index => .ok index
  | none => .error ⟨400, "Invalid pagination cursor"⟩

/-- `_index_after`. -/
def indexAfter (items : List Item) (itemId : String) : Except HTTPException ℕ :=
  (indexOf items itemId).map (· + 1)

def paginateById (allItems : List Item) (limit : Option ℤ)
    (afterId beforeId : Option String) (maxLimit : ℤ := MAX_LIMIT) :
    Except HTTPException (ListResponse Item) := do
  -- an empty text counts as no cursor
  let afterId := afterId.filter (· ≠ "")
  let beforeId := beforeId.filter (· ≠ "")
  raiseIf (afterId ≠ none ∧ beforeId ≠ none)
    ⟨400, "Only one of after_id or before_id may be provided"⟩
  let pageSize := pageSizeOf limit maxLimit
  let offset ←
    match afterId, beforeId with
    | some afterId, _ => indexAfter allItems afterId
    | none, some beforeId => (indexOf allItems beforeId).map (· - pageSize)
    | none, none => .ok 0
  let sliced := (allItems.drop offset).take pageSize
  return ListResponse.fromItems sliced (offset + pageSize < allItems.length) none

end

/-! ## Order -/

def normalizeSortOrder (order : Option String) (default : String) :
    Except HTTPException String :=
  let normalized := String.ofList (lower ((order.filter (· ≠ "")).getD default))
  if normalized ∈ ["asc", "desc"] then .ok normalized
  else .error ⟨422, "order must be asc or desc"⟩

/-- `sorted(items, key=key, reverse=reverse)`, which is stable either way. -/
def sorted {Item Key : Type} [LinearOrder Key] (key : Item → Key) (reverse : Bool)
    (items : List Item) : List Item :=
  if reverse then items.insertionSort fun left right => key right ≤ key left
  else items.insertionSort fun left right => key left ≤ key right

theorem sorted_perm
    {Item Key : Type} [LinearOrder Key] (key : Item → Key) (reverse : Bool)
    (items : List Item) : (sorted key reverse items).Perm items := by
  unfold sorted
  split <;> exact List.perm_insertionSort _ items

def sortByCreatedAt (items : List Resource) (order : Option String) :
    Except HTTPException (List Resource) := do
  let order ← normalizeSortOrder order "desc"
  return sorted ManagedResource.age (order = "desc") items

end ManagedAgents
