import ManagedAgents.SessionState

/-!
# Memory paths

A memory is addressed by a path, given as a text or as a list of segments.
The path key is the path without its outer slashes.  The Unicode tables of the
interpreter are left as functions.
-/

namespace ManagedAgents

/-- The interpreter with its `unicodedata` module. -/
structure Interpreter extends Python where
  normalizeNfc : String → String
  category : Char → String

/-- `text.encode("utf-8")`. -/
def utf8 (text : String) : List UInt8 :=
  text.toList.flatMap String.utf8EncodeChar

/-- `text.split("/")`. -/
def splitSlashes (text : String) : List String :=
  (text.toList.splitOn '/').map String.ofList

/-- `"/".join(parts)`. -/
def joinSlashes (parts : List String) : String :=
  String.ofList (['/'].intercalate (parts.map String.toList))

/-- `text.removeprefix("/")`. -/
def removeSlash (text : String) : String :=
  match text.toList with
  | '/' :: rest => String.ofList rest
  | _ => text

/-- `text.strip("/")`. -/
def stripSlashes (text : String) : String :=
  String.ofList
    ((text.toList.dropWhile (· = '/')).reverse.dropWhile (· = '/')).reverse

def MAX_MEMORY_PATH_BYTES : ℕ := 1024

def hasControlOrFormatCharacters (py : Interpreter) (value : String) : Bool :=
  value.toList.any fun char => py.category char = "Cc" || py.category char = "Cf"

def validateMemoryPathText (py : Interpreter) (path : String) :
    Except HTTPException Unit :=
  let segments := (splitSlashes path).tail
  if !startswith path "/" then
    .error ⟨422, "Memory path must start with '/'"⟩
  else if (utf8 path).length > MAX_MEMORY_PATH_BYTES then
    .error ⟨422, "Memory path must be at most 1024 bytes"⟩
  else if py.normalizeNfc path ≠ path then
    .error ⟨422, "Memory path must be NFC-normalized"⟩
  else if segments = [] ∨ segments = [""] then
    .error ⟨422, "Memory path cannot be empty"⟩
  else if segments.any (· = "") then
    .error ⟨422, "Memory path must not contain empty segments"⟩
  else if segments.any (· ∈ [".", ".."]) then
    .error ⟨422, "Memory path must not contain '.' or '..' segments"⟩
  else if segments.any (hasControlOrFormatCharacters py) then
    .error ⟨422, "Memory path must not contain control or format characters"⟩
  else .ok ()

/-- The segments of the value before the path is put together. -/
def memoryPathParts (py : Interpreter) : Json → Except HTTPException (List String)
  | .null => .error ⟨422, "Memory path is required"⟩
  | .str value => do
      validateMemoryPathText py (strip value)
      return splitSlashes (removeSlash (strip value))
  | .list items =>
      .ok ((items.map fun part => strip (py.str part)).filter (· ≠ ""))
  | _ => .error ⟨422, "Memory path must be a string or array"⟩

def normalizeMemoryPath (py : Interpreter) (value : Json) :
    Except HTTPException String := do
  let parts ← memoryPathParts py value
  if parts = [] then
    throw ⟨422, "Memory path cannot be empty"⟩
  if parts.any fun part => '/' ∈ part.toList then
    throw ⟨422, "Memory path array items cannot contain '/'"⟩
  let path := "/" ++ joinSlashes parts
  validateMemoryPathText py path
  return path

def pathKey (path : String) : String :=
  stripSlashes path

end ManagedAgents
