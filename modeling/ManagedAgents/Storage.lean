import ManagedAgents.CivilDates
import ManagedAgents.Library.Segments
import ManagedAgents.MemoryPaths
import ManagedAgents.Runtime.Errors

/-!
# Object storage

The keys under which the bytes of files are stored.  A key is a path: the
workspace, a namespace, a category, the day and a name, each made safe.
-/

namespace ManagedAgents

/-- Characters of a text are checked one by one, not among all characters. -/
instance (priority := 2000) decidableForallMemChars (p : Char → Prop) [DecidablePred p]
    (chars : List Char) : Decidable (∀ char ∈ chars, p char) :=
  List.decidableBAll p chars

/-! ## Safe names -/

/-- `re.sub("[^...]+", "_", text)`: one underscore for each run of characters
outside the class; the flag says that the character before was outside. -/
def subRuns (allowed : Char → Bool) : Bool → List Char → List Char
  | _, [] => []
  | inRun, char :: rest =>
      if allowed char then char :: subRuns allowed false rest
      else if inRun then subRuns allowed true rest
      else '_' :: subRuns allowed true rest

/-- `[A-Za-z0-9._-]`. -/
def isFilenameChar (char : Char) : Bool :=
  char.isAlphanum || char = '.' || char = '_' || char = '-'

/-- `[A-Za-z0-9._=-]`. -/
def isPathChar (char : Char) : Bool :=
  isFilenameChar char || char = '='

/-- `text or fallback`. -/
def textOr (text fallback : String) : String :=
  if text = "" then fallback else text

def safeFilename (value : String) : String :=
  let candidate := strip (((splitSlashes (textOr value "object")).getLastD ""))
  textOr (String.ofList
    ((subRuns isFilenameChar false candidate.toList).take 180)) "object"

def safePathPart (value : String) : String :=
  textOr (String.ofList ((subRuns isPathChar false (strip value).toList).take 120)) "oma"

/-! ## Keys -/

/-- A text of hexadecimal digits: a digest or the `hex` of a UUID. -/
structure HexText where
  text : String
  digits : ∀ char ∈ text.toList, char.isAlphanum = true
deriving DecidableEq

/-- What a key is made of; the name is made unique by the digest of the content,
and by a new identifier where it is not known. -/
structure KeyRequest where
  nameSpace : String
  category : String
  filename : String
  contentSha256 : Option HexText := none
  now : Time
  uuidHex : HexText

def KeyRequest.unique (request : KeyRequest) : String :=
  match request.contentSha256 with
  | some digest =>
      if digest.text = "" then "obj_" ++ request.uuidHex.text
      else String.ofList (digest.text.toList.take 16)
  | none => "obj_" ++ request.uuidHex.text

def objectKey (workspaceId : String) (request : KeyRequest) : String :=
  let safeWorkspace := safePathPart workspaceId
  let safeNamespace := safePathPart (textOr request.nameSpace "oma")
  let safeCategory := safePathPart (textOr request.category "general")
  let safeName := safeFilename request.filename
  "workspaces/" ++ safeWorkspace ++ "/" ++ safeNamespace ++ "/" ++ safeCategory ++ "/" ++
    isoDate request.now ++ "/" ++ request.unique ++ "_" ++ safeName

/-! ## Staged uploads -/

structure PresignFileBody where
  filename : String
  mimeType : String := "application/octet-stream"
  nameSpace : String := "oma"
  expiresIn : ℤ := 900

/-- The key which `presign_file_upload` hands out. -/
def presignedKey (workspaceId : String) (now : Time) (uuidHex : HexText)
    (body : PresignFileBody) : String :=
  objectKey workspaceId
    { nameSpace := body.nameSpace, category := "staged-uploads",
      filename := body.filename, now := now, uuidHex := uuidHex }

def notStaged : HTTPException :=
  ⟨422, "Only staged upload keys for the current workspace can be completed"⟩

def validateStagedUploadKey (workspaceId key : String) : Except HTTPException Unit :=
  let workspacePrefix := "workspaces/" ++ workspaceId ++ "/"
  if !startswith key workspacePrefix ||
      !occursIn "/staged-uploads/".toList key.toList then
    .error notStaged
  else .ok ()

end ManagedAgents
