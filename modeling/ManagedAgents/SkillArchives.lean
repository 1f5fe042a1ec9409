import ManagedAgents.Cron
import ManagedAgents.JsonText
import ManagedAgents.NormalizedPaths
import ManagedAgents.Skills

/-!
# Archives of skills

The files of an upload, the front matter of its `SKILL.md` and the archive that is
stored for them.  An archive is the list of its members, in the order in which they
were written.
-/

namespace ManagedAgents

open Fallible

/-! ## Texts -/

/-- How many bytes follow the first one of a character, and the bounds of the next. -/
def utf8Head (first : UInt8) : Option (ℕ × UInt8 × UInt8) :=
  if first < 0x80 then some (0, 0x80, 0xBF)
  else if 0xC2 ≤ first ∧ first ≤ 0xDF then some (1, 0x80, 0xBF)
  else if first = 0xE0 then some (2, 0xA0, 0xBF)
  else if first = 0xED then some (2, 0x80, 0x9F)
  else if 0xE1 ≤ first ∧ first ≤ 0xEF then some (2, 0x80, 0xBF)
  else if first = 0xF0 then some (3, 0x90, 0xBF)
  else if first = 0xF4 then some (3, 0x80, 0x8F)
  else if 0xF1 ≤ first ∧ first ≤ 0xF3 then some (3, 0x80, 0xBF)
  else none

/-- The following bytes as far as they are valid. -/
def utf8Following : ℕ → UInt8 → UInt8 → List UInt8 → List UInt8
  | count + 1, low, high, next :: rest =>
      if low ≤ next ∧ next ≤ high then next :: utf8Following count 0x80 0xBF rest else []
  | _, _, _, _ => []

def utf8Code (first : UInt8) (following : List UInt8) : ℕ :=
  let bits := if following = [] then 7 else 6 - following.length
  following.foldl (fun code byte => code * 64 + byte.toNat % 64) (first.toNat % 2 ^ bits)

def utf8Chars : ℕ → List UInt8 → List Char
  | count + 1, first :: rest =>
      match utf8Head first with
      | none => Char.ofNat 0xFFFD :: utf8Chars count rest
      | some (length, low, high) =>
          let following := utf8Following length low high rest
          let char :=
            if following.length = length then Char.ofNat (utf8Code first following)
            else Char.ofNat 0xFFFD
          char :: utf8Chars count (rest.drop following.length)
  | _, _ => []

/-- `raw.decode("utf-8", errors="replace")`. -/
def decodeReplace (raw : List UInt8) : String :=
  String.ofList (utf8Chars raw.length raw)

def isLineBoundary (char : Char) : Bool :=
  char.toNat ∈ [10, 11, 12, 13, 28, 29, 30, 133, 8232, 8233]

/-- The lines of the characters; the ones before them in the line are reversed. -/
def linesAfter : List Char → List Char → List String
  | [], [] => []
  | line, [] => [String.ofList line.reverse]
  | line, '\r' :: '\n' :: rest => String.ofList line.reverse :: linesAfter [] rest
  | line, char :: rest =>
      if isLineBoundary char then String.ofList line.reverse :: linesAfter [] rest
      else linesAfter (char :: line) rest

/-- `text.splitlines()`. -/
def splitlines (text : String) : List String :=
  linesAfter [] text.toList

/-- `text.strip(char)`. -/
def stripChar (char : Char) (text : String) : String :=
  String.ofList
    ((text.toList.dropWhile (· = char)).reverse.dropWhile (· = char)).reverse

/-! ## Front matter -/

/-- One line between the marks. -/
def addFrontmatterLine (frontmatter : Dict) (line : String) :
    Except HTTPException Dict :=
  let stripped := strip line
  if stripped = "" ∨ startswith stripped "#" then .ok frontmatter
  else
    match splitOnce ':' stripped with
    | none => .error ⟨422, "SKILL.md frontmatter must use key: value lines"⟩
    | some (key, value) =>
        let cleanValue := stripChar '\'' (stripChar '"' (strip value))
        .ok (Dict.set frontmatter (strip key) (.str cleanValue))

def parseSkillFrontmatter (raw : List UInt8) : Except HTTPException Dict :=
  match splitlines (decodeReplace raw) with
  | [] => .error ⟨422, "SKILL.md must start with YAML frontmatter"⟩
  | first :: lines =>
      if strip first ≠ "---" then
        .error ⟨422, "SKILL.md must start with YAML frontmatter"⟩
      else if lines.any fun line => strip line = "---" then
        (lines.takeWhile fun line => strip line ≠ "---").foldlM addFrontmatterLine []
      else .error ⟨422, "SKILL.md frontmatter must be closed with ---"⟩

/-! ## Files of an upload -/

structure SkillFile where
  filename : String
  raw : List UInt8
  mimeType : Json
deriving DecidableEq

def normalizeZipPath (filename : String) : Except HTTPException String :=
  let raw := String.ofList (filename.toList.map fun c => if c = '\\' then '/' else c)
  if startswith raw "/" then .error ⟨422, "Skill file paths must be relative"⟩
  else
    let parts := splitSlashes raw
    if parts.any (· ∈ ["", ".", ".."]) then
      .error ⟨422, "Skill file paths must not contain empty, . or .. segments"⟩
    else .ok (textOr (joinSlashes parts) "file")

def validateSkillFiles (uploadedFiles : List SkillFile) : Except HTTPException Dict := do
  raiseIf (uploadedFiles.length = 0) ⟨422, "Skill uploads must include files"⟩
  let normalizedPaths ← uploadedFiles.mapM fun file => normalizeZipPath file.filename
  let pathParts := normalizedPaths.map splitSlashes
  raiseIf (pathParts.any fun parts => parts.length < 2)
    ⟨422, "Skill files must live under one top-level directory"⟩
  let topLevel := (pathParts.headD []).headD ""
  raiseIf (pathParts.any fun parts => parts.headD "" ≠ topLevel)
    ⟨422, "Skill files must share one top-level directory"⟩
  let skillPath := topLevel ++ "/SKILL.md"
  match uploadedFiles.find? fun file =>
      (normalizeZipPath file.filename).toOption = some skillPath with
  | none => throw ⟨422, "Skill uploads must include root SKILL.md"⟩
  | some skillFile => do
      let frontmatter ← parseSkillFrontmatter skillFile.raw
      let missing := ["name", "description"].filter fun field =>
        !(Dict.get frontmatter field).truthy
      raiseIf (missing ≠ [])
        ⟨422, "SKILL.md frontmatter is missing required field(s): " ++
          ", ".intercalate missing⟩
      return Dict.set frontmatter "top_level_directory" (.str topLevel)

/-! ## Archives -/

/-- The name and the bytes of a member. -/
abbrev Member := String × List UInt8

/-- `ZipInfo` ends the name of a member at the first null character. -/
def zipInfoName (filename : String) : String :=
  String.ofList (filename.toList.takeWhile (· ≠ Char.ofNat 0))

def zipUploadedFiles (uploadedFiles : List SkillFile) :
    Except HTTPException (List Member) :=
  uploadedFiles.mapM fun file => do
    let filename ← normalizeZipPath file.filename
    return (zipInfoName filename, file.raw)

/-- Readers take the last member of a name. -/
def readMember (members : List Member) (name : String) : Option (List UInt8) :=
  (members.reverse.find? fun member => member.1 = name).map Prod.snd

/-! ## Requests -/

inductive FormValue
  | text (value : String)
  | file (filename : String) (raw : List UInt8) (contentType : Option String)

/-- The body of a request; the items of a form come in the order of the form. -/
inductive SkillBody
  | multipart (form : List (String × FormValue))
  | json (body : Json)

/-- A file is no JSON value; every use of it fails like that of a dictionary. -/
def FormValue.toJson : FormValue → Json
  | .text value => .str value
  | .file filename _ _ => .dict [("filename", .str filename)]

/-- `form.get(key)`: the last item of the key. -/
def formGet (form : List (String × FormValue)) (key : String) : Json :=
  match form.reverse.find? fun item => item.1 = key with
  | none => .null
  | some item => item.2.toJson

def uploadedFile (filename : String) (raw : List UInt8) (mimeType : Json) :
    Except HTTPException SkillFile := do
  let filename ← normalizeZipPath filename
  validateUploadContent ("Skill file " ++ filename) raw
  return { filename, raw, mimeType }

def formFiles (form : List (String × FormValue)) :
    Except HTTPException (List SkillFile) :=
  (form.filterMap fun item =>
    match item.2 with
    | .text _ => none
    | .file filename raw contentType => some (filename, raw, contentType)).mapM
    fun file => uploadedFile file.1 file.2.1 (optionalText file.2.2)

/-- One item of `bytes(values)`. -/
def byteOf : Json → Except HTTPException UInt8
  | .bool value => .ok (if value then 1 else 0)
  | .int value =>
      if 0 ≤ value ∧ value < 256 then .ok (UInt8.ofNat value.toNat)
      else .error internalServerError
  | _ => .error internalServerError

/-- `value.encode("utf-8") if isinstance(value, str) else bytes(value)`. -/
def rawBytes : Json → Except HTTPException (List UInt8)
  | .str value => .ok (utf8 value)
  | .bool value => .ok (if value then [0] else [])
  | .int value =>
      if value < 0 then .error internalServerError
      else .ok (List.replicate value.toNat 0)
  | .list values => values.mapM byteOf
  | .dict [] => .ok []
  | _ => .error internalServerError

def jsonFile (py : Python) (item : Dict) : Except HTTPException SkillFile := do
  let filename ← normalizeZipPath <| py.str
    (((Dict.get item "filename").or (Dict.get item "path")).or (.str "file"))
  let raw ← rawBytes
    (if Dict.contains item "content" then Dict.get item "content" else .str "")
  validateUploadContent ("Skill file " ++ filename) raw
  return { filename, raw, mimeType := Dict.get item "mime_type" }

/-- Other items than dictionaries are passed over. -/
def jsonFiles (py : Python) (items : List Json) : Except HTTPException (List SkillFile) :=
  (items.filterMap fun item =>
    match item with
    | .dict fields => some fields
    | _ => none).mapM (jsonFile py)

def fileRecord (file : SkillFile) : Json :=
  .dict
    [("filename", .str file.filename),
     ("mime_type", file.mimeType),
     ("size_bytes", .int file.raw.length)]

/-- The fields and the archive that `_skill_payload_from_request` returns. -/
structure SkillUpload where
  data : Dict
  members : List Member

def skillUploadFromRequest (py : Python) : SkillBody → Except HTTPException SkillUpload
  | .multipart form => do
      let files ← formFiles form
      let manifest ← if files.length = 0 then pure [] else validateSkillFiles files
      let members ← zipUploadedFiles files
      return {
        data :=
          [("display_title", formGet form "display_title"),
           ("name", Dict.get manifest "name"),
           ("description", Dict.get manifest "description"),
           ("files", .list (files.map fileRecord)),
           ("top_level_directory", Dict.get manifest "top_level_directory"),
           ("manifest", .dict manifest)]
        members := members }
  | .json (.dict body) =>
      match Dict.get body "files" with
      | .list (item :: items) => do
          let files ← jsonFiles py (item :: items)
          let manifest ← validateSkillFiles files
          let members ← zipUploadedFiles files
          return {
            data := Dict.update body
              [("name", (Dict.get body "name").or (Dict.get manifest "name")),
               ("description",
                (Dict.get body "description").or (Dict.get manifest "description")),
               ("files", .list (files.map fileRecord)),
               ("top_level_directory", Dict.get manifest "top_level_directory"),
               ("manifest", .dict manifest)]
            members := members }
      | _ => do
          let members ← zipUploadedFiles
            [{ filename := "manifest.json"
               raw := utf8 (dumpsCompact py (.dict body))
               mimeType := .str "application/json" }]
          return { data := body, members := members }
  | .json _ => .error internalServerError

end ManagedAgents
