import ManagedAgents.SessionResources

/-!
# Resources that a session is opened with

A new session, of a client or of a deployment run, gets its resources one after the
other.  Each file is copied on its own, and the rows of all are committed at once.
-/

namespace ManagedAgents

open SharedPrograms

/-! ## Opening a session -/

/-- `create_session_resource`, and what the caller does with its statements and rows. -/
def openSessionResource (context : AttachmentContext) (surroundings : Surroundings)
    (session : SessionRef) (position : ℕ) (created : List Resource) (data : Json)
    (next : List FileStatement → Resource → FileProgram) : FileProgram :=
  let insert (statements : List FileStatement) (resource : SessionResource) :=
    let row := sessionResourceRow (context.files position) session resource.name
      resource.data
    next (statements ++ [.insertResource row]) row
  let fileFields : Option Dict :=
    match data with
    | .dict fields =>
        if context.py.str ((Dict.get fields "type").or (.str "")) = "file" then some fields
        else none
    | _ => none
  ensureResourceCapacity session created data <|
  match fileFields with
  | some fields =>
      normalizeFileSessionResource context.py (context.files position) session fields
        fun sessionFile normalized =>
          insert [.insertFile sessionFile]
            { name := some sessionFile.id, data := normalized }
  | none =>
      -- A repository and a memory store have no object.
      attempt (normalizeSessionResourceData context surroundings session
        SESSION_RESOURCE_TYPES position data) (insert [])

def openSessionResources (context : AttachmentContext) (surroundings : ℕ → Surroundings)
    (session : SessionRef) :
    (position : ℕ) → List FileStatement → List Resource → List Json → FileProgram
  | _, statements, _, [] => commitAnd statements (.opened session.id)
  | position, statements, created, data :: rest =>
      openSessionResource context (surroundings position) session position created data
        fun more row =>
          openSessionResources context surroundings session (position + 1)
            (statements ++ more) (created ++ [row]) rest

/-! ## Requests -/

inductive FileRequest
  | upload (file : UploadFile)
  | stage (body : PresignFileBody) (content : List UInt8)
  | complete (body : CompleteFileBody)
  | delete (fileId : String)
  | openSession (session : SessionRef) (attachments : AttachmentContext)
    (surroundings : ℕ → Surroundings) (resources : List Json)
  | attach (session : SessionRef) (data : Dict)
  | remove (session : SessionRef) (resourceId : String)

/-- A request with the context in which it is handled. -/
structure FileCall where
  context : FileContext
  request : FileRequest

def FileCall.program (py : Python) (call : FileCall) : FileProgram :=
  match call.request with
  | .upload file => uploadFile call.context file
  | .stage body content => stageFile call.context body content
  | .complete body => completeFileUpload call.context body
  | .delete fileId => deleteFile call.context fileId
  | .openSession session attachments surroundings resources =>
      openSessionResources attachments surroundings session 0 [] [] resources
  | .attach session data => addSessionResource py call.context session data
  | .remove session resourceId => deleteSessionResource call.context session resourceId

end ManagedAgents
