import ManagedAgents.CommittedStates
import ManagedAgents.SessionOpenings

/-!
# Objects of files

Requests run at the same time and may stop between any two of their operations.
An object outlives the rows that point to it as long as no operation writes other
bytes under a key in use or deletes it, and this is what a deletion does: the
object of the last reference goes before the row.
-/

namespace ManagedAgents

open LabelledRuns SharedPrograms

/-! ## What a request has seen -/

/-- The keys which the request is about to use with the digest of the object there,
and the keys that it has read with the digest that it has seen. -/
structure FileKnowledge where
  held : List (String × HexText) := []
  read : List (String × HexText) := []

/-- The key and the digest of a row. -/
def FileRow.reference (file : FileRow) : List (String × HexText) :=
  match file.storageKey, file.sha256 with
  | some key, some sha256 => [(key, sha256)]
  | _, _ => []

theorem FileRow.mem_reference
    {file : FileRow} {key : String} {sha256 : HexText} :
    (key, sha256) ∈ file.reference ↔
      file.storageKey = some key ∧ file.sha256 = some sha256 := by
  unfold FileRow.reference
  split
  next hkey hsha256 => simp [hkey, hsha256, eq_comm]
  next hmissing =>
    refine iff_of_false (by simp) ?_
    rintro ⟨hkey, hsha256⟩
    exact hmissing _ _ hkey hsha256

/-- A commit is the last thing that a request does. -/
def FileKnowledge.learn (knowledge : FileKnowledge) (operation : FileOperation)
    (store : FileStore) : FileKnowledge :=
  match operation with
  | .findDuplicate workspaceId sha256 =>
      match findDeduplicatedFile store.files workspaceId sha256 with
      | some file => { knowledge with held := knowledge.held ++ file.reference }
      | none => knowledge
  | .findFile workspaceId fileId =>
      match getFile store.files workspaceId fileId with
      | some file => { knowledge with read := knowledge.read ++ file.reference }
      | none => knowledge
  | .downloadFile key =>
      match store.objects key with
      | some object =>
          { knowledge with read := knowledge.read ++ [(key, sha256Hex object.content)] }
      | none => knowledge
  | .put key object =>
      { knowledge with held := knowledge.held ++ [(key, sha256Hex object.content)] }
  | .copyFile source destination _ =>
      match store.objects source with
      | some object =>
          { knowledge with
            held := knowledge.held ++ [(destination, sha256Hex object.content)] }
      | none => knowledge
  | .commit _ => {}
  | _ => knowledge

/-- The object at the key has the digest. -/
def FileStore.HasDigest (store : FileStore) (key : String) (sha256 : HexText) : Prop :=
  ∃ object, store.objects key = some object ∧ sha256Hex object.content = sha256

def FileRow.HasObject (store : FileStore) (file : FileRow) : Prop :=
  ∃ key sha256, file.storageKey = some key ∧ file.sha256 = some sha256 ∧
    store.HasDigest key sha256

/-- Every live row has its object. -/
def FileStore.Complete (store : FileStore) : Prop :=
  ∀ file ∈ store.files, file.deletedAt = none → file.HasObject store

def FileKnowledge.Holds (store : FileStore) (knowledge : FileKnowledge) : Prop :=
  ∀ pair ∈ knowledge.held, store.HasDigest pair.1 pair.2

/-! ## The condition -/

abbrev FilePool :=
  Pool FileStore FileKnowledge FileOperation.Reply (Except HTTPException FileAnswer)

/-- Rows and requests that use the key use it for these bytes. -/
def FilePool.UsedFor (pool : FilePool) (key : String) (sha256 : HexText) : Prop :=
  (∀ file ∈ pool.shared.files, file.deletedAt = none → file.storageKey = some key →
    file.sha256 = some sha256) ∧
  ∀ process ∈ pool.processes, ∀ pair ∈ process.knowledge.held, pair.1 = key →
    pair.2 = sha256

/-- No live row and no request uses the key. -/
def FilePool.Unused (pool : FilePool) (key : String) : Prop :=
  (∀ file ∈ pool.shared.files, file.deletedAt = none → file.storageKey ≠ some key) ∧
  ∀ process ∈ pool.processes, ∀ pair ∈ process.knowledge.held, pair.1 ≠ key

/-- The source of a copy is what the request has read of it. -/
def FileKnowledge.Unchanged (knowledge : FileKnowledge) (key : String)
    (object : StoredObject) : Prop :=
  ∀ pair ∈ knowledge.read, pair.1 = key → pair.2 = sha256Hex object.content

/-- The operation takes no bytes from a key in use. -/
def FilePool.Careful (pool : FilePool) (knowledge : FileKnowledge) :
    FileOperation → Prop
  | .put key object => pool.UsedFor key (sha256Hex object.content)
  | .copyFile source destination _ =>
      ∀ object ∈ pool.shared.objects source,
        knowledge.Unchanged source object ∧
          pool.UsedFor destination (sha256Hex object.content)
  | .deleteStoredFile key => pool.Unused key
  | _ => True

instance (pool : FilePool) (key : String) (sha256 : HexText) :
    Decidable (pool.UsedFor key sha256) :=
  inferInstanceAs (Decidable (_ ∧ _))

instance (pool : FilePool) (key : String) : Decidable (pool.Unused key) :=
  inferInstanceAs (Decidable (_ ∧ _))

instance (knowledge : FileKnowledge) (key : String) (object : StoredObject) :
    Decidable (knowledge.Unchanged key object) :=
  inferInstanceAs (Decidable (∀ pair ∈ knowledge.read, _))

instance (pool : FilePool) (knowledge : FileKnowledge) :
    (operation : FileOperation) → Decidable (pool.Careful knowledge operation)
  | .put key _ => inferInstanceAs (Decidable (pool.UsedFor key _))
  | .copyFile source _ _ =>
      inferInstanceAs (Decidable (∀ object ∈ pool.shared.objects source, _))
  | .deleteStoredFile key => inferInstanceAs (Decidable (pool.Unused key))
  | .findFile .. | .findDuplicate .. | .countFiles .. | .listSessionResources ..
  | .findSessionResource .. | .getFileInfo _ | .downloadFile _ | .commit _ =>
      isTrue trivial

/-! ## What requests insert -/

/-- The request is about to use a key with the digest of the file. -/
def FileKnowledge.Holding (knowledge : FileKnowledge) (file : FileRow) : Prop :=
  ∃ key sha256, file.storageKey = some key ∧ file.sha256 = some sha256 ∧
    (key, sha256) ∈ knowledge.held

/-- The rows which the request is about to insert use such keys. -/
def FileKnowledge.HoldingAll (knowledge : FileKnowledge)
    (statements : List FileStatement) : Prop :=
  ∀ file, .insertFile file ∈ statements → knowledge.Holding file

def FileOperation.Justified (knowledge : FileKnowledge) (operation : FileOperation)
    (_ : FileStore) : Prop :=
  match operation with
  | .commit statements => knowledge.HoldingAll statements
  | _ => True

def FileOperation.Fits (knowledge : FileKnowledge) (operation : FileOperation)
    (store : FileStore) : Prop :=
  store.Complete ∧
    match operation with
    | .copyFile source _ _ =>
        ∀ object ∈ store.objects source, knowledge.Unchanged source object
    | _ => True

abbrev FileProgram.Justified (knowledge : FileKnowledge) (program : FileProgram) : Prop :=
  program.Follows FileStore.perform FileKnowledge.learn FileOperation.Fits
    FileOperation.Justified knowledge

theorem justified_raise (knowledge : FileKnowledge) (error : HTTPException) :
    FileProgram.Justified knowledge (raise error) := trivial

theorem justified_attempt
    {knowledge : FileKnowledge} {Value : Type} {check : Except HTTPException Value}
    {next : Value → FileProgram}
    (hnext : ∀ value, check = .ok value →
      FileProgram.Justified knowledge (next value)) :
    FileProgram.Justified knowledge (attempt check next) := by
  cases check with
  | error error => exact justified_raise _ _
  | ok value => exact hnext value rfl

theorem justified_ite
    {knowledge : FileKnowledge} {condition : Prop} [Decidable condition]
    {first second : FileProgram}
    (hfirst : FileProgram.Justified knowledge first)
    (hsecond : FileProgram.Justified knowledge second) :
    FileProgram.Justified knowledge (if condition then first else second) := by
  split
  · exact hfirst
  · exact hsecond

theorem justified_commitAnd
    {knowledge : FileKnowledge} {statements : List FileStatement} {answer : FileAnswer}
    (hstatements : knowledge.HoldingAll statements) :
    FileProgram.Justified knowledge (commitAnd statements answer) :=
  fun _ _ => ⟨hstatements, trivial⟩

theorem justified_insertFile
    {knowledge : FileKnowledge} {file : FileRow} {key : String} {sha256 : HexText}
    (hkey : file.storageKey = some key) (hsha256 : file.sha256 = some sha256)
    (hheld : (key, sha256) ∈ knowledge.held) :
    FileProgram.Justified knowledge (insertFile file) := by
  refine justified_commitAnd ?_
  intro inserted hinserted
  obtain rfl : inserted = file := by simpa using hinserted
  exact ⟨key, sha256, hkey, hsha256, hheld⟩

/-- What is copied is what the request has read. -/
theorem justified_copyFile
    {knowledge : FileKnowledge} {source destination : String}
    {contentType : Option String} {next : FileProgram} {error : HTTPException}
    (hnext : ∀ object, knowledge.Unchanged source object →
      FileProgram.Justified
        { knowledge with
          held := knowledge.held ++ [(destination, sha256Hex object.content)] } next) :
    FileProgram.Justified knowledge
      (.call (.copyFile source destination contentType) fun (copied : Bool) =>
        if copied then next else raise error) := by
  intro store hfits
  refine ⟨trivial, ?_⟩
  obtain hobject | ⟨object, hobject⟩ := (store.objects source).eq_none_or_eq_some
  · simp only [FileStore.perform, hobject]
    exact justified_raise _ _
  · simp only [FileKnowledge.learn, FileStore.perform, hobject, if_true]
    exact hnext object (hfits.2 object hobject)

theorem reference_of_duplicate
    {files : List FileRow} {workspaceId : String} {sha256 : HexText} {file : FileRow}
    (hfile : findDeduplicatedFile files workspaceId sha256 = some file) :
    ∃ key, file.storageKey = some key ∧ file.sha256 = some sha256 := by
  obtain ⟨-, hsha256, -, hstored⟩ := findDeduplicatedFile_eq_some hfile
  obtain ⟨key, hkey⟩ := Option.isSome_iff_exists.mp hstored
  exact ⟨key, storageKey_of_storedKey hkey, hsha256⟩

theorem uploadFile_justified (context : FileContext) (upload : UploadFile) :
    FileProgram.Justified {} (uploadFile context upload) := by
  unfold uploadFile
  refine justified_attempt fun _ _ => justified_attempt fun _ _ => ?_
  intro store _
  refine ⟨trivial, ?_⟩
  simp only [FileKnowledge.learn, FileStore.perform]
  cases hexisting : findDeduplicatedFile store.files context.workspaceId
      (sha256Hex upload.content) with
  | none =>
      cases context.settings.storage with
      | none => exact justified_raise _ _
      | some storage =>
          intro store _
          refine ⟨trivial, ?_⟩
          exact justified_insertFile (createFile_storageKey ..) (createFile_sha256 ..)
            (List.mem_append_right _ List.mem_cons_self)
  | some existing =>
      obtain ⟨key, hkey, hsha256⟩ := reference_of_duplicate hexisting
      refine @justified_insertFile _ _ key (sha256Hex upload.content) hkey ?_ ?_
      · rw [createFile_sha256, hsha256, Option.getD_some]
      · exact List.mem_append_right _ (FileRow.mem_reference.mpr ⟨hkey, hsha256⟩)

theorem finishUpload_justified
    {knowledge : FileKnowledge} (context : FileContext) (body : CompleteFileBody)
    (mimeType : String) (sizeBytes : ℤ) {sha256 : HexText} (existing : Option FileRow)
    {placement : Placement} {key : String} (hkey : placement.storageKey = some key)
    (hheld : (key, sha256) ∈ knowledge.held) :
    FileProgram.Justified knowledge
      (finishUpload context body mimeType sizeBytes sha256 existing placement) := by
  intro store _
  refine ⟨trivial, ?_⟩
  exact justified_insertFile hkey (createFile_sha256 ..) hheld

theorem completeFileUpload_justified (context : FileContext) (body : CompleteFileBody) :
    FileProgram.Justified {} (completeFileUpload context body) := by
  unfold completeFileUpload
  cases context.settings.storage with
  | none => exact justified_raise _ _
  | some storage =>
      refine justified_attempt fun _ _ => ?_
      intro store _
      refine ⟨trivial, ?_⟩
      simp only [FileKnowledge.learn, FileStore.perform]
      cases store.objects body.key with
      | none => exact justified_raise _ _
      | some info =>
          refine justified_attempt fun _ _ => ?_
          intro store _
          refine ⟨trivial, ?_⟩
          simp only [FileKnowledge.learn, FileStore.perform]
          cases store.objects body.key with
          | none => exact justified_raise _ _
          | some staged =>
              refine justified_attempt fun _ _ => justified_attempt fun _ _ => ?_
              intro store _
              refine ⟨trivial, ?_⟩
              simp only [FileKnowledge.learn, FileStore.perform]
              cases hexisting : findDeduplicatedFile store.files context.workspaceId
                  (sha256Hex staged.content) with
              | some existing =>
                  obtain ⟨key, hkey, hsha256⟩ := reference_of_duplicate hexisting
                  exact finishUpload_justified _ _ _ _ _ hkey
                    (List.mem_append_right _
                      (FileRow.mem_reference.mpr ⟨hkey, hsha256⟩))
              | none =>
                  refine justified_copyFile fun object hunchanged => ?_
                  -- the object is still the one that was downloaded
                  have hdigest := hunchanged (body.key, sha256Hex staged.content)
                    (by simp) rfl
                  exact finishUpload_justified _ _ _ _ _ (newPlacement_storageKey ..)
                    (by simp [← hdigest])

theorem stageFile_justified
    (context : FileContext) (body : PresignFileBody) (content : List UInt8) :
    FileProgram.Justified {} (stageFile context body content) :=
  fun _ _ => ⟨trivial, trivial⟩

theorem justified_commitRest
    {knowledge : FileKnowledge} {statements : List FileStatement} (answer : FileAnswer)
    (hstatements : ∀ file, .insertFile file ∉ statements) :
    FileProgram.Justified knowledge (commitAnd statements answer) :=
  justified_commitAnd fun file hfile => absurd hfile (hstatements file)

theorem freeObject_justified
    {knowledge : FileKnowledge} (context : FileContext) (workspaceId : String)
    (file : FileRow) {statements : List FileStatement} (answer : FileAnswer)
    (hstatements : ∀ file, .insertFile file ∉ statements) :
    FileProgram.Justified knowledge
      (freeObject context workspaceId file statements answer) := by
  unfold freeObject
  split
  next => exact justified_commitRest answer hstatements
  next key _ =>
    intro store _
    refine ⟨trivial, ?_⟩
    refine justified_ite ?_ (justified_commitRest answer hstatements)
    split
    next => exact justified_raise _ _
    next => exact fun _ _ => ⟨trivial, justified_commitRest answer hstatements⟩

theorem deleteFile_justified (context : FileContext) (fileId : String) :
    FileProgram.Justified {} (deleteFile context fileId) := by
  intro store _
  refine ⟨trivial, ?_⟩
  simp only [FileStore.perform]
  split
  next => exact justified_raise _ _
  next file _ => exact freeObject_justified context _ file _ (by simp)

theorem ensureCapacity_justified
    {knowledge : FileKnowledge} (session : SessionRef) (created : List Resource)
    (data : Json) {next : FileProgram}
    (hnext : FileProgram.Justified knowledge next) :
    FileProgram.Justified knowledge
      (ensureResourceCapacity session created data next) := by
  have hcounted : ∀ (resourceType : String) (limit : ℕ) (error : HTTPException)
      (next : FileProgram), FileProgram.Justified knowledge next →
        FileProgram.Justified knowledge
          (ensureCapacity session created data resourceType limit error next) := by
    intro resourceType limit error next hnext
    unfold ensureCapacity
    split
    · intro store _
      exact ⟨trivial, justified_ite (justified_raise _ _) hnext⟩
    · exact hnext
  exact hcounted _ _ _ _ (hcounted _ _ _ _ hnext)

theorem getFile_eq_some
    {files : List FileRow} {workspaceId fileId : String} {file : FileRow}
    (hfile : getFile files workspaceId fileId = some file) :
    file ∈ files ∧ file.deletedAt = none := by
  have hselected := List.find?_some hfile
  simp only [decide_eq_true_eq] at hselected
  exact ⟨List.mem_of_find?_eq_some hfile, hselected.2.2⟩

theorem normalizeFileSessionResource_justified
    (py : Python) (context : FileContext) (session : SessionRef) (data : Dict)
    (knowledge : FileKnowledge) {next : FileRow → Dict → FileProgram}
    (hnext : ∀ after : FileKnowledge, knowledge.held ⊆ after.held →
      ∀ sessionFile normalized, after.Holding sessionFile →
        FileProgram.Justified after (next sessionFile normalized)) :
    FileProgram.Justified knowledge
      (normalizeFileSessionResource py context session data next) := by
  unfold normalizeFileSessionResource
  refine justified_ite (justified_raise _ _) ?_
  intro store hfits
  refine ⟨trivial, ?_⟩
  obtain hfound | ⟨file, hfound⟩ := (getFile store.files session.workspaceId
    (py.str ((Dict.get data "file_id").or (.str "")))).eq_none_or_eq_some
  · simp only [FileStore.perform, hfound]
    exact justified_raise _ _
  · obtain ⟨hmem, hlive⟩ := getFile_eq_some hfound
    obtain ⟨rowKey, sha256, hrowKey, hsha256, -⟩ := hfits.1 file hmem hlive
    simp only [FileKnowledge.learn, FileStore.perform, hfound]
    refine justified_ite (justified_raise _ _) ?_
    split
    next => exact justified_raise _ _
    next => exact justified_raise _ _
    next source storage hsource _ =>
      have hkey := storageKey_of_storedKey hsource
      refine justified_copyFile fun object hunchanged => ?_
      -- the copy has the bytes that the row describes
      have hdigest := hunchanged (source, sha256)
        (List.mem_append_right _ (FileRow.mem_reference.mpr ⟨hkey, hsha256⟩)) rfl
      refine hnext _ (List.subset_append_left _ _) _ _ ⟨_, sha256, rfl, hsha256, ?_⟩
      simp [← hdigest]

theorem addSessionResource_justified
    (py : Python) (context : FileContext) (session : SessionRef) (data : Dict) :
    FileProgram.Justified {} (addSessionResource py context session data) := by
  refine ensureCapacity_justified _ _ _ (justified_ite (justified_raise _ _) ?_)
  refine normalizeFileSessionResource_justified py context session data _ ?_
  intro after _ sessionFile normalized hholding
  refine justified_commitAnd fun file hfile => ?_
  obtain rfl : file = sessionFile := by simpa using hfile
  exact hholding

theorem FileKnowledge.HoldingAll.append
    {before after : FileKnowledge} {statements more : List FileStatement}
    (hbefore : before.HoldingAll statements) (hgrown : before.held ⊆ after.held)
    (hmore : after.HoldingAll more) : after.HoldingAll (statements ++ more) := by
  intro file hfile
  rcases List.mem_append.mp hfile with hfile | hfile
  · obtain ⟨key, sha256, hkey, hsha256, hheld⟩ := hbefore file hfile
    exact ⟨key, sha256, hkey, hsha256, hgrown hheld⟩
  · exact hmore file hfile

theorem openSessionResource_justified
    {knowledge : FileKnowledge} (context : AttachmentContext)
    (surroundings : Surroundings) (session : SessionRef) (position : ℕ)
    (created : List Resource) (data : Json)
    {next : List FileStatement → Resource → FileProgram}
    (hnext : ∀ after : FileKnowledge, knowledge.held ⊆ after.held →
      ∀ statements row, after.HoldingAll statements →
        FileProgram.Justified after (next statements row)) :
    FileProgram.Justified knowledge
      (openSessionResource context surroundings session position created data next) := by
  unfold openSessionResource
  refine ensureCapacity_justified _ _ _ ?_
  split
  · refine normalizeFileSessionResource_justified _ _ _ _ _ ?_
    intro after hgrown sessionFile normalized hholding
    refine hnext after hgrown _ _ fun file hfile => ?_
    obtain rfl : file = sessionFile := by simpa using hfile
    exact hholding
  · refine justified_attempt fun resource _ => ?_
    exact hnext knowledge (List.Subset.refl _) _ _ fun file hfile => by simp at hfile

theorem openSessionResources_justified
    {knowledge : FileKnowledge} (context : AttachmentContext)
    (surroundings : ℕ → Surroundings) (session : SessionRef) (position : ℕ)
    {statements : List FileStatement} (created : List Resource) (resources : List Json)
    (hstatements : knowledge.HoldingAll statements) :
    FileProgram.Justified knowledge
      (openSessionResources context surroundings session position statements created
        resources) := by
  induction resources generalizing knowledge position statements created with
  | nil => exact justified_commitAnd hstatements
  | cons data rest ih =>
      refine openSessionResource_justified _ _ _ _ _ _ ?_
      intro after hgrown more row hmore
      exact ih _ _ (hstatements.append hgrown hmore)

theorem deleteSessionResourceFile_justified
    {knowledge : FileKnowledge} (context : FileContext) (resource : Resource)
    {statements : List FileStatement} (answer : FileAnswer)
    (hstatements : ∀ file, .insertFile file ∉ statements) :
    FileProgram.Justified knowledge
      (deleteSessionResourceFile context resource statements answer) := by
  have hrest := @justified_commitRest knowledge statements answer hstatements
  unfold deleteSessionResourceFile
  split
  next =>
    refine justified_ite hrest ?_
    intro store _
    refine ⟨trivial, ?_⟩
    simp only [FileStore.perform]
    split
    next => exact justified_commitRest answer hstatements
    next file _ =>
      exact justified_ite
        (freeObject_justified context _ file answer (by simpa using hstatements))
        (justified_commitRest answer hstatements)
  next => exact hrest

theorem deleteSessionResource_justified
    (context : FileContext) (session : SessionRef) (resourceId : String) :
    FileProgram.Justified {} (deleteSessionResource context session resourceId) := by
  intro store _
  refine ⟨trivial, ?_⟩
  simp only [FileStore.perform]
  split
  next => exact justified_raise _ _
  next resource _ =>
    exact justified_ite (justified_raise _ _)
      (deleteSessionResourceFile_justified context resource _ (by simp))

/-- A request inserts rows for objects that it has written or found. -/
theorem program_justified (py : Python) (call : FileCall) :
    FileProgram.Justified {} (call.program py) := by
  unfold FileCall.program
  cases call.request with
  | upload file => exact uploadFile_justified _ _
  | stage body content => exact stageFile_justified _ _ _
  | complete body => exact completeFileUpload_justified _ _
  | delete fileId => exact deleteFile_justified _ _
  | openSession session attachments surroundings resources =>
      exact openSessionResources_justified _ _ _ _ _ _
        (by simp [FileKnowledge.HoldingAll])
  | attach session data => exact addSessionResource_justified _ _ _ _
  | remove session resourceId => exact deleteSessionResource_justified _ _ _

/-! ## What an operation keeps -/

theorem hasDigest_write
    {store : FileStore} {key other : String} {object : StoredObject} {sha256 : HexText}
    (hdigest : store.HasDigest other sha256)
    (hused : other = key → sha256 = sha256Hex object.content) :
    (store.write key (some object)).HasDigest other sha256 := by
  by_cases hkey : other = key
  · refine ⟨object, ?_, (hused hkey).symm⟩
    rw [write_objects, hkey, Function.update_self]
  · obtain ⟨found, hfound, hsha256⟩ := hdigest
    refine ⟨found, ?_, hsha256⟩
    rw [write_objects, Function.update_of_ne hkey, hfound]

theorem hasDigest_delete
    {store : FileStore} {key other : String} {sha256 : HexText}
    (hdigest : store.HasDigest other sha256) (hkey : other ≠ key) :
    (store.write key none).HasDigest other sha256 := by
  obtain ⟨found, hfound, hsha256⟩ := hdigest
  refine ⟨found, ?_, hsha256⟩
  rw [write_objects, Function.update_of_ne hkey, hfound]

section

variable {pool : FilePool} {key : String} {object : StoredObject}

theorem complete_write
    (hcomplete : pool.shared.Complete)
    (hused : pool.UsedFor key (sha256Hex object.content)) :
    (pool.shared.write key (some object)).Complete := by
  intro file hfile hlive
  obtain ⟨fileKey, sha256, hkey, hsha256, hdigest⟩ := hcomplete file hfile hlive
  refine ⟨fileKey, sha256, hkey, hsha256, hasDigest_write hdigest ?_⟩
  rintro rfl
  exact Option.some.inj (hsha256.symm.trans (hused.1 file hfile hlive hkey))

theorem holds_write
    {process : Process FileKnowledge FileOperation.Reply
      (Except HTTPException FileAnswer)}
    (hprocess : process ∈ pool.processes)
    (hholds : process.knowledge.Holds pool.shared)
    (hused : pool.UsedFor key (sha256Hex object.content)) :
    process.knowledge.Holds (pool.shared.write key (some object)) :=
  fun pair hpair =>
    hasDigest_write (hholds pair hpair) (hused.2 process hprocess pair hpair)

theorem complete_delete
    (hcomplete : pool.shared.Complete) (hunused : pool.Unused key) :
    (pool.shared.write key none).Complete := by
  intro file hfile hlive
  obtain ⟨fileKey, sha256, hkey, hsha256, hdigest⟩ := hcomplete file hfile hlive
  refine ⟨fileKey, sha256, hkey, hsha256, hasDigest_delete hdigest ?_⟩
  rintro rfl
  exact hunused.1 file hfile hlive hkey

theorem holds_delete
    {process : Process FileKnowledge FileOperation.Reply
      (Except HTTPException FileAnswer)}
    (hprocess : process ∈ pool.processes)
    (hholds : process.knowledge.Holds pool.shared) (hunused : pool.Unused key) :
    process.knowledge.Holds (pool.shared.write key none) :=
  fun pair hpair =>
    hasDigest_delete (hholds pair hpair) (hunused.2 process hprocess pair hpair)

end

theorem HasDigest.congr
    {store next : FileStore} {key : String} {sha256 : HexText}
    (hobjects : next.objects = store.objects) :
    next.HasDigest key sha256 ↔ store.HasDigest key sha256 := by
  rw [FileStore.HasDigest, FileStore.HasDigest, hobjects]

theorem complete_commit
    {store next : FileStore} {knowledge : FileKnowledge}
    {statements : List FileStatement} (hcomplete : store.Complete)
    (hholds : knowledge.Holds store)
    (hjustified : (FileOperation.commit statements).Justified knowledge store)
    (hstatements : statements.foldlM FileStatement.execute store = some next) :
    next.Complete := by
  have hobjects := objects_of_statements hstatements
  intro file hfile hlive
  simp only [FileRow.HasObject, HasDigest.congr hobjects]
  rcases mem_files_of_statements hstatements hfile hlive with hold | hinserted
  · exact hcomplete file hold hlive
  · obtain ⟨key, sha256, hkey, hsha256, hheld⟩ := hjustified file hinserted
    exact ⟨key, sha256, hkey, hsha256, hholds _ hheld⟩

theorem holds_append
    {store : FileStore} {knowledge : FileKnowledge} {more : List (String × HexText)}
    (hholds : knowledge.Holds store)
    (hmore : ∀ pair ∈ more, store.HasDigest pair.1 pair.2) :
    FileKnowledge.Holds store { knowledge with held := knowledge.held ++ more } := by
  intro pair hpair
  rcases List.mem_append.mp hpair with hpair | hpair
  · exact hholds pair hpair
  · exact hmore pair hpair

theorem careful_preserved :
    Preserved FileStore.perform FileKnowledge.learn FileOperation.Justified
      FileStore.Complete FileKnowledge.Holds FilePool.Careful := by
  intro pool process operation hprocess hcomplete hholds hcareful hjustified
  have hown := hholds process hprocess
  cases operation with
  | countFiles | listSessionResources | findSessionResource | getFileInfo =>
      exact ⟨hcomplete, hholds, hown⟩
  | findFile workspaceId fileId =>
      refine ⟨hcomplete, hholds, ?_⟩
      simp only [FileKnowledge.learn]
      split
      · exact hown
      · exact hown
  | downloadFile key =>
      refine ⟨hcomplete, hholds, ?_⟩
      simp only [FileKnowledge.learn]
      split
      · exact hown
      · exact hown
  | findDuplicate workspaceId sha256 =>
      refine ⟨hcomplete, hholds, ?_⟩
      simp only [FileKnowledge.learn]
      split
      next file hfile =>
        refine holds_append hown fun pair hpair => ?_
        obtain ⟨hmem, -, hlive, -⟩ := findDeduplicatedFile_eq_some hfile
        obtain ⟨key, digest, hkey, hdigest, hobject⟩ := hcomplete file hmem hlive
        obtain ⟨hpairKey, hpairDigest⟩ := FileRow.mem_reference.mp hpair
        obtain rfl := Option.some.inj (hkey.symm.trans hpairKey)
        obtain rfl := Option.some.inj (hdigest.symm.trans hpairDigest)
        exact hobject
      next => exact hown
  | put key object =>
      refine ⟨complete_write hcomplete hcareful,
        fun other hother => holds_write hother (hholds other hother) hcareful, ?_⟩
      refine holds_append (holds_write hprocess hown hcareful) fun pair hpair => ?_
      obtain rfl := List.mem_singleton.mp hpair
      exact ⟨object, Function.update_self .., rfl⟩
  | copyFile source destination contentType =>
      obtain hobject | ⟨object, hobject⟩ :=
        (pool.shared.objects source).eq_none_or_eq_some
      · simp only [FileStore.perform, FileKnowledge.learn, hobject]
        exact ⟨hcomplete, hholds, hown⟩
      · have hused : FilePool.UsedFor pool destination
            (sha256Hex (object.copied contentType).content) :=
          (hcareful object hobject).2
        simp only [FileStore.perform, FileKnowledge.learn, hobject]
        refine ⟨complete_write hcomplete hused,
          fun other hother => holds_write hother (hholds other hother) hused, ?_⟩
        refine holds_append (holds_write hprocess hown hused) fun pair hpair => ?_
        obtain rfl := List.mem_singleton.mp hpair
        exact ⟨object.copied contentType, Function.update_self .., rfl⟩
  | deleteStoredFile key =>
      exact ⟨complete_delete hcomplete hcareful,
        fun other hother => holds_delete hother (hholds other hother) hcareful,
        holds_delete hprocess hown hcareful⟩
  | commit statements =>
      obtain hstatements | ⟨next, hstatements⟩ :=
        (statements.foldlM FileStatement.execute pool.shared).eq_none_or_eq_some
      · simp only [FileStore.perform, FileKnowledge.learn, hstatements]
        exact ⟨hcomplete, hholds, by simp [FileKnowledge.Holds]⟩
      · simp only [FileStore.perform, FileKnowledge.learn, hstatements]
        refine ⟨complete_commit hcomplete hown hjustified hstatements, ?_,
          by simp [FileKnowledge.Holds]⟩
        intro other hother pair hpair
        rw [HasDigest.congr (objects_of_statements hstatements)]
        exact hholds other hother pair hpair

theorem careful_fits
    (pool : FilePool) (knowledge : FileKnowledge) (operation : FileOperation)
    (hcomplete : pool.shared.Complete) (hcareful : pool.Careful knowledge operation) :
    operation.Fits knowledge pool.shared := by
  refine ⟨hcomplete, ?_⟩
  cases operation with
  | copyFile source destination contentType =>
      exact fun object hobject => (hcareful object hobject).1
  | _ => trivial

abbrev fileStep (py : Python) : FilePool → Event FileCall → Option FilePool :=
  SharedPrograms.step FileStore.perform FileKnowledge.learn {} (FileCall.program py)

/-- Live rows have their objects at every point of a run in which no operation takes
bytes from a key in use. -/
theorem live_files_have_objects
    {py : Python} {store : FileStore} {last : FilePool}
    {events : List (Event FileCall)} (hstart : store.Complete)
    (hcareful : AllSteps (fileStep py) (OnOperation FilePool.Careful)
      { shared := store, processes := [] } events)
    (hrun : run (fileStep py) { shared := store, processes := [] } events = some last) :
    last.shared.Complete := by
  refine run_invariant ?_ careful_fits careful_preserved hstart hcareful hrun
  intro state call
  exact ⟨by simp [FileKnowledge.Holds], program_justified py call⟩

def taggedFileContext (tag : HexText) : FileContext where
  settings := { storage := some ⟨"https://files"⟩, maxFileUploadBytes := 0 }
  workspaceId := "ws"
  supply := { uuidHex := fun _ => tag, clock := fun draw => draw }

def uploadCall (tag : HexText) : FileCall :=
  ⟨taggedFileContext tag, .upload { content := [7] }⟩

def deleteCall (tag : HexText) : FileCall :=
  ⟨taggedFileContext tag, .delete ("file_" ++ tag.text)⟩

/-- A session that is opened with the file of a row. -/
def openingCall (tag fileTag : HexText) : FileCall :=
  let attachments : AttachmentContext :=
    { py := samplePython, urlPath := fun url => .ok url,
      files := fun _ => taggedFileContext tag, clock := fun _ => 0 }
  let surroundings : Surroundings :=
    { agents := { agents := [], versions := [] }, environments := [], resources := [],
      files := [], copies := fun _ => true }
  let resource : Json :=
    .dict [("type", .str "file"), ("file_id", .str ("file_" ++ fileTag.text))]
  ⟨taggedFileContext tag,
    .openSession ⟨"sesn_1", "ws"⟩ attachments (fun _ => surroundings) [resource]⟩

def emptyFilePool : FilePool where
  shared := { files := [], resources := [], objects := fun _ => none }
  processes := []

theorem firstFileTag_digits : ∀ char ∈ "0a".toList, char.isAlphanum = true := by decide

def firstFileTag : HexText := ⟨"0a", firstFileTag_digits⟩

def secondFileTag : HexText := ⟨"0b", by decide⟩

def thirdFileTag : HexText := ⟨"0c", by decide⟩

/-- A file is deleted up to the deletion of its object. -/
def interruptedDeletion : List (Event FileCall) :=
  [.start (uploadCall firstFileTag), .advance 0, .advance 0, .advance 0,
    .start (deleteCall firstFileTag), .advance 1, .advance 1, .advance 1, .crash 1]

/-- A file is uploaded twice, a session is opened with it, and its first row is
deleted. -/
def sharedUpload : List (Event FileCall) :=
  [.start (uploadCall firstFileTag), .advance 0, .advance 0, .advance 0,
    .start (uploadCall secondFileTag), .advance 1, .advance 1,
    .start (openingCall thirdFileTag firstFileTag), .advance 2, .advance 2,
    .start (deleteCall firstFileTag), .advance 3, .advance 3, .advance 3,
    .advance 2, .advance 2]

def afterInterruptedDeletion : FilePool :=
  (run (fileStep samplePython) emptyFilePool interruptedDeletion).get
    (by decide +kernel)

def afterSharedUpload : FilePool :=
  (run (fileStep samplePython) emptyFilePool sharedUpload).get (by decide +kernel)

/-- The bytes of the live rows are stored. -/
def FileStore.stored (store : FileStore) : Bool :=
  store.files.all fun file =>
    file.deletedAt.isSome || (file.storageKey.bind store.objects).isSome

theorem FileStore.Complete.stored
    {store : FileStore} (hcomplete : store.Complete) : store.stored = true := by
  refine List.all_eq_true.mpr fun file hfile => ?_
  cases hlive : file.deletedAt with
  | some deletedAt => rfl
  | none =>
      obtain ⟨key, sha256, hkey, -, object, hobject, -⟩ := hcomplete file hfile hlive
      simp [hkey, hobject]

theorem emptyFilePool_complete : emptyFilePool.shared.Complete := by
  intro file hfile
  cases hfile

theorem deletion_leaves_row :
    ¬ ∀ (py : Python) (store : FileStore) (last : FilePool)
        (events : List (Event FileCall)),
      store.Complete →
      run (fileStep py) { shared := store, processes := [] } events = some last →
      last.shared.Complete := by
  intro hclaim
  have hcomplete := hclaim samplePython emptyFilePool.shared afterInterruptedDeletion
    interruptedDeletion emptyFilePool_complete (Option.some_get _).symm
  have hmissing : afterInterruptedDeletion.shared.stored = false := by decide +kernel
  exact Bool.false_ne_true (hmissing.symm.trans hcomplete.stored)

theorem shared_upload_has_objects : afterSharedUpload.shared.Complete :=
  @live_files_have_objects samplePython emptyFilePool.shared afterSharedUpload
    sharedUpload emptyFilePool_complete (by decide +kernel) (Option.some_get _).symm

end ManagedAgents
