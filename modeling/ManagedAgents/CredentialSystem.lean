import ManagedAgents.ChildRequests
import ManagedAgents.DictEquality
import ManagedAgents.Library.ReadCommitted
import ManagedAgents.SecretFields

/-!
# Runs of credential requests

Any number of clients create, update, archive, delete and validate credentials,
and other requests write other rows.
-/

namespace ManagedAgents

open Fallible LabelledRuns ReadCommitted

/-- The configured key and the cipher. -/
structure EncryptionSettings where
  encryptionKey : Except PyError (Option (List UInt8))
  aesgcmEncrypt : (key nonce plaintext : List UInt8) → List UInt8

/-- A JSON object: its keys are distinct, and so are those of the objects in it. -/
structure CredentialBody where
  fields : Dict
  keyed : Dict.Keyed fields

inductive CredentialRequest
  | create (vaultId : String) (body : CredentialBody)
  | update (vaultId credentialId : String) (body : CredentialBody)
  | archive (vaultId credentialId : String)
  | delete (vaultId credentialId : String)
  | validate (vaultId credentialId : String)
  | other (statements : List Statement)

/-- A request in a workspace with what it draws from outside. -/
structure CredentialCall where
  workspaceId : String
  supply : Supply
  nonce : ℕ → List UInt8
  request : CredentialRequest

def CredentialCall.cipher (settings : EncryptionSettings) (call : CredentialCall) :
    SecretCipher where
  encryptionKey := settings.encryptionKey
  nonce := call.nonce
  aesgcmEncrypt := settings.aesgcmEncrypt

/-- The statement leaves credentials alone. -/
def Statement.sparesCredentials (current : List Resource) : Statement → Bool
  | .insert row => row.resourceType ≠ .credential
  | .update resourceId _ =>
      current.all fun row => row.id ≠ resourceId ∨ row.resourceType ≠ .credential

/-- The writes of the request; those of another request are given. -/
def CredentialCall.handle (py : Interpreter) (settings : EncryptionSettings)
    (call : CredentialCall) (view : View) : Except HTTPException (List Statement) :=
  match call.request with
  | .create vaultId body =>
      Outcome.statements <$> createCredential py (call.cipher settings) call.supply
        call.workspaceId vaultId body.fields view
  | .update vaultId credentialId body =>
      Outcome.statements <$> updateCredential py (call.cipher settings) call.workspaceId
        vaultId credentialId body.fields view
  | .archive vaultId credentialId =>
      Outcome.statements <$>
        archiveCredential py call.supply call.workspaceId vaultId credentialId view
  | .delete vaultId credentialId =>
      Outcome.statements <$>
        deleteCredential py call.supply call.workspaceId vaultId credentialId view
  | .validate vaultId credentialId =>
      Outcome.statements <$>
        validateCredential py call.supply call.workspaceId vaultId credentialId view
  | .other statements => .ok statements

/-- The rows after the commit. -/
def CredentialCall.body (py : Interpreter) (settings : EncryptionSettings)
    (call : CredentialCall) (view : View) (current : List Resource) :
    Option (List Resource) :=
  match call.request, call.handle py settings view with
  | .other _, .ok statements =>
      if statements.all (Statement.sparesCredentials current) then
        commit current statements
      else none
  | _, .ok statements => commit current statements
  | _, .error _ => none

abbrev CredentialWorld := Timeline (List Resource)

def credentialStep (py : Interpreter) (settings : EncryptionSettings)
    (world : CredentialWorld)
    (label : CredentialCall × List ℕ) : Option CredentialWorld :=
  ReadCommitted.step (CredentialCall.body py settings) world label

/-! ## What becomes of a row -/

def IsCredential (row : Resource) : Prop := row.resourceType = .credential

/-- The data which the request computes from the row that it has read. -/
def NewData (py : Interpreter) (settings : EncryptionSettings) (call : CredentialCall)
    (held : Resource) (data : Dict) : Prop :=
  match call.request with
  | .update _ _ body =>
      ∃ merged, mergeCredentialUpdate held.data body.fields = .ok merged ∧
        normalizeCredentialData py (call.cipher settings) merged = .ok data
  | .archive .. | .delete .. =>
      data = purgeCredentialSecretData py (call.supply.clock 0) held.data
  | .validate vaultId _ =>
      validatedCredentialData py (call.supply.clock 0) held vaultId = .ok data
  | .create .. | .other _ => False

def CredentialRequest.addressed : CredentialRequest → Option String
  | .update _ credentialId _ | .archive _ credentialId | .delete _ credentialId
  | .validate _ credentialId => some credentialId
  | .create .. | .other _ => none

/-- The request marks its row as archived or deleted. -/
def CredentialRequest.marks : CredentialRequest → Bool
  | .archive .. | .delete .. => true
  | _ => false

/-- Where a credential row comes from: it was there, it was created, or it was read
and is written over the row that is there now. -/
inductive RowChange (py : Interpreter) (settings : EncryptionSettings)
    (call : CredentialCall) (view : View) (current : List Resource)
    (row : Resource) : Prop
  | kept (hrow : row ∈ current)
  | created (vaultId : String) (body : CredentialBody)
      (hrequest : call.request = .create vaultId body)
      (hdata : normalizeCredentialData py (call.cipher settings) body.fields =
        .ok row.data)
      (hlive : row.archivedAt = none ∧ row.deletedAt = none)
  | rewritten (held old : Resource) (data : Dict) (hheld : held ∈ view 0)
      (haddressed : call.request.addressed = some held.id)
      (hcredential : IsCredential held) (hold : old ∈ current) (hid : old.id = held.id)
      (htype : IsCredential old)
      (hdata : NewData py settings call held data)
      (hrow : row.data = data ∨ Dict.equal data held.data = true ∧ row.data = old.data)
      (hmarks : row.archivedAt = old.archivedAt ∧ row.deletedAt = old.deletedAt ∨
        call.request.marks = true)

section

variable {py : Interpreter} {settings : EncryptionSettings} {call : CredentialCall}
  {view : View} {current next : List Resource} {row : Resource}

theorem mem_updateRow_twice
    {rows : List Resource} {resourceId : String} {first second : Columns}
    (hrow : row ∈ updateRow (updateRow rows resourceId first) resourceId second) :
    row ∈ rows ∨ ∃ old ∈ rows, old.id = resourceId ∧
      row = second.write (first.write old) := by
  rcases mem_updateRow.mp hrow with ⟨hrow, hother⟩ | ⟨middle, hmiddle, hid, rfl⟩
  · rcases mem_updateRow.mp hrow with ⟨hrow, -⟩ | ⟨old, hold, hid, rfl⟩
    · exact .inl hrow
    · exact absurd hid hother
  · rcases mem_updateRow.mp hmiddle with ⟨-, hother⟩ | ⟨old, hold, hsame, rfl⟩
    · exact absurd hid hother
    · exact .inr ⟨old, hold, hsame, rfl⟩

theorem written_data
    {held old : Resource} {data : Dict} {columns : Columns}
    (hcolumns : columns.data = if Dict.equal data held.data then none else some data) :
    (columns.write old).data = data ∨
      Dict.equal data held.data = true ∧ (columns.write old).data = old.data := by
  by_cases hequal : Dict.equal data held.data = true
  · exact .inr ⟨hequal, by simp [Columns.write, hcolumns, hequal]⟩
  · exact .inl (by simp [Columns.write, hcolumns, hequal])

theorem mustExistCredential_eq_ok
    {workspaceId vaultId credentialId : String} {held : Resource}
    (hheld : mustExistCredential workspaceId vaultId credentialId view = .ok held) :
    held ∈ view 0 ∧ held.id = credentialId ∧ IsCredential held := by
  obtain ⟨hmem, hid, hselects⟩ := getResource_eq_some (mustExist_eq_ok.mp hheld)
  simp only [ResourceQuery.selects, decide_eq_true_eq] at hselects
  exact ⟨hmem, hid, hselects.1⟩

/-- A request that writes the data of the row which it has read. -/
theorem rowChange_of_update
    {held : Resource} {data : Dict} {columns : Columns} (hheld : held ∈ view 0)
    (haddressed : call.request.addressed = some held.id)
    (hcredential : IsCredential held) (hdata : NewData py settings call held data)
    (hcolumns : columns.data = if Dict.equal data held.data then none else some data)
    (hmarks : columns.archivedAt = none ∧ columns.deletedAt = none)
    (hrow : row ∈ updateRow current held.id columns) (htype : IsCredential row) :
    RowChange py settings call view current row := by
  rcases mem_updateRow.mp hrow with ⟨hrow, -⟩ | ⟨old, hold, hid, rfl⟩
  · exact .kept hrow
  · refine .rewritten held old data hheld haddressed hcredential hold hid htype hdata
      (written_data hcolumns) (.inl ?_)
    simp [Columns.write, hmarks]

/-- A request that purges the row which it has read and marks it. -/
theorem rowChange_of_marking
    {held : Resource} {data : Dict} {first second : Columns} (hheld : held ∈ view 0)
    (haddressed : call.request.addressed = some held.id)
    (hcredential : IsCredential held) (hdata : NewData py settings call held data)
    (hfirst : first.data = if Dict.equal data held.data then none else some data)
    (hsecond : second.data = none) (hmarks : call.request.marks = true)
    (hrow : row ∈ updateRow (updateRow current held.id first) held.id second)
    (htype : IsCredential row) :
    RowChange py settings call view current row := by
  rcases mem_updateRow_twice hrow with hrow | ⟨old, hold, hid, rfl⟩
  · exact .kept hrow
  · refine .rewritten held old data hheld haddressed hcredential hold hid htype hdata ?_
      (.inr hmarks)
    have hdata := @written_data held old data first hfirst
    simpa [Columns.write, hsecond] using hdata

theorem spared_kept
    {statements : List Statement}
    (hspares : ∀ statement ∈ statements,
      statement.sparesCredentials current = true)
    {rows : List Resource}
    (hrows : ∀ row ∈ rows, IsCredential row → row ∈ current)
    (hcommit : commit rows statements = some next) (hrow : row ∈ next)
    (htype : IsCredential row) : row ∈ current := by
  induction statements generalizing rows with
  | nil =>
      rw [commit_nil, Option.some.injEq] at hcommit
      exact hrows row (hcommit ▸ hrow) htype
  | cons statement rest ih =>
      obtain ⟨hfirst, hrest⟩ := List.forall_mem_cons.mp hspares
      cases statement with
      | insert inserted =>
          obtain ⟨-, hcommit⟩ := commit_insert.mp hcommit
          refine ih hrest ?_ hcommit
          intro other hother hothertype
          rcases List.mem_append.mp hother with hother | hother
          · exact hrows other hother hothertype
          · obtain rfl := List.mem_singleton.mp hother
            simp only [Statement.sparesCredentials, decide_eq_true_eq] at hfirst
            exact absurd hothertype hfirst
      | update resourceId columns =>
          rw [commit_update] at hcommit
          refine ih hrest ?_ hcommit
          intro other hother hothertype
          rcases mem_updateRow.mp hother with ⟨hother, -⟩ | ⟨old, hold, hid, rfl⟩
          · exact hrows other hother hothertype
          · have hspared := List.all_eq_true.mp hfirst old (hrows old hold hothertype)
            simp only [decide_eq_true_eq] at hspared
            rcases hspared with hother | hother
            · exact absurd hid hother
            · exact absurd hothertype hother

theorem CredentialCall.rowChange
    (hbody : call.body py settings view current = some next) (hrow : row ∈ next)
    (htype : IsCredential row) : RowChange py settings call view current row := by
  unfold CredentialCall.body CredentialCall.handle at hbody
  cases hrequest : call.request <;> simp only [hrequest] at hbody
  case create vaultId body =>
    cases houtcome : createCredential py (call.cipher settings) call.supply
        call.workspaceId vaultId body.fields view with
    | error error => simp [houtcome] at hbody
    | ok outcome =>
        simp only [houtcome, Except.map_ok] at hbody
        unfold createCredential at houtcome
        simp only [bind_eq_ok, pure_eq_ok] at houtcome
        obtain ⟨-, -, data, hdata, name, -, rfl⟩ := houtcome
        obtain ⟨-, hnext⟩ := commit_insert.mp hbody
        rw [commit_nil, Option.some.injEq] at hnext
        subst hnext
        rcases List.mem_append.mp hrow with hrow | hrow
        · exact .kept hrow
        · obtain rfl := List.mem_singleton.mp hrow
          exact .created vaultId body hrequest hdata ⟨rfl, rfl⟩
  case update vaultId credentialId body =>
    cases houtcome : updateCredential py (call.cipher settings) call.workspaceId
        vaultId credentialId body.fields view with
    | error error => simp [houtcome] at hbody
    | ok outcome =>
        simp only [houtcome, Except.map_ok] at hbody
        unfold updateCredential at houtcome
        simp only [bind_eq_ok, pure_eq_ok] at houtcome
        obtain ⟨held, hheld, merged, hmerged, data, hdata, name, -, rfl⟩ := houtcome
        obtain ⟨hmem, rfl, hcredential⟩ := mustExistCredential_eq_ok hheld
        simp only [updateResource, commit_update, commit_nil, Option.some.injEq] at hbody
        subst hbody
        refine rowChange_of_update hmem (by rw [hrequest]; rfl) hcredential ?_ rfl
          ⟨rfl, rfl⟩ hrow htype
        simp only [NewData, hrequest]
        exact ⟨merged, hmerged, hdata⟩
  case archive vaultId credentialId =>
    cases houtcome : archiveCredential py call.supply call.workspaceId vaultId
        credentialId view with
    | error error => simp [houtcome] at hbody
    | ok outcome =>
        simp only [houtcome, Except.map_ok] at hbody
        unfold archiveCredential at houtcome
        simp only [bind_eq_ok, pure_eq_ok] at houtcome
        obtain ⟨held, hheld, rfl⟩ := houtcome
        obtain ⟨hmem, rfl, hcredential⟩ := mustExistCredential_eq_ok hheld
        simp only [updateResource, archiveResource, commit_update, commit_nil,
          Option.some.injEq] at hbody
        subst hbody
        refine rowChange_of_marking hmem (by rw [hrequest]; rfl) hcredential ?_ rfl rfl ?_
          hrow htype
        · simp only [NewData, hrequest]
        · rw [hrequest]
          rfl
  case delete vaultId credentialId =>
    cases houtcome : deleteCredential py call.supply call.workspaceId vaultId
        credentialId view with
    | error error => simp [houtcome] at hbody
    | ok outcome =>
        simp only [houtcome, Except.map_ok] at hbody
        unfold deleteCredential at houtcome
        simp only [bind_eq_ok, pure_eq_ok] at houtcome
        obtain ⟨held, hheld, rfl⟩ := houtcome
        obtain ⟨hmem, rfl, hcredential⟩ := mustExistCredential_eq_ok hheld
        simp only [updateResource, deleteResource, commit_update, commit_nil,
          Option.some.injEq] at hbody
        subst hbody
        refine rowChange_of_marking hmem (by rw [hrequest]; rfl) hcredential ?_ rfl rfl ?_
          hrow htype
        · simp only [NewData, hrequest]
        · rw [hrequest]
          rfl
  case validate vaultId credentialId =>
    cases houtcome : validateCredential py call.supply call.workspaceId vaultId
        credentialId view with
    | error error => simp [houtcome] at hbody
    | ok outcome =>
        simp only [houtcome, Except.map_ok] at hbody
        unfold validateCredential at houtcome
        simp only [bind_eq_ok, pure_eq_ok] at houtcome
        obtain ⟨held, hheld, data, hdata, rfl⟩ := houtcome
        obtain ⟨hmem, rfl, hcredential⟩ := mustExistCredential_eq_ok hheld
        simp only [updateResource, commit_update, commit_nil, Option.some.injEq] at hbody
        subst hbody
        refine rowChange_of_update hmem (by rw [hrequest]; rfl) hcredential ?_ rfl
          ⟨rfl, rfl⟩ hrow htype
        simp only [NewData, hrequest]
        exact hdata
  case other statements =>
    split at hbody
    next hspares =>
      refine .kept (spared_kept (List.all_eq_true.mp hspares) ?_ hbody hrow htype)
      exact fun _ hother _ => hother
    next => cases hbody

/-! ## What is written -/

theorem CredentialCall.committed
    (hbody : call.body py settings view current = some next) :
    ∃ statements, commit current statements = some next := by
  unfold CredentialCall.body at hbody
  split at hbody
  · split at hbody
    · exact ⟨_, hbody⟩
    · cases hbody
  · exact ⟨_, hbody⟩
  · cases hbody

theorem CredentialCall.ids
    (hids : (current.map ManagedResource.id).Nodup)
    (hbody : call.body py settings view current = some next) :
    (next.map ManagedResource.id).Nodup := by
  obtain ⟨statements, hcommit⟩ := CredentialCall.committed hbody
  exact commit_ids hids hcommit

theorem createCredential_written
    {vaultId : String} {body : CredentialBody}
    (hrequest : call.request = .create vaultId body)
    (hbody : call.body py settings view current = some next) :
    ∃ row ∈ next, IsCredential row ∧
      normalizeCredentialData py (call.cipher settings) body.fields = .ok row.data := by
  unfold CredentialCall.body CredentialCall.handle at hbody
  simp only [hrequest] at hbody
  cases houtcome : createCredential py (call.cipher settings) call.supply
      call.workspaceId vaultId body.fields view with
  | error error => simp [houtcome] at hbody
  | ok outcome =>
      simp only [houtcome, Except.map_ok] at hbody
      unfold createCredential at houtcome
      simp only [bind_eq_ok, pure_eq_ok] at houtcome
      obtain ⟨-, -, data, hdata, name, -, rfl⟩ := houtcome
      obtain ⟨-, hnext⟩ := commit_insert.mp hbody
      rw [commit_nil, Option.some.injEq] at hnext
      subst hnext
      exact ⟨_, List.mem_append_right _ List.mem_cons_self, rfl, hdata⟩

/-- The row which was read is there still and is written, unless its data are equal. -/
theorem updateCredential_written
    {vaultId credentialId : String} {body : CredentialBody}
    (hrequest : call.request = .update vaultId credentialId body)
    (hkept : RowsKept (view 0) current)
    (hbody : call.body py settings view current = some next) :
    ∃ held ∈ view 0, ∃ data, IsCredential held ∧ NewData py settings call held data ∧
      (Dict.equal data held.data = true ∨
        ∃ row ∈ next, IsCredential row ∧ row.data = data) := by
  unfold CredentialCall.body CredentialCall.handle at hbody
  simp only [hrequest] at hbody
  cases houtcome : updateCredential py (call.cipher settings) call.workspaceId
      vaultId credentialId body.fields view with
  | error error => simp [houtcome] at hbody
  | ok outcome =>
      simp only [houtcome, Except.map_ok] at hbody
      unfold updateCredential at houtcome
      simp only [bind_eq_ok, pure_eq_ok] at houtcome
      obtain ⟨held, hheld, merged, hmerged, data, hdata, name, -, rfl⟩ := houtcome
      obtain ⟨hmem, rfl, hcredential⟩ := mustExistCredential_eq_ok hheld
      refine ⟨held, hmem, data, hcredential, ?_, ?_⟩
      · simp only [NewData, hrequest]
        exact ⟨merged, hmerged, hdata⟩
      · simp only [updateResource, commit_update, commit_nil, Option.some.injEq] at hbody
        subst hbody
        obtain ⟨old, hold, hsame⟩ := hkept held hmem
        by_cases hequal : Dict.equal data held.data = true
        · exact .inl hequal
        · refine .inr ⟨_, mem_updateRow.mpr (.inr ⟨old, hold, hsame.id, rfl⟩),
            hsame.resourceType.trans hcredential, ?_⟩
          simp [Columns.write, hequal]

end

end ManagedAgents
