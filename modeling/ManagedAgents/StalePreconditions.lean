import ManagedAgents.MemoryUpdates

/-!
# Stale preconditions of memory updates

A stale precondition should let an update pass only if it is in effect already.  The
version and the digest are checked in different branches, and the branch of the digest
looks at the path and the content alone.
-/

namespace ManagedAgents

open Fallible LabelledRuns ReadCommitted

def IsConflict (error : HTTPException) : Prop :=
  error.statusCode = 409

/-! ## Preconditions -/

/-- The update gives a version which is not the stored one. -/
def MemoryUpdateRequest.StaleVersion (body : MemoryUpdateRequest) (memory : Resource) :
    Prop :=
  ∃ version, (body.ifVersion = some (some version) ∨
    body.expectedVersion = some (some version)) ∧ version ≠ versionNumber memory

/-- The update gives a digest which is not the stored one. -/
def MemoryUpdateRequest.StaleDigest (body : MemoryUpdateRequest) (data : Dict) : Prop :=
  ∃ precondition digest, body.precondition = some (some precondition) ∧
    precondition.contentSha256 = some (some digest) ∧
    Dict.get data "content_sha256" ≠ .str digest

def MemoryUpdateRequest.Stale (body : MemoryUpdateRequest) (memory : Resource) : Prop :=
  body.StaleVersion memory ∨ body.StaleDigest memory.data

def MemoryUpdateRequest.withoutPreconditions (body : MemoryUpdateRequest) :
    MemoryUpdateRequest :=
  { body with precondition := none, ifVersion := none, expectedVersion := none }

/-! ## Updates in effect -/

def PathInEffect (py : Interpreter) (body : MemoryUpdateRequest) (data : Dict) : Prop :=
  ∀ value, Dict.find (sentMemory body) "path" = some value →
    ∃ path, normalizeMemoryPath py value = .ok path ∧ Dict.get data "path" = .str path

def ContentInEffect (py : Interpreter) (body : MemoryUpdateRequest)
    (data : Dict) : Prop :=
  Dict.contains (sentMemory body) "content" = true →
    Dict.get data "content" = .str (contentText py (Dict.get (sentMemory body) "content"))

/-- Every field which the update asks to set has that value already. -/
structure InEffect (py : Interpreter) (body : MemoryUpdateRequest)
    (data : Dict) : Prop where
  path : PathInEffect py body data
  content : ContentInEffect py body data
  rest : RestInEffect data (sentMemory body)

/-- An update in effect succeeds without a write, and any other one is refused. -/
structure StaleAnswer (py : Interpreter) (body : MemoryUpdateRequest) (memory : Resource)
    (answer : Except HTTPException Outcome) : Prop where
  idempotent : InEffect py body memory.data →
    ∃ outcome, answer = .ok outcome ∧ outcome.statements = []
  refused : ¬InEffect py body memory.data → Raises IsConflict answer

/-! ## Where the code does so -/

/-- The version which the code compares. -/
def ComparedVersionStale (body : MemoryUpdateRequest) (memory : Resource) : Prop :=
  ∃ version, expectedMemoryVersion body = .int version ∧ version ≠ versionNumber memory

/-- The requested path is the stored one when that is normalised. -/
def PathAgrees (py : Interpreter) (body : MemoryUpdateRequest) (data : Dict) : Prop :=
  ∃ path, normalizeMemoryPath py (Dict.get data "path") = .ok path ∧
    RequestedPath py data (sentMemory body) (.str path)

/-- The path is sent as it is stored. -/
def PathAsStored (body : MemoryUpdateRequest) (data : Dict) : Prop :=
  ∀ value, Dict.find (sentMemory body) "path" = some value → Dict.get data "path" = value

/-- A content which is sent is short enough. -/
def ContentFits (py : Interpreter) (body : MemoryUpdateRequest) : Prop :=
  Dict.contains (sentMemory body) "content" = true →
    (utf8 (contentText py (Dict.get (sentMemory body) "content"))).length ≤
      MAX_MEMORY_CONTENT_BYTES

/-- Another memory has the path which the update asks for. -/
def PathTaken (py : Interpreter) (rows : List Resource) (workspaceId storeId : String)
    (body : MemoryUpdateRequest) (memory : Resource) : Prop :=
  ∃ path other,
    normalizeMemoryPath py (Dict.get (sentMemory body) "path") = .ok path ∧
    Dict.get memory.data "path_key" ≠ .str (pathKey path) ∧
    findMemoryByPath rows workspaceId storeId (pathKey path) = .ok (some other) ∧
    other.id ≠ memory.id

/-- A stale version is refused, so the update must not be in effect.  The branch of the
digest must see all that the update asks for.  What the code does not compare (an empty
digest, a version beside another one) leaves the update as it is. -/
def StaleHandled (py : Interpreter) (rows : List Resource) (workspaceId storeId : String)
    (body : MemoryUpdateRequest) (memory : Resource) : Prop :=
  (ComparedVersionStale body memory ∧ ¬InEffect py body memory.data) ∨
  (¬ComparedVersionStale body memory ∧
    contentPreconditionStale (Dict.get body.modelDump "precondition") memory.data = true ∧
    (∃ requested, RequestedPath py memory.data (sentMemory body) requested) ∧
    (PathAgrees py body memory.data ∧ ContentInEffect py body memory.data →
      InEffect py body memory.data) ∧
    (InEffect py body memory.data → PathAgrees py body memory.data)) ∨
  (¬ComparedVersionStale body memory ∧
    contentPreconditionStale (Dict.get body.modelDump "precondition") memory.data =
      false ∧
    ContentFits py body ∧
    ((InEffect py body memory.data ∧ PathAsStored body memory.data) ∨
      PathTaken py rows workspaceId storeId body memory))

section

variable {py : Interpreter} {body : MemoryUpdateRequest} {memory : Resource}

/-! ## The version -/

theorem expectedMemoryVersion_cases (body : MemoryUpdateRequest) :
    expectedMemoryVersion body = .null ∨
      ∃ version, expectedMemoryVersion body = .int version ∧
        (body.ifVersion = some (some version) ∨
          body.expectedVersion = some (some version)) := by
  have hoptional : ∀ value : Option (Option ℤ),
      (value.map optionalInt).getD .null = .null ∨
        ∃ version, (value.map optionalInt).getD .null = .int version ∧
          value = some (some version) := by
    rintro (_ | _ | version)
    · exact Or.inl rfl
    · exact Or.inl rfl
    · exact Or.inr ⟨version, rfl, rfl⟩
  have hif : Dict.get body.modelDump "if_version" =
      (body.ifVersion.map optionalInt).getD .null := by
    rw [Dict.get_eq_find]
    simp [MemoryUpdateRequest.modelDump, find_modelDump_cons, find_modelDump_nil,
      find_extra body.undeclared]
  have hexpected : Dict.get body.modelDump "expected_version" =
      (body.expectedVersion.map optionalInt).getD .null := by
    rw [Dict.get_eq_find]
    simp [MemoryUpdateRequest.modelDump, find_modelDump_cons, find_modelDump_nil,
      find_extra body.undeclared]
  unfold expectedMemoryVersion
  split
  · rw [hif]
    rcases hoptional body.ifVersion with hnull | ⟨version, hversion, hgiven⟩
    · exact Or.inl hnull
    · exact Or.inr ⟨version, hversion, Or.inl hgiven⟩
  · rw [hexpected]
    rcases hoptional body.expectedVersion with hnull | ⟨version, hversion, hgiven⟩
    · exact Or.inl hnull
    · exact Or.inr ⟨version, hversion, Or.inr hgiven⟩

theorem ComparedVersionStale.stale
    (hstale : ComparedVersionStale body memory) : body.StaleVersion memory := by
  obtain ⟨version, hexpected, hne⟩ := hstale
  rcases expectedMemoryVersion_cases body with hnull | ⟨given, hgiven, hsent⟩
  · rw [hexpected] at hnull
    cases hnull
  · rw [hexpected, Json.int.injEq] at hgiven
    subst hgiven
    exact ⟨version, hsent, hne⟩

/-- A digest that is compared and stale was given. -/
theorem staleDigest_of_compared
    {data : Dict}
    (hstale : contentPreconditionStale (Dict.get body.modelDump "precondition") data =
      true) : body.StaleDigest data := by
  have hget : Dict.get body.modelDump "precondition" =
      (body.precondition.map fun precondition =>
        (precondition.map MemoryPrecondition.toJson).getD .null).getD .null := by
    rw [Dict.get_eq_find]
    simp [MemoryUpdateRequest.modelDump, find_modelDump_cons, find_modelDump_nil,
      find_extra body.undeclared]
  rw [hget] at hstale
  rcases hgiven : body.precondition with _ | _ | precondition
  · simp [hgiven, contentPreconditionStale, Json.get] at hstale
  · simp [hgiven, contentPreconditionStale, Json.get] at hstale
  · have hdigest : Dict.get (modelDump [("type", some (.str "content_sha256")),
        ("content_sha256", precondition.contentSha256.map optionalText)]
        precondition.extra) "content_sha256" =
          (precondition.contentSha256.map optionalText).getD .null := by
      rw [Dict.get_eq_find]
      simp [find_modelDump_cons, find_modelDump_nil, find_extra precondition.undeclared]
    simp only [hgiven, Option.map_some, Option.getD_some, contentPreconditionStale,
      MemoryPrecondition.toJson, Json.get, hdigest, Bool.and_eq_true,
      Bool.not_eq_true'] at hstale
    rcases hsent : precondition.contentSha256 with _ | _ | digest
    · simp [hsent, Json.truthy] at hstale
    · simp [hsent, optionalText, Json.truthy] at hstale
    · refine ⟨precondition, digest, hgiven, hsent, fun hsame => ?_⟩
      have hequal := hstale.2
      simp [hsent, optionalText, hsame, Json.equal] at hequal

def versionConflict : HTTPException :=
  ⟨409, "Memory version precondition failed"⟩

theorem checkMemoryVersion_stale
    (hstored : storedMemoryVersion py memory.data = .ok (versionNumber memory))
    (hstale : ComparedVersionStale body memory) :
    checkMemoryVersion py (expectedMemoryVersion body) memory.data =
      .error versionConflict := by
  obtain ⟨version, hexpected, hne⟩ := hstale
  unfold checkMemoryVersion
  rw [hstored, hexpected]
  simp [bind, Except.bind, pure, Except.pure, raiseIf, hne, versionConflict]

theorem checkMemoryVersion_fresh
    (hstored : storedMemoryVersion py memory.data = .ok (versionNumber memory))
    (hfresh : ¬ComparedVersionStale body memory) :
    checkMemoryVersion py (expectedMemoryVersion body) memory.data = .ok () := by
  unfold checkMemoryVersion
  rw [hstored]
  rcases expectedMemoryVersion_cases body with hnull | ⟨version, hexpected, -⟩
  · simp [hnull, bind, Except.bind, pure, Except.pure, raiseIf]
  · have hsame : version = versionNumber memory := by
      by_contra hne
      exact hfresh ⟨version, hexpected, hne⟩
    simp [hexpected, hsame, bind, Except.bind, pure, Except.pure, raiseIf]

/-! ## Errors -/

theorem validateMemoryPathText_raises (path : String) :
    OnlyRaises (fun error => ¬IsConflict error) (validateMemoryPathText py path) := by
  simp [validateMemoryPathText, IsConflict]

theorem normalizeMemoryPath_raises (value : Json) :
    OnlyRaises (fun error => ¬IsConflict error) (normalizeMemoryPath py value) := by
  refine OnlyRaises.bind ?_ fun parts => ?_
  · cases value with
    | str text => exact (validateMemoryPathText_raises _).bind fun _ => by simp
    | _ => simp [memoryPathParts, IsConflict]
  · have hlast : OnlyRaises (fun error => ¬IsConflict error) (do
        validateMemoryPathText py ("/" ++ joinSlashes parts)
        pure ("/" ++ joinSlashes parts)) :=
      (validateMemoryPathText_raises _).bind fun _ => onlyRaises_pure _ _
    have hslashes : OnlyRaises (fun error => ¬IsConflict error)
        (if (parts.any fun part => '/' ∈ part.toList) = true then do
          let _ ← (throw ⟨422, "Memory path array items cannot contain '/'"⟩ :
            Except HTTPException PUnit)
          validateMemoryPathText py ("/" ++ joinSlashes parts)
          pure ("/" ++ joinSlashes parts)
        else do
          validateMemoryPathText py ("/" ++ joinSlashes parts)
          pure ("/" ++ joinSlashes parts)) :=
      onlyRaises_ite.mpr
        ⟨fun _ => OnlyRaises.bind (onlyRaises_throw.mpr (by simp [IsConflict]))
          fun _ => hlast, fun _ => hlast⟩
    exact onlyRaises_ite.mpr
      ⟨fun _ => OnlyRaises.bind (onlyRaises_throw.mpr (by simp [IsConflict]))
        fun _ => hslashes, fun _ => hslashes⟩

theorem toInt_raises (value : Json) :
    OnlyRaises (fun error => ¬IsConflict error) (py.toInt value) := by
  unfold Interpreter.toInt
  split <;> simp [IsConflict, internalServerError]

theorem enforceMemoryContentLimit_raises (content : String) :
    OnlyRaises (fun error => ¬IsConflict error) (enforceMemoryContentLimit content) := by
  simp [enforceMemoryContentLimit, IsConflict]

theorem mergeMemoryData_raises (now : Time) (existing update : Dict) :
    OnlyRaises (fun error => ¬IsConflict error)
      (mergeMemoryData py now existing update) := by
  have hpath : ∀ sent, OnlyRaises (fun error => ¬IsConflict error)
      (mergeMemoryPath py existing sent) := by
    intro sent
    unfold mergeMemoryPath
    split
    · exact (normalizeMemoryPath_raises _).bind fun _ => onlyRaises_pure _ _
    · exact onlyRaises_pure _ _
  have hcontent : ∀ merged sent, OnlyRaises (fun error => ¬IsConflict error)
      (mergeMemoryContent py merged sent) := by
    intro merged sent
    unfold mergeMemoryContent
    split
    · exact (enforceMemoryContentLimit_raises _).bind fun _ => onlyRaises_pure _ _
    · exact onlyRaises_pure _ _
  exact (hpath _).bind fun _ => (hcontent _ _).bind fun _ =>
    (toInt_raises _).bind fun _ =>
    onlyRaises_pure _ _

theorem memoryRequestedStateMatchesCurrent_raises (current update : Dict) :
    OnlyRaises (fun error => ¬IsConflict error)
      (memoryRequestedStateMatchesCurrent py current update) := by
  have hlast : ∀ requested : Json, OnlyRaises (fun error => ¬IsConflict error) (do
      let path ← normalizeMemoryPath py (Dict.get current "path")
      pure (Json.equal requested (.str path) && requestedContent py current update =
        contentText py (Dict.get current "content"))) := fun requested =>
    (normalizeMemoryPath_raises _).bind fun _ => onlyRaises_pure _ _
  unfold memoryRequestedStateMatchesCurrent
  cases hgiven : Dict.contains update "path" with
  | true => exact (normalizeMemoryPath_raises _).bind fun path => hlast (.str path)
  | false => exact hlast (Dict.get current "path")

end

/-! ## What the code compares -/

section

variable {py : Interpreter} {body : MemoryUpdateRequest} {data : Dict}

theorem requestedPath_sent (requested : Json) :
    RequestedPath py data (memoryUpdate body) requested ↔
      RequestedPath py data (sentMemory body) requested := by
  obtain ⟨hcontains, hget⟩ := @contains_sentMemory body "path" (by decide)
  rw [RequestedPath, RequestedPath, hcontains, hget]

theorem requestedContent_sent :
    requestedContent py data (memoryUpdate body) =
      requestedContent py data (sentMemory body) := by
  obtain ⟨hcontains, hget⟩ := @contains_sentMemory body "content" (by decide)
  rw [requestedContent, requestedContent, hcontains, hget]

theorem requestedContent_iff (hstored : StoredMemory py data) :
    requestedContent py data (sentMemory body) =
      contentText py (Dict.get data "content") ↔ ContentInEffect py body data := by
  obtain ⟨text, htext⟩ := hstored.content
  have hheld : Dict.get data "content" = .str text := by
    rw [Dict.get_eq_find, htext]
    rfl
  have hkept : contentText py (.str text) = text := by simp [contentText, Python.str]
  unfold requestedContent ContentInEffect
  rw [hheld, hkept]
  by_cases hgiven : Dict.contains (sentMemory body) "content" = true
  · rw [if_pos hgiven]
    simp only [hgiven, true_implies, Json.str.injEq]
    exact eq_comm
  · simp [hgiven]

/-- The requested path is one way to write a path. -/
theorem RequestedPath.value
    {requested : Json} (hstored : StoredMemory py data)
    (hrequested : RequestedPath py data (sentMemory body) requested) :
    ∃ value : PathValue, requested = value.toJson := by
  unfold RequestedPath at hrequested
  split at hrequested
  · obtain ⟨path, -, rfl⟩ := hrequested
    exact ⟨.text path, rfl⟩
  · obtain ⟨held, path, hheld, -⟩ := hstored.path
    refine ⟨held, ?_⟩
    rw [hrequested, Dict.get_eq_find, hheld]
    rfl

theorem RequestedPath.unique
    {first second : Json} (hfirst : RequestedPath py data (sentMemory body) first)
    (hsecond : RequestedPath py data (sentMemory body) second) : first = second := by
  unfold RequestedPath at hfirst hsecond
  split at hfirst
  next hgiven =>
    rw [if_pos hgiven] at hsecond
    obtain ⟨path, hpath, rfl⟩ := hfirst
    obtain ⟨other, hother, rfl⟩ := hsecond
    rw [hpath, Except.ok.injEq] at hother
    rw [hother]
  next hgiven =>
    rw [if_neg hgiven] at hsecond
    rw [hfirst, hsecond]

/-- The idempotence test succeeds exactly if path and content agree. -/
theorem matches_iff
    (hstored : StoredMemory py data) {matched : Bool}
    (hmatched : memoryRequestedStateMatchesCurrent py data (memoryUpdate body) =
      .ok matched) :
    matched = true ↔ PathAgrees py body data ∧ ContentInEffect py body data := by
  obtain ⟨requested, path, hrequested, hpath, rfl⟩ :=
    memoryRequestedStateMatchesCurrent_eq_ok.mp hmatched
  rw [requestedPath_sent] at hrequested
  obtain ⟨value, hvalue⟩ := hrequested.value hstored
  rw [Bool.and_eq_true, decide_eq_true_eq, requestedContent_sent,
    requestedContent_iff hstored]
  apply and_congr_left
  intro _
  have hequal : Json.equal requested (.str path) = true ↔ requested = .str path := by
    rw [hvalue]
    refine (PathValue.equal_iff value (.text path)).trans ⟨?_, fun hsame => ?_⟩
    · rintro rfl
      rfl
    · exact (PathValue.equal_iff _ _).mp (hsame ▸ by simp [PathValue.toJson, Json.equal])
  rw [hequal]
  constructor
  · rintro rfl
    exact ⟨path, hpath, hrequested⟩
  · rintro ⟨other, hother, hagrees⟩
    rw [hpath, Except.ok.injEq] at hother
    subst hother
    exact hrequested.unique hagrees

/-! ## Writes -/

/-- The merge succeeds for a path which is one and a content which is short enough. -/
theorem mergeMemoryData_ok
    {now : Time} {number : ℤ} (hversion : storedMemoryVersion py data = .ok number)
    (hpath : ∃ requested, RequestedPath py data (sentMemory body) requested)
    (hfits : ContentFits py body) :
    ∃ merged, mergeMemoryData py now data (memoryUpdate body) = .ok merged := by
  obtain ⟨pathed, hpathed⟩ :
      ∃ pathed, mergeMemoryPath py data (sentMemory body) = .ok pathed := by
    obtain ⟨requested, hrequested⟩ := hpath
    unfold RequestedPath at hrequested
    unfold mergeMemoryPath
    split at hrequested
    next hgiven =>
      obtain ⟨path, hnormalized, -⟩ := hrequested
      rw [if_pos hgiven]
      exact ⟨_, bind_eq_ok.mpr ⟨path, hnormalized, rfl⟩⟩
    next hgiven =>
      rw [if_neg hgiven]
      exact ⟨data, rfl⟩
  have hdistinct : ((sentMemory body).map Prod.fst).Nodup :=
    withoutActor_distinct (memoryUpdate_distinct body)
  have hloop := find_foldl_mergeMemoryField hdistinct pathed
  obtain ⟨merged, hmerged⟩ : ∃ merged, mergeMemoryContent py
      ((sentMemory body).foldl mergeMemoryField pathed) (sentMemory body) =
        .ok merged := by
    unfold mergeMemoryContent
    split
    next hgiven =>
      have htext := contentText_mergedField py (Dict.find pathed "content") _
        (by rwa [Dict.contains_eq_find] at hgiven)
      refine ⟨_, bind_eq_ok.mpr ⟨(), ?_, rfl⟩⟩
      rw [enforceMemoryContentLimit_eq_ok, Dict.get_eq_find, hloop, if_neg (by decide),
        htext, ← Dict.get_eq_find]
      exact hfits hgiven
    · exact ⟨_, rfl⟩
  have hkept : Dict.get merged "version" = Dict.get data "version" := by
    rw [get_mergeMemoryContent hmerged (by decide),
      get_foldl_mergeMemoryField_kept (by decide),
        get_mergeMemoryPath hpathed (by decide)]
  have hnumber : py.toInt ((Dict.get merged "version").or (.int 1)) = .ok number := by
    rw [hkept]
    exact hversion
  unfold mergeMemoryData
  exact ⟨_, bind_eq_ok.mpr ⟨pathed, hpathed, bind_eq_ok.mpr ⟨merged, hmerged,
    bind_eq_ok.mpr ⟨number, hnumber, rfl⟩⟩⟩⟩

/-- A merge which succeeds has a path and a content that fits. -/
theorem mergeMemoryData_checked
    {now : Time} {merged : Dict}
    (hmerged : mergeMemoryData py now data (memoryUpdate body) = .ok merged) :
    (∃ requested, RequestedPath py data (sentMemory body) requested) ∧
      ContentFits py body := by
  have hmergedData := mergeMemoryData_merged hmerged
  have hfields := mergeMemoryData_fields (memoryUpdate_distinct body) hmerged
  change MergedFields py data (sentMemory body) merged at hfields
  constructor
  · unfold RequestedPath
    by_cases hgiven : Dict.contains (sentMemory body) "path" = true
    · obtain ⟨path, hpath, -⟩ := hfields.newPath hgiven
      exact ⟨.str path, by rw [if_pos hgiven]; exact ⟨path, hpath, rfl⟩⟩
    · exact ⟨_, by rw [if_neg hgiven]⟩
  · intro hgiven
    have hsent := (@contains_sentMemory body "content" (by decide)).1.trans hgiven
    obtain ⟨content, hcontent, hlimit, -⟩ := (hmergedData.newContent hsent).content
    have hsame := hfields.content
    rw [if_pos hgiven] at hsame
    rw [Dict.get_eq_find, hsame, Option.getD_some, Json.str.injEq] at hcontent
    rw [hcontent]
    exact hlimit

theorem writeMemory_ok
    {supply : Supply} {workspaceId key : String} {memory : Resource} {number : ℤ}
    (hkey : Dict.get data "path_key" = .str key)
    (hversion : Dict.get data "version" = .int number) :
    ∃ outcome, writeMemory py supply workspaceId memory data = .ok outcome ∧
      outcome.statements ≠ [] := by
  unfold writeMemory
  rw [memoryPathKey_eq_ok.mpr hkey, hversion]
  exact ⟨_, rfl, List.cons_ne_nil _ _⟩

end

/-! ## The answer -/

section

variable {py : Interpreter} {supply : Supply} {workspaceId storeId memoryId : String}
  {body : MemoryUpdateRequest} {viewName shown : Option String} {view : View}
  {memory : Resource} {data : Dict}

/-- The stored path, its normal form and its key. -/
theorem StoredMemory.pathKey_get
    {stored : Dict} (hstored : StoredMemory py stored) :
    ∃ path, normalizeMemoryPath py (Dict.get stored "path") = .ok path ∧
      Dict.get stored "path_key" = .str (pathKey path) := by
  obtain ⟨held, path, hheld, hpath, hkey⟩ := hstored.path
  refine ⟨path, ?_, ?_⟩
  · rw [Dict.get_eq_find, hheld]
    exact hpath
  · rw [Dict.get_eq_find, hkey]
    rfl

theorem find_path_of_normalized
    {path : String}
    (hpath : normalizeMemoryPath py (Dict.get (sentMemory body) "path") = .ok path) :
    Dict.find (sentMemory body) "path" = some (Dict.get (sentMemory body) "path") := by
  apply Dict.find_of_contains
  by_contra habsent
  rw [Bool.not_eq_true] at habsent
  rw [Dict.get_of_not_contains habsent] at hpath
  exact normalizeMemoryPath_null hpath

/-- A path which another memory has is neither in effect nor sent as it is stored. -/
theorem PathTaken.changes
    {rows : List Resource} (hstored : StoredMemory py memory.data)
    (htaken : PathTaken py rows workspaceId storeId body memory) :
    ¬PathInEffect py body memory.data ∧ ¬PathAsStored body memory.data := by
  obtain ⟨path, other, hpath, hkey, -⟩ := htaken
  obtain ⟨held, hheld, hheldKey⟩ := hstored.pathKey_get
  have hfind := find_path_of_normalized hpath
  have hne : held ≠ path := by
    rintro rfl
    exact hkey hheldKey
  constructor
  · intro heffect
    obtain ⟨given, hgiven, hget⟩ := heffect _ hfind
    rw [hpath, Except.ok.injEq] at hgiven
    subst hgiven
    rw [hget, normalizeMemoryPath_idempotent hpath, Except.ok.injEq] at hheld
    exact hne hheld.symm
  · intro hsame
    rw [hsame _ hfind, hpath, Except.ok.injEq] at hheld
    exact hne hheld.symm

theorem scalarOneOrNone_error
    {rows : List Resource} {error : HTTPException}
    (herror : scalarOneOrNone rows = .error error) : error = internalServerError := by
  unfold scalarOneOrNone at herror
  split at herror
  · cases herror
  · cases herror
  · cases herror
    rfl

/-- The check of a changed path fails with a conflict exactly if the path is taken. -/
theorem checkMemoryPath_iff
    {rows : List Resource} (hstored : StoredMemory py memory.data)
    (hdata : mergeMemoryData py (supply.clock 0) memory.data (memoryUpdate body) =
      .ok data) :
    (Raises IsConflict
        (checkMemoryPath rows workspaceId storeId memory.id memory.data data) ↔
      PathTaken py rows workspaceId storeId body memory) ∧
    ((∃ error, checkMemoryPath rows workspaceId storeId memory.id memory.data data =
      .error error) → ¬PathInEffect py body memory.data) := by
  obtain ⟨held, hheld, hheldKey⟩ := hstored.pathKey_get
  have hfields := mergeMemoryData_fields (memoryUpdate_distinct body) hdata
  change MergedFields py memory.data (sentMemory body) data at hfields
  by_cases hgiven : Dict.contains (sentMemory body) "path" = true
  · obtain ⟨path, hpath, hkey⟩ := hfields.newPath hgiven
    have hget : Dict.get data "path_key" = .str (pathKey path) := by
      rw [Dict.get_eq_find, hkey]
      rfl
    have htaken : PathTaken py rows workspaceId storeId body memory ↔
        Dict.get memory.data "path_key" ≠ .str (pathKey path) ∧
          ∃ other, findMemoryByPath rows workspaceId storeId (pathKey path) =
            .ok (some other) ∧ other.id ≠ memory.id := by
      constructor
      · rintro ⟨given, other, hnormalized, hne, hfound, hother⟩
        rw [hpath, Except.ok.injEq] at hnormalized
        subst hnormalized
        exact ⟨hne, other, hfound, hother⟩
      · rintro ⟨hne, other, hfound, hother⟩
        exact ⟨path, other, hpath, hne, hfound, hother⟩
    rw [htaken]
    unfold checkMemoryPath
    rw [hget, hheldKey]
    by_cases hsame : pathKey held = pathKey path
    · rw [hsame, if_pos (by simp [Json.equal])]
      simp
    · rw [if_neg (by simpa [Json.equal] using hsame), memoryPathKey_eq_ok.mpr hget]
      refine ⟨?_, fun _ heffect => ?_⟩
      · cases hfound : findMemoryByPath rows workspaceId storeId (pathKey path) with
        | error error =>
            have hserver := scalarOneOrNone_error hfound
            simp [bind, Except.bind, hfound, hserver, IsConflict, internalServerError]
        | ok found =>
            cases found with
            | none => simp [bind, Except.bind, hfound, raiseIf]
            | some other =>
                by_cases hother : other.id = memory.id
                · simp [bind, Except.bind, hfound, raiseIf, hother]
                · simp [bind, Except.bind, hfound, raiseIf, hother, IsConflict,
                    pathExists, hsame]
      · obtain ⟨given, hnormalized, hstoredPath⟩ :=
          heffect _ (find_path_of_normalized hpath)
        rw [hpath, Except.ok.injEq] at hnormalized
        subst hnormalized
        rw [hstoredPath, normalizeMemoryPath_idempotent hpath, Except.ok.injEq] at hheld
        exact hsame (by rw [hheld])
  · have hkept := hfields.samePath (by simpa using hgiven)
    have hget : Dict.get data "path_key" = .str (pathKey held) := by
      rw [Dict.get_eq_find, hkept, ← Dict.get_eq_find, hheldKey]
    have hnot : ¬PathTaken py rows workspaceId storeId body memory := by
      rintro ⟨path, other, hpath, -⟩
      have hfind := find_path_of_normalized hpath
      rw [Dict.contains_eq_find, hfind] at hgiven
      exact hgiven rfl
    unfold checkMemoryPath
    rw [hget, hheldKey, if_pos (by simp [Json.equal])]
    simp [hnot]

theorem StaleAnswer.of_refusal
    {error : HTTPException} (hconflict : IsConflict error) :
    StaleAnswer py body memory (.error error) ↔ ¬InEffect py body memory.data := by
  constructor
  · intro hanswer heffect
    obtain ⟨outcome, houtcome, -⟩ := hanswer.idempotent heffect
    cases houtcome
  · intro hnone
    exact ⟨fun heffect => absurd heffect hnone, fun _ => raises_error.mpr hconflict⟩

theorem StaleAnswer.not_of_error
    {error : HTTPException} (hother : ¬IsConflict error) :
    ¬StaleAnswer py body memory (.error error) := by
  intro hanswer
  by_cases heffect : InEffect py body memory.data
  · obtain ⟨outcome, houtcome, -⟩ := hanswer.idempotent heffect
    cases houtcome
  · exact hother (raises_error.mp (hanswer.refused heffect))

theorem StaleAnswer.of_silence
    {outcome : Outcome} (hsilent : outcome.statements = []) :
    StaleAnswer py body memory (.ok outcome) ↔ InEffect py body memory.data := by
  constructor
  · intro hanswer
    by_contra hnone
    exact not_raises_ok _ _ (hanswer.refused hnone)
  · intro heffect
    exact ⟨fun _ => ⟨outcome, rfl, hsilent⟩, fun hnone => absurd heffect hnone⟩

theorem StaleAnswer.not_of_write
    {outcome : Outcome} (hwrites : outcome.statements ≠ []) :
    ¬StaleAnswer py body memory (.ok outcome) := by
  intro hanswer
  by_cases heffect : InEffect py body memory.data
  · obtain ⟨given, hgiven, hsilent⟩ := hanswer.idempotent heffect
    cases hgiven
    exact hwrites hsilent
  · exact not_raises_ok _ _ (hanswer.refused heffect)

/-- The branch of a stale digest. -/
theorem staleDigestBranch_iff (hstored : StoredMemory py memory.data) :
    StaleAnswer py body memory (answerStaleContent py memory (memoryUpdate body)) ↔
      (∃ requested, RequestedPath py memory.data (sentMemory body) requested) ∧
      (PathAgrees py body memory.data ∧ ContentInEffect py body memory.data →
        InEffect py body memory.data) ∧
      (InEffect py body memory.data → PathAgrees py body memory.data) := by
  unfold answerStaleContent
  cases hmatched : memoryRequestedStateMatchesCurrent py memory.data
    (memoryUpdate body) with
  | error error =>
      refine iff_of_false (StaleAnswer.not_of_error
        (memoryRequestedStateMatchesCurrent_raises _ _ error hmatched)) ?_
      rintro ⟨⟨requested, hrequested⟩, -⟩
      obtain ⟨path, hpath, -⟩ := hstored.pathKey_get
      have hok := memoryRequestedStateMatchesCurrent_eq_ok.mpr
        ⟨requested, path, (requestedPath_sent requested).mpr hrequested, hpath, rfl⟩
      rw [hmatched] at hok
      cases hok
  | ok matched =>
      have hiff := matches_iff hstored hmatched
      have hrequested : ∃ requested,
          RequestedPath py memory.data (sentMemory body) requested := by
        obtain ⟨requested, path, hrequested, -⟩ :=
          memoryRequestedStateMatchesCurrent_eq_ok.mp hmatched
        exact ⟨requested, (requestedPath_sent requested).mp hrequested⟩
      rw [and_iff_right hrequested]
      cases matched with
      | true =>
          obtain ⟨hpath, hcontent⟩ := hiff.mp rfl
          refine (StaleAnswer.of_silence rfl).trans ⟨fun heffect => ?_, fun h => ?_⟩
          · exact ⟨fun _ => heffect, fun _ => hpath⟩
          · exact h.1 ⟨hpath, hcontent⟩
      | false =>
          have hnot : ¬(PathAgrees py body memory.data ∧
              ContentInEffect py body memory.data) := fun hboth =>
            Bool.false_ne_true (hiff.mpr hboth)
          have hrefused := @StaleAnswer.of_refusal py body memory
            ⟨409, "Memory content precondition failed"⟩ rfl
          refine hrefused.trans ⟨fun hnone => ?_, fun h heffect => ?_⟩
          · exact ⟨fun hboth => absurd hboth hnot, fun heffect => absurd heffect hnone⟩
          · exact hnot ⟨h.2 heffect, heffect.content⟩

/-- The branch without a stale precondition that is compared. -/
theorem mergeBranch_iff
    {number : ℤ} (hstored : StoredMemory py memory.data)
    (hversion : storedMemoryVersion py memory.data = .ok number)
    (hbody : Dict.Keyed body.modelDump) :
    StaleAnswer py body memory (do
      let data ← mergeMemoryData py (supply.clock 0) memory.data (memoryUpdate body)
      if memoryHasMaterialChange memory.data data then
        checkMemoryPath (view 1) workspaceId storeId memory.id memory.data data
        writeMemory py supply workspaceId memory data
      else return { shown := memory }) ↔
    ContentFits py body ∧
      ((InEffect py body memory.data ∧ PathAsStored body memory.data) ∨
        PathTaken py (view 1) workspaceId storeId body memory) := by
  cases hdata : mergeMemoryData py (supply.clock 0) memory.data (memoryUpdate body) with
  | error error =>
      refine iff_of_false (StaleAnswer.not_of_error
        (mergeMemoryData_raises _ _ _ error hdata)) ?_
      rintro ⟨hfits, hpath⟩
      have hrequested : ∃ requested,
          RequestedPath py memory.data (sentMemory body) requested := by
        unfold RequestedPath
        by_cases hgiven : Dict.contains (sentMemory body) "path" = true
        · simp only [if_pos hgiven]
          rcases hpath with ⟨heffect, -⟩ | ⟨path, other, hnormalized, -⟩
          · obtain ⟨path, hnormalized, -⟩ := heffect.path _ (Dict.find_of_contains hgiven)
            exact ⟨_, path, hnormalized, rfl⟩
          · exact ⟨_, path, hnormalized, rfl⟩
        · simp [if_neg hgiven]
      obtain ⟨merged, hmerged⟩ := @mergeMemoryData_ok _ _ _ (supply.clock 0) _ hversion
        hrequested hfits
      rw [hdata] at hmerged
      cases hmerged
  | ok data =>
      have hfields := mergeMemoryData_fields (memoryUpdate_distinct body) hdata
      have hkeyed :=
        mergeMemoryData_keyed hstored.keyed (((hbody.pop _).pop _).pop _) hdata
      have hunchanged := memory_unchanged_iff hstored (sentMemory_sent body) hfields
        hkeyed.distinct
      change _ ↔ PathAsStored body memory.data ∧ ContentInEffect py body memory.data ∧
        RestInEffect memory.data (sentMemory body) at hunchanged
      rw [and_iff_right (mergeMemoryData_checked hdata).2]
      cases hchange : memoryHasMaterialChange memory.data data with
      | false =>
          obtain ⟨hpath, -⟩ := hunchanged.mp hchange
          have hnot : ¬PathTaken py (view 1) workspaceId storeId body memory :=
            fun htaken =>
            (htaken.changes hstored).2 hpath
          have hanswer : StaleAnswer py body memory (.ok { shown := memory }) ↔ _ :=
            StaleAnswer.of_silence rfl
          simp only [bind, Except.bind, hchange, Bool.false_eq_true, if_false, hpath,
            hnot, and_true, or_false]
          exact hanswer
      | true =>
          have hnot :
              ¬(InEffect py body memory.data ∧ PathAsStored body memory.data) := by
            rintro ⟨heffect, hpath⟩
            have hsame := hunchanged.mpr ⟨hpath, heffect.content, heffect.rest⟩
            rw [hchange] at hsame
            cases hsame
          obtain ⟨hconflict, hother⟩ :=
            @checkMemoryPath_iff py supply workspaceId storeId body memory data (view 1)
              hstored hdata
          rw [or_iff_right hnot]
          cases hchecked : checkMemoryPath (view 1) workspaceId storeId memory.id
              memory.data data with
          | error error =>
              rw [hchecked] at hconflict hother
              have hnone : ¬InEffect py body memory.data := fun heffect =>
                hother ⟨error, rfl⟩ heffect.path
              rw [← hconflict, raises_error]
              simp only [bind, Except.bind, hchange, if_true, hchecked]
              by_cases hkind : IsConflict error
              · exact iff_of_true ((StaleAnswer.of_refusal hkind).mpr hnone) hkind
              · exact iff_of_false (StaleAnswer.not_of_error hkind) hkind
          | ok value =>
              rw [hchecked] at hconflict
              obtain ⟨next, -, hnext⟩ := (mergeMemoryData_merged hdata).version
              obtain ⟨key, hkey⟩ : ∃ key, Dict.get data "path_key" = .str key := by
                obtain ⟨path, -, hkey⟩ :=
                  (mergeMemoryData_stored hstored hbody hdata).pathKey_get
                exact ⟨_, hkey⟩
              obtain ⟨outcome, hwrite, hwrites⟩ :=
                @writeMemory_ok py data supply workspaceId key memory _ hkey hnext
              have hanswer := @StaleAnswer.not_of_write py body memory outcome hwrites
              simp only [bind, Except.bind, hchange, if_true, hchecked, hwrite]
              exact iff_of_false hanswer (hconflict.not.mp (not_raises_ok _ _))

theorem staleAnswer_iff
    (hview : normalizeMemoryView viewName = .ok shown)
    (hexists : mustExist (view 0) workspaceId memoryId .memory (some storeId) =
      .ok memory)
    (hstored : StoredMemory py memory.data)
    (hversion : storedMemoryVersion py memory.data = .ok (versionNumber memory))
    (hbody : Dict.Keyed body.modelDump) :
    StaleAnswer py body memory
        (updateMemory py supply workspaceId storeId memoryId body viewName view) ↔
      StaleHandled py (view 1) workspaceId storeId body memory := by
  unfold updateMemory StaleHandled
  rw [hview, hexists]
  by_cases hcompared : ComparedVersionStale body memory
  · have hrefused := @StaleAnswer.of_refusal py body memory versionConflict rfl
    simp only [hcompared, not_true_eq_false, false_and, or_false, true_and]
    simp only [bind, Except.bind, checkMemoryVersion_stale hversion hcompared]
    exact hrefused
  · simp only [hcompared, not_false_eq_true, false_and, false_or, true_and]
    cases hdigest : contentPreconditionStale (Dict.get body.modelDump "precondition")
        memory.data with
    | true =>
        have hanswer := @staleDigestBranch_iff py body memory hstored
        simp only [bind, Except.bind, checkMemoryVersion_fresh hversion hcompared,
          hdigest, if_true, Bool.true_eq_false, false_and, or_false, true_and]
        exact hanswer
    | false =>
        have hanswer := @mergeBranch_iff py supply workspaceId storeId body view memory _
          hstored hversion hbody
        simp only [Bool.false_eq_true, false_and, false_or, true_and]
        rw [← hanswer]
        simp only [bind, Except.bind, checkMemoryVersion_fresh hversion hcompared,
          hdigest, Bool.false_eq_true, if_false]

/-! ## Without preconditions -/

theorem pop_modelDump (declared : List (String × Option Json)) (extra : Dict)
    (key : String) :
    Dict.pop (modelDump declared extra) key =
      modelDump (declared.map fun field =>
        if field.1 = key then (field.1, none) else field) (Dict.pop extra key) := by
  unfold modelDump Dict.pop
  rw [List.filter_append]
  congr 1
  induction declared with
  | nil => rfl
  | cons field rest ih =>
      obtain ⟨name, value⟩ := field
      cases value with
      | none => by_cases hname : name = key <;> simpa [hname] using ih
      | some value => by_cases hname : name = key <;> simpa [hname] using ih

theorem memoryUpdate_withoutPreconditions (body : MemoryUpdateRequest) :
    memoryUpdate body.withoutPreconditions = memoryUpdate body := by
  simp [memoryUpdate, MemoryUpdateRequest.modelDump,
    MemoryUpdateRequest.withoutPreconditions, pop_modelDump]

theorem updateMemory_fresh
    (hversion : ∀ row, mustExist (view 0) workspaceId memoryId .memory (some storeId) =
      .ok row → storedMemoryVersion py row.data = .ok (versionNumber row))
    (hfresh : ∀ row, mustExist (view 0) workspaceId memoryId .memory (some storeId) =
      .ok row → ¬body.Stale row) :
    updateMemory py supply workspaceId storeId memoryId body viewName view =
      updateMemory py supply workspaceId storeId memoryId body.withoutPreconditions
        viewName view := by
  unfold updateMemory
  rw [memoryUpdate_withoutPreconditions]
  cases hview : normalizeMemoryView viewName with
  | error error => rfl
  | ok shown =>
      cases hexists : mustExist (view 0) workspaceId memoryId .memory (some storeId) with
      | error error => rfl
      | ok row =>
          have hnone := hfresh row hexists
          have hstored := hversion row hexists
          have hpasses : ∀ sent : MemoryUpdateRequest, ¬sent.Stale row →
              checkMemoryVersion py (expectedMemoryVersion sent) row.data = .ok () ∧
                contentPreconditionStale (Dict.get sent.modelDump "precondition")
                  row.data = false := fun sent hsent =>
            ⟨checkMemoryVersion_fresh hstored fun hcompared =>
                hsent (Or.inl hcompared.stale),
              Bool.eq_false_iff.mpr fun hdigest =>
                hsent (Or.inr (staleDigest_of_compared hdigest))⟩
          have hcleared : ¬body.withoutPreconditions.Stale row := by
            rintro (⟨version, hsent, -⟩ | ⟨precondition, digest, hsent, -⟩)
            · rcases hsent with hsent | hsent <;> cases hsent
            · cases hsent
          obtain ⟨hchecked, hdigest⟩ := hpasses body hnone
          obtain ⟨hcheckedCleared, hdigestCleared⟩ := hpasses _ hcleared
          simp only [bind, Except.bind, hchecked, hdigest, hcheckedCleared,
            hdigestCleared]

end

/-! ## Runs -/

/-- With a stale precondition an update in effect succeeds without a write and any other
one is refused, exactly where the code handles it; without a stale one the preconditions
do not matter. -/
theorem stale_preconditions_iff
    {py : Interpreter} {calls : List (MemoryCall × List ℕ)} {world : MemoryWorld}
    (hkeyed : ∀ label ∈ calls, label.1.request.Keyed)
    (hrun : run (memoryStep py) MemoryWorld.start calls = some world) :
    ∀ (view : View) (supply : Supply) workspaceId storeId memoryId
      (body : MemoryUpdateRequest) viewName shown memory,
      view 0 ∈ world.history →
      mustExist (view 0) workspaceId memoryId .memory (some storeId) = .ok memory →
      Dict.Keyed body.modelDump → normalizeMemoryView viewName = .ok shown →
      (body.Stale memory →
        (StaleAnswer py body memory
            (updateMemory py supply workspaceId storeId memoryId body viewName view) ↔
          StaleHandled py (view 1) workspaceId storeId body memory)) ∧
      (¬body.Stale memory →
        updateMemory py supply workspaceId storeId memoryId body viewName view =
          updateMemory py supply workspaceId storeId memoryId body.withoutPreconditions
            viewName view) := by
  intro view supply workspaceId storeId memoryId body viewName shown memory hview hexists
    hbody hshown
  obtain ⟨hmem, -, htype, -, hlive, -⟩ := mustExist_found hexists
  have hstored := memory_run_stored hkeyed hrun _ hview memory hmem htype hlive
  have hhistory :=
    (((memory_run_ordered hrun).states _ hview).1.memories memory hmem htype)
  have hversion := @History.storedMemoryVersion_eq py _ _ hhistory
  constructor
  · intro _
    exact staleAnswer_iff hshown hexists hstored hversion hbody
  · intro hfresh
    have hrow : ∀ row, mustExist (view 0) workspaceId memoryId .memory (some storeId) =
        .ok row → row = memory := fun row hrow =>
      (Except.ok.inj (hexists.symm.trans hrow)).symm
    exact updateMemory_fresh (fun row h => hrow row h ▸ hversion)
      fun row h => hrow row h ▸ hfresh

/-- An old version number, and the content which the memory has. -/
def sampleOldVersionBody : MemoryUpdateRequest :=
  { content := some (some "draft"), ifVersion := some (some 0)
    undeclared := MemoryUpdateRequest.undeclared_nil, distinct := List.nodup_nil }

/-- An old digest, the content which the memory has and other metadata. -/
def sampleOldDigestBody : MemoryUpdateRequest :=
  { content := some (some "draft")
    precondition := some (some
      { contentSha256 := some (some "old")
        undeclared := MemoryPrecondition.undeclared_nil, distinct := List.nodup_nil })
    metadata := some (some [("label", .str "x")])
    undeclared := MemoryUpdateRequest.undeclared_nil, distinct := List.nodup_nil }

def sampleStaleAnswer (body : MemoryUpdateRequest) : Except HTTPException Outcome :=
  updateMemory sampleInterpreter
    (sampleSupply "c") "wrkspc_default" "memstore_a0" "mem_b0"
    body none fun _ => sampleDraftWorld.current

theorem sample_stale_preconditions_iff :
    (sampleOldVersionBody.Stale sampleDraftMemory →
      (StaleAnswer sampleInterpreter sampleOldVersionBody sampleDraftMemory
          (sampleStaleAnswer sampleOldVersionBody) ↔
        StaleHandled sampleInterpreter sampleDraftWorld.current "wrkspc_default"
          "memstore_a0" sampleOldVersionBody sampleDraftMemory)) ∧
      (¬sampleOldVersionBody.Stale sampleDraftMemory →
        sampleStaleAnswer sampleOldVersionBody =
          sampleStaleAnswer sampleOldVersionBody.withoutPreconditions) :=
  stale_preconditions_iff
    (by decide : ∀ label ∈ sampleDraftCalls, label.1.request.Keyed)
    (Option.some_get _).symm (fun _ => sampleDraftWorld.current) (sampleSupply "c")
    "wrkspc_default" "memstore_a0" "mem_b0" sampleOldVersionBody none _ sampleDraftMemory
    List.mem_cons_self (eq_ok_get _) (by decide) rfl

theorem sampleOldVersionBody_inEffect :
    InEffect sampleInterpreter sampleOldVersionBody sampleDraftMemory.data := by
  have hsent : sentMemory sampleOldVersionBody = [("content", .str "draft")] := by
    decide
  have hcontent : Dict.get sampleDraftMemory.data "content" = .str "draft" := by
    decide +kernel
  refine ⟨fun value hvalue => ?_, fun _ => ?_, fun key value hkey hvalue => ?_⟩
  · rw [hsent] at hvalue
    cases hvalue
  · rw [hsent, hcontent]
    rfl
  · rw [hsent] at hvalue
    by_cases hsame : "content" = key
    · subst hsame
      exact absurd hkey (by decide)
    · simp [Dict.find, hsame] at hvalue

theorem sampleOldDigestBody_not_inEffect :
    ¬InEffect sampleInterpreter sampleOldDigestBody sampleDraftMemory.data := by
  intro heffect
  have hmetadata := heffect.rest "metadata" (.dict [("label", .str "x")]) (by decide)
    (by decide)
  revert hmetadata
  decide +kernel

/-- The first update is in effect and refused; the second one is not in effect and
succeeds without a write. -/
theorem stale_preconditions_mishandled :
    run (memoryStep sampleInterpreter) MemoryWorld.start sampleDraftCalls =
        some sampleDraftWorld ∧
      mustExist sampleDraftWorld.current "wrkspc_default" "mem_b0" .memory
        (some "memstore_a0") = .ok sampleDraftMemory ∧
      (sampleOldVersionBody.Stale sampleDraftMemory ∧
        ¬StaleAnswer sampleInterpreter sampleOldVersionBody sampleDraftMemory
          (sampleStaleAnswer sampleOldVersionBody)) ∧
      sampleOldDigestBody.Stale sampleDraftMemory ∧
      ¬StaleAnswer sampleInterpreter sampleOldDigestBody sampleDraftMemory
        (sampleStaleAnswer sampleOldDigestBody) := by
  refine ⟨(Option.some_get _).symm, eq_ok_get _, ⟨?_, fun hanswer => ?_⟩, ?_,
    fun hanswer => ?_⟩
  · exact Or.inl ⟨0, Or.inl rfl, by decide +kernel⟩
  · obtain ⟨outcome, houtcome, -⟩ := hanswer.idempotent sampleOldVersionBody_inEffect
    have hfails : (sampleStaleAnswer sampleOldVersionBody).toOption.isNone = true := by
      decide +kernel
    rw [houtcome] at hfails
    cases hfails
  · exact Or.inr ⟨_, "old", rfl, rfl, by decide +kernel⟩
  · obtain ⟨error, herror, -⟩ := hanswer.refused sampleOldDigestBody_not_inEffect
    have hsucceeds : (sampleStaleAnswer sampleOldDigestBody).toOption.isSome = true := by
      decide +kernel
    rw [herror] at hsucceeds
    cases hsucceeds

end ManagedAgents
