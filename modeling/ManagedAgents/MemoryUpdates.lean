import ManagedAgents.MemoryChanges

/-!
# Updates of memories

A request creates a version exactly if it asks for another path or another content,
unless it spells its path in another way than the normalised one.  Such a path is
stored as it was sent.
-/

namespace ManagedAgents

open Fallible LabelledRuns ReadCommitted

/-! ## What a request asks for -/

/-- A path and a content are all that the update sets, besides what never counts as a
change. -/
def MemoryUpdateRequest.Plain (body : MemoryUpdateRequest) : Prop :=
  ∀ field ∈ sentMemory body, ¬PlainlyMerged field.1

instance (body : MemoryUpdateRequest) : Decidable body.Plain :=
  inferInstanceAs (Decidable (∀ field ∈ sentMemory body, _))

/-- The normalised path is not the stored one. -/
def AsksOtherPath (py : Interpreter) (body : MemoryUpdateRequest) (data : Dict) : Prop :=
  ∃ path, normalizeMemoryPath py (Dict.get (sentMemory body) "path") = .ok path ∧
    Dict.get data "path" ≠ .str path

/-- The content, `None` for the empty one, is not the stored one. -/
def AsksOtherContent (py : Interpreter) (body : MemoryUpdateRequest)
    (data : Dict) : Prop :=
  Dict.contains (sentMemory body) "content" = true ∧
    Dict.get data "content" ≠
      .str (contentText py (Dict.get (sentMemory body) "content"))

def AsksChange (py : Interpreter) (body : MemoryUpdateRequest) (data : Dict) : Prop :=
  AsksOtherPath py body data ∨ AsksOtherContent py body data

/-- A path that is sent is spelled as it is normalised. -/
def MemoryUpdateRequest.SpellsPath (py : Interpreter)
    (body : MemoryUpdateRequest) : Prop :=
  ∀ path, normalizeMemoryPath py (Dict.get (sentMemory body) "path") = .ok path →
    Dict.get (sentMemory body) "path" = .str path

def CreatesVersion (memory : Resource) (outcome : Outcome) : Prop :=
  ∃ version, Statement.insert version ∈ outcome.statements ∧
    version.resourceType = .memoryVersion ∧ version.parentId = some memory.id

/-- A version is created exactly for a change, and otherwise nothing is written. -/
structure UpdateExact (py : Interpreter) (body : MemoryUpdateRequest) (memory : Resource)
    (outcome : Outcome) : Prop where
  creates : CreatesVersion memory outcome ↔ AsksChange py body memory.data
  silent : ¬AsksChange py body memory.data → outcome.statements = []

/-- The stored path is a slash and the path key. -/
def PathCanonical (data : Dict) : Prop :=
  ∃ key, Dict.get data "path_key" = .str key ∧ Dict.get data "path" = .str ("/" ++ key)

def PathsCanonical (rows : List Resource) : Prop :=
  ∀ row ∈ rows, row.resourceType = .memory → PathCanonical row.data

/-- Of the requests only updates can spell a path. -/
def PathsSpelled (py : Interpreter) (call : MemoryCall) (_view : View) : Prop :=
  match call.request with
  | .update _ _ body _ => body.SpellsPath py
  | .createStore _ | .updateStore .. | .archiveStore _ | .deleteStore _ | .create ..
  | .delete .. | .redact .. => True

/-! ## Answers -/

section

variable {py : Interpreter} {supply : Supply} {workspaceId storeId memoryId : String}
  {body : MemoryUpdateRequest} {viewName : Option String} {view : View}
  {memory : Resource} {outcome : Outcome}

/-- The ways in which an update succeeds. -/
inductive UpdateAnswer (py : Interpreter) (supply : Supply) (workspaceId storeId : String)
    (body : MemoryUpdateRequest) (view : View) (memory : Resource) : Outcome → Prop
  | inEffect
      (hstale : contentPreconditionStale (Dict.get body.modelDump "precondition")
        memory.data = true)
      (hsame : memoryRequestedStateMatchesCurrent py memory.data (memoryUpdate body) =
        .ok true) :
      UpdateAnswer py supply workspaceId storeId body view memory { shown := memory }
  | unchanged (data : Dict)
      (hfresh : contentPreconditionStale (Dict.get body.modelDump "precondition")
        memory.data = false)
      (hdata : mergeMemoryData py (supply.clock 0) memory.data (memoryUpdate body) =
        .ok data)
      (hsame : memoryHasMaterialChange memory.data data = false) :
      UpdateAnswer py supply workspaceId storeId body view memory { shown := memory }
  | written (data : Dict) (outcome : Outcome)
      (hfresh : contentPreconditionStale (Dict.get body.modelDump "precondition")
        memory.data = false)
      (hdata : mergeMemoryData py (supply.clock 0) memory.data (memoryUpdate body) =
        .ok data)
      (hchange : memoryHasMaterialChange memory.data data = true)
      (hwrite : writeMemory py supply workspaceId memory data = .ok outcome) :
      UpdateAnswer py supply workspaceId storeId body view memory outcome

theorem updateMemory_answer
    (hexists : mustExist (view 0) workspaceId memoryId .memory (some storeId) =
      .ok memory)
    (houtcome : updateMemory py supply workspaceId storeId memoryId body viewName view =
      .ok outcome) :
    UpdateAnswer py supply workspaceId storeId body view memory outcome := by
  unfold updateMemory at houtcome
  simp only [bind_eq_ok, hexists, Except.ok.injEq] at houtcome
  obtain ⟨-, -, _, rfl, ⟨⟩, -, houtcome⟩ := houtcome
  split at houtcome
  next hstale =>
    simp only [answerStaleContent, bind_eq_ok, pure_eq_ok, raiseIf_eq_ok] at houtcome
    obtain ⟨inEffect, hsame, ⟨⟩, heffect, rfl⟩ := houtcome
    exact .inEffect hstale (hsame.trans (by simpa using heffect))
  next hfresh =>
    rw [Bool.not_eq_true] at hfresh
    obtain ⟨data, hdata, houtcome⟩ := bind_eq_ok.mp houtcome
    split at houtcome
    next hchange =>
      obtain ⟨⟨⟩, -, hwrite⟩ := bind_eq_ok.mp houtcome
      exact .written data outcome hfresh hdata hchange hwrite
    next hsame =>
      cases houtcome
      exact .unchanged data hfresh hdata (by simpa using hsame)

theorem writeMemory_creates
    {data : Dict} (hwrite : writeMemory py supply workspaceId memory data = .ok outcome) :
    CreatesVersion memory outcome := by
  unfold writeMemory at hwrite
  simp only [bind_eq_ok, pure_eq_ok] at hwrite
  obtain ⟨key, -, number, -, rfl⟩ := hwrite
  exact ⟨_, List.mem_cons_of_mem _ List.mem_cons_self, rfl, rfl⟩

theorem not_createsVersion_nothing : ¬CreatesVersion memory { shown := memory } := by
  rintro ⟨version, hversion, -⟩
  cases hversion

/-! ## Exact updates -/

theorem contains_sentMemory
    {key : String} (hkey : key ∉ ["updated_by", "actor"]) :
    Dict.contains (memoryUpdate body) key = Dict.contains (sentMemory body) key ∧
      Dict.get (memoryUpdate body) key = Dict.get (sentMemory body) key :=
  ⟨(withoutActor_get hkey).2.symm, (withoutActor_get hkey).1.symm⟩

/-- The stored path of a memory whose path is canonical. -/
theorem StoredMemory.normalized
    {data : Dict} (hstored : StoredMemory py data) (hcanonical : PathCanonical data) :
    ∃ path, Dict.get data "path" = .str path ∧
      normalizeMemoryPath py (.str path) = .ok path := by
  obtain ⟨held, path, hheld, hpath, hkey⟩ := hstored.path
  obtain ⟨key, hgetKey, hgetPath⟩ := hcanonical
  rw [Dict.get_eq_find, hkey, Option.getD_some, Json.str.injEq] at hgetKey
  subst hgetKey
  rw [← normalizeMemoryPath_canonical hpath] at hgetPath
  exact ⟨path, hgetPath, normalizeMemoryPath_idempotent hpath⟩

/-- The path which an update asks for, the stored one if it sends none. -/
def RequestedPath (py : Interpreter) (current update : Dict) (requested : Json) : Prop :=
  if Dict.contains update "path" then
    ∃ path, normalizeMemoryPath py (Dict.get update "path") = .ok path ∧
      requested = .str path
  else requested = Dict.get current "path"

/-- The content which an update asks for, the stored one if it sends none. -/
def requestedContent (py : Interpreter) (current update : Dict) : String :=
  if Dict.contains update "content" then contentText py (Dict.get update "content")
  else contentText py (Dict.get current "content")

theorem memoryRequestedStateMatchesCurrent_eq_ok
    {current update : Dict} {matched : Bool} :
    memoryRequestedStateMatchesCurrent py current update = .ok matched ↔
      ∃ requested path, RequestedPath py current update requested ∧
        normalizeMemoryPath py (Dict.get current "path") = .ok path ∧
        (Json.equal requested (.str path) && requestedContent py current update =
          contentText py (Dict.get current "content")) = matched := by
  unfold memoryRequestedStateMatchesCurrent RequestedPath requestedContent
  cases hgiven : Dict.contains update "path" with
  | true =>
      simp only [if_true, bind_eq_ok, pure_eq_ok]
      constructor
      · rintro ⟨given, hnormalized, requested, rfl, path, hpath, rfl⟩
        exact ⟨_, path, ⟨given, hnormalized, rfl⟩, hpath, rfl⟩
      · rintro ⟨requested, path, ⟨given, hnormalized, rfl⟩, hpath, rfl⟩
        exact ⟨given, hnormalized, _, rfl, path, hpath, rfl⟩
  | false =>
      simp only [Bool.false_eq_true, if_false, bind_eq_ok, pure_eq_ok]
      constructor
      · rintro ⟨requested, rfl, path, hpath, rfl⟩
        exact ⟨_, path, rfl, hpath, rfl⟩
      · rintro ⟨requested, path, rfl, hpath, rfl⟩
        exact ⟨_, rfl, path, hpath, rfl⟩

/-- An update which is in effect asks for no change. -/
theorem not_asksChange_of_matches
    {data : Dict} (hstored : StoredMemory py data) (hcanonical : PathCanonical data)
    (hmatches : memoryRequestedStateMatchesCurrent py data (memoryUpdate body) =
      .ok true) : ¬AsksChange py body data := by
  obtain ⟨path, hpath, hnormalized⟩ := hstored.normalized hcanonical
  obtain ⟨text, htext⟩ := hstored.content
  have hsentPath := @contains_sentMemory body "path" (by decide)
  have hsentContent := @contains_sentMemory body "content" (by decide)
  have hheld : Dict.get data "content" = .str text := by
    rw [Dict.get_eq_find, htext]
    rfl
  obtain ⟨requested, current, hrequested, hcurrent, hsame⟩ :=
    memoryRequestedStateMatchesCurrent_eq_ok.mp hmatches
  rw [hpath, hnormalized, Except.ok.injEq] at hcurrent
  subst hcurrent
  rw [Bool.and_eq_true, decide_eq_true_eq] at hsame
  rintro (⟨given, hgiven, hother⟩ | ⟨hgiven, hother⟩)
  · have hsent : Dict.contains (sentMemory body) "path" = true := by
      by_contra habsent
      rw [Bool.not_eq_true] at habsent
      rw [Dict.get_of_not_contains habsent] at hgiven
      exact normalizeMemoryPath_null hgiven
    rw [RequestedPath, hsentPath.1, if_pos hsent, hsentPath.2] at hrequested
    obtain ⟨_, hsame', rfl⟩ := hrequested
    rw [hgiven, Except.ok.injEq] at hsame'
    subst hsame'
    simp only [Json.equal, decide_eq_true_eq] at hsame
    exact hother (hpath.trans hsame.1)
  · apply hother
    have hcontent := hsame.2
    rw [requestedContent, hsentContent.1, if_pos hgiven, hsentContent.2,
      hheld] at hcontent
    rw [hheld, hcontent]
    simp [contentText, Python.str]

theorem updateExact_iff
    (hstored : StoredMemory py memory.data) (hcanonical : PathCanonical memory.data)
    (hbody : Dict.Keyed body.modelDump) (hplain : body.Plain)
    (hexists : mustExist (view 0) workspaceId memoryId .memory (some storeId) =
      .ok memory)
    (houtcome : updateMemory py supply workspaceId storeId memoryId body viewName view =
      .ok outcome) :
    UpdateExact py body memory outcome ↔
      AsksChange py body memory.data ∨ body.SpellsPath py ∨
        contentPreconditionStale (Dict.get body.modelDump "precondition") memory.data =
          true := by
  obtain ⟨path, hpath, hnormalized⟩ := hstored.normalized hcanonical
  have hunchanged : ∀ data,
      mergeMemoryData py (supply.clock 0) memory.data (memoryUpdate body) = .ok data →
      (memoryHasMaterialChange memory.data data = false ↔
        (∀ value, Dict.find (sentMemory body) "path" = some value →
          Dict.get memory.data "path" = value) ∧
        ¬AsksOtherContent py body memory.data) := by
    intro data hdata
    have hfields := mergeMemoryData_fields (memoryUpdate_distinct body) hdata
    have hkeyed := mergeMemoryData_keyed hstored.keyed (((hbody.pop _).pop _).pop _) hdata
    rw [memory_unchanged_iff hstored (sentMemory_sent body) hfields hkeyed.distinct]
    have hrest : RestInEffect memory.data (sentMemory body) := by
      intro key value hkey hvalue
      have hcontains : Dict.contains (sentMemory body) key = true := by
        rw [Dict.contains_eq_find, hvalue]
        rfl
      obtain ⟨field, hfield, rfl⟩ := Dict.exists_of_contains hcontains
      exact absurd hkey (hplain field hfield)
    apply and_congr_right
    intro _
    rw [AsksOtherContent, not_and, not_ne_iff]
    exact and_iff_left hrest
  -- what the path decides when the content stays
  have hspelled : ∀ data,
      mergeMemoryData py (supply.clock 0) memory.data (memoryUpdate body) = .ok data →
      ¬AsksOtherContent py body memory.data →
      ((memoryHasMaterialChange memory.data data = true ↔
          AsksOtherPath py body memory.data) ↔
        AsksOtherPath py body memory.data ∨ body.SpellsPath py) := by
    intro data hdata hcontent
    have hsame := hunchanged data hdata
    rw [and_iff_left hcontent] at hsame
    have hfields := mergeMemoryData_fields (memoryUpdate_distinct body) hdata
    cases hvalue : Dict.find (sentMemory body) "path" with
    | none =>
        have hget : Dict.get (sentMemory body) "path" = .null := by
          rw [Dict.get_eq_find, hvalue]
          rfl
        have hspells : body.SpellsPath py := by
          intro given hgiven
          rw [hget] at hgiven
          exact absurd hgiven normalizeMemoryPath_null
        have hunasked : ¬AsksOtherPath py body memory.data := by
          rintro ⟨given, hgiven, -⟩
          rw [hget] at hgiven
          exact normalizeMemoryPath_null hgiven
        have hfalse : memoryHasMaterialChange memory.data data = false :=
          hsame.mpr fun value hother => by
            rw [hvalue] at hother
            cases hother
        simp [hfalse, hunasked, hspells]
    | some value =>
        have hget : Dict.get (sentMemory body) "path" = value := by
          rw [Dict.get_eq_find, hvalue]
          rfl
        obtain ⟨given, hgiven, -⟩ := hfields.newPath (by
          rw [← sentMemory, Dict.contains_eq_find, hvalue]
          rfl)
        rw [← sentMemory, hget] at hgiven
        have hchange : memoryHasMaterialChange memory.data data = true ↔
            Json.str path ≠ value := by
          rw [← Bool.not_eq_false, hsame, hvalue, hpath]
          simp
        have hasks : AsksOtherPath py body memory.data ↔ path ≠ given := by
          unfold AsksOtherPath
          rw [hget, hgiven, hpath]
          simp
        have hspells : body.SpellsPath py ↔ value = .str given := by
          unfold MemoryUpdateRequest.SpellsPath
          rw [hget, hgiven]
          simp
        rw [hchange, hasks, hspells]
        by_cases hother : path = given
        · subst hother
          simp [eq_comm]
        · have hne : Json.str path ≠ value := by
            rintro rfl
            exact hother (Except.ok.inj (hnormalized.symm.trans hgiven))
          simp [hother, hne]
  cases updateMemory_answer hexists houtcome with
  | inEffect hstale hsame =>
      have hunasked := not_asksChange_of_matches hstored hcanonical hsame
      exact iff_of_true ⟨iff_of_false not_createsVersion_nothing hunasked, fun _ => rfl⟩
        (Or.inr (Or.inr hstale))
  | unchanged data hfresh hdata hsame =>
      have hcontent := ((hunchanged data hdata).mp hsame).2
      have hiff := hspelled data hdata hcontent
      rw [hsame] at hiff
      rw [hfresh]
      simp only [Bool.false_eq_true, false_iff, or_false, AsksChange, hcontent] at hiff ⊢
      rw [← hiff]
      constructor
      · intro hexact hasks
        exact not_createsVersion_nothing (hexact.creates.mpr (Or.inl hasks))
      · intro hunasked
        refine ⟨iff_of_false not_createsVersion_nothing ?_, fun _ => rfl⟩
        rintro (hasks | hasks)
        · exact hunasked hasks
        · exact hcontent hasks
  | written data _ hfresh hdata hchange hwrite =>
      have hcreates := writeMemory_creates hwrite
      rw [hfresh]
      by_cases hcontent : AsksOtherContent py body memory.data
      · exact iff_of_true
          ⟨iff_of_true hcreates (Or.inr hcontent),
            fun hnone => absurd (Or.inr hcontent) hnone⟩
          (Or.inl (Or.inr hcontent))
      · have hiff := hspelled data hdata hcontent
        rw [hchange] at hiff
        simp only [true_iff] at hiff
        simp only [Bool.false_eq_true, or_false, AsksChange, hcontent]
        rw [← hiff]
        constructor
        · intro hexact
          exact (hexact.creates.mp hcreates).resolve_right hcontent
        · intro hasks
          exact ⟨iff_of_true hcreates (Or.inl hasks), fun hnone =>
            absurd (Or.inl hasks) hnone⟩

end

/-! ## Runs -/

theorem pathCanonical_of_find
    {data : Dict} {path : String} (hpath : Dict.find data "path" = some (.str path))
    (hkey : Dict.find data "path_key" = some (.str (pathKey path)))
    (hcanonical : path = "/" ++ pathKey path) : PathCanonical data := by
  refine ⟨pathKey path, ?_, ?_⟩
  · rw [Dict.get_eq_find, hkey]
    rfl
  · rw [Dict.get_eq_find, hpath, ← hcanonical]
    rfl

/-- A path which is not sent stays, and one which is sent must be spelled out. -/
theorem Update.pathCanonical_iff
    {py : Interpreter} {call : MemoryCall} {view : View} {current : List Resource}
    {before after version : Resource} (hbefore : PathCanonical before.data)
    (hupdate : Update py call view current before after version) :
    PathCanonical after.data ↔ PathsSpelled py call view := by
  obtain ⟨storeId, memoryId, body, viewName, key, hrequest, -, -, -, hdata, -⟩ :=
    hupdate.request
  have hfields := mergeMemoryData_fields (memoryUpdate_distinct body) hdata
  change MergedFields py before.data (sentMemory body) after.data at hfields
  have hpath := hfields.field "path" (by decide)
  unfold PathsSpelled
  rw [hrequest]
  dsimp only
  cases hvalue : Dict.find (sentMemory body) "path" with
  | none =>
      have hget : Dict.get (sentMemory body) "path" = .null := by
        rw [Dict.get_eq_find, hvalue]
        rfl
      have hsameKey := hfields.samePath (Dict.find_eq_none.mp hvalue)
      rw [hvalue, mergedField] at hpath
      refine iff_of_true ?_ fun path hnormalized => ?_
      · obtain ⟨oldKey, holdKey, holdPath⟩ := hbefore
        rw [Dict.get_eq_find] at holdKey holdPath
        refine ⟨oldKey, ?_, ?_⟩
        · rw [Dict.get_eq_find, hsameKey, holdKey]
        · rw [Dict.get_eq_find, hpath, holdPath]
      · rw [hget] at hnormalized
        exact absurd hnormalized normalizeMemoryPath_null
  | some value =>
      have hget : Dict.get (sentMemory body) "path" = value := by
        rw [Dict.get_eq_find, hvalue]
        rfl
      obtain ⟨path, hnormalized, hkey⟩ := hfields.newPath (by
        rw [Dict.contains_eq_find, hvalue]
        rfl)
      rw [hget] at hnormalized
      have hcanonical := normalizeMemoryPath_canonical hnormalized
      have hnonempty : value ≠ .str "" := by
        rintro rfl
        exact normalizeMemoryPath_empty hnormalized
      rw [hvalue, mergedField, if_neg hnonempty] at hpath
      constructor
      · rintro ⟨newKey, hnewKey, hnewPath⟩ given hgiven
        rw [hget, hnormalized, Except.ok.injEq] at hgiven
        subst hgiven
        rw [Dict.get_eq_find, hkey, Option.getD_some, Json.str.injEq] at hnewKey
        rw [Dict.get_eq_find, hpath, Option.getD_some, ← hnewKey,
          ← hcanonical] at hnewPath
        rw [hget, hnewPath]
      · intro hspells
        have hsame := hspells path (by rw [hget, hnormalized])
        rw [hget] at hsame
        rw [hsame] at hpath
        exact pathCanonical_of_find hpath hkey hcanonical

theorem Creation.pathCanonical
    {py : Interpreter} {call : MemoryCall} {view : View} {current : List Resource}
    {memory version : Resource}
    (hcreation : Creation py call view current memory version) :
    PathCanonical memory.data := by
  obtain ⟨storeId, body, viewName, key, -, hdata, -⟩ := hcreation.request
  obtain ⟨path, hnormalized, hpath, hkey⟩ := memoryPayload_path_find hdata
  exact pathCanonical_of_find hpath hkey (normalizeMemoryPath_canonical hnormalized)

theorem Deletion.pathCanonical
    {py : Interpreter} {call : MemoryCall} {view : View} {current : List Resource}
    {before after version : Resource} (hbefore : PathCanonical before.data)
    (hdeletion : Deletion py call view current before after version) :
    PathCanonical after.data := by
  obtain ⟨key, hkey, hpath⟩ := hbefore
  exact ⟨key, (hdeletion.data _ (by decide)).trans hkey,
    (hdeletion.data _ (by decide)).trans hpath⟩

theorem pathsSpelled_of_other
    {py : Interpreter} {call : MemoryCall} {view : View}
    (hrequest : ∀ storeId memoryId body viewName,
      call.request ≠ .update storeId memoryId body viewName) :
    PathsSpelled py call view := by
  unfold PathsSpelled
  split
  next storeId memoryId body viewName hupdate =>
    exact absurd hupdate (hrequest storeId memoryId body viewName)
  all_goals trivial

theorem MemoryCommit.pathsCanonical_iff
    {py : Interpreter} {call : MemoryCall} {view : View} {current next : List Resource}
    (hcurrent : PathsCanonical current)
    (hcommitted : MemoryCommit py call view current next) :
    PathsCanonical next ↔ PathsSpelled py call view := by
  constructor
  · intro hnext
    cases hcommitted with
    | updated before after version hupdate =>
        have hadvance := hupdate.advance
        have hafter : after ∈ replaceRow current after ++ [version] :=
          List.mem_append_left _
            (mem_replaceRow_self hadvance.mem hadvance.follows.id.symm)
        exact (hupdate.pathCanonical_iff (hcurrent before hadvance.mem
          hadvance.resourceType)).mp (hnext after hafter
            (hadvance.follows.resourceType.trans hadvance.resourceType))
    | storeAdded _ hrequest | storeWritten _ _ hrequest | redacted _ _ hrequest =>
        refine pathsSpelled_of_other fun _ _ _ _ hupdate => ?_
        rw [hupdate] at hrequest
        cases hrequest
    | created memory version hcreation =>
        obtain ⟨storeId, body, viewName, key, hrequest, -⟩ := hcreation.request
        exact pathsSpelled_of_other (by simp [hrequest])
    | deleted before after version hdeletion =>
        obtain ⟨storeId, memoryId, expected, hrequest, -⟩ := hdeletion.request
        exact pathsSpelled_of_other (by simp [hrequest])
  · intro hspelled
    exact hcommitted.forall_memories hcurrent
      (fun _ _ hcreation => hcreation.pathCanonical)
      (fun _ _ _ hupdate hbefore => (hupdate.pathCanonical_iff hbefore).mpr hspelled)
      (fun _ _ _ hdeletion hbefore => hdeletion.pathCanonical hbefore)

/-- The stored paths stay canonical exactly if the committed updates spell theirs, and
an update of a memory with a canonical path is exact unless it spells the path which is
stored in another way and asks for nothing else. -/
theorem memory_updates_exact_iff
    {py : Interpreter} {calls : List (MemoryCall × List ℕ)} {world : MemoryWorld}
    (hkeyed : ∀ label ∈ calls, label.1.request.Keyed)
    (hrun : run (memoryStep py) MemoryWorld.start calls = some world) :
    ((∀ rows ∈ world.history, PathsCanonical rows) ↔
      AllSteps (memoryStep py) (WhenCommitted py (PathsSpelled py)) MemoryWorld.start
        calls) ∧
    ∀ (view : View) (supply : Supply) workspaceId storeId memoryId
      (body : MemoryUpdateRequest) viewName memory outcome,
      view 0 ∈ world.history →
      mustExist (view 0) workspaceId memoryId .memory (some storeId) = .ok memory →
      PathCanonical memory.data → Dict.Keyed body.modelDump → body.Plain →
      updateMemory py supply workspaceId storeId memoryId body viewName view =
        .ok outcome →
      (UpdateExact py body memory outcome ↔
        AsksChange py body memory.data ∨ body.SpellsPath py ∨
          contentPreconditionStale (Dict.get body.modelDump "precondition") memory.data =
            true) := by
  constructor
  · exact memory_run_iff (fun _ h => absurd h List.not_mem_nil)
      (fun _ _ _ _ _ _ hcurrent hcommitted => hcommitted.pathsCanonical_iff hcurrent) hrun
  · intro view supply workspaceId storeId memoryId body viewName memory outcome hview
      hexists hcanonical hbody hplain houtcome
    obtain ⟨hmem, -, htype, -, hlive, -⟩ := mustExist_found hexists
    have hstored := memory_run_stored hkeyed hrun _ hview memory hmem htype hlive
    exact updateExact_iff hstored hcanonical hbody hplain hexists houtcome

def sampleDraftCalls : List (MemoryCall × List ℕ) :=
  [sampleStore, sampleMemory "b" "draft" []]

def sampleDraftWorld : MemoryWorld :=
  (run (memoryStep sampleInterpreter) MemoryWorld.start sampleDraftCalls).get
    (by decide)

def sampleDraftMemory : Resource :=
  (mustExist sampleDraftWorld.current "wrkspc_default" "mem_b0" .memory
    (some "memstore_a0")).toOption.get (by decide)

/-- The path is sent with a blank at its end, and nothing else is asked for. -/
def sampleSpacedBody : MemoryUpdateRequest :=
  { path := some (some (.text "/plan "))
    undeclared := MemoryUpdateRequest.undeclared_nil, distinct := List.nodup_nil }

def sampleSpacedPath : List (MemoryCall × List ℕ) :=
  sampleDraftCalls ++
    [(sampleCall "c" (.update "memstore_a0" "mem_b0" sampleSpacedBody none), [])]

def sampleSpacedWorld : MemoryWorld :=
  (run (memoryStep sampleInterpreter) MemoryWorld.start sampleSpacedPath).get
    (by decide +kernel)

theorem sample_memory_updates_exact_iff :
    ((∀ rows ∈ sampleSpacedWorld.history, PathsCanonical rows) ↔
      AllSteps (memoryStep sampleInterpreter)
        (WhenCommitted sampleInterpreter (PathsSpelled sampleInterpreter))
        MemoryWorld.start sampleSpacedPath) ∧
    ∀ (view : View) (supply : Supply) workspaceId storeId memoryId
      (body : MemoryUpdateRequest) viewName memory outcome,
      view 0 ∈ sampleSpacedWorld.history →
      mustExist (view 0) workspaceId memoryId .memory (some storeId) = .ok memory →
      PathCanonical memory.data → Dict.Keyed body.modelDump → body.Plain →
      updateMemory sampleInterpreter supply workspaceId storeId memoryId body viewName
        view = .ok outcome →
      (UpdateExact sampleInterpreter body memory outcome ↔
        AsksChange sampleInterpreter body memory.data ∨
          body.SpellsPath sampleInterpreter ∨
          contentPreconditionStale (Dict.get body.modelDump "precondition") memory.data =
            true) :=
  memory_updates_exact_iff (by decide : ∀ label ∈ sampleSpacedPath,
    label.1.request.Keyed) (Option.some_get _).symm

def sampleSpacedOutcome : Outcome :=
  (updateMemory sampleInterpreter
    (sampleSupply "c") "wrkspc_default" "memstore_a0" "mem_b0"
    sampleSpacedBody none fun _ => sampleDraftWorld.current).toOption.get
      (by decide +kernel)

/-- The same path creates a version, and is stored with the blank. -/
theorem spaced_path_counts_as_change :
    run (memoryStep sampleInterpreter) MemoryWorld.start sampleSpacedPath =
        some sampleSpacedWorld ∧
      sampleDraftWorld.current ∈ sampleSpacedWorld.history ∧
      mustExist sampleDraftWorld.current "wrkspc_default" "mem_b0" .memory
        (some "memstore_a0") =
        .ok sampleDraftMemory ∧
      sampleSpacedBody.Plain ∧
      updateMemory sampleInterpreter (sampleSupply "c") "wrkspc_default" "memstore_a0"
        "mem_b0" sampleSpacedBody none (fun _ => sampleDraftWorld.current) =
        .ok sampleSpacedOutcome ∧
      ¬UpdateExact sampleInterpreter sampleSpacedBody sampleDraftMemory
        sampleSpacedOutcome ∧
      ¬PathsCanonical sampleSpacedWorld.current := by
  refine ⟨(Option.some_get _).symm, by decide +kernel, eq_ok_get _, by decide +kernel,
    eq_ok_get _, fun hexact => ?_, fun hcanonical => ?_⟩
  · have hcreates : sampleSpacedOutcome.statements.length = 3 := by decide +kernel
    have hpath : normalizeMemoryPath sampleInterpreter
        (Dict.get (sentMemory sampleSpacedBody) "path") = .ok "/plan" := by decide
    have hstored : Dict.get sampleDraftMemory.data "path" = .str "/plan" := by
      decide +kernel
    have hcontent : Dict.contains (sentMemory sampleSpacedBody) "content" = false := by
      decide
    have hunasked : ¬AsksChange sampleInterpreter sampleSpacedBody
        sampleDraftMemory.data := by
      rintro (⟨path, hgiven, hother⟩ | ⟨hgiven, -⟩)
      · rw [hpath, Except.ok.injEq] at hgiven
        exact hother (hgiven ▸ hstored)
      · rw [hcontent] at hgiven
        cases hgiven
    rw [hexact.silent hunasked] at hcreates
    cases hcreates
  · have hspaced : ∃ memory ∈ sampleSpacedWorld.current,
        memory.resourceType = .memory ∧ Dict.get memory.data "path_key" = .str "plan" ∧
          Dict.get memory.data "path" = .str "/plan " := by decide +kernel
    obtain ⟨memory, hmemory, htype, hkey, hpath⟩ := hspaced
    obtain ⟨key, hsameKey, hsamePath⟩ := hcanonical memory hmemory htype
    rw [hkey, Json.str.injEq] at hsameKey
    subst hsameKey
    rw [hpath] at hsamePath
    exact absurd hsamePath (by decide)

end ManagedAgents
