import ManagedAgents.NormalizedPaths
import ManagedAgents.Storage

/-!
# Keys of different workspaces

A key has six segments, the second one being the safe form of its workspace.
The check of staged keys compares the workspace as it is configured.
-/

namespace ManagedAgents

open Segments

/-! ## Safe names -/

/-- What `_safe_path_part` can return. -/
structure IsPathPart (part : String) : Prop where
  nonempty : part ≠ ""
  short : part.toList.length ≤ 120
  chars : ∀ char ∈ part.toList, isPathChar char = true

theorem mem_subRuns
    {allowed : Char → Bool} {inRun : Bool} {text : List Char} {char : Char}
    (hchar : char ∈ subRuns allowed inRun text) : allowed char = true ∨ char = '_' := by
  induction text generalizing inRun with
  | nil => cases hchar
  | cons first rest ih =>
      simp only [subRuns] at hchar
      split at hchar
      next hallowed =>
        rcases List.mem_cons.mp hchar with rfl | hchar
        · exact Or.inl hallowed
        · exact ih hchar
      · split at hchar
        · exact ih hchar
        · rcases List.mem_cons.mp hchar with rfl | hchar
          · exact Or.inr rfl
          · exact ih hchar

theorem subRuns_of_allowed
    {allowed : Char → Bool} {text : List Char}
    (htext : ∀ char ∈ text, allowed char = true) : subRuns allowed false text = text := by
  induction text with
  | nil => rfl
  | cons first rest ih =>
      rw [List.forall_mem_cons] at htext
      simp only [subRuns, htext.1, if_true, ih htext.2]

/-- The codes of the characters which a safe name may have. -/
theorem code_of_isPathChar
    {char : Char} (hchar : isPathChar char = true) :
    char.toNat = 45 ∨ char.toNat = 46 ∨ 48 ≤ char.toNat ∧ char.toNat ≤ 57 ∨
      char.toNat = 61 ∨ 65 ≤ char.toNat ∧ char.toNat ≤ 90 ∨ char.toNat = 95 ∨
      97 ≤ char.toNat ∧ char.toNat ≤ 122 := by
  have halphanum : char.isAlphanum =
      ((decide ('A'.val ≤ char.val ∧ char.val ≤ 'Z'.val) ||
        (decide ('a'.val ≤ char.val) && decide (char.val ≤ 'z'.val))) ||
          (decide ('0'.val ≤ char.val) && decide (char.val ≤ '9'.val))) := rfl
  simp only [isPathChar, isFilenameChar, halphanum, Bool.or_eq_true, decide_eq_true_eq,
    Bool.and_eq_true, UInt32.le_iff_toNat_le] at hchar
  change ((((((65 ≤ char.toNat ∧ char.toNat ≤ 90) ∨
    (97 ≤ char.toNat ∧ char.toNat ≤ 122)) ∨ (48 ≤ char.toNat ∧ char.toNat ≤ 57)) ∨
    char = '.') ∨ char = '_') ∨ char = '-') ∨ char = '=' at hchar
  rcases hchar with (((((h | h) | h) | rfl) | rfl) | rfl) | rfl
  · omega
  · omega
  · omega
  all_goals decide

theorem not_isspace_of_isPathChar
    {char : Char} (hchar : isPathChar char = true) : isspace char = false := by
  have hcode := code_of_isPathChar hchar
  simp only [isspace, Bool.or_eq_false_iff, Bool.and_eq_false_iff,
    decide_eq_false_iff_not]
  omega

theorem ne_slash_of_isPathChar
    {char : Char} (hchar : isPathChar char = true) : char ≠ '/' := by
  rintro rfl
  cases hchar

theorem isPathChar_of_isFilenameChar
    {char : Char} (hchar : isFilenameChar char = true) : isPathChar char = true := by
  simp [isPathChar, hchar]

theorem IsPathPart.no_slash {part : String} (hpart : IsPathPart part) :
    '/' ∉ part.toList :=
  fun hslash => ne_slash_of_isPathChar (hpart.chars _ hslash) rfl

theorem mem_take_subRuns
    {allowed : Char → Bool}
    (hallowed : ∀ char, allowed char = true → isPathChar char = true)
    {count : ℕ} {text : List Char} {char : Char}
    (hchar : char ∈ (subRuns allowed false text).take count) : isPathChar char =
      true := by
  rcases mem_subRuns (List.mem_of_mem_take hchar) with hchar | rfl
  · exact hallowed char hchar
  · rfl

theorem safePathPart_isPathPart (value : String) : IsPathPart (safePathPart value) := by
  unfold safePathPart textOr
  split
  · constructor
    · decide
    · decide
    · decide
  next hne =>
    constructor
    · exact hne
    · rw [String.toList_ofList]
      exact List.length_take_le _ _
    · intro char hchar
      rw [String.toList_ofList] at hchar
      exact mem_take_subRuns (fun _ h => h) hchar

theorem strip_of_isPathChar
    {text : String} (htext : ∀ char ∈ text.toList, isPathChar char = true) :
    strip text = text := by
  have hkeep : ∀ chars : List Char, (∀ char ∈ chars, isPathChar char = true) →
      chars.dropWhile isspace = chars := by
    intro chars hchars
    cases chars with
    | nil => rfl
    | cons first rest =>
        rw [List.dropWhile_cons_of_neg]
        simp [not_isspace_of_isPathChar (hchars first List.mem_cons_self)]
  unfold strip
  rw [hkeep _ htext, hkeep _ (by simpa using htext), List.reverse_reverse,
    String.ofList_toList]

theorem safePathPart_of_isPathPart {part : String} (hpart : IsPathPart part) :
    safePathPart part = part := by
  unfold safePathPart
  rw [strip_of_isPathChar hpart.chars, subRuns_of_allowed hpart.chars,
    List.take_of_length_le hpart.short, String.ofList_toList]
  exact if_neg hpart.nonempty

/-- A safe name stays as it is, and no other name does. -/
theorem isPathPart_iff (part : String) : IsPathPart part ↔ safePathPart part = part := by
  refine ⟨safePathPart_of_isPathPart, fun hsame => ?_⟩
  rw [← hsame]
  exact safePathPart_isPathPart part

theorem safeFilename_no_slash (value : String) : '/' ∉ (safeFilename value).toList := by
  unfold safeFilename
  generalize strip ((splitSlashes (textOr value "object")).getLastD "") = candidate
  intro hslash
  simp only [textOr] at hslash
  split at hslash
  · revert hslash
    decide
  · rw [String.toList_ofList] at hslash
    exact ne_slash_of_isPathChar
      (mem_take_subRuns (fun _ => isPathChar_of_isFilenameChar) hslash) rfl

theorem HexText.no_slash (hex : HexText) : '/' ∉ hex.text.toList := by
  intro hslash
  have hdigit := hex.digits _ hslash
  cases hdigit

theorem KeyRequest.unique_no_slash (request : KeyRequest) :
    '/' ∉ request.unique.toList := by
  have hfresh : '/' ∉ ("obj_" ++ request.uuidHex.text).toList := by
    rw [String.toList_append, List.mem_append, not_or]
    exact ⟨by decide, request.uuidHex.no_slash⟩
  unfold KeyRequest.unique
  split
  next digest _ =>
    split
    · exact hfresh
    · rw [String.toList_ofList]
      exact fun hslash => digest.no_slash (List.mem_of_mem_take hslash)
  · exact hfresh

theorem isoDate_no_slash (now : Time) : '/' ∉ (isoDate now).toList := by
  intro hslash
  rcases isoDate_chars now _ hslash with hdigit | hdash
  · cases hdigit
  · cases hdash

/-! ## The segments of a key -/

def KeyRequest.namespacePart (request : KeyRequest) : String :=
  safePathPart (textOr request.nameSpace "oma")

def KeyRequest.categoryPart (request : KeyRequest) : String :=
  safePathPart (textOr request.category "general")

theorem KeyRequest.namespacePart_isPathPart (request : KeyRequest) :
    IsPathPart request.namespacePart :=
  safePathPart_isPathPart (textOr request.nameSpace "oma")

theorem KeyRequest.categoryPart_isPathPart (request : KeyRequest) :
    IsPathPart request.categoryPart :=
  safePathPart_isPathPart (textOr request.category "general")

def KeyRequest.lastPart (request : KeyRequest) : String :=
  request.unique ++ "_" ++ safeFilename request.filename

theorem KeyRequest.lastPart_no_slash (request : KeyRequest) :
    '/' ∉ request.lastPart.toList := by
  have hmark : '/' ∉ "_".toList := by decide
  unfold KeyRequest.lastPart
  rw [String.toList_append, String.toList_append, List.mem_append, List.mem_append,
    not_or, not_or]
  exact ⟨⟨request.unique_no_slash, hmark⟩, safeFilename_no_slash _⟩

theorem objectKey_eq (workspaceId : String) (request : KeyRequest) :
    objectKey workspaceId request =
      "workspaces/" ++ safePathPart workspaceId ++ "/" ++ request.namespacePart ++ "/" ++
        request.categoryPart ++ "/" ++ isoDate request.now ++ "/" ++ request.lastPart := by
  unfold objectKey KeyRequest.lastPart KeyRequest.namespacePart KeyRequest.categoryPart
  simp only [String.append_assoc]

theorem join_key_parts (workspace nameSpace category date last : String) :
    ("workspaces/" ++ workspace ++ "/" ++ nameSpace ++ "/" ++ category ++ "/" ++ date ++
      "/" ++ last).toList =
      ['/'].intercalate
        (["workspaces", workspace, nameSpace, category, date,
          last].map String.toList) := by
  simp [List.intercalate_cons_cons, List.intercalate_singleton]

theorem splitSlashes_objectKey (workspaceId : String) (request : KeyRequest) :
    splitSlashes (objectKey workspaceId request) =
      ["workspaces", safePathPart workspaceId, request.namespacePart,
        request.categoryPart, isoDate request.now, request.lastPart] := by
  unfold splitSlashes
  rw [objectKey_eq, join_key_parts, splitOn_join]
  · simp
  · simp only [List.map_cons, List.map_nil, List.forall_mem_cons]
    exact ⟨by decide, (safePathPart_isPathPart workspaceId).no_slash,
      request.namespacePart_isPathPart.no_slash, request.categoryPart_isPathPart.no_slash,
      isoDate_no_slash _, request.lastPart_no_slash, by simp⟩
  · simp

/-! ## Staged keys -/

theorem splitSlashes_of_no_slash {text : String} (htext : '/' ∉ text.toList) :
    splitSlashes text = [text] := by
  simp [splitSlashes, List.splitOn_eq_singleton htext]

theorem startswith_workspace_iff (key workspaceId : String) :
    startswith key ("workspaces/" ++ workspaceId ++ "/") = true ↔
      ∃ back, back ≠ [] ∧
        splitSlashes key = "workspaces" :: (splitSlashes workspaceId ++ back) := by
  have hprefix : ("workspaces/" ++ workspaceId ++ "/").toList =
      ("workspaces".toList ++ '/' :: workspaceId.toList) ++ ['/'] := by simp
  have hsplit : ("workspaces".toList ++ '/' :: workspaceId.toList).splitOn '/' =
      "workspaces".toList :: workspaceId.toList.splitOn '/' :=
    List.splitOn_append_cons_self_of_not_mem (by decide) _
  unfold startswith
  rw [List.isPrefixOf_iff_prefix, hprefix, isPrefix_iff, hsplit]
  constructor
  · rintro ⟨back, hback, hkey⟩
    refine ⟨back.map String.ofList, by simpa using hback, ?_⟩
    simp [splitSlashes, hkey]
  · rintro ⟨back, hback, hkey⟩
    refine ⟨back.map String.toList, by simpa using hback, ?_⟩
    rw [← map_toList_splitSlashes, hkey, ← map_toList_splitSlashes]
    simp

theorem staged_iff
    {key first last : String} (middle : List String)
    (hkey : splitSlashes key = first :: (middle ++ [last])) :
    occursIn "/staged-uploads/".toList key.toList = true ↔ "staged-uploads" ∈ middle := by
  have hsegment : "/staged-uploads/".toList = '/' :: "staged-uploads".toList ++ ['/'] :=
    rfl
  have hsplit := map_toList_splitSlashes key
  rw [hkey, List.map_cons, List.map_append, List.map_singleton] at hsplit
  rw [occursIn_iff, hsegment, isInfix_iff (by decide), ← hsplit, exists_between_iff,
    List.mem_map_of_injective fun _ _ => String.toList_inj.mp]

theorem validateStagedUploadKey_eq_ok (workspaceId key : String) :
    validateStagedUploadKey workspaceId key = .ok () ↔
      startswith key ("workspaces/" ++ workspaceId ++ "/") = true ∧
        occursIn "/staged-uploads/".toList key.toList = true := by
  unfold validateStagedUploadKey
  dsimp only
  generalize startswith key _ = starts
  generalize occursIn _ _ = staged
  cases starts <;> cases staged <;> simp

theorem isoDate_ne_staged (now : Time) : isoDate now ≠ "staged-uploads" := by
  intro hsame
  have hchars := isoDate_chars now 's' (by rw [hsame]; decide)
  revert hchars
  decide

/-- A key passes the check of a workspace. -/
theorem validate_objectKey_iff (workspaceId other : String) (request : KeyRequest) :
    validateStagedUploadKey other (objectKey workspaceId request) = .ok () ↔
      (∃ back, back ≠ [] ∧
        [safePathPart workspaceId, request.namespacePart, request.categoryPart,
          isoDate request.now, request.lastPart] = splitSlashes other ++ back) ∧
      "staged-uploads" ∈
        [safePathPart workspaceId, request.namespacePart, request.categoryPart] := by
  have hsplit := splitSlashes_objectKey workspaceId request
  have hstaged := staged_iff [safePathPart workspaceId, request.namespacePart,
    request.categoryPart, isoDate request.now] hsplit
  have hmiddle : "staged-uploads" ∈ [safePathPart workspaceId, request.namespacePart,
      request.categoryPart, isoDate request.now] ↔
      "staged-uploads" ∈
        [safePathPart workspaceId, request.namespacePart, request.categoryPart] := by
    simp [(isoDate_ne_staged request.now).symm]
  have hprefix := startswith_workspace_iff (objectKey workspaceId request) other
  simp only [hsplit, List.cons.injEq, true_and] at hprefix
  rw [validateStagedUploadKey_eq_ok, hprefix, hstaged, hmiddle]

/-! ## Separation -/

/-- The other workspace is the safe name, alone or followed by further segments
which a staged key with this name can have. -/
def Extends (part other : String) : Prop :=
  match splitSlashes other with
  | [first] => first = part
  | [first, nameSpace] => first = part ∧ IsPathPart nameSpace
  | [first, nameSpace, category] =>
      first = part ∧ IsPathPart nameSpace ∧ IsPathPart category ∧
        "staged-uploads" ∈ [part, nameSpace, category]
  | [first, nameSpace, category, date] =>
      first = part ∧ IsPathPart nameSpace ∧ IsPathPart category ∧
        "staged-uploads" ∈ [part, nameSpace, category] ∧ ∃ now, date = isoDate now
  | _ => False

def sampleUuid : HexText where
  text := "00000000000000000000000000000000"
  digits := by decide

/-- A request whose key has the given segments. -/
def partsRequest (nameSpace category : String) (now : Time) : KeyRequest where
  nameSpace := nameSpace
  category := category
  filename := "object"
  now := now
  uuidHex := sampleUuid

theorem textOr_of_isPathPart
    {part fallback : String} (hpart : IsPathPart part) :
    safePathPart (textOr part fallback) = part := by
  unfold textOr
  rw [if_neg hpart.nonempty, safePathPart_of_isPathPart hpart]

/-- The other workspace is made of the first segments of a staged key. -/
theorem validate_partsRequest
    {workspaceId other : String} (nameSpace category : String) (now : Time) (count : ℕ)
    (hnamespace : IsPathPart nameSpace) (hcategory : IsPathPart category)
    (hstaged : "staged-uploads" ∈ [safePathPart workspaceId, nameSpace, category])
    (hother : splitSlashes other =
      [safePathPart workspaceId, nameSpace, category, isoDate now].take count) :
    ∃ request, validateStagedUploadKey other (objectKey workspaceId request) =
      .ok () := by
  have hnamespacePart : (partsRequest nameSpace category now).namespacePart = nameSpace :=
    textOr_of_isPathPart hnamespace
  have hcategoryPart : (partsRequest nameSpace category now).categoryPart = category :=
    textOr_of_isPathPart hcategory
  refine ⟨partsRequest nameSpace category now, ?_⟩
  rw [validate_objectKey_iff, hnamespacePart, hcategoryPart, hother]
  refine ⟨⟨[safePathPart workspaceId, nameSpace, category, isoDate now].drop count ++
    [(partsRequest nameSpace category now).lastPart], by simp, ?_⟩, hstaged⟩
  rw [← List.append_assoc, List.take_append_drop]
  rfl

theorem isPathPart_staged : IsPathPart "staged-uploads" :=
  ⟨by decide, by decide, by decide⟩

theorem extends_of_validate
    {workspaceId other : String} {request : KeyRequest}
    (haccepted : validateStagedUploadKey other (objectKey workspaceId request) = .ok ()) :
    Extends (safePathPart workspaceId) other := by
  obtain ⟨⟨back, hback, hsplit⟩, hstaged⟩ :=
    (validate_objectKey_iff workspaceId other request).mp haccepted
  have hnamespace := request.namespacePart_isPathPart
  have hcategory := request.categoryPart_isPathPart
  unfold Extends
  match hother : splitSlashes other with
  | [] => exact absurd hother (splitSlashes_ne_nil other)
  | [first] =>
      rw [hother] at hsplit
      exact (List.cons.inj hsplit).1.symm
  | [first, nameSpace] =>
      rw [hother] at hsplit
      simp only [List.cons_append, List.cons.injEq] at hsplit
      obtain ⟨rfl, rfl, -⟩ := hsplit
      exact ⟨rfl, hnamespace⟩
  | [first, nameSpace, category] =>
      rw [hother] at hsplit
      simp only [List.cons_append, List.cons.injEq] at hsplit
      obtain ⟨rfl, rfl, rfl, -⟩ := hsplit
      exact ⟨rfl, hnamespace, hcategory, hstaged⟩
  | [first, nameSpace, category, date] =>
      rw [hother] at hsplit
      simp only [List.cons_append, List.cons.injEq] at hsplit
      obtain ⟨rfl, rfl, rfl, rfl, -⟩ := hsplit
      exact ⟨rfl, hnamespace, hcategory, hstaged, request.now, rfl⟩
  | first :: second :: third :: fourth :: fifth :: rest =>
      rw [hother] at hsplit
      simp only [List.cons_append, List.cons.injEq] at hsplit
      exact absurd hsplit.2.2.2.2.2.symm (by simp [hback])

/-- Some key of a workspace passes the check of another one. -/
theorem exists_validate_iff (workspaceId other : String) :
    (∃ request, validateStagedUploadKey other (objectKey workspaceId request) = .ok ()) ↔
      Extends (safePathPart workspaceId) other := by
  constructor
  · rintro ⟨request, haccepted⟩
    exact extends_of_validate haccepted
  · intro hextends
    unfold Extends at hextends
    split at hextends
    next first hother =>
      apply validate_partsRequest "staged-uploads" "staged-uploads" 0 1 isPathPart_staged
        isPathPart_staged
      · exact List.mem_cons_of_mem _ List.mem_cons_self
      · rw [hother, hextends, List.take_succ_cons, List.take_zero]
    next first nameSpace hother =>
      apply validate_partsRequest nameSpace "staged-uploads" 0 2 hextends.2
        isPathPart_staged
      · exact List.mem_cons_of_mem _ (List.mem_cons_of_mem _ List.mem_cons_self)
      · rw [hother, hextends.1, List.take_succ_cons, List.take_succ_cons, List.take_zero]
    next first nameSpace category hother =>
      apply validate_partsRequest nameSpace category 0 3 hextends.2.1 hextends.2.2.1
        hextends.2.2.2
      rw [hother, hextends.1, List.take_succ_cons, List.take_succ_cons,
        List.take_succ_cons, List.take_zero]
    next first nameSpace category date hother =>
      obtain ⟨now, hdate⟩ := hextends.2.2.2.2
      apply validate_partsRequest nameSpace category now 4 hextends.2.1 hextends.2.2.1
        hextends.2.2.2.1
      rw [hother, hextends.1, hdate, List.take_of_length_le (by simp)]
    next => exact absurd hextends not_false

/-- Two workspaces share a key exactly if their safe names are the same. -/
theorem exists_same_key_iff (workspaceId other : String) :
    (∃ request second, objectKey workspaceId request = objectKey other second) ↔
      safePathPart workspaceId = safePathPart other := by
  constructor
  · rintro ⟨request, second, hsame⟩
    have hsplit := splitSlashes_objectKey workspaceId request
    rw [hsame, splitSlashes_objectKey other second] at hsplit
    simp only [List.cons.injEq, true_and] at hsplit
    exact hsplit.1.symm
  · intro hsame
    refine ⟨partsRequest "" "" 0, partsRequest "" "" 0, ?_⟩
    rw [objectKey_eq, objectKey_eq, hsame]

/-- Every presigned key passes exactly if the name of the workspace is safe. -/
theorem presigned_accepted_iff (workspaceId : String) :
    (∀ now uuidHex body, validateStagedUploadKey workspaceId
      (presignedKey workspaceId now uuidHex body) = .ok ()) ↔
      safePathPart workspaceId = workspaceId := by
  constructor
  · intro haccepted
    have hpart : ∀ nameSpace, IsPathPart nameSpace → ∃ rest back, back ≠ [] ∧
        safePathPart workspaceId :: nameSpace :: rest =
          splitSlashes workspaceId ++ back := by
      intro nameSpace hnamespace
      have hkey := haccepted 0 sampleUuid { filename := "object", nameSpace := nameSpace }
      obtain ⟨⟨back, hback, hsplit⟩, -⟩ := (validate_objectKey_iff _ _ _).mp hkey
      have hnamespacePart : safePathPart (textOr nameSpace "oma") = nameSpace :=
        textOr_of_isPathPart hnamespace
      simp only [KeyRequest.namespacePart, hnamespacePart] at hsplit
      exact ⟨_, back, hback, hsplit⟩
    obtain ⟨rest, back, hback, hsplit⟩ := hpart "a" ⟨by decide, by decide, by decide⟩
    obtain ⟨others, after, hafter, hothers⟩ := hpart "b" ⟨by decide, by decide, by decide⟩
    match hworkspace : splitSlashes workspaceId with
    | [] => exact absurd hworkspace (splitSlashes_ne_nil workspaceId)
    | [first] =>
        have hjoin := joinSlashes_splitSlashes workspaceId
        rw [hworkspace] at hsplit hjoin
        have hfirst : safePathPart workspaceId = first := (List.cons.inj hsplit).1
        rw [hfirst]
        simpa [joinSlashes] using hjoin
    | first :: second :: more =>
        rw [hworkspace] at hsplit hothers
        simp only [List.cons_append, List.cons.injEq] at hsplit hothers
        exact absurd (hsplit.2.1.trans hothers.2.1.symm) (by decide)
  · intro hsafe now uuidHex body
    have hpart := (isPathPart_iff workspaceId).mpr hsafe
    have hworkspace := splitSlashes_of_no_slash hpart.no_slash
    unfold presignedKey
    rw [validate_objectKey_iff, hworkspace, hsafe]
    refine ⟨⟨_, List.cons_ne_nil _ _, rfl⟩, ?_⟩
    have hstaged : safePathPart (textOr "staged-uploads" "general") = "staged-uploads" :=
      textOr_of_isPathPart isPathPart_staged
    simp only [KeyRequest.categoryPart, hstaged]
    exact List.mem_cons_of_mem _ (List.mem_cons_of_mem _ List.mem_cons_self)

/-! ## Both together -/

/-- No key of the first workspace is one of the second or passes its check. -/
structure KeysSeparated (first second : String) : Prop where
  distinct : ∀ request other, objectKey first request ≠ objectKey second other
  refused : ∀ request,
    validateStagedUploadKey second (objectKey first request) = .error notStaged

def PresignedAccepted (workspaceId : String) : Prop :=
  ∀ now uuidHex body,
    validateStagedUploadKey workspaceId (presignedKey workspaceId now uuidHex body) =
      .ok ()

theorem validate_eq_error_iff (workspaceId key : String) :
    validateStagedUploadKey workspaceId key = .error notStaged ↔
      validateStagedUploadKey workspaceId key ≠ .ok () := by
  unfold validateStagedUploadKey
  dsimp only
  split <;> simp

theorem keysSeparated_iff (first second : String) :
    KeysSeparated first second ↔
      safePathPart first ≠ safePathPart second ∧
        ¬Extends (safePathPart first) second := by
  rw [← exists_validate_iff, ne_eq, ← exists_same_key_iff]
  push Not
  constructor
  · rintro ⟨hdistinct, hrefused⟩
    exact ⟨hdistinct, fun request => (validate_eq_error_iff _ _).mp (hrefused request)⟩
  · rintro ⟨hdistinct, hrefused⟩
    exact ⟨hdistinct, fun request => (validate_eq_error_iff _ _).mpr (hrefused request)⟩

/-- The keys of a workspace are its own, and its staged keys are accepted in it,
exactly if its name is safe and the other workspace neither has this safe name
nor continues it. -/
theorem workspace_keys_separated_iff (first second : String) :
    KeysSeparated first second ∧ PresignedAccepted first ↔
      safePathPart first = first ∧ safePathPart second ≠ first ∧
        ¬Extends first second := by
  unfold PresignedAccepted
  rw [keysSeparated_iff, presigned_accepted_iff]
  constructor
  · rintro ⟨⟨hnames, hextends⟩, hsafe⟩
    rw [hsafe] at hnames hextends
    exact ⟨hsafe, Ne.symm hnames, hextends⟩
  · rintro ⟨hsafe, hnames, hextends⟩
    rw [hsafe]
    exact ⟨⟨Ne.symm hnames, hextends⟩, rfl⟩

/-- A blank in the name of a workspace is stored as an underscore. -/
theorem blank_name_shares_keys :
    "team a" ≠ "team_a" ∧
      objectKey "team a" (partsRequest "oma" "files" 0) =
        objectKey "team_a" (partsRequest "oma" "files" 0) ∧
      ¬KeysSeparated "team a" "team_a" ∧ ¬PresignedAccepted "team a" := by
  have hsafe : safePathPart "team a" = safePathPart "team_a" := by decide
  have hsame : objectKey "team a" (partsRequest "oma" "files" 0) =
      objectKey "team_a" (partsRequest "oma" "files" 0) := by
    rw [objectKey_eq, objectKey_eq, hsafe]
  refine ⟨by decide, hsame, fun hseparated => hseparated.distinct _ _ hsame, ?_⟩
  intro haccepted
  have hname := (presigned_accepted_iff "team a").mp haccepted
  revert hname
  decide

end ManagedAgents
