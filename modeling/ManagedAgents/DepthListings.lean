import ManagedAgents.ListWalks
import ManagedAgents.MemoryPathRules
import ManagedAgents.DictAgreement
import ManagedAgents.DictEquality

/-!
# Listings with a depth

A listing with a depth shows the memories near the prefix and cuts the paths of the
others.  Every memory under the prefix has one item that stands for it.
-/

namespace ManagedAgents

open Fallible

/-! ## Cut paths -/

def prefixItem (path : String) : Dict :=
  [("type", .str "memory_prefix"), ("path", .str path)]

/-- The path that the items of a prefix show. -/
def rollupPath (segments : List String) : String :=
  if segments = [] then "/" else "/" ++ joinSlashes segments ++ "/"

def prefixBase (prefixKey : String) : List String :=
  if prefixKey = "" then [] else splitSlashes prefixKey

theorem toList_slash (text : String) : ("/" ++ text).toList = '/' :: text.toList := by
  rw [String.toList_append]
  rfl

theorem splitSlashes_inj {text other : String}
    (hsame : splitSlashes text = splitSlashes other) : text = other := by
  rw [← joinSlashes_splitSlashes text, hsame, joinSlashes_splitSlashes]

theorem startswith_slash_iff {key start : String} :
    startswith key (start ++ "/") = true ↔
      ∃ back, back ≠ [] ∧ splitSlashes key = splitSlashes start ++ back := by
  have hstart : (start ++ "/").toList = start.toList ++ ['/'] := by
    rw [String.toList_append]
    rfl
  unfold startswith
  rw [List.isPrefixOf_iff_prefix, hstart, Segments.isPrefix_iff]
  simp only [← map_toList_splitSlashes]
  constructor
  · rintro ⟨back, hback, hsplit⟩
    obtain ⟨front, rest, hwhole, hfront, rfl⟩ := List.map_eq_append_iff.mp hsplit
    have hsame : front = splitSlashes start :=
      List.map_injective_iff.mpr (fun _ _ hsame => String.toList_injective hsame) hfront
    exact ⟨rest, by simpa using hback, by rw [hwhole, hsame]⟩
  · rintro ⟨back, hback, hsplit⟩
    exact ⟨back.map String.toList, by simpa using hback,
      by rw [hsplit, List.map_append]⟩

/-- The segments below the prefix are those after its own. -/
theorem relativeParts_eq_some {prefixKey key : String} {relative : List String} :
    relativeParts prefixKey key = some relative ↔
      prefixBase prefixKey <+: splitSlashes key ∧
        relative = (splitSlashes key).drop (prefixBase prefixKey).length := by
  unfold relativeParts prefixBase
  by_cases hroot : prefixKey = ""
  · simp [hroot, eq_comm]
  · simp only [hroot, if_false]
    by_cases hsame : key = prefixKey
    · simp [hsame, eq_comm]
    · rw [if_neg hsame]
      have hbelow : startswith key (prefixKey ++ "/") = true ↔
          splitSlashes prefixKey <+: splitSlashes key := by
        rw [startswith_slash_iff]
        constructor
        · rintro ⟨back, -, hsplit⟩
          exact ⟨back, hsplit.symm⟩
        · rintro ⟨back, hsplit⟩
          refine ⟨back, ?_, hsplit.symm⟩
          rintro rfl
          rw [List.append_nil] at hsplit
          exact hsame (splitSlashes_inj hsplit.symm)
      simp [hbelow, eq_comm]

/-- A path starts with a cut path if it has further segments after those. -/
theorem startswith_rollupPath_iff
    {key other : String} {count : ℕ} :
    startswith ("/" ++ key) (rollupPath ((splitSlashes other).take count)) = true ↔
      (splitSlashes other).take count <+: splitSlashes key ∧
        ((splitSlashes other).take count).length < (splitSlashes key).length := by
  unfold rollupPath
  by_cases hnone : (splitSlashes other).take count = []
  · rw [if_pos hnone, hnone]
    have hslash : startswith ("/" ++ key) "/" = true := by
      unfold startswith
      rw [List.isPrefixOf_iff_prefix, toList_slash]
      exact ⟨key.toList, rfl⟩
    simp [hslash, List.length_pos_iff, splitSlashes_ne_nil]
  · rw [if_neg hnone]
    have hkept : splitSlashes (joinSlashes ((splitSlashes other).take count)) =
        (splitSlashes other).take count := by
      have hslashless : ∀ segment ∈ ((splitSlashes other).take count).map String.toList,
          '/' ∉ segment := by
        intro segment hsegment
        rw [List.map_take, map_toList_splitSlashes] at hsegment
        exact Segments.not_mem_of_mem_splitOn (List.mem_of_mem_take hsegment)
      unfold joinSlashes
      nth_rewrite 1 [splitSlashes]
      rw [String.toList_ofList, Segments.splitOn_join hslashless (by simpa using hnone)]
      simp [Function.comp_def]
    have hslash : startswith ("/" ++ key)
        ("/" ++ joinSlashes ((splitSlashes other).take count) ++ "/") =
          startswith key (joinSlashes ((splitSlashes other).take count) ++ "/") := by
      unfold startswith
      rw [String.append_assoc, toList_slash, toList_slash]
      rfl
    rw [hslash, startswith_slash_iff, hkept]
    constructor
    · rintro ⟨back, hback, hsplit⟩
      refine ⟨⟨back, hsplit.symm⟩, ?_⟩
      rw [hsplit, List.length_append]
      exact Nat.lt_add_of_pos_right (List.length_pos_iff.mpr hback)
    · rintro ⟨⟨back, hsplit⟩, hlength⟩
      refine ⟨back, ?_, hsplit.symm⟩
      rintro rfl
      rw [← hsplit, List.append_nil] at hlength
      exact lt_irrefl _ hlength

/-! ## Memories -/

/-- The path of the memory is normalised and its key is the one of its path. -/
structure CanonicalMemory (py : Interpreter) (memory : Resource) : Prop where
  type : memory.resourceType = .memory
  path : normalizeMemoryPath py (Dict.get memory.data "path") =
    .ok ("/" ++ memoryResourcePathKey py memory)

def memorySegments (py : Interpreter) (memory : Resource) : List String :=
  splitSlashes (memoryResourcePathKey py memory)

section

variable {py : Interpreter} {columns : RowColumns} {viewName : Option String}
  {memory : Resource}

theorem CanonicalMemory.visible
    (hmemory : CanonicalMemory py memory) : "" ∉ memorySegments py memory := by
  obtain ⟨parts, hparts⟩ := normalizeMemoryPath_eq_ok.mp hmemory.path
  have hvalid := validPath_of_validate hparts.valid
  have hkey := pathKey_of_valid hparts.valid
  have hsegments := splitSlashes_pathKey hparts.valid
  generalize hgiven : memoryResourcePathKey py memory = key at hkey hsegments hvalid
  have hsame : pathKey ("/" ++ key) = key := by
    generalize pathKey ("/" ++ key) = other at hkey
    exact String.append_right_inj "/" |>.mp hkey.symm
  rw [hsame] at hsegments
  unfold memorySegments
  rw [hgiven, ← hsegments]
  intro hempty
  exact (hvalid.segments "" hempty).nonempty rfl

theorem CanonicalMemory.key_ne
    (hmemory : CanonicalMemory py memory) : memoryResourcePathKey py memory ≠ "" := by
  intro hkey
  have hvisible := hmemory.visible
  unfold memorySegments at hvisible
  rw [hkey] at hvisible
  exact hvisible (by decide)

/-- No path of a memory is a cut path. -/
theorem CanonicalMemory.path_ne_rollupPath
    (hmemory : CanonicalMemory py memory) (segments : List String) :
    "/" ++ memoryResourcePathKey py memory ≠ rollupPath segments := by
  have hvisible := hmemory.visible
  have hkey := hmemory.key_ne
  unfold memorySegments at hvisible
  generalize memoryResourcePathKey py memory = key at hvisible hkey
  intro hpath
  unfold rollupPath at hpath
  split at hpath
  · exact hkey (String.append_right_inj "/" |>.mp hpath)
  · rw [String.append_assoc] at hpath
    have hends := String.append_right_inj "/" |>.mp hpath
    have hlist : key.toList = (joinSlashes segments).toList ++ '/' :: [] := by
      rw [hends, String.toList_append]
      rfl
    apply hvisible
    unfold splitSlashes
    rw [hlist, List.splitOn_append_cons_self]
    simp

/-- The response of a memory shows it under its path. -/
theorem CanonicalMemory.response
    {view : Option String} (hmemory : CanonicalMemory py memory)
    (hview : normalizeMemoryView viewName = .ok view) :
    ∃ item, memoryResponse py (columns memory) viewName memory = .ok item ∧
      Dict.get item "type" = .str "memory" ∧
      Dict.get item "path" = .str ("/" ++ memoryResourcePathKey py memory) := by
  have hdata : redactedResourceData memory = memory.data := by
    simp [redactedResourceData, hmemory.type]
  have hpath : Dict.get
      (Dict.set (resourceToResponse py (columns memory) memory (some "memory"))
        "memory_store_id" (optionalText memory.parentId)) "path" =
      Dict.get memory.data "path" := by
    rw [Dict.get_set_other _ (by decide), get_resourceToResponse _ _ _ _ (by decide),
      hdata]
  refine ⟨_, bind_eq_ok.mpr ⟨view, hview, bind_eq_ok.mpr
    ⟨_, (congrArg _ hpath).trans hmemory.path, rfl⟩⟩, ?_, ?_⟩
  · split <;> simp [get_memoryDigests_other, get_resourceToResponse_type]
  · split <;> simp [get_memoryDigests_other]

end

/-! ## Items -/

/-- The segments of the path of the memory which are below the prefix. -/
def segmentsBelow (py : Interpreter) (base : List String) (memory : Resource) :
    List String :=
  (memorySegments py memory).drop base.length

theorem append_segmentsBelow
    {py : Interpreter} {base : List String} {memory : Resource}
    (hbelow : base <+: memorySegments py memory) (depth : ℕ) :
    base ++ (segmentsBelow py base memory).take depth =
      (memorySegments py memory).take (base.length + depth) := by
  obtain ⟨rest, hrest⟩ := hbelow
  unfold segmentsBelow
  rw [← hrest, List.drop_left, List.take_append]
  simp

section

variable (py : Interpreter) (columns : RowColumns) (viewName : Option String)
  (base : List String) (depth : ℕ)

/-- The item that stands for a memory under the prefix. -/
inductive StandsFor (memory : Resource) : Dict → Prop
  | shown {item : Dict}
      (hnear : (segmentsBelow py base memory).length ≤ depth)
      (hitem : memoryResponse py (columns memory) viewName memory = .ok item) :
      StandsFor memory item
  | cut
      (hfar : depth < (segmentsBelow py base memory).length) :
      StandsFor memory
        (prefixItem (rollupPath (base ++ (segmentsBelow py base memory).take depth)))

/-- The dictionary holds the items of the memories that were seen. -/
structure Listed (seen : List Resource) (table : Dict) : Prop where
  distinct : (table.map Prod.fst).Nodup
  mem_iff : ∀ path value, (path, value) ∈ table ↔
    ∃ memory ∈ seen, base <+: memorySegments py memory ∧
      ∃ item, StandsFor py columns viewName base depth memory item ∧
        Dict.get item "path" = .str path ∧ value = .dict item

end

section

variable {py : Interpreter} {columns : RowColumns} {viewName view : Option String}
  {base : List String} {depth : ℕ} {memory other : Resource} {item : Dict}

theorem get_prefixItem_path (path : String) :
    Dict.get (prefixItem path) "path" = .str path := by
  simp [prefixItem, Dict.get]

theorem get_prefixItem_type (path : String) :
    Dict.get (prefixItem path) "type" = .str "memory_prefix" := by
  simp [prefixItem, Dict.get]

/-- Items of one path are the same unless the memories are. -/
theorem StandsFor.eq_of_path
    {found : Dict} (hview : normalizeMemoryView viewName = .ok view)
    (hmemory : CanonicalMemory py memory) (hother : CanonicalMemory py other)
    (hitem : StandsFor py columns viewName base depth memory item)
    (hfound : StandsFor py columns viewName base depth other found)
    (hpath : Dict.get item "path" = Dict.get found "path") :
    item = found ∨ memoryResourcePathKey py memory = memoryResourcePathKey py other := by
  have hshown : ∀ {row : Resource} {response : Dict}, CanonicalMemory py row →
      memoryResponse py (columns row) viewName row = .ok response →
      Dict.get response "path" = .str ("/" ++ memoryResourcePathKey py row) := by
    intro row response hrow hresponse
    obtain ⟨same, hsame, -, hsamePath⟩ :=
      @CanonicalMemory.response py columns _ _ _ hrow hview
    rw [hresponse, Except.ok.injEq] at hsame
    rw [hsame, hsamePath]
  cases hitem with
  | shown hnear hitem =>
      rw [hshown hmemory hitem] at hpath
      cases hfound with
      | shown hnear hfound =>
          rw [hshown hother hfound, Json.str.injEq] at hpath
          exact Or.inr (String.append_right_inj "/" |>.mp hpath)
      | cut hfar =>
          rw [get_prefixItem_path, Json.str.injEq] at hpath
          exact absurd hpath (hmemory.path_ne_rollupPath _)
  | cut hfar =>
      rw [get_prefixItem_path] at hpath
      cases hfound with
      | shown hnear hfound =>
          rw [hshown hother hfound, Json.str.injEq] at hpath
          exact absurd hpath.symm (hother.path_ne_rollupPath _)
      | cut hfar =>
          rw [get_prefixItem_path, Json.str.injEq] at hpath
          exact Or.inl (congrArg prefixItem hpath)

theorem StandsFor.unique
    {found : Dict} (hitem : StandsFor py columns viewName base depth memory item)
    (hfound : StandsFor py columns viewName base depth memory found) : item = found := by
  cases hitem with
  | shown hnear hitem =>
      cases hfound with
      | shown hnear hfound =>
          rw [hitem, Except.ok.injEq] at hfound
          exact hfound
      | cut hfar => exact absurd hnear (Nat.not_le.mpr hfar)
  | cut hfar =>
      cases hfound with
      | shown hnear hfound => exact absurd hnear (Nat.not_le.mpr hfar)
      | cut hfar => rfl

variable {seen : List Resource} {table : Dict}

theorem Listed.skip
    (hlisted : Listed py columns viewName base depth seen table)
    (houtside : ¬ base <+: memorySegments py memory) :
    Listed py columns viewName base depth (seen ++ [memory]) table := by
  refine ⟨hlisted.distinct, fun path value => ?_⟩
  rw [hlisted.mem_iff]
  constructor
  · rintro ⟨row, hrow, hrest⟩
    exact ⟨row, List.mem_append_left _ hrow, hrest⟩
  · rintro ⟨row, hrow, hbelow, hrest⟩
    rcases List.mem_append.mp hrow with hold | hnew
    · exact ⟨row, hold, hbelow, hrest⟩
    · rw [List.mem_singleton.mp hnew] at hbelow
      exact absurd hbelow houtside

theorem Listed.insert
    {added : Dict} {path : String}
    (hlisted : Listed py columns viewName base depth seen table)
    (hbelow : base <+: memorySegments py memory)
    (hitem : StandsFor py columns viewName base depth memory item)
    (hpath : Dict.get item "path" = .str path) (hdistinct : (added.map Prod.fst).Nodup)
    (hadded : ∀ field, field ∈ added ↔ field ∈ table ∨ field = (path, .dict item)) :
    Listed py columns viewName base depth (seen ++ [memory]) added := by
  refine ⟨hdistinct, fun name value => ?_⟩
  rw [hadded, hlisted.mem_iff, Prod.mk.injEq]
  constructor
  · rintro (⟨row, hrow, hrest⟩ | ⟨rfl, rfl⟩)
    · exact ⟨row, List.mem_append_left _ hrow, hrest⟩
    · exact ⟨memory, by simp, hbelow, item, hitem, hpath, rfl⟩
  · rintro ⟨row, hrow, hrowBelow, found, hfound, hname, rfl⟩
    rcases List.mem_append.mp hrow with hold | hnew
    · exact Or.inl ⟨row, hold, hrowBelow, found, hfound, hname, rfl⟩
    · obtain rfl := List.mem_singleton.mp hnew
      obtain rfl := hitem.unique hfound
      rw [hpath, Json.str.injEq] at hname
      exact Or.inr ⟨hname.symm, rfl⟩

/-- A memory with a new key adds its item and changes no other one. -/
theorem Listed.add
    {prefixKey : String}
    (hlisted : Listed py columns viewName (prefixBase prefixKey) depth seen table)
    (hview : normalizeMemoryView viewName = .ok view)
    (hseen : ∀ row ∈ seen, CanonicalMemory py row) (hmemory : CanonicalMemory py memory)
    (hnew : ∀ row ∈ seen,
      memoryResourcePathKey py row ≠ memoryResourcePathKey py memory) :
    ∃ added, addMemoryListItem py columns viewName depth prefixKey table memory =
        .ok added ∧
      Listed py columns viewName (prefixBase prefixKey) depth
        (seen ++ [memory]) added := by
  -- the item agrees with what the dictionary holds under its path
  have hagree : ∀ item path,
      StandsFor py columns viewName (prefixBase prefixKey) depth memory item →
      Dict.get item "path" = .str path →
      ∀ old, (path, old) ∈ table → old = .dict item := by
    intro item path hitem hpath old hold
    obtain ⟨row, hrow, -, found, hfound, hsame, rfl⟩ := (hlisted.mem_iff path old).mp hold
    rcases hfound.eq_of_path hview (hseen row hrow) hmemory hitem (hsame.trans hpath.symm)
      with rfl | hkeys
    · rfl
    · exact absurd hkeys (hnew row hrow)
  unfold addMemoryListItem
  dsimp only
  rw [if_neg hmemory.key_ne]
  cases hparts : relativeParts prefixKey (memoryResourcePathKey py memory) with
  | none =>
      refine ⟨table, rfl, hlisted.skip fun hbelow => ?_⟩
      rw [relativeParts_eq_some.mpr ⟨hbelow, rfl⟩] at hparts
      cases hparts
  | some relative =>
      obtain ⟨hbelow, rfl⟩ := relativeParts_eq_some.mp hparts
      change prefixBase prefixKey <+: memorySegments py memory at hbelow
      dsimp only
      change ∃ added, (if (segmentsBelow py (prefixBase prefixKey) memory).length ≤ depth
        then _ else _) = _ ∧ _
      by_cases hnear : (segmentsBelow py (prefixBase prefixKey) memory).length ≤ depth
      · obtain ⟨item, hitem, -, hpath⟩ :=
          @CanonicalMemory.response py columns viewName _ _ hmemory hview
        have hstands := @StandsFor.shown py columns viewName (prefixBase prefixKey) depth
          memory item hnear hitem
        rw [if_pos hnear]
        refine ⟨_, bind_eq_ok.mpr ⟨item, hitem, ?_⟩,
          hlisted.insert hbelow hstands hpath (Dict.set_distinct hlisted.distinct _ _)
            fun field => Dict.mem_set_of_agree (hagree item _ hstands hpath)⟩
        rw [hpath]
        rfl
      · have hfar := Nat.not_le.mp hnear
        have hstands := @StandsFor.cut py columns viewName (prefixBase prefixKey) depth
          memory hfar
        have hpath := get_prefixItem_path (rollupPath
          (prefixBase prefixKey ++
            (segmentsBelow py (prefixBase prefixKey) memory).take depth))
        rw [if_neg hnear]
        refine ⟨_, ?_,
          hlisted.insert hbelow hstands hpath
            (Dict.setdefault_distinct hlisted.distinct _ _)
            fun field => Dict.mem_setdefault_of_agree (hagree _ _ hstands hpath)⟩
        rw [append_segmentsBelow hbelow]
        rfl

/-- A run of the loop lists the items of all memories. -/
theorem Listed.run
    {prefixKey : String} {resources : List Resource}
    (hlisted : Listed py columns viewName (prefixBase prefixKey) depth seen table)
    (hview : normalizeMemoryView viewName = .ok view)
    (hcanonical : ∀ row ∈ seen ++ resources, CanonicalMemory py row)
    (hdistinct : ((seen ++ resources).map (memoryResourcePathKey py)).Nodup) :
    ∃ whole,
      resources.foldlM (addMemoryListItem py columns viewName depth prefixKey) table =
        .ok whole ∧
      Listed py columns viewName (prefixBase prefixKey) depth
        (seen ++ resources) whole := by
  induction resources generalizing seen table with
  | nil => exact ⟨table, rfl, by rwa [List.append_nil]⟩
  | cons memory resources ih =>
      have hmemory := hcanonical memory (by simp)
      have hnew : ∀ row ∈ seen,
          memoryResourcePathKey py row ≠ memoryResourcePathKey py memory := by
        intro row hrow hkeys
        rw [List.map_append, List.nodup_append] at hdistinct
        exact hdistinct.2.2 _ (List.mem_map_of_mem hrow) _ (by simp) hkeys
      obtain ⟨added, hadded, hstep⟩ := hlisted.add hview
        (fun row hrow => hcanonical row (List.mem_append_left _ hrow)) hmemory hnew
      have hsame : seen ++ memory :: resources = (seen ++ [memory]) ++ resources := by
        simp
      rw [hsame] at hcanonical hdistinct ⊢
      obtain ⟨whole, hwhole, hlast⟩ := ih hstep hcanonical hdistinct
      exact ⟨whole, bind_eq_ok.mpr ⟨added, hadded, hwhole⟩, hlast⟩

/-! ## Listings -/

/-- The item shows the path itself or one that the path goes on after. -/
def Covers (item : Dict) (path : String) : Prop :=
  Dict.get item "type" = .str "memory" ∧ Dict.get item "path" = .str path ∨
    ∃ under, item = prefixItem under ∧ startswith path under = true

theorem StandsFor.covers
    (hview : normalizeMemoryView viewName = .ok view)
    (hmemory : CanonicalMemory py memory)
    (hbelow : base <+: memorySegments py memory)
    (hitem : StandsFor py columns viewName base depth memory item) :
    Covers item ("/" ++ memoryResourcePathKey py memory) := by
  cases hitem with
  | shown hnear hitem =>
      obtain ⟨same, hsame, htype, hpath⟩ :=
        @CanonicalMemory.response py columns viewName _ _ hmemory hview
      rw [hitem, Except.ok.injEq] at hsame
      rw [hsame]
      exact Or.inl ⟨htype, hpath⟩
  | cut hfar =>
      refine Or.inr ⟨_, rfl, ?_⟩
      rw [append_segmentsBelow hbelow]
      refine startswith_rollupPath_iff.mpr ⟨List.take_prefix _ _, ?_⟩
      unfold segmentsBelow at hfar
      rw [List.length_drop] at hfar
      change ((memorySegments py memory).take _).length <
        (memorySegments py memory).length
      rw [List.length_take]
      omega

/-- An item that covers a memory stands for it. -/
theorem StandsFor.of_covers
    (hview : normalizeMemoryView viewName = .ok view) (hother : CanonicalMemory py other)
    (hkeys : memoryResourcePathKey py other = memoryResourcePathKey py memory →
      other = memory)
    (hbelow : base <+: memorySegments py memory)
    (hotherBelow : base <+: memorySegments py other)
    (hitem : StandsFor py columns viewName base depth other item)
    (hcovers : Covers item ("/" ++ memoryResourcePathKey py memory)) :
    StandsFor py columns viewName base depth memory item := by
  cases hitem with
  | shown hnear hitem =>
      obtain ⟨same, hsame, htype, hpath⟩ :=
        @CanonicalMemory.response py columns viewName _ _ hother hview
      rw [hitem, Except.ok.injEq] at hsame
      subst hsame
      rcases hcovers with ⟨-, hshown⟩ | ⟨under, rfl, -⟩
      · rw [hpath, Json.str.injEq] at hshown
        obtain rfl := hkeys (String.append_right_inj "/" |>.mp hshown)
        exact .shown hnear hitem
      · rw [get_prefixItem_type] at htype
        simp at htype
  | cut hfar =>
      rcases hcovers with ⟨htype, -⟩ | ⟨under, hunder, hstart⟩
      · rw [get_prefixItem_type] at htype
        simp at htype
      · have hpaths := congrArg (fun fields => Dict.get fields "path") hunder
        rw [get_prefixItem_path, get_prefixItem_path, Json.str.injEq] at hpaths
        rw [← hpaths, append_segmentsBelow hotherBelow] at hstart
        obtain ⟨hstarts, hlonger⟩ := startswith_rollupPath_iff.mp hstart
        change (memorySegments py other).take _ <+: memorySegments py memory at hstarts
        change ((memorySegments py other).take _).length <
          (memorySegments py memory).length at hlonger
        have hcount : ((memorySegments py other).take (base.length + depth)).length =
            base.length + depth := by
          unfold segmentsBelow at hfar
          rw [List.length_drop] at hfar
          rw [List.length_take]
          omega
        have hsame : base ++ (segmentsBelow py base other).take depth =
            base ++ (segmentsBelow py base memory).take depth := by
          rw [append_segmentsBelow hotherBelow, append_segmentsBelow hbelow]
          rw [List.prefix_iff_eq_take, hcount] at hstarts
          exact hstarts
        rw [hsame]
        refine .cut ?_
        unfold segmentsBelow
        rw [List.length_drop]
        omega

/-- The sorted entries of the dictionary. -/
theorem Listed.entries
    (hlisted : Listed py columns viewName base depth seen table)
    (hview : normalizeMemoryView viewName = .ok view)
    (hcanonical : ∀ row ∈ seen, CanonicalMemory py row) {paths : List String}
    (hpaths : paths.Perm (table.map Prod.fst)) :
    ∃ items, paths.mapM (fun path => toDict (Dict.get table path)) = .ok items ∧
      (items.map fun item => Dict.get item "path") = paths.map Json.str ∧
      ∀ item, item ∈ items ↔ ∃ memory ∈ seen, base <+: memorySegments py memory ∧
        StandsFor py columns viewName base depth memory item := by
  have hentry : ∀ path ∈ paths, ∃ memory ∈ seen, base <+: memorySegments py memory ∧
      ∃ item, StandsFor py columns viewName base depth memory item ∧
        Dict.get item "path" = .str path ∧ toDict (Dict.get table path) = .ok item := by
    intro path hpath
    obtain ⟨⟨name, value⟩, hmem, rfl⟩ := List.mem_map.mp (hpaths.mem_iff.mp hpath)
    obtain ⟨memory, hmemory, hbelow, item, hitem, hname, rfl⟩ :=
      (hlisted.mem_iff name value).mp hmem
    refine ⟨memory, hmemory, hbelow, item, hitem, hname, ?_⟩
    rw [Dict.get_of_mem hlisted.distinct hmem]
    exact toDict_dict item
  obtain ⟨items, hitems⟩ := exists_mapM_eq_ok_iff.mpr fun path hpath => by
    obtain ⟨_, _, _, item, _, _, hread⟩ := hentry path hpath
    exact ⟨item, hread⟩
  refine ⟨items, hitems, map_of_mapM hitems fun path hpath item hitem => ?_,
    fun item => ?_⟩
  · obtain ⟨_, _, _, same, _, hname, hread⟩ := hentry path hpath
    rw [hitem, Except.ok.injEq] at hread
    rw [hread, hname]
  · rw [mem_of_mapM hitems]
    constructor
    · rintro ⟨path, hpath, hitem⟩
      obtain ⟨memory, hmemory, hbelow, same, hstands, -, hread⟩ := hentry path hpath
      rw [hitem, Except.ok.injEq] at hread
      exact ⟨memory, hmemory, hbelow, hread ▸ hstands⟩
    · rintro ⟨memory, hmemory, hbelow, hstands⟩
      obtain ⟨path, hname⟩ : ∃ path, Dict.get item "path" = .str path := by
        rcases hstands.covers hview (hcanonical memory hmemory) hbelow with
          ⟨-, hname⟩ | ⟨under, rfl, -⟩
        · exact ⟨_, hname⟩
        · exact ⟨under, get_prefixItem_path under⟩
      have hmem := (hlisted.mem_iff path (.dict item)).mpr
        ⟨memory, hmemory, hbelow, item, hstands, hname, rfl⟩
      refine ⟨path, hpaths.mem_iff.mpr (List.mem_map_of_mem hmem), ?_⟩
      rw [Dict.get_of_mem hlisted.distinct hmem]
      exact toDict_dict item

/-- The segments below which a listing looks. -/
def listingBase (py : Interpreter) : Option String → Except HTTPException (List String)
  | none => .ok []
  | some under =>
      (normalizeMemoryPathPrefix py under).map fun path => prefixBase (pathKey path)

/-- The listing of an accepted prefix is the run of the loop. -/
theorem memoryListItemsWithDepth_eq_ok
    {pathPrefix : Option String} {count : ℤ} {resources : List Resource} {order : String}
    (hbase : listingBase py pathPrefix = .ok base) (hcount : 0 ≤ count) :
    ∃ prefixKey, base = prefixBase prefixKey ∧ ∀ items,
      memoryListItemsWithDepth py columns resources viewName count pathPrefix order =
          .ok items ↔
        ∃ table,
          resources.foldlM
              (addMemoryListItem py columns viewName count.toNat prefixKey) [] =
            .ok table ∧
          (sorted id (order = "desc") (table.map Prod.fst)).mapM
              (fun path => toDict (Dict.get table path)) = .ok items := by
  unfold listingBase at hbase
  unfold memoryListItemsWithDepth
  rw [raiseIf, if_neg (Int.not_lt.mpr hcount)]
  cases pathPrefix with
  | none =>
      cases hbase
      refine ⟨"", rfl, fun items => ?_⟩
      change (resources.foldlM _ [] >>= fun table =>
        (sorted id (order = "desc") (table.map Prod.fst)).mapM _) =
          Except.ok items ↔ _
      exact bind_eq_ok
  | some under =>
      dsimp only at hbase ⊢
      cases hpath : normalizeMemoryPathPrefix py under with
      | error error =>
          rw [hpath] at hbase
          cases hbase
      | ok path =>
          rw [hpath] at hbase
          cases hbase
          refine ⟨pathKey path, rfl, fun items => ?_⟩
          change (resources.foldlM _ [] >>= fun table =>
            (sorted id (order = "desc") (table.map Prod.fst)).mapM _) =
              Except.ok items ↔ _
          exact bind_eq_ok

end

section

variable (py : Interpreter) (columns : RowColumns) (viewName : Option String)
  (resources : List Resource) (base : List String) (depth : ℕ)

/-- Every memory under the prefix has its item, and there are no other items. -/
structure DepthListing (items : List Dict) : Prop where
  distinct : (items.map fun item => Dict.get item "path").Nodup
  mem_iff : ∀ item, item ∈ items ↔
    ∃ memory ∈ resources, base <+: memorySegments py memory ∧
      StandsFor py columns viewName base depth memory item
  shown : ∀ memory ∈ resources, base <+: memorySegments py memory →
    (segmentsBelow py base memory).length ≤ depth →
      ∃ item ∈ items, memoryResponse py (columns memory) viewName memory = .ok item ∧
        Dict.get item "type" = .str "memory" ∧
        Dict.get item "path" = .str ("/" ++ memoryResourcePathKey py memory)
  represented : ∀ memory ∈ resources, base <+: memorySegments py memory →
    ∃! item, item ∈ items ∧ Covers item ("/" ++ memoryResourcePathKey py memory)
  hides : ∀ item ∈ items, Dict.get item "type" = .str "memory_prefix" →
    ∃ memory ∈ resources, base <+: memorySegments py memory ∧
      depth < (segmentsBelow py base memory).length ∧
      Covers item ("/" ++ memoryResourcePathKey py memory)

end

/-- A listing with a depth partitions the memories under the prefix. -/
theorem depth_listing_partitions
    {py : Interpreter} {columns : RowColumns} {resources : List Resource}
    {viewName view : Option String} {depth : ℤ} {pathPrefix : Option String}
    {base : List String} (order : String)
    (hcanonical : ∀ memory ∈ resources, CanonicalMemory py memory)
    (hdistinct : (resources.map (memoryResourcePathKey py)).Nodup)
    (hview : normalizeMemoryView viewName = .ok view)
    (hbase : listingBase py pathPrefix = .ok base) (hdepth : 0 ≤ depth) :
    ∃ items,
      memoryListItemsWithDepth py columns resources viewName depth pathPrefix order =
        .ok items ∧
      DepthListing py columns viewName resources base depth.toNat items := by
  obtain ⟨prefixKey, rfl, hlisting⟩ :=
    @memoryListItemsWithDepth_eq_ok py columns viewName base _ depth resources order
      hbase hdepth
  have hstart : Listed py columns viewName (prefixBase prefixKey) depth.toNat [] [] :=
    ⟨List.nodup_nil, by simp⟩
  obtain ⟨table, htable, hlisted⟩ := hstart.run hview hcanonical hdistinct
  have hkeys := sorted_perm id (order = "desc") (table.map Prod.fst)
  obtain ⟨items, hitems, hpaths, hmem⟩ := hlisted.entries hview hcanonical hkeys
  rw [List.nil_append] at hmem
  refine ⟨items, ?_, ?_, hmem, ?_, ?_, ?_⟩
  · exact (hlisting items).mpr ⟨table, htable, hitems⟩
  · rw [hpaths]
    exact (hkeys.nodup_iff.mpr hlisted.distinct).map fun _ _ hsame => Json.str.inj hsame
  · intro memory hmemory hbelow hnear
    obtain ⟨item, hitem, htype, hpath⟩ :=
      @CanonicalMemory.response py columns viewName _ _ (hcanonical memory hmemory) hview
    exact ⟨item, (hmem item).mpr ⟨memory, hmemory, hbelow, .shown hnear hitem⟩, hitem,
      htype, hpath⟩
  · intro memory hmemory hbelow
    obtain ⟨item, hstands⟩ : ∃ item,
        StandsFor py columns viewName (prefixBase prefixKey) depth.toNat memory item := by
      by_cases hnear : (segmentsBelow py (prefixBase prefixKey) memory).length ≤ depth.toNat
      · obtain ⟨item, hitem, -, -⟩ :=
          @CanonicalMemory.response py columns viewName _ _
            (hcanonical memory hmemory) hview
        exact ⟨item, .shown hnear hitem⟩
      · exact ⟨_, .cut (Nat.not_le.mp hnear)⟩
    have hcovers := hstands.covers hview (hcanonical memory hmemory) hbelow
    refine ⟨item, ⟨(hmem item).mpr ⟨memory, hmemory, hbelow, hstands⟩, hcovers⟩, ?_⟩
    rintro found ⟨hfound, hfoundCovers⟩
    obtain ⟨other, hother, hotherBelow, hotherStands⟩ := (hmem found).mp hfound
    have hkeys := List.inj_on_of_nodup_map hdistinct hother hmemory
    exact (hotherStands.of_covers hview (hcanonical other hother) hkeys hbelow hotherBelow
      hfoundCovers).unique hstands
  · intro item hitem htype
    obtain ⟨memory, hmemory, hbelow, hstands⟩ := (hmem item).mp hitem
    have hcovers := hstands.covers hview (hcanonical memory hmemory) hbelow
    refine ⟨memory, hmemory, hbelow, ?_, hcovers⟩
    cases hstands with
    | shown hnear hresponse =>
        obtain ⟨same, hsame, hmemoryType, -⟩ :=
          @CanonicalMemory.response py columns viewName _ _
            (hcanonical memory hmemory) hview
        rw [hresponse, Except.ok.injEq] at hsame
        rw [← hsame, htype] at hmemoryType
        simp at hmemoryType
    | cut hfar => exact hfar

def filedMemory (key : String) : Resource where
  id := "mem_" ++ key
  workspaceId := "wrkspc_default"
  resourceType := .memory
  parentId := some "memstore_a0"
  name := some key
  status := .active
  data := [("path", .str ("/" ++ key)), ("path_key", .str key)]
  createdAt := 0

def filedMemories : List Resource :=
  ["projects/foo/notes.md", "projects/foo/todo.md", "projects/readme.md",
    "customers/acme.md"].map filedMemory

theorem filedMemories_canonical :
    ∀ memory ∈ filedMemories, CanonicalMemory sampleInterpreter memory := by
  have hpaths : ∀ memory ∈ filedMemories,
      memory.resourceType = .memory ∧
        normalizeMemoryPath sampleInterpreter (Dict.get memory.data "path") =
          .ok ("/" ++ memoryResourcePathKey sampleInterpreter memory) := by
    decide
  intro memory hmemory
  exact ⟨(hpaths memory hmemory).1, (hpaths memory hmemory).2⟩

theorem sample_depth_listing_partitions :
    ∃ items,
      memoryListItemsWithDepth sampleInterpreter sampleColumns filedMemories
        (some "basic")
        1 (some "/projects/") "asc" = .ok items ∧
      DepthListing sampleInterpreter sampleColumns (some "basic") filedMemories
        ["projects"] 1 items :=
  depth_listing_partitions "asc" filedMemories_canonical (by decide)
    (rfl : _ = Except.ok _) (by decide) (by decide)

end ManagedAgents
