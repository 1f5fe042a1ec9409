import ManagedAgents.MemoryReads
import ManagedAgents.MemorySystem

/-!
# Memories under a prefix

The query escapes the prefix and matches it with `LIKE`; a memory found by its path
is compared with the prefix in Python.  Both select the same rows.
-/

namespace ManagedAgents

open Fallible NewestPage

/-! ## Escaped patterns -/

def escapeChar (char : Char) : List Char :=
  if char = '\\' ∨ char = '%' ∨ char = '_' then ['\\', char] else [char]

/-- An escaped character matches itself. -/
theorem like_escapeChar
    {char : Char} {pattern text : List Char} :
    like (escapeChar char ++ pattern) text = true ↔
      ∃ rest, text = char :: rest ∧ like pattern rest = true := by
  unfold escapeChar
  split
  next hmeta =>
    cases text with
    | nil => simp [like]
    | cons first rest =>
        simp only [List.cons_append, List.nil_append, like, Bool.and_eq_true,
          decide_eq_true_eq, List.cons.injEq]
        constructor
        · rintro ⟨rfl, hmatch⟩
          exact ⟨rest, ⟨rfl, rfl⟩, hmatch⟩
        · rintro ⟨_, ⟨rfl, rfl⟩, hmatch⟩
          exact ⟨rfl, hmatch⟩
  next hplain =>
    obtain ⟨hescape, hpercent, hunderscore⟩ : char ≠ '\\' ∧ char ≠ '%' ∧ char ≠ '_' := by
      simpa [not_or] using hplain
    cases text with
    | nil => simp [like, hescape]
    | cons first rest =>
        simp only [List.cons_append, List.nil_append]
        rw [like]
        · simp only [hunderscore, decide_false, Bool.false_or, Bool.and_eq_true,
            decide_eq_true_eq, List.cons.injEq]
          constructor
          · rintro ⟨rfl, hmatch⟩
            exact ⟨rest, ⟨rfl, rfl⟩, hmatch⟩
          · rintro ⟨_, ⟨rfl, rfl⟩, hmatch⟩
            exact ⟨rfl, hmatch⟩
        · exact hpercent
        · exact fun _ _ hsame _ => hescape hsame

/-- An escaped text matches exactly itself. -/
theorem like_escaped
    {chars pattern text : List Char} :
    like (chars.flatMap escapeChar ++ pattern) text = true ↔
      ∃ rest, text = chars ++ rest ∧ like pattern rest = true := by
  induction chars generalizing text with
  | nil => simp
  | cons char chars ih =>
      rw [List.flatMap_cons, List.append_assoc, like_escapeChar]
      constructor
      · rintro ⟨rest, rfl, hmatch⟩
        obtain ⟨last, rfl, hlast⟩ := ih.mp hmatch
        exact ⟨last, rfl, hlast⟩
      · rintro ⟨last, rfl, hlast⟩
        exact ⟨chars ++ last, rfl, ih.mpr ⟨last, rfl, hlast⟩⟩

/-- What follows the prefix is a slash and any text. -/
theorem like_slash_any {text : List Char} :
    like ['/', '%'] text = true ↔ ∃ rest, text = '/' :: rest := by
  have hany : ∀ rest : List Char, like ['%'] rest = true := by
    intro rest
    rw [like, List.any_eq_true]
    exact ⟨[], by simp, rfl⟩
  cases text with
  | nil => simp [like]
  | cons first rest => simp [like, hany, eq_comm]

theorem startswith_iff_append {text start : String} :
    startswith text start = true ↔ ∃ rest, text.toList = start.toList ++ rest := by
  unfold startswith
  rw [List.isPrefixOf_iff_prefix]
  exact ⟨fun ⟨rest, hrest⟩ => ⟨rest, hrest.symm⟩, fun ⟨rest, hrest⟩ => ⟨rest, hrest.symm⟩⟩

/-- The pattern of a prefix matches the texts that go on after it with a slash. -/
theorem like_prefix_iff {name namePrefix : String} :
    like (escapeLike namePrefix ++ "/%").toList name.toList = true ↔
      startswith name (namePrefix ++ "/") = true := by
  have hpattern : (escapeLike namePrefix ++ "/%").toList =
      namePrefix.toList.flatMap escapeChar ++ ['/', '%'] := by
    unfold escapeLike escapeChar
    rw [String.toList_append, String.toList_ofList]
    rfl
  have hstart : (namePrefix ++ "/").toList = namePrefix.toList ++ ['/'] := by
    rw [String.toList_append]
    rfl
  rw [hpattern, like_escaped, startswith_iff_append, hstart]
  constructor
  · rintro ⟨rest, hname, hrest⟩
    obtain ⟨last, rfl⟩ := like_slash_any.mp hrest
    exact ⟨last, by rw [hname, List.append_assoc]; rfl⟩
  · rintro ⟨last, hname⟩
    exact ⟨'/' :: last, by rw [hname, List.append_assoc]; rfl,
      like_slash_any.mpr ⟨last, rfl⟩⟩

/-! ## Rows -/

/-- The test of `list_memories` on a memory that was found by its path. -/
def underPrefix (key : String) (memory : Resource) : Bool :=
  memory.name = some key || startswith (memory.name.getD "") (key ++ "/")

theorem namePrefixed_eq (key : String) (row : Resource) :
    namePrefixed key row = underPrefix key row := by
  unfold namePrefixed underPrefix
  cases row.name with
  | none =>
      have hempty : startswith "" (key ++ "/") = false := by
        rw [Bool.eq_false_iff, ne_eq, startswith_iff_append]
        rintro ⟨rest, hrest⟩
        simp at hrest
      simp [hempty]
  | some name =>
      rw [Bool.eq_iff_iff]
      simp only [Option.any_some, Bool.or_eq_true, decide_eq_true_eq, Option.some.injEq,
        Option.getD_some, like_prefix_iff]

/-- The name is the prefix or goes on after it with a slash. -/
def NamedUnder (key : String) (row : Resource) : Prop :=
  row.name = some key ∨ ∃ rest, row.name = some (key ++ "/" ++ rest)

theorem underPrefix_iff {key : String} {row : Resource} :
    underPrefix key row = true ↔ NamedUnder key row := by
  unfold underPrefix NamedUnder
  rw [Bool.or_eq_true, decide_eq_true_eq, startswith_iff_append]
  refine or_congr_right ?_
  cases row.name with
  | none => simp
  | some name =>
      simp only [Option.getD_some, Option.some.injEq]
      constructor
      · rintro ⟨rest, hrest⟩
        refine ⟨String.ofList rest, String.toList_injective ?_⟩
        simp only [hrest, String.toList_append, String.toList_ofList]
      · rintro ⟨rest, rfl⟩
        exact ⟨rest.toList, String.toList_append⟩

section

variable {rows : List Resource} {workspaceId storeId key : String} {limit : ℕ}

/-- The live memories of a store under a prefix. -/
def memoriesNamed (rows : List Resource) (workspaceId storeId key : String) :
    List Resource :=
  rows.filter fun row =>
    (memoryQuery workspaceId storeId).selects row && underPrefix key row

theorem listResourcesByNamePrefix_perm
    (hlimit : (memoriesNamed rows workspaceId storeId key).length ≤ limit) :
    (listResourcesByNamePrefix rows (memoryQuery workspaceId storeId) key limit).Perm
      (memoriesNamed rows workspaceId storeId key) := by
  have hmatching : (rows.filter (namePrefixed key)).filter
      (memoryQuery workspaceId storeId).selects =
        memoriesNamed rows workspaceId storeId key := by
    unfold memoriesNamed
    rw [List.filter_filter]
    apply List.filter_congr
    intro row _
    rw [namePrefixed_eq]
  unfold listResourcesByNamePrefix listResources
  rw [hmatching]
  exact page_perm_of_length_le hlimit

theorem selects_memoryQuery {row : Resource} :
    (memoryQuery workspaceId storeId).selects row = true ↔
      row.resourceType = .memory ∧ row.workspaceId = workspaceId ∧
        row.deletedAt = none ∧ row.parentId = some storeId := by
  simp [ResourceQuery.selects, memoryQuery]

end

/-- The query for a prefix finds the live memories whose names are under it, and it
finds the memories which the filter in Python keeps. -/
theorem prefix_filters_agree
    (py : Interpreter) (rows : List Resource) (workspaceId storeId : String) :
    (∀ key limit, (memoriesNamed rows workspaceId storeId key).length ≤ limit →
      ∀ row,
        row ∈ listResourcesByNamePrefix rows (memoryQuery workspaceId storeId) key
            limit ↔
          row ∈ rows ∧
            (row.resourceType = .memory ∧ row.workspaceId = workspaceId ∧
              row.deletedAt = none ∧ row.parentId = some storeId) ∧
            NamedUnder key row) ∧
    ∀ pathPrefix path, normalizeMemoryPathPrefix py pathPrefix = .ok path →
      (rows.filter fun row => (memoryQuery workspaceId storeId).selects row &&
        (pathKey path = "" || underPrefix (pathKey path) row)).length ≤ 1000 →
      ∃ found kept, memoriesUnder py rows workspaceId storeId pathPrefix = .ok found ∧
        keepUnder py (rows.filter (memoryQuery workspaceId storeId).selects) pathPrefix =
          .ok kept ∧
        found.Perm kept := by
  constructor
  · intro key limit hlimit row
    rw [(listResourcesByNamePrefix_perm hlimit).mem_iff, memoriesNamed, List.mem_filter,
      Bool.and_eq_true, selects_memoryQuery, underPrefix_iff]
  · intro pathPrefix path hpath hlimit
    unfold memoriesUnder keepUnder
    rw [hpath]
    by_cases hroot : pathKey path = ""
    · simp only [hroot, decide_true, Bool.true_or, Bool.and_true] at hlimit
      have hpage : (listResources rows (memoryQuery workspaceId storeId) 1000).Perm
          (rows.filter (memoryQuery workspaceId storeId).selects) := by
        unfold listResources
        exact page_perm_of_length_le hlimit
      refine ⟨_, _, ?_, ?_, hpage⟩
      · change (if pathKey path = "" then _ else _) = _
        rw [if_pos hroot]
        rfl
      · change (if pathKey path = "" then _ else _) = _
        rw [if_pos hroot]
        rfl
    · simp only [hroot, decide_false, Bool.false_or] at hlimit
      have hkept : (rows.filter (memoryQuery workspaceId storeId).selects).filter
          (underPrefix (pathKey path)) =
            memoriesNamed rows workspaceId storeId (pathKey path) := by
        unfold memoriesNamed
        rw [List.filter_filter]
        apply List.filter_congr
        intro row _
        exact Bool.and_comm _ _
      refine ⟨_, _, ?_, ?_, (listResourcesByNamePrefix_perm hlimit).trans
        (List.Perm.of_eq hkept.symm)⟩
      · change (if pathKey path = "" then _ else _) = _
        rw [if_neg hroot]
        rfl
      · change (if pathKey path = "" then _ else _) = _
        rw [if_neg hroot]
        rfl

/-! ## Sample rows -/

def sampleNamed (tag name : String) : Resource :=
  createResource (sampleSupply tag) 0 0 "wrkspc_default" .memory (some "memstore_a0") none
    (some name) []

/-- Read as a pattern, the prefix of the second row would match the third too. -/
def sampleNamedRows : List Resource :=
  [sampleNamed "b" "50%_off", sampleNamed "c" "50%_off/a", sampleNamed "d" "50x_off/b"]

theorem sample_prefix_filters_agree :
    (∀ row,
      row ∈ listResourcesByNamePrefix sampleNamedRows
          (memoryQuery "wrkspc_default" "memstore_a0") "50%_off" 1000 ↔
        row ∈ sampleNamedRows ∧
          (row.resourceType = .memory ∧ row.workspaceId = "wrkspc_default" ∧
            row.deletedAt = none ∧ row.parentId = some "memstore_a0") ∧
          NamedUnder "50%_off" row) ∧
    ∃ found kept,
      memoriesUnder sampleInterpreter sampleNamedRows "wrkspc_default" "memstore_a0"
          "/50%_off/" = .ok found ∧
        keepUnder sampleInterpreter (sampleNamedRows.filter
          (memoryQuery "wrkspc_default" "memstore_a0").selects) "/50%_off/" = .ok kept ∧
        found.Perm kept :=
  ⟨(prefix_filters_agree sampleInterpreter sampleNamedRows "wrkspc_default"
      "memstore_a0").1 "50%_off" 1000 (by decide),
    (prefix_filters_agree sampleInterpreter sampleNamedRows "wrkspc_default"
      "memstore_a0").2 "/50%_off/" "/50%_off" (by decide) (by decide)⟩

/-- The meta characters of the prefix match themselves only. -/
example : (memoriesUnder sampleInterpreter sampleNamedRows "wrkspc_default" "memstore_a0"
    "/50%_off/").toOption.map (List.map ManagedResource.name) =
      some [some "50%_off/a", some "50%_off"] := by
  decide

end ManagedAgents
