import ManagedAgents.MemoryData
import ManagedAgents.MemorySystem

/-!
# The history of a memory

A memory has one version row for each version number up to its own, in the
order of their inserts.  What the rows of one committed state say is kept by
the later ones, so a request which commits on the number it read has read the
current row.
-/

namespace ManagedAgents

open Fallible ReadCommitted

/-- The version rows of a memory, in the order in which they were inserted. -/
def versionsOf (rows : List Resource) (memoryId : String) : List Resource :=
  rows.filter fun row => row.resourceType = .memoryVersion ∧ row.parentId = some memoryId

/-- The operations of the versions: one creation, changes and perhaps a deletion. -/
def historyOperations (deleted : Bool) (count : ℕ) : List Json :=
  if deleted then
    .str "created" :: (List.replicate (count - 2) (.str "modified") ++ [.str "deleted"])
  else .str "created" :: List.replicate (count - 1) (.str "modified")

def versionNumbers (count : ℕ) : List (Option ℤ) :=
  (List.range count).map fun index : ℕ => some (index + 1 : ℤ)

/-- The row belongs to a row of the given type in its workspace. -/
def HasParent (rows : List Resource) (parentType : ResourceType)
    (row : Resource) : Prop :=
  ∃ parent ∈ rows, parent.resourceType = parentType ∧ row.parentId = some parent.id ∧
    row.workspaceId = parent.workspaceId

/-- The version rows of a memory tell its history. -/
structure History (rows : List Resource) (memory : Resource) : Prop where
  count : Dict.get memory.data "version" = .int (versionsOf rows memory.id).length
  numbers : (versionsOf rows memory.id).map ManagedResource.version =
    versionNumbers (versionsOf rows memory.id).length
  operations :
    ((versionsOf rows memory.id).map fun version => Dict.get version.data "operation") =
      historyOperations memory.deletedAt.isSome (versionsOf rows memory.id).length
  recorded : memory.deletedAt = none → ∃ last,
    (versionsOf rows memory.id).getLast? = some last ∧
      Dict.get last.data "snapshot" = .dict (memorySnapshot memory.data)
  key : ∃ key, Dict.get memory.data "path_key" = .str key ∧ memory.name = some key
  store : HasParent rows .memoryStore memory

structure VersionRow (rows : List Resource) (version : Resource) : Prop where
  memory : HasParent rows .memory version
  number : Dict.get version.data "memory_version" = optionalInt version.version

structure MemoryRows (rows : List Resource) : Prop where
  ids : (rows.map ManagedResource.id).Nodup
  memories : ∀ memory ∈ rows, memory.resourceType = .memory → History rows memory
  versions : ∀ version ∈ rows, version.resourceType = .memoryVersion →
    VersionRow rows version

/-! ## Later states -/

def versionNumber (memory : Resource) : ℤ :=
  match Dict.get memory.data "version" with
  | .int number => number
  | _ => 0

theorem versionNumber_of_get
    {memory : Resource} {number : ℤ}
    (hnumber : Dict.get memory.data "version" = .int number) :
    versionNumber memory = number := by
  rw [versionNumber, hnumber]

/-- What a later row with the same identifier says. -/
structure Follows (row later : Resource) : Prop where
  id : later.id = row.id
  resourceType : later.resourceType = row.resourceType
  workspaceId : later.workspaceId = row.workspaceId
  parentId : later.parentId = row.parentId
  version : later.version = row.version
  memory : row.resourceType = .memory →
    later = row ∨
      versionNumber row < versionNumber later ∧
        (row.deletedAt ≠ none → later.deletedAt ≠ none)
  operation : row.resourceType = .memoryVersion →
    ∀ key ∉ ["snapshot", "redacted", "redacted_at"],
      Dict.get later.data key = Dict.get row.data key

def EarlierRows (older newer : List Resource) : Prop :=
  ∀ row ∈ older, ∃ later ∈ newer, Follows row later

theorem Follows.refl (row : Resource) : Follows row row where
  id := rfl
  resourceType := rfl
  workspaceId := rfl
  parentId := rfl
  version := rfl
  memory := fun _ => Or.inl rfl
  operation := fun _ _ _ => rfl

theorem Follows.trans
    {first second third : Resource} (hfirst : Follows first second)
    (hsecond : Follows second third) : Follows first third where
  id := hsecond.id.trans hfirst.id
  resourceType := hsecond.resourceType.trans hfirst.resourceType
  workspaceId := hsecond.workspaceId.trans hfirst.workspaceId
  parentId := hsecond.parentId.trans hfirst.parentId
  version := hsecond.version.trans hfirst.version
  memory := by
    intro htype
    have htypeSecond := hfirst.resourceType.trans htype
    rcases hfirst.memory htype with rfl | ⟨hlt, hdeleted⟩
    · exact hsecond.memory htype
    · rcases hsecond.memory htypeSecond with rfl | ⟨hlater, hkept⟩
      · exact Or.inr ⟨hlt, hdeleted⟩
      · exact Or.inr ⟨hlt.trans hlater, fun h => hkept (hdeleted h)⟩
  operation := by
    intro htype key hkey
    rw [hsecond.operation (hfirst.resourceType.trans htype) key hkey,
      hfirst.operation htype key hkey]

theorem EarlierRows.refl (rows : List Resource) : EarlierRows rows rows :=
  fun row hrow => ⟨row, hrow, Follows.refl row⟩

theorem EarlierRows.trans
    (first second third : List Resource) (hfirst : EarlierRows first second)
    (hsecond : EarlierRows second third) : EarlierRows first third := by
  intro row hrow
  obtain ⟨middle, hmiddle, hrowMiddle⟩ := hfirst row hrow
  obtain ⟨later, hlater, hmiddleLater⟩ := hsecond middle hmiddle
  exact ⟨later, hlater, hrowMiddle.trans hmiddleLater⟩

theorem EarlierRows.append (rows added : List Resource) :
    EarlierRows rows (rows ++ added) :=
  fun row hrow => ⟨row, List.mem_append_left _ hrow, Follows.refl row⟩

theorem EarlierRows.replaceRow
    {rows : List Resource} {row written : Resource}
    (hids : (rows.map ManagedResource.id).Nodup) (hrow : row ∈ rows)
    (hfollows : Follows row written) : EarlierRows rows (replaceRow rows written) := by
  intro other hother
  by_cases hid : other.id = written.id
  · obtain rfl := List.inj_on_of_nodup_map hids hother hrow (hid.trans hfollows.id)
    exact ⟨written, mem_replaceRow_self hother hid, hfollows⟩
  · exact ⟨other, mem_replaceRow_of_ne hother hid, Follows.refl other⟩

/-! ## Version rows after a write -/

theorem versionsOf_append (rows added : List Resource) (memoryId : String) :
    versionsOf (rows ++ added) memoryId =
      versionsOf rows memoryId ++ versionsOf added memoryId :=
  List.filter_append ..

theorem mem_versionsOf {rows : List Resource} {memoryId : String} {version : Resource} :
    version ∈ versionsOf rows memoryId ↔
      version ∈ rows ∧ version.resourceType = .memoryVersion ∧
        version.parentId = some memoryId := by
  simp [versionsOf]

/-- A replaced row stays a version of the same memory, or stays none. -/
theorem versionsOf_replaceRow
    {rows : List Resource} {row written : Resource}
    (hids : (rows.map ManagedResource.id).Nodup) (hrow : row ∈ rows)
    (hfollows : Follows row written) (memoryId : String) :
    versionsOf (replaceRow rows written) memoryId =
      replaceRow (versionsOf rows memoryId) written :=
  filter_replaceRow hids hrow hfollows.id
    (by simp [hfollows.resourceType, hfollows.parentId])

theorem HasParent.mono
    {rows next : List Resource} {parentType : ResourceType} {row : Resource}
    (hparent : HasParent rows parentType row) (hearlier : EarlierRows rows next) :
    HasParent next parentType row := by
  obtain ⟨parent, hmem, htype, hid, hworkspace⟩ := hparent
  obtain ⟨later, hlater, hfollows⟩ := hearlier parent hmem
  exact ⟨later, hlater, hfollows.resourceType.trans htype, by rw [hid, hfollows.id],
    by rw [hworkspace, hfollows.workspaceId]⟩

theorem History.mono
    {rows next : List Resource} {memory : Resource} (hhistory : History rows memory)
    (hearlier : EarlierRows rows next)
    (hsame : versionsOf next memory.id = versionsOf rows memory.id) :
    History next memory where
  count := hsame ▸ hhistory.count
  numbers := hsame ▸ hhistory.numbers
  operations := hsame ▸ hhistory.operations
  recorded := hsame ▸ hhistory.recorded
  key := hhistory.key
  store := hhistory.store.mono hearlier

theorem VersionRow.mono
    {rows next : List Resource} {version : Resource} (hversion : VersionRow rows version)
    (hearlier : EarlierRows rows next) : VersionRow next version :=
  ⟨hversion.memory.mono hearlier, hversion.number⟩

/-! ## Writes which leave the histories alone -/

theorem MemoryRows.append_store
    {rows : List Resource} {store : Resource} (hrows : MemoryRows rows)
    (hfresh : ∀ other ∈ rows, other.id ≠ store.id)
    (htype : store.resourceType = .memoryStore) : MemoryRows (rows ++ [store]) := by
  have hversions : ∀ memoryId, versionsOf (rows ++ [store]) memoryId =
      versionsOf rows memoryId := by
    intro memoryId
    rw [versionsOf_append]
    simp [versionsOf, htype]
  have hold : ∀ row ∈ rows ++ [store], row.resourceType ≠ .memoryStore → row ∈ rows := by
    intro row hrow hother
    rcases List.mem_append.mp hrow with hrow | hrow
    · exact hrow
    · obtain rfl : row = store := by simpa using hrow
      exact absurd htype hother
  have hearlier := EarlierRows.append rows [store]
  refine ⟨ids_append hrows.ids hfresh, ?_, ?_⟩
  · intro memory hmemory hmemoryType
    have hmem := hold memory hmemory (by simp [hmemoryType])
    exact (hrows.memories memory hmem hmemoryType).mono hearlier (hversions _)
  · intro version hversion hversionType
    have hmem := hold version hversion (by simp [hversionType])
    exact (hrows.versions version hmem hversionType).mono hearlier

/-- A written row which is no version leaves the versions of every memory. -/
theorem versionsOf_replaceRow_of_ne
    {rows : List Resource} {row written : Resource}
    (hids : (rows.map ManagedResource.id).Nodup) (hrow : row ∈ rows)
    (hfollows : Follows row written) (htype : row.resourceType ≠ .memoryVersion)
    (memoryId : String) :
    versionsOf (replaceRow rows written) memoryId = versionsOf rows memoryId :=
  filter_replaceRow_of_not hids hrow hfollows.id
    (by simp [hfollows.resourceType, htype]) (by simp [htype])

theorem MemoryRows.replace_store
    {rows : List Resource} {store written : Resource} (hrows : MemoryRows rows)
    (hstore : store ∈ rows) (htype : store.resourceType = .memoryStore)
    (hfollows : Follows store written) : MemoryRows (replaceRow rows written) := by
  have hversions :=
    versionsOf_replaceRow_of_ne hrows.ids hstore hfollows (by simp [htype])
  have hold : ∀ row ∈ replaceRow rows written, row.resourceType ≠ .memoryStore →
      row ∈ rows := by
    intro row hrow hother
    rcases mem_replaceRow hrow with hrow | rfl
    · exact hrow.1
    · exact absurd (hfollows.resourceType.trans htype) hother
  have hearlier := EarlierRows.replaceRow hrows.ids hstore hfollows
  refine ⟨by rw [replaceRow_ids]; exact hrows.ids, ?_, ?_⟩
  · intro memory hmemory hmemoryType
    have hmem := hold memory hmemory (by simp [hmemoryType])
    exact (hrows.memories memory hmem hmemoryType).mono hearlier (hversions _)
  · intro version hversion hversionType
    have hmem := hold version hversion (by simp [hversionType])
    exact (hrows.versions version hmem hversionType).mono hearlier

/-! ## A new memory -/

/-- A version row which is inserted for the memory. -/
structure InsertedVersion (memory version : Resource) (number : ℤ) (operation : String) :
    Prop where
  resourceType : version.resourceType = .memoryVersion
  parentId : version.parentId = some memory.id
  workspaceId : version.workspaceId = memory.workspaceId
  column : version.version = some number
  number : Dict.get version.data "memory_version" = .int number
  operation : Dict.get version.data "operation" = .str operation

theorem versionsOf_inserted
    {memory version : Resource} {number : ℤ} {operation : String}
    (hversion : InsertedVersion memory version number operation) (memoryId : String) :
    versionsOf [version] memoryId = if memory.id = memoryId then [version] else [] := by
  by_cases hid : memory.id = memoryId <;>
    simp [versionsOf, hversion.resourceType, hversion.parentId, hid]

/-- A row with a new identifier has no versions yet. -/
theorem MemoryRows.versionsOf_fresh
    {rows : List Resource} {memoryId : String} (hrows : MemoryRows rows)
    (hfresh : ∀ other ∈ rows, other.id ≠ memoryId) : versionsOf rows memoryId = [] := by
  apply List.eq_nil_iff_forall_not_mem.mpr
  intro other hother
  obtain ⟨hmem, hotherType, hparent⟩ := mem_versionsOf.mp hother
  obtain ⟨parent, hparentMem, -, hid, -⟩ := (hrows.versions other hmem hotherType).memory
  have hsame : parent.id = memoryId := Option.some.inj (hid.symm.trans hparent)
  exact hfresh parent hparentMem hsame

theorem versionsOf_append_memory
    {memory version : Resource} {number : ℤ} {operation : String} (rows : List Resource)
    (htype : memory.resourceType = .memory)
    (hversion : InsertedVersion memory version number operation) (memoryId : String) :
    versionsOf (rows ++ [memory] ++ [version]) memoryId =
      versionsOf rows memoryId ++ if memory.id = memoryId then [version] else [] := by
  rw [versionsOf_append, versionsOf_append, versionsOf_inserted hversion]
  simp [versionsOf, htype]

theorem MemoryRows.append_memory
    {rows : List Resource} {memory version : Resource} (hrows : MemoryRows rows)
    (hfresh : ∀ other ∈ rows, other.id ≠ memory.id)
    (hversionFresh : ∀ other ∈ rows ++ [memory], other.id ≠ version.id)
    (htype : memory.resourceType = .memory) (hlive : memory.deletedAt = none)
    (hnumber : Dict.get memory.data "version" = .int 1)
    (hkey : ∃ key, Dict.get memory.data "path_key" = .str key ∧ memory.name = some key)
    (hstore : HasParent rows .memoryStore memory)
    (hversion : InsertedVersion memory version 1 "created")
    (hsnapshot : Dict.get version.data "snapshot" = .dict (memorySnapshot memory.data)) :
    MemoryRows (rows ++ [memory] ++ [version]) := by
  have hnone := hrows.versionsOf_fresh hfresh
  have hversions := versionsOf_append_memory rows htype hversion
  have hearlier : EarlierRows rows (rows ++ [memory] ++ [version]) := by
    rw [List.append_assoc]
    exact EarlierRows.append rows _
  have hcases : ∀ row ∈ rows ++ [memory] ++ [version],
      row ∈ rows ∨ row = memory ∨ row = version := by
    intro row hrow
    simpa [or_assoc] using hrow
  refine ⟨ids_append (ids_append hrows.ids hfresh) hversionFresh, ?_, ?_⟩
  · intro other hother hotherType
    rcases hcases other hother with hmem | rfl | rfl
    · refine (hrows.memories other hmem hotherType).mono hearlier ?_
      rw [hversions, if_neg (hfresh other hmem).symm, List.append_nil]
    · have hown : versionsOf (rows ++ [other] ++ [version]) other.id = [version] := by
        rw [hversions, hnone, if_pos rfl, List.nil_append]
      refine ⟨?_, ?_, ?_, ?_, hkey, hstore.mono hearlier⟩ <;> rw [hown]
      · exact hnumber
      · simp [versionNumbers, hversion.column]
      · simp [historyOperations, hlive, hversion.operation]
      · exact fun _ => ⟨version, rfl, hsnapshot⟩
    · rw [hversion.resourceType] at hotherType
      cases hotherType
  · intro other hother hotherType
    rcases hcases other hother with hmem | rfl | rfl
    · exact (hrows.versions other hmem hotherType).mono hearlier
    · rw [htype] at hotherType
      cases hotherType
    · refine ⟨⟨memory, by simp, htype, hversion.parentId, hversion.workspaceId⟩, ?_⟩
      rw [hversion.number, hversion.column]
      rfl

/-! ## A changed or deleted memory -/

theorem versionNumbers_succ (count : ℕ) :
    versionNumbers (count + 1) = versionNumbers count ++ [some (count + 1 : ℤ)] := by
  simp [versionNumbers, List.range_succ]

/-- The operation with which a memory goes on after its last one. -/
def nextOperation (deleted : Bool) : String :=
  if deleted then "deleted" else "modified"

theorem historyOperations_succ {count : ℕ} (hcount : 0 < count) (deleted : Bool) :
    historyOperations deleted (count + 1) =
      historyOperations false count ++ [.str (nextOperation deleted)] := by
  obtain ⟨rest, rfl⟩ := Nat.exists_eq_succ_of_ne_zero hcount.ne'
  cases deleted with
  | false => simp [historyOperations, nextOperation, List.replicate_succ']
  | true => simp [historyOperations, nextOperation]

theorem History.length_pos
    {rows : List Resource} {memory : Resource} (hhistory : History rows memory) :
    0 < (versionsOf rows memory.id).length := by
  apply List.length_pos_of_ne_nil
  intro hnil
  have hoperations := hhistory.operations
  rw [hnil] at hoperations
  cases hdeleted : memory.deletedAt.isSome <;>
    simp [historyOperations, hdeleted] at hoperations

theorem History.versionNumber_eq
    {rows : List Resource} {memory : Resource} (hhistory : History rows memory) :
    versionNumber memory = (versionsOf rows memory.id).length := by
  rw [versionNumber, hhistory.count]

/-- The version rows of a memory carry the numbers up to its own. -/
theorem History.mem_version
    {rows : List Resource} {memory version : Resource} (hhistory : History rows memory)
    (hversion : version ∈ versionsOf rows memory.id) :
    ∃ number, version.version = some number ∧ 1 ≤ number ∧
      number ≤ versionNumber memory := by
  have hmem : version.version ∈ versionNumbers (versionsOf rows memory.id).length := by
    rw [← hhistory.numbers]
    exact List.mem_map_of_mem hversion
  obtain ⟨index, hindex, hnumber⟩ := List.mem_map.mp hmem
  rw [List.mem_range] at hindex
  refine ⟨index + 1, hnumber.symm, by omega, ?_⟩
  rw [hhistory.versionNumber_eq]
  omega

theorem History.exists_version
    {rows : List Resource} {memory : Resource} {number : ℤ}
    (hhistory : History rows memory)
    (hpos : 1 ≤ number) (hle : number ≤ versionNumber memory) :
    ∃ version ∈ versionsOf rows memory.id, version.version = some number := by
  rw [hhistory.versionNumber_eq] at hle
  have hmem : some number ∈ versionNumbers (versionsOf rows memory.id).length := by
    refine List.mem_map.mpr ⟨(number - 1).toNat, List.mem_range.mpr (by omega), ?_⟩
    congr 1
    omega
  rw [← hhistory.numbers] at hmem
  obtain ⟨version, hversion, hnumber⟩ := List.mem_map.mp hmem
  exact ⟨version, hversion, hnumber⟩

theorem History.versionNumber_pos
    {rows : List Resource} {memory : Resource} (hhistory : History rows memory) :
    1 ≤ versionNumber memory := by
  rw [hhistory.versionNumber_eq]
  exact_mod_cast hhistory.length_pos

theorem History.stored
    {rows : List Resource} {memory : Resource} (hhistory : History rows memory) :
    Dict.get memory.data "version" = .int (versionNumber memory) := by
  rw [hhistory.versionNumber_eq]
  exact hhistory.count

/-- A live memory is written and its next version inserted. -/
structure Advance (rows : List Resource) (before after version : Resource) : Prop where
  mem : before ∈ rows
  resourceType : before.resourceType = .memory
  live : before.deletedAt = none
  follows : Follows before after
  versionFresh : ∀ other ∈ rows, other.id ≠ version.id
  inserted : InsertedVersion before version (versionNumber before + 1)
    (nextOperation after.deletedAt.isSome)
  number : Dict.get after.data "version" = .int (versionNumber before + 1)
  key : ∃ key, Dict.get after.data "path_key" = .str key ∧ after.name = some key
  snapshot : after.deletedAt = none →
    Dict.get version.data "snapshot" = .dict (memorySnapshot after.data)

theorem Advance.versionsOf_eq
    {rows : List Resource} {before after version : Resource} (hrows : MemoryRows rows)
    (hadvance : Advance rows before after version) (memoryId : String) :
    versionsOf (replaceRow rows after ++ [version]) memoryId =
      versionsOf rows memoryId ++ if before.id = memoryId then [version] else [] := by
  rw [versionsOf_append, versionsOf_inserted hadvance.inserted,
    versionsOf_replaceRow_of_ne hrows.ids hadvance.mem hadvance.follows
      (by simp [hadvance.resourceType])]

theorem Advance.earlier
    {rows : List Resource} {before after version : Resource} (hrows : MemoryRows rows)
    (hadvance : Advance rows before after version) :
    EarlierRows rows (replaceRow rows after ++ [version]) :=
  EarlierRows.trans _ _ _
    (EarlierRows.replaceRow hrows.ids hadvance.mem hadvance.follows)
    (EarlierRows.append _ _)

theorem Advance.history
    {rows : List Resource} {before after version : Resource} (hrows : MemoryRows rows)
    (hadvance : Advance rows before after version) :
    History (replaceRow rows after ++ [version]) after := by
  have hbefore := hrows.memories before hadvance.mem hadvance.resourceType
  have hnumber := hbefore.versionNumber_eq
  have hown : versionsOf (replaceRow rows after ++ [version]) after.id =
      versionsOf rows before.id ++ [version] := by
    rw [hadvance.versionsOf_eq hrows, hadvance.follows.id, if_pos rfl]
  have hoperations := hbefore.operations
  rw [hadvance.live] at hoperations
  refine ⟨?_, ?_, ?_, ?_, hadvance.key, ?_⟩
  · rw [hown, hadvance.number, hnumber]
    simp
  · rw [hown, List.map_append, hbefore.numbers, List.length_append, List.length_singleton,
      versionNumbers_succ, List.map_singleton, hadvance.inserted.column, hnumber]
  · rw [hown, List.map_append, hoperations, List.length_append, List.length_singleton,
      historyOperations_succ hbefore.length_pos, List.map_singleton,
      hadvance.inserted.operation]
    rfl
  · intro hlive
    exact ⟨version, by rw [hown, List.getLast?_concat], hadvance.snapshot hlive⟩
  · have hstore := hbefore.store.mono (hadvance.earlier hrows)
    unfold HasParent at hstore ⊢
    rw [hadvance.follows.parentId, hadvance.follows.workspaceId]
    exact hstore

theorem Advance.rows
    {rows : List Resource} {before after version : Resource} (hrows : MemoryRows rows)
    (hadvance : Advance rows before after version) :
    MemoryRows (replaceRow rows after ++ [version]) := by
  have hearlier := hadvance.earlier hrows
  have hcases : ∀ row ∈ replaceRow rows after ++ [version],
      (row ∈ rows ∧ row.id ≠ after.id) ∨ row = after ∨ row = version := by
    intro row hrow
    rcases List.mem_append.mp hrow with hrow | hrow
    · rcases mem_replaceRow hrow with hrow | hrow
      · exact Or.inl hrow
      · exact Or.inr (Or.inl hrow)
    · exact Or.inr (Or.inr (by simpa using hrow))
  have hfresh : ∀ other ∈ replaceRow rows after, other.id ≠ version.id := by
    intro other hother
    rcases mem_replaceRow hother with hother | rfl
    · exact hadvance.versionFresh other hother.1
    · rw [hadvance.follows.id]
      exact hadvance.versionFresh before hadvance.mem
  refine ⟨ids_append (by rw [replaceRow_ids]; exact hrows.ids) hfresh, ?_, ?_⟩
  · intro memory hmemory htype
    rcases hcases memory hmemory with ⟨hmem, hne⟩ | rfl | rfl
    · refine (hrows.memories memory hmem htype).mono hearlier ?_
      rw [hadvance.follows.id] at hne
      rw [hadvance.versionsOf_eq hrows, if_neg hne.symm, List.append_nil]
    · exact hadvance.history hrows
    · rw [hadvance.inserted.resourceType] at htype
      cases htype
  · intro other hother htype
    rcases hcases other hother with ⟨hmem, -⟩ | rfl | rfl
    · exact (hrows.versions other hmem htype).mono hearlier
    · rw [hadvance.follows.resourceType, hadvance.resourceType] at htype
      cases htype
    · refine ⟨⟨after, ?_, ?_, ?_, ?_⟩, ?_⟩
      · apply List.mem_append_left
        exact mem_replaceRow_self hadvance.mem hadvance.follows.id.symm
      · rw [hadvance.follows.resourceType, hadvance.resourceType]
      · rw [hadvance.inserted.parentId, hadvance.follows.id]
      · rw [hadvance.inserted.workspaceId, hadvance.follows.workspaceId]
      · rw [hadvance.inserted.number, hadvance.inserted.column]
        rfl

/-! ## A redacted version -/

/-- A version row is written which is not the last one of a live memory. -/
structure RedactedRow (rows : List Resource) (before after : Resource) : Prop where
  mem : before ∈ rows
  resourceType : before.resourceType = .memoryVersion
  follows : Follows before after
  notLast : ∀ memory ∈ rows, memory.resourceType = .memory →
    before.parentId = some memory.id → memory.deletedAt = none →
      before.version ≠ some (versionNumber memory)

theorem History.getLast?_version
    {rows : List Resource} {memory last : Resource} (hhistory : History rows memory)
    (hlast : (versionsOf rows memory.id).getLast? = some last) :
    last.version = some (versionNumber memory) := by
  have hmap : ((versionsOf rows memory.id).map ManagedResource.version).getLast? =
      some last.version := by
    rw [List.getLast?_map, hlast]
    rfl
  obtain ⟨rest, hrest⟩ := Nat.exists_eq_succ_of_ne_zero hhistory.length_pos.ne'
  rw [hhistory.numbers, hrest, versionNumbers_succ, List.getLast?_concat,
    Option.some.injEq] at hmap
  rw [← hmap, hhistory.versionNumber_eq, hrest]
  simp

theorem RedactedRow.earlier
    {rows : List Resource} {before after : Resource} (hrows : MemoryRows rows)
    (hredacted : RedactedRow rows before after) :
    EarlierRows rows (replaceRow rows after) :=
  EarlierRows.replaceRow hrows.ids hredacted.mem hredacted.follows

/-- What no redaction changes is the same in all versions as before. -/
theorem RedactedRow.map_versionsOf
    {rows : List Resource} {before after : Resource} (hrows : MemoryRows rows)
    (hredacted : RedactedRow rows before after) {Value : Type} (field : Resource → Value)
    (hfield : field after = field before) (memoryId : String) :
    (versionsOf (replaceRow rows after) memoryId).map field =
      (versionsOf rows memoryId).map field := by
  rw [versionsOf_replaceRow hrows.ids hredacted.mem hredacted.follows,
    ManagedAgents.replaceRow, List.map_map]
  apply List.map_congr_left
  intro version hversion
  by_cases hid : version.id = after.id
  · have hsame : version = before :=
      List.inj_on_of_nodup_map hrows.ids (mem_versionsOf.mp hversion).1 hredacted.mem
        (hid.trans hredacted.follows.id)
    rw [Function.comp_apply, if_pos hid, hfield, hsame]
  · rw [Function.comp_apply, if_neg hid]

theorem RedactedRow.history
    {rows : List Resource} {before after memory : Resource} (hrows : MemoryRows rows)
    (hredacted : RedactedRow rows before after) (hmemory : memory ∈ rows)
    (htype : memory.resourceType = .memory) :
    History (replaceRow rows after) memory := by
  have hhistory := hrows.memories memory hmemory htype
  have hlength : (versionsOf (replaceRow rows after) memory.id).length =
      (versionsOf rows memory.id).length := by
    rw [versionsOf_replaceRow hrows.ids hredacted.mem hredacted.follows]
    exact List.length_map _
  refine ⟨?_, ?_, ?_, ?_, hhistory.key, ?_⟩
  · rw [hlength]
    exact hhistory.count
  · rw [hlength, hredacted.map_versionsOf hrows _ hredacted.follows.version]
    exact hhistory.numbers
  · rw [hlength,
      hredacted.map_versionsOf hrows (fun version => Dict.get version.data "operation")
      (hredacted.follows.operation hredacted.resourceType _ (by decide))]
    exact hhistory.operations
  · intro hlive
    obtain ⟨last, hlast, hsnapshot⟩ := hhistory.recorded hlive
    refine ⟨last, ?_, hsnapshot⟩
    rw [versionsOf_replaceRow hrows.ids hredacted.mem hredacted.follows,
      ManagedAgents.replaceRow, List.getLast?_map, hlast, Option.map_some, if_neg]
    intro hid
    have hlastMem := mem_versionsOf.mp (List.mem_of_getLast? hlast)
    obtain rfl := List.inj_on_of_nodup_map hrows.ids hlastMem.1 hredacted.mem
      (hid.trans hredacted.follows.id)
    exact hredacted.notLast memory hmemory htype hlastMem.2.2 hlive
      (hhistory.getLast?_version hlast)
  · exact hhistory.store.mono (hredacted.earlier hrows)

theorem RedactedRow.rows
    {rows : List Resource} {before after : Resource} (hrows : MemoryRows rows)
    (hredacted : RedactedRow rows before after) : MemoryRows (replaceRow rows after) := by
  have hearlier := hredacted.earlier hrows
  refine ⟨by rw [replaceRow_ids]; exact hrows.ids, ?_, ?_⟩
  · intro memory hmemory htype
    rcases mem_replaceRow hmemory with ⟨hmem, -⟩ | rfl
    · exact hredacted.history hrows hmem htype
    · rw [hredacted.follows.resourceType, hredacted.resourceType] at htype
      cases htype
  · intro version hversion htype
    rcases mem_replaceRow hversion with ⟨hmem, -⟩ | rfl
    · exact (hrows.versions version hmem htype).mono hearlier
    · have hbefore := hrows.versions before hredacted.mem hredacted.resourceType
      have hparent := hbefore.memory.mono hearlier
      refine ⟨?_, ?_⟩
      · unfold HasParent at hparent ⊢
        rw [hredacted.follows.parentId, hredacted.follows.workspaceId]
        exact hparent
      · rw [hredacted.follows.operation hredacted.resourceType _ (by decide),
          hredacted.follows.version]
        exact hbefore.number

end ManagedAgents
