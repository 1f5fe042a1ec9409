import Mathlib.Data.Prod.Lex
import Mathlib.Data.String.Basic
import ManagedAgents.Library.NewestPage
import ManagedAgents.SessionState

/-!
# Resource rows

One table holds the rows of all generic resources.  A row belongs to a
workspace and perhaps to a parent row; deleting and archiving mark the row and
leave its children as they are.
-/

namespace ManagedAgents

open NewestPage

inductive ResourceType
  | skill
  | skillVersion
  | vault
  | credential
  | memoryStore
  | memory
  | memoryVersion
  | sessionResource
  | environmentWork
deriving DecidableEq, Repr

def ResourceType.name : ResourceType → String
  | .skill => "skill"
  | .skillVersion => "skill_version"
  | .vault => "vault"
  | .credential => "credential"
  | .memoryStore => "memory_store"
  | .memory => "memory"
  | .memoryVersion => "memory_version"
  | .sessionResource => "session_resource"
  | .environmentWork => "environment_work"

structure ManagedResource (Status Data : Type) where
  id : String
  workspaceId : String
  resourceType : ResourceType
  parentId : Option String := none
  version : Option ℤ := none
  name : Option String := none
  status : Status
  data : Data
  createdAt : Time
  archivedAt : Option Time := none
  deletedAt : Option Time := none
deriving DecidableEq

section

variable {Status Data : Type}

/-- `created_at`, then `id`. -/
def ManagedResource.age (row : ManagedResource Status Data) : Time ×ₗ String :=
  toLex (row.createdAt, row.id)

/-- The rows of the table; `id` is the primary key. -/
structure Table (Status Data : Type) where
  rows : List (ManagedResource Status Data)
  ids : (rows.map ManagedResource.id).Nodup

/-! ## Queries -/

structure ResourceQuery where
  resourceType : ResourceType
  workspaceId : String
  parentId : Option String := none
  includeArchived : Bool := true
  includeDeleted : Bool := false

/-- The conditions of the `WHERE` clause. -/
def ResourceQuery.selects (query : ResourceQuery)
    (row : ManagedResource Status Data) : Bool :=
  row.resourceType = query.resourceType ∧ row.workspaceId = query.workspaceId ∧
    (query.includeDeleted = true ∨ row.deletedAt = none) ∧
    (query.parentId = none ∨ row.parentId = query.parentId) ∧
    (query.includeArchived = true ∨ row.archivedAt = none)

def listResources (rows : List (ManagedResource Status Data)) (query : ResourceQuery)
    (limit : ℕ) : List (ManagedResource Status Data) :=
  page ManagedResource.age (rows.filter query.selects) limit

/-- `get_resource`; the primary key leaves one row at most. -/
def getResource (rows : List (ManagedResource Status Data)) (resourceId : String)
    (query : ResourceQuery) : Option (ManagedResource Status Data) :=
  rows.find? fun row => row.id = resourceId ∧ query.selects row

/-- `update_resource` and the flush: the row with the identifier is replaced. -/
def replaceRow (rows : List (ManagedResource Status Data))
    (written : ManagedResource Status Data) : List (ManagedResource Status Data) :=
  rows.map fun row => if row.id = written.id then written else row

/-! ## Rows by age -/

theorem Table.keyed
    (table : Table Status Data) (selected : ManagedResource Status Data → Bool) :
    Keyed ManagedResource.age (table.rows.filter selected) := by
  have hids : ((table.rows.filter selected).map ManagedResource.id).Nodup :=
    table.ids.sublist (List.filter_sublist.map _)
  apply List.Nodup.of_map fun age : Time ×ₗ String => (ofLex age).2
  rw [List.map_map]
  exact hids

/-! ## Rows after writes -/

@[simp] theorem replaceRow_ids
    (rows : List (ManagedResource Status Data)) (written : ManagedResource Status Data) :
    (replaceRow rows written).map ManagedResource.id = rows.map ManagedResource.id := by
  unfold replaceRow
  rw [List.map_map]
  apply List.map_congr_left
  intro row _
  by_cases hrow : row.id = written.id <;> simp [hrow]

theorem mem_replaceRow_of_ne
    {rows : List (ManagedResource Status Data)}
    {row written : ManagedResource Status Data} (hrow : row ∈ rows)
    (hne : row.id ≠ written.id) : row ∈ replaceRow rows written :=
  List.mem_map.mpr ⟨row, hrow, if_neg hne⟩

theorem foldl_replaceRow_ids
    (rows written : List (ManagedResource Status Data)) :
    (written.foldl replaceRow rows).map ManagedResource.id =
      rows.map ManagedResource.id := by
  induction written generalizing rows with
  | nil => rfl
  | cons first rest ih => rw [List.foldl_cons, ih, replaceRow_ids]

theorem mem_foldl_replaceRow
    {rows written : List (ManagedResource Status Data)}
    {row : ManagedResource Status Data} (hrow : row ∈ rows)
    (hne : ∀ other ∈ written, other.id ≠ row.id) :
    row ∈ written.foldl replaceRow rows := by
  induction written generalizing rows with
  | nil => exact hrow
  | cons first rest ih =>
      rw [List.foldl_cons]
      apply ih (mem_replaceRow_of_ne hrow (hne first List.mem_cons_self).symm)
      intro other hother
      exact hne other (List.mem_cons_of_mem _ hother)

end

end ManagedAgents
