import ManagedAgents.Resources
import ManagedAgents.WorkQueue

/-!
# Polling the work queue

A poll and the bundled worker look at the newest thousand items, scan them
from the oldest of these and lease the first available one.  A poll can first
expire the leases that were not renewed for a given time.  The scan finds the
oldest available item exactly when the page holds it.
-/

namespace ManagedAgents

open NewestPage

/-! ## Work rows -/

abbrev WorkRow := ManagedResource WorkStatus WorkData
abbrev WorkTable := Table WorkStatus WorkData

def WorkRow.work (row : WorkRow) : EnvironmentWork where
  id := row.id
  parentId := row.parentId.getD ""
  name := row.name.getD ""
  status := row.status
  data := row.data

/-- `update_resource` with a new `status` and `data`. -/
def WorkRow.write (row : WorkRow) (written : EnvironmentWork) : WorkRow :=
  { row with status := written.status, data := written.data }

def WORK_PAGE_LIMIT : ℕ := 1000

/-- The query for the items of an environment, or of all environments. -/
def workQuery (workspaceId : String) (environmentId : Option String) : ResourceQuery where
  resourceType := .environmentWork
  workspaceId := workspaceId
  parentId := environmentId

/-! ## Leasing -/

def WorkRow.available (now : Time) (row : WorkRow) : Bool :=
  workAvailableForLease row.work now

def WorkRow.lease (row : WorkRow) (workerId : String) (leaseSeconds : ℕ)
    (now : Time) : WorkRow :=
  row.write (leaseWork row.work workerId leaseSeconds now)

/-- The scan of `lease_next_work` and of `_next_runnable_work`: the leased row
and the rows after the flush. -/
def leaseOldest (rows : List WorkRow) (query : ResourceQuery) (workerId : String)
    (leaseSeconds : ℕ) (now : Time) : Option (WorkRow × List WorkRow) :=
  let candidates := listResources rows query WORK_PAGE_LIMIT
  (candidates.reverse.find? (WorkRow.available now)).map fun row =>
    let leased := row.lease workerId leaseSeconds now
    (leased, replaceRow rows leased)

def leaseNextWork (rows : List WorkRow) (workspaceId environmentId workerId : String)
    (leaseSeconds : ℕ) (now : Time) : Option (WorkRow × List WorkRow) :=
  leaseOldest rows (workQuery workspaceId (some environmentId)) workerId leaseSeconds now

def nextRunnableWork (rows : List WorkRow) (workspaceId : String)
    (environmentId : Option String) (workerId : String) (leaseSeconds : ℕ)
    (now : Time) : Option (WorkRow × List WorkRow) :=
  match environmentId with
  | some environmentId =>
      leaseNextWork rows workspaceId environmentId workerId leaseSeconds now
  | none =>
      leaseOldest rows (workQuery workspaceId none) workerId leaseSeconds now

/-! ## Reclaiming -/

/-- The rows which the loop of `_expire_reclaimable_work` updates, as it writes
them. -/
def expiredWork (rows : List WorkRow) (workspaceId environmentId : String)
    (reclaimOlderThanMs : ℕ) (now : Time) : List WorkRow :=
  let workItems :=
    listResources rows (workQuery workspaceId (some environmentId)) WORK_PAGE_LIMIT
  workItems.filterMap fun row =>
    (expireReclaimableWork (WorkRow.work row) reclaimOlderThanMs now).map
      (WorkRow.write row)

structure PollRequest where
  workspaceId : String
  environmentId : String
  workerId : String
  leaseSeconds : ℕ
  reclaimOlderThanMs : Option ℕ

def PollRequest.expired (poll : PollRequest) (rows : List WorkRow) (now : Time) :
    List WorkRow :=
  match poll.reclaimOlderThanMs with
  | none => []
  | some olderThanMs =>
      expiredWork rows poll.workspaceId poll.environmentId olderThanMs now

/-- The rows after the first half of a round of `_poll_next_work`. -/
def PollRequest.reclaimed (poll : PollRequest) (rows : List WorkRow) (now : Time) :
    List WorkRow :=
  (poll.expired rows now).foldl replaceRow rows

/-- One round of `_poll_next_work`, which reads the clock for each half. -/
def PollRequest.round (poll : PollRequest) (rows : List WorkRow)
    (reclaimedAt leasedAt : Time) : Option (WorkRow × List WorkRow) :=
  leaseNextWork (poll.reclaimed rows reclaimedAt) poll.workspaceId poll.environmentId
    poll.workerId poll.leaseSeconds leasedAt

/-! ## The oldest available item -/

/-- An item of the environment, or of any environment, in any workspace. -/
def InScope (environmentId : Option String) (row : WorkRow) : Bool :=
  row.resourceType = .environmentWork ∧ row.deletedAt = none ∧
    (environmentId = none ∨ row.parentId = environmentId)

/-- The oldest available item is leased, and none if no item is available. -/
def LeasesOldest (rows : List WorkRow) (environmentId : Option String)
    (workerId : String) (leaseSeconds : ℕ) (now : Time) :
    Option (WorkRow × List WorkRow) → Prop
  | some (leased, after) =>
      ∃ row, IsOldest ManagedResource.age (rows.filter (InScope environmentId))
          (WorkRow.available now) row ∧
        leased = WorkRow.lease row workerId leaseSeconds now ∧
        after = replaceRow rows leased
  | none =>
      ∀ row ∈ rows, InScope environmentId row = true → WorkRow.available now row = false

/-- The page of the query holds the oldest available item: the item is of the
workspace, and less than a page of items of the query are newer. -/
def PageHoldsOldest (rows : List WorkRow) (workspaceId : String)
    (environmentId : Option String) (now : Time) : Prop :=
  ∀ row, IsOldest ManagedResource.age (rows.filter (InScope environmentId))
      (WorkRow.available now) row →
    row.workspaceId = workspaceId ∧
      (newer ManagedResource.age
        (rows.filter (workQuery workspaceId environmentId).selects) row).length <
          WORK_PAGE_LIMIT

theorem workQuery_selects
    {workspaceId : String} {environmentId : Option String} {row : WorkRow} :
    (workQuery workspaceId environmentId).selects row = true ↔
      InScope environmentId row = true ∧ row.workspaceId = workspaceId := by
  simp only [ResourceQuery.selects, workQuery, InScope, decide_eq_true_eq]
  constructor
  · rintro ⟨htype, hworkspace, hdeleted, hparent, -⟩
    exact ⟨⟨htype, by simpa using hdeleted, hparent⟩, hworkspace⟩
  · rintro ⟨⟨htype, hdeleted, hparent⟩, hworkspace⟩
    exact ⟨htype, hworkspace, Or.inr hdeleted, hparent, Or.inl trivial⟩

theorem Table.leaseOldest_iff
    (table : WorkTable) (workspaceId : String) (environmentId : Option String)
    (workerId : String) (leaseSeconds : ℕ) (now : Time) :
    LeasesOldest table.rows environmentId workerId leaseSeconds now
        (leaseOldest table.rows (workQuery workspaceId environmentId) workerId
          leaseSeconds now) ↔
      PageHoldsOldest table.rows workspaceId environmentId now := by
  have hscope := table.keyed (InScope environmentId)
  have hqueried := table.keyed (workQuery workspaceId environmentId).selects
  have hpage : ∀ row, row ∈ listResources table.rows
      (workQuery workspaceId environmentId) WORK_PAGE_LIMIT ↔
        row ∈ table.rows.filter (InScope environmentId) ∧
          row.workspaceId = workspaceId ∧
          (newer ManagedResource.age
            (table.rows.filter (workQuery workspaceId environmentId).selects)
              row).length < WORK_PAGE_LIMIT := by
    intro row
    unfold listResources
    rw [hqueried.mem_page_iff, List.mem_filter, List.mem_filter, workQuery_selects]
    tauto
  have hrefl : leaseOldest table.rows (workQuery workspaceId environmentId) workerId
      leaseSeconds now =
        (scan ManagedResource.age
          (table.rows.filter (workQuery workspaceId environmentId).selects)
          WORK_PAGE_LIMIT (WorkRow.available now)).map fun row =>
            (WorkRow.lease row workerId leaseSeconds now,
              replaceRow table.rows (WorkRow.lease row workerId leaseSeconds now)) := rfl
  rw [hrefl]
  cases hscan : scan ManagedResource.age
      (table.rows.filter (workQuery workspaceId environmentId).selects)
      WORK_PAGE_LIMIT (WorkRow.available now) with
  | none =>
      have hnone := scan_eq_none_iff.mp hscan
      constructor
      · intro hidle row hrow
        obtain ⟨hmem, havailable, -⟩ := hrow
        obtain ⟨hmem, hin⟩ := List.mem_filter.mp hmem
        rw [hidle row hmem hin] at havailable
        cases havailable
      · intro hholds row hmem hin
        by_contra havailable
        obtain ⟨oldest, holdest⟩ := exists_isOldest ManagedResource.age
          (List.mem_filter.mpr ⟨hmem, hin⟩) (Bool.eq_true_of_not_eq_false havailable)
        have hfound := (hpage oldest).mpr ⟨holdest.1, hholds oldest holdest⟩
        exact hnone oldest hfound holdest.2.1
  | some found =>
      have hfound := (hqueried.scan_eq_some_iff _).mp hscan
      obtain ⟨hmem, hheld⟩ := (hpage found).mp hfound.1
      constructor
      · rintro ⟨row, hrow, hleased, -⟩ other hother
        obtain rfl := hscope.isOldest_unique hrow hother
        have hid : (WorkRow.lease found workerId leaseSeconds now).id =
            (WorkRow.lease row workerId leaseSeconds now).id := by
          rw [hleased]
        have hsame := List.inj_on_of_nodup_map table.ids (List.mem_of_mem_filter hmem)
          (List.mem_of_mem_filter hrow.1) hid
        rw [← hsame]
        exact hheld
      · intro hholds
        obtain ⟨oldest, holdest⟩ := exists_isOldest ManagedResource.age hmem hfound.2.1
        have hlisted := (hpage oldest).mpr ⟨holdest.1, hholds oldest holdest⟩
        have hle := hfound.2.2 oldest hlisted holdest.2.1
        have hge := holdest.2.2 found hmem hfound.2.1
        obtain rfl := List.inj_on_of_nodup_map hscope hmem holdest.1
          (le_antisymm hle hge)
        exact ⟨found, holdest, rfl, rfl⟩

/-- Leasing finds the oldest available item, and reports none only if there is
none, exactly when the page of its query holds that item. -/
theorem oldest_available_leased_iff
    (table : WorkTable) (workspaceId workerId : String) (leaseSeconds : ℕ)
    (now : Time) :
    (∀ environmentId,
        LeasesOldest table.rows (some environmentId) workerId leaseSeconds now
            (leaseNextWork table.rows workspaceId environmentId workerId leaseSeconds
              now) ↔
          PageHoldsOldest table.rows workspaceId (some environmentId) now) ∧
      ∀ environmentId,
        LeasesOldest table.rows environmentId workerId leaseSeconds now
            (nextRunnableWork table.rows workspaceId environmentId workerId
              leaseSeconds now) ↔
          PageHoldsOldest table.rows workspaceId environmentId now := by
  constructor
  · intro environmentId
    exact table.leaseOldest_iff workspaceId (some environmentId) workerId leaseSeconds now
  · intro environmentId
    have hscan :=
      table.leaseOldest_iff workspaceId environmentId workerId leaseSeconds now
    cases environmentId with
    | none => exact hscan
    | some environmentId => exact hscan

/-! ## A queue with many finished items -/

/-- The first item waits; all later ones are completed. -/
def queueRow (index : ℕ) : WorkRow where
  id := "work_" ++ String.ofList (List.replicate index 'w')
  workspaceId := "wrkspc_default"
  resourceType := .environmentWork
  parentId := some "env_1"
  name := some "session:sess_1"
  status := if index = 0 then .queued else .completed
  data := { sessionId := "sess_1", trigger := "session.events", queuedAt := index }
  createdAt := index

theorem queueRow_id_injective : Function.Injective fun index => (queueRow index).id := by
  intro first second hsame
  have hletters := congrArg String.length hsame
  simp only [queueRow, String.length_append, String.length_ofList,
    List.length_replicate] at hletters
  omega

def queueOf (count : ℕ) : WorkTable where
  rows := (List.range count).map queueRow
  ids := by
    rw [List.map_map]
    exact List.nodup_range.map queueRow_id_injective

theorem queueRow_available {index : ℕ} {now : Time} :
    WorkRow.available now (queueRow index) = true ↔ index = 0 := by
  cases index with
  | zero => simp [WorkRow.available, workAvailableForLease, workReadyForExecution,
      WorkRow.work, queueRow]
  | succ index => simp [WorkRow.available, workAvailableForLease, workReadyForExecution,
      leaseExpired, LEASED_WORK_STATUSES, WorkRow.work, queueRow]

theorem queueOf_rows (count : ℕ) :
    (queueOf (count + 1)).rows =
      queueRow 0 :: (List.range count).map fun index => queueRow (index + 1) := by
  change (List.range (count + 1)).map queueRow = _
  rw [List.range_succ_eq_map, List.map_cons, List.map_map]
  rfl

theorem queueRow_isOldest (count : ℕ) (now : Time) :
    IsOldest ManagedResource.age
      ((queueOf (count + 1)).rows.filter (InScope (some "env_1")))
      (WorkRow.available now) (queueRow 0) := by
  refine ⟨?_, queueRow_available.mpr rfl, ?_⟩
  · rw [queueOf_rows]
    exact List.mem_filter.mpr ⟨List.mem_cons_self, by simp [InScope, queueRow]⟩
  · intro other hother havailable
    obtain ⟨index, -, rfl⟩ := List.mem_map.mp (List.mem_of_mem_filter hother)
    rw [queueRow_available.mp havailable]

theorem queueRow_newer (count : ℕ) :
    (newer ManagedResource.age
      ((queueOf (count + 1)).rows.filter
        (workQuery "wrkspc_default" (some "env_1")).selects) (queueRow 0)).length =
      count := by
  have hall : (queueOf (count + 1)).rows.filter
      (workQuery "wrkspc_default" (some "env_1")).selects =
        (queueOf (count + 1)).rows := by
    apply List.filter_eq_self.mpr
    intro row hrow
    obtain ⟨index, -, rfl⟩ := List.mem_map.mp hrow
    simp [workQuery_selects, InScope, queueRow]
  rw [hall, queueOf_rows]
  unfold newer
  rw [List.filter_cons_of_neg (by simp), List.filter_eq_self.mpr, List.length_map,
    List.length_range]
  intro row hrow
  obtain ⟨index, -, rfl⟩ := List.mem_map.mp hrow
  exact decide_eq_true
    (Prod.Lex.toLex_lt_toLex.mpr (Or.inl (Nat.succ_pos index)))

/-- A thousand completed items hide the waiting one. -/
theorem finished_items_hide_waiting_one :
    ¬ LeasesOldest (queueOf 1001).rows (some "env_1") "worker-1" 60 5000
      (leaseNextWork (queueOf 1001).rows "wrkspc_default" "env_1" "worker-1" 60
        5000) := by
  unfold leaseNextWork
  rw [(queueOf 1001).leaseOldest_iff]
  intro hholds
  have hfew := (hholds (queueRow 0) (queueRow_isOldest 1000 5000)).2
  rw [queueRow_newer 1000] at hfew
  exact absurd hfew (lt_irrefl _)

end ManagedAgents
