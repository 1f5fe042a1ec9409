import ManagedAgents.AgentContract
import ManagedAgents.JsonEquality
import ManagedAgents.Library.Fallible
import ManagedAgents.Resources

/-!
# Writes of resource rows

A request inserts rows and updates columns of rows; the commit applies its
statements to the rows as they are then, or to none of them when a unique
constraint refuses an insert.  A flush writes the columns whose value differs
from the one the session last knew.
-/

namespace ManagedAgents

inductive ResourceStatus
  | active
  | archived
  | deleted
deriving DecidableEq, Repr

/-- A row with a JSON column `data`. -/
abbrev Resource := ManagedResource ResourceStatus Dict

/-- `PREFIXES`. -/
def ResourceType.idPrefix : ResourceType → String
  | .skill => "skill"
  | .skillVersion => "skver"
  | .vault => "vault"
  | .credential => "cred"
  | .memoryStore => "memstore"
  | .memory => "mem"
  | .memoryVersion => "memver"
  | .sessionResource => "sesrsc"
  | .environmentWork => "work"

/-- What a request draws from outside, in the order of its calls. -/
structure Supply where
  uuidHex : ℕ → String
  clock : ℕ → Time

def Supply.newId (supply : Supply) (resourceType : ResourceType) (draw : ℕ) : String :=
  resourceType.idPrefix ++ "_" ++ supply.uuidHex draw

/-! ## Single rows -/

def resourceNotFound (resourceType : ResourceType) : HTTPException :=
  ⟨404, resourceType.name ++ " not found"⟩

/-- `_must_exist`. -/
def mustExist (rows : List Resource) (workspaceId resourceId : String)
    (resourceType : ResourceType) (parentId : Option String) :
    Except HTTPException Resource :=
  match getResource rows resourceId
      { resourceType := resourceType, workspaceId := workspaceId,
        parentId := parentId } with
  | some resource => .ok resource
  | none => .error (resourceNotFound resourceType)

/-- `scalar_one_or_none`: several rows raise `MultipleResultsFound`. -/
def scalarOneOrNone : List Resource → Except HTTPException (Option Resource)
  | [] => .ok none
  | [resource] => .ok (some resource)
  | _ :: _ :: _ => .error internalServerError

def getResourceByName (rows : List Resource) (query : ResourceQuery) (name : String) :
    Except HTTPException (Option Resource) :=
  scalarOneOrNone (rows.filter fun row => query.selects row ∧ row.name = some name)

def getResourceVersion (rows : List Resource) (query : ResourceQuery) (version : ℤ) :
    Except HTTPException (Option Resource) :=
  scalarOneOrNone (rows.filter fun row => query.selects row ∧ row.version = some version)

/-- `left or … or fallback` for the column `name`; other values than texts fail
in the database. -/
def nameOr (value : Json) (fallback : Option String) :
    Except HTTPException (Option String) :=
  if value.truthy then
    match value with
    | .str name => .ok (some name)
    | _ => .error internalServerError
  else .ok fallback

/-- `data.get("name") or data.get("display_name") or data.get("display_title")`. -/
def resourceName (data : Dict) : Json :=
  ((Dict.get data "name").or (Dict.get data "display_name")).or
    (Dict.get data "display_title")

/-- A key of a dictionary as JSON writes it; lists and dictionaries are no keys. -/
def keyText : Json → Except HTTPException String
  | .str text => .ok text
  | .null => .ok "null"
  | .bool value => .ok (if value then "true" else "false")
  | .int value => .ok (toString value)
  | _ => .error internalServerError

/-- The field for which a sequence of two items stands: a list, the characters of
a text or the keys of a dictionary. -/
def pairField : Json → Except HTTPException (String × Json)
  | .list [key, value] => do return (← keyText key, value)
  | .str text =>
      match text.toList with
      | [key, value] => .ok (key.toString, .str value.toString)
      | _ => .error internalServerError
  | .dict [(key, _), (value, _)] => .ok (key, .str value)
  | _ => .error internalServerError

/-- `dict(value or {})`, also of a list of pairs. -/
def toDict (value : Json) : Except HTTPException Dict :=
  if value.truthy then
    match value with
    | .dict fields => .ok fields
    | .list items => do return Dict.update [] (← items.mapM pairField)
    | _ => .error internalServerError
  else .ok []

/-- `list(value or [])`. -/
def listOf (value : Json) : Except HTTPException (List Json) :=
  if value.truthy then
    match value with
    | .list items => .ok items
    | .str text => .ok (text.toList.map fun char => .str char.toString)
    | .dict fields => .ok (fields.map fun field => .str field.1)
    | _ => .error internalServerError
  else .ok []

/-! ## Statements -/

/-- The columns which an `UPDATE` sets. -/
structure Columns where
  data : Option Dict := none
  name : Option String := none
  status : Option ResourceStatus := none
  archivedAt : Option Time := none
  deletedAt : Option Time := none
deriving DecidableEq

def Columns.write (columns : Columns) (row : Resource) : Resource :=
  { row with
    data := columns.data.getD row.data
    name := columns.name.or row.name
    status := columns.status.getD row.status
    archivedAt := columns.archivedAt.or row.archivedAt
    deletedAt := columns.deletedAt.or row.deletedAt }

inductive Statement
  | insert (row : Resource)
  | update (resourceId : String) (columns : Columns)
deriving DecidableEq

/-- The primary key, and `(resource_type, parent_id, version)`, where `NULL`
differs from itself.  The constraint with `workspace_id` follows from it. -/
def conflicts (row other : Resource) : Bool :=
  row.id = other.id ∨
    (row.resourceType = other.resourceType ∧ row.parentId = other.parentId ∧
      row.version = other.version ∧ row.parentId ≠ none ∧ row.version ≠ none)

def updateRow (rows : List Resource) (resourceId : String) (columns : Columns) :
    List Resource :=
  rows.map fun row => if row.id = resourceId then columns.write row else row

def Statement.execute (rows : List Resource) : Statement → Option (List Resource)
  | .insert row => if rows.any (conflicts row) then none else some (rows ++ [row])
  | .update resourceId columns => some (updateRow rows resourceId columns)

def commit (rows : List Resource) (statements : List Statement) :
    Option (List Resource) :=
  statements.foldlM Statement.execute rows

/-! ## The session -/

def createResource (supply : Supply) (draw reading : ℕ) (workspaceId : String)
    (resourceType : ResourceType) (parentId : Option String) (version : Option ℤ)
    (name : Option String) (data : Dict) : Resource where
  id := supply.newId resourceType draw
  workspaceId := workspaceId
  resourceType := resourceType
  parentId := parentId
  version := version
  name := name
  status := .active
  data := data
  createdAt := supply.clock reading

/-- `update_resource` on a held row. -/
def updateResource (held : Resource) (data : Dict) (name : Option String) :
    Resource × Statement :=
  ({ held with data := data, name := name.or held.name },
   .update held.id
    { data := if Dict.equal data held.data then none else some data
      name := if name = held.name then none else name })

def archiveResource (held : Resource) (now : Time) : Resource × Statement :=
  ({ held with archivedAt := some now, status := .archived },
   .update held.id
    { archivedAt := some now
      status := if held.status = .archived then none else some .archived })

def deleteResource (held : Resource) (now : Time) : Resource × Statement :=
  ({ held with deletedAt := some now, status := .deleted },
   .update held.id
    { deletedAt := some now
      status := if held.status = .deleted then none else some .deleted })

/-- What a request that ends without an error writes, and the row of its
response. -/
structure Outcome where
  statements : List Statement := []
  shown : Resource

theorem toDict_dict (fields : Dict) : toDict (.dict fields) = .ok fields := by
  cases fields <;> rfl

/-! ## Rows found -/

theorem getResource_eq_some
    {rows : List Resource} {resourceId : String} {query : ResourceQuery}
    {row : Resource} (hrow : getResource rows resourceId query = some row) :
    row ∈ rows ∧ row.id = resourceId ∧ query.selects row = true := by
  have hfound := List.find?_some hrow
  simp only [decide_eq_true_eq] at hfound
  exact ⟨List.mem_of_find?_eq_some hrow, hfound.1, by simpa using hfound.2⟩

theorem mustExist_eq_ok
    {rows : List Resource} {workspaceId resourceId : String}
    {resourceType : ResourceType} {parentId : Option String} {row : Resource} :
    mustExist rows workspaceId resourceId resourceType parentId = .ok row ↔
      getResource rows resourceId
        { resourceType := resourceType, workspaceId := workspaceId,
          parentId := parentId } = some row := by
  unfold mustExist
  split
  next found hfound => rw [hfound, Except.ok.injEq, Option.some.injEq]
  next hnone => simp [hnone]

/-! ## Rows after a commit -/

@[simp] theorem Columns.write_nothing (row : Resource) : Columns.write {} row = row := by
  simp [Columns.write]

@[simp] theorem updateRow_nothing (rows : List Resource) (resourceId : String) :
    updateRow rows resourceId {} = rows := by
  simp [updateRow]

@[simp] theorem commit_nil (rows : List Resource) : commit rows [] = some rows := rfl

theorem commit_insert
    {rows next : List Resource} {row : Resource} {rest : List Statement} :
    commit rows (.insert row :: rest) = some next ↔
      (∀ other ∈ rows, conflicts row other = false) ∧
        commit (rows ++ [row]) rest = some next := by
  unfold commit
  rw [List.foldlM_cons]
  simp only [Statement.execute]
  split
  next hconflict =>
    obtain ⟨other, hother, htrue⟩ := List.any_eq_true.mp hconflict
    simp only [Option.bind_eq_bind, Option.bind_none]
    refine iff_of_false (by simp) ?_
    rintro ⟨hfree, -⟩
    rw [hfree other hother] at htrue
    cases htrue
  next hfree =>
    rw [Bool.not_eq_true, List.any_eq_false] at hfree
    simp only [Option.bind_eq_bind, Option.bind_some]
    exact (and_iff_right fun other hother => by simpa using hfree other hother).symm

@[simp] theorem commit_update
    {rows : List Resource} {resourceId : String} {columns : Columns}
    {rest : List Statement} :
    commit rows (.update resourceId columns :: rest) =
      commit (updateRow rows resourceId columns) rest := rfl

theorem mem_updateRow
    {rows : List Resource} {resourceId : String} {columns : Columns} {row : Resource} :
    row ∈ updateRow rows resourceId columns ↔
      (row ∈ rows ∧ row.id ≠ resourceId) ∨
        ∃ old ∈ rows, old.id = resourceId ∧ row = columns.write old := by
  unfold updateRow
  rw [List.mem_map]
  constructor
  · rintro ⟨old, hold, rfl⟩
    split
    next hid => exact .inr ⟨old, hold, hid, rfl⟩
    next hid => exact .inl ⟨hold, hid⟩
  · rintro (⟨hrow, hid⟩ | ⟨old, hold, hid, rfl⟩)
    · exact ⟨row, hrow, if_neg hid⟩
    · exact ⟨old, hold, if_pos hid⟩

theorem ids_append
    {rows : List Resource} {row : Resource} (hids : (rows.map ManagedResource.id).Nodup)
    (hfresh : ∀ other ∈ rows, other.id ≠ row.id) :
    ((rows ++ [row]).map ManagedResource.id).Nodup := by
  rw [List.map_append, List.nodup_append]
  refine ⟨hids, List.nodup_singleton _, ?_⟩
  intro first hfirst second hsecond
  obtain ⟨other, hother, rfl⟩ := List.mem_map.mp hfirst
  obtain rfl : second = row.id := by simpa using hsecond
  exact hfresh other hother

theorem ids_updateRow
    (rows : List Resource) (resourceId : String) (columns : Columns) :
    (updateRow rows resourceId columns).map ManagedResource.id =
      rows.map ManagedResource.id := by
  unfold updateRow
  rw [List.map_map]
  apply List.map_congr_left
  intro row hrow
  simp only [Function.comp_apply]
  split <;> rfl

theorem commit_ids
    {rows next : List Resource} {statements : List Statement}
    (hids : (rows.map ManagedResource.id).Nodup)
    (hcommit : commit rows statements = some next) :
    (next.map ManagedResource.id).Nodup := by
  induction statements generalizing rows with
  | nil =>
      rw [commit_nil, Option.some.injEq] at hcommit
      exact hcommit ▸ hids
  | cons statement rest ih =>
      cases statement with
      | insert row =>
          obtain ⟨hfree, hcommit⟩ := commit_insert.mp hcommit
          refine ih (ids_append hids fun other hother hid => ?_) hcommit
          have hdiffers := hfree other hother
          simp [conflicts, hid] at hdiffers
      | update resourceId columns =>
          rw [commit_update] at hcommit
          exact ih (by rwa [ids_updateRow]) hcommit

/-! ## Rows that stay -/

/-- What stays of a row. -/
structure SameRow (row later : Resource) : Prop where
  id : later.id = row.id
  resourceType : later.resourceType = row.resourceType
  workspaceId : later.workspaceId = row.workspaceId
  parentId : later.parentId = row.parentId
  version : later.version = row.version

def RowsKept (older newer : List Resource) : Prop :=
  ∀ row ∈ older, ∃ later ∈ newer, SameRow row later

theorem SameRow.refl (row : Resource) : SameRow row row :=
  ⟨rfl, rfl, rfl, rfl, rfl⟩

theorem RowsKept.refl (rows : List Resource) : RowsKept rows rows :=
  fun row hrow => ⟨row, hrow, SameRow.refl row⟩

theorem RowsKept.trans
    (first second third : List Resource) (hfirst : RowsKept first second)
    (hsecond : RowsKept second third) : RowsKept first third := by
  intro row hrow
  obtain ⟨middle, hmiddle, hsame⟩ := hfirst row hrow
  obtain ⟨later, hlater, hsame'⟩ := hsecond middle hmiddle
  exact ⟨later, hlater, hsame'.id.trans hsame.id,
    hsame'.resourceType.trans hsame.resourceType,
    hsame'.workspaceId.trans hsame.workspaceId, hsame'.parentId.trans hsame.parentId,
    hsame'.version.trans hsame.version⟩

theorem RowsKept.append (rows more : List Resource) : RowsKept rows (rows ++ more) :=
  fun row hrow => ⟨row, List.mem_append_left _ hrow, SameRow.refl row⟩

theorem SameRow.write (columns : Columns) (row : Resource) :
    SameRow row (columns.write row) :=
  ⟨rfl, rfl, rfl, rfl, rfl⟩

theorem RowsKept.updateRow
    (rows : List Resource) (resourceId : String) (columns : Columns) :
    RowsKept rows (updateRow rows resourceId columns) := by
  intro row hrow
  refine ⟨_, List.mem_map_of_mem hrow, ?_⟩
  split
  · exact SameRow.write columns row
  · exact SameRow.refl row

theorem commit_kept
    {rows next : List Resource} {statements : List Statement}
    (hcommit : commit rows statements = some next) : RowsKept rows next := by
  induction statements generalizing rows with
  | nil =>
      rw [commit_nil, Option.some.injEq] at hcommit
      exact hcommit ▸ RowsKept.refl rows
  | cons statement rest ih =>
      cases statement with
      | insert row =>
          obtain ⟨-, hcommit⟩ := commit_insert.mp hcommit
          exact RowsKept.trans _ _ _ (RowsKept.append rows [row]) (ih hcommit)
      | update resourceId columns =>
          rw [commit_update] at hcommit
          exact RowsKept.trans _ _ _ (RowsKept.updateRow rows resourceId columns)
            (ih hcommit)

/-! ## Replaced rows -/

theorem updateRow_eq_replaceRow
    {rows : List Resource} {row : Resource} {columns : Columns}
    (hids : (rows.map ManagedResource.id).Nodup) (hrow : row ∈ rows) :
    updateRow rows row.id columns = replaceRow rows (columns.write row) := by
  unfold updateRow replaceRow
  apply List.map_congr_left
  intro other hother
  by_cases hid : other.id = row.id
  · obtain rfl := List.inj_on_of_nodup_map hids hother hrow hid
    simp [Columns.write]
  · have hne : ¬other.id = (columns.write row).id := hid
    rw [if_neg hid, if_neg hne]

theorem mem_replaceRow
    {rows : List Resource} {row written : Resource}
    (hrow : row ∈ replaceRow rows written) :
    (row ∈ rows ∧ row.id ≠ written.id) ∨ row = written := by
  obtain ⟨other, hother, rfl⟩ := List.mem_map.mp hrow
  split
  · exact Or.inr rfl
  next hne => exact Or.inl ⟨hother, hne⟩

theorem mem_replaceRow_self
    {rows : List Resource} {row written : Resource} (hrow : row ∈ rows)
    (hid : row.id = written.id) : written ∈ replaceRow rows written :=
  List.mem_map.mpr ⟨row, hrow, if_pos hid⟩

theorem replaceRow_of_not_mem
    {rows : List Resource} {written : Resource}
    (hfree : ∀ row ∈ rows, row.id ≠ written.id) : replaceRow rows written = rows := by
  unfold replaceRow
  conv_rhs => rw [← List.map_id rows]
  exact List.map_congr_left fun row hrow => if_neg (hfree row hrow)

/-- A written row which is selected like the one before it. -/
theorem filter_replaceRow
    {rows : List Resource} {row written : Resource} {selected : Resource → Bool}
    (hids : (rows.map ManagedResource.id).Nodup) (hrow : row ∈ rows)
    (hid : written.id = row.id) (hsame : selected written = selected row) :
    (replaceRow rows written).filter selected =
      replaceRow (rows.filter selected) written := by
  unfold replaceRow
  rw [List.filter_map]
  congr 1
  apply List.filter_congr
  intro other hother
  by_cases hwritten : other.id = written.id
  · obtain rfl := List.inj_on_of_nodup_map hids hother hrow (hwritten.trans hid)
    simp [hwritten, hsame]
  · simp [hwritten]

/-- A written row which is not selected, as the one before it. -/
theorem filter_replaceRow_of_not
    {rows : List Resource} {row written : Resource} {selected : Resource → Bool}
    (hids : (rows.map ManagedResource.id).Nodup) (hrow : row ∈ rows)
    (hid : written.id = row.id) (hwritten : selected written = false)
    (hnot : selected row = false) :
    (replaceRow rows written).filter selected = rows.filter selected := by
  rw [filter_replaceRow hids hrow hid (hwritten.trans hnot.symm)]
  apply replaceRow_of_not_mem
  intro other hother hsame
  obtain ⟨hmem, hselected⟩ := List.mem_filter.mp hother
  obtain rfl := List.inj_on_of_nodup_map hids hmem hrow (hsame.trans hid)
  rw [hnot] at hselected
  cases hselected

theorem filter_replaceRow_sublist
    {rows : List Resource} {written : Resource} {selected : Resource → Bool}
    (hnot : selected written = false) :
    ((replaceRow rows written).filter selected).Sublist (rows.filter selected) := by
  induction rows with
  | nil => exact List.Sublist.refl _
  | cons row rest ih =>
      change (((if row.id = written.id then written else row) ::
        replaceRow rest written).filter selected).Sublist _
      by_cases hid : row.id = written.id
      · rw [if_pos hid, List.filter_cons_of_neg (by simp [hnot])]
        exact ih.trans (List.Sublist.filter _ (List.sublist_cons_self row rest))
      · rw [if_neg hid]
        by_cases hrow : selected row = true
        · rw [List.filter_cons_of_pos hrow, List.filter_cons_of_pos hrow]
          exact ih.cons_cons _
        · rw [List.filter_cons_of_neg hrow, List.filter_cons_of_neg hrow]
          exact ih

end ManagedAgents
