import Mathlib.Data.List.Dedup
import Mathlib.Data.List.Infix
import TaskPlatform.Migration.Store

/-!
# Revision `e5a1c7d9b302`

The mapping table is dropped once the structure of the schema and the data of the
mappings and the tasks have been validated.
-/

namespace TaskPlatform
namespace Migration
namespace Retire

open Relational Truth

/-- `_abort` of this revision, where a condition holds. -/
abbrev abortIf (c : Prop) [Decidable c] (reason : String) : Result Unit :=
  abortWhen c ("Task collaboration migration-map retirement validation failed: " ++ reason)

/-- `set(xs) == set(ys)`. -/
def SameSet {α : Type} (xs ys : List α) : Prop := (∀ x ∈ xs, x ∈ ys) ∧ ∀ y ∈ ys, y ∈ xs

instance {α : Type} [DecidableEq α] (xs ys : List α) : Decidable (SameSet xs ys) :=
  inferInstanceAs (Decidable (_ ∧ _))

/-- Whether a text of the schema, in upper case, has a part. -/
def containsUpper (text part : String) : Prop := part.toList <:+: text.toUpper.toList

instance (text part : String) : Decidable (containsUpper text part) :=
  inferInstanceAs (Decidable (_ <:+: _))

section Structure

variable {C : Type} [DecidableEq C]

/-- `columns[name]["nullable"]`. -/
def isNullable (columns : List (Column C)) (name : C) : Prop :=
  ∃ col ∈ columns, col.name = name ∧ col.nullable = true

instance (columns : List (Column C)) (name : C) : Decidable (isNullable columns name) :=
  inferInstanceAs (Decidable (∃ col ∈ columns, _))

def hasType (columns : List (Column C)) (name : C) (type : SqlType) : Prop :=
  ∃ col ∈ columns, col.name = name ∧ col.type = type

instance (columns : List (Column C)) (name : C) (type : SqlType) :
    Decidable (hasType columns name type) :=
  inferInstanceAs (Decidable (∃ col ∈ columns, _))

/-- The foreign keys of a table are the expected ones, each with `RESTRICT`. -/
def validateForeignKeys (actual expected : List (ForeignKey C)) (mismatch invalid : String) :
    Result Unit := do
  abortIf (¬ SameSet (actual.map ForeignKey.name) (expected.map ForeignKey.name)) mismatch
  expected.forM fun fk =>
    abortIf (¬ ∃ x ∈ actual, x.name = fk.name ∧ x.constrained = fk.constrained ∧
        x.referred = fk.referred ∧ x.ondelete.toUpper = "RESTRICT")
      invalid

end Structure

def expectedTaskColumns : List TaskColumn :=
  [.id, .title, .description, .priority, .workspaceId, .creatorId, .assigneeId, .status,
    .createdAt, .updatedAt]

def expectedTaskIndexes : List (String × List TaskColumn) :=
  [("ix_tasks_workspace_id_id", [.workspaceId, .id]),
    ("ix_tasks_workspace_status_id", [.workspaceId, .status, .id]),
    ("ix_tasks_workspace_assignee_id", [.workspaceId, .assigneeId, .id]),
    ("ix_tasks_creator_id", [.creatorId]),
    ("ix_tasks_assignee_id", [.assigneeId])]

def expectedTaskForeignKeys : List (ForeignKey TaskColumn) :=
  [⟨"fk_tasks_workspace_id_workspaces", .workspaceId, .workspaces, "RESTRICT"⟩,
    ⟨"fk_tasks_creator_id_users", .creatorId, .users, "RESTRICT"⟩,
    ⟨"fk_tasks_assignee_id_users", .assigneeId, .users, "RESTRICT"⟩]

def expectedMapForeignKeys : List (ForeignKey MapColumn) :=
  [⟨"fk_task_collaboration_map_user_id_users", .userId, .users, "RESTRICT"⟩,
    ⟨"fk_task_collaboration_map_workspace_id_workspaces", .workspaceId, .workspaces,
      "RESTRICT"⟩]

/-! ## The structure -/

def validateMappingStructure (m : MapSchema) : Result Unit := do
  abortIf (¬ SameSet (m.columns.map Column.name)
      [.userId, .workspaceId, .legacyTaskCount, .legacyTaskMaxId, .migratedAt])
    "migration mapping columns do not match the expected schema"
  [MapColumn.userId, .workspaceId, .legacyTaskCount, .migratedAt].forM fun name =>
    abortIf (isNullable m.columns name) "a required migration mapping column is nullable"
  abortIf (¬ isNullable m.columns .legacyTaskMaxId)
    "legacy task maximum identifier is unexpectedly required"
  abortIf (¬ hasType m.columns .migratedAt (.datetime 6))
    "migration timestamp precision is not DATETIME(6)"
  abortIf (m.primaryKey ≠ [.userId]) "migration mapping user primary key is missing"
  abortIf (("uq_task_collaboration_map_workspace_id", [.workspaceId]) ∉ m.uniqueConstraints)
    "migration mapping workspace uniqueness is missing"
  validateForeignKeys m.foreignKeys expectedMapForeignKeys
    "migration mapping foreign keys do not match expectations"
    "a migration mapping foreign key is invalid"

/-- `checks[name]` of a constraint the table has. -/
def checkHas (s : Schema) (ck : TaskCheck) (part : String) : Prop :=
  ∃ x ∈ s.checks, x.name = ck.name ∧ containsUpper x.sqltext part

instance (s : Schema) (ck : TaskCheck) (part : String) : Decidable (checkHas s ck part) :=
  inferInstanceAs (Decidable (∃ x ∈ s.checks, _))

def validateTaskStructure (s : Schema) : Result Unit := do
  abortIf (s.hasColumn .ownerId = true ∨ s.hasColumn .completed = true)
    "legacy Task columns still exist"
  abortIf (¬ SameSet (s.columns.map Column.name) expectedTaskColumns)
    "Task columns do not match the final schema"
  [TaskColumn.id, .title, .priority, .workspaceId, .creatorId, .status, .createdAt,
      .updatedAt].forM fun name =>
    abortIf (isNullable s.columns name) "a required final Task column is nullable"
  abortIf (¬ isNullable s.columns .description) "Task description is unexpectedly required"
  abortIf (¬ isNullable s.columns .assigneeId) "Task assignee is unexpectedly required"
  abortIf (¬ hasType s.columns .status (.varchar 16))
    "Task status is not the expected constrained VARCHAR"
  [TaskColumn.createdAt, .updatedAt].forM fun name =>
    abortIf (¬ hasType s.columns name (.datetime 6)) "a Task timestamp is not DATETIME(6)"
  abortIf (¬ ∀ ck ∈ [TaskCheck.titleLength, .priority, .status], ∃ x ∈ s.checks, x.name = ck.name)
    "final Task CHECK constraints are incomplete"
  abortIf (¬ ∀ status ∈ ["TODO", "IN_PROGRESS", "DONE"], checkHas s .status status)
    "Task status CHECK does not contain every final status"
  abortIf (¬ checkHas s .titleLength "TRIM") "Task title CHECK does not enforce trimmed length"
  abortIf (¬ checkHas s .priority "BETWEEN 1 AND 5")
    "Task priority CHECK does not enforce the final range"
  abortIf (¬ SameSet (s.indexes.map fun x => (x.name, x.columns)) expectedTaskIndexes)
    "final Task indexes do not match expectations"
  validateForeignKeys s.foreignKeys expectedTaskForeignKeys
    "final Task foreign keys do not match expectations"
    "a final Task foreign key is invalid"

/-- `inspector.get_table_names()`. -/
def tableNames (s : Schema) : List TableName :=
  [.alembicVersion, .users, .workspaces, .workspaceMembers, .tasks] ++
    if s.map.isSome then [.taskCollaborationUserWorkspaceMap] else []

def validateStructure (s : Schema) : Result Unit := do
  abortIf (.taskCollaborationUserWorkspaceMap ∉ tableNames s) "migration mapping table is missing"
  abortIf (¬ ∀ x ∈ [TableName.alembicVersion, .users, .workspaces, .workspaceMembers, .tasks],
      x ∈ tableNames s)
    "a required final application table is missing"
  abortIf (s.revision ≠ "d4b6e8f1a203") "database revision is not the cleanup predecessor"
  s.map.forM validateMappingStructure
  validateTaskStructure s

/-! ## The data -/

/-- The values a column of the mapping table has more than once. -/
def duplicateValueCount (r : Rows) (column : Mapping → Id) : Nat :=
  let values := r.map.rows.map column
  (values.dedup.filter fun v => 1 < values.count v).length

def validateMappingData (r : Rows) : Result Unit := do
  abortIf (duplicateValueCount r Mapping.userId ≠ 0) "migration mapping contains duplicate users"
  abortIf (duplicateValueCount r Mapping.workspaceId ≠ 0)
    "migration mapping contains duplicate workspaces"
  let references := outerJoin
    (fun (x : Mapping × Option User) (w : Workspace) => w.id = x.1.workspaceId)
    (outerJoin (fun (m : Mapping) (u : User) => u.id = m.userId) r.map.rows r.users.rows)
    r.workspaces.rows
  let orphanCount := (references.filter fun x => x.1.2.isNone || x.2.isNone).length
  abortIf (orphanCount ≠ 0) "migration mapping contains an orphan reference"
  let wrongCreatorCount :=
    ((join (fun (m : Mapping) (w : Workspace) => w.id = m.workspaceId) r.map.rows
      r.workspaces.rows).filter fun x => x.2.createdById ≠ x.1.userId).length
  abortIf (wrongCreatorCount ≠ 0) "a mapped workspace has the wrong creator"
  let missingOwnerCount :=
    ((outerJoin (fun (m : Mapping) (x : WorkspaceMember) =>
        ownMembership m x && x.role = .owner) r.map.rows r.members.rows).filter
      fun x => x.2.isNone).length
  abortIf (missingOwnerCount ≠ 0) "a mapped workspace is missing its corresponding OWNER"

/-- The columns no task may have NULL in. -/
def nullRequired (t : TaskRow) : Truth :=
  anyOf
    [isNull (some t.id), isNull (some t.title), isNull (some t.priority), isNull t.workspaceId,
      isNull t.creatorId, isNull t.status, isNull t.createdAt, isNull t.updatedAt]

/-- `tasks LEFT OUTER JOIN workspaces LEFT OUTER JOIN users LEFT OUTER JOIN users`, by
workspace, creator and assignee. -/
def taskReferences (r : Rows) :
    List (((TaskRow × Option Workspace) × Option User) × Option User) :=
  outerJoin (fun (x : (TaskRow × Option Workspace) × Option User) (u : User) =>
      (eq (some u.id) x.1.1.assigneeId).holds)
    (outerJoin (fun (x : TaskRow × Option Workspace) (u : User) =>
        (eq (some u.id) x.1.creatorId).holds)
      (outerJoin (fun (t : TaskRow) (w : Workspace) => (eq (some w.id) t.workspaceId).holds)
        r.tasks.rows r.workspaces.rows)
      r.users.rows)
    r.users.rows

def validateTaskData (r : Rows) : Result Unit := do
  abortIf ((r.tasks.rows.filter fun t => (nullRequired t).holds).length ≠ 0)
    "a final Task required field is null"
  abortIf ((r.tasks.rows.filter fun t =>
      (notIn t.statusValue [TaskStatus.todo, .inProgress, .done]).holds).length ≠ 0)
    "a Task has an invalid final status"
  abortIf (((taskReferences r).filter fun x => x.1.1.2.isNone || x.1.2.isNone ||
      (x.1.1.1.assigneeId.isSome && x.2.isNone)).length ≠ 0)
    "a final Task contains an orphan reference"

def validateUpgrade (s : Store) : Result Unit := do
  validateStructure s.schema
  validateMappingData s.rows
  validateTaskData s.rows

def upgrade (s : Store) : Result Store := do
  validateUpgrade s
  Ddl.runAll s [.dropMap]

/-- The downgrade is refused whatever the database holds. -/
def downgrade (_ : Store) : Result Store :=
  .error (.abort ("Revision e5a1c7d9b302 is an irreversible cleanup boundary; " ++
    "restore a database backup taken before this revision to downgrade across it"))

def script : Revision :=
  { revision := "e5a1c7d9b302"
    downRevision := "d4b6e8f1a203"
    upgrade := upgrade
    downgrade := downgrade }

end Retire
end Migration
end TaskPlatform
