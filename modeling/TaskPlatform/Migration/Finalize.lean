import TaskPlatform.Migration.Store

/-!
# Revision `d4b6e8f1a203`

The final constraints of `tasks` in place of the columns `owner_id` and `completed`,
and the way back to these columns.
-/

namespace TaskPlatform
namespace Migration
namespace Finalize

open Relational Truth

/-- `_abort` of this revision, where a condition holds. -/
abbrev abortIf (c : Prop) [Decidable c] (reason : String) : Result Unit :=
  abortWhen c ("Final task migration validation failed: " ++ reason)

/-- `_owner_foreign_key_name`. -/
def ownerForeignKeyName (s : Schema) : Result String := do
  let matchingForeignKeys := s.foreignKeys.filter fun fk =>
    fk.constrained = .ownerId && fk.referred = .users
  match matchingForeignKeys with
  | [fk] => do
    abortIf (fk.name = "") "owner_id foreign key has no database name"
    return fk.name
  | _ => do
    abortIf True "expected exactly one owner_id foreign key"
    return ""

/-- What makes a task row unfit for the final constraints. -/
def invalidTask (t : TaskRow) : Truth :=
  anyOf
    [isNull t.workspaceId,
      isNull t.creatorId,
      isNull t.status,
      isNull t.createdAt,
      isNull t.updatedAt,
      notIn t.statusValue [.todo, .inProgress, .done],
      ne t.creatorId t.ownerId,
      and (isTrue t.completed) (ne t.statusValue (some .done)),
      and (isFalse t.completed) (ne t.statusValue (some .todo)),
      Truth.not (between (sqlTrim t.title).length 1 100),
      Truth.not (between t.priority 1 5)]

/-- `tasks LEFT OUTER JOIN workspaces LEFT OUTER JOIN users`, by workspace and
creator. -/
def taskReferences (r : Rows) : List ((TaskRow × Option Workspace) × Option User) :=
  outerJoin (fun (x : TaskRow × Option Workspace) (u : User) =>
      (eq (some u.id) x.1.creatorId).holds)
    (outerJoin (fun (t : TaskRow) (w : Workspace) => (eq (some w.id) t.workspaceId).holds)
      r.tasks.rows r.workspaces.rows)
    r.users.rows

def validateUpgrade (s : Store) : Result String := do
  let r := s.rows
  let mappingCount := r.map.rows.length
  abortIf (mappingCount ≠ r.users.rows.length) "user and mapping counts differ"
  let missingMappingCount :=
    ((outerJoin (fun (u : User) (m : Mapping) => m.userId = u.id) r.users.rows r.map.rows).filter
      fun x => x.2.isNone).length
  abortIf (missingMappingCount ≠ 0) "at least one user has no migration mapping"
  let matchingOwnerCount :=
    ((join ownMembership r.map.rows r.members.rows).filter fun x => x.2.role = .owner).length
  abortIf (matchingOwnerCount ≠ mappingCount)
    "a mapped workspace is missing its corresponding OWNER"
  let invalidTaskCount := (r.tasks.rows.filter fun t => (invalidTask t).holds).length
  abortIf (invalidTaskCount ≠ 0) "legacy task data does not satisfy final constraints"
  let orphanReferenceCount :=
    ((taskReferences r).filter fun x => x.1.2.isNone || x.2.isNone).length
  abortIf (orphanReferenceCount ≠ 0) "a task references a missing workspace or creator"
  let correctlyMappedTaskCount := (join inOwnersWorkspace r.tasks.rows r.map.rows).length
  abortIf (correctlyMappedTaskCount ≠ r.tasks.rows.length)
    "a task does not use its owner's mapped workspace"
  ownerForeignKeyName s.schema

def upgradeStatements (ownerForeignKeyName : String) : List Ddl :=
  [.alterNullable .workspaceId false,
    .alterNullable .creatorId false,
    .alterNullable .status false,
    .alterNullable .createdAt false,
    .alterNullable .updatedAt false,
    .createCheck .titleLength,
    .createCheck .priority,
    .dropForeignKey ownerForeignKeyName,
    .dropColumn .ownerId,
    .dropColumn .completed]

def upgrade (s : Store) : Result Store := do
  let ownerForeignKeyName ← validateUpgrade s
  Ddl.runAll s (upgradeStatements ownerForeignKeyName)

/-! ## The downgrade -/

def validateDowngrade (r : Rows) : Result Unit :=
  abortIf ((r.tasks.rows.filter fun t => (anyOf
      [isNull t.creatorId,
        isNull t.status,
        notIn t.statusValue [.todo, .inProgress, .done]]).holds).length ≠ 0)
    "final task data cannot be converted to legacy fields"

def legacyColumns : List Ddl :=
  [.addColumn .ownerId .integer,
    .addColumn .completed .boolean]

/-- `UPDATE tasks SET owner_id = creator_id, completed = ...` for one row. -/
def restore (t : TaskRow) : TaskRow :=
  { t with
    ownerId := t.creatorId
    completed := some (if (eq t.statusValue (some .done)).holds then true else false) }

theorem id_restore (t : TaskRow) : (restore t).id = t.id := rfl

def downgradeStatements : List Ddl :=
  [.alterNullable .ownerId false,
    .alterNullable .completed false,
    .createForeignKey ⟨"fk_tasks_owner_id_users", .ownerId, .users, ""⟩,
    .dropCheck "ck_tasks_priority",
    .dropCheck "ck_tasks_title_length",
    .alterNullable .updatedAt true,
    .alterNullable .createdAt true,
    .alterNullable .status true,
    .alterNullable .creatorId true,
    .alterNullable .workspaceId true]

def downgrade (s : Store) : Result Store := do
  validateDowngrade s.rows
  let s ← Ddl.runAll s legacyColumns
  let s ← s.updateTasks (fun _ => true) restore id_restore
  let nullLegacyFieldCount := (s.rows.tasks.rows.filter fun t =>
    (Truth.or (isNull t.ownerId) (isNull t.completed)).holds).length
  abortIf (nullLegacyFieldCount ≠ 0) "legacy task fields were not backfilled completely"
  Ddl.runAll s downgradeStatements

def script : Revision :=
  { revision := "d4b6e8f1a203"
    downRevision := "c1e8d5a4b762"
    upgrade := upgrade
    downgrade := downgrade }

end Finalize
end Migration
end TaskPlatform
