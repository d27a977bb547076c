import TaskPlatform.Migration.Store

/-!
# Revision `c1e8d5a4b762`

One personal workspace for each user, with the user's tasks in it, and the way
back while nothing of it has changed.
-/

namespace TaskPlatform
namespace Migration
namespace Backfill

open Relational Truth

def personalWorkspaceName (username : String) : String := "Personal Workspace - " ++ username

/-- `_abort` of this revision, where a condition holds. -/
abbrev abortIf (c : Prop) [Decidable c] (reason : String) : Result Unit :=
  abortWhen c ("Task collaboration migration validation failed: " ++ reason)

/-- `SELECT COUNT(*) FROM tasks WHERE owner_id = :user_id`. -/
def ownerTaskCount (r : Rows) (userId : Id) : Nat :=
  (r.tasks.rows.filter fun t => (eq t.ownerId (some userId)).holds).length

/-- `SELECT MAX(id) FROM tasks WHERE owner_id = :user_id`. -/
def ownerTaskMaxId (r : Rows) (userId : Id) : Option Id :=
  ((r.tasks.rows.filter fun t => (eq t.ownerId (some userId)).holds).map TaskRow.id).max?

/-- The memberships of some workspaces, in the order of their keys. -/
def membershipsOf (r : Rows) (workspaceIds : List Id) : List WorkspaceMember :=
  r.members.rows.filter fun m => m.workspaceId ∈ workspaceIds

def workspacesOf (r : Rows) (workspaceIds : List Id) : List Workspace :=
  r.workspaces.rows.filter fun w => w.id ∈ workspaceIds

/-! ## The upgrade -/

/-- What makes a task row invalid after the upgrade. -/
def invalidTask (t : TaskRow) : Truth :=
  anyOf
    [isNull t.workspaceId,
      isNull t.creatorId,
      isNull t.status,
      isNull t.createdAt,
      isNull t.updatedAt,
      ne t.creatorId t.ownerId,
      isNotNull t.assigneeId,
      and (isTrue t.completed) (ne t.statusValue (some .done)),
      and (isFalse t.completed) (ne t.statusValue (some .todo))]

def validateUpgrade (originalWorkspaces : List Workspace)
    (originalMemberships : List WorkspaceMember) (r : Rows) : Result Unit := do
  let userCount := r.users.rows.length
  let mappingCount := r.map.rows.length
  abortIf (mappingCount ≠ userCount) "user and mapping counts differ"
  let missingUserMappingCount :=
    ((outerJoin (fun (u : User) (m : Mapping) => m.userId = u.id) r.users.rows r.map.rows).filter
      fun x => x.2.isNone).length
  abortIf (missingUserMappingCount ≠ 0) "at least one user has no personal workspace mapping"
  let mappedWorkspaceCount :=
    ((join (fun (m : Mapping) (w : Workspace) => w.id = m.workspaceId) r.map.rows
      r.workspaces.rows).filter fun x => x.2.createdById = x.1.userId).length
  abortIf (mappedWorkspaceCount ≠ mappingCount)
    "a mapped workspace is missing or has the wrong creator"
  let matchingOwnerCount :=
    ((join ownMembership r.map.rows r.members.rows).filter fun x => x.2.role = .owner).length
  let allMappedMembershipCount :=
    (join (fun (m : Mapping) (x : WorkspaceMember) => x.workspaceId = m.workspaceId) r.map.rows
      r.members.rows).length
  abortIf (matchingOwnerCount ≠ mappingCount ∨ allMappedMembershipCount ≠ mappingCount)
    "a mapped workspace does not have exactly one matching OWNER"
  r.map.rows.forM fun mapping =>
    abortIf (ownerTaskCount r mapping.userId ≠ mapping.legacyTaskCount ∨
        ownerTaskMaxId r mapping.userId ≠ mapping.legacyTaskMaxId)
      "legacy task metadata does not match the mapping table"
  let invalidTaskCount := (r.tasks.rows.filter fun t => (invalidTask t).holds).length
  abortIf (invalidTaskCount ≠ 0) "one or more legacy tasks were backfilled incorrectly"
  let mappedTaskCount := (join inOwnersWorkspace r.tasks.rows r.map.rows).length
  abortIf (mappedTaskCount ≠ r.tasks.rows.length)
    "at least one legacy task does not use its owner's mapping"
  let originalWorkspaceIds := originalWorkspaces.map Workspace.id
  abortIf (workspacesOf r originalWorkspaceIds ≠ originalWorkspaces)
    "a pre-existing workspace changed during backfill"
  abortIf (membershipsOf r originalWorkspaceIds ≠ originalMemberships)
    "a pre-existing workspace membership changed during backfill"

/-- `UPDATE tasks SET workspace_id = ..., creator_id = ..., ...` for one row. -/
def assign (workspaceId userId : Id) (migrationTime : Timestamp) (t : TaskRow) : TaskRow :=
  { t with
    workspaceId := some workspaceId
    creatorId := some userId
    assigneeId := none
    status := some (.name (if (isTrue t.completed).holds then .done else .todo))
    createdAt := some migrationTime
    updatedAt := some migrationTime }

theorem id_assign (workspaceId userId : Id) (migrationTime : Timestamp) (t : TaskRow) :
    (assign workspaceId userId migrationTime t).id = t.id := rfl

/-- The body of the loop over the users. -/
def backfillUser (migrationTime : Timestamp) (s : Store) (user : User) : Result Store := do
  let legacyTaskCount := ownerTaskCount s.rows user.id
  let legacyTaskMaxId := ownerTaskMaxId s.rows user.id
  let (workspaceId, s) ← s.insertWorkspace (personalWorkspaceName user.username) user.id
    migrationTime
  let s ← s.insertMember ⟨workspaceId, user.id, .owner, migrationTime, migrationTime⟩
  let s ← s.insertMapping ⟨user.id, workspaceId, legacyTaskCount, legacyTaskMaxId, migrationTime⟩
  s.updateTasks (fun t => (eq t.ownerId (some user.id)).holds)
    (assign workspaceId user.id migrationTime) (id_assign workspaceId user.id migrationTime)

def upgrade (migrationTime : Timestamp) (s : Store) : Result Store := do
  abortIf (s.rows.map.rows.length ≠ 0) "the mapping table must be empty before upgrade"
  let originalWorkspaces := s.rows.workspaces.rows
  let originalMemberships := membershipsOf s.rows (originalWorkspaces.map Workspace.id)
  let s ← s.rows.users.rows.foldlM (backfillUser migrationTime) s
  validateUpgrade originalWorkspaces originalMemberships s.rows
  return s

/-! ## The downgrade -/

/-- What makes a task of a mapped workspace other than the upgrade left it. -/
def changedTask (m : Mapping) (t : TaskRow) : Truth :=
  and (eq t.workspaceId (some m.workspaceId))
    (anyOf
      [ne t.ownerId (some m.userId),
        ne t.creatorId t.ownerId,
        isNotNull t.assigneeId,
        and (isTrue t.completed) (ne t.statusValue (some .done)),
        and (isFalse t.completed) (ne t.statusValue (some .todo)),
        ne t.createdAt (some m.migratedAt),
        ne t.updatedAt (some m.migratedAt)])

def validateMapping (r : Rows) (m : Mapping) : Result Unit := do
  let username := (r.user? m.userId).map User.username
  match username, r.workspace? m.workspaceId with
  | some username, some workspace =>
    abortIf (workspace.name ≠ personalWorkspaceName username ∨
        workspace.createdById ≠ m.userId ∨
        workspace.createdAt ≠ m.migratedAt ∨
        workspace.updatedAt ≠ m.migratedAt)
      "a generated personal workspace was modified"
  | _, _ => abortIf True "a mapped user or workspace no longer exists"
  match r.members.rows.filter fun x => x.workspaceId = m.workspaceId with
  | [membership] =>
    abortIf (membership.userId ≠ m.userId ∨
        membership.role ≠ .owner ∨
        membership.joinedAt ≠ m.migratedAt ∨
        membership.updatedAt ≠ m.migratedAt)
      "a generated OWNER membership was modified"
  | _ => abortIf True "a generated personal workspace has unexpected members"
  let workspaceTaskCount :=
    (r.tasks.rows.filter fun t => (eq t.workspaceId (some m.workspaceId)).holds).length
  abortIf (ownerTaskCount r m.userId ≠ m.legacyTaskCount ∨
      workspaceTaskCount ≠ m.legacyTaskCount ∨
      ownerTaskMaxId r m.userId ≠ m.legacyTaskMaxId)
    "task counts or identities changed after backfill"
  let invalidTaskCount := (r.tasks.rows.filter fun t => (changedTask m t).holds).length
  abortIf (invalidTaskCount ≠ 0) "backfilled task data changed after migration"

/-- `_validate_downgrade`, which returns the mappings. -/
def validateDowngrade (r : Rows) : Result (List Mapping) := do
  r.map.rows.forM (validateMapping r)
  return r.map.rows

def unassign (t : TaskRow) : TaskRow :=
  { t with
    workspaceId := none, creatorId := none, assigneeId := none, status := none
    createdAt := none, updatedAt := none }

theorem id_unassign (t : TaskRow) : (unassign t).id = t.id := rfl

def clearTasks (s : Store) (m : Mapping) : Result Store :=
  s.updateTasks
    (fun t => (and (eq t.ownerId (some m.userId)) (eq t.workspaceId (some m.workspaceId))).holds)
    unassign id_unassign

def deleteGenerated (s : Store) (m : Mapping) : Result Store := do
  let s ← s.deleteMembers fun x => x.workspaceId = m.workspaceId && x.userId = m.userId
  s.deleteWorkspace m.workspaceId

def downgrade (s : Store) : Result Store := do
  let mappings ← validateDowngrade s.rows
  let s ← mappings.foldlM clearTasks s
  let s ← s.deleteMappings
  mappings.foldlM deleteGenerated s

def script (migrationTime : Timestamp) : Revision :=
  { revision := "c1e8d5a4b762"
    downRevision := "9f4c2a7b1d30"
    upgrade := upgrade migrationTime
    downgrade := downgrade }

end Backfill
end Migration
end TaskPlatform
