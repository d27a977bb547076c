import Mathlib.Data.List.Dedup
import TaskPlatform.Service.Dependencies

/-!
# Tasks

`app/services/task_service.py`.
-/

namespace TaskPlatform

open Service

def taskData (task : Task) : TaskResponse :=
  { id := task.id, title := task.title, description := task.description,
    priority := task.priority, workspaceId := task.workspaceId, creatorId := task.creatorId,
    assigneeId := task.assigneeId, status := task.status, createdAt := task.createdAt,
    updatedAt := task.updatedAt }

/-- Lock the memberships that exist, one row after the other. -/
def lockMembershipRows (workspaceId : Id) : List Id → Service (List WorkspaceMember)
  | [] => pure []
  | userId :: rest => do
    let row ← call (.lockMember workspaceId userId)
    let rows ← lockMembershipRows workspaceId rest
    return row.toList ++ rows

/-- `SELECT ... ORDER BY user_id FOR UPDATE` takes the row locks in that order. -/
def lockWorkspaceMemberships (workspaceId : Id) (userIds : List Id) :
    Service (List WorkspaceMember) :=
  lockMembershipRows workspaceId (userIds.dedup.insertionSort fun a b => a ≤ b)

def membershipOf (memberships : List WorkspaceMember) (userId : Id) : Option WorkspaceMember :=
  memberships.find? fun m => m.userId = userId

def lockTask (workspaceId taskId : Id) : Service Task := do
  orRaise (← call (.lockTask workspaceId taskId)) taskNotFoundError

/-- Flush the assigned attributes, read the row again and commit. -/
def saveTask (taskId : Id) (patch : TaskPatch) : Service TaskResponse := do
  call (.flushTask taskId patch)
  let refreshed ← call (.refreshTask taskId)
  call .commit
  return taskData refreshed

/-- Commit without a change. -/
def keepTask (task : Task) : Service TaskResponse := do
  call .commit
  return taskData task

def listTasks (access : WorkspaceAccess) (query : TaskListQuery) :
    Service (Page TaskResponse) := do
  let total ← call (.select (.countTasks access.workspace.id query))
  let tasks ← call (.select (.tasks access.workspace.id query))
  return { items := tasks.map taskData, total := total, limit := query.limit,
           offset := query.offset }

def getTaskData (access : WorkspaceTaskAccess) : TaskResponse := taskData access.task

def createTask (access : WorkspaceAccess) (data : TaskCreate) : Service TaskResponse :=
  rollbackOnSqlError do
    let task ← call (.insertTask access.workspace.id access.currentUser.id data)
    let refreshed ← call (.refreshTask task.id)
    call .commit
    return taskData refreshed

/-- The attributes a partial update assigns. -/
def TaskUpdate.patch (data : TaskUpdate) : TaskPatch :=
  { title := data.title, description := data.description, priority := data.priority }

theorem TaskUpdate.status_patch (data : TaskUpdate) (loaded t : Task) :
    ((data.patch.dirty loaded).apply t).status = t.status :=
  TaskPatch.status_apply_dirty rfl loaded t

theorem TaskUpdate.assigneeId_patch (data : TaskUpdate) (loaded t : Task) :
    ((data.patch.dirty loaded).apply t).assigneeId = t.assigneeId :=
  TaskPatch.assigneeId_apply_dirty rfl loaded t

def updateTask (access : WorkspaceTaskAccess) (data : TaskUpdate) : Service TaskResponse := do
  let role ← access.workspaceAccess.membershipRole
  raiseIf (canEditTask role access.workspaceAccess.currentUser.id access.task.creatorId = false)
    taskPermissionDeniedError
  rollbackOnSqlError (saveTask access.task.id data.patch)

def deleteTask (access : WorkspaceTaskAccess) : Service Unit := do
  let role ← access.workspaceAccess.membershipRole
  raiseIf (canDeleteTask role access.workspaceAccess.currentUser.id access.task.creatorId = false)
    taskPermissionDeniedError
  rollbackOnSqlError do
    call (.deleteTask access.task.id)
    call .commit

/-- What a request makes of a task it is allowed to look at: refuse, leave it as
it is, or change it. -/
inductive Decision where
  | refuse (e : AppException)
  | keep
  | change
  deriving DecidableEq

def decideStatus (role : MemberRole) (actorUserId : Id) (task : Task) (status : TaskStatus) :
    Decision :=
  if canChangeTaskStatus role actorUserId task.assigneeId = false then
    .refuse taskPermissionDeniedError
  else if isValidStatusTransition role task.status status = false then
    .refuse taskStatusTransitionConflictError
  else if task.status = status then .keep
  else .change

def updateTaskStatus (access : WorkspaceTaskAccess) (data : TaskStatusUpdate) :
    Service TaskResponse :=
  let workspaceId := access.workspaceAccess.workspace.id
  let actorUserId := access.workspaceAccess.currentUser.id
  rollbackOnError do
    let memberships ← lockWorkspaceMemberships workspaceId [actorUserId]
    let actorMembership ← orRaise (membershipOf memberships actorUserId) workspaceNotFoundError
    let task ← lockTask workspaceId access.task.id
    match decideStatus actorMembership.role actorUserId task data.status with
    | .refuse e => raise e
    | .keep => keepTask task
    | .change => saveTask task.id { status := some data.status }

/-- A MEMBER may only name himself or nobody. -/
def namesAnother (role : MemberRole) (actorUserId : Id) (requested : Option Id) : Prop :=
  role = .member ∧ requested ≠ none ∧ requested ≠ some actorUserId

instance (role : MemberRole) (actorUserId : Id) (requested : Option Id) :
    Decidable (namesAnother role actorUserId requested) :=
  inferInstanceAs (Decidable (_ ∧ _))

def decideAssignee (role : MemberRole) (actorUserId : Id) (task : Task)
    (requested : Option Id) (memberships : List WorkspaceMember) : Decision :=
  if canChangeTaskAssignee role then
    if task.assigneeId = requested then .keep
    else if ∃ a ∈ requested, (membershipOf memberships a).isNone then
      .refuse workspaceMemberNotFoundError
    else if task.status = .done then .refuse taskAssignmentConflictError
    else .change
  else if requested = some actorUserId then
    if task.assigneeId = some actorUserId then .keep
    else if canSelfClaimTask role actorUserId task.assigneeId requested = false then
      .refuse taskAssignmentConflictError
    else if task.status = .done then .refuse taskAssignmentConflictError
    else .change
  else if task.assigneeId = none then .refuse taskAssignmentConflictError
  else if task.assigneeId ≠ some actorUserId then .refuse taskPermissionDeniedError
  else if canSelfReleaseTask role actorUserId task.assigneeId requested = false then
    .refuse taskPermissionDeniedError
  else if task.status = .done then .refuse taskAssignmentConflictError
  else .change

def updateTaskAssignee (access : WorkspaceTaskAccess) (data : TaskAssigneeUpdate) :
    Service TaskResponse :=
  let workspaceId := access.workspaceAccess.workspace.id
  let actorUserId := access.workspaceAccess.currentUser.id
  let requested := data.assigneeId
  rollbackOnError do
    let role ← access.workspaceAccess.membershipRole
    raiseIf (namesAnother role actorUserId requested) taskPermissionDeniedError
    let memberships ← lockWorkspaceMemberships workspaceId (actorUserId :: requested.toList)
    let actorMembership ← orRaise (membershipOf memberships actorUserId) workspaceNotFoundError
    raiseIf (namesAnother actorMembership.role actorUserId requested) taskPermissionDeniedError
    let task ← lockTask workspaceId access.task.id
    match decideAssignee actorMembership.role actorUserId task requested memberships with
    | .refuse e => raise e
    | .keep => keepTask task
    | .change => saveTask task.id { assigneeId := some requested }

/-! ## When a request changes the task -/

theorem decideStatus_change {role : MemberRole} {actorUserId : Id} {task : Task}
    {status : TaskStatus} (h : decideStatus role actorUserId task status = .change) :
    canChangeTaskStatus role actorUserId task.assigneeId = true ∧
      isValidStatusTransition role task.status status = true ∧ task.status ≠ status := by
  unfold decideStatus at h
  split_ifs at h with hchange hvalid hsame
  exact ⟨Bool.of_not_eq_false hchange, Bool.of_not_eq_false hvalid, hsame⟩

theorem decideAssignee_change {role : MemberRole} {actorUserId : Id} {task : Task}
    {requested : Option Id} {memberships : List WorkspaceMember}
    (h : decideAssignee role actorUserId task requested memberships = .change) :
    task.assigneeId ≠ requested ∧ task.status ≠ .done ∧
      ((canChangeTaskAssignee role = true ∧
          ∀ a ∈ requested, (membershipOf memberships a).isSome) ∨
        canSelfClaimTask role actorUserId task.assigneeId requested = true ∨
        canSelfReleaseTask role actorUserId task.assigneeId requested = true) := by
  unfold decideAssignee at h
  split_ifs at h with hmanager hsame hmissing hdone hself hown hclaim hdone hnone hother hrelease
    hdone
  · refine ⟨hsame, hdone, Or.inl ⟨hmanager, fun a ha => ?_⟩⟩
    exact isSome_of_not_isNone fun hn => hmissing ⟨a, ha, hn⟩
  · exact ⟨by rw [hself]; exact hown, hdone, Or.inr (Or.inl (Bool.of_not_eq_false hclaim))⟩
  · refine ⟨?_, hdone, Or.inr (Or.inr (Bool.of_not_eq_false hrelease))⟩
    rw [not_not.mp hother]
    exact Ne.symm hself

end TaskPlatform
