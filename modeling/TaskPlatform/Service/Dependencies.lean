import TaskPlatform.Service.Users

/-!
# Request dependencies

`app/dependencies.py`: the authenticated user, access to a workspace and to one
of its tasks, and the write guard in front of both.
-/

namespace TaskPlatform

open Service

/-- The argument is the subject of the decoded token, `none` when the request
has no token or an invalid one. -/
def getCurrentUser (subject : Option String) : Service User := do
  let username ← orRaise subject invalidTokenError
  orRaise (← getUserByUsername username) invalidTokenError

/-- The membership is an instance of the session, whose attributes a later
locking read may refresh: see `WorkspaceAccess.membershipRole`. -/
structure WorkspaceAccess where
  workspace : Workspace
  currentUser : User

structure WorkspaceTaskAccess where
  workspaceAccess : WorkspaceAccess
  task : Task

/-- `access.membership.role`. -/
def WorkspaceAccess.membershipRole (access : WorkspaceAccess) : Service MemberRole := do
  let membership ← call (.memberAttributes access.workspace.id access.currentUser.id)
  return membership.role

def getWorkspaceAccess (workspaceId : Id) (currentUser : User) : Service WorkspaceAccess := do
  let row ← orRaise (← call (.select (.workspaceAccess workspaceId currentUser.id)))
    workspaceNotFoundError
  return { workspace := row.1, currentUser := currentUser }

def getWorkspaceTaskAccess (workspaceId taskId : Id) (access : WorkspaceAccess) :
    Service WorkspaceTaskAccess := do
  let task ← orRaise (← call (.select (.taskIn taskId workspaceId))) taskNotFoundError
  return { workspaceAccess := access, task := task }

def requireWorkspaceRoles (allowedRoles : List MemberRole) (access : WorkspaceAccess) :
    Service Unit := do
  let role ← access.membershipRole
  raiseIf (role ∉ allowedRoles) workspacePermissionDeniedError

def enforceWriteLimit (userId : Id) (scope : Scope) (workspaceId : Option Id) : Service Unit := do
  let decision ← call (.checkRateLimit (.write userId scope workspaceId))
  match enforceWriteRateLimit decision with
  | .ok () => pure ()
  | .error e => raise e

/-- `enforce_registration_rate_limit` and `enforce_login_rate_limit`. -/
def enforceAuthLimit (check : RateCheck) : Service Unit := do
  let decision ← call (.checkRateLimit check)
  match enforceAuthRateLimit decision with
  | .ok () => pure ()
  | .error e => raise e

end TaskPlatform
