import TaskPlatform.Service.Members
import TaskPlatform.Service.Tasks
import TaskPlatform.Service.Workspaces
import TaskPlatform.Transaction.Interleaving

/-!
# Requests

The routes of `app/routers`.  A request carries the subject of its token, its
path ids and its body; a body or query that its schema rejects is `none`.  The
dependencies of a route run before its body is judged.

These are the requests that come as far as the dependencies.  A body that is no JSON, a
path id that is no integer and a login form without its fields are answered with 422 by
the framework itself, which may not run the dependencies for them.
-/

namespace TaskPlatform

open Service Transaction Relational

inductive Request where
  | createUser (clientIp : String) (body : Option UserCreate)
  | login (clientIp username password : String)
  | getMe (subject : Option String)
  | createWorkspace (subject : Option String) (body : Option WorkspaceCreate)
  | listWorkspaces (subject : Option String) (page : Option PageQuery)
  | getWorkspace (subject : Option String) (workspaceId : Id)
  | listMembers (subject : Option String) (workspaceId : Id) (page : Option PageQuery)
  | addMember (subject : Option String) (workspaceId : Id) (body : Option WorkspaceMemberCreate)
  | updateMemberRole (subject : Option String) (workspaceId userId : Id)
      (body : Option WorkspaceMemberRoleUpdate)
  | removeMember (subject : Option String) (workspaceId userId : Id)
  | listTasks (subject : Option String) (workspaceId : Id) (query : Option TaskListQuery)
  | createTask (subject : Option String) (workspaceId : Id) (body : Option TaskCreate)
  | getTask (subject : Option String) (workspaceId taskId : Id)
  | updateTask (subject : Option String) (workspaceId taskId : Id) (body : Option TaskUpdate)
  | updateTaskStatus (subject : Option String) (workspaceId taskId : Id)
      (body : Option TaskStatusUpdate)
  | updateTaskAssignee (subject : Option String) (workspaceId taskId : Id)
      (body : Option TaskAssigneeUpdate)
  | deleteTask (subject : Option String) (workspaceId taskId : Id)

/-- The subject of the token a request carries. -/
def Request.subject : Request → Option String
  | createUser _ _ | login _ _ _ => none
  | getMe subject | createWorkspace subject _ | listWorkspaces subject _
  | getWorkspace subject _ | listMembers subject _ _ | addMember subject _ _
  | updateMemberRole subject _ _ _ | removeMember subject _ _ | listTasks subject _ _
  | createTask subject _ _ | getTask subject _ _ | updateTask subject _ _ _
  | updateTaskStatus subject _ _ _ | updateTaskAssignee subject _ _ _
  | deleteTask subject _ _ => subject

/-- A body that parses and does not satisfy its schema is answered with 422. -/
def validBody {α : Type} : Option α → Service α
  | some body => pure body
  | none => throw .validation

/-! ## Dependencies of the routes -/

def workspaceAccess (subject : Option String) (workspaceId : Id) : Service WorkspaceAccess := do
  let user ← getCurrentUser subject
  getWorkspaceAccess workspaceId user

/-- `get_rate_limited_workspace_access`. -/
def limitedWorkspaceAccess (scope : Scope) (subject : Option String) (workspaceId : Id) :
    Service WorkspaceAccess := do
  let access ← workspaceAccess subject workspaceId
  enforceWriteLimit access.currentUser.id scope (some access.workspace.id)
  return access

/-- `require_rate_limited_workspace_roles`. -/
def limitedRoleAccess (scope : Scope) (allowedRoles : List MemberRole)
    (subject : Option String) (workspaceId : Id) : Service WorkspaceAccess := do
  let access ← workspaceAccess subject workspaceId
  requireWorkspaceRoles allowedRoles access
  enforceWriteLimit access.currentUser.id scope (some access.workspace.id)
  return access

def taskAccess (subject : Option String) (workspaceId taskId : Id) :
    Service WorkspaceTaskAccess := do
  let access ← workspaceAccess subject workspaceId
  getWorkspaceTaskAccess workspaceId taskId access

/-- `get_rate_limited_workspace_task_access`. -/
def limitedTaskAccess (scope : Scope) (subject : Option String) (workspaceId taskId : Id) :
    Service WorkspaceTaskAccess := do
  let access ← taskAccess subject workspaceId taskId
  enforceWriteLimit access.workspaceAccess.currentUser.id scope
    (some access.workspaceAccess.workspace.id)
  return access

/-! ## Routes -/

def Request.route : Request → Service Body
  | createUser clientIp body => do
    enforceAuthLimit (.registration clientIp)
    let data ← validBody body
    let user ← TaskPlatform.createUser data
    return .user (userData user)
  | login clientIp username password => do
    enforceAuthLimit (.login clientIp username)
    let user ← authenticateUser username password
    return .token user.username
  | getMe subject => do
    let user ← getCurrentUser subject
    return .user (userData user)
  | createWorkspace subject body => do
    let user ← getCurrentUser subject
    enforceWriteLimit user.id .workspaceCreate none
    let data ← validBody body
    return .workspace (← TaskPlatform.createWorkspace user data.name)
  | listWorkspaces subject page => do
    let user ← getCurrentUser subject
    return .workspaces (← TaskPlatform.listWorkspaces user (← validBody page))
  | getWorkspace subject w => do
    let access ← workspaceAccess subject w
    return .workspace (← getWorkspaceData access)
  | listMembers subject w page => do
    let access ← workspaceAccess subject w
    return .members (← TaskPlatform.listMembers access (← validBody page))
  | addMember subject w body => do
    let access ← limitedRoleAccess .memberAdd [.owner, .admin] subject w
    let data ← validBody body
    return .member (← TaskPlatform.addMember access data.username data.role.1)
  | updateMemberRole subject w u body => do
    let access ← limitedRoleAccess .memberUpdate [.owner] subject w
    let data ← validBody body
    return .member (← TaskPlatform.updateMemberRole access u data.role.1)
  | removeMember subject w u => do
    let access ← limitedRoleAccess .memberRemove [.owner, .admin] subject w
    TaskPlatform.removeMember access u
    return .noContent
  | listTasks subject w query => do
    let access ← workspaceAccess subject w
    return .tasks (← TaskPlatform.listTasks access (← validBody query))
  | createTask subject w body => do
    let access ← limitedWorkspaceAccess .taskCreate subject w
    let data ← validBody body
    return .task (← TaskPlatform.createTask access data)
  | getTask subject w t => do
    let access ← taskAccess subject w t
    return .task (getTaskData access)
  | updateTask subject w t body => do
    let access ← limitedTaskAccess .taskUpdate subject w t
    let data ← validBody body
    return .task (← TaskPlatform.updateTask access data)
  | updateTaskStatus subject w t body => do
    let access ← limitedTaskAccess .taskStatus subject w t
    let data ← validBody body
    return .task (← TaskPlatform.updateTaskStatus access data)
  | updateTaskAssignee subject w t body => do
    let access ← limitedTaskAccess .taskAssignee subject w t
    let data ← validBody body
    return .task (← TaskPlatform.updateTaskAssignee access data)
  | deleteTask subject w t => do
    let access ← limitedTaskAccess .taskDelete subject w t
    TaskPlatform.deleteTask access
    return .noContent

abbrev Response : Type := Except Exc Body

/-- `get_db` closes the session however the route ends. -/
def Request.program (request : Request) : Prog Call Call.Res Response :=
  request.route.run >>= fun response => .call .close fun _ => .ret response

section Serving

variable [Collation]

/-- Serve a request while no other request is in progress. -/
def serve (env : Nat → Env) (request : Request) (d : Database) : Response × Database :=
  let outcome := Session.machine.run env request.program 0 {} d
  (outcome.value, outcome.shared)

/-- Requests in any number, each with its own session. -/
def workload : Workload Request Call Call.Res Response Session :=
  { program := Request.program, init := {} }

end Serving

/-! ## A small workspace -/

/-- Usernames compared as they are. -/
abbrev sampleCollation : Collation := ⟨id⟩

/-- Workspace 1 of user 1, with user 2 as a MEMBER and one task. -/
def sampleDatabase : Database :=
  { users := (∅ : Table User).put ⟨1, "owner", "h1"⟩ |>.put ⟨2, "member", "h2"⟩
    workspaces := (∅ : Table Workspace).put ⟨1, "workspace", 1, 0, 0⟩
    members := (∅ : Table WorkspaceMember).put ⟨1, 1, .owner, 0, 0⟩ |>.put ⟨1, 2, .member, 0, 0⟩
    tasks := (∅ : Table Task).put
      { id := 1, title := "task", priority := 1, description := none, workspaceId := 1,
        creatorId := 1, assigneeId := none, status := .todo, createdAt := 0, updatedAt := 0 }
    nextUserId := 3, nextWorkspaceId := 2, nextTaskId := 2 }

/-- No call fails, and the rate limiter is unavailable. -/
def sampleEnv : Env := {}

end TaskPlatform
