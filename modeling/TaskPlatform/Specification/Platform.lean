import TaskPlatform.Api.Request
import TaskPlatform.Concurrency.Effect

/-!
# What the platform is for

The answer to each request as a function of the tables: no session, no snapshot, no lock
and no order of statements.  Whoever asks is told first whether he is known, then whether
the workspace and the task exist for him, then whether his role allows the request, then
whether he is too fast, and only then what his body asks for.  A request that is refused
leaves the tables as they are.

The services are compared with these answers in `Specification.Refinement`.
-/

namespace TaskPlatform

open Relational

/-- What a request finds outside the tables. -/
structure Circumstances where
  limiter : RateCheck → Except RedisError RateLimitDecision
  now : Timestamp
  /-- The time at which the owner of a new workspace joins it. -/
  joinedAt : Timestamp
  hash : String → String
  verify : String → String → Bool

namespace Platform

variable {α : Type}

def refuse (e : AppException) : Except Exc α := .error (.app e)

def demand (c : Prop) [Decidable c] (e : AppException) : Except Exc Unit :=
  if c then .ok () else refuse e

def expect (row : Option α) (e : AppException) : Except Exc α :=
  match row with
  | some r => .ok r
  | none => refuse e

def permit (guard : Except AppException Unit) : Except Exc Unit := guard.mapError Exc.app

/-- A body its schema accepts. -/
def parsed (body : Option α) : Except Exc α :=
  match body with
  | some b => .ok b
  | none => .error .validation

section Access

variable [Collation] (d : Database)

/-- A user who has entered a workspace. -/
structure Entrant where
  user : User
  workspace : Workspace
  membership : WorkspaceMember

def Entrant.role (entry : Entrant) : MemberRole := entry.membership.role

def authenticate (subject : Option String) : Except Exc User :=
  expect (d.actor? subject) invalidTokenError

def enter (subject : Option String) (w : Id) : Except Exc Entrant := do
  let user ← authenticate d subject
  let row ← expect (d.workspaceAccess? w user.id) workspaceNotFoundError
  return ⟨user, row.1, row.2⟩

def enterTask (subject : Option String) (w t : Id) : Except Exc (Entrant × Task) := do
  let entry ← enter d subject w
  let task ← expect (d.taskIn? t w) taskNotFoundError
  return (entry, task)

variable (i : Circumstances)

def permitWrite (user : User) (scope : Scope) (w : Option Id) : Except Exc Unit :=
  permit (enforceWriteRateLimit (i.limiter (.write user.id scope w)))

def enterToWrite (scope : Scope) (subject : Option String) (w : Id) : Except Exc Entrant := do
  let entry ← enter d subject w
  permitWrite i entry.user scope (some w)
  return entry

def enterToManage (scope : Scope) (roles : List MemberRole) (subject : Option String) (w : Id) :
    Except Exc Entrant := do
  let entry ← enter d subject w
  demand (entry.role ∈ roles) workspacePermissionDeniedError
  permitWrite i entry.user scope (some w)
  return entry

def enterToChange (scope : Scope) (subject : Option String) (w t : Id) :
    Except Exc (Entrant × Task) := do
  let found ← enterTask d subject w t
  permitWrite i found.1.user scope (some w)
  return found

end Access

/-! ## What is done for those who may -/

/-- The response, and the tables after it. -/
abbrev Reply : Type := Except Exc (Body × Database)

section Users

variable [Collation] (i : Circumstances) (d : Database)

def register (data : UserCreate) : Reply := do
  demand (d.userByUsername? data.username = none) usernameAlreadyExistsError
  let row : User := ⟨d.nextUserId, data.username, i.hash data.password⟩
  return (.user (userData row),
    { d with users := d.users.put row, nextUserId := d.nextUserId + 1 })

/-- An unknown name and a wrong password are answered alike. -/
def logIn (username password : String) : Reply := do
  let user ← expect (d.userByUsername? username) invalidCredentialsError
  demand (i.verify password user.hashedPassword = true) invalidCredentialsError
  return (.token user.username, d)

end Users

section Workspaces

variable (i : Circumstances) (d : Database)

/-- A new workspace has its creator as its owner. -/
def found (user : User) (data : WorkspaceCreate) : Reply :=
  let row : Workspace := ⟨d.nextWorkspaceId, data.name, user.id, i.now, i.now⟩
  let owner : WorkspaceMember := ⟨row.id, user.id, .owner, i.joinedAt, i.joinedAt⟩
  .ok (.workspace (workspaceData row .owner),
    { d with
      workspaces := d.workspaces.put row, members := d.members.put owner
      nextWorkspaceId := d.nextWorkspaceId + 1 })

def workspacesOf (user : User) (page : PageQuery) : Page WorkspaceResponse :=
  { items := (d.selectWorkspaces user.id page.limit page.offset).map fun row =>
      workspaceData row.1 row.2
    total := d.countMemberships user.id, limit := page.limit, offset := page.offset }

def membersOf (w : Id) (page : PageQuery) : Page WorkspaceMemberResponse :=
  { items := (d.selectMembers w page.limit page.offset).map fun row => memberData row.1 row.2
    total := d.countMembers w, limit := page.limit, offset := page.offset }

/-- Whether a name is known is told to those only who may add it. -/
def enroll [Collation] (entry : Entrant) (w : Id) (data : WorkspaceMemberCreate) : Reply := do
  demand (canAddMember entry.role data.role.1 = true) workspacePermissionDeniedError
  let target ← expect (d.userByUsername? data.username) userNotFoundError
  demand (d.member? w target.id = none) workspaceMemberAlreadyExistsError
  let row : WorkspaceMember := ⟨w, target.id, data.role.1, i.now, i.now⟩
  return (.member (memberData row target.username), d.apply (.putMember row))

def promote (entry : Entrant) (w u : Id) (role : MemberRole) : Reply := do
  let (membership, username) ← expect (d.memberWithUsername? w u) workspaceMemberNotFoundError
  demand (membership.role ≠ .owner) ownerMembershipConflictError
  demand (canUpdateMemberRole entry.role membership.role role = true)
    workspacePermissionDeniedError
  if membership.role = role then return (.member (memberData membership username), d)
  else
    let row := { membership with role := role, updatedAt := i.now }
    return (.member (memberData row username), d.apply (.putMember row))

def unassigned (now : Timestamp) (t : Task) : Task :=
  { t with assigneeId := none, updatedAt := now }

theorem key_unassigned (now : Timestamp) (t : Task) :
    Keyed.key (unassigned now t) = Keyed.key t := rfl

/-- Whoever leaves a workspace leaves his unfinished tasks to nobody. -/
def leave (w u : Id) (now : Timestamp) : Database :=
  { d with
    members := d.members.erase (memberKey w u)
    tasks := d.tasks.updateWhere (Database.holdsUnfinished w u) (unassigned now)
      (key_unassigned now) }

def remove (entry : Entrant) (w u : Id) : Reply := do
  let membership ← expect (d.member? w u) workspaceMemberNotFoundError
  match removalRefused entry.role membership.role with
  | some e => refuse e
  | none => return (.noContent, leave d w u i.now)

end Workspaces

section Tasks

variable (i : Circumstances) (d : Database)

def tasksOf (w : Id) (query : TaskListQuery) : Page TaskResponse :=
  { items := (d.selectTasks w query).map taskData, total := d.countTasks w query
    limit := query.limit, offset := query.offset }

def newTask (entry : Entrant) (w : Id) (data : TaskCreate) : Reply :=
  let row : Task :=
    { id := d.nextTaskId, title := data.title, priority := data.priority
      description := data.description, workspaceId := w, creatorId := entry.user.id
      assigneeId := none, status := .todo, createdAt := i.now, updatedAt := i.now }
  .ok (.task (taskData row),
    { d with tasks := d.tasks.put row, nextTaskId := d.nextTaskId + 1 })

/-- Assign attributes of a task.  A task that has them all is left as it is. -/
def assign (task : Task) (patch : TaskPatch) : Body × Database :=
  if patch.dirty task = {} then (.task (taskData task), d)
  else
    let row := { (patch.dirty task).apply task with updatedAt := i.now }
    (.task (taskData row), d.apply (.putTask row))

/-- What a decision makes of a task. -/
def settle (task : Task) (decision : Decision) (patch : TaskPatch) : Reply :=
  match decision with
  | .refuse e => refuse e
  | .keep => .ok (.task (taskData task), d)
  | .change => .ok (assign i d task patch)

def edit (entry : Entrant) (task : Task) (data : TaskUpdate) : Reply := do
  demand (canEditTask entry.role entry.user.id task.creatorId = true) taskPermissionDeniedError
  return assign i d task data.patch

def move (entry : Entrant) (task : Task) (status : TaskStatus) : Reply :=
  settle i d task (decideStatus entry.role entry.user.id task status) { status := some status }

/-- A MEMBER who names somebody else is refused before anybody is looked up. -/
def handOver (entry : Entrant) (task : Task) (w : Id) (requested : Option Id) : Reply := do
  demand (¬ namesAnother entry.role entry.user.id requested) taskPermissionDeniedError
  settle i d task
    (decideAssignee entry.role entry.user.id task requested
      (requested.toList.filterMap (d.member? w)))
    { assigneeId := some requested }

def dispose (entry : Entrant) (task : Task) : Reply := do
  demand (canDeleteTask entry.role entry.user.id task.creatorId = true) taskPermissionDeniedError
  return (.noContent, d.apply (.deleteTask task.id))

end Tasks

/-- The answer to a request. -/
def respond [Collation] (i : Circumstances) (d : Database) : Request → Reply
  | .createUser clientIp body => do
    permit (enforceAuthRateLimit (i.limiter (.registration clientIp)))
    register i d (← parsed body)
  | .login clientIp username password => do
    permit (enforceAuthRateLimit (i.limiter (.login clientIp username)))
    logIn i d username password
  | .getMe subject => do
    let user ← authenticate d subject
    return (.user (userData user), d)
  | .createWorkspace subject body => do
    let user ← authenticate d subject
    permitWrite i user .workspaceCreate none
    found i d user (← parsed body)
  | .listWorkspaces subject page => do
    let user ← authenticate d subject
    return (.workspaces (workspacesOf d user (← parsed page)), d)
  | .getWorkspace subject w => do
    let entry ← enter d subject w
    return (.workspace (workspaceData entry.workspace entry.role), d)
  | .listMembers subject w page => do
    let _ ← enter d subject w
    return (.members (membersOf d w (← parsed page)), d)
  | .addMember subject w body => do
    let entry ← enterToManage d i .memberAdd [.owner, .admin] subject w
    enroll i d entry w (← parsed body)
  | .updateMemberRole subject w u body => do
    let entry ← enterToManage d i .memberUpdate [.owner] subject w
    let data ← parsed body
    promote i d entry w u data.role.1
  | .removeMember subject w u => do
    let entry ← enterToManage d i .memberRemove [.owner, .admin] subject w
    remove i d entry w u
  | .listTasks subject w query => do
    let _ ← enter d subject w
    return (.tasks (tasksOf d w (← parsed query)), d)
  | .createTask subject w body => do
    let entry ← enterToWrite d i .taskCreate subject w
    newTask i d entry w (← parsed body)
  | .getTask subject w t => do
    let (_, task) ← enterTask d subject w t
    return (.task (taskData task), d)
  | .updateTask subject w t body => do
    let (entry, task) ← enterToChange d i .taskUpdate subject w t
    edit i d entry task (← parsed body)
  | .updateTaskStatus subject w t body => do
    let (entry, task) ← enterToChange d i .taskStatus subject w t
    let data ← parsed body
    move i d entry task data.status
  | .updateTaskAssignee subject w t body => do
    let (entry, task) ← enterToChange d i .taskAssignee subject w t
    let data ← parsed body
    handOver i d entry task w data.assigneeId
  | .deleteTask subject w t => do
    let (entry, task) ← enterToChange d i .taskDelete subject w t
    dispose d entry task

/-- The tables of a request that is refused stay as they are. -/
def settled (d : Database) : Reply → Response × Database
  | .ok (body, d') => (.ok body, d')
  | .error e => (.error e, d)

end Platform
end TaskPlatform
