import TaskPlatform.Concurrency.Isolation
import TaskPlatform.Concurrency.SnapshotReads
import TaskPlatform.Transaction.Dialogue

/-!
# What a request has shown

The policy of the API in terms of what the calls of a request have answered so far: who
the caller is, that he is a member of the addressed workspace with a role the route
admits, that the task is in it, and that the request was charged to its own rate-limit
bucket and let through.

`Request.May` says which calls a request has earned by that, and `Request.Refuses` which
errors it may be refused with.
-/

namespace TaskPlatform

open Transaction

/-! ## Answers -/

/-- A call was answered with a value. -/
def Told (h : Dialogue Call.Res) (c : Call) (v : c.Val) : Prop :=
  (⟨c, .ok v⟩ : Sigma Call.Res) ∈ h

/-- A call raised. -/
def Raised (h : Dialogue Call.Res) (e : SqlError) : Prop :=
  ∃ c : Call, (⟨c, .error e⟩ : Sigma Call.Res) ∈ h

/-- The rate limiter has not been asked. -/
def Unchecked (h : Dialogue Call.Res) : Prop :=
  ∀ check r, (⟨.checkRateLimit check, r⟩ : Sigma Call.Res) ∉ h

/-- A row that was asked for by a key has it. -/
def Call.Fits : (c : Call) → c.Res → Prop
  | .select (.workspaceAccess w _), .ok (some row) => row.1.id = w
  | .select (.taskIn t _), .ok (some row) => row.id = t
  | .lockMember _ u, .ok (some m) => m.userId = u
  | .lockTask _ t, .ok (some row) => row.id = t
  | _, _ => True

/-! ## Routes -/

/-- The routes behind `get_current_user`. -/
def Request.takesToken : Request → Bool
  | createUser _ _ | login _ _ _ => false
  | _ => true

theorem takesToken_of_subject {request : Request} {username : String}
    (h : request.subject = some username) : request.takesToken = true := by
  cases request with
  | createUser _ _ => cases h
  | login _ _ _ => cases h
  | _ => rfl

def Request.taskId? : Request → Option Id
  | getTask _ _ t | updateTask _ _ t _ | updateTaskStatus _ _ t _ | updateTaskAssignee _ _ t _
  | deleteTask _ _ t => some t
  | _ => none

/-- The roles of `require_rate_limited_workspace_roles`. -/
def Request.allowedRoles? : Request → Option (List MemberRole)
  | addMember _ _ _ | removeMember _ _ _ => some [.owner, .admin]
  | updateMemberRole _ _ _ _ => some [.owner]
  | _ => none

/-- The scope a route passes to the write guard. -/
def Request.scope? : Request → Option Scope
  | createWorkspace _ _ => some .workspaceCreate
  | addMember _ _ _ => some .memberAdd
  | updateMemberRole _ _ _ _ => some .memberUpdate
  | removeMember _ _ _ => some .memberRemove
  | createTask _ _ _ => some .taskCreate
  | updateTask _ _ _ _ => some .taskUpdate
  | updateTaskStatus _ _ _ _ => some .taskStatus
  | updateTaskAssignee _ _ _ _ => some .taskAssignee
  | deleteTask _ _ _ => some .taskDelete
  | _ => none

/-- The schema of the body or of the query has accepted it. -/
def Request.accepted : Request → Bool
  | createUser _ none | createWorkspace _ none | listWorkspaces _ none | listMembers _ _ none
  | addMember _ _ none | updateMemberRole _ _ _ none | listTasks _ _ none | createTask _ _ none
  | updateTask _ _ _ none | updateTaskStatus _ _ _ none | updateTaskAssignee _ _ _ none => false
  | _ => true

/-! ## Evidence -/

section Evidence

variable (request : Request) (h : Dialogue Call.Res)

/-- The user the subject of the token names. -/
structure Caller (user : User) : Prop where
  named : ∃ username, request.subject = some username ∧
    Told h (.select (.userByUsername username)) (some user)

structure MemberOf (user : User) (w : Id) : Prop extends Caller request h user where
  addressed : request.workspaceId? = some w
  row : ∃ row, Told h (.select (.workspaceAccess w user.id)) (some row)

structure TaskOf (user : User) (w : Id) (task : Task) : Prop extends MemberOf request h user w where
  addressedTask : request.taskId? = some task.id
  task : Told h (.select (.taskIn task.id w)) (some task)

/-- Everything a route asks of its caller before it charges him. -/
structure Entitled (user : User) : Prop extends Caller request h user where
  member : ∀ w, request.workspaceId? = some w → MemberOf request h user w
  role : ∀ roles, request.allowedRoles? = some roles →
    ∃ w m, Told h (.memberAttributes w user.id) m ∧ request.workspaceId? = some w ∧ m.role ∈ roles
  task : ∀ t, request.taskId? = some t → ∃ w task, TaskOf request h user w task

/-- The bucket a request is charged to. -/
inductive ChargedTo : RateCheck → Prop where
  | registration {clientIp : String} {body : Option UserCreate}
      (hr : request = .createUser clientIp body) : ChargedTo (.registration clientIp)
  | login {clientIp username password : String}
      (hr : request = .login clientIp username password) : ChargedTo (.login clientIp username)
  | write {user : User} {scope : Scope} (hs : request.scope? = some scope)
      (hu : Entitled request h user) :
      ChargedTo (.write user.id scope request.workspaceId?)

/-- Whether an answer of the limiter lets a request through: without an answer the write
guard does and the others do not. -/
def Admits : RateCheck → Except RedisError RateLimitDecision → Prop
  | .write _ _ _, r => ∀ decision, r = .ok decision → decision.allowed = true
  | _, r => ∃ decision, r = .ok decision ∧ decision.allowed = true

/-- The dependencies of the route have let the request through. -/
inductive Qualified : Prop where
  | reading {user : User} (hs : request.scope? = none) (hu : Entitled request h user)
  | charged {check : RateCheck} {r : Except RedisError RateLimitDecision}
      (hc : ChargedTo request h check) (hr : Told h (.checkRateLimit check) r)
      (ha : Admits check r)

end Evidence

/-! ## Earned calls -/

/-- The calls of the services, each with what has to be known before it. -/
inductive Performs (h : Dialogue Call.Res) : Request → Call → Prop where
  -- create_user
  | findUsername {ip : String} {data : UserCreate} :
      Performs h (.createUser ip (some data)) (.select (.userByUsername data.username))
  | hashPassword {ip : String} {data : UserCreate} :
      Performs h (.createUser ip (some data)) (.hashPassword data.password)
  | insertUser {ip : String} {data : UserCreate} {hashed : String}
      (hfree : Told h (.select (.userByUsername data.username)) none)
      (hhash : Told h (.hashPassword data.password) hashed) :
      Performs h (.createUser ip (some data)) (.insertUser data.username hashed)
  | refreshUser {ip hashed : String} {data : UserCreate} {row : User}
      (hrow : Told h (.insertUser data.username hashed) row) :
      Performs h (.createUser ip (some data)) (.refreshUser row.id)
  -- authenticate_user
  | findLogin {ip username password : String} :
      Performs h (.login ip username password) (.select (.userByUsername username))
  | verifyPassword {ip username password : String} {user : User}
      (hu : Told h (.select (.userByUsername username)) (some user)) :
      Performs h (.login ip username password) (.verifyPassword password user.hashedPassword)
  -- create_workspace
  | insertWorkspace {subject : Option String} {data : WorkspaceCreate} {user : User}
      (hu : Caller (.createWorkspace subject (some data)) h user) :
      Performs h (.createWorkspace subject (some data)) (.insertWorkspace data.name user.id)
  | insertOwner {subject : Option String} {data : WorkspaceCreate} {user : User}
      {workspace : Workspace} (hu : Caller (.createWorkspace subject (some data)) h user)
      (hw : Told h (.insertWorkspace data.name user.id) workspace) :
      Performs h (.createWorkspace subject (some data)) (.insertMember workspace.id user.id .owner)
  | refreshWorkspace {subject : Option String} {data : WorkspaceCreate} {user : User}
      {workspace : Workspace} (hw : Told h (.insertWorkspace data.name user.id) workspace) :
      Performs h (.createWorkspace subject (some data)) (.refreshWorkspace workspace.id)
  -- list_workspaces, list_members, list_tasks
  | countMemberships {subject : Option String} {page : PageQuery} {user : User}
      (hu : Caller (.listWorkspaces subject (some page)) h user) :
      Performs h (.listWorkspaces subject (some page)) (.select (.countMemberships user.id))
  | workspaces {subject : Option String} {page : PageQuery} {user : User}
      (hu : Caller (.listWorkspaces subject (some page)) h user) :
      Performs h (.listWorkspaces subject (some page))
        (.select (.workspaces user.id page.limit page.offset))
  | countMembers {subject : Option String} {w : Id} {page : PageQuery} :
      Performs h (.listMembers subject w (some page)) (.select (.countMembers w))
  | members {subject : Option String} {w : Id} {page : PageQuery} :
      Performs h (.listMembers subject w (some page)) (.select (.members w page.limit page.offset))
  | countTasks {subject : Option String} {w : Id} {query : TaskListQuery} :
      Performs h (.listTasks subject w (some query)) (.select (.countTasks w query))
  | tasks {subject : Option String} {w : Id} {query : TaskListQuery} :
      Performs h (.listTasks subject w (some query)) (.select (.tasks w query))
  -- add_member
  | findTarget {subject : Option String} {w : Id} {data : WorkspaceMemberCreate} :
      Performs h (.addMember subject w (some data)) (.select (.userByUsername data.username))
  | getMember {subject : Option String} {w : Id} {data : WorkspaceMemberCreate} {target : User}
      (ht : Told h (.select (.userByUsername data.username)) (some target)) :
      Performs h (.addMember subject w (some data)) (.getMember w target.id)
  | insertMember {subject : Option String} {w : Id} {data : WorkspaceMemberCreate}
      {user target : User} {m : WorkspaceMember}
      (hu : MemberOf (.addMember subject w (some data)) h user w)
      (hm : Told h (.memberAttributes w user.id) m) (hrole : canAddMember m.role data.role.1 = true)
      (ht : Told h (.select (.userByUsername data.username)) (some target))
      (hnone : Told h (.getMember w target.id) none) :
      Performs h (.addMember subject w (some data)) (.insertMember w target.id data.role.1)
  | refreshAdded {subject : Option String} {w : Id} {data : WorkspaceMemberCreate} {target : User}
      (ht : Told h (.select (.userByUsername data.username)) (some target)) :
      Performs h (.addMember subject w (some data)) (.refreshMember w target.id)
  -- update_member_role
  | findMember {subject : Option String} {w u : Id} {data : WorkspaceMemberRoleUpdate} :
      Performs h (.updateMemberRole subject w u (some data)) (.select (.memberWithUsername w u))
  | flushMemberRole {subject : Option String} {w u : Id} {data : WorkspaceMemberRoleUpdate}
      {user : User} {m target : WorkspaceMember} {username : String}
      (hu : MemberOf (.updateMemberRole subject w u (some data)) h user w)
      (hm : Told h (.memberAttributes w user.id) m)
      (ht : Told h (.select (.memberWithUsername w u)) (some (target, username)))
      (hrole : canUpdateMemberRole m.role target.role data.role.1 = true) :
      Performs h (.updateMemberRole subject w u (some data)) (.flushMemberRole w u data.role.1)
  | refreshMember {subject : Option String} {w u : Id} {data : WorkspaceMemberRoleUpdate} :
      Performs h (.updateMemberRole subject w u (some data)) (.refreshMember w u)
  -- remove_member
  | lockTarget {subject : Option String} {w u : Id} :
      Performs h (.removeMember subject w u) (.lockMember w u)
  | utcNow {subject : Option String} {w u : Id} :
      Performs h (.removeMember subject w u) .utcNow
  | scanTasks {subject : Option String} {w u : Id} :
      Performs h (.removeMember subject w u) (.scanTasks w)
  | removal {subject : Option String} {w u : Id} {user : User} {m target : WorkspaceMember}
      {c : Call} (hu : MemberOf (.removeMember subject w u) h user w)
      (hm : Told h (.memberAttributes w user.id) m) (ht : Told h (.lockMember w u) (some target))
      (hrole : canRemoveMember m.role target.role = true)
      (hc : c = .deleteMember w u ∨
        ∃ now ids, Told h .utcNow now ∧ Told h (.scanTasks w) ids ∧
          ∃ t ∈ ids, c = .clearAssignee w u t now) :
      Performs h (.removeMember subject w u) c
  -- create_task
  | insertTask {subject : Option String} {w : Id} {data : TaskCreate} {user : User}
      (hu : MemberOf (.createTask subject w (some data)) h user w) :
      Performs h (.createTask subject w (some data)) (.insertTask w user.id data)
  | refreshCreated {subject : Option String} {w : Id} {data : TaskCreate} {user : User} {row : Task}
      (hrow : Told h (.insertTask w user.id data) row) :
      Performs h (.createTask subject w (some data)) (.refreshTask row.id)
  -- update_task, delete_task
  | editTask {subject : Option String} {w t : Id} {data : TaskUpdate} {user : User}
      {m : WorkspaceMember} {task : Task}
      (ht : TaskOf (.updateTask subject w t (some data)) h user w task)
      (hm : Told h (.memberAttributes w user.id) m)
      (hrole : canEditTask m.role user.id task.creatorId = true) :
      Performs h (.updateTask subject w t (some data)) (.flushTask t data.patch)
  | refreshEdited {subject : Option String} {w t : Id} {data : TaskUpdate} :
      Performs h (.updateTask subject w t (some data)) (.refreshTask t)
  | deleteTask {subject : Option String} {w t : Id} {user : User} {m : WorkspaceMember}
      {task : Task}
      (ht : TaskOf (.deleteTask subject w t) h user w task)
      (hm : Told h (.memberAttributes w user.id) m)
      (hrole : canDeleteTask m.role user.id task.creatorId = true) :
      Performs h (.deleteTask subject w t) (.deleteTask t)
  -- update_task_status
  | lockActor {subject : Option String} {w t : Id} {data : TaskStatusUpdate} {user : User}
      (hu : MemberOf (.updateTaskStatus subject w t (some data)) h user w) :
      Performs h (.updateTaskStatus subject w t (some data)) (.lockMember w user.id)
  | lockStatus {subject : Option String} {w t : Id} {data : TaskStatusUpdate} :
      Performs h (.updateTaskStatus subject w t (some data)) (.lockTask w t)
  | changeStatus {subject : Option String} {w t : Id} {data : TaskStatusUpdate} {user : User}
      {m : WorkspaceMember} {row : Task}
      (hu : MemberOf (.updateTaskStatus subject w t (some data)) h user w)
      (hm : Told h (.lockMember w user.id) (some m)) (hrow : Told h (.lockTask w t) (some row))
      (hd : decideStatus m.role user.id row data.status = .change) :
      Performs h (.updateTaskStatus subject w t (some data))
        (.flushTask t { status := some data.status })
  | refreshStatus {subject : Option String} {w t : Id} {data : TaskStatusUpdate} :
      Performs h (.updateTaskStatus subject w t (some data)) (.refreshTask t)
  -- update_task_assignee
  | lockNamed {subject : Option String} {w t u : Id} {data : TaskAssigneeUpdate} {user : User}
      (hu : MemberOf (.updateTaskAssignee subject w t (some data)) h user w)
      (hn : u ∈ user.id :: data.assigneeId.toList) :
      Performs h (.updateTaskAssignee subject w t (some data)) (.lockMember w u)
  | lockAssignee {subject : Option String} {w t : Id} {data : TaskAssigneeUpdate} :
      Performs h (.updateTaskAssignee subject w t (some data)) (.lockTask w t)
  | changeAssignee {subject : Option String} {w t : Id} {data : TaskAssigneeUpdate} {user : User}
      {m : WorkspaceMember} {row : Task} {memberships : List WorkspaceMember}
      (hu : MemberOf (.updateTaskAssignee subject w t (some data)) h user w)
      (hm : Told h (.lockMember w user.id) (some m))
      (hlocked : ∀ m ∈ memberships, Told h (.lockMember w m.userId) (some m))
      (hrow : Told h (.lockTask w t) (some row))
      (hd : decideAssignee m.role user.id row data.assigneeId memberships = .change) :
      Performs h (.updateTaskAssignee subject w t (some data))
        (.flushTask t { assigneeId := some data.assigneeId })
  | refreshAssignee {subject : Option String} {w t : Id} {data : TaskAssigneeUpdate} :
      Performs h (.updateTaskAssignee subject w t (some data)) (.refreshTask t)
  | commit {request : Request} (hr : ¬ request.isReading) : Performs h request .commit

/-- The calls a request has earned. -/
inductive Request.May (request : Request) (h : Dialogue Call.Res) : Call → Prop where
  | identify {username : String} (hs : request.subject = some username) :
      May request h (.select (.userByUsername username))
  | enter {user : User} {w : Id} (hu : Caller request h user)
      (hw : request.workspaceId? = some w) : May request h (.select (.workspaceAccess w user.id))
  | ownRole {user : User} {w : Id} (hm : MemberOf request h user w) :
      May request h (.memberAttributes w user.id)
  | findTask {user : User} {w t : Id} (hm : MemberOf request h user w)
      (ht : request.taskId? = some t) : May request h (.select (.taskIn t w))
  | charge {check : RateCheck} (hc : ChargedTo request h check) (hfirst : Unchecked h) :
      May request h (.checkRateLimit check)
  | perform {c : Call} (hq : Qualified request h) (ha : request.accepted = true)
      (hp : Performs h request c) : May request h c
  | rollback : May request h .rollback
  | close : May request h .close

def Request.policy (request : Request) : Policy Call Call.Res := ⟨request.May, Call.Fits⟩

/-! ## Justified answers -/

/-- The domain errors of the services, each with what has to be known before it. -/
inductive Declines (h : Dialogue Call.Res) : Request → AppException → Prop where
  -- create_user
  | usernameFound {ip : String} {data : UserCreate} {user : User}
      (hu : Told h (.select (.userByUsername data.username)) (some user)) :
      Declines h (.createUser ip (some data)) usernameAlreadyExistsError
  | usernameRaced {ip : String} {data : UserCreate} {e : SqlError} (he : Raised h e)
      (hi : e.isIntegrityError = true) :
      Declines h (.createUser ip (some data)) usernameAlreadyExistsError
  -- authenticate_user
  | unknownUsername {ip username password : String}
      (hu : Told h (.select (.userByUsername username)) none) :
      Declines h (.login ip username password) invalidCredentialsError
  | wrongPassword {ip username password : String} {user : User}
      (hu : Told h (.select (.userByUsername username)) (some user))
      (hp : Told h (.verifyPassword password user.hashedPassword) false) :
      Declines h (.login ip username password) invalidCredentialsError
  -- add_member
  | mayNotAdd {subject : Option String} {w : Id} {data : WorkspaceMemberCreate} {user : User}
      {m : WorkspaceMember} (hu : MemberOf (.addMember subject w (some data)) h user w)
      (hm : Told h (.memberAttributes w user.id) m)
      (hrole : canAddMember m.role data.role.1 = false) :
      Declines h (.addMember subject w (some data)) workspacePermissionDeniedError
  | noTarget {subject : Option String} {w : Id} {data : WorkspaceMemberCreate}
      (ht : Told h (.select (.userByUsername data.username)) none) :
      Declines h (.addMember subject w (some data)) userNotFoundError
  | alreadyMember {subject : Option String} {w : Id} {data : WorkspaceMemberCreate} {target : User}
      {m : WorkspaceMember} (ht : Told h (.select (.userByUsername data.username)) (some target))
      (hm : Told h (.getMember w target.id) (some m)) :
      Declines h (.addMember subject w (some data)) workspaceMemberAlreadyExistsError
  | memberRaced {subject : Option String} {w : Id} {data : WorkspaceMemberCreate}
      (he : Raised h .duplicateKey) :
      Declines h (.addMember subject w (some data)) workspaceMemberAlreadyExistsError
  -- update_member_role
  | noMember {subject : Option String} {w u : Id} {data : WorkspaceMemberRoleUpdate}
      (ht : Told h (.select (.memberWithUsername w u)) none) :
      Declines h (.updateMemberRole subject w u (some data)) workspaceMemberNotFoundError
  | ownerRole {subject : Option String} {w u : Id} {data : WorkspaceMemberRoleUpdate}
      {target : WorkspaceMember} {username : String}
      (ht : Told h (.select (.memberWithUsername w u)) (some (target, username)))
      (hrole : target.role = .owner) :
      Declines h (.updateMemberRole subject w u (some data)) ownerMembershipConflictError
  | mayNotUpdate {subject : Option String} {w u : Id} {data : WorkspaceMemberRoleUpdate}
      {user : User} {m target : WorkspaceMember} {username : String}
      (hu : MemberOf (.updateMemberRole subject w u (some data)) h user w)
      (hm : Told h (.memberAttributes w user.id) m)
      (ht : Told h (.select (.memberWithUsername w u)) (some (target, username)))
      (howner : target.role ≠ .owner)
      (hrole : canUpdateMemberRole m.role target.role data.role.1 = false) :
      Declines h (.updateMemberRole subject w u (some data)) workspacePermissionDeniedError
  -- remove_member
  | noneToRemove {subject : Option String} {w u : Id} (ht : Told h (.lockMember w u) none) :
      Declines h (.removeMember subject w u) workspaceMemberNotFoundError
  | mayNotRemove {subject : Option String} {w u : Id} {user : User} {m target : WorkspaceMember}
      {e : AppException} (hu : MemberOf (.removeMember subject w u) h user w)
      (hm : Told h (.memberAttributes w user.id) m) (ht : Told h (.lockMember w u) (some target))
      (hrole : removalRefused m.role target.role = some e) :
      Declines h (.removeMember subject w u) e
  -- update_task, delete_task
  | mayNotEdit {subject : Option String} {w t : Id} {data : TaskUpdate} {user : User}
      {m : WorkspaceMember} {task : Task}
      (ht : TaskOf (.updateTask subject w t (some data)) h user w task)
      (hm : Told h (.memberAttributes w user.id) m)
      (hrole : canEditTask m.role user.id task.creatorId = false) :
      Declines h (.updateTask subject w t (some data)) taskPermissionDeniedError
  | mayNotDelete {subject : Option String} {w t : Id} {user : User} {m : WorkspaceMember}
      {task : Task} (ht : TaskOf (.deleteTask subject w t) h user w task)
      (hm : Told h (.memberAttributes w user.id) m)
      (hrole : canDeleteTask m.role user.id task.creatorId = false) :
      Declines h (.deleteTask subject w t) taskPermissionDeniedError
  -- update_task_status
  | statusRefused {subject : Option String} {w t : Id} {data : TaskStatusUpdate} {user : User}
      {m : WorkspaceMember} {row : Task} {e : AppException}
      (hu : MemberOf (.updateTaskStatus subject w t (some data)) h user w)
      (hm : Told h (.lockMember w user.id) (some m)) (hrow : Told h (.lockTask w t) (some row))
      (hd : decideStatus m.role user.id row data.status = .refuse e) :
      Declines h (.updateTaskStatus subject w t (some data)) e
  -- update_task_assignee
  | namesAnother {subject : Option String} {w t : Id} {data : TaskAssigneeUpdate} {user : User}
      {m : WorkspaceMember} (hu : MemberOf (.updateTaskAssignee subject w t (some data)) h user w)
      (hm : Told h (.memberAttributes w user.id) m ∨ Told h (.lockMember w user.id) (some m))
      (hn : namesAnother m.role user.id data.assigneeId) :
      Declines h (.updateTaskAssignee subject w t (some data)) taskPermissionDeniedError
  | assigneeRefused {subject : Option String} {w t : Id} {data : TaskAssigneeUpdate} {user : User}
      {m : WorkspaceMember} {row : Task} {memberships : List WorkspaceMember} {e : AppException}
      (hu : MemberOf (.updateTaskAssignee subject w t (some data)) h user w)
      (hm : Told h (.lockMember w user.id) (some m))
      (hlocked : ∀ m ∈ memberships, Told h (.lockMember w m.userId) (some m))
      (hnone : ∀ u ∈ data.assigneeId, membershipOf memberships u = none →
        Told h (.lockMember w u) none)
      (hrow : Told h (.lockTask w t) (some row))
      (hd : decideAssignee m.role user.id row data.assigneeId memberships = .refuse e) :
      Declines h (.updateTaskAssignee subject w t (some data)) e

/-- The errors a request may end in. -/
inductive Request.Refuses (request : Request) (h : Dialogue Call.Res) : Exc → Prop where
  | missingToken (hr : request.takesToken = true) (hs : request.subject = none) :
      Refuses request h (.app invalidTokenError)
  | unknownSubject {username : String} (hs : request.subject = some username)
      (hu : Told h (.select (.userByUsername username)) none) :
      Refuses request h (.app invalidTokenError)
  | notMember {user : User} {w : Id} (hu : Caller request h user)
      (hw : request.workspaceId? = some w)
      (hm : Told h (.select (.workspaceAccess w user.id)) none) :
      Refuses request h (.app workspaceNotFoundError)
  /-- The membership went away before the request locked it. -/
  | memberGone {user : User} {w : Id} (hu : MemberOf request h user w)
      (hm : Told h (.lockMember w user.id) none) : Refuses request h (.app workspaceNotFoundError)
  | noTask {user : User} {w t : Id} (hu : MemberOf request h user w)
      (ht : request.taskId? = some t) (hm : Told h (.select (.taskIn t w)) none) :
      Refuses request h (.app taskNotFoundError)
  | taskGone {user : User} {w t : Id} (hu : MemberOf request h user w)
      (ht : request.taskId? = some t) (hm : Told h (.lockTask w t) none) :
      Refuses request h (.app taskNotFoundError)
  | wrongRole {user : User} {w : Id} {m : WorkspaceMember} {roles : List MemberRole}
      (hu : MemberOf request h user w) (hr : request.allowedRoles? = some roles)
      (hm : Told h (.memberAttributes w user.id) m) (hrole : m.role ∉ roles) :
      Refuses request h (.app workspacePermissionDeniedError)
  | exceeded {check : RateCheck} {decision : RateLimitDecision} (hc : ChargedTo request h check)
      (hr : Told h (.checkRateLimit check) (.ok decision)) (hd : decision.allowed = false) :
      Refuses request h (.app (rateLimitExceededError decision.limit decision.retryAfter))
  /-- Registration and login fail closed. -/
  | unavailable {check : RateCheck} {e : RedisError} (ht : request.takesToken = false)
      (hc : ChargedTo request h check) (hr : Told h (.checkRateLimit check) (.error e)) :
      Refuses request h (.app rateLimitUnavailableError)
  | invalid (hq : Qualified request h) (ha : request.accepted = false) :
      Refuses request h .validation
  | declined {e : AppException} (hq : Qualified request h) (hd : Declines h request e) :
      Refuses request h (.app e)
  | raised {e : SqlError} (he : Raised h e) : Refuses request h (.sql e)

/-- What the dialogue of a request has to show for its response. -/
def Request.Accounts (request : Request) : Response → Dialogue Call.Res → Prop
  | .error e, h => request.Refuses h e
  | .ok (.token name), h =>
    ∃ ip username password user, request = .login ip username password ∧ name = user.username ∧
      Qualified request h ∧ Told h (.select (.userByUsername username)) (some user) ∧
      Told h (.verifyPassword password user.hashedPassword) true
  | .ok _, h => Qualified request h ∧ request.accepted = true

end TaskPlatform
