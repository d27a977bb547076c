import TaskPlatform.Model.Queries
import TaskPlatform.RateLimit.Decision
import TaskPlatform.Transaction.Program

/-!
# The session of one request

A session of `app/database.py` (`autoflush=False`, `expire_on_commit=False`) over
one MySQL transaction at `REPEATABLE READ`.  Plain reads see the snapshot opened
by the first of them together with the transaction's own writes; locking reads
and statements that write see the latest committed rows.  The locks of a
transaction are the rows it locked or wrote, and they last to commit or
rollback.  A row that does not exist is not locked: gap locks are left out, which
only adds interleavings.

The identity map matters where the code reads an attribute of an instance that a
locking read has refreshed since, and where a flush compares assigned with loaded
values.  Users and workspaces are never updated, so only memberships and tasks
are kept.
-/

namespace TaskPlatform

open Relational Transaction

structure Session where
  readView : Option Database := none
  locked : List RowKey := []
  writes : List Write := []
  members : Table WorkspaceMember := ∅
  tasks : Table Task := ∅

namespace Session

/-- What plain reads see. -/
def view (l : Session) (d : Database) : Database := (l.readView.getD d).applyAll l.writes

/-- What locking reads and writing statements see. -/
def current (l : Session) (d : Database) : Database := d.applyAll l.writes

def openView (l : Session) (d : Database) : Session :=
  { l with readView := some (l.readView.getD d) }

def lock (l : Session) (k : RowKey) : Session := { l with locked := k :: l.locked }

def write (l : Session) (w : Write) : Session := { l with writes := l.writes ++ [w] }

/-- A row with the identity of a known instance is that instance. -/
def resolveMember (l : Session) (m : WorkspaceMember) : WorkspaceMember :=
  (l.members.find? (Keyed.key m)).getD m

def resolveTask (l : Session) (t : Task) : Task := (l.tasks.find? (Keyed.key t)).getD t

def keepMember (l : Session) (m : WorkspaceMember) : Session :=
  { l with members := l.members.put m }

def keepTask (l : Session) (t : Task) : Session := { l with tasks := l.tasks.put t }

def dropMember (l : Session) (w u : Id) : Session :=
  { l with members := l.members.erase (memberKey w u) }

def dropTask (l : Session) (t : Id) : Session := { l with tasks := l.tasks.erase t }

/-- The transaction is over; instances keep their attributes. -/
def ended (l : Session) : Session := { l with readView := none, locked := [], writes := [] }

def Holds [Collation] (l : Session) (k : RowKey) : Prop :=
  k ∈ l.locked ∨ ∃ w ∈ l.writes, k ∈ w.keys

variable {l : Session} {d snap : Database}

theorem view_eq (hview : l.readView = some snap) (hwrites : l.writes = []) : l.view d = snap := by
  rw [view, hview, hwrites]
  rfl

theorem current_eq (hwrites : l.writes = []) : l.current d = d := by
  rw [current, hwrites]
  rfl

theorem current_write (l : Session) (w : Write) (d : Database) :
    (l.write w).current d = (l.current d).apply w := by
  rw [current, write, Database.applyAll_append]
  rfl

theorem writes_write (hwrites : l.writes = []) (w : Write) : (l.write w).writes = [w] := by
  rw [write, hwrites]
  rfl

/-- What plain reads see after the first write. -/
theorem view_write (hwrites : l.writes = []) (w : Write) (d : Database) :
    (l.write w).view d = (l.readView.getD d).apply w := by
  rw [view, writes_write hwrites]
  rfl

/-- What a commit of a single write publishes. -/
theorem current_of_write (hwrites : l.writes = []) (w : Write) (d : Database) :
    (l.write w).current d = d.apply w := by
  rw [current_write, current_eq hwrites]

end Session

/-! ## Calls -/

/-- The `SELECT`s without a lock. -/
inductive Query where
  | userByUsername (username : String)
  | workspaceAccess (workspaceId userId : Id)
  | taskIn (taskId workspaceId : Id)
  | memberWithUsername (workspaceId userId : Id)
  | countTasks (workspaceId : Id) (query : TaskListQuery)
  | tasks (workspaceId : Id) (query : TaskListQuery)
  | countMembers (workspaceId : Id)
  | members (workspaceId : Id) (limit offset : Nat)
  | countMemberships (userId : Id)
  | workspaces (userId : Id) (limit offset : Nat)

namespace Query

abbrev Val : Query → Type
  | userByUsername _ => Option User
  | workspaceAccess _ _ => Option (Workspace × WorkspaceMember)
  | taskIn _ _ => Option Task
  | memberWithUsername _ _ => Option (WorkspaceMember × String)
  | countTasks _ _ => Nat
  | tasks _ _ => List Task
  | countMembers _ => Nat
  | members _ _ _ => List (WorkspaceMember × String)
  | countMemberships _ => Nat
  | workspaces _ _ _ => List (Workspace × MemberRole)

def eval [Collation] (d : Database) : (q : Query) → q.Val
  | userByUsername username => d.userByUsername? username
  | workspaceAccess w u => d.workspaceAccess? w u
  | taskIn t w => d.taskIn? t w
  | memberWithUsername w u => d.memberWithUsername? w u
  | countTasks w q => d.countTasks w q
  | tasks w q => d.selectTasks w q
  | countMembers w => d.countMembers w
  | members w limit offset => d.selectMembers w limit offset
  | countMemberships u => d.countMemberships u
  | workspaces u limit offset => d.selectWorkspaces u limit offset

/-- Take the entities of an answer through the identity map.  The rows of a
listing are not looked at again, so they are not entered. -/
def load (l : Session) : (q : Query) → q.Val → q.Val × Session
  | workspaceAccess _ _, some (workspace, m) =>
    (some (workspace, l.resolveMember m), l.keepMember (l.resolveMember m))
  | taskIn _ _, some t => (some (l.resolveTask t), l.keepTask (l.resolveTask t))
  | memberWithUsername _ _, some (m, username) =>
    (some (l.resolveMember m, username), l.keepMember (l.resolveMember m))
  | tasks _ _, ts => (ts.map l.resolveTask, l)
  | members _ _ _, ms => (ms.map fun p => (l.resolveMember p.1, p.2), l)
  | _, v => (v, l)

/-- The identity map apart, the session stays as it is. -/
theorem load_keeps (l : Session) (q : Query) (v : q.Val) :
    (q.load l v).2.readView = l.readView ∧ (q.load l v).2.locked = l.locked ∧
      (q.load l v).2.writes = l.writes := by
  cases q with
  | workspaceAccess w u =>
      cases v with
      | none => exact ⟨rfl, rfl, rfl⟩
      | some row => exact ⟨rfl, rfl, rfl⟩
  | taskIn t w =>
      cases v with
      | none => exact ⟨rfl, rfl, rfl⟩
      | some row => exact ⟨rfl, rfl, rfl⟩
  | memberWithUsername w u =>
      cases v with
      | none => exact ⟨rfl, rfl, rfl⟩
      | some row => exact ⟨rfl, rfl, rfl⟩
  | _ => exact ⟨rfl, rfl, rfl⟩

end Query

/-- The attributes a request assigns to a task. -/
structure TaskPatch where
  title : Option String := none
  description : Option (Option String) := none
  priority : Option Int := none
  assigneeId : Option (Option Id) := none
  status : Option TaskStatus := none
  deriving DecidableEq

namespace TaskPatch

/-- The assigned attributes whose value differs from the loaded one. -/
def dirty (p : TaskPatch) (loaded : Task) : TaskPatch :=
  { title := p.title.filter (· ≠ loaded.title)
    description := p.description.filter (· ≠ loaded.description)
    priority := p.priority.filter (· ≠ loaded.priority)
    assigneeId := p.assigneeId.filter (· ≠ loaded.assigneeId)
    status := p.status.filter (· ≠ loaded.status) }

def apply (p : TaskPatch) (t : Task) : Task :=
  { t with
    title := p.title.getD t.title
    description := p.description.getD t.description
    priority := p.priority.getD t.priority
    assigneeId := p.assigneeId.getD t.assigneeId
    status := p.status.getD t.status }

theorem apply_dirty_status {s : TaskStatus} {t : Task} (h : t.status ≠ s) :
    (dirty { status := some s } t).apply t = { t with status := s } := by
  simp [dirty, apply, Option.filter, Ne.symm h]

theorem apply_dirty_assigneeId {a : Option Id} {t : Task} (h : t.assigneeId ≠ a) :
    (dirty { assigneeId := some a } t).apply t = { t with assigneeId := a } := by
  simp [dirty, apply, Option.filter, Ne.symm h]

theorem dirty_of_ne_status {s : TaskStatus} {t : Task} (h : t.status ≠ s) :
    dirty { status := some s } t ≠ {} := by
  intro hclean
  have happly := apply_dirty_status h
  rw [hclean] at happly
  exact h (congrArg Task.status happly)

theorem dirty_of_ne_assigneeId {a : Option Id} {t : Task} (h : t.assigneeId ≠ a) :
    dirty { assigneeId := some a } t ≠ {} := by
  intro hclean
  have happly := apply_dirty_assigneeId h
  rw [hclean] at happly
  exact h (congrArg Task.assigneeId happly)

theorem status_apply_dirty {p : TaskPatch} (hp : p.status = none) (loaded t : Task) :
    ((p.dirty loaded).apply t).status = t.status := by
  simp [dirty, apply, hp]

theorem assigneeId_apply_dirty {p : TaskPatch} (hp : p.assigneeId = none) (loaded t : Task) :
    ((p.dirty loaded).apply t).assigneeId = t.assigneeId := by
  simp [dirty, apply, hp]

theorem assigneeId_of_apply_dirty {p : TaskPatch} {loaded t : Task} {a : Id}
    (h : ((p.dirty loaded).apply t).assigneeId = some a) :
    t.assigneeId = some a ∨ p.assigneeId = some (some a) := by
  have hget : (p.assigneeId.filter (· ≠ loaded.assigneeId)).getD t.assigneeId = some a := h
  cases hp : p.assigneeId.filter (· ≠ loaded.assigneeId) with
  | none =>
      rw [hp] at hget
      exact Or.inl hget
  | some b =>
      rw [hp] at hget
      have hb := (Option.filter_eq_some_iff.mp hp).1
      rw [show b = some a from hget] at hb
      exact Or.inr hb

end TaskPatch

inductive Call where
  | select (q : Query)
  /-- `db.get(WorkspaceMember, (workspace_id, user_id))`. -/
  | getMember (workspaceId userId : Id)
  /-- The attributes of a membership instance the code holds. -/
  | memberAttributes (workspaceId userId : Id)
  /-- `SELECT ... FOR UPDATE` of one membership, with `populate_existing`. -/
  | lockMember (workspaceId userId : Id)
  | lockTask (workspaceId taskId : Id)
  | insertUser (username hashedPassword : String)
  | insertWorkspace (name : String) (createdById : Id)
  | insertMember (workspaceId userId : Id) (role : MemberRole)
  | insertTask (workspaceId creatorId : Id) (data : TaskCreate)
  /-- Flush an assignment to `membership.role`. -/
  | flushMemberRole (workspaceId userId : Id) (role : MemberRole)
  | flushTask (taskId : Id) (patch : TaskPatch)
  | deleteMember (workspaceId userId : Id)
  | deleteTask (taskId : Id)
  /-- The rows a bulk update of a workspace's tasks visits, in its order. -/
  | scanTasks (workspaceId : Id)
  /-- The visit of one row by the bulk update of `remove_member`. -/
  | clearAssignee (workspaceId userId taskId : Id) (updatedAt : Timestamp)
  | refreshUser (userId : Id)
  | refreshWorkspace (workspaceId : Id)
  | refreshMember (workspaceId userId : Id)
  | refreshTask (taskId : Id)
  | commit
  | rollback
  | close
  | utcNow
  | hashPassword (password : String)
  | verifyPassword (password hashedPassword : String)
  | checkRateLimit (check : RateCheck)

namespace Call

abbrev Val : Call → Type
  | select q => q.Val
  | getMember _ _ => Option WorkspaceMember
  | memberAttributes _ _ => WorkspaceMember
  | lockMember _ _ => Option WorkspaceMember
  | lockTask _ _ => Option Task
  | insertUser _ _ => User
  | insertWorkspace _ _ => Workspace
  | insertMember _ _ _ => WorkspaceMember
  | insertTask _ _ _ => Task
  | flushMemberRole _ _ _ => Unit
  | flushTask _ _ => Unit
  | deleteMember _ _ => Unit
  | deleteTask _ => Unit
  | scanTasks _ => List Id
  | clearAssignee _ _ _ _ => Unit
  | refreshUser _ => User
  | refreshWorkspace _ => Workspace
  | refreshMember _ _ => WorkspaceMember
  | refreshTask _ => Task
  | commit => Unit
  | rollback => Unit
  | close => Unit
  | utcNow => Timestamp
  | hashPassword _ => String
  | verifyPassword _ _ => Bool
  | checkRateLimit _ => Except RedisError RateLimitDecision

/-- The answer to a call: its value, or the database error it raises. -/
abbrev Res (c : Call) : Type := Except SqlError c.Val

end Call

theorem perm_id (ids : List Id) : (id ids).Perm ids := List.Perm.refl ids

/-- What neither the program nor the database decides about one call. -/
structure Env where
  now : Timestamp := 0
  /-- The error the server or the connection answers with, if any. -/
  fault : Option SqlError := none
  /-- The order in which an index scan yields ids. -/
  order : List Id → List Id := id
  order_perm : ∀ ids, (order ids).Perm ids := by exact perm_id
  /-- Whether a bulk update keeps the lock of a row it visits and does not
  change, which depends on the index it scans. -/
  keepsLock : Bool := false
  hash : String → String := id
  verify : String → String → Bool := fun password hashed => password == hashed
  limiter : RateCheck → Except RedisError RateLimitDecision := fun _ => .error .unavailable

namespace Session

variable [Collation]

/-- A call that sends a statement, unless the statement fails. -/
def statement {α : Type} (env : Env) (l : Session) (d : Database)
    (run : Except SqlError α × Session × Database) : Except SqlError α × Session × Database :=
  match env.fault with
  | some e => (.error e, l, d)
  | none => run

/-- Insert a row into a table, after its constraints were checked. -/
def insert {α : Type} (check : Except SqlError Unit) (row : α) (w : Write)
    (l : Session) (d : Database) : Except SqlError α × Session × Database :=
  match check with
  | .error e => (.error e, l, d)
  | .ok () => (.ok row, l.write w, d)

/-- Read a row again after a flush. -/
def refresh {α : Type} (row : Option α) (l l' : Session) (d : Database) :
    Except SqlError α × Session × Database :=
  match row with
  | none => (.error .notRefreshed, l, d)
  | some r => (.ok r, l', d)

def select (q : Query) (l : Session) (d : Database) :
    Except SqlError q.Val × Session × Database :=
  let x := q.load l (q.eval (l.view d))
  (.ok x.1, x.2.openView d, d)

def getMember (w u : Id) (env : Env) (l : Session) (d : Database) :
    Except SqlError (Option WorkspaceMember) × Session × Database :=
  match l.members.find? (memberKey w u) with
  | some m => (.ok (some m), l, d)
  | none =>
    statement env l d <|
      match (l.view d).member? w u with
      | some m => (.ok (some m), (l.keepMember m).openView d, d)
      | none => (.ok none, l.openView d, d)

def memberAttributes (w u : Id) (l : Session) (d : Database) :
    Except SqlError WorkspaceMember × Session × Database :=
  match l.members.find? (memberKey w u) with
  | some m => (.ok m, l, d)
  | none => (.error .detached, l, d)

def lockMember (w u : Id) (l : Session) (d : Database) :
    Except SqlError (Option WorkspaceMember) × Session × Database :=
  match (l.current d).member? w u with
  | some m => (.ok (some m), (l.keepMember m).lock (.member w u), d)
  | none => (.ok none, l, d)

def lockTask (w t : Id) (l : Session) (d : Database) :
    Except SqlError (Option Task) × Session × Database :=
  match (l.current d).taskIn? t w with
  | some row => (.ok (some row), (l.keepTask row).lock (.task t), d)
  | none => (.ok none, l, d)

def insertUser (username hashedPassword : String) (l : Session) (d : Database) :
    Except SqlError User × Session × Database :=
  let row : User := ⟨d.nextUserId, username, hashedPassword⟩
  insert ((l.current d).checkUser row) row (.putUser row) l
    { d with nextUserId := d.nextUserId + 1 }

def insertWorkspace (name : String) (createdById : Id) (env : Env) (l : Session)
    (d : Database) : Except SqlError Workspace × Session × Database :=
  let row : Workspace := ⟨d.nextWorkspaceId, name, createdById, env.now, env.now⟩
  insert ((l.current d).checkWorkspace row) row (.putWorkspace row) l
    { d with nextWorkspaceId := d.nextWorkspaceId + 1 }

def insertMember (w u : Id) (role : MemberRole) (env : Env) (l : Session) (d : Database) :
    Except SqlError WorkspaceMember × Session × Database :=
  let row : WorkspaceMember := ⟨w, u, role, env.now, env.now⟩
  insert ((l.current d).checkMember row) row (.putMember row) (l.keepMember row) d

def insertTask (w creatorId : Id) (data : TaskCreate) (env : Env) (l : Session)
    (d : Database) : Except SqlError Task × Session × Database :=
  let row : Task :=
    { id := d.nextTaskId, title := data.title, priority := data.priority,
      description := data.description, workspaceId := w, creatorId := creatorId,
      assigneeId := none, status := .todo, createdAt := env.now, updatedAt := env.now }
  insert ((l.current d).checkNewTask row) row (.putTask row) (l.keepTask row)
    { d with nextTaskId := d.nextTaskId + 1 }

def flushMemberRole (w u : Id) (role : MemberRole) (env : Env) (l : Session) (d : Database) :
    Except SqlError Unit × Session × Database :=
  match l.members.find? (memberKey w u) with
  | none => (.error .detached, l, d)
  | some loaded =>
    if loaded.role = role then (.ok (), l, d)
    else statement env l d <|
      match (l.current d).member? w u with
      | none => (.error .staleData, l, d)
      | some row =>
        (.ok (), (l.write (.putMember { row with role := role, updatedAt := env.now })).keepMember
          { loaded with role := role, updatedAt := env.now }, d)

def flushTask (t : Id) (patch : TaskPatch) (env : Env) (l : Session) (d : Database) :
    Except SqlError Unit × Session × Database :=
  match l.tasks.find? t with
  | none => (.error .detached, l, d)
  | some loaded =>
    let dirty := patch.dirty loaded
    if dirty = {} then (.ok (), l, d)
    else statement env l d <|
      match (l.current d).task? t with
      | none => (.error .staleData, l, d)
      | some row =>
        let changed := { dirty.apply row with updatedAt := env.now }
        match (l.current d).checkTask changed with
        | .error e => (.error e, l, d)
        | .ok () =>
          (.ok (), (l.write (.putTask changed)).keepTask
            { dirty.apply loaded with updatedAt := env.now }, d)

/-- A `DELETE` that matches no row is only logged. -/
def deleteMember (w u : Id) (l : Session) (d : Database) :
    Except SqlError Unit × Session × Database :=
  match (l.current d).member? w u with
  | none => (.ok (), l.dropMember w u, d)
  | some _ => (.ok (), (l.write (.deleteMember w u)).dropMember w u, d)

def deleteTask (t : Id) (l : Session) (d : Database) :
    Except SqlError Unit × Session × Database :=
  match (l.current d).task? t with
  | none => (.ok (), l.dropTask t, d)
  | some _ => (.ok (), (l.write (.deleteTask t)).dropTask t, d)

def scanTasks (w : Id) (env : Env) (l : Session) (d : Database) :
    Except SqlError (List Id) × Session × Database :=
  (.ok (env.order (((l.current d).tasks.rows.filter fun t => t.workspaceId = w).map Task.id)),
    l, d)

/-- The condition of the update is evaluated on the latest committed row. -/
def clearAssignee (w u t : Id) (updatedAt : Timestamp) (env : Env) (l : Session)
    (d : Database) : Except SqlError Unit × Session × Database :=
  match (l.current d).task? t with
  | none => (.ok (), l, d)
  | some row =>
    if Database.holdsUnfinished w u row then
      (.ok (), l.write (.putTask { row with assigneeId := none, updatedAt := updatedAt }), d)
    else (.ok (), if env.keepsLock then l.lock (.task t) else l, d)

/-- How a call acts on its session and on the committed rows. -/
def exec (env : Env) : (c : Call) → Session → Database → c.Res × Session × Database
  | .select q, l, d => statement env l d (select q l d)
  | .getMember w u, l, d => getMember w u env l d
  | .memberAttributes w u, l, d => memberAttributes w u l d
  | .lockMember w u, l, d => statement env l d (lockMember w u l d)
  | .lockTask w t, l, d => statement env l d (lockTask w t l d)
  | .insertUser username hashed, l, d => statement env l d (insertUser username hashed l d)
  | .insertWorkspace name creator, l, d => statement env l d (insertWorkspace name creator env l d)
  | .insertMember w u role, l, d => statement env l d (insertMember w u role env l d)
  | .insertTask w creator data, l, d => statement env l d (insertTask w creator data env l d)
  | .flushMemberRole w u role, l, d => flushMemberRole w u role env l d
  | .flushTask t patch, l, d => flushTask t patch env l d
  | .deleteMember w u, l, d => statement env l d (deleteMember w u l d)
  | .deleteTask t, l, d => statement env l d (deleteTask t l d)
  | .scanTasks w, l, d => statement env l d (scanTasks w env l d)
  | .clearAssignee w u t updatedAt, l, d =>
    statement env l d (clearAssignee w u t updatedAt env l d)
  | .refreshUser u, l, d =>
    statement env l d (refresh ((l.view d).user? u) l (l.openView d) d)
  | .refreshWorkspace w, l, d =>
    statement env l d (refresh ((l.view d).workspace? w) l (l.openView d) d)
  | .refreshMember w u, l, d =>
    let row := (l.view d).member? w u
    statement env l d (refresh row l ((row.elim l l.keepMember).openView d) d)
  | .refreshTask t, l, d =>
    let row := (l.view d).task? t
    statement env l d (refresh row l ((row.elim l l.keepTask).openView d) d)
  | .commit, l, d => statement env l d (.ok (), l.ended, l.current d)
  | .rollback, _, d => (.ok (), {}, d)
  | .close, _, d => (.ok (), {}, d)
  | .utcNow, l, d => (.ok env.now, l, d)
  | .hashPassword password, l, d => (.ok (env.hash password), l, d)
  | .verifyPassword password hashed, l, d => (.ok (env.verify password hashed), l, d)
  | .checkRateLimit check, l, d => (.ok (env.limiter check), l, d)

/-- The store all sessions share, with its row locks. -/
def machine : Machine Call Call.Res Env Session Database RowKey := ⟨exec, Holds⟩

end Session
end TaskPlatform
