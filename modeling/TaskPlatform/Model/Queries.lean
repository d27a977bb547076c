import Mathlib.Data.List.Sort
import TaskPlatform.Model.Schemas

/-!
# The plain queries of the application

What each `SELECT` without a lock returns on one state of the database.  Rows
are sorted by an explicit key, so a listing is a function of the tables.
-/

namespace TaskPlatform

open Relational

/-- `OFFSET` and `LIMIT`. -/
def pageOf {α : Type} (limit offset : Nat) (l : List α) : List α := (l.drop offset).take limit

namespace Database

/-- Workspace joined with the membership of one user (`get_workspace_access`). -/
def workspaceAccess? (d : Database) (w u : Id) : Option (Workspace × WorkspaceMember) :=
  match d.workspace? w, d.member? w u with
  | some workspace, some membership => some (workspace, membership)
  | _, _ => none

/-- A task by id and workspace (`get_workspace_task_access`). -/
def taskIn? (d : Database) (t w : Id) : Option Task :=
  (d.task? t).filter fun row => row.workspaceId = w

/-- Membership joined with the username (`_get_member_with_username`). -/
def memberWithUsername? (d : Database) (w u : Id) : Option (WorkspaceMember × String) :=
  match d.member? w u, d.user? u with
  | some membership, some user => some (membership, user.username)
  | _, _ => none

theorem workspaceAccess?_eq_some {d : Database} {w u : Id} {workspace : Workspace}
    {m : WorkspaceMember} :
    d.workspaceAccess? w u = some (workspace, m) ↔
      d.workspace? w = some workspace ∧ d.member? w u = some m := by
  unfold workspaceAccess?
  cases d.workspace? w <;> cases d.member? w u <;> simp

theorem taskIn?_eq_some {d : Database} {t w : Id} {row : Task} :
    d.taskIn? t w = some row ↔ d.task? t = some row ∧ row.workspaceId = w := by
  simp [taskIn?, Option.filter_eq_some_iff]

theorem memberWithUsername?_eq_some {d : Database} {w u : Id} {m : WorkspaceMember}
    {username : String} :
    d.memberWithUsername? w u = some (m, username) ↔
      d.member? w u = some m ∧ ∃ user, d.user? u = some user ∧ user.username = username := by
  unfold memberWithUsername?
  cases d.member? w u <;> cases d.user? u <;> simp

/-- The `WHERE` conditions of a task listing. -/
def matchesQuery (w : Id) (q : TaskListQuery) (t : Task) : Bool :=
  t.workspaceId = w &&
    (match q.status with
      | some s => t.status = s
      | none => true) &&
    (match q.priority with
      | some p => t.priority = p
      | none => true) &&
    (match q.assigneeId with
      | some a => t.assigneeId = some a
      | none => true) &&
    (!q.unassigned || t.assigneeId.isNone)

/-- The value of the sort column. -/
def sortColumn (by_ : SortBy) (t : Task) : Int :=
  match by_ with
  | .id => t.id
  | .priority => t.priority
  | .createdAt => t.createdAt
  | .updatedAt => t.updatedAt

/-- `ORDER BY sort_column, id`, both ascending or both descending. -/
def taskBefore (q : TaskListQuery) (a b : Task) : Bool :=
  match q.sortOrder with
  | .asc =>
    sortColumn q.sortBy a < sortColumn q.sortBy b ||
      (sortColumn q.sortBy a = sortColumn q.sortBy b && a.id ≤ b.id)
  | .desc =>
    sortColumn q.sortBy b < sortColumn q.sortBy a ||
      (sortColumn q.sortBy a = sortColumn q.sortBy b && b.id ≤ a.id)

def countTasks (d : Database) (w : Id) (q : TaskListQuery) : Nat :=
  (d.tasks.rows.filter (matchesQuery w q)).length

def selectTasks (d : Database) (w : Id) (q : TaskListQuery) : List Task :=
  pageOf q.limit q.offset
    ((d.tasks.rows.filter (matchesQuery w q)).insertionSort fun a b => taskBefore q a b)

def countMembers (d : Database) (w : Id) : Nat :=
  (d.members.rows.filter fun m => m.workspaceId = w).length

/-- `ORDER BY joined_at, user_id`. -/
def memberBefore (a b : WorkspaceMember × String) : Bool :=
  a.1.joinedAt < b.1.joinedAt || (a.1.joinedAt = b.1.joinedAt && a.1.userId ≤ b.1.userId)

def selectMembers (d : Database) (w : Id) (limit offset : Nat) :
    List (WorkspaceMember × String) :=
  let joined := (d.members.rows.filter fun m => m.workspaceId = w).filterMap fun m =>
    (d.user? m.userId).map fun u => (m, u.username)
  pageOf limit offset (joined.insertionSort fun a b => memberBefore a b)

def countMemberships (d : Database) (u : Id) : Nat :=
  (d.members.rows.filter fun m => m.userId = u).length

/-- `ORDER BY workspaces.id DESC`. -/
def selectWorkspaces (d : Database) (u : Id) (limit offset : Nat) :
    List (Workspace × MemberRole) :=
  let joined := (d.members.rows.filter fun m => m.userId = u).filterMap fun m =>
    (d.workspace? m.workspaceId).map fun w => (w, m.role)
  pageOf limit offset (joined.insertionSort fun a b => b.1.id ≤ a.1.id)

/-- The condition of the bulk update in `remove_member`. -/
def holdsUnfinished (w u : Id) (t : Task) : Bool :=
  t.workspaceId = w && t.assigneeId = some u && t.status ≠ .done

theorem holdsUnfinished_iff {w u : Id} {t : Task} :
    holdsUnfinished w u t = true ↔
      t.workspaceId = w ∧ t.assigneeId = some u ∧ t.status ≠ .done := by
  simp [holdsUnfinished, and_assoc]

theorem holdsUnfinished_of_none {w u : Id} {t : Task} (h : t.assigneeId = none) :
    holdsUnfinished w u t = false := by
  simp [holdsUnfinished, h]

end Database
end TaskPlatform
