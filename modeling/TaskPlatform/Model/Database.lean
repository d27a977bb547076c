import Mathlib.Data.Prod.Lex
import Mathlib.Order.Basic
import Mathlib.Tactic.SplitIfs
import Mathlib.Algebra.Order.Group.Int
import TaskPlatform.Model.Exceptions
import TaskPlatform.Model.Policies
import TaskPlatform.Model.Text
import TaskPlatform.Relational.Table

/-!
# The database of the application

The four tables of `app/models.py` with their columns, primary keys and
`AUTO_INCREMENT` counters, and the constraints a statement is checked against.
-/

namespace TaskPlatform

open Relational

/-- `DATETIME(6)` in naive UTC, as microseconds. -/
abbrev Timestamp := Nat

structure User where
  id : Id
  username : String
  hashedPassword : String
  deriving DecidableEq, Repr

structure Workspace where
  id : Id
  name : String
  createdById : Id
  createdAt : Timestamp
  updatedAt : Timestamp
  deriving DecidableEq, Repr

structure WorkspaceMember where
  workspaceId : Id
  userId : Id
  role : MemberRole
  joinedAt : Timestamp
  updatedAt : Timestamp
  deriving DecidableEq, Repr

structure Task where
  id : Id
  title : String
  priority : Int
  description : Option String
  workspaceId : Id
  creatorId : Id
  assigneeId : Option Id
  status : TaskStatus
  createdAt : Timestamp
  updatedAt : Timestamp
  deriving DecidableEq, Repr

instance : Keyed User Id := ⟨User.id⟩
instance : Keyed Workspace Id := ⟨Workspace.id⟩
instance : Keyed Task Id := ⟨Task.id⟩

/-- The composite primary key of a membership. -/
abbrev MemberKey := Id ×ₗ Id

def memberKey (workspaceId userId : Id) : MemberKey := toLex (workspaceId, userId)

@[simp] theorem memberKey_inj {w u w' u' : Id} :
    memberKey w u = memberKey w' u' ↔ w = w' ∧ u = u' := by
  rw [memberKey, memberKey, toLex_inj, Prod.mk.injEq]

instance : Keyed WorkspaceMember MemberKey := ⟨fun m => memberKey m.workspaceId m.userId⟩

@[simp] theorem key_user (u : User) : Keyed.key u = u.id := rfl
@[simp] theorem key_workspace (w : Workspace) : Keyed.key w = w.id := rfl
@[simp] theorem key_task (t : Task) : Keyed.key t = t.id := rfl
@[simp] theorem key_member (m : WorkspaceMember) :
    Keyed.key m = memberKey m.workspaceId m.userId := rfl

structure Database where
  users : Table User
  workspaces : Table Workspace
  members : Table WorkspaceMember
  tasks : Table Task
  nextUserId : Id
  nextWorkspaceId : Id
  nextTaskId : Id
  deriving DecidableEq

theorem isSome_of_not_isNone {α : Type} {o : Option α} (h : ¬ o.isNone = true) : o.isSome := by
  cases o with
  | none => exact absurd rfl h
  | some a => rfl

namespace Database

def empty : Database :=
  { users := ∅, workspaces := ∅, members := ∅, tasks := ∅,
    nextUserId := 1, nextWorkspaceId := 1, nextTaskId := 1 }

def user? (d : Database) (u : Id) : Option User := d.users.find? u

def workspace? (d : Database) (w : Id) : Option Workspace := d.workspaces.find? w

def member? (d : Database) (w u : Id) : Option WorkspaceMember := d.members.find? (memberKey w u)

def task? (d : Database) (t : Id) : Option Task := d.tasks.find? t

/-- `SELECT ... FROM users WHERE username = :username`. -/
def userByUsername? [Collation] (d : Database) (username : String) : Option User :=
  d.users.rows.find? fun u => Collation.weight u.username = Collation.weight username

/-- The role of a user in a workspace. -/
def roleOf (d : Database) (w u : Id) : Option MemberRole := (d.member? w u).map (·.role)

theorem id_of_user? {d : Database} {u : Id} {r : User} (h : d.user? u = some r) : r.id = u :=
  Table.key_of_find? h

theorem id_of_workspace? {d : Database} {w : Id} {r : Workspace} (h : d.workspace? w = some r) :
    r.id = w :=
  Table.key_of_find? h

theorem id_of_task? {d : Database} {t : Id} {r : Task} (h : d.task? t = some r) : r.id = t :=
  Table.key_of_find? h

theorem key_of_member? {d : Database} {w u : Id} {r : WorkspaceMember}
    (h : d.member? w u = some r) : r.workspaceId = w ∧ r.userId = u :=
  memberKey_inj.mp (Table.key_of_find? h)

/-! ## Constraints -/

/-- The `VARCHAR` lengths, `CHECK`s and `RESTRICT` foreign keys of a task row. -/
def checkTask (d : Database) (t : Task) : Except SqlError Unit :=
  if 100 < t.title.length then .error .dataTooLong
  else if 500 < (t.description.getD "").length then .error .dataTooLong
  else if !trimmedLengthOk t.title then .error .check
  else if t.priority < 1 ∨ 5 < t.priority then .error .check
  else if (d.workspace? t.workspaceId).isNone then .error .foreignKey
  else if (d.user? t.creatorId).isNone then .error .foreignKey
  else match t.assigneeId with
    | some a => if (d.user? a).isNone then .error .foreignKey else .ok ()
    | none => .ok ()

def checkNewTask (d : Database) (t : Task) : Except SqlError Unit :=
  if (d.task? t.id).isSome then .error .duplicateKey else checkTask d t

def checkWorkspace (d : Database) (w : Workspace) : Except SqlError Unit :=
  if 100 < w.name.length then .error .dataTooLong
  else if (d.workspace? w.id).isSome then .error .duplicateKey
  else if !trimmedLengthOk w.name then .error .check
  else if (d.user? w.createdById).isNone then .error .foreignKey
  else .ok ()

/-- The primary key, then the foreign keys, of a new membership. -/
def checkMember (d : Database) (m : WorkspaceMember) : Except SqlError Unit :=
  if (d.member? m.workspaceId m.userId).isSome then .error .duplicateKey
  else if (d.workspace? m.workspaceId).isNone then .error .foreignKey
  else if (d.user? m.userId).isNone then .error .foreignKey
  else .ok ()

def checkUser [Collation] (d : Database) (u : User) : Except SqlError Unit :=
  if 50 < u.username.length then .error .dataTooLong
  else if 255 < u.hashedPassword.length then .error .dataTooLong
  else if (d.user? u.id).isSome then .error .duplicateKey
  else if (d.userByUsername? u.username).isSome then .error .duplicateKey
  else .ok ()

theorem checkTask_ok {d : Database} {t : Task} (h : d.checkTask t = .ok ()) :
    (d.workspace? t.workspaceId).isSome ∧ (d.user? t.creatorId).isSome ∧
      ∀ a ∈ t.assigneeId, (d.user? a).isSome := by
  unfold checkTask at h
  split_ifs at h with _ _ _ _ hworkspace huser
  refine ⟨isSome_of_not_isNone hworkspace, isSome_of_not_isNone huser, ?_⟩
  intro a ha
  rw [Option.mem_def.mp ha] at h
  refine isSome_of_not_isNone fun hnone => ?_
  simp only [hnone, if_true] at h
  cases h

theorem checkTask_iff {d : Database} {t : Task} :
    d.checkTask t = .ok () ↔
      t.title.length ≤ 100 ∧ (t.description.getD "").length ≤ 500 ∧
        trimmedLengthOk t.title = true ∧ (1 ≤ t.priority ∧ t.priority ≤ 5) ∧
        (d.workspace? t.workspaceId).isSome ∧ (d.user? t.creatorId).isSome ∧
        ∀ a ∈ t.assigneeId, (d.user? a).isSome := by
  constructor
  · intro h
    obtain ⟨hworkspace, hcreator, hassignee⟩ := checkTask_ok h
    unfold checkTask at h
    split_ifs at h with htitle hdescription htrim hpriority
    refine ⟨Nat.not_lt.mp htitle, Nat.not_lt.mp hdescription, by simpa using htrim, ?_,
      hworkspace, hcreator, hassignee⟩
    exact ⟨Int.not_lt.mp fun hlt => hpriority (Or.inl hlt),
      Int.not_lt.mp fun hlt => hpriority (Or.inr hlt)⟩
  · rintro ⟨htitle, hdescription, htrim, hpriority, hworkspace, hcreator, hassignee⟩
    have hsome : ∀ {α : Type} {o : Option α}, o.isSome → ¬ o.isNone = true := by
      intro α o ho
      cases o with
      | none => cases ho
      | some a => exact Bool.false_ne_true
    unfold checkTask
    rw [if_neg (Nat.not_lt.mpr htitle), if_neg (Nat.not_lt.mpr hdescription),
      if_neg (by simp [htrim]), if_neg, if_neg (hsome hworkspace), if_neg (hsome hcreator)]
    · cases ha : t.assigneeId with
      | none => rfl
      | some a => exact if_neg (hsome (hassignee a ha))
    · rintro (hlow | hhigh)
      · exact absurd hpriority.1 (Int.not_le.mpr hlow)
      · exact absurd hpriority.2 (Int.not_le.mpr hhigh)

theorem checkNewTask_ok {d : Database} {t : Task} (h : d.checkNewTask t = .ok ()) :
    d.task? t.id = none ∧ d.checkTask t = .ok () := by
  unfold checkNewTask at h
  split_ifs at h with hid
  exact ⟨Option.not_isSome_iff_eq_none.mp hid, h⟩

theorem checkWorkspace_ok {d : Database} {w : Workspace} (h : d.checkWorkspace w = .ok ()) :
    d.workspace? w.id = none ∧ (d.user? w.createdById).isSome := by
  unfold checkWorkspace at h
  split_ifs at h with _ hid _ huser
  exact ⟨Option.not_isSome_iff_eq_none.mp hid, isSome_of_not_isNone huser⟩

theorem checkMember_ok {d : Database} {m : WorkspaceMember} (h : d.checkMember m = .ok ()) :
    d.member? m.workspaceId m.userId = none ∧ (d.workspace? m.workspaceId).isSome ∧
      (d.user? m.userId).isSome := by
  unfold checkMember at h
  split_ifs at h with hid hworkspace huser
  exact ⟨Option.not_isSome_iff_eq_none.mp hid, isSome_of_not_isNone hworkspace,
    isSome_of_not_isNone huser⟩

theorem checkUser_ok [Collation] {d : Database} {u : User} (h : d.checkUser u = .ok ()) :
    d.user? u.id = none ∧ d.userByUsername? u.username = none := by
  unfold checkUser at h
  split_ifs at h with _ _ hid hname
  exact ⟨Option.not_isSome_iff_eq_none.mp hid, Option.not_isSome_iff_eq_none.mp hname⟩

theorem checkWorkspace_name {d : Database} {w : Workspace} (h : d.checkWorkspace w = .ok ()) :
    w.name.length ≤ 100 ∧ trimmedLengthOk w.name = true := by
  unfold checkWorkspace at h
  split_ifs at h with hname _ htrim
  exact ⟨Nat.not_lt.mp hname, by simpa using htrim⟩

theorem checkUser_lengths [Collation] {d : Database} {u : User} (h : d.checkUser u = .ok ()) :
    u.username.length ≤ 50 ∧ u.hashedPassword.length ≤ 255 := by
  unfold checkUser at h
  split_ifs at h with hname hhash
  exact ⟨Nat.not_lt.mp hname, Nat.not_lt.mp hhash⟩

end Database

/-! ## Changes of one row -/

/-- A row a transaction has written and not yet committed. -/
inductive Write where
  | putUser (u : User)
  | putWorkspace (w : Workspace)
  | putMember (m : WorkspaceMember)
  | deleteMember (workspaceId userId : Id)
  | putTask (t : Task)
  | deleteTask (id : Id)

/-- What a transaction locks.  A username stands for its entry in the unique
index of `users`. -/
inductive RowKey where
  | user (id : Id)
  | username (weight : String)
  | workspace (id : Id)
  | member (workspaceId userId : Id)
  | task (id : Id)
  deriving DecidableEq

def Write.keys [Collation] : Write → List RowKey
  | .putUser u => [.user u.id, .username (Collation.weight u.username)]
  | .putWorkspace w => [.workspace w.id]
  | .putMember m => [.member m.workspaceId m.userId]
  | .deleteMember w u => [.member w u]
  | .putTask t => [.task t.id]
  | .deleteTask t => [.task t]

namespace Database

def apply (d : Database) : Write → Database
  | .putUser u => { d with users := d.users.put u }
  | .putWorkspace w => { d with workspaces := d.workspaces.put w }
  | .putMember m => { d with members := d.members.put m }
  | .deleteMember w u => { d with members := d.members.erase (memberKey w u) }
  | .putTask t => { d with tasks := d.tasks.put t }
  | .deleteTask t => { d with tasks := d.tasks.erase t }

def applyAll (d : Database) (ws : List Write) : Database := ws.foldl apply d

@[simp] theorem applyAll_nil (d : Database) : d.applyAll [] = d := rfl

@[simp] theorem applyAll_cons (d : Database) (w : Write) (ws : List Write) :
    d.applyAll (w :: ws) = (d.apply w).applyAll ws := rfl

theorem applyAll_append (d : Database) (ws ws' : List Write) :
    d.applyAll (ws ++ ws') = (d.applyAll ws).applyAll ws' := List.foldl_append

/-- Writes leave the counters alone. -/
theorem next_applyAll (d : Database) (ws : List Write) :
    (d.applyAll ws).nextUserId = d.nextUserId ∧
      (d.applyAll ws).nextWorkspaceId = d.nextWorkspaceId ∧
      (d.applyAll ws).nextTaskId = d.nextTaskId := by
  induction ws generalizing d with
  | nil => exact ⟨rfl, rfl, rfl⟩
  | cons w ws ih =>
      rw [applyAll_cons]
      cases w with
      | _ => exact ih _

section Lookups

variable (d : Database)

theorem user?_putUser (u : User) (k : Id) :
    (d.apply (.putUser u)).user? k = if k = u.id then some u else d.user? k :=
  Table.find?_put d.users u k

theorem workspace?_putWorkspace (w : Workspace) (k : Id) :
    (d.apply (.putWorkspace w)).workspace? k = if k = w.id then some w else d.workspace? k :=
  Table.find?_put d.workspaces w k

theorem task?_putTask (t : Task) (k : Id) :
    (d.apply (.putTask t)).task? k = if k = t.id then some t else d.task? k :=
  Table.find?_put d.tasks t k

theorem task?_deleteTask (t k : Id) :
    (d.apply (.deleteTask t)).task? k = if k = t then none else d.task? k :=
  Table.find?_erase d.tasks t k

theorem member?_putMember (m : WorkspaceMember) (w u : Id) :
    (d.apply (.putMember m)).member? w u =
      if w = m.workspaceId ∧ u = m.userId then some m else d.member? w u := by
  unfold member?
  rw [apply, Table.find?_put]
  simp only [key_member, memberKey_inj]

theorem member?_deleteMember (w u w' u' : Id) :
    (d.apply (.deleteMember w u)).member? w' u' =
      if w' = w ∧ u' = u then none else d.member? w' u' := by
  unfold member?
  rw [apply, Table.find?_erase]
  simp only [memberKey_inj]

end Lookups

/-- Two databases hold the same row under a key. -/
def SameRow [Collation] : RowKey → Database → Database → Prop
  | .user u, d, d' => d.user? u = d'.user? u
  | .username n, d, d' =>
    ∀ u, (u ∈ d.users.rows ∧ Collation.weight u.username = n) ↔
      (u ∈ d'.users.rows ∧ Collation.weight u.username = n)
  | .workspace w, d, d' => d.workspace? w = d'.workspace? w
  | .member w u, d, d' => d.member? w u = d'.member? w u
  | .task t, d, d' => d.task? t = d'.task? t

end Database
end TaskPlatform
