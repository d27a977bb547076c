import TaskPlatform.Migration.Schema
import TaskPlatform.Model.Database
import TaskPlatform.Relational.Query

/-!
# The database the migrations run on

The rows of all tables with a column of `tasks` NULL where the schema does not have
it, the statements the revisions send, and what they are checked against.
-/

namespace TaskPlatform
namespace Migration

open Relational

/-- The name of a status, as `TaskStatus` of the application writes it. -/
def statusName : TaskStatus → String
  | .todo => "TODO"
  | .inProgress => "IN_PROGRESS"
  | .done => "DONE"

/-- What `tasks.status` holds: a text, and the status whose name it equals under the
collation of the column (case and accents make no difference there).  The constraint of
the column admits no other text. -/
structure StatusText where
  status : TaskStatus
  text : String
  /-- The name of a status equals no other name. -/
  own : ∀ s, text = statusName s → s = status
  deriving DecidableEq, Repr

theorem statusName_inj {s s' : TaskStatus} (h : statusName s = statusName s') : s' = s := by
  revert h
  cases s <;> cases s' <;> decide

/-- The name itself, which is what the revisions and the application write. -/
def StatusText.name (s : TaskStatus) : StatusText := ⟨s, statusName s, fun _ => statusName_inj⟩

@[simp] theorem StatusText.status_name (s : TaskStatus) : (StatusText.name s).status = s := rfl

structure TaskRow where
  id : Id
  title : String
  completed : Option Bool := none
  priority : Int
  ownerId : Option Id := none
  description : Option String := none
  workspaceId : Option Id := none
  creatorId : Option Id := none
  assigneeId : Option Id := none
  status : Option StatusText := none
  createdAt : Option Timestamp := none
  updatedAt : Option Timestamp := none
  deriving DecidableEq, Repr

/-- A row of `task_collaboration_user_workspace_map`. -/
structure Mapping where
  userId : Id
  workspaceId : Id
  legacyTaskCount : Nat
  legacyTaskMaxId : Option Id
  migratedAt : Timestamp
  deriving DecidableEq, Repr

instance : Keyed TaskRow Id := ⟨TaskRow.id⟩
instance : Keyed Mapping Id := ⟨Mapping.userId⟩

@[simp] theorem key_taskRow (t : TaskRow) : Keyed.key t = t.id := rfl
@[simp] theorem key_mapping (m : Mapping) : Keyed.key m = m.userId := rfl

namespace TaskRow

/-- What a comparison in SQL makes of the status. -/
def statusValue (t : TaskRow) : Option TaskStatus := t.status.map StatusText.status

theorem isNone_statusValue (t : TaskRow) : t.statusValue.isNone = t.status.isNone :=
  Option.isNone_map

def isNull (t : TaskRow) : TaskColumn → Bool
  | .id | .title | .priority => false
  | .completed => t.completed.isNone
  | .ownerId => t.ownerId.isNone
  | .description => t.description.isNone
  | .workspaceId => t.workspaceId.isNone
  | .creatorId => t.creatorId.isNone
  | .assigneeId => t.assigneeId.isNone
  | .status => t.status.isNone
  | .createdAt => t.createdAt.isNone
  | .updatedAt => t.updatedAt.isNone

/-- The value of a column that refers to another table. -/
def reference (t : TaskRow) : TaskColumn → Option Id
  | .ownerId => t.ownerId
  | .workspaceId => t.workspaceId
  | .creatorId => t.creatorId
  | .assigneeId => t.assigneeId
  | _ => none

def clear (t : TaskRow) : TaskColumn → TaskRow
  | .id | .title | .priority => t
  | .completed => { t with completed := none }
  | .ownerId => { t with ownerId := none }
  | .description => { t with description := none }
  | .workspaceId => { t with workspaceId := none }
  | .creatorId => { t with creatorId := none }
  | .assigneeId => { t with assigneeId := none }
  | .status => { t with status := none }
  | .createdAt => { t with createdAt := none }
  | .updatedAt => { t with updatedAt := none }

theorem id_clear (t : TaskRow) (c : TaskColumn) : (t.clear c).id = t.id := by
  cases c with
  | _ => rfl

end TaskRow

/-- The rows of all tables; the mapping table has none while it does not exist. -/
structure Rows where
  users : Table User
  workspaces : Table Workspace
  members : Table WorkspaceMember
  tasks : Table TaskRow
  map : Table Mapping
  nextUserId : Id
  nextWorkspaceId : Id
  nextTaskId : Id

namespace Rows

def user? (r : Rows) (u : Id) : Option User := r.users.find? u

def workspace? (r : Rows) (w : Id) : Option Workspace := r.workspaces.find? w

def member? (r : Rows) (w u : Id) : Option WorkspaceMember := r.members.find? (memberKey w u)

def task? (r : Rows) (t : Id) : Option TaskRow := r.tasks.find? t

def mapping? (r : Rows) (u : Id) : Option Mapping := r.map.find? u

/-- Whether a table has a row with this `id`. -/
def hasId (r : Rows) : TableName → Id → Bool
  | .users, u => (r.user? u).isSome
  | .workspaces, w => (r.workspace? w).isSome
  | _, _ => false

end Rows

/-- The condition of a constraint on one row. -/
def TaskCheck.condition (t : TaskRow) : TaskCheck → Truth
  | .status => t.statusValue.map fun s => decide (s ∈ [.todo, .inProgress, .done])
  | .titleLength => some (trimmedLengthOk t.title)
  | .priority => Truth.between t.priority 1 5

/-- A constraint is violated only where its condition is false. -/
def TaskCheck.allows (t : TaskRow) (ck : TaskCheck) : Bool := ck.condition t != some false

/-- The type of the column leaves nothing for its check. -/
theorem TaskCheck.allows_status (t : TaskRow) : TaskCheck.status.allows t = true := by
  cases hs : t.statusValue with
  | none => simp [allows, condition, hs]
  | some st =>
      cases st with
      | _ => simp [allows, condition, hs]

theorem holds_notIn_statuses (st : Option TaskStatus) :
    (Truth.notIn st [.todo, .inProgress, .done]).holds = false := by
  cases st with
  | none => rfl
  | some st =>
      cases st with
      | _ => rfl

def ForeignKey.allows (r : Rows) (t : TaskRow) (fk : ForeignKey TaskColumn) : Bool :=
  (t.reference fk.constrained).all (r.hasId fk.referred)

/-- A row satisfies the constraints of `tasks`. -/
def Schema.allows (s : Schema) (r : Rows) (t : TaskRow) : Bool :=
  (s.columns.all fun col => col.nullable || !t.isNull col.name) &&
    (s.foreignKeys.all fun fk => fk.allows r t) && s.checks.all fun ck => ck.allows t

structure Store where
  schema : Schema
  rows : Rows

/-- Why a revision does not go through. -/
inductive MigrationError where
  /-- A `RuntimeError` of the revision. -/
  | abort (message : String)
  /-- The server rejects a statement. -/
  | rejected
  deriving DecidableEq, Repr

abbrev Result (α : Type) : Type := Except MigrationError α

/-- `_abort`, where a condition holds. -/
def abortWhen (c : Prop) [Decidable c] (message : String) : Result Unit :=
  if c then .error (.abort message) else .ok ()

/-- Whether the server accepts a statement. -/
def accept {α : Type} (c : Prop) [Decidable c] (x : α) : Result α :=
  if c then .ok x else .error .rejected

section Results

variable {α β : Type} {c : Prop} [Decidable c]

theorem bind_eq_ok {x : Result α} {f : α → Result β} {b : β} :
    (x >>= f) = .ok b ↔ ∃ a, x = .ok a ∧ f a = .ok b := by
  cases x with
  | error e => simp [bind, Except.bind]
  | ok a => simp [bind, Except.bind]

theorem abortWhen_eq_ok {message : String} : abortWhen c message = .ok () ↔ ¬ c := by
  by_cases h : c
  · simp [abortWhen, h]
  · simp [abortWhen, h]

/-- A validation goes on where it does not abort. -/
theorem abortWhen_bind {message : String} {f : Unit → Result β} {b : β} :
    (abortWhen c message >>= f) = .ok b ↔ ¬ c ∧ f () = .ok b := by
  rw [bind_eq_ok]
  constructor
  · rintro ⟨_, hc, hf⟩
    exact ⟨abortWhen_eq_ok.mp hc, hf⟩
  · rintro ⟨hc, hf⟩
    exact ⟨(), abortWhen_eq_ok.mpr hc, hf⟩

theorem abortWhen_bind_of {message : String} {f : Unit → Result β} (h : c) :
    (abortWhen c message >>= f) = .error (.abort message) := by
  rw [abortWhen, if_pos h]
  rfl

theorem abortWhen_bind_of_not {message : String} {f : Unit → Result β} (h : ¬ c) :
    (abortWhen c message >>= f) = f () := by
  rw [abortWhen, if_neg h]
  rfl

theorem accept_eq_ok {x y : α} : accept c x = .ok y ↔ c ∧ x = y := by
  by_cases h : c
  · simp [accept, h]
  · simp [accept, h]

theorem forM_eq_ok {f : α → Result Unit} {l : List α} :
    l.forM f = .ok () ↔ ∀ a ∈ l, f a = .ok () := by
  induction l with
  | nil => exact ⟨fun _ => nofun, fun _ => rfl⟩
  | cons a rest ih =>
      show (f a >>= fun _ => rest.forM f) = .ok () ↔ _
      rw [bind_eq_ok, List.forall_mem_cons, ← ih]
      exact ⟨fun ⟨_, ha, hrest⟩ => ⟨ha, hrest⟩, fun ⟨ha, hrest⟩ => ⟨(), ha, hrest⟩⟩

/-- A loop goes through when its body keeps an invariant of the elements done. -/
theorem foldlM_ok {f : β → α → Result β} (I : List α → β → Prop) {l : List α}
    (hstep : ∀ done a rest, l = done ++ a :: rest → ∀ b, I done b →
      ∃ b', f b a = .ok b' ∧ I (done ++ [a]) b')
    {b : β} (hb : I [] b) : ∃ b', l.foldlM f b = .ok b' ∧ I l b' := by
  have hrun : ∀ rest done b, l = done ++ rest → I done b →
      ∃ b', rest.foldlM f b = .ok b' ∧ I l b' := by
    intro rest
    induction rest with
    | nil =>
        intro done b hl hb
        rw [List.append_nil] at hl
        exact ⟨b, rfl, hl ▸ hb⟩
    | cons a rest ih =>
        intro done b hl hb
        obtain ⟨b₁, hone, hb₁⟩ := hstep done a rest hl b hb
        rw [List.append_cons] at hl
        obtain ⟨b₂, hmany, hb₂⟩ := ih (done ++ [a]) b₁ hl hb₁
        refine ⟨b₂, ?_, hb₂⟩
        rw [List.foldlM_cons, bind_eq_ok]
        exact ⟨b₁, hone, hmany⟩
  exact hrun l [] b rfl hb

end Results

/-- A script of `alembic/versions`. -/
structure Revision where
  revision : String
  downRevision : String
  upgrade : Store → Result Store
  downgrade : Store → Result Store

namespace Revision

def stamp (revision : String) (s : Store) : Store :=
  { s with schema := { s.schema with revision := revision } }

/-- Go from the revision before to this one. -/
def up (x : Revision) (s : Store) : Result Store :=
  if s.schema.revision = x.downRevision then (x.upgrade s).map (stamp x.revision)
  else .error .rejected

/-- Go back. -/
def down (x : Revision) (s : Store) : Result Store :=
  if s.schema.revision = x.revision then (x.downgrade s).map (stamp x.downRevision)
  else .error .rejected

theorem up_eq_ok {x : Revision} {s s' : Store} (hrevision : s.schema.revision = x.downRevision)
    (h : x.upgrade s = .ok s') : x.up s = .ok (stamp x.revision s') := by
  rw [up, if_pos hrevision, h]
  rfl

theorem up_eq_error {x : Revision} {s : Store} {e : MigrationError}
    (hrevision : s.schema.revision = x.downRevision) (h : x.upgrade s = .error e) :
    x.up s = .error e := by
  rw [up, if_pos hrevision, h]
  rfl

theorem down_eq_ok {x : Revision} {s s' : Store} (hrevision : s.schema.revision = x.revision)
    (h : x.downgrade s = .ok s') : x.down s = .ok (stamp x.downRevision s') := by
  rw [down, if_pos hrevision, h]
  rfl

end Revision

/-! ## Statements that change the schema -/

namespace Ddl

/-- What a statement asks of the rows. -/
def accepts (r : Rows) : Ddl → Bool
  | .alterNullable c false => r.tasks.rows.all fun t => !t.isNull c
  | .createForeignKey fk => r.tasks.rows.all fun t => fk.allows r t
  | .createCheck ck => r.tasks.rows.all fun t => ck.allows t
  | _ => true

/-- What it does to them. -/
def onRows (r : Rows) : Ddl → Rows
  | .dropColumn c =>
    { r with tasks := r.tasks.mapRows (·.clear c) (TaskRow.id_clear · c) }
  | .dropMap => { r with map := ∅ }
  | _ => r

def run (s : Store) (x : Ddl) : Result Store :=
  match s.schema.change x with
  | none => .error .rejected
  | some schema => accept (x.accepts s.rows = true) ⟨schema, x.onRows s.rows⟩

def runAll (s : Store) : List Ddl → Result Store
  | [] => .ok s
  | x :: rest => do runAll (← x.run s) rest

def acceptsAll (r : Rows) : List Ddl → Prop
  | [] => True
  | x :: rest => x.accepts r = true ∧ acceptsAll (x.onRows r) rest

def onRowsAll (r : Rows) (xs : List Ddl) : Rows := xs.foldl onRows r

/-- A list of statements goes through when each one suits the schema and the rows it
finds. -/
theorem runAll_eq_ok {xs : List Ddl} {schema schema' : Schema} {r : Rows}
    (hschema : schema.changeAll xs = some schema') (hrows : acceptsAll r xs) :
    runAll ⟨schema, r⟩ xs = .ok ⟨schema', onRowsAll r xs⟩ := by
  induction xs generalizing schema r with
  | nil =>
      cases hschema
      rfl
  | cons x rest ih =>
      obtain ⟨hx, hrest⟩ := hrows
      obtain ⟨schema₁, hchange, hnext⟩ := Option.bind_eq_some_iff.mp hschema
      have hrun : x.run ⟨schema, r⟩ = .ok ⟨schema₁, x.onRows r⟩ := by
        rw [run, hchange]
        exact if_pos hx
      rw [runAll, hrun]
      exact ih hnext hrest

/-- Dropping a column that is NULL throughout changes no row. -/
theorem onRows_dropColumn {c : TaskColumn} {r : Rows}
    (h : ∀ t ∈ r.tasks.rows, t.clear c = t) : (dropColumn c).onRows r = r := by
  rw [onRows, Table.mapRows_eq_self h]

theorem onRowsAll_eq_self {r : Rows} {xs : List Ddl} (h : ∀ x ∈ xs, x.onRows r = r) :
    onRowsAll r xs = r := by
  induction xs with
  | nil => rfl
  | cons x rest ih =>
      rw [onRowsAll, List.foldl_cons, h x List.mem_cons_self]
      exact ih fun y hy => h y (List.mem_cons_of_mem x hy)

end Ddl

/-! ## Joins of the scripts -/

/-- A task in the workspace its owner is mapped to. -/
def inOwnersWorkspace (t : TaskRow) (m : Mapping) : Bool :=
  (Truth.and (Truth.eq (some m.userId) t.ownerId)
    (Truth.eq (some m.workspaceId) t.workspaceId)).holds

/-- The membership of a mapped user in the workspace. -/
def ownMembership (m : Mapping) (x : WorkspaceMember) : Bool :=
  x.workspaceId = m.workspaceId && x.userId = m.userId

theorem inOwnersWorkspace_iff {t : TaskRow} {m : Mapping} :
    inOwnersWorkspace t m = true ↔
      t.ownerId = some m.userId ∧ t.workspaceId = some m.workspaceId := by
  simp only [inOwnersWorkspace, Truth.holds_and, Bool.and_eq_true, Truth.holds_eq,
    Option.some.injEq, exists_eq_left']

theorem ownMembership_iff {m : Mapping} {x : WorkspaceMember} :
    ownMembership m x = true ↔ x.workspaceId = m.workspaceId ∧ x.userId = m.userId := by
  simp only [ownMembership, Bool.and_eq_true, decide_eq_true_eq]

/-! ## Statements that change the rows -/

namespace Store

/-- `INSERT INTO workspaces`, and its `lastrowid`. -/
def insertWorkspace (s : Store) (name : String) (createdById : Id) (createdAt : Timestamp) :
    Result (Id × Store) :=
  let w := s.rows.nextWorkspaceId
  accept (name.length ≤ 100 ∧ trimmedLengthOk name = true ∧
      (s.rows.user? createdById).isSome = true ∧ s.rows.workspace? w = none)
    (w, { s with rows := { s.rows with
      workspaces := s.rows.workspaces.put ⟨w, name, createdById, createdAt, createdAt⟩
      nextWorkspaceId := w + 1 } })

def insertMember (s : Store) (m : WorkspaceMember) : Result Store :=
  accept (s.rows.member? m.workspaceId m.userId = none ∧
      (s.rows.workspace? m.workspaceId).isSome = true ∧ (s.rows.user? m.userId).isSome = true)
    { s with rows := { s.rows with members := s.rows.members.put m } }

def insertMapping (s : Store) (m : Mapping) : Result Store :=
  accept (s.schema.map.isSome = true ∧ s.rows.mapping? m.userId = none ∧
      (∀ m' ∈ s.rows.map.rows, m'.workspaceId ≠ m.workspaceId) ∧
      (s.rows.user? m.userId).isSome = true ∧ (s.rows.workspace? m.workspaceId).isSome = true)
    { s with rows := { s.rows with map := s.rows.map.put m } }

/-- `UPDATE tasks SET ... WHERE ...`. -/
def updateTasks (s : Store) (p : TaskRow → Bool) (f : TaskRow → TaskRow)
    (hf : ∀ t, (f t).id = t.id) : Result Store :=
  accept (∀ t ∈ s.rows.tasks.rows, p t = true → s.schema.allows s.rows (f t) = true)
    { s with rows := { s.rows with tasks := s.rows.tasks.updateWhere p f hf } }

/-- `DELETE FROM task_collaboration_user_workspace_map`. -/
def deleteMappings (s : Store) : Result Store :=
  accept (s.schema.map.isSome = true) { s with rows := { s.rows with map := ∅ } }

def deleteMembers (s : Store) (p : WorkspaceMember → Bool) : Result Store :=
  .ok { s with rows := { s.rows with members := s.rows.members.deleteWhere p } }

/-- Whether a row of another table keeps a workspace from being deleted. -/
def refersTo (s : Store) (w : Id) : Bool :=
  (s.rows.members.rows.any fun m => m.workspaceId = w) ||
    (s.rows.map.rows.any fun m => m.workspaceId = w) ||
    s.schema.foreignKeys.any fun fk => fk.referred = .workspaces &&
      s.rows.tasks.rows.any fun t => t.reference fk.constrained = some w

def deleteWorkspace (s : Store) (w : Id) : Result Store :=
  accept (s.refersTo w = false)
    { s with rows := { s.rows with workspaces := s.rows.workspaces.erase w } }

/-- The rows satisfy the schema. -/
structure Consistent (s : Store) : Prop where
  /-- A column the schema does not have is NULL. -/
  absent : ∀ t ∈ s.rows.tasks.rows, ∀ c, s.schema.hasColumn c = false → t.clear c = t
  tasks : ∀ t ∈ s.rows.tasks.rows, s.schema.allows s.rows t = true
  /-- `VARCHAR(50)`. -/
  users : ∀ u ∈ s.rows.users.rows, u.username.length ≤ 50
  workspaces : ∀ w ∈ s.rows.workspaces.rows,
    (s.rows.user? w.createdById).isSome = true ∧ w.id < s.rows.nextWorkspaceId
  members : ∀ m ∈ s.rows.members.rows,
    (s.rows.workspace? m.workspaceId).isSome = true ∧ (s.rows.user? m.userId).isSome = true
  map : ∀ m ∈ s.rows.map.rows, s.schema.map.isSome = true ∧
    (s.rows.user? m.userId).isSome = true ∧ (s.rows.workspace? m.workspaceId).isSome = true ∧
    ∀ m' ∈ s.rows.map.rows, m'.workspaceId = m.workspaceId → m' = m

end Store
end Migration
end TaskPlatform
