import Mathlib.Logic.Relation
import TaskPlatform.Atomicity.Services
import TaskPlatform.Concurrency.Published
import TaskPlatform.Orm.Posts

/-!
# The identity of a task

A task keeps its workspace, its creator and its time of creation, and its id is never
given to another task: ids come from a counter that only grows.  That holds of the
committed rows, of the rows a transaction has written and of the snapshots.
-/

namespace TaskPlatform

open Transaction Database Relational

/-- The columns of a task that never change. -/
structure TaskIdentity where
  workspaceId : Id
  creatorId : Id
  createdAt : Timestamp
  deriving DecidableEq, Repr

def Task.identity (t : Task) : TaskIdentity := ⟨t.workspaceId, t.creatorId, t.createdAt⟩

/-- The ids below the counter are used as `f` says. -/
def Named (f : Id → TaskIdentity) (next : Id) (t : Task) : Prop :=
  t.id < next ∧ t.identity = f t.id

def RowsNamed (f : Id → TaskIdentity) (next : Id) (d : Database) : Prop :=
  ∀ t row, d.task? t = some row → Named f next row

/-- What a session has written and what it reads from. -/
structure Session.RowsNamed (f : Id → TaskIdentity) (next : Id) (l : Session) : Prop where
  writes : ∀ row, .putTask row ∈ l.writes → Named f next row
  view : ∀ snap, l.readView = some snap → TaskPlatform.RowsNamed f next snap

/-- The naming `f'` gives names to more ids. -/
structure Renames (f : Id → TaskIdentity) (next : Id) (f' : Id → TaskIdentity) (next' : Id) :
    Prop where
  le : next ≤ next'
  agrees : ∀ t, t < next → f' t = f t

section Named

variable {f f' : Id → TaskIdentity} {next next' : Id} {d : Database} {l : Session}

theorem Renames.refl (f : Id → TaskIdentity) (next : Id) : Renames f next f next :=
  ⟨le_refl next, fun _ _ => rfl⟩

theorem Renames.trans {f'' : Id → TaskIdentity} {next'' : Id} (h : Renames f next f' next')
    (h' : Renames f' next' f'' next'') : Renames f next f'' next'' :=
  ⟨h.le.trans h'.le, fun t ht => (h'.agrees t (lt_of_lt_of_le ht h.le)).trans (h.agrees t ht)⟩

theorem Named.renamed {t : Task} (h : Named f next t) (hr : Renames f next f' next') :
    Named f' next' t :=
  ⟨lt_of_lt_of_le h.1 hr.le, h.2.trans (hr.agrees _ h.1).symm⟩

theorem RowsNamed.renamed (h : RowsNamed f next d) (hr : Renames f next f' next') :
    RowsNamed f' next' d :=
  fun t row hrow => (h t row hrow).renamed hr

theorem Session.RowsNamed.renamed (h : l.RowsNamed f next) (hr : Renames f next f' next') :
    l.RowsNamed f' next' :=
  ⟨fun row hrow => (h.writes row hrow).renamed hr, fun snap hs => (h.view snap hs).renamed hr⟩

theorem RowsNamed.of_sameRows {d' : Database} (h : RowsNamed f next d) (hd : SameRows d d') :
    RowsNamed f next d' :=
  fun t row hrow => h t row ((hd.task? t).trans hrow)

theorem RowsNamed.applyAll {ws : List Write} (h : RowsNamed f next d)
    (hws : ∀ row, .putTask row ∈ ws → Named f next row) : RowsNamed f next (d.applyAll ws) := by
  induction ws generalizing d with
  | nil => exact h
  | cons w ws ih =>
      refine ih (fun t row hrow => ?_) fun row hrow => hws row (List.mem_cons_of_mem w hrow)
      cases w with
      | putTask put =>
          rw [task?_putTask] at hrow
          split at hrow
          · rw [Option.some.injEq] at hrow
            rw [← hrow]
            exact hws put List.mem_cons_self
          · exact h t row hrow
      | deleteTask t' =>
          rw [task?_deleteTask] at hrow
          split at hrow
          · cases hrow
          · exact h t row hrow
      | _ => exact h t row hrow

end Named

/-! ## What a call writes -/

namespace Session

/-- The writes of a session after a call, and the counter. -/
inductive Writes (l : Session) (d : Database) (l' : Session) (d' : Database) : Prop where
  | kept (h : l'.writes = l.writes) (hnext : d'.nextTaskId = d.nextTaskId)
  | ended (h : l'.writes = []) (hnext : d'.nextTaskId = d.nextTaskId)
  | other (w : Write) (h : l'.writes = l.writes ++ [w]) (hw : ∀ row, w ≠ .putTask row)
      (hnext : d'.nextTaskId = d.nextTaskId)
  | task (row old : Task) (h : l'.writes = l.writes ++ [.putTask row])
      (hold : (l.current d).task? row.id = some old) (hid : row.identity = old.identity)
      (hnext : d'.nextTaskId = d.nextTaskId)
  | newTask (row : Task) (h : l'.writes = l.writes ++ [.putTask row] ∨ l'.writes = l.writes)
      (hid : row.id = d.nextTaskId) (hnext : d'.nextTaskId = d.nextTaskId + 1)

variable [Collation] {env : Env} {l : Session} {d : Database}

theorem writes_exec (c : Call) : Writes l d (exec env c l d).2.1 (exec env c l d).2.2 := by
  have hpost : Posts l d (exec env c l d).2.1 (exec env c l d).2.2 := posts_exec c
  generalize exec env c l d = x at hpost ⊢
  obtain ⟨r, l', d'⟩ := x
  cases hpost with
  | kept hl hd => exact .kept hl (congrArg nextTaskId hd)
  | dropped hl hd => exact .ended hl (congrArg nextTaskId hd)
  | committed hl hd =>
      exact .ended hl ((congrArg nextTaskId hd).trans (next_applyAll d l.writes).2.2)
  | newUser row _ hl hd =>
      have hnext : d'.nextTaskId = _ := congrArg nextTaskId hd
      rcases hl with ⟨_, hl⟩ | hl
      · exact .other _ hl (fun _ => Write.noConfusion) hnext
      · exact .kept hl hnext
  | newWorkspace row _ hl hd =>
      have hnext : d'.nextTaskId = _ := congrArg nextTaskId hd
      rcases hl with ⟨_, hl⟩ | hl
      · exact .other _ hl (fun _ => Write.noConfusion) hnext
      · exact .kept hl hnext
  | newMember row hl hd =>
      rcases hl with ⟨_, hl⟩ | hl
      · exact .other _ hl (fun _ => Write.noConfusion) (congrArg nextTaskId hd)
      · exact .kept hl (congrArg nextTaskId hd)
  | newTask row hid hl hd =>
      exact .newTask row (hl.imp_left And.right) hid (congrArg nextTaskId hd)
  | role old role now _ hl hd =>
      exact .other _ hl (fun _ => Write.noConfusion) (congrArg nextTaskId hd)
  | changed old patch now hold _ hl hd =>
      exact .task _ old hl hold rfl (congrArg nextTaskId hd)
  | cleared old now hold hl hd => exact .task _ old hl hold rfl (congrArg nextTaskId hd)
  | memberGone w u hl hd =>
      exact .other _ hl (fun _ => Write.noConfusion) (congrArg nextTaskId hd)
  | taskGone t hl hd => exact .other _ hl (fun _ => Write.noConfusion) (congrArg nextTaskId hd)

end Session

/-! ## Runs -/

section Runs

theorem named_task {f : Id → TaskIdentity} {next : Id} {l : Session} {d : Database}
    (hd : RowsNamed f next d) (hl : l.RowsNamed f next) {t : Id} {row : Task}
    (hrow : (l.current d).task? t = some row) : Named f next row :=
  hd.applyAll hl.writes t row hrow

variable [Collation] {f : Id → TaskIdentity} {env : Env} {c : Call} {l : Session} {d : Database}

theorem view_exec (hd : RowsNamed f d.nextTaskId d) (hl : l.RowsNamed f d.nextTaskId)
    {snap : Database} (hsnap : (Session.exec env c l d).2.1.readView = some snap) :
    RowsNamed f d.nextTaskId snap := by
  rcases c.isWork_or with hc | rfl | rfl | rfl
  · rcases (Session.extends_exec hc).readView with hview | hview
    · exact hl.view snap (hview.symm.trans hsnap)
    · rw [hview, Option.some.injEq] at hsnap
      rw [← hsnap]
      cases hopen : l.readView with
      | none => exact hd
      | some old => exact hl.view old hopen
  · simp only [Session.exec, Session.statement] at hsnap
    split at hsnap
    · exact hl.view snap hsnap
    · cases hsnap
  · cases hsnap
  · cases hsnap

/-- One call, with a name for the task it inserts. -/
theorem rowsNamed_exec (env : Env) (c : Call) (hd : RowsNamed f d.nextTaskId d)
    (hl : l.RowsNamed f d.nextTaskId) :
    ∃ f', Renames f d.nextTaskId f' (Session.exec env c l d).2.2.nextTaskId ∧
      RowsNamed f' (Session.exec env c l d).2.2.nextTaskId (Session.exec env c l d).2.2 ∧
      (Session.exec env c l d).2.1.RowsNamed f' (Session.exec env c l d).2.2.nextTaskId := by
  have hwrites : Session.Writes l d (Session.exec env c l d).2.1 (Session.exec env c l d).2.2 :=
    Session.writes_exec c
  have hview : ∀ snap, (Session.exec env c l d).2.1.readView = some snap →
      RowsNamed f d.nextTaskId snap := fun _ => view_exec hd hl
  have hrows : RowsNamed f d.nextTaskId (Session.exec env c l d).2.2 := by
    by_cases hc : c = .commit
    · subst hc
      simp only [Session.exec, Session.statement]
      split
      · exact hd
      · exact hd.applyAll hl.writes
    · exact hd.of_sameRows (Session.exec_sameRows hc)
  generalize Session.exec env c l d = x at hwrites hrows hview ⊢
  obtain ⟨r, l', d'⟩ := x
  -- a call that inserts no task needs no new name
  have hsame : d'.nextTaskId = d.nextTaskId →
      (∀ row, .putTask row ∈ l'.writes → Named f d.nextTaskId row) →
      ∃ f', Renames f d.nextTaskId f' d'.nextTaskId ∧ RowsNamed f' d'.nextTaskId d' ∧
        l'.RowsNamed f' d'.nextTaskId := by
    intro hnext hnew
    rw [hnext]
    exact ⟨f, .refl _ _, hrows, hnew, hview⟩
  cases hwrites with
  | kept h hnext => exact hsame hnext fun row hrow => hl.writes row (h ▸ hrow)
  | ended h hnext =>
      refine hsame hnext fun row hrow => ?_
      have hrow : Write.putTask row ∈ l'.writes := hrow
      rw [show l'.writes = [] from h] at hrow
      cases hrow
  | other w h hw hnext =>
      refine hsame hnext fun row hrow => ?_
      rw [show l'.writes = l.writes ++ [w] from h] at hrow
      rcases List.mem_append.mp hrow with hrow | hrow
      · exact hl.writes row hrow
      · exact absurd (List.mem_singleton.mp hrow).symm (hw row)
  | task put old h hold hid hnext =>
      refine hsame hnext fun row hrow => ?_
      rw [show l'.writes = l.writes ++ [.putTask put] from h] at hrow
      rcases List.mem_append.mp hrow with hrow | hrow
      · exact hl.writes row hrow
      · cases List.mem_singleton.mp hrow
        have hnamed := named_task hd hl hold
        rw [Named, id_of_task? hold] at hnamed
        exact ⟨hnamed.1, hid.trans hnamed.2⟩
  | newTask put h hid hnext =>
      have hrenames : Renames f d.nextTaskId
          (Function.update f d.nextTaskId put.identity) (d.nextTaskId + 1) :=
        ⟨le_of_lt (Int.lt_succ _), fun t ht => Function.update_of_ne (ne_of_lt ht) _ _⟩
      have hput : Named (Function.update f d.nextTaskId put.identity) (d.nextTaskId + 1) put := by
        rw [Named, hid, Function.update_self]
        exact ⟨Int.lt_succ _, rfl⟩
      rw [show d'.nextTaskId = d.nextTaskId + 1 from hnext]
      refine ⟨_, hrenames, hrows.renamed hrenames, fun row hrow => ?_,
        fun snap hs => (hview snap hs).renamed hrenames⟩
      rcases h with h | h
      · rw [show l'.writes = l.writes ++ [.putTask put] from h] at hrow
        rcases List.mem_append.mp hrow with hrow | hrow
        · exact (hl.writes row hrow).renamed hrenames
        · cases List.mem_singleton.mp hrow
          exact hput
      · rw [show l'.writes = l.writes from h] at hrow
        exact (hl.writes row hrow).renamed hrenames

variable {σ σ' : System Request Call Call.Res Response Session Database}

/-- The rows of the database and of every session. -/
structure SystemNamed (f : Id → TaskIdentity)
    (σ : System Request Call Call.Res Response Session Database) : Prop where
  rows : RowsNamed f σ.shared.nextTaskId σ.shared
  sessions : ∀ i p, σ.procs i = some p → p.loc.RowsNamed f σ.shared.nextTaskId

theorem systemNamed_step (h : SystemNamed f σ) (hs : SystemStep σ σ') :
    ∃ f', Renames f σ.shared.nextTaskId f' σ'.shared.nextTaskId ∧ SystemNamed f' σ' := by
  cases hs with
  | spawn i request _ _ =>
      refine ⟨f, .refl _ _, h.rows, System.forall_update ⟨nofun, nofun⟩ fun j p _ hp => ?_⟩
      exact h.sessions j p hp
  | @call _ i request l l' hc _ =>
      cases hc with
      | @call _ o k env hp hfree =>
          obtain ⟨f', hrenames, hrows, hl⟩ := rowsNamed_exec env o h.rows (h.sessions _ _ hp)
          refine ⟨f', hrenames, hrows, System.forall_update hl fun j q _ hq => ?_⟩
          exact (h.sessions j q hq).renamed hrenames

/-- The counter of tasks is above every id in use. -/
def Counted (d : Database) : Prop := ∀ t row, d.task? t = some row → t < d.nextTaskId

omit [Collation] in
theorem systemNamed_start (hd : Counted d) :
    ∃ f, SystemNamed f
      (System.start d : System Request Call Call.Res Response Session Database) := by
  refine ⟨fun t => (d.task? t).elim ⟨0, 0, 0⟩ Task.identity, ?_, fun i p hp => by cases hp⟩
  intro t row hrow
  have hrow : d.task? t = some row := hrow
  have hid : row.id = t := id_of_task? hrow
  constructor
  · rw [hid]
    exact hd t row hrow
  · show row.identity = (d.task? row.id).elim _ Task.identity
    rw [hid, hrow]
    rfl

theorem systemNamed_of_reaches {d₀ : Database} (hd : Counted d₀) (hr : Reaches d₀ σ) :
    ∃ f, SystemNamed f σ := by
  induction hr with
  | start => exact systemNamed_start hd
  | step _ hs ih =>
      obtain ⟨f, hf⟩ := ih
      obtain ⟨f', _, hf'⟩ := systemNamed_step hf hs
      exact ⟨f', hf'⟩

theorem systemNamed_of_path (h : SystemNamed f σ)
    (hpath : Relation.ReflTransGen SystemStep σ σ') :
    ∃ f', Renames f σ.shared.nextTaskId f' σ'.shared.nextTaskId ∧ SystemNamed f' σ' := by
  induction hpath with
  | refl => exact ⟨f, .refl _ _, h⟩
  | tail _ hs ih =>
      obtain ⟨f₁, hrenames₁, h₁⟩ := ih
      obtain ⟨f₂, hrenames₂, h₂⟩ := systemNamed_step h₁ hs
      exact ⟨f₂, hrenames₁.trans hrenames₂, h₂⟩

/-- A task that is there in two states of a run is the same task. -/
theorem identity_eq (h : SystemNamed f σ) (hpath : Relation.ReflTransGen SystemStep σ σ')
    {t : Id} {row row' : Task} (hrow : σ.shared.task? t = some row)
    (hrow' : σ'.shared.task? t = some row') : row'.identity = row.identity := by
  obtain ⟨f', hrenames, h'⟩ := systemNamed_of_path h hpath
  obtain ⟨hlt, hname⟩ := h.rows t row hrow
  obtain ⟨_, hname'⟩ := h'.rows t row' hrow'
  rw [hname', hname, id_of_task? hrow', ← id_of_task? hrow, hrenames.agrees _ hlt]

end Runs

end TaskPlatform
