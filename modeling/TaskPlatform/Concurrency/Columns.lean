import TaskPlatform.Concurrency.EditStages
import TaskPlatform.Integrity.Accepted
import TaskPlatform.Transaction.Projection

/-!
# The two groups of columns of a task

General edits change the content of a task, the workflow requests its status and its
assignee.  Two databases that agree on one group answer the calls of the requests of that
group alike, whatever the other group has come to.
-/

namespace TaskPlatform

open Transaction Relational Database

inductive Columns where
  | content
  | workflow
  deriving DecidableEq

def Columns.other : Columns → Columns
  | content => workflow
  | workflow => content

namespace Task

/-- A task with the columns of one group, and those that no request changes. -/
def only : Columns → Task → Task
  | .content, t => { t with assigneeId := none, status := .todo, updatedAt := 0 }
  | .workflow, t => { t with title := "", description := none, priority := 0, updatedAt := 0 }

variable (g : Columns) (t : Task)

@[simp] theorem id_only : (t.only g).id = t.id := by cases g <;> rfl

@[simp] theorem workspaceId_only : (t.only g).workspaceId = t.workspaceId := by cases g <;> rfl

@[simp] theorem creatorId_only : (t.only g).creatorId = t.creatorId := by cases g <;> rfl

theorem key_only : Keyed.key (t.only g) = Keyed.key t := id_only g t

end Task

/-- Two tasks agree on the columns of a group. -/
def SameTask (g : Columns) (t t' : Task) : Prop := t.only g = t'.only g

namespace SameTask

variable {g : Columns} {t t' : Task}

theorem column {α : Type} (h : SameTask g t t') (f : Task → α) :
    f (t.only g) = f (t'.only g) := congrArg f h

theorem id (h : SameTask g t t') : t.id = t'.id := by
  have heq := h.column Task.id
  rwa [Task.id_only, Task.id_only] at heq

theorem workspaceId (h : SameTask g t t') : t.workspaceId = t'.workspaceId := by
  have heq := h.column Task.workspaceId
  rwa [Task.workspaceId_only, Task.workspaceId_only] at heq

theorem creatorId (h : SameTask g t t') : t.creatorId = t'.creatorId := by
  have heq := h.column Task.creatorId
  rwa [Task.creatorId_only, Task.creatorId_only] at heq

theorem status (h : SameTask .workflow t t') : t.status = t'.status := h.column Task.status

theorem assigneeId (h : SameTask .workflow t t') : t.assigneeId = t'.assigneeId :=
  h.column Task.assigneeId

theorem title (h : SameTask .content t t') : t.title = t'.title := h.column Task.title

theorem description (h : SameTask .content t t') : t.description = t'.description :=
  h.column Task.description

theorem priority (h : SameTask .content t t') : t.priority = t'.priority :=
  h.column Task.priority

end SameTask

/-- The assigned attributes are columns of the group. -/
def TaskPatch.Within (p : TaskPatch) : Columns → Prop
  | .content => p.assigneeId = none ∧ p.status = none
  | .workflow => p.title = none ∧ p.description = none ∧ p.priority = none

section Patches

variable {g : Columns} {p : TaskPatch} {t t' : Task}

theorem TaskPatch.Within.dirty (hp : p.Within g) (h : SameTask g t t') :
    p.dirty t = p.dirty t' := by
  cases g with
  | content =>
      obtain ⟨hassignee, hstatus⟩ := hp
      simp only [TaskPatch.dirty, hassignee, hstatus, h.title, h.description, h.priority]
      rfl
  | workflow =>
      obtain ⟨htitle, hdescription, hpriority⟩ := hp
      simp only [TaskPatch.dirty, htitle, hdescription, hpriority, h.status, h.assigneeId]
      rfl

theorem SameTask.apply (h : SameTask g t t') (p : TaskPatch) (now now' : Timestamp) :
    SameTask g { p.apply t with updatedAt := now } { p.apply t' with updatedAt := now' } := by
  cases g with
  | content =>
      simp only [SameTask, Task.only, Task.mk.injEq] at h
      simp only [SameTask, Task.only, TaskPatch.apply, h]
  | workflow =>
      simp only [SameTask, Task.only, Task.mk.injEq] at h
      simp only [SameTask, Task.only, TaskPatch.apply, h]

theorem SameTask.cleared (h : SameTask g t t') (now : Timestamp) :
    SameTask g { t with assigneeId := none, updatedAt := now }
      { t' with assigneeId := none, updatedAt := now } := by
  cases g with
  | content =>
      simp only [SameTask, Task.only, Task.mk.injEq] at h
      simp only [SameTask, Task.only, h]
  | workflow =>
      simp only [SameTask, Task.only, Task.mk.injEq] at h
      simp only [SameTask, Task.only, h]

end Patches

/-! ## Databases -/

theorem rel_of_map_eq {α β : Type} {f : α → β} {o o' : Option α} (h : o.map f = o'.map f) :
    Option.Rel (fun a b => f a = f b) o o' := by
  cases o with
  | none =>
      cases o' with
      | none => exact .none
      | some b => cases h
  | some a =>
      cases o' with
      | none => cases h
      | some b => exact .some (Option.some.inj h)

theorem map_eq_of_rel {α β : Type} {R : α → α → Prop} {f : α → β} {o o' : Option α}
    (h : Option.Rel R o o') (hf : ∀ a b, R a b → f a = f b) : o.map f = o'.map f := by
  cases h with
  | none => rfl
  | some hab => exact congrArg some (hf _ _ hab)

/-- The second database has the columns of the group as the first has them, and at least
its memberships. -/
structure SameColumns (g : Columns) (d d' : Database) : Prop where
  users : d.users = d'.users
  workspaces : d.workspaces = d'.workspaces
  tasks : d.tasks.mapRows (Task.only g) (Task.key_only g) =
    d'.tasks.mapRows (Task.only g) (Task.key_only g)
  member : ∀ w u m, d.member? w u = some m → d'.member? w u = some m
  members : g = .workflow → d.members = d'.members

/-- A write with the columns of a group. -/
def Write.only (g : Columns) : Write → Write
  | .putTask t => .putTask (t.only g)
  | w => w

theorem Write.keys_only [Collation] (g : Columns) (w : Write) : (w.only g).keys = w.keys := by
  cases w with
  | putTask t => exact congrArg (fun id => [RowKey.task id]) (Task.id_only g t)
  | _ => rfl

theorem Write.eq_or_sameTask {g : Columns} {w w' : Write} (h : w.only g = w'.only g) :
    w = w' ∨ ∃ t t', w = .putTask t ∧ w' = .putTask t' ∧ SameTask g t t' := by
  cases w with
  | putTask t =>
      cases w' with
      | putTask t' => exact Or.inr ⟨t, t', rfl, rfl, Write.putTask.inj h⟩
      | _ => cases h
  | _ =>
      cases w' with
      | putTask t' => cases h
      | _ => exact Or.inl h

section Databases

variable {g : Columns} {d d' : Database}

namespace SameColumns

theorem refl (g : Columns) (d : Database) : SameColumns g d d :=
  ⟨rfl, rfl, rfl, fun _ _ _ h => h, fun _ => rfl⟩

theorem trans {d'' : Database} (h : SameColumns g d d') (h' : SameColumns g d' d'') :
    SameColumns g d d'' where
  users := h.users.trans h'.users
  workspaces := h.workspaces.trans h'.workspaces
  tasks := h.tasks.trans h'.tasks
  member w u m hm := h'.member w u m (h.member w u m hm)
  members hg := (h.members hg).trans (h'.members hg)

theorem of_sameRows (h : SameRows d d') : SameColumns g d d' where
  users := h.users
  workspaces := h.workspaces
  tasks := by rw [h.tasks]
  member w u _ hm := (h.member? w u).symm.trans hm
  members _ := h.members

theorem task? (h : SameColumns g d d') (t : Id) :
    Option.Rel (SameTask g) (d.task? t) (d'.task? t) := by
  refine rel_of_map_eq ?_
  have hfind := congrArg (Table.find? · t) h.tasks
  rwa [Table.find?_mapRows, Table.find?_mapRows] at hfind

theorem taskIn? (h : SameColumns g d d') (t w : Id) :
    Option.Rel (SameTask g) (d.taskIn? t w) (d'.taskIn? t w) := by
  have hrows := h.task? t
  unfold Database.taskIn?
  generalize d.task? t = o at hrows
  generalize d'.task? t = o' at hrows
  cases hrows with
  | none => exact .none
  | @some row row' hrow =>
      rw [Option.filter_some, Option.filter_some, hrow.workspaceId]
      split
      · exact .some hrow
      · exact .none

theorem member? (h : SameColumns .workflow d d') (w u : Id) : d.member? w u = d'.member? w u :=
  congrArg (Table.find? · (memberKey w u)) (h.members rfl)

/-- The ids of the tasks of a workspace. -/
theorem scan (h : SameColumns g d d') (w : Id) :
    (d.tasks.rows.filter fun t => t.workspaceId = w).map Task.id =
      (d'.tasks.rows.filter fun t => t.workspaceId = w).map Task.id := by
  have hrows : d.tasks.rows.map (Task.only g) = d'.tasks.rows.map (Task.only g) :=
    congrArg Table.rows h.tasks
  have honly : ∀ rows : List Task, (rows.filter fun t => t.workspaceId = w).map Task.id =
      ((rows.map (Task.only g)).filter fun t => t.workspaceId = w).map Task.id := by
    intro rows
    induction rows with
    | nil => rfl
    | cons t rest ih =>
        by_cases ht : t.workspaceId = w
        · simp only [List.map_cons, List.filter_cons, Task.workspaceId_only, ht, decide_true,
            if_true, Task.id_only, ih]
        · simp only [List.map_cons, List.filter_cons, Task.workspaceId_only, ht, decide_false,
            Bool.false_eq_true, if_false, ih]
  rw [honly d.tasks.rows, honly d'.tasks.rows, hrows]

theorem checkTask (h : SameColumns g d d') (t : Task) : d.checkTask t = d'.checkTask t := by
  have huser : d.user? = d'.user? := funext fun u => congrArg (Table.find? · u) h.users
  have hworkspace : d.workspace? = d'.workspace? :=
    funext fun w => congrArg (Table.find? · w) h.workspaces
  simp only [Database.checkTask, huser, hworkspace]

theorem putTask (h : SameColumns g d d') {t t' : Task} (ht : SameTask g t t') :
    SameColumns g (d.apply (.putTask t)) (d'.apply (.putTask t')) where
  users := h.users
  workspaces := h.workspaces
  tasks := by
    show (d.tasks.put t).mapRows (Task.only g) _ = (d'.tasks.put t').mapRows (Task.only g) _
    rw [Table.mapRows_put, Table.mapRows_put, h.tasks, show t.only g = t'.only g from ht]
  member := h.member
  members := h.members

/-- A task that is put where it agrees with the old one. -/
theorem put_left {k : Id} {row t : Task} (hrow : d.task? k = some row) (ht : SameTask g t row) :
    SameColumns g (d.apply (.putTask t)) d := by
  have hid : t.id = k := ht.id.trans (id_of_task? hrow)
  refine { SameColumns.refl g d with tasks := ?_ }
  show (d.tasks.put t).mapRows (Task.only g) _ = d.tasks.mapRows (Task.only g) _
  refine Table.ext_find? fun k' => ?_
  rw [Table.find?_mapRows, Table.find?_mapRows, Table.find?_put, key_task, hid]
  split
  · rename_i hk
    have hfound : d.tasks.find? k' = some row := hk ▸ hrow
    rw [hfound, Option.map_some, Option.map_some, show t.only g = row.only g from ht]
  · rfl

/-- The same write to both. -/
theorem same (h : SameColumns g d d') (w : Write) : SameColumns g (d.apply w) (d'.apply w) := by
  cases w with
  | putUser u => exact { h with users := congrArg (Table.put · u) h.users }
  | putWorkspace w => exact { h with workspaces := congrArg (Table.put · w) h.workspaces }
  | putMember m =>
      refine { h with member := fun w u row hrow => ?_, members := fun hg => ?_ }
      · rw [member?_putMember] at hrow ⊢
        split at hrow
        · rw [if_pos ‹_›]
          exact hrow
        · rw [if_neg ‹_›]
          exact h.member w u row hrow
      · exact congrArg (Table.put · m) (h.members hg)
  | deleteMember w' u' =>
      refine { h with member := fun w u row hrow => ?_, members := fun hg => ?_ }
      · rw [member?_deleteMember] at hrow ⊢
        split at hrow
        · cases hrow
        · rw [if_neg ‹_›]
          exact h.member w u row hrow
      · exact congrArg (Table.erase · (memberKey w' u')) (h.members hg)
  | putTask t => exact h.putTask rfl
  | deleteTask t =>
      refine { h with tasks := ?_ }
      show (d.tasks.erase t).mapRows (Task.only g) _ = (d'.tasks.erase t).mapRows (Task.only g) _
      rw [Table.mapRows_erase, Table.mapRows_erase, h.tasks]

theorem apply (h : SameColumns g d d') {w w' : Write} (hw : w.only g = w'.only g) :
    SameColumns g (d.apply w) (d'.apply w') := by
  rcases Write.eq_or_sameTask hw with rfl | ⟨t, t', rfl, rfl, ht⟩
  · exact h.same w
  · exact h.putTask ht

theorem applyAll (h : SameColumns g d d') {ws ws' : List Write}
    (hws : ws.map (Write.only g) = ws'.map (Write.only g)) :
    SameColumns g (d.applyAll ws) (d'.applyAll ws') := by
  induction ws generalizing d d' ws' with
  | nil =>
      cases ws' with
      | nil => exact h
      | cons w' rest' => cases hws
  | cons w rest ih =>
      cases ws' with
      | nil => cases hws
      | cons w' rest' =>
          obtain ⟨hw, hrest⟩ := List.cons.inj hws
          exact ih (h.apply hw) hrest

end SameColumns

end Databases

end TaskPlatform
