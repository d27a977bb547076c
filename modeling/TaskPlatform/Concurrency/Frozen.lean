import Mathlib.Logic.Relation
import TaskPlatform.Concurrency.Published

/-!
# Done tasks

The assignee of a task that is DONE does not change, and no commit changes the status
and the assignee of a task together.
-/

namespace TaskPlatform

open Transaction Database

theorem TaskUpdate.status_edited (body : TaskUpdate) (old row : Task) (now : Timestamp) :
    ({ (body.patch.dirty old).apply row with updatedAt := now } : Task).status = row.status :=
  body.status_patch old row

theorem TaskUpdate.assigneeId_edited (body : TaskUpdate) (old row : Task) (now : Timestamp) :
    ({ (body.patch.dirty old).apply row with updatedAt := now } : Task).assigneeId =
      row.assigneeId :=
  body.assigneeId_patch old row

theorem Changes.status_or_assigneeId {row row' : Task} (h : Changes row row') :
    row'.status = row.status ∨ row'.assigneeId = row.assigneeId := by
  cases h with
  | kept => exact Or.inl rfl
  | edited body old now => exact Or.inl (body.status_edited old row now)
  | moved status now => exact Or.inr rfl
  | assigned assigneeId now _ => exact Or.inl rfl

theorem Changes.assigneeId_of_done {row row' : Task} (h : Changes row row')
    (hrow : row.status = .done) : row'.assigneeId = row.assigneeId := by
  cases h with
  | kept => rfl
  | edited body old now => exact body.assigneeId_edited old row now
  | moved status now => rfl
  | assigned assigneeId now hnot => exact absurd hrow hnot

section Runs

variable [Collation] {d : Database}
  {σ σ' : System Request Call Call.Res Response Session Database}

/-- A step after which task `t` is DONE. -/
def StepsDone (t : Id) (σ σ' : System Request Call Call.Res Response Session Database) : Prop :=
  SystemStep σ σ' ∧ ∃ row, σ'.shared.task? t = some row ∧ row.status = .done

theorem assigneeId_while_done (hr : Reaches d σ) {t : Id} {row : Task}
    (hrow : σ.shared.task? t = some row) (hdone : row.status = .done)
    (hpath : Relation.ReflTransGen (StepsDone t) σ σ') :
    Reaches d σ' ∧ ∃ row', σ'.shared.task? t = some row' ∧ row'.status = .done ∧
      row'.assigneeId = row.assigneeId := by
  induction hpath with
  | refl => exact ⟨hr, row, hrow, hdone, rfl⟩
  | tail _ hs ih =>
      obtain ⟨hr₁, row₁, hrow₁, hdone₁, hassignee⟩ := ih
      obtain ⟨hstep, row₂, hrow₂, hdone₂⟩ := hs
      have hchange := changes_of_step hr₁ hstep hrow₁ hrow₂
      exact ⟨hr₁.step hstep, row₂, hrow₂, hdone₂,
        (hchange.assigneeId_of_done hdone₁).trans hassignee⟩

/-- In every interleaving no step changes both the status and the assignee of a task,
and as long as a task stays DONE it keeps its assignee. -/
theorem done_assignee_frozen (hr : Reaches d σ) (t : Id) (row : Task)
    (hrow : σ.shared.task? t = some row) :
    (∀ σ' row', SystemStep σ σ' → σ'.shared.task? t = some row' →
      row'.status = row.status ∨ row'.assigneeId = row.assigneeId) ∧
    (row.status = .done → ∀ σ', Relation.ReflTransGen (StepsDone t) σ σ' →
      ∃ row', σ'.shared.task? t = some row' ∧ row'.status = .done ∧
        row'.assigneeId = row.assigneeId) := by
  refine ⟨fun σ' row' hs hrow' => ?_, fun hdone σ' hpath => ?_⟩
  · exact (changes_of_step hr hs hrow hrow').status_or_assigneeId
  · exact (assigneeId_while_done hr hrow hdone hpath).2

end Runs

/-! ### The assignee of a DONE task is removed -/

def doneTask : Task :=
  { id := 1, title := "task", priority := 1, description := none, workspaceId := 1,
    creatorId := 1, assigneeId := some 2, status := .done, createdAt := 0, updatedAt := 0 }

def doneDatabase : Database :=
  { sampleDatabase with tasks := sampleDatabase.tasks.put doneTask }

def removeRequest : Request := .removeMember (some "owner") 1 2

/-- The removal with everything done but its commit. -/
def removeInProgress : Progress Call Call.Res Response Session Database :=
  (@Session.machine sampleCollation).advanceN (fun _ => sampleEnv) 10
    ⟨removeRequest.program, {}, doneDatabase⟩

/-- The database with the removal committed. -/
def removedDatabase : Database :=
  ((@Session.machine sampleCollation).advance sampleEnv removeInProgress).shared

theorem done_assignee_frozen_removal :
    removedDatabase.member? 1 2 = none ∧ ∃ row', removedDatabase.task? 1 = some row' ∧
      row'.status = .done ∧ row'.assigneeId = some 2 := by
  let _ := sampleCollation
  have hr : Reaches doneDatabase (System.solo 0 removeRequest removeInProgress) := by
    rw [removeInProgress]
    exact System.reachable_advanceN (fun _ _ _ _ => trivial) _ 10 (System.reachable_spawn trivial)
  have hcall : removeInProgress.prog.isCall = true := by decide +kernel
  have hstep : SystemStep (System.solo 0 removeRequest removeInProgress)
      (System.solo 0 removeRequest (Session.machine.advance sampleEnv removeInProgress)) :=
    .call (System.callStep_advance sampleEnv hcall) trivial
  have hrow : removeInProgress.shared.task? 1 = some doneTask := by decide +kernel
  have hdone : removedDatabase.task? 1 = some doneTask := by decide +kernel
  refine ⟨by decide +kernel, ?_⟩
  exact (done_assignee_frozen hr 1 doneTask hrow).2 rfl _
    (.single ⟨hstep, doneTask, hdone, rfl⟩)

end TaskPlatform
