import TaskPlatform.Concurrency.Access

/-!
# The task services under interference

Each service is walked through once, and at its commit what it has read and what
it has locked make up one of the cases of `Commits`.
-/

namespace TaskPlatform

open Transaction Database Relational

variable [Collation] {P : Protocol Request Session Database RowKey} {request : Request}
  {l l' : Session} {d d' : Database} {snap : Database}

section Tasks

variable (hS : Sound P) {subject : Option String} {w t : Id} {m : WorkspaceMember}

include hS

theorem createTask_safe {access : WorkspaceAccess} {body : TaskCreate}
    (hT : Tolerates P (.createTask subject w (some body)))
    (ha : Accessed P subject w access snap m l d) :
    Safe P (.createTask subject w (some body)) (createTask access body) (fun _ _ _ => True)
      l d := by
  refine safe_rollbackOnSqlError hT (safe_bind ?_)
  refine safe_insertTask hT fun d₁ d₂ row hd₁ hevolve hsame hrow hcheck => ?_
  rw [Session.current_eq ha.writes] at hcheck
  obtain ⟨hfree, hrefs⟩ := checkNewTask_ok hcheck
  obtain ⟨hworkspace, huser, _⟩ := checkTask_ok hrefs
  rw [hrow.1, ha.workspace] at hworkspace
  rw [hrow.2.1] at huser
  have hview : ReadView P snap l d₂ :=
    ⟨ha.readView.view, ha.readView.inv, P.evolve_trans (ha.meddles hd₁).readView.evolve hevolve⟩
  refine safe_refreshTask_commit hT (hview.session rfl) (Session.writes_write ha.writes _)
    fun d₃ hd₃ => ?_
  have hpersists : Persists d₁ d₃ := hsame.persists.trans (meddles_persists hS hd₃)
  have hfree₃ : d₃.task? row.id = none := by
    rw [meddles_task hS hd₃ (Session.holds_write _ (List.mem_singleton_self _)), ← hsame.task?]
    exact hfree
  exact .createTask ha.actor hfree₃ ⟨hrow.1.trans ha.workspace, hrow.2⟩
    (hpersists.workspace_isSome hworkspace) (hpersists.user_isSome huser)

theorem updateTask_safe {access : WorkspaceTaskAccess} {body : TaskUpdate}
    (hT : Tolerates P (.updateTask subject w t (some body)))
    (ha : TaskAccessed P subject w t access snap m l d) :
    Safe P (.updateTask subject w t (some body)) (updateTask access body) (fun _ _ _ => True)
      l d := by
  refine safe_bind (safe_membershipRole hT ha.toAccessed fun d₁ hd₁ => ?_)
  refine safe_bind (safe_raiseIf fun hrole => safe_rollbackOnSqlError hT ?_)
  have ha₁ := ha.meddles hd₁
  rw [ha.task]
  refine safe_saveTask hS hT ha₁.readView ha₁.writes ha₁.loaded fun d₂ _ row now _ _ hrow => ?_
  exact .updateTask ha.actor ha.row (Bool.of_not_eq_false hrole) hrow

theorem deleteTask_safe {access : WorkspaceTaskAccess}
    (hT : Tolerates P (.deleteTask subject w t))
    (ha : TaskAccessed P subject w t access snap m l d) :
    Safe P (.deleteTask subject w t) (deleteTask access) (fun _ _ _ => True) l d := by
  refine safe_bind (safe_membershipRole hT ha.toAccessed fun d₁ hd₁ => ?_)
  refine safe_bind (safe_raiseIf fun hrole => safe_rollbackOnSqlError hT (safe_bind ?_))
  have ha₁ := ha.meddles hd₁
  rw [ha.task]
  refine safe_deleteTask hT (fun d₂ row hd₂ hrow => ?_) fun d₂ hd₂ => ?_
  · rw [Session.current_eq ha₁.writes] at hrow
    refine safe_commitWrites hT ((ha₁.readView.meddles hd₂).session rfl)
      (Session.writes_write ha.writes _) fun d₃ hd₃ => ?_
    have hheld : d₃.task? t = some row :=
      (meddles_task hS hd₃ (Session.holds_write l (List.mem_singleton_self _))).trans hrow
    exact .deleteTask ha.actor ha.row (Bool.of_not_eq_false hrole) hheld
  · exact safe_commitNothing hT ha.writes

/-- Save a task that was locked before: the row that is changed is the one that was read. -/
theorem safe_saveLocked (hT : Tolerates P request) {row : Task} {patch : TaskPatch}
    (hview : ReadView P snap l d) (hwrites : l.writes = []) (hd : Meddles P l d d')
    (hrow : d'.taskIn? t w = some row)
    (h : ∀ d₂ held now, Meddles P ((l.keepTask row).lock (.task t)) d' d₂ →
      (∀ k, ((l.keepTask row).lock (.task t)).Holds k → held k) → d₂.taskIn? t w = some row →
      Commits P.rely snap held d₂ request
        [.putTask { (patch.dirty row).apply row with updatedAt := now }]) :
    Safe P request (saveTask row.id patch) (fun _ _ _ => True)
      ((l.keepTask row).lock (.task t)) d' := by
  obtain ⟨htask, hworkspace⟩ := taskIn?_eq_some.mp hrow
  have hid : row.id = t := id_of_task? htask
  have hloaded : ((l.keepTask row).lock (.task t)).tasks.find? t = some row := by
    refine (Table.find?_put l.tasks row t).trans ?_
    rw [key_task, hid, if_pos rfl]
  have hview' : ReadView P snap ((l.keepTask row).lock (.task t)) d' :=
    (hview.meddles hd).session rfl
  rw [hid]
  refine safe_saveTask hS hT hview' hwrites hloaded fun d₂ held row₂ now hd₂ hheld hrow₂ => ?_
  have hsame : d₂.task? t = some row :=
    (meddles_task hS hd₂ (Session.holds_lock _ _)).trans htask
  rw [hsame, Option.some.injEq] at hrow₂
  subst hrow₂
  exact h d₂ held now hd₂ hheld (taskIn?_eq_some.mpr ⟨hsame, hworkspace⟩)

theorem updateTaskStatus_safe {access : WorkspaceTaskAccess} {body : TaskStatusUpdate}
    (hT : Tolerates P (.updateTaskStatus subject w t (some body)))
    (ha : TaskAccessed P subject w t access snap m l d) :
    Safe P (.updateTaskStatus subject w t (some body)) (updateTaskStatus access body)
      (fun _ _ _ => True) l d := by
  refine safe_rollbackOnError hT (safe_bind ?_)
  rw [ha.workspace, ha.task]
  refine safe_lockMembershipRows hS hT _ ha.readView ha.writes fun rows l₁ d₁ hview₁ h₁ => ?_
  refine safe_bind (safe_orRaise fun own hown => safe_bind ?_)
  obtain ⟨hown₁, hheld₁⟩ := h₁.membershipOf hown
  refine safe_lockTask hT fun d₂ row hd₂ hrow => ?_
  have hwrites₁ : l₁.writes = [] := h₁.writes.trans ha.writes
  rw [Session.current_eq hwrites₁] at hrow
  have hown₂ : d₂.member? w access.workspaceAccess.currentUser.id = some own :=
    (meddles_member hS hd₂ hheld₁).trans hown₁
  cases hdecide : decideStatus own.role access.workspaceAccess.currentUser.id row body.status with
  | refuse e => exact safe_raise
  | keep => exact safe_keepTask hT hwrites₁
  | change =>
      refine safe_saveLocked hS hT hview₁ hwrites₁ hd₂ hrow fun d₃ held now hd₃ hheld₃ hrow₃ => ?_
      have hown₃ : d₃.member? w access.workspaceAccess.currentUser.id = some own :=
        (meddles_member hS hd₃ (Session.Holds.lock hheld₁ _)).trans hown₂
      rw [TaskPatch.apply_dirty_status (decideStatus_change hdecide).2.2]
      have hcommits : Commits P.rely snap held d₃ (.updateTaskStatus subject w t (some body))
          [.putTask { row with status := body.status, updatedAt := now }] :=
        .updateTaskStatus ha.actor hown₃ hrow₃ hdecide
      exact hcommits

theorem updateTaskAssignee_safe {access : WorkspaceTaskAccess} {body : TaskAssigneeUpdate}
    (hT : Tolerates P (.updateTaskAssignee subject w t (some body)))
    (ha : TaskAccessed P subject w t access snap m l d) :
    Safe P (.updateTaskAssignee subject w t (some body)) (updateTaskAssignee access body)
      (fun _ _ _ => True) l d := by
  refine safe_rollbackOnError hT (safe_bind ?_)
  refine safe_membershipRole hT ha.toAccessed fun d₀ hd₀ => ?_
  refine safe_bind (safe_raiseIf fun _ => safe_bind ?_)
  have ha₀ := ha.meddles hd₀
  rw [ha.workspace, ha.task]
  refine safe_lockMembershipRows hS hT _ ha₀.readView ha₀.writes fun rows l₁ d₁ hview₁ h₁ => ?_
  refine safe_bind (safe_orRaise fun own hown => safe_bind (safe_raiseIf fun _ => safe_bind ?_))
  refine safe_lockTask hT fun d₂ row hd₂ hrow => ?_
  have hwrites₁ : l₁.writes = [] := h₁.writes.trans ha₀.writes
  rw [Session.current_eq hwrites₁] at hrow
  cases hdecide : decideAssignee own.role access.workspaceAccess.currentUser.id row
      body.assigneeId rows with
  | refuse e => exact safe_raise
  | keep => exact safe_keepTask hT hwrites₁
  | change =>
      refine safe_saveLocked hS hT hview₁ hwrites₁ hd₂ hrow fun d₃ held now hd₃ hheld₃ hrow₃ => ?_
      -- every membership that was locked is still there
      have hlocked : ∀ a x, membershipOf rows a = some x →
          d₃.member? w a = some x ∧ held (.member w a) := by
        intro a x hx
        obtain ⟨hx₁, hheld⟩ := h₁.membershipOf hx
        have hheld₂ : ((l₁.keepTask row).lock (.task t)).Holds (.member w a) :=
          Session.Holds.lock hheld _
        refine ⟨?_, hheld₃ _ hheld₂⟩
        exact (meddles_member hS hd₃ hheld₂).trans ((meddles_member hS hd₂ hheld).trans hx₁)
      rw [TaskPatch.apply_dirty_assigneeId (decideAssignee_change hdecide).1]
      have hcommits : Commits P.rely snap held d₃ (.updateTaskAssignee subject w t (some body))
          [.putTask { row with assigneeId := body.assigneeId, updatedAt := now }] :=
        .updateTaskAssignee ha.actor (hlocked _ _ hown) hlocked hrow₃ hdecide
      exact hcommits

end Tasks

end TaskPlatform
