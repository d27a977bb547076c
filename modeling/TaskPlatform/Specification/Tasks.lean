import TaskPlatform.Specification.Rules

/-!
# Changes of tasks do what is specified
-/

namespace TaskPlatform

open Transaction Service Database Relational Platform

/-! ## Which memberships a decision looks at -/

/-- A decision on an assignee asks of the locked memberships whether the requested one is
among them. -/
theorem decideAssignee_of_found {role : MemberRole} {u : Id} {task : Task} {requested : Option Id}
    {rows rows' : List WorkspaceMember}
    (h : ∀ a ∈ requested, membershipOf rows a = membershipOf rows' a) :
    decideAssignee role u task requested rows = decideAssignee role u task requested rows' := by
  have hmissing : (∃ a ∈ requested, (membershipOf rows a).isNone) ↔
      ∃ a ∈ requested, (membershipOf rows' a).isNone := by
    constructor
    · rintro ⟨a, ha, hnone⟩
      exact ⟨a, ha, h a ha ▸ hnone⟩
    · rintro ⟨a, ha, hnone⟩
      exact ⟨a, ha, (h a ha).symm ▸ hnone⟩
  unfold decideAssignee
  simp only [hmissing]

theorem membershipOf_requested {d : Database} {w a : Id} {requested : Option Id}
    (ha : a ∈ requested) :
    membershipOf (requested.toList.filterMap (d.member? w)) a = d.member? w a := by
  rw [membershipOf_filterMap, if_pos]
  rw [Option.mem_def.mp ha]
  exact List.mem_singleton_self a

/-! ## New tasks -/

/-- The row of a new task. -/
def TaskCreate.row (data : TaskCreate) (w creatorId t : Id) (now : Timestamp) : Task :=
  { id := t, title := data.title, priority := data.priority, description := data.description
    workspaceId := w, creatorId := creatorId, assigneeId := none, status := .todo
    createdAt := now, updatedAt := now }

theorem TaskCreate.checkTask_row (data : TaskCreate) {d : Database} {w creatorId : Id}
    (hworkspace : (d.workspace? w).isSome) (hcreator : (d.user? creatorId).isSome) (t : Id)
    (now : Timestamp) : d.checkTask (data.row w creatorId t now) = .ok () := by
  refine checkTask_iff.mpr ⟨data.title_length.2, ?_,
    trimmedLengthOk_of_strip data.title_strip data.title_length, data.priority_range,
    hworkspace, hcreator, fun a ha => by cases ha⟩
  show (data.description.getD "").length ≤ 500
  cases hdescription : data.description with
  | none => exact Nat.zero_le 500
  | some s => exact data.description_length s hdescription

/-! ## The services -/

section Services

variable [Collation] {good : Env → Prop} {l : Session} {d : Database} {subject : Option String}
  {w t : Id} {m : WorkspaceMember} (hgood : ∀ env, good env → env.Faultless)
  (hsome : ∃ env, good env)

include hgood

/-- Attributes that are assigned, flushed, read again and committed. -/
theorem ends_savedTask {E : Exc → Database → Prop} (h : l.Mirrors d) {row : Task}
    {patch : TaskPatch} (hrow : d.task? t = some row) (hloaded : l.tasks.find? t = some row)
    (hcheck : ∀ now, d.checkTask (patch.written row now) = .ok ())
    {Q : TaskResponse → Session → Database → Prop}
    (hkeep : patch.dirty row = {} → ∀ l', Q (taskData row) l' d)
    (hchange : patch.dirty row ≠ {} → ∀ env, good env → ∀ l',
      Q (taskData (patch.written row env.now)) l'
        (d.apply (.putTask (patch.written row env.now)))) :
    Ends good (saveTask t patch) Q E l d := by
  refine ends_bind (ends_answered fun env henv => ?_)
  have hchecked : d.checkTask { (patch.dirty row).apply row with updatedAt := env.now } =
      .ok () := hcheck env.now
  simp only [Session.exec, Session.flushTask, hloaded, statement_faultless (hgood env henv),
    h.current, hrow, hchecked]
  by_cases hdirty : patch.dirty row = {}
  · rw [if_pos hdirty]
    refine ⟨(), l, d, rfl, ends_refreshedTaskExact hgood (h.view.symm ▸ hrow) fun l' => ?_⟩
    rw [h.current]
    exact hkeep hdirty l'
  · rw [if_neg hdirty]
    refine ⟨(), (l.write (.putTask (patch.written row env.now))).keepTask
      (patch.written row env.now), d, rfl, ?_⟩
    obtain ⟨hsaved, hcurrent⟩ := h.flushed patch hrow env.now
    refine ends_refreshedTaskExact hgood hsaved fun l' => ?_
    rw [hcurrent]
    exact hchange hdirty env henv l'

include hsome

/-- The same compared with an answer. -/
theorem fulfils_saveTask (hd : Consistent d) (h : l.Mirrors d) {row : Task} {patch : TaskPatch}
    (hrow : d.task? t = some row) (hloaded : l.tasks.find? t = some row)
    (hfits : PatchFits d patch) :
    Ends good (saveTask t patch)
      (fun response _ d' => ∃ i, i.FoundIn good ∧ assign i d row patch = (.task response, d'))
      (fun _ _ => False) l d := by
  refine ends_savedTask hgood h hrow hloaded (fun now => ?_) (fun hdirty l' => ?_)
    fun hdirty env henv l' => ?_
  · exact (hfits.dirty row).apply (hd.task t row hrow).2 now
  · obtain ⟨env, henv⟩ := hsome
    exact ⟨env.circumstances, foundIn_env henv, if_pos hdirty⟩
  · exact ⟨env.circumstances, foundIn_env henv, if_neg hdirty⟩

omit hsome in
theorem fulfils_createTask (hd : Consistent d) {access : WorkspaceAccess}
    (h : Granted d subject w access m l) (data : TaskCreate) :
    Fulfils good (fun i => newTask i d (access.entry m) w data)
      (do return .task (← TaskPlatform.createTask access data)) l d := by
  have hid := h.id
  refine ends_bind (ends_rollbackOnSqlError (ends_bind (ends_answered fun env henv => ?_)))
  rw [hid]
  let row : Task := data.row w access.currentUser.id d.nextTaskId env.now
  let d' : Database := { d with nextTaskId := d.nextTaskId + 1 }
  have hworkspace : (d.workspace? w).isSome := by
    rw [h.workspace]
    rfl
  have huser := (hd.member_isSome (show (d.member? w access.currentUser.id).isSome by
    rw [h.member]; rfl)).2
  have hcheck : (l.current d).checkNewTask row = .ok () := by
    rw [h.mirror.current]
    exact checkNewTask_of_free hd.task_free (data.checkTask_row hworkspace huser _ _)
  refine ⟨row, (l.keepTask row).write (.putTask row), d',
    (statement_faultless (hgood env henv)).trans (insert_passed hcheck), ?_⟩
  have hview : (((l.keepTask row).write (.putTask row)).view d').task? row.id = some row := by
    rw [Session.view_write (l := l.keepTask row) h.mirror.writes, task?_putTask, if_pos rfl]
  refine ends_refreshedTaskExact hgood hview fun l' => ends_pure ?_
  refine ⟨env.circumstances, foundIn_env henv, ?_⟩
  have hcurrent : ((l.keepTask row).write (.putTask row)).current d' = d'.apply (.putTask row) :=
    Session.current_of_write h.mirror.writes _ d'
  rw [hcurrent]
  rfl

section Changes

variable {access : WorkspaceTaskAccess} (h : TaskGranted d subject w t access m l)

include h

theorem fulfils_updateTask (hd : Consistent d) (data : TaskUpdate) :
    Fulfils good (fun i => edit i d (access.workspaceAccess.entry m) access.task data)
      (do return .task (← TaskPlatform.updateTask access data)) l d := by
  have hrow := (taskIn?_eq_some.mp h.task).1
  refine ends_bind (ends_bind (ends_membershipRole h.toOpened (ends_bind ?_)))
  refine ends_raiseIf (fun hno => ?_) fun hyes => ends_rollbackOnSqlError ?_
  · have hno : ¬ canEditTask (access.workspaceAccess.entry m).role
        (access.workspaceAccess.entry m).user.id access.task.creatorId = true := fun hyes =>
      Bool.false_ne_true (hno.symm.trans hyes)
    refine refusal_of hsome fun i => ?_
    rw [edit, demand_neg hno]
    rfl
  have hyes : canEditTask (access.workspaceAccess.entry m).role
      (access.workspaceAccess.entry m).user.id access.task.creatorId = true :=
    Bool.of_not_eq_false hyes
  rw [h.task_id]
  refine smoothE_mono ?_ (fun _ _ _ he => he.elim) (fulfils_saveTask hgood hsome hd h.mirror hrow
    (h.mirror.task_eq h.loaded hrow) (data.fits d))
  rintro response l' d' ⟨i, hi, hanswer⟩
  refine ends_pure ⟨i, hi, ?_⟩
  show edit i d (access.workspaceAccess.entry m) access.task data = _
  rw [edit, demand_pos hyes, ok_bind, hanswer]
  rfl

theorem fulfils_deleteTask :
    Fulfils good (fun _ => dispose d (access.workspaceAccess.entry m) access.task)
      (do
        TaskPlatform.deleteTask access
        return .noContent) l d := by
  have hrow := (taskIn?_eq_some.mp h.task).1
  refine ends_bind (ends_bind (ends_membershipRole h.toOpened (ends_bind ?_)))
  refine ends_raiseIf (fun hno => ?_) fun hyes => ends_rollbackOnSqlError (ends_bind ?_)
  · have hno : ¬ canDeleteTask (access.workspaceAccess.entry m).role
        (access.workspaceAccess.entry m).user.id access.task.creatorId = true := fun hyes =>
      Bool.false_ne_true (hno.symm.trans hyes)
    refine refusal_of hsome fun i => ?_
    rw [dispose, demand_neg hno]
    rfl
  have hyes : canDeleteTask (access.workspaceAccess.entry m).role
      (access.workspaceAccess.entry m).user.id access.task.creatorId = true :=
    Bool.of_not_eq_false hyes
  refine ends_answered fun env henv => ?_
  simp only [Session.exec, statement_faultless (hgood env henv), Session.deleteTask, h.task_id,
    h.mirror.current, hrow]
  refine ⟨(), _, d, rfl, ends_answered fun env' henv' => ⟨(), _, _,
    statement_faultless (hgood env' henv'), ends_pure ?_⟩⟩
  refine returned_of hsome fun i => ?_
  have hcurrent : ((l.write (.deleteTask t)).dropTask t).current d = d.apply (.deleteTask t) :=
    Session.current_of_write h.mirror.writes _ d
  rw [dispose, demand_pos hyes, ok_bind, h.task_id, hcurrent]
  rfl

/-- A decided change compared with the answer that settles it. -/
theorem fulfils_decided (hd : Consistent d) {l₁ : Session} (h₁ : l₁.Mirrors d)
    (decide : Task → Decision) {patch : TaskPatch} {answer : Circumstances → Reply}
    (hanswer : ∀ i, answer i = settle i d access.task (decide access.task) patch)
    (hfits : decide access.task = .change → PatchFits d patch) :
    Ends good
      (do
        let task ← lockTask access.workspaceAccess.workspace.id access.task.id
        match decide task with
        | .refuse e => raise e
        | .keep => keepTask task
        | .change => saveTask task.id patch)
      (fun response _ d' => ∃ i, i.FoundIn good ∧ answer i = .ok (.task response, d'))
      (RefusedWith good answer d) l₁ d := by
  have hE := serverFails_of_good hgood (RefusedWith good answer d) d
  have hrow := (taskIn?_eq_some.mp h.task).1
  refine ends_bind (ends_lockOpenedTask h h₁ hE fun l₂ h₂ hloaded => ?_)
  cases hdecision : decide access.task with
  | refuse e =>
      refine ends_raise (refusal_of hsome fun i => ?_)
      rw [hanswer, hdecision]
      rfl
  | keep =>
      refine ends_keepTask h₂ hE (returned_of hsome fun i => ?_)
      rw [hanswer, hdecision]
      rfl
  | change =>
      show Ends good (saveTask access.task.id patch) _ _ _ _
      rw [h.task_id]
      refine smoothE_mono ?_ (fun _ _ _ he => he.elim)
        (fulfils_saveTask hgood hsome hd h₂ hrow hloaded (hfits hdecision))
      rintro response l' d' ⟨i, hi, hassign⟩
      refine ⟨i, hi, ?_⟩
      rw [hanswer, hdecision]
      show Except.ok (assign i d access.task patch) = _
      rw [hassign]

theorem fulfils_updateTaskStatus (hd : Consistent d) (data : TaskStatusUpdate) :
    Fulfils good (fun i => move i d (access.workspaceAccess.entry m) access.task data.status)
      (do return .task (← TaskPlatform.updateTaskStatus access data)) l d := by
  have hE := serverFails_of_good hgood (RefusedWith good
    (fun i => move i d (access.workspaceAccess.entry m) access.task data.status) d) d
  refine ends_bind (ends_rollbackOnError (ends_lockOwnMembership h hE fun rows l₁ h₁ => ?_))
  refine ends_mono (fulfils_decided hgood hsome h hd h₁
    (fun task => decideStatus m.role access.workspaceAccess.currentUser.id task data.status)
    (fun _ => rfl) fun _ => fits_status d data.status) ?_
  exact fun response l' d' hreturned => ends_pure hreturned

theorem fulfils_updateTaskAssignee (hd : Consistent d) (data : TaskAssigneeUpdate) :
    Fulfils good
      (fun i => handOver i d (access.workspaceAccess.entry m) access.task w data.assigneeId)
      (do return .task (← TaskPlatform.updateTaskAssignee access data)) l d := by
  have hE := serverFails_of_good hgood (RefusedWith good
    (fun i => handOver i d (access.workspaceAccess.entry m) access.task w data.assigneeId) d) d
  have hrefuse : namesAnother m.role access.workspaceAccess.currentUser.id data.assigneeId →
      RefusedWith good
        (fun i => handOver i d (access.workspaceAccess.entry m) access.task w data.assigneeId) d
        (.app taskPermissionDeniedError) d := by
    intro hnames
    have hno : ¬ ¬ namesAnother (access.workspaceAccess.entry m).role
        (access.workspaceAccess.entry m).user.id data.assigneeId := not_not.mpr hnames
    refine refusal_of hsome fun i => ?_
    rw [handOver, demand_neg hno]
    rfl
  refine ends_bind (ends_rollbackOnError (ends_bind (ends_membershipRole h.toOpened
    (ends_bind ?_))))
  refine ends_raiseIf hrefuse fun hnames => ends_bind ?_
  refine ends_lockWorkspaceMemberships h.mirror hE fun rows l₁ h₁ _ hrows => ends_bind ?_
  have hown := hrows _ List.mem_cons_self
  rw [h.id, h.member] at hown
  refine ends_orRaise (fun hnone => ?_) fun m' hm' => ends_bind ?_
  · rw [hown] at hnone
    cases hnone
  cases hown.symm.trans hm'
  refine ends_raiseIf hrefuse fun _ => ?_
  have hlocked : ∀ a ∈ data.assigneeId, membershipOf rows a = d.member? w a := by
    intro a ha
    rw [hrows a (List.mem_cons_of_mem _ (Option.mem_toList.mpr ha)), h.id]
  refine ends_mono (fulfils_decided hgood hsome h hd h₁
    (fun task => decideAssignee m.role access.workspaceAccess.currentUser.id task
      data.assigneeId rows) (fun i => ?_) fun hchange => fits_assignee fun a ha => ?_) ?_
  · have hnames : ¬ namesAnother (access.workspaceAccess.entry m).role
        (access.workspaceAccess.entry m).user.id data.assigneeId := hnames
    rw [handOver, demand_pos hnames, ok_bind]
    have hsame : decideAssignee (access.workspaceAccess.entry m).role
        (access.workspaceAccess.entry m).user.id access.task data.assigneeId
          (data.assigneeId.toList.filterMap (d.member? w)) =
        decideAssignee m.role access.workspaceAccess.currentUser.id access.task data.assigneeId
          rows := by
      refine decideAssignee_of_found fun a ha => ?_
      rw [hlocked a ha, membershipOf_requested ha]
    rw [hsame]
  · -- the new assignee is a member, or the actor himself
    have hactor : (d.member? w access.workspaceAccess.currentUser.id).isSome := by
      rw [h.member]
      rfl
    obtain ⟨_, _, hmembers | hclaim | hrelease⟩ := decideAssignee_change hchange
    · have hmember := hmembers.2 a ha
      rw [hlocked a ha] at hmember
      exact (hd.member_isSome hmember).2
    · obtain ⟨_, hself, _⟩ := canSelfClaimTask_iff.mp hclaim
      rw [hself, Option.mem_some] at ha
      rw [← ha]
      exact (hd.member_isSome hactor).2
    · obtain ⟨_, hnone, _⟩ := canSelfReleaseTask_iff.mp hrelease
      rw [hnone] at ha
      cases ha
  · exact fun response l' d' hreturned => ends_pure hreturned

end Changes
end Services
end TaskPlatform
