import TaskPlatform.Serial.Rules

/-!
# Changes of tasks, served alone

What a partial update, a status request and an assignee request make of the row they
find, and what they return.
-/

namespace TaskPlatform

open Transaction Service Database Relational

/-- The row an accepted flush of assigned attributes leaves, if one of them differs. -/
def TaskPatch.written (patch : TaskPatch) (row : Task) (now : Timestamp) : Task :=
  { (patch.dirty row).apply row with updatedAt := now }

section Saving

variable [Collation] {good : Env → Prop} {E : Exc → Database → Prop} {l : Session} {d : Database}
  {t : Id} {patch : TaskPatch} {row : Task}

/-- A flush writes the row if an assigned attribute differs from it, and stamps it. -/
theorem Session.Mirrors.flushTask_ok (h : l.Mirrors d) (hrow : d.task? t = some row)
    (hloaded : l.tasks.find? t = some row) {env : Env} {v : Unit} {l' : Session} {d' : Database}
    (hx : Session.exec env (.flushTask t patch) l d = (.ok v, l', d')) :
    d' = d ∧ (patch.dirty row = {} ∧ l' = l ∨
      patch.dirty row ≠ {} ∧ l' = (l.write (.putTask (patch.written row env.now))).keepTask
        (patch.written row env.now)) := by
  simp only [Session.exec, Session.flushTask, hloaded, h.current, hrow] at hx
  by_cases hdirty : patch.dirty row = {}
  · rw [if_pos hdirty] at hx
    cases hx
    exact ⟨rfl, Or.inl ⟨hdirty, rfl⟩⟩
  · rw [if_neg hdirty] at hx
    have hx := Session.statement_ok hx
    split at hx
    · cases hx
    · cases hx
      exact ⟨rfl, Or.inr ⟨hdirty, rfl⟩⟩

omit [Collation] in
/-- What the session shows after the flush, and what its commit publishes. -/
theorem Session.Mirrors.flushed (h : l.Mirrors d) (patch : TaskPatch) (hrow : d.task? t = some row)
    (now : Timestamp) :
    let changed := patch.written row now
    let flushed := (l.write (.putTask changed)).keepTask changed
    (flushed.view d).task? t = some changed ∧ flushed.current d = d.apply (.putTask changed) := by
  intro changed flushed
  constructor
  · show ((l.write (.putTask changed)).view d).task? t = _
    rw [Session.view_write h.writes, task?_putTask]
    exact if_pos (id_of_task? hrow).symm
  · exact Session.current_of_write h.writes _ d

/-- Read the changed task again and commit. -/
theorem ends_refreshedTask (hE : ∀ e d, E e d) (hview : (l.view d).task? t = some row)
    {Q : TaskResponse → Session → Database → Prop}
    (hQ : ∀ l', Q (taskData row) l' (l.current d)) :
    Ends good
      (do
        let refreshed ← call (.refreshTask t)
        call .commit
        return taskData refreshed) Q E l d := by
  apply ends_bind
  refine ends_call (fun env _ v l' d' hx => ?_) fun _ _ e _ d' _ => hE _ d'
  obtain ⟨hrow, rfl, rfl⟩ := Session.refresh_ok (Session.statement_ok hx)
  cases hview.symm.trans hrow
  rw [hview]
  apply ends_bind
  refine ends_call (fun env _ v l' d' hx => ?_) fun _ _ e _ d' _ => hE _ d'
  cases Session.statement_ok hx
  exact ends_pure (hQ _)

/-- Saving assigned attributes: the response is the row that is stored then. -/
theorem ends_saveTask (h : l.Mirrors d) (hE : ∀ e d, E e d) (hrow : d.task? t = some row)
    (hloaded : l.tasks.find? t = some row) {Q : TaskResponse → Session → Database → Prop}
    (hkeep : patch.dirty row = {} → ∀ l', Q (taskData row) l' d)
    (hchange : patch.dirty row ≠ {} → ∀ env, good env → ∀ l',
      Q (taskData (patch.written row env.now)) l'
        (d.apply (.putTask (patch.written row env.now)))) :
    Ends good (saveTask t patch) Q E l d := by
  apply ends_bind
  refine ends_call (fun env henv v l' d' hx => ?_) fun _ _ e _ d' _ => hE _ d'
  obtain ⟨rfl, ⟨hdirty, rfl⟩ | ⟨hdirty, rfl⟩⟩ := h.flushTask_ok hrow hloaded hx
  · refine ends_refreshedTask hE (by rw [h.view]; exact hrow) fun l' => ?_
    rw [h.current]
    exact hkeep hdirty l'
  · obtain ⟨hsaved, hcurrent⟩ := h.flushed patch hrow env.now
    refine ends_refreshedTask hE hsaved fun l' => ?_
    rw [hcurrent]
    exact hchange hdirty env henv l'

/-- Leaving the task as it is. -/
theorem ends_keepTask (h : l.Mirrors d) (hE : ServerFails good E d)
    {Q : TaskResponse → Session → Database → Prop} (hQ : Q (taskData row) l.ended d) :
    Ends good (keepTask row) Q E l d := by
  refine ends_bind (ends_commit hE ?_)
  rw [h.current]
  exact ends_pure hQ

end Saving

/-! ## Decisions -/

section Decisions

variable [Collation] {good : Env → Prop} {E : Exc → Database → Prop} {l : Session} {d : Database}

theorem Granted.actor {subject : Option String} {w : Id} {access : WorkspaceAccess}
    {m : WorkspaceMember} (h : Granted d subject w access m l) :
    Actor d subject w access.currentUser m where
  token := h.token
  workspace := by
    rw [h.workspace]
    rfl
  member := h.member

omit [Collation] in
/-- Among the memberships that exist, those of the named users are found. -/
theorem membershipOf_filterMap (w a : Id) (us : List Id) :
    membershipOf (us.filterMap (d.member? w)) a = if a ∈ us then d.member? w a else none := by
  induction us with
  | nil => rfl
  | cons u us ih =>
      rw [List.filterMap_cons]
      cases hm : d.member? w u with
      | none =>
          simp only [ih, List.mem_cons]
          by_cases hau : a = u
          · rw [hau, hm]
            simp
          · simp [hau]
      | some m =>
          have hid : m.userId = u := (key_of_member? hm).2
          by_cases hau : a = u
          · rw [if_pos (List.mem_cons.mpr (Or.inl hau)), hau, hm]
            exact List.find?_cons_of_pos (decide_eq_true hid)
          · have hskip : membershipOf (m :: us.filterMap (d.member? w)) a =
                membershipOf (us.filterMap (d.member? w)) a := by
              apply List.find?_cons_of_neg
              rw [hid, decide_eq_true_iff]
              exact Ne.symm hau
            simp only [List.mem_cons, hau, false_or]
            exact hskip.trans ih

/-- The memberships a service has locked are those of the named users. -/
theorem ends_lockWorkspaceMemberships (h : l.Mirrors d) (hE : ServerFails good E d) {w : Id}
    {us : List Id} {Q : List WorkspaceMember → Session → Database → Prop}
    (hQ : ∀ rows l', l'.Mirrors d → l.Keeps l' →
      (∀ a ∈ us, membershipOf rows a = d.member? w a) → Q rows l' d) :
    Ends good (lockWorkspaceMemberships w us) Q E l d := by
  refine ends_lockMembershipRows hE _ h fun l' h' hk => hQ _ l' h' hk fun a ha => ?_
  rw [membershipOf_filterMap, if_pos]
  exact (List.mem_insertionSort _).mpr (List.mem_dedup.mpr ha)

variable {subject : Option String} {w t : Id} {access : WorkspaceTaskAccess}
  {m : WorkspaceMember} {Q : TaskResponse → Session → Database → Prop}

/-- The actor finds his own membership among those he has locked. -/
theorem ends_lockOwnMembership (h : TaskGranted d subject w t access m l)
    (hE : ServerFails good E d) {us : List Id}
    {service : List WorkspaceMember → WorkspaceMember → Service TaskResponse}
    (hservice : ∀ rows l', l'.Mirrors d → Ends good (service rows m) Q E l' d) :
    Ends good
      (do
        let memberships ← lockWorkspaceMemberships access.workspaceAccess.workspace.id
          (access.workspaceAccess.currentUser.id :: us)
        let actorMembership ← orRaise
          (membershipOf memberships access.workspaceAccess.currentUser.id) workspaceNotFoundError
        service memberships actorMembership) Q E l d := by
  apply ends_bind
  refine ends_lockWorkspaceMemberships h.mirror hE fun rows l₁ h₁ _ hrows => ends_bind ?_
  have hown := hrows _ List.mem_cons_self
  rw [h.id, h.member] at hown
  refine ends_orRaise (fun hnone => ?_) fun m' hm' => ?_
  · rw [hown] at hnone
    cases hnone
  · cases hown.symm.trans hm'
    exact hservice rows l₁ h₁

/-- The task is the one the dependency has loaded. -/
theorem ends_lockOpenedTask (h : TaskGranted d subject w t access m l) {l' : Session}
    (h' : l'.Mirrors d) (hE : ServerFails good E d) {Q : Task → Session → Database → Prop}
    (hQ : ∀ l₁, l₁.Mirrors d → l₁.tasks.find? t = some access.task → Q access.task l₁ d) :
    Ends good (lockTask access.workspaceAccess.workspace.id access.task.id) Q E l' d := by
  rw [h.id, h.task_id]
  refine ends_lockTask h' hE (fun hnone => ?_) fun row l₁ hrow h₁ _ hloaded => ?_
  · rw [h.task] at hnone
    cases hnone
  · cases h.task.symm.trans hrow
    exact hQ l₁ h₁ hloaded

theorem ends_updateTaskStatus (h : TaskGranted d subject w t access m l)
    (hE : ServerFails good E d) {data : TaskStatusUpdate}
    (hrefuse : ∀ e, decideStatus m.role access.workspaceAccess.currentUser.id access.task
      data.status = .refuse e → E (.app e) d)
    (hkeep : decideStatus m.role access.workspaceAccess.currentUser.id access.task
      data.status = .keep → ∀ l', Q (taskData access.task) l' d)
    (hchange : decideStatus m.role access.workspaceAccess.currentUser.id access.task
      data.status = .change → ∀ l', l'.Mirrors d → l'.tasks.find? t = some access.task →
        Ends good (saveTask t { status := some data.status }) Q E l' d) :
    Ends good (updateTaskStatus access data) Q E l d := by
  refine ends_rollbackOnError (ends_lockOwnMembership h hE fun rows l₁ h₁ => ends_bind ?_)
  refine ends_lockOpenedTask h h₁ hE fun l₂ h₂ hloaded => ?_
  cases hdecision : decideStatus m.role access.workspaceAccess.currentUser.id access.task
      data.status with
  | refuse e => exact ends_raise (hrefuse e hdecision)
  | keep => exact ends_keepTask h₂ hE (hkeep hdecision _)
  | change =>
      have hid := h.task_id
      show Ends good (saveTask access.task.id { status := some data.status }) Q E l₂ d
      rw [hid]
      exact hchange hdecision l₂ h₂ hloaded

theorem ends_updateTaskAssignee (h : TaskGranted d subject w t access m l)
    (hE : ServerFails good E d) {data : TaskAssigneeUpdate}
    (hnames : namesAnother m.role access.workspaceAccess.currentUser.id data.assigneeId →
      E (.app taskPermissionDeniedError) d)
    (hrefuse : ¬ namesAnother m.role access.workspaceAccess.currentUser.id data.assigneeId →
      ∀ rows e, decideAssignee m.role access.workspaceAccess.currentUser.id access.task
        data.assigneeId rows = .refuse e → E (.app e) d)
    (hkeep : ¬ namesAnother m.role access.workspaceAccess.currentUser.id data.assigneeId →
      ∀ rows, decideAssignee m.role access.workspaceAccess.currentUser.id access.task
        data.assigneeId rows = .keep → ∀ l', Q (taskData access.task) l' d)
    (hchange : ¬ namesAnother m.role access.workspaceAccess.currentUser.id data.assigneeId →
      ∀ rows, decideAssignee m.role access.workspaceAccess.currentUser.id access.task
        data.assigneeId rows = .change → ∀ l', l'.Mirrors d → l'.tasks.find? t = some access.task →
          Ends good (saveTask t { assigneeId := some data.assigneeId }) Q E l' d) :
    Ends good (updateTaskAssignee access data) Q E l d := by
  refine ends_rollbackOnError (ends_bind (ends_membershipRole h.toOpened (ends_bind ?_)))
  refine ends_raiseIf hnames fun hn => ?_
  refine ends_lockOwnMembership h hE fun rows l₁ h₁ => ends_bind ?_
  refine ends_raiseIf hnames fun _ => ends_bind ?_
  refine ends_lockOpenedTask h h₁ hE fun l₂ h₂ hloaded => ?_
  cases hdecision : decideAssignee m.role access.workspaceAccess.currentUser.id access.task
      data.assigneeId rows with
  | refuse e => exact ends_raise (hrefuse hn rows e hdecision)
  | keep => exact ends_keepTask h₂ hE (hkeep hn rows hdecision _)
  | change =>
      have hid := h.task_id
      show Ends good (saveTask access.task.id { assigneeId := some data.assigneeId }) Q E l₂ d
      rw [hid]
      exact hchange hn rows hdecision l₂ h₂ hloaded

end Decisions
end TaskPlatform
