import TaskPlatform.Integrity.Answers

/-!
# No statement is rejected

Whatever a schema accepts and a service lets pass, the constraints of the tables
accept: alone, from any reachable state, every call of a request is answered, and the
request succeeds or raises one of the domain errors.
-/

namespace TaskPlatform

open Transaction Service Database Relational

/-! ## What the policies refuse with -/

theorem domain_removalRefused {actorRole targetRole : MemberRole} {e : AppException}
    (h : removalRefused actorRole targetRole = some e) : DomainError e := by
  unfold removalRefused at h
  split_ifs at h
  · cases h
    exact .ownerMembershipConflict
  · cases h
    exact .workspacePermissionDenied
  · cases h
    exact .workspacePermissionDenied

theorem domain_decideStatus {role : MemberRole} {u : Id} {task : Task} {status : TaskStatus}
    {e : AppException} (h : decideStatus role u task status = .refuse e) : DomainError e := by
  unfold decideStatus at h
  split_ifs at h
  · cases h
    exact .taskPermissionDenied
  · cases h
    exact .taskStatusTransitionConflict

theorem domain_decideAssignee {role : MemberRole} {u : Id} {task : Task}
    {requested : Option Id} {rows : List WorkspaceMember} {e : AppException}
    (h : decideAssignee role u task requested rows = .refuse e) : DomainError e := by
  unfold decideAssignee at h
  split_ifs at h
  · cases h
    exact .workspaceMemberNotFound
  all_goals first
    | (cases h; exact .taskAssignmentConflict)
    | (cases h; exact .taskPermissionDenied)

/-! ## Constraints that hold -/

section Checks

variable {d : Database}

theorem checkMember_of_free {m : WorkspaceMember} (hfree : d.member? m.workspaceId m.userId = none)
    (hw : (d.workspace? m.workspaceId).isSome) (hu : (d.user? m.userId).isSome) :
    d.checkMember m = .ok () := by
  rw [checkMember, hfree, Option.isNone_eq_false_iff.mpr hw, Option.isNone_eq_false_iff.mpr hu]
  rfl

theorem checkNewTask_of_free {t : Task} (hfree : d.task? t.id = none)
    (ht : d.checkTask t = .ok ()) : d.checkNewTask t = .ok () := by
  rw [checkNewTask, hfree, ht]
  rfl

end Checks

/-! ## What the schemas establish -/

/-- The values a patch assigns satisfy the constraints of their columns. -/
structure PatchFits (d : Database) (p : TaskPatch) : Prop where
  title : ∀ s, p.title = some s → s.length ≤ 100 ∧ trimmedLengthOk s = true
  description : ∀ s, p.description = some (some s) → s.length ≤ 500
  priority : ∀ n, p.priority = some n → 1 ≤ n ∧ n ≤ 5
  assignee : ∀ a, p.assigneeId = some (some a) → (d.user? a).isSome

section Patches

variable {d : Database} {p : TaskPatch} {row : Task}

theorem PatchFits.dirty (h : PatchFits d p) (loaded : Task) : PatchFits d (p.dirty loaded) where
  title s hs := h.title s (Option.eq_some_of_filter_eq_some hs)
  description s hs := h.description s (Option.eq_some_of_filter_eq_some hs)
  priority n hn := h.priority n (Option.eq_some_of_filter_eq_some hn)
  assignee a ha := h.assignee a (Option.eq_some_of_filter_eq_some ha)

theorem PatchFits.apply (h : PatchFits d p) (hrow : d.checkTask row = .ok ())
    (now : Timestamp) : d.checkTask { p.apply row with updatedAt := now } = .ok () := by
  rw [checkTask_iff] at hrow ⊢
  obtain ⟨htitle, hdescription, htrim, hpriority, hworkspace, hcreator, hassignee⟩ := hrow
  refine ⟨?_, ?_, ?_, ?_, hworkspace, hcreator, ?_⟩
  · show (p.title.getD row.title).length ≤ 100
    cases hp : p.title with
    | none => exact htitle
    | some s => exact (h.title s hp).1
  · show ((p.description.getD row.description).getD "").length ≤ 500
    cases hp : p.description with
    | none => exact hdescription
    | some o =>
        cases o with
        | none => exact Nat.zero_le 500
        | some s => exact h.description s hp
  · show trimmedLengthOk (p.title.getD row.title) = true
    cases hp : p.title with
    | none => exact htrim
    | some s => exact (h.title s hp).2
  · show 1 ≤ p.priority.getD row.priority ∧ p.priority.getD row.priority ≤ 5
    cases hp : p.priority with
    | none => exact hpriority
    | some n => exact h.priority n hp
  · show ∀ a ∈ p.assigneeId.getD row.assigneeId, (d.user? a).isSome
    cases hp : p.assigneeId with
    | none => exact hassignee
    | some o =>
        intro a ha
        have ho : o = some a := ha
        exact h.assignee a (hp.trans (congrArg some ho))

/-- A changed row that was accepted had values that fit. -/
theorem fits_of_apply {now : Timestamp}
    (h : d.checkTask { p.apply row with updatedAt := now } = .ok ()) : PatchFits d p := by
  obtain ⟨htitle, hdescription, htrim, hpriority, _, _, hassignee⟩ := checkTask_iff.mp h
  refine ⟨fun s hs => ?_, fun s hs => ?_, fun n hn => ?_, fun a ha => hassignee a ?_⟩
  · have hnew : (p.apply row).title = s := congrArg (Option.getD · row.title) hs
    rw [← hnew]
    exact ⟨htitle, htrim⟩
  · have hnew : (p.apply row).description = some s :=
      congrArg (Option.getD · row.description) hs
    rw [show ({ p.apply row with updatedAt := now } : Task).description = some s from hnew]
      at hdescription
    exact hdescription
  · have hnew : (p.apply row).priority = n := congrArg (Option.getD · row.priority) hn
    rw [← hnew]
    exact hpriority
  · exact congrArg (Option.getD · row.assigneeId) ha

theorem TaskUpdate.fits (data : TaskUpdate) (d : Database) : PatchFits d data.patch where
  title s hs := by
    have hlength := data.title_length s hs
    exact ⟨hlength.2, trimmedLengthOk_of_strip (data.title_strip s hs) hlength⟩
  description s hs := data.description_length s (Option.join_eq_some_iff.mpr hs)
  priority n hn := data.priority_range n hn
  assignee a ha := by cases ha

theorem fits_status (d : Database) (status : TaskStatus) :
    PatchFits d { status := some status } := ⟨nofun, nofun, nofun, nofun⟩

theorem fits_assignee {requested : Option Id} (h : ∀ a ∈ requested, (d.user? a).isSome) :
    PatchFits d { assigneeId := some requested } :=
  ⟨nofun, nofun, nofun, fun a ha => h a (Option.some.inj ha)⟩

end Patches

section Services

variable [Collation] {l : Session} {d : Database}

/-! ## Users and workspaces -/

theorem accepts_createUser (h : Ready l d) (hwrites : l.writes = []) (data : UserCreate) :
    Accepts (createUser data) (fun _ _ _ => True) l d := by
  refine accepts_bind (accepts_getUserByUsername h (fun hfree h₁ => ?_) fun user _ _ => ?_)
  · refine accepts_bind (accepts_raiseIf .usernameAlreadyExists fun _ => accepts_bind ?_)
    refine accepts_call h₁ fun env henv => ⟨_, _, _, rfl, fun h₂ => ?_⟩
    refine accepts_tryCatch (accepts_bind (accepts_call h₂ fun env' henv' => ?_)) fun e l d he => he
    have hcheck : ((l.openView d).current d).checkUser
        ⟨d.nextUserId, data.username, env.hash data.password⟩ = .ok () := by
      rw [Session.current_eq hwrites] at hfree
      rw [Session.current_eq (l := l.openView d) hwrites, checkUser,
        if_neg (Nat.not_lt.mpr data.username_length.2),
        if_neg (Nat.not_lt.mpr (henv.hash data.password)),
        h.consistent.rows.user_free, hfree]
      rfl
    refine ⟨_, _, _, (statement_faultless henv').trans (insert_passed hcheck), fun h₃ => ?_⟩
    refine accepts_bind (accepts_commit h₃ fun h₄ => accepts_refreshUser h₄ ?_ fun _ => trivial)
    show ((((l.openView d).write _).current _).user? _).isSome
    rw [Session.current_write, user?_putUser, if_pos rfl]
    rfl
  · exact accepts_bind (accepts_raiseIf .usernameAlreadyExists fun hne => absurd rfl hne)

theorem accepts_createWorkspace (h : Ready l d) (hwrites : l.writes = []) {user : User}
    (huser : (d.user? user.id).isSome) (data : WorkspaceCreate) :
    Accepts (createWorkspace user data.name) (fun _ _ _ => True) l d := by
  have hcurrent : ∀ d, l.current d = d := fun _ => Session.current_eq hwrites
  refine accepts_rollbackOnSqlError (accepts_bind (accepts_call h fun env henv => ?_))
  let row : Workspace := ⟨d.nextWorkspaceId, data.name, user.id, env.now, env.now⟩
  let d' : Database := { d with nextWorkspaceId := d.nextWorkspaceId + 1 }
  have hcheck : (l.current d).checkWorkspace row = .ok () := by
    rw [hcurrent, checkWorkspace, if_neg (Nat.not_lt.mpr data.name_length.2),
      h.consistent.rows.workspace_free,
      trimmedLengthOk_of_strip data.name_strip data.name_length,
      Option.isNone_eq_false_iff.mpr huser]
    rfl
  refine ⟨row, _, d', (statement_faultless henv).trans (insert_passed hcheck), fun h₁ => ?_⟩
  have hworkspace : (((l.write (.putWorkspace row)).current d').workspace? row.id).isSome := by
    rw [Session.current_write, workspace?_putWorkspace, if_pos rfl]
    rfl
  -- nobody is a member of a workspace that was not there
  have hnew : d.member? row.id user.id = none := by
    cases hm : d.member? row.id user.id with
    | none => rfl
    | some m =>
        have hsome : (d.member? row.id user.id).isSome := by rw [hm]; rfl
        have hrefs := h.consistent.rows.member_isSome hsome
        rw [show d.workspace? row.id = none from h.consistent.rows.workspace_free] at hrefs
        exact absurd hrefs.1 Bool.false_ne_true
  refine accepts_bind (accepts_call h₁ fun env' henv' => ?_)
  let member : WorkspaceMember := ⟨row.id, user.id, .owner, env'.now, env'.now⟩
  have hcheck' : ((l.write (.putWorkspace row)).current d').checkMember member = .ok () := by
    refine checkMember_of_free ?_ hworkspace ?_
    · rw [Session.current_write, hcurrent]
      exact hnew
    · rw [Session.current_write, hcurrent]
      exact huser
  refine ⟨member, _, d', (statement_faultless henv').trans (insert_passed hcheck'), fun h₂ => ?_⟩
  refine accepts_bind (accepts_refreshWorkspace h₂ ?_ fun refreshed h₃ => accepts_committed h₃ _)
  rw [Session.current_write]
  exact hworkspace

/-! ## Members -/

theorem accepts_addMember {access : WorkspaceAccess} (h : Entered access l d) (username : String)
    (role : MemberRole) : Accepts (addMember access username role) (fun _ _ _ => True) l d := by
  refine accepts_bind (accepts_membershipRole h fun actorRole => ?_)
  refine accepts_bind (accepts_raiseIf .workspacePermissionDenied fun _ => ?_)
  refine accepts_tryCatch (accepts_bind ?_) fun e l d he => he
  refine accepts_getUserByUsername h.ready (fun _ _ => ?_) fun user huser h₁ => ?_
  · exact accepts_bind (accepts_raise .userNotFound)
  refine accepts_bind (accepts_pure (accepts_bind (accepts_getMember h₁ ?_ fun hfree h₂ => ?_)))
  · intro m l' h₂
    exact accepts_bind (accepts_raiseIf .workspaceMemberAlreadyExists fun hne => absurd rfl hne)
  refine accepts_bind (accepts_raiseIf .workspaceMemberAlreadyExists fun _ => accepts_bind ?_)
  refine accepts_call h₂ fun env henv => ?_
  let row : WorkspaceMember := ⟨access.workspace.id, user.id, role, env.now, env.now⟩
  have hcheck : (((l.openView d).openView d).current d).checkMember row = .ok () := by
    refine checkMember_of_free hfree ?_ huser
    rw [show ((l.openView d).openView d).current d = d from h.current]
    exact h.workspace
  refine ⟨row, _, d, (statement_faultless henv).trans (insert_passed hcheck), fun h₃ => ?_⟩
  refine accepts_bind (accepts_refreshMember h₃ ?_ fun m l' h₄ => accepts_committed h₄ _)
  rw [Session.current_write, member?_putMember, if_pos ⟨rfl, rfl⟩]
  rfl

theorem accepts_updateMemberRole {access : WorkspaceAccess} (h : Entered access l d) (u : Id)
    (role : MemberRole) :
    Accepts (updateMemberRole access u role) (fun _ _ _ => True) l d := by
  refine accepts_rollbackOnSqlError (accepts_bind (accepts_bind ?_))
  refine accepts_select h.ready fun h₁ => ?_
  cases hrow : (l.view d).memberWithUsername? access.workspace.id u with
  | none =>
      simp only [Query.eval, hrow]
      exact accepts_raise .workspaceMemberNotFound
  | some found =>
      obtain ⟨m, username⟩ := found
      simp only [Query.eval, hrow] at h₁ ⊢
      have hm := (memberWithUsername?_eq_some.mp hrow).1
      obtain ⟨hw, hu⟩ := key_of_member? hm
      have hcurrent : (l.current d).member? access.workspace.id u = some m :=
        (h.ready.aligned.view.member? _ _).symm.trans hm
      have hkey : Keyed.key (l.resolveMember m) = memberKey access.workspace.id u := by
        rw [key_resolveMember, key_member, hw, hu]
      refine accepts_pure (accepts_bind (accepts_raiseIf .ownerMembershipConflict fun _ => ?_))
      refine accepts_bind (accepts_bind (accepts_memberAttributes h₁ ?_ fun own => ?_))
      · show ((l.members.put _).find? _).isSome
        rw [Table.find?_put]
        split
        · rfl
        · exact h.own
      refine accepts_pure (accepts_bind (accepts_raiseIf .workspacePermissionDenied fun _ => ?_))
      refine accepts_bind (accepts_call h₁ fun env henv => ?_)
      have hloaded : (l.members.put (l.resolveMember m)).find? (memberKey access.workspace.id u) =
          some (l.resolveMember m) := by
        rw [Table.find?_put, if_pos hkey.symm]
      simp only [Session.exec, Session.flushMemberRole, Query.load, Session.openView,
        Session.keepMember, hloaded]
      by_cases hsame : (l.resolveMember m).role = role
      · rw [if_pos hsame]
        refine ⟨(), _, d, rfl, fun h₂ => ?_⟩
        refine accepts_bind (accepts_refreshMember h₂ ?_ fun m l' h₃ => accepts_committed h₃ _)
        exact (congrArg Option.isSome hcurrent).trans rfl
      · rw [if_neg hsame, statement_faultless henv]
        have hcurrent' : (Session.current { l with
            readView := some (l.readView.getD d)
            members := l.members.put (l.resolveMember m) } d).member? access.workspace.id u =
            some m := hcurrent
        rw [hcurrent']
        refine ⟨(), _, d, rfl, fun h₂ => ?_⟩
        refine accepts_bind (accepts_refreshMember h₂ ?_ fun m l' h₃ => accepts_committed h₃ _)
        show ((Session.current (Session.write _ _) d).member? _ _).isSome
        rw [Session.current_write, member?_putMember, if_pos ⟨hw.symm, hu.symm⟩]
        rfl

theorem accepts_clearUnfinishedTasks (h : Ready l d) (w u : Id) :
    Accepts (clearUnfinishedTasks w u) (fun _ l d => Ready l d) l d := by
  refine accepts_bind (accepts_call h fun env _ => ⟨_, _, _, rfl, fun h₁ => ?_⟩)
  refine accepts_bind (accepts_call h₁ fun env henv =>
    ⟨_, _, _, statement_faultless henv, fun h₂ => ?_⟩)
  refine accepts_forM Ready (fun t l d h => accepts_call h fun env henv => ?_) _ h₂
  simp only [Session.exec, statement_faultless henv, Session.clearAssignee]
  cases (l.current d).task? t with
  | none => exact ⟨_, _, _, rfl, fun h => h⟩
  | some row =>
      simp only
      split
      · exact ⟨_, _, _, rfl, fun h => h⟩
      · exact ⟨_, _, _, rfl, fun h => h⟩

theorem accepts_removeMember {access : WorkspaceAccess} (h : Entered access l d) (u : Id) :
    Accepts (removeMember access u) (fun _ _ _ => True) l d := by
  refine accepts_rollbackOnError (accepts_bind (accepts_lockMember h.ready (fun _ => ?_) ?_))
  · exact accepts_bind (accepts_raise .workspaceMemberNotFound)
  intro m hm h₁
  have hown : (((l.keepMember m).lock (.member access.workspace.id u)).members.find?
      (memberKey access.workspace.id access.currentUser.id)).isSome := by
    show ((l.members.put m).find? _).isSome
    rw [Table.find?_put]
    split
    · rfl
    · exact h.own
  refine accepts_bind (accepts_pure (accepts_bind (accepts_bind ?_)))
  refine accepts_memberAttributes h₁ hown fun own => accepts_pure ?_
  cases hrefused : removalRefused own.role m.role with
  | some e => exact accepts_raise (domain_removalRefused hrefused)
  | none =>
      refine accepts_bind (accepts_mono (accepts_clearUnfinishedTasks h₁ _ _) fun _ l d h₂ => ?_)
      refine accepts_bind (accepts_call h₂ fun env henv => ?_)
      simp only [Session.exec, statement_faultless henv, Session.deleteMember]
      cases (l.current d).member? access.workspace.id u with
      | none => exact ⟨_, _, _, rfl, fun h₃ => accepts_commit h₃ fun _ => trivial⟩
      | some row => exact ⟨_, _, _, rfl, fun h₃ => accepts_commit h₃ fun _ => trivial⟩

/-! ## Tasks -/

/-- A task that is there is read again and committed. -/
theorem accepts_refreshedTask (h : Ready l d) {t : Id} (ht : ((l.current d).task? t).isSome) :
    Accepts
      (do
        let refreshed ← call (.refreshTask t)
        call .commit
        return taskData refreshed)
      (fun _ _ _ => True) l d :=
  accepts_bind (accepts_refreshTask h ht fun _ _ h' => accepts_committed h' _)

theorem accepts_saveTask (h : Ready l d) (hwrites : l.writes = []) {t : Id} {p : TaskPatch}
    (hloaded : (l.tasks.find? t).isSome) (ht : (d.task? t).isSome) (hp : PatchFits d p) :
    Accepts (saveTask t p) (fun _ _ _ => True) l d := by
  have hcurrent : l.current d = d := Session.current_eq hwrites
  obtain ⟨loaded, hloaded⟩ := Option.isSome_iff_exists.mp hloaded
  obtain ⟨row, hrow⟩ := Option.isSome_iff_exists.mp ht
  refine accepts_bind (accepts_call h fun env henv => ?_)
  simp only [Session.exec, Session.flushTask, hloaded]
  by_cases hdirty : p.dirty loaded = {}
  · rw [if_pos hdirty]
    refine ⟨(), l, d, rfl, fun h₁ => accepts_refreshedTask h₁ ?_⟩
    rw [hcurrent]
    exact ht
  · have hcheck := (hp.dirty loaded).apply (h.consistent.rows.task t row hrow).2 env.now
    rw [if_neg hdirty, statement_faultless henv, hcurrent, hrow]
    simp only [hcheck]
    refine ⟨(), _, d, rfl, fun h₁ => accepts_refreshedTask h₁ ?_⟩
    show ((Session.current (Session.write _ _) d).task? t).isSome
    rw [Session.current_write, task?_putTask, if_pos]
    · rfl
    · exact (id_of_task? hrow).symm

theorem accepts_createTask {access : WorkspaceAccess} (h : Entered access l d)
    (data : TaskCreate) : Accepts (createTask access data) (fun _ _ _ => True) l d := by
  refine accepts_rollbackOnSqlError (accepts_bind (accepts_call h.ready fun env henv => ?_))
  let row : Task :=
    { id := d.nextTaskId, title := data.title, priority := data.priority,
      description := data.description, workspaceId := access.workspace.id,
      creatorId := access.currentUser.id, assigneeId := none, status := .todo,
      createdAt := env.now, updatedAt := env.now }
  have hrow : d.checkTask row = .ok () := by
    refine checkTask_iff.mpr ⟨data.title_length.2, ?_,
      trimmedLengthOk_of_strip data.title_strip data.title_length, data.priority_range,
      h.workspace, h.user, nofun⟩
    show (data.description.getD "").length ≤ 500
    cases hdescription : data.description with
    | none => exact Nat.zero_le 500
    | some s => exact data.description_length s hdescription
  have hcheck : (l.current d).checkNewTask row = .ok () := by
    rw [h.current]
    exact checkNewTask_of_free h.ready.consistent.rows.task_free hrow
  refine ⟨row, _, _, (statement_faultless henv).trans (insert_passed hcheck), fun h₁ => ?_⟩
  refine accepts_refreshedTask h₁ ?_
  rw [Session.current_write, task?_putTask, if_pos rfl]
  rfl

theorem accepts_updateTask {access : WorkspaceTaskAccess} (h : TaskEntered access l d)
    (data : TaskUpdate) : Accepts (updateTask access data) (fun _ _ _ => True) l d := by
  refine accepts_bind (accepts_membershipRole h.toEntered fun role => accepts_bind ?_)
  refine accepts_raiseIf .taskPermissionDenied fun _ => accepts_rollbackOnSqlError ?_
  exact accepts_saveTask h.ready h.writes h.loaded h.task (data.fits d)

theorem accepts_deleteTask {access : WorkspaceTaskAccess} (h : TaskEntered access l d) :
    Accepts (deleteTask access) (fun _ _ _ => True) l d := by
  refine accepts_bind (accepts_membershipRole h.toEntered fun role => accepts_bind ?_)
  refine accepts_raiseIf .taskPermissionDenied fun _ => accepts_rollbackOnSqlError ?_
  refine accepts_bind (accepts_call h.ready fun env henv => ?_)
  simp only [Session.exec, statement_faultless henv, Session.deleteTask]
  cases (l.current d).task? access.task.id with
  | none => exact ⟨_, _, _, rfl, fun h₁ => accepts_commit h₁ fun _ => trivial⟩
  | some row => exact ⟨_, _, _, rfl, fun h₁ => accepts_commit h₁ fun _ => trivial⟩

/-- The locked memberships are members, and the locks write nothing. -/
theorem accepts_lockMembershipRows {w : Id} {us : List Id}
    {Q : List WorkspaceMember → Session → Database → Prop} (h : Ready l d)
    (hwrites : l.writes = [])
    (hQ : ∀ rows l', Ready l' d → l'.writes = [] →
      (∀ m ∈ rows, (d.member? w m.userId).isSome) → Q rows l' d) :
    Accepts (lockMembershipRows w us) Q l d := by
  induction us generalizing l Q with
  | nil => exact accepts_pure (hQ [] l h hwrites nofun)
  | cons u rest ih =>
      refine accepts_bind (accepts_lockMember h (fun _ => accepts_bind ?_) fun m hm h₁ =>
        accepts_bind ?_)
      · exact ih h hwrites fun rows l' h' hwrites' hrows =>
          accepts_pure (hQ _ l' h' hwrites' hrows)
      · refine ih h₁ hwrites fun rows l' h' hwrites' hrows =>
          accepts_pure (hQ _ l' h' hwrites' fun m' hm' => ?_)
        rcases List.mem_cons.mp hm' with rfl | hm'
        · rw [Session.current_eq hwrites] at hm
          rw [(key_of_member? hm).2, hm]
          rfl
        · exact hrows m' hm'

omit [Collation] in
theorem isSome_of_membershipOf {w a : Id} {rows : List WorkspaceMember}
    (hrows : ∀ m ∈ rows, (d.member? w m.userId).isSome) (h : (membershipOf rows a).isSome) :
    (d.member? w a).isSome := by
  obtain ⟨m, hm⟩ := Option.isSome_iff_exists.mp h
  have hid : m.userId = a := by simpa using List.find?_some hm
  rw [← hid]
  exact hrows m (List.mem_of_find?_eq_some hm)

/-- What follows the locks: the task is locked and, if the request may, changed. -/
theorem accepts_decided (h : Ready l d) (hwrites : l.writes = []) {w t : Id}
    {decide : Task → Decision} {patch : TaskPatch}
    (hrefuse : ∀ row e, decide row = .refuse e → DomainError e)
    (hchange : ∀ row, decide row = .change → PatchFits d patch) :
    Accepts
      (do
        let task ← lockTask w t
        match decide task with
        | .refuse e => raise e
        | .keep => keepTask task
        | .change => saveTask task.id patch)
      (fun _ _ _ => True) l d := by
  refine accepts_bind (accepts_lockTask h fun row hrow h₁ => ?_)
  have hcurrent : l.current d = d := Session.current_eq hwrites
  rw [hcurrent] at hrow
  have ht : d.task? t = some row := (taskIn?_eq_some.mp hrow).1
  cases hdecide : decide row with
  | refuse e => exact accepts_raise (hrefuse row e hdecide)
  | keep => exact accepts_committed h₁ _
  | change =>
      refine accepts_saveTask h₁ hwrites ?_ ?_ (hchange row hdecide)
      · show ((l.tasks.put row).find? row.id).isSome
        rw [Table.find?_put, if_pos (key_task row).symm]
        rfl
      · rw [id_of_task? ht, ht]
        rfl

theorem accepts_updateTaskStatus {access : WorkspaceTaskAccess} (h : TaskEntered access l d)
    (data : TaskStatusUpdate) :
    Accepts (updateTaskStatus access data) (fun _ _ _ => True) l d := by
  refine accepts_rollbackOnError (accepts_bind ?_)
  refine accepts_lockMembershipRows h.ready h.writes fun rows l₁ h₁ hwrites₁ _ => accepts_bind ?_
  refine accepts_orRaise .workspaceNotFound fun own _ => ?_
  exact accepts_decided h₁ hwrites₁ (fun row e => domain_decideStatus) fun _ _ => fits_status d _

theorem accepts_updateTaskAssignee {access : WorkspaceTaskAccess} (h : TaskEntered access l d)
    (data : TaskAssigneeUpdate) :
    Accepts (updateTaskAssignee access data) (fun _ _ _ => True) l d := by
  refine accepts_rollbackOnError (accepts_bind (accepts_membershipRole h.toEntered fun role => ?_))
  refine accepts_bind (accepts_raiseIf .taskPermissionDenied fun _ => accepts_bind ?_)
  refine accepts_lockMembershipRows h.ready h.writes fun rows l₁ h₁ hwrites₁ hrows => ?_
  refine accepts_bind (accepts_orRaise .workspaceNotFound fun own _ => accepts_bind ?_)
  refine accepts_raiseIf .taskPermissionDenied fun _ => ?_
  refine accepts_decided h₁ hwrites₁ (fun row e => domain_decideAssignee) fun row hchange => ?_
  refine fits_assignee fun a ha => ?_
  obtain ⟨_, _, hmembers | hclaim | hrelease⟩ := decideAssignee_change hchange
  · have hmember := isSome_of_membershipOf hrows (hmembers.2 a ha)
    exact (h.ready.consistent.rows.member_isSome hmember).2
  · obtain ⟨_, hself, _⟩ := canSelfClaimTask_iff.mp hclaim
    rw [hself, Option.mem_some] at ha
    rw [← ha]
    exact h.user
  · obtain ⟨_, hnone, _⟩ := canSelfReleaseTask_iff.mp hrelease
    rw [hnone] at ha
    cases ha

end Services

/-! ## Requests -/

/-- The schemas accept what the request carries. -/
def Request.WellFormed : Request → Prop
  | createUser _ body => body.isSome
  | createWorkspace _ body => body.isSome
  | listWorkspaces _ page => page.isSome
  | listMembers _ _ page => page.isSome
  | addMember _ _ body => body.isSome
  | updateMemberRole _ _ _ body => body.isSome
  | listTasks _ _ query => query.isSome
  | createTask _ _ body => body.isSome
  | updateTask _ _ _ body => body.isSome
  | updateTaskStatus _ _ _ body => body.isSome
  | updateTaskAssignee _ _ _ body => body.isSome
  | login _ _ _ | getMe _ | getWorkspace _ _ | removeMember _ _ _ | getTask _ _ _
  | deleteTask _ _ _ => True

section Requests

variable [Collation] {α : Type} {l : Session} {d : Database}

theorem accepts_validBody {body : Option α} (hbody : body.isSome)
    {Q : α → Session → Database → Prop} (hQ : ∀ b, Q b l d) : Accepts (validBody body) Q l d := by
  cases body with
  | none => cases hbody
  | some b => exact hQ b

/-- A service whose body does not matter. -/
theorem accepts_returned {x : Service α} {f : α → Body}
    (hx : Accepts x (fun _ _ _ => True) l d) :
    Accepts (do return f (← x)) (fun _ _ _ => True) l d :=
  accepts_bind (accepts_mono hx fun _ _ _ h => h)

theorem accepts_route (h : Ready {} d) {request : Request} (hbody : request.WellFormed) :
    Accepts request.route (fun _ _ _ => True) {} d := by
  cases request with
  | createUser ip body =>
      refine accepts_bind (accepts_enforceAuthLimit h (accepts_bind ?_))
      exact accepts_validBody hbody fun data => accepts_returned (accepts_createUser h rfl data)
  | login ip username password =>
      refine accepts_bind (accepts_enforceAuthLimit h (accepts_bind (accepts_bind ?_)))
      refine accepts_getUserByUsername h (fun _ _ => ?_) fun user _ h₁ => ?_
      · exact accepts_bind (accepts_raise .invalidCredentials)
      refine accepts_bind (accepts_pure (accepts_bind (accepts_call h₁ fun env _ => ?_)))
      refine ⟨_, _, _, rfl, fun _ => accepts_bind (accepts_raiseIf .invalidCredentials ?_)⟩
      exact fun _ => trivial
  | getMe subject =>
      exact accepts_returned (accepts_getCurrentUser h rfl fun _ _ _ => trivial)
  | createWorkspace subject body =>
      refine accepts_bind (accepts_getCurrentUser h rfl fun user huser h₁ => accepts_bind ?_)
      refine accepts_enforceWriteLimit h₁ (accepts_bind ?_)
      exact accepts_validBody hbody fun data =>
        accepts_returned (accepts_createWorkspace h₁ rfl huser data)
  | listWorkspaces subject page =>
      refine accepts_bind (accepts_getCurrentUser h rfl fun user _ h₁ => accepts_bind ?_)
      refine accepts_validBody hbody fun page => accepts_returned (accepts_bind ?_)
      exact accepts_select h₁ fun h₂ => accepts_bind (accepts_select h₂ fun _ => trivial)
  | getWorkspace subject w =>
      refine accepts_bind (accepts_workspaceAccess h rfl fun access l ha => ?_)
      exact accepts_returned (accepts_bind (accepts_membershipRole ha fun _ => trivial))
  | listMembers subject w page =>
      refine accepts_bind (accepts_workspaceAccess h rfl fun access l ha => accepts_bind ?_)
      refine accepts_validBody hbody fun page => accepts_returned (accepts_bind ?_)
      exact accepts_select ha.ready fun h₂ => accepts_bind (accepts_select h₂ fun _ => trivial)
  | addMember subject w body =>
      refine accepts_bind (accepts_limitedRoleAccess h rfl fun access l ha => accepts_bind ?_)
      exact accepts_validBody hbody fun data => accepts_returned (accepts_addMember ha _ _)
  | updateMemberRole subject w u body =>
      refine accepts_bind (accepts_limitedRoleAccess h rfl fun access l ha => accepts_bind ?_)
      exact accepts_validBody hbody fun data => accepts_returned (accepts_updateMemberRole ha _ _)
  | removeMember subject w u =>
      refine accepts_bind (accepts_limitedRoleAccess h rfl fun access l ha => accepts_bind ?_)
      exact accepts_removeMember ha u
  | listTasks subject w query =>
      refine accepts_bind (accepts_workspaceAccess h rfl fun access l ha => accepts_bind ?_)
      refine accepts_validBody hbody fun query => accepts_returned (accepts_bind ?_)
      exact accepts_select ha.ready fun h₂ => accepts_bind (accepts_select h₂ fun _ => trivial)
  | createTask subject w body =>
      refine accepts_bind (accepts_limitedWorkspaceAccess h rfl fun access l ha => accepts_bind ?_)
      exact accepts_validBody hbody fun data => accepts_returned (accepts_createTask ha data)
  | getTask subject w t =>
      exact accepts_bind (accepts_taskAccess h rfl fun _ _ _ => trivial)
  | updateTask subject w t body =>
      refine accepts_bind (accepts_limitedTaskAccess h rfl fun access l ha => accepts_bind ?_)
      exact accepts_validBody hbody fun data => accepts_returned (accepts_updateTask ha data)
  | updateTaskStatus subject w t body =>
      refine accepts_bind (accepts_limitedTaskAccess h rfl fun access l ha => accepts_bind ?_)
      exact accepts_validBody hbody fun data => accepts_returned (accepts_updateTaskStatus ha data)
  | updateTaskAssignee subject w t body =>
      refine accepts_bind (accepts_limitedTaskAccess h rfl fun access l ha => accepts_bind ?_)
      exact accepts_validBody hbody fun data =>
        accepts_returned (accepts_updateTaskAssignee ha data)
  | deleteTask subject w t =>
      refine accepts_bind (accepts_limitedTaskAccess h rfl fun access l ha => accepts_bind ?_)
      exact accepts_deleteTask ha

theorem smooth_program (hd : Consistent d) {request : Request} (hbody : request.WellFormed) :
    smooth Session.machine Env.Faultless Succeeds request.program
      (fun response _ _ => match response with
        | .ok _ => True
        | .error e => e.IsDomain) {} d := by
  have hready : Ready {} d := ⟨nofun, hd, trivial⟩
  refine (smooth_bind _ _ _ _ _ _ _ _).mpr (smooth_mono _ _ _ (fun response l d h => ?_)
    (accepts_route hready hbody))
  cases response with
  | ok body => exact fun env _ => ⟨⟨(), rfl⟩, trivial⟩
  | error e => exact fun env _ => ⟨⟨(), rfl⟩, h⟩

/-- From any reachable state, a request that is served alone has no statement rejected
and ends in success or in a domain error, and every row satisfies the constraints
afterwards. -/
theorem request_accepted {d₀ : Database} (hd : Consistent d₀)
    {σ : System Request Call Call.Res Response Session Database} (hr : Reaches d₀ σ)
    {request : Request} (hbody : request.WellFormed) {env : Nat → Env}
    (henv : ∀ n, (env n).Faultless) :
    (∀ c ∈ Session.machine.trace env request.program 0 {} σ.shared, ∃ v, c.2 = .ok v) ∧
      ((∃ body, (serve env request σ.shared).1 = .ok body) ∨
        ∃ e, (serve env request σ.shared).1 = .error (.app e) ∧ DomainError e) ∧
      Consistent (serve env request σ.shared).2 := by
  have hrows : Consistent σ.shared := (consistent_of_reaches hd hr).rows
  have hsmooth := smooth_program hrows hbody
  refine ⟨trace_of_smooth henv hsmooth 0, ?_, consistent_run hrows env request.program⟩
  have hresponse := run_of_smooth henv hsmooth 0
  change match (serve env request σ.shared).1 with
    | .ok _ => True
    | .error e => e.IsDomain at hresponse
  cases hserve : (serve env request σ.shared).1 with
  | ok body => exact Or.inl ⟨body, rfl⟩
  | error e =>
      rw [hserve] at hresponse
      cases e with
      | app e => exact Or.inr ⟨e, rfl, hresponse⟩
      | sql e => exact hresponse.elim
      | validation => exact hresponse.elim

end Requests

/-- An environment that lets a registration pass. -/
def registrationEnv : Env :=
  { hash := fun _ => "hash", limiter := fun _ => .ok ⟨true, 5, 1, 4, 60⟩ }

/-- The first registration in an empty database. -/
def registration : Request := .createUser "127.0.0.1" (UserCreate.validate "alice" "password")

theorem request_accepted_registration :
    let _ := sampleCollation
    (∀ c ∈ Session.machine.trace (fun _ => registrationEnv) registration.program 0 {} empty,
        ∃ v, c.2 = .ok v) ∧
      ((∃ body, (serve (fun _ => registrationEnv) registration empty).1 = .ok body) ∨
        ∃ e, (serve (fun _ => registrationEnv) registration empty).1 = .error (.app e) ∧
          DomainError e) ∧
      Consistent (serve (fun _ => registrationEnv) registration empty).2 := by
  intro collation
  have hbody : registration.WellFormed :=
    show (UserCreate.validate "alice" "password").isSome by decide +kernel
  have hhash : ("hash" : String).length ≤ 255 := by decide
  have hstart : Reaches empty (System.start empty) := .start
  exact request_accepted consistent_empty hstart hbody fun _ => ⟨rfl, fun _ => hhash⟩

end TaskPlatform
