import TaskPlatform.Mediation.Rules

/-!
# The dependencies of the routes

What a request has shown when its dependencies have let it through.
-/

namespace TaskPlatform

open Transaction Service

variable {request : Request} {h : Dialogue Call.Res} {w t : Id} {scope : Scope}

theorem unchecked_nil : Unchecked [] := fun _ _ hmem => absurd hmem List.not_mem_nil

theorem Unchecked.said (hu : Unchecked h) {c : Call} {r : c.Res}
    (hc : ∀ check, c ≠ .checkRateLimit check) : Unchecked (h ++ [⟨c, r⟩]) := by
  intro check r' hmem
  rcases List.mem_append.mp hmem with hold | hnew
  · exact hu check r' hold
  · have heq := List.mem_singleton.mp hnew
    exact hc check (congrArg Sigma.fst heq).symm

theorem mediates_getCurrentUser (ht : request.takesToken = true) (hu : Unchecked h) :
    Mediates request (fun user h' => Unchecked h' ∧ Caller request h' user)
      (getCurrentUser request.subject) h := by
  refine mediates_bind (mediates_orRaise (.missingToken ht) fun username hs => ?_)
  refine mediates_bind (mediates_call (.identify hs) fun row _ htold => ?_)
  refine mediates_orRaise (fun hnone => ?_) fun user hsome => ?_
  · subst hnone
    exact .unknownSubject hs htold
  · subst hsome
    exact ⟨hu.said fun _ heq => (by cases heq), username, hs, htold⟩

theorem mediates_membershipRole {access : WorkspaceAccess}
    (hm : MemberOf request h access.currentUser access.workspace.id)
    {Q : MemberRole → Dialogue Call.Res → Prop}
    (hQ : ∀ m, let h' := h ++ [⟨.memberAttributes access.workspace.id access.currentUser.id, .ok m⟩]
      Told h' (.memberAttributes access.workspace.id access.currentUser.id) m → Q m.role h') :
    Mediates request Q access.membershipRole h :=
  mediates_bind (mediates_call (.ownRole hm) fun m _ htold => hQ m htold)

theorem mediates_workspaceAccess (ht : request.takesToken = true)
    (hw : request.workspaceId? = some w) (hu : Unchecked h) :
    Mediates request (fun access h' => Unchecked h' ∧ MemberOf request h' access.currentUser w ∧
      access.workspace.id = w) (workspaceAccess request.subject w) h := by
  refine mediates_bind (mediates_imp (mediates_getCurrentUser ht hu) fun user h' _ hcaller => ?_)
  obtain ⟨hunchecked, hcaller⟩ := hcaller
  refine mediates_bind (mediates_call (.enter hcaller hw) fun row hfits htold => ?_)
  refine mediates_bind (mediates_orRaise (fun hnone => ?_) fun found hsome => ?_)
  · subst hnone
    exact .notMember (hcaller.mono (sub_said _ _)) hw htold
  · subst hsome
    refine ⟨hunchecked.said fun _ heq => (by cases heq), ?_, hfits⟩
    exact ⟨hcaller.mono (sub_said _ _), hw, found, htold⟩

theorem mediates_taskAccess (ht : request.takesToken = true)
    (hw : request.workspaceId? = some w) (htask : request.taskId? = some t) (hu : Unchecked h) :
    Mediates request (fun access h' => Unchecked h' ∧
      TaskOf request h' access.workspaceAccess.currentUser w access.task ∧
      access.workspaceAccess.workspace.id = w ∧ access.task.id = t)
      (taskAccess request.subject w t) h := by
  refine mediates_bind (mediates_imp (mediates_workspaceAccess ht hw hu)
    fun access h' _ hmember => ?_)
  obtain ⟨hunchecked, hmember, hid⟩ := hmember
  refine mediates_bind (mediates_call (.findTask hmember htask) fun row hfits htold => ?_)
  refine mediates_bind (mediates_orRaise (fun hnone => ?_) fun task hsome => ?_)
  · subst hnone
    exact .noTask (hmember.mono (sub_said _ _)) htask htold
  · subst hsome
    have hkey : task.id = t := hfits
    subst hkey
    refine ⟨hunchecked.said fun _ heq => (by cases heq), ?_, hid, rfl⟩
    exact ⟨hmember.mono (sub_said _ _), htask, htold⟩

/-! ## The write guard -/

theorem mediates_enforceWriteLimit {user : User} (hs : request.scope? = some scope)
    (hu : Entitled request h user) (hfirst : Unchecked h) :
    Mediates request (fun _ h' => Qualified request h')
      (enforceWriteLimit user.id scope request.workspaceId?) h := by
  have hcharged : ChargedTo request h _ := .write hs hu
  refine mediates_bind (mediates_call (.charge hcharged hfirst) fun r _ htold => ?_)
  have hcharged := hcharged.mono (sub_said h ⟨.checkRateLimit _, .ok r⟩)
  cases r with
  | error e => exact .charged hcharged htold fun _ heq => (by cases heq)
  | ok decision =>
      by_cases hallowed : decision.allowed = true
      · have hok : enforceWriteRateLimit (.ok decision) = .ok () := if_pos hallowed
        simp only [hok]
        refine .charged hcharged htold fun decision' heq => ?_
        cases heq
        exact hallowed
      · have hover : enforceWriteRateLimit (.ok decision) =
            .error (rateLimitExceededError decision.limit decision.retryAfter) := if_neg hallowed
        simp only [hover]
        exact .exceeded hcharged htold (Bool.eq_false_of_not_eq_true hallowed)

theorem MemberOf.only {user : User} (hm : MemberOf request h user w) (v : Id)
    (hv : request.workspaceId? = some v) : MemberOf request h user v := by
  rw [hm.addressed, Option.some.injEq] at hv
  exact hv ▸ hm

theorem Caller.entitled {user : User} (hu : Caller request h user)
    (hw : request.workspaceId? = none) (hr : request.allowedRoles? = none)
    (ht : request.taskId? = none) : Entitled request h user where
  toCaller := hu
  member := fun v hv => by rw [hw] at hv; cases hv
  role := fun roles hroles => by rw [hr] at hroles; cases hroles
  task := fun t' ht' => by rw [ht] at ht'; cases ht'

theorem MemberOf.entitled {user : User} (hm : MemberOf request h user w)
    (hr : request.allowedRoles? = none) (ht : request.taskId? = none) :
    Entitled request h user where
  toCaller := hm.toCaller
  member := hm.only
  role := fun roles hroles => by rw [hr] at hroles; cases hroles
  task := fun t' ht' => by rw [ht] at ht'; cases ht'

theorem TaskOf.entitled {user : User} {task : Task} (ht : TaskOf request h user w task)
    (hr : request.allowedRoles? = none) : Entitled request h user where
  toCaller := ht.toCaller
  member := ht.toMemberOf.only
  role := fun roles hroles => by rw [hr] at hroles; cases hroles
  task := fun _ _ => ⟨w, task, ht⟩

theorem mediates_limitedWorkspaceAccess (ht : request.takesToken = true)
    (hw : request.workspaceId? = some w) (hs : request.scope? = some scope)
    (hr : request.allowedRoles? = none) (htask : request.taskId? = none) (hu : Unchecked h) :
    Mediates request (fun access h' => MemberOf request h' access.currentUser w ∧
      access.workspace.id = w ∧ Qualified request h')
      (limitedWorkspaceAccess scope request.subject w) h := by
  refine mediates_bind (mediates_imp (mediates_workspaceAccess ht hw hu)
    fun access h' _ hmember => ?_)
  obtain ⟨hunchecked, hmember, hid⟩ := hmember
  rw [hid, ← hw]
  refine mediates_bind (mediates_imp
    (mediates_enforceWriteLimit hs (hmember.entitled hr htask) hunchecked) fun _ h'' hsub hq => ?_)
  exact ⟨hmember.mono hsub, hid, hq⟩

theorem mediates_limitedRoleAccess {roles : List MemberRole} (ht : request.takesToken = true)
    (hw : request.workspaceId? = some w) (hs : request.scope? = some scope)
    (hr : request.allowedRoles? = some roles) (htask : request.taskId? = none)
    (hu : Unchecked h) :
    Mediates request (fun access h' => MemberOf request h' access.currentUser w ∧
      access.workspace.id = w ∧ Qualified request h')
      (limitedRoleAccess scope roles request.subject w) h := by
  refine mediates_bind (mediates_imp (mediates_workspaceAccess ht hw hu)
    fun access h' _ hmember => ?_)
  obtain ⟨hunchecked, hmember, hid⟩ := hmember
  subst hid
  refine mediates_bind (mediates_bind (mediates_membershipRole hmember fun m htold => ?_))
  have hmember := hmember.mono (sub_said h' ⟨_, .ok m⟩)
  refine mediates_raiseIf (fun hrole => .wrongRole hmember hr htold hrole) fun hrole => ?_
  have hentitled : Entitled request _ access.currentUser :=
    { hmember.toCaller with
      member := hmember.only
      role := fun roles' hroles => by
        rw [hr, Option.some.injEq] at hroles
        exact ⟨_, m, htold, hw, hroles ▸ not_not.mp hrole⟩
      task := fun t' ht' => by rw [htask] at ht'; cases ht' }
  have hunchecked := hunchecked.said (r := .ok m)
    (c := .memberAttributes access.workspace.id access.currentUser.id) fun _ heq => by cases heq
  rw [← hw]
  refine mediates_bind (mediates_imp (mediates_enforceWriteLimit hs hentitled hunchecked)
    fun _ h'' hsub hq => ?_)
  exact ⟨hmember.mono hsub, rfl, hq⟩

theorem mediates_limitedTaskAccess (ht : request.takesToken = true)
    (hw : request.workspaceId? = some w) (htask : request.taskId? = some t)
    (hs : request.scope? = some scope) (hr : request.allowedRoles? = none) (hu : Unchecked h) :
    Mediates request (fun access h' =>
      TaskOf request h' access.workspaceAccess.currentUser w access.task ∧
      access.workspaceAccess.workspace.id = w ∧ access.task.id = t ∧ Qualified request h')
      (limitedTaskAccess scope request.subject w t) h := by
  refine mediates_bind (mediates_imp (mediates_taskAccess ht hw htask hu)
    fun access h' _ hfound => ?_)
  obtain ⟨hunchecked, hfound, hid, hkey⟩ := hfound
  rw [hid, ← hw]
  refine mediates_bind (mediates_imp
    (mediates_enforceWriteLimit hs (hfound.entitled hr) hunchecked) fun _ h'' hsub hq => ?_)
  exact ⟨hfound.mono hsub, hid, hkey, hq⟩

/-! ## The registration and login guards -/

theorem mediates_enforceAuthLimit {check : RateCheck} (ht : request.takesToken = false)
    (hc : ChargedTo request h check)
    (hadmits : ∀ decision, decision.allowed = true → Admits check (.ok decision))
    (hfirst : Unchecked h) :
    Mediates request (fun _ h' => Qualified request h') (enforceAuthLimit check) h := by
  refine mediates_bind (mediates_call (.charge hc hfirst) fun r _ htold => ?_)
  have hc := hc.mono (sub_said h ⟨.checkRateLimit check, .ok r⟩)
  cases r with
  | error e => exact .unavailable ht hc htold
  | ok decision =>
      by_cases hallowed : decision.allowed = true
      · have hok : enforceAuthRateLimit (.ok decision) = .ok () := if_pos hallowed
        simp only [hok]
        exact .charged hc htold (hadmits decision hallowed)
      · have hover : enforceAuthRateLimit (.ok decision) =
            .error (rateLimitExceededError decision.limit decision.retryAfter) := if_neg hallowed
        simp only [hover]
        exact .exceeded hc htold (Bool.eq_false_of_not_eq_true hallowed)

/-- The body is judged after the dependencies. -/
theorem mediates_validBody {α : Type} {body : Option α} {Q : α → Dialogue Call.Res → Prop}
    (hq : Qualified request h) (hnone : body = none → request.accepted = false)
    (hsome : ∀ data, body = some data → Q data h) : Mediates request Q (validBody body) h := by
  cases body with
  | none => exact .invalid hq (hnone rfl)
  | some data => exact hsome data rfl

end TaskPlatform
