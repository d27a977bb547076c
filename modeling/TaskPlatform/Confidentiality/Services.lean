import TaskPlatform.Confidentiality.Calls

/-!
# The services look at nothing outside a sight

One walk through each service: every call it issues is one of `calling S`, and
what it passes on to the next is within the sight.  Which workspaces those are is
learned from the access dependency, which joins the workspace with the user's own
membership.
-/

namespace TaskPlatform

open Relational Transaction Database Service

variable [Collation] {S : Sight} {writes : Prop} {α β : Type}

/-! ## Rules -/

theorem calls_call {c : Call} {Q : c.Val → Prop} (hmay : S.MayCall writes c)
    (hQ : ∀ v, S.Tells c v → Q v) : CallsE (calling S writes) (call c) Q := by
  refine ⟨hmay, fun r hr a ha => ?_⟩
  cases r with
  | error e => cases ha
  | ok v =>
      cases ha
      exact hQ _ (hr _ rfl)

/-- A call whose answer tells nothing. -/
theorem calls_plain {c : Call} (hmay : S.MayCall writes c) :
    CallsE (calling S writes) (call c) fun _ => True :=
  calls_call hmay fun _ _ => trivial

theorem calls_raise {Q : α → Prop} (e : AppException) :
    CallsE (calling S writes) (raise e : Service α) Q := callsE_throw _

theorem calls_raiseIf (c : Prop) [Decidable c] (e : AppException) :
    CallsE (calling S writes) (raiseIf c e) fun _ => ¬ c := by
  unfold raiseIf
  split
  · exact calls_raise e
  · exact callsE_pure ‹_›

theorem calls_orRaise (o : Option α) (e : AppException) :
    CallsE (calling S writes) (orRaise o e) fun a => o = some a := by
  cases o with
  | none => exact calls_raise e
  | some a => exact callsE_pure rfl

theorem calls_validBody (body : Option α) :
    CallsE (calling S writes) (validBody body) fun _ => True := by
  cases body with
  | none => exact callsE_throw _
  | some a => exact callsE_pure trivial

theorem calls_rollbackOnSqlError {body : Service α} {Q : α → Prop}
    (h : CallsE (calling S writes) body Q) :
    CallsE (calling S writes) (rollbackOnSqlError body) Q := by
  refine callsE_tryCatch h fun e => ?_
  cases e with
  | sql e => exact callsE_bind (calls_call trivial fun _ _ => callsE_throw _)
  | app e => exact callsE_throw _
  | validation => exact callsE_throw _

theorem calls_rollbackOnError {body : Service α} {Q : α → Prop}
    (h : CallsE (calling S writes) body Q) :
    CallsE (calling S writes) (rollbackOnError body) Q := by
  refine callsE_tryCatch h fun e => ?_
  cases e with
  | sql e => exact callsE_bind (calls_call trivial fun _ _ => callsE_throw _)
  | app e => exact callsE_bind (calls_call trivial fun _ _ => callsE_throw _)
  | validation => exact callsE_throw _

/-- What comes before matters for what it passes on only. -/
theorem calls_then {x : Service α} {f : α → Service β} {P : α → Prop} {Q : β → Prop}
    (hx : CallsE (calling S writes) x P) (hf : ∀ a, P a → CallsE (calling S writes) (f a) Q) :
    CallsE (calling S writes) (x >>= f) Q :=
  callsE_bind (callsE_mono hf hx)

/-! ## Dependencies -/

/-- The token of a request is the user's. -/
def Sight.Owns (S : Sight) (subject : Option String) : Prop :=
  ∀ name ∈ subject, Collation.weight name = Collation.weight S.user.username

/-- Access was granted to the user, within the sight. -/
structure Admitted (S : Sight) (w : Id) (access : WorkspaceAccess) : Prop where
  workspace : access.workspace.id = w
  user : access.currentUser = S.user
  within : S.workspaces w

structure TaskAdmitted (S : Sight) (w : Id) (access : WorkspaceTaskAccess) : Prop where
  admitted : Admitted S w access.workspaceAccess
  task : S.tasks access.task.id

theorem calls_getCurrentUser {subject : Option String} (hs : S.Owns subject) :
    CallsE (calling S writes) (getCurrentUser subject) fun user => user = S.user := by
  refine calls_then (calls_orRaise subject _) fun name hname => ?_
  have hask : CallsE (calling S writes) (getUserByUsername name)
      fun o => ∀ user, o = some user → user = S.user :=
    calls_call (hs name hname) fun v hv user huser => by
      subst huser
      exact hv
  exact calls_then hask fun o ho => callsE_mono ho (calls_orRaise o _)

theorem calls_workspaceAccess {subject : Option String} (hs : S.Owns subject) (w : Id) :
    CallsE (calling S writes) (workspaceAccess subject w) (Admitted S w) := by
  refine calls_then (calls_getCurrentUser hs) fun user huser => ?_
  have hask : CallsE (calling S writes) (call (.select (.workspaceAccess w user.id)))
      fun o => ∀ row, o = some row → S.workspaces w ∧ row.1.id = w := by
    refine calls_call (congrArg User.id huser) fun v hv row hrow => ?_
    subst hrow
    exact hv
  refine calls_then hask fun o ho => calls_then (calls_orRaise o _) fun row hrow => ?_
  exact callsE_pure ⟨(ho row hrow).2, huser, (ho row hrow).1⟩

theorem calls_membershipRole (access : WorkspaceAccess) :
    CallsE (calling S writes) access.membershipRole fun _ => True :=
  calls_then (calls_plain trivial) fun _ _ => callsE_pure trivial

theorem calls_enforceWriteLimit (userId : Id) (scope : Scope) (workspaceId : Option Id) :
    CallsE (calling S writes) (enforceWriteLimit userId scope workspaceId) fun _ => True := by
  refine calls_then (calls_plain trivial) fun decision _ => ?_
  cases enforceWriteRateLimit decision with
  | ok _ => exact callsE_pure trivial
  | error e => exact calls_raise e

theorem calls_limitedWorkspaceAccess {subject : Option String} (hs : S.Owns subject)
    (scope : Scope) (w : Id) :
    CallsE (calling S writes) (limitedWorkspaceAccess scope subject w) (Admitted S w) := by
  refine calls_then (calls_workspaceAccess hs w) fun access haccess => ?_
  exact calls_then (calls_enforceWriteLimit _ _ _) fun _ _ => callsE_pure haccess

theorem calls_limitedRoleAccess {subject : Option String} (hs : S.Owns subject)
    (scope : Scope) (roles : List MemberRole) (w : Id) :
    CallsE (calling S writes) (limitedRoleAccess scope roles subject w) (Admitted S w) := by
  refine calls_then (calls_workspaceAccess hs w) fun access haccess => ?_
  have hroles : CallsE (calling S writes) (requireWorkspaceRoles roles access) fun _ => True :=
    calls_then (calls_membershipRole access) fun _ _ =>
      callsE_mono (fun _ _ => trivial) (calls_raiseIf _ _)
  refine calls_then hroles fun _ _ => ?_
  exact calls_then (calls_enforceWriteLimit _ _ _) fun _ _ => callsE_pure haccess

theorem calls_taskAccess {subject : Option String} (hs : S.Owns subject) (w t : Id) :
    CallsE (calling S writes) (taskAccess subject w t) (TaskAdmitted S w) := by
  refine calls_then (calls_workspaceAccess hs w) fun access haccess => ?_
  have hask : CallsE (calling S writes) (call (.select (.taskIn t w)))
      fun o => ∀ row, o = some row → S.tasks row.id :=
    calls_call haccess.within fun v hv row hrow => by
      subst hrow
      exact hv
  refine calls_then hask fun o ho => calls_then (calls_orRaise o _) fun row hrow => ?_
  exact callsE_pure ⟨haccess, ho row hrow⟩

theorem calls_limitedTaskAccess {subject : Option String} (hs : S.Owns subject) (scope : Scope)
    (w t : Id) :
    CallsE (calling S writes) (limitedTaskAccess scope subject w t) (TaskAdmitted S w) := by
  refine calls_then (calls_taskAccess hs w t) fun access haccess => ?_
  exact calls_then (calls_enforceWriteLimit _ _ _) fun _ _ => callsE_pure haccess

/-! ## Services that read -/

section Reading

variable {w : Id} {access : WorkspaceAccess} (h : Admitted S w access)
include h

theorem calls_listMembers (page : PageQuery) :
    CallsE (calling S writes) (listMembers access page) fun _ => True := by
  have hwithin : S.workspaces access.workspace.id := h.workspace ▸ h.within
  refine calls_then (calls_plain hwithin) fun _ _ => ?_
  exact calls_then (calls_plain hwithin) fun _ _ => callsE_pure trivial

theorem calls_listTasks (query : TaskListQuery) :
    CallsE (calling S writes) (listTasks access query) fun _ => True := by
  have hwithin : S.workspaces access.workspace.id := h.workspace ▸ h.within
  refine calls_then (calls_plain hwithin) fun _ _ => ?_
  exact calls_then (calls_plain hwithin) fun _ _ => callsE_pure trivial

end Reading

theorem calls_listWorkspaces {user : User} (h : user = S.user) (page : PageQuery) :
    CallsE (calling S writes) (listWorkspaces user page) fun _ => True := by
  have hown : user.id = S.user.id := congrArg User.id h
  refine calls_then (calls_plain hown) fun _ _ => ?_
  exact calls_then (calls_plain hown) fun _ _ => callsE_pure trivial

theorem calls_getWorkspaceData (access : WorkspaceAccess) :
    CallsE (calling S writes) (getWorkspaceData access) fun _ => True :=
  calls_then (calls_membershipRole access) fun _ _ => callsE_pure trivial

/-! ## Services that write -/

section Writing

variable {w : Id} (hwrites : writes)
include hwrites

theorem calls_updateMemberRole {access : WorkspaceAccess} (h : Admitted S w access) (u : Id)
    (role : MemberRole) :
    CallsE (calling S writes) (updateMemberRole access u role) fun _ => True := by
  have hwithin : S.workspaces access.workspace.id := h.workspace ▸ h.within
  refine calls_rollbackOnSqlError ?_
  have htarget : CallsE (calling S writes) (getMemberWithUsername access.workspace.id u)
      fun _ => True :=
    calls_then (calls_plain hwithin) fun o _ => callsE_mono (fun _ _ => trivial) (calls_orRaise o _)
  refine calls_then htarget fun row _ => ?_
  refine calls_then (calls_raiseIf _ _) fun _ _ => ?_
  refine calls_then (calls_membershipRole access) fun _ _ => ?_
  refine calls_then (calls_raiseIf _ _) fun _ _ => ?_
  refine calls_then (calls_plain ⟨hwrites, hwithin⟩) fun _ _ => ?_
  refine calls_then (calls_plain hwithin) fun _ _ => ?_
  exact calls_then (calls_plain hwrites) fun _ _ => callsE_pure trivial

theorem calls_removeMember {access : WorkspaceAccess} (h : Admitted S w access) (u : Id) :
    CallsE (calling S writes) (removeMember access u) fun _ => True := by
  have hwithin : S.workspaces access.workspace.id := h.workspace ▸ h.within
  refine calls_rollbackOnError ?_
  refine calls_then (calls_plain hwithin) fun o _ => ?_
  refine calls_then (calls_orRaise o _) fun target _ => ?_
  refine calls_then (calls_membershipRole access) fun role _ => ?_
  cases removalRefused role target.role with
  | some e => exact calls_raise e
  | none =>
      have hclear : CallsE (calling S writes) (clearUnfinishedTasks access.workspace.id u)
          fun _ => True := by
        refine calls_then (calls_plain trivial) fun _ _ => ?_
        refine calls_then (calls_plain hwithin) fun ids _ => ?_
        exact callsE_forM fun t _ => calls_plain ⟨hwrites, hwithin⟩
      refine calls_then hclear fun _ _ => ?_
      refine calls_then (calls_plain ⟨hwrites, hwithin⟩) fun _ _ => ?_
      exact calls_plain hwrites

theorem calls_saveTask {t : Id} (ht : S.tasks t) {patch : TaskPatch}
    (hpatch : ∀ a, patch.assigneeId = some (some a) → S.users a) :
    CallsE (calling S writes) (saveTask t patch) fun _ => True := by
  refine calls_then (calls_plain ⟨hwrites, hpatch⟩) fun _ _ => ?_
  refine calls_then (calls_plain ht) fun _ _ => ?_
  exact calls_then (calls_plain hwrites) fun _ _ => callsE_pure trivial

theorem calls_keepTask (task : Task) :
    CallsE (calling S writes) (keepTask task) fun _ => True :=
  calls_then (calls_plain hwrites) fun _ _ => callsE_pure trivial

variable {access : WorkspaceTaskAccess} (h : TaskAdmitted S w access)
include h

theorem calls_updateTask (data : TaskUpdate) :
    CallsE (calling S writes) (updateTask access data) fun _ => True := by
  refine calls_then (calls_membershipRole _) fun _ _ => ?_
  refine calls_then (calls_raiseIf _ _) fun _ _ => ?_
  exact calls_rollbackOnSqlError (calls_saveTask hwrites h.task nofun)

theorem calls_deleteTask : CallsE (calling S writes) (deleteTask access) fun _ => True := by
  refine calls_then (calls_membershipRole _) fun _ _ => ?_
  refine calls_then (calls_raiseIf _ _) fun _ _ => ?_
  refine calls_rollbackOnSqlError ?_
  refine calls_then (calls_plain ⟨hwrites, h.task⟩) fun _ _ => ?_
  exact calls_plain hwrites

omit hwrites in
/-- Whoever was locked as a member is known to exist. -/
theorem calls_lockWorkspaceMemberships (ids : List Id) :
    CallsE (calling S writes)
      (lockWorkspaceMemberships access.workspaceAccess.workspace.id ids)
      fun rows => ∀ m ∈ rows, S.users m.userId := by
  have hwithin : S.workspaces access.workspaceAccess.workspace.id :=
    h.admitted.workspace ▸ h.admitted.within
  unfold lockWorkspaceMemberships
  generalize (ids.dedup.insertionSort fun a b => a ≤ b) = sorted
  induction sorted with
  | nil => exact callsE_pure nofun
  | cons u rest ih =>
      have hlock : CallsE (calling S writes)
          (call (.lockMember access.workspaceAccess.workspace.id u))
          fun o => ∀ m ∈ o, S.users m.userId :=
        calls_call hwithin fun v hv m hm => by
          cases hm
          exact hv
      refine calls_then hlock fun o ho => calls_then ih fun rows hrows => callsE_pure ?_
      intro m hm
      rcases List.mem_append.mp hm with hm | hm
      · exact ho m (Option.mem_toList.mp hm)
      · exact hrows m hm

omit hwrites in
theorem calls_lockTask (t : Id) :
    CallsE (calling S writes) (lockTask access.workspaceAccess.workspace.id t)
      fun row => S.tasks row.id := by
  have hwithin : S.workspaces access.workspaceAccess.workspace.id :=
    h.admitted.workspace ▸ h.admitted.within
  have hask : CallsE (calling S writes)
      (call (.lockTask access.workspaceAccess.workspace.id t))
      fun o => ∀ row, o = some row → S.tasks row.id :=
    calls_call hwithin fun v hv row hrow => by
      subst hrow
      exact hv
  exact calls_then hask fun o ho => callsE_mono ho (calls_orRaise o _)

theorem calls_updateTaskStatus (data : TaskStatusUpdate) :
    CallsE (calling S writes) (updateTaskStatus access data) fun _ => True := by
  refine calls_rollbackOnError ?_
  refine calls_then (calls_lockWorkspaceMemberships h _) fun rows _ => ?_
  refine calls_then (calls_orRaise _ _) fun m _ => ?_
  refine calls_then (calls_lockTask h _) fun row hrow => ?_
  cases decideStatus m.role access.workspaceAccess.currentUser.id row data.status with
  | refuse e => exact calls_raise e
  | keep => exact calls_keepTask hwrites row
  | change => exact calls_saveTask hwrites hrow nofun

theorem calls_updateTaskAssignee (data : TaskAssigneeUpdate) :
    CallsE (calling S writes) (updateTaskAssignee access data) fun _ => True := by
  refine calls_rollbackOnError ?_
  refine calls_then (calls_membershipRole _) fun _ _ => ?_
  refine calls_then (calls_raiseIf _ _) fun _ _ => ?_
  refine calls_then (calls_lockWorkspaceMemberships h _) fun rows hrows => ?_
  refine calls_then (calls_orRaise _ _) fun m _ => ?_
  refine calls_then (calls_raiseIf _ _) fun _ _ => ?_
  refine calls_then (calls_lockTask h _) fun row hrow => ?_
  cases hdecide : decideAssignee m.role access.workspaceAccess.currentUser.id row
      data.assigneeId rows with
  | refuse e => exact calls_raise e
  | keep => exact calls_keepTask hwrites row
  | change =>
      refine calls_saveTask hwrites hrow fun a ha => ?_
      have ha : data.assigneeId = some a := Option.some.inj ha
      obtain ⟨_, _, hcases⟩ := decideAssignee_change hdecide
      rcases hcases with ⟨_, hall⟩ | hclaim | hrelease
      · -- a manager may name the members he locked
        obtain ⟨x, hx⟩ := Option.isSome_iff_exists.mp (hall a ha)
        have hid : x.userId = a := by simpa using List.find?_some hx
        rw [← hid]
        exact hrows x (List.mem_of_find?_eq_some hx)
      · obtain ⟨_, hself, _⟩ := canSelfClaimTask_iff.mp hclaim
        rw [ha, h.admitted.user] at hself
        rw [Option.some.inj hself]
        exact S.users_of_named S.user_named
      · obtain ⟨_, hnone, _⟩ := canSelfReleaseTask_iff.mp hrelease
        rw [ha] at hnone
        cases hnone

end Writing
end TaskPlatform
