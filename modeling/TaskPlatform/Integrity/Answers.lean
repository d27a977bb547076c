import TaskPlatform.Atomicity.Returned
import TaskPlatform.Integrity.Consistent
import TaskPlatform.Transaction.Smooth

/-!
# Calls that are answered

The rules of a service that is served alone and whose server and connection do not
fail: a call is answered with a value, given what the rows and the session are known
to hold, and an exception is one of the domain errors.
-/

namespace TaskPlatform

open Transaction Service Database Relational

/-- The server and the connection do not fail, and a password hash fits its column. -/
structure Env.Faultless (env : Env) : Prop where
  fault : env.fault = none
  hash : ∀ password, (env.hash password).length ≤ 255

/-- A call has a value. -/
def Succeeds (c : Call) (r : c.Res) : Prop := ∃ v, r = .ok v

/-- Rows that satisfy the constraints, which plain and locking reads see alike. -/
structure Ready (l : Session) (d : Database) : Prop where
  aligned : l.Aligned d
  consistent : l.Consistent d

def Exc.IsDomain : Exc → Prop
  | .app e => DomainError e
  | .sql _ => False
  | .validation => False

theorem domain_enforceWriteRateLimit {r : Except RedisError RateLimitDecision} {e : AppException}
    (h : enforceWriteRateLimit r = .error e) : DomainError e := by
  cases r with
  | error _ => cases h
  | ok decision =>
      simp only [enforceWriteRateLimit, raiseIfExceeded] at h
      split at h
      · cases h
      · cases h
        exact .rateLimitExceeded _ _

theorem domain_enforceAuthRateLimit {r : Except RedisError RateLimitDecision} {e : AppException}
    (h : enforceAuthRateLimit r = .error e) : DomainError e := by
  cases r with
  | error _ =>
      cases h
      exact .rateLimitUnavailable
  | ok decision =>
      simp only [enforceAuthRateLimit, raiseIfExceeded] at h
      split at h
      · cases h
      · cases h
        exact .rateLimitExceeded _ _

section Rules

variable [Collation] {α β : Type} {l : Session} {d : Database}

/-- Every call of the service is answered, and it returns in `Q` or raises a domain
error. -/
abbrev Accepts (x : Service α) (Q : α → Session → Database → Prop) (l : Session)
    (d : Database) : Prop :=
  smooth Session.machine Env.Faultless Succeeds x.run (fun r l d => match r with
    | .ok a => Q a l d
    | .error e => e.IsDomain) l d

theorem ready_exec (h : Ready l d) (env : Env) (c : Call) :
    Ready (Session.exec env c l d).2.1 (Session.exec env c l d).2.2 := by
  refine ⟨?_, consistent_exec h.consistent c⟩
  rcases c.isWork_or with hc | rfl | rfl | rfl
  · exact aligned_exec h.aligned rfl hc
  · simp only [Session.exec, Session.statement]
    split
    · exact h.aligned
    · exact fun _ hview => by cases hview
  · exact fun _ hview => by cases hview
  · exact fun _ hview => by cases hview

theorem accepts_mono {x : Service α} {Q Q' : α → Session → Database → Prop}
    (hx : Accepts x Q l d) (h : ∀ a l d, Q a l d → Q' a l d) : Accepts x Q' l d := by
  refine smooth_mono _ _ _ (fun r l d hr => ?_) hx
  cases r with
  | ok a => exact h a l d hr
  | error e => exact hr

theorem accepts_bind {x : Service α} {f : α → Service β} {Q : β → Session → Database → Prop}
    (hx : Accepts x (fun a => Accepts (f a) Q) l d) : Accepts (x >>= f) Q l d := by
  unfold Accepts at hx ⊢
  rw [Prog.run_bindE, smooth_bind]
  refine smooth_mono _ _ _ (fun r l d hr => ?_) hx
  cases r with
  | ok a => exact hr
  | error e => exact hr

theorem accepts_pure {a : α} {Q : α → Session → Database → Prop} (h : Q a l d) :
    Accepts (pure a) Q l d := h

theorem accepts_throw {e : Exc} {Q : α → Session → Database → Prop} (he : e.IsDomain) :
    Accepts (throw e : Service α) Q l d := he

theorem accepts_raise {e : AppException} {Q : α → Session → Database → Prop}
    (he : DomainError e) : Accepts (raise e : Service α) Q l d :=
  accepts_throw he

theorem accepts_raiseIf {c : Prop} [Decidable c] {e : AppException}
    {Q : Unit → Session → Database → Prop} (he : DomainError e) (h : ¬ c → Q () l d) :
    Accepts (raiseIf c e) Q l d := by
  unfold raiseIf
  split
  · exact accepts_raise he
  · exact accepts_pure (h ‹_›)

theorem accepts_orRaise {row : Option α} {e : AppException} {Q : α → Session → Database → Prop}
    (he : DomainError e) (h : ∀ r, row = some r → Q r l d) : Accepts (orRaise row e) Q l d := by
  cases row with
  | none => exact accepts_raise he
  | some r => exact accepts_pure (h r rfl)

/-- No database error is raised in the body, so a handler only sees domain errors. -/
theorem accepts_tryCatch {x : Service α} {f : Exc → Service α}
    {Q : α → Session → Database → Prop} (hx : Accepts x Q l d)
    (hf : ∀ e l d, DomainError e → Accepts (f (.app e)) Q l d) :
    Accepts (tryCatch x f) Q l d := by
  unfold Accepts at hx ⊢
  rw [Prog.run_tryCatch, smooth_bind]
  refine smooth_mono _ _ _ (fun r l d hr => ?_) hx
  cases r with
  | ok a => exact hr
  | error e =>
      cases e with
      | app e => exact hf e l d hr
      | sql e => exact hr.elim
      | validation => exact hr.elim

theorem accepts_call {c : Call} {Q : c.Val → Session → Database → Prop} (h : Ready l d)
    (hc : ∀ env, env.Faultless → ∃ v l' d', Session.exec env c l d = (.ok v, l', d') ∧
      (Ready l' d' → Q v l' d')) :
    Accepts (call c) Q l d := by
  intro env henv
  obtain ⟨v, l', d', hx, hQ⟩ := hc env henv
  have hready := ready_exec h env c
  have hexec : Session.machine.exec env c l d = (.ok v, l', d') := hx
  rw [hexec]
  rw [hx] at hready
  exact ⟨⟨v, rfl⟩, hQ hready⟩

omit [Collation] in
theorem statement_faultless {env : Env} (henv : env.Faultless)
    {x : Except SqlError α × Session × Database} : Session.statement env l d x = x := by
  unfold Session.statement
  rw [henv.fault]

theorem accepts_rollbackOnSqlError {x : Service α} {Q : α → Session → Database → Prop}
    (hx : Accepts x Q l d) : Accepts (rollbackOnSqlError x) Q l d :=
  accepts_tryCatch hx fun _ _ _ he => he

theorem accepts_rollbackOnError {x : Service α} {Q : α → Session → Database → Prop}
    (hx : Accepts x Q l d) : Accepts (rollbackOnError x) Q l d := by
  refine accepts_tryCatch hx fun e l d he => accepts_bind ?_
  intro env henv
  exact ⟨⟨(), rfl⟩, he⟩

/-- A loop whose body keeps an assertion. -/
theorem accepts_forM {f : α → Service PUnit} (I : Session → Database → Prop)
    (hstep : ∀ a l d, I l d → Accepts (f a) (fun _ => I) l d) (as : List α) (h : I l d) :
    Accepts (forM as f) (fun _ => I) l d := by
  induction as generalizing l d with
  | nil => exact h
  | cons a rest ih =>
      rw [List.forM_cons]
      exact accepts_bind (accepts_mono (hstep a l d h) fun _ _ _ h => ih h)

end Rules

/-! ## Calls -/

section Calls

variable [Collation] {l : Session} {d : Database}

theorem accepts_select (h : Ready l d) {q : Query} {Q : q.Val → Session → Database → Prop}
    (hQ : Ready ((q.load l (q.eval (l.view d))).2.openView d) d →
      Q (q.load l (q.eval (l.view d))).1 ((q.load l (q.eval (l.view d))).2.openView d) d) :
    Accepts (call (.select q)) Q l d :=
  accepts_call h fun _ henv => ⟨_, _, _, statement_faultless henv, hQ⟩

theorem accepts_memberAttributes (h : Ready l d) {w u : Id}
    (hown : (l.members.find? (memberKey w u)).isSome)
    {Q : WorkspaceMember → Session → Database → Prop} (hQ : ∀ m, Q m l d) :
    Accepts (call (.memberAttributes w u)) Q l d := by
  obtain ⟨m, hm⟩ := Option.isSome_iff_exists.mp hown
  refine accepts_call h fun env _ => ⟨m, l, d, ?_, fun _ => hQ m⟩
  simp only [Session.exec, Session.memberAttributes, hm]

theorem accepts_checkRateLimit (h : Ready l d) {check : RateCheck}
    {Q : Except RedisError RateLimitDecision → Session → Database → Prop} (hQ : ∀ r, Q r l d) :
    Accepts (call (.checkRateLimit check)) Q l d :=
  accepts_call h fun _ _ => ⟨_, _, _, rfl, fun _ => hQ _⟩

theorem accepts_commit (h : Ready l d) {Q : Unit → Session → Database → Prop}
    (hQ : Ready l.ended (l.current d) → Q () l.ended (l.current d)) :
    Accepts (call .commit) Q l d :=
  accepts_call h fun _ henv => ⟨_, _, _, statement_faultless henv, hQ⟩

theorem accepts_committed {α : Type} (h : Ready l d) (a : α) :
    Accepts (do call .commit; return a) (fun _ _ _ => True) l d :=
  accepts_bind (accepts_commit h fun _ => trivial)

theorem accepts_refreshTask (h : Ready l d) {t : Id} (ht : ((l.current d).task? t).isSome)
    {Q : Task → Session → Database → Prop} (hQ : ∀ row l', Ready l' d → Q row l' d) :
    Accepts (call (.refreshTask t)) Q l d := by
  obtain ⟨row, hrow⟩ := Option.isSome_iff_exists.mp ht
  rw [← h.aligned.view.task?] at hrow
  refine accepts_call h fun env henv => ⟨row, (l.keepTask row).openView d, d, ?_, hQ row _⟩
  exact (statement_faultless henv).trans (by rw [hrow]; rfl)

theorem accepts_refreshMember (h : Ready l d) {w u : Id}
    (hm : ((l.current d).member? w u).isSome)
    {Q : WorkspaceMember → Session → Database → Prop} (hQ : ∀ m l', Ready l' d → Q m l' d) :
    Accepts (call (.refreshMember w u)) Q l d := by
  obtain ⟨m, hrow⟩ := Option.isSome_iff_exists.mp hm
  rw [← h.aligned.view.member?] at hrow
  refine accepts_call h fun env henv => ⟨m, (l.keepMember m).openView d, d, ?_, hQ m _⟩
  exact (statement_faultless henv).trans (by rw [hrow]; rfl)

theorem accepts_refreshUser (h : Ready l d) {u : Id} (hu : ((l.current d).user? u).isSome)
    {Q : User → Session → Database → Prop} (hQ : ∀ row, Q row (l.openView d) d) :
    Accepts (call (.refreshUser u)) Q l d := by
  obtain ⟨row, hrow⟩ := Option.isSome_iff_exists.mp hu
  rw [← h.aligned.view.user?] at hrow
  refine accepts_call h fun env henv => ⟨row, l.openView d, d, ?_, fun _ => hQ row⟩
  exact (statement_faultless henv).trans (by rw [hrow]; rfl)

theorem accepts_refreshWorkspace (h : Ready l d) {w : Id}
    (hw : ((l.current d).workspace? w).isSome)
    {Q : Workspace → Session → Database → Prop}
    (hQ : ∀ row, Ready (l.openView d) d → Q row (l.openView d) d) :
    Accepts (call (.refreshWorkspace w)) Q l d := by
  obtain ⟨row, hrow⟩ := Option.isSome_iff_exists.mp hw
  rw [← h.aligned.view.workspace?] at hrow
  refine accepts_call h fun env henv => ⟨row, l.openView d, d, ?_, hQ row⟩
  exact (statement_faultless henv).trans (by rw [hrow]; rfl)

omit [Collation] in
/-- An insert whose row passes its check. -/
theorem insert_passed {α : Type} {check : Except SqlError Unit} {row : α} {w : Write}
    (hcheck : check = .ok ()) :
    Session.insert check row w l d = (.ok row, l.write w, d) := by
  rw [hcheck]
  rfl

theorem accepts_lockMember (h : Ready l d) {w u : Id}
    {Q : Option WorkspaceMember → Session → Database → Prop}
    (hnone : (l.current d).member? w u = none → Q none l d)
    (hsome : ∀ m, (l.current d).member? w u = some m →
      Ready ((l.keepMember m).lock (.member w u)) d →
      Q (some m) ((l.keepMember m).lock (.member w u)) d) :
    Accepts (call (.lockMember w u)) Q l d := by
  refine accepts_call h fun env henv => ?_
  simp only [Session.exec, statement_faultless henv, Session.lockMember]
  cases hrow : (l.current d).member? w u with
  | none => exact ⟨_, _, _, rfl, fun _ => hnone hrow⟩
  | some m => exact ⟨_, _, _, rfl, hsome m hrow⟩

theorem accepts_getMember (h : Ready l d) {w u : Id}
    {Q : Option WorkspaceMember → Session → Database → Prop}
    (hsome : ∀ m l', Ready l' d → Q (some m) l' d)
    (hnone : (l.current d).member? w u = none → Ready (l.openView d) d → Q none (l.openView d) d) :
    Accepts (call (.getMember w u)) Q l d := by
  refine accepts_call h fun env henv => ?_
  simp only [Session.exec, Session.getMember, statement_faultless henv]
  cases l.members.find? (memberKey w u) with
  | some m => exact ⟨_, _, _, rfl, hsome m l⟩
  | none =>
      simp only
      cases hrow : (l.view d).member? w u with
      | none =>
          rw [h.aligned.view.member?] at hrow
          exact ⟨_, _, _, rfl, hnone hrow⟩
      | some m => exact ⟨_, _, _, rfl, hsome m _⟩

theorem accepts_lockTask (h : Ready l d) {w t : Id} {Q : Task → Session → Database → Prop}
    (hQ : ∀ row, (l.current d).taskIn? t w = some row →
      Ready ((l.keepTask row).lock (.task t)) d → Q row ((l.keepTask row).lock (.task t)) d) :
    Accepts (lockTask w t) Q l d := by
  refine accepts_bind (accepts_call h fun env henv => ?_)
  simp only [Session.exec, statement_faultless henv, Session.lockTask]
  cases hrow : (l.current d).taskIn? t w with
  | none => exact ⟨_, _, _, rfl, fun _ => accepts_raise .taskNotFound⟩
  | some row => exact ⟨_, _, _, rfl, hQ row hrow⟩

/-! ## Access to a workspace and to a task -/

/-- What is known once a request has access to a workspace. -/
structure Entered (access : WorkspaceAccess) (l : Session) (d : Database) : Prop where
  ready : Ready l d
  writes : l.writes = []
  workspace : (d.workspace? access.workspace.id).isSome
  user : (d.user? access.currentUser.id).isSome
  own : (l.members.find? (memberKey access.workspace.id access.currentUser.id)).isSome

/-- The same once it has access to a task. -/
structure TaskEntered (access : WorkspaceTaskAccess) (l : Session) (d : Database) : Prop
    extends Entered access.workspaceAccess l d where
  task : (d.task? access.task.id).isSome
  loaded : (l.tasks.find? access.task.id).isSome

omit [Collation] in
theorem Entered.current {access : WorkspaceAccess} (h : Entered access l d) : l.current d = d :=
  Session.current_eq h.writes

omit [Collation] in
theorem key_resolveMember (l : Session) (m : WorkspaceMember) :
    Keyed.key (l.resolveMember m) = Keyed.key m := by
  unfold Session.resolveMember
  cases hm : l.members.find? (Keyed.key m) with
  | none => rfl
  | some kept => exact Table.key_of_find? hm

omit [Collation] in
theorem id_resolveTask (l : Session) (t : Task) : (l.resolveTask t).id = t.id := by
  unfold Session.resolveTask
  cases ht : l.tasks.find? (Keyed.key t) with
  | none => rfl
  | some kept => exact Table.key_of_find? ht

theorem accepts_enforceWriteLimit (h : Ready l d) {u : Id} {scope : Scope} {w : Option Id}
    {Q : Unit → Session → Database → Prop} (hQ : Q () l d) :
    Accepts (enforceWriteLimit u scope w) Q l d := by
  refine accepts_bind (accepts_checkRateLimit h fun r => ?_)
  cases hr : enforceWriteRateLimit r with
  | ok _ => exact accepts_pure hQ
  | error e => exact accepts_raise (domain_enforceWriteRateLimit hr)

theorem accepts_enforceAuthLimit (h : Ready l d) {check : RateCheck}
    {Q : Unit → Session → Database → Prop} (hQ : Q () l d) :
    Accepts (enforceAuthLimit check) Q l d := by
  refine accepts_bind (accepts_checkRateLimit h fun r => ?_)
  cases hr : enforceAuthRateLimit r with
  | ok _ => exact accepts_pure hQ
  | error e => exact accepts_raise (domain_enforceAuthRateLimit hr)

/-- A user the session has read is there. -/
theorem accepts_getUserByUsername (h : Ready l d) {username : String}
    {Q : Option User → Session → Database → Prop}
    (hnone : (l.current d).userByUsername? username = none → Ready (l.openView d) d →
      Q none (l.openView d) d)
    (hsome : ∀ user, ((l.current d).user? user.id).isSome → Ready (l.openView d) d →
      Q (some user) (l.openView d) d) :
    Accepts (getUserByUsername username) Q l d := by
  refine accepts_select h fun hready => ?_
  have hrows : (l.view d).users = (l.current d).users := h.aligned.view.users
  cases hrow : (l.view d).userByUsername? username with
  | none =>
      simp only [Query.eval, hrow]
      refine hnone ?_ hready
      unfold userByUsername? at hrow ⊢
      rw [← hrows]
      exact hrow
  | some user =>
      simp only [Query.eval, hrow]
      refine hsome user ?_ hready
      have hmem : user ∈ (l.current d).users.rows := by
        rw [← hrows]
        exact List.mem_of_find?_eq_some hrow
      rw [show (l.current d).user? user.id = some user from Table.find?_key _ hmem]
      rfl

theorem accepts_getCurrentUser (h : Ready l d) (hwrites : l.writes = [])
    {subject : Option String} {Q : User → Session → Database → Prop}
    (hQ : ∀ user, (d.user? user.id).isSome → Ready (l.openView d) d → Q user (l.openView d) d) :
    Accepts (getCurrentUser subject) Q l d := by
  refine accepts_bind (accepts_orRaise .invalidToken fun username _ => accepts_bind ?_)
  refine accepts_getUserByUsername h (fun _ _ => accepts_raise .invalidToken) ?_
  intro user huser hready
  rw [Session.current_eq hwrites] at huser
  exact hQ user huser hready

theorem accepts_workspaceAccess (h : Ready l d) (hwrites : l.writes = [])
    {subject : Option String} {w : Id} {Q : WorkspaceAccess → Session → Database → Prop}
    (hQ : ∀ access l', Entered access l' d → Q access l' d) :
    Accepts (workspaceAccess subject w) Q l d := by
  refine accepts_bind (accepts_getCurrentUser h hwrites fun user huser h₁ => accepts_bind ?_)
  refine accepts_select h₁ fun h₂ => ?_
  have hview : SameRows ((l.openView d).view d) d := by
    have haligned := h₁.aligned.view
    rw [Session.current_eq (l := l.openView d) hwrites] at haligned
    exact haligned
  cases hrow : ((l.openView d).view d).workspaceAccess? w user.id with
  | none =>
      simp only [Query.eval, hrow]
      exact accepts_raise .workspaceNotFound
  | some found =>
      obtain ⟨workspace, m⟩ := found
      simp only [Query.eval, hrow] at h₂ ⊢
      obtain ⟨hworkspace, hm⟩ := workspaceAccess?_eq_some.mp hrow
      obtain ⟨hw, hu⟩ := key_of_member? hm
      have hid : workspace.id = w := id_of_workspace? hworkspace
      refine accepts_pure (hQ _ _ ⟨h₂, hwrites, ?_, huser, ?_⟩)
      · show (d.workspace? workspace.id).isSome
        rw [hid, ← hview.workspace?, hworkspace]
        rfl
      · have hkey :
            Keyed.key ((l.openView d).resolveMember m) = memberKey workspace.id user.id := by
          rw [key_resolveMember, key_member, hw, hu, hid]
        show (((l.openView d).members.put _).find? _).isSome
        rw [Table.find?_put, if_pos hkey.symm]
        rfl

theorem accepts_membershipRole {access : WorkspaceAccess} (h : Entered access l d)
    {Q : MemberRole → Session → Database → Prop} (hQ : ∀ role, Q role l d) :
    Accepts access.membershipRole Q l d :=
  accepts_bind (accepts_memberAttributes h.ready h.own fun m => accepts_pure (hQ m.role))

theorem accepts_limitedWorkspaceAccess {scope : Scope} {subject : Option String} {w : Id}
    (h : Ready l d) (hwrites : l.writes = []) {Q : WorkspaceAccess → Session → Database → Prop}
    (hQ : ∀ access l', Entered access l' d → Q access l' d) :
    Accepts (limitedWorkspaceAccess scope subject w) Q l d := by
  refine accepts_bind (accepts_workspaceAccess h hwrites fun access l' ha => accepts_bind ?_)
  exact accepts_enforceWriteLimit ha.ready (accepts_pure (hQ access l' ha))

theorem accepts_limitedRoleAccess {scope : Scope} {roles : List MemberRole}
    {subject : Option String} {w : Id} (h : Ready l d) (hwrites : l.writes = [])
    {Q : WorkspaceAccess → Session → Database → Prop}
    (hQ : ∀ access l', Entered access l' d → Q access l' d) :
    Accepts (limitedRoleAccess scope roles subject w) Q l d := by
  refine accepts_bind (accepts_workspaceAccess h hwrites fun access l' ha => accepts_bind ?_)
  refine accepts_bind (accepts_membershipRole ha fun role => ?_)
  refine accepts_raiseIf .workspacePermissionDenied fun _ => accepts_bind ?_
  exact accepts_enforceWriteLimit ha.ready (accepts_pure (hQ access l' ha))

theorem accepts_taskAccess {subject : Option String} {w t : Id} (h : Ready l d)
    (hwrites : l.writes = []) {Q : WorkspaceTaskAccess → Session → Database → Prop}
    (hQ : ∀ access l', TaskEntered access l' d → Q access l' d) :
    Accepts (taskAccess subject w t) Q l d := by
  refine accepts_bind (accepts_workspaceAccess h hwrites fun access l' ha => accepts_bind ?_)
  refine accepts_select ha.ready fun h₁ => ?_
  have hview : SameRows (l'.view d) d := by
    have haligned := ha.ready.aligned.view
    rw [ha.current] at haligned
    exact haligned
  cases hrow : (l'.view d).taskIn? t w with
  | none =>
      simp only [Query.eval, hrow]
      exact accepts_raise .taskNotFound
  | some found =>
      simp only [Query.eval, hrow] at h₁ ⊢
      have htask := (taskIn?_eq_some.mp hrow).1
      refine accepts_pure (hQ _ _ ⟨⟨h₁, ha.writes, ha.workspace, ha.user, ha.own⟩, ?_, ?_⟩)
      · show (d.task? (l'.resolveTask found).id).isSome
        rw [id_resolveTask, id_of_task? htask, ← hview.task?, htask]
        rfl
      · show ((l'.tasks.put (l'.resolveTask found)).find? (l'.resolveTask found).id).isSome
        rw [Table.find?_put, if_pos (key_task _).symm]
        rfl

theorem accepts_limitedTaskAccess {scope : Scope} {subject : Option String} {w t : Id}
    (h : Ready l d) (hwrites : l.writes = [])
    {Q : WorkspaceTaskAccess → Session → Database → Prop}
    (hQ : ∀ access l', TaskEntered access l' d → Q access l' d) :
    Accepts (limitedTaskAccess scope subject w t) Q l d := by
  refine accepts_bind (accepts_taskAccess h hwrites fun access l' ha => accepts_bind ?_)
  exact accepts_enforceWriteLimit ha.ready (accepts_pure (hQ access l' ha))

end Calls
end TaskPlatform
