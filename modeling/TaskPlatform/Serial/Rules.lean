import TaskPlatform.Serial.Mirror
import TaskPlatform.Transaction.Smooth

/-!
# Services served alone

The rules of a service beside which nobody commits, in environments of some kind: what
its dependencies find are facts about the tables, and it raises only what the kind of
environments and the tables account for.
-/

namespace TaskPlatform

open Transaction Service Database Relational

section Rules

variable [Collation] {α β : Type} {good : Env → Prop} {E : Exc → Database → Prop} {l : Session}
  {d : Database}

/-- Served alone in `good` environments, the service returns in `Q` or raises in `E`. -/
abbrev Ends (good : Env → Prop) (x : Service α) (Q : α → Session → Database → Prop)
    (E : Exc → Database → Prop) (l : Session) (d : Database) : Prop :=
  smoothE Session.machine good (fun _ _ => True) x Q (fun e _ d => E e d) l d

/-- The failures of the server are among the exceptions. -/
def ServerFails (good : Env → Prop) (E : Exc → Database → Prop) (d : Database) : Prop :=
  ∀ env, good env → ∀ e, env.fault = some e → E (.sql e) d

/-- Those of the server and the refusals of the rate limiter are. -/
structure Failures (good : Env → Prop) (E : Exc → Database → Prop) (d : Database) : Prop where
  server : ServerFails good E d
  limiter : ∀ env, good env → ∀ check e, enforceWriteRateLimit (env.limiter check) = .error e →
    E (.app e) d

omit [Collation] in
theorem serverFails_of_faultless (E : Exc → Database → Prop) (d : Database) :
    ServerFails (fun env => env.fault = none) E d := by
  intro env henv e he
  rw [henv] at he
  cases he

omit [Collation] in
theorem failures_any (good : Env → Prop) (d : Database) : Failures good (fun _ _ => True) d :=
  ⟨fun _ _ _ _ => trivial, fun _ _ _ _ _ => trivial⟩

theorem ends_bind {Q : β → Session → Database → Prop} {x : Service α} {f : α → Service β}
    (hx : Ends good x (fun a => Ends good (f a) Q E) E l d) : Ends good (x >>= f) Q E l d :=
  smoothE_bind hx

theorem ends_mono {Q Q' : α → Session → Database → Prop} {x : Service α}
    (hx : Ends good x Q E l d) (h : ∀ a l d, Q a l d → Q' a l d) : Ends good x Q' E l d :=
  smoothE_mono h (fun _ _ _ he => he) hx

theorem ends_pure {Q : α → Session → Database → Prop} {a : α} (h : Q a l d) :
    Ends good (pure a) Q E l d := h

theorem ends_raise {Q : α → Session → Database → Prop} {e : AppException} (h : E (.app e) d) :
    Ends good (raise e : Service α) Q E l d := h

theorem ends_raiseIf {c : Prop} [Decidable c] {e : AppException}
    {Q : Unit → Session → Database → Prop} (hraise : c → E (.app e) d) (h : ¬ c → Q () l d) :
    Ends good (raiseIf c e) Q E l d := by
  unfold raiseIf
  split
  · exact ends_raise (hraise ‹_›)
  · exact ends_pure (h ‹_›)

theorem ends_orRaise {row : Option α} {e : AppException} {Q : α → Session → Database → Prop}
    (hraise : row = none → E (.app e) d) (h : ∀ r, row = some r → Q r l d) :
    Ends good (orRaise row e) Q E l d := by
  cases row with
  | none => exact ends_raise (hraise rfl)
  | some r => exact ends_pure (h r rfl)

theorem ends_call {c : Call} {Q : c.Val → Session → Database → Prop}
    (hvalue : ∀ env, good env → ∀ v l' d', Session.exec env c l d = (.ok v, l', d') → Q v l' d')
    (herror : ∀ env, good env → ∀ e l' d', Session.exec env c l d = (.error e, l', d') →
      E (.sql e) d') : Ends good (call c) Q E l d := by
  intro env henv
  refine ⟨trivial, ?_⟩
  have hx : Session.machine.exec env c l d = Session.exec env c l d := rfl
  rw [hx]
  rcases hexec : Session.exec env c l d with ⟨r, l', d'⟩
  cases r with
  | ok v => exact hvalue env henv v l' d' hexec
  | error e => exact herror env henv e l' d' hexec

/-- A statement that gets an answer whenever it does not fail from outside. -/
theorem ends_statement {c : Call} {Q : c.Val → Session → Database → Prop}
    (hE : ServerFails good E d) {r : Env → Except SqlError c.Val × Session × Database}
    (hc : ∀ env, Session.exec env c l d = Session.statement env l d (r env))
    (hrun : ∀ env, good env → ∃ v l' d', r env = (.ok v, l', d') ∧ Q v l' d') :
    Ends good (call c) Q E l d := by
  refine ends_call (fun env henv v l' d' hx => ?_) fun env henv e l' d' hx => ?_
  · obtain ⟨v', l'', d'', hanswer, hQ⟩ := hrun env henv
    rw [hc env] at hx
    have hrows := Session.statement_ok hx
    rw [hanswer] at hrows
    cases hrows
    exact hQ
  · obtain ⟨v', l'', d'', hanswer, _⟩ := hrun env henv
    rw [hc env, hanswer] at hx
    unfold Session.statement at hx
    cases hfault : env.fault with
    | none =>
        rw [hfault] at hx
        cases hx
    | some e' =>
        rw [hfault] at hx
        cases hx
        exact hE env henv e hfault

/-- A handler that rolls back and raises again adds nothing to what is raised. -/
theorem ends_rollback {e : Exc} {Q : α → Session → Database → Prop} (h : E e d) :
    Ends good (do call .rollback; throw e : Service α) Q E l d := by
  apply ends_bind
  refine ends_call (fun env _ v l' d' hx => ?_) fun env _ e l' d' hx => ?_
  · cases hx
    exact h
  · cases hx

theorem ends_rollbackOnSqlError {Q : α → Session → Database → Prop} {x : Service α}
    (hx : Ends good x Q E l d) : Ends good (rollbackOnSqlError x) Q E l d := by
  apply smoothE_tryCatch
  refine smoothE_mono (fun _ _ _ h => h) (fun e l d he => ?_) hx
  cases e with
  | sql e => exact ends_rollback he
  | app e => exact he
  | validation => exact he

theorem ends_rollbackOnError {Q : α → Session → Database → Prop} {x : Service α}
    (hx : Ends good x Q E l d) : Ends good (rollbackOnError x) Q E l d := by
  apply smoothE_tryCatch
  refine smoothE_mono (fun _ _ _ h => h) (fun e l d he => ?_) hx
  cases e with
  | sql e => exact ends_rollback he
  | app e => exact ends_rollback he
  | validation => exact he

theorem ends_validBody {body : Option α} {Q : α → Session → Database → Prop}
    (hraise : body = none → E .validation d) (h : ∀ b, body = some b → Q b l d) :
    Ends good (validBody body) Q E l d := by
  cases body with
  | none => exact hraise rfl
  | some b => exact h b rfl

end Rules

/-! ## Calls -/

section Calls

variable [Collation] {good : Env → Prop} {E : Exc → Database → Prop} {l : Session} {d : Database}

theorem ends_select (h : l.Mirrors d) (hE : ServerFails good E d) {q : Query}
    {Q : q.Val → Session → Database → Prop}
    (hQ : Q (q.eval d) ((q.load l (q.eval d)).2.openView d) d) :
    Ends good (call (.select q)) Q E l d := by
  refine ends_statement hE (r := fun _ => Session.select q l d) (fun _ => rfl) fun env _ => ?_
  refine ⟨_, _, _, rfl, ?_⟩
  rw [h.view, (h.load q).1]
  exact hQ

theorem ends_memberAttributes {w u : Id} {m : WorkspaceMember}
    (hown : l.members.find? (memberKey w u) = some m)
    {Q : WorkspaceMember → Session → Database → Prop} (hQ : Q m l d) :
    Ends good (call (.memberAttributes w u)) Q E l d := by
  refine ends_call (fun env _ v l' d' hx => ?_) fun env _ e l' d' hx => ?_
  · simp only [Session.exec, Session.memberAttributes, hown] at hx
    cases hx
    exact hQ
  · simp only [Session.exec, Session.memberAttributes, hown] at hx
    cases hx

theorem ends_commit (hE : ServerFails good E d) {Q : Unit → Session → Database → Prop}
    (hQ : Q () l.ended (l.current d)) : Ends good (call .commit) Q E l d :=
  ends_statement hE (r := fun _ => (.ok (), l.ended, l.current d)) (fun _ => rfl)
    fun _ _ => ⟨_, _, _, rfl, hQ⟩

theorem ends_lockMember (h : l.Mirrors d) (hE : ServerFails good E d) {w u : Id}
    {Q : Option WorkspaceMember → Session → Database → Prop}
    (hQ : ∀ l', l'.Mirrors d → l.Keeps l' → Q (d.member? w u) l' d) :
    Ends good (call (.lockMember w u)) Q E l d := by
  refine ends_statement hE (r := fun _ => Session.lockMember w u l d) (fun _ => rfl)
    fun _ _ => ?_
  rw [Session.lockMember, h.current]
  cases hm : d.member? w u with
  | none => exact ⟨_, _, _, rfl, hm ▸ hQ l h (.refl l)⟩
  | some m =>
      refine ⟨_, _, _, rfl, hm ▸ hQ _ ((h.keepMember hm).lock _) ?_⟩
      exact ⟨(Session.keeps_keepMember l m).member, (Session.keeps_keepMember l m).task⟩

theorem ends_lockTask (h : l.Mirrors d) (hE : ServerFails good E d) {w t : Id}
    {Q : Task → Session → Database → Prop}
    (hraise : d.taskIn? t w = none → E (.app taskNotFoundError) d)
    (hQ : ∀ row l', d.taskIn? t w = some row → l'.Mirrors d → l.Keeps l' →
      l'.tasks.find? t = some row → Q row l' d) :
    Ends good (lockTask w t) Q E l d := by
  apply ends_bind
  refine ends_statement hE (r := fun _ => Session.lockTask w t l d) (fun _ => rfl) fun _ _ => ?_
  rw [Session.lockTask, h.current]
  cases hrow : d.taskIn? t w with
  | none => exact ⟨_, _, _, rfl, ends_raise (hraise hrow)⟩
  | some row =>
      obtain ⟨htask, _⟩ := taskIn?_eq_some.mp hrow
      refine ⟨_, _, _, rfl, ends_pure (hQ row _ hrow ((h.keepTask htask).lock _) ?_ ?_)⟩
      · exact ⟨(Session.keeps_keepTask l row).member, (Session.keeps_keepTask l row).task⟩
      · show (l.tasks.put row).find? t = some row
        rw [Table.find?_put, if_pos (show t = Keyed.key row from (id_of_task? htask).symm)]

theorem ends_enforceWriteLimit (hE : Failures good E d) {u : Id} {scope : Scope} {w : Option Id}
    {Q : Unit → Session → Database → Prop} (hQ : Q () l d) :
    Ends good (enforceWriteLimit u scope w) Q E l d := by
  apply ends_bind
  refine ends_call (fun env henv v l' d' hx => ?_) fun env _ e l' d' hx => ?_
  · cases hx
    cases hr : enforceWriteRateLimit (env.limiter (.write u scope w)) with
    | ok _ => exact ends_pure hQ
    | error e => exact ends_raise (hE.limiter env henv _ e hr)
  · cases hx

/-- The memberships locked one after the other are those that exist. -/
theorem ends_lockMembershipRows (hE : ServerFails good E d) {w : Id} (us : List Id) :
    ∀ {l : Session} {Q : List WorkspaceMember → Session → Database → Prop}, l.Mirrors d →
      (∀ l', l'.Mirrors d → l.Keeps l' → Q (us.filterMap (d.member? w)) l' d) →
        Ends good (lockMembershipRows w us) Q E l d := by
  induction us with
  | nil => exact fun h hQ => ends_pure (hQ _ h (.refl _))
  | cons u us ih =>
      intro l Q h hQ
      refine ends_bind (ends_lockMember h hE fun l₁ h₁ hk₁ => ends_bind ?_)
      refine ih h₁ fun l₂ h₂ hk₂ => ends_pure ?_
      have hrows := hQ l₂ h₂ (hk₁.trans hk₂)
      rw [List.filterMap_cons] at hrows
      cases hm : d.member? w u with
      | none =>
          rw [hm] at hrows
          exact hrows
      | some m =>
          rw [hm] at hrows
          exact hrows

/-! ## The dependencies of the routes -/

theorem ends_getCurrentUser (h : l.Mirrors d) (hE : ServerFails good E d) {subject : Option String}
    {Q : User → Session → Database → Prop}
    (hraise : d.actor? subject = none → E (.app invalidTokenError) d)
    (hQ : ∀ user l', d.actor? subject = some user → l'.Mirrors d → Q user l' d) :
    Ends good (getCurrentUser subject) Q E l d := by
  cases subject with
  | none => exact ends_bind (ends_raise (hraise rfl))
  | some username =>
      refine ends_bind (ends_pure (ends_bind (ends_select h hE ?_)))
      refine ends_orRaise (fun hnone => hraise hnone) fun user huser => ?_
      exact hQ user _ huser h.openView

/-- What is found once a user has access to a workspace. -/
structure Opened (d : Database) (w : Id) (access : WorkspaceAccess) (m : WorkspaceMember)
    (l : Session) : Prop where
  mirror : l.Mirrors d
  workspace : d.workspace? w = some access.workspace
  id : access.workspace.id = w
  member : d.member? w access.currentUser.id = some m
  own : (l.members.find? (memberKey w access.currentUser.id)).isSome

theorem ends_getWorkspaceAccess (h : l.Mirrors d) (hE : ServerFails good E d) {w : Id} {user : User}
    {Q : WorkspaceAccess → Session → Database → Prop}
    (hraise : d.workspaceAccess? w user.id = none → E (.app workspaceNotFoundError) d)
    (hQ : ∀ access m l', access.currentUser = user → Opened d w access m l' → Q access l' d) :
    Ends good (getWorkspaceAccess w user) Q E l d := by
  refine ends_bind (ends_select h hE ?_)
  obtain ⟨_, hmirror, _⟩ := h.load (.workspaceAccess w user.id)
  cases hrow : d.workspaceAccess? w user.id with
  | none =>
      simp only [Query.eval, hrow]
      exact ends_bind (ends_raise (hraise hrow))
  | some pair =>
      obtain ⟨workspace, m⟩ := pair
      obtain ⟨hworkspace, hm⟩ := workspaceAccess?_eq_some.mp hrow
      simp only [Query.eval, hrow] at hmirror ⊢
      refine ends_bind (ends_pure (ends_pure (hQ ⟨workspace, user⟩ m _ rfl ?_)))
      refine ⟨hmirror.openView, hworkspace, id_of_workspace? hworkspace, hm, ?_⟩
      obtain ⟨hw, hu⟩ := key_of_member? hm
      show ((l.members.put (l.resolveMember m)).find? (memberKey w user.id)).isSome
      rw [h.resolveMember (Table.mem_of_find? hm), Table.find?_put, key_member, hw, hu, if_pos rfl]
      rfl

/-- The user is the one of the token. -/
structure Granted (d : Database) (subject : Option String) (w : Id) (access : WorkspaceAccess)
    (m : WorkspaceMember) (l : Session) : Prop extends Opened d w access m l where
  token : d.actor? subject = some access.currentUser

theorem Granted.step {subject : Option String} {w : Id} {access : WorkspaceAccess}
    {m : WorkspaceMember} {l' : Session} (h : Granted d subject w access m l) (h' : l'.Mirrors d)
    (hk : l.Keeps l') : Granted d subject w access m l' :=
  { h with mirror := h', own := hk.member _ h.own }

/-- The user of the token is a member of the workspace. -/
def Enters (d : Database) (subject : Option String) (w : Id) : Prop :=
  ∃ user m, Actor d subject w user m

theorem ends_workspaceAccess (h : l.Mirrors d) (hE : ServerFails good E d) {subject : Option String}
    {w : Id} {Q : WorkspaceAccess → Session → Database → Prop}
    (hraise : ¬ Enters d subject w → ∀ e, E (.app e) d)
    (hQ : ∀ access m l', Granted d subject w access m l' → Q access l' d) :
    Ends good (workspaceAccess subject w) Q E l d := by
  apply ends_bind
  refine ends_getCurrentUser h hE (fun hnone => hraise ?_ _) fun user l₁ htoken h₁ => ?_
  · rintro ⟨user, m, hactor⟩
    rw [hactor.token] at hnone
    cases hnone
  refine ends_getWorkspaceAccess h₁ hE (fun hnone => hraise ?_ _) fun access m l' huser hopen => ?_
  · rintro ⟨user', m, hactor⟩
    obtain ⟨workspace, hworkspace⟩ := Option.isSome_iff_exists.mp hactor.workspace
    cases htoken.symm.trans hactor.token
    rw [workspaceAccess?_eq_some.mpr ⟨hworkspace, hactor.member⟩] at hnone
    cases hnone
  · exact hQ access m l' ⟨hopen, huser ▸ htoken⟩

theorem ends_membershipRole {w : Id} {access : WorkspaceAccess} {m : WorkspaceMember}
    (h : Opened d w access m l) {Q : MemberRole → Session → Database → Prop} (hQ : Q m.role l d) :
    Ends good access.membershipRole Q E l d := by
  apply ends_bind
  refine ends_memberAttributes (m := m) ?_ (ends_pure hQ)
  rw [h.id]
  exact h.mirror.member_eq h.own h.member

/-- The same for a task of the workspace. -/
structure TaskGranted (d : Database) (subject : Option String) (w t : Id)
    (access : WorkspaceTaskAccess) (m : WorkspaceMember) (l : Session) : Prop
    extends Granted d subject w access.workspaceAccess m l where
  task : d.taskIn? t w = some access.task
  loaded : (l.tasks.find? t).isSome

theorem TaskGranted.task_id {subject : Option String} {w t : Id} {access : WorkspaceTaskAccess}
    {m : WorkspaceMember} (h : TaskGranted d subject w t access m l) : access.task.id = t :=
  id_of_task? (taskIn?_eq_some.mp h.task).1

/-- The user of the token is a member of the workspace, and the task is in it. -/
def EntersTask (d : Database) (subject : Option String) (w t : Id) : Prop :=
  Enters d subject w ∧ (d.taskIn? t w).isSome

theorem ends_taskAccess (h : l.Mirrors d) (hE : ServerFails good E d) {subject : Option String}
    {w t : Id} {Q : WorkspaceTaskAccess → Session → Database → Prop}
    (hraise : ¬ EntersTask d subject w t → ∀ e, E (.app e) d)
    (hQ : ∀ access m l', TaskGranted d subject w t access m l' → Q access l' d) :
    Ends good (taskAccess subject w t) Q E l d := by
  apply ends_bind
  refine ends_workspaceAccess h hE (fun hno => hraise fun hin => hno hin.1)
    fun access m l₁ h₁ => ?_
  refine ends_bind (ends_select h₁.mirror hE ?_)
  obtain ⟨_, hmirror, hkeeps⟩ := h₁.mirror.load (.taskIn t w)
  cases hrow : d.taskIn? t w with
  | none =>
      simp only [Query.eval, hrow]
      refine ends_bind (ends_raise (hraise (fun hin => ?_) _))
      have hsome := hin.2
      rw [hrow] at hsome
      cases hsome
  | some row =>
      obtain ⟨htask, _⟩ := taskIn?_eq_some.mp hrow
      simp only [Query.eval, hrow] at hmirror hkeeps ⊢
      refine ends_bind (ends_pure (ends_pure (hQ ⟨access, row⟩ m _ ?_)))
      refine ⟨h₁.step hmirror.openView ⟨hkeeps.member, hkeeps.task⟩, hrow, ?_⟩
      show ((l₁.tasks.put (l₁.resolveTask row)).find? t).isSome
      rw [h₁.mirror.resolveTask (Table.mem_of_find? htask), Table.find?_put,
        if_pos (show t = Keyed.key row from (id_of_task? htask).symm)]
      rfl

theorem ends_limitedTaskAccess (h : l.Mirrors d) (hE : Failures good E d) {scope : Scope}
    {subject : Option String} {w t : Id} {Q : WorkspaceTaskAccess → Session → Database → Prop}
    (hraise : ¬ EntersTask d subject w t → ∀ e, E (.app e) d)
    (hQ : ∀ access m l', TaskGranted d subject w t access m l' → Q access l' d) :
    Ends good (limitedTaskAccess scope subject w t) Q E l d := by
  apply ends_bind
  refine ends_taskAccess h hE.server hraise fun access m l₁ h₁ => ends_bind ?_
  exact ends_enforceWriteLimit hE (ends_pure (hQ access m l₁ h₁))

theorem ends_limitedRoleAccess (h : l.Mirrors d) (hE : Failures good E d) {scope : Scope}
    {roles : List MemberRole} {subject : Option String} {w : Id}
    {Q : WorkspaceAccess → Session → Database → Prop}
    (hraise : ∀ e, E (.app e) d)
    (hQ : ∀ access m l', Granted d subject w access m l' → Q access l' d) :
    Ends good (limitedRoleAccess scope roles subject w) Q E l d := by
  apply ends_bind
  refine ends_workspaceAccess h hE.server (fun _ => hraise) fun access m l₁ h₁ => ends_bind ?_
  refine ends_bind (ends_membershipRole h₁.toOpened (ends_raiseIf (fun _ => hraise _) fun _ => ?_))
  exact ends_bind (ends_enforceWriteLimit hE (ends_pure (hQ access m l₁ h₁)))

/-- A route that opens a task, checks its body and answers with what a service returns. -/
theorem ends_taskRoute {α β γ : Type} (hE : Failures good E d) {scope : Scope}
    {subject : Option String} {w t : Id} {body : Option α}
    {service : WorkspaceTaskAccess → α → Service β} {f : β → γ}
    {Q : γ → Session → Database → Prop} (hraise : ¬ EntersTask d subject w t → ∀ e, E (.app e) d)
    (hbody : body = none → E .validation d)
    (hservice : ∀ access m l data, TaskGranted d subject w t access m l → body = some data →
      Ends good (service access data) (fun b => Q (f b)) E l d) :
    Ends good
      (do
        let access ← limitedTaskAccess scope subject w t
        let data ← validBody body
        return f (← service access data)) Q E {} d := by
  apply ends_bind
  refine ends_limitedTaskAccess (Session.mirrors_nil d) hE hraise fun access m l h => ends_bind ?_
  refine ends_validBody hbody fun data hdata => ends_bind ?_
  exact ends_mono (hservice access m l data h hdata) fun _ _ _ hreturned => ends_pure hreturned

end Calls

/-! ## Requests -/

section Requests

variable [Collation] {good : Env → Prop} {E : Exc → Database → Prop} {request : Request}

/-- How a service that runs alone in a session of its own ends. -/
theorem run_of_ends {α : Type} {x : Service α} {Q : α → Session → Database → Prop} {d : Database}
    (h : Ends good x Q E {} d) {env : Nat → Env} (henv : ∀ n, good (env n)) :
    (∀ a, (Session.machine.run env x.run 0 {} d).value = .ok a →
        ∃ l, Q a l (Session.machine.run env x.run 0 {} d).shared) ∧
      ∀ e, (Session.machine.run env x.run 0 {} d).value = .error e →
        E e (Session.machine.run env x.run 0 {} d).shared := by
  have hrun := run_of_smooth henv h 0
  generalize Session.machine.run env x.run 0 {} d = outcome at hrun
  obtain ⟨value, calls, l, d'⟩ := outcome
  constructor
  · intro a ha
    cases ha
    exact ⟨l, hrun⟩
  · intro e he
    cases he
    exact hrun

/-- A request is served by running its route. -/
theorem serve_eq_route (env : Nat → Env) (request : Request) (d : Database) :
    serve env request d =
      ((Session.machine.run env request.route.run 0 {} d).value,
        (Session.machine.run env request.route.run 0 {} d).shared) := by
  rw [serve, Request.program, run_bind]
  rfl

/-- How a request that is served alone ends. -/
theorem serve_of_ends {Q : Body → Session → Database → Prop} {d : Database}
    (h : Ends good request.route Q E {} d) {env : Nat → Env} (henv : ∀ n, good (env n)) :
    (∀ body, (serve env request d).1 = .ok body → ∃ l, Q body l (serve env request d).2) ∧
      ∀ e, (serve env request d).1 = .error e → E e (serve env request d).2 := by
  rw [serve_eq_route]
  exact run_of_ends h henv

/-- The environment of one of the calls of a request that is served alone. -/
def Request.Finds (request : Request) (env : Nat → Env) (d : Database) (e : Env) : Prop :=
  ∃ n < (Session.machine.run env request.program 0 {} d).calls, e = env n

/-- The last call closes the session. -/
theorem calls_program (env : Nat → Env) (request : Request) (d : Database) :
    (Session.machine.run env request.program 0 {} d).calls =
      (Session.machine.run env request.route.run 0 {} d).calls + 1 := by
  rw [Request.program, run_bind]
  rfl

theorem serve_of_ends_within {Q : Body → Session → Database → Prop} {d : Database}
    {env : Nat → Env} (h : Ends (request.Finds env d) request.route Q E {} d) {body : Body}
    (hok : (serve env request d).1 = .ok body) : ∃ l, Q body l (serve env request d).2 := by
  have hrun := run_of_smooth_within h 0 fun k _ hk =>
    ⟨k, by rw [calls_program]; exact Nat.lt_succ_of_lt hk, rfl⟩
  rw [serve_eq_route] at hok ⊢
  generalize Session.machine.run env request.route.run 0 {} d = outcome at hrun hok
  obtain ⟨value, calls, l, d'⟩ := outcome
  cases hok
  exact ⟨l, hrun⟩

end Requests
end TaskPlatform
