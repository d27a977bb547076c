import TaskPlatform.Serial.Tasks

/-!
# Which call fails

A service that is served alone gets the answer to its call number `n` from environment
`n`.  These rules keep count of the calls.  So it can be said of a status request which of
them must not fail for it to change its task.
-/

namespace TaskPlatform

open Transaction Service Database Relational

section Rules

variable [Collation] {α β : Type} {env : Nat → Env} {E : Database → Prop} {n : Nat} {l : Session}
  {d : Database}

/-- Served alone from call number `n` on, the service returns in `Q` or raises in `E`. -/
def EndsFrom (env : Nat → Env) (x : Service α) (Q : α → Nat → Session → Database → Prop)
    (E : Database → Prop) (n : Nat) (l : Session) (d : Database) : Prop :=
  let outcome := Session.machine.run env x.run n l d
  match outcome.value with
  | .ok a => Q a outcome.calls outcome.loc outcome.shared
  | .error _ => E outcome.shared

theorem endsFrom_bind {Q : β → Nat → Session → Database → Prop} {x : Service α}
    {f : α → Service β}
    (hx : EndsFrom env x (fun a => EndsFrom env (f a) Q E) E n l d) :
    EndsFrom env (x >>= f) Q E n l d := by
  unfold EndsFrom at hx ⊢
  rw [Prog.run_bindE, run_bind]
  revert hx
  generalize Session.machine.run env x.run n l d = outcome
  obtain ⟨value, calls, l', d'⟩ := outcome
  intro hx
  cases value with
  | ok a => exact hx
  | error e => exact hx

theorem endsFrom_pure {Q : α → Nat → Session → Database → Prop} {a : α} (h : Q a n l d) :
    EndsFrom env (pure a) Q E n l d := h

/-- A call that sends a statement, which is answered unless it fails from outside. -/
theorem endsFrom_statement {c : Call} {Q : c.Val → Nat → Session → Database → Prop} {v : c.Val}
    {l' : Session} {d' : Database}
    (hc : Session.exec (env n) c l d = Session.statement (env n) l d (.ok v, l', d'))
    (hfault : (env n).fault ≠ none → E d) (hQ : (env n).fault = none → Q v (n + 1) l' d') :
    EndsFrom env (call c) Q E n l d := by
  have hrun : Session.machine.run env (call c).run n l d =
      ⟨(Session.exec (env n) c l d).1.mapError .sql, n + 1, (Session.exec (env n) c l d).2.1,
        (Session.exec (env n) c l d).2.2⟩ := rfl
  unfold EndsFrom
  rw [hrun, hc, Session.statement]
  cases h : (env n).fault with
  | none => exact hQ h
  | some e => exact hfault (by simp [h])

theorem endsFrom_checkRateLimit {check : RateCheck}
    {Q : Except RedisError RateLimitDecision → Nat → Session → Database → Prop}
    (h : Q ((env n).limiter check) (n + 1) l d) :
    EndsFrom env (call (.checkRateLimit check)) Q E n l d := h

/-- The limiter lets a write through or refuses it. -/
theorem endsFrom_enforceWriteLimit {u : Id} {scope : Scope} {w : Option Id}
    {Q : Unit → Nat → Session → Database → Prop}
    (hrefused : enforceWriteRateLimit ((env n).limiter (.write u scope w)) ≠ .ok () → E d)
    (hQ : enforceWriteRateLimit ((env n).limiter (.write u scope w)) = .ok () →
      Q () (n + 1) l d) :
    EndsFrom env (enforceWriteLimit u scope w) Q E n l d := by
  refine endsFrom_bind (endsFrom_checkRateLimit ?_)
  cases h : enforceWriteRateLimit ((env n).limiter (.write u scope w)) with
  | ok _ => exact hQ h
  | error e => exact hrefused (by simp [h])

theorem endsFrom_rollbackOnError {Q : α → Nat → Session → Database → Prop} {x : Service α}
    (hx : EndsFrom env x Q E n l d) : EndsFrom env (rollbackOnError x) Q E n l d := by
  unfold EndsFrom at hx ⊢
  rw [rollbackOnError, Prog.run_tryCatch, run_bind]
  revert hx
  generalize Session.machine.run env x.run n l d = outcome
  obtain ⟨value, calls, l', d'⟩ := outcome
  intro hx
  cases value with
  | ok a => exact hx
  | error e =>
      cases e with
      | sql e => exact hx
      | app e => exact hx
      | validation => exact hx

theorem endsFrom_select (h : l.Mirrors d) {q : Query} {Q : q.Val → Nat → Session → Database → Prop}
    (hfault : (env n).fault ≠ none → E d)
    (hQ : (env n).fault = none → Q (q.eval d) (n + 1) ((q.load l (q.eval d)).2.openView d) d) :
    EndsFrom env (call (.select q)) Q E n l d := by
  refine endsFrom_statement ?_ hfault hQ
  show Session.statement (env n) l d (Session.select q l d) = _
  rw [Session.select, h.view, (h.load q).1]

variable {w t u : Id}

theorem endsFrom_lockMember (h : l.Mirrors d) {m : WorkspaceMember} (hm : d.member? w u = some m)
    {Q : Option WorkspaceMember → Nat → Session → Database → Prop}
    (hfault : (env n).fault ≠ none → E d)
    (hQ : (env n).fault = none → ∀ l', l'.Mirrors d → Q (some m) (n + 1) l' d) :
    EndsFrom env (call (.lockMember w u)) Q E n l d := by
  have hlocked : Session.lockMember w u l d =
      (.ok (some m), (l.keepMember m).lock (.member w u), d) := by
    rw [Session.lockMember, h.current, hm]
  refine endsFrom_statement ?_ hfault fun hok => hQ hok _ ((h.keepMember hm).lock (.member w u))
  rw [← hlocked]
  rfl

theorem endsFrom_lockTask (h : l.Mirrors d) {row : Task} (hrow : d.taskIn? t w = some row)
    {Q : Task → Nat → Session → Database → Prop} (hfault : (env n).fault ≠ none → E d)
    (hQ : (env n).fault = none → ∀ l', l'.Mirrors d → l'.tasks.find? t = some row →
      Q row (n + 1) l' d) :
    EndsFrom env (lockTask w t) Q E n l d := by
  have htask := (taskIn?_eq_some.mp hrow).1
  have hlocked : Session.lockTask w t l d =
      (.ok (some row), (l.keepTask row).lock (.task t), d) := by
    rw [Session.lockTask, h.current, hrow]
  refine endsFrom_bind (endsFrom_statement (v := some row) ?_ hfault fun hok => endsFrom_pure
    (hQ hok _ ((h.keepTask htask).lock (.task t)) ?_))
  · rw [← hlocked]
    rfl
  · show (l.tasks.put row).find? t = some row
    rw [Table.find?_put, if_pos (show t = Keyed.key row from (id_of_task? htask).symm)]

end Rules

/-! ## A status request -/

section StatusRequest

variable [Collation] {env : Nat → Env} {E : Database → Prop} {n : Nat} {l : Session}
  {d : Database} {subject : Option String} {w t : Id} {user : User} {m : WorkspaceMember}
  {row : Task}

/-- The dependencies make three reads and ask the limiter. -/
theorem endsFrom_limitedTaskAccess {scope : Scope} (hactor : Actor d subject w user m)
    (hrow : d.taskIn? t w = some row) {Q : WorkspaceTaskAccess → Nat → Session → Database → Prop}
    (hfault : ∀ n < 3, (env n).fault ≠ none → E d)
    (hrefused :
      enforceWriteRateLimit ((env 3).limiter (.write user.id scope (some w))) ≠ .ok () → E d)
    (hQ : (∀ n < 3, (env n).fault = none) →
      enforceWriteRateLimit ((env 3).limiter (.write user.id scope (some w))) = .ok () →
      ∀ access l, access.task = row → access.workspaceAccess.currentUser = user →
        access.workspaceAccess.workspace.id = w → l.Mirrors d → Q access 4 l d) :
    EndsFrom env (limitedTaskAccess scope subject w t) Q E 0 {} d := by
  obtain ⟨username, rfl, huser⟩ := Option.bind_eq_some_iff.mp hactor.token
  obtain ⟨workspace, hworkspace⟩ := Option.isSome_iff_exists.mp hactor.workspace
  have haccess : d.workspaceAccess? w user.id = some (workspace, m) :=
    workspaceAccess?_eq_some.mpr ⟨hworkspace, hactor.member⟩
  have hid : workspace.id = w := id_of_workspace? hworkspace
  -- the route opens the task, which opens the workspace, which asks for the user
  apply endsFrom_bind
  apply endsFrom_bind
  apply endsFrom_bind
  apply endsFrom_bind
  refine endsFrom_pure (endsFrom_bind (endsFrom_select (Session.mirrors_nil d)
    (hfault 0 (by omega)) fun h0 => ?_))
  have h₁ := ((Session.mirrors_nil d).load (.userByUsername username)).2.1.openView
  simp only [Query.eval, huser, orRaise] at h₁ ⊢
  refine endsFrom_pure ?_
  -- his workspace
  refine endsFrom_bind (endsFrom_select h₁ (hfault 1 (by omega)) fun h1 => ?_)
  have h₂ := (h₁.load (.workspaceAccess w user.id)).2.1.openView
  simp only [Query.eval, haccess, orRaise] at h₂ ⊢
  refine endsFrom_bind (endsFrom_pure (endsFrom_pure ?_))
  -- the task
  refine endsFrom_bind (endsFrom_select h₂ (hfault 2 (by omega)) fun h2 => ?_)
  have h₃ := (h₂.load (.taskIn t w)).2.1.openView
  simp only [Query.eval, hrow, orRaise] at h₃ ⊢
  refine endsFrom_bind (endsFrom_pure (endsFrom_pure ?_))
  -- the limiter
  subst hid
  refine endsFrom_bind (endsFrom_enforceWriteLimit hrefused fun h3 => endsFrom_pure ?_)
  refine hQ (fun n hn => ?_) h3 _ _ rfl rfl rfl h₃
  obtain rfl | rfl | rfl : n = 0 ∨ n = 1 ∨ n = 2 := by omega
  · exact h0
  · exact h1
  · exact h2

/-- Saving an attribute that differs is a flush, a read and the commit. -/
theorem endsFrom_saveTask (h : l.Mirrors d) (hrow : d.task? t = some row)
    (hloaded : l.tasks.find? t = some row) {patch : TaskPatch} (hdirty : patch.dirty row ≠ {})
    (hcheck : ∀ now, d.checkTask (patch.written row now) = .ok ())
    {Q : TaskResponse → Nat → Session → Database → Prop}
    (hfault : ∀ k < 3, (env (n + k)).fault ≠ none → E d)
    (hQ : (∀ k < 3, (env (n + k)).fault = none) → ∀ response l,
      Q response (n + 3) l (d.apply (.putTask (patch.written row (env n).now)))) :
    EndsFrom env (saveTask t patch) Q E n l d := by
  let changed := patch.written row (env n).now
  let flushed := (l.write (.putTask changed)).keepTask changed
  have hview : (flushed.view d).task? t = some changed := (h.flushed patch hrow (env n).now).1
  have hcurrent : ((flushed.keepTask changed).openView d).current d =
      d.apply (.putTask changed) := (h.flushed patch hrow (env n).now).2
  have hflush : Session.exec (env n) (.flushTask t patch) l d =
      Session.statement (env n) l d (.ok (), flushed, d) := by
    have hchecked : d.checkTask { (patch.dirty row).apply row with updatedAt := (env n).now } =
        .ok () := hcheck (env n).now
    simp only [Session.exec, Session.flushTask, hloaded, h.current, hrow, if_neg hdirty, hchecked]
    rfl
  have hrefresh : Session.exec (env (n + 1)) (.refreshTask t) flushed d =
      Session.statement (env (n + 1)) flushed d
        (.ok changed, (flushed.keepTask changed).openView d, d) := by
    simp only [Session.exec, hview, Session.refresh, Option.elim]
  refine endsFrom_bind (endsFrom_statement hflush (hfault 0 (by omega)) fun h0 => ?_)
  refine endsFrom_bind (endsFrom_statement hrefresh (hfault 1 (by omega)) fun h1 => ?_)
  refine endsFrom_bind (endsFrom_statement (v := ()) rfl (hfault 2 (by omega)) fun h2 => ?_)
  rw [hcurrent]
  refine endsFrom_pure (hQ (fun k hk => ?_) _ _)
  obtain rfl | rfl | rfl : k = 0 ∨ k = 1 ∨ k = 2 := by omega
  · exact h0
  · exact h1
  · exact h2

/-- An accepted change of the status locks the membership and the task before it saves. -/
theorem endsFrom_updateTaskStatus {access : WorkspaceTaskAccess} {data : TaskStatusUpdate}
    (h : l.Mirrors d) (hm : d.member? access.workspaceAccess.workspace.id
      access.workspaceAccess.currentUser.id = some m)
    (hrow : d.taskIn? access.task.id access.workspaceAccess.workspace.id = some access.task)
    (hcheck : d.checkTask access.task = .ok ())
    (hdecide : decideStatus m.role access.workspaceAccess.currentUser.id access.task data.status =
      .change)
    {Q : TaskResponse → Nat → Session → Database → Prop}
    (hfault : ∀ k < 5, (env (n + k)).fault ≠ none → E d)
    (hQ : (∀ k < 5, (env (n + k)).fault = none) → ∀ response l,
      Q response (n + 5) l (d.apply (.putTask
        { access.task with status := data.status, updatedAt := (env (n + 2)).now }))) :
    EndsFrom env (updateTaskStatus access data) Q E n l d := by
  have htask := (taskIn?_eq_some.mp hrow).1
  have hnew := (decideStatus_change hdecide).2.2
  have hwritten : ∀ now, TaskPatch.written { status := some data.status } access.task now =
      { access.task with status := data.status, updatedAt := now } := by
    intro now
    rw [TaskPatch.written, TaskPatch.apply_dirty_status hnew]
  apply endsFrom_rollbackOnError
  refine endsFrom_bind (endsFrom_bind (endsFrom_lockMember h hm (hfault 0 (by omega))
    fun h0 l₁ h₁ => endsFrom_bind (endsFrom_pure (endsFrom_pure ?_))))
  have hown : membershipOf ((some m).toList ++ []) access.workspaceAccess.currentUser.id = some m :=
    List.find?_cons_of_pos (decide_eq_true (key_of_member? hm).2)
  simp only [hown, orRaise]
  refine endsFrom_bind (endsFrom_pure (endsFrom_bind ?_))
  refine endsFrom_lockTask h₁ hrow (hfault 1 (by omega)) fun h1 l₂ h₂ hloaded => ?_
  simp only [hdecide]
  refine endsFrom_saveTask h₂ htask hloaded (TaskPatch.dirty_of_ne_status hnew) (fun now => ?_)
    (fun k hk => ?_) fun hsaved response l' => ?_
  · rw [hwritten]
    exact hcheck
  · have hlater := hfault (k + 2) (by omega)
    rwa [show n + (k + 2) = n + 1 + 1 + k by omega] at hlater
  · rw [hwritten]
    refine hQ (fun k hk => ?_) response l'
    obtain rfl | rfl | ⟨j, rfl⟩ : k = 0 ∨ k = 1 ∨ ∃ j, k = j + 2 := by
      rcases Nat.lt_or_ge k 2 with hlt | hge
      · omega
      · exact Or.inr (Or.inr ⟨k - 2, by omega⟩)
    · exact h0
    · exact h1
    · have hlater := hsaved j (by omega)
      rwa [show n + 1 + 1 + j = n + (j + 2) by omega] at hlater

end StatusRequest
end TaskPlatform
