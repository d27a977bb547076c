import TaskPlatform.Integrity.Accepted
import TaskPlatform.Serial.Tasks
import TaskPlatform.Specification.Platform

/-!
# Services that do what is specified

A service that is served alone while the server does not fail is compared with an answer
that depends on the circumstances.  The circumstances become known one after the other:
each rule fixes the ones its call finds (`fulfils_limiter`, `fulfils_now`), and what is
left of the service is compared with what is left of the answer.
-/

namespace TaskPlatform

open Transaction Service Database Relational Platform

/-- All circumstances as one call finds them. -/
def Env.circumstances (env : Env) : Circumstances :=
  ⟨env.limiter, env.now, env.now, env.hash, env.verify⟩

/-- Each of the circumstances is what some call finds. -/
structure Circumstances.FoundIn (i : Circumstances) (good : Env → Prop) : Prop where
  limiter : ∃ env, good env ∧ i.limiter = env.limiter
  now : ∃ env, good env ∧ i.now = env.now
  joinedAt : ∃ env, good env ∧ i.joinedAt = env.now
  hash : ∃ env, good env ∧ i.hash = env.hash
  verify : ∃ env, good env ∧ i.verify = env.verify

section Found

variable {good : Env → Prop} {env : Env} {i : Circumstances}

theorem foundIn_env (henv : good env) : env.circumstances.FoundIn good :=
  ⟨⟨env, henv, rfl⟩, ⟨env, henv, rfl⟩, ⟨env, henv, rfl⟩, ⟨env, henv, rfl⟩, ⟨env, henv, rfl⟩⟩

theorem Circumstances.FoundIn.withLimiter (h : i.FoundIn good) (henv : good env) :
    Circumstances.FoundIn { i with limiter := env.limiter } good :=
  ⟨⟨env, henv, rfl⟩, h.now, h.joinedAt, h.hash, h.verify⟩

/-- Calls that all find the same leave no choice. -/
theorem Circumstances.FoundIn.eq_circumstances (h : i.FoundIn good)
    (hgood : ∀ e, good e → e = env) : i = env.circumstances := by
  obtain ⟨⟨e₁, h₁, hlimiter⟩, ⟨e₂, h₂, hnow⟩, ⟨e₃, h₃, hjoined⟩, ⟨e₄, h₄, hhash⟩,
    ⟨e₅, h₅, hverify⟩⟩ := h
  rw [hgood e₁ h₁] at hlimiter
  rw [hgood e₂ h₂] at hnow
  rw [hgood e₃ h₃] at hjoined
  rw [hgood e₄ h₄] at hhash
  rw [hgood e₅ h₅] at hverify
  obtain ⟨limiter, now, joinedAt, hash, verify⟩ := i
  simp only at hlimiter hnow hjoined hhash hverify
  rw [hlimiter, hnow, hjoined, hhash, hverify]
  rfl

end Found

namespace Platform

/-! ## Steps of an answer -/

section Steps

variable {α β : Type} {e : AppException} {a : α}

@[simp] theorem ok_bind (f : α → Except Exc β) : ((.ok a : Except Exc α) >>= f) = f a := rfl

@[simp] theorem error_bind (e : Exc) (f : α → Except Exc β) :
    ((.error e : Except Exc α) >>= f) = .error e := rfl

@[simp] theorem refuse_bind (f : α → Except Exc β) :
    ((refuse e : Except Exc α) >>= f) = refuse e := rfl

theorem demand_pos {c : Prop} [Decidable c] (h : c) : demand c e = .ok () := if_pos h

theorem demand_neg {c : Prop} [Decidable c] (h : ¬ c) : demand c e = refuse e := if_neg h

@[simp] theorem expect_some : expect (some a) e = .ok a := rfl

@[simp] theorem expect_none : expect (none : Option α) e = refuse e := rfl

@[simp] theorem parsed_some : parsed (some a) = .ok a := rfl

@[simp] theorem parsed_none : parsed (none : Option α) = .error .validation := rfl

end Steps
end Platform

/-! ## Fulfilment -/

section Fulfils

variable [Collation] {good : Env → Prop} {l : Session} {d : Database} {x : Service Body}
  {answer answer' : Circumstances → Reply}

/-- The service returns what the answer says and leaves the tables it says, or it raises
what the answer says and leaves the tables alone. -/
abbrev Fulfils (good : Env → Prop) (answer : Circumstances → Reply) (x : Service Body)
    (l : Session) (d : Database) : Prop :=
  Ends good x (fun body _ d' => ∃ i, i.FoundIn good ∧ answer i = .ok (body, d'))
    (fun e d' => d' = d ∧ ∃ i, i.FoundIn good ∧ answer i = .error e) l d

/-- What a refused request owes. -/
abbrev RefusedWith (good : Env → Prop) (answer : Circumstances → Reply) (d : Database) :
    Exc → Database → Prop :=
  fun e d' => d' = d ∧ ∃ i, i.FoundIn good ∧ answer i = .error e

theorem fulfils_limiter {env : Env} (henv : good env)
    (h : Fulfils good (fun i => answer { i with limiter := env.limiter }) x l d) :
    Fulfils good answer x l d := by
  refine smoothE_mono ?_ ?_ h
  · rintro body l d' ⟨i, hi, hanswer⟩
    exact ⟨_, hi.withLimiter henv, hanswer⟩
  · rintro e _ d' ⟨hd, i, hi, hanswer⟩
    exact ⟨hd, _, hi.withLimiter henv, hanswer⟩

omit [Collation] in
/-- An answer that depends on nothing that is not known yet. -/
theorem refusal_of {e : Exc} (hgood : ∃ env, good env) (h : ∀ i, answer i = .error e) :
    RefusedWith good answer d e d := by
  obtain ⟨env, henv⟩ := hgood
  exact ⟨rfl, _, foundIn_env henv, h _⟩

omit [Collation] in
theorem returned_of {body : Body} {d' : Database} (hgood : ∃ env, good env)
    (h : ∀ i, answer i = .ok (body, d')) :
    ∃ i, i.FoundIn good ∧ answer i = .ok (body, d') := by
  obtain ⟨env, henv⟩ := hgood
  exact ⟨_, foundIn_env henv, h _⟩

end Fulfils

/-! ## The dependencies of the routes -/

section Dependencies

variable [Collation] {good : Env → Prop} {E : Exc → Database → Prop} {l : Session} {d : Database}
  {subject : Option String} {w t : Id}

omit [Collation] in
theorem serverFails_of_good (hgood : ∀ env, good env → env.Faultless)
    (E : Exc → Database → Prop) (d : Database) : ServerFails good E d := by
  intro env henv e he
  rw [(hgood env henv).fault] at he
  cases he

theorem ends_authenticate (h : l.Mirrors d) (hE : ServerFails good E d)
    {Q : User → Session → Database → Prop}
    (hraise : ∀ e, authenticate d subject = .error e → E e d)
    (hQ : ∀ user l', authenticate d subject = .ok user → l'.Mirrors d → Q user l' d) :
    Ends good (getCurrentUser subject) Q E l d := by
  refine ends_getCurrentUser h hE (fun hnone => hraise _ ?_)
    fun user l' huser h' => hQ user l' ?_ h'
  · rw [authenticate, hnone]
    rfl
  · rw [authenticate, huser]
    rfl

/-- The entry of a user who has been granted access. -/
def WorkspaceAccess.entry (access : WorkspaceAccess) (m : WorkspaceMember) : Entrant :=
  ⟨access.currentUser, access.workspace, m⟩

theorem ends_enter (h : l.Mirrors d) (hE : ServerFails good E d)
    {Q : WorkspaceAccess → Session → Database → Prop}
    (hraise : ∀ e, enter d subject w = .error e → E e d)
    (hQ : ∀ access m l', enter d subject w = .ok (access.entry m) →
      Granted d subject w access m l' → Q access l' d) :
    Ends good (workspaceAccess subject w) Q E l d := by
  apply ends_bind
  refine ends_getCurrentUser h hE (fun hnone => hraise _ ?_) fun user l₁ huser h₁ => ?_
  · rw [enter, authenticate, hnone]
    rfl
  refine ends_getWorkspaceAccess h₁ hE (fun hnone => hraise _ ?_)
    fun access m l' hcurrent hopen => ?_
  · rw [enter, authenticate, huser, expect_some, ok_bind, hnone]
    rfl
  · have hrow : d.workspaceAccess? w user.id = some (access.workspace, m) := by
      refine workspaceAccess?_eq_some.mpr ⟨hopen.workspace, ?_⟩
      rw [← hcurrent]
      exact hopen.member
    refine hQ access m l' ?_ ⟨hopen, hcurrent ▸ huser⟩
    rw [enter, authenticate, huser, expect_some, ok_bind, hrow, expect_some, ok_bind,
      WorkspaceAccess.entry, hcurrent]
    rfl

theorem ends_enterTask (h : l.Mirrors d) (hE : ServerFails good E d)
    {Q : WorkspaceTaskAccess → Session → Database → Prop}
    (hraise : ∀ e, enterTask d subject w t = .error e → E e d)
    (hQ : ∀ access m l',
      enterTask d subject w t = .ok (access.workspaceAccess.entry m, access.task) →
      TaskGranted d subject w t access m l' → Q access l' d) :
    Ends good (taskAccess subject w t) Q E l d := by
  apply ends_bind
  refine ends_enter h hE (fun e he => hraise e ?_) fun access m l₁ hentry h₁ => ?_
  · rw [enterTask, he]
    rfl
  refine ends_bind (ends_select h₁.mirror hE ?_)
  obtain ⟨_, hmirror, hkeeps⟩ := h₁.mirror.load (.taskIn t w)
  cases hrow : d.taskIn? t w with
  | none =>
      simp only [Query.eval, hrow]
      refine ends_bind (ends_raise (hraise _ ?_))
      rw [enterTask, hentry, ok_bind, hrow]
      rfl
  | some row =>
      obtain ⟨htask, _⟩ := taskIn?_eq_some.mp hrow
      simp only [Query.eval, hrow] at hmirror hkeeps ⊢
      refine ends_bind (ends_pure (ends_pure (hQ ⟨access, row⟩ m _ ?_ ?_)))
      · rw [enterTask, hentry, ok_bind, hrow]
        rfl
      refine ⟨h₁.step hmirror.openView ⟨hkeeps.member, hkeeps.task⟩, hrow, ?_⟩
      show ((l₁.tasks.put (l₁.resolveTask row)).find? t).isSome
      rw [h₁.mirror.resolveTask (Table.mem_of_find? htask), Table.find?_put,
        if_pos (show t = Keyed.key row from (id_of_task? htask).symm)]
      rfl

/-- The guard of a write, with the limiter it has asked. -/
theorem ends_permitWrite {u : Id} {scope : Scope} {workspaceId : Option Id}
    {Q : Unit → Session → Database → Prop}
    (hraise : ∀ env, good env → ∀ e,
      enforceWriteRateLimit (env.limiter (.write u scope workspaceId)) = .error e →
        E (.app e) d)
    (hQ : ∀ env, good env →
      enforceWriteRateLimit (env.limiter (.write u scope workspaceId)) = .ok () → Q () l d) :
    Ends good (enforceWriteLimit u scope workspaceId) Q E l d := by
  apply ends_bind
  refine ends_call (fun env henv v l' d' hx => ?_) fun env _ e l' d' hx => ?_
  · cases hx
    cases hr : enforceWriteRateLimit (env.limiter (.write u scope workspaceId)) with
    | ok _ => exact ends_pure (hQ env henv hr)
    | error e => exact ends_raise (hraise env henv e hr)
  · cases hx

theorem ends_permitAuth {check : RateCheck} {Q : Unit → Session → Database → Prop}
    (hraise : ∀ env, good env → ∀ e,
      enforceAuthRateLimit (env.limiter check) = .error e → E (.app e) d)
    (hQ : ∀ env, good env → enforceAuthRateLimit (env.limiter check) = .ok () → Q () l d) :
    Ends good (enforceAuthLimit check) Q E l d := by
  apply ends_bind
  refine ends_call (fun env henv v l' d' hx => ?_) fun env _ e l' d' hx => ?_
  · cases hx
    cases hr : enforceAuthRateLimit (env.limiter check) with
    | ok _ => exact ends_pure (hQ env henv hr)
    | error e => exact ends_raise (hraise env henv e hr)
  · cases hx

variable {answer : Circumstances → Reply} {rest : Circumstances → Entrant → Reply}
  {scope : Scope} {roles : List MemberRole}

/-- What follows a guard is compared with what follows it in the answer. -/
theorem fulfils_permitWrite {user : User} {workspaceId : Option Id} {x : Service Body}
    {rest : Circumstances → Reply}
    (hanswer : ∀ i, answer i = permitWrite i user scope workspaceId >>= fun _ => rest i)
    (hrest : ∀ i limiter, rest { i with limiter := limiter } = rest i)
    (hx : Fulfils good rest x l d) :
    Ends good (enforceWriteLimit user.id scope workspaceId)
      (fun _ l' d' => (l' = l ∧ d' = d) ∧ Fulfils good answer x l d) (RefusedWith good answer d)
      l d := by
  refine ends_permitWrite (fun env henv e he => ?_) fun env henv hok => ⟨⟨rfl, rfl⟩, ?_⟩
  · refine ⟨rfl, _, foundIn_env henv, ?_⟩
    rw [hanswer, permitWrite, permit, show env.circumstances.limiter = env.limiter from rfl, he]
    rfl
  · have hleft : (fun i : Circumstances => answer { i with limiter := env.limiter }) = rest := by
      funext i
      rw [hanswer, permitWrite, permit, hok, ← hrest i env.limiter]
      rfl
    apply fulfils_limiter henv
    rw [hleft]
    exact hx

/-- The same for the guard of a registration or of a login. -/
theorem fulfils_permitAuth {check : RateCheck} {x : Service Body} {rest : Circumstances → Reply}
    (hanswer : ∀ i, answer i = permit (enforceAuthRateLimit (i.limiter check)) >>= fun _ => rest i)
    (hrest : ∀ i limiter, rest { i with limiter := limiter } = rest i)
    (hx : Fulfils good rest x l d) :
    Ends good (enforceAuthLimit check)
      (fun _ l' d' => (l' = l ∧ d' = d) ∧ Fulfils good answer x l d) (RefusedWith good answer d)
      l d := by
  refine ends_permitAuth (fun env henv e he => ?_) fun env henv hok => ⟨⟨rfl, rfl⟩, ?_⟩
  · refine ⟨rfl, _, foundIn_env henv, ?_⟩
    rw [hanswer, show env.circumstances.limiter = env.limiter from rfl, he]
    rfl
  · have hleft : (fun i : Circumstances => answer { i with limiter := env.limiter }) = rest := by
      funext i
      rw [hanswer, hok, ← hrest i env.limiter]
      rfl
    apply fulfils_limiter henv
    rw [hleft]
    exact hx

/-- A body is parsed where the answer parses it. -/
theorem fulfils_validBody {α : Type} {body : Option α} {k : α → Service Body}
    {F : Circumstances → α → Reply} (hsome : ∃ env, good env)
    (hanswer : ∀ i, answer i = parsed body >>= F i)
    (hk : ∀ b, body = some b → Fulfils good (fun i => F i b) (k b) l d) :
    Fulfils good answer (validBody body >>= k) l d := by
  cases body with
  | none =>
      apply ends_bind
      exact refusal_of hsome fun i => hanswer i
  | some b =>
      have hleft : answer = fun i => F i b := funext fun i => hanswer i
      rw [hleft]
      exact ends_bind (ends_pure (hk b rfl))

section Guarded

variable (hgood : ∀ env, good env → env.Faultless) (hsome : ∃ env, good env)

include hgood hsome

/-- A route that begins with a guarded access goes on with what is left of its answer. -/
theorem fulfils_enterToManage {k : WorkspaceAccess → Service Body}
    (hanswer : ∀ i, answer i = enterToManage d i scope roles subject w >>= rest i)
    (hrest : ∀ i limiter entry, rest { i with limiter := limiter } entry = rest i entry)
    (hk : ∀ access m l, Granted d subject w access m l →
      Fulfils good (fun i => rest i (access.entry m)) (k access) l d) :
    Fulfils good answer (limitedRoleAccess scope roles subject w >>= k) {} d := by
  have hE := serverFails_of_good hgood (RefusedWith good answer d) d
  refine ends_bind (ends_bind (ends_enter (Session.mirrors_nil d) hE (fun e he => ?_)
    fun access m l hentry h => ends_bind ?_))
  · refine refusal_of hsome fun i => ?_
    rw [hanswer, enterToManage, he]
    rfl
  refine ends_bind (ends_membershipRole h.toOpened (ends_raiseIf (fun hrole => ?_) fun hrole => ?_))
  · have hno : (access.entry m).role ∉ roles := hrole
    refine refusal_of hsome fun i => ?_
    rw [hanswer, enterToManage, hentry, ok_bind, demand_neg hno]
    rfl
  rw [h.id]
  have hentered : ∀ i, answer i =
      permitWrite i access.currentUser scope (some w) >>= fun _ => rest i (access.entry m) := by
    have hyes : (access.entry m).role ∈ roles := not_not.mp hrole
    intro i
    rw [hanswer, enterToManage, hentry, ok_bind, demand_pos hyes, ok_bind, bind_assoc]
    rfl
  apply ends_bind
  refine ends_mono (fulfils_permitWrite hentered (fun i x => hrest i x _) (hk access m l h)) ?_
  rintro _ l' d' ⟨⟨rfl, rfl⟩, hx⟩
  exact ends_pure hx

theorem fulfils_enterToWrite {k : WorkspaceAccess → Service Body}
    (hanswer : ∀ i, answer i = enterToWrite d i scope subject w >>= rest i)
    (hrest : ∀ i limiter entry, rest { i with limiter := limiter } entry = rest i entry)
    (hk : ∀ access m l, Granted d subject w access m l →
      Fulfils good (fun i => rest i (access.entry m)) (k access) l d) :
    Fulfils good answer (limitedWorkspaceAccess scope subject w >>= k) {} d := by
  have hE := serverFails_of_good hgood (RefusedWith good answer d) d
  refine ends_bind (ends_bind (ends_enter (Session.mirrors_nil d) hE (fun e he => ?_)
    fun access m l hentry h => ends_bind ?_))
  · refine refusal_of hsome fun i => ?_
    rw [hanswer, enterToWrite, he]
    rfl
  rw [h.id]
  have hentered : ∀ i, answer i =
      permitWrite i access.currentUser scope (some w) >>= fun _ => rest i (access.entry m) := by
    intro i
    rw [hanswer, enterToWrite, hentry, ok_bind, bind_assoc]
    rfl
  refine ends_mono (fulfils_permitWrite hentered (fun i x => hrest i x _) (hk access m l h)) ?_
  rintro _ l' d' ⟨⟨rfl, rfl⟩, hx⟩
  exact ends_pure hx

theorem fulfils_enterToChange {k : WorkspaceTaskAccess → Service Body}
    {rest : Circumstances → Entrant × Task → Reply}
    (hanswer : ∀ i, answer i = enterToChange d i scope subject w t >>= rest i)
    (hrest : ∀ i limiter found, rest { i with limiter := limiter } found = rest i found)
    (hk : ∀ access m l, TaskGranted d subject w t access m l →
      Fulfils good (fun i => rest i (access.workspaceAccess.entry m, access.task)) (k access) l d) :
    Fulfils good answer (limitedTaskAccess scope subject w t >>= k) {} d := by
  have hE := serverFails_of_good hgood (RefusedWith good answer d) d
  refine ends_bind (ends_bind (ends_enterTask (Session.mirrors_nil d) hE (fun e he => ?_)
    fun access m l hentry h => ends_bind ?_))
  · refine refusal_of hsome fun i => ?_
    rw [hanswer, enterToChange, he]
    rfl
  rw [h.id]
  have hentered : ∀ i, answer i =
      permitWrite i access.workspaceAccess.currentUser scope (some w) >>= fun _ =>
        rest i (access.workspaceAccess.entry m, access.task) := by
    intro i
    rw [hanswer, enterToChange, hentry, ok_bind, bind_assoc]
    rfl
  refine ends_mono (fulfils_permitWrite hentered (fun i x => hrest i x _) (hk access m l h)) ?_
  rintro _ l' d' ⟨⟨rfl, rfl⟩, hx⟩
  exact ends_pure hx

end Guarded
end Dependencies

/-! ## Calls that write -/

section Writes

variable [Collation] {good : Env → Prop} {E : Exc → Database → Prop} {l : Session} {d : Database}

/-- A call that is answered with a value. -/
theorem ends_answered {c : Call} {Q : c.Val → Session → Database → Prop}
    (h : ∀ env, good env → ∃ v l' d', Session.exec env c l d = (.ok v, l', d') ∧ Q v l' d') :
    Ends good (call c) Q E l d := by
  refine ends_call (fun env henv v l' d' hx => ?_) fun env henv e l' d' hx => ?_
  · obtain ⟨v', l'', d'', hexec, hQ⟩ := h env henv
    rw [hexec] at hx
    cases hx
    exact hQ
  · obtain ⟨v', l'', d'', hexec, _⟩ := h env henv
    rw [hexec] at hx
    cases hx

/-- A handler runs for what the body raises. -/
theorem ends_tryCatch {α : Type} (E' : Exc → Database → Prop) {x : Service α}
    {f : Exc → Service α} {Q : α → Session → Database → Prop} (hx : Ends good x Q E' l d)
    (hf : ∀ e l d, E' e d → Ends good (f e) Q E l d) : Ends good (tryCatch x f) Q E l d :=
  smoothE_tryCatch (smoothE_mono (fun _ _ _ h => h) (fun e l d he => hf e l d he) hx)

variable (hgood : ∀ env, good env → env.Faultless)

include hgood

/-- `db.get` finds the row that is stored, in the identity map or in the table. -/
theorem ends_getMember (h : l.Mirrors d) {w u : Id}
    {Q : Option WorkspaceMember → Session → Database → Prop}
    (hQ : ∀ l', l'.Mirrors d → Q (d.member? w u) l' d) :
    Ends good (call (.getMember w u)) Q E l d := by
  refine ends_answered fun env henv => ?_
  simp only [Session.exec, Session.getMember, statement_faultless (hgood env henv), h.view]
  cases hkept : l.members.find? (memberKey w u) with
  | some m =>
      have hm : d.member? w u = some m := h.member _ m hkept
      exact ⟨_, _, _, rfl, hm ▸ hQ l h⟩
  | none =>
      cases hm : d.member? w u with
      | none => exact ⟨_, _, _, rfl, hm ▸ hQ _ h.openView⟩
      | some m => exact ⟨_, _, _, rfl, hm ▸ hQ _ (h.keepMember hm).openView⟩

/-- Read a row again and commit. -/
theorem ends_refreshedMember {α : Type} {w u : Id} {m : WorkspaceMember}
    {f : WorkspaceMember → α} {Q : α → Session → Database → Prop}
    (hview : (l.view d).member? w u = some m) (hQ : ∀ l', Q (f m) l' (l.current d)) :
    Ends good
      (do
        let refreshed ← call (.refreshMember w u)
        call .commit
        return f refreshed) Q E l d := by
  refine ends_bind (ends_answered fun env henv => ⟨m, (l.keepMember m).openView d, d, ?_, ?_⟩)
  · exact (statement_faultless (hgood env henv)).trans (by rw [hview]; rfl)
  · exact ends_bind (ends_commit (serverFails_of_good hgood E d) (ends_pure (hQ _)))

theorem ends_refreshedTaskExact {α : Type} {t : Id} {row : Task} {f : Task → α}
    {Q : α → Session → Database → Prop} (hview : (l.view d).task? t = some row)
    (hQ : ∀ l', Q (f row) l' (l.current d)) :
    Ends good
      (do
        let refreshed ← call (.refreshTask t)
        call .commit
        return f refreshed) Q E l d := by
  refine ends_bind (ends_answered fun env henv => ⟨row, (l.keepTask row).openView d, d, ?_, ?_⟩)
  · exact (statement_faultless (hgood env henv)).trans (by rw [hview]; rfl)
  · exact ends_bind (ends_commit (serverFails_of_good hgood E d) (ends_pure (hQ _)))

end Writes
end TaskPlatform
