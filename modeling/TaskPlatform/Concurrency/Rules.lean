import TaskPlatform.Concurrency.Effect

/-!
# Proof rules for the services

One rule for each session call, for any protocol that reads its locks at least as
"this row stays as it is".  A rule says what the caller knows after the call: the
answer and the session as functions of the database it found, which is the
database it left behind except for interference.

An exception needs no rule of its own: after it a request only rolls back and
closes its session.
-/

namespace TaskPlatform

open Transaction Database

/-! ## Every call but a commit leaves the rows alone -/

namespace Session

variable {α : Type} {env : Env} {l l' : Session} {d d' : Database}

theorem statement_sameRows {x : Except SqlError α × Session × Database} (h : SameRows d x.2.2) :
    SameRows d (statement env l d x).2.2 := by
  unfold statement
  split
  · exact SameRows.refl d
  · exact h

theorem insert_sameRows {check : Except SqlError Unit} {row : α} {w : Write}
    (h : SameRows d d') : SameRows d (insert check row w l d').2.2 := by
  unfold insert
  split
  · exact h
  · exact h

theorem refresh_sameRows {row : Option α} : SameRows d (refresh row l l' d).2.2 := by
  unfold refresh
  split <;> exact SameRows.refl d

theorem statement_ok {x : Except SqlError α × Session × Database} {v : α}
    (h : statement env l d x = (.ok v, l', d')) : x = (.ok v, l', d') := by
  unfold statement at h
  split at h
  · cases h
  · exact h

theorem insert_ok {check : Except SqlError Unit} {row v : α} {w : Write}
    (h : insert check row w l d = (.ok v, l', d')) :
    check = .ok () ∧ v = row ∧ l' = l.write w ∧ d' = d := by
  unfold insert at h
  split at h
  · cases h
  · cases h
    exact ⟨rfl, rfl, rfl, rfl⟩

theorem refresh_ok {row : Option α} {v : α} {l'' : Session}
    (h : refresh row l l' d = (.ok v, l'', d')) : row = some v ∧ l'' = l' ∧ d' = d := by
  unfold refresh at h
  split at h
  · cases h
  · cases h
    exact ⟨rfl, rfl, rfl⟩

end Session

variable [Collation]

/-- What the services rely on in a protocol. -/
structure Sound (P : Protocol Request Session Database RowKey) : Prop where
  rely : ∀ {k d d'}, P.rely k d d' → SameRow k d d'
  evolve : ∀ {d d'}, P.evolve d d' → Persists d d'

/-- A protocol tolerates every step that has an effect of this request. -/
def Tolerates (P : Protocol Request Session Database RowKey) (request : Request) : Prop :=
  ∀ l d l' d', P.inv d → P.assume request l d l' d' → Effect P request l d d' →
    P.Guarantees Session.machine request l d l' d'

/-- The protocol of the row locks alone: a row somebody else holds stays as it is. -/
def lockProtocol (inv : Database → Prop)
    (guar : Request → Session → Database → Session → Database → Prop) :
    Protocol Request Session Database RowKey where
  inv := inv
  evolve := Persists
  rely := SameRow
  assume := fun _ _ _ _ _ => True
  guar := guar
  evolve_refl := Persists.refl
  evolve_trans := Persists.trans
  rely_refl := sameRow_refl
  rely_trans := sameRow_trans

theorem lockProtocol_sound (inv : Database → Prop)
    (guar : Request → Session → Database → Session → Database → Prop) :
    Sound (lockProtocol inv guar) :=
  ⟨fun h => h, fun h => h⟩

theorem lockProtocol_tolerates {inv : Database → Prop}
    {guar : Request → Session → Database → Session → Database → Prop} {request : Request}
    (hinv : ∀ l d d', inv d → Effect (lockProtocol inv guar) request l d d' → inv d')
    (hguar : ∀ l d l' d', inv d → Effect (lockProtocol inv guar) request l d d' →
      guar request l d l' d') :
    Tolerates (lockProtocol inv guar) request :=
  fun l d l' d' hd _ he =>
    ⟨hinv l d d' hd he, he.persists, fun _ hk => he.sameRow hk, hguar l d l' d' hd he⟩

/-- The service keeps the protocol and ends, if it returns, in `Q`. -/
def Safe (P : Protocol Request Session Database RowKey) (request : Request) {α : Type}
    (x : Service α) (Q : α → Session → Database → Prop) (l : Session) (d : Database) : Prop :=
  wpE Session.machine (P.contract Session.machine request) x Q (fun _ _ _ => True) l d

abbrev Meddles (P : Protocol Request Session Database RowKey) (l : Session)
    (d d' : Database) : Prop :=
  P.Interferes Session.machine l d d'

namespace Session

theorem exec_sameRows {env : Env} {l : Session} {d : Database} {c : Call} (hc : c ≠ .commit) :
    SameRows d (exec env c l d).2.2 := by
  cases c with
  | commit => exact absurd rfl hc
  | select q => exact statement_sameRows (SameRows.refl d)
  | getMember w u =>
      simp only [exec, getMember]
      split
      · exact SameRows.refl d
      · refine statement_sameRows ?_
        split <;> exact SameRows.refl d
  | memberAttributes w u =>
      simp only [exec, memberAttributes]
      split <;> exact SameRows.refl d
  | lockMember w u =>
      refine statement_sameRows ?_
      unfold lockMember
      split <;> exact SameRows.refl d
  | lockTask w t =>
      refine statement_sameRows ?_
      unfold lockTask
      split <;> exact SameRows.refl d
  | insertUser username hashed => exact statement_sameRows (insert_sameRows ⟨rfl, rfl, rfl, rfl⟩)
  | insertWorkspace name creator =>
      exact statement_sameRows (insert_sameRows ⟨rfl, rfl, rfl, rfl⟩)
  | insertMember w u role => exact statement_sameRows (insert_sameRows (SameRows.refl d))
  | insertTask w creator data => exact statement_sameRows (insert_sameRows ⟨rfl, rfl, rfl, rfl⟩)
  | flushMemberRole w u role =>
      simp only [exec, flushMemberRole]
      split
      · exact SameRows.refl d
      · split
        · exact SameRows.refl d
        · refine statement_sameRows ?_
          split <;> exact SameRows.refl d
  | flushTask t patch =>
      simp only [exec, flushTask]
      split
      · exact SameRows.refl d
      · split
        · exact SameRows.refl d
        · refine statement_sameRows ?_
          split
          · exact SameRows.refl d
          · split <;> exact SameRows.refl d
  | deleteMember w u =>
      refine statement_sameRows ?_
      unfold deleteMember
      split <;> exact SameRows.refl d
  | deleteTask t =>
      refine statement_sameRows ?_
      unfold deleteTask
      split <;> exact SameRows.refl d
  | scanTasks w => exact statement_sameRows (SameRows.refl d)
  | clearAssignee w u t updatedAt =>
      refine statement_sameRows ?_
      unfold clearAssignee
      split
      · exact SameRows.refl d
      · split <;> exact SameRows.refl d
  | refreshUser u => exact statement_sameRows refresh_sameRows
  | refreshWorkspace w => exact statement_sameRows refresh_sameRows
  | refreshMember w u => exact statement_sameRows refresh_sameRows
  | refreshTask t => exact statement_sameRows refresh_sameRows
  | rollback => exact SameRows.refl d
  | close => exact SameRows.refl d
  | utcNow => exact SameRows.refl d
  | hashPassword password => exact SameRows.refl d
  | verifyPassword password hashed => exact SameRows.refl d
  | checkRateLimit check => exact SameRows.refl d

end Session

/-! ## Rules -/

section Rules

variable {P : Protocol Request Session Database RowKey} {request : Request} {α β : Type}
  {l : Session} {d : Database}

theorem safe_pure {Q : α → Session → Database → Prop} {a : α} (h : Q a l d) :
    Safe P request (pure a) Q l d :=
  (wpE_pure a).mpr h

theorem safe_throw {Q : α → Session → Database → Prop} {e : Exc} :
    Safe P request (throw e : Service α) Q l d :=
  (wpE_throw e).mpr trivial

theorem safe_raise {Q : α → Session → Database → Prop} {e : AppException} :
    Safe P request (Service.raise e : Service α) Q l d :=
  safe_throw

theorem safe_bind {Q : β → Session → Database → Prop} {x : Service α} {f : α → Service β}
    (h : Safe P request x (fun a => Safe P request (f a) Q) l d) :
    Safe P request (x >>= f) Q l d :=
  (wpE_bind x f).mpr h

theorem safe_mono {Q Q' : α → Session → Database → Prop} {x : Service α}
    (h : Safe P request x Q l d) (hQ : ∀ a l d, Q a l d → Q' a l d) :
    Safe P request x Q' l d :=
  wpE_mono x hQ (fun _ _ _ h => h) h

theorem safe_raiseIf {c : Prop} [Decidable c] {e : AppException}
    {Q : Unit → Session → Database → Prop} (h : ¬ c → Q () l d) :
    Safe P request (Service.raiseIf c e) Q l d := by
  unfold Service.raiseIf
  split
  · exact safe_raise
  · exact safe_pure (h ‹_›)

theorem safe_orRaise {row : Option α} {e : AppException} {Q : α → Session → Database → Prop}
    (h : ∀ r, row = some r → Q r l d) : Safe P request (Service.orRaise row e) Q l d := by
  cases row with
  | none => exact safe_raise
  | some r => exact safe_pure (h r rfl)

theorem safe_validBody {body : Option α} {Q : α → Session → Database → Prop}
    (h : ∀ b, body = some b → Q b l d) : Safe P request (validBody body) Q l d := by
  cases body with
  | none => exact safe_throw
  | some b => exact safe_pure (h b rfl)

theorem safe_tryCatch {x : Service α} {f : Exc → Service α}
    {Q : α → Session → Database → Prop} (hx : Safe P request x Q l d)
    (hf : ∀ e l d, Safe P request (f e) Q l d) :
    Safe P request (tryCatch x f) Q l d :=
  (wpE_tryCatch x f).mpr (wpE_mono x (fun _ _ _ h => h) (fun e l d _ => hf e l d) hx)

theorem safe_forM {f : α → Service PUnit} (I : List α → Session → Database → Prop)
    (hstep : ∀ a rest l d, I (a :: rest) l d → Safe P request (f a) (fun _ => I rest) l d)
    {as : List α} (h : I as l d) : Safe P request (forM as f) (fun _ => I []) l d :=
  wpE_forM I hstep as l d h

section Calls

variable (hT : Tolerates P request)

include hT

theorem safe_call_evolve {c : Call} (hc : c ≠ .commit) {Q : c.Val → Session → Database → Prop}
    (h : ∀ env d' v l' d'', Meddles P l d d' → P.evolve d' d'' →
      Session.exec env c l d' = (.ok v, l', d'') → Q v l' d'') :
    Safe P request (Service.call c) Q l d := by
  intro d' hd env ha
  have hg := hT _ _ _ _ hd.inv ha (.quiet (Session.exec_sameRows hc))
  refine ⟨hg, ?_⟩
  rcases hx : Session.exec env c l d' with ⟨r, l', d''⟩
  have hx' : Session.machine.exec env c l d' = (r, l', d'') := hx
  rw [hx'] at hg ⊢
  cases r with
  | error e => trivial
  | ok v => exact h env d' v l' d'' hd hg.evolve hx

/-- The caller of a quiet call learns its answer and goes on. -/
theorem safe_call {c : Call} (hc : c ≠ .commit) {Q : c.Val → Session → Database → Prop}
    (h : ∀ env d' v l' d'', Meddles P l d d' → Session.exec env c l d' = (.ok v, l', d'') →
      Q v l' d'') :
    Safe P request (Service.call c) Q l d :=
  safe_call_evolve hT hc fun env d' v l' d'' hd _ hx => h env d' v l' d'' hd hx

theorem safe_commit {Q : Unit → Session → Database → Prop}
    (h : ∀ d', Meddles P l d d' → Effect P request l d' (l.current d'))
    (hQ : ∀ l d, Q () l d) : Safe P request (Service.call .commit) Q l d := by
  intro d' hd env ha
  have heffect : Effect P request l d' (Session.exec env .commit l d').2.2 := by
    simp only [Session.exec, Session.statement]
    split
    · exact .quiet (SameRows.refl d')
    · exact h d' hd
  refine ⟨hT _ _ _ _ hd.inv ha heffect, ?_⟩
  rcases hx : Session.exec env .commit l d' with ⟨r, l', d''⟩
  have hx' : Session.machine.exec env .commit l d' = (r, l', d'') := hx
  rw [hx']
  cases r with
  | error e => trivial
  | ok v => exact hQ l' d''

/-- A call whose answer does not matter. -/
theorem safe_ignored {c : Call} (hc : c ≠ .commit) :
    Safe P request (Service.call c) (fun _ _ _ => True) l d :=
  safe_call hT hc fun _ _ _ _ _ _ _ => trivial

theorem safe_rollbackOnSqlError {x : Service α} {Q : α → Session → Database → Prop}
    (hx : Safe P request x Q l d) : Safe P request (Service.rollbackOnSqlError x) Q l d := by
  refine safe_tryCatch hx fun e l d => ?_
  cases e with
  | sql e => exact safe_bind (safe_mono (safe_ignored hT nofun) fun _ _ _ _ => safe_throw)
  | app e => exact safe_throw
  | validation => exact safe_throw

theorem safe_rollbackOnError {x : Service α} {Q : α → Session → Database → Prop}
    (hx : Safe P request x Q l d) : Safe P request (Service.rollbackOnError x) Q l d := by
  refine safe_tryCatch hx fun e l d => ?_
  cases e with
  | sql e => exact safe_bind (safe_mono (safe_ignored hT nofun) fun _ _ _ _ => safe_throw)
  | app e => exact safe_bind (safe_mono (safe_ignored hT nofun) fun _ _ _ _ => safe_throw)
  | validation => exact safe_throw

theorem safe_select {q : Query} {Q : q.Val → Session → Database → Prop}
    (h : ∀ d', Meddles P l d d' →
      Q (q.load l (q.eval (l.view d'))).1 ((q.load l (q.eval (l.view d'))).2.openView d') d') :
    Safe P request (Service.call (.select q)) Q l d := by
  refine safe_call hT (by nofun) fun env d' v l' d'' hd hx => ?_
  cases Session.statement_ok hx
  exact h d' hd

theorem safe_getUserByUsername {username : String} {Q : Option User → Session → Database → Prop}
    (h : ∀ d', Meddles P l d d' →
      Q ((l.view d').userByUsername? username) (l.openView d') d') :
    Safe P request (getUserByUsername username) Q l d :=
  safe_select hT h

theorem safe_memberAttributes {w u : Id} {Q : WorkspaceMember → Session → Database → Prop}
    (h : ∀ d' m, Meddles P l d d' → l.members.find? (memberKey w u) = some m → Q m l d') :
    Safe P request (Service.call (.memberAttributes w u)) Q l d := by
  refine safe_call hT (by nofun) fun env d' v l' d'' hd hx => ?_
  simp only [Session.exec, Session.memberAttributes] at hx
  split at hx
  · rename_i m hm
    cases hx
    exact h _ _ hd hm
  · cases hx

theorem safe_lockMember {w u : Id} {Q : Option WorkspaceMember → Session → Database → Prop}
    (hnone : ∀ d', Meddles P l d d' → (l.current d').member? w u = none → Q none l d')
    (hsome : ∀ d' m, Meddles P l d d' → (l.current d').member? w u = some m →
      Q (some m) ((l.keepMember m).lock (.member w u)) d') :
    Safe P request (Service.call (.lockMember w u)) Q l d := by
  refine safe_call hT (by nofun) fun env d' v l' d'' hd hx => ?_
  have hx := Session.statement_ok hx
  simp only [Session.lockMember] at hx
  split at hx
  · rename_i m hm
    cases hx
    exact hsome d' m hd hm
  · rename_i hm
    cases hx
    exact hnone d' hd hm

theorem safe_lockTask {w t : Id} {Q : Task → Session → Database → Prop}
    (h : ∀ d' row, Meddles P l d d' → (l.current d').taskIn? t w = some row →
      Q row ((l.keepTask row).lock (.task t)) d') :
    Safe P request (lockTask w t) Q l d := by
  refine safe_bind (safe_call hT (by nofun) fun env d' v l' d'' hd hx => ?_)
  have hx := Session.statement_ok hx
  simp only [Session.lockTask] at hx
  split at hx
  · rename_i row hrow
    cases hx
    exact safe_orRaise fun r hr => by cases hr; exact h d' row hd hrow
  · cases hx
    exact safe_raise

theorem safe_getMember {w u : Id} {Q : Option WorkspaceMember → Session → Database → Prop}
    (hsome : ∀ d' m l', Meddles P l d d' → Q (some m) l' d')
    (hnone : ∀ d', Meddles P l d d' → Q none (l.openView d') d') :
    Safe P request (Service.call (.getMember w u)) Q l d := by
  refine safe_call hT (by nofun) fun env d' v l' d'' hd hx => ?_
  simp only [Session.exec, Session.getMember] at hx
  split at hx
  · cases hx
    exact hsome _ _ _ hd
  · have hx := Session.statement_ok hx
    split at hx
    · cases hx
      exact hsome _ _ _ hd
    · cases hx
      exact hnone _ hd

theorem safe_insertUser {username hashed : String} {Q : User → Session → Database → Prop}
    (h : ∀ d' d'' row, Meddles P l d d' → P.evolve d' d'' →
      SameRows d' d'' →
      (l.current d').checkUser row = .ok () → Q row (l.write (.putUser row)) d'') :
    Safe P request (Service.call (.insertUser username hashed)) Q l d := by
  refine safe_call_evolve hT (by nofun) fun env d' v l' d'' hd hevolve hx => ?_
  obtain ⟨hcheck, rfl, rfl, rfl⟩ := Session.insert_ok (Session.statement_ok hx)
  exact h d' _ _ hd hevolve ⟨rfl, rfl, rfl, rfl⟩ hcheck

theorem safe_insertWorkspace {name : String} {creator : Id}
    {Q : Workspace → Session → Database → Prop}
    (h : ∀ d' d'' row, Meddles P l d d' → P.evolve d' d'' →
      SameRows d' d'' → row.createdById = creator →
      (l.current d').checkWorkspace row = .ok () → Q row (l.write (.putWorkspace row)) d'') :
    Safe P request (Service.call (.insertWorkspace name creator)) Q l d := by
  refine safe_call_evolve hT (by nofun) fun env d' v l' d'' hd hevolve hx => ?_
  obtain ⟨hcheck, rfl, rfl, rfl⟩ := Session.insert_ok (Session.statement_ok hx)
  exact h d' _ _ hd hevolve ⟨rfl, rfl, rfl, rfl⟩ rfl hcheck

theorem safe_insertMember {w u : Id} {role : MemberRole}
    {Q : WorkspaceMember → Session → Database → Prop}
    (h : ∀ d' row, Meddles P l d d' → row.workspaceId = w ∧ row.userId = u ∧ row.role = role →
      (l.current d').checkMember row = .ok () →
      Q row ((l.keepMember row).write (.putMember row)) d') :
    Safe P request (Service.call (.insertMember w u role)) Q l d := by
  refine safe_call hT (by nofun) fun env d' v l' d'' hd hx => ?_
  obtain ⟨hcheck, rfl, rfl, rfl⟩ := Session.insert_ok (Session.statement_ok hx)
  exact h _ _ hd ⟨rfl, rfl, rfl⟩ hcheck

theorem safe_insertTask {w creator : Id} {data : TaskCreate}
    {Q : Task → Session → Database → Prop}
    (h : ∀ d' d'' row, Meddles P l d d' → P.evolve d' d'' →
      SameRows d' d'' →
      row.workspaceId = w ∧ row.creatorId = creator ∧ row.assigneeId = none ∧
        row.status = .todo →
      (l.current d').checkNewTask row = .ok () →
      Q row ((l.keepTask row).write (.putTask row)) d'') :
    Safe P request (Service.call (.insertTask w creator data)) Q l d := by
  refine safe_call_evolve hT (by nofun) fun env d' v l' d'' hd hevolve hx => ?_
  obtain ⟨hcheck, rfl, rfl, rfl⟩ := Session.insert_ok (Session.statement_ok hx)
  exact h d' _ _ hd hevolve ⟨rfl, rfl, rfl, rfl⟩ ⟨rfl, rfl, rfl, rfl⟩ hcheck

theorem safe_flushMemberRole {w u : Id} {role : MemberRole} {loaded : WorkspaceMember}
    {Q : Unit → Session → Database → Prop}
    (hloaded : l.members.find? (memberKey w u) = some loaded)
    (hclean : ∀ d', Meddles P l d d' → Q () l d')
    (hdirty : ∀ d' row now, Meddles P l d d' → (l.current d').member? w u = some row →
      Q () ((l.write (.putMember { row with role := role, updatedAt := now })).keepMember
        { loaded with role := role, updatedAt := now }) d') :
    Safe P request (Service.call (.flushMemberRole w u role)) Q l d := by
  refine safe_call hT (by nofun) fun env d' v l' d'' hd hx => ?_
  simp only [Session.exec, Session.flushMemberRole, hloaded] at hx
  split at hx
  · cases hx
    exact hclean _ hd
  · have hx := Session.statement_ok hx
    split at hx
    · cases hx
    · cases hx
      exact hdirty _ _ _ hd ‹_›

theorem safe_flushTask {t : Id} {patch : TaskPatch} {loaded : Task}
    {Q : Unit → Session → Database → Prop} (hloaded : l.tasks.find? t = some loaded)
    (hclean : ∀ d', Meddles P l d d' → Q () l d')
    (hdirty : ∀ d' row now, Meddles P l d d' → (l.current d').task? t = some row →
      Q () ((l.write (.putTask { (patch.dirty loaded).apply row with updatedAt := now })).keepTask
        { (patch.dirty loaded).apply loaded with updatedAt := now }) d') :
    Safe P request (Service.call (.flushTask t patch)) Q l d := by
  refine safe_call hT (by nofun) fun env d' v l' d'' hd hx => ?_
  simp only [Session.exec, Session.flushTask, hloaded] at hx
  split at hx
  · cases hx
    exact hclean _ hd
  · have hx := Session.statement_ok hx
    split at hx
    · cases hx
    · split at hx
      · cases hx
      · cases hx
        exact hdirty _ _ _ hd ‹_›

theorem safe_deleteMember {w u : Id} {Q : Unit → Session → Database → Prop}
    (h : ∀ d' row, Meddles P l d d' → (l.current d').member? w u = some row →
      Q () ((l.write (.deleteMember w u)).dropMember w u) d')
    (hmissing : ∀ d', Meddles P l d d' → (l.current d').member? w u = none →
      Q () (l.dropMember w u) d') :
    Safe P request (Service.call (.deleteMember w u)) Q l d := by
  refine safe_call hT (by nofun) fun env d' v l' d'' hd hx => ?_
  have hx := Session.statement_ok hx
  simp only [Session.deleteMember] at hx
  split at hx
  · cases hx
    exact hmissing _ hd ‹_›
  · cases hx
    exact h _ _ hd ‹_›

theorem safe_deleteTask {t : Id} {Q : Unit → Session → Database → Prop}
    (h : ∀ d' row, Meddles P l d d' → (l.current d').task? t = some row →
      Q () ((l.write (.deleteTask t)).dropTask t) d')
    (hmissing : ∀ d', Meddles P l d d' → Q () (l.dropTask t) d') :
    Safe P request (Service.call (.deleteTask t)) Q l d := by
  refine safe_call hT (by nofun) fun env d' v l' d'' hd hx => ?_
  have hx := Session.statement_ok hx
  simp only [Session.deleteTask] at hx
  split at hx
  · cases hx
    exact hmissing _ hd
  · cases hx
    exact h _ _ hd ‹_›

theorem safe_scanTasks {w : Id} {Q : List Id → Session → Database → Prop}
    (h : ∀ d' ids, Meddles P l d d' →
      (∀ row ∈ (l.current d').tasks.rows, row.workspaceId = w → row.id ∈ ids) → Q ids l d') :
    Safe P request (Service.call (.scanTasks w)) Q l d := by
  refine safe_call hT (by nofun) fun env d' v l' d'' hd hx => ?_
  have hx := Session.statement_ok hx
  simp only [Session.scanTasks] at hx
  cases hx
  refine h _ _ hd fun row hrow hw => (env.order_perm _).mem_iff.mpr ?_
  exact List.mem_map.mpr ⟨row, List.mem_filter.mpr ⟨hrow, decide_eq_true hw⟩, rfl⟩

theorem safe_clearAssignee {w u t : Id} {updatedAt : Timestamp}
    {Q : Unit → Session → Database → Prop}
    (hkeep : ∀ d', Meddles P l d d' →
      (∀ row, (l.current d').task? t = some row → holdsUnfinished w u row = false) →
      Q () l d' ∧ Q () (l.lock (.task t)) d')
    (hclear : ∀ d' row, Meddles P l d d' → (l.current d').task? t = some row →
      holdsUnfinished w u row = true →
      Q () (l.write (.putTask { row with assigneeId := none, updatedAt := updatedAt })) d') :
    Safe P request (Service.call (.clearAssignee w u t updatedAt)) Q l d := by
  refine safe_call hT (by nofun) fun env d' v l' d'' hd hx => ?_
  have hx := Session.statement_ok hx
  simp only [Session.clearAssignee] at hx
  split at hx
  · rename_i hrow
    cases hx
    exact (hkeep _ hd fun row h => by rw [hrow] at h; cases h).1
  · rename_i row hrow
    split at hx
    · rename_i hmatch
      cases hx
      exact hclear _ _ hd hrow hmatch
    · rename_i hmatch
      cases hx
      have hkept := hkeep _ hd fun r h => by
        rw [hrow] at h
        cases h
        exact Bool.eq_false_iff.mpr hmatch
      split
      · exact hkept.2
      · exact hkept.1

theorem safe_refreshMember {w u : Id} {Q : WorkspaceMember → Session → Database → Prop}
    (h : ∀ d' m, Meddles P l d d' → Q m ((l.keepMember m).openView d') d') :
    Safe P request (Service.call (.refreshMember w u)) Q l d := by
  refine safe_call hT (by nofun) fun env d' v l' d'' hd hx => ?_
  obtain ⟨hrow, rfl, rfl⟩ := Session.refresh_ok (Session.statement_ok hx)
  rw [hrow]
  exact h _ _ hd

theorem safe_refreshTask {t : Id} {Q : Task → Session → Database → Prop}
    (h : ∀ d' row, Meddles P l d d' → Q row ((l.keepTask row).openView d') d') :
    Safe P request (Service.call (.refreshTask t)) Q l d := by
  refine safe_call hT (by nofun) fun env d' v l' d'' hd hx => ?_
  obtain ⟨hrow, rfl, rfl⟩ := Session.refresh_ok (Session.statement_ok hx)
  rw [hrow]
  exact h _ _ hd

theorem safe_refreshWorkspace {w : Id} {Q : Workspace → Session → Database → Prop}
    (h : ∀ d' row, Meddles P l d d' → Q row (l.openView d') d') :
    Safe P request (Service.call (.refreshWorkspace w)) Q l d := by
  refine safe_call hT (by nofun) fun env d' v l' d'' hd hx => ?_
  obtain ⟨_, rfl, rfl⟩ := Session.refresh_ok (Session.statement_ok hx)
  exact h _ _ hd

theorem safe_utcNow {Q : Timestamp → Session → Database → Prop}
    (h : ∀ d' now, Meddles P l d d' → Q now l d') :
    Safe P request (Service.call .utcNow) Q l d := by
  refine safe_call hT (by nofun) fun env d' v l' d'' hd hx => ?_
  cases hx
  exact h _ _ hd

theorem safe_checkRateLimit {check : RateCheck}
    {Q : Except RedisError RateLimitDecision → Session → Database → Prop}
    (h : ∀ d' r, Meddles P l d d' → Q r l d') :
    Safe P request (Service.call (.checkRateLimit check)) Q l d := by
  refine safe_call hT (by nofun) fun env d' v l' d'' hd hx => ?_
  cases hx
  exact h _ _ hd

end Calls
end Rules
end TaskPlatform
