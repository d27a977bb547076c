import TaskPlatform.Integrity.Accepted
import TaskPlatform.Transaction.History

/-!
# What a failed registration leaves behind

The services of workspaces, members and tasks read a row again before they commit.
`create_user` commits first and reads afterwards, so an error at that read ends the
request in an exception with the user stored, and a second registration of the same
client is refused.

In every interleaving that is the only way: a registration that ends in an exception has
stored nothing exactly if no error was raised at that read.
-/

namespace TaskPlatform

open Transaction Service Database

variable [Collation]

/-- The calls of one request. -/
abbrev Log : Type := History Call Env Session Database

/-- The states of the system over a database, with what each request has done. -/
abbrev Records (d : Database)
    (σ : System Request Call Call.Res Response (Session × Log) Database) : Prop :=
  System.Recorded Session.machine workload (fun _ => True) (fun _ _ _ _ _ => True) d σ

section Logs

omit [Collation]

/-- No call of the request changed the committed users. -/
def KeepsUsers (log : Log) : Prop := ∀ m ∈ log, m.after.users = m.before.users

instance (log : Log) : Decidable (KeepsUsers log) :=
  inferInstanceAs (Decidable (∀ m ∈ log, m.after.users = m.before.users))

def Call.readsUser : Call → Bool
  | .refreshUser _ => true
  | _ => false

/-- An error was raised at the read of a new user. -/
def RefreshRaises (log : Log) : Prop := ∃ m ∈ log, m.op.readsUser = true ∧ m.env.fault ≠ none

instance (log : Log) : Decidable (RefreshRaises log) :=
  inferInstanceAs (Decidable (∃ m ∈ log, m.op.readsUser = true ∧ m.env.fault ≠ none))

/-- The server answered with an `IntegrityError` that is not due to the rows it has. -/
def IntegrityInjected (log : Log) : Prop :=
  ∃ m ∈ log, ∃ e, m.env.fault = some e ∧ e.isIntegrityError

/-- Work that stores nothing and does not read a new user. -/
structure Unstored (log : Log) : Prop where
  kept : KeepsUsers log
  unread : ∀ m ∈ log, m.op.readsUser = false

end Logs

/-- Every interleaving has its logs. -/
theorem records_of_reaches {d : Database}
    {τ : System Request Call Call.Res Response Session Database} (hr : Reaches d τ) :
    ∃ σ, Records d σ ∧ σ.forget = τ :=
  System.reachable_recall hr

/-- A user row of that name was there from the start, or a request other than `i` and `j`
has added it. -/
def HeldByAnother (d₀ : Database)
    (σ : System Request Call Call.Res Response (Session × Log) Database) (i j : Nat)
    (username : String) : Prop :=
  ∃ row ∈ σ.shared.users.rows, Collation.weight row.username = Collation.weight username ∧
    (row ∈ d₀.users.rows ∨ ∃ k p, k ≠ i ∧ k ≠ j ∧ σ.procs k = some p ∧
      ∃ m ∈ p.loc.2, row ∉ m.before.users.rows ∧ row ∈ m.after.users.rows)

/-- What a failed registration promises: nothing was stored, and who is refused in a
retry is refused on account of another request. -/
structure LeavesNothing (d₀ : Database)
    (σ : System Request Call Call.Res Response (Session × Log) Database) (i : Nat)
    (username : String) (log : Log) : Prop where
  stored : KeepsUsers log
  retry : ∀ j ip (data : UserCreate) l' log', σ.procs j =
      some ⟨.createUser ip (some data), .ret (.error (.app usernameAlreadyExistsError)),
        (l', log')⟩ →
    Collation.weight data.username = Collation.weight username → ¬ IntegrityInjected log' →
      HeldByAnother d₀ σ i j username

/-! ## What the request knows when it fails -/

section Logs

omit [Collation]

variable {log : Log} {m : Move Call Env Session Database}

/-- Exceptions that end, or will end, in a refusal of the username. -/
def Exc.IsConflict : Exc → Prop
  | .sql err => err.isIntegrityError
  | .app e => e = usernameAlreadyExistsError
  | .validation => False

theorem IntegrityInjected.append (h : IntegrityInjected log) :
    IntegrityInjected (log ++ [m]) := by
  obtain ⟨m', hm', h⟩ := h
  exact ⟨m', List.mem_append_left _ hm', h⟩

theorem keepsUsers_append (hm : m.after.users = m.before.users) :
    KeepsUsers (log ++ [m]) ↔ KeepsUsers log := by
  rw [KeepsUsers, KeepsUsers, List.forall_mem_append]
  exact and_iff_left (List.forall_mem_singleton.mpr hm)

theorem refreshRaises_append (hm : m.op.readsUser = false) :
    RefreshRaises (log ++ [m]) ↔ RefreshRaises log := by
  constructor
  · rintro ⟨m', hm', hread, hfault⟩
    rcases List.mem_append.mp hm' with hm' | hm'
    · exact ⟨m', hm', hread, hfault⟩
    · rw [List.mem_singleton.mp hm', hm] at hread
      cases hread
  · rintro ⟨m', hm', h⟩
    exact ⟨m', List.mem_append_left _ hm', h⟩

theorem unstored_nil : Unstored [] :=
  ⟨fun _ hm => absurd hm List.not_mem_nil, fun _ hm => absurd hm List.not_mem_nil⟩

theorem Unstored.append (h : Unstored log) (hm : m.after.users = m.before.users)
    (hop : m.op.readsUser = false) : Unstored (log ++ [m]) := by
  refine ⟨(keepsUsers_append hm).mpr h.kept, fun m' hm' => ?_⟩
  rcases List.mem_append.mp hm' with hm' | hm'
  · exact h.unread m' hm'
  · rw [List.mem_singleton.mp hm']
    exact hop

theorem Unstored.not_refreshRaises (h : Unstored log) : ¬ RefreshRaises log := by
  rintro ⟨m, hm, hread, _⟩
  rw [h.unread m hm] at hread
  cases hread

end Logs

/-- A registration of `username` that has come to an exception. -/
structure Reported (username : String) (e : Exc) (log : Log) (d : Database) : Prop where
  stored : KeepsUsers log ↔ ¬ RefreshRaises log
  taken : e.IsConflict → ¬ IntegrityInjected log →
    KeepsUsers log ∧ (d.userByUsername? username).isSome

section Reported

variable {username : String} {e e' : Exc} {log : Log} {d d' : Database}
  {m : Move Call Env Session Database}

theorem Unstored.reported (h : Unstored log)
    (htaken : e.IsConflict → ¬ IntegrityInjected log → (d.userByUsername? username).isSome) :
    Reported username e log d :=
  ⟨iff_of_true h.kept h.not_refreshRaises, fun he hi => ⟨h.kept, htaken he hi⟩⟩

theorem userByUsername?_persists (hd : Persists d d')
    (h : (d.userByUsername? username).isSome) : (d'.userByUsername? username).isSome := by
  rw [userByUsername?, List.find?_isSome] at h ⊢
  obtain ⟨row, hrow, hname⟩ := h
  have hfound : d.user? row.id = some row := d.users.find?_key hrow
  exact ⟨row, Relational.Table.mem_of_find? (hd.user _ row hfound), hname⟩

/-- Others keep the users. -/
theorem Reported.persists (h : Reported username e log d) (hd : Persists d d') :
    Reported username e log d' :=
  ⟨h.stored, fun he hi =>
    ⟨(h.taken he hi).1, userByUsername?_persists hd (h.taken he hi).2⟩⟩

/-- A call after the exception. -/
theorem Reported.append (h : Reported username e log d) (he : e'.IsConflict → e.IsConflict)
    (hm : m.after.users = m.before.users) (hop : m.op.readsUser = false) :
    Reported username e' (log ++ [m]) d := by
  constructor
  · rw [keepsUsers_append hm, refreshRaises_append hop]
    exact h.stored
  · intro he' hi
    rw [keepsUsers_append hm]
    exact h.taken (he he') fun hlog => hi hlog.append

end Reported

/-! ## The text of the request -/

/-- The counter of users is above every id in use. -/
def Issued (d : Database) : Prop := ∀ u row, d.user? u = some row → u < d.nextUserId

/-- What a request meets between two of its calls. -/
structure Meets (l : Session) (d d' : Database) : Prop where
  interferes : publishProtocol.Interferes Session.machine l d d'
  issued : Issued d'

/-- What a service has done when it ends in `Q` or in an exception of `E`. -/
abbrev Watched {α : Type} (x : Service α) (Q : α → Session × Log → Database → Prop)
    (E : Exc → Session × Log → Database → Prop) (s : Session × Log) (d : Database) : Prop :=
  wpE Session.machine.recording (System.among Meets) x Q E s d

section Watched

variable {α β : Type} {username : String} {s : Session × Log} {l l' : Session} {log : Log}
  {d d' : Database}

theorem Meets.persists (h : Meets l d d') : Persists d d' := h.interferes.evolve

theorem Meets.sameRow (h : Meets l d d') {k : RowKey} (hk : l.Holds k) : SameRow k d d' :=
  h.interferes.rely k hk

theorem Meets.trans {d₃ : Database} (h : Meets l d d') (h' : Meets l d' d₃) : Meets l d d₃ :=
  ⟨publishProtocol.interferes_trans Session.machine h.interferes h'.interferes, h'.issued⟩

theorem watched_bind {x : Service α} {f : α → Service β} {Q : β → Session × Log → Database → Prop}
    {E : Exc → Session × Log → Database → Prop}
    (h : Watched x (fun a => Watched (f a) Q E) E s d) : Watched (x >>= f) Q E s d :=
  (wpE_bind x f).mpr h

theorem watched_call {c : Call} {Q : c.Val → Session × Log → Database → Prop}
    {E : Exc → Session × Log → Database → Prop}
    (hok : ∀ env d' v l' d'', Meets s.1 d d' → Session.exec env c s.1 d' = (.ok v, l', d'') →
      Q v (l', s.2 ++ [⟨env, c, s.1, d', l', d''⟩]) d'')
    (herror : ∀ env d' e l' d'', Meets s.1 d d' →
      Session.exec env c s.1 d' = (.error e, l', d'') →
        E (.sql e) (l', s.2 ++ [⟨env, c, s.1, d', l', d''⟩]) d'') :
    Watched (call c) Q E s d := by
  intro d' hd env _
  refine ⟨trivial, ?_⟩
  have hexec : Session.machine.recording.exec env c s d' =
      ((Session.exec env c s.1 d').1, ((Session.exec env c s.1 d').2.1,
        s.2 ++ [⟨env, c, s.1, d', (Session.exec env c s.1 d').2.1,
          (Session.exec env c s.1 d').2.2⟩]), (Session.exec env c s.1 d').2.2) := rfl
  rw [hexec]
  rcases hx : Session.exec env c s.1 d' with ⟨r, l', d''⟩
  cases r with
  | ok v => exact hok env d' v l' d'' hd hx
  | error e => exact herror env d' e l' d'' hd hx

/-- A call that stores nothing, before the commit. -/
theorem watched_unstored {c : Call} {Q : c.Val → Session × Log → Database → Prop}
    (hlog : Unstored s.2) (hc : c ≠ .commit) (hop : c.readsUser = false)
    (hok : ∀ env d' v l' d'' log', Meets s.1 d d' →
      Session.exec env c s.1 d' = (.ok v, l', d'') → Unstored log' → Q v (l', log') d'')
    (herror : ∀ env d' e l' d'', Meets s.1 d d' →
      Session.exec env c s.1 d' = (.error e, l', d'') → e.isIntegrityError →
        env.fault = some e ∨ (d''.userByUsername? username).isSome) :
    Watched (call c) Q (fun e s d => Reported username e s.2 d) s d := by
  have hunstored : ∀ env d' r l' d'', Session.exec env c s.1 d' = (r, l', d'') →
      Unstored (s.2 ++ [⟨env, c, s.1, d', l', d''⟩]) := by
    intro env d' r l' d'' hx
    have hrows : SameRows d' (Session.exec env c s.1 d').2.2 := Session.exec_sameRows hc
    rw [hx] at hrows
    exact hlog.append hrows.users.symm hop
  refine watched_call (fun env d' v l' d'' hd hx => ?_) fun env d' e l' d'' hd hx => ?_
  · exact hok env d' v l' d'' _ hd hx (hunstored env d' _ l' d'' hx)
  · refine (hunstored env d' _ l' d'' hx).reported fun he hi => ?_
    rcases herror env d' e l' d'' hd hx he with hfault | htaken
    · exact absurd ⟨_, List.mem_append_right _ (List.mem_singleton_self _), e, hfault, he⟩ hi
    · exact htaken

omit [Collation] in
/-- A statement fails by a fault or by itself. -/
theorem statement_error {γ : Type} {env : Env} {run : Except SqlError γ × Session × Database}
    {e : SqlError} {d'' : Database} (h : Session.statement env l d run = (.error e, l', d'')) :
    env.fault = some e ∨ run = (.error e, l', d'') := by
  unfold Session.statement at h
  split at h
  · cases h
    exact Or.inl ‹_›
  · exact Or.inr h

/-- A call after the exception. -/
theorem watched_after {c : Call} {e : Exc} {Q : c.Val → Session × Log → Database → Prop}
    {E : Exc → Session × Log → Database → Prop} (h : Reported username e s.2 d)
    (hc : c ≠ .commit) (hop : c.readsUser = false)
    (hnever : ∀ env d' e l' d'', Session.exec env c s.1 d' ≠ (.error e, l', d''))
    (hQ : ∀ v s' d', Reported username e s'.2 d' → Q v s' d') : Watched (call c) Q E s d := by
  refine watched_call (fun env d' v l' d'' hd hx => hQ v _ d'' ?_)
    fun env d' e l' d'' _ hx => absurd hx (hnever env d' e l' d'')
  have hrows : SameRows d' (Session.exec env c s.1 d').2.2 := Session.exec_sameRows hc
  rw [hx] at hrows
  exact ((h.persists hd.persists).append id hrows.users.symm hop).persists hrows.persists

theorem watched_raiseIf {c : Prop} [Decidable c] {e : AppException}
    {Q : Unit → Session × Log → Database → Prop} {E : Exc → Session × Log → Database → Prop}
    (hraise : c → E (.app e) s d) (hpure : ¬ c → Q () s d) : Watched (raiseIf c e) Q E s d := by
  by_cases hc : c
  · rw [raiseIf, if_pos hc]
    exact (wpE_throw _).mpr (hraise hc)
  · rw [raiseIf, if_neg hc]
    exact (wpE_pure _).mpr (hpure hc)

/-! ### The commit and the read after it -/

omit [Collation] in
theorem users_putUser_ne {row : User} (hfree : d.user? row.id = none) :
    (d.apply (.putUser row)).users ≠ d.users := by
  intro h
  have hadded : (d.apply (.putUser row)).user? row.id = some row := by
    rw [user?_putUser, if_pos rfl]
  rw [user?, h, show d.users.find? row.id = none from hfree] at hadded
  cases hadded

/-- The read of a user that was stored fails by a fault only. -/
theorem watched_refreshUser {row : User} (hstored : ¬ KeepsUsers s.2)
    (hview : s.1.readView = none) (hwrites : s.1.writes = []) (hrow : d.user? row.id = some row) :
    Watched (call (.refreshUser row.id)) (fun _ _ _ => True)
      (fun e s d => Reported username e s.2 d) s d := by
  refine watched_call (fun _ _ _ _ _ _ _ => trivial) fun env d' e l' d'' hd hx => ?_
  have hfound : (s.1.view d').user? row.id = some row := by
    rw [Session.view, hview, hwrites]
    exact hd.persists.user _ row hrow
  have hfault : env.fault = some e := by
    rcases statement_error hx with hfault | hrefresh
    · exact hfault
    · rw [hfound] at hrefresh
      cases hrefresh
  constructor
  · refine iff_of_false (fun h => hstored fun m hm => h m (List.mem_append_left _ hm)) ?_
    refine fun h => h ⟨_, List.mem_append_right _ (List.mem_singleton_self _), rfl, ?_⟩
    show env.fault ≠ none
    rw [hfault]
    exact Option.some_ne_none e
  · intro he hi
    exact absurd ⟨_, List.mem_append_right _ (List.mem_singleton_self _), e, hfault, he⟩ hi

/-- A commit that raises has not been applied. -/
theorem watched_commit {row : User} (hlog : Unstored s.2) (hwrites : s.1.writes = [.putUser row])
    (hfree : d.user? row.id = none) :
    Watched (call .commit >>= fun _ => call (.refreshUser row.id)) (fun _ _ _ => True)
      (fun e s d => Reported username e s.2 d) s d := by
  refine watched_bind (watched_call (fun env d₁ v l₁ d₂ hd₁ hx => ?_)
    fun env d₁ e l₁ d₂ hd₁ hx => ?_)
  · cases Session.statement_ok hx
    -- the id of the new row has been locked since it was assigned
    have hheld : s.1.Holds (.user row.id) :=
      Or.inr ⟨_, by rw [hwrites]; exact List.mem_singleton_self _, List.mem_cons_self⟩
    have hfree₁ : d₁.user? row.id = none := (hd₁.sameRow hheld).symm.trans hfree
    have hcurrent : s.1.current d₁ = d₁.apply (.putUser row) := by
      rw [Session.current, hwrites]
      rfl
    rw [hcurrent]
    refine watched_refreshUser (fun h => users_putUser_ne hfree₁ ?_) rfl rfl ?_
    · exact h _ (List.mem_append_right _ (List.mem_singleton_self _))
    · rw [user?_putUser, if_pos rfl]
  · have hfault : env.fault = some e := by
      rcases statement_error hx with hfault | hcommit
      · exact hfault
      · cases hcommit
    have hrows : d₂ = d₁ := by
      rw [Session.exec, Session.statement, hfault] at hx
      cases hx
      rfl
    refine (hlog.append (congrArg Database.users hrows) rfl).reported fun he hi => ?_
    exact absurd ⟨_, List.mem_append_right _ (List.mem_singleton_self _), e, hfault, he⟩ hi

/-- Of the constraints of a new user only the unique name can be violated. -/
theorem checkUser_conflict {u : User} {e : SqlError} (hid : d.user? u.id = none)
    (h : d.checkUser u = .error e) (he : e.isIntegrityError) :
    (d.userByUsername? u.username).isSome := by
  unfold checkUser at h
  split_ifs at h with _ _ htaken hname
  · cases h
    cases he
  · cases h
    cases he
  · rw [hid] at htaken
    cases htaken
  · exact hname

/-- The row of a new user is free, or the username is taken. -/
theorem watched_insertUser {username hashed : String} {Q : User → Session × Log → Database → Prop}
    (hlog : Unstored s.2) (hwrites : s.1.writes = [])
    (hQ : ∀ row s' d', Unstored s'.2 → s'.1.writes = [.putUser row] → d'.user? row.id = none →
      Q row s' d') :
    Watched (call (.insertUser username hashed)) Q
      (fun e s d => Reported username e s.2 d) s d := by
  refine watched_unstored hlog nofun rfl (fun env d' v l' d'' log' hd hx hlog' => ?_)
    fun env d' e l' d'' hd hx he => ?_
  · obtain ⟨hcheck, rfl, rfl, rfl⟩ := Session.insert_ok (Session.statement_ok hx)
    rw [Session.current_eq hwrites] at hcheck
    exact hQ _ _ _ hlog' (Session.writes_write hwrites _) (checkUser_ok hcheck).1
  · refine (statement_error hx).imp_right fun hinsert => ?_
    -- the counter is above every id, so it is the name that is taken
    have hid : d'.user? d'.nextUserId = none := by
      cases hrow : d'.user? d'.nextUserId with
      | none => rfl
      | some row => exact absurd (hd.issued _ row hrow) (lt_irrefl _)
    simp only [Session.insertUser, Session.insert, Session.current_eq hwrites] at hinsert
    split at hinsert
    · cases hinsert
      exact checkUser_conflict hid ‹_› he
    · cases hinsert

/-- `except IntegrityError` and `except SQLAlchemyError` of `create_user`. -/
theorem watched_handler {err : SqlError} (h : Reported username (.sql err) s.2 d) :
    Watched (α := User) (do
      call .rollback
      if err.isIntegrityError then raise usernameAlreadyExistsError else throw (.sql err))
      (fun _ _ _ => True) (fun e s d => Reported username e s.2 d) s d := by
  refine watched_bind (watched_after h nofun rfl (fun _ _ _ _ _ => nofun) ?_)
  intro _ s' d' h'
  by_cases he : err.isIntegrityError = true
  · rw [if_pos he]
    exact (wpE_throw _).mpr ⟨h'.stored, fun _ => h'.taken he⟩
  · rw [if_neg he]
    exact (wpE_throw _).mpr h'

theorem watched_createUser (data : UserCreate) (hlog : Unstored log) :
    Watched (createUser data) (fun _ _ _ => True)
      (fun e s d => Reported data.username e s.2 d) ({}, log) d := by
  refine watched_bind (watched_unstored hlog nofun rfl
    (fun env d₁ existing l₁ d₁' log₁ hd₁ hx hlog₁ => ?_) fun env d₁ e l₁ d₁' hd₁ hx _ => ?_)
  · cases Session.statement_ok hx
    refine watched_bind (watched_raiseIf (fun hfound => ?_) fun _ => ?_)
    · exact hlog₁.reported fun _ _ => hfound
    refine watched_bind (watched_unstored hlog₁ nofun rfl
      (fun env d₂ hashed l₂ d₂' log₂ hd₂ hx hlog₂ => ?_) fun _ _ _ _ _ _ hx => nomatch hx)
    cases hx
    refine (wpE_tryCatch _ _).mpr (wpE_mono _ (fun _ _ _ h => h) (fun e s d h => ?_)
      (Q := fun _ _ _ => True) (E := fun e s d => Reported data.username e s.2 d) ?_)
    · cases e with
      | sql err => exact watched_handler h
      | app e => exact (wpE_throw _).mpr h
      | validation => exact (wpE_throw _).mpr h
    · refine watched_bind (watched_insertUser hlog₂ rfl fun row s' d' hlog' hwrites hfree => ?_)
      exact watched_commit hlog' hwrites hfree
  · exact (statement_error hx).imp_right nofun

omit [Collation] in
theorem enforceAuthRateLimit_ne {r : Except RedisError RateLimitDecision} :
    enforceAuthRateLimit r ≠ .error usernameAlreadyExistsError := by
  intro h
  cases r with
  | error e =>
      have hstatus : (503 : Nat) = 409 := congrArg AppException.statusCode (Except.error.inj h)
      omega
  | ok decision =>
      rw [enforceAuthRateLimit, raiseIfExceeded] at h
      split at h
      · cases h
      · have hstatus : (429 : Nat) = 409 := congrArg AppException.statusCode (Except.error.inj h)
        omega

theorem watched_enforceAuthLimit {check : RateCheck}
    {Q : Unit → Session × Log → Database → Prop} (hlog : Unstored s.2)
    (hQ : ∀ log' d', Unstored log' → Q () (s.1, log') d') :
    Watched (enforceAuthLimit check) Q (fun e s d => Reported username e s.2 d) s d := by
  refine watched_bind (watched_unstored hlog nofun rfl
    (fun env d₁ decision l₁ d₁' log₁ hd₁ hx hlog₁ => ?_) fun _ _ _ _ _ _ hx => nomatch hx)
  cases hx
  cases hlimit : enforceAuthRateLimit (env.limiter check) with
  | ok _ => exact (wpE_pure _).mpr (hQ _ _ hlog₁)
  | error e =>
      refine (wpE_throw _).mpr (hlog₁.reported fun he _ => ?_)
      rw [show e = usernameAlreadyExistsError from he] at hlimit
      exact absurd hlimit enforceAuthRateLimit_ne

/-- The whole request, up to its `close`. -/
theorem watched_route (ip : String) (data : UserCreate) :
    Watched (Request.route (.createUser ip (some data))) (fun _ _ _ => True)
      (fun e s d => Reported data.username e s.2 d) ({}, []) d := by
  show Watched (enforceAuthLimit (.registration ip) >>= fun _ => createUser data >>= fun user =>
    pure (Body.user (userData user))) _ _ _ _
  refine watched_bind (watched_enforceAuthLimit unstored_nil fun log' d' hlog => watched_bind ?_)
  exact wpE_mono _ (fun _ _ _ _ => (wpE_pure _).mpr trivial) (fun _ _ _ h => h)
    (watched_createUser data hlog)

/-- How a request of the system ends. -/
def Concluded : Request → Response → Session × Log → Database → Prop
  | .createUser _ (some data), .error e, s, d => Reported data.username e s.2 d
  | _, _, _, _ => True

theorem Concluded.meets {request : Request} {response : Response}
    (h : Concluded request response s d) (hd : Persists d d') :
    Concluded request response s d' := by
  unfold Concluded at h ⊢
  split at h
  · exact h.persists hd
  · trivial

theorem watched_program (request : Request) (d : Database) :
    wp Session.machine.recording (System.among Meets) request.program (Concluded request)
      ({}, []) d := by
  cases request with
  | createUser ip body =>
      cases body with
      | some data =>
          refine (wp_bind _ _ _ _ _ _ _).mpr (wp_mono _ _ (fun response s d h => ?_)
            (watched_route ip data))
          -- the session is closed however the route ends
          intro d' hd env _
          refine ⟨trivial, ?_⟩
          cases response with
          | ok body => trivial
          | error e =>
              have hclosed : Reported data.username e s.2 d' := Reported.persists h hd.persists
              exact hclosed.append id rfl rfl
      | none => exact System.wp_among fun _ _ _ => trivial
  | _ => exact System.wp_among fun _ _ _ => trivial

end Watched

section Runs

variable {d₀ : Database} {σ : System Request Call Call.Res Response (Session × Log) Database}

theorem issued_of_reaches {τ : System Request Call Call.Res Response Session Database}
    (hd : Database.Consistent d₀) (hr : Reaches d₀ τ) : Issued τ.shared := by
  intro u row hrow
  have hid := ((consistent_of_reaches hd hr).rows.user u row hrow).1
  rw [id_of_user? hrow] at hid
  exact hid

theorem concluded_of_records (hd : Database.Consistent d₀) (hr : Records d₀ σ) {i : Nat}
    {request : Request} {response : Response} {s : Session × Log}
    (hi : σ.procs i = some ⟨request, .ret response, s⟩) :
    Concluded request response s σ.shared := by
  have hself : ∀ τ, Reaches d₀ τ → ∀ l, Meets l τ.shared τ.shared := fun τ hτ l =>
    ⟨publishProtocol.interferes_refl Session.machine trivial l, issued_of_reaches hd hτ⟩
  refine System.wp_of_recorded (fun _ _ _ _ h h' => h.trans h') hself ?_
    (fun _ _ _ _ _ h hended => hended.meets h.persists)
    (fun request d _ => watched_program request d) hr i _ hi
  intro τ τ' j k t l l' q hτ hs _ hk hq
  exact ⟨Protocol.interferes_of_callStep (publish_coherent hτ) hs trivial hk hq,
    issued_of_reaches hd (hτ.step (.call hs trivial))⟩

/-- A registration that ends in an exception has stored nothing, and does not make its
own retry fail, if and only if no error was raised at the read after its commit. -/
theorem registration_leaves_nothing_iff (hd : Database.Consistent d₀) (hr : Records d₀ σ)
    {i : Nat} {ip : String} {data : UserCreate} {e : Exc} {l : Session} {log : Log}
    (hi : σ.procs i = some ⟨.createUser ip (some data), .ret (.error e), (l, log)⟩) :
    LeavesNothing d₀ σ i data.username log ↔ ¬ RefreshRaises log := by
  have hreported : Reported data.username e log σ.shared := concluded_of_records hd hr hi
  refine ⟨fun h => hreported.stored.mp h.stored, fun hcalm => ?_⟩
  have hkept : KeepsUsers log := hreported.stored.mpr hcalm
  refine ⟨hkept, fun j ip' data' l' log' hj hname hinjected => ?_⟩
  have hrefused : Reported data'.username (.app usernameAlreadyExistsError) log' σ.shared :=
    concluded_of_records hd hr hj
  obtain ⟨hkept', htaken⟩ := hrefused.taken rfl hinjected
  rw [userByUsername?, List.find?_isSome] at htaken
  obtain ⟨row, hrow, hrowname⟩ := htaken
  refine ⟨row, hrow, (of_decide_eq_true hrowname).trans hname, ?_⟩
  rcases System.arose_of_recorded (A := fun d => row ∈ d.users.rows) hr hrow with h | h
  · exact Or.inl h
  · obtain ⟨k, p, hp, m, hm, hbefore, hafter⟩ := h
    refine Or.inr ⟨k, p, fun hk => ?_, fun hk => ?_, hp, m, hm, hbefore, hafter⟩
    · rw [hk, hi, Option.some.injEq] at hp
      rw [← hp] at hm
      exact hbefore (hkept m hm ▸ hafter)
    · rw [hk, hj, Option.some.injEq] at hp
      rw [← hp] at hm
      exact hbefore (hkept' m hm ▸ hafter)

end Runs

/-! ### A registration whose read fails -/

def alice : UserCreate := (UserCreate.validate "alice" "password").get (by decide +kernel)

def aliceRegisters : Request := .createUser "127.0.0.1" (some alice)

/-- The connection is lost at one call. -/
def lostAt (call : Nat) (n : Nat) : Env :=
  { registrationEnv with fault := if n = call then some .operational else none }

/-- The registration of the first user, from beginning to end. -/
def registered (env : Nat → Env) : Progress Call Call.Res Response (Session × Log) Database :=
  (@Session.machine sampleCollation).recording.advanceN env 8
    ⟨aliceRegisters.program, ({}, []), empty⟩

omit [Collation] in
theorem registered_ends {call : Nat} (hcall : call = 4 ∨ call = 5) :
    (registered (lostAt call)).prog = .ret (.error (.sql .operational)) := by
  refine Prog.eq_ret ?_
  rcases hcall with rfl | rfl
  · decide +kernel
  · decide +kernel

/-- The only request of the system, at its end. -/
def lostRegistration (call : Nat) :
    System Request Call Call.Res Response (Session × Log) Database :=
  System.solo 0 aliceRegisters (registered (lostAt call))

omit [Collation] in
theorem records_lostRegistration (call : Nat) :
    @Records sampleCollation empty (lostRegistration call) := by
  let _ := sampleCollation
  exact System.reachable_advanceN (fun _ _ _ _ => trivial) _ 8 (System.reachable_spawn trivial)

omit [Collation] in
theorem procs_lostRegistration {call : Nat} (hcall : call = 4 ∨ call = 5) :
    (lostRegistration call).procs 0 = some ⟨aliceRegisters, .ret (.error (.sql .operational)),
      (registered (lostAt call)).loc⟩ := by
  rw [← registered_ends hcall]
  rfl

omit [Collation] in
/-- The connection is lost at the commit. -/
theorem registration_leaves_nothing_lostCommit :
    @LeavesNothing sampleCollation empty (lostRegistration 4) 0 alice.username
      (registered (lostAt 4)).loc.2 := by
  let _ := sampleCollation
  have hcalm : ¬ RefreshRaises (registered (lostAt 4)).loc.2 := by decide +kernel
  exact (registration_leaves_nothing_iff consistent_empty (records_lostRegistration 4)
    (procs_lostRegistration (Or.inl rfl))).mpr hcalm

omit [Collation] in
/-- The connection is lost at the read after the commit: the answer is an error, the user
is stored, and the client who tries again is refused. -/
theorem registration_stored_and_refused :
    let _ := sampleCollation
    ∃ s, Records empty (lostRegistration 5) ∧
      (lostRegistration 5).procs 0 =
        some ⟨aliceRegisters, .ret (.error (.sql .operational)), s⟩ ∧
      ¬ LeavesNothing empty (lostRegistration 5) 0 alice.username s.2 ∧
      (serve (fun _ => registrationEnv) aliceRegisters (lostRegistration 5).shared).1 =
        .error (.app usernameAlreadyExistsError) := by
  intro collation
  have hstored : ¬ KeepsUsers (registered (lostAt 5)).loc.2 := by decide +kernel
  have hrefused : (@serve sampleCollation (fun _ => registrationEnv) aliceRegisters
      (lostRegistration 5).shared).1 = .error (.app usernameAlreadyExistsError) := by
    decide +kernel
  exact ⟨_, records_lostRegistration 5, procs_lostRegistration (Or.inr rfl),
    fun h => hstored h.stored, hrefused⟩

end TaskPlatform
