import TaskPlatform.Concurrency.Registration
import TaskPlatform.Concurrency.Usernames
import TaskPlatform.Specification.Refinement
import TaskPlatform.Transaction.Atomic

/-!
# Answered at one moment

In an interleaving a request is answered as specified if one of its calls found the
committed rows the answer is about, left those the answer leaves, and no other call of the
request changed a row.  The requests that only read are all answered so, whatever runs
beside them: their reads share one snapshot.
-/

namespace TaskPlatform

open Transaction Service Database Relational Platform

/-- What the calls of a request have found. -/
def FoundBy (log : Log) (env : Env) : Prop := ∃ m ∈ log, env = m.env

/-- No row has the id the next one gets. -/
structure FreeIds (d : Database) : Prop where
  user : d.user? d.nextUserId = none
  workspace : d.workspace? d.nextWorkspaceId = none
  task : d.task? d.nextTaskId = none

theorem freeIds_of_consistent {d : Database} (h : Consistent d) : FreeIds d :=
  ⟨h.user_free, h.workspace_free, h.task_free⟩

section Answers

variable [Collation]

/-- The specified answer to a request, whichever free ids new rows get: the counters
advance whether or not an insert is committed. -/
def Answers (found : Env → Prop) (request : Request) (d : Database) (response : Response)
    (d' : Database) : Prop :=
  ∃ i D D', i.FoundIn found ∧ SameRows d D ∧ FreeIds D ∧
    settled D (respond i D request) = (response, D') ∧ SameRows D' d'

/-- One call of the request found the rows its answer is about. -/
abbrev AnsweredAtOnce (found : Env → Prop) (request : Request) (response : Response) (log : Log) :
    Prop :=
  Atomic SameRows (Answers found request) response log

variable {found : Env → Prop} {request : Request} {d d' : Database} {i : Circumstances}

theorem answers_ok {body : Body} (hd : Consistent d) (hi : i.FoundIn found)
    (h : respond i d request = .ok (body, d')) : Answers found request d (.ok body) d' := by
  refine ⟨i, d, d', hi, .refl d, freeIds_of_consistent hd, ?_, .refl d'⟩
  rw [h]
  rfl

theorem answers_error {e : Exc} (hd : Consistent d) (hi : i.FoundIn found)
    (h : respond i d request = .error e) : Answers found request d (.error e) d := by
  refine ⟨i, d, d, hi, .refl d, freeIds_of_consistent hd, ?_, .refl d⟩
  rw [h]
  rfl

theorem Answers.sameRows {response : Response} {d'' : Database}
    (h : Answers found request d response d') (hd : SameRows d' d'') :
    Answers found request d response d'' := by
  obtain ⟨i, D, D', hi, hD, hfree, hanswer, hD'⟩ := h
  exact ⟨i, D, D', hi, hD, hfree, hanswer, hD'.trans hd⟩

end Answers

/-! ## What the others do meanwhile -/

variable [Collation]

/-- What a request meets between two of its calls. -/
structure Surrounds (l : Session) (d d' : Database) : Prop where
  interferes : publishProtocol.Interferes Session.machine l d d'
  consistent : Consistent d'
  names : NamesUnique d'

namespace Surrounds

variable {l : Session} {d d' d'' : Database}

theorem persists (h : Surrounds l d d') : Persists d d' := h.interferes.evolve

theorem sameRow (h : Surrounds l d d') {k : RowKey} (hk : l.Holds k) : SameRow k d d' :=
  h.interferes.rely k hk

theorem trans (h : Surrounds l d d') (h' : Surrounds l d' d'') : Surrounds l d d'' :=
  ⟨publishProtocol.interferes_trans Session.machine h.interferes h'.interferes, h'.consistent,
    h'.names⟩

end Surrounds

/-- Committed rows as every interleaving keeps them. -/
structure Intact (d : Database) : Prop where
  consistent : Consistent d
  names : NamesUnique d

theorem Surrounds.intact {l : Session} {d d' : Database} (h : Surrounds l d d') : Intact d' :=
  ⟨h.consistent, h.names⟩

/-- Rows that are committed later, and as sound. -/
structure Since (d d' : Database) : Prop where
  persists : Persists d d'
  intact : Intact d'

theorem Surrounds.since {l : Session} {d d' : Database} (h : Surrounds l d d') : Since d d' :=
  ⟨h.persists, h.intact⟩

theorem Since.trans {d d' d'' : Database} (h : Since d d') (h' : Since d' d'') : Since d d'' :=
  ⟨h.persists.trans h'.persists, h'.intact⟩

theorem intact_of_reaches {d₀ : Database} (hd : Intact d₀)
    {σ : System Request Call Call.Res Response Session Database} (hr : Reaches d₀ σ) :
    Intact σ.shared :=
  ⟨(consistent_of_reaches hd.consistent hr).rows, (systemNames_of_reaches hd.names hr).rows⟩

/-- A step of a request that is answered at once: it changes no row, or it is the one step
that makes the change the answer makes. -/
def MovesAtOnce (found : Env → Prop) (request : Request) (log : Log) (d d' : Database) : Prop :=
  SameRows d d' ∨ (Quiet SameRows log ∧ ∃ body, Answers found request d (.ok body) d')

/-- A request that has come to its response: it has been answered at one of its calls, or
the answer does not depend on the rows. -/
def Resolved (found : Env → Prop) (request : Request) (response : Response) (log : Log) : Prop :=
  AnsweredAtOnce found request response log ∨
    (Quiet SameRows log ∧ ∀ d, Intact d → Answers found request d response d)

/-! ## Rules -/

/-- What a service has done when it ends in `Q` or in an exception of `E`, while the others
do what `R` says and its calls find good environments. -/
abbrev Acts (R : Session → Database → Database → Prop) (good : Env → Prop) (request : Request)
    {α : Type} (x : Service α) (Q : α → Session × Log → Database → Prop)
    (E : Exc → Session × Log → Database → Prop) (s : Session × Log) (d : Database) : Prop :=
  wpE Session.machine.recording (within good R (MovesAtOnce good request)) x Q E s d

section Rules

variable {R : Session → Database → Database → Prop} {good : Env → Prop} {request : Request}
  {α β : Type} {s : Session × Log} {d : Database} {E : Exc → Session × Log → Database → Prop}

theorem acts_bind {x : Service α} {f : α → Service β} {Q : β → Session × Log → Database → Prop}
    (h : Acts R good request x (fun a => Acts R good request (f a) Q E) E s d) :
    Acts R good request (x >>= f) Q E s d :=
  (wpE_bind x f).mpr h

theorem acts_pure {a : α} {Q : α → Session × Log → Database → Prop} (h : Q a s d) :
    Acts R good request (pure a) Q E s d :=
  (wpE_pure a).mpr h

theorem acts_throw {e : Exc} {Q : α → Session × Log → Database → Prop} (h : E e s d) :
    Acts R good request (throw e : Service α) Q E s d :=
  (wpE_throw e).mpr h

theorem acts_call {c : Call} (hc : c ≠ .commit) {Q : c.Val → Session × Log → Database → Prop}
    (hok : ∀ env d' v l' d'', good env → R s.1 d d' →
      Session.exec env c s.1 d' = (.ok v, l', d'') →
      Q v (l', s.2 ++ [⟨env, c, s.1, d', l', d''⟩]) d'')
    (herror : ∀ env d' e l' d'', good env → R s.1 d d' →
      Session.exec env c s.1 d' = (.error e, l', d'') →
      E (.sql e) (l', s.2 ++ [⟨env, c, s.1, d', l', d''⟩]) d'') :
    Acts R good request (call c) Q E s d := by
  intro d' hd env hall
  have henv : good env := hall _ (List.mem_append_right _ (List.mem_singleton_self _))
  have hexec : Session.machine.recording.exec env c s d' =
      ((Session.exec env c s.1 d').1, ((Session.exec env c s.1 d').2.1,
        s.2 ++ [⟨env, c, s.1, d', (Session.exec env c s.1 d').2.1,
          (Session.exec env c s.1 d').2.2⟩]), (Session.exec env c s.1 d').2.2) := rfl
  refine ⟨Or.inl (Session.exec_sameRows hc), ?_⟩
  rw [hexec]
  rcases hx : Session.exec env c s.1 d' with ⟨r, l', d''⟩
  cases r with
  | ok v => exact hok env d' v l' d'' henv hd hx
  | error e => exact herror env d' e l' d'' henv hd hx

theorem acts_raiseIf {c : Prop} [Decidable c] {e : AppException}
    {Q : Unit → Session × Log → Database → Prop} (hraise : c → E (.app e) s d)
    (hpure : ¬ c → Q () s d) : Acts R good request (raiseIf c e) Q E s d := by
  by_cases hc : c
  · rw [raiseIf, if_pos hc]
    exact acts_throw (hraise hc)
  · rw [raiseIf, if_neg hc]
    exact acts_pure (hpure hc)

theorem acts_orRaise {row : Option α} {e : AppException} {Q : α → Session × Log → Database → Prop}
    (hnone : row = none → E (.app e) s d) (hsome : ∀ r, row = some r → Q r s d) :
    Acts R good request (orRaise row e) Q E s d := by
  cases row with
  | none => exact acts_throw (hnone rfl)
  | some r => exact acts_pure (hsome r rfl)

/-- A call that is answered with a value or an error. -/
theorem acts_tried {c : Call} (hc : c ≠ .commit) {Q : c.Val → Session × Log → Database → Prop}
    (h : ∀ env d', good env → R s.1 d d' →
      (∃ v l' d'', Session.exec env c s.1 d' = (.ok v, l', d'') ∧
        Q v (l', s.2 ++ [⟨env, c, s.1, d', l', d''⟩]) d'') ∨
      ∃ e l' d'', Session.exec env c s.1 d' = (.error e, l', d'') ∧
        E (.sql e) (l', s.2 ++ [⟨env, c, s.1, d', l', d''⟩]) d'') :
    Acts R good request (call c) Q E s d := by
  refine acts_call hc (fun env d' v l' d'' henv hd hx => ?_) fun env d' e l' d'' henv hd hx => ?_
  · rcases h env d' henv hd with ⟨_, _, _, hexec, hQ⟩ | ⟨_, _, _, hexec, _⟩
    · rw [hexec] at hx
      cases hx
      exact hQ
    · rw [hexec] at hx
      cases hx
  · rcases h env d' henv hd with ⟨_, _, _, hexec, _⟩ | ⟨_, _, _, hexec, hE⟩
    · rw [hexec] at hx
      cases hx
    · rw [hexec] at hx
      cases hx
      exact hE

/-- A call that is answered with a value. -/
theorem acts_answered {c : Call} (hc : c ≠ .commit) {Q : c.Val → Session × Log → Database → Prop}
    (h : ∀ env d', good env → R s.1 d d' → ∃ v l' d'',
      Session.exec env c s.1 d' = (.ok v, l', d'') ∧
        Q v (l', s.2 ++ [⟨env, c, s.1, d', l', d''⟩]) d'') :
    Acts R good request (call c) Q E s d :=
  acts_tried hc fun env d' henv hd => Or.inl (h env d' henv hd)

/-- A commit is where a request moves. -/
theorem acts_commit (hgood : ∀ env, good env → env.Faultless)
    {Q : Unit → Session × Log → Database → Prop}
    (hmove : ∀ env d', good env → R s.1 d d' →
      MovesAtOnce good request s.2 d' (s.1.current d'))
    (hQ : ∀ env d', good env → R s.1 d d' →
      Q () (s.1.ended, s.2 ++ [⟨env, .commit, s.1, d', s.1.ended, s.1.current d'⟩])
        (s.1.current d')) :
    Acts R good request (call .commit) Q E s d := by
  intro d' hd env hall
  have henv : good env := hall _ (List.mem_append_right _ (List.mem_singleton_self _))
  have hexec : Session.machine.recording.exec env Call.commit s d' =
      (.ok (), (s.1.ended, s.2 ++ [⟨env, .commit, s.1, d', s.1.ended, s.1.current d'⟩]),
        s.1.current d') := by
    have hcommit : Session.exec env .commit s.1 d' = (.ok (), s.1.ended, s.1.current d') :=
      statement_faultless (hgood env henv)
    simp only [Machine.recording, Session.machine, hcommit]
  rw [hexec]
  exact ⟨hmove env d' henv hd, hQ env d' henv hd⟩

/-- An exception is not forgotten while the session is rolled back. -/
theorem acts_rollbackOnError {P : Exc → Log → Prop}
    (hP : ∀ e log (m : Move Call Env Session Database), P e log → m.after = m.before →
      P e (log ++ [m]))
    {x : Service α} {Q : α → Session × Log → Database → Prop}
    (hx : Acts R good request x Q (fun e s _ => P e s.2) s d) :
    Acts R good request (rollbackOnError x) Q (fun e s _ => P e s.2) s d := by
  refine (wpE_tryCatch _ _).mpr (wpE_mono x (fun _ _ _ h => h) (fun e s d he => ?_) hx)
  have hrollback : Acts R good request (call .rollback >>= fun _ => (throw e : Service α)) Q
      (fun e s _ => P e s.2) s d := by
    refine acts_bind (acts_answered (fun h => by cases h) fun env d' _ _ => ?_)
    exact ⟨(), {}, d', rfl, acts_throw (hP _ _ _ he rfl)⟩
  cases e with
  | sql e => exact hrollback
  | app e => exact hrollback
  | validation => exact acts_throw he

theorem acts_rollbackOnSqlError {P : Exc → Log → Prop}
    (hP : ∀ e log (m : Move Call Env Session Database), P e log → m.after = m.before →
      P e (log ++ [m]))
    {x : Service α} {Q : α → Session × Log → Database → Prop}
    (hx : Acts R good request x Q (fun e s _ => P e s.2) s d) :
    Acts R good request (rollbackOnSqlError x) Q (fun e s _ => P e s.2) s d := by
  refine (wpE_tryCatch _ _).mpr (wpE_mono x (fun _ _ _ h => h) (fun e s d he => ?_) hx)
  cases e with
  | sql e =>
      refine acts_bind (acts_answered (fun h => by cases h) fun env d' _ _ => ?_)
      exact ⟨(), {}, d', rfl, acts_throw (hP _ _ _ he rfl)⟩
  | app e => exact acts_throw he
  | validation => exact acts_throw he

end Rules

/-! ## From a service to the system -/

section System

/-- Runs of some kinds of requests only. -/
abbrev ReachesBy (kinds : Request → Prop) (d : Database)
    (σ : System Request Call Call.Res Response Session Database) : Prop :=
  System.Reachable Session.machine workload kinds (fun _ _ _ _ _ => True) d σ

/-- The same with what each request has done. -/
abbrev RecordsBy (kinds : Request → Prop) (d : Database)
    (σ : System Request Call Call.Res Response (Session × Log) Database) : Prop :=
  System.Recorded Session.machine workload kinds (fun _ _ _ _ _ => True) d σ

/-- What the others do in such runs. -/
structure Company (kinds : Request → Prop) (d₀ : Database)
    (R : Session → Database → Database → Prop) : Prop where
  trans : ∀ l d d' d'', R l d d' → R l d' d'' → R l d d''
  self : ∀ τ, ReachesBy kinds d₀ τ → ∀ l, R l τ.shared τ.shared
  other : ∀ τ τ' j k t l l' q, ReachesBy kinds d₀ τ →
    System.CallStep Session.machine j t l l' τ τ' → k ≠ j → τ.procs k = some q →
      R q.loc τ.shared τ'.shared

variable {kinds : Request → Prop} {good : Env → Prop} {request : Request} {d d₀ : Database}
  {R : Session → Database → Database → Prop}

theorem company_surrounds (hd : Intact d₀) : Company kinds d₀ Surrounds := by
  have hreaches : ∀ τ, ReachesBy kinds d₀ τ → Reaches d₀ τ := fun τ hτ =>
    System.reachable_of_kinds (fun _ _ => trivial) hτ
  refine ⟨fun _ _ _ _ h h' => h.trans h', fun τ hτ l => ?_, ?_⟩
  · have hintact : Intact τ.shared := intact_of_reaches hd (hreaches τ hτ)
    exact ⟨publishProtocol.interferes_refl Session.machine trivial l, hintact.consistent,
      hintact.names⟩
  · intro τ τ' j k t l l' q hτ hs hk hq
    have hτ := hreaches τ hτ
    have hnext : Intact τ'.shared := intact_of_reaches hd (hτ.step (.call hs trivial))
    exact ⟨Protocol.interferes_of_callStep (publish_coherent hτ) hs trivial hk hq,
      hnext.consistent, hnext.names⟩

theorem Resolved.closed {found : Env → Prop} {response : Response} {log : Log}
    (h : Resolved found request response log) {m : Move Call Env Session Database}
    (hm : m.after = m.before) (hbefore : Intact m.before) :
    AnsweredAtOnce found request response (log ++ [m]) := by
  rcases h with h | ⟨hquiet, hanswers⟩
  · exact h.concat (hm ▸ .refl _)
  · refine hquiet.atomic_concat ?_
    rw [hm]
    exact hanswers _ hbefore

variable {P A : Request → Response → Log → Prop}
  (hR : ∀ l d d', R l d d' → Intact d')
  (hclose : ∀ request response log (m : Move Call Env Session Database),
    P request response log → m.after = m.before → Intact m.before →
      A request response (log ++ [m]))

include hR hclose

/-- The session is closed however the route ends. -/
theorem wp_of_route
    (h : Acts R good request request.route (fun body s _ => P request (.ok body) s.2)
      (fun e s _ => P request (.error e) s.2) ({}, []) d) :
    wp Session.machine.recording (within good R (MovesAtOnce good request))
      request.program (fun response s _ => A request response s.2) ({}, []) d := by
  refine (wp_bind _ _ _ _ _ _ _).mpr (wp_mono _ _ (fun response s d h => ?_) h)
  intro d' hd env _
  refine ⟨Or.inl (.refl d'), ?_⟩
  cases response with
  | ok body => exact hclose _ _ _ _ h rfl (hR _ _ _ hd)
  | error e => exact hclose _ _ _ _ h rfl (hR _ _ _ hd)

/-- What is proved of the routes of some kinds holds of every such request in every run, and
while it runs it moves at once. -/
theorem wp_of_records (hcompany : Company kinds d₀ R) {tags : Request → Prop}
    (hroute : ∀ request d, tags request → (∃ env, good env) →
      Acts R good request request.route (fun body s _ => P request (.ok body) s.2)
        (fun e s _ => P request (.error e) s.2) ({}, []) d)
    {σ : System Request Call Call.Res Response (Session × Log) Database}
    (hr : RecordsBy kinds d₀ σ) :
    ∀ i p, σ.procs i = some p → tags p.tag → (∀ m ∈ p.loc.2, good m.env) →
      wp Session.machine.recording (within good R (MovesAtOnce good p.tag)) p.prog
        (fun response s _ => A p.tag response s.2) p.loc σ.shared := by
  refine System.wp_of_recorded_within (Q := fun request response s _ => A request response s.2)
    hcompany.trans hcompany.self ?_ (fun _ _ _ _ _ _ h => h) (fun request d htag => ?_) hr
  · exact fun τ τ' j k t l l' q hτ hs _ hk hq => hcompany.other τ τ' j k t l l' q hτ hs hk hq
  · by_cases hsome : ∃ env, good env
    · exact wp_of_route hR hclose (hroute request d htag hsome)
    · refine wp_of_no_good ?_ hsome
      exact Prog.isCall_bind fun _ => rfl

end System

/-! ### A request alone -/

section Alone

omit [Collation]

theorem faultless_registrationEnv : registrationEnv.Faultless := by
  have hlength : ("hash" : String).length ≤ 255 := by decide
  exact ⟨rfl, fun _ => hlength⟩

theorem intact_sampleDatabase : @Intact sampleCollation sampleDatabase := by
  let _ := sampleCollation
  exact ⟨consistent_sampleDatabase, namesUnique_sampleDatabase⟩

/-- The first calls of a request that nobody disturbs. -/
def undisturbed (request : Request) (n : Nat) :
    Progress Call Call.Res Response (Session × Log) Database :=
  (@Session.machine sampleCollation).recording.advanceN (fun _ => registrationEnv) n
    ⟨request.program, ({}, []), sampleDatabase⟩

theorem records_undisturbed (request : Request) (n : Nat) :
    @Records sampleCollation sampleDatabase (System.solo 0 request (undisturbed request n)) := by
  let _ := sampleCollation
  exact System.reachable_advanceN (fun _ _ _ _ => trivial) _ n (System.reachable_spawn trivial)

theorem faultless_undisturbed (request : Request) (n : Nat) :
    ∀ m ∈ (undisturbed request n).loc.2, m.env.Faultless :=
  Machine.recording_advanceN (fun _ => faultless_registrationEnv)
    (fun _ hm => absurd hm List.not_mem_nil) n

theorem procs_undisturbed {request : Request} {n : Nat} {response : Response}
    (h : (undisturbed request n).prog.value? = some response) :
    (System.solo 0 request (undisturbed request n)).procs 0 =
      some ⟨request, .ret response, (undisturbed request n).loc⟩ := by
  rw [← Prog.eq_ret h]
  rfl

end Alone
end TaskPlatform
