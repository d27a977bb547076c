import TaskPlatform.Concurrency.Steady
import TaskPlatform.Transaction.Linear

/-!
# The API is linearizable while memberships last

Requests in any number and any interleaving are answered as if they had been served one
after the other, each of them at some moment between its first call and its last.  Four
kinds of requests are left out: those that change or remove a membership, after which a role
that was read earlier is out of date, and those that edit or delete a task they have not
locked.
-/

namespace TaskPlatform

open Transaction Service Database Relational Platform

/-- The requests that are answered at one moment in each other's company. -/
def Request.isAtomic : Request → Prop
  | updateMemberRole _ _ _ _ | removeMember _ _ _ | updateTask _ _ _ _ | deleteTask _ _ _ => False
  | _ => True

theorem keepsMembers_of_isAtomic {request : Request} (h : request.isAtomic) :
    request.keepsMembers := by
  cases request with
  | updateMemberRole => exact h.elim
  | removeMember => exact h.elim
  | _ => trivial

section Requests

variable [Collation] {good : Env → Prop} {request : Request} {d : Database}

theorem acts_atomic (hgood : ∀ env, good env → env.Faultless) (hsome : ∃ env, good env)
    (hatomic : request.isAtomic) :
    Acts Steady good request request.route
      (fun body s _ => Resolved good request (.ok body) s.2 ∨ Overtaken request (.ok body) s.2)
      (fun e s _ => Resolved good request (.error e) s.2 ∨ Overtaken request (.error e) s.2)
      ({}, []) d := by
  have hresolved : ∀ {R : Session → Database → Database → Prop}, Acts R good request request.route
      (fun body s _ => Resolved good request (.ok body) s.2)
      (fun e s _ => Resolved good request (.error e) s.2) ({}, []) d →
      Acts R good request request.route
        (fun body s _ => Resolved good request (.ok body) s.2 ∨ Overtaken request (.ok body) s.2)
        (fun e s _ => Resolved good request (.error e) s.2 ∨ Overtaken request (.error e) s.2)
        ({}, []) d :=
    fun h => wpE_mono _ (fun _ _ _ h => Or.inl h) (fun _ _ _ h => Or.inl h) h
  have hless : ∀ l d d', Steady l d d' → Surrounds l d d' := fun _ _ _ h => h.toSurrounds
  cases request with
  | addMember subject w body => exact hresolved (acts_newMember hgood hsome subject w body)
  | createTask subject w body => exact hresolved (acts_newTask hgood hsome subject w body)
  | createUser _ _ => exact wp_of_less hless (hresolved (acts_founding hgood hsome trivial))
  | createWorkspace _ _ => exact wp_of_less hless (hresolved (acts_founding hgood hsome trivial))
  | updateTaskStatus _ _ _ _ => exact wp_of_less hless (acts_decidesLocked hgood hsome trivial)
  | updateTaskAssignee _ _ _ _ => exact wp_of_less hless (acts_decidesLocked hgood hsome trivial)
  | updateMemberRole => exact hatomic.elim
  | removeMember => exact hatomic.elim
  | updateTask => exact hatomic.elim
  | deleteTask => exact hatomic.elim
  | _ => exact wp_of_less hless (hresolved (acts_reading hgood hsome trivial))

end Requests

/-! ## Runs -/

/-- Runs of requests of some kinds, with all their calls. -/
abbrev TracedBy [Collation] (kinds : Request → Prop) (d : Database)
    (σ : System Request Call Call.Res Response (Session × Log) Database)
    (h : Trace Call Env Session Database) : Prop :=
  System.Traced Session.machine workload kinds (fun _ _ _ _ _ => True) d σ h

section Runs

variable [Collation] {d₀ : Database}
  {σ : System Request Call Call.Res Response (Session × Log) Database}
  {h : Trace Call Env Session Database}

/-- The specified answers to the requests of a run, in the circumstances their calls found. -/
def AnswersIn (σ : System Request Call Call.Res Response (Session × Log) Database) (i : Nat)
    (d : Database) (response : Response) (d' : Database) : Prop :=
  ∃ p, σ.procs i = some p ∧ Answers (FoundBy p.loc.2) p.tag d response d'

/-- No call of the run has failed. -/
def FaultlessRun (σ : System Request Call Call.Res Response (Session × Log) Database) : Prop :=
  ∀ i p, σ.procs i = some p → ∀ m ∈ p.loc.2, m.env.Faultless

/-- What is known of an atomic request in a run. -/
theorem wp_of_atomic (hd : Intact d₀) {good : Env → Prop}
    (hgood : ∀ env, good env → env.Faultless) (hr : RecordsBy Request.isAtomic d₀ σ) :
    ∀ i p, σ.procs i = some p → p.tag.isAtomic → (∀ m ∈ p.loc.2, good m.env) →
      wp Session.machine.recording (within good Steady (MovesAtOnce good p.tag)) p.prog
        (fun response s _ => AnsweredAtOnce good p.tag response s.2 ∨
          Overtaken p.tag response s.2) p.loc σ.shared :=
  wp_of_records
    (P := fun request response log => Resolved good request response log ∨
      Overtaken request response log)
    (A := fun request response log => AnsweredAtOnce good request response log ∨
      Overtaken request response log)
    (fun _ _ _ h => h.intact)
    (fun _ _ _ _ h hm hbefore => h.imp (fun h => h.closed hm hbefore) (fun h => h.closed hm))
    (company_steady hd fun _ => keepsMembers_of_isAtomic)
    (fun _ _ hatomic hsome => acts_atomic hgood hsome hatomic) hr

/-- It has not done its work, or one call has done it. -/
theorem quiet_or_answered (hd : Intact d₀) {good : Env → Prop}
    (hgood : ∀ env, good env → env.Faultless) (hr : RecordsBy Request.isAtomic d₀ σ) :
    ∀ i p, σ.procs i = some p → p.tag.isAtomic → (∀ m ∈ p.loc.2, good m.env) →
      Quiet SameRows p.loc.2 ∨ ∃ a : Response, AnsweredAtOnce good p.tag a p.loc.2 := by
  have hmoves : ∀ request log d d', MovesAtOnce good request log d d' →
      SameRows d d' ∨ (Quiet SameRows log ∧ ∃ a : Response, Answers good request d a d') := by
    intro request log d d' hmoves
    refine hmoves.imp_right fun h => ⟨h.1, ?_⟩
    obtain ⟨_, body, ha⟩ := h
    exact ⟨.ok body, ha⟩
  exact System.quiet_or_atomic_of_recorded
    (Q := fun request response s _ => AnsweredAtOnce good request response s.2 ∨
      Overtaken request response s.2)
    (company_steady hd fun _ => keepsMembers_of_isAtomic).self
    (fun τ hτ => wp_of_atomic hd hgood hτ) hmoves hr

/-- Every run of atomic requests in which no call fails has an order in which the requests,
answered one after the other, leave the same rows.  A request that has ended is in it with
the answer its client got, unless it was overtaken and changed nothing; a request that is
not over is in it if it has changed a row. -/
theorem linearizable (hd : Intact d₀) (hr : TracedBy Request.isAtomic d₀ σ h)
    (hfaultless : FaultlessRun σ) :
    ∃ lin, Linearizes SameRows (AnswersIn σ) d₀ h σ.shared lin ∧
      (∀ i request response s, σ.procs i = some ⟨request, .ret response, s⟩ →
        (i, response) ∈ lin ∨ (Overtaken request response s.2 ∧ i ∉ lin.map Prod.fst)) ∧
      ∀ i p, σ.procs i = some p → ¬ Quiet SameRows p.loc.2 → i ∈ lin.map Prod.fst := by
  obtain ⟨hlog, hnone⟩ := hr.own_eq
  have hrecords : RecordsBy Request.isAtomic d₀ σ := hr.recorded
  have hkind : ∀ i p, σ.procs i = some p → p.tag.isAtomic := System.kind_of_reachable hrecords
  have hgood : ∀ i p, σ.procs i = some p → ∀ env, FoundBy p.loc.2 env → env.Faultless := by
    rintro i p hp env ⟨m, hm, rfl⟩
    exact hfaultless i p hp m hm
  have hown : ∀ i p a, σ.procs i = some p →
      Atomic SameRows (Answers (FoundBy p.loc.2) p.tag) a p.loc.2 →
        Atomic SameRows (AnswersIn σ i) a (own i h) := by
    intro i p a hp hanswered
    rw [← hlog i p hp]
    exact hanswered.imp fun _ _ ha => ⟨p, hp, ha⟩
  let done (i : Nat) (a : Response) : Prop :=
    ∃ p, σ.procs i = some p ∧ p.prog = .ret a ∧
      Atomic SameRows (Answers (FoundBy p.loc.2) p.tag) a p.loc.2
  have hunique : ∀ i a b, done i a → done i b → a = b := by
    rintro i a b ⟨p, hp, ha, _⟩ ⟨q, hq, hb, _⟩
    cases hp.symm.trans hq
    rw [ha] at hb
    exact Prog.ret.inj hb
  have hall : ∀ i, Quiet SameRows (own i h) ∨ ∃ a, Atomic SameRows (AnswersIn σ i) a (own i h) := by
    intro i
    cases hp : σ.procs i with
    | none =>
        rw [hnone i hp]
        exact Or.inl quiet_nil
    | some p =>
        rcases quiet_or_answered hd (hgood i p hp) hrecords i p hp (hkind i p hp)
          fun m hm => ⟨m, hm, rfl⟩ with hquiet | ⟨a, hanswered⟩
        · exact Or.inl (hlog i p hp ▸ hquiet)
        · exact Or.inr ⟨a, hown i p a hp hanswered⟩
  obtain ⟨lin, hlin, honce, hdone, hwhy⟩ :=
    exists_explains (fun i a ⟨p, hp, _, ha⟩ => hown i p a hp ha) hunique hall
  refine ⟨lin, hlin.linearizes .refl (fun _ _ _ => .trans) honce hr.chained, ?_, ?_⟩
  · intro i request response s hp
    by_cases hanswered : AnsweredAtOnce (FoundBy s.2) request response s.2
    · exact Or.inl (hdone i response ⟨_, hp, rfl, hanswered⟩)
    have hovertaken : Overtaken request response s.2 :=
      (wp_of_atomic hd (hgood i _ hp) hrecords i _ hp (hkind i _ hp)
        fun m hm => ⟨m, hm, rfl⟩).resolve_left hanswered
    refine Or.inr ⟨hovertaken, fun hi => ?_⟩
    obtain ⟨⟨_, a⟩, ha, rfl⟩ := List.mem_map.mp hi
    rcases hwhy _ a ha with ⟨p, hp', hret, hatomic⟩ | hloud
    · cases hp.symm.trans hp'
      cases hret
      exact hanswered hatomic
    · refine hloud ?_
      rw [← hlog _ _ hp]
      exact hovertaken.quiet
  · intro i p hp hloud
    rw [hlog i p hp] at hloud
    exact not_not.mp fun hi => hloud (hlin.quiet_of_notMem hi)

end Runs

/-! ### A task is claimed while somebody registers -/

/-- The two requests take turns. -/
def claimAndRegistration : List (Event Request Env) :=
  [.spawn 0 taskClaimed, .spawn 1 registration] ++
    ((List.range 7).flatMap fun _ => [.call 0 registrationEnv, .call 1 registrationEnv]) ++
      List.replicate 4 (.call 0 registrationEnv)

theorem spawns_claimAndRegistration {i : Nat} {request : Request}
    (h : .spawn i request ∈ claimAndRegistration) : request.isAtomic := by
  have hrequest : request = taskClaimed ∨ request = registration := by
    simp [claimAndRegistration] at h
    exact h.imp And.right And.right
  rcases hrequest with rfl | rfl
  · trivial
  · trivial

theorem calls_claimAndRegistration {i : Nat} {env : Env}
    (h : .call i env ∈ claimAndRegistration) : env = registrationEnv := by
  simp [claimAndRegistration] at h
  rcases h with ⟨_, h⟩ | h
  · exact h.elim And.right And.right
  · exact h.2

theorem linearizable_claim :
    let _ := sampleCollation
    ∃ σ h lin claimed registered, TracedBy Request.isAtomic sampleDatabase σ h ∧
      Linearizes SameRows (AnswersIn σ) sampleDatabase h σ.shared lin ∧
      (0, .ok (.task claimed)) ∈ lin ∧ (1, .ok (.user registered)) ∈ lin := by
  intro collation
  let claimed : TaskResponse :=
    { id := 1, title := "task", priority := 1, description := none, workspaceId := 1
      creatorId := 1, assigneeId := some 2, status := .todo, createdAt := 0, updatedAt := 0 }
  let registered : UserResponse := ⟨3, "alice"⟩
  have hends : ((System.replay Session.machine.recording (workload.recording Env Database)
      (fun x => Session.heldKeys x.1) 2 (System.start sampleDatabase) claimAndRegistration).map
        fun σ => ((σ.procs 0).bind fun p => p.prog.value?,
          (σ.procs 1).bind fun p => p.prog.value?)) =
      some (some (.ok (.task claimed)), some (.ok (.user registered))) := by decide +kernel
  obtain ⟨σ, hreplay, hvalues⟩ := Option.map_eq_some_iff.mp hends
  obtain ⟨hclaimed, hregistered⟩ := Prod.mk.inj hvalues
  have hruns := System.runs_of_replay (fun _ _ hk => Session.mem_heldKeys.mpr hk)
    (System.below_start 2 sampleDatabase) hreplay
  have hr : RecordsBy Request.isAtomic sampleDatabase σ :=
    hruns.reachable (fun _ _ _ _ _ => trivial) (fun _ _ ht => spawns_claimAndRegistration ht) .start
  obtain ⟨h, hh⟩ := System.traced_of_recorded hr
  have hfaultless : FaultlessRun σ := hruns.environments
    (fun _ _ he => calls_claimAndRegistration he ▸ faultless_registrationEnv)
    fun _ _ hp => by cases hp
  obtain ⟨lin, hlin, hended, _⟩ := linearizable intact_sampleDatabase hh hfaultless
  have hin : ∀ i body, ((σ.procs i).bind fun p => p.prog.value?) = some (.ok body) →
      (i, .ok body) ∈ lin := by
    intro i body hvalue
    obtain ⟨⟨request, prog, s⟩, hp, hprog⟩ := Option.bind_eq_some_iff.mp hvalue
    cases Prog.eq_ret hprog
    refine (hended i _ _ s hp).resolve_right fun hovertaken => ?_
    obtain ⟨_, he, _⟩ := hovertaken.1.refusal
    cases he
  exact ⟨σ, h, lin, claimed, registered, hh, hlin, hin 0 _ hclaimed, hin 1 _ hregistered⟩

end TaskPlatform
