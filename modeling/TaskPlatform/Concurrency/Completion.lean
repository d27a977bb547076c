import TaskPlatform.Concurrency.Deadlock
import TaskPlatform.Transaction.Progress

/-!
# Every request is answered

A session lets go of its locks in its last call, and the waits of a reachable state rise
in rank, so among the requests in progress there is always one that can go on.  Requests
end after finitely many calls.  Whatever the schedule has done so far, all requests that
have arrived can be answered, and nothing can keep them from it but new arrivals.

The store is `Session.exactMachine`, whose bulk updates lock the rows that they match and
no others.  Two removals whose bulk updates also kept the rows they had passed over could
wait for each other.
-/

namespace TaskPlatform

open Transaction Database

section Completion

variable [Collation] {σ : System Request Call Call.Res Response Session Database}
  {allowed : Request → Prop} {d : Database}

omit [Collation] in
theorem program_endsWith (request : Request) : request.program.EndsWith .close :=
  .bind _ fun _ => .last fun _ => rfl

/-- The requests in progress can all be answered. -/
structure Completes (σ : System Request Call Call.Res Response Session Database) : Prop where
  /-- Without new arrivals every schedule is finite. -/
  finite : Acc (fun σ' σ => ∃ i env,
    System.Does Session.exactMachine workload (.call i env) σ σ') σ
  /-- It cannot stop before all are answered. -/
  goesOn : σ.unfinished.Nonempty → ∀ env, ∃ i σ',
    System.Does Session.exactMachine workload (.call i env) σ σ'
  answered : ∀ env, ∃ (is : List Nat) (σ' : System Request Call Call.Res Response Session Database),
    System.Runs Session.exactMachine workload σ (is.map fun i => .call i env) σ' ∧
      ∀ i p, σ'.procs i = some p → ∃ response, p.prog = .ret response

/-- From every reachable state of any interleaving of any requests, the requests that
have arrived are all answered if no more arrive, in whatever order they are scheduled
and whatever their calls answer, as long as bulk updates lock exactly the rows they
match. -/
theorem requests_complete
    (hr : System.Reachable Session.exactMachine workload allowed (fun _ _ _ _ _ => True) d σ) :
    Completes σ := by
  have hfree : ∀ τ, System.Reachable Session.exactMachine workload allowed
      (fun _ _ _ _ _ => True) d τ → τ.unfinished.Nonempty → ∀ env, ∃ i τ',
        System.Does Session.exactMachine workload (.call i env) τ τ' := by
    intro τ hτ hsome env
    obtain ⟨n, hn⟩ := System.below_of_reachable hτ
    have hclose : ∀ env l d k,
        ¬ Session.exactMachine.locks (Session.exactMachine.exec env .close l d).2.1 k :=
      fun _ _ _ => idle_init
    have hreleased := System.released_of_reachable hclose program_endsWith hτ
    exact System.exists_free hn hreleased (acyclic_of_coherent (coherent_of_reachable hτ)) hsome env
  obtain ⟨n, hn⟩ := System.below_of_reachable hr
  refine ⟨System.acc_of_below hn, hfree σ hr, fun env => ?_⟩
  obtain ⟨is, σ', hruns, hended⟩ := System.exists_finish (fun τ τ' i env hτ hdoes =>
    hdoes.reachable (fun _ _ _ _ _ => trivial) (fun _ _ heq => by cases heq) hτ) hfree hn hr env
  refine ⟨is, σ', hruns, fun i p hp => ?_⟩
  obtain ⟨t, prog, l⟩ := p
  cases prog with
  | ret response => exact ⟨response, rfl⟩
  | call o k => exact absurd ⟨i, _, hp, rfl⟩ hended

end Completion

/-! ### Two edits of one task -/

theorem requests_complete_edits :
    ∃ σ : System Request Call Call.Res Response Session Database,
      (∃ k, System.Waits (@Session.exactMachine sampleCollation) (fun _ _ _ _ _ => True) σ 1 k 0) ∧
        @Completes sampleCollation σ := by
  let _ := sampleCollation
  let data := TaskUpdate.validate none (some (some 2)) none
  let replayed := System.replay Session.exactMachine workload Session.heldKeys 2
    (System.start sampleDatabase) (editSchedule data)
  have hwaits : (replayed.map fun σ => System.isWaiting Session.exactMachine Session.heldKeys
      sampleEnv σ 1 (.task 1) 0) = some true := by decide +kernel
  obtain ⟨σ, hreplay, hwait⟩ := Option.map_eq_some_iff.mp hwaits
  have hruns := System.runs_of_replay (fun _ _ hk => Session.mem_heldKeys.mpr hk)
    (System.below_start 2 sampleDatabase) hreplay
  have hr : System.Reachable Session.exactMachine workload (fun _ => True)
      (fun _ _ _ _ _ => True) sampleDatabase σ :=
    hruns.reachable (fun _ _ _ _ _ => trivial) (fun _ _ _ => trivial) .start
  refine ⟨σ, ⟨.task 1, System.waits_of_isWaiting (fun _ _ => Session.mem_heldKeys.mp)
    (fun _ _ _ _ _ => trivial) (by decide) hwait⟩, requests_complete hr⟩

end TaskPlatform
