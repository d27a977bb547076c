import Mathlib.Data.List.Perm.Subperm
import TaskPlatform.Mediation.Requests
import TaskPlatform.RateLimit.Buckets
import TaskPlatform.RateLimit.FixedWindow
import TaskPlatform.Transaction.Feed
import TaskPlatform.Transaction.Schedule

/-!
# The budget of a bucket

The API beside one Redis, which all requests share.  The checks of the requests are the
visits to its keys, in the order of the run, so the fixed-window law bounds how many
requests of one bucket come to commit anything: only a request whose check got no answer
goes beyond it, and only where the guard fails open.
-/

namespace TaskPlatform

open Transaction Counting Redis

/-- Redis as the limiter sees it; the clock is in milliseconds. -/
structure RedisServer where
  keys : Keyspace
  clock : Nat

/-- What neither the programs nor the two stores decide about one call.  `elapsed` is the
time since the call before it. -/
structure Turn where
  env : Env := {}
  elapsed : Nat := 0
  delivery : Delivery := .answered

def Turn.time (turn : Turn) (server : RedisServer) : Nat := server.clock + turn.elapsed

abbrev BudgetLog : Type := History Call Turn Session (Database × RedisServer)

section Budget

variable [PyText] (settings : Settings)

/-- The limiter asks Redis, and no other call does. -/
def RedisServer.feed (turn : Turn) (c : Call) (server : RedisServer) : Env × RedisServer :=
  let check := RateLimiter.check settings turn.delivery (turn.time server) server.keys
  ({ turn.env with limiter := fun c => (check c).1 },
    { clock := turn.time server
      keys := match c with
        | .checkRateLimit c => (check c).2
        | _ => server.keys })

/-- Sessions whose rate limiter is a Redis. -/
def limitedMachine [Collation] :
    Machine Call Call.Res Turn Session (Database × RedisServer) RowKey :=
  Session.machine.fed (RedisServer.feed settings)

/-- The call is a check on the key of `check`. -/
def onKey (check : RateCheck) : Call → Bool
  | .checkRateLimit c => RateLimiter.key settings c = RateLimiter.key settings check
  | _ => false

variable {settings} {check c : RateCheck} {turn : Turn} {server : RedisServer}

/-- One key is used with one limit and one window. -/
theorem limit_of_key (h : RateLimiter.key settings c = RateLimiter.key settings check) :
    RateLimiter.limit settings c = RateLimiter.limit settings check ∧
      RateLimiter.windowSeconds settings c = RateLimiter.windowSeconds settings check := by
  cases c with
  | registration _ =>
      cases check with
      | registration _ => exact ⟨rfl, rfl⟩
      | login _ _ => exact absurd h.symm (RateLimiter.loginKey_ne_registrationKey settings _ _ _)
      | write _ _ _ => exact absurd h (RateLimiter.registrationKey_ne_writeKey settings _ _ _ _)
  | login _ _ =>
      cases check with
      | registration _ => exact absurd h (RateLimiter.loginKey_ne_registrationKey settings _ _ _)
      | login _ _ => exact ⟨rfl, rfl⟩
      | write _ _ _ => exact absurd h (RateLimiter.loginKey_ne_writeKey settings _ _ _ _ _)
  | write _ _ _ =>
      cases check with
      | registration _ =>
          exact absurd h.symm (RateLimiter.registrationKey_ne_writeKey settings _ _ _ _)
      | login _ _ => exact absurd h.symm (RateLimiter.loginKey_ne_writeKey settings _ _ _ _ _)
      | write _ _ _ => exact ⟨rfl, rfl⟩

variable (settings check)

/-- A call as a visit to the key of `check`, and the answer to it. -/
def visitOf (m : Move Call Turn Session (Database × RedisServer)) : Visit :=
  ⟨m.env.time m.before.2, m.env.delivery⟩

def answerTo (m : Move Call Turn Session (Database × RedisServer)) : Answer :=
  answer (RateLimiter.limit settings check) (RateLimiter.windowSeconds settings check)
    (m.before.2.keys (RateLimiter.key settings check)) (visitOf m)

/-- The checks on the key of `check`, in the order of the run. -/
def charges (h : Trace Call Turn Session (Database × RedisServer)) :
    Trace Call Turn Session (Database × RedisServer) :=
  h.filter fun x => onKey settings check x.2.op

variable {settings check}

/-- A check on the key is answered as a visit to it. -/
theorem feed_result (h : RateLimiter.key settings c = RateLimiter.key settings check) :
    (RedisServer.feed settings turn (.checkRateLimit c) server).1.limiter c =
      (answer (RateLimiter.limit settings check) (RateLimiter.windowSeconds settings check)
        (server.keys (RateLimiter.key settings check))
        ⟨turn.time server, turn.delivery⟩).result := by
  obtain ⟨hlimit, hwindow⟩ := limit_of_key h
  show (checkKey (RateLimiter.limit settings c) (RateLimiter.windowSeconds settings c)
    turn.delivery (turn.time server) (server.keys (RateLimiter.key settings c))).1 = _
  rw [hlimit, hwindow, h]
  rfl

theorem feed_onKey {o : Call} (h : onKey settings check o = true) :
    (RedisServer.feed settings turn o server).2.keys (RateLimiter.key settings check) =
      (answer (RateLimiter.limit settings check) (RateLimiter.windowSeconds settings check)
        (server.keys (RateLimiter.key settings check))
        ⟨turn.time server, turn.delivery⟩).entry := by
  cases o with
  | checkRateLimit c =>
      have hkey : RateLimiter.key settings c = RateLimiter.key settings check :=
        of_decide_eq_true h
      obtain ⟨hlimit, hwindow⟩ := limit_of_key hkey
      show Function.update server.keys (RateLimiter.key settings c) (checkKey
        (RateLimiter.limit settings c) (RateLimiter.windowSeconds settings c) turn.delivery
        (turn.time server) (server.keys (RateLimiter.key settings c))).2
          (RateLimiter.key settings check) = _
      rw [hlimit, hwindow, hkey, Function.update_self]
      rfl
  | _ => cases h

theorem feed_offKey {o : Call} (h : onKey settings check o = false) :
    (RedisServer.feed settings turn o server).2.keys (RateLimiter.key settings check) =
      server.keys (RateLimiter.key settings check) := by
  cases o with
  | checkRateLimit c =>
      exact RateLimiter.check_of_ne settings (Ne.symm (of_decide_eq_false h))
  | _ => rfl

/-! ## The checks are the visits to a key -/

section Visits

variable [Collation] {h : Trace Call Turn Session (Database × RedisServer)}
  {x x' : Database × RedisServer}

omit [Collation] in
theorem charges_onKey {y : Nat × Move Call Turn Session (Database × RedisServer)}
    (hkey : onKey settings check y.2.op = true) :
    charges settings check (y :: h) = y :: charges settings check h :=
  List.filter_cons_of_pos hkey

omit [Collation] in
theorem charges_offKey {y : Nat × Move Call Turn Session (Database × RedisServer)}
    (hkey : onKey settings check y.2.op = false) :
    charges settings check (y :: h) = charges settings check h :=
  List.filter_cons_of_neg (Bool.not_eq_true _ ▸ hkey)

/-- What the machine has done to the shared state, call by call. -/
def Moved (settings : Settings) (h : Trace Call Turn Session (Database × RedisServer)) : Prop :=
  ∀ y ∈ h, y.2.after = ((limitedMachine settings).exec y.2.env y.2.op y.2.loc y.2.before).2.2

/-- The checks on a key are answered as visits to it, one after the other. -/
theorem visits_charges (hmoved : Moved settings h) (hh : Chained x h x') :
    (charges settings check h).map (fun y => answerTo settings check y.2) =
      visits (RateLimiter.limit settings check) (RateLimiter.windowSeconds settings check)
        (x.2.keys (RateLimiter.key settings check))
        ((charges settings check h).map fun y => visitOf y.2) := by
  induction h generalizing x with
  | nil => rfl
  | cons y h ih =>
      obtain ⟨i, m⟩ := y
      obtain ⟨rfl, hh⟩ := hh
      have hafter : m.after.2 = (RedisServer.feed settings m.env m.op m.before.2).2 := by
        rw [hmoved _ List.mem_cons_self]
        rfl
      have hrest := ih (fun y hy => hmoved y (List.mem_cons_of_mem _ hy)) hh
      rw [hafter] at hrest
      cases hkey : onKey settings check m.op with
      | true =>
          rw [feed_onKey hkey] at hrest
          rw [charges_onKey hkey, List.map_cons, List.map_cons, visits]
          exact congrArg _ hrest
      | false =>
          rw [feed_offKey hkey] at hrest
          rw [charges_offKey hkey]
          exact hrest

/-- They come in the order of time. -/
theorem sorted_charges (hmoved : Moved settings h) (hh : Chained x h x') :
    (∀ y ∈ h, x.2.clock ≤ (visitOf y.2).time) ∧
      h.Pairwise fun y y' => (visitOf y.2).time ≤ (visitOf y'.2).time := by
  induction h generalizing x with
  | nil => exact ⟨fun y hy => (by cases hy), List.Pairwise.nil⟩
  | cons y h ih =>
      obtain ⟨i, m⟩ := y
      obtain ⟨rfl, hh⟩ := hh
      have hclock : m.after.2.clock = (visitOf m).time := by
        rw [hmoved _ List.mem_cons_self]
        rfl
      have htime : m.before.2.clock ≤ (visitOf m).time := Nat.le_add_right _ _
      obtain ⟨hlater, hsorted⟩ := ih (fun y hy => hmoved y (List.mem_cons_of_mem _ hy)) hh
      rw [hclock] at hlater
      refine ⟨fun y hy => ?_, List.pairwise_cons.mpr ⟨hlater, hsorted⟩⟩
      rcases List.mem_cons.mp hy with rfl | hy
      · exact htime
      · exact htime.trans (hlater y hy)

variable (check) in
/-- The executions of the script for a key are the counts of a fixed-window counter. -/
theorem counts_charges (hmoved : Moved settings h) (hh : Chained x h x') :
    Counts (1000 * RateLimiter.windowSeconds settings check)
      (executions ((charges settings check h).map fun y => answerTo settings check y.2)) := by
  rw [visits_charges hmoved hh]
  refine counts_executions ?_
  exact List.pairwise_map.mpr ((sorted_charges hmoved hh).2.sublist List.filter_sublist)

end Visits

/-! ## What a request was let through by -/

section Requests

variable {request : Request} {h : Dialogue Call.Res}

omit [PyText] in
/-- A request asks the limiter once. -/
theorem checks_once (hh : Permitted request.policy h) {c c' : RateCheck}
    {r r' : Except SqlError (Except RedisError RateLimitDecision)}
    (hc : (⟨.checkRateLimit c, r⟩ : Sigma Call.Res) ∈ h)
    (hc' : (⟨.checkRateLimit c', r'⟩ : Sigma Call.Res) ∈ h) :
    (⟨.checkRateLimit c, r⟩ : Sigma Call.Res) = ⟨.checkRateLimit c', r'⟩ := by
  have hfirst : ∀ {before after : Dialogue Call.Res} {c : RateCheck}
      {r : Except SqlError (Except RedisError RateLimitDecision)},
      h = before ++ ⟨.checkRateLimit c, r⟩ :: after → Unchecked before := by
    intro before after c r heq
    cases hh before (.checkRateLimit c) r after heq with
    | charge _ hfirst => exact hfirst
    | perform _ _ hp =>
        cases hp with
        | removal _ _ _ _ hc =>
            rcases hc with hc | ⟨_, _, _, _, _, _, hc⟩
            · cases hc
            · cases hc
  obtain ⟨before, after, heq⟩ := List.append_of_mem hc
  obtain ⟨before', after', heq'⟩ := List.append_of_mem hc'
  rw [heq] at hc'
  rcases List.mem_append.mp hc' with hmem | hmem
  · exact absurd hmem (hfirst heq c' r')
  · rcases List.mem_cons.mp hmem with hsame | hmem
    · exact hsame.symm
    · obtain ⟨inner, rest, hafter⟩ := List.append_of_mem hmem
      rw [hafter, ← List.cons_append, ← List.append_assoc] at heq
      refine absurd ?_ (hfirst heq c r)
      exact List.mem_append_right _ List.mem_cons_self

omit [PyText] in
/-- Who commits was charged to his bucket and let through. -/
theorem charged_of_commit (hh : Permitted request.policy h) {r : Except SqlError Unit}
    (hc : (⟨.commit, r⟩ : Sigma Call.Res) ∈ h) :
    ∃ check r, ChargedTo request h check ∧ Told h (.checkRateLimit check) r ∧
      Admits check r := by
  obtain ⟨before, after, heq⟩ := List.append_of_mem hc
  have hsub : before ⊆ h := by
    rw [heq]
    exact List.subset_append_left _ _
  cases hh before .commit r after heq with
  | perform hq _ hp =>
      cases hq.mono hsub with
      | charged hcharged hr ha => exact ⟨_, _, hcharged, hr, ha⟩
      | reading hs hu =>
          obtain ⟨username, hsubject, _⟩ := hu.named
          cases hp with
          | removal _ _ _ _ _ => cases hs
          | commit hr =>
              refine absurd ?_ hr
              cases request with
              | createUser _ _ => cases hsubject
              | createWorkspace _ _ | addMember _ _ _ | updateMemberRole _ _ _ _
              | removeMember _ _ _ | createTask _ _ _ | updateTask _ _ _ _
              | updateTaskStatus _ _ _ _ | updateTaskAssignee _ _ _ _ | deleteTask _ _ _ =>
                  cases hs
              | _ => trivial

end Requests

/-! ## The budget -/

section Runs

variable [Collation]

variable (settings check) in
/-- The request comes to commit, and the call `m` is its check, on the key of `check`, and
was answered. -/
structure Spends (p : Proc Request Call Call.Res Response (Session × BudgetLog))
    (m : Move Call Turn Session (Database × RedisServer)) : Prop where
  mem : m ∈ p.loc.2
  charged : ∃ c decision, RateLimiter.key settings c = RateLimiter.key settings check ∧
    Move.said (limitedMachine settings) m = ⟨.checkRateLimit c, .ok (.ok decision)⟩
  commits : ∃ r, (⟨.commit, r⟩ : Sigma Call.Res) ∈
    dialogue (limitedMachine settings) p.loc.2

variable (settings) in
/-- Who commits was charged and let through; and of the requests that one bucket let
through with an answer from Redis, few come to commit in one window, or in any interval as
long as a window. -/
structure WithinBudget
    (σ : System Request Call Call.Res Response (Session × BudgetLog) (Database × RedisServer)) :
    Prop where
  charged : ∀ i p r, σ.procs i = some p →
    (⟨.commit, r⟩ : Sigma Call.Res) ∈ dialogue (limitedMachine settings) p.loc.2 →
      ∃ check r, ChargedTo p.tag (dialogue (limitedMachine settings) p.loc.2) check ∧
        Told (dialogue (limitedMachine settings) p.loc.2) (.checkRateLimit check) r ∧
          Admits check r
  /-- A window is known by its expiry. -/
  window : ∀ check expiry (is : List Nat), is.Nodup → (∀ i ∈ is, ∃ p m, σ.procs i = some p ∧
    Spends settings check p m ∧
      (m.after.2.keys (RateLimiter.key settings check)).bind Entry.expireAt = some expiry) →
        is.length ≤ RateLimiter.limit settings check
  interval : ∀ check start (is : List Nat), is.Nodup → (∀ i ∈ is, ∃ p m, σ.procs i = some p ∧
    Spends settings check p m ∧ start ≤ m.env.time m.before.2 ∧
      m.env.time m.before.2 < start + 1000 * RateLimiter.windowSeconds settings check) →
        is.length ≤ 2 * RateLimiter.limit settings check

variable (settings) in
/-- No check finds a counter of `2 ^ 53` or more, where the numbers of the script are no
longer exact. -/
def CountsExactly
    (σ : System Request Call Call.Res Response (Session × BudgetLog) (Database × RedisServer)) :
    Prop :=
  ∀ i p m c, σ.procs i = some p → m ∈ p.loc.2 → m.op = .checkRateLimit c →
    counted (m.env.time m.before.2) (m.before.2.keys (RateLimiter.key settings c)) < 2 ^ 53

variable {d₀ : Database} {server₀ : RedisServer}
  {σ : System Request Call Call.Res Response (Session × BudgetLog) (Database × RedisServer)}
  {i : Nat} {p : Proc Request Call Call.Res Response (Session × BudgetLog)}
  {m : Move Call Turn Session (Database × RedisServer)}

/-- The runs of the API beside a Redis. -/
abbrev RecordsBeside (settings : Settings) (d : Database) (server : RedisServer)
    (σ : System Request Call Call.Res Response (Session × BudgetLog) (Database × RedisServer)) :
    Prop :=
  System.Recorded (limitedMachine settings) workload (fun _ => True) (fun _ _ _ _ _ => True)
    (d, server) σ

theorem permitted_of_records (hr : RecordsBeside settings d₀ server₀ σ)
    (hp : σ.procs i = some p) :
    Permitted p.tag.policy (dialogue (limitedMachine settings) p.loc.2) := by
  have habides := abiding_of_records (System.recorded_unfed hr) (System.procs_unfed hp)
  have hpermitted := habides.permitted
  show Permitted p.tag.policy (dialogue (Session.machine.fed _) p.loc.2)
  rw [← dialogue_unfed]
  exact hpermitted

/-- The check of a request that comes to commit let it through. -/
theorem Spends.passes (hr : RecordsBeside settings d₀ server₀ σ) (hp : σ.procs i = some p)
    (hm : Spends settings check p m) :
    onKey settings check m.op = true ∧ (answerTo settings check m).passesAuth = true := by
  obtain ⟨c, decision, hkey, hsaid⟩ := hm.charged
  obtain ⟨r, hcommit⟩ := hm.commits
  have hpermitted := permitted_of_records hr hp
  obtain ⟨check', r', hcharged, htold, hadmits⟩ := charged_of_commit hpermitted hcommit
  have hmem : (⟨.checkRateLimit c, .ok (.ok decision)⟩ : Sigma Call.Res) ∈
      dialogue (limitedMachine settings) p.loc.2 := by
    rw [← hsaid]
    exact List.mem_map_of_mem hm.mem
  cases checks_once hpermitted hmem htold
  have hallowed : decision.allowed = true := by
    cases c with
    | write _ _ _ => exact hadmits decision rfl
    | _ =>
        obtain ⟨_, heq, hallowed⟩ := hadmits
        cases heq
        exact hallowed
  obtain ⟨env, op, loc, before, loc', after⟩ := m
  obtain ⟨rfl, hres⟩ := Sigma.mk.inj_iff.mp hsaid
  refine ⟨decide_eq_true hkey, ?_⟩
  have hresult : (answerTo settings check
      ⟨env, .checkRateLimit c, loc, before, loc', after⟩).result = .ok decision := by
    refine (feed_result hkey).symm.trans ?_
    exact Except.ok.inj (eq_of_heq hres)
  rw [Answer.passesAuth, hresult, enforceAuthRateLimit_ok_iff.mpr ⟨decision, rfl, hallowed⟩]
  rfl

/-- The requests of one key that come to commit are among the checks that passed. -/
theorem length_le_passed (hr : RecordsBeside settings d₀ server₀ σ) {P : Answer → Bool}
    {h : Trace Call Turn Session (Database × RedisServer)}
    (hh : System.Traced (limitedMachine settings) workload (fun _ => True)
      (fun _ _ _ _ _ => True) (d₀, server₀) σ h) {is : List Nat} (hnodup : is.Nodup)
    (his : ∀ i ∈ is, ∃ p m, σ.procs i = some p ∧ Spends settings check p m ∧
      P (answerTo settings check m) = true) :
    is.length ≤ (((charges settings check h).map fun y => answerTo settings check y.2).filter
      fun a => a.passesAuth && P a).length := by
  let passed := (charges settings check h).filter fun y =>
    (answerTo settings check y.2).passesAuth && P (answerTo settings check y.2)
  have hsub : is ⊆ passed.map Prod.fst := by
    intro i hi
    obtain ⟨p, m, hp, hm, hPm⟩ := his i hi
    obtain ⟨hkey, hpass⟩ := hm.passes hr hp
    have hcharge : (i, m) ∈ charges settings check h :=
      List.mem_filter.mpr ⟨hh.mem hp hm.mem, hkey⟩
    refine List.mem_map.mpr ⟨(i, m), List.mem_filter.mpr ⟨hcharge, ?_⟩, rfl⟩
    exact Bool.and_eq_true_iff.mpr ⟨hpass, hPm⟩
  have hle := (hnodup.subperm hsub).length_le
  rw [List.length_map] at hle
  rw [List.filter_map, List.length_map]
  exact hle

variable (check) in
/-- Where the script's numbers are exact, what a check lets through is within the limit. -/
theorem exact_of_charges {h : Trace Call Turn Session (Database × RedisServer)}
    (hh : System.Traced (limitedMachine settings) workload (fun _ => True)
      (fun _ _ _ _ _ => True) (d₀, server₀) σ h) (hexact : CountsExactly settings σ) :
    ∀ a ∈ (charges settings check h).map fun y => answerTo settings check y.2,
      a.visit.delivery = .answered →
        replied (counted a.visit.time a.found + 1) ≤ RateLimiter.limit settings check →
          counted a.visit.time a.found + 1 ≤ RateLimiter.limit settings check := by
  intro a ha _ hle
  obtain ⟨⟨i, m⟩, hy, rfl⟩ := List.mem_map.mp ha
  obtain ⟨hmem, hkey⟩ := List.mem_filter.mp hy
  obtain ⟨p, hp, hm⟩ := hh.proc hmem
  have hless : counted (m.env.time m.before.2)
      (m.before.2.keys (RateLimiter.key settings check)) < 2 ^ 53 := by
    cases hop : m.op with
    | checkRateLimit c =>
        rw [hop] at hkey
        have hsame : RateLimiter.key settings c = RateLimiter.key settings check :=
          of_decide_eq_true hkey
        rw [← hsame]
        exact hexact i p m c hp hm hop
    | _ =>
        rw [hop] at hkey
        cases hkey
  have hreplied : replied (counted (m.env.time m.before.2)
      (m.before.2.keys (RateLimiter.key settings check)) + 1) = _ := replied_of_le hless
  exact Int.ofNat_le.mp (hreplied.symm.trans_le hle)

/-- In every interleaving, whatever Redis held at first and however its replies are lost,
the requests that come to commit keep within the budget of their bucket, as long as the
counters are numbers the script can hold. -/
theorem commits_within_budget (hr : RecordsBeside settings d₀ server₀ σ)
    (hexact : CountsExactly settings σ) : WithinBudget settings σ := by
  obtain ⟨h, hh⟩ := System.traced_of_recorded hr
  have hmoved : Moved settings h := hh.moved
  have hchained := hh.chained
  refine ⟨fun i p r hp hr' => charged_of_commit (permitted_of_records hr hp) hr', ?_, ?_⟩
  · intro check expiry is hnodup his
    have hcounts := counts_charges check hmoved hchained
    have hwithin := exact_of_charges check hh hexact
    have his' : ∀ i ∈ is, ∃ p m, σ.procs i = some p ∧ Spends settings check p m ∧
        decide ((answerTo settings check m).expiry = some expiry) = true := by
      intro i hi
      obtain ⟨p, m, hp, hm, hexpiry⟩ := his i hi
      have hafter : m.after.2.keys (RateLimiter.key settings check) =
          (answerTo settings check m).entry := by
        rw [hmoved _ (hh.mem hp hm.mem)]
        exact feed_onKey (hm.passes hr hp).1
      rw [hafter] at hexpiry
      exact ⟨p, m, hp, hm, decide_eq_true hexpiry⟩
    have hle := length_le_passed (P := fun a => decide (a.expiry = some expiry)) hr hh hnodup his'
    rw [visits_charges hmoved hchained] at hcounts hle hwithin
    refine (hle.trans (length_passed_le hwithin fun a tick hP _ hexpiry => ?_)).trans
      (hcounts.window_le _ expiry)
    rw [of_decide_eq_true hP, Option.some.injEq] at hexpiry
    exact decide_eq_true hexpiry.symm
  · intro check start is hnodup his
    have hcounts := counts_charges check hmoved hchained
    have hwithin := exact_of_charges check hh hexact
    let inside (time : Nat) : Bool := decide (start ≤ time) &&
      decide (time < start + 1000 * RateLimiter.windowSeconds settings check)
    have his' : ∀ i ∈ is, ∃ p m, σ.procs i = some p ∧ Spends settings check p m ∧
        inside (answerTo settings check m).visit.time = true := by
      intro i hi
      obtain ⟨p, m, hp, hm, hfrom, hto⟩ := his i hi
      refine ⟨p, m, hp, hm, Bool.and_eq_true_iff.mpr ?_⟩
      exact ⟨decide_eq_true hfrom, decide_eq_true hto⟩
    have hle := length_le_passed (P := fun a => inside a.visit.time) hr hh hnodup his'
    rw [visits_charges hmoved hchained] at hcounts hle hwithin
    refine (hle.trans (length_passed_le hwithin fun a tick hP htime _ => ?_)).trans
      (hcounts.interval_le _ start)
    exact htime ▸ hP

end Runs

end Budget

/-! ### The second task of a minute -/

def oneWrite : Settings := { rateLimitWriteLimit := 1 }

def memberCreatesTask : Request :=
  .createTask (some "member") 1 (TaskCreate.validate "task" 1 none)

/-- Two tasks are created in turns, and the second is refused. -/
def twoTasks : List (Event Request Turn) :=
  [.spawn 0 memberCreatesTask, .spawn 1 memberCreatesTask] ++
    ((List.range 4).flatMap fun _ => [.call 0 { elapsed := 10 }, .call 1 { elapsed := 10 }]) ++
      List.replicate 3 (.call 0 {})

/-- Every check among these calls finds a counter below `2 ^ 53`. -/
def smallCounts [PyText] (settings : Settings) (log : BudgetLog) : Bool :=
  log.all fun m => match m.op with
    | .checkRateLimit c => decide (counted (m.env.time m.before.2)
        (m.before.2.keys (RateLimiter.key settings c)) < 2 ^ 53)
    | _ => true

theorem countsExactly_of_smallCounts [PyText] {settings : Settings}
    {σ : System Request Call Call.Res Response (Session × BudgetLog) (Database × RedisServer)}
    (h : ∀ i p, σ.procs i = some p → smallCounts settings p.loc.2 = true) :
    CountsExactly settings σ := by
  intro i p m c hp hm hop
  have hsmall := List.all_eq_true.mp (h i p hp) m hm
  simp only [hop] at hsmall
  exact of_decide_eq_true hsmall

theorem commits_within_budget_tasks :
    let _ := sampleCollation
    let _ := digestText
    ∃ σ created, (σ.procs 0).bind (fun p => p.prog.value?) = some (.ok (.task created)) ∧
      (σ.procs 1).bind (fun p => p.prog.value?) =
        some (.error (.app (rateLimitExceededError 1 60))) ∧ WithinBudget oneWrite σ := by
  intro collation text
  let created : TaskResponse :=
    { id := 2, title := "task", priority := 1, description := none, workspaceId := 1
      creatorId := 2, assigneeId := none, status := .todo, createdAt := 0, updatedAt := 0 }
  let server : RedisServer := ⟨fun _ => none, 0⟩
  have hends : ((System.replay (limitedMachine oneWrite).recording
      (workload.recording Turn (Database × RedisServer)) (fun x => Session.heldKeys x.1) 2
      (System.start (sampleDatabase, server)) twoTasks).map fun σ =>
        ((σ.procs 0).bind fun p => p.prog.value?, (σ.procs 1).bind fun p => p.prog.value?,
          (σ.procs 0).all fun p => smallCounts oneWrite p.loc.2,
          (σ.procs 1).all fun p => smallCounts oneWrite p.loc.2)) =
      some (some (.ok (.task created)), some (.error (.app (rateLimitExceededError 1 60))),
        true, true) := by
    decide +kernel
  obtain ⟨σ, hreplay, hvalues⟩ := Option.map_eq_some_iff.mp hends
  simp only [Prod.mk.injEq] at hvalues
  obtain ⟨hcreated, hrefused, hfirst, hsecond⟩ := hvalues
  have hruns := System.runs_of_replay (fun _ _ hk => Session.mem_heldKeys.mpr hk)
    (System.below_start 2 (sampleDatabase, server)) hreplay
  have hr : RecordsBeside oneWrite sampleDatabase server σ :=
    hruns.reachable (fun _ _ _ _ _ => trivial) (fun _ _ _ => trivial) .start
  have hsmall : ∀ i p, σ.procs i = some p → smallCounts oneWrite p.loc.2 = true := by
    intro i p hp
    match i with
    | 0 => exact Option.all_eq_true _ _ |>.mp hfirst p hp
    | 1 => exact Option.all_eq_true _ _ |>.mp hsecond p hp
    | i + 2 =>
        have hnone := System.below_of_replay (fun _ _ hk => Session.mem_heldKeys.mpr hk)
          (System.below_start 2 (sampleDatabase, server)) hreplay (i + 2) (Nat.le_add_left 2 i)
        cases hnone.symm.trans hp
  exact ⟨σ, created, hcreated, hrefused,
    commits_within_budget hr (countsExactly_of_smallCounts hsmall)⟩

end TaskPlatform
