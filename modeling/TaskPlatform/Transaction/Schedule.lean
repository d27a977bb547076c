import TaskPlatform.Transaction.Interleaving

/-!
# Schedules

A schedule is a list of events: a process is started, or a process issues its next
call.  `Runs` is what a schedule does to a system.  `replay` computes it when a bound
on the processes and the locks of a local state are given.
-/

namespace TaskPlatform
namespace Transaction

variable {T Op : Type} {Res : Op → Type} {Env L D K α : Type}

inductive Event (T Env : Type) where
  | spawn (i : Nat) (t : T)
  | call (i : Nat) (env : Env)

/-- The process an event is about. -/
def Event.proc : Event T Env → Nat
  | .spawn i _ => i
  | .call i _ => i

namespace System

/-- Put a process in place. -/
def set (σ : System T Op Res α L D) (i : Nat) (p : Proc T Op Res α L) : System T Op Res α L D :=
  { σ with procs := Function.update σ.procs i (some p) }

section Set

variable {σ : System T Op Res α L D} {i j : Nat} {p : Proc T Op Res α L}

@[simp] theorem set_procs_self : (σ.set i p).procs i = some p := Function.update_self ..

theorem set_procs_of_ne (h : j ≠ i) : (σ.set i p).procs j = σ.procs j :=
  Function.update_of_ne h ..

theorem isSome_set_procs (h : j = i ∨ (σ.procs j).isSome = true) :
    ((σ.set i p).procs j).isSome = true := by
  by_cases hj : j = i
  · rw [hj, set_procs_self]
    rfl
  · rw [set_procs_of_ne hj]
    exact h.resolve_left hj

end Set

variable (M : Machine Op Res Env L D K) (W : Workload T Op Res α L)

/-- Process `i` after its next call `o`. -/
def after (σ : System T Op Res α L D) (i : Nat) (t : T) (env : Env) (o : Op)
    (k : Res o → Prog Op Res α) (l : L) : System T Op Res α L D :=
  let x := M.exec env o l σ.shared
  { σ with shared := x.2.2 }.set i ⟨t, k x.1, x.2.1⟩

inductive Does : Event T Env → System T Op Res α L D → System T Op Res α L D → Prop where
  | spawn {σ : System T Op Res α L D} {i : Nat} {t : T} (hi : σ.procs i = none) :
      Does (.spawn i t) σ (σ.set i ⟨t, W.program t, W.init⟩)
  | call {σ : System T Op Res α L D} {i : Nat} {t : T} {o : Op} {k : Res o → Prog Op Res α}
      {l : L} {env : Env} (hp : σ.procs i = some ⟨t, .call o k, l⟩)
      (hfree : Free M σ i (M.exec env o l σ.shared).2.1) :
      Does (.call i env) σ (σ.after M i t env o k l)

inductive Runs : System T Op Res α L D → List (Event T Env) → System T Op Res α L D → Prop where
  | nil (σ : System T Op Res α L D) : Runs σ [] σ
  | cons {e : Event T Env} {es : List (Event T Env)} {σ σ' σ'' : System T Op Res α L D}
      (hd : Does M W e σ σ') (h : Runs σ' es σ'') : Runs σ (e :: es) σ''

/-- A run whose steps meet a condition on the event and the state it finds. -/
inductive RunsWhere (cond : Event T Env → System T Op Res α L D → Prop) :
    System T Op Res α L D → List (Event T Env) → System T Op Res α L D → Prop where
  | nil (σ : System T Op Res α L D) : RunsWhere cond σ [] σ
  | cons {e : Event T Env} {es : List (Event T Env)} {σ σ' σ'' : System T Op Res α L D}
      (hc : cond e σ) (hd : Does M W e σ σ') (h : RunsWhere cond σ' es σ'') :
      RunsWhere cond σ (e :: es) σ''

/-- The processes a schedule starts satisfy `allowed`. -/
def Starts (allowed : T → Prop) (es : List (Event T Env)) : Prop :=
  ∀ i t, Event.spawn i t ∈ es → allowed t

variable {M W} {σ σ' : System T Op Res α L D} {e : Event T Env} {es : List (Event T Env)}

theorem RunsWhere.runs {cond : Event T Env → System T Op Res α L D → Prop}
    (h : RunsWhere M W cond σ es σ') : Runs M W σ es σ' := by
  induction h with
  | nil σ => exact .nil σ
  | cons _ hd _ ih => exact .cons hd ih

/-- What every step that meets the condition keeps, the run keeps. -/
theorem RunsWhere.keeps {cond : Event T Env → System T Op Res α L D → Prop}
    {I : System T Op Res α L D → Prop}
    (hstep : ∀ e σ σ', e ∈ es → cond e σ → Does M W e σ σ' → I σ → I σ')
    (h : RunsWhere M W cond σ es σ') (hσ : I σ) : I σ' := by
  induction h with
  | nil σ => exact hσ
  | @cons e es σ σ₁ σ₂ hc hd _ ih =>
      refine ih (fun e' σ σ' he' => hstep e' σ σ' (List.mem_cons_of_mem e he')) ?_
      exact hstep e σ σ₁ List.mem_cons_self hc hd hσ

/-- A step of a schedule is a step of the system. -/
theorem Does.reachable {allowed : T → Prop} {assume : T → L → D → L → D → Prop} {d : D}
    (hassume : ∀ t l d l' d', assume t l d l' d') (hd : Does M W e σ σ')
    (he : ∀ i t, e = .spawn i t → allowed t) (h : Reachable M W allowed assume d σ) :
    Reachable M W allowed assume d σ' := by
  cases hd with
  | spawn hi => exact h.step (.spawn _ _ (he _ _ rfl) hi)
  | call hp hfree => exact h.step (.call (.call _ hp hfree) (hassume _ _ _ _ _))

/-- What schedules reach is reachable. -/
theorem Runs.reachable {allowed : T → Prop} {assume : T → L → D → L → D → Prop} {d : D}
    (hassume : ∀ t l d l' d', assume t l d l' d') (hr : Runs M W σ es σ')
    (hes : Starts allowed es) (h : Reachable M W allowed assume d σ) :
    Reachable M W allowed assume d σ' := by
  induction hr with
  | nil σ => exact h
  | cons hd _ ih =>
      refine ih (fun i t ht => hes i t (List.mem_cons_of_mem _ ht)) ?_
      exact hd.reachable hassume (fun i t he => hes i t (he ▸ List.mem_cons_self)) h

/-! ### Replay -/

section Replay

variable [DecidableEq K] (M W) (held : L → List K) (n : Nat)

/-- No process below `n` but `i` holds a lock that `l` holds. -/
def isFree (σ : System T Op Res α L D) (i : Nat) (l : L) : Bool :=
  (List.range n).all fun j => j == i ||
    match σ.procs j with
    | none => true
    | some q => (held l).all fun k => !(held q.loc).contains k

def replayEvent (σ : System T Op Res α L D) : Event T Env → Option (System T Op Res α L D)
  | .spawn i t =>
    if i < n ∧ (σ.procs i).isNone then some (σ.set i ⟨t, W.program t, W.init⟩) else none
  | .call i env =>
    match σ.procs i with
    | some ⟨t, .call o k, l⟩ =>
      if isFree held n σ i (M.exec env o l σ.shared).2.1 then some (σ.after M i t env o k l)
      else none
    | _ => none

def replay (σ : System T Op Res α L D) :
    List (Event T Env) → Option (System T Op Res α L D)
  | [] => some σ
  | e :: es => (replayEvent M W held n σ e).bind fun σ' => replay σ' es

/-- Replay as long as a condition holds. -/
def replayWhere (cond : Event T Env → System T Op Res α L D → Prop)
    [∀ e σ, Decidable (cond e σ)] (σ : System T Op Res α L D) :
    List (Event T Env) → Option (System T Op Res α L D)
  | [] => some σ
  | e :: es =>
    if cond e σ then (replayEvent M W held n σ e).bind fun σ' => replayWhere cond σ' es
    else none

variable {M W held n}

/-- There are no processes from `n` on. -/
def Below (n : Nat) (σ : System T Op Res α L D) : Prop := ∀ i, n ≤ i → σ.procs i = none

theorem free_of_isFree (hheld : ∀ l k, M.locks l k → k ∈ held l) (hσ : Below n σ) {i : Nat}
    {l : L} (h : isFree held n σ i l = true) : Free M σ i l := by
  intro j q hj hq k hk hk'
  by_cases hn : j < n
  · have hall := List.all_eq_true.mp h j (List.mem_range.mpr hn)
    simp only [hq, Bool.or_eq_true, beq_iff_eq, hj, false_or] at hall
    have hnot := List.all_eq_true.mp hall k (hheld l k hk)
    rw [List.contains_iff_mem.mpr (hheld q.loc k hk')] at hnot
    cases hnot
  · rw [hσ j (Nat.le_of_not_lt hn)] at hq
    cases hq

theorem Below.set (hσ : Below n σ) {i : Nat} (hi : i < n) (p : Proc T Op Res α L) :
    Below n (σ.set i p) := by
  intro j hj
  have hne : j ≠ i := fun h => Nat.lt_irrefl n (Nat.lt_of_le_of_lt (h ▸ hj) hi)
  exact (Function.update_of_ne hne _ _).trans (hσ j hj)

theorem does_of_replayEvent (hheld : ∀ l k, M.locks l k → k ∈ held l) (hσ : Below n σ)
    (h : replayEvent M W held n σ e = some σ') : Does M W e σ σ' ∧ Below n σ' := by
  cases e with
  | spawn i t =>
      simp only [replayEvent] at h
      split at h
      · rename_i hi
        cases h
        exact ⟨.spawn (Option.isNone_iff_eq_none.mp hi.2), hσ.set hi.1 _⟩
      · cases h
  | call i env =>
      simp only [replayEvent] at h
      split at h
      · rename_i t o k l hp
        split at h
        · rename_i hfree
          cases h
          refine ⟨.call hp (free_of_isFree hheld hσ hfree), ?_⟩
          have hi : i < n := by
            refine Nat.lt_of_not_le fun hle => ?_
            rw [hσ i hle] at hp
            cases hp
          exact Below.set (σ := { σ with shared := _ }) hσ hi _
        · cases h
      · cases h

theorem runsWhere_of_replay {cond : Event T Env → System T Op Res α L D → Prop}
    [∀ e σ, Decidable (cond e σ)] (hheld : ∀ l k, M.locks l k → k ∈ held l) (hσ : Below n σ)
    (h : replayWhere M W held n cond σ es = some σ') :
    RunsWhere M W cond σ es σ' ∧ Below n σ' := by
  induction es generalizing σ with
  | nil =>
      cases h
      exact ⟨.nil _, hσ⟩
  | cons e es ih =>
      rw [replayWhere] at h
      split at h
      · rename_i hc
        obtain ⟨σ₁, he, hes⟩ := Option.bind_eq_some_iff.mp h
        obtain ⟨hdoes, hbelow⟩ := does_of_replayEvent hheld hσ he
        obtain ⟨hruns, hbelow'⟩ := ih hbelow hes
        exact ⟨.cons hc hdoes hruns, hbelow'⟩
      · cases h

theorem runs_of_replay (hheld : ∀ l k, M.locks l k → k ∈ held l) (hσ : Below n σ)
    (h : replay M W held n σ es = some σ') : Runs M W σ es σ' := by
  induction es generalizing σ with
  | nil =>
      cases h
      exact .nil _
  | cons e es ih =>
      obtain ⟨σ₁, he, hes⟩ := Option.bind_eq_some_iff.mp h
      obtain ⟨hdoes, hbelow⟩ := does_of_replayEvent hheld hσ he
      exact .cons hdoes (ih hbelow hes)

theorem below_of_replay (hheld : ∀ l k, M.locks l k → k ∈ held l) (hσ : Below n σ)
    (h : replay M W held n σ es = some σ') : Below n σ' := by
  induction es generalizing σ with
  | nil =>
      cases h
      exact hσ
  | cons e es ih =>
      obtain ⟨σ₁, he, hes⟩ := Option.bind_eq_some_iff.mp h
      exact ih (does_of_replayEvent hheld hσ he).2 hes

theorem below_start (n : Nat) (d : D) : Below n (start d : System T Op Res α L D) :=
  fun _ _ => rfl

end Replay
end System
end Transaction
end TaskPlatform
