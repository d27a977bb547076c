import Mathlib.Logic.Function.Basic
import TaskPlatform.Transaction.Program

/-!
# Interleavings of transactions

A system is a shared state and any number of processes, each of which holds a
local state and what is left of its program.  One step issues the next call of
one process.  The call may not take a lock that another process holds, so a
process that needs one has no step until the holder lets go of it.

A `Protocol` is a rely-guarantee argument about such systems: an invariant of
the shared state, a relation every step stays within, and for each lock the way
the shared state may still change while someone else holds that lock.
`Protocol.coherent_of_reachable` turns one `wp` proof for each program into facts
about all interleavings.
-/

namespace TaskPlatform
namespace Transaction

/-- A process of tag `tag` with the program it has left to run. -/
structure Proc (T : Type) (Op : Type) (Res : Op → Type) (α L : Type) where
  tag : T
  prog : Prog Op Res α
  loc : L

structure System (T : Type) (Op : Type) (Res : Op → Type) (α L D : Type) where
  shared : D
  procs : Nat → Option (Proc T Op Res α L)

variable {T Op : Type} {Res : Op → Type} {Env L D K α : Type}

/-- The programs of a system by tag, and the local state each begins with. -/
structure Workload (T Op : Type) (Res : Op → Type) (α L : Type) where
  program : T → Prog Op Res α
  init : L

namespace System

variable (M : Machine Op Res Env L D K) (W : Workload T Op Res α L)

def start (d : D) : System T Op Res α L D := ⟨d, fun _ => none⟩

section Update

variable {procs : Nat → Option (Proc T Op Res α L)} {i : Nat} {p : Proc T Op Res α L}

/-- What holds of the process that was put in place and of the others holds of all. -/
theorem forall_update {Q : Nat → Proc T Op Res α L → Prop} (hi : Q i p)
    (hother : ∀ j q, j ≠ i → procs j = some q → Q j q) :
    ∀ j q, Function.update procs i (some p) j = some q → Q j q := by
  intro j q hq
  by_cases hj : j = i
  · subst hj
    rw [Function.update_self, Option.some.injEq] at hq
    rw [← hq]
    exact hi
  · rw [Function.update_of_ne hj] at hq
    exact hother j q hj hq

/-- The same for what holds between two processes. -/
theorem pairwise_update {R : Proc T Op Res α L → Proc T Op Res α L → Prop}
    (hsymm : ∀ p q, R p q → R q p)
    (hold : ∀ a b q r, a ≠ b → procs a = some q → procs b = some r → R q r)
    (hi : ∀ j q, j ≠ i → procs j = some q → R p q) :
    ∀ a b q r, a ≠ b → Function.update procs i (some p) a = some q →
      Function.update procs i (some p) b = some r → R q r := by
  intro a b q r hab hq hr
  revert hab
  revert b r hr
  refine forall_update (Q := fun a q => ∀ b r, Function.update procs i (some p) b = some r →
    a ≠ b → R q r) ?_ (fun a q ha hq => ?_) a q hq
  · exact forall_update (fun h => absurd rfl h) fun b r hb hr _ => hi b r hb hr
  · exact forall_update (fun _ => hsymm p q (hi a q ha hq)) fun b r _ hr hab =>
      hold a b q r hab hq hr

end Update

/-- Process `i` may move to local state `l` if no other process holds a lock
that `l` holds. -/
def Free (σ : System T Op Res α L D) (i : Nat) (l : L) : Prop :=
  ∀ j q, j ≠ i → σ.procs j = some q → ∀ k, M.locks l k → ¬ M.locks q.loc k

/-- Process `i`, of tag `t`, issues its next call and moves from local state `l`
to `l'`. -/
inductive CallStep (i : Nat) (t : T) (l : L) :
    L → System T Op Res α L D → System T Op Res α L D → Prop where
  | call {σ : System T Op Res α L D} {o : Op} {k : Res o → Prog Op Res α} (env : Env)
      (hp : σ.procs i = some ⟨t, .call o k, l⟩)
      (hfree : Free M σ i (M.exec env o l σ.shared).2.1) :
      CallStep i t l (M.exec env o l σ.shared).2.1 σ
        { shared := (M.exec env o l σ.shared).2.2
          procs := Function.update σ.procs i (some
            ⟨t, k (M.exec env o l σ.shared).1, (M.exec env o l σ.shared).2.1⟩) }

inductive Step (allowed : T → Prop) (assume : T → L → D → L → D → Prop) :
    System T Op Res α L D → System T Op Res α L D → Prop where
  | spawn {σ : System T Op Res α L D} (i : Nat) (t : T) (ht : allowed t)
      (hi : σ.procs i = none) :
      Step allowed assume σ
        { σ with procs := Function.update σ.procs i (some ⟨t, W.program t, W.init⟩) }
  | call {σ σ' : System T Op Res α L D} {i : Nat} {t : T} {l l' : L}
      (h : CallStep M i t l l' σ σ') (ha : assume t l σ.shared l' σ'.shared) :
      Step allowed assume σ σ'

inductive Reachable (allowed : T → Prop) (assume : T → L → D → L → D → Prop) (d : D) :
    System T Op Res α L D → Prop where
  | start : Reachable allowed assume d (start d)
  | step {σ σ' : System T Op Res α L D} (h : Reachable allowed assume d σ)
      (hs : Step M W allowed assume σ σ') : Reachable allowed assume d σ'

/-! ### One process on its own -/

/-- The system in which `i` is the only process. -/
def solo (i : Nat) (t : T) (x : Progress Op Res α L D) : System T Op Res α L D :=
  ⟨x.shared, Function.update (fun _ => none) i (some ⟨t, x.prog, x.loc⟩)⟩

variable {M W}

theorem callStep_advance {i : Nat} {t : T} (env : Env) {x : Progress Op Res α L D}
    (hx : x.prog.isCall = true) :
    CallStep M i t x.loc (M.advance env x).loc (solo i t x) (solo i t (M.advance env x)) := by
  obtain ⟨p, l, d⟩ := x
  cases p with
  | ret a => cases hx
  | call o k =>
      have hproc : (solo i t ⟨.call o k, l, d⟩).procs i = some ⟨t, .call o k, l⟩ := by
        simp only [solo, Function.update_self]
      have hfree : Free M (solo i t ⟨.call o k, l, d⟩) i (M.exec env o l d).2.1 := by
        intro j q hj hq
        simp only [solo, Function.update_of_ne hj] at hq
        cases hq
      have hnext : solo i t (M.advance env ⟨.call o k, l, d⟩) =
          { shared := (M.exec env o l d).2.2
            procs := Function.update (solo i t ⟨.call o k, l, d⟩).procs i (some
              ⟨t, k (M.exec env o l d).1, (M.exec env o l d).2.1⟩) } := by
        rw [solo, solo, Function.update_idem]
        rfl
      rw [hnext]
      exact CallStep.call env hproc hfree

theorem reachable_advanceN {allowed : T → Prop} {assume : T → L → D → L → D → Prop} {d : D}
    {i : Nat} {t : T} {x : Progress Op Res α L D}
    (hassume : ∀ l d l' d', assume t l d l' d') (env : Nat → Env) (n : Nat)
    (h : Reachable M W allowed assume d (solo i t x)) :
    Reachable M W allowed assume d (solo i t (M.advanceN env n x)) := by
  induction n with
  | zero => exact h
  | succ n ih =>
      revert ih
      rw [Machine.advanceN]
      rcases M.advanceN env n x with ⟨p, l', d'⟩
      intro ih
      cases p with
      | ret a => exact ih
      | call o k => exact ih.step (.call (callStep_advance (env n) rfl) (hassume _ _ _ _))

theorem reachable_spawn {allowed : T → Prop} {assume : T → L → D → L → D → Prop} {d : D}
    {i : Nat} {t : T} (ht : allowed t) :
    Reachable M W allowed assume d (solo i t ⟨W.program t, W.init, d⟩) :=
  Reachable.start.step (.spawn i t ht rfl)

end System

/-- A rely-guarantee argument.  `rely k` bounds the change while somebody else
holds `k`; `evolve` bounds every change. -/
structure Protocol (T L D K : Type) where
  inv : D → Prop
  evolve : D → D → Prop
  rely : K → D → D → Prop
  assume : T → L → D → L → D → Prop
  guar : T → L → D → L → D → Prop
  evolve_refl : ∀ d, evolve d d
  evolve_trans : ∀ {d₁ d₂ d₃}, evolve d₁ d₂ → evolve d₂ d₃ → evolve d₁ d₃
  rely_refl : ∀ k d, rely k d d
  rely_trans : ∀ {k d₁ d₂ d₃}, rely k d₁ d₂ → rely k d₂ d₃ → rely k d₁ d₃

namespace Protocol

variable (P : Protocol T L D K) (M : Machine Op Res Env L D K) (W : Workload T Op Res α L)

/-- What the rest of the system may do while a process is in local state `l`. -/
structure Interferes (l : L) (d d' : D) : Prop where
  inv : P.inv d'
  evolve : P.evolve d d'
  rely : ∀ k, M.locks l k → P.rely k d d'

/-- What a process owes for a step it takes from local state `l`: keys it holds
are its own to change. -/
structure Guarantees (t : T) (l : L) (d : D) (l' : L) (d' : D) : Prop where
  inv : P.inv d'
  evolve : P.evolve d d'
  rely : ∀ k, ¬ M.locks l k → P.rely k d d'
  guar : P.guar t l d l' d'

def contract (t : T) : Contract L D where
  interfere := P.Interferes M
  assume := P.assume t
  guarantee := P.Guarantees M t

theorem interferes_refl {d : D} (hd : P.inv d) (l : L) : P.Interferes M l d d :=
  ⟨hd, P.evolve_refl d, fun k _ => P.rely_refl k d⟩

theorem interferes_trans {l : L} {d₁ d₂ d₃ : D} (h : P.Interferes M l d₁ d₂)
    (h' : P.Interferes M l d₂ d₃) : P.Interferes M l d₁ d₃ :=
  ⟨h'.inv, P.evolve_trans h.evolve h'.evolve,
    fun k hk => P.rely_trans (h.rely k hk) (h'.rely k hk)⟩

/-- What a process has left to run is verified from where it stands. -/
def Verified (t : T) (p : Prog Op Res α) (l : L) (d : D) : Prop :=
  wp M (P.contract M t) p (fun _ _ _ => True) l d

/-- The invariant of the whole system. -/
structure Coherent (σ : System T Op Res α L D) : Prop where
  inv : P.inv σ.shared
  exclusive : ∀ i j p q, i ≠ j → σ.procs i = some p → σ.procs j = some q →
    ∀ k, M.locks p.loc k → ¬ M.locks q.loc k
  verified : ∀ i p, σ.procs i = some p → P.Verified M p.tag p.prog p.loc σ.shared

variable {P M W}

theorem verified_interferes {t : T} {p : Prog Op Res α} {l : L} {d d' : D}
    (hd : P.Interferes M l d d') (hp : P.Verified M t p l d) : P.Verified M t p l d' :=
  wp_interfere M (P.contract M t) (fun _ _ _ _ h h' => P.interferes_trans M h h')
    (fun _ _ _ _ _ h => h) hd hp

theorem coherent_start {d : D} (hd : P.inv d) :
    P.Coherent M (System.start d : System T Op Res α L D) where
  inv := hd
  exclusive := fun _ _ _ _ _ hi _ => by cases hi
  verified := fun _ _ hi => by cases hi

/-- A step of a coherent system keeps its guarantee. -/
theorem callStep_guarantees {σ σ' : System T Op Res α L D} {i : Nat} {t : T} {l l' : L}
    (hσ : P.Coherent M σ) (hs : System.CallStep M i t l l' σ σ')
    (ha : P.assume t l σ.shared l' σ'.shared) :
    P.Guarantees M t l σ.shared l' σ'.shared := by
  cases hs with
  | call env hp _ =>
      exact (hσ.verified i _ hp _ (P.interferes_refl M hσ.inv l) env ha).1

/-- For every other process it is interference. -/
theorem interferes_of_callStep {σ σ' : System T Op Res α L D} {i j : Nat} {t : T} {l l' : L}
    {q : Proc T Op Res α L} (hσ : P.Coherent M σ) (hs : System.CallStep M i t l l' σ σ')
    (ha : P.assume t l σ.shared l' σ'.shared) (hj : j ≠ i) (hq : σ.procs j = some q) :
    P.Interferes M q.loc σ.shared σ'.shared := by
  have hg := callStep_guarantees hσ hs ha
  cases hs with
  | call env hp _ =>
      exact ⟨hg.inv, hg.evolve, fun key hk =>
        hg.rely key (hσ.exclusive j i q _ hj hq hp key hk)⟩

theorem coherent_call {σ σ' : System T Op Res α L D} {i : Nat} {t : T} {l l' : L}
    (hσ : P.Coherent M σ) (hs : System.CallStep M i t l l' σ σ')
    (ha : P.assume t l σ.shared l' σ'.shared) :
    P.Coherent M σ' := by
  have hg := callStep_guarantees hσ hs ha
  have hother : ∀ j q, j ≠ i → σ.procs j = some q → P.Interferes M q.loc σ.shared σ'.shared :=
    fun _ _ => interferes_of_callStep hσ hs ha
  cases hs with
  | call env hp hfree =>
      refine ⟨hg.inv, ?_, ?_⟩
      · -- the moved process holds nothing the others hold, by `Free`
        exact System.pairwise_update (fun _ _ h key hk hk' => h key hk' hk) hσ.exclusive
          fun j q hj hq => hfree j q hj hq
      · refine System.forall_update ?_ fun j q hj hq => ?_
        · exact (hσ.verified i _ hp _ (P.interferes_refl M hσ.inv l) env ha).2
        · exact verified_interferes (hother j q hj hq) (hσ.verified j q hq)

/-- One `wp` proof for each admitted program gives the invariant of the system in
every reachable state of every interleaving. -/
theorem coherent_of_reachable {allowed : T → Prop} {d : D} {σ : System T Op Res α L D}
    (hlocks : ∀ k, ¬ M.locks W.init k)
    (hprog : ∀ t d, allowed t → P.inv d → P.Verified M t (W.program t) W.init d)
    (hd : P.inv d) (hr : System.Reachable M W allowed P.assume d σ) : P.Coherent M σ := by
  induction hr with
  | start => exact coherent_start hd
  | @step σ σ' _ hs ih =>
      cases hs with
      | call h ha => exact coherent_call ih h ha
      | spawn i t ht hi =>
          refine ⟨ih.inv, ?_, ?_⟩
          · exact System.pairwise_update (fun _ _ h key hk hk' => h key hk' hk) ih.exclusive
              fun _ _ _ _ key hk => absurd hk (hlocks key)
          · refine System.forall_update ?_ fun j q _ hq => ih.verified j q hq
            exact hprog t σ.shared ht ih.inv

/-- A program that runs alone keeps the invariant, if the protocol considers all
of its steps. -/
theorem run_inv {t : T} {p : Prog Op Res α} {l : L} {d : D}
    (hassume : ∀ l d l' d', P.assume t l d l' d') (hp : P.Verified M t p l d) (hd : P.inv d)
    (env : Nat → Env) (n : Nat) :
    P.inv (M.run env p n l d).shared ∧ P.evolve d (M.run env p n l d).shared := by
  induction p generalizing n l d with
  | ret a => exact ⟨hd, P.evolve_refl d⟩
  | call o k ih =>
      obtain ⟨hg, hk⟩ := hp d (P.interferes_refl M hd l) (env n) (hassume _ _ _ _)
      obtain ⟨hinv, hevolve⟩ := ih _ hk hg.inv (n + 1)
      exact ⟨hinv, P.evolve_trans hg.evolve hevolve⟩

end Protocol
end Transaction
end TaskPlatform
