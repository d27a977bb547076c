import Mathlib.Data.DFinsupp.WellFounded
import TaskPlatform.Transaction.Schedule
import TaskPlatform.Transaction.WaitsFor

/-!
# Running to the end

A program is a tree of finite height along each branch, so finitely many processes
cannot issue calls forever (`System.acc_of_below`), whatever the calls answer.

A process that has ended holds no lock if its program lets go of all locks in its last
call (`Prog.EndsWith`).  When nobody waits for himself, some process can go on
(`System.exists_free`), so what is begun is also ended (`System.exists_finish`).
-/

namespace TaskPlatform
namespace Transaction

variable {T Op : Type} {Res : Op → Type} {Env L D K α β : Type}

namespace Prog

/-- A call and what is left of the program after it. -/
inductive After : Option (Prog Op Res α) → Option (Prog Op Res α) → Prop where
  | call (o : Op) (k : Res o → Prog Op Res α) (r : Res o) : After (some (k r)) (some (.call o k))

theorem after_wellFounded : WellFounded (After : Option (Prog Op Res α) → _ → Prop) := by
  refine ⟨fun p => ?_⟩
  cases p with
  | none => exact Acc.intro _ fun q h => by cases h
  | some p =>
      induction p with
      | ret a => exact Acc.intro _ fun q h => by cases h
      | call o k ih =>
          refine Acc.intro _ fun q h => ?_
          cases h with
          | call _ _ r => exact ih r

/-- The program issues `last` before it ends, and nothing after it. -/
inductive EndsWith (last : Op) : Prog Op Res α → Prop where
  | last {k : Res last → Prog Op Res α} (h : ∀ r, (k r).isCall = false) :
      EndsWith last (.call last k)
  | call {o : Op} {k : Res o → Prog Op Res α} (h : ∀ r, EndsWith last (k r)) :
      EndsWith last (.call o k)

theorem EndsWith.bind {last : Op} (p : Prog Op Res α) {f : α → Prog Op Res β}
    (hf : ∀ a, EndsWith last (f a)) : EndsWith last (p >>= f) := by
  induction p with
  | ret a => exact hf a
  | call o k ih => exact .call ih

end Prog

/-- A relation without cycles has a maximal element in each inhabited part of a finite
type. -/
theorem exists_maximal_of_acyclic {ι : Type} [Finite ι] {r : ι → ι → Prop}
    (h : ∀ i, ¬ Relation.TransGen r i i) {S : Set ι} (hS : S.Nonempty) :
    ∃ i ∈ S, ∀ j ∈ S, ¬ r i j := by
  have : IsTrans ι (Function.swap (Relation.TransGen r)) :=
    ⟨fun _ _ _ hab hbc => Relation.TransGen.trans hbc hab⟩
  have : Std.Irrefl (Function.swap (Relation.TransGen r)) := ⟨h⟩
  have hwf := Finite.wellFounded_of_trans_of_irrefl (Function.swap (Relation.TransGen r))
  obtain ⟨i, hi, hmax⟩ := hwf.has_min S hS
  exact ⟨i, hi, fun j hj hij => hmax j hj (.single hij)⟩

namespace System

variable {M : Machine Op Res Env L D K} {W : Workload T Op Res α L} {allowed : T → Prop}
  {assume : T → L → D → L → D → Prop} {d₀ : D} {σ σ' : System T Op Res α L D} {n : Nat}

/-! ## No endless run -/

theorem below_of_reachable (hr : Reachable M W allowed assume d₀ σ) : ∃ n, Below n σ := by
  induction hr with
  | start => exact ⟨0, below_start 0 d₀⟩
  | step _ hs ih =>
      obtain ⟨n, hn⟩ := ih
      cases hs with
      | spawn i t _ hi =>
          refine ⟨max n (i + 1), fun j hj => ?_⟩
          rw [max_le_iff] at hj
          have hne : j ≠ i := by omega
          exact (Function.update_of_ne hne _ _).trans (hn j hj.1)
      | @call _ i _ _ _ h _ =>
          cases h with
          | call env hp _ =>
              refine ⟨n, fun j hj => ?_⟩
              by_cases hij : j = i
              · subst hij
                rw [hn j hj] at hp
                cases hp
              · exact (Function.update_of_ne hij _ _).trans (hn j hj)

/-- What is left of the first `n` processes. -/
def left (n : Nat) (σ : System T Op Res α L D) : Fin n → Option (Prog Op Res α) :=
  fun i => (σ.procs i).map Proc.prog

theorem below_of_does {i : Nat} {env : Env} (hσ : Below n σ)
    (hs : Does M W (.call i env) σ σ') : Below n σ' ∧
      Pi.Lex (· < ·) (fun {_} => Prog.After) (left n σ') (left n σ) := by
  cases hs with
  | @call _ _ t o k l _ hp hfree =>
      have hi : i < n := by
        by_contra hle
        rw [hσ i (Nat.le_of_not_lt hle)] at hp
        cases hp
      refine ⟨Below.set (σ := { σ with shared := _ }) hσ hi _, ⟨i, hi⟩, fun j hj => ?_, ?_⟩
      · have hne : j.val ≠ i := fun heq => absurd hj (by simp [Fin.lt_def, heq])
        exact congrArg (Option.map Proc.prog) (set_procs_of_ne (σ := { σ with shared := _ }) hne)
      · simp only [left, after, set_procs_self, hp, Option.map_some]
        exact .call o k _

/-- Without arrivals, finitely many processes come to an end in every order of their
steps. -/
theorem acc_of_below (hσ : Below n σ) :
    Acc (fun σ' σ => ∃ i env, Does M W (.call i env) σ σ') σ := by
  have hwf := Pi.Lex.wellFounded (r := (· < ·))
    (s := fun (_ : Fin n) (p q : Option (Prog Op Res α)) => Prog.After p q)
    fun _ => Prog.after_wellFounded
  generalize hleft : left n σ = x
  induction hwf.apply x generalizing σ with
  | intro x _ ih =>
      refine Acc.intro σ fun σ' hs => ?_
      obtain ⟨i, env, hs⟩ := hs
      obtain ⟨hσ', hless⟩ := below_of_does hσ hs
      exact ih _ (hleft ▸ hless) hσ' rfl

/-! ## Somebody can go on -/

/-- The processes that have not ended. -/
def unfinished (σ : System T Op Res α L D) : Set Nat :=
  {i | ∃ p, σ.procs i = some p ∧ p.prog.isCall = true}

/-- A process that has ended has let go of its locks. -/
def Released (M : Machine Op Res Env L D K) (σ : System T Op Res α L D) : Prop :=
  ∀ i p, σ.procs i = some p → p.prog.isCall = false → ∀ k, ¬ M.locks p.loc k

theorem released_of_reachable {last : Op}
    (hlast : ∀ env l d k, ¬ M.locks (M.exec env last l d).2.1 k)
    (hprog : ∀ t, (W.program t).EndsWith last) (hr : Reachable M W allowed assume d₀ σ) :
    Released M σ := by
  have h : ∀ i p, σ.procs i = some p → p.prog.EndsWith last ∨
      (p.prog.isCall = false ∧ ∀ k, ¬ M.locks p.loc k) := by
    induction hr with
    | start => exact fun i p hp => by cases hp
    | step _ hs ih =>
        cases hs with
        | spawn i t _ _ => exact forall_update (Or.inl (hprog t)) fun j q _ hq => ih j q hq
        | call h _ =>
            cases h with
            | call env hp hfree =>
                refine forall_update ?_ fun j q _ hq => ih j q hq
                rcases ih _ _ hp with hends | hended
                · cases hends with
                  | last hret => exact Or.inr ⟨hret _, hlast _ _ _⟩
                  | call hk => exact Or.inl (hk _)
                · cases hended.1
  intro i p hp hended
  rcases h i p hp with hends | hended
  · obtain ⟨t, prog, l⟩ := p
    cases hends with
    | last _ => cases hended
    | call _ => cases hended
  · exact hended.2

/-- When no process waits for itself, one can issue its next call. -/
theorem exists_free (hσ : Below n σ) (hreleased : Released M σ)
    (hacyclic : ∀ i, ¬ Relation.TransGen
      (fun i j => ∃ k, Waits M (fun _ _ _ _ _ => True) σ i k j) i i)
    (hsome : σ.unfinished.Nonempty) (env : Env) :
    ∃ i σ', Does M W (.call i env) σ σ' := by
  have hbelow : ∀ i ∈ σ.unfinished, i < n := by
    intro i hi
    obtain ⟨p, hp, _⟩ := hi
    by_contra hle
    rw [hσ i (Nat.le_of_not_lt hle)] at hp
    cases hp
  have hcycle : ∀ i : Fin n, ¬ Relation.TransGen (fun i j : Fin n =>
      ∃ k, Waits M (fun _ _ _ _ _ => True) σ i k j) i i := fun i h =>
    hacyclic i (h.lift Fin.val fun _ _ hij => hij)
  obtain ⟨i, hi⟩ := hsome
  obtain ⟨i, ⟨⟨t, prog, l⟩, hp, hcall⟩, hmax⟩ := exists_maximal_of_acyclic hcycle
    (S := {i | i.val ∈ σ.unfinished}) ⟨⟨i, hbelow i hi⟩, hi⟩
  cases prog with
  | ret a => cases hcall
  | call o k =>
      refine ⟨i, _, .call hp fun j q hj hq key hk hheld => ?_⟩
      -- whoever holds the lock has not ended, and `i` would wait for him
      have hj' : j ∈ σ.unfinished := by
        refine ⟨q, hq, Bool.eq_true_of_not_eq_false fun hended => ?_⟩
        exact hreleased j q hq hended key hheld
      exact hmax ⟨j, hbelow j hj'⟩ hj' ⟨key, .intro env hp hq (Ne.symm hj) trivial hk hheld⟩

/-- Where somebody can always go on, everybody comes to an end, under any answers. -/
theorem exists_finish {I : System T Op Res α L D → Prop}
    (hstep : ∀ σ σ' i env, I σ → Does M W (.call i env) σ σ' → I σ')
    (hfree : ∀ σ, I σ → σ.unfinished.Nonempty → ∀ env, ∃ i σ', Does M W (.call i env) σ σ')
    (hσ : Below n σ) (hI : I σ) (env : Env) :
    ∃ (is : List Nat) (σ' : _), Runs M W σ (is.map fun i => .call i env) σ' ∧
      ¬ σ'.unfinished.Nonempty := by
  induction acc_of_below (M := M) (W := W) hσ with
  | intro σ _ ih =>
      by_cases hsome : σ.unfinished.Nonempty
      · obtain ⟨i, σ₁, hdoes⟩ := hfree σ hI hsome env
        obtain ⟨is, σ', hruns, hended⟩ := ih σ₁ ⟨i, env, hdoes⟩ (below_of_does hσ hdoes).1
          (hstep σ σ₁ i env hI hdoes)
        exact ⟨i :: is, σ', .cons hdoes hruns, hended⟩
      · exact ⟨[], σ, .nil σ, hsome⟩

end System
end Transaction
end TaskPlatform
