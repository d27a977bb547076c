import Mathlib.Logic.Relation
import Mathlib.Order.Defs.PartialOrder
import TaskPlatform.Transaction.Interleaving

/-!
# Who waits for whom

A process waits for another when its next call would take a lock the other holds.
No process waits for itself, directly or through others, if each wait can be given a
rank that rises along every two waits in a row (`acyclic_of_rank`).

The guarantee of a protocol also speaks about the call a process is blocked at
(`Protocol.Coherent.waits`), so a discipline for taking locks is verified as any
other protocol.
-/

namespace TaskPlatform
namespace Transaction

/-- A rank of the edges that rises along every path excludes cycles. -/
theorem acyclic_of_rank {ι κ ρ : Type} [Preorder ρ] {waits : ι → κ → ι → Prop}
    (rank : ι → κ → ι → ρ)
    (hrank : ∀ i k j k' j', waits i k j → waits j k' j' → rank i k j < rank j k' j') (i : ι) :
    ¬ Relation.TransGen (fun i j => ∃ k, waits i k j) i i := by
  -- a path has a first and a last edge, and the first is not above the last
  have hpath : ∀ j, Relation.TransGen (fun i j => ∃ k, waits i k j) i j →
      ∃ k m k' m', waits i k m ∧ waits m' k' j ∧ rank i k m ≤ rank m' k' j := by
    intro j h
    induction h with
    | single h =>
        obtain ⟨k, hk⟩ := h
        exact ⟨k, _, k, _, hk, hk, le_refl _⟩
    | tail _ h ih =>
        obtain ⟨k, m, k', m', hfirst, hlast, hle⟩ := ih
        obtain ⟨k'', hk''⟩ := h
        exact ⟨k, m, k'', _, hfirst, hk'', le_trans hle (le_of_lt (hrank _ _ _ _ _ hlast hk''))⟩
  intro hcycle
  obtain ⟨k, m, k', m', hfirst, hlast, hle⟩ := hpath i hcycle
  exact lt_irrefl _ (lt_of_le_of_lt hle (hrank _ _ _ _ _ hlast hfirst))

variable {T Op : Type} {Res : Op → Type} {Env L D K α : Type}
  (M : Machine Op Res Env L D K)

/-- The next call of process `i` would take lock `k`, which process `j` holds. -/
inductive System.Waits (assume : T → L → D → L → D → Prop) (σ : System T Op Res α L D)
    (i : Nat) (k : K) (j : Nat) : Prop where
  | intro {t : T} {o : Op} {rest : Res o → Prog Op Res α} {l : L} {q : Proc T Op Res α L}
      (env : Env) (hi : σ.procs i = some ⟨t, .call o rest, l⟩) (hj : σ.procs j = some q)
      (hij : i ≠ j)
      (ha : assume t l σ.shared (M.exec env o l σ.shared).2.1 (M.exec env o l σ.shared).2.2)
      (hk : M.locks (M.exec env o l σ.shared).2.1 k) (hheld : M.locks q.loc k)

variable {M}

/-- The test of `Waits` when the locks of a local state are given as a list. -/
def System.isWaiting [DecidableEq K] (M : Machine Op Res Env L D K) (held : L → List K)
    (env : Env) (σ : System T Op Res α L D) (i : Nat) (k : K) (j : Nat) : Bool :=
  match σ.procs i, σ.procs j with
  | some ⟨_, .call o _, l⟩, some q =>
    (held (M.exec env o l σ.shared).2.1).contains k && (held q.loc).contains k
  | _, _ => false

theorem System.waits_of_isWaiting [DecidableEq K] {held : L → List K}
    (hheld : ∀ l k, k ∈ held l → M.locks l k) {assume : T → L → D → L → D → Prop}
    (hassume : ∀ t l d l' d', assume t l d l' d') {env : Env} {σ : System T Op Res α L D}
    {i : Nat} {k : K} {j : Nat} (hij : i ≠ j) (h : isWaiting M held env σ i k j = true) :
    Waits M assume σ i k j := by
  unfold isWaiting at h
  split at h
  · rename_i t o rest l q hi hj
    obtain ⟨hk, hk'⟩ := Bool.and_eq_true_iff.mp h
    exact .intro env hi hj hij (hassume _ _ _ _ _) (hheld _ k (List.contains_iff_mem.mp hk))
      (hheld _ k (List.contains_iff_mem.mp hk'))
  · cases h

/-- A process that waits keeps its guarantee in the step it cannot take. -/
theorem Protocol.Coherent.waits {P : Protocol T L D K} {σ : System T Op Res α L D}
    (hσ : P.Coherent M σ) {i j : Nat} {k : K} (h : System.Waits M P.assume σ i k j) :
    ∃ p q l' d', i ≠ j ∧ σ.procs i = some p ∧ σ.procs j = some q ∧
      P.guar p.tag p.loc σ.shared l' d' ∧ M.locks l' k ∧ ¬ M.locks p.loc k ∧
      M.locks q.loc k := by
  cases h with
  | @intro t o rest l q env hi hj hij ha hk hheld =>
      have hstep := hσ.verified i _ hi _ (P.interferes_refl M hσ.inv l) env ha
      exact ⟨_, q, _, _, hij, hi, hj, hstep.1.guar, hk,
        fun hl => hσ.exclusive i j _ q hij hi hj k hl hheld, hheld⟩

end Transaction
end TaskPlatform
