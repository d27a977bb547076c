import TaskPlatform.Transaction.Program

/-!
# Programs whose calls all succeed

`smooth` is the serial counterpart of `wp`: it follows the text of a program that runs
alone, asks that each of its calls gets an accepted answer, and ends in a
postcondition.  The environments of the calls may be any that satisfy `good`.
-/

namespace TaskPlatform
namespace Transaction

variable {Op : Type} {Res : Op → Type} {Env L D K α β ε : Type}
variable (M : Machine Op Res Env L D K) (good : Env → Prop) (accepted : (o : Op) → Res o → Prop)

def smooth : Prog Op Res α → (α → L → D → Prop) → L → D → Prop
  | .ret a, Q, l, d => Q a l d
  | .call o k, Q, l, d =>
    ∀ env, good env → accepted o (M.exec env o l d).1 ∧
      smooth (k (M.exec env o l d).1) Q (M.exec env o l d).2.1 (M.exec env o l d).2.2

theorem smooth_bind (p : Prog Op Res α) (f : α → Prog Op Res β) (Q : β → L → D → Prop)
    (l : L) (d : D) :
    smooth M good accepted (p >>= f) Q l d ↔
      smooth M good accepted p (fun a l d => smooth M good accepted (f a) Q l d) l d := by
  induction p generalizing l d with
  | ret a => exact Iff.rfl
  | call o k ih =>
      rw [Prog.call_bind]
      simp only [smooth]
      exact forall_congr' fun env => imp_congr_right fun _ => and_congr_right fun _ => ih _ _ _

theorem smooth_mono {p : Prog Op Res α} {Q Q' : α → L → D → Prop}
    (h : ∀ a l d, Q a l d → Q' a l d) {l : L} {d : D} (hp : smooth M good accepted p Q l d) :
    smooth M good accepted p Q' l d := by
  induction p generalizing l d with
  | ret a => exact h a l d hp
  | call o k ih =>
      intro env henv
      obtain ⟨haccepted, hk⟩ := hp env henv
      exact ⟨haccepted, ih _ hk⟩

/-! ### Programs that raise -/

/-- `smooth` of a program that ends in a value or raises an exception. -/
def smoothE (x : ExceptT ε (Prog Op Res) α) (Q : α → L → D → Prop) (E : ε → L → D → Prop)
    (l : L) (d : D) : Prop :=
  smooth M good accepted x.run (fun r l d => match r with
    | .ok a => Q a l d
    | .error e => E e l d) l d

variable {M good accepted}

section Raising

variable {E : ε → L → D → Prop} {l : L} {d : D}

theorem smoothE_mono {Q Q' : α → L → D → Prop} {E' : ε → L → D → Prop}
    {x : ExceptT ε (Prog Op Res) α} (hQ : ∀ a l d, Q a l d → Q' a l d)
    (hE : ∀ e l d, E e l d → E' e l d) (hx : smoothE M good accepted x Q E l d) :
    smoothE M good accepted x Q' E' l d := by
  refine smooth_mono M good accepted (fun r l d h => ?_) hx
  cases r with
  | ok a => exact hQ a l d h
  | error e => exact hE e l d h

theorem smoothE_bind {Q : β → L → D → Prop} {x : ExceptT ε (Prog Op Res) α}
    {f : α → ExceptT ε (Prog Op Res) β}
    (hx : smoothE M good accepted x (fun a => smoothE M good accepted (f a) Q E) E l d) :
    smoothE M good accepted (x >>= f) Q E l d := by
  unfold smoothE at hx ⊢
  rw [Prog.run_bindE, smooth_bind]
  refine smooth_mono M good accepted (fun r l d h => ?_) hx
  cases r with
  | ok a => exact h
  | error e => exact h

theorem smoothE_tryCatch {Q : α → L → D → Prop} {x : ExceptT ε (Prog Op Res) α}
    {f : ε → ExceptT ε (Prog Op Res) α}
    (hx : smoothE M good accepted x Q (fun e => smoothE M good accepted (f e) Q E) l d) :
    smoothE M good accepted (tryCatch x f) Q E l d := by
  unfold smoothE at hx ⊢
  rw [Prog.run_tryCatch, smooth_bind]
  refine smooth_mono M good accepted (fun r l d h => ?_) hx
  cases r with
  | ok a => exact h
  | error e => exact h

/-- A loop over a list keeps an invariant. -/
theorem smoothE_forM {f : α → ExceptT ε (Prog Op Res) PUnit} (I : L → D → Prop)
    (hstep : ∀ a l d, I l d → smoothE M good accepted (f a) (fun _ => I) E l d) (as : List α)
    (h : I l d) : smoothE M good accepted (forM as f) (fun _ => I) E l d := by
  induction as generalizing l d with
  | nil => exact h
  | cons a rest ih =>
      rw [List.forM_cons]
      apply smoothE_bind
      exact smoothE_mono (fun _ _ _ h => ih h) (fun _ _ _ h => h) (hstep a l d h)

end Raising

variable {env : Nat → Env} {p : Prog Op Res α} {Q : α → L → D → Prop} {l : L} {d : D}

theorem trace_of_smooth (henv : ∀ n, good (env n)) (hp : smooth M good accepted p Q l d)
    (n : Nat) : ∀ c ∈ M.trace env p n l d, accepted c.1 c.2 := by
  induction p generalizing n l d with
  | ret a => nofun
  | call o k ih =>
      obtain ⟨haccepted, hk⟩ := hp (env n) (henv n)
      intro c hc
      rcases List.mem_cons.mp hc with rfl | hc
      · exact haccepted
      · exact ih _ hk (n + 1) c hc

/-- The environments of the calls a run has made are all that matters. -/
theorem run_of_smooth_within (hp : smooth M good accepted p Q l d) (n : Nat)
    (henv : ∀ k, n ≤ k → k < (M.run env p n l d).calls → good (env k)) :
    Q (M.run env p n l d).value (M.run env p n l d).loc (M.run env p n l d).shared := by
  induction p generalizing n l d with
  | ret a => exact hp
  | call o k ih =>
      rw [run_call] at henv ⊢
      have hn : n < (M.run env (k (M.exec (env n) o l d).1) (n + 1) (M.exec (env n) o l d).2.1
          (M.exec (env n) o l d).2.2).calls := le_calls M env _ _ _ _
      refine ih _ (hp (env n) (henv n (Nat.le_refl n) hn)).2 (n + 1) fun k hk => henv k ?_
      omega

theorem run_of_smooth (henv : ∀ n, good (env n)) (hp : smooth M good accepted p Q l d)
    (n : Nat) :
    Q (M.run env p n l d).value (M.run env p n l d).loc (M.run env p n l d).shared :=
  run_of_smooth_within hp n fun k _ _ => henv k

end Transaction
end TaskPlatform
