import TaskPlatform.Transaction.Program

/-!
# Two runs in lockstep

Relational reasoning about two serial runs that find the same environments.
`wp₂` relates two programs that issue one call each at a time; `Calls` says which
calls a program issues and what it learns from their answers.  If related states
answer the permitted calls alike (`Unwinds`), one program run from both ends alike
(`wp₂_of_calls`), so two-run statements about a program follow from a list of
its calls.
-/

namespace TaskPlatform
namespace Transaction

variable {Op : Type} {Res : Op → Type} {Env L D K α β γ δ ε : Type}

section Relational

variable (M : Machine Op Res Env L D K)

/-- The weakest condition on two states under which two programs issue as many
calls and end in `Q`. -/
def wp₂ : Prog Op Res α → Prog Op Res β → (α → β → L × D → L × D → Prop) →
    L × D → L × D → Prop
  | .ret a, .ret b, Q, s, s' => Q a b s s'
  | .call o k, .call o' k', Q, s, s' =>
    ∀ env, wp₂ (k (M.exec env o s.1 s.2).1) (k' (M.exec env o' s'.1 s'.2).1) Q
      (M.exec env o s.1 s.2).2 (M.exec env o' s'.1 s'.2).2
  | .ret _, .call _ _, _, _, _ => False
  | .call _ _, .ret _, _, _, _ => False

/-- The final states of a run. -/
def Outcome.state (x : Outcome α L D) : L × D := (x.loc, x.shared)

variable {M}

theorem wp₂_mono {p : Prog Op Res α} {p' : Prog Op Res β}
    {Q Q' : α → β → L × D → L × D → Prop} (h : ∀ a b s s', Q a b s s' → Q' a b s s')
    {s s' : L × D} (hp : wp₂ M p p' Q s s') : wp₂ M p p' Q' s s' := by
  induction p generalizing p' s s' with
  | ret a =>
      cases p' with
      | ret b => exact h a b s s' hp
      | call o k => exact hp
  | call o k ih =>
      cases p' with
      | ret b => exact hp
      | call o' k' => exact fun env => ih _ (hp env)

theorem wp₂_bind {p : Prog Op Res α} {p' : Prog Op Res β} {f : α → Prog Op Res γ}
    {f' : β → Prog Op Res δ} {Q : γ → δ → L × D → L × D → Prop} {s s' : L × D}
    (hp : wp₂ M p p' (fun a b => wp₂ M (f a) (f' b) Q) s s') :
    wp₂ M (p >>= f) (p' >>= f') Q s s' := by
  induction p generalizing p' s s' with
  | ret a =>
      cases p' with
      | ret b => exact hp
      | call o k => exact hp.elim
  | call o k ih =>
      cases p' with
      | ret b => exact hp.elim
      | call o' k' => exact fun env => ih _ (hp env)

theorem wp₂_run (env : Nat → Env) {p : Prog Op Res α} {p' : Prog Op Res β}
    {Q : α → β → L × D → L × D → Prop} {s s' : L × D} (n : Nat) (hp : wp₂ M p p' Q s s') :
    Q (M.run env p n s.1 s.2).value (M.run env p' n s'.1 s'.2).value
      (M.run env p n s.1 s.2).state (M.run env p' n s'.1 s'.2).state := by
  induction p generalizing p' n s s' with
  | ret a =>
      cases p' with
      | ret b => exact hp
      | call o k => exact hp.elim
  | call o k ih =>
      cases p' with
      | ret b => exact hp.elim
      | call o' k' => exact ih _ (n + 1) (hp (env n))

end Relational

/-! ## The calls of a program -/

/-- Which calls are permitted, and what their answers tell. -/
structure Calling (Op : Type) (Res : Op → Type) where
  may : Op → Prop
  tells : (o : Op) → Res o → Prop

section Calls

variable (C : Calling Op Res)

/-- The program issues permitted calls only and ends, whatever is answered, in `Q`. -/
def Calls : Prog Op Res α → (α → Prop) → Prop
  | .ret a, Q => Q a
  | .call o k, Q => C.may o ∧ ∀ r, C.tells o r → Calls (k r) Q

/-- `Calls` of a program that ends in a value or raises an exception. -/
def CallsE (x : ExceptT ε (Prog Op Res) α) (Q : α → Prop) : Prop :=
  Calls C x.run fun r => ∀ a, r = .ok a → Q a

variable {C}

theorem calls_mono {p : Prog Op Res α} {Q Q' : α → Prop} (h : ∀ a, Q a → Q' a)
    (hp : Calls C p Q) : Calls C p Q' := by
  induction p with
  | ret a => exact h a hp
  | call o k ih => exact ⟨hp.1, fun r hr => ih r (hp.2 r hr)⟩

theorem calls_bind {p : Prog Op Res α} {f : α → Prog Op Res β} {Q : β → Prop}
    (hp : Calls C p fun a => Calls C (f a) Q) : Calls C (p >>= f) Q := by
  induction p with
  | ret a => exact hp
  | call o k ih => exact ⟨hp.1, fun r hr => ih r (hp.2 r hr)⟩

theorem callsE_mono {x : ExceptT ε (Prog Op Res) α} {Q Q' : α → Prop}
    (h : ∀ a, Q a → Q' a) (hx : CallsE C x Q) : CallsE C x Q' :=
  calls_mono (fun _ hr a ha => h a (hr a ha)) hx

theorem callsE_pure {Q : α → Prop} {a : α} (h : Q a) :
    CallsE C (pure a : ExceptT ε (Prog Op Res) α) Q := by
  rintro b ⟨⟩
  exact h

theorem callsE_throw {Q : α → Prop} (e : ε) :
    CallsE C (throw e : ExceptT ε (Prog Op Res) α) Q := fun _ h => by cases h

theorem callsE_bind {x : ExceptT ε (Prog Op Res) α} {f : α → ExceptT ε (Prog Op Res) β}
    {Q : β → Prop} (hx : CallsE C x fun a => CallsE C (f a) Q) : CallsE C (x >>= f) Q := by
  refine calls_bind (calls_mono (fun r hr => ?_) hx)
  cases r with
  | ok a => exact hr a rfl
  | error e => exact fun _ h => by cases h

theorem callsE_tryCatch {x : ExceptT ε (Prog Op Res) α} {h : ε → ExceptT ε (Prog Op Res) α}
    {Q : α → Prop} (hx : CallsE C x Q) (hh : ∀ e, CallsE C (h e) Q) :
    CallsE C (tryCatch x h) Q := by
  refine calls_bind (calls_mono (fun r hr => ?_) hx)
  cases r with
  | ok a => exact hr
  | error e => exact hh e

theorem callsE_forM {f : α → ExceptT ε (Prog Op Res) PUnit} {as : List α}
    (h : ∀ a ∈ as, CallsE C (f a) fun _ => True) : CallsE C (forM as f) fun _ => True := by
  induction as with
  | nil => exact fun _ _ => trivial
  | cons a rest ih =>
      rw [List.forM_cons]
      refine callsE_bind (callsE_mono (fun _ _ => ?_) (h a List.mem_cons_self))
      exact ih fun b hb => h b (List.mem_cons_of_mem a hb)

end Calls

/-! ## Unwinding -/

/-- Related states answer permitted calls alike, and stay related. -/
def Unwinds (M : Machine Op Res Env L D K) (C : Calling Op Res)
    (rel : L × D → L × D → Prop) : Prop :=
  ∀ env o s s', rel s s' → C.may o →
    (M.exec env o s.1 s.2).1 = (M.exec env o s'.1 s'.2).1 ∧
      C.tells o (M.exec env o s.1 s.2).1 ∧
      rel (M.exec env o s.1 s.2).2 (M.exec env o s'.1 s'.2).2

theorem wp₂_of_calls {M : Machine Op Res Env L D K} {C : Calling Op Res}
    {rel : L × D → L × D → Prop} (hU : Unwinds M C rel) {p : Prog Op Res α} {Q : α → Prop}
    (hp : Calls C p Q) {s s' : L × D} (hs : rel s s') :
    wp₂ M p p (fun a b s s' => a = b ∧ Q a ∧ rel s s') s s' := by
  induction p generalizing s s' with
  | ret a => exact ⟨rfl, hp, hs⟩
  | call o k ih =>
      intro env
      obtain ⟨hanswer, htells, hrel⟩ := hU env o s s' hs hp.1
      rw [← hanswer]
      exact ih _ (hp.2 _ htells) hrel

end Transaction
end TaskPlatform
