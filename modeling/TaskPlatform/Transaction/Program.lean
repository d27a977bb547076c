import Mathlib.Logic.Basic

/-!
# Programs of calls

A program is a tree of calls to a shared store: a call is issued, and the rest
of the program continues with its answer.  The same program has a serial
meaning (`run`, nobody else touches the store) and a meaning under interference
(`wp`, other programs may act between any two calls).

`wp` is the weakest condition under which the program keeps a contract at every
call and ends in its postcondition.  Its rules follow the shape of the program,
so a program is verified by walking through its text once.
-/

namespace TaskPlatform
namespace Transaction

inductive Prog (Op : Type) (Res : Op → Type) (α : Type) where
  | ret (a : α) : Prog Op Res α
  | call (o : Op) (k : Res o → Prog Op Res α) : Prog Op Res α

namespace Prog

variable {Op : Type} {Res : Op → Type} {α β γ : Type}

def bind (p : Prog Op Res α) (f : α → Prog Op Res β) : Prog Op Res β :=
  match p with
  | .ret a => f a
  | .call o k => .call o fun r => (k r).bind f

instance : Monad (Prog Op Res) where
  pure := .ret
  bind := bind

@[simp] theorem pure_eq (a : α) : (pure a : Prog Op Res α) = .ret a := rfl

@[simp] theorem ret_bind (a : α) (f : α → Prog Op Res β) : (ret a >>= f) = f a := rfl

@[simp] theorem call_bind (o : Op) (k : Res o → Prog Op Res α) (f : α → Prog Op Res β) :
    (call o k >>= f) = .call o fun r => k r >>= f := rfl

theorem bind_ret (p : Prog Op Res α) : (p >>= fun a => ret a) = p := by
  induction p with
  | ret a => rfl
  | call o k ih => rw [call_bind]; exact congrArg (call o) (funext ih)

theorem bind_bind (p : Prog Op Res α) (f : α → Prog Op Res β) (g : β → Prog Op Res γ) :
    (p >>= f >>= g) = p >>= fun a => f a >>= g := by
  induction p with
  | ret a => rfl
  | call o k ih => exact congrArg (call o) (funext ih)

instance : LawfulMonad (Prog Op Res) := LawfulMonad.mk' _ bind_ret ret_bind bind_bind

/-- A program that raises does not go on. -/
theorem run_bindE {ε : Type} (x : ExceptT ε (Prog Op Res) α) (f : α → ExceptT ε (Prog Op Res) β) :
    (x >>= f).run = x.run >>= fun r => match r with
      | .ok a => (f a).run
      | .error e => .ret (.error e) := by
  rw [ExceptT.run_bind]
  refine congrArg (x.run >>= ·) (funext fun r => ?_)
  cases r <;> rfl

/-- A handler runs in the place of the exception. -/
theorem run_tryCatch {ε : Type} (x : ExceptT ε (Prog Op Res) α)
    (f : ε → ExceptT ε (Prog Op Res) α) :
    (tryCatch x f).run = x.run >>= fun r => match r with
      | .ok a => .ret (.ok a)
      | .error e => (f e).run := by
  refine congrArg (x.run >>= ·) (funext fun r => ?_)
  cases r <;> rfl

def isCall : Prog Op Res α → Bool
  | .ret _ => false
  | .call _ _ => true

end Prog

/-- How calls act: under an environment that fixes what the store does not
decide, a call takes the local state of its transaction and the shared state to
an answer and new states.  `locks` names what a local state keeps others from
changing. -/
structure Machine (Op : Type) (Res : Op → Type) (Env L D K : Type) where
  exec : Env → (o : Op) → L → D → Res o × L × D
  locks : L → K → Prop

variable {Op : Type} {Res : Op → Type} {Env L D K α β ε : Type}

/-! ## The serial meaning -/

/-- How a serial run ends: its value, how many calls the script has answered, and
the final states. -/
structure Outcome (α L D : Type) where
  value : α
  calls : Nat
  loc : L
  shared : D

/-- Run a program alone.  The environment may differ from call to call: `env n`
answers call number `n`. -/
def Machine.run (M : Machine Op Res Env L D K) (env : Nat → Env) :
    Prog Op Res α → Nat → L → D → Outcome α L D
  | .ret a, n, l, d => ⟨a, n, l, d⟩
  | .call o k, n, l, d =>
    let x := M.exec (env n) o l d
    M.run env (k x.1) (n + 1) x.2.1 x.2.2

/-- The calls of such a run with their answers. -/
def Machine.trace (M : Machine Op Res Env L D K) (env : Nat → Env) :
    Prog Op Res α → Nat → L → D → List (Sigma Res)
  | .ret _, _, _, _ => []
  | .call o k, n, l, d =>
    let x := M.exec (env n) o l d
    ⟨o, x.1⟩ :: M.trace env (k x.1) (n + 1) x.2.1 x.2.2

section Run

variable (M : Machine Op Res Env L D K) (env : Nat → Env)

@[simp] theorem run_ret (a : α) (n : Nat) (l : L) (d : D) :
    M.run env (.ret a : Prog Op Res α) n l d = ⟨a, n, l, d⟩ := rfl

theorem run_call (o : Op) (k : Res o → Prog Op Res α) (n : Nat) (l : L) (d : D) :
    M.run env (.call o k) n l d =
      M.run env (k (M.exec (env n) o l d).1) (n + 1) (M.exec (env n) o l d).2.1
        (M.exec (env n) o l d).2.2 := rfl

theorem run_bind (p : Prog Op Res α) (f : α → Prog Op Res β) (n : Nat) (l : L) (d : D) :
    M.run env (p >>= f) n l d =
      M.run env (f (M.run env p n l d).value) (M.run env p n l d).calls
        (M.run env p n l d).loc (M.run env p n l d).shared := by
  induction p generalizing n l d with
  | ret a => rfl
  | call o k ih =>
      rw [Prog.call_bind, run_call, run_call]
      exact ih _ _ _ _

/-- A run counts its calls onwards. -/
theorem le_calls (p : Prog Op Res α) (n : Nat) (l : L) (d : D) :
    n ≤ (M.run env p n l d).calls := by
  induction p generalizing n l d with
  | ret a => exact Nat.le_refl n
  | call o k ih =>
      rw [run_call]
      exact Nat.le_trans (Nat.le_succ n) (ih _ _ _ _)

end Run

/-- A program in progress: what is left of it and the states it has come to. -/
structure Progress (Op : Type) (Res : Op → Type) (α L D : Type) where
  prog : Prog Op Res α
  loc : L
  shared : D

/-- The next call of a program that runs alone. -/
def Machine.advance (M : Machine Op Res Env L D K) (env : Env) :
    Progress Op Res α L D → Progress Op Res α L D
  | ⟨.ret a, l, d⟩ => ⟨.ret a, l, d⟩
  | ⟨.call o k, l, d⟩ =>
    let x := M.exec env o l d
    ⟨k x.1, x.2.1, x.2.2⟩

/-- Its first `n` calls. -/
def Machine.advanceN (M : Machine Op Res Env L D K) (env : Nat → Env) :
    Nat → Progress Op Res α L D → Progress Op Res α L D
  | 0, x => x
  | n + 1, x => M.advance (env n) (M.advanceN env n x)

/-! ## The meaning under interference -/

/-- What a transaction may rely on and what it owes: how the shared state may
change between two of its calls, which of its own steps are considered, and what
each of those has to satisfy. -/
structure Contract (L D : Type) where
  interfere : L → D → D → Prop
  assume : L → D → L → D → Prop
  guarantee : L → D → L → D → Prop

section Wp

variable (M : Machine Op Res Env L D K) (C : Contract L D)

def wp : Prog Op Res α → (α → L → D → Prop) → L → D → Prop
  | .ret a, Q, l, d => Q a l d
  | .call o k, Q, l, d =>
    ∀ d', C.interfere l d d' → ∀ env,
      C.assume l d' (M.exec env o l d').2.1 (M.exec env o l d').2.2 →
        C.guarantee l d' (M.exec env o l d').2.1 (M.exec env o l d').2.2 ∧
          wp (k (M.exec env o l d').1) Q (M.exec env o l d').2.1 (M.exec env o l d').2.2

theorem wp_bind (p : Prog Op Res α) (f : α → Prog Op Res β) (Q : β → L → D → Prop)
    (l : L) (d : D) :
    wp M C (p >>= f) Q l d ↔ wp M C p (fun a l d => wp M C (f a) Q l d) l d := by
  induction p generalizing l d with
  | ret a => exact Iff.rfl
  | call o k ih =>
      rw [Prog.call_bind]
      simp only [wp]
      exact forall_congr' fun d' => imp_congr_right fun _ => forall_congr' fun env =>
        imp_congr_right fun _ => and_congr_right fun _ => ih _ _ _

theorem wp_mono {p : Prog Op Res α} {Q Q' : α → L → D → Prop}
    (h : ∀ a l d, Q a l d → Q' a l d) {l : L} {d : D} (hp : wp M C p Q l d) :
    wp M C p Q' l d := by
  induction p generalizing l d with
  | ret a => exact h a l d hp
  | call o k ih =>
      intro d' hd env ha
      obtain ⟨hg, hk⟩ := hp d' hd env ha
      exact ⟨hg, ih _ hk⟩

/-- Later interference is absorbed by the interference a program allows for
before its first call, so a program that has a call left keeps its meaning. -/
theorem wp_interfere
    (htrans : ∀ l d₁ d₂ d₃, C.interfere l d₁ d₂ → C.interfere l d₂ d₃ → C.interfere l d₁ d₃)
    {p : Prog Op Res α} {Q : α → L → D → Prop}
    (hQ : ∀ a l d d', C.interfere l d d' → Q a l d → Q a l d')
    {l : L} {d d' : D} (hd : C.interfere l d d') (hp : wp M C p Q l d) : wp M C p Q l d' := by
  cases p with
  | ret a => exact hQ a l d d' hd hp
  | call o k => exact fun d'' hd' env ha => hp d'' (htrans _ _ _ _ hd hd') env ha

/-! ### Programs that raise -/

/-- `wp` of a program that ends in a value or raises an exception. -/
def wpE (x : ExceptT ε (Prog Op Res) α) (Q : α → L → D → Prop) (E : ε → L → D → Prop)
    (l : L) (d : D) : Prop :=
  wp M C x.run (fun r l d => match r with
    | .ok a => Q a l d
    | .error e => E e l d) l d

variable {M C}
variable {Q : β → L → D → Prop} {E : ε → L → D → Prop} {l : L} {d : D}

theorem wpE_pure {Q : α → L → D → Prop} (a : α) :
    wpE M C (pure a : ExceptT ε (Prog Op Res) α) Q E l d ↔ Q a l d := Iff.rfl

theorem wpE_throw {Q : α → L → D → Prop} (e : ε) :
    wpE M C (throw e : ExceptT ε (Prog Op Res) α) Q E l d ↔ E e l d := Iff.rfl

theorem wpE_bind (x : ExceptT ε (Prog Op Res) α) (f : α → ExceptT ε (Prog Op Res) β) :
    wpE M C (x >>= f) Q E l d ↔ wpE M C x (fun a => wpE M C (f a) Q E) E l d := by
  unfold wpE
  rw [Prog.run_bindE, wp_bind]
  refine ⟨wp_mono M C fun r l d h => ?_, wp_mono M C fun r l d h => ?_⟩
  · cases r with
    | ok a => exact h
    | error e => exact h
  · cases r with
    | ok a => exact h
    | error e => exact h

theorem wpE_tryCatch {Q : α → L → D → Prop} (x : ExceptT ε (Prog Op Res) α)
    (h : ε → ExceptT ε (Prog Op Res) α) :
    wpE M C (tryCatch x h) Q E l d ↔ wpE M C x Q (fun e => wpE M C (h e) Q E) l d := by
  unfold wpE
  rw [Prog.run_tryCatch, wp_bind]
  refine ⟨wp_mono M C fun r l d h => ?_, wp_mono M C fun r l d h => ?_⟩
  · cases r with
    | ok a => exact h
    | error e => exact h
  · cases r with
    | ok a => exact h
    | error e => exact h

theorem wpE_mono {Q Q' : α → L → D → Prop} {E' : ε → L → D → Prop}
    (x : ExceptT ε (Prog Op Res) α)
    (hQ : ∀ a l d, Q a l d → Q' a l d) (hE : ∀ e l d, E e l d → E' e l d)
    (hx : wpE M C x Q E l d) : wpE M C x Q' E' l d := by
  refine wp_mono M C (fun r l d h => ?_) hx
  cases r with
  | ok a => exact hQ a l d h
  | error e => exact hE e l d h

/-- A loop over a list keeps an invariant indexed by what is left of the list. -/
theorem wpE_forM {f : α → ExceptT ε (Prog Op Res) PUnit} (I : List α → L → D → Prop)
    (hstep : ∀ a rest l d, I (a :: rest) l d → wpE M C (f a) (fun _ => I rest) E l d) :
    ∀ (as : List α) (l : L) (d : D), I as l d → wpE M C (forM as f) (fun _ => I []) E l d
  | [], _, _, h => h
  | a :: rest, l, d, h => by
    rw [List.forM_cons, wpE_bind]
    exact wpE_mono _ (fun _ l d h => wpE_forM I hstep rest l d h) (fun _ _ _ h => h)
      (hstep a rest l d h)

end Wp
end Transaction
end TaskPlatform
