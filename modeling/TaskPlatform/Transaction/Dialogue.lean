import Mathlib.Data.List.Infix
import TaskPlatform.Transaction.History

/-!
# Dialogues

The dialogue of a program is the list of its calls with their answers.  A program abides
by a policy when each of its calls is permitted by the dialogue before it and its value
agrees with the whole dialogue, whatever the store answers.  That is a property of the
text of the program; `fits` leaves out what no store answers.

The policy then holds of every process in every interleaving
(`System.abides_of_recorded`): no schedule and no failure brings a program to a call it
has not earned.
-/

namespace TaskPlatform
namespace Transaction

variable {T Op : Type} {Res : Op → Type} {Env L D K α β ε : Type}

abbrev Dialogue (Res : Op → Type) : Type := List (Sigma Res)

/-- The calls that may follow a dialogue, and the answers a call can have. -/
structure Policy (Op : Type) (Res : Op → Type) where
  may : Dialogue Res → Op → Prop
  fits : (o : Op) → Res o → Prop

def Prog.Abides (P : Policy Op Res) (Q : α → Dialogue Res → Prop) :
    Prog Op Res α → Dialogue Res → Prop
  | .ret a, h => Q a h
  | .call o k, h => P.may h o ∧ ∀ r, P.fits o r → (k r).Abides P Q (h ++ [⟨o, r⟩])

section Abides

variable {P : Policy Op Res} {h : Dialogue Res}

theorem abides_bind (p : Prog Op Res α) (f : α → Prog Op Res β) (Q : β → Dialogue Res → Prop) :
    (p >>= f).Abides P Q h ↔ p.Abides P (fun a h => (f a).Abides P Q h) h := by
  induction p generalizing h with
  | ret a => exact Iff.rfl
  | call o k ih =>
      rw [Prog.call_bind]
      simp only [Prog.Abides]
      exact and_congr_right fun _ => forall_congr' fun r => imp_congr_right fun _ => ih r

/-- What a program ends in follows from the whole dialogue, of which the first part is
known. -/
theorem abides_mono {p : Prog Op Res α} {Q Q' : α → Dialogue Res → Prop}
    (hQ : ∀ a h', h ⊆ h' → Q a h' → Q' a h') (hp : p.Abides P Q h) : p.Abides P Q' h := by
  induction p generalizing h with
  | ret a => exact hQ a h (List.Subset.refl h) hp
  | call o k ih =>
      obtain ⟨hmay, hk⟩ := hp
      refine ⟨hmay, fun r hr => ih r (fun a h' hsub => ?_) (hk r hr)⟩
      exact hQ a h' fun e he => hsub (List.mem_append_left _ he)

/-! ### Programs that raise -/

def AbidesE (P : Policy Op Res) (Q : α → Dialogue Res → Prop) (E : ε → Dialogue Res → Prop)
    (x : ExceptT ε (Prog Op Res) α) (h : Dialogue Res) : Prop :=
  x.run.Abides P (fun r h => match r with
    | .ok a => Q a h
    | .error e => E e h) h

variable {E : ε → Dialogue Res → Prop}

theorem abidesE_bind {Q : β → Dialogue Res → Prop} (x : ExceptT ε (Prog Op Res) α)
    (f : α → ExceptT ε (Prog Op Res) β) :
    AbidesE P Q E (x >>= f) h ↔ AbidesE P (fun a h => AbidesE P Q E (f a) h) E x h := by
  unfold AbidesE
  rw [Prog.run_bindE, abides_bind]
  refine ⟨abides_mono fun r h' _ hr => ?_, abides_mono fun r h' _ hr => ?_⟩
  · cases r with
    | ok a => exact hr
    | error e => exact hr
  · cases r with
    | ok a => exact hr
    | error e => exact hr

theorem abidesE_tryCatch {Q : α → Dialogue Res → Prop} (x : ExceptT ε (Prog Op Res) α)
    (f : ε → ExceptT ε (Prog Op Res) α) :
    AbidesE P Q E (tryCatch x f) h ↔ AbidesE P Q (fun e h => AbidesE P Q E (f e) h) x h := by
  unfold AbidesE
  rw [Prog.run_tryCatch, abides_bind]
  refine ⟨abides_mono fun r h' _ hr => ?_, abides_mono fun r h' _ hr => ?_⟩
  · cases r with
    | ok a => exact hr
    | error e => exact hr
  · cases r with
    | ok a => exact hr
    | error e => exact hr

theorem abidesE_mono {Q Q' : α → Dialogue Res → Prop} {x : ExceptT ε (Prog Op Res) α}
    {E' : ε → Dialogue Res → Prop} (hQ : ∀ a h', h ⊆ h' → Q a h' → Q' a h')
    (hE : ∀ e h', h ⊆ h' → E e h' → E' e h') (hx : AbidesE P Q E x h) :
    AbidesE P Q' E' x h := by
  refine abides_mono (fun r h' hsub hr => ?_) hx
  cases r with
  | ok a => exact hQ a h' hsub hr
  | error e => exact hE e h' hsub hr

/-- A loop keeps what each of its rounds keeps. -/
theorem abidesE_forM {f : α → ExceptT ε (Prog Op Res) PUnit} (I : Dialogue Res → Prop)
    (as : List α) (hstep : ∀ a ∈ as, ∀ h, I h → AbidesE P (fun _ => I) E (f a) h) (hh : I h) :
    AbidesE P (fun _ => I) E (forM as f) h := by
  induction as generalizing h with
  | nil => exact hh
  | cons a rest ih =>
      rw [List.forM_cons, abidesE_bind]
      refine abidesE_mono (fun _ h' _ hI => ?_) (fun _ _ _ he => he)
        (hstep a (List.mem_cons_self ..) h hh)
      exact ih (fun b hb => hstep b (List.mem_cons_of_mem a hb)) hI

end Abides

/-! ## Processes -/

/-- A call of a recorded history with its answer. -/
def Move.said (M : Machine Op Res Env L D K) (m : Move Op Env L D) : Sigma Res :=
  ⟨m.op, (M.exec m.env m.op m.loc m.before).1⟩

def dialogue (M : Machine Op Res Env L D K) (h : History Op Env L D) : Dialogue Res :=
  h.map (Move.said M)

/-- Every call was permitted by the dialogue before it. -/
def Permitted (P : Policy Op Res) (h : Dialogue Res) : Prop :=
  ∀ before o r after, h = before ++ ⟨o, r⟩ :: after → P.may before o

theorem Permitted.concat {P : Policy Op Res} {h : Dialogue Res} {o : Op} {r : Res o}
    (hh : Permitted P h) (hmay : P.may h o) : Permitted P (h ++ [⟨o, r⟩]) := by
  intro before o' r' after heq
  rcases List.eq_nil_or_concat after with rfl | ⟨rest, last, rfl⟩
  · obtain ⟨rfl, hlast⟩ := List.append_inj' heq rfl
    cases hlast
    exact hmay
  · rw [List.concat_eq_append, ← List.cons_append, ← List.append_assoc] at heq
    obtain ⟨hinit, _⟩ := List.append_inj' heq rfl
    exact hh before o' r' rest hinit

/-- A process that has abided by the policy of its tag and goes on to. -/
structure Abiding (M : Machine Op Res Env L D K) (P : T → Policy Op Res)
    (Q : T → α → Dialogue Res → Prop) (p : Proc T Op Res α (L × History Op Env L D)) : Prop where
  permitted : Permitted (P p.tag) (dialogue M p.loc.2)
  rest : p.prog.Abides (P p.tag) (Q p.tag) (dialogue M p.loc.2)

/-- In every run the processes abide by their policies. -/
theorem System.abides_of_recorded {M : Machine Op Res Env L D K} {W : Workload T Op Res α L}
    {allowed : T → Prop} {assume : T → L → D → L → D → Prop} {d₀ : D}
    {P : T → Policy Op Res} {Q : T → α → Dialogue Res → Prop}
    (hfits : ∀ t env o l d, (P t).fits o (M.exec env o l d).1)
    (hprog : ∀ t, allowed t → (W.program t).Abides (P t) (Q t) [])
    {σ : System T Op Res α (L × History Op Env L D) D}
    (hr : Recorded M W allowed assume d₀ σ) :
    ∀ i p, σ.procs i = some p → Abiding M P Q p := by
  induction hr with
  | start => exact fun i p hp => by cases hp
  | step _ hs ih =>
      cases hs with
      | spawn i t ht hi =>
          refine forall_update ⟨fun before o r after heq => ?_, hprog t ht⟩
            fun j q _ hq => ih j q hq
          exact absurd heq.symm (List.append_ne_nil_of_right_ne_nil _ (List.cons_ne_nil _ _))
      | call h _ =>
          cases h with
          | call env hp hfree =>
              obtain ⟨hpermitted, hmay, hk⟩ := ih _ _ hp
              refine forall_update ?_ fun j q _ hq => ih j q hq
              constructor
              · show Permitted _ (List.map (Move.said M) (_ ++ [_]))
                rw [List.map_append]
                exact hpermitted.concat hmay
              · show Prog.Abides _ _ _ (List.map (Move.said M) (_ ++ [_]))
                rw [List.map_append]
                exact hk _ (hfits _ _ _ _ _)

end Transaction
end TaskPlatform
