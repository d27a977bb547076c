import TaskPlatform.Transaction.Interleaving
import TaskPlatform.Transaction.Trail

/-!
# Histories

A machine that also keeps, for each process, the calls it has issued with the states
they found and left.  Calls are answered as before, so the recorded runs are the runs of
the machine with their histories (`System.reachable_forget`, `System.reachable_recall`).

A `wp` over the recording machine says what a program has done when it ends, whatever
the others do in between (`System.wp_of_recorded`).  What holds of the shared state and
did not hold at the start is somebody's doing (`System.arose_of_recorded`).
-/

namespace TaskPlatform
namespace Transaction

variable {T Op : Type} {Res : Op → Type} {Env L D K α : Type}

abbrev History (Op Env L D : Type) : Type := List (Move Op Env L D)

def Machine.recording (M : Machine Op Res Env L D K) :
    Machine Op Res Env (L × History Op Env L D) D K where
  exec env o x d :=
    let y := M.exec env o x.1 d
    (y.1, (y.2.1, x.2 ++ [⟨env, o, x.1, d, y.2.1, y.2.2⟩]), y.2.2)
  locks x := M.locks x.1

/-- The value of a program that has ended. -/
def Prog.value? : Prog Op Res α → Option α
  | .ret a => some a
  | .call _ _ => none

theorem Prog.eq_ret {p : Prog Op Res α} {a : α} (h : p.value? = some a) : p = .ret a := by
  cases p with
  | ret b => exact congrArg Prog.ret (Option.some.inj h)
  | call o k => cases h

def Workload.recording (W : Workload T Op Res α L) (Env D : Type) :
    Workload T Op Res α (L × History Op Env L D) :=
  ⟨W.program, (W.init, [])⟩

def Proc.forget (p : Proc T Op Res α (L × History Op Env L D)) : Proc T Op Res α L :=
  ⟨p.tag, p.prog, p.loc.1⟩

namespace System

def forget (σ : System T Op Res α (L × History Op Env L D) D) : System T Op Res α L D :=
  ⟨σ.shared, fun i => (σ.procs i).map Proc.forget⟩

section Forget

variable {M : Machine Op Res Env L D K} {W : Workload T Op Res α L} {allowed : T → Prop}
  {assume : T → L → D → L → D → Prop} {d₀ : D}

/-- The runs of the recording machine. -/
abbrev Recorded (M : Machine Op Res Env L D K) (W : Workload T Op Res α L) (allowed : T → Prop)
    (assume : T → L → D → L → D → Prop) :
    D → System T Op Res α (L × History Op Env L D) D → Prop :=
  Reachable M.recording (W.recording Env D) allowed fun t x d x' d' => assume t x.1 d x'.1 d'

theorem procs_forget {σ : System T Op Res α (L × History Op Env L D) D} {i : Nat}
    {p : Proc T Op Res α (L × History Op Env L D)} (hp : σ.procs i = some p) :
    σ.forget.procs i = some p.forget := by
  show (σ.procs i).map Proc.forget = _
  rw [hp]
  rfl

theorem forget_update (d : D) (procs : Nat → Option (Proc T Op Res α (L × History Op Env L D)))
    (i : Nat) (p : Proc T Op Res α (L × History Op Env L D)) :
    (⟨d, Function.update procs i (some p)⟩ : System T Op Res α _ D).forget =
      ⟨d, Function.update (fun j => (procs j).map Proc.forget) i (some p.forget)⟩ := by
  exact congrArg (System.mk d) (Function.comp_update (Option.map Proc.forget) procs i (some p))

theorem free_forget {σ : System T Op Res α (L × History Op Env L D) D} {i : Nat}
    {x : L × History Op Env L D} : Free M.recording σ i x ↔ Free M σ.forget i x.1 := by
  constructor
  · intro h j q hj hq
    obtain ⟨p, hp, hforget⟩ := Option.map_eq_some_iff.mp hq
    rw [← hforget]
    exact h j p hj hp
  · intro h j p hj hp
    exact h j p.forget hj (procs_forget hp)

theorem callStep_forget {σ σ' : System T Op Res α (L × History Op Env L D) D} {i : Nat} {t : T}
    {x x' : L × History Op Env L D} (hs : CallStep M.recording i t x x' σ σ') :
    CallStep M i t x.1 x'.1 σ.forget σ'.forget := by
  cases hs with
  | call env hp hfree =>
      rw [forget_update]
      exact CallStep.call env (procs_forget hp) (free_forget.mp hfree)

/-- A recorded run is a run. -/
theorem reachable_forget {σ : System T Op Res α (L × History Op Env L D) D}
    (hr : Recorded M W allowed assume d₀ σ) : Reachable M W allowed assume d₀ σ.forget := by
  induction hr with
  | start => exact .start
  | @step τ _ _ hs ih =>
      cases hs with
      | spawn i t ht hi =>
          have hnone : τ.forget.procs i = none := by
            show (τ.procs i).map Proc.forget = none
            rw [hi]
            rfl
          rw [forget_update]
          exact ih.step (.spawn i t ht hnone)
      | call h ha => exact ih.step (.call (callStep_forget h) ha)

/-- Every run has its histories. -/
theorem reachable_recall {σ : System T Op Res α L D} (hr : Reachable M W allowed assume d₀ σ) :
    ∃ τ : System T Op Res α (L × History Op Env L D) D,
      Recorded M W allowed assume d₀ τ ∧ τ.forget = σ := by
  induction hr with
  | start => exact ⟨System.start d₀, .start, rfl⟩
  | step _ hs ih =>
      obtain ⟨τ, hτ, rfl⟩ := ih
      cases hs with
      | spawn i t ht hi =>
          refine ⟨_, hτ.step (.spawn i t ht (Option.map_eq_none_iff.mp hi)), ?_⟩
          exact forget_update _ _ _ _
      | call h ha =>
          cases h with
          | @call _ o k env hp hfree =>
              obtain ⟨⟨t, prog, x⟩, hx, hforget⟩ := Option.map_eq_some_iff.mp hp
              cases hforget
              have hstep := CallStep.call (M := M.recording) env hx (free_forget.mpr hfree)
              exact ⟨_, hτ.step (.call hstep ha), forget_update _ _ _ _⟩

end Forget

/-! ## What a program has done -/

/-- Only calls that leave a history in `G` are considered, and what a call guarantees may
depend on the calls before it. -/
def along (G : History Op Env L D → Prop) (meddles : L → D → D → Prop)
    (guarantee : History Op Env L D → D → D → Prop) : Contract (L × History Op Env L D) D where
  interfere x := meddles x.1
  assume := fun _ _ x' _ => G x'.2
  guarantee := fun x d _ d' => guarantee x.2 d d'

/-- What may happen between two calls, whatever was recorded. -/
def among (meddles : L → D → D → Prop) : Contract (L × History Op Env L D) D :=
  along (fun _ => True) meddles fun _ _ _ => True

theorem wp_among {M : Machine Op Res Env L D K} {meddles : L → D → D → Prop}
    {p : Prog Op Res α} {Q : α → L × History Op Env L D → D → Prop} {x : L × History Op Env L D}
    {d : D} (hQ : ∀ a x d, Q a x d) : wp M.recording (among meddles) p Q x d := by
  induction p generalizing x d with
  | ret a => exact hQ a x d
  | call o k ih => exact fun _ _ _ _ => ⟨trivial, ih _⟩

section Recorded

variable {M : Machine Op Res Env L D K} {W : Workload T Op Res α L} {allowed : T → Prop}
  {assume : T → L → D → L → D → Prop} {d₀ : D}
  {σ : System T Op Res α (L × History Op Env L D) D}

/-- A `wp` proof for the programs of some tags holds of every process of these tags whose
history is in `G`.  `meddles` covers the steps of the others. -/
theorem wp_of_recorded_along (tags : T → Prop) {G : History Op Env L D → Prop}
    {meddles : L → D → D → Prop} {guarantee : T → History Op Env L D → D → D → Prop}
    {Q : T → α → L × History Op Env L D → D → Prop}
    (hearlier : ∀ h m, G (h ++ [m]) → G h)
    (htrans : ∀ l d₁ d₂ d₃, meddles l d₁ d₂ → meddles l d₂ d₃ → meddles l d₁ d₃)
    (hself : ∀ σ, Reachable M W allowed assume d₀ σ → ∀ l, meddles l σ.shared σ.shared)
    (hother : ∀ σ σ' i j t l l' q, Reachable M W allowed assume d₀ σ →
      CallStep M i t l l' σ σ' → assume t l σ.shared l' σ'.shared → j ≠ i →
        σ.procs j = some q → meddles q.loc σ.shared σ'.shared)
    (hQ : ∀ t a x d d', meddles x.1 d d' → Q t a x d → Q t a x d')
    (hprog : ∀ t d, allowed t → tags t →
      wp M.recording (along G meddles (guarantee t)) (W.program t) (Q t) (W.init, []) d)
    (hr : Recorded M W allowed assume d₀ σ) :
    ∀ i p, σ.procs i = some p → tags p.tag → G p.loc.2 →
      wp M.recording (along G meddles (guarantee p.tag)) p.prog (Q p.tag) p.loc σ.shared := by
  induction hr with
  | start => exact fun i p hp => by cases hp
  | step hτ hs ih =>
      cases hs with
      | spawn i t ht hi =>
          exact forall_update (fun htag _ => hprog t _ ht htag) fun j q _ hq => ih j q hq
      | call h ha =>
          have hforget := callStep_forget h
          cases h with
          | call env hp hfree =>
              refine forall_update (fun htag hall => ?_) fun j q hj hq htag hall => ?_
              · have hbefore := ih _ _ hp htag (hearlier _ _ hall)
                exact (hbefore _ (hself _ (reachable_forget hτ) _) env hall).2
              · refine wp_interfere M.recording _ (fun x => htrans x.1) (hQ q.tag) ?_
                  (ih j q hq htag hall)
                exact hother _ _ _ j _ _ _ _ (reachable_forget hτ) hforget ha hj
                  (procs_forget hq)

/-- One `wp` proof for each admitted program says of every recorded run what the ended
processes have done. -/
theorem wp_of_recorded {meddles : L → D → D → Prop}
    {Q : T → α → L × History Op Env L D → D → Prop}
    (htrans : ∀ l d₁ d₂ d₃, meddles l d₁ d₂ → meddles l d₂ d₃ → meddles l d₁ d₃)
    (hself : ∀ σ, Reachable M W allowed assume d₀ σ → ∀ l, meddles l σ.shared σ.shared)
    (hother : ∀ σ σ' i j t l l' q, Reachable M W allowed assume d₀ σ →
      CallStep M i t l l' σ σ' → assume t l σ.shared l' σ'.shared → j ≠ i →
        σ.procs j = some q → meddles q.loc σ.shared σ'.shared)
    (hQ : ∀ t a x d d', meddles x.1 d d' → Q t a x d → Q t a x d')
    (hprog : ∀ t d, allowed t →
      wp M.recording (among meddles) (W.program t) (Q t) (W.init, []) d)
    (hr : Recorded M W allowed assume d₀ σ) :
    ∀ i p, σ.procs i = some p →
      wp M.recording (among meddles) p.prog (Q p.tag) p.loc σ.shared := by
  intro i p hp
  exact wp_of_recorded_along (fun _ => True) (fun _ _ _ => trivial) htrans hself hother hQ
    (fun t d ht _ => hprog t d ht) hr i p hp trivial trivial

/-- What holds of the shared state held at the start or came about by a move. -/
theorem arose_of_recorded {A : D → Prop} (hr : Recorded M W allowed assume d₀ σ)
    (hA : A σ.shared) :
    A d₀ ∨ ∃ i p, σ.procs i = some p ∧ ∃ m ∈ p.loc.2, ¬ A m.before ∧ A m.after := by
  induction hr with
  | start => exact Or.inl hA
  | @step τ _ _ hs ih =>
      cases hs with
      | spawn i t ht hi =>
          refine (ih hA).imp_right ?_
          rintro ⟨j, p, hp, hmove⟩
          have hj : j ≠ i := fun hj => by rw [hj, hi] at hp; cases hp
          exact ⟨j, p, (Function.update_of_ne hj _ _).trans hp, hmove⟩
      | @call _ i t x x' h _ =>
          cases h with
          | call env hp _ =>
              by_cases hbefore : A τ.shared
              · refine (ih hbefore).imp_right ?_
                rintro ⟨j, p, hq, m, hm, hmove⟩
                by_cases hj : j = i
                · subst hj
                  rw [hp, Option.some.injEq] at hq
                  subst hq
                  exact ⟨j, _, Function.update_self _ _ _, m, List.mem_append_left _ hm, hmove⟩
                · exact ⟨j, p, (Function.update_of_ne hj _ _).trans hq, m, hm, hmove⟩
              · exact Or.inr ⟨i, _, Function.update_self _ _ _, _, List.mem_append_right _
                  (List.mem_singleton_self _), hbefore, hA⟩

end Recorded

end System
end Transaction
end TaskPlatform
