import TaskPlatform.Transaction.Schedule
import TaskPlatform.Transaction.Trail

/-!
# Schedules with processes left out

Leave some processes out of a schedule.  The others run as before, side by side with
themselves in the full run, if related states answer their calls alike and the steps
that are left out keep the shared states related.  Where a process is answered
otherwise it must come to an error in the full run, so a full run without errors has
its projections.
-/

namespace TaskPlatform
namespace Transaction

variable {T Op : Type} {Res : Op → Type} {Env L D K α β ε : Type}

/-! ## Programs side by side -/

/-- The calls a program may issue, how two runs may answer them, and which answers of
the full run end it in an error. -/
structure Pairing (Op : Type) (Res : Op → Type) where
  may : Op → Prop
  pairs : (o : Op) → Res o → Res o → Prop
  loses : (o : Op) → Res o → Prop
  quiet : Op → Prop

/-- The second program issues the calls of the first, as long as that can succeed. -/
inductive Follows (C : Pairing Op Res) (Q : α → β → Prop) :
    Prog Op Res (Except ε α) → Prog Op Res (Except ε β) → Prop where
  | fails {p : Prog Op Res (Except ε α)} {p' : Prog Op Res (Except ε β)}
      (h : Prog.Fails C.quiet p) : Follows C Q p p'
  | ret {a : α} {b : β} (h : Q a b) : Follows C Q (.ret (.ok a)) (.ret (.ok b))
  | call {o : Op} {k : Res o → Prog Op Res (Except ε α)} {k' : Res o → Prog Op Res (Except ε β)}
      (ho : C.may o) (hloses : ∀ r, C.loses o r → Prog.Fails C.quiet (k r))
      (h : ∀ r r', C.pairs o r r' → Follows C Q (k r) (k' r')) :
      Follows C Q (.call o k) (.call o k')

section Follows

variable {C : Pairing Op Res} {γ δ : Type} {Q : α → β → Prop} {R : γ → δ → Prop}

theorem Follows.bind {p : Prog Op Res (Except ε α)} {p' : Prog Op Res (Except ε β)}
    {f : Except ε α → Prog Op Res (Except ε γ)} {f' : Except ε β → Prog Op Res (Except ε δ)}
    (hp : Follows C Q p p') (hok : ∀ a b, Q a b → Follows C R (f (.ok a)) (f' (.ok b)))
    (herror : ∀ e, Prog.Fails C.quiet (f (.error e))) :
    Follows C R (p >>= f) (p' >>= f') := by
  induction hp with
  | fails h => exact .fails (h.handle herror)
  | ret h => exact hok _ _ h
  | call ho hloses _ ih =>
      refine .call ho (fun r hr => (hloses r hr).handle herror) fun r r' hr => ?_
      exact ih r r' hr

theorem Follows.mono {p : Prog Op Res (Except ε α)} {p' : Prog Op Res (Except ε β)}
    {Q' : α → β → Prop} (hp : Follows C Q p p') (h : ∀ a b, Q a b → Q' a b) :
    Follows C Q' p p' := by
  induction hp with
  | fails hfails => exact .fails hfails
  | ret hab => exact .ret (h _ _ hab)
  | call ho hloses _ ih => exact .call ho hloses ih

/-- `Follows` of programs that end in a value or raise an exception. -/
def FollowsE (C : Pairing Op Res) (Q : α → β → Prop) (x : ExceptT ε (Prog Op Res) α)
    (x' : ExceptT ε (Prog Op Res) β) : Prop :=
  Follows C Q x.run x'.run

theorem followsE_pure {a : α} {b : β} (h : Q a b) :
    FollowsE C Q (pure a : ExceptT ε (Prog Op Res) α) (pure b) :=
  .ret h

theorem followsE_throw (e : ε) (x' : ExceptT ε (Prog Op Res) β) :
    FollowsE C Q (throw e : ExceptT ε (Prog Op Res) α) x' :=
  .fails (.ret e)

theorem followsE_bind {x : ExceptT ε (Prog Op Res) α} {x' : ExceptT ε (Prog Op Res) β}
    {f : α → ExceptT ε (Prog Op Res) γ} {f' : β → ExceptT ε (Prog Op Res) δ}
    (hx : FollowsE C Q x x') (hf : ∀ a b, Q a b → FollowsE C R (f a) (f' b)) :
    FollowsE C R (x >>= f) (x' >>= f') := by
  unfold FollowsE
  rw [Prog.run_bindE, Prog.run_bindE]
  exact Follows.bind hx hf fun e => .ret e

theorem followsE_tryCatch {x : ExceptT ε (Prog Op Res) α} {x' : ExceptT ε (Prog Op Res) β}
    {f : ε → ExceptT ε (Prog Op Res) α} {f' : ε → ExceptT ε (Prog Op Res) β}
    (hx : FollowsE C Q x x') (hf : ∀ e, Prog.Fails C.quiet (f e).run) :
    FollowsE C Q (tryCatch x f) (tryCatch x' f') :=
  Follows.bind hx (fun _ _ h => .ret h) hf

theorem followsE_forM {f f' : α → ExceptT ε (Prog Op Res) PUnit} {as : List α}
    (h : ∀ a, FollowsE C (fun _ _ => True) (f a) (f' a)) :
    FollowsE C (fun _ _ => True) (forM as f) (forM as f') := by
  induction as with
  | nil => exact followsE_pure trivial
  | cons a rest ih =>
      rw [List.forM_cons, List.forM_cons]
      exact followsE_bind (h a) fun _ _ _ => ih

end Follows

/-! ## Systems side by side -/

/-- How a run compares with the run without some of its processes. -/
structure Projection (T Op : Type) (Res : Op → Type) (α L D : Type) where
  pairing : Pairing Op Res
  loc : L → L → Prop
  shared : D → D → Prop
  value : α → α → Prop
  keeps : T → Prop
  drops : T → Prop

namespace Projection

variable (M : Machine Op Res Env L D K) (W : Workload T Op Res (Except ε α) L)
  (P : Projection T Op Res α L D) (inv : System T Op Res (Except ε α) L D → Prop)

/-- What a step of a process that is kept, and of one that is left out, has to do. -/
structure Sound : Prop where
  program : ∀ t, P.keeps t → Follows P.pairing P.value (W.program t) (W.program t)
  init : P.loc W.init W.init
  locks : ∀ l l' k, P.loc l l' → M.locks l' k → M.locks l k
  keepsInv : ∀ (e : Event T Env) σ σ', System.Does M W e σ σ' → inv σ → inv σ'
  kept : ∀ {σ σ' : System T Op Res (Except ε α) L D} {i t o k k' l l'} (env : Env),
    inv σ → inv σ' → σ.procs i = some ⟨t, .call o k, l⟩ → σ'.procs i = some ⟨t, .call o k', l'⟩ →
      P.loc l l' → P.shared σ.shared σ'.shared → P.pairing.may o →
        P.pairing.loses o (M.exec env o l σ.shared).1 ∨
          P.pairing.pairs o (M.exec env o l σ.shared).1 (M.exec env o l' σ'.shared).1 ∧
            P.loc (M.exec env o l σ.shared).2.1 (M.exec env o l' σ'.shared).2.1 ∧
            P.shared (M.exec env o l σ.shared).2.2 (M.exec env o l' σ'.shared).2.2
  dropped : ∀ {σ σ₁ : System T Op Res (Except ε α) L D} {i t l l₁ d'},
    inv σ → P.drops t → System.CallStep M i t l l₁ σ σ₁ → P.shared σ.shared d' →
      P.shared σ₁.shared d'

/-- A process and itself in the run without the others. -/
structure Twins (p p' : Proc T Op Res (Except ε α) L) : Prop where
  tag : p.tag = p'.tag
  prog : Follows P.pairing P.value p.prog p'.prog
  loc : P.loc p.loc p'.loc

/-- The full system and the system of the processes that are kept. -/
structure Beside (keep : Nat → Bool) (σ σ' : System T Op Res (Except ε α) L D) : Prop where
  shared : P.shared σ.shared σ'.shared
  kept : ∀ i, keep i = true → Option.Rel P.Twins (σ.procs i) (σ'.procs i)
  dropped : ∀ i, keep i = false → σ'.procs i = none ∧ ∀ p, σ.procs i = some p → P.drops p.tag

/-- A process of the full run ends in an error. -/
def Lost (σ : System T Op Res (Except ε α) L D) : Prop :=
  ∃ i p, σ.procs i = some p ∧ Prog.Fails P.pairing.quiet p.prog

variable {M W P inv} {keep : Nat → Bool} {σ σ' σ₁ : System T Op Res (Except ε α) L D}
  {e : Event T Env} {es : List (Event T Env)}

theorem beside_start {d : D} (hd : P.shared d d) :
    P.Beside keep (System.start d : System T Op Res (Except ε α) L D) (System.start d) where
  shared := hd
  kept _ _ := .none
  dropped _ _ := ⟨rfl, fun _ hp => by cases hp⟩

/-- A kept process moves in both systems. -/
theorem Beside.set_kept (h : P.Beside keep σ σ') {i : Nat} (hi : keep i = true)
    {p p' : Proc T Op Res (Except ε α) L} (hp : P.Twins p p') {d d' : D} (hd : P.shared d d') :
    P.Beside keep ({ σ with shared := d }.set i p) ({ σ' with shared := d' }.set i p') where
  shared := hd
  kept := by
    intro j hj
    by_cases hji : j = i
    · subst hji
      rw [System.set_procs_self, System.set_procs_self]
      exact .some hp
    · rw [System.set_procs_of_ne hji, System.set_procs_of_ne hji]
      exact h.kept j hj
  dropped := by
    intro j hj
    have hji : j ≠ i := by
      rintro rfl
      rw [hi] at hj
      cases hj
    rw [System.set_procs_of_ne hji, System.set_procs_of_ne hji]
    exact h.dropped j hj

/-- A process that is left out moves in the full system. -/
theorem Beside.set_dropped (h : P.Beside keep σ σ') {i : Nat} (hi : keep i = false)
    {p : Proc T Op Res (Except ε α) L} (hp : P.drops p.tag) {d : D}
    (hd : P.shared d σ'.shared) : P.Beside keep ({ σ with shared := d }.set i p) σ' where
  shared := hd
  kept := by
    intro j hj
    have hji : j ≠ i := by
      rintro rfl
      rw [hi] at hj
      cases hj
    rw [System.set_procs_of_ne hji]
    exact h.kept j hj
  dropped := by
    intro j hj
    refine ⟨(h.dropped j hj).1, fun q hq => ?_⟩
    have hall : ∀ j q, (σ.set i p).procs j = some q → keep j = false → P.drops q.tag :=
      System.forall_update (fun _ => hp) fun j q _ hq hj => (h.dropped j hj).2 q hq
    exact hall j q hq hj

/-- A kept process goes on in the smaller system. -/
theorem Beside.twin (h : P.Beside keep σ σ') {i : Nat} (hi : keep i = true)
    {p : Proc T Op Res (Except ε α) L} (hp : σ.procs i = some p) :
    ∃ p', σ'.procs i = some p' ∧ P.Twins p p' := by
  have htwins := h.kept i hi
  rw [hp] at htwins
  cases hp' : σ'.procs i with
  | none =>
      rw [hp'] at htwins
      cases htwins
  | some p' =>
      rw [hp'] at htwins
      cases htwins with
      | some ht => exact ⟨p', rfl, ht⟩

/-- The smaller system has the kept processes only. -/
theorem Beside.original (h : P.Beside keep σ σ') {i : Nat} {p' : Proc T Op Res (Except ε α) L}
    (hp' : σ'.procs i = some p') : ∃ p, σ.procs i = some p ∧ P.Twins p p' := by
  cases hi : keep i with
  | false =>
      rw [(h.dropped i hi).1] at hp'
      cases hp'
  | true =>
      have htwins := h.kept i hi
      rw [hp'] at htwins
      cases hp : σ.procs i with
      | none =>
          rw [hp] at htwins
          cases htwins
      | some p =>
          rw [hp] at htwins
          cases htwins with
          | some ht => exact ⟨p, rfl, ht⟩

/-- Where all processes of the full run have come to a value, so have the others. -/
theorem Beside.succeed (h : P.Beside keep σ σ')
    (hall : ∀ i p, σ.procs i = some p → ∃ a, p.prog = .ret (.ok a)) :
    ∀ i p', σ'.procs i = some p' → ∃ b, p'.prog = .ret (.ok b) := by
  intro i p' hp'
  obtain ⟨p, hp, ht⟩ := h.original hp'
  obtain ⟨a, ha⟩ := hall i p hp
  have hfollows := ht.prog
  rw [ha] at hfollows
  generalize hprog : p'.prog = prog' at hfollows
  cases hfollows with
  | fails hfails => cases hfails
  | @ret _ b _ => exact ⟨b, rfl⟩

/-- What a kept process has locked is free in the smaller system. -/
theorem Beside.free (hS : P.Sound M W inv) (h : P.Beside keep σ σ') {i : Nat} {l l' : L}
    (hl : P.loc l l') (hfree : System.Free M σ i l) : System.Free M σ' i l' := by
  intro j q' hj hq' k hk hk'
  obtain ⟨q, hq, ht⟩ := h.original hq'
  exact hfree j q hj hq k (hS.locks _ _ k hl hk) (hS.locks _ _ k ht.loc hk')

/-- A process that has to end in an error has to in every later state. -/
theorem Lost.step (h : P.Lost σ) (hd : System.Does M W e σ σ₁) : P.Lost σ₁ := by
  obtain ⟨i, p, hp, hfails⟩ := h
  cases hd with
  | @spawn _ j t hj =>
      have hij : i ≠ j := by
        rintro rfl
        rw [hj] at hp
        cases hp
      exact ⟨i, p, (System.set_procs_of_ne hij).trans hp, hfails⟩
  | @call _ j t o k l env hq hfree =>
      by_cases hij : i = j
      · subst hij
        cases hp.symm.trans hq
        cases hfails with
        | call _ h => exact ⟨i, _, System.set_procs_self, h _⟩
      · exact ⟨i, p, (System.set_procs_of_ne hij).trans hp, hfails⟩

theorem Lost.run (h : P.Lost σ) (hr : System.Runs M W σ es σ₁) : P.Lost σ₁ := by
  induction hr with
  | nil _ => exact h
  | cons hd _ ih => exact ih (h.step hd)

/-- One step of a kept process. -/
theorem Beside.step_kept (hS : P.Sound M W inv) (hσ : inv σ) (hσ' : inv σ')
    (h : P.Beside keep σ σ') (hd : System.Does M W e σ σ₁) (he : keep e.proc = true)
    (hspawn : ∀ i t, e = .spawn i t → P.keeps t) :
    P.Lost σ₁ ∨ ∃ σ₁', System.Does M W e σ' σ₁' ∧ P.Beside keep σ₁ σ₁' := by
  cases hd with
  | @spawn _ i t hi =>
      have hi' : σ'.procs i = none := by
        cases hp' : σ'.procs i with
        | none => rfl
        | some p' =>
            obtain ⟨p, hp, _⟩ := h.original hp'
            rw [hi] at hp
            cases hp
      refine Or.inr ⟨_, .spawn hi', h.set_kept he ⟨rfl, ?_, hS.init⟩ h.shared⟩
      exact hS.program t (hspawn i t rfl)
  | @call _ i t o k l env hp hfree =>
      obtain ⟨⟨t', prog', l'⟩, hp', ht⟩ := h.twin he hp
      obtain ⟨rfl, hfollows, hl⟩ := ht
      cases hfollows with
      | fails hfails =>
          cases hfails with
          | call _ hk => exact Or.inl ⟨i, _, System.set_procs_self, hk _⟩
      | call ho hloses hk =>
          rcases hS.kept env hσ hσ' hp hp' hl h.shared ho with hlost | ⟨hpair, hl₁, hd₁⟩
          · exact Or.inl ⟨i, _, System.set_procs_self, hloses _ hlost⟩
          · refine Or.inr ⟨_, .call hp' (h.free hS hl₁ hfree), ?_⟩
            refine h.set_kept he ?_ hd₁
            exact ⟨rfl, hk _ _ hpair, hl₁⟩

/-- One step of a process that is left out. -/
theorem Beside.step_dropped (hS : P.Sound M W inv) (hσ : inv σ) (h : P.Beside keep σ σ')
    (hd : System.Does M W e σ σ₁) (he : keep e.proc = false)
    (hspawn : ∀ i t, e = .spawn i t → P.drops t) : P.Beside keep σ₁ σ' := by
  cases hd with
  | @spawn _ i t hi => exact h.set_dropped he (hspawn i t rfl) h.shared
  | @call _ i t o k l env hp hfree =>
      have ht : P.drops t := (h.dropped i he).2 _ hp
      exact h.set_dropped he ht (hS.dropped hσ ht (.call env hp hfree) h.shared)

/-- A run of which no process ends in an error is a run without the processes that are
left out. -/
theorem project (hS : P.Sound M W inv) (hσ : inv σ) (hσ' : inv σ') (h : P.Beside keep σ σ')
    (hr : System.Runs M W σ es σ₁)
    (hkeeps : ∀ i t, .spawn i t ∈ es → keep i = true → P.keeps t)
    (hdrops : ∀ i t, .spawn i t ∈ es → keep i = false → P.drops t) :
    P.Lost σ₁ ∨ ∃ σ₁', System.Runs M W σ' (es.filter fun e => keep e.proc) σ₁' ∧
      P.Beside keep σ₁ σ₁' := by
  induction hr generalizing σ' with
  | nil _ => exact Or.inr ⟨σ', .nil σ', h⟩
  | @cons e es σ σ₂ σ₃ hd hr ih =>
      have hσ₂ : inv σ₂ := hS.keepsInv e σ σ₂ hd hσ
      have hkeeps' : ∀ i t, .spawn i t ∈ es → keep i = true → P.keeps t :=
        fun i t ht => hkeeps i t (List.mem_cons_of_mem e ht)
      have hdrops' : ∀ i t, .spawn i t ∈ es → keep i = false → P.drops t :=
        fun i t ht => hdrops i t (List.mem_cons_of_mem e ht)
      cases he : keep e.proc with
      | false =>
          rw [List.filter_cons_of_neg (by simp [he])]
          refine ih hσ₂ hσ' (h.step_dropped hS hσ hd he ?_) hkeeps' hdrops'
          rintro i t rfl
          exact hdrops i t List.mem_cons_self he
      | true =>
          rw [List.filter_cons_of_pos (by exact he)]
          have hstep := h.step_kept hS hσ hσ' hd he (by
            rintro i t rfl
            exact hkeeps i t List.mem_cons_self he)
          rcases hstep with hlost | ⟨σ₂', hd', h₂⟩
          · exact Or.inl (hlost.run hr)
          · have hσ₂' : inv σ₂' := hS.keepsInv e σ' σ₂' hd' hσ'
            rcases ih hσ₂ hσ₂' h₂ hkeeps' hdrops' with hlost | ⟨σ₁', hr', h₁⟩
            · exact Or.inl hlost
            · exact Or.inr ⟨σ₁', .cons hd' hr', h₁⟩

end Projection
end Transaction
end TaskPlatform
