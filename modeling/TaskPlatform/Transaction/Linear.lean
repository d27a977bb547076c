import Mathlib.Tactic.Choose
import TaskPlatform.Transaction.Atomic
import TaskPlatform.Transaction.Schedule

/-!
# Linearization

In a run whose transactions are atomic each of them can be put at the call that did its
work.  In that order they are a run of the specification, one transaction after the other,
and a transaction that had ended before another began comes before it.
-/

namespace TaskPlatform
namespace Transaction

variable {T Op : Type} {Res : Op → Type} {Env L D K α : Type}

/-- The calls of all processes, in the order in which they were made. -/
abbrev Trace (Op Env L D : Type) : Type := List (Nat × Move Op Env L D)

/-- The calls of one process. -/
def own (i : Nat) (h : Trace Op Env L D) : History Op Env L D :=
  (h.filter fun x => x.1 = i).map Prod.snd

section Own

variable {i j : Nat} {g h : Trace Op Env L D} {m : Move Op Env L D}

@[simp] theorem own_nil : own i ([] : Trace Op Env L D) = [] := rfl

@[simp] theorem own_append : own i (g ++ h) = own i g ++ own i h := by
  simp [own]

@[simp] theorem own_cons_self : own i ((i, m) :: h) = m :: own i h := by
  simp [own]

theorem own_cons_of_ne (hij : j ≠ i) : own i ((j, m) :: h) = own i h := by
  simp [own, hij]

end Own

/-! ## Orders of answers -/

section Orders

variable (same : D → D → Prop) (answers : Nat → D → α → D → Prop)

/-- Each answer is due to a call of its process, in the order of the calls, and every other
call is quiet. -/
inductive Explains : Trace Op Env L D → List (Nat × α) → Prop where
  | nil : Explains [] []
  | quiet {i : Nat} {m : Move Op Env L D} {h : Trace Op Env L D} {lin : List (Nat × α)}
      (hm : same m.before m.after) (hh : Explains h lin) : Explains ((i, m) :: h) lin
  | answered {i : Nat} {a : α} {m : Move Op Env L D} {h : Trace Op Env L D}
      {lin : List (Nat × α)} (hm : answers i m.before a m.after) (hh : Explains h lin) :
      Explains ((i, m) :: h) ((i, a) :: lin)

/-- Answers given one after the other. -/
inductive Legal : D → List (Nat × α) → D → Prop where
  | nil {d d' : D} (h : same d d') : Legal d [] d'
  | cons {d d₁ d₂ d' : D} {i : Nat} {a : α} {lin : List (Nat × α)} (h : same d d₁)
      (ha : answers i d₁ a d₂) (hlin : Legal d₂ lin d') : Legal d ((i, a) :: lin) d'

end Orders

/-- Each call finds what the one before it left. -/
def Chained : D → Trace Op Env L D → D → Prop
  | d, [], d' => d' = d
  | d, (_, m) :: h, d' => m.before = d ∧ Chained m.after h d'

section Orders

variable {same : D → D → Prop} {answers : Nat → D → α → D → Prop} {i j : Nat} {a b : α}
  {m : Move Op Env L D} {g h h₁ h₂ : Trace Op Env L D} {lin : List (Nat × α)} {d d' d'' : D}

theorem Chained.concat (hh : Chained d h m.before) : Chained d (h ++ [(i, m)]) m.after := by
  induction h generalizing d with
  | nil => exact ⟨hh, rfl⟩
  | cons x h ih => exact ⟨hh.1, ih hh.2⟩

theorem Legal.congr (htrans : ∀ d₁ d₂ d₃, same d₁ d₂ → same d₂ d₃ → same d₁ d₃)
    (hd : same d d') (h : Legal same answers d' lin d'') : Legal same answers d lin d'' := by
  cases h with
  | nil h => exact .nil (htrans _ _ _ hd h)
  | cons h ha hlin => exact .cons (htrans _ _ _ hd h) ha hlin

/-- Answers that explain a run are a run of the specification. -/
theorem Explains.legal (hrefl : ∀ d, same d d)
    (htrans : ∀ d₁ d₂ d₃, same d₁ d₂ → same d₂ d₃ → same d₁ d₃)
    (hh : Explains same answers h lin) (hd : Chained d h d') : Legal same answers d lin d' := by
  induction hh generalizing d with
  | nil =>
      rw [show d' = d from hd]
      exact .nil (hrefl d)
  | quiet hm _ ih =>
      obtain ⟨rfl, hd⟩ := hd
      exact (ih hd).congr htrans hm
  | answered hm _ ih =>
      obtain ⟨rfl, hd⟩ := hd
      exact .cons (hrefl _) hm (ih hd)

theorem Explains.own_ne_nil (hh : Explains same answers h lin) (ha : (i, a) ∈ lin) :
    own i h ≠ [] := by
  induction hh with
  | nil => exact absurd ha List.not_mem_nil
  | @quiet j m h lin hm _ ih =>
      by_cases hji : j = i
      · rw [hji, own_cons_self]
        exact List.cons_ne_nil _ _
      · rw [own_cons_of_ne hji]
        exact ih ha
  | @answered j b m h lin hm _ ih =>
      by_cases hji : j = i
      · rw [hji, own_cons_self]
        exact List.cons_ne_nil _ _
      · rw [own_cons_of_ne hji]
        refine ih ((List.mem_cons.mp ha).resolve_left fun heq => hji ?_)
        exact (congrArg Prod.fst heq).symm

/-- Who is not in the order has changed nothing. -/
theorem Explains.quiet_of_notMem (hh : Explains same answers h lin)
    (hi : i ∉ lin.map Prod.fst) : Quiet same (own i h) := by
  induction hh with
  | nil => exact quiet_nil
  | @quiet j m h lin hm _ ih =>
      by_cases hji : j = i
      · rw [hji, own_cons_self]
        exact List.forall_mem_cons.mpr ⟨hm, ih hi⟩
      · rw [own_cons_of_ne hji]
        exact ih hi
  | @answered j b m h lin hm _ ih =>
      rw [List.map_cons, List.mem_cons, not_or] at hi
      rw [own_cons_of_ne (Ne.symm hi.1)]
      exact ih hi.2

theorem Explains.split (hh : Explains same answers (h₁ ++ h₂) lin) :
    ∃ lin₁ lin₂, lin = lin₁ ++ lin₂ ∧ Explains same answers h₁ lin₁ ∧
      Explains same answers h₂ lin₂ := by
  induction h₁ generalizing lin with
  | nil => exact ⟨[], lin, rfl, .nil, hh⟩
  | cons x h₁ ih =>
      cases hh with
      | quiet hm hh =>
          obtain ⟨lin₁, lin₂, rfl, hlin₁, hlin₂⟩ := ih hh
          exact ⟨lin₁, lin₂, rfl, .quiet hm hlin₁, hlin₂⟩
      | answered hm hh =>
          obtain ⟨lin₁, lin₂, rfl, hlin₁, hlin₂⟩ := ih hh
          exact ⟨_ :: lin₁, lin₂, rfl, .answered hm hlin₁, hlin₂⟩

/-- Who has made all his calls before another makes his first comes before him. -/
theorem Explains.precedes (hh : Explains same answers (h₁ ++ h₂) lin) (hi : own i h₂ = [])
    (hj : own j h₁ = []) (ha : (i, a) ∈ lin) (hb : (j, b) ∈ lin) :
    [(i, a), (j, b)].Sublist lin := by
  obtain ⟨lin₁, lin₂, rfl, hlin₁, hlin₂⟩ := hh.split
  have ha : (i, a) ∈ lin₁ :=
    (List.mem_append.mp ha).resolve_right fun ha => hlin₂.own_ne_nil ha hi
  have hb : (j, b) ∈ lin₂ :=
    (List.mem_append.mp hb).resolve_left fun hb => hlin₁.own_ne_nil hb hj
  exact (List.singleton_sublist.mpr ha).append (List.singleton_sublist.mpr hb)

/-! ## Putting transactions at their calls -/

/-- Call number `k` of process `i` does its work, with answer `a`. -/
def WorksAt (same : D → D → Prop) (answers : Nat → D → α → D → Prop) (h : Trace Op Env L D)
    (i k : Nat) (a : α) : Prop :=
  ∃ h₁ m h₂, own i h = h₁ ++ m :: h₂ ∧ h₁.length = k ∧ Quiet same h₁ ∧ Quiet same h₂ ∧
    answers i m.before a m.after

theorem WorksAt.lt_length {k : Nat} (hw : WorksAt same answers h i k a) :
    k < (own i h).length := by
  obtain ⟨h₁, m, h₂, hown, rfl, _⟩ := hw
  rw [hown, List.length_append, List.length_cons]
  omega

/-- The calls of process `i` up to this one. -/
theorem WorksAt.at_call {k : Nat} (hw : WorksAt same answers (g ++ (i, m) :: h) i k a) :
    if k = (own i g).length then answers i m.before a m.after else same m.before m.after := by
  obtain ⟨h₁, m', h₂, hown, hk, hquiet₁, hquiet₂, ha⟩ := hw
  rw [own_append, own_cons_self] at hown
  by_cases hlength : k = (own i g).length
  · rw [if_pos hlength]
    obtain ⟨_, hrest⟩ := List.append_inj hown (by omega)
    cases hrest
    exact ha
  · rw [if_neg hlength]
    rcases List.append_eq_append_iff.mp hown with ⟨x, hx, hrest⟩ | ⟨x, hx, hrest⟩
    · -- the call comes before the one that does the work
      cases x with
      | nil =>
          rw [List.append_nil] at hx
          rw [hx] at hk
          exact absurd hk.symm hlength
      | cons y x =>
          have hfirst : m = y := (List.cons.inj hrest).1
          exact hquiet₁ m (hx ▸ hfirst ▸ List.mem_append_right _ List.mem_cons_self)
    · cases x with
      | nil =>
          rw [List.append_nil] at hx
          rw [hx] at hlength
          exact absurd hk.symm hlength
      | cons y x =>
          have hafter : h₂ = x ++ m :: own i h := (List.cons.inj hrest).2
          exact hquiet₂ m (hafter ▸ List.mem_append_right _ List.mem_cons_self)

/-- When each process has at most one call that does its work, the answers of those calls
explain the run. -/
theorem explains_of_picks {pick : Nat → Option (Nat × α)}
    (hnone : ∀ i, pick i = none → Quiet same (own i h))
    (hsome : ∀ i k a, pick i = some (k, a) → WorksAt same answers h i k a) :
    ∃ lin, Explains same answers h lin ∧ (lin.map Prod.fst).Nodup ∧
      ∀ i a, (i, a) ∈ lin ↔ ∃ k, pick i = some (k, a) := by
  -- what is left of the trace is explained by the calls that are still to come
  suffices hrest : ∀ rest g, h = g ++ rest → ∃ lin, Explains same answers rest lin ∧
      (lin.map Prod.fst).Nodup ∧
      (∀ i a, (i, a) ∈ lin → ∃ k, pick i = some (k, a) ∧ (own i g).length ≤ k) ∧
      ∀ i k a, pick i = some (k, a) → (own i g).length ≤ k → (i, a) ∈ lin by
    obtain ⟨lin, hlin, hnodup, hfrom, hall⟩ := hrest h [] rfl
    refine ⟨lin, hlin, hnodup, fun i a => ⟨fun ha => ?_, fun hpick => ?_⟩⟩
    · obtain ⟨k, hpick, _⟩ := hfrom i a ha
      exact ⟨k, hpick⟩
    · obtain ⟨k, hpick⟩ := hpick
      exact hall i k a hpick (Nat.zero_le k)
  intro rest
  induction rest with
  | nil =>
      intro g hg
      rw [List.append_nil] at hg
      refine ⟨[], .nil, List.nodup_nil, fun _ _ ha => absurd ha List.not_mem_nil, ?_⟩
      intro i k a hpick hlength
      have hlt := (hsome i k a hpick).lt_length
      rw [hg] at hlt
      omega
  | cons x rest ih =>
      obtain ⟨i, m⟩ := x
      intro g hg
      obtain ⟨lin, hlin, hnodup, hfrom, hall⟩ := ih (g ++ [(i, m)])
        (hg.trans (List.append_assoc g [(i, m)] rest).symm)
      have hself : (own i (g ++ [(i, m)])).length = (own i g).length + 1 := by simp
      have hother : ∀ j, j ≠ i → own j (g ++ [(i, m)]) = own j g := by
        intro j hj
        rw [own_append, own_cons_of_ne (Ne.symm hj), own_nil, List.append_nil]
      have hle : ∀ j, (own j g).length ≤ (own j (g ++ [(i, m)])).length := by
        intro j
        rw [own_append, List.length_append]
        omega
      have hlater : ∀ j a, (j, a) ∈ lin → ∃ k, pick j = some (k, a) ∧ (own j g).length ≤ k := by
        intro j a ha
        obtain ⟨k, hpick, hk⟩ := hfrom j a ha
        exact ⟨k, hpick, Nat.le_trans (hle j) hk⟩
      by_cases hworks : ∃ a, pick i = some ((own i g).length, a)
      · obtain ⟨a, hpick⟩ := hworks
        have hm : answers i m.before a m.after := by
          have hcall := hsome i _ a hpick
          rw [hg] at hcall
          simpa using hcall.at_call
        have hnew : i ∉ lin.map Prod.fst := by
          intro hi
          obtain ⟨⟨j, b⟩, hb, hj⟩ := List.mem_map.mp hi
          have hj : j = i := hj
          obtain ⟨k, hk, hlength⟩ := hfrom j b hb
          rw [hj, hpick, Option.some.injEq, Prod.mk.injEq] at hk
          rw [hj, hself] at hlength
          omega
        refine ⟨(i, a) :: lin, .answered hm hlin, List.nodup_cons.mpr ⟨hnew, hnodup⟩, ?_, ?_⟩
        · intro j b hb
          rcases List.mem_cons.mp hb with hb | hb
          · cases hb
            exact ⟨_, hpick, Nat.le_refl _⟩
          · exact hlater j b hb
        · intro j k b hk hlength
          by_cases hj : j = i
          · rw [hj, hpick, Option.some.injEq, Prod.mk.injEq] at hk
            rw [hj, ← hk.2]
            exact List.mem_cons_self
          · rw [← hother j hj] at hlength
            exact List.mem_cons_of_mem _ (hall j k b hk hlength)
      · have hm : same m.before m.after := by
          cases hpick : pick i with
          | none =>
              refine hnone i hpick m ?_
              rw [hg, own_append, own_cons_self]
              exact List.mem_append_right _ List.mem_cons_self
          | some x =>
              obtain ⟨k, a⟩ := x
              have hcall := hsome i k a hpick
              rw [hg] at hcall
              have hk : k ≠ (own i g).length := fun hk => hworks ⟨a, hk ▸ hpick⟩
              simpa [hk] using hcall.at_call
        refine ⟨lin, .quiet hm hlin, hnodup, hlater, fun j k b hk hlength => ?_⟩
        refine hall j k b hk ?_
        by_cases hj : j = i
        · have hne : k ≠ (own i g).length := fun heq => hworks ⟨b, by rw [← heq, ← hj]; exact hk⟩
          rw [hj, hself]
          rw [hj] at hlength
          omega
        · rw [hother j hj]
          exact hlength

/-- Atomic transactions have a linear order.  Those that are `done` are in it, and of the
others those only that have changed something. -/
theorem exists_explains {done : Nat → α → Prop}
    (hdone : ∀ i a, done i a → Atomic same (answers i) a (own i h))
    (hunique : ∀ i a b, done i a → done i b → a = b)
    (hall : ∀ i, Quiet same (own i h) ∨ ∃ a, Atomic same (answers i) a (own i h)) :
    ∃ lin, Explains same answers h lin ∧ (lin.map Prod.fst).Nodup ∧
      (∀ i a, done i a → (i, a) ∈ lin) ∧
      ∀ i a, (i, a) ∈ lin → done i a ∨ ¬ Quiet same (own i h) := by
  have hworks : ∀ i a, Atomic same (answers i) a (own i h) →
      ∃ k, WorksAt same answers h i k a := by
    rintro i a ⟨h₁, m, h₂, hown, hquiet₁, hquiet₂, ha⟩
    exact ⟨_, h₁, m, h₂, hown, rfl, hquiet₁, hquiet₂, ha⟩
  have hpick : ∀ i, ∃ x : Option (Nat × α), (x = none → Quiet same (own i h)) ∧
      (∀ k a, x = some (k, a) → WorksAt same answers h i k a) ∧
      (∀ a, done i a → ∃ k, x = some (k, a)) ∧
      ∀ k a, x = some (k, a) → done i a ∨ ¬ Quiet same (own i h) := by
    intro i
    by_cases hi : ∃ a, done i a
    · obtain ⟨a, ha⟩ := hi
      obtain ⟨k, hk⟩ := hworks i a (hdone i a ha)
      refine ⟨some (k, a), (fun hnone => by cases hnone), ?_, fun b hb => ⟨k, ?_⟩, ?_⟩
      · rintro k' a' ⟨⟩
        exact hk
      · rw [hunique i a b ha hb]
      · rintro k' a' ⟨⟩
        exact Or.inl ha
    · have hundone : ∀ (x : Option (Nat × α)) a, done i a → ∃ k, x = some (k, a) :=
        fun _ a ha => absurd ⟨a, ha⟩ hi
      by_cases hquiet : Quiet same (own i h)
      · exact ⟨none, fun _ => hquiet, (fun _ _ hsome => by cases hsome), hundone none,
          fun _ _ hsome => by cases hsome⟩
      · obtain ⟨a, ha⟩ := (hall i).resolve_left hquiet
        obtain ⟨k, hk⟩ := hworks i a ha
        refine ⟨some (k, a), (fun hnone => by cases hnone), ?_, hundone _,
          fun _ _ _ => Or.inr hquiet⟩
        rintro k' a' ⟨⟩
        exact hk
  choose pick hnone hsome hpicked hwhy using hpick
  obtain ⟨lin, hlin, hnodup, hin⟩ := explains_of_picks hnone hsome
  refine ⟨lin, hlin, hnodup, fun i a ha => (hin i a).mpr (hpicked i a ha), fun i a ha => ?_⟩
  obtain ⟨k, hk⟩ := (hin i a).mp ha
  exact hwhy i k a hk

/-- One order of transactions explains a run. -/
structure Linearizes (same : D → D → Prop) (answers : Nat → D → α → D → Prop) (d : D)
    (h : Trace Op Env L D) (d' : D) (lin : List (Nat × α)) : Prop where
  legal : Legal same answers d lin d'
  once : (lin.map Prod.fst).Nodup
  /-- Who had made his last call before another made his first comes before him. -/
  order : ∀ h₁ h₂ i j a b, h = h₁ ++ h₂ → own i h₂ = [] → own j h₁ = [] → (i, a) ∈ lin →
    (j, b) ∈ lin → [(i, a), (j, b)].Sublist lin

theorem Explains.linearizes (hrefl : ∀ d, same d d)
    (htrans : ∀ d₁ d₂ d₃, same d₁ d₂ → same d₂ d₃ → same d₁ d₃)
    (hh : Explains same answers h lin) (honce : (lin.map Prod.fst).Nodup) (hd : Chained d h d') :
    Linearizes same answers d h d' lin where
  legal := hh.legal hrefl htrans hd
  once := honce
  order h₁ h₂ i j a b hsplit hi hj ha hb := by
    subst hsplit
    exact hh.precedes hi hj ha hb

end Orders

/-! ## Runs with their traces -/

namespace System

section Traces

variable (M : Machine Op Res Env L D K) (W : Workload T Op Res α L) (allowed : T → Prop)
  (assume : T → L → D → L → D → Prop) (d₀ : D)

/-- A recorded run, with the calls in the order in which they were made. -/
inductive Traced : System T Op Res α (L × History Op Env L D) D → Trace Op Env L D → Prop where
  | start : Traced (start d₀) []
  | spawn {σ : System T Op Res α (L × History Op Env L D) D} {h : Trace Op Env L D}
      (hr : Traced σ h) (i : Nat) (t : T) (ht : allowed t) (hi : σ.procs i = none) :
      Traced
        { σ with procs := Function.update σ.procs i (some ⟨t, W.program t, (W.init, [])⟩) } h
  | call {σ σ' : System T Op Res α (L × History Op Env L D) D} {h : Trace Op Env L D} {i : Nat}
      {t : T} {x x' : L × History Op Env L D} {m : Move Op Env L D} (hr : Traced σ h)
      (hs : CallStep M.recording i t x x' σ σ') (ha : assume t x.1 σ.shared x'.1 σ'.shared)
      (hm : x'.2 = x.2 ++ [m]) : Traced σ' (h ++ [(i, m)])

variable {M W allowed assume d₀} {σ : System T Op Res α (L × History Op Env L D) D}
  {h : Trace Op Env L D}

theorem Traced.recorded (hr : Traced M W allowed assume d₀ σ h) :
    Recorded M W allowed assume d₀ σ := by
  induction hr with
  | start => exact .start
  | spawn _ i t ht hi ih => exact ih.step (.spawn i t ht hi)
  | call _ hs ha _ ih => exact ih.step (.call hs ha)

theorem traced_of_recorded (hr : Recorded M W allowed assume d₀ σ) :
    ∃ h, Traced M W allowed assume d₀ σ h := by
  induction hr with
  | start => exact ⟨[], .start⟩
  | step _ hs ih =>
      obtain ⟨h, hh⟩ := ih
      cases hs with
      | spawn i t ht hi => exact ⟨h, hh.spawn i t ht hi⟩
      | @call _ _ _ x x' hs ha =>
          have hmove : ∃ m, x'.2 = x.2 ++ [m] := by
            cases hs with
            | call env hp hfree => exact ⟨_, rfl⟩
          obtain ⟨m, hm⟩ := hmove
          exact ⟨_, hh.call hs ha hm⟩

theorem Traced.chained (hr : Traced M W allowed assume d₀ σ h) : Chained d₀ h σ.shared := by
  induction hr with
  | start => exact rfl
  | spawn _ i t _ _ ih => exact ih
  | call _ hs _ hm ih =>
      cases hs with
      | call env hp hfree =>
          have hm := List.append_cancel_left hm
          rw [List.singleton_inj] at hm
          subst hm
          exact ih.concat

/-- The shared state after a call is the machine's. -/
theorem Traced.moved (hr : Traced M W allowed assume d₀ σ h) :
    ∀ x ∈ h, x.2.after = (M.exec x.2.env x.2.op x.2.loc x.2.before).2.2 := by
  induction hr with
  | start => exact fun x hx => by cases hx
  | spawn _ i t _ _ ih => exact ih
  | call _ hs _ hm ih =>
      cases hs with
      | call env hp hfree =>
          have hm := List.append_cancel_left hm
          rw [List.singleton_inj] at hm
          subst hm
          intro x hx
          rcases List.mem_append.mp hx with hx | hx
          · exact ih x hx
          · rw [List.mem_singleton.mp hx]

/-- The calls a process has recorded are its calls in the trace. -/
theorem Traced.own_eq (hr : Traced M W allowed assume d₀ σ h) :
    (∀ i p, σ.procs i = some p → p.loc.2 = own i h) ∧
      ∀ i, σ.procs i = none → own i h = [] := by
  induction hr with
  | start => exact ⟨(fun i p hp => by cases hp), fun i _ => rfl⟩
  | spawn _ i t _ hi ih =>
      refine ⟨forall_update (ih.2 i hi).symm fun j q _ hq => ih.1 j q hq, fun j hj => ?_⟩
      by_cases hji : j = i
      · rw [hji]
        exact ih.2 i hi
      · exact ih.2 j ((Function.update_of_ne hji _ _).symm.trans hj)
  | @call σ _ h i _ _ _ m _ hs _ hm ih =>
      have hother : ∀ j, j ≠ i → own j (h ++ [(i, m)]) = own j h := by
        intro j hj
        rw [own_append, own_cons_of_ne (Ne.symm hj), own_nil, List.append_nil]
      cases hs with
      | call env hp hfree =>
          refine ⟨forall_update ?_ fun j q hj hq => ?_, fun j hj => ?_⟩
          · rw [own_append, own_cons_self, own_nil, ← ih.1 i _ hp]
            exact hm
          · rw [hother j hj]
            exact ih.1 j q hq
          · by_cases hji : j = i
            · rw [hji] at hj
              cases (Function.update_self i _ σ.procs).symm.trans hj
            · rw [hother j hji]
              exact ih.2 j ((Function.update_of_ne hji _ _).symm.trans hj)

theorem Traced.mem (hr : Traced M W allowed assume d₀ σ h) {i : Nat}
    {p : Proc T Op Res α (L × History Op Env L D)} (hp : σ.procs i = some p)
    {m : Move Op Env L D} (hm : m ∈ p.loc.2) : (i, m) ∈ h := by
  rw [hr.own_eq.1 i p hp] at hm
  obtain ⟨⟨j, m'⟩, hx, rfl⟩ := List.mem_map.mp hm
  obtain ⟨hx, hj⟩ := List.mem_filter.mp hx
  rwa [← of_decide_eq_true hj]

/-- Every call of the trace is recorded by the process that made it. -/
theorem Traced.proc (hr : Traced M W allowed assume d₀ σ h) {i : Nat} {m : Move Op Env L D}
    (hm : (i, m) ∈ h) : ∃ p, σ.procs i = some p ∧ m ∈ p.loc.2 := by
  have hown : m ∈ own i h :=
    List.mem_map.mpr ⟨(i, m), List.mem_filter.mpr ⟨hm, decide_eq_true rfl⟩, rfl⟩
  cases hp : σ.procs i with
  | none =>
      rw [hr.own_eq.2 i hp] at hown
      cases hown
  | some p => exact ⟨p, rfl, (hr.own_eq.1 i p hp).symm ▸ hown⟩

end Traces

/-- The calls of a schedule find the environments of its events. -/
theorem Runs.environments {M : Machine Op Res Env L D K} {W : Workload T Op Res α L}
    {P : Env → Prop} {es : List (Event T Env)}
    {σ σ' : System T Op Res α (L × History Op Env L D) D}
    (hr : Runs M.recording (W.recording Env D) σ es σ')
    (hes : ∀ i env, Event.call i env ∈ es → P env)
    (hσ : ∀ i p, σ.procs i = some p → ∀ m ∈ p.loc.2, P m.env) :
    ∀ i p, σ'.procs i = some p → ∀ m ∈ p.loc.2, P m.env := by
  induction hr with
  | nil σ => exact hσ
  | cons hd _ ih =>
      refine ih (fun i env he => hes i env (List.mem_cons_of_mem _ he)) ?_
      cases hd with
      | spawn hi =>
          exact forall_update (fun _ hm => absurd hm List.not_mem_nil) fun j q _ hq => hσ j q hq
      | call hp hfree =>
          refine forall_update ?_ fun j q _ hq => hσ j q hq
          refine List.forall_mem_append.mpr ⟨hσ _ _ hp, List.forall_mem_singleton.mpr ?_⟩
          exact hes _ _ List.mem_cons_self

/-- A process that guarantees to do its work at one call has not begun it or has done it. -/
theorem quiet_or_atomic_of_recorded {M : Machine Op Res Env L D K} {W : Workload T Op Res α L}
    {allowed : T → Prop} {assume : T → L → D → L → D → Prop} {d₀ : D} {good : Env → Prop}
    {meddles : L → D → D → Prop} {guarantee : T → History Op Env L D → D → D → Prop}
    {tags : T → Prop} {Q : T → α → L × History Op Env L D → D → Prop} {same : D → D → Prop}
    {answers : T → D → α → D → Prop}
    (hself : ∀ σ, Reachable M W allowed assume d₀ σ → ∀ l, meddles l σ.shared σ.shared)
    (hwp : ∀ σ, Recorded M W allowed assume d₀ σ → ∀ i p, σ.procs i = some p → tags p.tag →
      (∀ m ∈ p.loc.2, good m.env) →
        wp M.recording (within good meddles (guarantee p.tag)) p.prog (Q p.tag) p.loc σ.shared)
    (hguarantee : ∀ t h d d', guarantee t h d d' →
      same d d' ∨ (Quiet same h ∧ ∃ a, answers t d a d'))
    {σ : System T Op Res α (L × History Op Env L D) D} (hr : Recorded M W allowed assume d₀ σ) :
    ∀ i p, σ.procs i = some p → tags p.tag → (∀ m ∈ p.loc.2, good m.env) →
      Quiet same p.loc.2 ∨ ∃ a, Atomic same (answers p.tag) a p.loc.2 := by
  induction hr with
  | start => exact fun i p hp => by cases hp
  | @step τ _ hτ hs ih =>
      cases hs with
      | spawn i t ht hi =>
          exact forall_update (fun _ _ => Or.inl quiet_nil) fun j q _ hq => ih j q hq
      | call hs ha =>
          cases hs with
          | call env hp hfree =>
              refine forall_update (fun htag hall => ?_) fun j q _ hq => ih j q hq
              have hbefore := fun m hm => hall m (List.mem_append_left _ hm)
              have hstep := (hwp τ hτ _ _ hp htag hbefore _ (hself _ (reachable_forget hτ) _) env
                hall).1
              rcases hguarantee _ _ _ _ hstep with hsame | ⟨hquiet, a, ha⟩
              · rcases ih _ _ hp htag hbefore with hquiet | ⟨a, ha⟩
                · exact Or.inl (hquiet.concat hsame)
                · exact Or.inr ⟨a, ha.concat hsame⟩
              · exact Or.inr ⟨a, hquiet.atomic_concat ha⟩

end System
end Transaction
end TaskPlatform
