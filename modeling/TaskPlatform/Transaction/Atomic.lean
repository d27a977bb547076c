import TaskPlatform.Transaction.History
import TaskPlatform.Transaction.Smooth

/-!
# Atomic transactions

A transaction is atomic when it might as well have run at one of its calls, with nobody
else in between: the other calls leave the shared state alone, and what it ends with is
the answer to the state that one call found (`Atomic`).

A program that only reads, from a snapshot its first read opens, does under interference
what it does alone on that snapshot (`wp_of_snapshotReads`).  So the serial account of
such a program is all that is needed of it.
-/

namespace TaskPlatform
namespace Transaction

variable {T Op : Type} {Res : Op → Type} {Env L D K α : Type}

/-! ## Histories of atomic transactions -/

/-- No call changed the shared state, apart from what `same` overlooks. -/
def Quiet (same : D → D → Prop) (h : History Op Env L D) : Prop := ∀ m ∈ h, same m.before m.after

/-- One call found a state to which `a` is the answer and left the state the answer
leaves; all the others were quiet. -/
def Atomic (same : D → D → Prop) (answers : D → α → D → Prop) (a : α)
    (h : History Op Env L D) : Prop :=
  ∃ h₁ m h₂, h = h₁ ++ m :: h₂ ∧ Quiet same h₁ ∧ Quiet same h₂ ∧ answers m.before a m.after

section Histories

variable {same : D → D → Prop} {answers : D → α → D → Prop} {a : α} {h h' : History Op Env L D}
  {m : Move Op Env L D}

theorem quiet_nil : Quiet same ([] : History Op Env L D) :=
  fun _ hm => absurd hm List.not_mem_nil

theorem Quiet.append (hh : Quiet same h) (hh' : Quiet same h') : Quiet same (h ++ h') :=
  List.forall_mem_append.mpr ⟨hh, hh'⟩

theorem Quiet.concat (hh : Quiet same h) (hm : same m.before m.after) : Quiet same (h ++ [m]) :=
  hh.append (List.forall_mem_singleton.mpr hm)

/-- A quiet transaction is atomic at each call that found a state it answers to. -/
theorem Quiet.atomic (hh : Quiet same h) (hm : m ∈ h) (ha : answers m.before a m.after) :
    Atomic same answers a h := by
  obtain ⟨h₁, h₂, rfl⟩ := List.append_of_mem hm
  obtain ⟨hquiet₁, hquiet₂⟩ := List.forall_mem_append.mp hh
  exact ⟨h₁, m, h₂, rfl, hquiet₁, fun x hx => hquiet₂ x (List.mem_cons_of_mem m hx), ha⟩

/-- The last call is the one. -/
theorem Quiet.atomic_concat (hh : Quiet same h) (ha : answers m.before a m.after) :
    Atomic same answers a (h ++ [m]) :=
  ⟨h, m, [], rfl, hh, quiet_nil, ha⟩

theorem Atomic.imp {answers' : D → α → D → Prop}
    (himp : ∀ d d', answers d a d' → answers' d a d') (hh : Atomic same answers a h) :
    Atomic same answers' a h := by
  obtain ⟨h₁, m, h₂, hsplit, hquiet₁, hquiet₂, ha⟩ := hh
  exact ⟨h₁, m, h₂, hsplit, hquiet₁, hquiet₂, himp _ _ ha⟩

theorem Atomic.append (hh : Atomic same answers a h) (hh' : Quiet same h') :
    Atomic same answers a (h ++ h') := by
  obtain ⟨h₁, m, h₂, rfl, hquiet₁, hquiet₂, ha⟩ := hh
  exact ⟨h₁, m, h₂ ++ h', List.append_assoc _ _ _, hquiet₁, hquiet₂.append hh', ha⟩

theorem Atomic.concat (hh : Atomic same answers a h) (hm : same m.before m.after) :
    Atomic same answers a (h ++ [m]) :=
  hh.append (List.forall_mem_singleton.mpr hm)

end Histories

/-! ## Runs in which nothing fails -/

/-- A run records the environments it was given. -/
theorem Machine.recording_advanceN {M : Machine Op Res Env L D K} {P : Env → Prop}
    {env : Nat → Env} (hP : ∀ n, P (env n)) {x : Progress Op Res α (L × History Op Env L D) D}
    (hx : ∀ m ∈ x.loc.2, P m.env) (n : Nat) :
    ∀ m ∈ (M.recording.advanceN env n x).loc.2, P m.env := by
  induction n with
  | zero => exact hx
  | succ n ih =>
      rw [Machine.advanceN]
      generalize M.recording.advanceN env n x = y at ih
      obtain ⟨p, loc, d⟩ := y
      cases p with
      | ret a => exact ih
      | call o k => exact List.forall_mem_append.mpr ⟨ih, List.forall_mem_singleton.mpr (hP n)⟩

theorem Prog.isCall_bind {β : Type} {p : Prog Op Res α} {f : α → Prog Op Res β}
    (hf : ∀ a, (f a).isCall = true) : (p >>= f).isCall = true := by
  cases p with
  | ret a => exact hf a
  | call o k => rfl

/-- Only calls that find a good environment are considered. -/
def within (good : Env → Prop) (meddles : L → D → D → Prop)
    (guarantee : History Op Env L D → D → D → Prop) : Contract (L × History Op Env L D) D :=
  System.along (fun h => ∀ m ∈ h, good m.env) meddles guarantee

section Within

variable {M : Machine Op Res Env L D K} {good : Env → Prop} {meddles : L → D → D → Prop}
  {guarantee : History Op Env L D → D → D → Prop}

/-- A program that tolerates more interference tolerates less. -/
theorem wp_of_less {meddles' : L → D → D → Prop}
    (hless : ∀ l d d', meddles' l d d' → meddles l d d')
    {p : Prog Op Res α} {Q : α → L × History Op Env L D → D → Prop} {x : L × History Op Env L D}
    {d : D} (h : wp M.recording (within good meddles guarantee) p Q x d) :
    wp M.recording (within good meddles' guarantee) p Q x d := by
  induction p generalizing x d with
  | ret a => exact h
  | call o k ih =>
      intro d' hd env hall
      obtain ⟨hguarantee, hnext⟩ := h d' (hless _ _ _ hd) env hall
      exact ⟨hguarantee, ih _ hnext⟩

/-- A program that issues a call says nothing when no environment is good. -/
theorem wp_of_no_good {p : Prog Op Res α} {Q : α → L × History Op Env L D → D → Prop}
    {x : L × History Op Env L D} {d : D} (hp : p.isCall = true) (hgood : ¬ ∃ env, good env) :
    wp M.recording (within good meddles guarantee) p Q x d := by
  cases p with
  | ret a => cases hp
  | call o k =>
      intro d' _ env hall
      have hlast : good env := hall _ (List.mem_append_right _ (List.mem_singleton_self _))
      exact absurd ⟨env, hlast⟩ hgood

namespace System

variable {W : Workload T Op Res α L} {allowed : T → Prop} {assume : T → L → D → L → D → Prop}
  {d₀ : D} {σ σ' : System T Op Res α (L × History Op Env L D) D}

/-- A `wp` proof for the programs of some tags holds of every process of these tags that
has found good environments so far. -/
theorem wp_of_recorded_within {tags : T → Prop}
    {guarantee : T → History Op Env L D → D → D → Prop}
    {Q : T → α → L × History Op Env L D → D → Prop}
    (htrans : ∀ l d₁ d₂ d₃, meddles l d₁ d₂ → meddles l d₂ d₃ → meddles l d₁ d₃)
    (hself : ∀ σ, Reachable M W allowed assume d₀ σ → ∀ l, meddles l σ.shared σ.shared)
    (hother : ∀ σ σ' i j t l l' q, Reachable M W allowed assume d₀ σ →
      CallStep M i t l l' σ σ' → assume t l σ.shared l' σ'.shared → j ≠ i →
        σ.procs j = some q → meddles q.loc σ.shared σ'.shared)
    (hQ : ∀ t a x d d', meddles x.1 d d' → Q t a x d → Q t a x d')
    (hprog : ∀ t d, tags t →
      wp M.recording (within good meddles (guarantee t)) (W.program t) (Q t) (W.init, []) d)
    (hr : Recorded M W allowed assume d₀ σ) :
    ∀ i p, σ.procs i = some p → tags p.tag → (∀ m ∈ p.loc.2, good m.env) →
      wp M.recording (within good meddles (guarantee p.tag)) p.prog (Q p.tag) p.loc
        σ.shared :=
  wp_of_recorded_along tags (fun _ _ hall m hm => hall m (List.mem_append_left _ hm)) htrans hself
    hother hQ (fun t d _ htag => hprog t d htag) hr

end System
end Within

/-! ## Runs of some kinds of transactions -/

namespace System

variable {M : Machine Op Res Env L D K} {W : Workload T Op Res α L} {allowed allowed' : T → Prop}
  {assume : T → L → D → L → D → Prop} {d₀ : D} {σ : System T Op Res α L D}

theorem reachable_of_kinds (hkinds : ∀ t, allowed t → allowed' t)
    (hr : Reachable M W allowed assume d₀ σ) : Reachable M W allowed' assume d₀ σ := by
  induction hr with
  | start => exact .start
  | step _ hs ih =>
      cases hs with
      | spawn i t ht hi => exact ih.step (.spawn i t (hkinds t ht) hi)
      | call h ha => exact ih.step (.call h ha)

theorem kind_of_reachable (hr : Reachable M W allowed assume d₀ σ) :
    ∀ i p, σ.procs i = some p → allowed p.tag := by
  induction hr with
  | start => exact fun i p hp => by cases hp
  | step _ hs ih =>
      cases hs with
      | spawn i t ht hi => exact forall_update ht fun j q _ hq => ih j q hq
      | call h _ =>
          cases h with
          | call env hp _ =>
              have ht := ih _ _ hp
              exact forall_update ht fun j q _ hq => ih j q hq

end System

/-! ## Programs that read a snapshot -/

/-- Calls of kind `reads` see the snapshot that is open, or open one, or do not look at the
shared state at all; they leave it as it is. -/
structure SnapshotReads (M : Machine Op Res Env L D K) (view : L → Option D)
    (reads : Op → Prop) : Prop where
  shared : ∀ {o} env l d, reads o → (M.exec env o l d).2.2 = d
  opened : ∀ {o} env l d snap, reads o → view l = some snap →
    (M.exec env o l d).1 = (M.exec env o l snap).1 ∧
      (M.exec env o l d).2.1 = (M.exec env o l snap).2.1 ∧
        view (M.exec env o l d).2.1 = some snap
  opens : ∀ {o} env l d, reads o → view l = none →
    view (M.exec env o l d).2.1 = some d ∨
      (view (M.exec env o l d).2.1 = none ∧ ∀ d', (M.exec env o l d').1 = (M.exec env o l d).1 ∧
        (M.exec env o l d').2.1 = (M.exec env o l d).2.1)

/-- `P` holds of the open snapshot, which one of the calls found, or of any. -/
def SeenAt (inv : D → Prop) (evolve : D → D → Prop) (P : D → Prop) (snapshot : Option D)
    (h : History Op Env L D) (d : D) : Prop :=
  (∀ snap, inv snap → P snap) ∨
    ∃ m ∈ h, snapshot = some m.before ∧ inv m.before ∧ evolve m.before d ∧ P m.before

theorem SeenAt.imp {inv : D → Prop} {evolve : D → D → Prop} {P P' : D → Prop}
    {snapshot : Option D} {h : History Op Env L D} {d : D}
    (hseen : SeenAt inv evolve P snapshot h d) (himp : ∀ snap, inv snap → P snap → P' snap) :
    SeenAt inv evolve P' snapshot h d := by
  refine Or.imp (fun hany snap hsnap => himp snap hsnap (hany snap hsnap)) ?_ hseen
  rintro ⟨m, hm, hopen, hinv, hevolve, hP⟩
  exact ⟨m, hm, hopen, hinv, hevolve, himp _ hinv hP⟩

section Reads

variable {M : Machine Op Res Env L D K} {view : L → Option D} {reads : Op → Prop}
  {good : Env → Prop} {meddles : L → D → D → Prop}
  {guarantee : History Op Env L D → D → D → Prop}
  {accepted : (o : Op) → Res o → Prop} {inv : D → Prop} {evolve : D → D → Prop}
  (hM : SnapshotReads M view reads) (hguarantee : ∀ h d, guarantee h d d)
  (hevolve : ∀ l d d', meddles l d d' → evolve d d')
  (htrans : ∀ d₁ d₂ d₃, evolve d₁ d₂ → evolve d₂ d₃ → evolve d₁ d₃)

include hM hguarantee hevolve htrans

/-- While the snapshot is open the program cannot tell that others go on. -/
theorem wp_of_openSnapshot {p : Prog Op Res α} (hp : p.Only reads) {Q : α → L → D → Prop}
    {l : L} {d snap : D} {h : History Op Env L D} (hview : view l = some snap)
    (hd : evolve snap d) (hs : smooth M good accepted p Q l snap) :
    wp M.recording (within good meddles guarantee) p
      (fun a x d => ∃ h', x.2 = h ++ h' ∧ (∀ m ∈ h', m.after = m.before) ∧
        view x.1 = some snap ∧ evolve snap d ∧ Q a x.1 snap) (l, h) d := by
  induction hp generalizing l d h with
  | ret a =>
      exact ⟨[], (List.append_nil h).symm, fun _ hm => absurd hm List.not_mem_nil, hview, hd, hs⟩
  | @call o k ho _ ih =>
      intro d' hmeddles env hall
      have henv : good env := hall _ (List.mem_append_right _ (List.mem_singleton_self _))
      have hd' : evolve snap d' := htrans _ _ _ hd (hevolve _ _ _ hmeddles)
      obtain ⟨hres, hloc, hview'⟩ := hM.opened env l d' snap ho hview
      have hshared : (M.recording.exec env o (l, h) d').2.2 = d' := hM.shared env l d' ho
      have hsnap : (M.exec env o l snap).2.2 = snap := hM.shared env l snap ho
      have hnext := (hs env henv).2
      rw [hsnap, ← hres, ← hloc] at hnext
      rw [hshared]
      refine ⟨hguarantee _ d', ?_⟩
      refine wp_mono _ _ (fun a x d₂ => ?_) (ih _ hview' hd' hnext)
      rintro ⟨h', hh', hquiet, hopen, hd₂, hQ⟩
      refine ⟨_ :: h', hh'.trans (List.append_assoc _ _ _), ?_, hopen, hd₂, hQ⟩
      exact List.forall_mem_cons.mpr ⟨hM.shared env l d' ho, hquiet⟩

/-- A program of reads does what it does alone on the snapshot it has opened. -/
theorem wp_of_snapshotReads (hinv : ∀ l d d', meddles l d d' → inv d')
    (hrefl : ∀ d, inv d → evolve d d) {p : Prog Op Res α} (hp : p.Only reads)
    {Q : D → α → L → D → Prop} {l : L} {d : D} {h : History Op Env L D} (hview : view l = none)
    (hs : ∀ snap, inv snap → smooth M good accepted p (Q snap) l snap) :
    wp M.recording (within good meddles guarantee) p
      (fun a x d => ∃ h', x.2 = h ++ h' ∧ (∀ m ∈ h', m.after = m.before) ∧
        SeenAt inv evolve (fun snap => Q snap a x.1 snap) (view x.1) h' d) (l, h) d := by
  induction hp generalizing l d h with
  | ret a =>
      exact ⟨[], (List.append_nil h).symm, fun _ hm => absurd hm List.not_mem_nil,
        Or.inl hs⟩
  | @call o k ho hk ih =>
      intro d' hmeddles env hall
      have henv : good env := hall _ (List.mem_append_right _ (List.mem_singleton_self _))
      have hd' : inv d' := hinv _ _ _ hmeddles
      have hshared : (M.recording.exec env o (l, h) d').2.2 = d' := hM.shared env l d' ho
      rw [hshared]
      refine ⟨hguarantee _ d', ?_⟩
      rcases hM.opens env l d' ho hview with hopen | ⟨hclosed, hblind⟩
      · have hnext := (hs d' hd' env henv).2
        rw [hM.shared env l d' ho] at hnext
        refine wp_mono _ _ (fun a x d₂ => ?_) (wp_of_openSnapshot hM hguarantee hevolve htrans
          (hk _) hopen (hrefl d' hd') hnext)
        rintro ⟨h', hh', hquiet, hview', hd₂, hQ⟩
        refine ⟨_ :: h', hh'.trans (List.append_assoc _ _ _), ?_, Or.inr ?_⟩
        · exact List.forall_mem_cons.mpr ⟨hM.shared env l d' ho, hquiet⟩
        · exact ⟨_, List.mem_cons_self, hview', hd', hd₂, hQ⟩
      · refine wp_mono _ _ (fun a x d₂ => ?_) (ih _ hclosed fun snap hsnap => ?_)
        · rintro ⟨h', hh', hquiet, hQ⟩
          refine ⟨_ :: h', hh'.trans (List.append_assoc _ _ _), ?_, hQ.imp_right ?_⟩
          · exact List.forall_mem_cons.mpr ⟨hM.shared env l d' ho, hquiet⟩
          · rintro ⟨m, hm, hseen⟩
            exact ⟨m, List.mem_cons_of_mem _ hm, hseen⟩
        · have hnext := (hs snap hsnap env henv).2
          rw [hM.shared env l snap ho, (hblind snap).1, (hblind snap).2] at hnext
          exact hnext

/-- The same for a program that raises. -/
theorem wpE_of_snapshotReads {ε : Type} (hinv : ∀ l d d', meddles l d d' → inv d')
    (hrefl : ∀ d, inv d → evolve d d) {x : ExceptT ε (Prog Op Res) α} (hx : x.run.Only reads)
    {Q : D → α → L → D → Prop} {E : D → ε → L → D → Prop} {l : L} {d : D}
    {h : History Op Env L D} (hview : view l = none)
    (hs : ∀ snap, inv snap → smoothE M good accepted x (Q snap) (E snap) l snap) :
    wpE M.recording (within good meddles guarantee) x
      (fun a y d => ∃ h', y.2 = h ++ h' ∧ (∀ m ∈ h', m.after = m.before) ∧
        SeenAt inv evolve (fun snap => Q snap a y.1 snap) (view y.1) h' d)
      (fun e y d => ∃ h', y.2 = h ++ h' ∧ (∀ m ∈ h', m.after = m.before) ∧
        SeenAt inv evolve (fun snap => E snap e y.1 snap) (view y.1) h' d) (l, h) d := by
  refine wp_mono _ _ (fun r y d' hread => ?_)
    (wp_of_snapshotReads hM hguarantee hevolve htrans hinv hrefl hx hview hs)
  cases r with
  | ok a => exact hread
  | error e => exact hread

end Reads
end Transaction
end TaskPlatform
