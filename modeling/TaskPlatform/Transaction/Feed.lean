import TaskPlatform.Transaction.Dialogue
import TaskPlatform.Transaction.Linear

/-!
# A service beside the store

A machine whose environment is in part the answers of a service with a state of its own.
The service is shared by all processes and sees all calls in their order.  Whatever it
answers, the runs are runs of the machine (`System.recorded_unfed`), so what holds of the
machine in every environment holds beside the service.
-/

namespace TaskPlatform
namespace Transaction

variable {T Op : Type} {Res : Op → Type} {Env Env' L D K S α : Type}

/-- The machine with a service: `feed` is the environment of a call and the service after
it. -/
def Machine.fed (M : Machine Op Res Env L D K) (feed : Env' → Op → S → Env × S) :
    Machine Op Res Env' L (D × S) K where
  exec env o l x :=
    let y := feed env o x.2
    let z := M.exec y.1 o l x.1
    (z.1, z.2.1, (z.2.2, y.2))
  locks := M.locks

section Unfed

variable (feed : Env' → Op → S → Env × S)

def Move.unfed (m : Move Op Env' L (D × S)) : Move Op Env L D :=
  ⟨(feed m.env m.op m.before.2).1, m.op, m.loc, m.before.1, m.loc', m.after.1⟩

def Proc.unfed (p : Proc T Op Res α (L × History Op Env' L (D × S))) :
    Proc T Op Res α (L × History Op Env L D) :=
  ⟨p.tag, p.prog, (p.loc.1, p.loc.2.map (Move.unfed feed))⟩

/-- The system without the service. -/
def System.unfed (σ : System T Op Res α (L × History Op Env' L (D × S)) (D × S)) :
    System T Op Res α (L × History Op Env L D) D :=
  ⟨σ.shared.1, fun i => (σ.procs i).map (Proc.unfed feed)⟩

variable {feed} {M : Machine Op Res Env L D K} {W : Workload T Op Res α L}
  {allowed : T → Prop} {d₀ : D} {s₀ : S}

/-- The processes hear the same. -/
theorem dialogue_unfed (h : History Op Env' L (D × S)) :
    dialogue M (h.map (Move.unfed feed)) = dialogue (M.fed feed) h := by
  unfold dialogue
  rw [List.map_map]
  rfl

namespace System

variable {σ : System T Op Res α (L × History Op Env' L (D × S)) (D × S)} {i : Nat}

theorem procs_unfed {p : Proc T Op Res α (L × History Op Env' L (D × S))}
    (hp : σ.procs i = some p) : (σ.unfed feed).procs i = some (p.unfed feed) := by
  show (σ.procs i).map (Proc.unfed feed) = _
  rw [hp]
  rfl

theorem unfed_update (x : D × S) (p : Proc T Op Res α (L × History Op Env' L (D × S))) :
    unfed feed ⟨x, Function.update σ.procs i (some p)⟩ =
      ⟨x.1, Function.update (σ.unfed feed).procs i (some (p.unfed feed))⟩ :=
  congrArg (System.mk x.1)
    (Function.comp_update (Option.map (Proc.unfed feed)) σ.procs i (some p))

theorem free_unfed {l : L} {h : History Op Env' L (D × S)} {h' : History Op Env L D}
    (hfree : Free (M.fed feed).recording σ i (l, h)) :
    Free M.recording (σ.unfed feed) i (l, h') := by
  intro j q hj hq k hk hk'
  obtain ⟨p, hp, rfl⟩ := Option.map_eq_some_iff.mp hq
  exact hfree j p hj hp k hk hk'

/-- A run beside a service is a run. -/
theorem recorded_unfed
    (hr : Recorded (M.fed feed) W allowed (fun _ _ _ _ _ => True) (d₀, s₀) σ) :
    Recorded M W allowed (fun _ _ _ _ _ => True) d₀ (σ.unfed feed) := by
  induction hr with
  | start => exact .start
  | @step τ _ _ hs ih =>
      cases hs with
      | spawn i t ht hi =>
          have hnone : (τ.unfed feed).procs i = none := by
            show (τ.procs i).map (Proc.unfed feed) = none
            rw [hi]
            rfl
          rw [unfed_update]
          exact ih.step (.spawn i t ht hnone)
      | call h _ =>
          cases h with
          | call env hp hfree =>
              have hstep := CallStep.call (M := M.recording) _ (procs_unfed hp)
                (free_unfed hfree)
              rw [unfed_update]
              simp only [Proc.unfed, Machine.recording, List.map_append]
              exact ih.step (.call hstep trivial)

end System
end Unfed
end Transaction
end TaskPlatform
