import TaskPlatform.Transaction.Program

/-!
# Trails

The trail of a program is the list of its calls, each with the states it found and
left, while others may change the shared state before every call.

A program commits last when it works on its local state only, then commits once, and
ends with a value exactly when the commit was accepted (`Prog.CommitsLast`).  That is
a property of its text.  It makes every run all or nothing
(`Prog.CommitsLast.trail`).
-/

namespace TaskPlatform
namespace Transaction

variable {Op : Type} {Res : Op → Type} {Env L D K W α β ε : Type}

/-- A call with the states it found and left. -/
structure Move (Op Env L D : Type) where
  env : Env
  op : Op
  loc : L
  before : D
  loc' : L
  after : D

structure Trail (Op Env L D α : Type) where
  value : α
  moves : List (Move Op Env L D)
  loc : L
  shared : D

/-- Run a program when `meddle n` happens to the shared state before call number
`n`. -/
def Machine.trail (M : Machine Op Res Env L D K) (env : Nat → Env) (meddle : Nat → D → D) :
    Prog Op Res α → Nat → L → D → Trail Op Env L D α
  | .ret a, _, l, d => ⟨a, [], l, d⟩
  | .call o k, n, l, d =>
    let x := M.exec (env n) o l (meddle n d)
    let rest := M.trail env meddle (k x.1) (n + 1) x.2.1 x.2.2
    { rest with moves := ⟨env n, o, l, meddle n d, x.2.1, x.2.2⟩ :: rest.moves }

namespace Prog

/-- All calls are of one kind. -/
inductive Only (work : Op → Prop) : Prog Op Res α → Prop where
  | ret (a : α) : Only work (.ret a)
  | call {o : Op} {k : Res o → Prog Op Res α} (ho : work o) (h : ∀ r, Only work (k r)) :
      Only work (.call o k)

/-- All calls are of one kind, and no value is returned. -/
inductive Fails (quiet : Op → Prop) : Prog Op Res (Except ε α) → Prop where
  | ret (e : ε) : Fails quiet (.ret (.error e))
  | call {o : Op} {k : Res o → Prog Op Res (Except ε α)} (ho : quiet o)
      (h : ∀ r, Fails quiet (k r)) : Fails quiet (.call o k)

/-- After calls of kind `work` comes one commit, and after an accepted commit a
value.  A program that fails issues calls of kind `quiet`. -/
inductive CommitsLast (commit : Op) (accepted : Res commit → Prop) (work quiet : Op → Prop) :
    Prog Op Res (Except ε α) → Prop where
  | fails {p : Prog Op Res (Except ε α)} (h : Fails quiet p) :
      CommitsLast commit accepted work quiet p
  | call {o : Op} {k : Res o → Prog Op Res (Except ε α)} (ho : work o)
      (h : ∀ r, CommitsLast commit accepted work quiet (k r)) :
      CommitsLast commit accepted work quiet (.call o k)
  | commit {k : Res commit → Prog Op Res (Except ε α)}
      (hok : ∀ r, accepted r → ∃ a, k r = .ret (.ok a))
      (hrefused : ∀ r, ¬ accepted r → Fails quiet (k r)) :
      CommitsLast commit accepted work quiet (.call commit k)

variable {commit : Op} {accepted : Res commit → Prop} {work quiet : Op → Prop}

theorem Only.bind {p : Prog Op Res α} {f : α → Prog Op Res β} (hp : Only work p)
    (hf : ∀ a, Only work (f a)) : Only work (p >>= f) := by
  induction hp with
  | ret a => exact hf a
  | call ho _ ih => exact .call ho ih

/-- What fails fails however its exception is handled, if the handler does. -/
theorem Fails.handle {p : Prog Op Res (Except ε α)} (hp : Fails quiet p)
    {f : Except ε α → Prog Op Res (Except ε β)} (hf : ∀ e, Fails quiet (f (.error e))) :
    Fails quiet (p >>= f) := by
  induction hp with
  | ret e => exact hf e
  | call ho _ ih => exact .call ho ih

theorem Only.commitsLast {p : Prog Op Res α} (hp : Only work p)
    {f : α → Prog Op Res (Except ε β)}
    (hf : ∀ a, CommitsLast commit accepted work quiet (f a)) :
    CommitsLast commit accepted work quiet (p >>= f) := by
  induction hp with
  | ret a => exact hf a
  | call ho _ ih => exact .call ho ih

/-- After a program that commits last, only values and failures are turned into
others. -/
theorem CommitsLast.handle {p : Prog Op Res (Except ε α)}
    (hp : CommitsLast commit accepted work quiet p)
    {f : Except ε α → Prog Op Res (Except ε β)} (hok : ∀ a, ∃ b, f (.ok a) = .ret (.ok b))
    (hf : ∀ e, Fails quiet (f (.error e))) :
    CommitsLast commit accepted work quiet (p >>= f) := by
  induction hp with
  | fails h => exact .fails (h.handle hf)
  | call ho _ ih => exact .call ho ih
  | commit ha hr =>
      refine .commit (fun r hacc => ?_) fun r href => (hr r href).handle hf
      obtain ⟨a, hk⟩ := ha r hacc
      rw [hk]
      exact hok a

end Prog

section Meaning

variable {M : Machine Op Res Env L D K} {R : D → D → Prop} {commit : Op}
  {accepted : Res commit → Prop} {work quiet : Op → Prop} {obs : L → List W}

/-- What a call adds to an observation that only grows. -/
def Move.added (obs : L → List W) (m : Move Op Env L D) : List W :=
  (obs m.loc').drop (obs m.loc).length

/-- What holds of a machine whose calls of kind `quiet` keep the shared state up to
`R`, and whose calls of kind `work` add to an observation of the local state. -/
structure Buffers (M : Machine Op Res Env L D K) (R : D → D → Prop) (commit : Op)
    (accepted : Res commit → Prop) (work quiet : Op → Prop) (obs : L → List W) : Prop where
  keeps : ∀ env o l d, quiet o → R d (M.exec env o l d).2.2
  quiet_of_work : ∀ o, work o → quiet o
  refused : ∀ env l d, ¬ accepted (M.exec env commit l d).1 → R d (M.exec env commit l d).2.2
  grows : ∀ env o l d, work o → obs l <+: obs (M.exec env o l d).2.1

/-- A committed trail: work, and then one accepted commit of all that was observed. -/
structure Committed (M : Machine Op Res Env L D K) (R : D → D → Prop) (commit : Op)
    (accepted : Res commit → Prop) (obs : L → List W) (l : L) (earlier : List (Move Op Env L D))
    (last : Move Op Env L D) : Prop where
  kept : ∀ m ∈ earlier, R m.before m.after
  op : last.op = commit
  answer : accepted (M.exec last.env commit last.loc last.before).1
  after : last.after = (M.exec last.env commit last.loc last.before).2.2
  buffered : obs last.loc = obs l ++ earlier.flatMap (Move.added obs)

theorem Prog.Fails.trail (hM : Buffers M R commit accepted work quiet obs)
    {p : Prog Op Res (Except ε α)} (h : Fails quiet p) (env : Nat → Env) (meddle : Nat → D → D)
    (n : Nat) (l : L) (d : D) :
    (∃ e, (M.trail env meddle p n l d).value = .error e) ∧
      ∀ m ∈ (M.trail env meddle p n l d).moves, R m.before m.after := by
  induction h generalizing n l d with
  | ret e => exact ⟨⟨e, rfl⟩, nofun⟩
  | call ho _ ih =>
      obtain ⟨hvalue, hmoves⟩ := ih _ (n + 1) _ _
      refine ⟨hvalue, fun m hm => ?_⟩
      rcases List.mem_cons.mp hm with rfl | hm
      · exact hM.keeps _ _ _ _ ho
      · exact hmoves m hm

/-- Every run of a program that commits last is all or nothing. -/
theorem Prog.CommitsLast.trail (hM : Buffers M R commit accepted work quiet obs)
    {p : Prog Op Res (Except ε α)} (h : CommitsLast commit accepted work quiet p)
    (env : Nat → Env) (meddle : Nat → D → D) (n : Nat) (l : L) (d : D) :
    match (M.trail env meddle p n l d).value with
    | .error _ => ∀ m ∈ (M.trail env meddle p n l d).moves, R m.before m.after
    | .ok _ => ∃ earlier last, (M.trail env meddle p n l d).moves = earlier ++ [last] ∧
        Committed M R commit accepted obs l earlier last := by
  induction h generalizing n l d with
  | fails h =>
      obtain ⟨⟨e, he⟩, hmoves⟩ := h.trail hM env meddle n l d
      rw [he]
      exact hmoves
  | @call o k ho _ ih =>
      have hquiet := hM.keeps (env n) o l (meddle n d) (hM.quiet_of_work o ho)
      obtain ⟨added, hadded⟩ := hM.grows (env n) o l (meddle n d) ho
      have hrest := ih (M.exec (env n) o l (meddle n d)).1 (n + 1)
        (M.exec (env n) o l (meddle n d)).2.1 (M.exec (env n) o l (meddle n d)).2.2
      rw [Machine.trail]
      show match (M.trail env meddle (k (M.exec (env n) o l (meddle n d)).1) (n + 1)
        (M.exec (env n) o l (meddle n d)).2.1 (M.exec (env n) o l (meddle n d)).2.2).value with
        | .error _ => _
        | .ok _ => _
      generalize M.trail env meddle (k (M.exec (env n) o l (meddle n d)).1) (n + 1)
        (M.exec (env n) o l (meddle n d)).2.1 (M.exec (env n) o l (meddle n d)).2.2 = rest at hrest
      obtain ⟨value, moves, loc, shared⟩ := rest
      cases value with
      | error e =>
          intro m hm
          rcases List.mem_cons.mp hm with rfl | hm
          · exact hquiet
          · exact hrest m hm
      | ok a =>
          obtain ⟨earlier, last, hmoves, hcommitted⟩ := hrest
          refine ⟨⟨env n, o, l, meddle n d, _, _⟩ :: earlier, last,
            congrArg (List.cons _) hmoves, { hcommitted with
              kept := List.forall_mem_cons.mpr ⟨hquiet, hcommitted.kept⟩
              buffered := ?_ }⟩
          rw [hcommitted.buffered, ← hadded, List.flatMap_cons, List.append_assoc]
          refine congrArg (obs l ++ ·) (congrArg (· ++ _) ?_)
          rw [Move.added, ← hadded, List.drop_left]
  | @commit k hok hrefused =>
      rw [Machine.trail]
      by_cases hacc : accepted (M.exec (env n) commit l (meddle n d)).1
      · obtain ⟨a, hk⟩ := hok _ hacc
        simp only [hk, Machine.trail]
        refine ⟨[], _, rfl, nofun, rfl, hacc, rfl, (List.append_nil _).symm⟩
      · obtain ⟨⟨e, he⟩, hmoves⟩ := (hrefused _ hacc).trail hM env meddle (n + 1)
          (M.exec (env n) commit l (meddle n d)).2.1 (M.exec (env n) commit l (meddle n d)).2.2
        simp only [he]
        intro m hm
        rcases List.mem_cons.mp hm with rfl | hm
        · exact hM.refused _ _ _ hacc
        · exact hmoves m hm

end Meaning
end Transaction
end TaskPlatform
