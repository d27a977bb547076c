import Mathlib.Logic.Function.Basic

/-!
# Requests to cells of a store

A store of cells, one for each key, and requests that read and write the cell of their
own key.  What a request is answered depends on the requests to its cell alone: the
run that keeps only these answers them alike.
-/

namespace TaskPlatform
namespace Counting

/-- Which cell a request goes to, and what it makes of it. -/
structure Cells (K S R A : Type) where
  key : R → K
  act : R → S → A × S

namespace Cells

variable {K S R A : Type} [DecidableEq K] (C : Cells K S R A)

/-- The answer to a request, and the store after it. -/
def serve (store : K → S) (r : R) : A × (K → S) :=
  let x := C.act r (store (C.key r))
  (x.1, Function.update store (C.key r) x.2)

/-- The requests of a run with their answers. -/
def answers (store : K → S) : List R → List (R × A)
  | [] => []
  | r :: rest => (r, (C.serve store r).1) :: answers (C.serve store r).2 rest

variable {C}

theorem serve_of_ne {store : K → S} {r : R} {k : K} (h : C.key r ≠ k) :
    (C.serve store r).2 k = store k := by
  unfold serve
  exact Function.update_of_ne (Ne.symm h) _ _

/-- Stores that agree on the cell of a request answer it alike and still agree on it. -/
theorem serve_congr {store store' : K → S} {r : R} (h : store (C.key r) = store' (C.key r)) :
    (C.serve store r).1 = (C.serve store' r).1 ∧
      (C.serve store r).2 (C.key r) = (C.serve store' r).2 (C.key r) := by
  simp only [serve, h, Function.update_self, and_self]

/-- The requests to one cell are answered as if there were no others.  The two runs go
in step at that cell. -/
theorem answers_filter {store store' : K → S} {k : K} (h : store k = store' k) (rs : List R) :
    (C.answers store rs).filter (fun x => C.key x.1 = k) =
      C.answers store' (rs.filter fun r => C.key r = k) := by
  induction rs generalizing store store' with
  | nil => rfl
  | cons r rest ih =>
      by_cases hk : C.key r = k
      · subst hk
        obtain ⟨hanswer, hstore⟩ := serve_congr (C := C) h
        rw [answers, List.filter_cons_of_pos (by simp), List.filter_cons_of_pos (by simp), answers,
          hanswer, ih hstore]
      · rw [answers, List.filter_cons_of_neg (by simpa using hk),
          List.filter_cons_of_neg (by simpa using hk)]
        exact ih ((serve_of_ne hk).trans h)

end Cells
end Counting
end TaskPlatform
