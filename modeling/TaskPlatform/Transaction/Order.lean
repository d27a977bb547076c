import Mathlib.Data.List.Perm.Basic

/-!
# Operations in some order

The outcome of a list of operations, and the states on the way to it.  An operation
that changes nothing in a state on the way can be put in at that point: the outcome
stays, and no state on the way is lost.
-/

namespace TaskPlatform
namespace Transaction

variable {E S : Type} (act : E → S → S)

def outcome (es : List E) (s : S) : S := es.foldl (fun s e => act e s) s

/-- The operations come by state `x`. -/
def Passes (es : List E) (s x : S) : Prop :=
  ∃ before after, es = before ++ after ∧ outcome act before s = x

variable {act} {es : List E} {e : E} {s x : S}

theorem outcome_append (es es' : List E) (s : S) :
    outcome act (es ++ es') s = outcome act es' (outcome act es s) :=
  List.foldl_append

theorem outcome_concat (es : List E) (e : E) (s : S) :
    outcome act (es ++ [e]) s = act e (outcome act es s) :=
  outcome_append es [e] s

theorem passes_outcome (es : List E) (s : S) : Passes act es s (outcome act es s) :=
  ⟨es, [], (List.append_nil es).symm, rfl⟩

theorem Passes.concat (h : Passes act es s x) (e : E) : Passes act (es ++ [e]) s x := by
  obtain ⟨before, after, rfl, hx⟩ := h
  exact ⟨before, after ++ [e], List.append_assoc before after [e], hx⟩

/-- Put an operation in where it changes nothing. -/
theorem Passes.insert (h : Passes act es s x) (he : act e x = x) :
    ∃ es', es'.Perm (e :: es) ∧ outcome act es' s = outcome act es s ∧
      ∀ y, Passes act es s y → Passes act es' s y := by
  obtain ⟨before, after, rfl, hx⟩ := h
  have hskip : ∀ rest, outcome act (before ++ e :: rest) s = outcome act (before ++ rest) s := by
    intro rest
    rw [outcome_append, outcome_append, hx]
    show outcome act rest (act e x) = outcome act rest x
    rw [he]
  refine ⟨before ++ e :: after, List.perm_middle, hskip after, ?_⟩
  rintro y ⟨before', after', hsplit, hy⟩
  rcases List.append_eq_append_iff.mp hsplit with ⟨rest, rfl, rfl⟩ | ⟨rest, rfl, rfl⟩
  · refine ⟨before ++ e :: rest, after', ?_, (hskip rest).trans hy⟩
    rw [List.append_assoc, List.cons_append]
  · exact ⟨before', rest ++ e :: after, List.append_assoc before' rest (e :: after), hy⟩

end Transaction
end TaskPlatform
