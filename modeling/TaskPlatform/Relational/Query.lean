import Mathlib.Data.List.Nodup
import Mathlib.Logic.Basic

/-!
# Conditions and joins

SQL evaluates a condition to true, false or NULL, and a statement selects the rows
on which its condition is true.  Joins are over lists of rows; the counts of a join
say that every row has a partner, when no row has two.
-/

namespace TaskPlatform
namespace Relational

/-- A truth value of SQL, `none` for NULL. -/
abbrev Truth : Type := Option Bool

namespace Truth

variable {α : Type}

/-- Whether a row with this value is selected. -/
def holds (p : Truth) : Bool := p == some true

def isNull (a : Option α) : Truth := some a.isNone

def isNotNull (a : Option α) : Truth := some a.isSome

/-- `a IS TRUE`. -/
def isTrue (a : Truth) : Truth := some (a == some true)

/-- `a IS FALSE`. -/
def isFalse (a : Truth) : Truth := some (a == some false)

def not (p : Truth) : Truth := p.map fun b => !b

def and : Truth → Truth → Truth
  | some false, _ => some false
  | some true, q => q
  | none, some false => some false
  | none, _ => none

def or : Truth → Truth → Truth
  | some true, _ => some true
  | some false, q => q
  | none, some true => some true
  | none, _ => none

/-- The disjunction of a list of conditions. -/
def anyOf (ps : List Truth) : Truth := ps.foldr or (some false)

section Comparison

variable [DecidableEq α]

def eq (a b : Option α) : Truth := a.bind fun x => b.map fun y => decide (x = y)

def ne (a b : Option α) : Truth := not (eq a b)

def notIn (a : Option α) (xs : List α) : Truth := a.map fun x => decide (x ∉ xs)

end Comparison

def between (a lo hi : Int) : Truth := some (decide (lo ≤ a ∧ a ≤ hi))

@[simp] theorem holds_some (b : Bool) : holds (some b) = b := by
  cases b with
  | false => rfl
  | true => rfl

@[simp] theorem holds_none : holds none = false := rfl

@[simp] theorem holds_or (p q : Truth) : (or p q).holds = (p.holds || q.holds) := by
  rcases p with _ | _ | _
  all_goals rcases q with _ | _ | _
  all_goals rfl

@[simp] theorem holds_and (p q : Truth) : (and p q).holds = (p.holds && q.holds) := by
  rcases p with _ | _ | _
  all_goals rcases q with _ | _ | _
  all_goals rfl

theorem holds_anyOf (ps : List Truth) : (anyOf ps).holds = ps.any holds := by
  induction ps with
  | nil => rfl
  | cons p rest ih => rw [anyOf, List.foldr_cons, holds_or, ← anyOf, ih, List.any_cons]

/-- No condition of a list holds. -/
theorem holds_anyOf_eq_false {ps : List Truth} :
    (anyOf ps).holds = false ↔ ∀ p ∈ ps, p.holds = false := by
  rw [holds_anyOf, List.any_eq_false]
  refine forall₂_congr fun p _ => ?_
  rw [Bool.not_eq_true]

@[simp] theorem holds_isNull (a : Option α) : (isNull a).holds = a.isNone := holds_some _

@[simp] theorem holds_isNotNull (a : Option α) : (isNotNull a).holds = a.isSome := holds_some _

theorem holds_eq [DecidableEq α] {a b : Option α} :
    (eq a b).holds = true ↔ ∃ x, a = some x ∧ b = some x := by
  cases a with
  | none => simp [eq]
  | some x =>
      cases b with
      | none => simp [eq]
      | some y => simp [eq, eq_comm]

theorem holds_eq_some [DecidableEq α] {a : Option α} {x : α} :
    (eq a (some x)).holds = true ↔ a = some x := by
  rw [holds_eq]
  constructor
  · rintro ⟨y, ha, hy⟩
    rw [ha, hy]
  · exact fun ha => ⟨x, ha, rfl⟩

/-- A value does not differ from itself. -/
theorem holds_ne_self [DecidableEq α] (a : Option α) : (ne a a).holds = false := by
  cases a with
  | none => rfl
  | some x => simp [ne, eq, not]

/-- A value that is not NULL and does not differ from another one is that one. -/
theorem eq_some_of_holds_ne [DecidableEq α] {a : Option α} {x : α} :
    a.isNone = false ∧ (ne a (some x)).holds = false ↔ a = some x := by
  cases a with
  | none => simp
  | some y => simp [ne, eq, not]

theorem holds_not_between {a lo hi : Int} :
    (not (between a lo hi)).holds = false ↔ lo ≤ a ∧ a ≤ hi := by
  simp [not, between]

end Truth

/-! ## Joins -/

section Join

variable {α β : Type}

/-- `l JOIN r ON on`. -/
def join (on : α → β → Bool) (l : List α) (r : List β) : List (α × β) :=
  l.flatMap fun a => (r.filter (on a)).map (Prod.mk a)

/-- `l LEFT OUTER JOIN r ON on`. -/
def outerJoin (on : α → β → Bool) (l : List α) (r : List β) : List (α × Option β) :=
  l.flatMap fun a => match r.filter (on a) with
    | [] => [(a, none)]
    | b :: bs => (b :: bs).map fun b => (a, some b)

/-- The rows of an outer join: pairs of partners, and rows without one. -/
theorem mem_outerJoin {on : α → β → Bool} {l : List α} {r : List β} {x : α × Option β} :
    x ∈ outerJoin on l r ↔ x.1 ∈ l ∧
      ((∃ b ∈ r, on x.1 b = true ∧ x.2 = some b) ∨
        ((∀ b ∈ r, on x.1 b = false) ∧ x.2 = none)) := by
  obtain ⟨a, ob⟩ := x
  rw [outerJoin, List.mem_flatMap]
  constructor
  · rintro ⟨a', ha', hx⟩
    cases hpartners : r.filter (on a') with
    | nil =>
        rw [hpartners] at hx
        cases List.mem_singleton.mp hx
        refine ⟨ha', Or.inr ⟨fun b hb => ?_, rfl⟩⟩
        exact Bool.not_eq_true _ ▸ List.filter_eq_nil_iff.mp hpartners b hb
    | cons b bs =>
        rw [hpartners] at hx
        obtain ⟨b', hb', heq⟩ := List.mem_map.mp hx
        rw [← hpartners] at hb'
        cases heq
        obtain ⟨hr, hon⟩ := List.mem_filter.mp hb'
        exact ⟨ha', Or.inl ⟨b', hr, hon, rfl⟩⟩
  · rintro ⟨ha, hpartner | hnone⟩
    · obtain ⟨b, hb, hon, hob⟩ := hpartner
      cases hob
      have hmem : b ∈ r.filter (on a) := List.mem_filter.mpr ⟨hb, hon⟩
      refine ⟨a, ha, ?_⟩
      cases hpartners : r.filter (on a) with
      | nil =>
          rw [hpartners] at hmem
          cases hmem
      | cons c cs =>
          rw [hpartners] at hmem
          exact List.mem_map.mpr ⟨b, hmem, rfl⟩
    · obtain ⟨hno, hob⟩ := hnone
      cases hob
      refine ⟨a, ha, ?_⟩
      have hempty : r.filter (on a) = [] :=
        List.filter_eq_nil_iff.mpr fun b hb => by rw [hno b hb]; exact Bool.false_ne_true
      rw [hempty]
      exact List.mem_singleton.mpr rfl

/-- A condition on a join is a condition of the join. -/
theorem filter_join (on : α → β → Bool) (c : α × β → Bool) (l : List α) (r : List β) :
    (join on l r).filter c = join (fun a b => on a b && c (a, b)) l r := by
  rw [join, join, List.filter_flatMap]
  refine List.flatMap_congr fun a _ => ?_
  rw [List.filter_map, List.filter_filter]
  exact congrArg _ (List.filter_congr fun b _ => Bool.and_comm _ _)

theorem length_join_cons (on : α → β → Bool) (a : α) (l : List α) (r : List β) :
    (join on (a :: l) r).length = (r.filter (on a)).length + (join on l r).length := by
  rw [join, List.flatMap_cons, List.length_append, List.length_map, ← join]

/-- When no row has two partners, a join is as long as its left side if and only if
every row has one. -/
theorem length_join_eq_iff {on : α → β → Bool} {l : List α} {r : List β}
    (hone : ∀ a ∈ l, (r.filter (on a)).length ≤ 1) :
    (join on l r).length ≤ l.length ∧
      ((join on l r).length = l.length ↔ ∀ a ∈ l, ∃ b ∈ r, on a b = true) := by
  induction l with
  | nil => exact ⟨Nat.le_refl _, fun _ => nofun, fun _ => rfl⟩
  | cons a rest ih =>
      obtain ⟨hle, hiff⟩ := ih fun x hx => hone x (List.mem_cons_of_mem a hx)
      have ha := hone a List.mem_cons_self
      have hsome : (r.filter (on a)).length = 1 ↔ ∃ b ∈ r, on a b = true := by
        constructor
        · intro h
          obtain ⟨b, hb⟩ := List.exists_mem_of_length_pos (Nat.lt_of_lt_of_eq Nat.one_pos h.symm)
          exact ⟨b, List.mem_filter.mp hb⟩
        · rintro ⟨b, hb⟩
          have := List.length_pos_of_mem (List.mem_filter.mpr hb)
          omega
      rw [length_join_cons, List.length_cons, List.forall_mem_cons, ← hiff, ← hsome]
      omega

/-- No row is counted when none is selected. -/
theorem count_eq_zero {p : β → Bool} {r : List β} :
    (r.filter p).length = 0 ↔ ∀ b ∈ r, p b = false := by
  rw [List.length_eq_zero_iff, List.filter_eq_nil_iff]
  refine forall₂_congr fun b _ => ?_
  rw [Bool.not_eq_true]

/-- A row with a partner is not left unmatched. -/
theorem matched_of_partner {on : α → β → Bool} {l : List α} {r : List β} {x : α × Option β}
    (hx : x ∈ outerJoin on l r) (h : ∃ b ∈ r, on x.1 b = true) : x.2.isNone = false := by
  obtain ⟨_, ⟨b, _, _, hsome⟩ | ⟨hno, _⟩⟩ := mem_outerJoin.mp hx
  · rw [hsome]
    rfl
  · obtain ⟨b, hb, hon⟩ := h
    rw [hno b hb] at hon
    cases hon

/-- No row of an outer join is unmatched when every row has a partner. -/
theorem count_unmatched_eq_zero {on : α → β → Bool} {l : List α} {r : List β} :
    ((outerJoin on l r).filter fun x => x.2.isNone).length = 0 ↔
      ∀ a ∈ l, ∃ b ∈ r, on a b = true := by
  rw [count_eq_zero]
  constructor
  · intro hcount a ha
    by_contra hnone
    have hno : ∀ b ∈ r, on a b = false := fun b hb =>
      Bool.eq_false_iff.mpr fun hon => hnone ⟨b, hb, hon⟩
    have hx := hcount (a, none) (mem_outerJoin.mpr ⟨ha, Or.inr ⟨hno, rfl⟩⟩)
    cases hx
  · exact fun hpartner x hx => matched_of_partner hx (hpartner x.1 (mem_outerJoin.mp hx).1)

/-- Rows that are one row have at most one representative in a list without
duplicates. -/
theorem length_filter_le_one {p : β → Bool} {r : List β} (hr : r.Nodup)
    (h : ∀ b ∈ r, ∀ c ∈ r, p b = true → p c = true → b = c) : (r.filter p).length ≤ 1 := by
  by_contra hlt
  obtain ⟨b, c, hbc⟩ : ∃ b c, [b, c].Sublist (r.filter p) := by
    match hlist : r.filter p with
    | [] => simp [hlist] at hlt
    | [_] => simp [hlist] at hlt
    | b :: c :: rest => exact ⟨b, c, (List.nil_sublist rest).cons_cons c |>.cons_cons b⟩
  have hb := List.mem_filter.mp (hbc.subset (List.mem_cons_self))
  have hc := List.mem_filter.mp (hbc.subset (List.mem_cons_of_mem b List.mem_cons_self))
  have hne := (List.nodup_cons.mp ((hr.filter p).sublist hbc)).1
  exact hne (by rw [h b hb.1 c hc.1 hb.2 hc.2]; exact List.mem_singleton.mpr rfl)

theorem filter_eq_singleton {p : β → Bool} {r : List β} {x : β} (hr : r.Nodup)
    (h : ∀ b, b ∈ r ∧ p b = true ↔ b = x) : r.filter p = [x] := by
  refine List.perm_singleton.mp ?_
  refine (List.perm_ext_iff_of_nodup (hr.filter p) (List.nodup_singleton x)).mpr fun b => ?_
  rw [List.mem_filter, List.mem_singleton]
  exact h b

end Join
end Relational
end TaskPlatform
