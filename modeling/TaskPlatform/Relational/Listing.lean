import Mathlib.Data.List.Sort
import Mathlib.Order.Lattice

/-!
# Listings

Rows sorted by a key that tells them apart have one order, so a listing is a function of
the set of its rows, and pages cut out of it by offset and limit put together give it back.
-/

namespace TaskPlatform
namespace Relational

/-! ## Order -/

section Order

variable {α κ : Type} [LinearOrder κ]

/-- The keys of a list ascend strictly. -/
def InOrder (f : α → κ) (l : List α) : Prop := l.Pairwise fun a b => f a < f b

variable {f : α → κ} {l l' : List α}

theorem InOrder.nodup_keys (h : InOrder f l) : (l.map f).Nodup :=
  List.pairwise_map.mpr (h.imp fun hab => ne_of_lt hab)

theorem InOrder.nodup (h : InOrder f l) : l.Nodup := List.Nodup.of_map f h.nodup_keys

theorem InOrder.reverse (h : InOrder f l) : InOrder (fun a => OrderDual.toDual (f a)) l.reverse :=
  List.pairwise_reverse.mpr (h.imp fun hab => OrderDual.toDual_lt_toDual.mpr hab)

/-- Sorting by a key that tells the rows apart. -/
theorem inOrder_insertionSort {r : α → α → Prop} [DecidableRel r]
    (hr : ∀ a b, r a b ↔ f a ≤ f b) (hl : (l.map f).Nodup) : InOrder f (l.insertionSort r) := by
  have htotal : Std.Total r := by
    constructor
    intro a b
    rw [hr, hr]
    exact le_total (f a) (f b)
  have htrans : IsTrans α r := by
    constructor
    intro a b c hab hbc
    rw [hr] at hab hbc ⊢
    exact hab.trans hbc
  have hkeys : ((l.insertionSort r).map f).Nodup :=
    ((List.perm_insertionSort r l).map f).nodup_iff.mpr hl
  have hdistinct : (l.insertionSort r).Pairwise fun a b => f a ≠ f b := List.pairwise_map.mp hkeys
  have hsorted := List.pairwise_insertionSort r l
  apply (hsorted.and hdistinct).imp
  intro a b hab
  exact lt_of_le_of_ne ((hr a b).mp hab.1) hab.2

end Order

/-! ## Joins -/

/-- A join that finds a partner for every row keeps their keys. -/
theorem map_filterMap_of_some {α β γ : Type} {f : α → Option β} {g : β → γ} {h : α → γ}
    {l : List α} (hf : ∀ a ∈ l, (f a).map g = some (h a)) : (l.filterMap f).map g = l.map h := by
  rw [List.map_filterMap]
  exact List.filterMap_eq_map_iff_forall_eq_some.mpr hf

/-- What the key of a row is computed from tells the rows apart. -/
theorem nodup_of_keys {α β γ : Type} {k : α → γ} {h : α → β} (g : β → γ) {l : List α}
    (hl : (l.map k).Nodup) (hk : ∀ a ∈ l, k a = g (h a)) : (l.map h).Nodup := by
  have hmap : l.map k = (l.map h).map g := by
    rw [List.map_map]
    exact List.map_congr_left hk
  rw [hmap] at hl
  exact hl.of_map

/-! ## Pages -/

section Pages

variable {α β : Type} {page : Nat → List α} {n : Nat} {l : List α}

/-- Pages are read one after the other until one is empty. -/
structure Paged (page : Nat → List α) (n : Nat) (l : List α) : Prop where
  nonempty : ∀ k < n, page k ≠ []
  last : page n = []
  concat : (List.range n).flatMap page = l

/-- Reading stops once. -/
theorem Paged.unique {n' : Nat} {l' : List α} (h : Paged page n l) (h' : Paged page n' l') :
    n = n' ∧ l = l' := by
  have hn : n = n' := by
    rcases Nat.lt_trichotomy n n' with hlt | heq | hgt
    · exact absurd h.last (h'.nonempty n hlt)
    · exact heq
    · exact absurd h'.last (h.nonempty n' hgt)
  subst hn
  exact ⟨rfl, h.concat.symm.trans h'.concat⟩

theorem Paged.map (h : Paged page n l) (f : α → β) :
    Paged (fun k => (page k).map f) n (l.map f) := by
  constructor
  · intro k hk hnil
    exact h.nonempty k hk (List.map_eq_nil_iff.mp hnil)
  · show (page n).map f = []
    rw [h.last]
    rfl
  · rw [← h.concat, List.map_flatMap]

theorem flatMap_take_drop (limit : Nat) (l : List α) (n : Nat) :
    ((List.range n).flatMap fun k => (l.drop (k * limit)).take limit) = l.take (n * limit) := by
  induction n with
  | zero =>
      rw [Nat.zero_mul, List.take_zero]
      rfl
  | succ n ih =>
      rw [List.range_succ, List.flatMap_append, ih, Nat.succ_mul, List.take_add]
      simp

theorem length_le_pages {limit : Nat} (hlimit : 0 < limit) (len : Nat) :
    len ≤ (len + limit - 1) / limit * limit := by
  have hmod := Nat.div_add_mod (len + limit - 1) limit
  have hlt := Nat.mod_lt (len + limit - 1) hlimit
  rw [Nat.mul_comm] at hmod
  omega

/-- Offsets that are the multiples of the limit read a list off. -/
theorem paged_take_drop {limit : Nat} (hlimit : 0 < limit) (l : List α) :
    Paged (fun k => (l.drop (k * limit)).take limit) ((l.length + limit - 1) / limit) l := by
  constructor
  · intro k hk hnil
    have hlen := congrArg List.length hnil
    rw [List.length_take, List.length_drop, List.length_nil] at hlen
    have hbound : (k + 1) * limit ≤ l.length + limit - 1 :=
      (Nat.le_div_iff_mul_le hlimit).mp hk
    rw [Nat.succ_mul] at hbound
    omega
  · show (l.drop _).take limit = []
    rw [List.drop_eq_nil_of_le (length_le_pages hlimit l.length), List.take_nil]
  · rw [flatMap_take_drop]
    exact List.take_of_length_le (length_le_pages hlimit l.length)

end Pages

end Relational
end TaskPlatform
