import Mathlib.Data.List.Perm.Subperm
import Mathlib.Data.List.Sort
import Mathlib.Order.Lattice

/-!
# Tables with a primary key

A table is the list of its rows in primary-key order, which is the order a
clustered index keeps them in.  Strict order makes the representation canonical,
so two tables with the same lookups are equal (`Table.ext_find?`), and deleting
what was inserted gives back the very same table.
-/

namespace TaskPlatform
namespace Relational

/-- The primary key of a row. -/
class Keyed (R : Type) (K : outParam Type) where
  key : R → K

open Keyed (key)

structure Table (R : Type) {K : Type} [LinearOrder K] [Keyed R K] where
  rows : List R
  sorted : rows.Pairwise fun a b => key a < key b

namespace Table

variable {R K : Type} [LinearOrder K] [Keyed R K]

def empty : Table R := ⟨[], List.Pairwise.nil⟩

instance : EmptyCollection (Table R) := ⟨empty⟩

instance : Inhabited (Table R) := ⟨∅⟩

instance [DecidableEq R] : DecidableEq (Table R) := fun a b =>
  decidable_of_iff (a.rows = b.rows)
    ⟨fun h => by cases a; cases b; cases h; rfl, fun h => h ▸ rfl⟩

@[simp] theorem rows_empty : (∅ : Table R).rows = [] := rfl

/-- The row with a given primary key. -/
def find? (t : Table R) (k : K) : Option R := t.rows.find? fun r => key r = k

@[simp] theorem find?_empty (k : K) : (∅ : Table R).find? k = none := rfl

theorem key_of_find? {t : Table R} {k : K} {r : R} (h : t.find? k = some r) : key r = k := by
  have := List.find?_some h
  simpa using this

theorem mem_of_find? {t : Table R} {k : K} {r : R} (h : t.find? k = some r) : r ∈ t.rows :=
  List.mem_of_find?_eq_some h

theorem nodup_keys (t : Table R) : (t.rows.map key).Nodup :=
  List.pairwise_map.mpr (t.sorted.imp fun hab => hab.ne)

/-- A key occurs once. -/
theorem eq_of_key_eq (t : Table R) {a b : R} (ha : a ∈ t.rows) (hb : b ∈ t.rows)
    (h : key a = key b) : a = b :=
  List.inj_on_of_nodup_map t.nodup_keys ha hb h

theorem nodup_rows (t : Table R) : t.rows.Nodup := List.Nodup.of_map _ t.nodup_keys

theorem find?_key (t : Table R) {r : R} (h : r ∈ t.rows) : t.find? (key r) = some r := by
  cases hf : t.find? (key r) with
  | none =>
      have := List.find?_eq_none.mp hf r h
      simp at this
  | some a => rw [t.eq_of_key_eq (mem_of_find? hf) h (key_of_find? hf)]

theorem find?_eq_some {t : Table R} {k : K} {r : R} :
    t.find? k = some r ↔ r ∈ t.rows ∧ key r = k := by
  constructor
  · exact fun h => ⟨mem_of_find? h, key_of_find? h⟩
  · rintro ⟨hm, rfl⟩
    exact t.find?_key hm

theorem find?_eq_none {t : Table R} {k : K} :
    t.find? k = none ↔ ∀ r ∈ t.rows, key r ≠ k := by
  simp [find?]

theorem ext_mem {t u : Table R} (h : ∀ r, r ∈ t.rows ↔ r ∈ u.rows) : t = u := by
  have hp : t.rows.Perm u.rows := (List.perm_ext_iff_of_nodup t.nodup_rows u.nodup_rows).mpr h
  have hrows : t.rows = u.rows :=
    hp.eq_of_pairwise (fun a b _ _ hab hba => absurd hba (lt_asymm hab)) t.sorted u.sorted
  cases t
  cases u
  cases hrows
  rfl

theorem ext_find? {t u : Table R} (h : ∀ k, t.find? k = u.find? k) : t = u := by
  refine ext_mem fun r => ⟨fun hr => ?_, fun hr => ?_⟩
  · exact mem_of_find? ((h (key r)).symm.trans (t.find?_key hr))
  · exact mem_of_find? ((h (key r)).trans (u.find?_key hr))

/-- Every row has a partner with its key. -/
theorem keys_subset_iff {S : Type} [Keyed S K] {t : Table R} {u : Table S} :
    t.rows.map key ⊆ u.rows.map key ↔ ∀ a ∈ t.rows, ∃ b ∈ u.rows, key b = key a := by
  constructor
  · exact fun h a ha => List.mem_map.mp (h (List.mem_map_of_mem ha))
  · intro h k hk
    obtain ⟨a, ha, rfl⟩ := List.mem_map.mp hk
    exact List.mem_map.mpr (h a ha)

theorem length_le_of_keys {S : Type} [Keyed S K] {t : Table R} {u : Table S}
    (h : t.rows.map key ⊆ u.rows.map key) : t.rows.length ≤ u.rows.length := by
  have hle := (List.subperm_of_subset t.nodup_keys h).length_le
  rw [List.length_map, List.length_map] at hle
  exact hle

/-- A table with the keys of another one and no more rows has no other keys. -/
theorem subset_keys_of_length {S : Type} [Keyed S K] {t : Table R} {u : Table S}
    (hkeys : t.rows.map key ⊆ u.rows.map key) (hlength : u.rows.length ≤ t.rows.length) :
    u.rows.map key ⊆ t.rows.map key := by
  have hsub := List.subperm_of_subset t.nodup_keys hkeys
  have hle : (u.rows.map key).length ≤ (t.rows.map key).length := by
    rw [List.length_map, List.length_map]
    exact hlength
  exact (hsub.perm_of_length_le hle).symm.subset

/-- What a condition selects depends on the selected rows only. -/
theorem filter_congr {t u : Table R} {p : R → Bool}
    (h : ∀ r, p r = true → (r ∈ t.rows ↔ r ∈ u.rows)) : t.rows.filter p = u.rows.filter p := by
  have hsame : (⟨t.rows.filter p, t.sorted.filter p⟩ : Table R) =
      ⟨u.rows.filter p, u.sorted.filter p⟩ := by
    refine ext_mem fun r => ?_
    rw [List.mem_filter, List.mem_filter]
    exact and_congr_left (h r)
  exact congrArg Table.rows hsame

/-! ## Writing one row -/

/-- Insert a row in key order, replacing the row that has its key. -/
def putRows (r : R) : List R → List R
  | [] => [r]
  | a :: rest =>
    if key r < key a then r :: a :: rest
    else if key r = key a then r :: rest
    else a :: putRows r rest

theorem mem_putRows {r : R} {l : List R} (hl : l.Pairwise fun a b => key a < key b) {x : R} :
    x ∈ putRows r l ↔ x = r ∨ (x ∈ l ∧ key x ≠ key r) := by
  induction l with
  | nil => simp [putRows]
  | cons a rest ih =>
    obtain ⟨ha, hrest⟩ := List.pairwise_cons.mp hl
    rw [putRows]
    split
    · rename_i hlt
      have hne : ∀ y ∈ a :: rest, key y ≠ key r := by
        intro y hy
        rcases List.mem_cons.mp hy with rfl | hy
        · exact hlt.ne'
        · exact (hlt.trans (ha y hy)).ne'
      constructor
      · intro hx
        rcases List.mem_cons.mp hx with hx | hx
        · exact Or.inl hx
        · exact Or.inr ⟨hx, hne x hx⟩
      · rintro (rfl | ⟨hx, _⟩)
        · exact List.mem_cons_self
        · exact List.mem_cons_of_mem _ hx
    · split
      · rename_i heq
        constructor
        · intro hx
          rcases List.mem_cons.mp hx with hx | hx
          · exact Or.inl hx
          · exact Or.inr ⟨List.mem_cons_of_mem _ hx, by rw [heq]; exact (ha x hx).ne'⟩
        · rintro (rfl | ⟨hx, hk⟩)
          · exact List.mem_cons_self
          · rcases List.mem_cons.mp hx with rfl | hx
            · exact absurd heq.symm hk
            · exact List.mem_cons_of_mem _ hx
      · rename_i hne
        rw [List.mem_cons, ih hrest, List.mem_cons]
        constructor
        · rintro (rfl | h | ⟨hx, hk⟩)
          · exact Or.inr ⟨Or.inl rfl, fun h => hne h.symm⟩
          · exact Or.inl h
          · exact Or.inr ⟨Or.inr hx, hk⟩
        · rintro (h | ⟨h | hx, hk⟩)
          · exact Or.inr (Or.inl h)
          · exact Or.inl h
          · exact Or.inr (Or.inr ⟨hx, hk⟩)

theorem sorted_putRows {r : R} {l : List R} (hl : l.Pairwise fun a b => key a < key b) :
    (putRows r l).Pairwise fun a b => key a < key b := by
  induction l with
  | nil => simp [putRows]
  | cons a rest ih =>
    obtain ⟨ha, hrest⟩ := List.pairwise_cons.mp hl
    rw [putRows]
    split
    · rename_i hlt
      refine List.pairwise_cons.mpr ⟨fun y hy => ?_, hl⟩
      rcases List.mem_cons.mp hy with rfl | hy
      · exact hlt
      · exact hlt.trans (ha y hy)
    · split
      · rename_i heq
        exact List.pairwise_cons.mpr ⟨fun y hy => by rw [heq]; exact ha y hy, hrest⟩
      · rename_i hge hne
        refine List.pairwise_cons.mpr ⟨fun y hy => ?_, ih hrest⟩
        rcases (mem_putRows hrest).mp hy with rfl | ⟨hy, _⟩
        · exact lt_of_le_of_ne (not_lt.mp hge) (fun h => hne h.symm)
        · exact ha y hy

def put (t : Table R) (r : R) : Table R := ⟨putRows r t.rows, sorted_putRows t.sorted⟩

theorem mem_put {t : Table R} {r x : R} :
    x ∈ (t.put r).rows ↔ x = r ∨ (x ∈ t.rows ∧ key x ≠ key r) :=
  mem_putRows t.sorted

theorem find?_put (t : Table R) (r : R) (k : K) :
    (t.put r).find? k = if k = key r then some r else t.find? k := by
  by_cases hk : k = key r
  · rw [if_pos hk, find?_eq_some]
    exact ⟨mem_put.mpr (Or.inl rfl), hk.symm⟩
  · rw [if_neg hk]
    cases hf : t.find? k with
    | none =>
        rw [find?_eq_none] at hf ⊢
        intro x hx
        rcases mem_put.mp hx with rfl | ⟨hx, _⟩
        · exact fun h => hk h.symm
        · exact hf x hx
    | some x =>
        rw [find?_eq_some] at hf ⊢
        exact ⟨mem_put.mpr (Or.inr ⟨hf.1, by rw [hf.2]; exact hk⟩), hf.2⟩

/-- Delete the row with a given primary key. -/
def erase (t : Table R) (k : K) : Table R :=
  ⟨t.rows.filter fun r => key r ≠ k, t.sorted.filter _⟩

theorem find?_erase (t : Table R) (k k' : K) :
    (t.erase k).find? k' = if k' = k then none else t.find? k' := by
  by_cases hk : k' = k
  · rw [if_pos hk, find?_eq_none]
    intro r hr
    have := (List.mem_filter.mp hr).2
    rw [hk]
    simpa using this
  · rw [if_neg hk]
    cases hf : t.find? k' with
    | none =>
        rw [find?_eq_none] at hf ⊢
        exact fun r hr => hf r (List.mem_filter.mp hr).1
    | some x =>
        rw [find?_eq_some] at hf ⊢
        refine ⟨List.mem_filter.mpr ⟨hf.1, ?_⟩, hf.2⟩
        rw [hf.2]
        simpa using hk

/-! ## Set-oriented statements -/

section MapRows

variable {S U : Type} [Keyed S K] [Keyed U K]

/-- Rewrite every row.  The primary key is not assigned. -/
def mapRows (t : Table R) (f : R → S) (hf : ∀ r, key (f r) = key r) : Table S :=
  ⟨t.rows.map f, by
    refine List.pairwise_map.mpr (t.sorted.imp fun {a b} hab => ?_)
    rw [hf a, hf b]
    exact hab⟩

variable {f : R → S} {hf : ∀ r, key (f r) = key r} {t : Table R}

@[simp] theorem rows_mapRows : (t.mapRows f hf).rows = t.rows.map f := rfl

theorem ext_rows {u : Table R} (h : t.rows = u.rows) : t = u := by
  cases t
  cases u
  cases h
  rfl

theorem find?_mapRows (k : K) : (t.mapRows f hf).find? k = (t.find? k).map f := by
  cases h : t.find? k with
  | none =>
      rw [find?_eq_none] at h
      rw [Option.map_none, find?_eq_none]
      intro x hx
      obtain ⟨r, hr, rfl⟩ := List.mem_map.mp hx
      rw [hf r]
      exact h r hr
  | some r =>
      rw [find?_eq_some] at h
      rw [Option.map_some, find?_eq_some]
      exact ⟨List.mem_map.mpr ⟨r, h.1, rfl⟩, (hf r).trans h.2⟩

theorem mapRows_put (r : R) :
    (t.put r).mapRows f hf = (t.mapRows f hf).put (f r) := by
  refine ext_find? fun k => ?_
  rw [find?_mapRows, find?_put, find?_put, find?_mapRows, hf]
  split
  · rfl
  · rfl

theorem mapRows_erase (k : K) :
    (t.erase k).mapRows f hf = (t.mapRows f hf).erase k := by
  refine ext_find? fun k' => ?_
  rw [find?_mapRows, find?_erase, find?_erase, find?_mapRows]
  split
  · rfl
  · rfl

theorem mapRows_congr {g : R → S} {hg : ∀ r, key (g r) = key r} (h : ∀ r ∈ t.rows, f r = g r) :
    t.mapRows f hf = t.mapRows g hg :=
  ext_rows (List.map_congr_left h)

theorem mapRows_eq_self {f : R → R} {hf : ∀ r, key (f r) = key r} (h : ∀ r ∈ t.rows, f r = r) :
    t.mapRows f hf = t :=
  ext_rows ((List.map_congr_left h).trans (List.map_id t.rows))

theorem mapRows_mapRows {g : S → U} {hg : ∀ r, key (g r) = key r} :
    (t.mapRows f hf).mapRows g hg = t.mapRows (g ∘ f) fun r => (hg (f r)).trans (hf r) :=
  ext_rows List.map_map

end MapRows

/-- Rewrite the rows a condition selects. -/
def updateWhere (t : Table R) (p : R → Bool) (f : R → R) (hf : ∀ r, key (f r) = key r) :
    Table R :=
  t.mapRows (fun r => if p r then f r else r) fun r => by
    split
    · exact hf r
    · rfl

theorem find?_updateWhere (t : Table R) (p : R → Bool) (f : R → R) (hf : ∀ r, key (f r) = key r)
    (k : K) : (t.updateWhere p f hf).find? k = (t.find? k).map fun r => if p r then f r else r := by
  rw [updateWhere, find?_mapRows]

/-- Delete the rows a condition selects. -/
def deleteWhere (t : Table R) (p : R → Bool) : Table R :=
  ⟨t.rows.filter fun r => !p r, t.sorted.filter _⟩

theorem deleteWhere_congr {t : Table R} {p q : R → Bool} (h : ∀ r ∈ t.rows, p r = q r) :
    t.deleteWhere p = t.deleteWhere q :=
  ext_rows (List.filter_congr fun r hr => congrArg _ (h r hr))

theorem deleteWhere_eq_self {t : Table R} {p : R → Bool} (h : ∀ r ∈ t.rows, p r = false) :
    t.deleteWhere p = t :=
  ext_rows (List.filter_eq_self.mpr fun r hr => by rw [h r hr]; rfl)

/-- Two deletions are one. -/
theorem deleteWhere_deleteWhere (t : Table R) (p q : R → Bool) :
    (t.deleteWhere p).deleteWhere q = t.deleteWhere fun r => p r || q r := by
  refine ext_rows ?_
  show (t.rows.filter fun r => !p r).filter (fun r => !q r) = t.rows.filter fun r => !(p r || q r)
  rw [List.filter_filter]
  refine List.filter_congr fun r _ => ?_
  rw [Bool.not_or, Bool.and_comm]

theorem erase_eq_deleteWhere (t : Table R) (k : K) :
    t.erase k = t.deleteWhere fun r => key r = k :=
  ext_rows (List.filter_congr fun _ _ => decide_not)

theorem find?_deleteWhere (t : Table R) (p : R → Bool) (k : K) :
    (t.deleteWhere p).find? k = (t.find? k).filter fun r => !p r := by
  cases h : t.find? k with
  | none =>
      rw [find?_eq_none] at h
      rw [Option.filter_none, find?_eq_none]
      exact fun r hr => h r (List.mem_filter.mp hr).1
  | some r =>
      obtain ⟨hm, hk⟩ := find?_eq_some.mp h
      cases hp : p r with
      | true =>
          simp only [Option.filter_some, hp, Bool.not_true, Bool.false_eq_true, if_false]
          rw [find?_eq_none]
          intro x hx hxk
          obtain ⟨hx, hpx⟩ := List.mem_filter.mp hx
          rw [t.eq_of_key_eq hx hm (hxk.trans hk.symm), hp] at hpx
          simp at hpx
      | false =>
          simp only [Option.filter_some, hp, Bool.not_false, if_true]
          rw [find?_eq_some]
          exact ⟨List.mem_filter.mpr ⟨hm, by rw [hp]; rfl⟩, hk⟩

theorem find?_deleteWhere_eq_none {t : Table R} {p : R → Bool} {k : K}
    (h : ∀ r, t.find? k = some r → p r = true) : (t.deleteWhere p).find? k = none := by
  rw [find?_deleteWhere, Option.filter_eq_none_iff]
  intro r hr
  simp [h r hr]

theorem find?_deleteWhere_eq_self {t : Table R} {p : R → Bool} {k : K}
    (h : ∀ r, t.find? k = some r → p r = false) : (t.deleteWhere p).find? k = t.find? k := by
  rw [find?_deleteWhere]
  cases hfind : t.find? k with
  | none => rfl
  | some r => simp [h r hfind]

/-- Deleting by a condition on the key leaves what another table has besides. -/
theorem deleteWhere_eq {t u : Table R} (c : K → Bool) (hin : ∀ k, c k = true → u.find? k = none)
    (hout : ∀ k, c k = false → t.find? k = u.find? k) :
    (t.deleteWhere fun r => c (key r)) = u := by
  refine ext_find? fun k => ?_
  rw [find?_deleteWhere]
  cases hc : c k with
  | true =>
      rw [hin k hc]
      refine Option.filter_eq_none_iff.mpr fun r hr => ?_
      rw [key_of_find? hr, hc]
      exact Bool.false_ne_true
  | false =>
      rw [← hout k hc]
      cases hfind : t.find? k with
      | none => rfl
      | some r => rw [Option.filter_some, key_of_find? hfind, hc, Bool.not_false, if_pos rfl]

end Table
end Relational
end TaskPlatform
