import Mathlib.Algebra.Order.Monoid.Defs
import Mathlib.Data.List.Chain
import Mathlib.Data.List.Perm.Subperm

/-!
# Fixed-window counters

A counter that lives for a window of fixed length and starts again once its window
is over.  `Tick` is one count of it, and `Follows` says how one count leads to the
next.  A window counts its own ticks.  Among the counts up to a limit there are at most
that many in one window, and at most twice as many in any interval as long as a window.
-/

namespace TaskPlatform
namespace Counting

/-- One count: its time, the end of the window it falls into, and its value. -/
structure Tick (T : Type) where
  time : T
  expiry : T
  count : Nat

variable {T : Type} [LinearOrder T] [AddCommMonoid T]

/-- The next count falls into the same window, or begins a window of length `W`
after the end of the last one. -/
inductive Follows (W : T) (a b : Tick T) : Prop where
  | same (htime : a.time ≤ b.time) (hexpiry : b.expiry = a.expiry) (hcount : b.count = a.count + 1)
  | next (htime : a.expiry < b.time) (hexpiry : b.expiry = b.time + W) (hcount : b.count = 1)

/-- A count that comes later, in the same window or in a later one. -/
def Later (W : T) (a b : Tick T) : Prop :=
  b.time ≤ b.expiry ∧
    ((a.time ≤ b.time ∧ b.expiry = a.expiry ∧ a.count < b.count) ∨
      (a.expiry < b.time ∧ a.expiry + W < b.expiry))

/-- The counts of one counter, in their order. -/
structure Counts (W : T) (ticks : List (Tick T)) : Prop where
  alive : ∀ a ∈ ticks, a.time ≤ a.expiry
  positive : ∀ a ∈ ticks, 1 ≤ a.count
  follows : ticks.IsChain (Follows W)

variable {W : T}

theorem Later.trans {a b c : Tick T} (hab : Later W a b) (hbc : Later W b c) : Later W a c := by
  obtain ⟨hb, hab⟩ := hab
  obtain ⟨hc, hbc⟩ := hbc
  refine ⟨hc, ?_⟩
  rcases hab with ⟨htime, hexpiry, hcount⟩ | ⟨htime, hexpiry⟩
  · rcases hbc with ⟨htime', hexpiry', hcount'⟩ | ⟨htime', hexpiry'⟩
    · exact Or.inl ⟨htime.trans htime', hexpiry'.trans hexpiry, hcount.trans hcount'⟩
    · rw [hexpiry] at htime' hexpiry'
      exact Or.inr ⟨htime', hexpiry'⟩
  · rcases hbc with ⟨htime', hexpiry', _⟩ | ⟨htime', _⟩
    · exact Or.inr ⟨htime.trans_le htime', by rw [hexpiry']; exact hexpiry⟩
    · exact Or.inr ⟨(htime.trans_le hb).trans htime', hexpiry.trans (htime'.trans_le hc)⟩

theorem Follows.later [IsOrderedCancelAddMonoid T] {a b : Tick T} (hb : b.time ≤ b.expiry)
    (h : Follows W a b) : Later W a b := by
  cases h with
  | same htime hexpiry hcount => exact ⟨hb, Or.inl ⟨htime, hexpiry, by omega⟩⟩
  | next htime hexpiry _ => exact ⟨hb, Or.inr ⟨htime, by rw [hexpiry]; gcongr⟩⟩

instance : Trans (Later W) (Later W) (Later W) := ⟨Later.trans⟩

/-- Another count after the last one. -/
theorem Counts.concat {ticks : List (Tick T)} {b : Tick T} (h : Counts W ticks)
    (halive : b.time ≤ b.expiry) (hpositive : 1 ≤ b.count)
    (hlast : ∀ a ∈ ticks.getLast?, Follows W a b) : Counts W (ticks ++ [b]) where
  alive := by
    intro a ha
    rcases List.mem_append.mp ha with ha | ha
    · exact h.alive a ha
    · rw [List.mem_singleton.mp ha]
      exact halive
  positive := by
    intro a ha
    rcases List.mem_append.mp ha with ha | ha
    · exact h.positive a ha
    · rw [List.mem_singleton.mp ha]
      exact hpositive
  follows := by
    refine List.isChain_append.mpr ⟨h.follows, List.isChain_singleton b, ?_⟩
    intro a ha b' hb'
    cases hb'
    exact hlast a ha

section Order

variable [IsOrderedCancelAddMonoid T]

theorem Counts.later {ticks : List (Tick T)} (h : Counts W ticks) : ticks.Pairwise (Later W) := by
  refine List.IsChain.pairwise (h.follows.imp_of_mem_imp fun a b _ hb hab => ?_)
  exact hab.later (h.alive b hb)

/-- A window has counted its ticks so far, on top of what it began with: 1, unless it was
the first of the counter. -/
theorem Counts.count_eq {before after : List (Tick T)} {b : Tick T}
    (h : Counts W (before ++ b :: after)) :
    ∃ first, (before ++ [b]).find? (fun a => decide (a.expiry = b.expiry)) = some first ∧
      b.count = first.count + (before.filter fun a => decide (a.expiry = b.expiry)).length ∧
      ((before ++ [b]).head? = some first ∨ first.count = 1 ∧ first.expiry = first.time + W) := by
  induction before using List.reverseRecOn generalizing b after with
  | nil => exact ⟨b, by simp, by simp, Or.inl rfl⟩
  | append_singleton earlier a ih =>
      have hfollows : Follows W a b := by
        have hchain := (List.isChain_append.mp h.follows).2.2
        exact hchain a (by simp) b rfl
      cases hfollows with
      | same _ hexpiry hcount =>
          have hrest : Counts W (earlier ++ a :: b :: after) := by
            rwa [List.append_assoc, List.singleton_append] at h
          obtain ⟨first, hfind, hfirst, hbegan⟩ := ih hrest
          rw [hexpiry]
          refine ⟨first, ?_, ?_, ?_⟩
          · rw [List.find?_append, hfind]
            rfl
          · rw [List.filter_append, List.length_append, hcount, hfirst]
            simp [Nat.add_assoc]
          · refine hbegan.imp_left fun hhead => ?_
            rw [List.head?_append, hhead]
            rfl
      | next htime hexpiry hcount =>
          -- every earlier window was over before this one began
          have hother : ∀ x ∈ earlier ++ [a], ¬ x.expiry = b.expiry := by
            intro x hx hsame
            have halive : b.time ≤ b.expiry := h.alive b (by simp)
            have hle : x.expiry ≤ a.expiry := by
              rcases List.mem_append.mp hx with hx | hx
              · have hpair := (List.pairwise_append.mp
                  (List.pairwise_append.mp h.later).1).2.2 x hx a (by simp)
                rcases hpair.2 with ⟨_, heq, _⟩ | ⟨hlt, _⟩
                · exact heq.ge
                · exact (hlt.trans_le hpair.1).le
              · rw [List.mem_singleton.mp hx]
            exact absurd (hle.trans_lt (htime.trans_le halive)) (not_lt.mpr hsame.ge)
          have hnone : (earlier ++ [a]).find? (fun x => decide (x.expiry = b.expiry)) = none := by
            rw [List.find?_eq_none]
            simpa only [decide_eq_true_eq] using hother
          have hempty : (earlier ++ [a]).filter (fun x => decide (x.expiry = b.expiry)) = [] := by
            rw [List.filter_eq_nil_iff]
            simpa only [decide_eq_true_eq] using hother
          refine ⟨b, ?_, ?_, Or.inr ⟨hcount, hexpiry⟩⟩
          · rw [List.find?_append, hnone]
            simp
          · rw [hempty]
            rfl

end Order

section Bounds

variable [IsOrderedCancelAddMonoid T] {ticks : List (Tick T)} (limit : Nat)

/-- Numbers that increase up to a limit are at most that many. -/
theorem length_le_of_increasing {l : List Nat} (hl : l.Pairwise (· < ·))
    (hrange : ∀ n ∈ l, 1 ≤ n ∧ n ≤ limit) : l.length ≤ limit := by
  have hnodup : l.Nodup := hl.imp fun hab => hab.ne
  have hsub : l ⊆ List.range' 1 limit := by
    intro n hn
    rw [List.mem_range'_1]
    have := hrange n hn
    omega
  have hle := (hnodup.subperm hsub).length_le
  rwa [List.length_range'] at hle

/-- At most `limit` counts of one window are up to the limit. -/
theorem Counts.window_le (h : Counts W ticks) (e : T) :
    (ticks.filter fun a => decide (a.count ≤ limit) && decide (a.expiry = e)).length ≤ limit := by
  let inside := ticks.filter fun a => decide (a.count ≤ limit) && decide (a.expiry = e)
  have hmem : ∀ a ∈ inside, a ∈ ticks ∧ a.count ≤ limit ∧ a.expiry = e := by
    intro a ha
    simpa [inside] using ha
  have hpair : inside.Pairwise fun a b => a.count < b.count := by
    have hlater : inside.Pairwise (Later W) := h.later.sublist List.filter_sublist
    refine hlater.imp_of_mem fun {a b} ha hb hab => ?_
    obtain ⟨hb', hcases⟩ := hab
    rcases hcases with ⟨_, _, hcount⟩ | ⟨htime, _⟩
    · exact hcount
    · -- a later window ends later
      rw [(hmem a ha).2.2, ← (hmem b hb).2.2] at htime
      exact absurd htime (not_lt.mpr hb')
  have hcounts : (inside.map Tick.count).Pairwise (· < ·) := List.pairwise_map.mpr hpair
  have hle := length_le_of_increasing limit hcounts fun n hn => by
    obtain ⟨a, ha, rfl⟩ := List.mem_map.mp hn
    exact ⟨h.positive a (hmem a ha).1, (hmem a ha).2.1⟩
  rwa [List.length_map] at hle

/-- Of three counts less than a window apart, the first in another window than the
second, the last two are in one: a third window would begin after the interval. -/
theorem Later.same_window {a b c : Tick T} {start : T}
    (hab : Later W a b) (hne : b.expiry ≠ a.expiry) (hbc : Later W b c)
    (halive : start ≤ a.expiry) (hspan : c.time < start + W) : c.expiry = b.expiry := by
  rcases hbc.2 with ⟨_, hexpiry, _⟩ | ⟨htime, _⟩
  · exact hexpiry
  · rcases hab.2 with ⟨_, hexpiry, _⟩ | ⟨_, hwide⟩
    · exact absurd hexpiry hne
    · have hstart : start + W ≤ a.expiry + W := by gcongr
      exact absurd (hstart.trans_lt (hwide.trans (htime.trans hspan))) (lt_irrefl _)

/-- At most `2 * limit` counts of an interval as long as a window are up to the
limit: it meets no more than two windows. -/
theorem Counts.interval_le (h : Counts W ticks) (start : T) :
    (ticks.filter fun a => decide (a.count ≤ limit) &&
      (decide (start ≤ a.time) && decide (a.time < start + W))).length ≤ 2 * limit := by
  let inside := ticks.filter fun a => decide (a.count ≤ limit) &&
    (decide (start ≤ a.time) && decide (a.time < start + W))
  have hmem : ∀ a ∈ inside, a ∈ ticks ∧ a.count ≤ limit ∧ start ≤ a.time ∧
      a.time < start + W := by
    intro a ha
    simpa [inside] using ha
  have hlater : inside.Pairwise (Later W) := h.later.sublist List.filter_sublist
  have hwindow : ∀ (e : T) (l : List (Tick T)), l.Sublist inside → (∀ a ∈ l, a.expiry = e) →
      l.length ≤ limit := by
    intro e l hl he
    refine le_trans (List.Sublist.length_le ?_) (h.window_le limit e)
    have hall : l.filter (fun a => decide (a.count ≤ limit) && decide (a.expiry = e)) = l := by
      refine List.filter_eq_self.mpr fun a ha => ?_
      simp [(hmem a (hl.subset ha)).2.1, he a ha]
    rw [← hall]
    exact (hl.trans List.filter_sublist).filter _
  show inside.length ≤ 2 * limit
  cases hfirst : inside with
  | nil => exact Nat.zero_le _
  | cons a rest =>
      have ha : a ∈ inside := by
        rw [hfirst]
        exact List.mem_cons_self
      rw [← hfirst, List.length_eq_length_filter_add fun b => decide (b.expiry = a.expiry)]
      have hsame : (inside.filter fun b => decide (b.expiry = a.expiry)).length ≤ limit :=
        hwindow a.expiry _ List.filter_sublist fun b hb => by
          simpa using (List.mem_filter.mp hb).2
      have hother : (inside.filter fun b => !decide (b.expiry = a.expiry)).length ≤ limit := by
        let others := inside.filter fun b => !decide (b.expiry = a.expiry)
        have hothers : ∀ b ∈ others, b ∈ inside ∧ b.expiry ≠ a.expiry := by
          intro b hb
          simpa [others] using hb
        show others.length ≤ limit
        cases hsecond : others with
        | nil => exact Nat.zero_le _
        | cons b later =>
            have hb : b ∈ others := by
              rw [hsecond]
              exact List.mem_cons_self
            rw [← hsecond]
            refine hwindow b.expiry _ List.filter_sublist fun c hc => ?_
            have hsub : others.Pairwise (Later W) := hlater.sublist List.filter_sublist
            have hinside : c ∈ inside := (hothers c hc).1
            rw [hsecond] at hsub hc
            rcases List.mem_cons.mp hc with rfl | hc
            · rfl
            · have hab : Later W a b := by
                have hrest := hothers b hb
                rw [hfirst] at hlater hrest
                rcases List.mem_cons.mp hrest.1 with rfl | hmem'
                · exact absurd rfl hrest.2
                · exact (List.pairwise_cons.mp hlater).1 b hmem'
              have hbc : Later W b c := (List.pairwise_cons.mp hsub).1 c hc
              have halive : start ≤ a.expiry := (hmem a ha).2.2.1.trans (h.alive a (hmem a ha).1)
              exact hab.same_window (hothers b hb).2 hbc halive (hmem c hinside).2.2.2
      omega

end Bounds
end Counting
end TaskPlatform
