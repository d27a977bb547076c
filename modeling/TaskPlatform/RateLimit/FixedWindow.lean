import Mathlib.Algebra.Order.Ring.Nat
import TaskPlatform.Counting.Windows
import TaskPlatform.RateLimit.Redis

/-!
# The fixed-window law

Visits to one key by guarded requests, whose `eval` may be answered, lose its reply
or never be executed.  The executions of the script that succeed are the ticks of a
fixed-window counter, whatever the key held before, so the bounds of `Counting.Counts`
are bounds on the requests the guards let through, where the script's numbers tell a
counter within the limit from one above it.
-/

namespace TaskPlatform

open Counting Redis

/-- A guarded request: when Redis gets its `eval`, and what becomes of it. -/
structure Visit where
  time : Nat
  delivery : Delivery
  deriving Repr

def Visit.executed (v : Visit) : Bool := v.delivery ≠ .notExecuted

/-- A visit with the key it found, what the script returned on the server, if it was
executed, the result of `check_key`, and the key afterwards. -/
structure Answer where
  visit : Visit
  found : Option Entry
  script : Option (Except RedisError (Int × Int))
  result : Except RedisError RateLimitDecision
  entry : Option Entry

def answer (limit seconds : Nat) (entry : Option Entry) (v : Visit) : Answer :=
  { visit := v
    found := entry
    script := if v.executed then some (fixedWindow seconds v.time entry).1 else none
    result := (checkKey limit seconds v.delivery v.time entry).1
    entry := (checkKey limit seconds v.delivery v.time entry).2 }

def visits (limit seconds : Nat) : Option Entry → List Visit → List Answer
  | _, [] => []
  | entry, v :: rest =>
    answer limit seconds entry v :: visits limit seconds (answer limit seconds entry v).entry rest

namespace Answer

/-- The registration and login guards let the request through. -/
def passesAuth (a : Answer) : Bool := (enforceAuthRateLimit a.result).isOk

/-- The write guard lets the request through. -/
def passesWrite (a : Answer) : Bool := (enforceWriteRateLimit a.result).isOk

def expiry (a : Answer) : Option Nat := a.entry.bind Entry.expireAt

/-- The count an execution of the script made: the counter and the expiry it left. -/
def tick? (a : Answer) : Option (Tick Nat) :=
  match a.script, a.entry with
  | some (.ok _), some ⟨count, some expiry⟩ => some ⟨a.visit.time, expiry, count⟩
  | _, _ => none

end Answer

/-- The counts of the executions, in their order. -/
def executions (answers : List Answer) : List (Tick Nat) := answers.filterMap Answer.tick?

/-- Every answer is of one of three kinds. -/
inductive AnswerKind (limit seconds : Nat) (found : Option Entry) (v : Visit) : Answer → Prop where
  | passedOver (script : Option (Except RedisError (Int × Int))) (err : RedisError)
      (hscript : ∀ r, script = some r → r = .error .overflow)
      (hfull : v.executed = true → 2 ^ 63 ≤ counted v.time found + 1) :
      AnswerKind limit seconds found v ⟨v, found, script, .error err, found⟩
  | unset (err : RedisError) (hexecuted : v.executed = true)
      (hsets : setsExpiry v.time found = true) (hlate : 2 ^ 63 ≤ v.time + 1000 * seconds) :
      AnswerKind limit seconds found v ⟨v, found, some (.error .expireTime), .error err,
        some ⟨counted v.time found + 1, (live v.time found).bind Entry.expireAt⟩⟩
  | counted (result : Except RedisError RateLimitDecision)
      (hfits : counted v.time found + 1 < 2 ^ 63)
      (hset : setsExpiry v.time found = true → v.time + 1000 * seconds < 2 ^ 63)
      (hresult : (v.delivery = .answered ∧
          result = .ok (decisionOf limit (replied (counted v.time found + 1))
            (replied ((remaining seconds v.time found + 500) / 1000)))) ∨
        (v.delivery = .replyLost ∧ result = .error .unavailable)) :
      AnswerKind limit seconds found v
        ⟨v, found, some (.ok (replied (counted v.time found + 1),
            replied ((remaining seconds v.time found + 500) / 1000))), result,
          some ⟨counted v.time found + 1, some (v.time + remaining seconds v.time found)⟩⟩

theorem answer_kind (limit seconds : Nat) (entry : Option Entry) (v : Visit) :
    AnswerKind limit seconds entry v (answer limit seconds entry v) := by
  have hscript := fixedWindow_counted seconds v.time entry
  unfold answer checkKey
  revert hscript
  generalize fixedWindow seconds v.time entry = script
  intro hscript
  have hfailed : ∀ r, some (.error .overflow : Except RedisError (Int × Int)) = some r →
      r = .error .overflow := fun r hr => (Option.some.inj hr).symm
  cases hdelivery : v.delivery with
  | notExecuted =>
      have hexecuted : v.executed = false := by simp [Visit.executed, hdelivery]
      rw [hexecuted]
      refine AnswerKind.passedOver _ _ nofun fun h => ?_
      rw [hexecuted] at h
      cases h
  | replyLost =>
      have hexecuted : v.executed = true := by simp [Visit.executed, hdelivery]
      rw [if_pos hexecuted]
      cases hscript with
      | failed hfull => exact AnswerKind.passedOver _ _ hfailed fun _ => hfull
      | unset hsets hlate => exact AnswerKind.unset _ hexecuted hsets hlate
      | counted hfits hset => exact AnswerKind.counted _ hfits hset (Or.inr ⟨hdelivery, rfl⟩)
  | answered =>
      have hexecuted : v.executed = true := by simp [Visit.executed, hdelivery]
      rw [if_pos hexecuted]
      cases hscript with
      | failed hfull => exact AnswerKind.passedOver _ _ hfailed fun _ => hfull
      | unset hsets hlate => exact AnswerKind.unset _ hexecuted hsets hlate
      | counted hfits hset =>
          refine AnswerKind.counted _ hfits hset (Or.inl ⟨hdelivery, ?_⟩)
          simp only [Except.map]

/-- An execution follows the last one, whose counter the key still has. -/
theorem follows_of_entry {seconds now : Nat} {last : Tick Nat} {entry : Option Entry}
    (htime : last.time ≤ now) (hlast : 1 ≤ last.count)
    (hentry : entry = some ⟨last.count, some last.expiry⟩) :
    Follows (1000 * seconds) last
      ⟨now, now + remaining seconds now entry, counted now entry + 1⟩ := by
  rw [hentry]
  by_cases halive : now ≤ last.expiry
  · have hlive : live now (some ⟨last.count, some last.expiry⟩) = _ := live_of_running halive
    rw [counted_of_live hlive, remaining_of_running hlive hlast, Nat.add_sub_cancel' halive]
    exact Follows.same htime rfl rfl
  · have hgone : live now (some ⟨last.count, some last.expiry⟩) = none :=
      live_of_expired (Nat.not_le.mp halive)
    rw [counted_of_gone hgone, remaining_of_setsExpiry (setsExpiry_of_gone hgone)]
    exact Follows.next (Nat.not_le.mp halive) rfl rfl

/-- The key goes on from the last execution, or has lost its expiry for good: a visit
sets one only when it is in time. -/
def Continues (seconds : Nat) (entry : Option Entry) (last : Tick Nat) (vs : List Visit) : Prop :=
  (∀ v ∈ vs, last.time ≤ v.time) ∧
    (entry = some ⟨last.count, some last.expiry⟩ ∨
      ∃ count, entry = some ⟨count, none⟩ ∧ ∀ v ∈ vs, 2 ^ 63 ≤ v.time + 1000 * seconds)

theorem Continues.tail {seconds : Nat} {entry : Option Entry} {last : Tick Nat} {v : Visit}
    {rest : List Visit} (h : Continues seconds entry last (v :: rest)) :
    Continues seconds entry last rest := by
  refine ⟨fun v' hv' => h.1 v' (List.mem_cons_of_mem v hv'), h.2.imp_right ?_⟩
  rintro ⟨count, hentry, hlate⟩
  exact ⟨count, hentry, fun v' hv' => hlate v' (List.mem_cons_of_mem v hv')⟩

/-- A visit that comes too late for an expiry leaves the key without one. -/
theorem Continues.unset {seconds : Nat} {entry : Option Entry} {last : Tick Nat} {v : Visit}
    {rest : List Visit} (h : Continues seconds entry last (v :: rest)) (hlast : 1 ≤ last.count)
    (hsets : setsExpiry v.time entry = true) (hlate : 2 ^ 63 ≤ v.time + 1000 * seconds)
    (hrest : ∀ v' ∈ rest, v.time ≤ v'.time) :
    Continues seconds (some ⟨counted v.time entry + 1, (live v.time entry).bind Entry.expireAt⟩)
      last rest := by
  refine ⟨h.tail.1, Or.inr ⟨counted v.time entry + 1, ?_, fun v' hv' => ?_⟩⟩
  · have hexpiry : (live v.time entry).bind Entry.expireAt = none := by
      cases hlive : live v.time entry with
      | none => rfl
      | some old =>
          rcases (setsExpiry_of_live hlive).mp hsets with hzero | hnone
          · have hold := (live_eq_some.mp hlive).1
            rcases h.2 with hentry | ⟨count, hentry, _⟩
            · cases hentry.symm.trans hold
              simp only at hzero
              omega
            · cases hentry.symm.trans hold
              rfl
          · exact hnone
    rw [hexpiry]
  · have htime := hrest v' hv'
    omega

/-- The executions among the visits to a key are the counts of a fixed-window
counter. -/
theorem counts_visits {limit seconds : Nat} {vs : List Visit} {ticks : List (Tick Nat)}
    {entry : Option Entry} (hticks : Counts (1000 * seconds) ticks)
    (hentry : ∀ last ∈ ticks.getLast?, Continues seconds entry last vs)
    (hvs : vs.Pairwise fun v v' => v.time ≤ v'.time) :
    Counts (1000 * seconds) (ticks ++ executions (visits limit seconds entry vs)) := by
  induction vs generalizing ticks entry with
  | nil =>
      rw [visits, executions, List.filterMap_nil, List.append_nil]
      exact hticks
  | cons v rest ih =>
      obtain ⟨hv, hrest⟩ := List.pairwise_cons.mp hvs
      rw [visits, executions]
      have hanswer := answer_kind limit seconds entry v
      revert hanswer
      generalize answer limit seconds entry v = a
      intro hanswer
      cases hanswer with
      | passedOver script err hscript _ =>
          rw [List.filterMap_cons_none]
          · exact ih hticks (fun last hlast => (hentry last hlast).tail) hrest
          · cases script with
            | none => rfl
            | some r =>
                rw [hscript r rfl]
                rfl
      | unset err _ hsets hlate =>
          rw [List.filterMap_cons_none rfl]
          refine ih hticks (fun last hlast => ?_) hrest
          have hpositive := hticks.positive last (List.mem_of_getLast? hlast)
          exact (hentry last hlast).unset hpositive hsets hlate hv
      | counted result hfits hset hresult =>
          let tick : Tick Nat :=
            ⟨v.time, v.time + remaining seconds v.time entry, counted v.time entry + 1⟩
          rw [List.filterMap_cons_some (f := Answer.tick?) (b := tick) rfl, List.append_cons]
          have hcounts : Counts (1000 * seconds) (ticks ++ [tick]) := by
            refine hticks.concat (Nat.le_add_right _ _) (Nat.succ_pos _) fun last hlast => ?_
            obtain ⟨htime, hsame | ⟨count, hnone, hlate⟩⟩ := hentry last hlast
            · exact follows_of_entry (htime v List.mem_cons_self)
                (hticks.positive last (List.mem_of_getLast? hlast)) hsame
            · have hlive : live v.time entry = some ⟨count, none⟩ := by
                rw [hnone]
                rfl
              have hsets := (setsExpiry_of_live hlive).mpr (Or.inr rfl)
              exact absurd (hset hsets) (Nat.not_lt.mpr (hlate v List.mem_cons_self))
          refine ih hcounts (fun last hlast => ?_) hrest
          rw [List.getLast?_append] at hlast
          cases hlast
          exact ⟨hv, Or.inl rfl⟩

/-! ## What the guards let through -/

/-- What becomes of the visits to a key that held `entry` at first. -/
structure FixedWindowLaw (limit seconds : Nat) (entry : Option Entry) (answers : List Answer) :
    Prop where
  /-- An execution counts, and leaves the key with an expiry, after which it is gone. -/
  expires : ∀ a ∈ answers, a.visit.executed = true → ∃ tick, a.tick? = some tick ∧
    a.entry = some ⟨tick.count, some tick.expiry⟩ ∧ ∀ now, tick.expiry < now →
      live now a.entry = none
  /-- An answered execution allows the request if and only if the counter it left is
  at most the limit. -/
  allowed : ∀ a ∈ answers, a.visit.delivery = .answered → ∃ tick decision,
    a.tick? = some tick ∧ a.result = .ok decision ∧
      (decision.allowed = true ↔ tick.count ≤ limit)
  /-- The first execution goes on from what the key held. -/
  begins : ∀ tick ∈ (executions answers).head?, tick.count = counted tick.time entry + 1 ∧
    tick.expiry = tick.time + remaining seconds tick.time entry
  /-- The counter is the number of executions in its window, with this one, on top of what
  the key held at first; every later window begins at 1 and lasts as configured. -/
  counts : ∀ before tick after, executions answers = before ++ tick :: after →
    ∃ first, (before ++ [tick]).find? (fun x => decide (x.expiry = tick.expiry)) = some first ∧
      tick.count = first.count +
        (before.filter fun x => decide (x.expiry = tick.expiry)).length ∧
      ((executions answers).head? = some first ∨
        first.count = 1 ∧ first.expiry = first.time + 1000 * seconds)
  /-- The registration and login guards are closed when Redis fails. -/
  closed : ∀ a ∈ answers, ∀ err, a.result = .error err → a.passesAuth = false
  /-- A window is known by its expiry. -/
  window : ∀ expiry, (answers.filter fun a =>
    a.passesAuth && decide (a.expiry = some expiry)).length ≤ limit
  interval : ∀ start, (answers.filter fun a => a.passesAuth &&
    (decide (start ≤ a.visit.time) && decide (a.visit.time < start + 1000 * seconds))).length ≤
      2 * limit
  /-- The write guard refuses only what an answered execution counted above the
  limit. -/
  refused : ∀ a ∈ answers, a.passesWrite = false → a.visit.delivery = .answered ∧
    ∃ tick, a.tick? = some tick ∧ limit < tick.count

/-- The double nearest to a counter is on the other side of the limit, or beyond the 64-bit
range, where the client reads it as the least integer. -/
def Misread (limit count : Nat) : Prop :=
  count ≤ limit ∧ limit < nearestDouble count ∧ nearestDouble count < 2 ^ 63 ∨
    limit < count ∧ (nearestDouble count ≤ limit ∨ 2 ^ 63 ≤ nearestDouble count)

instance (limit count : Nat) : Decidable (Misread limit count) :=
  inferInstanceAs (Decidable (_ ∨ _))

theorem not_misread_iff {limit count : Nat} :
    ¬ Misread limit count ↔ (replied count ≤ limit ↔ count ≤ limit) := by
  rw [Misread, replied, luaNumber_natCast, luaReply]
  generalize nearestDouble count = x
  split <;> omega

/-- Up to 2^53 every counter is a double. -/
theorem not_misread_of_le {limit count : Nat} (h : count ≤ 2 ^ 53) : ¬ Misread limit count := by
  rw [not_misread_iff, replied_of_le h]
  exact Int.ofNat_le

/-- The numbers of Redis and of its script hold what an execution needs. -/
structure InRange (limit seconds : Nat) (v : Visit) (found : Option Entry) : Prop where
  /-- The counter has room for one more. -/
  room : counted v.time found + 1 < 2 ^ 63
  /-- An expiry that has to be set is in range. -/
  expiry : setsExpiry v.time found = true → v.time + 1000 * seconds < 2 ^ 63
  /-- The client does not misread a counter that is delivered. -/
  side : v.delivery = .answered → ¬ Misread limit (counted v.time found + 1)

instance (limit seconds : Nat) (v : Visit) (found : Option Entry) :
    Decidable (InRange limit seconds v found) :=
  decidable_of_iff (_ ∧ _ ∧ _)
    ⟨fun h => ⟨h.1, h.2.1, h.2.2⟩, fun h => ⟨h.room, h.expiry, h.side⟩⟩

/-- Every answer of a list of visits is the answer to one of them. -/
theorem kind_of_mem {limit seconds : Nat} {vs : List Visit} {entry : Option Entry} {a : Answer}
    (ha : a ∈ visits limit seconds entry vs) : AnswerKind limit seconds a.found a.visit a := by
  induction vs generalizing entry with
  | nil => cases ha
  | cons v rest ih =>
      rcases List.mem_cons.mp ha with rfl | ha
      · exact answer_kind limit seconds entry v
      · exact ih ha

theorem allowed_decisionOf {limit : Nat} {count t : Int} :
    (decisionOf limit count t).allowed = true ↔ count ≤ limit := decide_eq_true_iff

theorem passesAuth_ok {limit : Nat} {count t : Int} {v : Visit} {found script entry} :
    (Answer.mk v found script (.ok (decisionOf limit count t)) entry).passesAuth =
      decide (count ≤ limit) := by
  by_cases h : count ≤ limit
  · simp [Answer.passesAuth, enforceAuthRateLimit, raiseIfExceeded, decisionOf, h, Except.isOk,
      Except.toBool]
  · simp [Answer.passesAuth, enforceAuthRateLimit, raiseIfExceeded, decisionOf, h, Except.isOk,
      Except.toBool]

theorem passesWrite_ok {limit : Nat} {count t : Int} {v : Visit} {found script entry} :
    (Answer.mk v found script (.ok (decisionOf limit count t)) entry).passesWrite =
      decide (count ≤ limit) := by
  by_cases h : count ≤ limit
  · simp [Answer.passesWrite, enforceWriteRateLimit, raiseIfExceeded, decisionOf, h, Except.isOk,
      Except.toBool]
  · simp [Answer.passesWrite, enforceWriteRateLimit, raiseIfExceeded, decisionOf, h, Except.isOk,
      Except.toBool]

section Kinds

variable {limit seconds : Nat} {found : Option Entry} {v : Visit} {a : Answer}

/-- What the registration and login guards let through was counted, and its number is
within the limit. -/
theorem tick_of_passesAuth (h : AnswerKind limit seconds found v a) (hpass : a.passesAuth = true) :
    v.delivery = .answered ∧ ∃ tick, a.tick? = some tick ∧ tick.time = a.visit.time ∧
      a.expiry = some tick.expiry ∧ tick.count = counted v.time found + 1 ∧
        replied tick.count ≤ limit := by
  cases h with
  | passedOver script err _ _ => cases hpass
  | unset err _ _ _ => cases hpass
  | counted result _ _ hresult =>
      rcases hresult with ⟨hdelivery, rfl⟩ | ⟨hlost, rfl⟩
      · rw [passesAuth_ok, decide_eq_true_eq] at hpass
        exact ⟨hdelivery, ⟨_, _, counted v.time found + 1⟩, rfl, rfl, rfl, rfl, hpass⟩
      · cases hpass

/-- What the write guard refuses was counted, and its number is above the limit. -/
theorem tick_of_refused (h : AnswerKind limit seconds found v a) (hpass : a.passesWrite = false) :
    a.visit.delivery = .answered ∧ ∃ tick, a.tick? = some tick ∧
      tick.count = counted v.time found + 1 ∧ ¬ replied tick.count ≤ limit := by
  cases h with
  | passedOver script err _ _ => cases hpass
  | unset err _ _ _ => cases hpass
  | counted result _ _ hresult =>
      rcases hresult with ⟨hdelivery, rfl⟩ | ⟨hlost, rfl⟩
      · rw [passesWrite_ok, decide_eq_false_iff_not] at hpass
        exact ⟨hdelivery, ⟨_, _, counted v.time found + 1⟩, rfl, rfl, hpass⟩
      · cases hpass

/-- What an execution in range leaves, and what it answers. -/
theorem counted_of_inRange (h : AnswerKind limit seconds found v a) (hexecuted : v.executed = true)
    (hrange : InRange limit seconds v found) :
    a.entry = some ⟨counted v.time found + 1, some (v.time + remaining seconds v.time found)⟩ ∧
      a.tick? = some ⟨v.time, v.time + remaining seconds v.time found,
        counted v.time found + 1⟩ ∧
      (v.delivery = .answered → a.result =
        .ok (decisionOf limit (replied (counted v.time found + 1))
          (replied ((remaining seconds v.time found + 500) / 1000)))) := by
  cases h with
  | passedOver script err _ hfull =>
      exact absurd hrange.room (Nat.not_lt.mpr (hfull hexecuted))
  | unset err _ hsets hlate => exact absurd (hrange.expiry hsets) (Nat.not_lt.mpr hlate)
  | counted result _ _ hresult =>
      refine ⟨rfl, rfl, fun hdelivery => ?_⟩
      rcases hresult with ⟨_, hresult⟩ | ⟨hlost, _⟩
      · exact hresult
      · cases hlost.symm.trans hdelivery

end Kinds

/-- Filtering after a partial map finds at least what it maps into the filter. -/
theorem length_filter_le_filterMap {α β : Type} {f : α → Option β} {p : α → Bool} {q : β → Bool}
    {l : List α} (h : ∀ a ∈ l, p a = true → ∃ b, f a = some b ∧ q b = true) :
    (l.filter p).length ≤ ((l.filterMap f).filter q).length := by
  induction l with
  | nil => exact le_refl 0
  | cons a rest ih =>
      have hrest := ih fun x hx => h x (List.mem_cons_of_mem a hx)
      cases hp : p a with
      | true =>
          obtain ⟨b, hb, hq⟩ := h a List.mem_cons_self hp
          rw [List.filter_cons_of_pos hp, List.filterMap_cons_some hb, List.filter_cons_of_pos hq]
          exact Nat.succ_le_succ hrest
      | false =>
          rw [List.filter_cons_of_neg (by simp [hp])]
          refine hrest.trans (List.Sublist.length_le (List.Sublist.filter q ?_))
          cases hb : f a with
          | none => rw [List.filterMap_cons_none hb]
          | some b =>
              rw [List.filterMap_cons_some hb]
              exact List.sublist_cons_self b _

/-- The requests that pass the registration and login guards are among the counts up to
the limit, in whatever window or interval. -/
theorem length_passed_le {limit seconds : Nat} {vs : List Visit} {entry : Option Entry}
    {P : Answer → Bool} {q : Tick Nat → Bool}
    (hexact : ∀ a ∈ visits limit seconds entry vs, a.visit.delivery = .answered →
      replied (counted a.visit.time a.found + 1) ≤ limit →
        counted a.visit.time a.found + 1 ≤ limit)
    (hP : ∀ a tick, P a = true → tick.time = a.visit.time → a.expiry = some tick.expiry →
      q tick = true) :
    ((visits limit seconds entry vs).filter fun a => a.passesAuth && P a).length ≤
      ((executions (visits limit seconds entry vs)).filter fun tick =>
        decide (tick.count ≤ limit) && q tick).length := by
  refine length_filter_le_filterMap fun a ha hpass => ?_
  obtain ⟨hpass, hPa⟩ := Bool.and_eq_true_iff.mp hpass
  obtain ⟨hdelivery, tick, htick, htime, hexpiry, hcount, hle⟩ :=
    tick_of_passesAuth (kind_of_mem ha) hpass
  rw [hcount] at hle
  have hwithin := hexact a ha hdelivery hle
  refine ⟨tick, htick, ?_⟩
  rw [hP a tick hPa htime hexpiry, decide_eq_true (hcount.trans_le hwithin)]
  rfl

section Law

variable {limit seconds : Nat} {entry : Option Entry} {vs : List Visit}

/-- The executions of a run from nothing. -/
theorem counts_executions (hvs : vs.Pairwise fun v v' => v.time ≤ v'.time) :
    Counts (1000 * seconds) (executions (visits limit seconds entry vs)) := by
  have hnone : Counts (1000 * seconds) ([] : List (Tick Nat)) :=
    ⟨nofun, nofun, List.IsChain.nil⟩
  exact counts_visits hnone nofun hvs

/-- The first execution finds what the key held at first. -/
theorem begins_of_inRange
    (h : ∀ a ∈ visits limit seconds entry vs, a.visit.executed = true →
      InRange limit seconds a.visit a.found) {tick : Tick Nat}
    (htick : tick ∈ (executions (visits limit seconds entry vs)).head?) :
    tick.count = counted tick.time entry + 1 ∧
      tick.expiry = tick.time + remaining seconds tick.time entry := by
  induction vs with
  | nil => cases htick
  | cons v rest ih =>
      have hanswer := answer_kind limit seconds entry v
      have hhead := h _ List.mem_cons_self
      have hrest : ∀ a ∈ visits limit seconds (answer limit seconds entry v).entry rest, _ :=
        fun a ha => h a (List.mem_cons_of_mem _ ha)
      rw [visits, executions] at htick
      cases hexecuted : v.executed with
      | true =>
          rw [List.filterMap_cons_some (counted_of_inRange hanswer hexecuted
            (hhead hexecuted)).2.1, List.head?_cons, Option.mem_some_iff] at htick
          subst htick
          exact ⟨rfl, rfl⟩
      | false =>
          have hsame : (answer limit seconds entry v).entry = entry ∧
              (answer limit seconds entry v).tick? = none := by
            obtain ⟨time, delivery⟩ := v
            cases delivery with
            | notExecuted => exact ⟨rfl, rfl⟩
            | answered => cases hexecuted
            | replyLost => cases hexecuted
          rw [List.filterMap_cons_none hsame.2] at htick
          rw [hsame.1] at htick hrest
          exact ih hrest htick

/-- The law holds of every run whose executions are in range. -/
theorem law_of_inRange (hvs : vs.Pairwise fun v v' => v.time ≤ v'.time)
    (h : ∀ a ∈ visits limit seconds entry vs, a.visit.executed = true →
      InRange limit seconds a.visit a.found) :
    FixedWindowLaw limit seconds entry (visits limit seconds entry vs) := by
  have hcounts : Counts (1000 * seconds) (executions (visits limit seconds entry vs)) :=
    counts_executions hvs
  have hanswered : ∀ a ∈ visits limit seconds entry vs, a.visit.delivery = .answered →
      a.visit.executed = true := by
    intro a _ hdelivery
    rw [Visit.executed, hdelivery]
    rfl
  have hexact : ∀ a ∈ visits limit seconds entry vs, a.visit.delivery = .answered →
      (replied (counted a.visit.time a.found + 1) ≤ limit ↔
        counted a.visit.time a.found + 1 ≤ limit) :=
    fun a ha hdelivery =>
      not_misread_iff.mp ((h a ha (hanswered a ha hdelivery)).side hdelivery)
  refine ⟨?_, ?_, ?_, ?_, ?_, ?_, ?_, ?_⟩
  · intro a ha hexecuted
    obtain ⟨hentry, htick, _⟩ := counted_of_inRange (kind_of_mem ha) hexecuted (h a ha hexecuted)
    refine ⟨_, htick, hentry, fun now hnow => ?_⟩
    rw [hentry]
    exact live_of_expired hnow
  · intro a ha hdelivery
    have hexecuted := hanswered a ha hdelivery
    obtain ⟨_, htick, hresult⟩ :=
      counted_of_inRange (kind_of_mem ha) hexecuted (h a ha hexecuted)
    refine ⟨_, _, htick, hresult hdelivery, ?_⟩
    rw [allowed_decisionOf]
    exact hexact a ha hdelivery
  · intro tick htick
    exact begins_of_inRange h htick
  · intro before tick after hsplit
    rw [hsplit] at hcounts
    obtain ⟨first, hfind, hcount, hbegan⟩ := hcounts.count_eq
    refine ⟨first, hfind, hcount, hbegan.imp_left fun hhead => ?_⟩
    rw [hsplit, List.append_cons, List.head?_append, hhead]
    rfl
  · intro a ha err herr
    rw [Answer.passesAuth, herr]
    rfl
  · intro expiry
    refine le_trans (length_passed_le (fun a ha hd hle => (hexact a ha hd).mp hle)
      fun a tick hP _ hexpiry => ?_) (hcounts.window_le limit expiry)
    rw [of_decide_eq_true hP, Option.some.injEq] at hexpiry
    exact decide_eq_true hexpiry.symm
  · intro start
    refine le_trans (length_passed_le (fun a ha hd hle => (hexact a ha hd).mp hle)
      fun a tick hP htime _ => ?_) (hcounts.interval_le limit start)
    rw [htime]
    exact hP
  · intro a ha hrefused
    obtain ⟨hdelivery, tick, htick, hcount, habove⟩ := tick_of_refused (kind_of_mem ha) hrefused
    refine ⟨hdelivery, tick, htick, ?_⟩
    rw [hcount] at habove ⊢
    exact Nat.not_le.mp fun hle => habove ((hexact a ha hdelivery).mpr hle)

/-- In a run that keeps the law every execution is in range. -/
theorem inRange_of_law {answers : List Answer}
    (h : FixedWindowLaw limit seconds entry answers) {found : Option Entry} {v : Visit}
    {a : Answer} (ha : a ∈ answers) (hkind : AnswerKind limit seconds found v a)
    (hexecuted : v.executed = true) : InRange limit seconds v found := by
  cases hkind with
  | passedOver script err hscript _ =>
      obtain ⟨tick, htick, _⟩ := h.expires _ ha hexecuted
      cases script with
      | none => cases htick
      | some r =>
          rw [hscript r rfl] at htick
          cases htick
  | unset err _ _ _ =>
      obtain ⟨tick, htick, _⟩ := h.expires _ ha hexecuted
      cases htick
  | counted result hfits hset hresult =>
      refine ⟨hfits, hset, fun hdelivery => ?_⟩
      obtain ⟨tick, decision, htick, hdecision, hiff⟩ := h.allowed _ ha hdelivery
      obtain rfl := Option.some.inj htick
      rcases hresult with ⟨_, hresult⟩ | ⟨hlost, _⟩
      · obtain rfl := Except.ok.inj (hresult.symm.trans hdecision)
        rw [allowed_decisionOf] at hiff
        exact not_misread_iff.mpr hiff
      · cases hlost.symm.trans hdelivery

/-- A run from any key, with visits in time order, keeps the law if and only if every
execution finds the key in range. -/
theorem fixedWindow_law_iff (limit seconds : Nat) (entry : Option Entry) {vs : List Visit}
    (hvs : vs.Pairwise fun v v' => v.time ≤ v'.time) :
    FixedWindowLaw limit seconds entry (visits limit seconds entry vs) ↔
      ∀ a ∈ visits limit seconds entry vs, a.visit.executed = true →
        InRange limit seconds a.visit a.found :=
  ⟨fun h _ ha hexecuted => inRange_of_law h ha (kind_of_mem ha) hexecuted, law_of_inRange hvs⟩

end Law

/-! ### A counter without an expiry is repaired -/

theorem fixedWindow_law_repaired :
    let answers := visits 2 60 (some ⟨1, none⟩)
      [⟨0, .answered⟩, ⟨10000, .replyLost⟩, ⟨20000, .notExecuted⟩, ⟨30000, .answered⟩,
        ⟨60001, .answered⟩]
    answers.map Answer.passesAuth = [true, false, false, false, true] ∧
      FixedWindowLaw 2 60 (some ⟨1, none⟩) answers :=
  ⟨by decide +kernel, (fixedWindow_law_iff 2 60 (some ⟨1, none⟩) (by decide)).mpr
    (by decide +kernel)⟩

/-! ### A counter that no longer fits -/

/-- One answered request. -/
def oneAnswer (limit seconds : Nat) (entry : Option Entry) : List Answer :=
  visits limit seconds entry [⟨0, .answered⟩]

/-- A counter near the end of its range comes back as a negative number, and one that no
double holds may come back as the limit: both requests are let through.  A window that ends
beyond the range of Redis is never set. -/
theorem fixedWindow_law_fails :
    let full : Option Entry := some ⟨2 ^ 63 - 2, some 60000⟩
    let odd : Option Entry := some ⟨2 ^ 53, some 60000⟩
    ((oneAnswer 1 60 full).map Answer.passesAuth = [true] ∧
        ¬ FixedWindowLaw 1 60 full (oneAnswer 1 60 full)) ∧
      ((oneAnswer (2 ^ 53) 60 odd).map Answer.passesAuth = [true] ∧
        ¬ FixedWindowLaw (2 ^ 53) 60 odd (oneAnswer (2 ^ 53) 60 odd)) ∧
      ((oneAnswer 1 (2 ^ 60) none).map Answer.entry = [some ⟨1, none⟩] ∧
        ¬ FixedWindowLaw 1 (2 ^ 60) none (oneAnswer 1 (2 ^ 60) none)) := by
  have hfails : ∀ {limit seconds : Nat} {entry : Option Entry},
      ¬ InRange limit seconds ⟨0, .answered⟩ entry →
        ¬ FixedWindowLaw limit seconds entry (oneAnswer limit seconds entry) :=
    fun hout h => hout (inRange_of_law h List.mem_cons_self (answer_kind _ _ _ _) rfl)
  intro full odd
  refine ⟨⟨by decide +kernel, hfails (by decide +kernel)⟩,
    ⟨by decide +kernel, hfails (by decide +kernel)⟩,
    ⟨by decide +kernel, hfails (by decide +kernel)⟩⟩

end TaskPlatform
