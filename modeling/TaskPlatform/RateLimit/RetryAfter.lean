import TaskPlatform.RateLimit.FixedWindow

/-!
# Waiting for Retry-After

A refused call reports the remaining lifetime of its key in seconds, rounded to the
nearest and at least 1.  Whether a client that waits that long finds the key gone
depends on what the rounding did.  It is let through then, unless Redis can no longer set
the expiry of a new window.
-/

namespace TaskPlatform

open Redis

/-! ## The rounding -/

/-- The reported wait outlasts a lifetime of `r` milliseconds: less than a second is left,
or the seconds are rounded up to the number that is reported. -/
def Outlasts (r : Nat) : Prop :=
  let seconds := (r + 500) / 1000
  r < 1000 ∨ (seconds : Int) < replied seconds ∨ replied seconds = seconds ∧ 500 ≤ r % 1000

instance (r : Nat) : Decidable (Outlasts r) := inferInstanceAs (Decidable (_ ∨ _ ∨ _))

/-- As long as a double holds the seconds, only their own rounding counts. -/
theorem outlasts_iff {r : Nat} (h : (r + 500) / 1000 ≤ 2 ^ 53) :
    Outlasts r ↔ r < 1000 ∨ 500 ≤ r % 1000 := by
  simp [Outlasts, replied_of_le h]

theorem lt_wait_iff (r : Nat) :
    (r : Int) < 1000 * max (replied ((r + 500) / 1000)) 1 ↔ Outlasts r := by
  simp only [Outlasts]
  generalize hwait : replied ((r + 500) / 1000) = wait
  rcases le_total wait 1 with h | h
  · rw [max_eq_right h]
    omega
  · rw [max_eq_left h]
    omega

/-! ## The key of a refusal -/

/-- The key after visits. -/
def keyAfter (limit seconds : Nat) : Option Entry → List Visit → Option Entry
  | entry, [] => entry
  | entry, v :: rest => keyAfter limit seconds (answer limit seconds entry v).entry rest

variable {limit seconds : Nat} {entry found : Option Entry} {v : Visit} {vs : List Visit}
  {decision : RateLimitDecision}

/-- In a history from `entry`, visit `v` finds the key as `found` and is refused. -/
structure Refusal (limit seconds : Nat) (entry : Option Entry) (vs : List Visit)
    (found : Option Entry) (v : Visit) (decision : RateLimitDecision) : Prop where
  history : ∃ earlier later, vs = earlier ++ v :: later ∧
    found = keyAfter limit seconds entry earlier
  result : (answer limit seconds found v).result = .ok decision
  refused : decision.allowed = false

/-- A client that waits `retryAfter` seconds finds the key gone, whatever was counted on
that key meanwhile, and is let through as long as a new window ends in range. -/
def WaitSuffices (limit seconds : Nat) (refusal : Answer) (retryAfter : Int) : Prop :=
  ∀ between : List Visit,
    (∀ v ∈ between, ∀ expiry, refusal.expiry = some expiry → v.time ≤ expiry) →
    ∀ now : Nat, (refusal.visit.time : Int) + 1000 * retryAfter ≤ now →
      live now (keyAfter limit seconds refusal.entry between) = none ∧
        (now + 1000 * seconds < 2 ^ 63 → ∃ decision, (checkKey limit seconds .answered now
          (keyAfter limit seconds refusal.entry between)).1 = .ok decision ∧
            decision.allowed = true)

/-- A visit to a running window leaves its expiry. -/
theorem entry_of_running {count expiry : Nat} (hcount : 1 ≤ count) (hv : v.time ≤ expiry) :
    ∃ count', 1 ≤ count' ∧
      (answer limit seconds (some ⟨count, some expiry⟩) v).entry = some ⟨count', some expiry⟩ := by
  have hanswer := answer_kind limit seconds (some ⟨count, some expiry⟩) v
  revert hanswer
  generalize answer limit seconds (some ⟨count, some expiry⟩) v = a
  intro hanswer
  have hlive : live v.time (some ⟨count, some expiry⟩) = _ := live_of_running hv
  cases hanswer with
  | passedOver script err _ _ => exact ⟨count, hcount, rfl⟩
  | unset err _ hsets _ =>
      rcases (setsExpiry_of_live hlive).mp hsets with hzero | hnone
      · simp only at hzero
        omega
      · cases hnone
  | counted result _ _ _ =>
      refine ⟨counted v.time (some ⟨count, some expiry⟩) + 1, Nat.succ_pos _, ?_⟩
      rw [remaining_of_running hlive hcount, Nat.add_sub_cancel' hv]

theorem keyAfter_running {expiry : Nat} {between : List Visit}
    (hbetween : ∀ v ∈ between, v.time ≤ expiry) {count : Nat} (hcount : 1 ≤ count) :
    ∃ count', keyAfter limit seconds (some ⟨count, some expiry⟩) between =
      some ⟨count', some expiry⟩ := by
  induction between generalizing count with
  | nil => exact ⟨count, rfl⟩
  | cons v rest ih =>
      obtain ⟨count', hcount', hentry⟩ :=
        @entry_of_running limit seconds v count expiry hcount (hbetween v List.mem_cons_self)
      rw [keyAfter, hentry]
      exact ih (fun v' hv' => hbetween v' (List.mem_cons_of_mem v hv')) hcount'

/-- The first call on a key that is gone is let through. -/
theorem allowed_of_gone (hlimit : 1 ≤ limit) {now : Nat} (h : live now found = none)
    (hrange : now + 1000 * seconds < 2 ^ 63) :
    ∃ decision, (checkKey limit seconds .answered now found).1 = .ok decision ∧
      decision.allowed = true := by
  have hone : replied (counted now found + 1) = 1 := by
    rw [counted_of_gone h]
    exact replied_of_le (by decide)
  have hin : InRange limit seconds ⟨now, .answered⟩ found := by
    refine ⟨?_, fun _ => hrange, fun _ => not_misread_of_le ?_⟩
    · simp [counted_of_gone h]
    · simp [counted_of_gone h]
  have hresult := (counted_of_inRange (answer_kind limit seconds found ⟨now, .answered⟩)
    rfl hin).2.2 rfl
  refine ⟨_, hresult, ?_⟩
  rw [allowed_decisionOf, hone]
  omega

/-- What a refusal reports, and the key it leaves. -/
theorem refusal_entry (hresult : (answer limit seconds found v).result = .ok decision) :
    ∃ count, 1 ≤ count ∧ (answer limit seconds found v).entry =
        some ⟨count, some (v.time + remaining seconds v.time found)⟩ ∧
      decision.retryAfter = max (replied ((remaining seconds v.time found + 500) / 1000)) 1 := by
  have hanswer := answer_kind limit seconds found v
  revert hresult hanswer
  generalize answer limit seconds found v = a
  intro hresult hanswer
  cases hanswer with
  | passedOver script err _ _ => cases hresult
  | unset err _ _ _ => cases hresult
  | counted result _ _ hkind =>
      rcases hkind with ⟨_, rfl⟩ | ⟨_, rfl⟩
      · obtain rfl := Except.ok.inj hresult
        exact ⟨_, Nat.succ_pos _, rfl, rfl⟩
      · cases hresult

/-- In every history of a key, the wait that a refusal reports suffices exactly when the
key has less than a second left, or a last fraction of a second of at least a half (where
a double holds the seconds). -/
theorem wait_suffices_iff (hlimit : 1 ≤ limit)
    (h : Refusal limit seconds entry vs found v decision) :
    WaitSuffices limit seconds (answer limit seconds found v) decision.retryAfter ↔
      Outlasts (remaining seconds v.time found) := by
  obtain ⟨count, hcount, hentry, hwait⟩ := refusal_entry h.result
  have hexpiry : (answer limit seconds found v).expiry =
      some (v.time + remaining seconds v.time found) := by
    rw [Answer.expiry, hentry]
    rfl
  have htime : (answer limit seconds found v).visit.time = v.time := rfl
  rw [← lt_wait_iff, ← hwait]
  unfold WaitSuffices
  rw [htime, hentry]
  constructor
  · intro hsuffices
    have hpos : 0 ≤ (v.time : Int) + 1000 * decision.retryAfter := by
      have hone : (1 : Int) ≤ decision.retryAfter := by
        rw [hwait]
        exact le_max_right _ _
      omega
    obtain ⟨hgone, _⟩ := hsuffices [] nofun ((v.time : Int) + 1000 * decision.retryAfter).toNat
      (by omega)
    have hgone := live_none_iff.mp hgone
    omega
  · intro hlt between hbetween now hnow
    have hwithin : ∀ v' ∈ between, v'.time ≤ v.time + remaining seconds v.time found :=
      fun v' hv' => hbetween v' hv' _ hexpiry
    obtain ⟨count', hafter⟩ :=
      @keyAfter_running limit seconds (v.time + remaining seconds v.time found) between hwithin
        count hcount
    have hgone : live now (keyAfter limit seconds
        (some ⟨count, some (v.time + remaining seconds v.time found)⟩) between) = none := by
      rw [hafter, live_none_iff]
      omega
    exact ⟨hgone, allowed_of_gone hlimit hgone⟩

/-! ### One call a minute -/

/-- The key after a first call at time 0. -/
def minuteKey : Option Entry := some ⟨1, some 60000⟩

/-- A second call is refused: of 59.3 s that are left it reports 59, of 59.6 s it
reports 60. -/
theorem refusal_of_minute {time : Nat} (htime : time = 700 ∨ time = 400) :
    Refusal 1 60 none [⟨0, .answered⟩, ⟨time, .answered⟩] minuteKey ⟨time, .answered⟩
      (decisionOf 1 2 (if time = 700 then 59 else 60)) := by
  refine ⟨⟨[⟨0, .answered⟩], [], rfl, by decide⟩, ?_, rfl⟩
  rcases htime with rfl | rfl
  · rfl
  · rfl

theorem wait_too_short :
    ¬ ∀ (limit seconds : Nat) (entry : Option Entry) (vs : List Visit) (found : Option Entry)
      (v : Visit) (decision : RateLimitDecision), 1 ≤ limit → 1 ≤ seconds →
      Refusal limit seconds entry vs found v decision →
      WaitSuffices limit seconds (answer limit seconds found v) decision.retryAfter := by
  intro h
  obtain ⟨hgone, _⟩ := h 1 60 none _ minuteKey ⟨700, .answered⟩ _ (le_refl 1) (by decide)
    (refusal_of_minute (Or.inl rfl)) [] nofun 59700 (by decide)
  revert hgone
  decide

theorem wait_suffices_of_minute :
    WaitSuffices 1 60 (answer 1 60 minuteKey ⟨400, .answered⟩) 60 :=
  (wait_suffices_iff (le_refl 1) (refusal_of_minute (Or.inr rfl))).mpr
    ((outlasts_iff (by decide)).mpr (Or.inr (by decide)))

end TaskPlatform
