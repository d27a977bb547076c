import Mathlib.Algebra.Group.Nat.Defs
import TaskPlatform.Counting.Doubles
import TaskPlatform.RateLimit.Decision

/-!
# Redis counters and the limiter's script

One key of Redis that holds a counter, the commands of `FIXED_WINDOW_LUA` on it, and
`RateLimiter.check_key`.  Redis keeps expiries in milliseconds; a script sees one
time from beginning to end.  The integers that a script gets from a command and gives to
its client pass through the doubles of its language.
-/

namespace TaskPlatform

open Counting

/-- A counter with its expiry in milliseconds. -/
structure Entry where
  count : Nat
  expireAt : Option Nat
  deriving DecidableEq, Repr

namespace Redis

/-- A key is gone once the clock is past its expiry. -/
def live (now : Nat) (entry : Option Entry) : Option Entry :=
  entry.filter fun e => e.expireAt.all fun t => now ≤ t

/-- `INCR`, which fails where the value would leave the signed 64-bit range. -/
def incr (now : Nat) (entry : Option Entry) : Except RedisError Entry :=
  match live now entry with
  | none => .ok ⟨1, none⟩
  | some e =>
    if e.count + 1 < 2 ^ 63 then .ok { e with count := e.count + 1 } else .error .overflow

/-- `TTL` of an existing key, in seconds rounded to the nearest. -/
def ttl (now : Nat) (e : Entry) : Int :=
  match e.expireAt with
  | none => -1
  | some t => ((t - now + 500) / 1000 : Nat)

/-- `EXPIRE`, which fails where the time would leave the signed 64-bit range. -/
def expire (now seconds : Nat) (e : Entry) : Except RedisError Entry :=
  if now + 1000 * seconds < 2 ^ 63 then .ok { e with expireAt := some (now + 1000 * seconds) }
  else .error .expireTime

/-- An integer reply of a command, as the script that called it gets it. -/
def luaNumber (reply : Int) : Int := reply.sign * nearestDouble reply.natAbs

/-- A number of a script, as its client gets it: cast to 64 bits the way x86-64 does,
which takes all that is out of range to the least integer. -/
def luaReply (x : Int) : Int := if -2 ^ 63 ≤ x ∧ x < 2 ^ 63 then x else -2 ^ 63

/-- `FIXED_WINDOW_LUA`: what the script returns, and the key after it. -/
def fixedWindow (seconds now : Nat) (entry : Option Entry) :
    Except RedisError (Int × Int) × Option Entry :=
  match incr now entry with
  | .error err => (.error err, entry)
  | .ok e =>
    let count := luaNumber e.count
    if count = 1 ∨ luaNumber (ttl now e) < 0 then
      match expire now seconds e with
      -- what the script has done by now stays done
      | .error err => (.error err, some e)
      | .ok e' => (.ok (luaReply count, luaReply (luaNumber (ttl now e'))), some e')
    else (.ok (luaReply count, luaReply (luaNumber (ttl now e))), some e)

/-! ## Numbers -/

/-- What the client gets for a number of the commands that is not negative. -/
def replied (n : Nat) : Int := luaReply (luaNumber n)

theorem luaNumber_natCast (n : Nat) : luaNumber n = nearestDouble n := by
  rcases Nat.eq_zero_or_pos n with rfl | hpos
  · rfl
  · rw [luaNumber, Int.sign_natCast_of_ne_zero (by omega), Int.one_mul, Int.natAbs_natCast]

theorem luaNumber_eq_one_iff {n : Nat} : luaNumber n = 1 ↔ n = 1 := by
  rw [luaNumber_natCast, ← nearestDouble_eq_iff (by decide : 1 < 2 ^ 52)]
  exact Int.natCast_inj

theorem replied_of_le {n : Nat} (h : n ≤ 2 ^ 53) : replied n = n := by
  rw [replied, luaNumber_natCast, nearestDouble_of_le h, luaReply, if_pos]
  omega

theorem ttl_neg_iff {now : Nat} {e : Entry} : luaNumber (ttl now e) < 0 ↔ e.expireAt = none := by
  unfold ttl
  cases e.expireAt with
  | none => simp [luaNumber, nearestDouble_of_le]
  | some t =>
      simp only [reduceCtorEq, iff_false, Int.not_lt, luaNumber_natCast]
      omega

/-! ## The counter a script finds -/

theorem live_eq_some {now : Nat} {entry : Option Entry} {e : Entry} :
    live now entry = some e ↔ entry = some e ∧ ∀ t ∈ e.expireAt, now ≤ t := by
  rw [live, Option.filter_eq_some_iff]
  refine and_congr_right fun _ => ?_
  cases e.expireAt with
  | none => simp
  | some t => simp

theorem live_of_expired {now t count : Nat} (h : t < now) :
    live now (some ⟨count, some t⟩) = none := by
  rw [live, Option.filter_eq_none_iff]
  simp only [Option.some.injEq, forall_eq', Option.all_some, decide_eq_true_eq]
  omega

theorem live_of_running {now t count : Nat} (h : now ≤ t) :
    live now (some ⟨count, some t⟩) = some ⟨count, some t⟩ := by
  refine live_eq_some.mpr ⟨rfl, fun t' ht => ?_⟩
  cases ht
  exact h

theorem live_none_iff {now count expiry : Nat} :
    live now (some ⟨count, some expiry⟩) = none ↔ expiry < now := by
  constructor
  · intro h
    by_contra hle
    rw [live_of_running (Nat.not_lt.mp hle)] at h
    cases h
  · exact live_of_expired

/-- The requests counted in the current window of a key. -/
def counted (now : Nat) (entry : Option Entry) : Nat := (live now entry).elim 0 Entry.count

/-- The script sets the expiry: it finds no counter, or one at 0, or one without an
expiry. -/
def setsExpiry (now : Nat) (entry : Option Entry) : Bool :=
  match live now entry with
  | none => true
  | some e => e.count == 0 || e.expireAt.isNone

/-- The lifetime in milliseconds of the key a call counts on: what is left of a running
window, or a whole window if the call begins or repairs it. -/
def remaining (seconds now : Nat) (entry : Option Entry) : Nat :=
  match live now entry with
  | none => 1000 * seconds
  | some ⟨count, expireAt⟩ =>
    match expireAt with
    | none => 1000 * seconds
    | some expiry => if count = 0 then 1000 * seconds else expiry - now

section Found

variable {seconds now : Nat} {entry : Option Entry} {count expiry : Nat}

theorem counted_of_gone (h : live now entry = none) : counted now entry = 0 := by
  rw [counted, h]
  rfl

theorem counted_of_live {e : Entry} (h : live now entry = some e) :
    counted now entry = e.count := by
  rw [counted, h]
  rfl

theorem setsExpiry_of_gone (h : live now entry = none) : setsExpiry now entry = true := by
  rw [setsExpiry, h]

theorem setsExpiry_of_live {e : Entry} (h : live now entry = some e) :
    setsExpiry now entry = true ↔ e.count = 0 ∨ e.expireAt = none := by
  rw [setsExpiry, h, Bool.or_eq_true, beq_iff_eq, Option.isNone_iff_eq_none]

theorem remaining_of_setsExpiry (h : setsExpiry now entry = true) :
    remaining seconds now entry = 1000 * seconds := by
  unfold remaining
  cases hlive : live now entry with
  | none => rfl
  | some e =>
      obtain ⟨count, expireAt⟩ := e
      cases expireAt with
      | none => rfl
      | some expiry =>
          have hcount : count = 0 := by simpa using (setsExpiry_of_live hlive).mp h
          exact if_pos hcount

theorem remaining_of_running (h : live now entry = some ⟨count, some expiry⟩) (hcount : 1 ≤ count) :
    remaining seconds now entry = expiry - now := by
  have hpos : ¬ count = 0 := by omega
  simp only [remaining, h, hpos, if_false]

end Found

/-- What one execution of the script does: it fails and leaves the key alone, fails after
the increment, or counts. -/
inductive Counted (seconds now : Nat) (entry : Option Entry) :
    Except RedisError (Int × Int) × Option Entry → Prop where
  | failed (hfull : 2 ^ 63 ≤ counted now entry + 1) :
      Counted seconds now entry (.error .overflow, entry)
  | unset (hsets : setsExpiry now entry = true) (hlate : 2 ^ 63 ≤ now + 1000 * seconds) :
      Counted seconds now entry (.error .expireTime,
        some ⟨counted now entry + 1, (live now entry).bind Entry.expireAt⟩)
  | counted (hfits : counted now entry + 1 < 2 ^ 63)
      (hset : setsExpiry now entry = true → now + 1000 * seconds < 2 ^ 63) :
      Counted seconds now entry
        (.ok (replied (counted now entry + 1),
          replied ((remaining seconds now entry + 500) / 1000)),
        some ⟨counted now entry + 1, some (now + remaining seconds now entry)⟩)

/-- The increment, and what the script asks after it. -/
theorem incr_of_fits {now : Nat} {entry : Option Entry}
    (hfits : counted now entry + 1 < 2 ^ 63) :
    let e : Entry := ⟨counted now entry + 1, (live now entry).bind Entry.expireAt⟩
    incr now entry = .ok e ∧
      ((luaNumber e.count = 1 ∨ luaNumber (ttl now e) < 0) ↔ setsExpiry now entry = true) := by
  simp only [luaNumber_eq_one_iff, ttl_neg_iff]
  cases hlive : live now entry with
  | none => simp [incr, hlive, counted_of_gone hlive, setsExpiry_of_gone hlive]
  | some old =>
      rw [counted_of_live hlive] at hfits ⊢
      rw [setsExpiry_of_live hlive]
      refine ⟨?_, by simp⟩
      rw [incr, hlive]
      exact if_pos hfits

theorem fixedWindow_counted (seconds now : Nat) (entry : Option Entry) :
    Counted seconds now entry (fixedWindow seconds now entry) := by
  by_cases hfits : counted now entry + 1 < 2 ^ 63
  · obtain ⟨hincr, hsets⟩ := incr_of_fits hfits
    simp only [fixedWindow, hincr, hsets]
    by_cases hset : setsExpiry now entry = true
    · rw [if_pos hset]
      unfold expire
      by_cases hlate : now + 1000 * seconds < 2 ^ 63
      · rw [if_pos hlate]
        have h : Counted seconds now entry _ := Counted.counted hfits fun _ => hlate
        rw [remaining_of_setsExpiry hset] at h
        simpa [replied, ttl] using h
      · rw [if_neg hlate]
        exact Counted.unset hset (Nat.not_lt.mp hlate)
    · rw [if_neg hset]
      have h : Counted seconds now entry _ := Counted.counted hfits fun h => absurd h hset
      cases hlive : live now entry with
      | none => exact absurd (setsExpiry_of_gone hlive) hset
      | some old =>
          obtain ⟨count, expireAt⟩ := old
          rw [setsExpiry_of_live hlive, not_or] at hset
          cases expireAt with
          | none => exact absurd rfl hset.2
          | some expiry =>
              have halive : now ≤ expiry := (live_eq_some.mp hlive).2 expiry rfl
              rw [remaining_of_running hlive (Nat.pos_of_ne_zero hset.1),
                Nat.add_sub_cancel' halive] at h
              exact h
  · have hfull := Nat.not_lt.mp hfits
    cases hlive : live now entry with
    | none =>
        rw [counted_of_gone hlive] at hfull
        omega
    | some old =>
        have hold : ¬ old.count + 1 < 2 ^ 63 := by rwa [counted_of_live hlive] at hfits
        have hincr : incr now entry = .error .overflow := by
          rw [incr, hlive]
          exact if_neg hold
        simp only [fixedWindow, hincr]
        exact Counted.failed hfull

end Redis

/-- What becomes of one `eval` on its way. -/
inductive Delivery where
  | answered
  | replyLost
  | notExecuted
  deriving DecidableEq, Repr

/-- The decision of `RateLimiter.check_key` on the script's answer. -/
def decisionOf (limit : Nat) (count ttl : Int) : RateLimitDecision :=
  { allowed := count ≤ limit, limit := limit, count := count,
    remaining := max ((limit : Int) - count) 0, retryAfter := max ttl 1 }

/-- `RateLimiter.check_key`, and the key after it. -/
def checkKey (limit seconds : Nat) (delivery : Delivery) (now : Nat) (entry : Option Entry) :
    Except RedisError RateLimitDecision × Option Entry :=
  let script := Redis.fixedWindow seconds now entry
  match delivery with
  | .answered => (script.1.map fun r => decisionOf limit r.1 r.2, script.2)
  | .replyLost => (.error .unavailable, script.2)
  | .notExecuted => (.error .unavailable, entry)

end TaskPlatform
