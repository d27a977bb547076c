import Mathlib.Data.Set.Insert
import Mathlib.Logic.Equiv.Basic
import TaskPlatform.Api.Request
import TaskPlatform.RateLimit.FixedWindow
import TaskPlatform.RateLimit.Limiter

/-!
# The attempts on one account

Login requests of one client, one after the other, against a Redis that answers
every check and whose keys do not expire meanwhile.  The limiter counts them by the
normalised username; the account whose password is verified is found by the
collation of the database.  The budget of an account is kept exactly when the two
notions of a username agree on it.  Counters stay in the range where the numbers of the
limiter's script are exact.
-/

namespace TaskPlatform

open Service Transaction Relational Redis

/-! ## A key while it does not expire -/

/-- The key does not expire from `start` to `stop`. -/
def Undisturbed (start stop : Nat) (entry : Option Entry) : Prop :=
  ∀ e, entry = some e → ∀ t, e.expireAt = some t → t < start ∨ stop ≤ t

theorem Undisturbed.live_eq {start stop now : Nat} {entry : Option Entry}
    (h : Undisturbed start stop entry) (hstart : start ≤ now) (hstop : now ≤ stop) :
    live now entry = live start entry := by
  refine Option.ext fun e => ?_
  rw [live_eq_some, live_eq_some]
  refine and_congr_right fun he => forall₂_congr fun t ht => ?_
  have hquiet := h e he t ht
  omega

/-- The expiry of a key that lives meanwhile comes afterwards. -/
theorem Undisturbed.le_expiry {start stop now t : Nat} {entry : Option Entry} {old : Entry}
    (h : Undisturbed start stop entry) (hstart : start ≤ now) (hlive : live now entry = some old)
    (ht : old.expireAt = some t) : now ≤ t ∧ stop ≤ t := by
  obtain ⟨hentry, halive⟩ := live_eq_some.mp hlive
  have hnow := halive t ht
  have hquiet := h old hentry t ht
  omega

/-- An answered check of such a key: it goes on without expiring, counts at most one
request more, and lets it through only when it counted it within the limit. -/
structure CheckedKey (limit start stop : Nat) (entry : Option Entry)
    (result : Except RedisError RateLimitDecision) (after : Option Entry) : Prop where
  undisturbed : Undisturbed start stop after
  mono : counted start entry ≤ counted start after
  atMostOne : counted start after ≤ counted start entry + 1
  allowed : enforceAuthRateLimit result = .ok () → counted start entry + 1 ≤ 2 ^ 53 →
    counted start entry < limit ∧ counted start after = counted start entry + 1

theorem enforceAuth_decisionOf {limit : Nat} {count t : Int} :
    enforceAuthRateLimit (.ok (decisionOf limit count t)) = .ok () ↔ count ≤ limit := by
  rw [enforceAuthRateLimit_ok_iff]
  simp [decisionOf]

/-- One request more, on a key whose expiry, if it has one, comes afterwards. -/
theorem CheckedKey.of_entry {limit start stop : Nat} {entry : Option Entry}
    {result : Except RedisError RateLimitDecision} {expireAt : Option Nat}
    (hexpiry : ∀ t, expireAt = some t → start ≤ t ∧ stop ≤ t)
    (hresult : enforceAuthRateLimit result = .ok () →
      replied (counted start entry + 1) ≤ limit) :
    CheckedKey limit start stop entry result (some ⟨counted start entry + 1, expireAt⟩) := by
  have hlive : live start (some ⟨counted start entry + 1, expireAt⟩) =
      some ⟨counted start entry + 1, expireAt⟩ :=
    live_eq_some.mpr ⟨rfl, fun t ht => (hexpiry t ht).1⟩
  have hafter := counted_of_live hlive
  simp only at hafter
  refine ⟨?_, by omega, by omega, fun hok hexact => ⟨?_, hafter⟩⟩
  · intro e he t ht
    cases he
    exact Or.inr (hexpiry t ht).2
  · have hle := hresult hok
    rw [replied_of_le hexact] at hle
    omega

section Checks

variable {limit seconds start stop now : Nat} {entry : Option Entry}

theorem checkKey_answered (limit : Nat) (h : Undisturbed start stop entry) (hstart : start ≤ now)
    (hstop : now ≤ stop) (hwindow : stop ≤ start + 1000 * seconds) :
    CheckedKey limit start stop entry (checkKey limit seconds .answered now entry).1
      (checkKey limit seconds .answered now entry).2 := by
  have hcounted : counted now entry = counted start entry := by
    rw [counted, counted, h.live_eq hstart hstop]
  have hanswer := answer_kind limit seconds entry ⟨now, .answered⟩
  show CheckedKey limit start stop entry (answer limit seconds entry ⟨now, .answered⟩).result
    (answer limit seconds entry ⟨now, .answered⟩).entry
  revert hanswer
  generalize answer limit seconds entry ⟨now, .answered⟩ = a
  intro hanswer
  cases hanswer with
  | passedOver script err _ _ =>
      refine ⟨h, le_refl _, Nat.le_succ _, fun hok => ?_⟩
      cases hok
  | unset err _ _ _ =>
      rw [hcounted]
      refine CheckedKey.of_entry (fun t ht => ?_) (fun hok => ?_)
      · obtain ⟨old, hlive, hold⟩ := Option.bind_eq_some_iff.mp ht
        have hlater := h.le_expiry hstart hlive hold
        omega
      · cases hok
  | counted result _ _ hresult =>
      rcases hresult with ⟨_, rfl⟩ | ⟨hlost, _⟩
      · simp only [hcounted]
        refine CheckedKey.of_entry (fun t ht => ?_) enforceAuth_decisionOf.mp
        obtain rfl := Option.some.inj ht
        cases hset : setsExpiry now entry with
        | true =>
            rw [remaining_of_setsExpiry hset]
            omega
        | false =>
            cases hlive : live now entry with
            | none => exact absurd (setsExpiry_of_gone hlive) (by simp [hset])
            | some old =>
                have hold := mt (setsExpiry_of_live hlive).mpr (by simp [hset])
                obtain ⟨count, expireAt⟩ := old
                cases expireAt with
                | none => exact absurd (Or.inr rfl) hold
                | some expiry =>
                    have hlater := h.le_expiry hstart hlive rfl
                    rw [remaining_of_running hlive (by simp only at hold; omega)]
                    omega
      · cases hlost

/-- A request within the limit is let through, where the script's numbers are in range. -/
theorem checkKey_allows (h : Undisturbed start stop entry) (hstart : start ≤ now)
    (hstop : now ≤ stop) (hrange : now + 1000 * seconds < 2 ^ 63)
    (hless : counted start entry < limit) (hexact : limit ≤ 2 ^ 53) :
    enforceAuthRateLimit (checkKey limit seconds .answered now entry).1 = .ok () := by
  have hcounted : counted now entry = counted start entry := by
    rw [counted, counted, h.live_eq hstart hstop]
  have hreplied : replied (counted now entry + 1) = (counted now entry + 1 : Nat) :=
    replied_of_le (by omega)
  have hin : InRange limit seconds ⟨now, .answered⟩ entry := by
    refine ⟨?_, fun _ => hrange, fun _ => not_misread_of_le ?_⟩
    · simp only
      omega
    · simp only
      omega
  have hresult := (counted_of_inRange (answer_kind limit seconds entry ⟨now, .answered⟩)
    rfl hin).2.2 rfl
  show enforceAuthRateLimit (answer limit seconds entry ⟨now, .answered⟩).result = .ok ()
  rw [hresult, enforceAuth_decisionOf]
  simp only [hreplied]
  omega

end Checks

/-! ## Sequences of logins -/

structure LoginAttempt where
  time : Nat
  username : String
  password : String
  /-- What the calls of the request find outside the database and Redis. -/
  env : Nat → Env

def LoginAttempt.request (clientIp : String) (a : LoginAttempt) : Request :=
  .login clientIp a.username a.password

/-- The account a `SELECT` by username found. -/
def selectedUser? : Sigma Call.Res → Option User
  | ⟨.select (.userByUsername _), .ok row⟩ => row
  | _ => none

def isVerification : Sigma Call.Res → Bool
  | ⟨.verifyPassword _ _, _⟩ => true
  | _ => false

/-- The account whose password a request verified, if it verified any. -/
def verifiedUser (trace : List (Sigma Call.Res)) : Option User :=
  if trace.any isVerification then trace.findSome? selectedUser? else none

section Logins

variable [PyText] (settings : Settings) (clientIp : String)

/-- The environment of a request whose checks find these keys. -/
def LoginAttempt.servingEnv (keys : Keyspace) (a : LoginAttempt) (n : Nat) : Env :=
  { a.env n with
    limiter := fun c => (RateLimiter.check settings .answered a.time keys c).1 }

/-- The check of an attempt on these keys, and the keys after it. -/
def LoginAttempt.check (keys : Keyspace) (a : LoginAttempt) :
    Except RedisError RateLimitDecision × Keyspace :=
  RateLimiter.check settings .answered a.time keys (.login clientIp a.username)

variable [Collation]

/-- Serve the attempts one after the other: which account each of them verified. -/
def logins : Database → Keyspace → List LoginAttempt → List (Option User)
  | _, _, [] => []
  | d, keys, a :: rest =>
    let env := a.servingEnv settings keys
    verifiedUser (Session.machine.trace env (a.request clientIp).program 0 {} d) ::
      logins (serve env (a.request clientIp) d).2 (a.check settings clientIp keys).2 rest

omit [PyText] in
/-- A login verifies the password of the account its username resolves to, once the
limiter has let it through and the database has answered.  It changes nothing. -/
theorem login_served {env : Nat → Env} {username password : String} {d : Database} :
    verifiedUser (Session.machine.trace env
        (Request.login clientIp username password).program 0 {} d) =
      (if enforceAuthRateLimit ((env 0).limiter (.login clientIp username)) = .ok () ∧
        (env 1).fault = none then d.userByUsername? username else none) ∧
      (serve env (.login clientIp username password) d).2 = d := by
  unfold serve Request.program Request.route enforceAuthLimit authenticateUser getUserByUsername
  simp only [call, ExceptT.run_bind, bind_assoc, ExceptT.run_mk, Prog.call_bind, Prog.ret_bind,
    Prog.pure_eq, Machine.trace, run_call, Session.machine, Session.exec, Except.mapError]
  have hview : Session.view {} d = d := rfl
  cases hlimit : enforceAuthRateLimit ((env 0).limiter (.login clientIp username)) with
  | error e => exact ⟨rfl, rfl⟩
  | ok _ =>
      simp only [ExceptT.run_pure, Prog.pure_eq, Prog.ret_bind, Prog.call_bind, Machine.trace,
        run_call, Session.exec, Session.statement]
      cases hfault : (env 1).fault with
      | some err => exact ⟨by simp [verifiedUser, isVerification, Machine.trace, Session.exec], rfl⟩
      | none =>
          cases hrow : d.userByUsername? username with
          | none =>
              simp only [Session.select, Query.eval, Query.load, hview, hrow]
              exact ⟨rfl, rfl⟩
          | some user =>
              simp only [Session.select, Query.eval, Query.load, hview, hrow, orRaise,
                ExceptT.run_pure, Prog.pure_eq, Prog.ret_bind, Prog.call_bind, Machine.trace,
                run_call, Session.exec, Nat.reduceAdd]
              cases (env 2).verify password user.hashedPassword with
              | false => exact ⟨rfl, rfl⟩
              | true => exact ⟨rfl, rfl⟩

variable {settings}

theorem logins_cons (d : Database) (keys : Keyspace) (a : LoginAttempt)
    (rest : List LoginAttempt) :
    logins settings clientIp d keys (a :: rest) =
      (if enforceAuthRateLimit (a.check settings clientIp keys).1 = .ok () ∧
        (a.env 1).fault = none then d.userByUsername? a.username else none) ::
        logins settings clientIp d (a.check settings clientIp keys).2 rest := by
  rw [logins]
  simp only [LoginAttempt.request]
  rw [(login_served clientIp).1, (login_served clientIp).2]
  rfl

omit [Collation] in
theorem checkedKey_login {start stop : Nat} {keys : Keyspace} {a : LoginAttempt}
    (hwindow : stop ≤ start + 1000 * settings.rateLimitLoginWindowSeconds)
    (hkeys : ∀ key, Undisturbed start stop (keys key))
    (htime : start ≤ a.time ∧ a.time ≤ stop) :
    CheckedKey settings.rateLimitLoginLimit start stop
      (keys (RateLimiter.loginKey settings clientIp a.username))
      (a.check settings clientIp keys).1
      ((a.check settings clientIp keys).2 (RateLimiter.loginKey settings clientIp a.username)) := by
  have hchecked := checkKey_answered settings.rateLimitLoginLimit
    (hkeys (RateLimiter.loginKey settings clientIp a.username)) htime.1 htime.2 hwindow
  simp only [LoginAttempt.check, RateLimiter.check, RateLimiter.key, RateLimiter.limit,
    RateLimiter.windowSeconds, Function.update_self]
  exact hchecked

omit [Collation] in
theorem check_of_ne {keys : Keyspace} {a : LoginAttempt} {key : String}
    (h : key ≠ RateLimiter.loginKey settings clientIp a.username) :
    (a.check settings clientIp keys).2 key = keys key := by
  unfold LoginAttempt.check
  exact RateLimiter.check_of_ne settings h

omit [Collation] in
theorem undisturbed_check {start stop : Nat} {keys : Keyspace} {a : LoginAttempt}
    (hwindow : stop ≤ start + 1000 * settings.rateLimitLoginWindowSeconds)
    (hkeys : ∀ key, Undisturbed start stop (keys key))
    (htime : start ≤ a.time ∧ a.time ≤ stop) (key : String) :
    Undisturbed start stop ((a.check settings clientIp keys).2 key) := by
  by_cases hkey : key = RateLimiter.loginKey settings clientIp a.username
  · rw [hkey]
    exact (checkedKey_login clientIp hwindow hkeys htime).undisturbed
  · rw [check_of_ne clientIp hkey]
    exact hkeys key

omit [Collation] in
theorem counted_check_le {start stop : Nat} {keys : Keyspace} {a : LoginAttempt}
    (hwindow : stop ≤ start + 1000 * settings.rateLimitLoginWindowSeconds)
    (hkeys : ∀ key, Undisturbed start stop (keys key))
    (htime : start ≤ a.time ∧ a.time ≤ stop) (key : String) :
    counted start ((a.check settings clientIp keys).2 key) ≤ counted start (keys key) + 1 := by
  by_cases hkey : key = RateLimiter.loginKey settings clientIp a.username
  · rw [hkey]
    exact (checkedKey_login clientIp hwindow hkeys htime).atMostOne
  · rw [check_of_ne clientIp hkey]
    exact Nat.le_succ _

/-- Attempts that are counted under one key verify no more than what is left of the
limit under this key. -/
theorem logins_count_le {start stop : Nat} {d : Database} {u : User} {key : String}
    (hwindow : stop ≤ start + 1000 * settings.rateLimitLoginWindowSeconds)
    {keys : Keyspace} (hkeys : ∀ key, Undisturbed start stop (keys key))
    {attempts : List LoginAttempt}
    (hexact : ∀ key, counted start (keys key) + attempts.length ≤ 2 ^ 53)
    (htimes : ∀ a ∈ attempts, start ≤ a.time ∧ a.time ≤ stop)
    (hone : ∀ a ∈ attempts, d.userByUsername? a.username = some u →
      RateLimiter.loginKey settings clientIp a.username = key) :
    (logins settings clientIp d keys attempts).count (some u) ≤
      settings.rateLimitLoginLimit - counted start (keys key) := by
  induction attempts generalizing keys with
  | nil => exact Nat.zero_le _
  | cons a rest ih =>
      have htime := htimes a List.mem_cons_self
      have hchecked := checkedKey_login clientIp hwindow hkeys htime
      have hexact' : ∀ key, counted start ((a.check settings clientIp keys).2 key) +
          rest.length ≤ 2 ^ 53 := by
        intro key
        have hbefore := hexact key
        have hafter := counted_check_le clientIp hwindow hkeys htime key
        rw [List.length_cons] at hbefore
        omega
      have hrest := ih (undisturbed_check clientIp hwindow hkeys htime) hexact'
        (fun b hb => htimes b (List.mem_cons_of_mem a hb))
        (fun b hb => hone b (List.mem_cons_of_mem a hb))
      rw [logins_cons]
      by_cases hverified : (if enforceAuthRateLimit (a.check settings clientIp keys).1 = .ok () ∧
          (a.env 1).fault = none then d.userByUsername? a.username else none) = some u
      · rw [hverified, List.count_cons_self]
        split_ifs at hverified with hpass
        have hroom := hexact (RateLimiter.loginKey settings clientIp a.username)
        rw [List.length_cons] at hroom
        have hcounted := hchecked.allowed hpass.1 (by omega)
        rw [hone a List.mem_cons_self hverified] at hcounted
        omega
      · rw [List.count_cons_of_ne hverified]
        refine le_trans hrest (Nat.sub_le_sub_left ?_ _)
        by_cases hkey : key = RateLimiter.loginKey settings clientIp a.username
        · rw [hkey]
          exact hchecked.mono
        · rw [check_of_ne clientIp hkey]

/-! ### The budget -/

/-- While Redis answers, no key expires and no counter passes `2 ^ 53`, at most
`rate_limit_login_limit` of the requests that use these spellings verify the password of
one account. -/
def LoginBudget (settings : Settings) (clientIp : String) (d : Database)
    (spellings : Set String) : Prop :=
  ∀ (start stop : Nat) (keys : Keyspace) (attempts : List LoginAttempt),
    stop ≤ start + 1000 * settings.rateLimitLoginWindowSeconds →
    (∀ key, Undisturbed start stop (keys key)) →
    (∀ key, counted start (keys key) + attempts.length ≤ 2 ^ 53) →
    (∀ a ∈ attempts, (start ≤ a.time ∧ a.time ≤ stop) ∧ a.username ∈ spellings) →
    ∀ u : User, (logins settings clientIp d keys attempts).count (some u) ≤
      settings.rateLimitLoginLimit

/-- Spellings that the database resolves to one account are normalised to one
username. -/
def OneBucketPerAccount (d : Database) (spellings : Set String) : Prop :=
  ∀ x ∈ spellings, ∀ y ∈ spellings, ∀ u : User, d.userByUsername? x = some u →
    d.userByUsername? y = some u → normalizeLoginUsername x = normalizeLoginUsername y

theorem loginBudget_of_oneBucket {d : Database} {spellings : Set String}
    (h : OneBucketPerAccount d spellings) : LoginBudget settings clientIp d spellings := by
  intro start stop keys attempts hwindow hkeys hexact hattempts u
  have htimes : ∀ a ∈ attempts, start ≤ a.time ∧ a.time ≤ stop := fun a ha => (hattempts a ha).1
  have hone : ∃ key, ∀ a ∈ attempts, d.userByUsername? a.username = some u →
      RateLimiter.loginKey settings clientIp a.username = key := by
    by_cases hused : ∃ a ∈ attempts, d.userByUsername? a.username = some u
    · obtain ⟨a, ha, hu⟩ := hused
      refine ⟨RateLimiter.loginKey settings clientIp a.username, fun b hb hb' => ?_⟩
      have hsame := h b.username (hattempts b hb).2 a.username (hattempts a ha).2 u hb' hu
      rw [RateLimiter.loginKey, RateLimiter.loginKey, hsame]
    · exact ⟨"", fun a ha hu => absurd ⟨a, ha, hu⟩ hused⟩
  obtain ⟨key, hkey⟩ := hone
  exact le_trans (logins_count_le clientIp hwindow hkeys hexact htimes hkey) (Nat.sub_le _ _)

/-- Attempts within the limit of their key are all let through. -/
theorem logins_replicate {d : Database} {u : User} {a : LoginAttempt}
    (hu : d.userByUsername? a.username = some u) (htime : a.time = 0)
    (hfault : (a.env 1).fault = none) (hlimit : settings.rateLimitLoginLimit < 2 ^ 53)
    (hwindow : 1000 * settings.rateLimitLoginWindowSeconds < 2 ^ 63) {n : Nat}
    {keys : Keyspace} (rest : List LoginAttempt)
    (hn : counted 0 (keys (RateLimiter.loginKey settings clientIp a.username)) + n ≤
      settings.rateLimitLoginLimit) :
    ∃ keys' : Keyspace, (∀ key, key ≠ RateLimiter.loginKey settings clientIp a.username →
        keys' key = keys key) ∧
      logins settings clientIp d keys (List.replicate n a ++ rest) =
        List.replicate n (some u) ++ logins settings clientIp d keys' rest := by
  induction n generalizing keys with
  | zero => exact ⟨keys, fun _ _ => rfl, rfl⟩
  | succ n ih =>
      have hkeys : ∀ key, Undisturbed 0 0 (keys key) := fun _ _ _ _ _ => Or.inr (Nat.zero_le _)
      have hspan : 0 ≤ 0 + 1000 * settings.rateLimitLoginWindowSeconds := Nat.zero_le _
      have hchecked := checkedKey_login clientIp hspan hkeys
        ⟨Nat.zero_le a.time, le_of_eq htime⟩
      have hspan' : a.time + 1000 * settings.rateLimitLoginWindowSeconds < 2 ^ 63 := by
        rw [htime, Nat.zero_add]
        exact hwindow
      have hless : counted 0 (keys (RateLimiter.loginKey settings clientIp a.username)) <
          settings.rateLimitLoginLimit := by omega
      have hpass : enforceAuthRateLimit (a.check settings clientIp keys).1 = .ok () :=
        checkKey_allows (hkeys _) (Nat.zero_le a.time) (le_of_eq htime) hspan' hless
          (le_of_lt hlimit)
      have hcounted := (hchecked.allowed hpass (by omega)).2
      have hrest : counted 0 ((a.check settings clientIp keys).2
          (RateLimiter.loginKey settings clientIp a.username)) + n ≤
          settings.rateLimitLoginLimit := by omega
      obtain ⟨keys', hsame, hrun⟩ := ih hrest
      refine ⟨keys', fun key hkey => ?_, ?_⟩
      · rw [hsame key hkey]
        exact check_of_ne clientIp hkey
      · rw [List.replicate_succ, List.cons_append, logins_cons, if_pos ⟨hpass, hfault⟩, hu, hrun]
        rfl

/-- Two spellings of one account with a counter each double the budget. -/
theorem oneBucket_of_loginBudget (hdigest : Function.Injective PyText.sha256Hexdigest)
    (hlimit : settings.rateLimitLoginLimit < 2 ^ 53)
    (hwindow : 1000 * settings.rateLimitLoginWindowSeconds < 2 ^ 63) {d : Database}
    {spellings : Set String} (h : LoginBudget settings clientIp d spellings) :
    OneBucketPerAccount d spellings := by
  intro x hx y hy u hxu hyu
  by_contra hne
  have hkey : RateLimiter.loginKey settings clientIp y ≠
      RateLimiter.loginKey settings clientIp x :=
    fun heq => hne (RateLimiter.loginKey_inj settings hdigest heq).symm
  let attempt (username : String) : LoginAttempt := ⟨0, username, "", fun _ => {}⟩
  let keys₀ : Keyspace := fun _ => none
  have hless₀ : counted 0 (keys₀ (RateLimiter.loginKey settings clientIp x)) +
      settings.rateLimitLoginLimit ≤ settings.rateLimitLoginLimit :=
    le_of_eq (Nat.zero_add _)
  obtain ⟨keys₁, hsame, hfirst⟩ := logins_replicate (a := attempt x) clientIp hxu rfl rfl hlimit
    hwindow (List.replicate 1 (attempt y)) hless₀
  have hless₁ : counted 0 (keys₁ (RateLimiter.loginKey settings clientIp y)) + 1 ≤
      settings.rateLimitLoginLimit := by
    rw [hsame _ hkey]
    exact settings.loginLimit_pos
  obtain ⟨keys₂, _, hsecond⟩ := logins_replicate (a := attempt y) clientIp hyu rfl rfl hlimit
    hwindow [] hless₁
  rw [List.append_nil] at hsecond
  have hattempts : ∀ a ∈ List.replicate settings.rateLimitLoginLimit (attempt x) ++
      List.replicate 1 (attempt y), (0 ≤ a.time ∧ a.time ≤ 0) ∧ a.username ∈ spellings := by
    intro a ha
    rcases List.mem_append.mp ha with ha | ha
    · rw [List.eq_of_mem_replicate ha]
      exact ⟨⟨Nat.le_refl 0, Nat.le_refl 0⟩, hx⟩
    · rw [List.eq_of_mem_replicate ha]
      exact ⟨⟨Nat.le_refl 0, Nat.le_refl 0⟩, hy⟩
  have hexact : ∀ key, counted 0 (keys₀ key) + (List.replicate settings.rateLimitLoginLimit
      (attempt x) ++ List.replicate 1 (attempt y)).length ≤ 2 ^ 53 := by
    intro key
    rw [counted_of_gone rfl, List.length_append, List.length_replicate, List.length_replicate]
    omega
  have hcount := h 0 0 keys₀ _ (Nat.zero_le _) (fun _ _ h => nomatch h) hexact hattempts u
  rw [hfirst, hsecond, List.count_append, List.count_append, List.count_replicate_self,
    List.count_replicate_self] at hcount
  omega

/-- The budget of every account is kept if and only if the spellings the database
resolves to one account share their counter. -/
theorem loginBudget_iff (hdigest : Function.Injective PyText.sha256Hexdigest)
    (hlimit : settings.rateLimitLoginLimit < 2 ^ 53)
    (hwindow : 1000 * settings.rateLimitLoginWindowSeconds < 2 ^ 63) (d : Database)
    (spellings : Set String) :
    LoginBudget settings clientIp d spellings ↔ OneBucketPerAccount d spellings :=
  ⟨oneBucket_of_loginBudget clientIp hdigest hlimit hwindow, loginBudget_of_oneBucket clientIp⟩

end Logins

/-! ### An account with an accent -/

/-- Letters compared without case and without the acute accent. -/
abbrev accentCollation : Collation :=
  ⟨fun s => String.ofList (s.toList.map fun c => if c = 'é' then 'e' else c.toLower)⟩

/-- The digests of the texts below. -/
def sampleDigest : Equiv.Perm String :=
  (Equiv.swap "203.0.113.7" "fec52565aa0cf18f57d7cf5b3ac728503b8992d2d6f7d46da1d1201090902b02").trans
    ((Equiv.swap "rene" "63c5d687c64d48947a75bf25daa7a128d0c9a8fe1205c7ae3728224015ee7c0e").trans
      (Equiv.swap "rené" "adf75813ef1c30be4ff9c922b56ec96a48ba742109d9618f2b4e88cad61e97ed"))

/-- What the library does to letters from `a` to `z`, in either case, and to `é`. -/
abbrev sampleText : PyText :=
  { nfkc := id
    casefold := fun s => String.ofList (s.toList.map Char.toLower)
    sha256Hexdigest := sampleDigest }

/-- One account. -/
def reneDatabase : Database :=
  { Database.empty with users := (∅ : Table User).put ⟨1, "rene", "h1"⟩, nextUserId := 2 }

/-- Five attempts under one spelling, and one under another. -/
def reneAttempts : List LoginAttempt :=
  List.replicate 5 ⟨0, "rene", "guess", fun _ => {}⟩ ++ [⟨0, "rené", "guess", fun _ => {}⟩]

theorem loginBudget_accent :
    let _ := accentCollation
    let _ := sampleText
    (logins {} "203.0.113.7" reneDatabase (fun _ => none) reneAttempts).count
        (some ⟨1, "rene", "h1"⟩) = 6 ∧
      ¬ LoginBudget {} "203.0.113.7" reneDatabase Set.univ := by
  intro _ _
  have hcount : (logins {} "203.0.113.7" reneDatabase (fun _ => none) reneAttempts).count
      (some ⟨1, "rene", "h1"⟩) = 6 := by decide +kernel
  have hattempts : ∀ a ∈ reneAttempts, (0 ≤ a.time ∧ a.time ≤ 0) ∧ a.username ∈ Set.univ := by
    intro a ha
    have htime : a.time = 0 := by
      rcases List.mem_append.mp ha with ha | ha
      · rw [List.eq_of_mem_replicate ha]
      · rw [List.mem_singleton.mp ha]
    exact ⟨⟨Nat.zero_le _, le_of_eq htime⟩, Set.mem_univ _⟩
  refine ⟨hcount, fun h => ?_⟩
  have hle := h 0 0 (fun _ => none) _ (Nat.zero_le _) (fun _ _ h => nomatch h)
    (fun _ => (by decide)) hattempts ⟨1, "rene", "h1"⟩
  rw [hcount] at hle
  exact absurd hle (by decide)

theorem loginBudget_iff_case :
    let _ := accentCollation
    let _ := sampleText
    LoginBudget {} "203.0.113.7" reneDatabase {"rene", "RENE"} := by
  intro _ _
  refine (loginBudget_iff "203.0.113.7" sampleDigest.injective (by decide) (by decide) reneDatabase
    {"rene", "RENE"}).mpr ?_
  rintro x (rfl | rfl) y (rfl | rfl) u _ _
  all_goals decide

end TaskPlatform
