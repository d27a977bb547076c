import TaskPlatform.Counting.Cells
import TaskPlatform.RateLimit.Limiter

/-!
# Buckets of the limiter

A check counts in the bucket of its category and dimensions.  The keys of
`app/rate_limiter.py` keep the buckets apart, whatever the configured prefix is: a
digest has a fixed length, and neither a decimal integer nor a scope has a colon.
-/

namespace TaskPlatform

open Counting

/-! ## Text with colons -/

/-- Text up to its first colon. -/
theorem append_colon_inj {a b x y : List Char} (ha : ':' ∉ a) (hb : ':' ∉ b)
    (h : a ++ ':' :: x = b ++ ':' :: y) : a = b ∧ x = y := by
  induction a generalizing b with
  | nil =>
      cases b with
      | nil => exact ⟨rfl, (List.cons.inj h).2⟩
      | cons c b => exact absurd (List.cons.inj h).1 (List.ne_of_not_mem_cons hb)
  | cons c a ih =>
      cases b with
      | nil => exact absurd (List.cons.inj h).1.symm (List.ne_of_not_mem_cons ha)
      | cons c' b =>
          obtain ⟨hc, htail⟩ := List.cons.inj h
          obtain ⟨hab, hxy⟩ := ih (List.not_mem_of_not_mem_cons ha)
            (List.not_mem_of_not_mem_cons hb) htail
          exact ⟨by rw [hc, hab], hxy⟩

theorem isDigit_of_mem_repr {k : Nat} {c : Char} (h : c ∈ k.repr.toList) : c.isDigit = true := by
  rw [Nat.repr_eq_ofList_toDigits, String.toList_ofList] at h
  exact Nat.isDigit_of_mem_toDigits (by decide) (by decide) h

theorem repr_inj {j k : Nat} (h : j.repr = k.repr) : j = k := by
  have hvalue := congrArg (fun s => Nat.ofDigitChars 10 s.toList 0) h
  simpa only [Nat.repr_eq_ofList_toDigits, String.toList_ofList,
    Nat.ofDigitChars_ten_toDigits] using hvalue

/-- A sign or digits. -/
theorem decimal_eq (n : Int) :
    (0 ≤ n ∧ (toString n).toList = n.toNat.repr.toList) ∨
      (n < 0 ∧ (toString n).toList = '-' :: (-n).toNat.repr.toList) := by
  rw [Int.toString_eq_repr, Int.repr_eq_if]
  by_cases h : 0 ≤ n
  · rw [if_pos h]
    exact Or.inl ⟨h, rfl⟩
  · rw [if_neg h, String.toList_append]
    exact Or.inr ⟨Int.not_le.mp h, rfl⟩

theorem colon_notMem_decimal (n : Int) : ':' ∉ (toString n).toList := by
  have hdigits : ∀ k : Nat, ':' ∉ k.repr.toList := fun k hk =>
    absurd (isDigit_of_mem_repr hk) (by decide)
  rcases decimal_eq n with ⟨_, htext⟩ | ⟨_, htext⟩
  · rw [htext]
    exact hdigits _
  · rw [htext, List.mem_cons, not_or]
    exact ⟨by decide, hdigits _⟩

theorem decimal_inj {m n : Int} (h : (toString m).toList = (toString n).toList) : m = n := by
  have hsign : ∀ j k : Nat, j.repr.toList ≠ '-' :: k.repr.toList := by
    intro j k hjk
    have hmem : '-' ∈ j.repr.toList := by
      rw [hjk]
      exact List.mem_cons_self
    exact absurd (isDigit_of_mem_repr hmem) (by decide)
  rcases decimal_eq m with ⟨hm, htext⟩ | ⟨hm, htext⟩ <;>
    rcases decimal_eq n with ⟨hn, htext'⟩ | ⟨hn, htext'⟩ <;> rw [htext, htext'] at h
  · have hnat := repr_inj (String.toList_inj.mp h)
    omega
  · exact absurd h (hsign _ _)
  · exact absurd h.symm (hsign _ _)
  · have hnat := repr_inj (String.toList_inj.mp (List.cons.inj h).2)
    omega

theorem Scope.colon_notMem_text (scope : Scope) : ':' ∉ scope.text.toList := by
  cases scope <;> decide

theorem Scope.text_inj {scope scope' : Scope} (h : scope.text.toList = scope'.text.toList) :
    scope = scope' := by
  revert h
  cases scope <;> cases scope' <;> decide

/-! ## Buckets and keys -/

/-- The category of a check with its dimensions. -/
inductive Bucket where
  | login (ipDigest usernameDigest : String)
  | registration (ipDigest : String)
  | write (userId : Id) (scope : Scope) (workspaceId : Option Id)
  deriving DecidableEq

section Keys

variable [PyText]

def RateCheck.bucket : RateCheck → Bucket
  | .login clientIp username =>
    .login (stableDigest clientIp) (stableDigest (normalizeLoginUsername username))
  | .registration clientIp => .registration (stableDigest clientIp)
  | .write userId scope workspaceId => .write userId scope workspaceId

namespace RateLimiter

variable (settings : Settings)

theorem toList_loginKey (clientIp username : String) :
    (loginKey settings clientIp username).toList = (keyPrefix settings).toList ++
      (":login:ip:".toList ++ ((stableDigest clientIp).toList ++ (":username:".toList ++
        (stableDigest (normalizeLoginUsername username)).toList))) := by
  simp only [loginKey, String.toList_append, List.append_assoc]

theorem toList_registrationKey (clientIp : String) :
    (registrationKey settings clientIp).toList = (keyPrefix settings).toList ++
      (":register:ip:".toList ++ (stableDigest clientIp).toList) := by
  simp only [registrationKey, String.toList_append, List.append_assoc]

/-- What follows the scope of a write key. -/
def workspaceSuffix (workspaceId : Option Id) : List Char :=
  workspaceId.elim [] fun w => ":workspace:".toList ++ (toString w).toList

omit [PyText] in
theorem toList_writeKey (userId : Id) (scope : Scope) (workspaceId : Option Id) :
    (writeKey settings userId scope workspaceId).toList = (keyPrefix settings).toList ++
      (":write:user:".toList ++ ((toString userId).toList ++ (":scope:".toList ++
        (scope.text.toList ++ workspaceSuffix workspaceId)))) := by
  cases workspaceId with
  | none =>
      simp only [writeKey, workspaceSuffix, String.toList_append, List.append_assoc,
        Option.elim_none, List.append_nil]
  | some w =>
      simp only [writeKey, workspaceSuffix, String.toList_append, List.append_assoc,
        Option.elim_some]

omit [PyText] in
/-- The scope of a write key ends at a colon or at the end of the key. -/
theorem scope_suffix_inj {scope scope' : Scope} {w w' : Option Id}
    (h : scope.text.toList ++ workspaceSuffix w = scope'.text.toList ++ workspaceSuffix w') :
    scope = scope' ∧ w = w' := by
  cases w with
  | none =>
      cases w' with
      | none =>
          simp only [workspaceSuffix, Option.elim_none, List.append_nil] at h
          exact ⟨Scope.text_inj h, rfl⟩
      | some b =>
          refine absurd ?_ scope.colon_notMem_text
          simp only [workspaceSuffix, Option.elim_none, List.append_nil] at h
          rw [h]
          exact List.mem_append_right _ List.mem_cons_self
  | some a =>
      cases w' with
      | none =>
          refine absurd ?_ scope'.colon_notMem_text
          simp only [workspaceSuffix, Option.elim_none, List.append_nil] at h
          rw [← h]
          exact List.mem_append_right _ List.mem_cons_self
      | some b =>
          obtain ⟨hscope, hsuffix⟩ := append_colon_inj scope.colon_notMem_text
            scope'.colon_notMem_text h
          have hdecimal := @List.append_cancel_left _ "workspace:".toList _ _ hsuffix
          exact ⟨Scope.text_inj hscope, congrArg some (decimal_inj hdecimal)⟩

omit [PyText] in
theorem writeKey_inj {u u' : Id} {scope scope' : Scope} {w w' : Option Id}
    (h : writeKey settings u scope w = writeKey settings u' scope' w') :
    u = u' ∧ scope = scope' ∧ w = w' := by
  have htext := congrArg String.toList h
  rw [toList_writeKey, toList_writeKey] at htext
  obtain ⟨huser, hrest⟩ := append_colon_inj (colon_notMem_decimal u) (colon_notMem_decimal u')
    (List.append_cancel_left (List.append_cancel_left htext))
  have hscope := @List.append_cancel_left _ "scope:".toList _ _ hrest
  exact ⟨decimal_inj huser, scope_suffix_inj hscope⟩

/-- The login keys differ in the digests only, the first of which has a fixed length. -/
theorem loginKey_digests (hlength : ∀ s, (PyText.sha256Hexdigest s).length = 64)
    {ip ip' username username' : String}
    (h : loginKey settings ip username = loginKey settings ip' username') :
    stableDigest ip = stableDigest ip' ∧
      stableDigest (normalizeLoginUsername username) =
        stableDigest (normalizeLoginUsername username') := by
  have htext := congrArg String.toList h
  rw [toList_loginKey, toList_loginKey] at htext
  have hip : (stableDigest ip).toList.length = (stableDigest ip').toList.length :=
    (hlength ip).trans (hlength ip').symm
  obtain ⟨hdigest, hrest⟩ := List.append_inj
    (List.append_cancel_left (List.append_cancel_left htext)) hip
  exact ⟨String.toList_inj.mp hdigest, String.toList_inj.mp (List.append_cancel_left hrest)⟩

theorem registrationKey_digest {ip ip' : String}
    (h : registrationKey settings ip = registrationKey settings ip') :
    stableDigest ip = stableDigest ip' := by
  have htext := congrArg String.toList h
  rw [toList_registrationKey, toList_registrationKey] at htext
  exact String.toList_inj.mp (List.append_cancel_left (List.append_cancel_left htext))

theorem loginKey_ne_registrationKey (ip username ip' : String) :
    loginKey settings ip username ≠ registrationKey settings ip' := by
  intro h
  have htext := congrArg String.toList h
  rw [toList_loginKey, toList_registrationKey] at htext
  have hcategory := (List.cons.inj (List.append_cancel_left htext)).2
  exact absurd (List.cons.inj hcategory).1 (by decide)

theorem loginKey_ne_writeKey (ip username : String) (u : Id) (scope : Scope) (w : Option Id) :
    loginKey settings ip username ≠ writeKey settings u scope w := by
  intro h
  have htext := congrArg String.toList h
  rw [toList_loginKey, toList_writeKey] at htext
  have hcategory := (List.cons.inj (List.append_cancel_left htext)).2
  exact absurd (List.cons.inj hcategory).1 (by decide)

theorem registrationKey_ne_writeKey (ip : String) (u : Id) (scope : Scope) (w : Option Id) :
    registrationKey settings ip ≠ writeKey settings u scope w := by
  intro h
  have htext := congrArg String.toList h
  rw [toList_registrationKey, toList_writeKey] at htext
  have hcategory := (List.cons.inj (List.append_cancel_left htext)).2
  exact absurd (List.cons.inj hcategory).1 (by decide)

/-- Checks of one bucket use one key. -/
theorem key_of_bucket {c c' : RateCheck} (h : c.bucket = c'.bucket) :
    key settings c = key settings c' := by
  cases c with
  | login ip username =>
      cases c' with
      | login ip' username' =>
          obtain ⟨hip, husername⟩ := Bucket.login.inj h
          simp only [key, loginKey, hip, husername]
      | registration ip' => cases h
      | write u' scope' w' => cases h
  | registration ip =>
      cases c' with
      | login ip' username' => cases h
      | registration ip' =>
          have hip := Bucket.registration.inj h
          simp only [key, registrationKey, hip]
      | write u' scope' w' => cases h
  | write u scope w =>
      cases c' with
      | login ip' username' => cases h
      | registration ip' => cases h
      | write u' scope' w' =>
          obtain ⟨rfl, rfl, rfl⟩ := Bucket.write.inj h
          rfl

/-- Two checks use one key exactly when they share a bucket. -/
theorem key_eq_iff (hlength : ∀ s, (PyText.sha256Hexdigest s).length = 64) {c c' : RateCheck} :
    key settings c = key settings c' ↔ c.bucket = c'.bucket := by
  refine ⟨fun h => ?_, key_of_bucket settings⟩
  cases c with
  | login ip username =>
      cases c' with
      | login ip' username' =>
          obtain ⟨hip, husername⟩ := loginKey_digests settings hlength h
          simp only [RateCheck.bucket, hip, husername]
      | registration ip' => exact absurd h (loginKey_ne_registrationKey settings _ _ _)
      | write u' scope' w' => exact absurd h (loginKey_ne_writeKey settings _ _ _ _ _)
  | registration ip =>
      cases c' with
      | login ip' username' => exact absurd h.symm (loginKey_ne_registrationKey settings _ _ _)
      | registration ip' =>
          simp only [RateCheck.bucket, registrationKey_digest settings h]
      | write u' scope' w' => exact absurd h (registrationKey_ne_writeKey settings _ _ _ _)
  | write u scope w =>
      cases c' with
      | login ip' username' => exact absurd h.symm (loginKey_ne_writeKey settings _ _ _ _ _)
      | registration ip' => exact absurd h.symm (registrationKey_ne_writeKey settings _ _ _ _)
      | write u' scope' w' =>
          obtain ⟨hu, hscope, hw⟩ := writeKey_inj settings h
          simp only [RateCheck.bucket, hu, hscope, hw]

end RateLimiter

/-! ## Runs -/

/-- A check, when Redis gets its `eval`, and what becomes of it. -/
structure Arrival where
  time : Nat
  delivery : Delivery
  check : RateCheck

/-- The keys of one Redis as cells: a check reads and writes the counter of its key. -/
def counters (settings : Settings) :
    Cells String (Option Entry) Arrival (Except RedisError RateLimitDecision) where
  key a := RateLimiter.key settings a.check
  act a entry := checkKey (RateLimiter.limit settings a.check)
    (RateLimiter.windowSeconds settings a.check) a.delivery a.time entry

/-- Serving an arrival is the check of the limiter. -/
theorem counters_serve (settings : Settings) (keys : Keyspace) (a : Arrival) :
    (counters settings).serve keys a =
      RateLimiter.check settings a.delivery a.time keys a.check := rfl

/-- The decisions of a run, in the order in which Redis executes the checks. -/
def decisions (settings : Settings) (keys : Keyspace) :
    List Arrival → List (Arrival × Except RedisError RateLimitDecision)
  | [] => []
  | a :: rest =>
    let x := RateLimiter.check settings a.delivery a.time keys a.check
    (a, x.1) :: decisions settings x.2 rest

theorem decisions_eq (settings : Settings) (keys : Keyspace) (arrivals : List Arrival) :
    decisions settings keys arrivals = (counters settings).answers keys arrivals := by
  induction arrivals generalizing keys with
  | nil => rfl
  | cons a rest ih =>
      rw [decisions, Cells.answers, counters_serve, ih]

/-- In every interleaving of checks, the requests of a bucket are decided as in the run
that keeps only them. -/
theorem decisions_isolated (settings : Settings)
    (hlength : ∀ s, (PyText.sha256Hexdigest s).length = 64) (keys : Keyspace)
    (arrivals : List Arrival) (b : Bucket) :
    (decisions settings keys arrivals).filter (fun x => x.1.check.bucket = b) =
      decisions settings keys (arrivals.filter fun a => a.check.bucket = b) := by
  by_cases hb : ∃ c : RateCheck, c.bucket = b
  · obtain ⟨c, rfl⟩ := hb
    have hkey : ∀ a : Arrival, a.check.bucket = c.bucket ↔
        (counters settings).key a = RateLimiter.key settings c :=
      fun a => (RateLimiter.key_eq_iff settings hlength).symm
    simp only [decisions_eq, hkey]
    exact Cells.answers_filter rfl arrivals
  · -- a bucket that no check counts in
    have hnone : ∀ a : Arrival, ¬ a.check.bucket = b := fun a h => hb ⟨a.check, h⟩
    simp only [hnone, decide_false, List.filter_false]
    rfl
end Keys

/-- SHA-256 digests of two texts. -/
abbrev digestText : PyText where
  nfkc s := s
  casefold s := s
  sha256Hexdigest s :=
    if s = "127.0.0.1" then "12ca17b49af2289436f303e0166030a21e525d266e209267433801a8fd4071a0"
    else if s = "alice" then "2bd806c97f0e00af1a1fc3328fa763a9269723c8db8fac4f93af71db186d6e90"
    else "f5047344122f0dee9974ba6761e61c6b8649e1f3968d13a635ebbf7be53a3a0d"

/-- A login, a write in a workspace and a write outside one, at one time. -/
def sampleArrivals : List Arrival :=
  [⟨0, .answered, .login "127.0.0.1" "alice"⟩, ⟨0, .answered, .write 1 .taskCreate (some 2)⟩,
    ⟨0, .answered, .write 1 .taskCreate none⟩]

theorem decisions_isolated_sample :
    let _ := digestText
    (decisions {} (fun _ => none) sampleArrivals).filter
        (fun x => x.1.check.bucket = .write 1 .taskCreate none) =
      decisions {} (fun _ => none)
        (sampleArrivals.filter fun a => a.check.bucket = .write 1 .taskCreate none) := by
  intro text
  refine decisions_isolated {} (fun s => ?_) _ _ _
  show String.length (ite _ _ _) = 64
  split
  · decide
  · split
    · decide
    · decide

end TaskPlatform
