import Mathlib.Data.List.DropRight
import Mathlib.Logic.Function.Basic
import TaskPlatform.Model.Text
import TaskPlatform.RateLimit.Redis

/-!
# The keys of the limiter

`RateLimiter` of `app/rate_limiter.py` over a Redis of many keys: which key, limit
and window a check uses, and what the check does to the keys.
-/

namespace TaskPlatform

/-- Functions of Python's library the keys are built with. -/
class PyText where
  /-- `unicodedata.normalize("NFKC", s)`. -/
  nfkc : String → String
  casefold : String → String
  /-- `hashlib.sha256(s.encode("utf-8")).hexdigest()`. -/
  sha256Hexdigest : String → String

/-- The part of `Settings` the limiter reads, with the bounds of its fields. -/
structure Settings where
  rateLimitKeyPrefix : String := "task-api:rate-limit:v1"
  rateLimitLoginLimit : Nat := 5
  rateLimitLoginWindowSeconds : Nat := 60
  rateLimitRegisterLimit : Nat := 3
  rateLimitRegisterWindowSeconds : Nat := 3600
  rateLimitWriteLimit : Nat := 60
  rateLimitWriteWindowSeconds : Nat := 60
  loginLimit_pos : 0 < rateLimitLoginLimit := by decide
  loginWindow_pos : 0 < rateLimitLoginWindowSeconds := by decide
  registerLimit_pos : 0 < rateLimitRegisterLimit := by decide
  registerWindow_pos : 0 < rateLimitRegisterWindowSeconds := by decide
  writeLimit_pos : 0 < rateLimitWriteLimit := by decide
  writeWindow_pos : 0 < rateLimitWriteWindowSeconds := by decide

/-- The keys of one Redis that hold counters. -/
abbrev Keyspace : Type := String → Option Entry

section Keys

variable [PyText]

/-- `_stable_digest`. -/
def stableDigest (value : String) : String := PyText.sha256Hexdigest value

def normalizeLoginUsername (username : String) : String :=
  PyText.casefold (strip (PyText.nfkc username))

namespace RateLimiter

variable (settings : Settings)

/-- `key_prefix.rstrip(":")`. -/
def keyPrefix : String :=
  String.ofList (settings.rateLimitKeyPrefix.toList.rdropWhile (· == ':'))

def loginKey (clientIp username : String) : String :=
  keyPrefix settings ++ ":login:ip:" ++ stableDigest clientIp ++ ":username:" ++
    stableDigest (normalizeLoginUsername username)

def registrationKey (clientIp : String) : String :=
  keyPrefix settings ++ ":register:ip:" ++ stableDigest clientIp

def writeKey (userId : Id) (scope : Scope) (workspaceId : Option Id) : String :=
  let key := keyPrefix settings ++ ":write:user:" ++ toString userId ++ ":scope:" ++ scope.text
  match workspaceId with
  | none => key
  | some w => key ++ ":workspace:" ++ toString w

def key : RateCheck → String
  | .login clientIp username => loginKey settings clientIp username
  | .registration clientIp => registrationKey settings clientIp
  | .write userId scope workspaceId => writeKey settings userId scope workspaceId

omit [PyText] in
def limit : RateCheck → Nat
  | .login _ _ => settings.rateLimitLoginLimit
  | .registration _ => settings.rateLimitRegisterLimit
  | .write _ _ _ => settings.rateLimitWriteLimit

omit [PyText] in
def windowSeconds : RateCheck → Nat
  | .login _ _ => settings.rateLimitLoginWindowSeconds
  | .registration _ => settings.rateLimitRegisterWindowSeconds
  | .write _ _ _ => settings.rateLimitWriteWindowSeconds

/-- `check_login`, `check_registration` and `check_write`: the decision, and the keys
after it. -/
def check (delivery : Delivery) (now : Nat) (keys : Keyspace) (c : RateCheck) :
    Except RedisError RateLimitDecision × Keyspace :=
  let x := checkKey (limit settings c) (windowSeconds settings c) delivery now
    (keys (key settings c))
  (x.1, Function.update keys (key settings c) x.2)

/-- A check leaves the other keys alone. -/
theorem check_of_ne {delivery : Delivery} {now : Nat} {keys : Keyspace} {c : RateCheck}
    {k : String} (h : k ≠ key settings c) : (check settings delivery now keys c).2 k = keys k := by
  simp only [check]
  rw [Function.update_of_ne h]

/-- The login keys of one client differ in the digest of the normalised username
only. -/
theorem loginKey_inj (hdigest : Function.Injective PyText.sha256Hexdigest)
    {clientIp x y : String} (h : loginKey settings clientIp x = loginKey settings clientIp y) :
    normalizeLoginUsername x = normalizeLoginUsername y := by
  unfold loginKey at h
  have hsame : stableDigest (normalizeLoginUsername x) =
      stableDigest (normalizeLoginUsername y) := by
    have htext := congrArg String.toList h
    simp only [String.toList_append] at htext
    exact String.toList_inj.mp (List.append_cancel_left htext)
  exact hdigest hsame

end RateLimiter
end Keys
end TaskPlatform
