import TaskPlatform.Model.Policies
import TaskPlatform.Model.Exceptions

/-!
# Rate-limit decisions and guards

What `RateLimiter.check_key` returns, and what the three guards of
`app/rate_limiter.py` make of it: the registration and login guards fail closed,
the write guard fails open.
-/

namespace TaskPlatform

structure RateLimitDecision where
  allowed : Bool
  limit : Int
  count : Int
  remaining : Int
  retryAfter : Int
  deriving DecidableEq, Repr

/-- `redis.exceptions.RedisError`. -/
inductive RedisError where
  /-- The connection failed or the answer was lost. -/
  | unavailable
  /-- A command failed: the increment would overflow. -/
  | overflow
  /-- A command failed: the expiry would be out of range. -/
  | expireTime
  deriving DecidableEq, Repr

/-- The scopes the routers pass to the write guard. -/
inductive Scope where
  | workspaceCreate
  | memberAdd
  | memberUpdate
  | memberRemove
  | taskCreate
  | taskUpdate
  | taskStatus
  | taskAssignee
  | taskDelete
  deriving DecidableEq, Repr

def Scope.text : Scope → String
  | workspaceCreate => "workspace.create"
  | memberAdd => "member.add"
  | memberUpdate => "member.update"
  | memberRemove => "member.remove"
  | taskCreate => "task.create"
  | taskUpdate => "task.update"
  | taskStatus => "task.status"
  | taskAssignee => "task.assignee"
  | taskDelete => "task.delete"

/-- What a check is made for: the method of `RateLimiter` and its arguments. -/
inductive RateCheck where
  | registration (clientIp : String)
  | login (clientIp username : String)
  | write (userId : Id) (scope : Scope) (workspaceId : Option Id)
  deriving DecidableEq, Repr

def raiseIfExceeded (decision : RateLimitDecision) : Except AppException Unit :=
  if decision.allowed then .ok ()
  else .error (rateLimitExceededError decision.limit decision.retryAfter)

/-- `enforce_registration_rate_limit` and `enforce_login_rate_limit`. -/
def enforceAuthRateLimit : Except RedisError RateLimitDecision → Except AppException Unit
  | .error _ => .error rateLimitUnavailableError
  | .ok decision => raiseIfExceeded decision

def enforceWriteRateLimit : Except RedisError RateLimitDecision → Except AppException Unit
  | .error _ => .ok ()
  | .ok decision => raiseIfExceeded decision

theorem enforceAuthRateLimit_ok_iff {r : Except RedisError RateLimitDecision} :
    enforceAuthRateLimit r = .ok () ↔ ∃ decision, r = .ok decision ∧ decision.allowed = true := by
  cases r with
  | error e => simp [enforceAuthRateLimit]
  | ok decision => cases h : decision.allowed <;> simp [enforceAuthRateLimit, raiseIfExceeded, h]

end TaskPlatform
