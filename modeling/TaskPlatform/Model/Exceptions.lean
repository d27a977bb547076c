/-!
# Domain exceptions

The classes of `app/exceptions.py` with their status, stable code, message and
headers, and the database errors a session call can raise.
-/

namespace TaskPlatform

structure AppException where
  statusCode : Nat
  code : String
  message : String
  headers : List (String × String) := []
  deriving DecidableEq, Repr

def taskNotFoundError : AppException :=
  { statusCode := 404, code := "TASK_NOT_FOUND", message := "Task not found" }

def taskPermissionDeniedError : AppException :=
  { statusCode := 403, code := "TASK_PERMISSION_DENIED",
    message := "Insufficient task permissions" }

def taskStatusTransitionConflictError : AppException :=
  { statusCode := 409, code := "TASK_STATUS_TRANSITION_CONFLICT",
    message := "Task status transition is not allowed" }

def taskAssignmentConflictError : AppException :=
  { statusCode := 409, code := "TASK_ASSIGNMENT_CONFLICT",
    message := "Task assignment change is not allowed" }

def usernameAlreadyExistsError : AppException :=
  { statusCode := 409, code := "USERNAME_ALREADY_EXISTS",
    message := "Username already registered" }

def invalidCredentialsError : AppException :=
  { statusCode := 401, code := "INVALID_CREDENTIALS",
    message := "Incorrect username or password",
    headers := [("WWW-Authenticate", "Bearer")] }

def invalidTokenError : AppException :=
  { statusCode := 401, code := "INVALID_TOKEN",
    message := "Could not validate credentials",
    headers := [("WWW-Authenticate", "Bearer")] }

def workspaceNotFoundError : AppException :=
  { statusCode := 404, code := "WORKSPACE_NOT_FOUND", message := "Workspace not found" }

def workspacePermissionDeniedError : AppException :=
  { statusCode := 403, code := "WORKSPACE_PERMISSION_DENIED",
    message := "Insufficient workspace permissions" }

def userNotFoundError : AppException :=
  { statusCode := 404, code := "USER_NOT_FOUND", message := "User not found" }

def workspaceMemberNotFoundError : AppException :=
  { statusCode := 404, code := "WORKSPACE_MEMBER_NOT_FOUND",
    message := "Workspace member not found" }

def workspaceMemberAlreadyExistsError : AppException :=
  { statusCode := 409, code := "WORKSPACE_MEMBER_ALREADY_EXISTS",
    message := "User is already a workspace member" }

def ownerMembershipConflictError : AppException :=
  { statusCode := 409, code := "OWNER_MEMBERSHIP_CONFLICT",
    message := "Workspace owner membership cannot be changed or removed" }

def rateLimitExceededError (limit retryAfter : Int) : AppException :=
  { statusCode := 429, code := "RATE_LIMIT_EXCEEDED", message := "Too many requests",
    headers := [("Retry-After", toString retryAfter), ("X-RateLimit-Limit", toString limit),
      ("X-RateLimit-Remaining", "0")] }

def rateLimitUnavailableError : AppException :=
  { statusCode := 503, code := "RATE_LIMIT_UNAVAILABLE",
    message := "Rate limit service unavailable" }

/-- The classes of `app/exceptions.py`. -/
inductive DomainError : AppException → Prop where
  | taskNotFound : DomainError taskNotFoundError
  | taskPermissionDenied : DomainError taskPermissionDeniedError
  | taskStatusTransitionConflict : DomainError taskStatusTransitionConflictError
  | taskAssignmentConflict : DomainError taskAssignmentConflictError
  | usernameAlreadyExists : DomainError usernameAlreadyExistsError
  | invalidCredentials : DomainError invalidCredentialsError
  | invalidToken : DomainError invalidTokenError
  | workspaceNotFound : DomainError workspaceNotFoundError
  | workspacePermissionDenied : DomainError workspacePermissionDeniedError
  | userNotFound : DomainError userNotFoundError
  | workspaceMemberNotFound : DomainError workspaceMemberNotFoundError
  | workspaceMemberAlreadyExists : DomainError workspaceMemberAlreadyExistsError
  | ownerMembershipConflict : DomainError ownerMembershipConflictError
  | rateLimitExceeded (limit retryAfter : Int) :
    DomainError (rateLimitExceededError limit retryAfter)
  | rateLimitUnavailable : DomainError rateLimitUnavailableError

/-- What a session call can raise (`sqlalchemy.exc.SQLAlchemyError`). -/
inductive SqlError where
  /-- A duplicate primary or unique key, error 1062. -/
  | duplicateKey
  | foreignKey
  | check
  /-- A value longer than its `VARCHAR`, under strict mode. -/
  | dataTooLong
  /-- An `UPDATE` of one row by primary key matched no row. -/
  | staleData
  /-- The row of a refreshed instance is gone. -/
  | notRefreshed
  /-- An attribute of an instance the session does not hold. -/
  | detached
  /-- Anything the server or the connection may answer: a lost connection, a lock
  wait timeout, a deadlock. -/
  | operational
  deriving DecidableEq, Repr

/-- `sqlalchemy.exc.IntegrityError`. -/
def SqlError.isIntegrityError : SqlError → Bool
  | .duplicateKey | .foreignKey | .check => true
  | _ => false

inductive Exc where
  | app (e : AppException)
  | sql (e : SqlError)
  /-- The request body does not satisfy its schema. -/
  | validation
  deriving DecidableEq, Repr

end TaskPlatform
