import TaskPlatform.Service.Program

/-!
# Users

`app/services/user_service.py`.
-/

namespace TaskPlatform

open Service

def userData (user : User) : UserResponse := { id := user.id, username := user.username }

def getUserByUsername (username : String) : Service (Option User) :=
  call (.select (.userByUsername username))

/-- The flush of the new row is part of the commit. -/
def createUser (user : UserCreate) : Service User := do
  let existing ← getUserByUsername user.username
  raiseIf existing.isSome usernameAlreadyExistsError
  let hashed ← call (.hashPassword user.password)
  tryCatch
    (do
      let row ← call (.insertUser user.username hashed)
      call .commit
      call (.refreshUser row.id))
    fun e => match e with
      | .sql err => do
        call .rollback
        if err.isIntegrityError then raise usernameAlreadyExistsError else throw e
      | _ => throw e

def authenticateUser (username password : String) : Service User := do
  let user ← orRaise (← getUserByUsername username) invalidCredentialsError
  let verified ← call (.verifyPassword password user.hashedPassword)
  raiseIf (verified = false) invalidCredentialsError
  return user

end TaskPlatform
