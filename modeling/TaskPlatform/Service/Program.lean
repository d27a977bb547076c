import TaskPlatform.Orm.Session

/-!
# Service programs

The services are programs of session calls that end in a value or raise.
-/

namespace TaskPlatform

open Transaction

abbrev Service (α : Type) : Type := ExceptT Exc (Prog Call Call.Res) α

namespace Service

variable {α : Type}

def call (c : Call) : Service c.Val :=
  ExceptT.mk (.call c fun r => .ret (r.mapError Exc.sql))

def raise (e : AppException) : Service α := throw (.app e)

def raiseIf (c : Prop) [Decidable c] (e : AppException) : Service Unit :=
  if c then raise e else pure ()

/-- The row a query found, or the exception for a missing one. -/
def orRaise (row : Option α) (e : AppException) : Service α :=
  match row with
  | some r => pure r
  | none => raise e

/-- `except SQLAlchemyError: db.rollback(); raise`. -/
def rollbackOnSqlError (body : Service α) : Service α :=
  tryCatch body fun e => match e with
    | .sql _ => do
      call .rollback
      throw e
    | _ => throw e

/-- The same with `except AppException` before it. -/
def rollbackOnError (body : Service α) : Service α :=
  tryCatch body fun e => match e with
    | .sql _ | .app _ => do
      call .rollback
      throw e
    | .validation => throw e

end Service
end TaskPlatform
