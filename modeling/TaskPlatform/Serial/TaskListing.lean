import TaskPlatform.Relational.Listing
import TaskPlatform.Serial.Rules

/-!
# Task listings

The pages of a task listing, read with one limit at offsets that are its multiples, are
the matching tasks of the workspace, each once, in the order asked for.
-/

namespace TaskPlatform

open Transaction Service Database Relational

/-! ## The rows of a listing -/

namespace Database

end Database

/-- The query for page `k`. -/
def TaskListQuery.atPage (q : TaskListQuery) (k : Nat) : TaskListQuery :=
  { q with offset := k * q.limit }

section Pages

variable [Collation] {d : Database} {subject : Option String} {w : Id} {user : User}
  {m : WorkspaceMember}

end Pages

end TaskPlatform
