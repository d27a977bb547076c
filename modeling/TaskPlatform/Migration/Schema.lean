/-!
# The schema the migrations change

The columns, constraints and indexes of `tasks`, and the mapping table.  The other
tables of the application keep the schema of revision `6c2f9a4d7e31` throughout.
Server defaults are left out: every statement of the revisions gives all values.
-/

namespace TaskPlatform
namespace Migration

inductive TaskColumn where
  | id
  | title
  | completed
  | priority
  | ownerId
  | description
  | workspaceId
  | creatorId
  | assigneeId
  | status
  | createdAt
  | updatedAt
  deriving DecidableEq, Repr

inductive MapColumn where
  | userId
  | workspaceId
  | legacyTaskCount
  | legacyTaskMaxId
  | migratedAt
  deriving DecidableEq, Repr

inductive TableName where
  | alembicVersion
  | users
  | workspaces
  | workspaceMembers
  | tasks
  | taskCollaborationUserWorkspaceMap
  deriving DecidableEq, Repr

inductive SqlType where
  | integer
  | boolean
  | varchar (length : Nat)
  | datetime (fsp : Nat)
  deriving DecidableEq, Repr

structure Column (C : Type) where
  name : C
  type : SqlType
  nullable : Bool
  deriving DecidableEq, Repr

/-- A foreign key from one column to the `id` of a table. -/
structure ForeignKey (C : Type) where
  name : String
  constrained : C
  referred : TableName
  /-- The text of `ON DELETE`, empty when there is none. -/
  ondelete : String
  deriving DecidableEq, Repr

structure Index where
  name : String
  columns : List TaskColumn
  /-- Made by the server for a foreign key. -/
  generated : Bool
  deriving DecidableEq, Repr

inductive TaskCheck where
  | status
  | titleLength
  | priority
  deriving DecidableEq, Repr

namespace TaskCheck

def name : TaskCheck → String
  | status => "ck_tasks_status"
  | titleLength => "ck_tasks_title_length"
  | priority => "ck_tasks_priority"

def sqltext : TaskCheck → String
  | status => "status IN ('TODO', 'IN_PROGRESS', 'DONE')"
  | titleLength => "CHAR_LENGTH(TRIM(title)) BETWEEN 1 AND 100"
  | priority => "priority BETWEEN 1 AND 5"

def column : TaskCheck → TaskColumn
  | status => .status
  | titleLength => .title
  | priority => .priority

end TaskCheck

structure MapSchema where
  columns : List (Column MapColumn)
  primaryKey : List MapColumn
  uniqueConstraints : List (String × List MapColumn)
  foreignKeys : List (ForeignKey MapColumn)
  deriving DecidableEq, Repr

structure Schema where
  /-- The row of `alembic_version`. -/
  revision : String
  columns : List (Column TaskColumn)
  foreignKeys : List (ForeignKey TaskColumn)
  checks : List TaskCheck
  indexes : List Index
  map : Option MapSchema
  deriving DecidableEq, Repr

/-- The schema at revision `6c2f9a4d7e31`.  The server named the foreign key of
`owner_id`, and made its index. -/
def baselineSchema : Schema :=
  { revision := "6c2f9a4d7e31"
    columns :=
      [⟨.id, .integer, false⟩, ⟨.title, .varchar 100, false⟩, ⟨.completed, .boolean, false⟩,
        ⟨.priority, .integer, false⟩, ⟨.ownerId, .integer, false⟩,
        ⟨.description, .varchar 500, true⟩]
    foreignKeys := [⟨"tasks_ibfk_1", .ownerId, .users, ""⟩]
    checks := []
    indexes := [⟨"owner_id", [.ownerId], true⟩]
    map := none }

/-! ## Statements that change it -/

inductive Ddl where
  /-- A new column is nullable. -/
  | addColumn (column : TaskColumn) (type : SqlType)
  | alterNullable (column : TaskColumn) (nullable : Bool)
  | createForeignKey (foreignKey : ForeignKey TaskColumn)
  | createCheck (check : TaskCheck)
  | createIndex (name : String) (columns : List TaskColumn)
  | dropForeignKey (name : String)
  | dropCheck (name : String)
  | dropIndex (name : String)
  | dropColumn (column : TaskColumn)
  | createMap (schema : MapSchema)
  | dropMap

namespace Schema

def hasColumn (s : Schema) (c : TaskColumn) : Bool := s.columns.any fun col => col.name = c

/-- Whether a name is taken by a constraint of `tasks`. -/
def hasConstraint (s : Schema) (name : String) : Bool :=
  (s.foreignKeys.any fun fk => fk.name = name) || s.checks.any fun ck => ck.name = name

/-- An index that begins with a column can serve a foreign key on it. -/
def serves (c : TaskColumn) (index : Index) : Bool := index.columns.head? = some c

/-- The schema after a statement, unless the server rejects it. -/
def change (s : Schema) : Ddl → Option Schema
  | .addColumn c type =>
    if s.hasColumn c then none else some { s with columns := s.columns ++ [⟨c, type, true⟩] }
  | .alterNullable c nullable =>
    if s.hasColumn c then
      some { s with columns := s.columns.map fun col =>
        if col.name = c then { col with nullable := nullable } else col }
    else none
  | .createForeignKey fk =>
    if !s.hasColumn fk.constrained || s.hasConstraint fk.name then none
    else some { s with
      foreignKeys := s.foreignKeys ++ [fk]
      indexes := if s.indexes.any (serves fk.constrained) then s.indexes
        else s.indexes ++ [⟨fk.name, [fk.constrained], true⟩] }
  | .createCheck ck =>
    if !s.hasColumn ck.column || s.hasConstraint ck.name then none
    else some { s with checks := s.checks ++ [ck] }
  | .createIndex name columns =>
    if !columns.all s.hasColumn || (s.indexes.any fun index => index.name = name) then none
    else some { s with
      indexes := (s.indexes.filter fun index =>
        !(index.generated && index.columns.isPrefixOf columns)) ++ [⟨name, columns, false⟩] }
  | .dropForeignKey name =>
    if s.foreignKeys.any fun fk => fk.name = name then
      some { s with foreignKeys := s.foreignKeys.filter fun fk => fk.name ≠ name }
    else none
  | .dropCheck name =>
    if s.checks.any fun ck => ck.name = name then
      some { s with checks := s.checks.filter fun ck => ck.name ≠ name }
    else none
  | .dropIndex name =>
    let rest := s.indexes.filter fun index => index.name ≠ name
    if (s.indexes.any fun index => index.name = name) &&
        s.foreignKeys.all fun fk => rest.any (serves fk.constrained) then
      some { s with indexes := rest }
    else none
  | .dropColumn c =>
    if !s.hasColumn c || (s.foreignKeys.any fun fk => fk.constrained = c) ||
        s.checks.any fun ck => ck.column = c then none
    else some { s with
      columns := s.columns.filter fun col => col.name ≠ c
      indexes := (s.indexes.map fun index =>
        { index with columns := index.columns.filter fun col => col ≠ c }).filter fun index =>
          !index.columns.isEmpty }
  | .createMap schema =>
    if s.map.isSome then none else some { s with map := some schema }
  | .dropMap => if s.map.isSome then some { s with map := none } else none

/-- The schema after a list of statements. -/
def changeAll (s : Schema) : List Ddl → Option Schema
  | [] => some s
  | x :: rest => (s.change x).bind fun s' => changeAll s' rest

end Schema
end Migration
end TaskPlatform
