import TaskPlatform.Model.Database

/-!
# Request and response schemas

The Pydantic models of `app/schemas.py`.  A request model carries what its
validators establish, and its `validate` function is the only way raw input
becomes one; a rejected body is `none`, which the API answers with 422.
-/

namespace TaskPlatform

structure TaskCreate where
  title : String
  priority : Int
  description : Option String
  title_strip : strip title = title
  title_length : 1 ≤ title.length ∧ title.length ≤ 100
  priority_range : 1 ≤ priority ∧ priority ≤ 5
  description_length : ∀ s ∈ description, s.length ≤ 500

def TaskCreate.validate (title : String) (priority : Int := 1)
    (description : Option String := none) : Option TaskCreate :=
  if h : (1 ≤ (strip title).length ∧ (strip title).length ≤ 100) ∧
      (1 ≤ priority ∧ priority ≤ 5) ∧ ∀ s ∈ description, s.length ≤ 500 then
    some ⟨strip title, priority, description, strip_idem title, h.1, h.2.1, h.2.2⟩
  else none

/-- A partial update.  A field that was not sent is `none`; a description that
was sent as `null` is `some none`.  At least one field was sent. -/
structure TaskUpdate where
  title : Option String
  priority : Option Int
  description : Option (Option String)
  title_strip : ∀ s ∈ title, strip s = s
  title_length : ∀ s ∈ title, 1 ≤ s.length ∧ s.length ≤ 100
  priority_range : ∀ p ∈ priority, 1 ≤ p ∧ p ≤ 5
  description_length : ∀ s ∈ description.join, s.length ≤ 500
  nonempty : title.isSome ∨ priority.isSome ∨ description.isSome

/-- The outer option is whether the field was sent, the inner one `null`, which
the validators of title and priority reject. -/
def TaskUpdate.validate (title : Option (Option String)) (priority : Option (Option Int))
    (description : Option (Option String)) : Option TaskUpdate :=
  if title = some none ∨ priority = some none then none
  else
    let title := title.join.map strip
    let priority := priority.join
    if h : (∀ s ∈ title, 1 ≤ s.length ∧ s.length ≤ 100) ∧ (∀ p ∈ priority, 1 ≤ p ∧ p ≤ 5) ∧
        (∀ s ∈ description.join, s.length ≤ 500) ∧
        (title.isSome ∨ priority.isSome ∨ description.isSome) then
      some ⟨title, priority, description, by
        intro s hs
        obtain ⟨raw, _, rfl⟩ := Option.map_eq_some_iff.mp hs
        exact strip_idem raw, h.1, h.2.1, h.2.2.1, h.2.2.2⟩
    else none

structure TaskStatusUpdate where
  status : TaskStatus

structure TaskAssigneeUpdate where
  assigneeId : Option Id
  assigneeId_pos : ∀ a ∈ assigneeId, 0 < a

def TaskAssigneeUpdate.validate (assigneeId : Option Id) : Option TaskAssigneeUpdate :=
  if h : ∀ a ∈ assigneeId, 0 < a then some ⟨assigneeId, h⟩ else none

structure UserCreate where
  username : String
  password : String
  username_text : isUsernameText username = true
  username_length : 3 ≤ username.length ∧ username.length ≤ 50
  password_length : 8 ≤ password.length ∧ password.length ≤ 128

def UserCreate.validate (username password : String) : Option UserCreate :=
  if h : isUsernameText username = true ∧ (3 ≤ username.length ∧ username.length ≤ 50) ∧
      (8 ≤ password.length ∧ password.length ≤ 128) then
    some ⟨username, password, h.1, h.2.1, h.2.2⟩
  else none

structure WorkspaceCreate where
  name : String
  name_strip : strip name = name
  name_length : 1 ≤ name.length ∧ name.length ≤ 100

def WorkspaceCreate.validate (name : String) : Option WorkspaceCreate :=
  if h : 1 ≤ (strip name).length ∧ (strip name).length ≤ 100 then
    some ⟨strip name, strip_idem name, h⟩
  else none

/-- `Literal[MemberRole.ADMIN, MemberRole.MEMBER]`. -/
def AssignableMemberRole : Type := { r : MemberRole // r ≠ .owner }

def AssignableMemberRole.admin : AssignableMemberRole := ⟨.admin, by decide⟩

def AssignableMemberRole.member : AssignableMemberRole := ⟨.member, by decide⟩

structure WorkspaceMemberCreate where
  username : String
  role : AssignableMemberRole
  username_text : isUsernameText username = true
  username_length : 3 ≤ username.length ∧ username.length ≤ 50

def WorkspaceMemberCreate.validate (username : String)
    (role : AssignableMemberRole := AssignableMemberRole.member) :
    Option WorkspaceMemberCreate :=
  if h : isUsernameText username = true ∧ (3 ≤ username.length ∧ username.length ≤ 50) then
    some ⟨username, role, h.1, h.2⟩
  else none

structure WorkspaceMemberRoleUpdate where
  role : AssignableMemberRole

inductive SortBy where
  | id
  | priority
  | createdAt
  | updatedAt
  deriving DecidableEq, Repr

inductive SortOrder where
  | asc
  | desc
  deriving DecidableEq, Repr

structure TaskListQuery where
  status : Option TaskStatus
  priority : Option Int
  assigneeId : Option Id
  unassigned : Bool
  limit : Nat
  offset : Nat
  sortBy : SortBy
  sortOrder : SortOrder
  priority_range : ∀ p ∈ priority, 1 ≤ p ∧ p ≤ 5
  assigneeId_pos : ∀ a ∈ assigneeId, 0 < a
  limit_range : 1 ≤ limit ∧ limit ≤ 100
  assignee_filters : ¬ (assigneeId.isSome ∧ unassigned)

def TaskListQuery.validate (status : Option TaskStatus := none) (priority : Option Int := none)
    (assigneeId : Option Id := none) (unassigned : Bool := false) (limit : Nat := 10)
    (offset : Nat := 0) (sortBy : SortBy := .id) (sortOrder : SortOrder := .desc) :
    Option TaskListQuery :=
  if h : (∀ p ∈ priority, 1 ≤ p ∧ p ≤ 5) ∧ (∀ a ∈ assigneeId, 0 < a) ∧
      (1 ≤ limit ∧ limit ≤ 100) ∧ ¬ (assigneeId.isSome ∧ unassigned) then
    some ⟨status, priority, assigneeId, unassigned, limit, offset, sortBy, sortOrder,
      h.1, h.2.1, h.2.2.1, h.2.2.2⟩
  else none

/-- The `limit` and `offset` query parameters of the member and workspace lists. -/
structure PageQuery where
  limit : Nat
  offset : Nat
  limit_range : 1 ≤ limit ∧ limit ≤ 100

def PageQuery.validate (limit : Nat := 20) (offset : Nat := 0) : Option PageQuery :=
  if h : 1 ≤ limit ∧ limit ≤ 100 then some ⟨limit, offset, h⟩ else none

/-! ## Responses -/

structure UserResponse where
  id : Id
  username : String
  deriving DecidableEq, Repr

structure TaskResponse where
  id : Id
  title : String
  description : Option String
  priority : Int
  workspaceId : Id
  creatorId : Id
  assigneeId : Option Id
  status : TaskStatus
  createdAt : Timestamp
  updatedAt : Timestamp
  deriving DecidableEq, Repr

structure WorkspaceResponse where
  id : Id
  name : String
  createdById : Id
  createdAt : Timestamp
  updatedAt : Timestamp
  currentRole : MemberRole
  deriving DecidableEq, Repr

structure WorkspaceMemberResponse where
  userId : Id
  username : String
  role : MemberRole
  joinedAt : Timestamp
  updatedAt : Timestamp
  deriving DecidableEq, Repr

/-- A page of a listing with the total it was cut from. -/
structure Page (α : Type) where
  items : List α
  total : Nat
  limit : Nat
  offset : Nat
  deriving DecidableEq, Repr

/-- The body of a successful response. -/
inductive Body where
  | user (u : UserResponse)
  /-- The subject of an access token. -/
  | token (subject : String)
  | workspace (w : WorkspaceResponse)
  | workspaces (p : Page WorkspaceResponse)
  | member (m : WorkspaceMemberResponse)
  | members (p : Page WorkspaceMemberResponse)
  | task (t : TaskResponse)
  | tasks (p : Page TaskResponse)
  | noContent
  deriving DecidableEq, Repr

end TaskPlatform
