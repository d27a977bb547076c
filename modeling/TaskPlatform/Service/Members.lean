import TaskPlatform.Service.Dependencies

/-!
# Workspace members

`app/services/workspace_member_service.py`.
-/

namespace TaskPlatform

open Service

def memberData (membership : WorkspaceMember) (username : String) : WorkspaceMemberResponse :=
  { userId := membership.userId, username := username, role := membership.role,
    joinedAt := membership.joinedAt, updatedAt := membership.updatedAt }

def getMemberWithUsername (workspaceId userId : Id) : Service (WorkspaceMember × String) := do
  orRaise (← call (.select (.memberWithUsername workspaceId userId))) workspaceMemberNotFoundError

def listMembers (access : WorkspaceAccess) (page : PageQuery) :
    Service (Page WorkspaceMemberResponse) := do
  let total ← call (.select (.countMembers access.workspace.id))
  let rows ← call (.select (.members access.workspace.id page.limit page.offset))
  return { items := rows.map fun row => memberData row.1 row.2, total := total,
           limit := page.limit, offset := page.offset }

def addMember (access : WorkspaceAccess) (username : String) (role : MemberRole) :
    Service WorkspaceMemberResponse := do
  let actorRole ← access.membershipRole
  raiseIf (canAddMember actorRole role = false) workspacePermissionDeniedError
  tryCatch
    (do
      let targetUser ← orRaise (← getUserByUsername username) userNotFoundError
      let existing ← call (.getMember access.workspace.id targetUser.id)
      raiseIf existing.isSome workspaceMemberAlreadyExistsError
      let _ ← call (.insertMember access.workspace.id targetUser.id role)
      let membership ← call (.refreshMember access.workspace.id targetUser.id)
      call .commit
      return memberData membership targetUser.username)
    fun e => match e with
      | .sql err => do
        call .rollback
        if err = .duplicateKey then raise workspaceMemberAlreadyExistsError else throw e
      | _ => throw e

def updateMemberRole (access : WorkspaceAccess) (userId : Id) (role : MemberRole) :
    Service WorkspaceMemberResponse :=
  rollbackOnSqlError do
    let (membership, username) ← getMemberWithUsername access.workspace.id userId
    raiseIf (membership.role = .owner) ownerMembershipConflictError
    let actorRole ← access.membershipRole
    raiseIf (canUpdateMemberRole actorRole membership.role role = false)
      workspacePermissionDeniedError
    call (.flushMemberRole access.workspace.id userId role)
    let refreshed ← call (.refreshMember access.workspace.id userId)
    call .commit
    return memberData refreshed username

/-- Why `remove_member` refuses, if it does. -/
def removalRefused (actorRole targetRole : MemberRole) : Option AppException :=
  if targetRole = .owner then
    if actorRole = .owner then some ownerMembershipConflictError
    else some workspacePermissionDeniedError
  else if canRemoveMember actorRole targetRole = false then some workspacePermissionDeniedError
  else none

theorem removalRefused_eq_none {actorRole targetRole : MemberRole} :
    removalRefused actorRole targetRole = none ↔ canRemoveMember actorRole targetRole = true := by
  cases actorRole <;> cases targetRole <;> decide

/-- The bulk update of `remove_member`. -/
def clearUnfinishedTasks (workspaceId userId : Id) : Service Unit := do
  let updatedAt ← call .utcNow
  let taskIds ← call (.scanTasks workspaceId)
  forM taskIds fun taskId => call (.clearAssignee workspaceId userId taskId updatedAt)

def removeMember (access : WorkspaceAccess) (userId : Id) : Service Unit :=
  rollbackOnError do
    let membership ← orRaise (← call (.lockMember access.workspace.id userId))
      workspaceMemberNotFoundError
    let actorRole ← access.membershipRole
    match removalRefused actorRole membership.role with
    | some e => raise e
    | none =>
      clearUnfinishedTasks access.workspace.id userId
      call (.deleteMember access.workspace.id userId)
      call .commit

end TaskPlatform
