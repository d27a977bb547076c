import Mathlib.Logic.Basic

/-!
# Roles, statuses and the permission policies

The enumerations of `app/enums.py` and the pure functions of `app/policies.py`.
-/

namespace TaskPlatform

abbrev Id := Int

inductive MemberRole where
  | owner
  | admin
  | member
  deriving DecidableEq, Repr

inductive TaskStatus where
  | todo
  | inProgress
  | done
  deriving DecidableEq, Repr

open MemberRole TaskStatus

def canAddMember (actorRole requestedRole : MemberRole) : Bool :=
  if actorRole = owner then [admin, member].contains requestedRole
  else if actorRole = admin then requestedRole = member
  else false

def canUpdateMemberRole (actorRole targetRole requestedRole : MemberRole) : Bool :=
  actorRole = owner && targetRole ≠ owner && [admin, member].contains requestedRole

def canRemoveMember (actorRole targetRole : MemberRole) : Bool :=
  if targetRole = owner then false
  else if actorRole = owner then [admin, member].contains targetRole
  else if actorRole = admin then targetRole = member
  else false

def canEditTask (actorRole : MemberRole) (actorUserId taskCreatorId : Id) : Bool :=
  [owner, admin].contains actorRole || actorUserId = taskCreatorId

def canDeleteTask (actorRole : MemberRole) (actorUserId taskCreatorId : Id) : Bool :=
  canEditTask actorRole actorUserId taskCreatorId

def canChangeTaskStatus (actorRole : MemberRole) (actorUserId : Id)
    (currentAssigneeId : Option Id) : Bool :=
  [owner, admin].contains actorRole ||
    (actorRole = member && currentAssigneeId = some actorUserId)

def isValidStatusTransition (actorRole : MemberRole)
    (currentStatus requestedStatus : TaskStatus) : Bool :=
  if currentStatus = requestedStatus then true
  else if [owner, admin].contains actorRole then true
  else [(todo, inProgress), (inProgress, done)].contains (currentStatus, requestedStatus)

def canChangeTaskAssignee (actorRole : MemberRole) : Bool :=
  [owner, admin].contains actorRole

def canSelfClaimTask (actorRole : MemberRole) (actorUserId : Id)
    (currentAssigneeId requestedAssigneeId : Option Id) : Bool :=
  actorRole = member && requestedAssigneeId = some actorUserId && currentAssigneeId = none

def canSelfReleaseTask (actorRole : MemberRole) (actorUserId : Id)
    (currentAssigneeId requestedAssigneeId : Option Id) : Bool :=
  actorRole = member && requestedAssigneeId = none && currentAssigneeId = some actorUserId

/-! ## What the policies grant -/

theorem canAddMember_iff {a r : MemberRole} :
    canAddMember a r = true ↔ (a = owner ∧ r ≠ owner) ∨ (a = admin ∧ r = member) := by
  cases a <;> cases r <;> decide

theorem canUpdateMemberRole_iff {a t r : MemberRole} :
    canUpdateMemberRole a t r = true ↔ a = owner ∧ t ≠ owner ∧ r ≠ owner := by
  cases a <;> cases t <;> cases r <;> decide

theorem canRemoveMember_iff {a t : MemberRole} :
    canRemoveMember a t = true ↔ (a = owner ∧ t ≠ owner) ∨ (a = admin ∧ t = member) := by
  cases a <;> cases t <;> decide

theorem canDeleteTask_iff {a : MemberRole} {u creator : Id} :
    canDeleteTask a u creator = true ↔ a = owner ∨ a = admin ∨ u = creator := by
  cases a <;> simp [canDeleteTask, canEditTask]

theorem canChangeTaskStatus_iff {a : MemberRole} {u : Id} {cur : Option Id} :
    canChangeTaskStatus a u cur = true ↔ a = owner ∨ a = admin ∨ (a = member ∧ cur = some u) := by
  cases a <;> simp [canChangeTaskStatus]

theorem isValidStatusTransition_iff {a : MemberRole} {cur req : TaskStatus} :
    isValidStatusTransition a cur req = true ↔
      cur = req ∨ a = owner ∨ a = admin ∨
        (cur = todo ∧ req = inProgress) ∨ (cur = inProgress ∧ req = done) := by
  cases a <;> cases cur <;> cases req <;> decide

theorem canChangeTaskAssignee_iff {a : MemberRole} :
    canChangeTaskAssignee a = true ↔ a = owner ∨ a = admin := by
  cases a <;> decide

theorem canSelfClaimTask_iff {a : MemberRole} {u : Id} {cur req : Option Id} :
    canSelfClaimTask a u cur req = true ↔ a = member ∧ req = some u ∧ cur = none := by
  simp [canSelfClaimTask, and_assoc]

theorem canSelfReleaseTask_iff {a : MemberRole} {u : Id} {cur req : Option Id} :
    canSelfReleaseTask a u cur req = true ↔ a = member ∧ req = none ∧ cur = some u := by
  simp [canSelfReleaseTask, and_assoc]

end TaskPlatform
