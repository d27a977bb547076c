import TaskPlatform.Api.Request
import TaskPlatform.Transaction.Trail

/-!
# The calls in the text of a service

Which calls a service can issue at all is read off its text.  `Issues p x` says that
each of them satisfies `p`; the dependencies of the routes only read.
-/

namespace TaskPlatform

open Transaction Service

/-- All calls of a service satisfy `p`. -/
abbrev Issues (p : Call → Prop) {α : Type} (x : Service α) : Prop := Prog.Only p x.run

/-- A call that neither takes a lock nor writes nor ends the transaction. -/
def Call.isRead : Call → Prop
  | select _ | getMember _ _ | memberAttributes _ _ | scanTasks _ | refreshUser _
  | refreshWorkspace _ | refreshMember _ _ | refreshTask _ | utcNow | hashPassword _
  | verifyPassword _ _ | checkRateLimit _ => True
  | _ => False

section Rules

variable {p : Call → Prop} {α β : Type}

theorem issues_pure (a : α) : Issues p (pure a : Service α) := .ret _

theorem issues_throw (e : Exc) : Issues p (throw e : Service α) := .ret _

theorem issues_call {c : Call} (hc : p c) : Issues p (call c) := .call hc fun _ => .ret _

theorem issues_bind {x : Service α} {f : α → Service β} (hx : Issues p x)
    (hf : ∀ a, Issues p (f a)) : Issues p (x >>= f) := by
  refine hx.bind fun r => ?_
  cases r with
  | ok a => exact hf a
  | error e => exact .ret _

theorem issues_raiseIf {c : Prop} [Decidable c] {e : AppException} :
    Issues p (raiseIf c e) := by
  unfold raiseIf
  split
  · exact issues_throw _
  · exact issues_pure _

theorem issues_orRaise {row : Option α} {e : AppException} : Issues p (orRaise row e) := by
  cases row with
  | none => exact issues_throw _
  | some r => exact issues_pure r

theorem issues_validBody {body : Option α} : Issues p (validBody body) := by
  cases body with
  | none => exact issues_throw _
  | some b => exact issues_pure b

theorem issues_forM {f : α → Service PUnit} (hf : ∀ a, Issues p (f a)) (as : List α) :
    Issues p (forM as f) := by
  induction as with
  | nil => exact issues_pure _
  | cons a rest ih => exact issues_bind (hf a) fun _ => ih

end Rules

section Dependencies

variable {p : Call → Prop}

theorem issues_lockMembershipRows (hp : ∀ w u, p (.lockMember w u)) (w : Id) (us : List Id) :
    Issues p (lockMembershipRows w us) := by
  induction us with
  | nil => exact issues_pure _
  | cons u rest ih =>
      exact issues_bind (issues_call (hp w u)) fun _ => issues_bind ih fun _ => issues_pure _

theorem issues_lockTask {w t : Id} (hp : p (.lockTask w t)) : Issues p (lockTask w t) :=
  issues_bind (issues_call hp) fun _ => issues_orRaise

variable (hp : ∀ c, c.isRead → p c)

include hp

theorem issues_membershipRole (access : WorkspaceAccess) : Issues p access.membershipRole :=
  issues_bind (issues_call (hp _ trivial)) fun _ => issues_pure _

theorem issues_getCurrentUser (subject : Option String) : Issues p (getCurrentUser subject) :=
  issues_bind issues_orRaise fun _ =>
    issues_bind (issues_call (hp _ trivial)) fun _ => issues_orRaise

theorem issues_enforceWriteLimit (u : Id) (scope : Scope) (w : Option Id) :
    Issues p (enforceWriteLimit u scope w) := by
  refine issues_bind (issues_call (hp _ trivial)) fun decision => ?_
  cases enforceWriteRateLimit decision with
  | ok _ => exact issues_pure _
  | error e => exact issues_throw _

theorem issues_enforceAuthLimit (check : RateCheck) : Issues p (enforceAuthLimit check) := by
  refine issues_bind (issues_call (hp _ trivial)) fun decision => ?_
  cases enforceAuthRateLimit decision with
  | ok _ => exact issues_pure _
  | error e => exact issues_throw _

theorem issues_workspaceAccess (subject : Option String) (w : Id) :
    Issues p (workspaceAccess subject w) := by
  refine issues_bind (issues_getCurrentUser hp subject) fun user => ?_
  exact issues_bind (issues_call (hp _ trivial)) fun _ =>
    issues_bind issues_orRaise fun _ => issues_pure _

theorem issues_limitedWorkspaceAccess (scope : Scope) (subject : Option String) (w : Id) :
    Issues p (limitedWorkspaceAccess scope subject w) :=
  issues_bind (issues_workspaceAccess hp subject w) fun _ =>
    issues_bind (issues_enforceWriteLimit hp _ _ _) fun _ => issues_pure _

theorem issues_limitedRoleAccess (scope : Scope) (roles : List MemberRole)
    (subject : Option String) (w : Id) :
    Issues p (limitedRoleAccess scope roles subject w) := by
  refine issues_bind (issues_workspaceAccess hp subject w) fun access => ?_
  have hroles : Issues p (requireWorkspaceRoles roles access) :=
    issues_bind (issues_membershipRole hp access) fun _ => issues_raiseIf
  exact issues_bind hroles fun _ =>
    issues_bind (issues_enforceWriteLimit hp _ _ _) fun _ => issues_pure _

theorem issues_taskAccess (subject : Option String) (w t : Id) :
    Issues p (taskAccess subject w t) := by
  refine issues_bind (issues_workspaceAccess hp subject w) fun _ => ?_
  exact issues_bind (issues_call (hp _ trivial)) fun _ =>
    issues_bind issues_orRaise fun _ => issues_pure _

theorem issues_limitedTaskAccess (scope : Scope) (subject : Option String) (w t : Id) :
    Issues p (limitedTaskAccess scope subject w t) :=
  issues_bind (issues_taskAccess hp subject w t) fun _ =>
    issues_bind (issues_enforceWriteLimit hp _ _ _) fun _ => issues_pure _

end Dependencies
end TaskPlatform
