import TaskPlatform.Api.Http
import TaskPlatform.Mediation.Requests

/-!
# The error contract

The table of status codes of `README.md`, in terms of what the request was told.  Every
response of every interleaving is in the table: the client can tell from the status how
far the request came.
-/

namespace TaskPlatform

open Transaction Service

section Contract

variable (request : Request) (h : Dialogue Call.Res)

/-- The token names nobody, or the password is wrong. -/
def Unauthenticated (http : HttpResponse) : Prop :=
  (http = appExceptionHandler invalidTokenError ∧ request.takesToken = true ∧
    ∀ username, request.subject = some username →
      Told h (.select (.userByUsername username)) none) ∨
  (http = appExceptionHandler invalidCredentialsError ∧
    ∃ ip username password, request = .login ip username password ∧
      (Told h (.select (.userByUsername username)) none ∨
        ∃ user, Told h (.select (.userByUsername username)) (some user) ∧
          Told h (.verifyPassword password user.hashedPassword) false))

/-- The caller is a member whose role was looked at and is not OWNER. -/
def Forbidden (http : HttpResponse) : Prop :=
  (http = appExceptionHandler workspacePermissionDeniedError ∨
    http = appExceptionHandler taskPermissionDeniedError) ∧
  ∃ user w m, MemberOf request h user w ∧ m.role ≠ .owner ∧
    (Told h (.memberAttributes w user.id) m ∨ Told h (.lockMember w user.id) (some m))

/-- A workspace without the caller and one that does not exist are answered alike, as
are a task of another workspace and one that does not exist.  Only a request that was
let through learns that its target is missing. -/
def Missing (http : HttpResponse) : Prop :=
  (http = appExceptionHandler workspaceNotFoundError ∧
    ∃ user w, Caller request h user ∧ request.workspaceId? = some w ∧
      (Told h (.select (.workspaceAccess w user.id)) none ∨
        Told h (.lockMember w user.id) none)) ∨
  (http = appExceptionHandler taskNotFoundError ∧
    ∃ user w t, MemberOf request h user w ∧ request.taskId? = some t ∧
      (Told h (.select (.taskIn t w)) none ∨ Told h (.lockTask w t) none)) ∨
  (Qualified request h ∧
    ((http = appExceptionHandler userNotFoundError ∧
        ∃ username, Told h (.select (.userByUsername username)) none) ∨
      (http = appExceptionHandler workspaceMemberNotFoundError ∧
        ∃ w u, request.workspaceId? = some w ∧
          (Told h (.select (.memberWithUsername w u)) none ∨ Told h (.lockMember w u) none))))

/-- The task is done, another holds the task that the actor claims, or nobody holds the
one that he gives up. -/
def AssignmentConflict (role : MemberRole) (actorUserId : Id) (task : Task)
    (requested : Option Id) : Prop :=
  (task.status = .done ∧ task.assigneeId ≠ requested) ∨
  (role ≠ .owner ∧ requested = some actorUserId ∧
    ∃ holder, task.assigneeId = some holder ∧ holder ≠ actorUserId) ∨
  (role ≠ .owner ∧ requested ≠ some actorUserId ∧ task.assigneeId = none)

/-- The row is there already, the owner is to stay, or the task may not change so. -/
def Conflicting (http : HttpResponse) : Prop :=
  (http = appExceptionHandler usernameAlreadyExistsError ∧
    ∃ ip data, request = .createUser ip (some data) ∧
      ((∃ user, Told h (.select (.userByUsername data.username)) (some user)) ∨
        ∃ e, Raised h e ∧ e.isIntegrityError = true)) ∨
  (http = appExceptionHandler workspaceMemberAlreadyExistsError ∧
    ∃ subject w data, request = .addMember subject w (some data) ∧
      ((∃ target m, Told h (.select (.userByUsername data.username)) (some target) ∧
          Told h (.getMember w target.id) (some m)) ∨
        Raised h .duplicateKey)) ∨
  (http = appExceptionHandler ownerMembershipConflictError ∧
    ∃ w u target, request.workspaceId? = some w ∧ target.role = .owner ∧
      (Told h (.lockMember w u) (some target) ∨
        ∃ username, Told h (.select (.memberWithUsername w u)) (some (target, username)))) ∨
  (∃ subject w t user m row, MemberOf request h user w ∧
    Told h (.lockMember w user.id) (some m) ∧ Told h (.lockTask w t) (some row) ∧
    ((http = appExceptionHandler taskStatusTransitionConflictError ∧
        ∃ data, request = .updateTaskStatus subject w t (some data) ∧
          isValidStatusTransition m.role row.status data.status = false) ∨
      (http = appExceptionHandler taskAssignmentConflictError ∧
        ∃ data, request = .updateTaskAssignee subject w t (some data) ∧
          AssignmentConflict m.role user.id row data.assigneeId)))

/-- What a response stands for. -/
def Justified (http : HttpResponse) : Prop :=
  match http.status with
  | 200 | 201 | 204 =>
    http.status = request.statusCode ∧ Qualified request h ∧ request.accepted = true
  | 401 => Unauthenticated request h http ∧ ("WWW-Authenticate", "Bearer") ∈ http.headers
  | 403 => Forbidden request h http
  | 404 => Missing request h http
  | 409 => Qualified request h ∧ Conflicting request h http
  | 422 => Qualified request h ∧ request.accepted = false
  | 429 => ∃ check decision, ChargedTo request h check ∧
      Told h (.checkRateLimit check) (.ok decision) ∧ decision.allowed = false ∧
      http = appExceptionHandler (rateLimitExceededError decision.limit decision.retryAfter)
  | 500 => http = unexpectedExceptionHandler ∧ ∃ e, Raised h e
  | 503 => http = appExceptionHandler rateLimitUnavailableError ∧ request.takesToken = false ∧
      ∃ check e, ChargedTo request h check ∧ Told h (.checkRateLimit check) (.error e)
  | _ => False

end Contract

/-! ## What the services decline with -/

theorem role_ne_owner_of_denied {actorRole : MemberRole} {actorUserId taskCreatorId : Id}
    (h : canEditTask actorRole actorUserId taskCreatorId = false) : actorRole ≠ .owner := by
  intro howner
  have hgranted : canDeleteTask actorRole actorUserId taskCreatorId = true :=
    canDeleteTask_iff.mpr (Or.inl howner)
  rw [canDeleteTask, h] at hgranted
  cases hgranted

theorem removalRefused_some {actorRole targetRole : MemberRole} {e : AppException}
    (h : removalRefused actorRole targetRole = some e) :
    (e = ownerMembershipConflictError ∧ targetRole = .owner) ∨
      (e = workspacePermissionDeniedError ∧ actorRole ≠ .owner) := by
  unfold removalRefused at h
  split_ifs at h with howner hactor hremove
  · exact Or.inl ⟨(Option.some.inj h).symm, howner⟩
  · exact Or.inr ⟨(Option.some.inj h).symm, hactor⟩
  · refine Or.inr ⟨(Option.some.inj h).symm, fun hactor => ?_⟩
    have hgranted := canRemoveMember_iff.mpr (Or.inl ⟨hactor, howner⟩)
    rw [hremove] at hgranted
    cases hgranted

theorem decideStatus_refuse {role : MemberRole} {actorUserId : Id} {task : Task}
    {status : TaskStatus} {e : AppException}
    (h : decideStatus role actorUserId task status = .refuse e) :
    (e = taskStatusTransitionConflictError ∧
        isValidStatusTransition role task.status status = false) ∨
      (e = taskPermissionDeniedError ∧ role ≠ .owner) := by
  unfold decideStatus at h
  split_ifs at h with hchange hvalid hsame
  · refine Or.inr ⟨(Decision.refuse.inj h).symm, fun howner => ?_⟩
    have hgranted : canChangeTaskStatus role actorUserId task.assigneeId = true :=
      canChangeTaskStatus_iff.mpr (Or.inl howner)
    rw [hchange] at hgranted
    cases hgranted
  · exact Or.inl ⟨(Decision.refuse.inj h).symm, hvalid⟩

theorem decideAssignee_refuse {role : MemberRole} {actorUserId : Id} {task : Task}
    {requested : Option Id} {memberships : List WorkspaceMember} {e : AppException}
    (h : decideAssignee role actorUserId task requested memberships = .refuse e) :
    (e = taskAssignmentConflictError ∧ AssignmentConflict role actorUserId task requested) ∨
      (e = taskPermissionDeniedError ∧ role ≠ .owner) ∨
      (e = workspaceMemberNotFoundError ∧ ∃ a ∈ requested, membershipOf memberships a = none) := by
  unfold decideAssignee at h
  have howner : ¬ canChangeTaskAssignee role = true → role ≠ .owner := fun hmanager heq =>
    hmanager (canChangeTaskAssignee_iff.mpr (Or.inl heq))
  split_ifs at h with hmanager hsame hmissing hdone hself hown hclaim hdone hnone hother hrelease
    hdone
  · obtain ⟨a, ha, hmissing⟩ := hmissing
    exact Or.inr (Or.inr
      ⟨(Decision.refuse.inj h).symm, a, ha, Option.isNone_iff_eq_none.mp hmissing⟩)
  · exact Or.inl ⟨(Decision.refuse.inj h).symm, Or.inl ⟨hdone, hsame⟩⟩
  · refine Or.inl ⟨(Decision.refuse.inj h).symm, Or.inr (Or.inl ⟨howner hmanager, hself, ?_⟩)⟩
    cases hheld : task.assigneeId with
    | none =>
        have hmember : role = .member := by
          cases role with
          | member => rfl
          | _ => exact absurd rfl hmanager
        have hgranted := canSelfClaimTask_iff.mpr ⟨hmember, hself, hheld⟩
        rw [hclaim] at hgranted
        cases hgranted
    | some holder => exact ⟨holder, rfl, fun heq => hown (hheld.trans (congrArg some heq))⟩
  · exact Or.inl ⟨(Decision.refuse.inj h).symm, Or.inl ⟨hdone, fun heq => hown (heq.trans hself)⟩⟩
  · exact Or.inl ⟨(Decision.refuse.inj h).symm,
      Or.inr (Or.inr ⟨howner hmanager, hself, hnone⟩)⟩
  · exact Or.inr (Or.inl ⟨(Decision.refuse.inj h).symm, howner hmanager⟩)
  · exact Or.inr (Or.inl ⟨(Decision.refuse.inj h).symm, howner hmanager⟩)
  · refine Or.inl ⟨(Decision.refuse.inj h).symm, Or.inl ⟨hdone, fun heq => hself ?_⟩⟩
    rw [← heq]
    exact not_not.mp hother

/-! ## Every answer is in the table -/

section Answers

variable {request : Request} {h : Dialogue Call.Res}

theorem justified_taskDenied {user : User} {w : Id} {m : WorkspaceMember}
    (hu : MemberOf request h user w) (hrole : m.role ≠ .owner)
    (hm : Told h (.memberAttributes w user.id) m ∨ Told h (.lockMember w user.id) (some m)) :
    Justified request h (appExceptionHandler taskPermissionDeniedError) :=
  ⟨Or.inr rfl, user, w, m, hu, hrole, hm⟩

theorem justified_workspaceDenied {user : User} {w : Id} {m : WorkspaceMember}
    (hu : MemberOf request h user w) (hrole : m.role ≠ .owner)
    (hm : Told h (.memberAttributes w user.id) m) :
    Justified request h (appExceptionHandler workspacePermissionDeniedError) :=
  ⟨Or.inl rfl, user, w, m, hu, hrole, Or.inl hm⟩

theorem Declines.justified {e : AppException} (hd : Declines h request e)
    (hq : Qualified request h) : Justified request h (appExceptionHandler e) := by
  cases hd with
  | usernameFound hu => exact ⟨hq, Or.inl ⟨rfl, _, _, rfl, Or.inl ⟨_, hu⟩⟩⟩
  | usernameRaced he hi => exact ⟨hq, Or.inl ⟨rfl, _, _, rfl, Or.inr ⟨_, he, hi⟩⟩⟩
  | unknownUsername hu => exact ⟨Or.inr ⟨rfl, _, _, _, rfl, Or.inl hu⟩, List.mem_singleton_self _⟩
  | wrongPassword hu hp =>
      exact ⟨Or.inr ⟨rfl, _, _, _, rfl, Or.inr ⟨_, hu, hp⟩⟩, List.mem_singleton_self _⟩
  | @mayNotAdd _ _ data _ m hu hm hrole =>
      refine justified_workspaceDenied hu (fun howner => ?_) hm
      have hgranted := canAddMember_iff.mpr (Or.inl ⟨howner, data.role.2⟩)
      rw [hrole] at hgranted
      cases hgranted
  | noTarget ht => exact Or.inr (Or.inr ⟨hq, Or.inl ⟨rfl, _, ht⟩⟩)
  | alreadyMember ht hm => exact ⟨hq, Or.inr (Or.inl ⟨rfl, _, _, _, rfl, Or.inl ⟨_, _, ht, hm⟩⟩)⟩
  | memberRaced he => exact ⟨hq, Or.inr (Or.inl ⟨rfl, _, _, _, rfl, Or.inr he⟩)⟩
  | noMember ht => exact Or.inr (Or.inr ⟨hq, Or.inr ⟨rfl, _, _, rfl, Or.inl ht⟩⟩)
  | ownerRole ht hrole =>
      exact ⟨hq, Or.inr (Or.inr (Or.inl ⟨rfl, _, _, _, rfl, hrole, Or.inr ⟨_, ht⟩⟩))⟩
  | @mayNotUpdate _ _ _ data _ m _ _ hu hm _ howner hrole =>
      refine justified_workspaceDenied hu (fun hactor => ?_) hm
      have hgranted := canUpdateMemberRole_iff.mpr ⟨hactor, howner, data.role.2⟩
      rw [hrole] at hgranted
      cases hgranted
  | noneToRemove ht => exact Or.inr (Or.inr ⟨hq, Or.inr ⟨rfl, _, _, rfl, Or.inr ht⟩⟩)
  | mayNotRemove hu hm ht hrole =>
      rcases removalRefused_some hrole with ⟨rfl, howner⟩ | ⟨rfl, hactor⟩
      · exact ⟨hq, Or.inr (Or.inr (Or.inl ⟨rfl, _, _, _, rfl, howner, Or.inl ht⟩))⟩
      · exact justified_workspaceDenied hu hactor hm
  | mayNotEdit ht hm hrole =>
      exact justified_taskDenied ht.toMemberOf (role_ne_owner_of_denied hrole) (Or.inl hm)
  | mayNotDelete ht hm hrole =>
      exact justified_taskDenied ht.toMemberOf (role_ne_owner_of_denied hrole) (Or.inl hm)
  | statusRefused hu hm hrow hd =>
      rcases decideStatus_refuse hd with ⟨rfl, hvalid⟩ | ⟨rfl, hrole⟩
      · exact ⟨hq, Or.inr (Or.inr (Or.inr
          ⟨_, _, _, _, _, _, hu, hm, hrow, Or.inl ⟨rfl, _, rfl, hvalid⟩⟩))⟩
      · exact justified_taskDenied hu hrole (Or.inr hm)
  | namesAnother hu hm hn =>
      refine justified_taskDenied hu (fun howner => ?_) hm
      rw [hn.1] at howner
      cases howner
  | assigneeRefused hu hm _ hnone hrow hd =>
      rcases decideAssignee_refuse hd with ⟨rfl, hclash⟩ | ⟨rfl, hrole⟩ | ⟨rfl, a, ha, hmissing⟩
      · exact ⟨hq, Or.inr (Or.inr (Or.inr
          ⟨_, _, _, _, _, _, hu, hm, hrow, Or.inr ⟨rfl, _, rfl, hclash⟩⟩))⟩
      · exact justified_taskDenied hu hrole (Or.inr hm)
      · exact Or.inr (Or.inr ⟨hq, Or.inr ⟨rfl, _, _, rfl, Or.inr (hnone a ha hmissing)⟩⟩)

theorem Request.Refuses.justified {e : Exc} (he : request.Refuses h e) :
    Justified request h (request.http (.error e)) := by
  cases he with
  | missingToken hr hs =>
      refine ⟨Or.inl ⟨rfl, hr, fun username husername => ?_⟩, List.mem_singleton_self _⟩
      rw [hs] at husername
      cases husername
  | unknownSubject hs hu =>
      refine ⟨Or.inl ⟨rfl, takesToken_of_subject hs, fun username husername => ?_⟩,
        List.mem_singleton_self _⟩
      rw [hs, Option.some.injEq] at husername
      exact husername ▸ hu
  | notMember hu hw hm => exact Or.inl ⟨rfl, _, _, hu, hw, Or.inl hm⟩
  | memberGone hu hm => exact Or.inl ⟨rfl, _, _, hu.toCaller, hu.addressed, Or.inr hm⟩
  | noTask hu ht hm => exact Or.inr (Or.inl ⟨rfl, _, _, _, hu, ht, Or.inl hm⟩)
  | taskGone hu ht hm => exact Or.inr (Or.inl ⟨rfl, _, _, _, hu, ht, Or.inr hm⟩)
  | @wrongRole _ _ m roles hu hr hm hrole =>
      refine justified_workspaceDenied hu (fun howner => hrole ?_) hm
      rw [howner]
      cases request with
      | addMember _ _ _ => cases hr; decide
      | updateMemberRole _ _ _ _ => cases hr; decide
      | removeMember _ _ _ => cases hr; decide
      | _ => cases hr
  | exceeded hc hr hd => exact ⟨_, _, hc, hr, hd, rfl⟩
  | unavailable ht hc hr => exact ⟨rfl, ht, _, _, hc, hr⟩
  | invalid hq ha => exact ⟨hq, ha⟩
  | declined hq hd => exact hd.justified hq
  | raised he => exact ⟨rfl, _, he⟩

theorem justified_ok {body : Body} (hq : Qualified request h) (ha : request.accepted = true) :
    Justified request h (request.http (.ok body)) := by
  cases request with
  | _ => exact ⟨rfl, hq, ha⟩

theorem Request.Accounts.justified {response : Response} (ha : request.Accounts response h) :
    Justified request h (request.http response) := by
  cases response with
  | error e => exact Request.Refuses.justified ha
  | ok body =>
      cases body with
      | token name =>
          obtain ⟨ip, username, password, user, rfl, _, hq, _⟩ := ha
          exact justified_ok hq rfl
      | _ => exact justified_ok ha.1 ha.2

end Answers

/-! ## Runs -/

end TaskPlatform
