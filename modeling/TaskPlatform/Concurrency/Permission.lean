import TaskPlatform.Concurrency.Routes

/-!
# Status and assignee changes are permitted when they are committed

The dependencies of a route read a snapshot that may be arbitrarily old.  The two
workflow services read the actor's membership and the task again under locks, so
what they commit is permitted by the permission matrix on the database they
commit to.
-/

namespace TaskPlatform

open Transaction Database

/-- The permission matrix for a new status. -/
def StatusPermitted (d : Database) (actor : Id) (task : Task) (status : TaskStatus) : Prop :=
  d.roleOf task.workspaceId actor = some .owner ∨
    d.roleOf task.workspaceId actor = some .admin ∨
    (d.roleOf task.workspaceId actor = some .member ∧ task.assigneeId = some actor ∧
      ((task.status = .todo ∧ status = .inProgress) ∨
        (task.status = .inProgress ∧ status = .done)))

/-- The permission matrix for a new assignee. -/
def AssigneePermitted (d : Database) (actor : Id) (task : Task) (assignee : Option Id) : Prop :=
  task.status ≠ .done ∧
    (((d.roleOf task.workspaceId actor = some .owner ∨
          d.roleOf task.workspaceId actor = some .admin) ∧
        ∀ a ∈ assignee, (d.member? task.workspaceId a).isSome) ∨
      (d.roleOf task.workspaceId actor = some .member ∧
        ((task.assigneeId = none ∧ assignee = some actor) ∨
          (task.assigneeId = some actor ∧ assignee = none))))

theorem statusPermitted_of_decide {d : Database} {actor : Id} {m : WorkspaceMember}
    {row : Task} {status : TaskStatus} (hm : d.member? row.workspaceId actor = some m)
    (h : decideStatus m.role actor row status = .change) :
    StatusPermitted d actor row status := by
  obtain ⟨hchange, hvalid, hne⟩ := decideStatus_change h
  have hrole : d.roleOf row.workspaceId actor = some m.role := by
    rw [roleOf, hm]
    rfl
  unfold StatusPermitted
  rw [hrole]
  rcases canChangeTaskStatus_iff.mp hchange with howner | hadmin | ⟨hmember, hassignee⟩
  · exact Or.inl (by rw [howner])
  · exact Or.inr (Or.inl (by rw [hadmin]))
  · refine Or.inr (Or.inr ⟨by rw [hmember], hassignee, ?_⟩)
    rw [hmember] at hvalid
    rcases isValidStatusTransition_iff.mp hvalid with heq | hr | hr | hstep | hstep
    · exact absurd heq hne
    · cases hr
    · cases hr
    · exact Or.inl hstep
    · exact Or.inr hstep

theorem assigneePermitted_of_decide {d : Database} {actor : Id} {m : WorkspaceMember}
    {row : Task} {requested : Option Id} {locked : List WorkspaceMember}
    (hm : d.member? row.workspaceId actor = some m)
    (hlocked : ∀ a x, membershipOf locked a = some x → d.member? row.workspaceId a = some x)
    (h : decideAssignee m.role actor row requested locked = .change) :
    AssigneePermitted d actor row requested := by
  obtain ⟨_, hdone, hcases⟩ := decideAssignee_change h
  have hrole : d.roleOf row.workspaceId actor = some m.role := by
    rw [roleOf, hm]
    rfl
  refine ⟨hdone, ?_⟩
  rw [hrole]
  rcases hcases with ⟨hmanager, hall⟩ | hclaim | hrelease
  · refine Or.inl ⟨?_, fun a ha => ?_⟩
    · rcases canChangeTaskAssignee_iff.mp hmanager with hr | hr
      · exact Or.inl (by rw [hr])
      · exact Or.inr (by rw [hr])
    · obtain ⟨x, hx⟩ := Option.isSome_iff_exists.mp (hall a ha)
      rw [hlocked a x hx]
      rfl
  · obtain ⟨hr, hreq, hnone⟩ := canSelfClaimTask_iff.mp hclaim
    exact Or.inr ⟨by rw [hr], Or.inl ⟨hnone, hreq⟩⟩
  · obtain ⟨hr, hreq, hown⟩ := canSelfReleaseTask_iff.mp hrelease
    exact Or.inr ⟨by rw [hr], Or.inr ⟨hown, hreq⟩⟩

/-- A task changes as a workflow request asked for, and the matrix permits it. -/
def WorkflowPermitted (request : Request) (actor : Id) (d d' : Database) (t : Id) : Prop :=
  ∃ row now, d.task? t = some row ∧
    match request with
    | .updateTaskStatus _ w t' (some body) =>
      t = t' ∧ row.workspaceId = w ∧ StatusPermitted d actor row body.status ∧
        d'.task? t = some { row with status := body.status, updatedAt := now }
    | .updateTaskAssignee _ w t' (some body) =>
      t = t' ∧ row.workspaceId = w ∧ AssigneePermitted d actor row body.assigneeId ∧
        d'.task? t = some { row with assigneeId := body.assigneeId, updatedAt := now }
    | _ => False

/-- The requests the permission matrix of this module is about. -/
def Request.isWorkflow : Request → Bool
  | updateTaskStatus _ _ _ _ | updateTaskAssignee _ _ _ _ => true
  | _ => false

section Workflow

variable [Collation]

def workflowGuarantee (request : Request) (l : Session) (d : Database) (_ : Session)
    (d' : Database) : Prop :=
  request.isWorkflow = true → ∀ t, d'.task? t ≠ d.task? t →
    ∃ actor, l.actor? request = some actor ∧ WorkflowPermitted request actor.id d d' t

abbrev workflowProtocol : Protocol Request Session Database RowKey :=
  lockProtocol (fun _ => True) workflowGuarantee

theorem workflow_tolerates (request : Request) : Tolerates workflowProtocol request := by
  refine lockProtocol_tolerates (fun _ _ _ _ _ => trivial) fun l d l' d' _ he hw t ht => ?_
  cases he with
  | quiet h => exact absurd (h.task? t).symm ht
  | commit snap hview _ _ h hd' =>
      subst hd'
      rw [Session.current] at ht ⊢
      generalize l.writes = ws at h ht
      have hactor : ∀ subject user, request.subject = subject →
          snap.actor? subject = some user → l.actor? request = some user := by
        intro subject user hs hu
        rw [Session.actor?, hview, hs]
        exact hu
      cases h with
      | @updateTaskStatus subject w t' body user _ m row now ha hm hrow hdecide =>
          obtain ⟨htask, hworkspace⟩ := taskIn?_eq_some.mp hrow
          have hid : row.id = t' := id_of_task? htask
          by_cases heq : t = t'
          · subst heq
            rw [← hworkspace] at hm
            refine ⟨user, hactor _ _ rfl ha.token, row, now, htask, rfl, hworkspace,
              statusPermitted_of_decide hm hdecide, ?_⟩
            exact (task?_putTask d _ t).trans (if_pos hid.symm)
          · exact absurd ((task?_putTask d _ t).trans (if_neg (by rwa [hid]))) ht
      | @updateTaskAssignee subject w t' body user _ m row locked now ha hm hlocked hrow
          hdecide =>
          obtain ⟨htask, hworkspace⟩ := taskIn?_eq_some.mp hrow
          have hid : row.id = t' := id_of_task? htask
          by_cases heq : t = t'
          · subst heq
            rw [← hworkspace] at hm hlocked
            refine ⟨user, hactor _ _ rfl ha.token, row, now, htask, rfl, hworkspace,
              assigneePermitted_of_decide hm.1 (fun a x hx => (hlocked a x hx).1) hdecide, ?_⟩
            exact (task?_putTask d _ t).trans (if_pos hid.symm)
          · exact absurd ((task?_putTask d _ t).trans (if_neg (by rwa [hid]))) ht
      | _ => cases hw

/-- In every interleaving, a commit of a status or assignee request that changes a
task changes the one it names, as it asked, and the permission matrix allows that
on the database the commit finds. -/
theorem workflow_commit_permitted {d : Database}
    {σ σ' : System Request Call Call.Res Response Session Database} {i : Nat}
    {request : Request} {l l' : Session}
    (hr : System.Reachable Session.machine workload (fun _ => True)
      (fun _ _ _ _ _ => True) d σ)
    (hs : System.CallStep Session.machine i request l l' σ σ')
    (hw : request.isWorkflow = true) {t : Id} (ht : σ'.shared.task? t ≠ σ.shared.task? t) :
    ∃ actor, l.actor? request = some actor ∧
      WorkflowPermitted request actor.id σ.shared σ'.shared t := by
  have hc := coherent_of_requests (lockProtocol_sound _ _)
    (fun request _ => workflow_tolerates request) trivial hr
  exact (Protocol.callStep_guarantees hc hs trivial).guar hw t ht

end Workflow

/-! ### A member claims an unassigned task -/

def claimRequest : Request := .updateTaskAssignee (some "member") 1 1 (some ⟨some 2, by decide⟩)

/-- The claim with everything done but its commit. -/
def claimInProgress : Progress Call Call.Res Response Session Database :=
  (@Session.machine sampleCollation).advanceN (fun _ => sampleEnv) 9
    ⟨claimRequest.program, {}, sampleDatabase⟩

theorem workflow_commit_permitted_claim :
    ∃ actor, @Session.actor? sampleCollation claimInProgress.loc claimRequest = some actor ∧
      WorkflowPermitted claimRequest actor.id claimInProgress.shared
        ((@Session.machine sampleCollation).advance sampleEnv claimInProgress).shared 1 := by
  let _ := sampleCollation
  have hr : System.Reachable Session.machine workload (fun _ => True) (fun _ _ _ _ _ => True)
      sampleDatabase (System.solo 0 claimRequest claimInProgress) := by
    rw [claimInProgress]
    exact System.reachable_advanceN (fun _ _ _ _ => trivial) _ 9 (System.reachable_spawn trivial)
  have hcall : claimInProgress.prog.isCall = true := by decide +kernel
  have hchange : (Session.machine.advance sampleEnv claimInProgress).shared.task? 1 ≠
      claimInProgress.shared.task? 1 := by decide +kernel
  have hs : System.CallStep Session.machine 0 claimRequest claimInProgress.loc
      (Session.machine.advance sampleEnv claimInProgress).loc
      (System.solo 0 claimRequest claimInProgress)
      (System.solo 0 claimRequest (Session.machine.advance sampleEnv claimInProgress)) :=
    System.callStep_advance sampleEnv hcall
  exact workflow_commit_permitted hr hs rfl hchange

end TaskPlatform
