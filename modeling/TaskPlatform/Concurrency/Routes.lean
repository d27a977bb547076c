import TaskPlatform.Concurrency.MemberServices
import TaskPlatform.Concurrency.TaskServices

/-!
# Every request keeps every protocol that tolerates it

The services under the dependencies of their routes, and from them the program of
each request.
-/

namespace TaskPlatform

open Transaction Database

variable [Collation] {P : Protocol Request Session Database RowKey} {request : Request}
  {d : Database}

theorem route_safe (hS : Sound P) (hT : Tolerates P request) :
    Safe P request request.route (fun _ _ _ => True) {} d := by
  cases request with
  | createUser ip body =>
      refine safe_bind (safe_enforceAuthLimit hT fun d' _ => safe_bind ?_)
      refine safe_validBody fun data hdata => safe_bind ?_
      subst hdata
      exact safe_mono (createUser_safe hS hT) fun _ _ _ _ => trivial
  | login ip username password =>
      refine safe_bind (safe_enforceAuthLimit hT fun d' _ => safe_bind (safe_bind ?_))
      refine safe_getUserByUsername hT fun _ _ => safe_bind (safe_orRaise fun user _ => ?_)
      refine safe_bind (safe_mono (safe_ignored hT (by nofun)) fun _ _ _ _ => ?_)
      exact safe_bind (safe_raiseIf fun _ => trivial)
  | getMe subject => exact safe_bind (safe_getCurrentUser hT fun _ _ _ _ => trivial)
  | createWorkspace subject body =>
      refine safe_bind (safe_getCurrentUser hT fun snap user hsnap huser => safe_bind ?_)
      refine safe_enforceWriteLimit hT fun d' hd => safe_bind ?_
      refine safe_validBody fun data hdata => safe_bind ?_
      subst hdata
      have hview : ReadView P snap (Session.openView {} snap) d' :=
        ⟨rfl, hsnap.inv, hd.evolve⟩
      exact safe_mono (createWorkspace_safe hS hT hview rfl huser) fun _ _ _ _ => trivial
  | listWorkspaces subject page =>
      refine safe_bind (safe_getCurrentUser hT fun snap user _ _ => safe_bind ?_)
      refine safe_validBody fun page _ => safe_bind (safe_bind ?_)
      exact safe_select hT fun _ _ => safe_bind (safe_select hT fun _ _ => trivial)
  | getWorkspace subject w =>
      refine safe_bind (safe_workspaceAccess hT fun access snap m l d ha _ => safe_bind ?_)
      exact safe_bind (safe_membershipRole hT ha fun _ _ => trivial)
  | listMembers subject w page =>
      refine safe_bind (safe_workspaceAccess hT fun access snap m l d _ _ => safe_bind ?_)
      refine safe_validBody fun page _ => safe_bind (safe_bind ?_)
      exact safe_select hT fun _ _ => safe_bind (safe_select hT fun _ _ => trivial)
  | addMember subject w body =>
      refine safe_bind (safe_limitedRoleAccess hT fun access snap m l d ha _ => safe_bind ?_)
      refine safe_validBody fun data hdata => safe_bind ?_
      subst hdata
      exact safe_mono (addMember_safe hS hT ha) fun _ _ _ _ => trivial
  | updateMemberRole subject w u body =>
      refine safe_bind (safe_limitedRoleAccess hT fun access snap m l d ha _ => safe_bind ?_)
      refine safe_validBody fun data hdata => safe_bind ?_
      subst hdata
      exact safe_mono (updateMemberRole_safe hS hT ha) fun _ _ _ _ => trivial
  | removeMember subject w u =>
      refine safe_bind (safe_limitedRoleAccess hT fun access snap m l d ha _ => safe_bind ?_)
      exact safe_mono (removeMember_safe hS hT ha) fun _ _ _ _ => trivial
  | listTasks subject w query =>
      refine safe_bind (safe_workspaceAccess hT fun access snap m l d _ _ => safe_bind ?_)
      refine safe_validBody fun query _ => safe_bind (safe_bind ?_)
      exact safe_select hT fun _ _ => safe_bind (safe_select hT fun _ _ => trivial)
  | createTask subject w body =>
      refine safe_bind (safe_limitedWorkspaceAccess hT fun access snap m l d ha => safe_bind ?_)
      refine safe_validBody fun data hdata => safe_bind ?_
      subst hdata
      exact safe_mono (createTask_safe hS hT ha) fun _ _ _ _ => trivial
  | getTask subject w t => exact safe_bind (safe_taskAccess hT fun _ _ _ _ _ _ => trivial)
  | updateTask subject w t body =>
      refine safe_bind (safe_limitedTaskAccess hT fun access snap m l d ha => safe_bind ?_)
      refine safe_validBody fun data hdata => safe_bind ?_
      subst hdata
      exact safe_mono (updateTask_safe hS hT ha) fun _ _ _ _ => trivial
  | updateTaskStatus subject w t body =>
      refine safe_bind (safe_limitedTaskAccess hT fun access snap m l d ha => safe_bind ?_)
      refine safe_validBody fun data hdata => safe_bind ?_
      subst hdata
      exact safe_mono (updateTaskStatus_safe hS hT ha) fun _ _ _ _ => trivial
  | updateTaskAssignee subject w t body =>
      refine safe_bind (safe_limitedTaskAccess hT fun access snap m l d ha => safe_bind ?_)
      refine safe_validBody fun data hdata => safe_bind ?_
      subst hdata
      exact safe_mono (updateTaskAssignee_safe hS hT ha) fun _ _ _ _ => trivial
  | deleteTask subject w t =>
      refine safe_bind (safe_limitedTaskAccess hT fun access snap m l d ha => safe_bind ?_)
      exact safe_mono (deleteTask_safe hS hT ha) fun _ _ _ _ => trivial

theorem request_verified (hS : Sound P) (hT : Tolerates P request) :
    P.Verified Session.machine request request.program {} d := by
  have hroute : Safe P request request.route (fun _ _ _ => True) {} d := route_safe hS hT
  refine (wp_bind _ _ _ _ _ _ _).mpr (wp_mono _ _ (fun response l d _ => ?_) hroute)
  intro d' hd env ha
  exact ⟨hT _ _ _ _ hd.inv ha (.quiet (SameRows.refl d')), trivial⟩

/-- Whatever a protocol tolerates of each request holds of every interleaving of
any number of them. -/
theorem coherent_of_requests (hS : Sound P) {allowed : Request → Prop}
    (hT : ∀ request, allowed request → Tolerates P request) (hd : P.inv d)
    {σ : System Request Call Call.Res Response Session Database}
    (hr : System.Reachable Session.machine workload allowed P.assume d σ) :
    P.Coherent Session.machine σ := by
  refine Protocol.coherent_of_reachable (fun k hk => ?_)
    (fun request d hadmit _ => request_verified hS (hT request hadmit)) hd hr
  rcases hk with hk | ⟨_, hw, _⟩
  · cases hk
  · cases hw

end TaskPlatform
