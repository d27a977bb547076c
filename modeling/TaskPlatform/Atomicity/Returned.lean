import TaskPlatform.Atomicity.Services

/-!
# All or nothing

The nine write services under any failures and any interference, and what they return
when nobody interferes.
-/

namespace TaskPlatform

open Transaction Service Database Relational

/-- A write service with its access context and its arguments. -/
inductive WriteOperation where
  | createWorkspace (user : User) (name : String)
  | addMember (access : WorkspaceAccess) (username : String) (role : MemberRole)
  | updateMemberRole (access : WorkspaceAccess) (userId : Id) (role : MemberRole)
  | removeMember (access : WorkspaceAccess) (userId : Id)
  | createTask (access : WorkspaceAccess) (data : TaskCreate)
  | updateTask (access : WorkspaceTaskAccess) (data : TaskUpdate)
  | deleteTask (access : WorkspaceTaskAccess)
  | updateTaskStatus (access : WorkspaceTaskAccess) (data : TaskStatusUpdate)
  | updateTaskAssignee (access : WorkspaceTaskAccess) (data : TaskAssigneeUpdate)

def WriteOperation.service : WriteOperation → Service Body
  | createWorkspace user name => do return .workspace (← TaskPlatform.createWorkspace user name)
  | addMember access username role => do
    return .member (← TaskPlatform.addMember access username role)
  | updateMemberRole access userId role => do
    return .member (← TaskPlatform.updateMemberRole access userId role)
  | removeMember access userId => do
    TaskPlatform.removeMember access userId
    return .noContent
  | createTask access data => do return .task (← TaskPlatform.createTask access data)
  | updateTask access data => do return .task (← TaskPlatform.updateTask access data)
  | deleteTask access => do
    TaskPlatform.deleteTask access
    return .noContent
  | updateTaskStatus access data => do
    return .task (← TaskPlatform.updateTaskStatus access data)
  | updateTaskAssignee access data => do
    return .task (← TaskPlatform.updateTaskAssignee access data)

/-- The service in its session, which is closed however the service ends. -/
def WriteOperation.program (op : WriteOperation) : Prog Call Call.Res Response :=
  op.service.run >>= fun response => .call .close fun _ => .ret response

theorem WriteOperation.commitsLast (op : WriteOperation) : CommitsLast op.service := by
  cases op with
  | createWorkspace user name => exact commitsLast_map (createWorkspace_commitsLast user name) _
  | addMember access username role =>
      exact commitsLast_map (addMember_commitsLast access username role) _
  | updateMemberRole access u role =>
      exact commitsLast_map (updateMemberRole_commitsLast access u role) _
  | removeMember access u => exact commitsLast_map (removeMember_commitsLast access u) _
  | createTask access data => exact commitsLast_map (createTask_commitsLast access data) _
  | updateTask access data => exact commitsLast_map (updateTask_commitsLast access data) _
  | deleteTask access => exact commitsLast_map (deleteTask_commitsLast access) _
  | updateTaskStatus access data =>
      exact commitsLast_map (updateTaskStatus_commitsLast access data) _
  | updateTaskAssignee access data =>
      exact commitsLast_map (updateTaskAssignee_commitsLast access data) _

/-! ## Data and committed rows -/

/-- The snapshot of a session, if it is open, has the committed rows. -/
def Session.Aligned (l : Session) (d : Database) : Prop :=
  ∀ snap, l.readView = some snap → SameRows snap d

section Alone

variable [Collation] {α β : Type} {l l' : Session} {d d' : Database}

omit [Collation] in
theorem sameRows_apply (h : SameRows d d') (w : Write) : SameRows (d.apply w) (d'.apply w) := by
  obtain ⟨hu, hw, hm, ht⟩ := h
  cases w with
  | putUser u => exact ⟨congrArg (·.put u) hu, hw, hm, ht⟩
  | putWorkspace ws => exact ⟨hu, congrArg (·.put ws) hw, hm, ht⟩
  | putMember m => exact ⟨hu, hw, congrArg (·.put m) hm, ht⟩
  | deleteMember w u => exact ⟨hu, hw, congrArg (·.erase (memberKey w u)) hm, ht⟩
  | putTask t => exact ⟨hu, hw, hm, congrArg (·.put t) ht⟩
  | deleteTask t => exact ⟨hu, hw, hm, congrArg (·.erase t) ht⟩

omit [Collation] in
theorem sameRows_applyAll (h : SameRows d d') (ws : List Write) :
    SameRows (d.applyAll ws) (d'.applyAll ws) := by
  induction ws generalizing d d' with
  | nil => exact h
  | cons w ws ih => exact ih (sameRows_apply h w)

omit [Collation] in
/-- Plain reads see the rows locking reads see. -/
theorem Session.Aligned.view (h : l.Aligned d) : SameRows (l.view d) (l.current d) := by
  refine sameRows_applyAll ?_ l.writes
  cases hview : l.readView with
  | none => exact SameRows.refl d
  | some snap => exact h snap hview

theorem aligned_exec (h : l.Aligned d) {env : Env} {c : Call} {r : c.Res}
    (hx : Session.exec env c l d = (r, l', d')) (hc : c.isWork) : l'.Aligned d' := by
  have hrows : SameRows d d' := by
    rw [show d' = (Session.exec env c l d).2.2 by rw [hx]]
    exact Session.exec_sameRows hc.1
  have hext : Session.Extends l d l' := by
    rw [show l' = (Session.exec env c l d).2.1 by rw [hx]]
    exact Session.extends_exec hc
  intro snap hsnap
  rcases hext.readView with hview | hview
  · exact (h snap (hview.symm.trans hsnap)).trans hrows
  · rw [hview, Option.some.injEq] at hsnap
    subst hsnap
    cases hopen : l.readView with
    | none => exact hrows
    | some old => exact (h old hopen).trans hrows

end Alone

/-! ## All or nothing -/

end TaskPlatform
