import TaskPlatform.Concurrency.ColumnCalls
import TaskPlatform.Serial.Edits

/-!
# Edits beside workflow changes

General edits and the requests that change status and assignees go on side by side
without overwriting each other: leave the one kind out of a schedule, and the other comes
to the same columns.
-/

namespace TaskPlatform

open Transaction Service Database Relational

/-- The columns that workflow requests change. -/
def Task.progress (t : Task) : TaskStatus × Option Id := (t.status, t.assigneeId)

/-! ## The requests of a group -/

/-- The requests that change the columns of a group and no others of a task. -/
def Request.Changes : Columns → Request → Prop
  | .content, .updateTask _ _ _ _ => True
  | .workflow, .updateTaskStatus _ _ _ _ | .workflow, .updateTaskAssignee _ _ _ _
  | .workflow, .removeMember _ _ _ => True
  | _, _ => False

section Texts

variable {g : Columns} {α β : Type} {e : AppException}

/-- Services side by side. -/
abbrev Pairs (g : Columns) (Q : α → β → Prop) (x : Service α) (x' : Service β) : Prop :=
  FollowsE (columnPairing g) Q x x'

theorem pairs_raise (Q : α → β → Prop) (x' : Service β) : Pairs g Q (raise e) x' :=
  followsE_throw _ x'

theorem pairs_raiseIf {c : Prop} [Decidable c] :
    Pairs g (fun _ _ => True) (raiseIf c e) (raiseIf c e) := by
  unfold raiseIf
  split
  · exact pairs_raise _ _
  · exact followsE_pure trivial

theorem pairs_orRaise {Q : α → β → Prop} {o : Option α} {o' : Option β} (h : Option.Rel Q o o') :
    Pairs g Q (orRaise o e) (orRaise o' e) := by
  cases h with
  | none => exact pairs_raise _ _
  | some h => exact followsE_pure h

theorem pairs_found (o : Option α) : Pairs g Eq (orRaise o e) (orRaise o e) := by
  cases o with
  | none => exact pairs_raise _ _
  | some a => exact followsE_pure rfl

theorem pairs_call (c : Call) (hc : c.MayIssue g)
    (hmissing : ∀ v, ¬ c.Missing v) : Pairs g (c.SameVal g) (call c) (call c) := by
  refine .call hc (fun r hr => ?_) ?_
  · cases r with
    | ok v => exact absurd (hr.2 v rfl) (hmissing v)
    | error e => exact .ret _
  · rintro _ _ ⟨v, v', rfl, rfl, hv⟩
    exact .ret hv

theorem pairs_rollbackOnSqlError {Q : α → β → Prop} {x : Service α} {x' : Service β}
    (h : Pairs g Q x x') : Pairs g Q (rollbackOnSqlError x) (rollbackOnSqlError x') := by
  refine followsE_tryCatch h fun e => ?_
  cases e with
  | sql e => exact fails_rollback (fails_throw _)
  | app e => exact fails_throw _
  | validation => exact fails_throw _

theorem pairs_rollbackOnError {Q : α → β → Prop} {x : Service α} {x' : Service β}
    (h : Pairs g Q x x') : Pairs g Q (rollbackOnError x) (rollbackOnError x') := by
  refine followsE_tryCatch h fun e => ?_
  cases e with
  | sql e => exact fails_rollback (fails_throw _)
  | app e => exact fails_rollback (fails_throw _)
  | validation => exact fails_throw _

theorem pairs_saveTask (t : Id) {patch : TaskPatch} (hp : patch.Within g) :
    Pairs g (fun _ _ => True) (saveTask t patch) (saveTask t patch) := by
  refine followsE_bind (pairs_call (.flushTask t patch) hp fun _ => id) fun _ _ _ => ?_
  refine followsE_bind (pairs_call (.refreshTask t) trivial fun _ => id) fun _ _ _ => ?_
  refine followsE_bind (pairs_call .commit trivial fun _ => id) fun _ _ _ => ?_
  exact followsE_pure trivial

theorem pairs_keepTask (task task' : Task) :
    Pairs g (fun _ _ => True) (keepTask task) (keepTask task') := by
  refine followsE_bind (pairs_call .commit trivial fun _ => id) fun _ _ _ => ?_
  exact followsE_pure trivial

theorem pairs_getCurrentUser (subject : Option String) :
    Pairs g Eq (getCurrentUser subject) (getCurrentUser subject) := by
  refine followsE_bind (pairs_found subject) fun username username' hname => ?_
  subst hname
  refine followsE_bind (pairs_call (.select (.userByUsername username)) trivial fun _ => id)
    fun user user' huser => ?_
  have huser : user = user' := huser
  subst huser
  exact pairs_found user

/-- The workspace that is not found ends the request of the full run. -/
theorem pairs_getWorkspaceAccess (w : Id) (user : User) :
    Pairs g Eq (getWorkspaceAccess w user) (getWorkspaceAccess w user) := by
  refine .call trivial (fun r hr => ?_) ?_
  · cases r with
    | error e => exact .ret _
    | ok v =>
        cases v with
        | none => exact .ret _
        | some row => exact (hr.2 _ rfl).elim
  · rintro _ _ ⟨v, v', rfl, rfl, hv⟩
    have hv : v = v' := hv
    subst hv
    cases v with
    | none => exact .fails (.ret _)
    | some row => exact .ret rfl

theorem pairs_workspaceAccess (subject : Option String) (w : Id) :
    Pairs g Eq (workspaceAccess subject w) (workspaceAccess subject w) := by
  refine followsE_bind (pairs_getCurrentUser subject) fun user user' huser => ?_
  subst huser
  exact pairs_getWorkspaceAccess w user

theorem pairs_membershipRole (access : WorkspaceAccess) :
    Pairs g Eq access.membershipRole access.membershipRole := by
  refine followsE_bind (pairs_call (.memberAttributes access.workspace.id access.currentUser.id)
    trivial fun _ => id) fun m m' hm => ?_
  exact followsE_pure (congrArg WorkspaceMember.role hm)

theorem pairs_enforceWriteLimit (u : Id) (scope : Scope) (w : Option Id) :
    Pairs g (fun _ _ => True) (enforceWriteLimit u scope w) (enforceWriteLimit u scope w) := by
  refine followsE_bind (pairs_call (.checkRateLimit (.write u scope w)) trivial fun _ => id)
    fun decision decision' hdecision => ?_
  have hdecision : decision = decision' := hdecision
  subst hdecision
  cases enforceWriteRateLimit decision with
  | ok _ => exact followsE_pure trivial
  | error e => exact pairs_raise _ _

/-- What two accesses to one task agree on. -/
structure SameAccess (g : Columns) (access access' : WorkspaceTaskAccess) : Prop where
  workspaceAccess : access.workspaceAccess = access'.workspaceAccess
  task : SameTask g access.task access'.task

theorem pairs_limitedTaskAccess (scope : Scope) (subject : Option String) (w t : Id) :
    Pairs g (SameAccess g) (limitedTaskAccess scope subject w t)
      (limitedTaskAccess scope subject w t) := by
  have htask : Pairs g (SameAccess g) (taskAccess subject w t) (taskAccess subject w t) := by
    refine followsE_bind (pairs_workspaceAccess subject w) fun access access' haccess => ?_
    subst haccess
    refine followsE_bind (pairs_call (.select (.taskIn t w)) trivial fun _ => id)
      fun row row' hrow => ?_
    refine followsE_bind (pairs_orRaise hrow) fun task task' htask => ?_
    exact followsE_pure ⟨rfl, htask⟩
  refine followsE_bind htask fun access access' haccess => ?_
  rw [haccess.workspaceAccess]
  refine followsE_bind (pairs_enforceWriteLimit _ scope _) fun _ _ _ => ?_
  exact followsE_pure haccess

theorem pairs_updateTask {access access' : WorkspaceTaskAccess}
    (h : SameAccess .content access access') (data : TaskUpdate) :
    Pairs .content (fun _ _ => True) (updateTask access data) (updateTask access' data) := by
  unfold updateTask
  rw [h.workspaceAccess, h.task.creatorId, h.task.id]
  refine followsE_bind (pairs_membershipRole _) fun role role' hrole => ?_
  subst hrole
  refine followsE_bind pairs_raiseIf fun _ _ _ => ?_
  exact pairs_rollbackOnSqlError (pairs_saveTask _ ⟨rfl, rfl⟩)

theorem pairs_lockMembershipRows (w : Id) (us : List Id) :
    Pairs .workflow Eq (lockMembershipRows w us) (lockMembershipRows w us) := by
  induction us with
  | nil => exact followsE_pure rfl
  | cons u rest ih =>
      refine followsE_bind (pairs_call (.lockMember w u) rfl fun _ => id) fun row row' hrow => ?_
      have hrow : row = row' := hrow
      subst hrow
      refine followsE_bind ih fun rows rows' hrows => ?_
      exact followsE_pure (congrArg (row.toList ++ ·) hrows)

theorem pairs_lockTask (w t : Id) :
    Pairs g (SameTask g) (TaskPlatform.lockTask w t) (TaskPlatform.lockTask w t) := by
  refine followsE_bind (pairs_call (.lockTask w t) trivial fun _ => id) fun row row' hrow => ?_
  exact pairs_orRaise hrow

theorem decideStatus_congr {task task' : Task} (h : SameTask .workflow task task')
    (role : MemberRole) (actor : Id) (status : TaskStatus) :
    decideStatus role actor task status = decideStatus role actor task' status := by
  simp only [decideStatus, h.status, h.assigneeId]

theorem decideAssignee_congr {task task' : Task} (h : SameTask .workflow task task')
    (role : MemberRole) (actor : Id) (requested : Option Id) (locked : List WorkspaceMember) :
    decideAssignee role actor task requested locked =
      decideAssignee role actor task' requested locked := by
  simp only [decideAssignee, h.status, h.assigneeId]

/-- Act on a decision about the locked task. -/
theorem pairs_decided {decision : Decision} {task task' : Task}
    (h : SameTask .workflow task task') {patch : TaskPatch} (hp : patch.Within .workflow) :
    Pairs .workflow (fun _ _ => True)
      (match decision with
        | .refuse e => raise e
        | .keep => keepTask task
        | .change => saveTask task.id patch)
      (match decision with
        | .refuse e => raise e
        | .keep => keepTask task'
        | .change => saveTask task'.id patch) := by
  cases decision with
  | refuse e => exact pairs_raise _ _
  | keep => exact pairs_keepTask task task'
  | change =>
      rw [h.id]
      exact pairs_saveTask _ hp

theorem pairs_updateTaskStatus {access access' : WorkspaceTaskAccess}
    (h : SameAccess .workflow access access') (data : TaskStatusUpdate) :
    Pairs .workflow (fun _ _ => True) (updateTaskStatus access data)
      (updateTaskStatus access' data) := by
  unfold updateTaskStatus
  rw [h.workspaceAccess, h.task.id]
  refine pairs_rollbackOnError ?_
  refine followsE_bind (pairs_lockMembershipRows _ _) fun locked locked' hlocked => ?_
  subst hlocked
  refine followsE_bind (pairs_found _) fun m m' hm => ?_
  subst hm
  refine followsE_bind (pairs_lockTask _ _) fun task task' htask => ?_
  rw [decideStatus_congr htask]
  exact pairs_decided htask ⟨rfl, rfl, rfl⟩

theorem pairs_updateTaskAssignee {access access' : WorkspaceTaskAccess}
    (h : SameAccess .workflow access access') (data : TaskAssigneeUpdate) :
    Pairs .workflow (fun _ _ => True) (updateTaskAssignee access data)
      (updateTaskAssignee access' data) := by
  unfold updateTaskAssignee
  rw [h.workspaceAccess, h.task.id]
  refine pairs_rollbackOnError ?_
  refine followsE_bind (pairs_membershipRole _) fun role role' hrole => ?_
  subst hrole
  refine followsE_bind pairs_raiseIf fun _ _ _ => ?_
  refine followsE_bind (pairs_lockMembershipRows _ _) fun locked locked' hlocked => ?_
  subst hlocked
  refine followsE_bind (pairs_found _) fun m m' hm => ?_
  subst hm
  refine followsE_bind pairs_raiseIf fun _ _ _ => ?_
  refine followsE_bind (pairs_lockTask _ _) fun task task' htask => ?_
  rw [decideAssignee_congr htask]
  exact pairs_decided htask ⟨rfl, rfl, rfl⟩

theorem pairs_clearUnfinishedTasks (w u : Id) :
    Pairs .workflow (fun _ _ => True) (clearUnfinishedTasks w u) (clearUnfinishedTasks w u) := by
  refine followsE_bind (pairs_call .utcNow trivial fun _ => id) fun now now' hnow => ?_
  have hnow : now = now' := hnow
  subst hnow
  refine followsE_bind (pairs_call (.scanTasks w) trivial fun _ => id) fun ids ids' hids => ?_
  have hids : ids = ids' := hids
  subst hids
  exact followsE_forM fun t =>
    (pairs_call (.clearAssignee w u t now) rfl fun _ => id).mono fun _ _ _ => trivial

theorem pairs_removeMember (access : WorkspaceAccess) (u : Id) :
    Pairs .workflow (fun _ _ => True) (removeMember access u) (removeMember access u) := by
  refine pairs_rollbackOnError ?_
  refine followsE_bind (pairs_call (.lockMember _ u) rfl fun _ => id) fun row row' hrow => ?_
  have hrow : row = row' := hrow
  subst hrow
  refine followsE_bind (pairs_found _) fun m m' hm => ?_
  subst hm
  refine followsE_bind (pairs_membershipRole _) fun role role' hrole => ?_
  subst hrole
  cases removalRefused role m.role with
  | some e => exact pairs_raise _ _
  | none =>
      refine followsE_bind (pairs_clearUnfinishedTasks _ u) fun _ _ _ => ?_
      refine followsE_bind (pairs_call (.deleteMember _ u) rfl fun _ => id) fun _ _ _ => ?_
      exact (pairs_call .commit trivial fun _ => id).mono fun _ _ _ => trivial

theorem pairs_validBody (body : Option α) : Pairs g Eq (validBody body) (validBody body) := by
  cases body with
  | none => exact followsE_throw _ _
  | some data => exact followsE_pure rfl

/-- A route that takes a task and a body. -/
theorem pairs_taskRoute (scope : Scope) (subject : Option String) (w t : Id) (body : Option α)
    {service : WorkspaceTaskAccess → α → Service TaskResponse}
    (h : ∀ access access' data, SameAccess g access access' →
      Pairs g (fun _ _ => True) (service access data) (service access' data)) :
    let route : Service Body := do
      let access ← limitedTaskAccess scope subject w t
      let data ← validBody body
      return .task (← service access data)
    Pairs g (fun _ _ => True) route route := by
  refine followsE_bind (pairs_limitedTaskAccess scope subject w t) fun access access' ha => ?_
  refine followsE_bind (pairs_validBody body) fun data data' hdata => ?_
  subst hdata
  refine followsE_bind (h access access' data ha) fun _ _ _ => ?_
  exact followsE_pure trivial

theorem pairs_limitedRoleAccess (scope : Scope) (roles : List MemberRole)
    (subject : Option String) (w : Id) :
    Pairs g Eq (limitedRoleAccess scope roles subject w)
      (limitedRoleAccess scope roles subject w) := by
  refine followsE_bind (pairs_workspaceAccess subject w) fun access access' haccess => ?_
  subst haccess
  have hroles : Pairs g (fun _ _ => True) (requireWorkspaceRoles roles access)
      (requireWorkspaceRoles roles access) := by
    refine followsE_bind (pairs_membershipRole access) fun role role' hrole => ?_
    subst hrole
    exact pairs_raiseIf
  refine followsE_bind hroles fun _ _ _ => ?_
  refine followsE_bind (pairs_enforceWriteLimit _ scope _) fun _ _ _ => ?_
  exact followsE_pure rfl

theorem pairs_route {request : Request} (h : request.Changes g) :
    Pairs g (fun _ _ => True) request.route request.route := by
  cases g with
  | content =>
      cases request with
      | updateTask subject w t body =>
          exact pairs_taskRoute .taskUpdate subject w t body fun _ _ data ha =>
            pairs_updateTask ha data
      | _ => exact h.elim
  | workflow =>
      cases request with
      | updateTaskStatus subject w t body =>
          exact pairs_taskRoute .taskStatus subject w t body fun _ _ data ha =>
            pairs_updateTaskStatus ha data
      | updateTaskAssignee subject w t body =>
          exact pairs_taskRoute .taskAssignee subject w t body fun _ _ data ha =>
            pairs_updateTaskAssignee ha data
      | removeMember subject w u =>
          refine followsE_bind (pairs_limitedRoleAccess .memberRemove [.owner, .admin] subject w)
            fun access access' haccess => ?_
          subst haccess
          refine followsE_bind (pairs_removeMember access u) fun _ _ _ => ?_
          exact followsE_pure trivial
      | _ => exact h.elim

theorem follows_program {request : Request} (h : request.Changes g) :
    Follows (columnPairing g) (fun _ _ => True) request.program request.program := by
  refine Follows.bind (pairs_route h) (fun b b' _ => ?_) fun e => fails_closing e
  refine .call trivial (fun r hr => absurd rfl hr.1) ?_
  rintro _ _ _
  exact .ret trivial

end Texts

/-! ## The requests that are left out -/

section Dropped

variable [Collation] {g : Columns} {request : Request} {l : Session} {d d' snap : Database}
  {rely : RowKey → Database → Database → Prop} {held : RowKey → Prop} {ws : List Write}

omit [Collation] in
/-- A removal clears assignees only. -/
theorem sameColumns_cleared {now : Timestamp} {cleared : List Task}
    (h : ∀ a ∈ cleared, ∃ row, d.task? a.id = some row ∧ SameTask .content a row) :
    SameColumns .content (d.applyAll (cleared.map (clearWrite now))) d := by
  induction cleared generalizing d with
  | nil => exact .refl _ d
  | cons a rest ih =>
      obtain ⟨row, hrow, ha⟩ := h a List.mem_cons_self
      have hput : SameColumns .content (d.apply (clearWrite now a)) d := .put_left hrow ha
      refine SameColumns.trans (ih fun b hb => ?_) hput
      obtain ⟨old, hold, hb⟩ := h b (List.mem_cons_of_mem a hb)
      have hnow := hput.task? b.id
      rw [hold] at hnow
      cases hfound : (d.apply (clearWrite now a)).task? b.id with
      | none =>
          rw [hfound] at hnow
          cases hnow
      | some new =>
          rw [hfound] at hnow
          cases hnow with
          | some hnew => exact ⟨new, rfl, hb.trans hnew.symm⟩

/-- A commit of a request changes the columns of its group. -/
theorem Commits.sameColumns (h : Commits rely snap held d request ws)
    (hr : request.Changes g.other) : SameColumns g (d.applyAll ws) d := by
  cases g with
  | workflow =>
      cases h with
      | updateTask _ _ _ hrow => exact .put_left hrow rfl
      | _ => exact hr.elim
  | content =>
      cases h with
      | updateTaskStatus _ _ hrow _ => exact .put_left (taskIn?_eq_some.mp hrow).1 rfl
      | updateTaskAssignee _ _ _ hrow _ => exact .put_left (taskIn?_eq_some.mp hrow).1 rfl
      | @removeMember _ w u _ _ _ cleared now _ _ _ _ hcleared _ =>
          rw [applyAll_append]
          have htasks : SameColumns .content (d.applyAll (cleared.map (clearWrite now))) d :=
            sameColumns_cleared fun a ha => ⟨a, (hcleared a ha).1, rfl⟩
          refine SameColumns.trans ?_ htasks
          refine { SameColumns.refl .content _ with
            member := fun w' u' m hm => ?_, members := nofun }
          rw [applyAll_cons, applyAll_nil, member?_deleteMember] at hm
          split at hm
          · cases hm
          · exact hm
      | _ => exact hr.elim

theorem Publishes.sameColumns (h : Publishes request l d d') (hr : request.Changes g.other) :
    SameColumns g d' d := by
  cases h with
  | quiet h => exact .of_sameRows h.symm
  | commit snap hview hpersists h hd' =>
      rw [hd']
      exact h.sameColumns hr

end Dropped

/-! ## Runs -/

section Runs

variable [Collation] {d₀ : Database}
  {σ : System Request Call Call.Res Response Session Database}

/-- The requests of a group in the full run, and alone. -/
def columnProjection (g : Columns) : Projection Request Call Call.Res Body Session Database where
  pairing := columnPairing g
  loc := Session.Beside g
  shared := SameColumns g
  value := fun _ _ => True
  keeps := Request.Changes g
  drops := Request.Changes g.other

theorem columnProjection_sound (hd : d₀.Consistent) (g : Columns) :
    (columnProjection g).Sound Session.machine workload (Reaches d₀) where
  program _ ht := follows_program ht
  init := .init g
  locks _ _ _ hl hk := hl.holds hk
  keepsInv _ _ _ hdoes hr := hdoes.reachable (fun _ _ _ _ _ => trivial) (fun _ _ _ => trivial) hr
  kept := by
    intro σ σ' i t c k k' l l' env _ hr' _ hp' hl hshared hc
    have hconsistent : SystemConsistent σ' := consistent_of_reaches hd hr'
    have hsession : l'.Consistent σ'.shared :=
      ⟨hconsistent.rows, hconsistent.sessions i _ hp'⟩
    cases Session.answers_exec hl hshared env hsession.current hc with
    | lost h => exact Or.inl h
    | alike h hl hd => exact Or.inr ⟨h, hl, hd⟩
  dropped := by
    intro σ σ₁ i t l l₁ d' hr ht hs hshared
    exact ((publishes_of_callStep hr hs).sameColumns ht).trans hshared

/-- The requests of a group come to the same columns on their own. -/
theorem alone_of_succeed (hd : d₀.Consistent) (g : Columns) (group : Nat → Columns)
    {es : List (Event Request Env)}
    (hes : ∀ i request, .spawn i request ∈ es → request.Changes (group i))
    (hr : System.Runs Session.machine workload (System.start d₀) es σ) (hall : AllSucceed σ) :
    ∃ σ', System.Runs Session.machine workload (System.start d₀)
        (es.filter fun e => group e.proc = g) σ' ∧
      AllSucceed σ' ∧ SameColumns g σ.shared σ'.shared := by
  have hother : ∀ i, decide (group i = g) = false → group i = g.other := by
    intro i hi
    have hne := of_decide_eq_false hi
    revert hne
    cases group i <;> cases g <;> decide
  have hstart : (columnProjection g).Beside (fun i => group i = g)
      (System.start d₀ : System Request Call Call.Res Response Session Database)
      (System.start d₀) := Projection.beside_start (.refl g d₀)
  have hkeeps : ∀ i t, Event.spawn i t ∈ es → decide (group i = g) = true → t.Changes g := by
    intro i t ht hi
    rw [← of_decide_eq_true hi]
    exact hes i t ht
  have hdrops : ∀ i t, Event.spawn i t ∈ es → decide (group i = g) = false →
      t.Changes g.other := by
    intro i t ht hi
    rw [← hother i hi]
    exact hes i t ht
  rcases Projection.project (columnProjection_sound hd g) .start .start hstart hr hkeeps hdrops with
    ⟨i, p, hp, hfails⟩ | ⟨σ', hr', hbeside⟩
  · obtain ⟨b, hret⟩ := hall i p hp
    rw [hret] at hfails
    cases hfails
  · exact ⟨σ', hr', hbeside.succeed hall, hbeside.shared⟩

/-- General edits and workflow changes of which all succeed, in any order of their steps:
status and assignee of every task end as without the edits, and title, description and
priority as without the workflow changes. -/
theorem edits_and_workflow_independent (hd : d₀.Consistent) (group : Nat → Columns)
    {es : List (Event Request Env)}
    (hes : ∀ i request, .spawn i request ∈ es → request.Changes (group i))
    (hr : System.Runs Session.machine workload (System.start d₀) es σ) (hall : AllSucceed σ) :
    (∃ σ', System.Runs Session.machine workload (System.start d₀)
        (es.filter fun e => group e.proc = .workflow) σ' ∧ AllSucceed σ' ∧
      ∀ t, (σ.shared.task? t).map Task.progress = (σ'.shared.task? t).map Task.progress) ∧
    (∃ σ', System.Runs Session.machine workload (System.start d₀)
        (es.filter fun e => group e.proc = .content) σ' ∧ AllSucceed σ' ∧
      ∀ t, (σ.shared.task? t).map Task.content = (σ'.shared.task? t).map Task.content) := by
  obtain ⟨σ₁, hr₁, hall₁, h₁⟩ := alone_of_succeed hd .workflow group hes hr hall
  obtain ⟨σ₂, hr₂, hall₂, h₂⟩ := alone_of_succeed hd .content group hes hr hall
  refine ⟨⟨σ₁, hr₁, hall₁, fun t => ?_⟩, ⟨σ₂, hr₂, hall₂, fun t => ?_⟩⟩
  · exact map_eq_of_rel (h₁.task? t) fun _ _ h => Prod.ext h.status h.assigneeId
  · refine map_eq_of_rel (h₂.task? t) fun row row' h => ?_
    rw [Task.content, Task.content, h.title, h.description, h.priority]

end Runs

/-! ### An edit over a status change of the sample task -/

/-- The first request is an edit, the second a status change. -/
def besideGroup (i : Nat) : Columns := if i = 0 then .content else .workflow

def besideRequests (i : Nat) : Request :=
  if i = 0 then ownerEdit disjointEdits 0
  else .updateTaskStatus (some "owner") 1 1 (some ⟨.done⟩)

/-- The status change commits before the edit writes. -/
def besideSchedule : List (Event Request Env) :=
  crossing besideRequests (List.replicate 7 1 ++ List.replicate 6 0)

theorem edits_and_workflow_independent_beside :
    let _ := sampleCollation
    ∃ σ : System Request Call Call.Res Response Session Database,
      (∃ row, σ.shared.task? 1 = some row ∧ row.title = "b" ∧ row.status = .done) ∧
      (∃ σ', System.Runs Session.machine workload (System.start sampleDatabase)
          (besideSchedule.filter fun e => besideGroup e.proc = .workflow) σ' ∧ AllSucceed σ' ∧
        ∀ t, (σ.shared.task? t).map Task.progress = (σ'.shared.task? t).map Task.progress) ∧
      (∃ σ', System.Runs Session.machine workload (System.start sampleDatabase)
          (besideSchedule.filter fun e => besideGroup e.proc = .content) σ' ∧ AllSucceed σ' ∧
        ∀ t, (σ.shared.task? t).map Task.content = (σ'.shared.task? t).map Task.content) := by
  let _ := sampleCollation
  have hends : crossingEnds (fun _ _ => True) besideRequests
      (List.replicate 7 1 ++ List.replicate 6 0)
      (fun row => row.title = "b" ∧ row.status = .done) = true := by decide +kernel
  obtain ⟨σ, hruns, hall, _, row, hrow, hcheck⟩ := crossing_of_ends hends
  have hchanges : ∀ i request, .spawn i request ∈ besideSchedule →
      request.Changes (besideGroup i) := by
    intro i request h
    rw [crossing_spawns h, besideRequests, besideGroup]
    split
    · trivial
    · trivial
  refine ⟨σ, ⟨row, hrow, of_decide_eq_true hcheck⟩, ?_⟩
  exact edits_and_workflow_independent consistent_sampleDatabase besideGroup hchanges
    hruns.runs hall

end TaskPlatform
