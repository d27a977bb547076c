import TaskPlatform.Concurrency.Permission
import TaskPlatform.Serial.Reopening
import TaskPlatform.Serial.Tasks

/-!
# Repeated status and assignee requests

A status or assignee request that succeeded finds, when it is repeated, a task that has
what it asks for.  It is answered with the same data and changes nothing.  The one
exception is a MEMBER who gives a task up: his second request finds a task that is not
his, and is refused.
-/

namespace TaskPlatform

open Transaction Service Database Relational

/-- The server does not fail, and the rate limiter lets the writes through. -/
structure Env.Calm (env : Env) : Prop where
  fault : env.fault = none
  limiter : ∀ check, enforceWriteRateLimit (env.limiter check) = .ok ()

/-! ## Same values -/

theorem decideStatus_keep_iff {role : MemberRole} {actorUserId : Id} {task : Task}
    {status : TaskStatus} :
    decideStatus role actorUserId task status = .keep ↔
      canChangeTaskStatus role actorUserId task.assigneeId = true ∧ task.status = status := by
  unfold decideStatus
  constructor
  · intro h
    split_ifs at h with hchange hvalid hsame
    exact ⟨Bool.of_not_eq_false hchange, hsame⟩
  · rintro ⟨hchange, hsame⟩
    have hvalid : isValidStatusTransition role task.status status = true :=
      isValidStatusTransition_iff.mpr (Or.inl hsame)
    rw [if_neg (by simp [hchange]), if_neg (by simp [hvalid]), if_pos hsame]

theorem decideAssignee_keep {role : MemberRole} {actorUserId : Id} {task : Task}
    {requested : Option Id} {memberships : List WorkspaceMember}
    (h : decideAssignee role actorUserId task requested memberships = .keep) :
    task.assigneeId = requested := by
  unfold decideAssignee at h
  split_ifs at h with hmanager hsame hmissing hdone hself hown
  · exact hsame
  · exact hown.trans hself.symm

/-- A request for the assignee the task has: who may name the assignee leaves the task as
it is, and a MEMBER who gives up a task nobody has is refused. -/
theorem decideAssignee_again {role : MemberRole} {actorUserId : Id} {task : Task}
    {requested : Option Id} {memberships : List WorkspaceMember}
    (hnames : ¬ namesAnother role actorUserId requested) (hsame : task.assigneeId = requested) :
    decideAssignee role actorUserId task requested memberships =
      if role = .member ∧ requested = none then .refuse taskAssignmentConflictError else .keep := by
  unfold decideAssignee
  by_cases hmanager : canChangeTaskAssignee role = true
  · have hrole : ¬ (role = .member ∧ requested = none) := by
      rintro ⟨rfl, _⟩
      cases hmanager
    rw [if_pos hmanager, if_pos hsame, if_neg hrole]
  · have hrole : role = .member := by
      cases role with
      | owner => exact absurd rfl hmanager
      | admin => exact absurd rfl hmanager
      | member => rfl
    rw [if_neg hmanager]
    by_cases hself : requested = some actorUserId
    · rw [if_pos hself, if_pos (hsame.trans hself), if_neg (by simp [hself])]
    · have hnone : requested = none := by
        by_contra hsome
        exact hnames ⟨hrole, hsome, hself⟩
      rw [if_neg hself, if_pos (hsame.trans hnone), if_pos ⟨hrole, hnone⟩]

section Retry

variable [Collation] {d d₀ : Database} {subject : Option String} {w t : Id} {b : Body}

/-! ## What a success leaves -/

/-- A MEMBER's request to give up a task. -/
def Request.Releases (d : Database) : Request → Prop
  | .updateTaskAssignee subject w _ (some data) =>
    data.assigneeId = none ∧ ∃ user m, Actor d subject w user m ∧ m.role = .member
  | _ => False

theorem Actor.unique {user user' : User} {m m' : WorkspaceMember}
    (h : Actor d subject w user m) (h' : Actor d subject w user' m') : user = user' ∧ m = m' := by
  cases h.token.symm.trans h'.token
  cases h.member.symm.trans h'.member
  exact ⟨rfl, rfl⟩

theorem Actor.putTask {user : User} {m : WorkspaceMember} (h : Actor d subject w user m)
    (row : Task) : Actor (d.apply (.putTask row)) subject w user m :=
  ⟨h.token, h.workspace, h.member⟩

/-- The task a request was about has been answered with the row it has now, and the actor
is who he was. -/
structure Settled (d₀ d : Database) (subject : Option String) (w t : Id) (user : User)
    (m : WorkspaceMember) (row : Task) (b : Body) : Prop where
  before : Actor d₀ subject w user m
  actor : Actor d subject w user m
  task : d.taskIn? t w = some row
  answer : b = .task (taskData row)

theorem Settled.entersTask {user : User} {m : WorkspaceMember} {row : Task}
    (h : Settled d₀ d subject w t user m row b) : EntersTask d subject w t := by
  refine ⟨⟨user, m, h.actor⟩, ?_⟩
  rw [h.task]
  rfl

/-- What the dependencies of a repeated request find. -/
theorem Settled.granted {user : User} {m m' : WorkspaceMember} {row : Task}
    {access : WorkspaceTaskAccess} {l : Session} (h : Settled d₀ d subject w t user m row b)
    (h' : TaskGranted d subject w t access m' l) :
    access.workspaceAccess.currentUser = user ∧ m' = m ∧ access.task = row := by
  obtain ⟨huser, hm⟩ := h'.actor.unique h.actor
  exact ⟨huser, hm, Option.some.inj (h'.task.symm.trans h.task)⟩

theorem TaskGranted.settled {access : WorkspaceTaskAccess} {m : WorkspaceMember} {l : Session}
    (h : TaskGranted d subject w t access m l) :
    Settled d d subject w t access.workspaceAccess.currentUser m access.task
      (.task (taskData access.task)) :=
  ⟨h.actor, h.actor, h.task, rfl⟩

theorem TaskGranted.settled_written {access : WorkspaceTaskAccess} {m : WorkspaceMember}
    {l : Session} (h : TaskGranted d subject w t access m l) (patch : TaskPatch) (now : Timestamp) :
    Settled d (d.apply (.putTask (patch.written access.task now))) subject w t
      access.workspaceAccess.currentUser m (patch.written access.task now)
      (.task (taskData (patch.written access.task now))) := by
  refine ⟨h.actor, h.actor.putTask _, taskIn?_eq_some.mpr ⟨?_, ?_⟩, rfl⟩
  · rw [task?_putTask]
    exact if_pos h.task_id.symm
  · exact (taskIn?_eq_some.mp h.task).2

omit [Collation] in
theorem failures_calm (E : Exc → Database → Prop) (d : Database) : Failures Env.Calm E d := by
  refine ⟨fun env henv e he => ?_, fun env henv check e he => ?_⟩
  · rw [henv.fault] at he
    cases he
  · rw [henv.limiter check] at he
    cases he

/-! ## Status -/

/-- After a status request. -/
def StatusSettled (d₀ d : Database) (subject : Option String) (w t : Id) (data : TaskStatusUpdate)
    (b : Body) : Prop :=
  ∃ user m row, Settled d₀ d subject w t user m row b ∧
    canChangeTaskStatus m.role user.id row.assigneeId = true ∧ row.status = data.status

theorem ends_updateTaskStatus_settled (body : Option TaskStatusUpdate) :
    Ends (fun _ => True) (Request.updateTaskStatus subject w t body).route
      (fun b _ d' => ∃ data, body = some data ∧ StatusSettled d d' subject w t data b)
      (fun _ _ => True) {} d := by
  have hE := failures_any (fun _ => True) d
  refine ends_taskRoute hE (fun _ _ => trivial) (fun _ => trivial) fun access m l data h hdata => ?_
  refine ends_updateTaskStatus h hE.server (fun _ _ => trivial) (fun hkeep _ => ?_)
    fun hchange l' h' hloaded => ?_
  · obtain ⟨hcan, hsame⟩ := decideStatus_keep_iff.mp hkeep
    exact ⟨data, hdata, _, m, _, h.settled, hcan, hsame⟩
  · obtain ⟨hcan, _, hne⟩ := decideStatus_change hchange
    refine ends_saveTask h' (fun _ _ => trivial) (taskIn?_eq_some.mp h.task).1 hloaded
      (fun hdirty _ => ?_) fun _ env _ _ => ?_
    · have hstatus := congrArg TaskPatch.status hdirty
      simp [TaskPatch.dirty, Option.filter, Ne.symm hne] at hstatus
    · have hwritten : TaskPatch.written { status := some data.status } access.task env.now =
          { access.task with status := data.status, updatedAt := env.now } := by
        rw [TaskPatch.written, TaskPatch.apply_dirty_status hne]
      refine ⟨data, hdata, _, m, _, h.settled_written _ env.now, ?_, ?_⟩
      · rw [hwritten]
        exact hcan
      · rw [hwritten]

theorem ends_updateTaskStatus_again {data : TaskStatusUpdate}
    (hsettled : StatusSettled d₀ d subject w t data b) :
    Ends Env.Calm (Request.updateTaskStatus subject w t (some data)).route
      (fun b' _ d' => b' = b ∧ d' = d) (fun _ _ => False) {} d := by
  obtain ⟨user, m, row, hs, hcan, hsame⟩ := hsettled
  have hE := failures_calm (fun _ _ => False) d
  refine ends_taskRoute hE (fun hno => absurd hs.entersTask hno) (fun hnone => by cases hnone)
    fun access m' l data' h hdata => ?_
  cases hdata
  obtain ⟨rfl, rfl, rfl⟩ := hs.granted h
  have hkeep := decideStatus_keep_iff.mpr ⟨hcan, hsame⟩
  refine ends_updateTaskStatus h hE.server (fun e he => ?_) (fun _ l' => ?_) fun hchange => ?_
  · rw [hkeep] at he
    cases he
  · exact ⟨hs.answer.symm, rfl⟩
  · rw [hkeep] at hchange
    cases hchange

/-! ## Assignee -/

/-- After an assignee request. -/
def AssigneeSettled (d₀ d : Database) (subject : Option String) (w t : Id)
    (data : TaskAssigneeUpdate) (user : User) (m : WorkspaceMember) (b : Body) : Prop :=
  ∃ row, Settled d₀ d subject w t user m row b ∧
    ¬ namesAnother m.role user.id data.assigneeId ∧ row.assigneeId = data.assigneeId

theorem ends_updateTaskAssignee_settled (body : Option TaskAssigneeUpdate) :
    Ends (fun _ => True) (Request.updateTaskAssignee subject w t body).route
      (fun b _ d' => ∃ data user m, body = some data ∧
        AssigneeSettled d d' subject w t data user m b)
      (fun _ _ => True) {} d := by
  have hE := failures_any (fun _ => True) d
  refine ends_taskRoute hE (fun _ _ => trivial) (fun _ => trivial) fun access m l data h hdata => ?_
  refine ends_updateTaskAssignee h hE.server (fun _ => trivial) (fun _ _ _ _ => trivial)
    (fun hnames rows hkeep _ => ?_) fun hnames rows hchange l' h' hloaded => ?_
  · exact ⟨data, _, m, hdata, _, h.settled, hnames, decideAssignee_keep hkeep⟩
  · obtain ⟨hne, _, _⟩ := decideAssignee_change hchange
    refine ends_saveTask h' (fun _ _ => trivial) (taskIn?_eq_some.mp h.task).1 hloaded
      (fun hdirty _ => ?_) fun _ env _ _ => ?_
    · have hassignee := congrArg TaskPatch.assigneeId hdirty
      simp [TaskPatch.dirty, Option.filter, Ne.symm hne] at hassignee
    · have hwritten : TaskPatch.written { assigneeId := some data.assigneeId } access.task env.now =
          { access.task with assigneeId := data.assigneeId, updatedAt := env.now } := by
        rw [TaskPatch.written, TaskPatch.apply_dirty_assigneeId hne]
      refine ⟨data, _, m, hdata, _, h.settled_written _ env.now, hnames, ?_⟩
      rw [hwritten]

/-- A MEMBER who asks for nobody gives a task up. -/
theorem AssigneeSettled.releases_iff {data : TaskAssigneeUpdate} {user : User} {m : WorkspaceMember}
    (h : AssigneeSettled d₀ d subject w t data user m b) :
    (Request.updateTaskAssignee subject w t (some data)).Releases d₀ ↔
      m.role = .member ∧ data.assigneeId = none := by
  obtain ⟨row, hs, _, _⟩ := h
  constructor
  · rintro ⟨hnone, user', m', hactor, hrole⟩
    obtain ⟨_, rfl⟩ := hactor.unique hs.before
    exact ⟨hrole, hnone⟩
  · rintro ⟨hrole, hnone⟩
    exact ⟨hnone, user, m, hs.before, hrole⟩

theorem ends_updateTaskAssignee_again {data : TaskAssigneeUpdate} {user : User}
    {m : WorkspaceMember} (hsettled : AssigneeSettled d₀ d subject w t data user m b) :
    Ends Env.Calm (Request.updateTaskAssignee subject w t (some data)).route
      (fun b' _ d' => b' = b ∧ d' = d ∧ ¬ (m.role = .member ∧ data.assigneeId = none))
      (fun e d' => e = .app taskAssignmentConflictError ∧ d' = d ∧
        m.role = .member ∧ data.assigneeId = none) {} d := by
  obtain ⟨row, hs, hnames, hsame⟩ := hsettled
  have hE := failures_calm (fun e d' => e = .app taskAssignmentConflictError ∧ d' = d ∧
    m.role = .member ∧ data.assigneeId = none) d
  refine ends_taskRoute hE (fun hno => absurd hs.entersTask hno) (fun hnone => by cases hnone)
    fun access m' l data' h hdata => ?_
  cases hdata
  obtain ⟨rfl, rfl, rfl⟩ := hs.granted h
  by_cases hrelease : m'.role = .member ∧ data.assigneeId = none
  · have hagain : ∀ rows, decideAssignee m'.role access.workspaceAccess.currentUser.id access.task
        data.assigneeId rows = .refuse taskAssignmentConflictError :=
      fun rows => (decideAssignee_again hnames hsame).trans (if_pos hrelease)
    refine ends_updateTaskAssignee h hE.server (fun hn => absurd hn hnames) (fun _ rows e he => ?_)
      (fun _ rows hkeep => ?_) fun _ rows hchange => ?_
    · rw [hagain rows] at he
      cases he
      exact ⟨rfl, rfl, hrelease⟩
    · rw [hagain rows] at hkeep
      cases hkeep
    · rw [hagain rows] at hchange
      cases hchange
  · have hagain : ∀ rows, decideAssignee m'.role access.workspaceAccess.currentUser.id access.task
        data.assigneeId rows = .keep :=
      fun rows => (decideAssignee_again hnames hsame).trans (if_neg hrelease)
    refine ends_updateTaskAssignee h hE.server (fun hn => absurd hn hnames) (fun _ rows e he => ?_)
      (fun _ rows _ l' => ?_) fun _ rows hchange => ?_
    · rw [hagain rows] at he
      cases he
    · exact ⟨hs.answer.symm, rfl, hrelease⟩
    · rw [hagain rows] at hchange
      cases hchange

/-! ## The second request -/

/-- A status or assignee request that succeeded is repeated before anything else happens.
Unless it is a MEMBER's request to give the task up, it succeeds again with the same
data; such a request is refused.  No row changes. -/
theorem workflow_again {env env' : Nat → Env} {request : Request}
    (hrequest : request.isWorkflow = true) (hok : (serve env request d).1 = .ok b)
    (hcalm : ∀ n, (env' n).Calm) :
    (¬ request.Releases d →
        serve env' request (serve env request d).2 = (.ok b, (serve env request d).2)) ∧
      (request.Releases d →
        serve env' request (serve env request d).2 =
          (.error (.app taskAssignmentConflictError), (serve env request d).2)) := by
  cases request with
  | updateTaskStatus subject w t body =>
      obtain ⟨hfirst, _⟩ := serve_of_ends (ends_updateTaskStatus_settled (d := d) body)
        fun n => (trivial : (fun _ => True) (env n))
      obtain ⟨_, data, rfl, hsettled⟩ := hfirst b hok
      obtain ⟨hagain, herror⟩ := serve_of_ends (ends_updateTaskStatus_again hsettled) hcalm
      refine ⟨fun _ => ?_, fun h => h.elim⟩
      cases hvalue : (serve env' (.updateTaskStatus subject w t (some data))
          (serve env (.updateTaskStatus subject w t (some data)) d).2).1 with
      | ok b' =>
          obtain ⟨_, rfl, hd⟩ := hagain b' hvalue
          exact Prod.ext hvalue hd
      | error e => exact (herror e hvalue).elim
  | updateTaskAssignee subject w t body =>
      obtain ⟨hfirst, _⟩ := serve_of_ends (ends_updateTaskAssignee_settled (d := d) body)
        fun n => (trivial : (fun _ => True) (env n))
      obtain ⟨_, data, user, m, rfl, hsettled⟩ := hfirst b hok
      obtain ⟨hagain, herror⟩ := serve_of_ends (ends_updateTaskAssignee_again hsettled) hcalm
      rw [hsettled.releases_iff]
      cases hvalue : (serve env' (.updateTaskAssignee subject w t (some data))
          (serve env (.updateTaskAssignee subject w t (some data)) d).2).1 with
      | ok b' =>
          obtain ⟨_, rfl, hd, hno⟩ := hagain b' hvalue
          exact ⟨fun _ => Prod.ext hvalue hd, fun h => absurd h hno⟩
      | error e =>
          obtain ⟨rfl, hd, hrelease⟩ := herror e hvalue
          exact ⟨fun hno => absurd hrelease hno, fun _ => Prod.ext hvalue hd⟩
  | _ => cases hrequest

end Retry

/-! ### A member claims a task and gives it up twice -/

/-- A task in the workspace of the owner and bob. -/
def openTaskHistory : List Served := served
  [.createUser "ip" (UserCreate.validate "owner" "password1"),
   .createUser "ip" (UserCreate.validate "bob" "password2"),
   .createWorkspace (some "owner") (WorkspaceCreate.validate "team"),
   .addMember (some "owner") 1 (WorkspaceMemberCreate.validate "bob"),
   .createTask (some "owner") 1 (TaskCreate.validate "task")]

/-- An assignee request of bob. -/
def bobAsks (assigneeId : Option Id) : Request :=
  .updateTaskAssignee (some "bob") 1 1 (TaskAssigneeUpdate.validate assigneeId)

/-- The task as bob's requests return it. -/
def bobsTask (assigneeId : Option Id) : Body :=
  .task { id := 1, title := "task", description := none, priority := 1, workspaceId := 1,
          creatorId := 1, assigneeId := assigneeId, status := .todo, createdAt := 0,
          updatedAt := 0 }

theorem workflow_not_repeatable :
    ¬ ∀ (history : List Served) (env env' : Nat → Env) (request : Request) (b : Body),
      request.isWorkflow = true →
      (@serve sampleCollation env request (@serveAll sampleCollation Database.empty history)).1 =
        .ok b → (∀ n, (env' n).Calm) →
      (@serve sampleCollation env' request
        (@serve sampleCollation env request
          (@serveAll sampleCollation Database.empty history)).2).1 = .ok b := by
  intro h
  have hsecond := h (openTaskHistory ++ served [bobAsks (some 2)]) (fun _ => servingEnv)
    (fun _ => servingEnv) (bobAsks none) (bobsTask none) rfl (by decide +kernel)
    fun _ => ⟨rfl, fun _ => rfl⟩
  revert hsecond
  decide +kernel

theorem workflow_again_claim :
    let d := (@serveAll sampleCollation Database.empty openTaskHistory)
    let d₁ := (@serve sampleCollation (fun _ => servingEnv) (bobAsks (some 2)) d).2
    @serve sampleCollation (fun _ => servingEnv) (bobAsks (some 2)) d₁ =
      (.ok (bobsTask (some 2)), d₁) := by
  let _ := sampleCollation
  have hok : (serve (fun _ => servingEnv) (bobAsks (some 2))
      (serveAll Database.empty openTaskHistory)).1 = .ok (bobsTask (some 2)) := by decide +kernel
  exact (workflow_again rfl hok fun _ => ⟨rfl, fun _ => rfl⟩).1 fun hreleases => nomatch hreleases.1

end TaskPlatform
