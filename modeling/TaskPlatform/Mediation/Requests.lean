import TaskPlatform.Concurrency.Answered
import TaskPlatform.Mediation.Services

/-!
# Complete mediation

Every route abides by the policy of its request: nothing is read, locked or written
before the caller has shown what the route asks of him, and every answer is accounted
for by what the request was told.  That holds of each process in every interleaving,
whatever the others do and whichever calls fail.
-/

namespace TaskPlatform

open Transaction Service Database

section Exec

theorem fits_statement {c : Call} {env : Env} {l : Session} {d : Database}
    {x : c.Res × Session × Database} (hx : c.Fits x.1) :
    c.Fits (Session.statement env l d x).1 := by
  unfold Session.statement
  split
  · cases c with
    | select q => cases q <;> trivial
    | _ => trivial
  · exact hx

variable [Collation]

/-- What a query returns has the keys it was asked by. -/
theorem fits_select (q : Query) (l : Session) (d : Database) :
    (Call.select q).Fits (Session.select q l d).1 := by
  cases q with
  | workspaceAccess w u =>
      simp only [Session.select, Query.eval]
      cases hrow : (l.view d).workspaceAccess? w u with
      | none => trivial
      | some row =>
          obtain ⟨workspace, m⟩ := row
          exact id_of_workspace? (workspaceAccess?_eq_some.mp hrow).1
  | taskIn t w =>
      simp only [Session.select, Query.eval]
      cases hrow : (l.view d).taskIn? t w with
      | none => trivial
      | some row =>
          have hid := id_of_task? (taskIn?_eq_some.mp hrow).1
          show (l.resolveTask row).id = t
          rw [Session.resolveTask, key_task, hid]
          cases hheld : l.tasks.find? t with
          | none => exact hid
          | some held => exact Relational.Table.key_of_find? hheld
  | _ => trivial

theorem fits_exec (env : Env) (c : Call) (l : Session) (d : Database) :
    c.Fits (Session.exec env c l d).1 := by
  cases c with
  | select q => exact fits_statement (fits_select q l d)
  | lockMember w u =>
      refine fits_statement ?_
      unfold Session.lockMember
      split
      · rename_i m hm
        exact (key_of_member? hm).2
      · trivial
  | lockTask w t =>
      refine fits_statement ?_
      unfold Session.lockTask
      split
      · rename_i row hrow
        exact id_of_task? (taskIn?_eq_some.mp hrow).1
      · trivial
  | _ => trivial

end Exec

/-! ## Routes -/

theorem mediates_return {request : Request} {h : Dialogue Call.Res} {α : Type} {x : Service α}
    {f : α → Body} (hx : Mediates request (fun _ _ => True) x h) (hq : Qualified request h)
    (ha : request.accepted = true) (hf : ∀ a name, f a ≠ .token name) :
    Mediates request (fun body h' => request.Accounts (.ok body) h')
      (x >>= fun a => pure (f a)) h := by
  refine mediates_bind (mediates_imp hx fun a h' hsub _ => ?_)
  have hq := hq.mono hsub
  show request.Accounts (.ok (f a)) h'
  cases hbody : f a with
  | token name => exact absurd hbody (hf a name)
  | _ => exact ⟨hq, ha⟩

/-- The body is judged, and the service runs. -/
theorem mediates_body {request : Request} {h : Dialogue Call.Res} {α β : Type} {body : Option β}
    {x : β → Service α} {f : α → Body} (hq : Qualified request h)
    (ha : request.accepted = body.isSome)
    (hx : ∀ data, body = some data → Mediates request (fun _ _ => True) (x data) h)
    (hf : ∀ a name, f a ≠ .token name) :
    Mediates request (fun body h' => request.Accounts (.ok body) h')
      (validBody body >>= fun data => x data >>= fun a => pure (f a)) h := by
  refine mediates_bind (mediates_validBody hq (fun hnone => ?_) fun data hdata => ?_)
  · rw [ha, hnone]
    rfl
  · refine mediates_return (hx data hdata) hq ?_ hf
    rw [ha, hdata]
    rfl

theorem mediates_route (request : Request) :
    Mediates request (fun body h' => request.Accounts (.ok body) h') request.route [] := by
  have hnil := unchecked_nil
  cases request with
  | createUser ip body =>
      have hc : ChargedTo (.createUser ip body) [] (.registration ip) := .registration rfl
      refine mediates_bind (mediates_imp (mediates_enforceAuthLimit rfl hc
        (fun decision hd => ⟨decision, rfl, hd⟩) hnil) fun _ h _ hq => ?_)
      refine mediates_body hq (by cases body <;> rfl) (fun data hdata => ?_)
        fun _ _ heq => (by cases heq)
      subst hdata
      exact mediates_createUser hq
  | login ip username password =>
      have hc : ChargedTo (.login ip username password) [] (.login ip username) := .login rfl
      refine mediates_bind (mediates_imp (mediates_enforceAuthLimit rfl hc
        (fun decision hd => ⟨decision, rfl, hd⟩) hnil) fun _ h _ hq => ?_)
      refine mediates_bind (mediates_imp (mediates_authenticateUser hq)
        fun user h' hsub hverified => ?_)
      exact ⟨ip, username, password, user, rfl, rfl, hq.mono hsub, hverified⟩
  | getMe subject =>
      refine mediates_bind (mediates_imp (mediates_getCurrentUser rfl hnil)
        fun user h _ hcaller => ?_)
      exact ⟨.reading rfl (hcaller.2.entitled rfl rfl rfl), rfl⟩
  | createWorkspace subject body =>
      refine mediates_bind (mediates_imp (mediates_getCurrentUser rfl hnil)
        fun user h _ hcaller => ?_)
      obtain ⟨hunchecked, hcaller⟩ := hcaller
      refine mediates_bind (mediates_imp (mediates_enforceWriteLimit rfl
        (hcaller.entitled rfl rfl rfl) hunchecked) fun _ h' hsub hq => ?_)
      have hcaller := hcaller.mono hsub
      refine mediates_body hq (by cases body <;> rfl) (fun data hdata => ?_)
        fun _ _ heq => (by cases heq)
      subst hdata
      exact mediates_createWorkspace hq hcaller
  | listWorkspaces subject page =>
      refine mediates_bind (mediates_imp (mediates_getCurrentUser rfl hnil)
        fun user h _ hcaller => ?_)
      obtain ⟨_, hcaller⟩ := hcaller
      have hq : Qualified (.listWorkspaces subject page) h :=
        .reading rfl (hcaller.entitled rfl rfl rfl)
      refine mediates_body hq (by cases page <;> rfl) (fun data hdata => ?_)
        fun _ _ heq => (by cases heq)
      subst hdata
      exact mediates_listing hq rfl (.countMemberships hcaller) fun h' hsub =>
        .workspaces (hcaller.mono hsub)
  | getWorkspace subject w =>
      refine mediates_bind (mediates_imp (mediates_workspaceAccess rfl rfl hnil)
        fun access h _ hmember => ?_)
      obtain ⟨_, hmember, hid⟩ := hmember
      subst hid
      have hq : Qualified (.getWorkspace subject access.workspace.id) h :=
        .reading rfl (hmember.entitled rfl rfl)
      exact mediates_return (mediates_bind (mediates_membershipRole hmember fun _ _ => trivial)) hq
        rfl fun _ _ heq => (by cases heq)
  | listMembers subject w page =>
      refine mediates_bind (mediates_imp (mediates_workspaceAccess rfl rfl hnil)
        fun access h _ hmember => ?_)
      obtain ⟨_, hmember, hid⟩ := hmember
      subst hid
      have hq : Qualified (.listMembers subject access.workspace.id page) h :=
        .reading rfl (hmember.entitled rfl rfl)
      refine mediates_body hq (by cases page <;> rfl) (fun data hdata => ?_)
        fun _ _ heq => (by cases heq)
      subst hdata
      exact mediates_listing hq rfl .countMembers fun _ _ => .members
  | addMember subject w body =>
      refine mediates_bind (mediates_imp (mediates_limitedRoleAccess rfl rfl rfl rfl rfl hnil)
        fun access h _ hmember => ?_)
      obtain ⟨hmember, hid, hq⟩ := hmember
      subst hid
      refine mediates_body hq (by cases body <;> rfl) (fun data hdata => ?_)
        fun _ _ heq => (by cases heq)
      subst hdata
      exact mediates_addMember hq hmember
  | updateMemberRole subject w u body =>
      refine mediates_bind (mediates_imp (mediates_limitedRoleAccess rfl rfl rfl rfl rfl hnil)
        fun access h _ hmember => ?_)
      obtain ⟨hmember, hid, hq⟩ := hmember
      subst hid
      refine mediates_body hq (by cases body <;> rfl) (fun data hdata => ?_)
        fun _ _ heq => (by cases heq)
      subst hdata
      exact mediates_updateMemberRole hq hmember
  | removeMember subject w u =>
      refine mediates_bind (mediates_imp (mediates_limitedRoleAccess rfl rfl rfl rfl rfl hnil)
        fun access h _ hmember => ?_)
      obtain ⟨hmember, hid, hq⟩ := hmember
      subst hid
      exact mediates_return (mediates_removeMember hq hmember) hq rfl fun _ _ heq => (by cases heq)
  | listTasks subject w query =>
      refine mediates_bind (mediates_imp (mediates_workspaceAccess rfl rfl hnil)
        fun access h _ hmember => ?_)
      obtain ⟨_, hmember, hid⟩ := hmember
      subst hid
      have hq : Qualified (.listTasks subject access.workspace.id query) h :=
        .reading rfl (hmember.entitled rfl rfl)
      refine mediates_body hq (by cases query <;> rfl) (fun data hdata => ?_)
        fun _ _ heq => (by cases heq)
      subst hdata
      exact mediates_listing hq rfl .countTasks fun _ _ => .tasks
  | createTask subject w body =>
      refine mediates_bind (mediates_imp (mediates_limitedWorkspaceAccess rfl rfl rfl rfl rfl hnil)
        fun access h _ hmember => ?_)
      obtain ⟨hmember, hid, hq⟩ := hmember
      subst hid
      refine mediates_body hq (by cases body <;> rfl) (fun data hdata => ?_)
        fun _ _ heq => (by cases heq)
      subst hdata
      exact mediates_createTask hq hmember
  | getTask subject w t =>
      refine mediates_bind (mediates_imp (mediates_taskAccess rfl rfl rfl hnil)
        fun access h _ hfound => ?_)
      exact ⟨.reading rfl (hfound.2.1.entitled rfl), rfl⟩
  | updateTask subject w t body =>
      refine mediates_bind (mediates_imp (mediates_limitedTaskAccess rfl rfl rfl rfl rfl hnil)
        fun access h _ hfound => ?_)
      obtain ⟨hfound, hid, hkey, hq⟩ := hfound
      subst hid hkey
      refine mediates_body hq (by cases body <;> rfl) (fun data hdata => ?_)
        fun _ _ heq => (by cases heq)
      subst hdata
      exact mediates_updateTask rfl hq hfound
  | updateTaskStatus subject w t body =>
      refine mediates_bind (mediates_imp (mediates_limitedTaskAccess rfl rfl rfl rfl rfl hnil)
        fun access h _ hfound => ?_)
      obtain ⟨hfound, hid, hkey, hq⟩ := hfound
      subst hid hkey
      refine mediates_body hq (by cases body <;> rfl) (fun data hdata => ?_)
        fun _ _ heq => (by cases heq)
      subst hdata
      exact mediates_updateTaskStatus rfl hq hfound
  | updateTaskAssignee subject w t body =>
      refine mediates_bind (mediates_imp (mediates_limitedTaskAccess rfl rfl rfl rfl rfl hnil)
        fun access h _ hfound => ?_)
      obtain ⟨hfound, hid, hkey, hq⟩ := hfound
      subst hid hkey
      refine mediates_body hq (by cases body <;> rfl) (fun data hdata => ?_)
        fun _ _ heq => (by cases heq)
      subst hdata
      exact mediates_updateTaskAssignee rfl hq hfound
  | deleteTask subject w t =>
      refine mediates_bind (mediates_imp (mediates_limitedTaskAccess rfl rfl rfl rfl rfl hnil)
        fun access h _ hfound => ?_)
      obtain ⟨hfound, hid, hkey, hq⟩ := hfound
      subst hid hkey
      exact mediates_return (mediates_deleteTask rfl hq hfound) hq rfl
        fun _ _ heq => (by cases heq)

theorem Request.Accounts.mono {request : Request} {response : Response} {h h' : Dialogue Call.Res}
    (ha : request.Accounts response h) (hsub : h ⊆ h') : request.Accounts response h' := by
  cases response with
  | error e => exact Request.Refuses.mono ha hsub
  | ok body =>
      cases body with
      | token name =>
          obtain ⟨ip, username, password, user, hr, hname, hq, hu, hp⟩ := ha
          exact ⟨ip, username, password, user, hr, hname, hq.mono hsub, hu.mono hsub, hp.mono hsub⟩
      | _ => exact ⟨Qualified.mono ha.1 hsub, ha.2⟩

/-- The session is closed however the route ends. -/
theorem abides_program (request : Request) :
    request.program.Abides request.policy request.Accounts [] := by
  refine (abides_bind _ _ _).mpr (abides_mono (fun response h _ hr => ?_) (mediates_route request))
  have haccounts : request.Accounts response h := by
    cases response with
    | ok body => exact hr
    | error e => exact hr
  exact ⟨.close, fun r _ => haccounts.mono (sub_said h ⟨.close, r⟩)⟩

/-! ## Runs -/

section Runs

variable [Collation] {d₀ : Database}
  {σ : System Request Call Call.Res Response (Session × Log) Database} {i : Nat}
  {p : Proc Request Call Call.Res Response (Session × Log)}

theorem abiding_of_records (hr : Records d₀ σ) (hp : σ.procs i = some p) :
    Abiding Session.machine Request.policy Request.Accounts p :=
  System.abides_of_recorded (fun _ env c l d => fits_exec env c l d)
    (fun request _ => abides_program request) hr i p hp

/-- In every interleaving of any requests, whichever calls fail, each request has earned
each of its calls by the answers to the calls before it. -/
theorem calls_earned (hr : Records d₀ σ) (hp : σ.procs i = some p) :
    Permitted p.tag.policy (dialogue Session.machine p.loc.2) :=
  (abiding_of_records hr hp).permitted

end Runs

/-! ### The owner removes the member -/

def memberRemoved : Request := .removeMember (some "owner") 1 2

theorem calls_earned_removal :
    let _ := sampleCollation
    (undisturbed memberRemoved 12).prog.value? = some (.ok .noContent) ∧
      (undisturbed memberRemoved 12).loc.2.length = 12 ∧
      Permitted memberRemoved.policy
        (dialogue Session.machine (undisturbed memberRemoved 12).loc.2) := by
  intro collation
  have hvalue : (undisturbed memberRemoved 12).prog.value? = some (.ok .noContent) := by
    decide +kernel
  have hlength : (undisturbed memberRemoved 12).loc.2.length = 12 := by decide +kernel
  exact ⟨hvalue, hlength,
    calls_earned (records_undisturbed memberRemoved 12) (procs_undisturbed hvalue)⟩

end TaskPlatform
