import TaskPlatform.Specification.Members
import TaskPlatform.Specification.Tasks
import TaskPlatform.Specification.Users

/-!
# The API refines its specification

Sessions, snapshots, row locks, flushes and the order of the statements leave no trace in
what a client who is served alone can see: every response and every table is the one
`Platform.respond` computes from the tables.  Whole histories are runs of the
specification.
-/

namespace TaskPlatform

open Transaction Service Database Relational Platform

/-- The user of a token is one of the rows. -/
theorem user?_of_actor? [Collation] {d : Database} {subject : Option String} {user : User}
    (h : d.actor? subject = some user) : d.user? user.id = some user := by
  obtain ⟨username, _, hrow⟩ := Option.bind_eq_some_iff.mp h
  exact Table.find?_key d.users (List.mem_of_find?_eq_some hrow)

theorem actor?_of_authenticate [Collation] {d : Database} {subject : Option String} {user : User}
    (h : authenticate d subject = .ok user) : d.actor? subject = some user := by
  cases hactor : d.actor? subject with
  | none =>
      rw [authenticate, hactor] at h
      cases h
  | some found =>
      rw [authenticate, hactor] at h
      cases h
      rfl

section Listings

variable [Collation] {good : Env → Prop} {l : Session} {d : Database}
  {answer : Circumstances → Reply} (hgood : ∀ env, good env → env.Faultless)
  (hsome : ∃ env, good env)

include hgood hsome

/-- Two queries of one view, as every listing issues them. -/
theorem fulfils_listing {β : Type} {count select : Query} {f : count.Val → select.Val → β}
    {g : β → Body} (h : l.Mirrors d)
    (hanswer : ∀ i, answer i = .ok (g (f (count.eval d) (select.eval d)), d)) :
    Fulfils good answer
      (do
        let page ← (do
          let total ← call (.select count)
          let rows ← call (.select select)
          return f total rows : Service β)
        return g page) l d := by
  have hE := serverFails_of_good hgood (RefusedWith good answer d) d
  obtain ⟨_, hmirror, _⟩ := h.load count
  apply ends_bind
  apply ends_bind
  apply ends_select h hE
  apply ends_bind
  apply ends_select hmirror.openView hE
  exact ends_pure (ends_pure (returned_of hsome hanswer))

end Listings

section Routes

variable [Collation] {good : Env → Prop} {d : Database}
  (hgood : ∀ env, good env → env.Faultless) (hsome : ∃ env, good env)

include hgood hsome

theorem fulfils_route (hd : Consistent d) (request : Request) :
    Fulfils good (fun i => respond i d request) request.route {} d := by
  have hstart := Session.mirrors_nil d
  have hE := serverFails_of_good hgood (RefusedWith good (fun i => respond i d request) d) d
  cases request with
  | createUser ip body =>
      apply ends_bind
      refine ends_mono (fulfils_permitAuth (x := do
        let data ← validBody body
        let user ← TaskPlatform.createUser data
        return .user (userData user)) (fun _ => rfl) (fun _ _ => rfl) ?_) ?_
      · exact fulfils_validBody hsome (fun _ => rfl) fun data _ =>
          fulfils_createUser hgood hsome hd data
      · rintro _ l' d' ⟨⟨rfl, rfl⟩, hx⟩
        exact hx
  | login ip username password =>
      apply ends_bind
      refine ends_mono (fulfils_permitAuth (fun _ => rfl) (fun _ _ => rfl)
        (fulfils_login hgood hsome username password)) ?_
      rintro _ l' d' ⟨⟨rfl, rfl⟩, hx⟩
      exact hx
  | getMe subject =>
      apply ends_bind
      refine ends_authenticate hstart hE (fun e he => refusal_of hsome fun i => ?_)
        fun user l' huser _ => ends_pure (returned_of hsome fun i => ?_)
      · rw [respond, he]
        rfl
      · rw [respond, huser]
        rfl
  | createWorkspace subject body =>
      apply ends_bind
      refine ends_authenticate hstart hE (fun e he => refusal_of hsome fun i => ?_)
        fun user l' huser h => ?_
      · rw [respond, he]
        rfl
      have hanswer : ∀ i, respond i d (.createWorkspace subject body) =
          permitWrite i user .workspaceCreate none >>= fun _ => parsed body >>= found i d user := by
        intro i
        rw [respond, huser]
        rfl
      apply ends_bind
      refine ends_mono (fulfils_permitWrite (x := do
        let data ← validBody body
        return .workspace (← TaskPlatform.createWorkspace user data.name)) hanswer
        (fun _ _ => rfl) ?_) ?_
      · exact fulfils_validBody hsome (fun _ => rfl) fun data _ =>
          fulfils_createWorkspace hgood hd h 
            (Option.isSome_of_eq_some (user?_of_actor? (actor?_of_authenticate huser))) data
      · rintro _ l' d' ⟨⟨rfl, rfl⟩, hx⟩
        exact hx
  | listWorkspaces subject page =>
      apply ends_bind
      refine ends_authenticate hstart hE (fun e he => refusal_of hsome fun i => ?_)
        fun user l' huser h => ?_
      · rw [respond, he]
        rfl
      refine fulfils_validBody
        (F := fun _ page => .ok (.workspaces (workspacesOf d user page), d)) hsome
        (fun i => ?_) fun page _ => fulfils_listing hgood hsome h fun _ => rfl
      rw [respond, huser]
      rfl
  | getWorkspace subject w =>
      apply ends_bind
      refine ends_enter hstart hE (fun e he => refusal_of hsome fun i => ?_)
        fun access m l' hentry h => ?_
      · rw [respond, he]
        rfl
      · refine ends_bind (ends_bind (ends_membershipRole h.toOpened (ends_pure (ends_pure ?_))))
        refine returned_of hsome fun i => ?_
        rw [respond, hentry]
        rfl
  | listMembers subject w page =>
      apply ends_bind
      refine ends_enter hstart hE (fun e he => refusal_of hsome fun i => ?_)
        fun access m l' hentry h => ?_
      · rw [respond, he]
        rfl
      refine fulfils_validBody (F := fun _ page => .ok (.members (membersOf d w page), d)) hsome
        (fun i => ?_) fun page _ => ?_
      · rw [respond, hentry]
        rfl
      · rw [listMembers, h.id]
        exact fulfils_listing hgood hsome h.mirror fun _ => rfl
  | addMember subject w body =>
      refine fulfils_enterToManage hgood hsome (fun _ => rfl) (fun _ _ _ => rfl)
        fun access m l h => ?_
      exact fulfils_validBody hsome (fun _ => rfl) fun data _ =>
        fulfils_addMember hgood hsome h data
  | updateMemberRole subject w u body =>
      refine fulfils_enterToManage hgood hsome (fun _ => rfl) (fun _ _ _ => rfl)
        fun access m l h => ?_
      exact fulfils_validBody hsome (fun _ => rfl) fun data _ =>
        fulfils_updateMemberRole hgood hsome h data.role.1
  | removeMember subject w u =>
      refine fulfils_enterToManage hgood hsome (fun _ => rfl) (fun _ _ _ => rfl)
        fun access m l h => ?_
      exact fulfils_removeMember hgood hsome h
  | listTasks subject w query =>
      apply ends_bind
      refine ends_enter hstart hE (fun e he => refusal_of hsome fun i => ?_)
        fun access m l' hentry h => ?_
      · rw [respond, he]
        rfl
      refine fulfils_validBody (F := fun _ query => .ok (.tasks (tasksOf d w query), d)) hsome
        (fun i => ?_) fun query _ => ?_
      · rw [respond, hentry]
        rfl
      · rw [listTasks, h.id]
        exact fulfils_listing hgood hsome h.mirror fun _ => rfl
  | createTask subject w body =>
      refine fulfils_enterToWrite hgood hsome (fun _ => rfl) (fun _ _ _ => rfl)
        fun access m l h => ?_
      exact fulfils_validBody hsome (fun _ => rfl) fun data _ =>
        fulfils_createTask hgood hd h data
  | getTask subject w t =>
      apply ends_bind
      refine ends_enterTask hstart hE (fun e he => refusal_of hsome fun i => ?_)
        fun access m l' hentry _ => ends_pure (returned_of hsome fun i => ?_)
      · rw [respond, he]
        rfl
      · rw [respond, hentry]
        rfl
  | updateTask subject w t body =>
      refine fulfils_enterToChange hgood hsome (fun _ => rfl) (fun _ _ _ => rfl)
        fun access m l h => ?_
      exact fulfils_validBody hsome (fun _ => rfl) fun data _ =>
        fulfils_updateTask hgood hsome h hd data
  | updateTaskStatus subject w t body =>
      refine fulfils_enterToChange hgood hsome (fun _ => rfl) (fun _ _ _ => rfl)
        fun access m l h => ?_
      exact fulfils_validBody hsome (fun _ => rfl) fun data _ =>
        fulfils_updateTaskStatus hgood hsome h hd data
  | updateTaskAssignee subject w t body =>
      refine fulfils_enterToChange hgood hsome (fun _ => rfl) (fun _ _ _ => rfl)
        fun access m l h => ?_
      exact fulfils_validBody hsome (fun _ => rfl) fun data _ =>
        fulfils_updateTaskAssignee hgood hsome h hd data
  | deleteTask subject w t =>
      refine fulfils_enterToChange hgood hsome (fun _ => rfl) (fun _ _ _ => rfl)
        fun access m l h => ?_
      exact fulfils_deleteTask hgood hsome h

end Routes

/-! ## Histories -/

section Histories

variable [Collation]

/-- What the calls of a request find while the server does not fail. -/
def FaultlessStream (env : Nat → Env) : Prop := ∀ n, (env n).Faultless

/-- A request served alone is answered as specified, in circumstances its calls find. -/
theorem serve_specified {d : Database} (hd : Consistent d) {env : Nat → Env}
    (henv : FaultlessStream env) (request : Request) :
    ∃ i, i.FoundIn (fun e => ∃ n, e = env n) ∧
      serve env request d = settled d (respond i d request) := by
  have hgood : ∀ e, (∃ n, e = env n) → e.Faultless := by
    rintro e ⟨n, rfl⟩
    exact henv n
  obtain ⟨hok, herror⟩ := serve_of_ends (fulfils_route hgood ⟨env 0, 0, rfl⟩ hd request)
    fun n => ⟨n, rfl⟩
  cases hvalue : (serve env request d).1 with
  | ok body =>
      obtain ⟨_, i, hi, hanswer⟩ := hok body hvalue
      refine ⟨i, hi, ?_⟩
      rw [show respond i d request = _ from hanswer]
      exact Prod.ext hvalue rfl
  | error e =>
      obtain ⟨hd', i, hi, hanswer⟩ := herror e hvalue
      refine ⟨i, hi, ?_⟩
      rw [show respond i d request = _ from hanswer]
      exact Prod.ext hvalue hd'

/-- The responses of a history, each with its request. -/
def transcript (d : Database) : List Served → List (Served × Response)
  | [] => []
  | (env, request) :: rest =>
    ((env, request), (serve env request d).1) :: transcript (serve env request d).2 rest

/-- Requests answered one after the other as specified. -/
inductive Platform.Runs : Database → List (Served × Response) → Database → Prop
  | nil (d : Database) : Runs d [] d
  | cons {d d' : Database} {env : Nat → Env} {request : Request} {i : Circumstances}
      {rest : List (Served × Response)} (hi : i.FoundIn fun e => ∃ n, e = env n)
      (hrest : Runs (settled d (respond i d request)).2 rest d') :
      Runs d (((env, request), (settled d (respond i d request)).1) :: rest) d'

/-- What clients who are served one after the other are told, and the tables they leave,
is a run of the specification. -/
theorem transcript_runs {d : Database} (hd : Consistent d) {history : List Served}
    (henv : ∀ x ∈ history, FaultlessStream x.1) :
    Platform.Runs d (transcript d history) (serveAll d history) := by
  induction history generalizing d with
  | nil => exact .nil d
  | cons served rest ih =>
      obtain ⟨env, request⟩ := served
      have hnext : Consistent (serve env request d).2 := consistent_run hd env request.program
      have hrest := ih hnext fun x hx => henv x (List.mem_cons_of_mem _ hx)
      obtain ⟨i, hi, hserve⟩ := serve_specified hd (henv _ List.mem_cons_self) request
      rw [transcript, serveAll]
      rw [hserve] at hrest ⊢
      exact .cons hi hrest

/-- When the clock and the limiter stand still, the answer is a function of the tables. -/
theorem serve_eq_respond {d : Database} (hd : Consistent d) {env : Env} (henv : env.Faultless)
    (request : Request) :
    serve (fun _ => env) request d = settled d (respond env.circumstances d request) := by
  have hstream : FaultlessStream fun _ => env := fun _ => henv
  obtain ⟨i, hi, hserve⟩ := serve_specified hd hstream request
  have hstill : i = env.circumstances := hi.eq_circumstances fun e ⟨_, he⟩ => he
  rw [hserve, hstill]

end Histories

/-- Somebody registers, and the MEMBER hands a task over that is not his. -/
def sampleVisits : List Served :=
  [(fun _ => registrationEnv, registration),
    (fun n => { registrationEnv with now := n },
      .updateTaskAssignee (some "member") 1 1 (some ⟨some 1, by decide⟩))]

theorem transcript_runs_sample :
    let _ := sampleCollation
    Platform.Runs sampleDatabase (transcript sampleDatabase sampleVisits)
      (serveAll sampleDatabase sampleVisits) := by
  intro collation
  have hhash : ("hash" : String).length ≤ 255 := by decide
  refine transcript_runs consistent_sampleDatabase fun x hx n => ?_
  rcases List.mem_cons.mp hx with rfl | hx
  · exact ⟨rfl, fun _ => hhash⟩
  · rw [List.mem_singleton.mp hx]
    exact ⟨rfl, fun _ => hhash⟩

end TaskPlatform
