import TaskPlatform.Concurrency.Answered
import TaskPlatform.Service.Text

/-!
# Requests that only read

`GET` routes and the login send plain `SELECT`s only.  The first of them opens the
snapshot all of them see, so such a request is answered as specified on the rows that were
committed at that moment, between its first call and its last, whatever other requests
commit meanwhile.
-/

namespace TaskPlatform

open Transaction Service Database Relational Platform

/-- A call that sees the snapshot, the session or nothing at all. -/
def Call.isPlain : Call → Prop
  | select _ | memberAttributes _ _ | utcNow | hashPassword _ | verifyPassword _ _
  | checkRateLimit _ => True
  | _ => False

/-! ## The text of the requests -/

section Text

theorem plain_getCurrentUser (subject : Option String) :
    Issues Call.isPlain (getCurrentUser subject) :=
  issues_bind issues_orRaise fun _ =>
    issues_bind (issues_call trivial) fun _ => issues_orRaise

theorem plain_membershipRole (access : WorkspaceAccess) :
    Issues Call.isPlain access.membershipRole :=
  issues_bind (issues_call trivial) fun _ => issues_pure _

theorem plain_enforceWriteLimit (u : Id) (scope : Scope) (w : Option Id) :
    Issues Call.isPlain (enforceWriteLimit u scope w) := by
  refine issues_bind (issues_call trivial) fun decision => ?_
  cases enforceWriteRateLimit decision with
  | ok _ => exact issues_pure _
  | error e => exact issues_throw _

theorem plain_enforceAuthLimit (check : RateCheck) :
    Issues Call.isPlain (enforceAuthLimit check) := by
  refine issues_bind (issues_call trivial) fun decision => ?_
  cases enforceAuthRateLimit decision with
  | ok _ => exact issues_pure _
  | error e => exact issues_throw _

theorem plain_workspaceAccess (subject : Option String) (w : Id) :
    Issues Call.isPlain (workspaceAccess subject w) := by
  refine issues_bind (plain_getCurrentUser subject) fun user => ?_
  exact issues_bind (issues_call trivial) fun _ =>
    issues_bind issues_orRaise fun _ => issues_pure _

theorem plain_taskAccess (subject : Option String) (w t : Id) :
    Issues Call.isPlain (taskAccess subject w t) := by
  refine issues_bind (plain_workspaceAccess subject w) fun access => ?_
  exact issues_bind (issues_call trivial) fun _ =>
    issues_bind issues_orRaise fun _ => issues_pure _

theorem plain_limitedTaskAccess (scope : Scope) (subject : Option String) (w t : Id) :
    Issues Call.isPlain (limitedTaskAccess scope subject w t) := by
  refine issues_bind (plain_taskAccess subject w t) fun access => ?_
  exact issues_bind (plain_enforceWriteLimit _ _ _) fun _ => issues_pure _

/-- Two queries and a page. -/
theorem plain_listing {β : Type} {count select : Query} {f : count.Val → select.Val → β} :
    Issues Call.isPlain
      (do
        let total ← call (.select count)
        let rows ← call (.select select)
        return f total rows : Service β) :=
  issues_bind (issues_call trivial) fun _ =>
    issues_bind (issues_call trivial) fun _ => issues_pure _

theorem plain_authenticateUser (username password : String) :
    Issues Call.isPlain (authenticateUser username password) := by
  unfold authenticateUser
  refine issues_bind (issues_call trivial) fun row => issues_bind issues_orRaise fun user => ?_
  exact issues_bind (issues_call trivial) fun _ =>
    issues_bind issues_raiseIf fun _ => issues_pure _

/-- The requests that change no row. -/
def Request.isReading : Request → Prop
  | login _ _ _ | getMe _ | listWorkspaces _ _ | getWorkspace _ _ | listMembers _ _ _
  | listTasks _ _ _ | getTask _ _ _ => True
  | _ => False

theorem plain_route {request : Request} (h : request.isReading) :
    Issues Call.isPlain request.route := by
  cases request with
  | login ip username password =>
      exact issues_bind (plain_enforceAuthLimit _) fun _ =>
        issues_bind (plain_authenticateUser username password) fun _ => issues_pure _
  | getMe subject => exact issues_bind (plain_getCurrentUser subject) fun _ => issues_pure _
  | listWorkspaces subject page =>
      exact issues_bind (plain_getCurrentUser subject) fun _ =>
        issues_bind issues_validBody fun _ => issues_bind plain_listing fun _ => issues_pure _
  | getWorkspace subject w =>
      refine issues_bind (plain_workspaceAccess subject w) fun access => ?_
      refine issues_bind (issues_bind (plain_membershipRole access) fun _ => issues_pure _)
        fun _ => issues_pure _
  | listMembers subject w page =>
      exact issues_bind (plain_workspaceAccess subject w) fun _ =>
        issues_bind issues_validBody fun _ => issues_bind plain_listing fun _ => issues_pure _
  | listTasks subject w query =>
      exact issues_bind (plain_workspaceAccess subject w) fun _ =>
        issues_bind issues_validBody fun _ => issues_bind plain_listing fun _ => issues_pure _
  | getTask subject w t =>
      exact issues_bind (plain_taskAccess subject w t) fun _ => issues_pure _
  | _ => exact h.elim

end Text

variable [Collation]

/-- Plain calls read from the snapshot. -/
theorem snapshotReads_plain : SnapshotReads Session.machine Session.readView Call.isPlain where
  shared := by
    intro c env l d hc
    cases c with
    | select q =>
        simp only [Session.machine, Session.exec, Session.statement]
        cases env.fault with
        | none => rfl
        | some e => rfl
    | memberAttributes w u =>
        simp only [Session.machine, Session.exec, Session.memberAttributes]
        cases l.members.find? (memberKey w u) with
        | none => rfl
        | some m => rfl
    | utcNow | hashPassword _ | verifyPassword _ _ | checkRateLimit _ => rfl
    | _ => exact hc.elim
  opened := by
    intro c env l d snap hc hview
    cases c with
    | select q =>
        have hsame : l.view d = l.view snap := by rw [Session.view, Session.view, hview]; rfl
        obtain ⟨hkeeps, _, _⟩ := q.load_keeps l (q.eval (l.view snap))
        simp only [Session.machine, Session.exec, Session.statement]
        cases env.fault with
        | none =>
            simp only [Session.select, Session.openView, hsame, hkeeps, hview, Option.getD_some,
              and_self]
        | some e => exact ⟨rfl, rfl, hview⟩
    | memberAttributes w u =>
        simp only [Session.machine, Session.exec, Session.memberAttributes]
        cases l.members.find? (memberKey w u) with
        | none => exact ⟨rfl, rfl, hview⟩
        | some m => exact ⟨rfl, rfl, hview⟩
    | utcNow | hashPassword _ | verifyPassword _ _ | checkRateLimit _ => exact ⟨rfl, rfl, hview⟩
    | _ => exact hc.elim
  opens := by
    intro c env l d hc hview
    cases c with
    | select q =>
        obtain ⟨hkeeps, _, _⟩ := q.load_keeps l (q.eval (l.view d))
        simp only [Session.machine, Session.exec, Session.statement]
        cases env.fault with
        | none =>
            refine Or.inl ?_
            simp only [Session.select, Session.openView, hkeeps, hview, Option.getD_none]
        | some e => exact Or.inr ⟨hview, fun _ => ⟨rfl, rfl⟩⟩
    | memberAttributes w u =>
        simp only [Session.machine, Session.exec, Session.memberAttributes]
        cases l.members.find? (memberKey w u) with
        | none => exact Or.inr ⟨hview, fun _ => ⟨rfl, rfl⟩⟩
        | some m => exact Or.inr ⟨hview, fun _ => ⟨rfl, rfl⟩⟩
    | utcNow | hashPassword _ | verifyPassword _ _ | checkRateLimit _ =>
        exact Or.inr ⟨hview, fun _ => ⟨rfl, rfl⟩⟩
    | _ => exact hc.elim

/-! ## Their answers -/

/-- How snapshots age in the company of others. -/
structure Ages (R : Session → Database → Database → Prop) (S : Database → Database → Prop) :
    Prop where
  intact : ∀ l d d', R l d d' → Intact d'
  ages : ∀ l d d', R l d d' → S d d'
  trans : ∀ d d' d'', S d d' → S d' d'' → S d d''
  refl : ∀ d, Intact d → S d d

theorem ages_surrounds : Ages Surrounds Since where
  intact _ _ _ h := h.intact
  ages _ _ _ h := h.since
  trans _ _ _ h h' := h.trans h'
  refl d hd := ⟨.refl d, hd⟩

section Runs

variable {R : Session → Database → Database → Prop} {S : Database → Database → Prop}
  {good : Env → Prop} {request : Request} {d : Database}

omit [Collation] in
theorem quiet_of_unchanged {log : Log} (h : ∀ m ∈ log, m.after = m.before) :
    Quiet SameRows log := by
  intro m hm
  rw [h m hm]
  exact .refl _

/-- A service of plain calls ends as it does alone on the snapshot. -/
theorem acts_plain (hR : Ages R S) {α : Type} {x : Service α} (hx : Issues Call.isPlain x)
    {l : Session} {log : Log} {Q : Database → α → Session → Database → Prop}
    {E : Database → Exc → Database → Prop} {Q' : α → Session × Log → Database → Prop}
    {E' : Exc → Session × Log → Database → Prop} (hview : l.readView = none)
    (hs : ∀ snap, Intact snap → Ends good x (Q snap) (E snap) l snap)
    (hok : ∀ a l' log' d', (∀ m ∈ log', m.after = m.before) →
      SeenAt Intact S (fun snap => Q snap a l' snap) l'.readView log' d' →
        Q' a (l', log ++ log') d')
    (herror : ∀ e l' log' d', (∀ m ∈ log', m.after = m.before) →
      SeenAt Intact S (fun snap => E snap e snap) l'.readView log' d' →
        E' e (l', log ++ log') d') :
    Acts R good request x Q' E' (l, log) d := by
  have hquiet : ∀ log d, MovesAtOnce good request log d d := fun _ d => Or.inl (.refl d)
  refine wpE_mono x ?_ ?_ (wpE_of_snapshotReads snapshotReads_plain hquiet hR.ages hR.trans
    hR.intact hR.refl hx hview hs)
  · rintro a ⟨l', _⟩ d' ⟨log', rfl, hunchanged, hseen⟩
    exact hok a l' log' d' hunchanged hseen
  · rintro e ⟨l', _⟩ d' ⟨log', rfl, hunchanged, hseen⟩
    exact herror e l' log' d' hunchanged hseen

/-- What was read off a snapshot is answered at the call that opened it. -/
theorem resolved_of_seen {found : Env → Prop} {response : Response} {snapshot : Option Database}
    {log : Log} (hunchanged : ∀ m ∈ log, m.after = m.before)
    (hseen : SeenAt Intact S (fun snap => Answers found request snap response snap) snapshot log
      d) : Resolved found request response log := by
  rcases hseen with hany | ⟨m, hm, _, _, _, hanswers⟩
  · exact Or.inr ⟨quiet_of_unchanged hunchanged, hany⟩
  · refine Or.inl ((quiet_of_unchanged hunchanged).atomic hm ?_)
    rw [hunchanged m hm]
    exact hanswers

/-- A request that has opened its snapshot, with the call `move`. -/
structure Snapped (S : Database → Database → Prop) (move : Move Call Env Session Database)
    (l : Session) (log : Log) (d : Database) : Prop where
  opened : move ∈ log
  view : l.readView = some move.before
  intact : Intact move.before
  unchanged : ∀ m ∈ log, m.after = m.before
  since : S move.before d

namespace Snapped

variable {move : Move Call Env Session Database} {l : Session} {log : Log}
  (h : Snapped S move l log d)

include h

theorem step (hR : ∀ d d' d'', S d d' → S d' d'' → S d d'') {d' : Database} (hd : S d d')
    {m : Move Call Env Session Database} (hm : m.after = m.before) :
    Snapped S move l (log ++ [m]) d' where
  opened := List.mem_append_left _ h.opened
  view := h.view
  intact := h.intact
  unchanged := List.forall_mem_append.mpr ⟨h.unchanged, List.forall_mem_singleton.mpr hm⟩
  since := hR _ _ _ h.since hd

/-- What is refused on the snapshot is refused at the call that opened it. -/
theorem refused {found : Env → Prop} {i : Circumstances} (hi : i.FoundIn found) {e : Exc}
    (he : respond i move.before request = .error e) :
    AnsweredAtOnce found request (.error e) log := by
  refine (quiet_of_unchanged h.unchanged).atomic h.opened ?_
  rw [h.unchanged move h.opened]
  exact answers_error h.intact.consistent hi he

end Snapped

/-- The role is read off the membership the session has loaded. -/
theorem acts_ownRole {w : Id} {access : WorkspaceAccess} {own : WorkspaceMember} {snap : Database}
    {l : Session} {log : Log} (h : Opened snap w access own l)
    {Q : MemberRole → Session × Log → Database → Prop} {E : Exc → Session × Log → Database → Prop}
    (hQ : ∀ d' (m : Move Call Env Session Database), R l d d' → m.after = m.before →
      Q own.role (l, log ++ [m]) d') :
    Acts R good request access.membershipRole Q E (l, log) d := by
  refine acts_bind (acts_answered (fun h => by cases h) fun env d' _ hd => ?_)
  have hown : l.members.find? (memberKey access.workspace.id access.currentUser.id) = some own := by
    rw [h.id]
    exact h.mirror.member_eq h.own h.member
  refine ⟨own, l, d', by simp only [Session.exec, Session.memberAttributes, hown], acts_pure ?_⟩
  exact hQ d' _ hd rfl

/-- A guard of plain calls: whom it refuses, the call that opened the snapshot refuses. -/
theorem acts_guarded (hR : Ages R S) {α : Type} {x : Service α} (hx : Issues Call.isPlain x)
    {P : Database → α → Session → Prop}
    (hs : ∀ snap, Intact snap → Ends good x (fun a l _ => P snap a l)
      (fun e _ => ∃ i, i.FoundIn good ∧ respond i snap request = .error e) {} snap)
    (hblind : ∀ a l, ¬ P Database.empty a l) {Q : α → Session × Log → Database → Prop}
    {E : Exc → Session × Log → Database → Prop}
    (hrefuse : ∀ e l log d, Resolved good request (.error e) log → E e (l, log) d)
    (hQ : ∀ a move l log d, Snapped S move l log d → P move.before a l → Q a (l, log) d) :
    Acts R good request x Q E ({}, []) d := by
  refine acts_plain hR hx rfl hs (fun a l log d' hunchanged hseen => ?_)
    fun e l log d' hunchanged hseen => ?_
  · rcases hseen with hany | ⟨move, hmove, hview, hintact, hsince, hP⟩
    · -- nobody is let in to an empty platform
      have hempty : Intact Database.empty :=
        ⟨consistent_empty, fun _ h => absurd h List.not_mem_nil⟩
      exact absurd (hany _ hempty) (hblind a l)
    · exact hQ a move l log d' ⟨hmove, hview, hintact, hunchanged, hsince⟩ hP
  · refine hrefuse e l log d' (resolved_of_seen hunchanged
      (hseen.imp fun snap hsnap hrefused => ?_))
    obtain ⟨i, hi, he⟩ := hrefused
    exact answers_error hsnap.consistent hi he

theorem acts_reading (hgood : ∀ env, good env → env.Faultless) (hsome : ∃ env, good env)
    (hread : request.isReading) :
    Acts Surrounds good request request.route
      (fun body s _ => Resolved good request (.ok body) s.2)
      (fun e s _ => Resolved good request (.error e) s.2) ({}, []) d := by
  refine acts_plain ages_surrounds (plain_route hread) rfl
    (fun snap hsnap => fulfils_route hgood hsome hsnap.consistent request)
    (fun body l log d' hunchanged hseen => ?_) fun e l log d' hunchanged hseen => ?_
  · refine resolved_of_seen hunchanged (hseen.imp fun snap hsnap h => ?_)
    obtain ⟨i, hi, hanswer⟩ := h
    exact answers_ok hsnap.consistent hi hanswer
  · refine resolved_of_seen hunchanged (hseen.imp fun snap hsnap h => ?_)
    obtain ⟨_, i, hi, hanswer⟩ := h
    exact answers_error hsnap.consistent hi hanswer

/-- In every interleaving a request that only reads, and has no call that fails, is answered
as specified on the rows one of its own calls found committed. -/
theorem reads_answered_at_once {d₀ : Database} (hd : Intact d₀)
    {σ : System Request Call Call.Res Response (Session × Log) Database} (hr : Records d₀ σ)
    {i : Nat} (hread : request.isReading) {response : Response} {s : Session × Log}
    (hi : σ.procs i = some ⟨request, .ret response, s⟩)
    (hfaultless : ∀ m ∈ s.2, m.env.Faultless) :
    AnsweredAtOnce (FoundBy s.2) request response s.2 := by
  have hgood : ∀ env, FoundBy s.2 env → env.Faultless := by
    rintro env ⟨m, hm, rfl⟩
    exact hfaultless m hm
  exact wp_of_records (fun _ _ _ h => h.intact) (fun _ _ _ _ h hm hbefore => h.closed hm hbefore)
    (company_surrounds hd) (fun request d hread hsome => acts_reading hgood hsome hread) hr i _ hi
    hread fun m hm => ⟨m, hm, rfl⟩

end Runs

/-! ### The members of a workspace are listed -/

def membersListed : Request := .listMembers (some "member") 1 (PageQuery.validate 20 0)

omit [Collation] in
theorem reads_answered_at_once_members :
    let _ := sampleCollation
    ∃ page, (undisturbed membersListed 10).prog.value? = some (.ok (.members page)) ∧
      page.total = 2 ∧
      AnsweredAtOnce (FoundBy (undisturbed membersListed 10).loc.2) membersListed
        (.ok (.members page)) (undisturbed membersListed 10).loc.2 := by
  intro collation
  have hvalue : (undisturbed membersListed 10).prog.value? = some (.ok (.members
      ⟨[⟨1, "owner", .owner, 0, 0⟩, ⟨2, "member", .member, 0, 0⟩], 2, 20, 0⟩)) := by decide +kernel
  have hread : membersListed.isReading := trivial
  exact ⟨_, hvalue, rfl, reads_answered_at_once intact_sampleDatabase
    (records_undisturbed membersListed 10) hread (procs_undisturbed hvalue)
    (faultless_undisturbed membersListed 10)⟩

end TaskPlatform
