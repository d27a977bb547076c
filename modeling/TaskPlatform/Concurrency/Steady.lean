import TaskPlatform.Concurrency.Additions

/-!
# New members and tasks in company

`add_member` and `create_task` act on a role they read off their snapshot.  As long as
nobody's membership is changed or removed the role is still the same when they commit, so
they too are answered at one moment: their commit, or the call that refused them.
-/

namespace TaskPlatform

open Transaction Service Database Relational Platform

/-- The requests that leave the memberships there are as they are. -/
def Request.keepsMembers : Request → Prop
  | updateMemberRole _ _ _ _ | removeMember _ _ _ => False
  | _ => True

/-! ## Company that changes no membership -/

section Steadiness

variable [Collation] {l : Session} {d d' d'' : Database}

theorem Commits.member?_stays {rely : RowKey → Database → Database → Prop} {snap : Database}
    {held : RowKey → Prop} {request : Request} {ws : List Write} (hd : Consistent d)
    (h : Commits rely snap held d request ws) (hkeeps : request.keepsMembers) {w u : Id}
    {m : WorkspaceMember} (hm : d.member? w u = some m) : (d.applyAll ws).member? w u = some m := by
  have hput : ∀ row : WorkspaceMember, d.member? row.workspaceId row.userId = none →
      (d.apply (.putMember row)).member? w u = some m := by
    intro row hfree
    rw [member?_putMember]
    by_cases hkey : w = row.workspaceId ∧ u = row.userId
    · rw [hkey.1, hkey.2, hfree] at hm
      cases hm
    · rw [if_neg hkey]
      exact hm
  cases h with
  | createWorkspace _ _ hfree _ hmember =>
      refine hput _ ?_
      rw [hmember.1]
      exact member?_of_free hd hfree _
  | addMember _ _ hmember habsent =>
      refine hput _ ?_
      rw [hmember.1]
      exact habsent
  | updateMemberRole => exact hkeeps.elim
  | removeMember => exact hkeeps.elim
  | _ => exact hm

/-- What a request meets while nobody's membership is changed. -/
structure Steady (l : Session) (d d' : Database) : Prop extends Surrounds l d d' where
  member : ∀ w u m, d.member? w u = some m → d'.member? w u = some m

/-- Rows that are committed later, with the same members and maybe more. -/
structure SteadySince (d d' : Database) : Prop extends Since d d' where
  member : ∀ w u m, d.member? w u = some m → d'.member? w u = some m

theorem Steady.trans (h : Steady l d d') (h' : Steady l d' d'') : Steady l d d'' :=
  { h.toSurrounds.trans h'.toSurrounds with
    member := fun w u m hm => h'.member w u m (h.member w u m hm) }

theorem Steady.steadySince (h : Steady l d d') : SteadySince d d' :=
  { h.toSurrounds.since with member := h.member }

theorem ages_steady : Ages Steady SteadySince where
  intact _ _ _ h := h.intact
  ages _ _ _ h := h.steadySince
  trans _ _ _ h h' := { h.toSince.trans h'.toSince with
    member := fun w u m hm => h'.member w u m (h.member w u m hm) }
  refl d hd := { persists := .refl d, intact := hd, member := fun _ _ _ hm => hm }

theorem company_steady {kinds : Request → Prop} {d₀ : Database} (hd : Intact d₀)
    (hkinds : ∀ request, kinds request → request.keepsMembers) : Company kinds d₀ Steady := by
  have hsurrounds : Company kinds d₀ Surrounds := company_surrounds hd
  refine ⟨fun _ _ _ _ h h' => h.trans h', fun τ hτ l => ?_, ?_⟩
  · exact { hsurrounds.self τ hτ l with member := fun _ _ _ hm => hm }
  · intro τ τ' j k t l l' q hτ hs hk hq
    refine { hsurrounds.other τ τ' j k t l l' q hτ hs hk hq with member := ?_ }
    have hreach : Reaches d₀ τ := System.reachable_of_kinds (fun _ _ => trivial) hτ
    have hkeeps : t.keepsMembers := by
      cases hs with
      | call env hp hfree => exact hkinds _ (System.kind_of_reachable hτ j _ hp)
    intro w u m hm
    cases publishes_of_callStep hreach hs with
    | quiet hsame =>
        rw [← hsame.member? w u]
        exact hm
    | commit _ _ _ hcommits hd' =>
        rw [hd']
        exact hcommits.member?_stays (intact_of_reaches hd hreach).consistent hkeeps hm

end Steadiness

/-! ## Who was let in -/

theorem plain_limitedWorkspaceAccess (scope : Scope) (subject : Option String) (w : Id) :
    Issues Call.isPlain (limitedWorkspaceAccess scope subject w) := by
  refine issues_bind (plain_workspaceAccess subject w) fun access => ?_
  exact issues_bind (plain_enforceWriteLimit _ _ _) fun _ => issues_pure _

theorem plain_limitedRoleAccess (scope : Scope) (roles : List MemberRole)
    (subject : Option String) (w : Id) :
    Issues Call.isPlain (limitedRoleAccess scope roles subject w) := by
  refine issues_bind (plain_workspaceAccess subject w) fun access => ?_
  refine issues_bind (issues_bind (plain_membershipRole access) fun _ => issues_raiseIf) fun _ => ?_
  exact issues_bind (plain_enforceWriteLimit _ _ _) fun _ => issues_pure _

section Guards

variable [Collation] {good : Env → Prop} {scope : Scope} {roles : List MemberRole}
  {subject : Option String} {w : Id} {access : WorkspaceAccess} {own : WorkspaceMember}
  {limit : Env} {request : Request} {l : Session} {log : Log} {d d' : Database}
  {move : Move Call Env Session Database} {user : User} {workspace : Workspace}
  {i : Circumstances}

theorem enterToWrite_of_known (h : Known subject w user workspace d)
    (hown : d.member? w user.id = some own) (hi : Unhurried user scope w i) :
    enterToWrite d i scope subject w = .ok ⟨user, workspace, own⟩ := by
  rw [enterToWrite, enter_of_known h hown, ok_bind]
  show (permitWrite i user scope (some w) >>= fun _ => _) = _
  rw [permitWrite, permit, hi]
  rfl

theorem enterToManage_of_known (h : Known subject w user workspace d)
    (hown : d.member? w user.id = some own) (hrole : own.role ∈ roles)
    (hi : Unhurried user scope w i) :
    enterToManage d i scope roles subject w = .ok ⟨user, workspace, own⟩ := by
  have hentry : Entrant.role ⟨user, workspace, own⟩ ∈ roles := hrole
  rw [enterToManage, enter_of_known h hown, ok_bind, demand_pos hentry, ok_bind]
  show (permitWrite i user scope (some w) >>= fun _ => _) = _
  rw [permitWrite, permit, hi]
  rfl

/-- The write guard, on the snapshot the guards before it read. -/
theorem ends_writeGuard (h : Granted d subject w access own l) {E : Exc → Database → Prop}
    (hraise : ∀ i e, i.FoundIn good →
      permitWrite i access.currentUser scope (some w) = .error e → E e d) :
    Ends good
      (do
        enforceWriteLimit access.currentUser.id scope (some access.workspace.id)
        return access)
      (fun access l _ => ∃ env, Granted d subject w access own l ∧ good env ∧
        Unhurried access.currentUser scope w env.circumstances) E l d := by
  rw [h.id]
  refine ends_bind (ends_permitWrite (fun env henv e he => ?_)
    fun env henv hok => ends_pure ⟨env, h, henv, hok⟩)
  refine hraise env.circumstances _ (foundIn_env henv) ?_
  rw [permitWrite, permit, show env.circumstances.limiter = env.limiter from rfl, he]
  rfl

/-- What a request knows that has been let in to a workspace. -/
structure Inside (good : Env → Prop) (scope : Scope) (subject : Option String) (w : Id)
    (access : WorkspaceAccess) (own : WorkspaceMember) (move : Move Call Env Session Database)
    (limit : Env) (l : Session) (log : Log) (d : Database) : Prop
    extends Granted move.before subject w access own l, Snapped SteadySince move l log d where
  limited : good limit
  unhurried : Unhurried access.currentUser scope w limit.circumstances

namespace Inside

variable (h : Inside good scope subject w access own move limit l log d)

include h

theorem known (hd : SteadySince d d') :
    Known subject w access.currentUser access.workspace d' := by
  have hsince : SteadySince move.before d' := ages_steady.trans _ _ _ h.since hd
  exact Known.persists ⟨h.token, h.workspace⟩ hsince.persists hd.intact.names

/-- Nobody has changed the own membership. -/
theorem own_stays (hd : SteadySince d d') : d'.member? w access.currentUser.id = some own :=
  (ages_steady.trans _ _ _ h.since hd).member _ _ _ h.member

theorem known_before : Known subject w access.currentUser access.workspace move.before :=
  ⟨h.token, h.workspace⟩

theorem next (hd : Steady l d d') {m : Move Call Env Session Database}
    (hm : m.after = m.before) :
    Inside good scope subject w access own move limit l (log ++ [m]) d' :=
  { h.toGranted, h.toSnapped.step ages_steady.trans hd.steadySince hm with
    limited := h.limited, unhurried := h.unhurried }

theorem quiet : Quiet SameRows log := quiet_of_unchanged h.unchanged

/-- What is refused on the snapshot is refused. -/
theorem refused_before {e : Exc}
    (he : respond limit.circumstances move.before request = .error e) :
    AnsweredAtOnce good request (.error e) log :=
  h.toSnapped.refused (foundIn_env h.limited) he

end Inside

variable {E : Exc → Session × Log → Database → Prop}
  (hgood : ∀ env, good env → env.Faultless) (hsome : ∃ env, good env)

include hgood hsome

/-- The guards of a request that writes to a workspace. -/
theorem acts_enterToWrite
    (hfirst : ∀ i d e, enterToWrite d i scope subject w = .error e → respond i d request = .error e)
    {Q : WorkspaceAccess → Session × Log → Database → Prop}
    (hrefuse : ∀ e l log d, Resolved good request (.error e) log → E e (l, log) d)
    (hQ : ∀ access own move limit l log d,
      Inside good scope subject w access own move limit l log d → Q access (l, log) d) :
    Acts Steady good request (limitedWorkspaceAccess scope subject w) Q E ({}, []) d := by
  refine acts_guarded (P := fun snap access l => ∃ own env, Granted snap subject w access own l ∧
      good env ∧ Unhurried access.currentUser scope w env.circumstances)
    ages_steady (plain_limitedWorkspaceAccess scope subject w) (fun snap _ => ?_)
    (fun access l hgranted => ?_) hrefuse fun access move l log d hsnapped hgranted => ?_
  · refine ends_bind (ends_enter (Session.mirrors_nil snap) (serverFails_of_good hgood _ snap)
      (fun e he => ?_) fun access own l hentry h => ?_)
    · obtain ⟨env, henv⟩ := hsome
      refine ⟨env.circumstances, foundIn_env henv, hfirst _ _ _ ?_⟩
      rw [enterToWrite, he]
      rfl
    · refine smoothE_mono (fun _ _ _ hgranted => ⟨own, hgranted⟩) (fun _ _ _ he => he)
        (ends_writeGuard h fun i e hi he => ⟨i, hi, hfirst _ _ _ ?_⟩)
      rw [enterToWrite, hentry, ok_bind]
      show (permitWrite i access.currentUser scope (some w) >>= fun _ => _) = _
      rw [he]
      rfl
  · obtain ⟨_, _, hgranted, _⟩ := hgranted
    cases hgranted.workspace
  · obtain ⟨own, limit, hgranted, hlimit, hunhurried⟩ := hgranted
    exact hQ access own move limit l log d
      { hgranted, hsnapped with limited := hlimit, unhurried := hunhurried }

/-- The guards of a request that manages the members of a workspace. -/
theorem acts_enterToManage
    (hfirst : ∀ i d e, enterToManage d i scope roles subject w = .error e →
      respond i d request = .error e)
    {Q : WorkspaceAccess → Session × Log → Database → Prop}
    (hrefuse : ∀ e l log d, Resolved good request (.error e) log → E e (l, log) d)
    (hQ : ∀ access own move limit l log d,
      Inside good scope subject w access own move limit l log d → own.role ∈ roles →
        Q access (l, log) d) :
    Acts Steady good request (limitedRoleAccess scope roles subject w) Q E ({}, []) d := by
  refine acts_guarded (P := fun snap access l => ∃ own env, Granted snap subject w access own l ∧
      own.role ∈ roles ∧ good env ∧ Unhurried access.currentUser scope w env.circumstances)
    ages_steady (plain_limitedRoleAccess scope roles subject w) (fun snap _ => ?_)
    (fun access l hgranted => ?_) hrefuse fun access move l log d hsnapped hgranted => ?_
  · refine ends_bind (ends_enter (Session.mirrors_nil snap) (serverFails_of_good hgood _ snap)
      (fun e he => ?_) fun access own l hentry h => ends_bind ?_)
    · obtain ⟨env, henv⟩ := hsome
      refine ⟨env.circumstances, foundIn_env henv, hfirst _ _ _ ?_⟩
      rw [enterToManage, he]
      rfl
    refine ends_bind (ends_membershipRole h.toOpened (ends_raiseIf (fun hrole => ?_)
      fun hrole => ?_))
    · have hno : (access.entry own).role ∉ roles := hrole
      obtain ⟨env, henv⟩ := hsome
      refine ⟨env.circumstances, foundIn_env henv, hfirst _ _ _ ?_⟩
      rw [enterToManage, hentry, ok_bind, demand_neg hno]
      rfl
    · have hyes : (access.entry own).role ∈ roles := not_not.mp hrole
      refine smoothE_mono (fun _ _ _ hgranted => ?_) (fun _ _ _ he => he)
        (ends_writeGuard h fun i e hi he => ⟨i, hi, hfirst _ _ _ ?_⟩)
      · obtain ⟨env, hgranted, henv⟩ := hgranted
        exact ⟨own, env, hgranted, hyes, henv⟩
      · rw [enterToManage, hentry, ok_bind, demand_pos hyes, ok_bind]
        show (permitWrite i access.currentUser scope (some w) >>= fun _ => _) = _
        rw [he]
        rfl
  · obtain ⟨_, _, hgranted, _⟩ := hgranted
    cases hgranted.workspace
  · obtain ⟨own, limit, hgranted, hrole, hlimit, hunhurried⟩ := hgranted
    exact hQ access own move limit l log d
      { hgranted, hsnapped with limited := hlimit, unhurried := hunhurried } hrole

end Guards

/-! ## The services -/

section Services

variable [Collation] {good : Env → Prop} {subject : Option String} {w : Id}
  {access : WorkspaceAccess} {own : WorkspaceMember} {limit : Env} {l : Session} {log : Log}
  {d : Database} {move : Move Call Env Session Database} {user : User} {workspace : Workspace}
  {i : Circumstances}

theorem respond_addMember {data : WorkspaceMemberCreate} (h : Known subject w user workspace d)
    (hown : d.member? w user.id = some own) (hrole : own.role ∈ [MemberRole.owner, .admin])
    (hi : Unhurried user .memberAdd w i) :
    respond i d (.addMember subject w (some data)) = enroll i d ⟨user, workspace, own⟩ w data := by
  rw [respond, enterToManage_of_known h hown hrole hi]
  rfl

theorem respond_createTask {data : TaskCreate} (h : Known subject w user workspace d)
    (hown : d.member? w user.id = some own) (hi : Unhurried user .taskCreate w i) :
    respond i d (.createTask subject w (some data)) =
      newTask i d ⟨user, workspace, own⟩ w data := by
  rw [respond, enterToWrite_of_known h hown hi]
  rfl

omit [Collation] in
/-- A snapshot that is open stays open. -/
theorem Session.openView_of_view {snap : Database} (hview : l.readView = some snap) :
    l.openView d = l := by
  rw [Session.openView, hview]
  cases l
  cases hview
  rfl

/-- A name is looked up in the open snapshot. -/
theorem Session.exec_userByUsername {env : Env} (henv : env.Faultless) {snap : Database}
    (hview : l.readView = some snap) (hwrites : l.writes = []) (username : String) :
    Session.exec env (.select (.userByUsername username)) l d =
      (.ok (snap.userByUsername? username), l, d) := by
  refine (statement_faultless henv).trans ?_
  show (Except.ok ((l.view d).userByUsername? username), l.openView d, d) = _
  rw [Session.view_eq hview hwrites, Session.openView_of_view hview]

/-- `db.get` finds the membership of the open snapshot. -/
theorem acts_getMember (hgood : ∀ env, good env → env.Faultless) {request : Request} {scope : Scope}
    (h : Inside good scope subject w access own move limit l log d) {u : Id}
    {Q : Option WorkspaceMember → Session × Log → Database → Prop}
    {E : Exc → Session × Log → Database → Prop}
    (hQ : ∀ d' l' m, Steady l d d' → m.after = m.before →
      (move.before.member? w u = none → l' = l) →
        Q (move.before.member? w u) (l', log ++ [m]) d') :
    Acts Steady good request (call (.getMember w u)) Q E (l, log) d := by
  refine acts_answered (fun h => by cases h) fun env d' henv hd => ?_
  simp only [Session.exec, Session.getMember, statement_faultless (hgood env henv),
    Session.view_eq h.view h.mirror.writes]
  cases hkept : l.members.find? (memberKey w u) with
  | some m =>
      have hm : move.before.member? w u = some m := h.mirror.member _ m hkept
      exact ⟨_, _, _, rfl, hm ▸ hQ d' l _ hd rfl fun _ => rfl⟩
  | none =>
      cases hm : move.before.member? w u with
      | none =>
          refine ⟨_, _, _, rfl, hm ▸ hQ d' (l.openView d') _ hd rfl fun _ => ?_⟩
          exact Session.openView_of_view h.view
      | some m =>
          refine ⟨_, _, _, rfl, hm ▸ hQ d' _ _ hd rfl fun hnone => ?_⟩
          cases hm.symm.trans hnone

/-- Insert a member and commit. -/
theorem acts_saveMember (hgood : ∀ env, good env → env.Faultless) {data : WorkspaceMemberCreate}
    (h : Inside good .memberAdd subject w access own move limit l log d)
    (hrole : own.role ∈ [MemberRole.owner, .admin])
    (hadds : canAddMember own.role data.role.1 = true) {target : User}
    (htarget : move.before.userByUsername? data.username = some target)
    {E : Exc → Session × Log → Database → Prop}
    (htaken : ∀ l' log' d', AnsweredAtOnce good (.addMember subject w (some data))
      (.error (.app workspaceMemberAlreadyExistsError)) log' →
        E (.sql .duplicateKey) (l', log') d') :
    Acts Steady good (.addMember subject w (some data))
      (do
        let _ ← call (.insertMember w target.id data.role.1)
        let membership ← call (.refreshMember w target.id)
        call .commit
        return memberData membership target.username)
      (fun response s _ => AnsweredAtOnce good (.addMember subject w (some data))
        (.ok (.member response)) s.2) E (l, log) d := by
  have hwrites : l.writes = [] := h.mirror.writes
  have hnamed : move.before.actor? (some data.username) = some target := htarget
  -- the answer when the body is judged on other rows
  have henrolls : ∀ d' i, SteadySince d d' → Unhurried access.currentUser .memberAdd w i →
      respond i d' (.addMember subject w (some data)) = (do
        demand (d'.member? w target.id = none) workspaceMemberAlreadyExistsError
        let row : WorkspaceMember := ⟨w, target.id, data.role.1, i.now, i.now⟩
        return (.member (memberData row target.username), d'.apply (.putMember row))) := by
    intro d' i hd' hi
    have hadds : canAddMember (access.entry own).role data.role.1 = true := hadds
    have htarget' : d'.userByUsername? data.username = some target :=
      actor?_stays hd'.intact.names (ages_steady.trans _ _ _ h.since hd').persists hnamed
    rw [respond_addMember (h.known hd') (h.own_stays hd') hrole hi]
    show enroll i d' (access.entry own) w data = _
    rw [enroll, demand_pos hadds, ok_bind, htarget', expect_some, ok_bind]
  refine acts_bind (acts_tried (fun h => by cases h) fun env₁ d₁ henv₁ hd₁ => ?_)
  let row : WorkspaceMember := ⟨w, target.id, data.role.1, env₁.now, env₁.now⟩
  have hcurrent : l.current d₁ = d₁ := Session.current_eq hwrites
  have hinsert : Session.exec env₁ (.insertMember w target.id data.role.1) l d₁ =
      Session.insert (d₁.checkMember row) row (.putMember row) (l.keepMember row) d₁ :=
    (statement_faultless (hgood env₁ henv₁)).trans (by rw [Session.insertMember, hcurrent])
  have hlimit : limit.circumstances.FoundIn good := foundIn_env h.limited
  by_cases hmember : (d₁.member? w target.id).isSome
  · refine Or.inr ⟨.duplicateKey, l.keepMember row, d₁, ?_, ?_⟩
    · rw [hinsert, checkMember, if_pos hmember]
      rfl
    · refine htaken _ _ _ (h.quiet.atomic_concat ?_)
      refine answers_error hd₁.consistent hlimit ?_
      have htaken : ¬ d₁.member? w target.id = none := Option.isSome_iff_ne_none.mp hmember
      rw [henrolls d₁ _ hd₁.steadySince h.unhurried, demand_neg htaken]
      rfl
  have hfree : d₁.member? w target.id = none := Option.not_isSome_iff_eq_none.mp hmember
  have hcheck : d₁.checkMember row = .ok () := by
    refine checkMember_of_free hfree ?_ ?_
    · exact Option.isSome_of_eq_some (h.known hd₁.steadySince).workspace
    · exact Option.isSome_of_eq_some (user?_of_actor? (actor?_stays hd₁.names
        (ages_steady.trans _ _ _ h.since hd₁.steadySince).persists hnamed))
  let l₁ : Session := (l.keepMember row).write (.putMember row)
  refine Or.inl ⟨row, l₁, d₁, hinsert.trans (insert_passed hcheck), ?_⟩
  have hwrites₁ : l₁.writes = [.putMember row] :=
    Session.writes_write (l := l.keepMember row) hwrites _
  refine acts_bind (acts_answered (fun h => by cases h) fun env₂ d₂ henv₂ hd₂ => ?_)
  have hview : (l₁.view d₂).member? w target.id = some row := by
    rw [Session.view_write (l := l.keepMember row) hwrites, member?_putMember, if_pos ⟨rfl, rfl⟩]
  let l₂ : Session := (l₁.keepMember row).openView d₂
  refine ⟨row, l₂, d₂, (statement_faultless (hgood env₂ henv₂)).trans (by rw [hview]; rfl), ?_⟩
  have hcommitted : ∀ d', l₂.current d' = d'.apply (.putMember row) :=
    fun d' => Session.current_of_write (l := l.keepMember row) hwrites _ d'
  have hanswers : ∀ d₃, Steady l₂ d₂ d₃ → Answers good (.addMember subject w (some data)) d₃
      (.ok (.member (memberData row target.username))) (l₂.current d₃) := by
    intro d₃ hd₃
    have hheld : l₁.Holds (.member w target.id) :=
      Session.holds_write (l.keepMember row) (List.mem_singleton_self _)
    have hfree₃ : d₃.member? w target.id = none :=
      ((hd₃.toSurrounds.member? hheld).trans (hd₂.toSurrounds.member? hheld)).trans hfree
    have hsince : SteadySince d d₃ := ages_steady.trans _ _ _ hd₁.steadySince
      (ages_steady.trans _ _ _ hd₂.steadySince hd₃.steadySince)
    rw [hcommitted]
    refine answers_ok hd₃.consistent ((foundIn_env henv₁).withLimiter h.limited) ?_
    rw [henrolls d₃ { env₁.circumstances with limiter := limit.limiter } hsince h.unhurried,
      demand_pos hfree₃]
    rfl
  have hquiet₂ := (h.quiet.concat (m := ⟨env₁, .insertMember w target.id data.role.1, l, d₁, l₁,
      d₁⟩) (.refl d₁)).concat
    (m := ⟨env₂, .refreshMember w target.id, l₁, d₂, l₂, d₂⟩) (.refl d₂)
  refine acts_bind (acts_commit hgood (fun env₃ d₃ _ hd₃ => ?_)
    fun env₃ d₃ _ hd₃ => acts_pure ?_)
  · exact Or.inr ⟨hquiet₂, _, hanswers d₃ hd₃⟩
  · exact hquiet₂.atomic_concat (m := ⟨env₃, .commit, l₂, d₃, l₂.ended, l₂.current d₃⟩)
      (hanswers d₃ hd₃)

theorem acts_addMember (hgood : ∀ env, good env → env.Faultless) {data : WorkspaceMemberCreate}
    (h : Inside good .memberAdd subject w access own move limit l log d)
    (hrole : own.role ∈ [MemberRole.owner, .admin]) :
    Acts Steady good (.addMember subject w (some data))
      (addMember access data.username data.role.1)
      (fun response s _ => AnsweredAtOnce good (.addMember subject w (some data))
        (.ok (.member response)) s.2)
      (fun e s _ => AnsweredAtOnce good (.addMember subject w (some data)) (.error e) s.2)
      (l, log) d := by
  have hanswer : respond limit.circumstances move.before (.addMember subject w (some data)) =
      enroll limit.circumstances move.before (access.entry own) w data :=
    respond_addMember h.known_before h.member hrole h.unhurried
  have hsnapshot : ∀ d', l.view d' = move.before := fun _ =>
    Session.view_eq h.view h.mirror.writes
  refine acts_bind (acts_ownRole h.toOpened fun d₁ m₁ hd₁ hm₁ => acts_bind (acts_raiseIf
    (fun hno => ?_) fun hyes => ?_))
  · have hno : ¬ canAddMember (access.entry own).role data.role.1 = true := fun hyes =>
      Bool.false_ne_true (hno.symm.trans hyes)
    refine (h.next hd₁ hm₁).refused_before ?_
    rw [hanswer, enroll, demand_neg hno]
    rfl
  have h := h.next hd₁ hm₁
  have hyes : canAddMember (access.entry own).role data.role.1 = true := Bool.of_not_eq_false hyes
  -- only a membership that was added meanwhile is a database error
  refine (wpE_tryCatch _ _).mpr (wpE_mono _ (fun _ _ _ h => h) (fun e s d he => ?_)
    (E := fun e s _ =>
      (e = .sql .duplicateKey ∧ AnsweredAtOnce good (.addMember subject w (some data))
        (.error (.app workspaceMemberAlreadyExistsError)) s.2) ∨
      ∃ app, e = .app app ∧ AnsweredAtOnce good (.addMember subject w (some data)) (.error e) s.2)
    ?_)
  · rcases he with ⟨rfl, hanswered⟩ | ⟨app, rfl, hanswered⟩
    · refine acts_bind (acts_answered (fun h => by cases h) fun env d' _ _ => ⟨(), {}, d', rfl, ?_⟩)
      exact acts_throw (hanswered.concat (.refl d'))
    · exact acts_throw hanswered
  refine acts_bind (acts_answered (fun h => by cases h) fun env₂ d₂ henv₂ hd₂ =>
    ⟨_, l, d₂, Session.exec_userByUsername (hgood env₂ henv₂) h.view h.mirror.writes _, ?_⟩)
  have h := h.next hd₂ (m := ⟨env₂, .select (.userByUsername data.username), l, d₂, l, d₂⟩) rfl
  refine acts_bind (acts_orRaise (fun hnone => ?_) fun target htarget => ?_)
  · refine Or.inr ⟨_, rfl, h.refused_before ?_⟩
    rw [hanswer, enroll, demand_pos hyes, ok_bind, hnone]
    rfl
  rw [h.id]
  refine acts_bind (acts_getMember hgood h fun d₃ l₃ m₃ hd₃ hm₃ hopen => ?_)
  have h := h.next hd₃ hm₃
  refine acts_bind (acts_raiseIf (fun hsome => Or.inr ⟨_, rfl, ?_⟩) fun hnone => ?_)
  · have htaken : ¬ move.before.member? w target.id = none := Option.isSome_iff_ne_none.mp hsome
    refine h.refused_before ?_
    rw [hanswer, enroll, demand_pos hyes, ok_bind, htarget, expect_some, ok_bind, demand_neg htaken]
    rfl
  · rw [hopen (Option.not_isSome_iff_eq_none.mp hnone)]
    exact acts_saveMember hgood h hrole hyes htarget fun _ _ _ hanswered => Or.inl ⟨rfl, hanswered⟩

/-- The answer to a new task, with the id the row was given at its insert. -/
theorem answers_createTask {data : TaskCreate} (hd : Consistent d)
    (hknown : Known subject w user workspace d) (hown : d.member? w user.id = some own)
    (hlimit : good limit ∧ Unhurried user .taskCreate w limit.circumstances) {env : Env}
    (henv : good env) {t : Id} (hid : d.task? t = none) :
    Answers good (.createTask subject w (some data)) d
      (.ok (.task (taskData (data.row w user.id t env.now))))
      (d.apply (.putTask (data.row w user.id t env.now))) := by
  let i : Circumstances := { env.circumstances with limiter := limit.limiter }
  let D : Database := { d with nextTaskId := t }
  refine ⟨i, D, { D with tasks := D.tasks.put (data.row w user.id t env.now), nextTaskId := t + 1 },
    (foundIn_env henv).withLimiter hlimit.1, ⟨rfl, rfl, rfl, rfl⟩,
    ⟨hd.user_free, hd.workspace_free, hid⟩, ?_, ⟨rfl, rfl, rfl, rfl⟩⟩
  have hknown : Known subject w user workspace D := ⟨hknown.actor, hknown.workspace⟩
  have hown : D.member? w user.id = some own := hown
  have hunhurried : Unhurried user .taskCreate w i := hlimit.2
  rw [respond_createTask hknown hown hunhurried]
  rfl

theorem acts_createTask (hgood : ∀ env, good env → env.Faultless) {data : TaskCreate}
    (h : Inside good .taskCreate subject w access own move limit l log d)
    {E : Exc → Session × Log → Database → Prop} :
    Acts Steady good (.createTask subject w (some data)) (createTask access data)
      (fun response s _ => AnsweredAtOnce good (.createTask subject w (some data))
        (.ok (.task response)) s.2) E (l, log) d := by
  have hwrites : l.writes = [] := h.mirror.writes
  refine wpE_mono _ (fun _ _ _ h => h) (fun _ _ _ h => h.elim)
    (acts_rollbackOnSqlError (P := fun _ _ => False) (fun _ _ _ h _ => h) ?_)
  refine acts_bind (acts_answered (fun h => by cases h) fun env₁ d₁ henv₁ hd₁ => ?_)
  rw [h.id]
  let row : Task := data.row w access.currentUser.id d₁.nextTaskId env₁.now
  let d₁' : Database := { d₁ with nextTaskId := d₁.nextTaskId + 1 }
  have hcurrent : l.current d₁ = d₁ := Session.current_eq hwrites
  have hrefs := hd₁.consistent.member_isSome
    (Option.isSome_of_eq_some (h.own_stays hd₁.steadySince))
  have hcheck : (l.current d₁).checkNewTask row = .ok () := by
    rw [hcurrent]
    exact checkNewTask_of_free hd₁.consistent.task_free
      (data.checkTask_row hrefs.1 hrefs.2 _ _)
  let l₁ : Session := (l.keepTask row).write (.putTask row)
  refine ⟨row, l₁, d₁', (statement_faultless (hgood env₁ henv₁)).trans (insert_passed hcheck), ?_⟩
  refine acts_bind (acts_answered (fun h => by cases h) fun env₂ d₂ henv₂ hd₂ => ?_)
  have hview : (l₁.view d₂).task? row.id = some row := by
    rw [Session.view_write (l := l.keepTask row) hwrites, task?_putTask, if_pos rfl]
  -- the counter is no row
  have hsince₂ : SteadySince d d₂ :=
    { persists :=
        ⟨fun _ _ hu => hd₂.persists.user _ _ (hd₁.persists.user _ _ hu),
          fun _ _ hw => hd₂.persists.workspace _ _ (hd₁.persists.workspace _ _ hw)⟩
      intact := hd₂.intact
      member := fun _ _ _ hm => hd₂.member _ _ _ (hd₁.member _ _ _ hm) }
  let l₂ : Session := (l₁.keepTask row).openView d₂
  refine ⟨row, l₂, d₂, (statement_faultless (hgood env₂ henv₂)).trans (by rw [hview]; rfl), ?_⟩
  have hcommitted : ∀ d', l₂.current d' = d'.apply (.putTask row) :=
    fun d' => Session.current_of_write (l := l.keepTask row) hwrites _ d'
  have hanswers : ∀ d₃, Steady l₂ d₂ d₃ → Answers good (.createTask subject w (some data)) d₃
      (.ok (.task (taskData row))) (l₂.current d₃) := by
    intro d₃ hd₃
    have hheld : l₁.Holds (.task row.id) :=
      Session.holds_write (l.keepTask row) (List.mem_singleton_self _)
    have hfree₃ : d₃.task? row.id = none :=
      ((hd₃.toSurrounds.task? hheld).trans (hd₂.toSurrounds.task? hheld)).trans
        hd₁.consistent.task_free
    have hsince : SteadySince d d₃ := ages_steady.trans _ _ _ hsince₂ hd₃.steadySince
    rw [hcommitted]
    exact answers_createTask hd₃.consistent (h.known hsince) (h.own_stays hsince)
      ⟨h.limited, h.unhurried⟩ henv₁ hfree₃
  have hquiet₂ := (h.quiet.concat (m := ⟨env₁, .insertTask w access.currentUser.id data, l, d₁, l₁,
      d₁'⟩) ⟨rfl, rfl, rfl, rfl⟩).concat
    (m := ⟨env₂, .refreshTask row.id, l₁, d₂, l₂, d₂⟩) (.refl d₂)
  refine acts_bind (acts_commit hgood (fun env₃ d₃ _ hd₃ => ?_)
    fun env₃ d₃ _ hd₃ => acts_pure ?_)
  · exact Or.inr ⟨hquiet₂, _, hanswers d₃ hd₃⟩
  · exact hquiet₂.atomic_concat (m := ⟨env₃, .commit, l₂, d₃, l₂.ended, l₂.current d₃⟩)
      (hanswers d₃ hd₃)

end Services

/-! ## The requests -/

section Requests

variable [Collation] {good : Env → Prop} {d : Database}
  (hgood : ∀ env, good env → env.Faultless) (hsome : ∃ env, good env)

include hgood hsome

theorem acts_newMember (subject : Option String) (w : Id) (body : Option WorkspaceMemberCreate) :
    Acts Steady good (.addMember subject w body) (Request.addMember subject w body).route
      (fun response s _ => Resolved good (.addMember subject w body) (.ok response) s.2)
      (fun e s _ => Resolved good (.addMember subject w body) (.error e) s.2) ({}, []) d := by
  refine acts_bind (acts_enterToManage hgood hsome (fun i d e he => ?_)
    (fun _ _ _ _ hrefused => hrefused) fun access own move limit l log d h hrole => ?_)
  · rw [respond, he]
    rfl
  cases body with
  | none =>
      refine acts_bind (acts_throw (Or.inl (h.refused_before ?_)))
      rw [respond, enterToManage_of_known h.known_before h.member hrole h.unhurried]
      rfl
  | some data =>
      refine acts_bind (acts_pure (acts_bind (wpE_mono _ (fun response s d hanswered => ?_)
        (fun e s d hanswered => Or.inl hanswered) (acts_addMember hgood h hrole))))
      exact acts_pure (Or.inl hanswered)

theorem acts_newTask (subject : Option String) (w : Id) (body : Option TaskCreate) :
    Acts Steady good (.createTask subject w body) (Request.createTask subject w body).route
      (fun response s _ => Resolved good (.createTask subject w body) (.ok response) s.2)
      (fun e s _ => Resolved good (.createTask subject w body) (.error e) s.2) ({}, []) d := by
  refine acts_bind (acts_enterToWrite hgood hsome (fun i d e he => ?_)
    (fun _ _ _ _ hrefused => hrefused) fun access own move limit l log d h => ?_)
  · rw [respond, he]
    rfl
  cases body with
  | none =>
      refine acts_bind (acts_throw (Or.inl (h.refused_before ?_)))
      rw [respond, enterToWrite_of_known h.known_before h.member h.unhurried]
      rfl
  | some data =>
      refine acts_bind (acts_pure (acts_bind (wpE_mono _ (fun response s d hanswered => ?_)
        (fun e s d he => he) (acts_createTask hgood h))))
      exact acts_pure (Or.inl hanswered)

end Requests
end TaskPlatform
