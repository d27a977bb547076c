import TaskPlatform.Concurrency.Workflow

/-!
# New rows in company

A new row and, of a user, the entry of its name in the unique index are locked from the
insert to the commit, and what a new row refers to stays.  So registrations and new
workspaces are answered at their commit, and a registration that is refused at the read or
at the insert that found the name taken.  The same holds of new members and new tasks, as
long as nobody's membership is changed or removed (`Steady`).
-/

namespace TaskPlatform

open Transaction Service Database Relational Platform

/-! ## Guards -/

section Guards

variable [Collation] {R : Session → Database → Database → Prop} {good : Env → Prop}
  {request : Request} {s : Session × Log} {d : Database}
  {E : Exc → Session × Log → Database → Prop}

theorem acts_enforceAuthLimit {check : RateCheck} {Q : Unit → Session × Log → Database → Prop}
    (hraise : ∀ env m d' e, good env → m.after = m.before →
      enforceAuthRateLimit (env.limiter check) = .error e → E (.app e) (s.1, s.2 ++ [m]) d')
    (hok : ∀ env m d', good env → m.after = m.before →
      enforceAuthRateLimit (env.limiter check) = .ok () → Q () (s.1, s.2 ++ [m]) d') :
    Acts R good request (enforceAuthLimit check) Q E s d := by
  refine acts_bind (acts_answered (fun h => by cases h) fun env d' henv _ => ⟨_, _, _, rfl, ?_⟩)
  cases hlimit : enforceAuthRateLimit (env.limiter check) with
  | ok _ => exact acts_pure (hok env _ d' henv rfl hlimit)
  | error e => exact acts_throw (hraise env _ d' e henv rfl hlimit)

theorem acts_enforceWriteLimit {u : Id} {scope : Scope} {w : Option Id}
    {Q : Unit → Session × Log → Database → Prop}
    (hraise : ∀ env m d' e, good env → R s.1 d d' → m.after = m.before →
      enforceWriteRateLimit (env.limiter (.write u scope w)) = .error e →
        E (.app e) (s.1, s.2 ++ [m]) d')
    (hok : ∀ env m d', good env → R s.1 d d' → m.after = m.before →
      enforceWriteRateLimit (env.limiter (.write u scope w)) = .ok () →
        Q () (s.1, s.2 ++ [m]) d') :
    Acts R good request (enforceWriteLimit u scope w) Q E s d := by
  refine acts_bind (acts_answered (fun h => by cases h) fun env d' henv hd => ⟨_, _, _, rfl, ?_⟩)
  cases hlimit : enforceWriteRateLimit (env.limiter (.write u scope w)) with
  | ok _ => exact acts_pure (hok env _ d' henv hd rfl hlimit)
  | error e => exact acts_throw (hraise env _ d' e henv hd rfl hlimit)

end Guards

/-! ## Registrations -/

section Registrations

variable [Collation] {good : Env → Prop} {log : Log} {d : Database} {ip : String}
  {data : UserCreate} {limit : Env}

/-- A new user whose texts fit is refused for his name only. -/
theorem checkUser_of_fits {row : User} (hname : row.username.length ≤ 50)
    (hhash : row.hashedPassword.length ≤ 255) (hid : d.user? row.id = none) :
    d.checkUser row =
      if (d.userByUsername? row.username).isSome then .error .duplicateKey else .ok () := by
  rw [checkUser, if_neg (Nat.not_lt.mpr hname), if_neg (Nat.not_lt.mpr hhash), hid]
  rfl

/-- A name is free while its entry in the index is locked. -/
theorem userByUsername?_locked {l : Session} {d' : Database} {name : String}
    (h : Surrounds l d d') (hl : l.Holds (.username (Collation.weight name)))
    (hfree : d.userByUsername? name = none) : d'.userByUsername? name = none := by
  have hsame : ∀ u, (u ∈ d.users.rows ∧ Collation.weight u.username = Collation.weight name) ↔
      (u ∈ d'.users.rows ∧ Collation.weight u.username = Collation.weight name) := h.sameRow hl
  rw [userByUsername?_eq_none] at hfree ⊢
  exact fun u hu hweight => hfree u ((hsame u).mpr ⟨hu, hweight⟩).1 hweight

theorem respond_createUser_taken (hlimit : enforceAuthRateLimit (limit.limiter
      (.registration ip)) = .ok ()) (htaken : (d.userByUsername? data.username).isSome) :
    respond limit.circumstances d (.createUser ip (some data)) =
      .error (.app usernameAlreadyExistsError) := by
  have htaken : ¬ d.userByUsername? data.username = none := Option.isSome_iff_ne_none.mp htaken
  show (permit (enforceAuthRateLimit (limit.limiter (.registration ip))) >>= fun _ =>
    register limit.circumstances d data) = _
  rw [hlimit, register, demand_neg htaken]
  rfl

/-- The answer to a registration, with the id the row was given at its insert. -/
theorem answers_createUser (hd : Consistent d) (hlimit : good limit ∧
      enforceAuthRateLimit (limit.limiter (.registration ip)) = .ok ()) {env : Env}
    (henv : good env) {row : User} (hname : row.username = data.username)
    (hhash : row.hashedPassword = env.hash data.password) (hid : d.user? row.id = none)
    (hfree : d.userByUsername? row.username = none) :
    Answers good (.createUser ip (some data)) d (.ok (.user (userData row)))
      (d.apply (.putUser row)) := by
  let i : Circumstances := { limit.circumstances with hash := env.hash }
  have hi : i.FoundIn good := ⟨⟨limit, hlimit.1, rfl⟩, ⟨limit, hlimit.1, rfl⟩,
    ⟨limit, hlimit.1, rfl⟩, ⟨env, henv, rfl⟩, ⟨limit, hlimit.1, rfl⟩⟩
  let D : Database := { d with nextUserId := row.id }
  have hrow : (⟨row.id, data.username, env.hash data.password⟩ : User) = row := by
    rw [← hname, ← hhash]
  have hfree : D.userByUsername? data.username = none := hname ▸ hfree
  refine ⟨i, D, { D with users := D.users.put row, nextUserId := D.nextUserId + 1 }, hi,
    ⟨rfl, rfl, rfl, rfl⟩, ⟨hid, hd.workspace_free, hd.task_free⟩, ?_, ⟨rfl, rfl, rfl, rfl⟩⟩
  show settled D (permit (enforceAuthRateLimit (limit.limiter (.registration ip))) >>= fun _ =>
    register i D data) = _
  rw [hlimit.2, register, demand_pos hfree]
  show settled D (.ok (.user (userData ⟨row.id, data.username, env.hash data.password⟩),
    { D with
      users := D.users.put ⟨row.id, data.username, env.hash data.password⟩
      nextUserId := D.nextUserId + 1 })) = _
  rw [hrow]
  rfl

/-- What a locked id is free for stays free. -/
theorem user?_locked {l : Session} {d' : Database} {u : Id} (h : Surrounds l d d')
    (hl : l.Holds (.user u)) : d'.user? u = d.user? u :=
  (h.sameRow hl).symm

/-- Insert a user and commit.  A name that is taken is the one error of the insert. -/
theorem acts_saveUser (hgood : ∀ env, good env → env.Faultless)
    (hlimit : good limit ∧ enforceAuthRateLimit (limit.limiter (.registration ip)) = .ok ())
    {env : Env} (henv : good env) {l : Session} (hwrites : l.writes = [])
    (hquiet : Quiet SameRows log) {E : Exc → Session × Log → Database → Prop}
    (htaken : ∀ l' m d', SameRows m.before m.after → Intact m.before →
      (m.before.userByUsername? data.username).isSome →
        E (.sql .duplicateKey) (l', log ++ [m]) d') :
    Acts Surrounds good (.createUser ip (some data))
      (do
        let row ← call (.insertUser data.username (env.hash data.password))
        call .commit
        call (.refreshUser row.id))
      (fun user s _ => AnsweredAtOnce good (.createUser ip (some data))
        (.ok (.user (userData user))) s.2) E (l, log) d := by
  refine acts_bind (acts_tried (fun h => by cases h) fun env₁ d₁ henv₁ hd₁ => ?_)
  let row : User := ⟨d₁.nextUserId, data.username, env.hash data.password⟩
  let d₂ : Database := { d₁ with nextUserId := d₁.nextUserId + 1 }
  have hcurrent : l.current d₁ = d₁ := Session.current_eq hwrites
  have hinsert : Session.exec env₁ (.insertUser data.username (env.hash data.password)) l d₁ =
      Session.insert (d₁.checkUser row) row (.putUser row) l d₂ :=
    (statement_faultless (hgood env₁ henv₁)).trans (by rw [Session.insertUser, hcurrent])
  have hcheck : d₁.checkUser row =
      if (d₁.userByUsername? row.username).isSome then .error .duplicateKey else .ok () :=
    checkUser_of_fits data.username_length.2 ((hgood env henv).hash _) hd₁.consistent.user_free
  rw [hcheck] at hinsert
  by_cases hsome : (d₁.userByUsername? data.username).isSome
  · rw [if_pos hsome] at hinsert
    exact Or.inr ⟨.duplicateKey, l, d₂, hinsert,
      htaken l _ d₂ ⟨rfl, rfl, rfl, rfl⟩ hd₁.intact hsome⟩
  rw [if_neg hsome] at hinsert
  have hfree : d₂.userByUsername? row.username = none := Option.not_isSome_iff_eq_none.mp hsome
  refine Or.inl ⟨row, l.write (.putUser row), d₂, hinsert, ?_⟩
  let l₁ : Session := l.write (.putUser row)
  have hcommitted : ∀ d', l₁.current d' = d'.apply (.putUser row) :=
    fun d' => Session.current_of_write hwrites _ d'
  have hanswers : ∀ d₃, Surrounds l₁ d₂ d₃ → Answers good (.createUser ip (some data)) d₃
      (.ok (.user (userData row))) (l₁.current d₃) := by
    intro d₃ hd₃
    have hid : d₃.user? row.id = none :=
      (user?_locked hd₃ (Session.holds_write l List.mem_cons_self)).trans hd₁.consistent.user_free
    have hname : d₃.userByUsername? row.username = none :=
      userByUsername?_locked hd₃
        (Session.holds_write l (List.mem_cons_of_mem _ List.mem_cons_self)) hfree
    rw [hcommitted]
    exact answers_createUser hd₃.consistent hlimit henv rfl rfl hid hname
  have hquiet₁ := hquiet.concat (m := ⟨env₁, .insertUser data.username (env.hash data.password), l,
    d₁, l₁, d₂⟩) ⟨rfl, rfl, rfl, rfl⟩
  refine acts_bind (acts_commit hgood (fun env₃ d₃ _ hd₃ => ?_) fun env₃ d₃ _ hd₃ => ?_)
  · exact Or.inr ⟨hquiet₁, _, hanswers d₃ hd₃⟩
  -- the row the commit left is still there when it is read again
  refine acts_answered (fun h => by cases h) fun env₄ d₄ henv₄ hd₄ => ?_
  have hrow : (l₁.current d₃).user? row.id = some row := by
    rw [hcommitted, user?_putUser, if_pos rfl]
  have hview : (l₁.ended.view d₄).user? row.id = some row := hd₄.persists.user _ _ hrow
  refine ⟨row, l₁.ended.openView d₄, d₄,
    (statement_faultless (hgood env₄ henv₄)).trans (by rw [hview]; rfl), ?_⟩
  have hanswered := hquiet₁.atomic_concat (m := ⟨env₃, .commit, l₁, d₃, l₁.ended,
    l₁.current d₃⟩) (hanswers d₃ hd₃)
  exact hanswered.concat (m := ⟨env₄, .refreshUser row.id, l₁.ended, d₄, l₁.ended.openView d₄,
    d₄⟩) (.refl d₄)

theorem acts_createUser (hgood : ∀ env, good env → env.Faultless)
    (hlimit : good limit ∧ enforceAuthRateLimit (limit.limiter (.registration ip)) = .ok ())
    (hquiet : Quiet SameRows log) :
    Acts Surrounds good (.createUser ip (some data)) (createUser data)
      (fun user s _ => AnsweredAtOnce good (.createUser ip (some data))
        (.ok (.user (userData user))) s.2)
      (fun e s _ => AnsweredAtOnce good (.createUser ip (some data)) (.error e) s.2)
      ({}, log) d := by
  have htaken : ∀ {h : Log} {m : Move Call Env Session Database}, Quiet SameRows h →
      SameRows m.before m.after → Intact m.before →
        (m.before.userByUsername? data.username).isSome →
          AnsweredAtOnce good (.createUser ip (some data))
            (.error (.app usernameAlreadyExistsError)) (h ++ [m]) := by
    intro h m hh hm hbefore htaken
    have hanswer := respond_createUser_taken hlimit.2 htaken
    exact hh.atomic_concat
      ((answers_error hbefore.consistent (foundIn_env hlimit.1) hanswer).sameRows hm)
  refine acts_bind (acts_answered (fun h => by cases h) fun env d₁ henv hd₁ =>
    ⟨_, _, _, statement_faultless (hgood env henv), ?_⟩)
  have hquiet₁ := hquiet.concat (m := ⟨env, .select (.userByUsername data.username), {}, d₁,
    Session.openView {} d₁, d₁⟩) (.refl d₁)
  refine acts_bind (acts_raiseIf (fun hsome => htaken hquiet (.refl d₁) hd₁.intact hsome)
    fun _ => ?_)
  refine acts_bind (acts_answered (fun h => by cases h) fun env₂ d₂ henv₂ _ =>
    ⟨_, _, _, rfl, ?_⟩)
  have hquiet₂ := hquiet₁.concat (m := ⟨env₂, .hashPassword data.password,
    Session.openView {} d₁, d₂, Session.openView {} d₁, d₂⟩) (.refl d₂)
  -- only a taken name is a database error
  refine (wpE_tryCatch _ _).mpr (wpE_mono _ (fun _ _ _ h => h) (fun e s d he => ?_)
    (acts_saveUser (E := fun e s _ => e = .sql .duplicateKey ∧ AnsweredAtOnce good
      (.createUser ip (some data)) (.error (.app usernameAlreadyExistsError)) s.2) hgood hlimit
      henv₂ rfl hquiet₂ fun l' m d' hm hbefore hsome => ⟨rfl, htaken hquiet₂ hm hbefore hsome⟩))
  obtain ⟨rfl, hanswered⟩ := he
  refine acts_bind (acts_answered (fun h => by cases h) fun env d' _ _ => ⟨(), {}, d', rfl, ?_⟩)
  exact acts_throw (hanswered.concat (.refl d'))

end Registrations

/-! ## New workspaces -/

section NewWorkspaces

variable [Collation] {good : Env → Prop} {log : Log} {d : Database} {subject : Option String}
  {user : User} {data : WorkspaceCreate} {limit : Env}

/-- The write guard lets the user found a workspace. -/
def MayFound (good : Env → Prop) (user : User) (limit : Env) : Prop :=
  good limit ∧ enforceWriteRateLimit (limit.limiter (.write user.id .workspaceCreate none)) = .ok ()

theorem answers_createWorkspace (hd : Consistent d) (hactor : d.actor? subject = some user)
    (hlimit : MayFound good user limit) {env env' : Env} (henv : good env) (henv' : good env')
    {w : Id} (hid : d.workspace? w = none) :
    let row : Workspace := ⟨w, data.name, user.id, env.now, env.now⟩
    Answers good (.createWorkspace subject (some data)) d
      (.ok (.workspace (workspaceData row .owner)))
      ((d.apply (.putWorkspace row)).apply
        (.putMember ⟨w, user.id, .owner, env'.now, env'.now⟩)) := by
  intro row
  let i : Circumstances :=
    { env.circumstances with joinedAt := env'.now, limiter := limit.limiter }
  have hi : i.FoundIn good := ⟨⟨limit, hlimit.1, rfl⟩, ⟨env, henv, rfl⟩, ⟨env', henv', rfl⟩,
    ⟨env, henv, rfl⟩, ⟨env, henv, rfl⟩⟩
  let D : Database := { d with nextWorkspaceId := w }
  let D' : Database := { D with
    workspaces := D.workspaces.put row
    members := D.members.put ⟨w, user.id, .owner, env'.now, env'.now⟩
    nextWorkspaceId := D.nextWorkspaceId + 1 }
  refine ⟨i, D, D', hi, ⟨rfl, rfl, rfl, rfl⟩, ⟨hd.user_free, hid, hd.task_free⟩, ?_,
    ⟨rfl, rfl, rfl, rfl⟩⟩
  have hactor : D.actor? subject = some user := hactor
  rw [respond, authenticate, hactor, expect_some, ok_bind]
  show settled D (permit (enforceWriteRateLimit (limit.limiter
    (.write user.id .workspaceCreate none))) >>= fun _ => found i D user data) = _
  rw [hlimit.2]
  rfl

omit [Collation] in
/-- A workspace nobody has the id of has no members. -/
theorem member?_of_free (hd : Consistent d) {w : Id} (hw : d.workspace? w = none) (u : Id) :
    d.member? w u = none := by
  cases hm : d.member? w u with
  | none => rfl
  | some m =>
      have hrefs := hd.member_isSome (show (d.member? w u).isSome by rw [hm]; rfl)
      rw [hw] at hrefs
      exact absurd hrefs.1 Bool.false_ne_true

theorem workspace?_locked {l : Session} {d' : Database} {w : Id} (h : Surrounds l d d')
    (hl : l.Holds (.workspace w)) : d'.workspace? w = d.workspace? w :=
  (h.sameRow hl).symm

theorem acts_createWorkspace (hgood : ∀ env, good env → env.Faultless)
    (hactor : d.actor? subject = some user) (hlimit : MayFound good user limit) {l : Session}
    (hwrites : l.writes = []) (hquiet : Quiet SameRows log)
    {E : Exc → Session × Log → Database → Prop} :
    Acts Surrounds good (.createWorkspace subject (some data)) (createWorkspace user data.name)
      (fun response s _ => AnsweredAtOnce good (.createWorkspace subject (some data))
        (.ok (.workspace response)) s.2) E (l, log) d := by
  refine wpE_mono _ (fun _ _ _ h => h) (fun _ _ _ h => h.elim)
    (acts_rollbackOnSqlError (P := fun _ _ => False) (fun _ _ _ h _ => h) ?_)
  -- the workspace
  refine acts_bind (acts_answered (fun h => by cases h) fun env d₁ henv hd₁ => ?_)
  let row : Workspace := ⟨d₁.nextWorkspaceId, data.name, user.id, env.now, env.now⟩
  let d₁' : Database := { d₁ with nextWorkspaceId := d₁.nextWorkspaceId + 1 }
  have hactor₁ : d₁.actor? subject = some user := actor?_stays hd₁.names hd₁.persists hactor
  have huser₁ : d₁.user? user.id = some user := user?_of_actor? hactor₁
  have hcurrent : l.current d₁ = d₁ := Session.current_eq hwrites
  have hcheck : (l.current d₁).checkWorkspace row = .ok () := by
    rw [hcurrent, checkWorkspace, if_neg (Nat.not_lt.mpr data.name_length.2),
      hd₁.consistent.workspace_free, trimmedLengthOk_of_strip data.name_strip data.name_length,
      show d₁.user? row.createdById = some user from huser₁]
    rfl
  let l₁ : Session := l.write (.putWorkspace row)
  refine ⟨row, l₁, d₁', (statement_faultless (hgood env henv)).trans (insert_passed hcheck), ?_⟩
  have hheld : l₁.Holds (.workspace row.id) := Session.holds_write l (List.mem_singleton_self _)
  have hwrites₁ : l₁.writes = [.putWorkspace row] := Session.writes_write hwrites _
  have hfree : ∀ d', Surrounds l₁ d₁' d' → d'.workspace? row.id = none := fun d' hd' =>
    (workspace?_locked hd' hheld).trans hd₁.consistent.workspace_free
  -- its owner
  refine acts_bind (acts_answered (fun h => by cases h) fun env₂ d₂ henv₂ hd₂ => ?_)
  let owner : WorkspaceMember := ⟨row.id, user.id, .owner, env₂.now, env₂.now⟩
  let l₂ : Session := (l₁.keepMember owner).write (.putMember owner)
  have hcurrent₂ : l₁.current d₂ = d₂.apply (.putWorkspace row) :=
    Session.current_of_write hwrites _ _
  have hcheck₂ : (l₁.current d₂).checkMember owner = .ok () := by
    rw [hcurrent₂]
    refine checkMember_of_free (member?_of_free hd₂.consistent (hfree d₂ hd₂) user.id) ?_ ?_
    · rw [workspace?_putWorkspace, if_pos rfl]
      rfl
    · exact Option.isSome_of_eq_some (hd₂.persists.user _ _ huser₁)
  refine ⟨owner, l₂, d₂, (statement_faultless (hgood env₂ henv₂)).trans (insert_passed hcheck₂), ?_⟩
  have hwrites₂ : l₂.writes = [.putWorkspace row, .putMember owner] := by
    show l₁.writes ++ [.putMember owner] = _
    rw [hwrites₁]
    rfl
  -- both are committed together
  refine acts_bind (acts_answered (fun h => by cases h) fun env₃ d₃ henv₃ hd₃ => ?_)
  have hview : (l₂.view d₃).workspace? row.id = some row := by
    rw [Session.view, hwrites₂]
    exact (workspace?_putWorkspace _ row row.id).trans (if_pos rfl)
  refine ⟨row, l₂.openView d₃, d₃,
    (statement_faultless (hgood env₃ henv₃)).trans (by rw [hview]; rfl), ?_⟩
  have hcommitted : ∀ d', (l₂.openView d₃).current d' =
      (d'.apply (.putWorkspace row)).apply (.putMember owner) := by
    intro d'
    show d'.applyAll l₂.writes = _
    rw [hwrites₂]
    rfl
  have hanswers : ∀ d₄, Surrounds (l₂.openView d₃) d₃ d₄ →
      Answers good (.createWorkspace subject (some data)) d₄
        (.ok (.workspace (workspaceData row .owner))) ((l₂.openView d₃).current d₄) := by
    intro d₄ hd₄
    have hholds : ∀ k, l₁.Holds k → l₂.Holds k := fun k hk =>
      Session.Holds.write (l := l₁.keepMember owner) hk _
    have hafter : Surrounds l₁ d₁' d₄ := hd₂.trans
      ((surrounds_of_holds hholds hd₃).trans (surrounds_of_holds (by exact hholds) hd₄))
    rw [hcommitted]
    exact answers_createWorkspace hd₄.consistent
      (actor?_stays hd₄.names hafter.persists (d := d₁') hactor₁) hlimit henv henv₂
      (hfree d₄ hafter)
  have hquiet₃ := ((hquiet.concat (m := ⟨env, .insertWorkspace data.name user.id, l, d₁, l₁, d₁'⟩)
      ⟨rfl, rfl, rfl, rfl⟩).concat
    (m := ⟨env₂, .insertMember row.id user.id .owner, l₁, d₂, l₂, d₂⟩) (.refl d₂)).concat
    (m := ⟨env₃, .refreshWorkspace row.id, l₂, d₃, l₂.openView d₃, d₃⟩) (.refl d₃)
  refine acts_bind (acts_commit hgood (fun env₄ d₄ _ hd₄ => ?_)
    fun env₄ d₄ _ hd₄ => acts_pure ?_)
  · exact Or.inr ⟨hquiet₃, _, hanswers d₄ hd₄⟩
  · exact hquiet₃.atomic_concat (m := ⟨env₄, .commit, l₂.openView d₃, d₄,
      (l₂.openView d₃).ended, (l₂.openView d₃).current d₄⟩) (hanswers d₄ hd₄)

end NewWorkspaces

/-! ## The requests -/

section Requests

variable [Collation] {good : Env → Prop} {d : Database}

/-- The requests that found something of their own: an account or a workspace. -/
def Request.isFounding : Request → Prop
  | createUser _ _ | createWorkspace _ _ => True
  | _ => False

/-- Refused whatever the rows are. -/
theorem resolved_of_any {request : Request} {e : Exc} {i : Circumstances} {log : Log}
    (hquiet : Quiet SameRows log) (hi : i.FoundIn good)
    (h : ∀ d, respond i d request = .error e) : Resolved good request (.error e) log :=
  Or.inr ⟨hquiet, fun d hd => answers_error hd.consistent hi (h d)⟩

theorem acts_registration (hgood : ∀ env, good env → env.Faultless) (ip : String)
    (body : Option UserCreate) :
    Acts Surrounds good (.createUser ip body) (Request.createUser ip body).route
      (fun response s _ => Resolved good (.createUser ip body) (.ok response) s.2)
      (fun e s _ => Resolved good (.createUser ip body) (.error e) s.2) ({}, []) d := by
  have hquiet : ∀ {m : Move Call Env Session Database}, m.after = m.before →
      Quiet SameRows ([] ++ [m]) := fun hm => quiet_nil.concat (hm ▸ .refl _)
  refine acts_bind (acts_enforceAuthLimit (fun env m d' e henv hm he => ?_)
    fun env m d' henv hm hok => ?_)
  · refine resolved_of_any (hquiet hm) (foundIn_env henv) fun d => ?_
    show (permit (enforceAuthRateLimit (env.limiter (.registration ip))) >>= fun _ => _) = _
    rw [he]
    rfl
  cases body with
  | none =>
      refine acts_bind (acts_throw ?_)
      refine resolved_of_any (hquiet hm) (foundIn_env henv) fun d => ?_
      show (permit (enforceAuthRateLimit (env.limiter (.registration ip))) >>= fun _ => _) = _
      rw [hok]
      rfl
  | some data =>
      refine acts_bind (acts_pure (acts_bind (wpE_mono _ (fun user s d hanswered => ?_)
        (fun e s d hanswered => Or.inl hanswered)
        (acts_createUser hgood ⟨henv, hok⟩ (hquiet hm)))))
      exact acts_pure (Or.inl hanswered)

theorem acts_newWorkspace (hgood : ∀ env, good env → env.Faultless) (hsome : ∃ env, good env)
    (subject : Option String) (body : Option WorkspaceCreate) :
    Acts Surrounds good (.createWorkspace subject body)
      (Request.createWorkspace subject body).route
      (fun response s _ => Resolved good (.createWorkspace subject body) (.ok response) s.2)
      (fun e s _ => Resolved good (.createWorkspace subject body) (.error e) s.2)
      ({}, []) d := by
  refine acts_bind (acts_guarded ages_surrounds (plain_getCurrentUser subject)
    (P := fun snap user l => snap.actor? subject = some user ∧ l.writes = []) (fun snap _ => ?_)
    (fun user l hactor => ?_) (fun _ _ _ _ hrefused => hrefused)
    fun user move l log d hsnapped hactor => ?_)
  · refine ends_authenticate (Session.mirrors_nil snap) (serverFails_of_good hgood _ snap)
      (fun e he => ?_) fun user l huser h => ⟨actor?_of_authenticate huser, h.writes⟩
    obtain ⟨env, henv⟩ := hsome
    refine ⟨env.circumstances, foundIn_env henv, ?_⟩
    rw [respond, he]
    rfl
  · obtain ⟨_, _, hrow⟩ := Option.bind_eq_some_iff.mp hactor.1
    cases hrow
  obtain ⟨hactor, hwrites⟩ := hactor
  have hanswer : ∀ i, respond i move.before (.createWorkspace subject body) =
      permitWrite i user .workspaceCreate none >>= fun _ =>
        parsed body >>= found i move.before user := by
    intro i
    rw [respond, authenticate, hactor]
    rfl
  refine acts_bind (acts_enforceWriteLimit (fun env m d' e henv hd hm he => ?_)
    fun env m d' henv hd hm hok => ?_)
  · refine Or.inl ((hsnapped.step ages_surrounds.trans hd.since hm).refused (foundIn_env henv) ?_)
    rw [hanswer, permitWrite, show env.circumstances.limiter = env.limiter from rfl, he]
    rfl
  have hsnapped := hsnapped.step ages_surrounds.trans hd.since hm
  cases body with
  | none =>
      refine acts_bind (acts_throw (Or.inl (hsnapped.refused (foundIn_env henv) ?_)))
      rw [hanswer, permitWrite, show env.circumstances.limiter = env.limiter from rfl, hok]
      rfl
  | some data =>
      have hactor : d'.actor? subject = some user :=
        actor?_stays hd.names hsnapped.since.persists hactor
      refine acts_bind (acts_pure (acts_bind (wpE_mono _ (fun response s d hanswered => ?_)
        (fun _ _ _ he => he) (acts_createWorkspace hgood hactor ⟨henv, hok⟩ hwrites
          (quiet_of_unchanged hsnapped.unchanged)))))
      exact acts_pure (Or.inl hanswered)

theorem acts_founding (hgood : ∀ env, good env → env.Faultless) (hsome : ∃ env, good env)
    {request : Request} (hfounding : request.isFounding) :
    Acts Surrounds good request request.route
      (fun body s _ => Resolved good request (.ok body) s.2)
      (fun e s _ => Resolved good request (.error e) s.2) ({}, []) d := by
  cases request with
  | createUser ip body => exact acts_registration hgood ip body
  | createWorkspace subject body => exact acts_newWorkspace hgood hsome subject body
  | _ => exact hfounding.elim

/-- In every interleaving a registration or a new workspace with no call that fails is
answered as specified on the rows that one of its calls found, and that call alone changed
a row. -/
theorem foundings_answered_at_once {d₀ : Database} (hd : Intact d₀)
    {σ : System Request Call Call.Res Response (Session × Log) Database} (hr : Records d₀ σ)
    {i : Nat} {request : Request} (hfounding : request.isFounding) {response : Response}
    {s : Session × Log} (hi : σ.procs i = some ⟨request, .ret response, s⟩)
    (hfaultless : ∀ m ∈ s.2, m.env.Faultless) :
    AnsweredAtOnce (FoundBy s.2) request response s.2 := by
  have hgood : ∀ env, FoundBy s.2 env → env.Faultless := by
    rintro env ⟨m, hm, rfl⟩
    exact hfaultless m hm
  exact wp_of_records (fun _ _ _ h => h.intact) (fun _ _ _ _ h hm hbefore => h.closed hm hbefore)
    (company_surrounds hd)
    (fun request d hfounding hsome => acts_founding hgood hsome hfounding) hr i _ hi hfounding
    fun m hm => ⟨m, hm, rfl⟩

end Requests

/-! ### The member founds a workspace -/

def workspaceFounded : Request :=
  .createWorkspace (some "member") (WorkspaceCreate.validate " new ")

theorem foundings_answered_at_once_workspace :
    let _ := sampleCollation
    ∃ workspace, (undisturbed workspaceFounded 8).prog.value? = some (.ok (.workspace workspace)) ∧
      workspace.name = "new" ∧ workspace.currentRole = .owner ∧
      AnsweredAtOnce (FoundBy (undisturbed workspaceFounded 8).loc.2) workspaceFounded
        (.ok (.workspace workspace)) (undisturbed workspaceFounded 8).loc.2 := by
  intro collation
  have hvalue : (undisturbed workspaceFounded 8).prog.value? = some (.ok (.workspace
      { id := 2, name := "new", createdById := 2, createdAt := 0, updatedAt := 0,
        currentRole := .owner })) := by decide +kernel
  have hfounding : workspaceFounded.isFounding := trivial
  exact ⟨_, hvalue, rfl, rfl, foundings_answered_at_once intact_sampleDatabase
    (records_undisturbed workspaceFounded 8) hfounding (procs_undisturbed hvalue)
    (faultless_undisturbed workspaceFounded 8)⟩

end TaskPlatform
