import TaskPlatform.Mediation.Guards

/-!
# The services

A service that its dependencies have let through issues only the calls its request has
earned, and declines only for what it was told.
-/

namespace TaskPlatform

open Transaction Service

variable {h : Dialogue Call.Res}

/-! ## Users -/

theorem mediates_createUser {ip : String} {data : UserCreate}
    (hq : Qualified (.createUser ip (some data)) h) :
    Mediates (.createUser ip (some data)) (fun _ _ => True) (createUser data) h := by
  refine mediates_bind (mediates_call (.perform hq rfl .findUsername) fun existing _ hfound => ?_)
  have hq := hq.mono (sub_said h ⟨_, .ok existing⟩)
  refine mediates_bind (mediates_raiseIf (fun hsome => ?_) fun hnone => ?_)
  · obtain ⟨user, rfl⟩ := Option.isSome_iff_exists.mp hsome
    exact .declined hq (.usernameFound hfound)
  obtain rfl := Option.not_isSome_iff_eq_none.mp hnone
  refine mediates_bind (mediates_call (.perform hq rfl .hashPassword) fun hashed _ hhash => ?_)
  have hq := hq.mono (sub_said _ ⟨_, .ok hashed⟩)
  have hfound := hfound.mono (sub_said _ ⟨_, .ok hashed⟩)
  refine (abidesE_tryCatch _ _).mpr ?_
  -- the handler turns an integrity error of any of the three calls into the domain error
  refine abidesE_mono (E := fun e h' => Request.Refuses (.createUser ip (some data)) h' e ∧
    Qualified (.createUser ip (some data)) h') (fun _ _ _ ha => ha) (fun e h' _ he => ?_) ?_
  · obtain ⟨he, hq⟩ := he
    cases e with
    | app err => exact he
    | validation => exact he
    | sql err =>
        refine mediates_bind (mediates_call .rollback fun _ _ _ => ?_)
        have he := he.mono (sub_said h' ⟨.rollback, .ok ()⟩)
        have hq := hq.mono (sub_said h' ⟨.rollback, .ok ()⟩)
        by_cases hi : err.isIntegrityError = true
        · rw [if_pos hi]
          cases he with
          | raised hraised => exact .declined hq (.usernameRaced hraised hi)
        · rw [if_neg hi]
          exact he
  · refine abidesE_mono (fun _ _ _ ha => ha) (fun e h' hsub he => ⟨he, hq.mono hsub⟩) ?_
    refine mediates_bind (mediates_call (.perform hq rfl (.insertUser hfound hhash))
      fun row _ hrow => ?_)
    have hq := hq.mono (sub_said _ ⟨_, .ok row⟩)
    refine mediates_bind (mediates_call (.perform hq rfl (.commit id)) fun _ _ _ => ?_)
    have hq := hq.mono (sub_said _ ⟨.commit, .ok ()⟩)
    exact mediates_call (.perform hq rfl (.refreshUser (hrow.mono (sub_said _ _))))
      fun _ _ _ => trivial

theorem mediates_authenticateUser {ip username password : String}
    (hq : Qualified (.login ip username password) h) :
    Mediates (.login ip username password) (fun user h' =>
      Told h' (.select (.userByUsername username)) (some user) ∧
        Told h' (.verifyPassword password user.hashedPassword) true)
      (authenticateUser username password) h := by
  refine mediates_bind (mediates_call (.perform hq rfl .findLogin) fun row _ hfound => ?_)
  have hq := hq.mono (sub_said h ⟨_, .ok row⟩)
  refine mediates_bind (mediates_orRaise (fun hnone => ?_) fun user hsome => ?_)
  · subst hnone
    exact .declined hq (.unknownUsername hfound)
  subst hsome
  refine mediates_bind (mediates_call (.perform hq rfl (.verifyPassword hfound))
    fun verified _ hverified => ?_)
  have hq := hq.mono (sub_said _ ⟨_, .ok verified⟩)
  have hfound := hfound.mono (sub_said _ ⟨_, .ok verified⟩)
  refine mediates_bind (mediates_raiseIf (fun hfalse => ?_) fun htrue => ?_)
  · subst hfalse
    exact .declined hq (.wrongPassword hfound hverified)
  · obtain rfl := Bool.eq_true_of_not_eq_false htrue
    exact ⟨hfound, hverified⟩

/-! ## Workspaces -/

theorem mediates_createWorkspace {subject : Option String} {data : WorkspaceCreate} {user : User}
    (hq : Qualified (.createWorkspace subject (some data)) h)
    (hu : Caller (.createWorkspace subject (some data)) h user) :
    Mediates (.createWorkspace subject (some data)) (fun _ _ => True)
      (createWorkspace user data.name) h := by
  refine mediates_rollbackOnSqlError ?_
  refine mediates_bind (mediates_call (.perform hq rfl (.insertWorkspace hu))
    fun workspace _ htold => ?_)
  have hq := hq.mono (sub_said h ⟨_, .ok workspace⟩)
  have hu := hu.mono (sub_said h ⟨_, .ok workspace⟩)
  refine mediates_bind (mediates_call (.perform hq rfl (.insertOwner hu htold)) fun m _ _ => ?_)
  have hq := hq.mono (sub_said _ ⟨_, .ok m⟩)
  have htold := htold.mono (sub_said _ ⟨_, .ok m⟩)
  refine mediates_bind (mediates_call (.perform hq rfl (.refreshWorkspace htold))
    fun row _ _ => ?_)
  have hq := hq.mono (sub_said _ ⟨_, .ok row⟩)
  exact mediates_bind (mediates_call (.perform hq rfl (.commit id)) fun _ _ _ => trivial)

/-- A count and a page. -/
theorem mediates_listing {request : Request} {count select : Query} {β : Type}
    {f : count.Val → select.Val → β} (hq : Qualified request h) (ha : request.accepted = true)
    (hcount : Performs h request (.select count))
    (hselect : ∀ h', h ⊆ h' → Performs h' request (.select select)) :
    Mediates request (fun _ _ => True) (do
      let total ← call (.select count)
      let rows ← call (.select select)
      return f total rows) h := by
  refine mediates_bind (mediates_call (.perform hq ha hcount) fun total _ _ => ?_)
  have hsub := sub_said h ⟨.select count, .ok total⟩
  exact mediates_bind (mediates_call (.perform (hq.mono hsub) ha (hselect _ hsub))
    fun _ _ _ => trivial)

/-! ## Members -/

theorem mediates_addMember {subject : Option String} {access : WorkspaceAccess}
    {data : WorkspaceMemberCreate}
    (hq : Qualified (.addMember subject access.workspace.id (some data)) h)
    (hu : MemberOf (.addMember subject access.workspace.id (some data)) h access.currentUser
      access.workspace.id) :
    Mediates (.addMember subject access.workspace.id (some data)) (fun _ _ => True)
      (addMember access data.username data.role.1) h := by
  refine mediates_bind (mediates_membershipRole hu fun m hm => ?_)
  have hq := hq.mono (sub_said h ⟨_, .ok m⟩)
  have hu := hu.mono (sub_said h ⟨_, .ok m⟩)
  refine mediates_bind (mediates_raiseIf (fun hrole => ?_) fun hrole => ?_)
  · exact .declined hq (.mayNotAdd hu hm hrole)
  refine (abidesE_tryCatch _ _).mpr ?_
  -- the handler turns a duplicate key into the domain error
  refine abidesE_mono (E := fun e h' =>
    Request.Refuses (.addMember subject access.workspace.id (some data)) h' e ∧
      Qualified (.addMember subject access.workspace.id (some data)) h')
    (fun _ _ _ ha => ha) (fun e h' _ he => ?_) ?_
  · obtain ⟨he, hq⟩ := he
    cases e with
    | app err => exact he
    | validation => exact he
    | sql err =>
        refine mediates_bind (mediates_call .rollback fun _ _ _ => ?_)
        have he := he.mono (sub_said h' ⟨.rollback, .ok ()⟩)
        have hq := hq.mono (sub_said h' ⟨.rollback, .ok ()⟩)
        by_cases hduplicate : err = .duplicateKey
        · subst hduplicate
          rw [if_pos rfl]
          cases he with
          | raised hraised => exact .declined hq (.memberRaced hraised)
        · rw [if_neg hduplicate]
          exact he
  · refine abidesE_mono (fun _ _ _ ha => ha) (fun e h' hsub he => ⟨he, hq.mono hsub⟩) ?_
    refine mediates_bind (mediates_call (.perform hq rfl .findTarget) fun found _ ht => ?_)
    have hq := hq.mono (sub_said _ ⟨_, .ok found⟩)
    have hu := hu.mono (sub_said _ ⟨_, .ok found⟩)
    have hm := hm.mono (sub_said _ ⟨_, .ok found⟩)
    refine mediates_bind (mediates_orRaise (fun hnone => ?_) fun target hsome => ?_)
    · subst hnone
      exact .declined hq (.noTarget ht)
    subst hsome
    refine mediates_bind (mediates_call (.perform hq rfl (.getMember ht)) fun existing _ hget => ?_)
    have hq := hq.mono (sub_said _ ⟨_, .ok existing⟩)
    have hu := hu.mono (sub_said _ ⟨_, .ok existing⟩)
    have hm := hm.mono (sub_said _ ⟨_, .ok existing⟩)
    have ht := ht.mono (sub_said _ ⟨_, .ok existing⟩)
    refine mediates_bind (mediates_raiseIf (fun hsome => ?_) fun hnone => ?_)
    · obtain ⟨row, rfl⟩ := Option.isSome_iff_exists.mp hsome
      exact .declined hq (.alreadyMember ht hget)
    obtain rfl := Option.not_isSome_iff_eq_none.mp hnone
    have hinsert := Performs.insertMember hu hm (Bool.eq_true_of_not_eq_false hrole) ht hget
    refine mediates_bind (mediates_call (.perform hq rfl hinsert) fun row _ _ => ?_)
    have hq := hq.mono (sub_said _ ⟨_, .ok row⟩)
    have ht := ht.mono (sub_said _ ⟨_, .ok row⟩)
    refine mediates_bind (mediates_call (.perform hq rfl (.refreshAdded ht)) fun fresh _ _ => ?_)
    have hq := hq.mono (sub_said _ ⟨_, .ok fresh⟩)
    exact mediates_bind (mediates_call (.perform hq rfl (.commit id)) fun _ _ _ => trivial)

theorem mediates_updateMemberRole {subject : Option String} {access : WorkspaceAccess} {u : Id}
    {data : WorkspaceMemberRoleUpdate}
    (hq : Qualified (.updateMemberRole subject access.workspace.id u (some data)) h)
    (hu : MemberOf (.updateMemberRole subject access.workspace.id u (some data)) h
      access.currentUser access.workspace.id) :
    Mediates (.updateMemberRole subject access.workspace.id u (some data)) (fun _ _ => True)
      (updateMemberRole access u data.role.1) h := by
  refine mediates_rollbackOnSqlError ?_
  refine mediates_bind (mediates_bind (mediates_call (.perform hq rfl .findMember)
    fun row _ ht => ?_))
  have hq := hq.mono (sub_said h ⟨_, .ok row⟩)
  have hu := hu.mono (sub_said h ⟨_, .ok row⟩)
  refine mediates_orRaise (fun hnone => ?_) fun found hsome => ?_
  · subst hnone
    exact .declined hq (.noMember ht)
  subst hsome
  obtain ⟨target, username⟩ := found
  refine mediates_bind (mediates_raiseIf (fun howner => ?_) fun howner => ?_)
  · exact .declined hq (.ownerRole ht howner)
  refine mediates_bind (mediates_membershipRole hu fun m hm => ?_)
  have hq := hq.mono (sub_said _ ⟨_, .ok m⟩)
  have hu := hu.mono (sub_said _ ⟨_, .ok m⟩)
  have ht := ht.mono (sub_said _ ⟨_, .ok m⟩)
  refine mediates_bind (mediates_raiseIf (fun hrole => ?_) fun hrole => ?_)
  · exact .declined hq (.mayNotUpdate hu hm ht howner hrole)
  have hflush := Performs.flushMemberRole hu hm ht (Bool.eq_true_of_not_eq_false hrole)
  refine mediates_bind (mediates_call (.perform hq rfl hflush) fun _ _ _ => ?_)
  have hq := hq.mono (sub_said _ ⟨.flushMemberRole access.workspace.id u data.role.1, .ok ()⟩)
  refine mediates_bind (mediates_call (.perform hq rfl .refreshMember) fun fresh _ _ => ?_)
  have hq := hq.mono (sub_said _ ⟨_, .ok fresh⟩)
  exact mediates_bind (mediates_call (.perform hq rfl (.commit id)) fun _ _ _ => trivial)

/-- What a removal rests on goes on holding in every round of the bulk update. -/
theorem mediates_removal {subject : Option String} {w u : Id} {user : User}
    {m target : WorkspaceMember} (hq : Qualified (.removeMember subject w u) h)
    (hu : MemberOf (.removeMember subject w u) h user w)
    (hm : Told h (.memberAttributes w user.id) m) (ht : Told h (.lockMember w u) (some target))
    (hrole : canRemoveMember m.role target.role = true) :
    Mediates (.removeMember subject w u) (fun _ _ => True) (do
      clearUnfinishedTasks w u
      call (.deleteMember w u)
      call .commit) h := by
  refine mediates_bind (mediates_bind (mediates_call (.perform hq rfl .utcNow)
    fun now _ hnow => ?_))
  have hq := hq.mono (sub_said h ⟨_, .ok now⟩)
  refine mediates_bind (mediates_call (.perform hq rfl .scanTasks) fun ids _ hids => ?_)
  have hq := hq.mono (sub_said _ ⟨.scanTasks w, .ok ids⟩)
  have hnow := hnow.mono (sub_said _ ⟨.scanTasks w, .ok ids⟩)
  have hsub := List.Subset.trans (sub_said h ⟨.utcNow, .ok now⟩)
    (sub_said _ ⟨.scanTasks w, .ok ids⟩)
  have hearned : ∀ h', h ++ [⟨.utcNow, .ok now⟩] ++ [⟨.scanTasks w, .ok ids⟩] ⊆ h' →
      ∀ c, (c = .deleteMember w u ∨ ∃ t ∈ ids, c = .clearAssignee w u t now) →
        Request.May (.removeMember subject w u) h' c := by
    intro h' hgrown c hc
    have hbefore := List.Subset.trans hsub hgrown
    refine .perform (hq.mono hgrown) rfl (.removal (hu.mono hbefore) (hm.mono hbefore)
      (ht.mono hbefore) hrole (hc.imp_right fun hround => ?_))
    exact ⟨now, ids, hnow.mono hgrown, hids.mono hgrown, hround⟩
  refine mediates_imp (abidesE_forM _ ids (fun t ht h' hgrown => ?_) (List.Subset.refl _))
    fun _ h' _ hgrown => ?_
  · exact mediates_call (hearned h' hgrown _ (Or.inr ⟨t, ht, rfl⟩)) fun _ _ _ =>
      List.Subset.trans hgrown (sub_said h' _)
  · refine mediates_bind (mediates_call (hearned h' hgrown _ (Or.inl rfl)) fun _ _ _ => ?_)
    exact mediates_call (.perform ((hq.mono hgrown).mono (sub_said h' _)) rfl (.commit id))
      fun _ _ _ => trivial

theorem mediates_removeMember {subject : Option String} {access : WorkspaceAccess} {u : Id}
    (hq : Qualified (.removeMember subject access.workspace.id u) h)
    (hu : MemberOf (.removeMember subject access.workspace.id u) h access.currentUser
      access.workspace.id) :
    Mediates (.removeMember subject access.workspace.id u) (fun _ _ => True)
      (removeMember access u) h := by
  refine mediates_rollbackOnError ?_
  refine mediates_bind (mediates_call (.perform hq rfl .lockTarget) fun row _ ht => ?_)
  have hq := hq.mono (sub_said h ⟨_, .ok row⟩)
  have hu := hu.mono (sub_said h ⟨_, .ok row⟩)
  refine mediates_bind (mediates_orRaise (fun hnone => ?_) fun target hsome => ?_)
  · subst hnone
    exact .declined hq (.noneToRemove ht)
  subst hsome
  refine mediates_bind (mediates_membershipRole hu fun m hm => ?_)
  have hq := hq.mono (sub_said _ ⟨_, .ok m⟩)
  have hu := hu.mono (sub_said _ ⟨_, .ok m⟩)
  have ht := ht.mono (sub_said _ ⟨_, .ok m⟩)
  cases hrefused : removalRefused m.role target.role with
  | some e => exact .declined hq (.mayNotRemove hu hm ht hrefused)
  | none => exact mediates_removal hq hu hm ht (removalRefused_eq_none.mp hrefused)

/-! ## Tasks -/

theorem mediates_createTask {subject : Option String} {access : WorkspaceAccess}
    {data : TaskCreate} (hq : Qualified (.createTask subject access.workspace.id (some data)) h)
    (hu : MemberOf (.createTask subject access.workspace.id (some data)) h access.currentUser
      access.workspace.id) :
    Mediates (.createTask subject access.workspace.id (some data)) (fun _ _ => True)
      (createTask access data) h := by
  refine mediates_rollbackOnSqlError ?_
  refine mediates_bind (mediates_call (.perform hq rfl (.insertTask hu)) fun row _ htold => ?_)
  have hq := hq.mono (sub_said h ⟨_, .ok row⟩)
  refine mediates_bind (mediates_call (.perform hq rfl (.refreshCreated htold)) fun fresh _ _ => ?_)
  have hq := hq.mono (sub_said _ ⟨_, .ok fresh⟩)
  exact mediates_bind (mediates_call (.perform hq rfl (.commit id)) fun _ _ _ => trivial)

theorem mediates_keepTask {request : Request} {task : Task} (hq : Qualified request h)
    (ha : request.accepted = true) (hw : ¬ request.isReading) :
    Mediates request (fun _ _ => True) (keepTask task) h :=
  mediates_bind (mediates_call (.perform hq ha (.commit hw)) fun _ _ _ => trivial)

theorem mediates_saveTask {request : Request} {t : Id} {patch : TaskPatch}
    (hq : Qualified request h) (ha : request.accepted = true) (hw : ¬ request.isReading)
    (hflush : Performs h request (.flushTask t patch))
    (hrefresh : ∀ h', h ⊆ h' → Performs h' request (.refreshTask t)) :
    Mediates request (fun _ _ => True) (saveTask t patch) h := by
  refine mediates_bind (mediates_call (.perform hq ha hflush) fun _ _ _ => ?_)
  have hsub := sub_said h ⟨.flushTask t patch, .ok ()⟩
  have hq := hq.mono hsub
  refine mediates_bind (mediates_call (.perform hq ha (hrefresh _ hsub)) fun row _ _ => ?_)
  have hq := hq.mono (sub_said _ ⟨_, .ok row⟩)
  exact mediates_bind (mediates_call (.perform hq ha (.commit hw)) fun _ _ _ => trivial)

theorem mediates_updateTask {subject : Option String} {access : WorkspaceTaskAccess}
    {data : TaskUpdate} {request : Request}
    (hr : request = .updateTask subject access.workspaceAccess.workspace.id access.task.id
      (some data))
    (hq : Qualified request h)
    (ht : TaskOf request h access.workspaceAccess.currentUser access.workspaceAccess.workspace.id
      access.task) :
    Mediates request (fun _ _ => True) (updateTask access data) h := by
  subst hr
  refine mediates_bind (mediates_membershipRole ht.toMemberOf fun m hm => ?_)
  have hq := hq.mono (sub_said h ⟨_, .ok m⟩)
  have ht := ht.mono (sub_said h ⟨_, .ok m⟩)
  refine mediates_bind (mediates_raiseIf (fun hrole => ?_) fun hrole => ?_)
  · exact .declined hq (.mayNotEdit ht hm hrole)
  · exact mediates_rollbackOnSqlError (mediates_saveTask hq rfl id
      (.editTask ht hm (Bool.eq_true_of_not_eq_false hrole)) fun _ _ => .refreshEdited)

theorem mediates_deleteTask {subject : Option String} {access : WorkspaceTaskAccess}
    {request : Request}
    (hr : request = .deleteTask subject access.workspaceAccess.workspace.id access.task.id)
    (hq : Qualified request h)
    (ht : TaskOf request h access.workspaceAccess.currentUser access.workspaceAccess.workspace.id
      access.task) :
    Mediates request (fun _ _ => True) (deleteTask access) h := by
  subst hr
  refine mediates_bind (mediates_membershipRole ht.toMemberOf fun m hm => ?_)
  have hq := hq.mono (sub_said h ⟨_, .ok m⟩)
  have ht := ht.mono (sub_said h ⟨_, .ok m⟩)
  refine mediates_bind (mediates_raiseIf (fun hrole => ?_) fun hrole => ?_)
  · exact .declined hq (.mayNotDelete ht hm hrole)
  · refine mediates_rollbackOnSqlError (mediates_bind (mediates_call (.perform hq rfl
      (.deleteTask ht hm (Bool.eq_true_of_not_eq_false hrole))) fun _ _ _ => ?_))
    exact mediates_call (.perform (hq.mono (sub_said _ _)) rfl (.commit id)) fun _ _ _ => trivial

/-! ### Locked memberships -/

/-- The memberships that were locked, with the answers to the locking reads. -/
structure LockedRows (h : Dialogue Call.Res) (w : Id) (us : List Id)
    (rows : List WorkspaceMember) : Prop where
  told : ∀ m ∈ rows, Told h (.lockMember w m.userId) (some m)
  missing : ∀ u ∈ us, membershipOf rows u = none → Told h (.lockMember w u) none

theorem LockedRows.mono {h' : Dialogue Call.Res} {w : Id} {us : List Id}
    {rows : List WorkspaceMember} (hrows : LockedRows h w us rows) (hsub : h ⊆ h') :
    LockedRows h' w us rows :=
  ⟨fun m hm => (hrows.told m hm).mono hsub, fun u hu hn => (hrows.missing u hu hn).mono hsub⟩

theorem LockedRows.found {w u : Id} {us : List Id} {rows : List WorkspaceMember}
    {m : WorkspaceMember} (hrows : LockedRows h w us rows) (hm : membershipOf rows u = some m) :
    Told h (.lockMember w u) (some m) := by
  have hid : m.userId = u := by simpa using List.find?_some hm
  have htold := hrows.told m (List.mem_of_find?_eq_some hm)
  rw [hid] at htold
  exact htold

theorem mediates_lockMembershipRows {request : Request} {w : Id} (us : List Id)
    (hmay : ∀ u ∈ us, ∀ h', h ⊆ h' → request.May h' (.lockMember w u)) :
    Mediates request (fun rows h' => LockedRows h' w us rows) (lockMembershipRows w us) h := by
  induction us generalizing h with
  | nil => exact ⟨fun _ hm => absurd hm List.not_mem_nil, fun _ hu => absurd hu List.not_mem_nil⟩
  | cons u rest ih =>
      refine mediates_bind (mediates_call (hmay u (List.mem_cons_self ..) h (List.Subset.refl h))
        fun row hfits htold => ?_)
      have hrest := ih (h := h ++ [⟨.lockMember w u, .ok row⟩]) fun v hv h' hsub =>
        hmay v (List.mem_cons_of_mem u hv) h' (List.Subset.trans (sub_said h _) hsub)
      refine mediates_bind (mediates_imp hrest fun rows h' hsub hrows => ?_)
      have htold := htold.mono hsub
      refine ⟨fun m hm => ?_, fun v hv hnone => ?_⟩
      · rcases List.mem_append.mp hm with hown | hm
        · obtain rfl := Option.mem_toList.mp hown
          have hid : m.userId = u := hfits
          rw [hid]
          exact htold
        · exact hrows.told m hm
      · rw [membershipOf, List.find?_append, Option.or_eq_none_iff] at hnone
        rcases List.mem_cons.mp hv with rfl | hv
        · cases row with
          | none => exact htold
          | some m =>
              have hid : m.userId = v := hfits
              refine absurd (List.find?_eq_none.mp hnone.1 m (List.mem_singleton_self m)) ?_
              exact not_not.mpr (decide_eq_true hid)
        · exact hrows.missing v hv hnone.2

theorem mediates_lockWorkspaceMemberships {request : Request} {w : Id} (us : List Id)
    (hmay : ∀ u ∈ us, ∀ h', h ⊆ h' → request.May h' (.lockMember w u)) :
    Mediates request (fun rows h' => LockedRows h' w us rows)
      (lockWorkspaceMemberships w us) h := by
  have hmem : ∀ u, u ∈ us.dedup.insertionSort (fun a b => a ≤ b) ↔ u ∈ us := by
    intro u
    rw [List.mem_insertionSort, List.mem_dedup]
  refine mediates_imp (mediates_lockMembershipRows _ fun u hu => hmay u ((hmem u).mp hu)) ?_
  exact fun rows h' _ hrows => ⟨hrows.told, fun u hu => hrows.missing u ((hmem u).mpr hu)⟩

theorem mediates_lockTask {request : Request} {user : User} {w t : Id}
    (hu : MemberOf request h user w) (ht : request.taskId? = some t)
    (hmay : request.May h (.lockTask w t)) :
    Mediates request (fun row h' => row.id = t ∧ Told h' (.lockTask w t) (some row))
      (lockTask w t) h := by
  refine mediates_bind (mediates_call hmay fun row hfits htold => ?_)
  refine mediates_orRaise (fun hnone => ?_) fun found hsome => ?_
  · subst hnone
    exact .taskGone (hu.mono (sub_said h _)) ht htold
  · subst hsome
    exact ⟨hfits, htold⟩

theorem mediates_updateTaskStatus {subject : Option String} {access : WorkspaceTaskAccess}
    {data : TaskStatusUpdate} {request : Request}
    (hr : request = .updateTaskStatus subject access.workspaceAccess.workspace.id access.task.id
      (some data))
    (hq : Qualified request h)
    (ht : TaskOf request h access.workspaceAccess.currentUser access.workspaceAccess.workspace.id
      access.task) :
    Mediates request (fun _ _ => True) (updateTaskStatus access data) h := by
  subst hr
  refine mediates_rollbackOnError ?_
  have hu := ht.toMemberOf
  refine mediates_bind (mediates_imp (mediates_lockWorkspaceMemberships _ fun u hmem h' hsub => ?_)
    fun rows h' hsub hrows => ?_)
  · obtain rfl := List.mem_singleton.mp hmem
    exact .perform (hq.mono hsub) rfl (.lockActor (hu.mono hsub))
  have hq := hq.mono hsub
  have hu := hu.mono hsub
  refine mediates_bind (mediates_orRaise (fun hnone => ?_) fun m hsome => ?_)
  · exact .memberGone hu (hrows.missing _ (List.mem_singleton_self _) hnone)
  have hm := hrows.found hsome
  refine mediates_bind (mediates_imp (mediates_lockTask hu rfl (.perform hq rfl .lockStatus))
    fun row h'' hsub hrow => ?_)
  obtain ⟨hid, hrow⟩ := hrow
  have hq := hq.mono hsub
  have hu := hu.mono hsub
  have hm := hm.mono hsub
  cases hd : decideStatus m.role access.workspaceAccess.currentUser.id row data.status with
  | refuse e => exact .declined hq (.statusRefused hu hm hrow hd)
  | keep => exact mediates_keepTask hq rfl id
  | change =>
      rw [hid]
      exact mediates_saveTask hq rfl id (.changeStatus hu hm hrow hd) fun _ _ => .refreshStatus

theorem mediates_updateTaskAssignee {subject : Option String} {access : WorkspaceTaskAccess}
    {data : TaskAssigneeUpdate} {request : Request}
    (hr : request = .updateTaskAssignee subject access.workspaceAccess.workspace.id access.task.id
      (some data))
    (hq : Qualified request h)
    (ht : TaskOf request h access.workspaceAccess.currentUser access.workspaceAccess.workspace.id
      access.task) :
    Mediates request (fun _ _ => True) (updateTaskAssignee access data) h := by
  subst hr
  refine mediates_rollbackOnError ?_
  have hu := ht.toMemberOf
  refine mediates_bind (mediates_membershipRole hu fun own hown => ?_)
  have hq := hq.mono (sub_said h ⟨_, .ok own⟩)
  have hu := hu.mono (sub_said h ⟨_, .ok own⟩)
  refine mediates_bind (mediates_raiseIf (fun hn => ?_) fun _ => ?_)
  · exact .declined hq (.namesAnother hu (Or.inl hown) hn)
  refine mediates_bind (mediates_imp (mediates_lockWorkspaceMemberships _ fun u hmem h' hsub => ?_)
    fun rows h' hsub hrows => ?_)
  · exact .perform (hq.mono hsub) rfl (.lockNamed (hu.mono hsub) hmem)
  have hq := hq.mono hsub
  have hu := hu.mono hsub
  refine mediates_bind (mediates_orRaise (fun hnone => ?_) fun m hsome => ?_)
  · exact .memberGone hu (hrows.missing _ (List.mem_cons_self ..) hnone)
  have hm := hrows.found hsome
  refine mediates_bind (mediates_raiseIf (fun hn => ?_) fun _ => ?_)
  · exact .declined hq (.namesAnother hu (Or.inr hm) hn)
  refine mediates_bind (mediates_imp (mediates_lockTask hu rfl (.perform hq rfl .lockAssignee))
    fun row h'' hsub hrow => ?_)
  obtain ⟨hid, hrow⟩ := hrow
  have hq := hq.mono hsub
  have hu := hu.mono hsub
  have hm := hm.mono hsub
  have hrows := hrows.mono hsub
  cases hd : decideAssignee m.role access.workspaceAccess.currentUser.id row data.assigneeId
      rows with
  | refuse e =>
      refine .declined hq (.assigneeRefused hu hm hrows.told (fun u hmem => ?_) hrow hd)
      exact hrows.missing u (List.mem_cons_of_mem _ (Option.mem_toList.mpr hmem))
  | keep => exact mediates_keepTask hq rfl id
  | change =>
      rw [hid]
      exact mediates_saveTask hq rfl id (.changeAssignee hu hm hrows.told hrow hd)
        fun _ _ => .refreshAssignee

end TaskPlatform
