import TaskPlatform.Concurrency.Access

/-!
# The membership services under interference

Registration, workspace creation and the three membership services.  The bulk
update of `remove_member` visits its tasks one by one (`Clearing`): when it is
done, every task was cleared or held nothing to clear at some moment after the
membership was locked.
-/

namespace TaskPlatform

open Transaction Database Relational

variable [Collation] {P : Protocol Request Session Database RowKey} {request : Request}
  {l l' : Session} {d d' : Database} {snap : Database}

/-- The handler of a conflict rolls back and raises. -/
theorem safe_conflict {α : Type} (hT : Tolerates P request) {c : Prop} [Decidable c]
    {conflict : AppException} {e : Exc} {Q : α → Session → Database → Prop} :
    Safe P request (do
      Service.call .rollback
      if c then Service.raise conflict else throw e) Q l d := by
  refine safe_bind (safe_mono (safe_ignored hT (by nofun)) fun _ _ _ _ => ?_)
  split
  · exact safe_raise
  · exact safe_throw

/-! ## Users and workspaces -/

theorem createUser_safe (hS : Sound P) {ip : String} {body : UserCreate}
    (hT : Tolerates P (.createUser ip (some body))) :
    Safe P (.createUser ip (some body)) (createUser body) (fun _ _ _ => True) {} d := by
  refine safe_bind (safe_select hT fun snap hsnap => safe_bind (safe_raiseIf fun _ => ?_))
  refine safe_bind (safe_call hT (by nofun) fun env d₁ hashed l₁ d₁' hd₁ hx => ?_)
  cases hx
  refine safe_tryCatch ?_ fun e l d => ?_
  · refine safe_bind (safe_insertUser hT fun d₂ d₃ row hd₂ hevolve hsame hcheck => safe_bind ?_)
    have hview : ReadView P snap (Session.openView {} snap) d₃ :=
      ⟨rfl, hsnap.inv, P.evolve_trans hd₁.evolve (P.evolve_trans hd₂.evolve hevolve)⟩
    refine safe_mono (safe_commitWrites hT (hview.session rfl)
      (Session.writes_write rfl _) fun d₄ hd₄ => ?_) fun _ _ _ _ => safe_ignored hT (by nofun)
    refine .createUser ?_
    rw [meddles_user hS hd₄ (Session.holds_write _ List.mem_cons_self), ← hsame.user?]
    exact (checkUser_ok hcheck).1
  · cases e with
    | sql err => exact safe_conflict hT
    | app e => exact safe_throw
    | validation => exact safe_throw

theorem createWorkspace_safe (hS : Sound P) {subject : Option String} {body : WorkspaceCreate}
    {user : User} (hT : Tolerates P (.createWorkspace subject (some body)))
    (hview : ReadView P snap l d) (hwrites : l.writes = [])
    (hactor : snap.actor? subject = some user) :
    Safe P (.createWorkspace subject (some body)) (createWorkspace user body.name)
      (fun _ _ _ => True) l d := by
  refine safe_rollbackOnSqlError hT (safe_bind ?_)
  refine safe_insertWorkspace hT fun d₁ d₂ workspace hd₁ hevolve hsame hcreator hcheck => ?_
  rw [Session.current_eq hwrites] at hcheck
  obtain ⟨hfree, huser⟩ := checkWorkspace_ok hcheck
  rw [hcreator] at huser
  refine safe_bind (safe_insertMember hT fun d₃ m hd₃ hm _ => ?_)
  refine safe_bind (safe_refreshWorkspace hT fun d₄ _ hd₄ => safe_bind ?_)
  have hview₄ : ReadView P snap l d₄ :=
    ⟨hview.view, hview.inv, P.evolve_trans (hview.meddles hd₁).evolve
      (P.evolve_trans hevolve (P.evolve_trans hd₃.evolve hd₄.evolve))⟩
  have hws : ((l.write (.putWorkspace workspace)).write (.putMember m)).writes =
      [.putWorkspace workspace, .putMember m] := by
    rw [Session.write, Session.writes_write hwrites]
    rfl
  refine safe_mono (safe_commitWrites hT (hview₄.reopen (by rfl) d₄) hws fun d₅ hd₅ => ?_)
    fun _ _ _ _ => trivial
  -- the id of the new workspace has been locked since it was assigned
  have hheld : (l.write (.putWorkspace workspace)).Holds (.workspace workspace.id) :=
    Session.holds_write l (List.mem_singleton_self _)
  have hfree₃ : d₃.workspace? workspace.id = none := by
    rw [meddles_workspace hS hd₃ hheld, ← hsame.workspace?]
    exact hfree
  have hfree₅ : d₅.workspace? workspace.id = none := by
    have hheld₄ : (((l.write (.putWorkspace workspace)).keepMember m).write (.putMember m)).Holds
        (.workspace workspace.id) := Session.Holds.write hheld (.putMember m)
    rw [meddles_workspace hS hd₅ hheld₄, meddles_workspace hS hd₄ hheld₄]
    exact hfree₃
  have hpersists : Persists d₁ d₅ :=
    hsame.persists.trans ((meddles_persists hS hd₃).trans
      ((meddles_persists hS hd₄).trans (meddles_persists hS hd₅)))
  exact .createWorkspace hactor (hpersists.user_isSome huser) hfree₅ hcreator hm

/-! ## Membership services -/

section Members

variable (hS : Sound P) {subject : Option String} {w u : Id} {m : WorkspaceMember}
  {access : WorkspaceAccess}

include hS

theorem addMember_safe {body : WorkspaceMemberCreate}
    (hT : Tolerates P (.addMember subject w (some body)))
    (ha : Accessed P subject w access snap m l d) :
    Safe P (.addMember subject w (some body)) (addMember access body.username body.role.1)
      (fun _ _ _ => True) l d := by
  refine safe_bind (safe_membershipRole hT ha fun d₀ hd₀ => ?_)
  refine safe_bind (safe_raiseIf fun hrole => ?_)
  have hrole := Bool.of_not_eq_false hrole
  rw [ha.workspace]
  refine safe_tryCatch ?_ fun e l d => ?_
  · refine safe_bind (safe_getUserByUsername hT fun d₁ hd₁ => ?_)
    refine safe_bind (safe_orRaise fun target _ => ?_)
    refine safe_bind (safe_getMember hT (fun _ _ _ _ => safe_bind ?_) fun d₂ hd₂ => safe_bind ?_)
    · exact safe_raiseIf fun h => absurd rfl h
    refine safe_raiseIf fun _ => safe_bind ?_
    refine safe_insertMember hT fun d₃ row hd₃ hrow hcheck => ?_
    have hwrites : ((l.openView d₁).openView d₂).writes = [] := ha.writes
    rw [Session.current_eq hwrites] at hcheck
    obtain ⟨habsent, hworkspace, huser⟩ := checkMember_ok hcheck
    refine safe_bind (safe_refreshMember hT fun d₄ _ hd₄ => safe_bind ?_)
    have hview₄ : ReadView P snap ((l.openView d₁).openView d₂) d₄ :=
      ((((ha.meddles hd₀).readView.meddles hd₁).reopen (by rfl) d₁).meddles hd₂ |>.reopen
        (by rfl) d₂).meddles (meddles_trans hd₃ (meddles_of_holds (by
          exact fun _ hk => Session.Holds.write hk _) hd₄))
    refine safe_mono (safe_commitWrites hT (hview₄.reopen (by rfl) d₄)
      (Session.writes_write hwrites _) fun d₅ hd₅ => ?_) fun _ _ _ _ => trivial
    have hpersists : Persists d₃ d₅ :=
      (meddles_persists hS hd₄).trans (meddles_persists hS hd₅)
    have hheld : (((l.openView d₁).openView d₂).write (.putMember row)).Holds
        (.member row.workspaceId row.userId) :=
      Session.holds_write _ (List.mem_singleton_self _)
    have habsent₅ : d₅.member? row.workspaceId row.userId = none := by
      rw [meddles_member hS hd₅ hheld, meddles_member hS hd₄ hheld]
      exact habsent
    rw [hrow.1] at hworkspace habsent₅
    exact .addMember ha.actor hrole ⟨hrow.1, hrow.2.2⟩ habsent₅
      (hpersists.workspace_isSome hworkspace) (hpersists.user_isSome huser)
  · cases e with
    | sql err => exact safe_conflict hT
    | app e => exact safe_throw
    | validation => exact safe_throw

theorem updateMemberRole_safe {body : WorkspaceMemberRoleUpdate}
    (hT : Tolerates P (.updateMemberRole subject w u (some body)))
    (ha : Accessed P subject w access snap m l d) :
    Safe P (.updateMemberRole subject w u (some body)) (updateMemberRole access u body.role.1)
      (fun _ _ _ => True) l d := by
  refine safe_rollbackOnSqlError hT (safe_bind ?_)
  rw [ha.workspace]
  refine safe_bind (safe_select hT fun d₁ hd₁ => safe_orRaise fun found hfound => ?_)
  simp only [Query.eval, Session.view_eq ha.readView.view ha.writes] at hfound ⊢
  cases hrow : snap.memberWithUsername? w u with
  | none =>
      rw [hrow] at hfound
      cases hfound
  | some row =>
      obtain ⟨old, username⟩ := row
      have hold : snap.member? w u = some old := (memberWithUsername?_eq_some.mp hrow).1
      rw [hrow] at hfound
      simp only [Query.load, ha.resolveMember hold, Option.some.injEq] at hfound ⊢
      subst hfound
      refine safe_bind (safe_raiseIf fun howner => safe_bind ?_)
      -- the actor's own instance is the row his access read, also when he is the target
      have hown : (l.keepMember old).members.find?
          (memberKey w access.currentUser.id) = some m := by
        obtain ⟨hw, hu⟩ := key_of_member? hold
        refine (Table.find?_put l.members old _).trans ?_
        rw [key_member, hw, hu]
        split
        · rename_i heq
          rw [← (memberKey_inj.mp heq).2] at hold
          exact hold.symm.trans ha.actor.member
        · exact ha.own
      refine safe_bind (safe_memberAttributes hT fun d₂ m' hd₂ hm' => safe_pure ?_)
      rw [ha.workspace] at hm'
      cases hown.symm.trans hm'
      refine safe_bind (safe_raiseIf fun hrole => safe_bind ?_)
      have hrole := Bool.of_not_eq_false hrole
      have hloaded : ((l.keepMember old).openView d₁).members.find? (memberKey w u) =
          some old := by
        obtain ⟨hw, hu⟩ := key_of_member? hold
        refine (Table.find?_put l.members old _).trans ?_
        rw [key_member, hw, hu, if_pos rfl]
      have hview₂ : ReadView P snap ((l.keepMember old).openView d₁) d₂ :=
        ((ha.readView.meddles hd₁).reopen (by rfl) d₁).meddles hd₂
      refine safe_flushMemberRole hT hloaded (fun d₃ _ => ?_) fun d₃ row now hd₃ hrow₃ => ?_
      · refine safe_bind (safe_refreshMember hT fun d₄ _ _ => safe_bind ?_)
        exact safe_mono (safe_commitNothing hT ha.writes) fun _ _ _ _ => trivial
      · have hrow₃ : d₃.member? w u = some row := by
          rwa [Session.current_eq (show ((l.keepMember old).openView d₁).writes = [] from
            ha.writes)] at hrow₃
        obtain ⟨hw, hu⟩ := key_of_member? hrow₃
        refine safe_bind (safe_refreshMember hT fun d₄ _ hd₄ => safe_bind ?_)
        have hheld : (((l.keepMember old).openView d₁).write (.putMember
            { row with role := body.role.1, updatedAt := now })).Holds (.member w u) :=
          Session.holds_write _ (by rw [← hw, ← hu]; exact List.mem_singleton_self _)
        refine safe_mono (safe_commitWrites hT (((hview₂.meddles hd₃).meddles
          (meddles_of_holds (by exact fun _ hk => Session.Holds.write hk _) hd₄)).reopen
            (by rfl) d₄) (Session.writes_write ha.writes _) fun d₅ hd₅ => ?_)
              fun _ _ _ _ => trivial
        have hrow₅ : d₅.member? w u = some row := by
          rw [meddles_member hS hd₅ hheld, meddles_member hS hd₄ hheld]
          exact hrow₃
        exact .updateMemberRole ha.actor hold howner hrole hrow₅

end Members

/-! ## Removing a member -/

/-- The state of the bulk update with the ids in `rest` still to visit. -/
structure Clearing (P : Protocol Request Session Database RowKey) (snap : Database) (w u : Id)
    (row : WorkspaceMember) (updatedAt : Timestamp) (cleared : List Task) (rest : List Id)
    (l : Session) (d : Database) : Prop where
  readView : ReadView P snap l d
  writes : l.writes = cleared.map (clearWrite updatedAt)
  holds : l.Holds (.member w u)
  member : d.member? w u = some row
  matched : ∀ t ∈ cleared, d.task? t.id = some t ∧ holdsUnfinished w u t = true
  passed : ∀ t, t ∈ rest ∨ Passed P.rely w u cleared d t

omit [Collation] in
theorem Passed.extend {w u t : Id} {cleared cleared' : List Task}
    (h : Passed P.rely w u cleared d t) (hsub : ∀ a ∈ cleared, a ∈ cleared')
    (hd : P.rely (.member w u) d d') : Passed P.rely w u cleared' d' t := by
  refine h.imp (fun ht => ?_) fun ⟨d₀, hd₀, hrow⟩ => ⟨d₀, P.rely_trans hd₀ hd, hrow⟩
  obtain ⟨a, ha, rfl⟩ := List.mem_map.mp ht
  exact List.mem_map_of_mem (hsub a ha)

theorem Clearing.meddles (hS : Sound P) {w u : Id} {row : WorkspaceMember}
    {updatedAt : Timestamp} {cleared : List Task} {rest : List Id}
    (h : Clearing P snap w u row updatedAt cleared rest l d) (hd : Meddles P l d d') :
    Clearing P snap w u row updatedAt cleared rest l d' where
  readView := h.readView.meddles hd
  writes := h.writes
  holds := h.holds
  member := (meddles_member hS hd h.holds).trans h.member
  matched := by
    intro t ht
    have hheld : l.Holds (.task t.id) := by
      refine Or.inr ⟨clearWrite updatedAt t, ?_, List.mem_singleton_self _⟩
      rw [h.writes]
      exact List.mem_map_of_mem ht
    exact ⟨(meddles_task hS hd hheld).trans (h.matched t ht).1, (h.matched t ht).2⟩
  passed := fun t => (h.passed t).imp_right fun hp =>
    hp.extend (fun _ ha => ha) (hd.rely _ h.holds)

section Removal

variable (hS : Sound P) {subject : Option String} {w u : Id} {m row : WorkspaceMember}
  {access : WorkspaceAccess}

include hS

theorem safe_clearStep (hT : Tolerates P request) {updatedAt : Timestamp} {t : Id}
    {rest : List Id} {cleared : List Task}
    (h : Clearing P snap w u row updatedAt cleared (t :: rest) l d) :
    Safe P request (Service.call (.clearAssignee w u t updatedAt))
      (fun _ l d => ∃ cleared, Clearing P snap w u row updatedAt cleared rest l d) l d := by
  -- a visit either clears the task or finds that it holds nothing to clear
  have hcurrent : ∀ d', l.current d' = d'.applyAll (cleared.map (clearWrite updatedAt)) := by
    intro d'
    rw [Session.current, h.writes]
  refine safe_clearAssignee hT (fun d' hd hskip => ?_) fun d' task hd htask hmatch => ?_
  · have h' := h.meddles hS hd
    have hpassed : ∀ k, k ∈ rest ∨ Passed P.rely w u cleared d' k := by
      intro k
      rcases h'.passed k with hk | hk
      · rcases List.mem_cons.mp hk with rfl | hk
        · by_cases hc : k ∈ cleared.map Task.id
          · exact Or.inr (Or.inl hc)
          · refine Or.inr (Or.inr ⟨d', P.rely_refl _ d', fun row hrow => hskip row ?_⟩)
            rw [hcurrent, task?_of_not_cleared hc]
            exact hrow
        · exact Or.inl hk
      · exact Or.inr hk
    exact ⟨⟨cleared, { h' with passed := hpassed }⟩,
      ⟨cleared, { h' with
        readView := h'.readView.session rfl
        holds := h'.holds.lock _
        passed := hpassed }⟩⟩
  · have h' := h.meddles hS hd
    have hid : task.id = t := id_of_task? htask
    have hc : t ∉ cleared.map Task.id := by
      intro hc
      rw [hcurrent] at htask
      rw [holdsUnfinished_of_none (assigneeId_of_cleared hc htask)] at hmatch
      cases hmatch
    rw [hcurrent, task?_of_not_cleared hc] at htask
    refine ⟨cleared ++ [task], { h' with
      readView := h'.readView.session rfl
      writes := ?_
      holds := h'.holds.write _
      matched := ?_
      passed := ?_ }⟩
    · rw [List.map_append, ← h.writes]
      rfl
    · intro a ha
      rcases List.mem_append.mp ha with ha | ha
      · exact h'.matched a ha
      · rw [List.mem_singleton.mp ha]
        exact ⟨by rw [hid]; exact htask, hmatch⟩
    · intro k
      rcases h'.passed k with hk | hk
      · rcases List.mem_cons.mp hk with rfl | hk
        · exact Or.inr (Or.inl (by simp [hid]))
        · exact Or.inl hk
      · exact Or.inr (hk.extend (fun _ ha => List.mem_append_left _ ha) (P.rely_refl _ d'))

theorem safe_clearUnfinishedTasks (hT : Tolerates P request) (hview : ReadView P snap l d)
    (hwrites : l.writes = []) (hheld : l.Holds (.member w u)) (hrow : d.member? w u = some row)
    {Q : Unit → Session → Database → Prop}
    (h : ∀ updatedAt cleared l' d', Clearing P snap w u row updatedAt cleared [] l' d' →
      Q () l' d') :
    Safe P request (clearUnfinishedTasks w u) Q l d := by
  refine safe_bind (safe_utcNow hT fun d₁ updatedAt hd₁ => safe_bind ?_)
  refine safe_scanTasks hT fun d₂ ids hd₂ hscan => ?_
  have hd := meddles_trans hd₁ hd₂
  rw [Session.current_eq hwrites] at hscan
  -- rows of other workspaces are not visited, and hold nothing to clear
  have hpassed : ∀ t, t ∈ ids ∨ Passed P.rely w u [] d₂ t := by
    intro t
    by_cases ht : t ∈ ids
    · exact Or.inl ht
    · refine Or.inr (Or.inr ⟨d₂, P.rely_refl _ d₂, fun task htask => ?_⟩)
      have hw : task.workspaceId ≠ w := fun hw =>
        ht (by rw [← id_of_task? htask]; exact hscan task (Table.mem_of_find? htask) hw)
      simp [holdsUnfinished, hw]
  have hstart : Clearing P snap w u row updatedAt [] ids l d₂ :=
    ⟨hview.meddles hd, hwrites, hheld, (meddles_member hS hd hheld).trans hrow,
      List.forall_mem_nil _, hpassed⟩
  refine safe_mono (safe_forM (fun rest l d => ∃ cleared,
    Clearing P snap w u row updatedAt cleared rest l d) (fun t rest l d hc => ?_)
    ⟨[], hstart⟩) fun _ l d hc => ?_
  · obtain ⟨cleared, hc⟩ := hc
    exact safe_clearStep hS hT hc
  · obtain ⟨cleared, hc⟩ := hc
    exact h updatedAt cleared l d hc

theorem removeMember_safe (hT : Tolerates P (.removeMember subject w u))
    (ha : Accessed P subject w access snap m l d) :
    Safe P (.removeMember subject w u) (removeMember access u) (fun _ _ _ => True) l d := by
  refine safe_rollbackOnError hT (safe_bind ?_)
  rw [ha.workspace]
  refine safe_lockMember hT (fun _ _ _ => safe_bind safe_raise) fun d₁ row hd₁ hrow => ?_
  rw [Session.current_eq ha.writes] at hrow
  refine safe_bind (safe_orRaise fun target htarget => safe_bind ?_)
  cases htarget
  refine safe_bind (safe_memberAttributes hT fun d₂ own hd₂ hown => safe_pure ?_)
  cases hrefused : removalRefused own.role row.role with
  | some e => exact safe_raise
  | none =>
      have hrole := removalRefused_eq_none.mp hrefused
      obtain ⟨hw, hu⟩ := key_of_member? hrow
      -- a target that is the actor would have been read with the actor's current role
      have hself : u ≠ access.currentUser.id ∧ own = m := by
        have hput := (Table.find?_put l.members row
          (memberKey access.workspace.id access.currentUser.id)).symm.trans hown
        rw [key_member, hw, hu, ha.workspace] at hput
        by_cases heq : u = access.currentUser.id
        · rw [heq, if_pos rfl] at hput
          cases hput
          rcases canRemoveMember_iff.mp hrole with ⟨h₁, h₂⟩ | ⟨h₁, h₂⟩
          · exact absurd h₁ h₂
          · exact absurd (h₁.symm.trans h₂) (by decide)
        · rw [if_neg fun hk => heq (memberKey_inj.mp hk).2.symm, ha.own] at hput
          exact ⟨heq, (Option.some.inj hput).symm⟩
      rw [hself.2] at hrole
      have hheld : ((l.keepMember row).lock (.member w u)).Holds (.member w u) :=
        Session.holds_lock _ _
      have hview₁ : ReadView P snap ((l.keepMember row).lock (.member w u)) d₁ :=
        (ha.readView.meddles hd₁).session rfl
      have hview₂ := hview₁.meddles hd₂
      have hrow₂ := (meddles_member hS hd₂ hheld).trans hrow
      refine safe_bind (safe_clearUnfinishedTasks hS hT hview₂ ha.writes hheld hrow₂
        fun updatedAt cleared l₃ d₃ h₃ => safe_bind ?_)
      refine safe_deleteMember hT (fun d₄ row₄ hd₄ hrow₄ => ?_) fun d₄ hd₄ hnone => ?_
      · have h₄ := h₃.meddles hS hd₄
        have hws : (l₃.write (.deleteMember w u)).writes =
            cleared.map (clearWrite updatedAt) ++ [.deleteMember w u] := by
          rw [Session.write, h₃.writes]
        refine safe_commitWrites hT (h₄.readView.session rfl) hws fun d₅ hd₅ => ?_
        have h₅ := h₄.meddles hS (meddles_of_holds (by
          exact fun _ hk => Session.Holds.write hk _) hd₅)
        exact .removeMember ha.actor hself.1 h₅.member hrole h₅.matched fun t =>
          (h₅.passed t).resolve_left List.not_mem_nil
      · -- the row is locked, so it cannot be missing
        have h₄ := h₃.meddles hS hd₄
        have hsame : SameRow (.member w u) d₄ (l₃.current d₄) := by
          rw [Session.current, h₄.writes]
          exact sameRow_cleared fun _ _ hk => by cases hk
        cases h₄.member.symm.trans (hsame.trans hnone)

end Removal
end TaskPlatform
