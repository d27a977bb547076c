import TaskPlatform.Concurrency.Rules

/-!
# Sessions under interference

What a request knows between two of its calls.  What it has read is a fact about
the snapshot, what it has locked or written is a fact about the current rows, and
both survive whatever the other transactions do.  The dependencies of the routes,
the locks on memberships and the commit are walked through here; the services
follow.
-/

namespace TaskPlatform

open Transaction Database Relational

variable {P : Protocol Request Session Database RowKey} {request : Request}
  {l l' : Session} {d d' : Database} {snap : Database}

/-- The snapshot a session reads from. -/
structure ReadView (P : Protocol Request Session Database RowKey) (snap : Database)
    (l : Session) (d : Database) : Prop where
  view : l.readView = some snap
  inv : P.inv snap
  evolve : P.evolve snap d

/-- Later calls keep the snapshot open. -/
theorem ReadView.session (h : ReadView P snap l d) (hl : l'.readView = l.readView) :
    ReadView P snap l' d :=
  ⟨hl.trans h.view, h.inv, h.evolve⟩

theorem ReadView.reopen (h : ReadView P snap l d) (hl : l'.readView = l.readView)
    (d' : Database) : ReadView P snap (l'.openView d') d :=
  ⟨by rw [Session.openView, hl, h.view]; rfl, h.inv, h.evolve⟩

variable [Collation]

theorem ReadView.meddles (h : ReadView P snap l d) (hd : Meddles P l d d') :
    ReadView P snap l d' :=
  ⟨h.view, h.inv, P.evolve_trans h.evolve hd.evolve⟩

theorem meddles_trans {d'' : Database} (h : Meddles P l d d') (h' : Meddles P l d' d'') :
    Meddles P l d d'' :=
  P.interferes_trans Session.machine h h'

/-- A session that holds more is meddled with less. -/
theorem meddles_of_holds (hl : ∀ k, l.Holds k → l'.Holds k) (h : Meddles P l' d d') :
    Meddles P l d d' :=
  ⟨h.inv, h.evolve, fun k hk => h.rely k (hl k hk)⟩

theorem Session.holds_lock (l : Session) (k : RowKey) : (l.lock k).Holds k :=
  Or.inl List.mem_cons_self

theorem Session.holds_write {w : Write} {k : RowKey} (l : Session) (hk : k ∈ w.keys) :
    (l.write w).Holds k :=
  Or.inr ⟨w, List.mem_append_right _ (List.mem_singleton_self w), hk⟩

theorem Session.Holds.lock {k : RowKey} (h : l.Holds k) (k' : RowKey) : (l.lock k').Holds k :=
  h.imp_left (List.mem_cons_of_mem k')

theorem Session.Holds.write {k : RowKey} (h : l.Holds k) (w : Write) : (l.write w).Holds k :=
  h.imp_right fun ⟨w', hw', hk⟩ => ⟨w', List.mem_append_left _ hw', hk⟩

/-- The locks of a session as a list. -/
def Session.heldKeys (l : Session) : List RowKey := l.locked ++ l.writes.flatMap Write.keys

theorem Session.mem_heldKeys {k : RowKey} : k ∈ l.heldKeys ↔ l.Holds k := by
  rw [heldKeys, List.mem_append, List.mem_flatMap]
  exact Iff.rfl

/-- A held row is as it was, whatever the others do. -/
theorem meddles_member (hS : Sound P) (hd : Meddles P l d d') {w u : Id}
    (hl : l.Holds (.member w u)) : d'.member? w u = d.member? w u :=
  (hS.rely (hd.rely _ hl)).symm

theorem meddles_task (hS : Sound P) (hd : Meddles P l d d') {t : Id}
    (hl : l.Holds (.task t)) : d'.task? t = d.task? t :=
  (hS.rely (hd.rely _ hl)).symm

theorem meddles_persists (hS : Sound P) (hd : Meddles P l d d') : Persists d d' :=
  hS.evolve hd.evolve

theorem meddles_workspace (hS : Sound P) (hd : Meddles P l d d') {w : Id}
    (hl : l.Holds (.workspace w)) : d'.workspace? w = d.workspace? w :=
  (hS.rely (hd.rely _ hl)).symm

theorem meddles_user (hS : Sound P) (hd : Meddles P l d d') {u : Id}
    (hl : l.Holds (.user u)) : d'.user? u = d.user? u :=
  (hS.rely (hd.rely _ hl)).symm

/-! ## Access to a workspace and to a task -/

/-- What a session holds after `get_workspace_access`. -/
structure Accessed (P : Protocol Request Session Database RowKey) (subject : Option String)
    (w : Id) (access : WorkspaceAccess) (snap : Database) (m : WorkspaceMember) (l : Session)
    (d : Database) : Prop where
  readView : ReadView P snap l d
  actor : Actor snap subject w access.currentUser m
  workspace : access.workspace.id = w
  members : ∀ k, l.members.find? k =
    if k = memberKey w access.currentUser.id then some m else none
  writes : l.writes = []

theorem Accessed.meddles {subject : Option String} {w : Id} {access : WorkspaceAccess}
    {m : WorkspaceMember} (h : Accessed P subject w access snap m l d)
    (hd : Meddles P l d d') : Accessed P subject w access snap m l d' :=
  { h with readView := h.readView.meddles hd }

theorem Accessed.own {subject : Option String} {w : Id} {access : WorkspaceAccess}
    {m : WorkspaceMember} (h : Accessed P subject w access snap m l d) :
    l.members.find? (memberKey w access.currentUser.id) = some m := by
  rw [h.members, if_pos rfl]

/-- A row of the snapshot is not changed by the identity map, which holds at most
the actor's own row of that snapshot. -/
theorem Accessed.resolveMember {subject : Option String} {w u : Id} {access : WorkspaceAccess}
    {m row : WorkspaceMember} (h : Accessed P subject w access snap m l d)
    (hrow : snap.member? w u = some row) : l.resolveMember row = row := by
  obtain ⟨hw, hu⟩ := key_of_member? hrow
  rw [Session.resolveMember, key_member, h.members, hw, hu]
  by_cases heq : u = access.currentUser.id
  · rw [heq] at hrow ⊢
    rw [if_pos rfl, Option.getD_some]
    exact Option.some.inj (h.actor.member.symm.trans hrow)
  · rw [if_neg fun hk => heq (memberKey_inj.mp hk).2]
    rfl

/-- What a session holds after `get_workspace_task_access`. -/
structure TaskAccessed (P : Protocol Request Session Database RowKey) (subject : Option String)
    (w t : Id) (access : WorkspaceTaskAccess) (snap : Database) (m : WorkspaceMember)
    (l : Session) (d : Database) : Prop
    extends Accessed P subject w access.workspaceAccess snap m l d where
  row : snap.taskIn? t w = some access.task
  task : access.task.id = t
  loaded : l.tasks.find? t = some access.task

theorem TaskAccessed.meddles {subject : Option String} {w t : Id} {access : WorkspaceTaskAccess}
    {m : WorkspaceMember} (h : TaskAccessed P subject w t access snap m l d)
    (hd : Meddles P l d d') : TaskAccessed P subject w t access snap m l d' :=
  { h with readView := h.readView.meddles hd }

section Dependencies

variable (hT : Tolerates P request)

include hT

theorem safe_getCurrentUser {subject : Option String} {Q : User → Session → Database → Prop}
    (h : ∀ d' user, Meddles P {} d d' → d'.actor? subject = some user →
      Q user (Session.openView {} d') d') :
    Safe P request (getCurrentUser subject) Q {} d := by
  refine safe_bind (safe_orRaise fun username husername => safe_bind ?_)
  refine safe_select hT fun d' hd => safe_orRaise fun user huser => h d' user hd ?_
  rw [actor?, husername]
  exact huser

theorem safe_workspaceAccess {subject : Option String} {w : Id}
    {Q : WorkspaceAccess → Session → Database → Prop}
    (h : ∀ access snap m l d, Accessed P subject w access snap m l d → l.tasks = ∅ →
      Q access l d) :
    Safe P request (workspaceAccess subject w) Q {} d := by
  refine safe_bind (safe_getCurrentUser hT fun snap user hsnap huser => safe_bind ?_)
  refine safe_select hT fun d' hd => safe_bind (safe_orRaise fun row hrow => ?_)
  have hview : (Session.openView {} snap).view d' = snap := rfl
  simp only [Query.eval, hview] at hrow ⊢
  cases haccess : snap.workspaceAccess? w user.id with
  | none =>
      rw [haccess] at hrow
      cases hrow
  | some found =>
      rw [haccess] at hrow
      cases hrow
      obtain ⟨hworkspace, hm⟩ := workspaceAccess?_eq_some.mp haccess
      obtain ⟨hw, hu⟩ := key_of_member? hm
      refine safe_pure (h _ snap found.2 _ _ ⟨⟨rfl, hsnap.inv, hd.evolve⟩, ⟨huser, ?_, hm⟩,
        id_of_workspace? hworkspace, fun k => ?_, rfl⟩ rfl)
      · rw [hworkspace]
        rfl
      · refine (Table.find?_put ∅ found.2 k).trans ?_
        rw [key_member, hw, hu]
        rfl

theorem safe_membershipRole {subject : Option String} {w : Id} {access : WorkspaceAccess}
    {m : WorkspaceMember} {Q : MemberRole → Session → Database → Prop}
    (ha : Accessed P subject w access snap m l d)
    (h : ∀ d', Meddles P l d d' → Q m.role l d') :
    Safe P request access.membershipRole Q l d := by
  refine safe_bind (safe_memberAttributes hT fun d' m' hd hm' => safe_pure ?_)
  rw [ha.workspace, ha.own] at hm'
  cases hm'
  exact h d' hd

theorem safe_enforceWriteLimit {userId : Id} {scope : Scope} {workspaceId : Option Id}
    {Q : Unit → Session → Database → Prop} (h : ∀ d', Meddles P l d d' → Q () l d') :
    Safe P request (enforceWriteLimit userId scope workspaceId) Q l d := by
  refine safe_bind (safe_checkRateLimit hT fun d' r hd => ?_)
  cases enforceWriteRateLimit r with
  | ok _ => exact safe_pure (h d' hd)
  | error e => exact safe_raise

theorem safe_enforceAuthLimit {check : RateCheck} {Q : Unit → Session → Database → Prop}
    (h : ∀ d', Meddles P l d d' → Q () l d') :
    Safe P request (enforceAuthLimit check) Q l d := by
  refine safe_bind (safe_checkRateLimit hT fun d' r hd => ?_)
  cases enforceAuthRateLimit r with
  | ok _ => exact safe_pure (h d' hd)
  | error e => exact safe_raise

theorem safe_limitedWorkspaceAccess {scope : Scope} {subject : Option String} {w : Id}
    {Q : WorkspaceAccess → Session → Database → Prop}
    (h : ∀ access snap m l d, Accessed P subject w access snap m l d → Q access l d) :
    Safe P request (limitedWorkspaceAccess scope subject w) Q {} d := by
  refine safe_bind (safe_workspaceAccess hT fun access snap m l d ha _ => safe_bind ?_)
  exact safe_enforceWriteLimit hT fun d' hd => safe_pure (h _ _ _ _ _ (ha.meddles hd))

theorem safe_limitedRoleAccess {scope : Scope} {allowed : List MemberRole}
    {subject : Option String} {w : Id} {Q : WorkspaceAccess → Session → Database → Prop}
    (h : ∀ access snap m l d, Accessed P subject w access snap m l d → m.role ∈ allowed →
      Q access l d) :
    Safe P request (limitedRoleAccess scope allowed subject w) Q {} d := by
  refine safe_bind (safe_workspaceAccess hT fun access snap m l d ha _ => safe_bind ?_)
  refine safe_bind (safe_membershipRole hT ha fun d₁ hd₁ => safe_raiseIf fun hrole => ?_)
  refine safe_bind (safe_enforceWriteLimit hT fun d₂ hd₂ => safe_pure ?_)
  exact h _ _ _ _ _ ((ha.meddles hd₁).meddles hd₂) (not_not.mp hrole)

theorem safe_taskAccess {subject : Option String} {w t : Id}
    {Q : WorkspaceTaskAccess → Session → Database → Prop}
    (h : ∀ access snap m l d, TaskAccessed P subject w t access snap m l d → Q access l d) :
    Safe P request (taskAccess subject w t) Q {} d := by
  refine safe_bind (safe_workspaceAccess hT fun access snap m l d ha htasks => safe_bind ?_)
  refine safe_select hT fun d' hd => safe_bind (safe_orRaise fun row hrow => ?_)
  simp only [Query.eval, Session.view_eq ha.readView.view ha.writes] at hrow ⊢
  cases htask : snap.taskIn? t w with
  | none =>
      rw [htask] at hrow
      cases hrow
  | some found =>
      rw [htask] at hrow
      have hfresh : l.resolveTask found = found := by
        rw [Session.resolveTask, htasks]
        rfl
      simp only [Query.load, hfresh, Option.some.injEq] at hrow ⊢
      subst hrow
      have hid : found.id = t := id_of_task? (taskIn?_eq_some.mp htask).1
      refine safe_pure (h _ snap m _ _ { ha with
        readView := (ha.readView.meddles hd).reopen (by rfl) d'
        row := htask
        task := hid
        loaded := ?_ })
      refine (Table.find?_put l.tasks found t).trans ?_
      rw [key_task, hid, if_pos rfl]

theorem safe_limitedTaskAccess {scope : Scope} {subject : Option String} {w t : Id}
    {Q : WorkspaceTaskAccess → Session → Database → Prop}
    (h : ∀ access snap m l d, TaskAccessed P subject w t access snap m l d → Q access l d) :
    Safe P request (limitedTaskAccess scope subject w t) Q {} d := by
  refine safe_bind (safe_taskAccess hT fun access snap m l d ha => safe_bind ?_)
  exact safe_enforceWriteLimit hT fun d' hd => safe_pure (h _ _ _ _ _ (ha.meddles hd))

end Dependencies

/-! ## Locks on memberships -/

/-- What locking memberships of workspace `w` does to a session, and what is known
of the rows it returns. -/
structure Locked (w : Id) (rows : List WorkspaceMember) (l l' : Session) (d d' : Database) :
    Prop where
  readView : l'.readView = l.readView
  writes : l'.writes = l.writes
  tasks : l'.tasks = l.tasks
  holds : ∀ k, l.Holds k → l'.Holds k
  kept : ∀ u, l.Holds (.member w u) → d'.member? w u = d.member? w u
  rows : ∀ m ∈ rows, d'.member? w m.userId = some m ∧ l'.Holds (.member w m.userId)

theorem Locked.membershipOf {w a : Id} {rows : List WorkspaceMember} {m : WorkspaceMember}
    (h : Locked w rows l l' d d') (hm : membershipOf rows a = some m) :
    d'.member? w a = some m ∧ l'.Holds (.member w a) := by
  have ha : m.userId = a := by simpa using List.find?_some hm
  rw [← ha]
  exact h.rows m (List.mem_of_find?_eq_some hm)

theorem safe_lockMembershipRows (hS : Sound P) (hT : Tolerates P request) {w : Id}
    (us : List Id) :
    ∀ {l : Session} {d : Database} {Q : List WorkspaceMember → Session → Database → Prop},
    ReadView P snap l d → l.writes = [] →
    (∀ rows l' d', ReadView P snap l' d' → Locked w rows l l' d d' → Q rows l' d') →
    Safe P request (lockMembershipRows w us) Q l d := by
  induction us with
  | nil =>
      intro l d Q hview _ h
      exact safe_pure (h [] l d hview ⟨rfl, rfl, rfl, fun _ hk => hk, fun _ _ => rfl, nofun⟩)
  | cons u us ih =>
      intro l d Q hview hwrites h
      refine safe_bind (safe_lockMember hT (fun d₁ hd₁ _ => ?_) fun d₁ m hd₁ hm => ?_)
      · refine safe_bind (ih (hview.meddles hd₁) hwrites fun rows l₂ d₂ hview₂ h₂ => ?_)
        refine safe_pure (h rows l₂ d₂ hview₂ { h₂ with kept := fun v hv => ?_ })
        exact (h₂.kept v hv).trans (meddles_member hS hd₁ hv)
      · rw [Session.current_eq hwrites] at hm
        have hu : m.userId = u := (key_of_member? hm).2
        have hview₁ : ReadView P snap ((l.keepMember m).lock (.member w u)) d₁ :=
          (hview.meddles hd₁).session rfl
        refine safe_bind (ih hview₁ hwrites fun rows l₂ d₂ hview₂ h₂ => ?_)
        -- the new lock protects the new row while the rest is locked
        have hself : ((l.keepMember m).lock (.member w u)).Holds (.member w u) :=
          Session.holds_lock _ _
        have hrow : d₂.member? w u = some m := (h₂.kept u hself).trans hm
        refine safe_pure (h (m :: rows) l₂ d₂ hview₂ ⟨h₂.readView, h₂.writes, h₂.tasks,
          fun k hk => h₂.holds k (Session.Holds.lock hk _), fun v hv => ?_, fun x hx => ?_⟩)
        · exact (h₂.kept v (Session.Holds.lock hv _)).trans (meddles_member hS hd₁ hv)
        · rcases List.mem_cons.mp hx with rfl | hx
          · rw [hu]
            exact ⟨hrow, h₂.holds _ hself⟩
          · exact h₂.rows x hx

/-! ## Commits -/

/-- A commit of nothing. -/
theorem effect_nothing (hwrites : l.writes = []) : Effect P request l d (l.current d) := by
  rw [Session.current_eq hwrites]
  exact .quiet (SameRows.refl d)

theorem effect_commit {ws : List Write} (hview : ReadView P snap l d) (hws : l.writes = ws)
    (h : Commits P.rely snap l.Holds d request ws) : Effect P request l d (l.current d) :=
  .commit snap hview.view hview.inv hview.evolve (hws ▸ h) rfl

section Commit

variable (hS : Sound P) (hT : Tolerates P request)

include hT

theorem safe_commitNothing (hwrites : l.writes = []) :
    Safe P request (Service.call .commit) (fun _ _ _ => True) l d :=
  safe_commit hT (fun _ _ => effect_nothing hwrites) fun _ _ => trivial

/-- The commit of what was written, with the snapshot still open. -/
theorem safe_commitWrites {ws : List Write} (hview : ReadView P snap l d) (hws : l.writes = ws)
    (h : ∀ d', Meddles P l d d' → Commits P.rely snap l.Holds d' request ws) :
    Safe P request (Service.call .commit) (fun _ _ _ => True) l d :=
  safe_commit hT (fun d' hd => effect_commit (hview.meddles hd) hws (h d' hd)) fun _ _ => trivial

/-- Reading a task again between flush and commit loses no lock. -/
theorem safe_refreshTask_commit {t : Id} {ws : List Write} (hview : ReadView P snap l d)
    (hws : l.writes = ws)
    (h : ∀ d', Meddles P l d d' → Commits P.rely snap l.Holds d' request ws) :
    Safe P request
      (do
        let refreshed ← Service.call (.refreshTask t)
        Service.call .commit
        return taskData refreshed)
      (fun _ _ _ => True) l d := by
  refine safe_bind (safe_refreshTask hT fun d₁ row hd₁ => safe_bind ?_)
  refine safe_mono (safe_commitWrites hT
    ((hview.meddles hd₁).reopen (by rfl) d₁) hws fun d₂ hd₂ => ?_) fun _ _ _ _ => trivial
  exact h d₂ (meddles_trans hd₁ (meddles_of_holds (by exact fun _ hk => hk) hd₂))

theorem safe_keepTask {task : Task} (hwrites : l.writes = []) :
    Safe P request (keepTask task) (fun _ _ _ => True) l d :=
  safe_bind (safe_mono (safe_commitNothing hT hwrites) fun _ _ _ _ => trivial)

include hS

theorem safe_saveTask {t : Id} {patch : TaskPatch} {loaded : Task} (hview : ReadView P snap l d)
    (hwrites : l.writes = []) (hloaded : l.tasks.find? t = some loaded)
    (h : ∀ d' held row now, Meddles P l d d' → (∀ k, l.Holds k → held k) →
      d'.task? t = some row → Commits P.rely snap held d' request
        [.putTask { (patch.dirty loaded).apply row with updatedAt := now }]) :
    Safe P request (saveTask t patch) (fun _ _ _ => True) l d := by
  refine safe_bind (safe_flushTask hT hloaded (fun d₁ hd₁ => ?_) fun d₁ row now hd₁ hrow => ?_)
  · refine safe_bind (safe_refreshTask hT fun d₂ _ _ => safe_bind ?_)
    exact safe_mono (safe_commitNothing hT hwrites) fun _ _ _ _ => trivial
  · rw [Session.current_eq hwrites] at hrow
    have hid : row.id = t := id_of_task? hrow
    have hview₁ := hview.meddles hd₁
    refine safe_refreshTask_commit hT (hview₁.session rfl) (Session.writes_write hwrites _)
      fun d₂ hd₂ => ?_
    have hheld : d₂.task? t = some row := by
      refine (meddles_task hS hd₂ ?_).trans hrow
      exact Or.inr ⟨_, List.mem_append_right _ (List.mem_singleton_self _), by
        rw [← hid]
        exact List.mem_singleton_self _⟩
    have hd : Meddles P l d d₂ :=
      meddles_trans hd₁ (meddles_of_holds (by exact fun _ hk => hk.write _) hd₂)
    exact h d₂ _ row now hd (by exact fun _ hk => hk.write _) hheld

end Commit

end TaskPlatform
