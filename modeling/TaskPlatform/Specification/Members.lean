import TaskPlatform.Serial.Timestamps
import TaskPlatform.Specification.Rules

/-!
# Changes of memberships do what is specified

The bulk update of a removal visits the tasks of the workspace one after the other; the
tables after any number of visits are those in which the visited unfinished tasks have
lost their assignee (`clearedAmong`), so the order of the visits does not matter.
-/

namespace TaskPlatform

open Transaction Service Database Relational Platform

/-! ## The bulk update -/

/-- The tables after the tasks in `ids` were visited. -/
def clearedAmong (w u : Id) (now : Timestamp) (d : Database) (ids : List Id) : Database :=
  { d with
    tasks := d.tasks.updateWhere (fun t => holdsUnfinished w u t && ids.contains t.id)
      (unassigned now) (key_unassigned now) }

section Cleared

variable {w u : Id} {now : Timestamp} {d : Database} {ids : List Id}

theorem task?_clearedAmong (k : Id) :
    (clearedAmong w u now d ids).task? k = (d.task? k).map fun t =>
      if holdsUnfinished w u t && ids.contains t.id then unassigned now t else t :=
  Table.find?_updateWhere d.tasks _ _ (key_unassigned now) k

/-- Tables that differ in their tasks at most. -/
theorem eq_of_tasks {d₁ d₂ : Database} (htasks : ∀ k, d₁.task? k = d₂.task? k)
    (hrest : { d₁ with tasks := d₂.tasks } = d₂) : d₁ = d₂ := by
  have h : d₁.tasks = d₂.tasks := Table.ext_find? htasks
  rw [← h] at hrest
  exact hrest

theorem clearedAmong_nil : clearedAmong w u now d [] = d := by
  refine eq_of_tasks (fun k => ?_) rfl
  rw [task?_clearedAmong]
  cases d.task? k with
  | none => rfl
  | some row => simp

/-- The visit of a task that is not there, or not to be cleared, changes nothing. -/
theorem clearedAmong_pass {t : Id}
    (h : ∀ row, (clearedAmong w u now d ids).task? t = some row → holdsUnfinished w u row = false) :
    clearedAmong w u now d (t :: ids) = clearedAmong w u now d ids := by
  refine eq_of_tasks (fun k => ?_) rfl
  rw [task?_clearedAmong] at h
  rw [task?_clearedAmong, task?_clearedAmong]
  cases hrow : d.task? k with
  | none => rfl
  | some row =>
      simp only [Option.map_some, Option.some.injEq, List.contains_cons, id_of_task? hrow]
      by_cases hk : k = t
      · subst hk
        rw [hrow, Option.map_some, id_of_task? hrow] at h
        have hrow' := h _ rfl
        by_cases hvisited : ids.contains k = true
        · rw [hvisited, Bool.or_true]
        · rw [Bool.eq_false_of_not_eq_true hvisited, Bool.and_false] at hrow'
          rw [show holdsUnfinished w u row = false from hrow', Bool.false_and, Bool.false_and]
      · rw [show (k == t) = false from beq_false_of_ne hk, Bool.false_or]

/-- The visit of an unfinished task of the member clears it. -/
theorem clearedAmong_visit {t : Id} {row : Task}
    (hrow : (clearedAmong w u now d ids).task? t = some row)
    (hholds : holdsUnfinished w u row = true) :
    (clearedAmong w u now d ids).apply (.putTask (unassigned now row)) =
      clearedAmong w u now d (t :: ids) := by
  refine eq_of_tasks (fun k => ?_) rfl
  have hid : row.id = t := id_of_task? hrow
  rw [task?_putTask]
  show (if k = row.id then _ else _) = _
  rw [task?_clearedAmong] at hrow
  rw [hid, task?_clearedAmong, task?_clearedAmong]
  by_cases hk : k = t
  · subst hk
    rw [if_pos rfl]
    obtain ⟨old, hold, hrow⟩ := Option.map_eq_some_iff.mp hrow
    rw [hold, Option.map_some, id_of_task? hold, List.contains_cons, beq_self_eq_true,
      Bool.true_or, Bool.and_true]
    by_cases hcleared : (holdsUnfinished w u old && ids.contains old.id) = true
    · -- a task that was cleared is not matched again
      rw [if_pos hcleared] at hrow
      rw [← hrow, holdsUnfinished_of_none rfl] at hholds
      cases hholds
    · rw [if_neg hcleared] at hrow
      rw [hrow, hholds]
      rfl
  · rw [if_neg hk]
    cases hold : d.task? k with
    | none => rfl
    | some old =>
        have hne : (k == t) = false := beq_false_of_ne hk
        simp only [Option.map_some, List.contains_cons, id_of_task? hold, hne, Bool.false_or]

/-- All tasks of the workspace were visited. -/
theorem leave_eq_clearedAmong
    (hids : ∀ t ∈ d.tasks.rows, t.workspaceId = w → t.id ∈ ids) :
    leave d w u now =
      { clearedAmong w u now d ids with members := d.members.erase (memberKey w u) } := by
  refine eq_of_tasks (fun k => ?_) rfl
  refine (Table.find?_updateWhere d.tasks _ _ (key_unassigned now) k).trans ?_
  refine Eq.trans ?_ (task?_clearedAmong k).symm
  show (d.task? k).map _ = _
  cases hrow : d.task? k with
  | none => rfl
  | some row =>
      rw [Option.map_some, Option.map_some]
      by_cases hholds : holdsUnfinished w u row = true
      · have hvisited : ids.contains row.id = true := List.contains_iff_mem.mpr
          (hids row (Table.mem_of_find? hrow) (holdsUnfinished_iff.mp hholds).1)
        rw [hholds, hvisited]
        rfl
      · rw [Bool.eq_false_of_not_eq_true hholds]
        rfl

end Cleared

/-! ## The services -/

section Services

variable [Collation] {good : Env → Prop} {l : Session} {d : Database} {subject : Option String}
  {w u : Id} {access : WorkspaceAccess} {m : WorkspaceMember}
  (hgood : ∀ env, good env → env.Faultless) (hsome : ∃ env, good env)

include hgood hsome

theorem fulfils_addMember (h : Granted d subject w access m l)
    (data : WorkspaceMemberCreate) :
    Fulfils good (fun i => enroll i d (access.entry m) w data)
      (do return .member (← TaskPlatform.addMember access data.username data.role.1)) l d := by
  have hE := serverFails_of_good hgood
    (RefusedWith good (fun i => enroll i d (access.entry m) w data) d) d
  have hid := h.id
  refine ends_bind (ends_bind (ends_membershipRole h.toOpened (ends_bind ?_)))
  refine ends_raiseIf (fun hno => ?_) fun hyes => ?_
  · have hno : ¬ canAddMember (access.entry m).role data.role.1 = true := fun hyes =>
      Bool.false_ne_true (hno.symm.trans hyes)
    refine refusal_of hsome fun i => ?_
    rw [enroll, demand_neg hno]
    rfl
  have hyes : canAddMember (access.entry m).role data.role.1 = true := Bool.of_not_eq_false hyes
  -- what the body raises is no database error, so the handler raises it again
  refine ends_tryCatch (fun e d' => (∃ app, e = .app app) ∧
    RefusedWith good (fun i => enroll i d (access.entry m) w data) d e d') (ends_bind ?_) ?_
  · refine ends_select h.mirror (serverFails_of_good hgood _ d) ?_
    show Ends good _ _ _ (l.openView d) d
    refine ends_bind (ends_orRaise (fun hnone => ⟨⟨_, rfl⟩, ?_⟩) fun target htarget => ends_bind ?_)
    · refine refusal_of hsome fun i => ?_
      rw [enroll, demand_pos hyes, ok_bind, show d.userByUsername? data.username = none from hnone]
      rfl
    have htarget : d.userByUsername? data.username = some target := htarget
    refine ends_getMember hgood h.mirror.openView fun l₁ h₁ => ?_
    rw [hid]
    refine ends_bind (ends_raiseIf (fun htaken => ⟨⟨_, rfl⟩, ?_⟩) fun hfree => ?_)
    · have htaken : ¬ d.member? w target.id = none := Option.isSome_iff_ne_none.mp htaken
      refine refusal_of hsome fun i => ?_
      rw [enroll, demand_pos hyes, ok_bind, htarget, expect_some, ok_bind, demand_neg htaken]
      rfl
    have hfree : d.member? w target.id = none := Option.not_isSome_iff_eq_none.mp hfree
    refine ends_bind (ends_answered fun env henv => ?_)
    let row : WorkspaceMember := ⟨w, target.id, data.role.1, env.now, env.now⟩
    have hcheck : (l₁.current d).checkMember row = .ok () := by
      rw [h₁.current]
      refine checkMember_of_free hfree ?_ ?_
      · show (d.workspace? w).isSome
        rw [h.workspace]
        rfl
      · have huser : d.user? target.id = some target :=
          Table.find?_key d.users (List.mem_of_find?_eq_some htarget)
        show (d.user? target.id).isSome
        rw [huser]
        rfl
    refine ⟨row, (l₁.keepMember row).write (.putMember row), d,
      (statement_faultless (hgood env henv)).trans (insert_passed hcheck), ?_⟩
    have hview : (((l₁.keepMember row).write (.putMember row)).view d).member? w target.id =
        some row := by
      rw [Session.view_write (l := l₁.keepMember row) h₁.writes, member?_putMember,
        if_pos ⟨rfl, rfl⟩]
    refine ends_refreshedMember hgood hview fun l' => ends_pure ?_
    refine ⟨env.circumstances, foundIn_env henv, ?_⟩
    have hcurrent : ((l₁.keepMember row).write (.putMember row)).current d =
        d.apply (.putMember row) := Session.current_of_write h₁.writes _ d
    rw [hcurrent]
    show enroll env.circumstances d (access.entry m) w data = _
    rw [enroll, demand_pos hyes, ok_bind, htarget, expect_some, ok_bind, demand_pos hfree]
    rfl
  · rintro e l' d' ⟨⟨app, rfl⟩, he⟩
    exact he

omit hsome in
/-- A role that is assigned, flushed, read again and committed. -/
theorem ends_savedRole {α : Type} {E : Exc → Database → Prop} (h : l.Mirrors d)
    {row : WorkspaceMember} (hrow : d.member? w u = some row)
    (hloaded : l.members.find? (memberKey w u) = some row) {role : MemberRole}
    {f : WorkspaceMember → α} {Q : α → Session → Database → Prop}
    (hkeep : row.role = role → ∀ l', Q (f row) l' d)
    (hchange : row.role ≠ role → ∀ env, good env → ∀ l',
      Q (f { row with role := role, updatedAt := env.now }) l'
        (d.apply (.putMember { row with role := role, updatedAt := env.now }))) :
    Ends good
      (do
        call (.flushMemberRole w u role)
        let refreshed ← call (.refreshMember w u)
        call .commit
        return f refreshed) Q E l d := by
  refine ends_bind (ends_answered fun env henv => ?_)
  simp only [Session.exec, Session.flushMemberRole, hloaded, statement_faultless (hgood env henv),
    h.current, hrow]
  by_cases hsame : row.role = role
  · rw [if_pos hsame]
    refine ⟨(), l, d, rfl, ends_refreshedMember hgood (h.view.symm ▸ hrow) fun l' => ?_⟩
    rw [h.current]
    exact hkeep hsame l'
  · rw [if_neg hsame]
    let changed : WorkspaceMember := { row with role := role, updatedAt := env.now }
    refine ⟨(), (l.write (.putMember changed)).keepMember changed, d, rfl, ?_⟩
    obtain ⟨hw, hu⟩ := key_of_member? hrow
    have hview : (((l.write (.putMember changed)).keepMember changed).view d).member? w u =
        some changed := by
      show ((l.write (.putMember changed)).view d).member? w u = _
      rw [Session.view_write h.writes, member?_putMember, if_pos ⟨hw.symm, hu.symm⟩]
    refine ends_refreshedMember hgood hview fun l' => ?_
    have hcurrent : ((l.write (.putMember changed)).keepMember changed).current d =
        d.apply (.putMember changed) := Session.current_of_write h.writes _ d
    rw [hcurrent]
    exact hchange hsame env henv l'

theorem fulfils_updateMemberRole (h : Granted d subject w access m l) (role : MemberRole) :
    Fulfils good (fun i => promote i d (access.entry m) w u role)
      (do return .member (← TaskPlatform.updateMemberRole access u role)) l d := by
  have hE := serverFails_of_good hgood
    (RefusedWith good (fun i => promote i d (access.entry m) w u role) d) d
  have hid := h.id
  refine ends_bind (ends_rollbackOnSqlError (ends_bind (ends_bind (ends_select h.mirror hE ?_))))
  rw [hid]
  obtain ⟨_, hmirror, hkeeps⟩ := h.mirror.load (.memberWithUsername w u)
  cases hfound : d.memberWithUsername? w u with
  | none =>
      simp only [Query.eval, hfound]
      refine ends_raise (refusal_of hsome fun i => ?_)
      rw [promote, hfound]
      rfl
  | some pair =>
      obtain ⟨target, username⟩ := pair
      obtain ⟨htarget, _⟩ := memberWithUsername?_eq_some.mp hfound
      obtain ⟨htw, htu⟩ := key_of_member? htarget
      simp only [Query.eval, hfound] at hmirror hkeeps ⊢
      have hgranted := h.step hmirror.openView ⟨hkeeps.member, hkeeps.task⟩
      refine ends_pure (ends_bind (ends_raiseIf (fun howner => ?_) fun howner => ends_bind ?_))
      · refine refusal_of hsome fun i => ?_
        have howner : ¬ target.role ≠ .owner := not_not.mpr howner
        rw [promote, hfound, expect_some, ok_bind]
        show (demand (target.role ≠ .owner) _ >>= _) = _
        rw [demand_neg howner]
        rfl
      refine ends_membershipRole hgranted.toOpened (ends_bind ?_)
      refine ends_raiseIf (fun hno => ?_) fun hyes => ?_
      · refine refusal_of hsome fun i => ?_
        have hno : ¬ canUpdateMemberRole (access.entry m).role target.role role = true :=
          fun hyes => Bool.false_ne_true (hno.symm.trans hyes)
        rw [promote, hfound, expect_some, ok_bind]
        show (demand (target.role ≠ .owner) _ >>= _) = _
        rw [demand_pos howner, ok_bind, demand_neg hno]
        rfl
      have hyes : canUpdateMemberRole (access.entry m).role target.role role = true :=
        Bool.of_not_eq_false hyes
      have hanswer : ∀ i, promote i d (access.entry m) w u role =
          if target.role = role then .ok (.member (memberData target username), d)
          else .ok (.member (memberData { target with role := role, updatedAt := i.now } username),
            d.apply (.putMember { target with role := role, updatedAt := i.now })) := by
        intro i
        rw [promote, hfound, expect_some, ok_bind]
        show (demand (target.role ≠ .owner) _ >>= _) = _
        rw [demand_pos howner, ok_bind, demand_pos hyes, ok_bind]
        rfl
      have hown : (l.keepMember (l.resolveMember target)).members.find? (memberKey w u) =
          some target := by
        show (l.members.put (l.resolveMember target)).find? (memberKey w u) = _
        rw [h.mirror.resolveMember (Table.mem_of_find? htarget), Table.find?_put, key_member, htw,
          htu, if_pos rfl]
      refine ends_savedRole hgood hmirror.openView htarget hown (fun hsame l' => ends_pure ?_)
        fun hsame env henv l' => ends_pure ?_
      · refine returned_of hsome fun i => ?_
        rw [hanswer, if_pos hsame]
      · refine ⟨env.circumstances, foundIn_env henv, ?_⟩
        show promote env.circumstances d (access.entry m) w u role = _
        rw [hanswer, if_neg hsame]
        rfl

omit hsome in
/-- The bulk update clears the unfinished tasks of the member, in whatever order it visits
them. -/
theorem ends_clearUnfinishedTasks (h : l.Mirrors d) {E : Exc → Database → Prop}
    {Q : Unit → Session → Database → Prop}
    (hQ : ∀ env, good env → ∀ l' ids, (∀ t ∈ d.tasks.rows, t.workspaceId = w → t.id ∈ ids) →
      l'.current d = clearedAmong w u env.now d ids → Q () l' d) :
    Ends good (clearUnfinishedTasks w u) Q E l d := by
  refine ends_bind (ends_answered fun env henv => ⟨env.now, l, d, rfl, ends_bind ?_⟩)
  refine ends_answered fun env' henv' => ⟨_, _, _, statement_faultless (hgood env' henv'), ?_⟩
  have hall : ∀ t ∈ d.tasks.rows, t.workspaceId = w →
      t.id ∈ env'.order
        (((l.current d).tasks.rows.filter fun t => t.workspaceId = w).map Task.id) := by
    intro t ht hw
    rw [(env'.order_perm _).mem_iff, h.current]
    exact List.mem_map_of_mem (List.mem_filter.mpr ⟨ht, decide_eq_true hw⟩)
  generalize env'.order _ = ids at hall ⊢
  -- the loop has visited `done` and is to visit the rest
  have hloop : ∀ (rest done : List Id) (l' : Session),
      l'.current d = clearedAmong w u env.now d done →
      (∀ t ∈ d.tasks.rows, t.workspaceId = w → t.id ∈ done ∨ t.id ∈ rest) →
      Ends good (forM rest fun t => call (.clearAssignee w u t env.now)) Q E l' d := by
    intro rest
    induction rest with
    | nil =>
        intro done l' hcurrent hcovered
        refine hQ env henv l' done (fun t ht hw => ?_) hcurrent
        exact (hcovered t ht hw).resolve_right List.not_mem_nil
    | cons t rest ih =>
        intro done l' hcurrent hcovered
        have hcovered' : ∀ t' ∈ d.tasks.rows, t'.workspaceId = w →
            t'.id ∈ t :: done ∨ t'.id ∈ rest := by
          intro t' ht hw
          rcases hcovered t' ht hw with hin | hin
          · exact Or.inl (List.mem_cons_of_mem t hin)
          · rcases List.mem_cons.mp hin with hin | hin
            · exact Or.inl (hin ▸ List.mem_cons_self)
            · exact Or.inr hin
        rw [List.forM_cons]
        refine ends_bind (ends_answered fun env₂ henv₂ => ?_)
        simp only [Session.exec, statement_faultless (hgood env₂ henv₂), Session.clearAssignee]
        cases hrow : (l'.current d).task? t with
        | none =>
            refine ⟨(), l', d, rfl, ih (t :: done) l' ?_ hcovered'⟩
            rw [clearedAmong_pass, hcurrent]
            intro row hrow'
            rw [← hcurrent, hrow] at hrow'
            cases hrow'
        | some row =>
            by_cases hholds : holdsUnfinished w u row = true
            · simp only [hholds, if_true]
              refine ⟨(), _, d, rfl, ih (t :: done) _ ?_ hcovered'⟩
              rw [Session.current_write, hcurrent]
              exact clearedAmong_visit (hcurrent ▸ hrow) hholds
            · simp only [hholds]
              refine ⟨(), _, d, rfl, ih (t :: done) _ ?_ hcovered'⟩
              rw [clearedAmong_pass]
              · split
                · exact hcurrent
                · exact hcurrent
              · intro row' hrow'
                rw [← hcurrent, hrow] at hrow'
                cases hrow'
                exact Bool.eq_false_of_not_eq_true hholds
  refine hloop ids [] l ?_ fun t ht hw => Or.inr (hall t ht hw)
  rw [h.current, clearedAmong_nil]

theorem fulfils_removeMember (h : Granted d subject w access m l) :
    Fulfils good (fun i => remove i d (access.entry m) w u)
      (do
        TaskPlatform.removeMember access u
        return .noContent) l d := by
  have hE := serverFails_of_good hgood
    (RefusedWith good (fun i => remove i d (access.entry m) w u) d) d
  have hid := h.id
  refine ends_bind (ends_rollbackOnError (ends_bind ?_))
  rw [hid]
  refine ends_lockMember h.mirror hE fun l₁ h₁ hk₁ => ends_bind ?_
  refine ends_orRaise (fun hnone => ?_) fun target htarget => ends_bind ?_
  · refine refusal_of hsome fun i => ?_
    rw [remove, hnone]
    rfl
  refine ends_membershipRole (h.step h₁ hk₁).toOpened ?_
  cases hrefused : removalRefused m.role target.role with
  | some e =>
      have hrefused : removalRefused (access.entry m).role target.role = some e := hrefused
      refine ends_raise (refusal_of hsome fun i => ?_)
      rw [remove, htarget, expect_some, ok_bind, hrefused]
      rfl
  | none =>
      refine ends_bind (ends_clearUnfinishedTasks hgood h₁ fun env henv l₂ ids hids hcurrent => ?_)
      have hmember : (l₂.current d).member? w u = some target := by
        rw [hcurrent]
        exact htarget
      refine ends_bind (ends_answered fun env₂ henv₂ => ?_)
      simp only [Session.exec, statement_faultless (hgood env₂ henv₂), Session.deleteMember,
        hmember]
      refine ⟨(), _, d, rfl, ends_commit hE (ends_pure ?_)⟩
      refine ⟨env.circumstances, foundIn_env henv, ?_⟩
      have hfinal : ((l₂.write (.deleteMember w u)).dropMember w u).current d =
          leave d w u env.now := by
        have hmembers : (l₂.current d).members = d.members := by
          rw [hcurrent]
          rfl
        rw [leave_eq_clearedAmong hids, ← hcurrent, ← hmembers]
        exact Session.current_write l₂ _ d
      have hrefused : removalRefused (access.entry m).role target.role = none := hrefused
      rw [hfinal]
      show remove env.circumstances d (access.entry m) w u = _
      rw [remove, htarget, expect_some, ok_bind, hrefused]
      rfl

end Services
end TaskPlatform
