import TaskPlatform.Serial.Reopening
import TaskPlatform.Serial.Tasks

/-!
# The stamps of tasks and memberships

Three mechanisms write `updated_at`: a flush stamps the row if an assigned attribute
differs from it, the bulk update of `remove_member` carries one time for all rows it
matches, and a status or assignee request that asks for what is there writes nothing.
A request that is served alone stamps the rows it changes, with one time, and no others.
-/

namespace TaskPlatform

open Transaction Service Database Relational

/-- The row apart from its stamp. -/
def Task.unstamped (t : Task) : Task := { t with updatedAt := 0 }

def WorkspaceMember.unstamped (m : WorkspaceMember) : WorkspaceMember := { m with updatedAt := 0 }

/-- A row is stamped if another column has changed, and keeps its stamp if none has. -/
structure Restamped {R : Type} (unstamped : R → R) (stamp : R → Timestamp) (now : Timestamp)
    (row row' : R) : Prop where
  changed : unstamped row' ≠ unstamped row → stamp row' = now
  same : unstamped row' = unstamped row → stamp row' = stamp row

/-- So it is with every task and membership that is there before and after. -/
structure Stamps (now : Timestamp) (d d' : Database) : Prop where
  task : ∀ t row row', d.task? t = some row → d'.task? t = some row' →
    Restamped Task.unstamped Task.updatedAt now row row'
  member : ∀ w u row row', d.member? w u = some row → d'.member? w u = some row' →
    Restamped WorkspaceMember.unstamped WorkspaceMember.updatedAt now row row'

/-- The requests that change rows that exist. -/
def Request.revises : Request → Bool
  | .updateTask _ _ _ _ | .updateTaskStatus _ _ _ _ | .updateTaskAssignee _ _ _ _ => true
  | .removeMember _ _ _ | .updateMemberRole _ _ _ _ => true
  | _ => false

/-! ## One row -/

section Rows

variable {R : Type} {unstamped : R → R} {stamp : R → Timestamp} {now : Timestamp} {row row' : R}

theorem restamped_self (row : R) : Restamped unstamped stamp now row row :=
  ⟨fun h => absurd rfl h, fun _ => rfl⟩

theorem restamped_of_changed (hstamp : stamp row' = now) (h : unstamped row' ≠ unstamped row) :
    Restamped unstamped stamp now row row' :=
  ⟨fun _ => hstamp, fun hsame => absurd hsame h⟩

end Rows

section Writes

variable {d d' : Database} {now : Timestamp}

theorem stamps_self (now : Timestamp) (d : Database) : Stamps now d d where
  task t row row' hrow hrow' := by
    rw [hrow, Option.some.injEq] at hrow'
    rw [← hrow']
    exact restamped_self row
  member w u row row' hrow hrow' := by
    rw [hrow, Option.some.injEq] at hrow'
    rw [← hrow']
    exact restamped_self row

/-- What is left of an assignment after the comparison differs. -/
theorem filter_ne_eq_none {α : Type} [DecidableEq α] {o : Option α} {a : α}
    (h : (o.filter (· ≠ a)).getD a = a) : o.filter (· ≠ a) = none := by
  cases hfilter : o.filter (· ≠ a) with
  | none => rfl
  | some b =>
      rw [hfilter] at h
      have hne := (Option.filter_eq_some_iff.mp hfilter).2
      rw [show b = a from h] at hne
      simp at hne

theorem TaskPatch.unstamped_written {patch : TaskPatch} {row : Task}
    (h : patch.dirty row ≠ {}) : (patch.written row now).unstamped ≠ row.unstamped := by
  intro hsame
  apply h
  have htitle := filter_ne_eq_none (o := patch.title) (congrArg Task.title hsame)
  have hdescription := filter_ne_eq_none (o := patch.description) (congrArg Task.description hsame)
  have hpriority := filter_ne_eq_none (o := patch.priority) (congrArg Task.priority hsame)
  have hassignee := filter_ne_eq_none (o := patch.assigneeId) (congrArg Task.assigneeId hsame)
  have hstatus := filter_ne_eq_none (o := patch.status) (congrArg Task.status hsame)
  rw [TaskPatch.dirty, htitle, hdescription, hpriority, hassignee, hstatus]

/-- One task is put. -/
theorem stamps_putTask {row put : Task} (hrow : d.task? put.id = some row)
    (hstamp : put.updatedAt = now) (hchanged : put.unstamped ≠ row.unstamped) :
    Stamps now d (d.apply (.putTask put)) where
  task t old new hold hnew := by
    rw [task?_putTask] at hnew
    by_cases ht : t = put.id
    · rw [if_pos ht, Option.some.injEq] at hnew
      rw [ht, hrow, Option.some.injEq] at hold
      rw [← hnew, ← hold]
      exact restamped_of_changed hstamp hchanged
    · rw [if_neg ht, hold, Option.some.injEq] at hnew
      rw [← hnew]
      exact restamped_self old
  member w u old new hold hnew := by
    rw [show d.member? w u = some new from hnew, Option.some.injEq] at hold
    rw [hold]
    exact restamped_self old

theorem stamps_putMember {row put : WorkspaceMember}
    (hrow : d.member? put.workspaceId put.userId = some row) (hstamp : put.updatedAt = now)
    (hchanged : put.unstamped ≠ row.unstamped) : Stamps now d (d.apply (.putMember put)) where
  task t old new hold hnew := by
    rw [show d.task? t = some new from hnew, Option.some.injEq] at hold
    rw [hold]
    exact restamped_self old
  member w u old new hold hnew := by
    rw [member?_putMember] at hnew
    by_cases hkey : w = put.workspaceId ∧ u = put.userId
    · rw [if_pos hkey, Option.some.injEq] at hnew
      rw [hkey.1, hkey.2, hrow, Option.some.injEq] at hold
      rw [← hnew, ← hold]
      exact restamped_of_changed hstamp hchanged
    · rw [if_neg hkey, hold, Option.some.injEq] at hnew
      rw [← hnew]
      exact restamped_self old

end Writes

/-! ## The bulk update -/

/-- Unfinished tasks of a member have lost their assignee, and nothing else happened. -/
structure ClearedOf (w u : Id) (now : Timestamp) (d d' : Database) : Prop where
  task : ∀ t, d'.task? t = d.task? t ∨ ∃ row, d.task? t = some row ∧
    holdsUnfinished w u row = true ∧
      d'.task? t = some { row with assigneeId := none, updatedAt := now }
  member : ∀ w u, d'.member? w u = d.member? w u

section Clearing

variable {w u t : Id} {now : Timestamp} {d d' : Database}

theorem ClearedOf.self (w u : Id) (now : Timestamp) (d : Database) : ClearedOf w u now d d :=
  ⟨fun _ => Or.inl rfl, fun _ _ => rfl⟩

/-- The visit of one more task. -/
theorem ClearedOf.visit (h : ClearedOf w u now d d') {row : Task} (hrow : d'.task? t = some row)
    (hholds : holdsUnfinished w u row = true) :
    ClearedOf w u now d
      (d'.apply (.putTask { row with assigneeId := none, updatedAt := now })) where
  task k := by
    obtain rfl := id_of_task? hrow
    rw [task?_putTask]
    by_cases hk : k = row.id
    · rw [if_pos hk, hk]
      rcases h.task row.id with hsame | ⟨old, _, _, hcleared⟩
      · exact Or.inr ⟨row, hsame.symm.trans hrow, hholds, rfl⟩
      · -- a task that was cleared is not matched again
        rw [hcleared, Option.some.injEq] at hrow
        rw [holdsUnfinished_of_none (by rw [← hrow])] at hholds
        cases hholds
    · rw [if_neg hk]
      exact h.task k
  member := h.member

/-- Memberships may be deleted after the update. -/
theorem ClearedOf.stamps (h : ClearedOf w u now d d') {d'' : Database}
    (htask : ∀ t, d''.task? t = d'.task? t)
    (hmember : ∀ w u row, d''.member? w u = some row → d'.member? w u = some row) :
    Stamps now d d'' where
  task t old new hold hnew := by
    rw [htask] at hnew
    rcases h.task t with hsame | ⟨row, hrow, hholds, hcleared⟩
    · rw [hsame, hold, Option.some.injEq] at hnew
      rw [← hnew]
      exact restamped_self old
    · rw [hcleared, Option.some.injEq] at hnew
      rw [hrow, Option.some.injEq] at hold
      rw [← hnew, ← hold]
      refine restamped_of_changed rfl fun hsame => ?_
      have hassignee : none = row.assigneeId := congrArg Task.assigneeId hsame
      rw [(holdsUnfinished_iff.mp hholds).2.1] at hassignee
      cases hassignee
  member w u old new hold hnew := by
    have hnew := hmember w u new hnew
    rw [h.member, hold, Option.some.injEq] at hnew
    rw [← hnew]
    exact restamped_self old

end Clearing

/-! ## The requests -/

section Requests

variable [Collation] {good : Env → Prop} {l : Session} {d : Database} {subject : Option String}
  {w t u : Id}

/-- The rows are stamped with the time of one of the calls. -/
def StampedBy (good : Env → Prop) (d d' : Database) : Prop :=
  ∃ env, good env ∧ Stamps env.now d d'

/-- Exceptions do not matter here. -/
abbrev Leaves (good : Env → Prop) {α : Type} (x : Service α) (d₀ : Database) (l : Session)
    (d : Database) : Prop :=
  Ends good x (fun _ _ d' => StampedBy good d₀ d') (fun _ _ => True) l d

omit [Collation] in
theorem stampedBy_self (hgood : ∃ env, good env) (d : Database) : StampedBy good d d := by
  obtain ⟨env, henv⟩ := hgood
  exact ⟨env, henv, stamps_self env.now d⟩

theorem leaves_saveTask (hgood : ∃ env, good env) (h : l.Mirrors d) {patch : TaskPatch} {row : Task}
    (hrow : d.task? t = some row) (hloaded : l.tasks.find? t = some row) :
    Leaves good (saveTask t patch) d l d := by
  refine ends_saveTask h (fun _ _ => trivial) hrow hloaded (fun _ _ => stampedBy_self hgood d)
    fun hdirty env henv _ => ?_
  refine ⟨env, henv, stamps_putTask ?_ rfl (TaskPatch.unstamped_written hdirty)⟩
  show d.task? row.id = some row
  rw [id_of_task? hrow]
  exact hrow

theorem leaves_updateTask (hgood : ∃ env, good env) {access : WorkspaceTaskAccess}
    {m : WorkspaceMember} (h : TaskGranted d subject w t access m l) (data : TaskUpdate) :
    Leaves good (updateTask access data) d l d := by
  refine ends_bind (ends_membershipRole h.toOpened (ends_bind ?_))
  refine ends_raiseIf (fun _ => trivial) fun _ => ends_rollbackOnSqlError ?_
  have hrow := (taskIn?_eq_some.mp h.task).1
  have hid := h.task_id
  show Leaves good (saveTask access.task.id data.patch) d l d
  rw [hid]
  exact leaves_saveTask hgood h.mirror hrow (h.mirror.task_eq h.loaded hrow)

theorem leaves_updateTaskStatus (hgood : ∃ env, good env) {access : WorkspaceTaskAccess}
    {m : WorkspaceMember} (h : TaskGranted d subject w t access m l) (data : TaskStatusUpdate) :
    Leaves good (updateTaskStatus access data) d l d := by
  have hE := failures_any good d
  refine ends_updateTaskStatus h hE.server (fun _ _ => trivial)
    (fun _ _ => stampedBy_self hgood d) fun _ l' h' hloaded => ?_
  exact leaves_saveTask hgood h' (taskIn?_eq_some.mp h.task).1 hloaded

theorem leaves_updateTaskAssignee (hgood : ∃ env, good env) {access : WorkspaceTaskAccess}
    {m : WorkspaceMember} (h : TaskGranted d subject w t access m l) (data : TaskAssigneeUpdate) :
    Leaves good (updateTaskAssignee access data) d l d := by
  have hE := failures_any good d
  refine ends_updateTaskAssignee h hE.server (fun _ => trivial) (fun _ _ _ _ => trivial)
    (fun _ _ _ _ => stampedBy_self hgood d) fun _ _ _ l' h' hloaded => ?_
  exact leaves_saveTask hgood h' (taskIn?_eq_some.mp h.task).1 hloaded

/-! ### Roles -/

/-- A flush writes the membership if the role differs, and stamps it. -/
theorem flushMemberRole_ok (h : l.Mirrors d) {row : WorkspaceMember} {role : MemberRole}
    (hrow : d.member? w u = some row) (hloaded : l.members.find? (memberKey w u) = some row)
    {env : Env} {v : Unit} {l' : Session} {d' : Database}
    (hx : Session.exec env (.flushMemberRole w u role) l d = (.ok v, l', d')) :
    d' = d ∧ (l' = l ∨ row.role ≠ role ∧
      l'.current d = d.apply (.putMember { row with role := role, updatedAt := env.now })) := by
  simp only [Session.exec, Session.flushMemberRole, hloaded, h.current, hrow] at hx
  by_cases hrole : row.role = role
  · rw [if_pos hrole] at hx
    cases hx
    exact ⟨rfl, Or.inl rfl⟩
  · rw [if_neg hrole] at hx
    cases Session.statement_ok hx
    refine ⟨rfl, Or.inr ⟨hrole, ?_⟩⟩
    exact (Session.current_write l _ d).trans (by rw [h.current])

/-- Read a changed membership again and commit. -/
theorem leaves_refreshMember {α : Type} {d₀ : Database} {f : WorkspaceMember → α}
    (hcommit : StampedBy good d₀ (l.current d)) :
    Leaves good
      (do
        let refreshed ← call (.refreshMember w u)
        call .commit
        return f refreshed) d₀ l d := by
  refine ends_bind (ends_call (fun env _ v l' d' hx => ends_bind ?_) fun _ _ _ _ _ _ => trivial)
  obtain ⟨hrow, rfl, rfl⟩ := Session.refresh_ok (Session.statement_ok hx)
  rw [hrow]
  exact ends_commit (failures_any good d').server (ends_pure hcommit)

theorem leaves_updateMemberRole (hgood : ∃ env, good env) {access : WorkspaceAccess}
    {m : WorkspaceMember} (h : Granted d subject w access m l) (role : MemberRole) :
    Leaves good (updateMemberRole access u role) d l d := by
  have hE := failures_any good d
  refine ends_rollbackOnSqlError (ends_bind (ends_bind (ends_select h.mirror hE.server ?_)))
  obtain ⟨_, hmirror, hkeeps⟩ := h.mirror.load (.memberWithUsername access.workspace.id u)
  cases hfound : d.memberWithUsername? access.workspace.id u with
  | none =>
      simp only [Query.eval, hfound]
      exact ends_raise trivial
  | some pair =>
      obtain ⟨target, username⟩ := pair
      obtain ⟨htarget, _⟩ := memberWithUsername?_eq_some.mp hfound
      simp only [Query.eval, hfound] at hmirror hkeeps ⊢
      have hgranted := h.step hmirror.openView ⟨hkeeps.member, hkeeps.task⟩
      refine ends_pure (ends_bind (ends_raiseIf (fun _ => trivial) fun _ => ends_bind ?_))
      refine ends_membershipRole hgranted.toOpened (ends_bind ?_)
      refine ends_raiseIf (fun _ => trivial) fun _ => ends_bind ?_
      have hown : (l.keepMember (l.resolveMember target)).members.find?
          (memberKey access.workspace.id u) = some target := by
        obtain ⟨hw, hu⟩ := key_of_member? htarget
        show (l.members.put (l.resolveMember target)).find? (memberKey access.workspace.id u) = _
        rw [h.mirror.resolveMember (Table.mem_of_find? htarget), Table.find?_put, key_member, hw,
          hu, if_pos rfl]
      refine ends_call (fun env henv _ l' d' hx => ?_) fun _ _ _ _ _ _ => trivial
      obtain ⟨rfl, rfl | ⟨hrole, hcurrent⟩⟩ :=
        flushMemberRole_ok hmirror.openView htarget hown hx
      · refine leaves_refreshMember ?_
        rw [hmirror.openView.current]
        exact stampedBy_self hgood d'
      · refine leaves_refreshMember ⟨env, henv, ?_⟩
        have hrow : d'.member? target.workspaceId target.userId = some target := by
          obtain ⟨hw, hu⟩ := key_of_member? htarget
          rw [hw, hu]
          exact htarget
        rw [hcurrent]
        exact stamps_putMember hrow rfl fun hsame =>
          hrole (congrArg WorkspaceMember.role hsame).symm

/-! ### Removals -/

/-- The visit of one task by the bulk update. -/
theorem ends_clearAssignee {d₀ : Database} {now : Timestamp}
    (h : ClearedOf w u now d₀ (l.current d)) :
    Ends good (call (.clearAssignee w u t now))
      (fun _ l' d' => d' = d ∧ ClearedOf w u now d₀ (l'.current d)) (fun _ _ => True) l d := by
  refine ends_call (fun env _ v l' d' hx => ?_) fun _ _ _ _ _ _ => trivial
  have hx := Session.statement_ok hx
  unfold Session.clearAssignee at hx
  cases hrow : (l.current d).task? t with
  | none =>
      rw [hrow] at hx
      cases hx
      exact ⟨rfl, h⟩
  | some row =>
      simp only [hrow] at hx
      by_cases hholds : holdsUnfinished w u row = true
      · rw [if_pos hholds] at hx
        cases hx
        refine ⟨rfl, ?_⟩
        rw [Session.current_write]
        exact h.visit hrow hholds
      · rw [if_neg hholds] at hx
        cases hx
        refine ⟨rfl, ?_⟩
        split
        · exact h
        · exact h

theorem current_of_deleteMember {env : Env} {v : Unit} {l' : Session} {d' : Database}
    (hx : Session.exec env (.deleteMember w u) l d = (.ok v, l', d')) :
    d' = d ∧ (∀ t, (l'.current d).task? t = (l.current d).task? t) ∧
      ∀ k i row, (l'.current d).member? k i = some row → (l.current d).member? k i = some row := by
  have hx := Session.statement_ok hx
  unfold Session.deleteMember at hx
  split at hx
  · cases hx
    exact ⟨rfl, fun _ => rfl, fun _ _ _ h => h⟩
  · cases hx
    have hcurrent : ((l.write (.deleteMember w u)).dropMember w u).current d =
        (l.current d).apply (.deleteMember w u) := Session.current_write l _ d
    rw [hcurrent]
    refine ⟨rfl, fun _ => rfl, fun k i row hrow => ?_⟩
    rw [member?_deleteMember] at hrow
    split at hrow
    · cases hrow
    · exact hrow

theorem leaves_removeMember {access : WorkspaceAccess} {m : WorkspaceMember}
    (h : Granted d subject w access m l) : Leaves good (removeMember access u) d l d := by
  have hE := failures_any good d
  refine ends_rollbackOnError (ends_bind (ends_lockMember h.mirror hE.server fun l₁ h₁ hk₁ => ?_))
  refine ends_bind (ends_orRaise (fun _ => trivial) fun target _ => ends_bind ?_)
  refine ends_membershipRole (h.step h₁ hk₁).toOpened ?_
  cases removalRefused m.role target.role with
  | some e => exact ends_raise trivial
  | none =>
      refine ends_bind (ends_bind (ends_call (fun env henv now l₂ d₂ hx => ?_)
        fun _ _ _ _ _ _ => trivial))
      cases hx
      refine ends_bind (ends_call (fun _ _ ids l₃ d₃ hx => ?_) fun _ _ _ _ _ _ => trivial)
      cases Session.statement_ok hx
      have hstart : ClearedOf access.workspace.id u env.now d (l₁.current d) := by
        rw [h₁.current]
        exact .self _ _ _ d
      -- the loop keeps what is cleared so far, in a database that nobody else changes
      let cleared : Session → Database → Prop := fun l' d' =>
        d' = d ∧ ClearedOf access.workspace.id u env.now d (l'.current d')
      have hvisit : ∀ t l' d', cleared l' d' →
          Ends good (call (.clearAssignee access.workspace.id u t env.now)) (fun _ => cleared)
            (fun _ _ => True) l' d' := by
        rintro t l' d' ⟨rfl, hcleared⟩
        refine ends_mono (ends_clearAssignee hcleared) ?_
        rintro _ l'' d'' ⟨rfl, hcleared'⟩
        exact ⟨rfl, hcleared'⟩
      refine ends_mono (smoothE_forM cleared hvisit _ ⟨rfl, hstart⟩) ?_
      rintro _ l₄ d₄ ⟨rfl, hcleared⟩
      refine ends_bind (ends_call (fun _ _ _ l₅ d₅ hx => ?_) fun _ _ _ _ _ _ => trivial)
      obtain ⟨rfl, htask, hmember⟩ := current_of_deleteMember hx
      exact ends_commit hE.server ⟨env, henv, hcleared.stamps htask hmember⟩

/-! ### Routes -/

theorem leaves_route (hgood : ∃ env, good env) {request : Request}
    (hrequest : request.revises = true) : Leaves good request.route d {} d := by
  have hE := failures_any good d
  have hstart := Session.mirrors_nil d
  cases request with
  | updateTask subject w t body =>
      exact ends_taskRoute hE (fun _ _ => trivial) (fun _ => trivial) fun _ _ _ data h _ =>
        leaves_updateTask hgood h data
  | updateTaskStatus subject w t body =>
      exact ends_taskRoute hE (fun _ _ => trivial) (fun _ => trivial) fun _ _ _ data h _ =>
        leaves_updateTaskStatus hgood h data
  | updateTaskAssignee subject w t body =>
      exact ends_taskRoute hE (fun _ _ => trivial) (fun _ => trivial) fun _ _ _ data h _ =>
        leaves_updateTaskAssignee hgood h data
  | updateMemberRole subject w u body =>
      refine ends_bind (ends_limitedRoleAccess hstart hE (fun _ => trivial)
        fun access m l h => ends_bind ?_)
      refine ends_validBody (fun _ => trivial) fun data _ => ends_bind ?_
      exact ends_mono (leaves_updateMemberRole hgood h data.role.1) fun _ _ _ hstamped =>
        ends_pure hstamped
  | removeMember subject w u =>
      refine ends_bind (ends_limitedRoleAccess hstart hE (fun _ => trivial)
        fun access m l h => ends_bind ?_)
      exact ends_mono (leaves_removeMember h) fun _ _ _ hstamped => ends_pure hstamped
  | _ => cases hrequest

/-- A successful edit, status change, assignee change, removal or role change that is
served alone: every task and membership that is there before and after is stamped with
the time of the request if another of its columns has changed, and keeps its stamp
otherwise. -/
theorem updatedAt_tracks_changes {env : Nat → Env} {request : Request} {d : Database} {body : Body}
    (hrequest : request.revises = true) (hok : (serve env request d).1 = .ok body) :
    ∃ n < (Session.machine.run env request.program 0 {} d).calls,
      Stamps (env n).now d (serve env request d).2 := by
  have hgood : ∃ e, request.Finds env d e :=
    ⟨env 0, 0, by rw [calls_program]; exact Nat.succ_pos _, rfl⟩
  obtain ⟨_, e, ⟨n, hn, rfl⟩, hstamps⟩ :=
    serve_of_ends_within (leaves_route hgood hrequest) hok
  exact ⟨n, hn, hstamps⟩

end Requests

/-! ### A member with an unfinished task is removed -/

/-- The owner has assigned a task to bob. -/
def assignedHistory : List Served := finishedHistory.take 6

def laterEnv : Env := { servingEnv with now := 5 }

theorem updatedAt_tracks_changes_removal :
    let _ := sampleCollation
    let d := serveAll Database.empty assignedHistory
    let request : Request := .removeMember (some "owner") 1 2
    ∃ n < (Session.machine.run (fun _ => laterEnv) request.program 0 {} d).calls,
      Stamps ((fun _ => laterEnv) n).now d (serve (fun _ => laterEnv) request d).2 := by
  intro collation d request
  have hok : (serve (fun _ => laterEnv) request d).1 = .ok .noContent := by decide +kernel
  exact updatedAt_tracks_changes rfl hok

end TaskPlatform
