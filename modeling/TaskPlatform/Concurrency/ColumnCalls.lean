import TaskPlatform.Concurrency.Columns

/-!
# Calls within a group of columns

Sessions that differ only outside a group of columns answer the calls of its requests
alike.  Where they do not, the request has found an error in the full run: an edit may be
refused because its author has just been removed.
-/

namespace TaskPlatform

open Transaction Relational Database

/-- Two sessions that did the same, up to the columns of the other group. -/
structure Session.Beside (g : Columns) (l l' : Session) : Prop where
  locked : l.locked = l'.locked
  readView : Option.Rel (SameColumns g) l.readView l'.readView
  writes : l.writes.map (Write.only g) = l'.writes.map (Write.only g)
  members : l.members = l'.members
  tasks : l.tasks.mapRows (Task.only g) (Task.key_only g) =
    l'.tasks.mapRows (Task.only g) (Task.key_only g)

namespace Session.Beside

variable {g : Columns} {l l' : Session} {d d' : Database}

theorem init (g : Columns) : Session.Beside g {} {} := ⟨rfl, .none, rfl, rfl, rfl⟩

theorem snapshot (h : l.Beside g l') (hd : SameColumns g d d') :
    SameColumns g (l.readView.getD d) (l'.readView.getD d') := by
  have hview := h.readView
  generalize l.readView = o at hview
  generalize l'.readView = o' at hview
  cases hview with
  | none => exact hd
  | some hsnap => exact hsnap

theorem view (h : l.Beside g l') (hd : SameColumns g d d') :
    SameColumns g (l.view d) (l'.view d') :=
  (h.snapshot hd).applyAll h.writes

theorem current (h : l.Beside g l') (hd : SameColumns g d d') :
    SameColumns g (l.current d) (l'.current d') :=
  hd.applyAll h.writes

theorem openView (h : l.Beside g l') (hd : SameColumns g d d') :
    (l.openView d).Beside g (l'.openView d') :=
  { h with readView := .some (h.snapshot hd) }

theorem lock (h : l.Beside g l') (k : RowKey) : (l.lock k).Beside g (l'.lock k) :=
  { h with locked := congrArg (k :: ·) h.locked }

theorem keepMember (h : l.Beside g l') (m : WorkspaceMember) :
    (l.keepMember m).Beside g (l'.keepMember m) :=
  { h with members := congrArg (Table.put · m) h.members }

theorem dropMember (h : l.Beside g l') (w u : Id) :
    (l.dropMember w u).Beside g (l'.dropMember w u) :=
  { h with members := congrArg (Table.erase · (memberKey w u)) h.members }

theorem keepTask (h : l.Beside g l') {t t' : Task} (ht : SameTask g t t') :
    (l.keepTask t).Beside g (l'.keepTask t') := by
  refine { h with tasks := ?_ }
  show (l.tasks.put t).mapRows (Task.only g) _ = (l'.tasks.put t').mapRows (Task.only g) _
  rw [Table.mapRows_put, Table.mapRows_put, h.tasks, show t.only g = t'.only g from ht]

theorem write (h : l.Beside g l') {w w' : Write} (hw : w.only g = w'.only g) :
    (l.write w).Beside g (l'.write w') := by
  refine { h with writes := ?_ }
  show (l.writes ++ [w]).map (Write.only g) = (l'.writes ++ [w']).map (Write.only g)
  rw [List.map_append, List.map_append, h.writes, List.map_singleton, List.map_singleton, hw]

theorem writeTask (h : l.Beside g l') {t t' : Task} (ht : SameTask g t t') :
    (l.write (.putTask t)).Beside g (l'.write (.putTask t')) :=
  h.write (congrArg Write.putTask ht)

theorem ended (h : l.Beside g l') : l.ended.Beside g l'.ended :=
  ⟨rfl, .none, rfl, h.members, h.tasks⟩

theorem known (h : l.Beside g l') (t : Id) :
    Option.Rel (SameTask g) (l.tasks.find? t) (l'.tasks.find? t) := by
  refine rel_of_map_eq ?_
  have hfind := congrArg (Table.find? · t) h.tasks
  rwa [Table.find?_mapRows, Table.find?_mapRows] at hfind

theorem resolveTask (h : l.Beside g l') {t t' : Task} (ht : SameTask g t t') :
    SameTask g (l.resolveTask t) (l'.resolveTask t') := by
  have hknown := h.known t.id
  unfold Session.resolveTask
  rw [key_task, key_task, ← ht.id]
  generalize l.tasks.find? t.id = o at hknown
  generalize l'.tasks.find? t.id = o' at hknown
  cases hknown with
  | none => exact ht
  | some hrow => exact hrow

theorem resolveMember (h : l.Beside g l') (m : WorkspaceMember) :
    l.resolveMember m = l'.resolveMember m := by
  rw [Session.resolveMember, Session.resolveMember, h.members]

/-- They lock the same rows. -/
theorem holds [Collation] (h : l.Beside g l') {k : RowKey} (hk : l'.Holds k) : l.Holds k := by
  rcases hk with hk | ⟨w', hw', hk⟩
  · exact Or.inl (h.locked ▸ hk)
  · have hmem : w'.only g ∈ l.writes.map (Write.only g) :=
      h.writes ▸ List.mem_map_of_mem hw'
    obtain ⟨w, hw, heq⟩ := List.mem_map.mp hmem
    refine Or.inr ⟨w, hw, ?_⟩
    rw [← Write.keys_only g, heq, Write.keys_only]
    exact hk

end Session.Beside

/-! ## Answers -/

/-- The calls of the requests that change the columns of a group. -/
def Call.MayIssue (g : Columns) : Call → Prop
  | .select (.userByUsername _) | .select (.workspaceAccess _ _) | .select (.taskIn _ _)
  | .memberAttributes _ _ | .lockTask _ _ | .scanTasks _ | .refreshTask _ | .commit | .close
  | .utcNow | .checkRateLimit _ => True
  | .flushTask _ patch => patch.Within g
  | .lockMember _ _ | .clearAssignee _ _ _ _ | .deleteMember _ _ => g = .workflow
  | _ => False

/-- Tasks in the answers agree on the columns of a group; all else is equal. -/
def Call.SameVal (g : Columns) : (c : Call) → c.Val → c.Val → Prop
  | .select (.taskIn _ _), v, v' => Option.Rel (SameTask g) v v'
  | .lockTask _ _, v, v' => Option.Rel (SameTask g) v v'
  | .refreshTask _, v, v' => SameTask g v v'
  | _, v, v' => v = v'

/-- The workspace was not found. -/
def Call.Missing : (c : Call) → c.Val → Prop
  | .select (.workspaceAccess _ _), none => True
  | _, _ => False

/-- An answer that a request turns into an error.  Closing the session has no other. -/
def Call.Loses (c : Call) (r : c.Res) : Prop := c ≠ .close ∧ ∀ v, r = .ok v → c.Missing v

def columnPairing (g : Columns) : Pairing Call Call.Res where
  may := Call.MayIssue g
  pairs := fun c r r' => ∃ v v', r = .ok v ∧ r' = .ok v' ∧ c.SameVal g v v'
  loses := Call.Loses
  quiet := Call.isQuiet

/-- A call that is answered alike, or with an error in the full run. -/
inductive Session.Answers (g : Columns) (c : Call) (x x' : c.Res × Session × Database) : Prop where
  | lost (h : c.Loses x.1)
  | alike (h : (columnPairing g).pairs c x.1 x'.1) (hl : x.2.1.Beside g x'.2.1)
      (hd : SameColumns g x.2.2 x'.2.2)

namespace Session

variable {g : Columns} {l l' : Session} {d d' : Database} {env : Env} {c : Call}

theorem answers_ok {v v' : c.Val} (hv : c.SameVal g v v') (hl : l.Beside g l')
    (hd : SameColumns g d d') : Answers g c (.ok v, l, d) (.ok v', l', d') :=
  .alike ⟨v, v', rfl, rfl, hv⟩ hl hd

theorem answers_error {e : SqlError} {x' : c.Res × Session × Database} (hc : c ≠ .close) :
    Answers g c (.error e, l, d) x' :=
  .lost ⟨hc, nofun⟩

theorem answers_missing {v : c.Val} {x' : c.Res × Session × Database} (hc : c ≠ .close)
    (hv : c.Missing v) : Answers g c (.ok v, l, d) x' :=
  .lost ⟨hc, fun _ h => by cases h; exact hv⟩

theorem answers_statement {x x' : Except SqlError c.Val × Session × Database} (hc : c ≠ .close)
    (hx : Answers g c x x') :
    Answers g c (statement env l d x) (statement env l' d' x') := by
  unfold statement
  cases env.fault with
  | none => exact hx
  | some e => exact answers_error hc

section Calls

variable [Collation] (hl : l.Beside g l') (hd : SameColumns g d d')
include hl hd

theorem answers_userByUsername (username : String) :
    Answers g (.select (.userByUsername username)) (select (.userByUsername username) l d)
      (select (.userByUsername username) l' d') := by
  refine answers_ok ?_ (hl.openView hd) hd
  show (l.view d).userByUsername? username = (l'.view d').userByUsername? username
  rw [userByUsername?, userByUsername?, (hl.view hd).users]

theorem answers_workspaceAccess (w u : Id) :
    Answers g (.select (.workspaceAccess w u)) (select (.workspaceAccess w u) l d)
      (select (.workspaceAccess w u) l' d') := by
  have hview := hl.view hd
  unfold select
  simp only [Query.eval]
  have hc : Call.select (.workspaceAccess w u) ≠ .close := fun h => by cases h
  cases hrow : (l.view d).workspaceAccess? w u with
  | none => exact answers_missing hc trivial
  | some row =>
      obtain ⟨workspace, m⟩ := row
      obtain ⟨hworkspace, hm⟩ := workspaceAccess?_eq_some.mp hrow
      have hworkspace' : (l'.view d').workspace? w = some workspace := by
        rw [← hworkspace]
        exact congrArg (Table.find? · w) hview.workspaces.symm
      rw [workspaceAccess?_eq_some.mpr ⟨hworkspace', hview.member w u m hm⟩]
      simp only [Query.load]
      rw [← hl.resolveMember m]
      exact answers_ok rfl ((hl.keepMember _).openView hd) hd

theorem answers_taskIn (t w : Id) :
    Answers g (.select (.taskIn t w)) (select (.taskIn t w) l d)
      (select (.taskIn t w) l' d') := by
  have hrow := (hl.view hd).taskIn? t w
  unfold select
  simp only [Query.eval]
  generalize (l.view d).taskIn? t w = o at hrow
  generalize (l'.view d').taskIn? t w = o' at hrow
  cases hrow with
  | none => exact answers_ok .none (hl.openView hd) hd
  | some hrow =>
      have hknown := hl.resolveTask hrow
      exact answers_ok (.some hknown) ((hl.keepTask hknown).openView hd) hd

omit [Collation] in
theorem answers_memberAttributes (w u : Id) :
    Answers g (.memberAttributes w u) (memberAttributes w u l d) (memberAttributes w u l' d') := by
  unfold memberAttributes
  rw [← hl.members]
  cases l.members.find? (memberKey w u) with
  | none => exact answers_error nofun
  | some m => exact answers_ok rfl hl hd

omit [Collation] in
theorem answers_lockMember (hg : g = .workflow) (w u : Id) :
    Answers g (.lockMember w u) (lockMember w u l d) (lockMember w u l' d') := by
  subst hg
  unfold lockMember
  rw [← (hl.current hd).member? w u]
  cases (l.current d).member? w u with
  | none => exact answers_ok rfl hl hd
  | some m => exact answers_ok rfl ((hl.keepMember m).lock _) hd

omit [Collation] in
theorem answers_lockTask (w t : Id) :
    Answers g (.lockTask w t) (lockTask w t l d) (lockTask w t l' d') := by
  have hrow := (hl.current hd).taskIn? t w
  unfold lockTask
  generalize (l.current d).taskIn? t w = o at hrow
  generalize (l'.current d').taskIn? t w = o' at hrow
  cases hrow with
  | none => exact answers_ok .none hl hd
  | some hrow => exact answers_ok (.some hrow) ((hl.keepTask hrow).lock _) hd

omit [Collation] in
/-- The rows of the smaller run satisfy the constraints, so it accepts what the full run
accepts. -/
theorem answers_flushTask (hrows : Database.Consistent (l'.current d')) (t : Id) {patch : TaskPatch}
    (hp : patch.Within g) :
    Answers g (.flushTask t patch) (flushTask t patch env l d) (flushTask t patch env l' d') := by
  have hknown := hl.known t
  unfold flushTask
  generalize l.tasks.find? t = o at hknown
  generalize l'.tasks.find? t = o' at hknown
  cases hknown with
  | none => exact answers_error nofun
  | @some loaded loaded' hloaded =>
      simp only [← hp.dirty hloaded]
      by_cases hdirty : patch.dirty loaded = {}
      · rw [if_pos hdirty, if_pos hdirty]
        exact answers_ok rfl hl hd
      · rw [if_neg hdirty, if_neg hdirty]
        refine answers_statement nofun ?_
        have hcurrent := hl.current hd
        have hrow := hcurrent.task? t
        cases hfound' : (l'.current d').task? t with
        | none =>
            rw [hfound'] at hrow
            generalize (l.current d).task? t = o at hrow
            cases hrow with
            | none => exact answers_error nofun
        | some row' =>
            rw [hfound'] at hrow
            generalize (l.current d).task? t = o at hrow
            cases hrow with
            | @some row _ hsame =>
                simp only
                cases hcheck : (l.current d).checkTask
                    { (patch.dirty loaded).apply row with updatedAt := env.now } with
                | error e => exact answers_error nofun
                | ok _ =>
                    have hfits : PatchFits (l'.current d') (patch.dirty loaded) := by
                      rw [hcurrent.checkTask] at hcheck
                      exact fits_of_apply hcheck
                    rw [hfits.apply (hrows.task t row' hfound').2]
                    have hnew := hsame.apply (patch.dirty loaded) env.now env.now
                    have hinstance := hloaded.apply (patch.dirty loaded) env.now env.now
                    exact answers_ok rfl ((hl.writeTask hnew).keepTask hinstance) hd

omit [Collation] in
theorem answers_deleteMember (hg : g = .workflow) (w u : Id) :
    Answers g (.deleteMember w u) (deleteMember w u l d) (deleteMember w u l' d') := by
  subst hg
  unfold deleteMember
  rw [← (hl.current hd).member? w u]
  cases (l.current d).member? w u with
  | none => exact answers_ok rfl (hl.dropMember w u) hd
  | some m => exact answers_ok rfl ((hl.write rfl).dropMember w u) hd

omit [Collation] in
theorem answers_scanTasks (w : Id) :
    Answers g (.scanTasks w) (scanTasks w env l d) (scanTasks w env l' d') := by
  unfold scanTasks
  rw [(hl.current hd).scan w]
  exact answers_ok rfl hl hd

omit [Collation] in
theorem answers_clearAssignee (hg : g = .workflow) (w u t : Id) (updatedAt : Timestamp) :
    Answers g (.clearAssignee w u t updatedAt) (clearAssignee w u t updatedAt env l d)
      (clearAssignee w u t updatedAt env l' d') := by
  subst hg
  have hrow := (hl.current hd).task? t
  unfold clearAssignee
  generalize (l.current d).task? t = o at hrow
  generalize (l'.current d').task? t = o' at hrow
  cases hrow with
  | none => exact answers_ok rfl hl hd
  | @some row row' hsame =>
      have hholds : holdsUnfinished w u row = holdsUnfinished w u row' := by
        rw [holdsUnfinished, holdsUnfinished, hsame.workspaceId, hsame.assigneeId, hsame.status]
      simp only [← hholds]
      cases holdsUnfinished w u row with
      | true => exact answers_ok rfl (hl.writeTask (hsame.cleared updatedAt)) hd
      | false =>
          cases env.keepsLock with
          | true => exact answers_ok rfl (hl.lock _) hd
          | false => exact answers_ok rfl hl hd

theorem answers_refreshTask (t : Id) :
    Answers g (.refreshTask t) (exec env (.refreshTask t) l d)
      (exec env (.refreshTask t) l' d') := by
  have hrow := (hl.view hd).task? t
  have hc : Call.refreshTask t ≠ .close := fun h => by cases h
  simp only [exec]
  refine answers_statement hc ?_
  generalize (l.view d).task? t = o at hrow
  generalize (l'.view d').task? t = o' at hrow
  cases hrow with
  | none => exact answers_error hc
  | some hrow => exact answers_ok hrow ((hl.keepTask hrow).openView hd) hd

/-- The calls of the requests of a group. -/
theorem answers_exec (env : Env) (hrows : Database.Consistent (l'.current d')) (hc : c.MayIssue g) :
    Answers g c (exec env c l d) (exec env c l' d') := by
  cases c with
  | select q =>
      refine answers_statement nofun ?_
      cases q with
      | userByUsername username => exact answers_userByUsername hl hd username
      | workspaceAccess w u => exact answers_workspaceAccess hl hd w u
      | taskIn t w => exact answers_taskIn hl hd t w
      | _ => exact hc.elim
  | memberAttributes w u => exact answers_memberAttributes hl hd w u
  | lockMember w u => exact answers_statement nofun (answers_lockMember hl hd hc w u)
  | lockTask w t => exact answers_statement nofun (answers_lockTask hl hd w t)
  | flushTask t patch => exact answers_flushTask hl hd hrows t hc
  | deleteMember w u => exact answers_statement nofun (answers_deleteMember hl hd hc w u)
  | scanTasks w => exact answers_statement nofun (answers_scanTasks hl hd w)
  | clearAssignee w u t updatedAt =>
      exact answers_statement nofun (answers_clearAssignee hl hd hc w u t updatedAt)
  | refreshTask t => exact answers_refreshTask hl hd t
  | commit => exact answers_statement nofun (answers_ok rfl hl.ended (hl.current hd))
  | close => exact answers_ok rfl (.init g) hd
  | utcNow => exact answers_ok rfl hl hd
  | checkRateLimit check => exact answers_ok rfl hl hd
  | _ => exact hc.elim

end Calls

end Session
end TaskPlatform
