import TaskPlatform.Confidentiality.Sight
import TaskPlatform.Transaction.Lockstep

/-!
# Calls within a sight

`calling S writes` lists the calls a request may issue that looks at nothing
outside `S`, and what it learns from their answers.  Sessions that are alike over
databases that agree answer these calls alike (`unwinds`).
-/

namespace TaskPlatform

open Relational Transaction Database

variable [Collation]

/-- The calls that look at nothing outside the sight.  Only a request that
`writes` may issue a statement that does. -/
def Sight.MayCall (S : Sight) (writes : Prop) : Call → Prop
  | .select q => S.MayAsk q
  | .memberAttributes _ _ | .rollback | .close | .utcNow | .checkRateLimit _ => True
  | .lockMember w _ | .lockTask w _ | .scanTasks w | .refreshMember w _ => S.workspaces w
  | .refreshTask t => S.tasks t
  | .flushMemberRole w _ _ | .deleteMember w _ | .clearAssignee w _ _ _ =>
    writes ∧ S.workspaces w
  | .deleteTask t => writes ∧ S.tasks t
  | .flushTask _ patch => writes ∧ ∀ a, patch.assigneeId = some (some a) → S.users a
  | .commit => writes
  | .getMember _ _ | .insertUser _ _ | .insertWorkspace _ _ | .insertMember _ _ _
  | .insertTask _ _ _ | .refreshUser _ | .refreshWorkspace _ | .hashPassword _
  | .verifyPassword _ _ => False

/-- What an answer tells about the sight. -/
def Sight.Tells (S : Sight) : (c : Call) → c.Val → Prop
  | .select (.userByUsername _), some user => user = S.user
  | .select (.workspaceAccess w _), some (workspace, _) => S.workspaces w ∧ workspace.id = w
  | .select (.taskIn _ _), some row => S.tasks row.id
  | .lockMember _ _, some m => S.users m.userId
  | .lockTask _ _, some row => S.tasks row.id
  | _, _ => True

def calling (S : Sight) (writes : Prop) : Calling Call Call.Res where
  may := S.MayCall writes
  tells := fun c r => ∀ v, r = .ok v → S.Tells c v

/-- Two sessions that did the same over databases that agree.  Unless they
`writes`, they left these as they were. -/
structure Alike (S : Sight) (writes : Prop) (d₀ d₀' : Database) (s s' : Session × Database) :
    Prop where
  agree : Agree S s.2 s'.2
  snapshot : Agree S (s.1.readView.getD s.2) (s'.1.readView.getD s'.2)
  pending : s.1.writes = s'.1.writes
  members : s.1.members = s'.1.members
  tasks : s.1.tasks = s'.1.tasks
  allowed : ∀ w ∈ s.1.writes, S.Allows w
  loaded : ∀ t row, s.1.tasks.find? t = some row → S.tasks t
  still : ¬ writes → s.2 = d₀ ∧ s'.2 = d₀' ∧ s.1.writes = []

variable {S : Sight} {writes : Prop} {d₀ d₀' d d' : Database} {l l' : Session}

namespace Alike

theorem view (h : Alike S writes d₀ d₀' (l, d) (l', d')) : Agree S (l.view d) (l'.view d') := by
  have hsame := h.snapshot.applyAll h.allowed
  rw [Session.view, Session.view, ← h.pending]
  exact hsame

theorem current (h : Alike S writes d₀ d₀' (l, d) (l', d')) :
    Agree S (l.current d) (l'.current d') := by
  have hsame := h.agree.applyAll h.allowed
  rw [Session.current, Session.current, ← h.pending]
  exact hsame

theorem openView (h : Alike S writes d₀ d₀' (l, d) (l', d')) :
    Alike S writes d₀ d₀' (l.openView d, d) (l'.openView d', d') :=
  { h with }

/-- Locks do not matter to a request that is served alone. -/
theorem lock (h : Alike S writes d₀ d₀' (l, d) (l', d')) (ks ks' : List RowKey) :
    Alike S writes d₀ d₀' ({ l with locked := ks }, d) ({ l' with locked := ks' }, d') :=
  { h with }

theorem keepMember (h : Alike S writes d₀ d₀' (l, d) (l', d')) (m : WorkspaceMember) :
    Alike S writes d₀ d₀' (l.keepMember m, d) (l'.keepMember m, d') :=
  { h with members := congrArg (Table.put · m) h.members }

theorem dropMember (h : Alike S writes d₀ d₀' (l, d) (l', d')) (w u : Id) :
    Alike S writes d₀ d₀' (l.dropMember w u, d) (l'.dropMember w u, d') :=
  { h with members := congrArg (Table.erase · (memberKey w u)) h.members }

theorem keepTask (h : Alike S writes d₀ d₀' (l, d) (l', d')) {row : Task} (hrow : S.tasks row.id) :
    Alike S writes d₀ d₀' (l.keepTask row, d) (l'.keepTask row, d') :=
  { h with
    tasks := congrArg (Table.put · row) h.tasks
    loaded := by
      intro t row' hrow'
      have hput := (Table.find?_put l.tasks row t).symm.trans hrow'
      split_ifs at hput with ht
      · rw [ht]
        exact hrow
      · exact h.loaded t row' hput }

theorem dropTask (h : Alike S writes d₀ d₀' (l, d) (l', d')) (k : Id) :
    Alike S writes d₀ d₀' (l.dropTask k, d) (l'.dropTask k, d') :=
  { h with
    tasks := congrArg (Table.erase · k) h.tasks
    loaded := by
      intro t row hrow
      have herase := (Table.find?_erase l.tasks k t).symm.trans hrow
      split_ifs at herase
      exact h.loaded t row herase }

theorem write (h : Alike S writes d₀ d₀' (l, d) (l', d')) (hwrites : writes) {w : Write}
    (hw : S.Allows w) : Alike S writes d₀ d₀' (l.write w, d) (l'.write w, d') :=
  { h with
    pending := congrArg (· ++ [w]) h.pending
    allowed := by
      intro w' hw'
      rcases List.mem_append.mp hw' with hw' | hw'
      · exact h.allowed w' hw'
      · rw [List.mem_singleton.mp hw']
        exact hw
    still := fun hstill => absurd hwrites hstill }

theorem ended (h : Alike S writes d₀ d₀' (l, d) (l', d')) (hwrites : writes) :
    Alike S writes d₀ d₀' (l.ended, l.current d) (l'.ended, l'.current d') :=
  { agree := h.current
    snapshot := h.current
    pending := rfl
    members := h.members
    tasks := h.tasks
    allowed := nofun
    loaded := h.loaded
    still := fun hstill => absurd hwrites hstill }

theorem reset (h : Alike S writes d₀ d₀' (l, d) (l', d')) :
    Alike S writes d₀ d₀' ({}, d) ({}, d') :=
  { agree := h.agree
    snapshot := h.agree
    pending := rfl
    members := rfl
    tasks := rfl
    allowed := nofun
    loaded := nofun
    still := fun hstill => ⟨(h.still hstill).1, (h.still hstill).2.1, rfl⟩ }

end Alike

/-- A call answered alike. -/
structure Answered (S : Sight) (writes : Prop) (d₀ d₀' : Database) (c : Call)
    (x x' : c.Res × Session × Database) : Prop where
  answer : x.1 = x'.1
  tells : ∀ v, x.1 = .ok v → S.Tells c v
  alike : Alike S writes d₀ d₀' x.2 x'.2

section Answers

variable {c : Call} {env : Env} {x x' : Except SqlError c.Val × Session × Database}

theorem answered_ok (h : Alike S writes d₀ d₀' (l, d) (l', d')) {v : c.Val} (hv : S.Tells c v) :
    Answered S writes d₀ d₀' c (.ok v, l, d) (.ok v, l', d') where
  answer := rfl
  tells := fun _ hv' => by
    cases hv'
    exact hv
  alike := h

theorem answered_error (h : Alike S writes d₀ d₀' (l, d) (l', d')) (e : SqlError) :
    Answered S writes d₀ d₀' c (.error e, l, d) (.error e, l', d') where
  answer := rfl
  tells := nofun
  alike := h

theorem answered_statement (h : Alike S writes d₀ d₀' (l, d) (l', d'))
    (hx : Answered S writes d₀ d₀' c x x') :
    Answered S writes d₀ d₀' c (Session.statement env l d x) (Session.statement env l' d' x') := by
  unfold Session.statement
  cases env.fault with
  | none => exact hx
  | some e => exact answered_error h e

end Answers

omit [Collation] in
theorem clearAssignee_of_none {w u t : Id} (env : Env) (updatedAt : Timestamp)
    (hnone : ∀ row, (l.current d).task? t = some row → holdsUnfinished w u row = false) :
    ∃ ks, Session.clearAssignee w u t updatedAt env l d =
      (.ok (), { l with locked := ks }, d) := by
  unfold Session.clearAssignee
  cases hrow : (l.current d).task? t with
  | none => exact ⟨l.locked, rfl⟩
  | some row =>
      simp only [hnone row hrow, Bool.false_eq_true, if_false]
      cases env.keepsLock with
      | false => exact ⟨l.locked, rfl⟩
      | true => exact ⟨_, rfl⟩

omit [Collation] in
theorem clearAssignee_of_some {env : Env} {w u t : Id} {updatedAt : Timestamp} {row : Task}
    (hrow : (l.current d).task? t = some row) (hu : holdsUnfinished w u row = true) :
    Session.clearAssignee w u t updatedAt env l d =
      (.ok (), l.write (.putTask { row with assigneeId := none, updatedAt := updatedAt }), d) := by
  unfold Session.clearAssignee
  simp only [hrow, hu, if_true]

section Sessions

variable {env : Env} (h : Alike S writes d₀ d₀' (l, d) (l', d'))
include h

theorem answered_memberAttributes (w u : Id) :
    Answered S writes d₀ d₀' (.memberAttributes w u) (Session.memberAttributes w u l d)
      (Session.memberAttributes w u l' d') := by
  unfold Session.memberAttributes
  rw [← show l.members = l'.members from h.members]
  cases l.members.find? (memberKey w u) with
  | none => exact answered_error h _
  | some m => exact answered_ok h trivial

theorem answered_lockMember {w : Id} (hw : S.workspaces w) (u : Id) :
    Answered S writes d₀ d₀' (.lockMember w u) (Session.lockMember w u l d)
      (Session.lockMember w u l' d') := by
  unfold Session.lockMember
  rw [← h.current.member w u hw]
  cases hm : (l.current d).member? w u with
  | none => exact answered_ok h trivial
  | some m =>
      refine answered_ok ((h.keepMember m).lock _ _) ?_
      show S.users m.userId
      rw [(key_of_member? hm).2]
      exact S.users_of_named (h.current.named w u hw (by rw [hm]; rfl))

theorem answered_lockTask {w : Id} (hw : S.workspaces w) (t : Id) :
    Answered S writes d₀ d₀' (.lockTask w t) (Session.lockTask w t l d)
      (Session.lockTask w t l' d') := by
  unfold Session.lockTask
  rw [← h.current.taskIn t w hw]
  cases hrow : (l.current d).taskIn? t w with
  | none => exact answered_ok h trivial
  | some row =>
      have htask : S.tasks row.id := by
        rw [id_of_task? (taskIn?_eq_some.mp hrow).1]
        exact h.current.tasks t w row hw hrow
      exact answered_ok ((h.keepTask htask).lock _ _) htask

theorem answered_flushMemberRole (hwrites : writes) {w : Id} (hw : S.workspaces w) (u : Id)
    (role : MemberRole) :
    Answered S writes d₀ d₀' (.flushMemberRole w u role)
      (Session.flushMemberRole w u role env l d) (Session.flushMemberRole w u role env l' d') := by
  unfold Session.flushMemberRole
  rw [← show l.members = l'.members from h.members]
  cases l.members.find? (memberKey w u) with
  | none => exact answered_error h _
  | some loaded =>
      by_cases hrole : loaded.role = role
      · simp only [hrole, if_true]
        exact answered_ok h trivial
      · simp only [hrole, if_false]
        refine answered_statement h ?_
        rw [← h.current.member w u hw]
        cases hm : (l.current d).member? w u with
        | none => exact answered_error h _
        | some row =>
            obtain ⟨hrw, hru⟩ := key_of_member? hm
            have hallowed : S.Allows
                (.putMember { row with role := role, updatedAt := env.now }) := by
              refine ⟨?_, ?_⟩
              · rw [hrw]
                exact hw
              · rw [hru]
                exact h.current.named w u hw (by rw [hm]; rfl)
            exact answered_ok ((h.write hwrites hallowed).keepMember _) trivial

theorem answered_flushTask (hwrites : writes) (t : Id) {patch : TaskPatch}
    (hpatch : ∀ a, patch.assigneeId = some (some a) → S.users a) :
    Answered S writes d₀ d₀' (.flushTask t patch)
      (Session.flushTask t patch env l d) (Session.flushTask t patch env l' d') := by
  unfold Session.flushTask
  rw [← show l.tasks = l'.tasks from h.tasks]
  cases hloaded : l.tasks.find? t with
  | none => exact answered_error h _
  | some loaded =>
      have ht : S.tasks t := h.loaded t loaded hloaded
      by_cases hdirty : patch.dirty loaded = {}
      · simp only [hdirty, if_true]
        exact answered_ok h trivial
      · simp only [hdirty, if_false]
        refine answered_statement h ?_
        rw [← h.current.task t ht]
        cases hrow : (l.current d).task? t with
        | none => exact answered_error h _
        | some row =>
            have hkept := h.current.refers t row ht hrow
            have hid : row.id = t := id_of_task? hrow
            have hallowed : S.Allows (.putTask
                { (patch.dirty loaded).apply row with updatedAt := env.now }) := by
              refine ⟨?_, hkept.1, hkept.2.1, fun a ha => ?_⟩
              · show S.tasks row.id
                rw [hid]
                exact ht
              · rcases TaskPatch.assigneeId_of_apply_dirty ha with hold | hnew
                · exact hkept.2.2 a hold
                · exact hpatch a hnew
            simp only
            rw [← h.current.checkTask hallowed.2.1 hallowed.2.2.1 hallowed.2.2.2]
            cases (l.current d).checkTask
                { (patch.dirty loaded).apply row with updatedAt := env.now } with
            | error e => exact answered_error h e
            | ok _ =>
                refine answered_ok ((h.write hwrites hallowed).keepTask ?_) trivial
                show S.tasks loaded.id
                rw [show loaded.id = t from Table.key_of_find? hloaded]
                exact ht

theorem answered_deleteMember (hwrites : writes) {w : Id} (hw : S.workspaces w) (u : Id) :
    Answered S writes d₀ d₀' (.deleteMember w u) (Session.deleteMember w u l d)
      (Session.deleteMember w u l' d') := by
  unfold Session.deleteMember
  rw [← h.current.member w u hw]
  cases (l.current d).member? w u with
  | none => exact answered_ok (h.dropMember w u) trivial
  | some m =>
      have hallowed : S.Allows (.deleteMember w u) := trivial
      exact answered_ok ((h.write hwrites hallowed).dropMember w u) trivial

theorem answered_deleteTask (hwrites : writes) {t : Id} (ht : S.tasks t) :
    Answered S writes d₀ d₀' (.deleteTask t) (Session.deleteTask t l d)
      (Session.deleteTask t l' d') := by
  unfold Session.deleteTask
  rw [← h.current.task t ht]
  cases (l.current d).task? t with
  | none => exact answered_ok (h.dropTask t) trivial
  | some row =>
      have hallowed : S.Allows (.deleteTask t) := trivial
      exact answered_ok ((h.write hwrites hallowed).dropTask t) trivial

theorem answered_scanTasks {w : Id} (hw : S.workspaces w) :
    Answered S writes d₀ d₀' (.scanTasks w) (Session.scanTasks w env l d)
      (Session.scanTasks w env l' d') := by
  unfold Session.scanTasks
  rw [← h.current.taskRows hw fun t ht => by simpa using ht]
  exact answered_ok h trivial

/-- A task that holds nothing to clear may exist in one of the databases only. -/
theorem answered_clearAssignee (hwrites : writes) {w : Id} (hw : S.workspaces w) (u t : Id)
    (updatedAt : Timestamp) :
    Answered S writes d₀ d₀' (.clearAssignee w u t updatedAt)
      (Session.clearAssignee w u t updatedAt env l d)
      (Session.clearAssignee w u t updatedAt env l' d') := by
  have hsame : ∀ row, holdsUnfinished w u row = true →
      ((l.current d).task? t = some row ↔ (l'.current d').task? t = some row) := by
    intro row hu
    have hrw := (holdsUnfinished_iff.mp hu).1
    have hin : ∀ e : Database, e.task? t = some row ↔ e.taskIn? t w = some row := fun e => by
      rw [taskIn?_eq_some]
      exact (and_iff_left hrw).symm
    rw [hin, hin, h.current.taskIn t w hw]
  by_cases hex : ∃ row, (l.current d).task? t = some row ∧ holdsUnfinished w u row = true
  · obtain ⟨row, hrow, hu⟩ := hex
    rw [clearAssignee_of_some hrow hu, clearAssignee_of_some ((hsame row hu).mp hrow) hu]
    have hrw := (holdsUnfinished_iff.mp hu).1
    have ht : S.tasks t := h.current.tasks t w row hw (taskIn?_eq_some.mpr ⟨hrow, hrw⟩)
    have hkept := h.current.refers t row ht hrow
    have hallowed : S.Allows
        (.putTask { row with assigneeId := none, updatedAt := updatedAt }) := by
      refine ⟨?_, hkept.1, hkept.2.1, nofun⟩
      show S.tasks row.id
      rw [id_of_task? hrow]
      exact ht
    exact answered_ok (h.write hwrites hallowed) trivial
  · obtain ⟨ks, hks⟩ := clearAssignee_of_none env updatedAt fun row hrow =>
      Bool.eq_false_iff.mpr fun hu => hex ⟨row, hrow, hu⟩
    obtain ⟨ks', hks'⟩ := clearAssignee_of_none env updatedAt fun row hrow =>
      Bool.eq_false_iff.mpr fun hu => hex ⟨row, (hsame row hu).mpr hrow, hu⟩
    rw [hks, hks']
    exact answered_ok (h.lock ks ks') trivial

theorem answered_refreshMember {w : Id} (hw : S.workspaces w) (u : Id) :
    Answered S writes d₀ d₀' (.refreshMember w u) (Session.exec env (.refreshMember w u) l d)
      (Session.exec env (.refreshMember w u) l' d') := by
  simp only [Session.exec]
  rw [← h.view.member w u hw]
  refine answered_statement h ?_
  unfold Session.refresh
  cases (l.view d).member? w u with
  | none => exact answered_error h _
  | some m => exact answered_ok (h.keepMember m).openView trivial

theorem answered_refreshTask {t : Id} (ht : S.tasks t) :
    Answered S writes d₀ d₀' (.refreshTask t)
      (Session.exec env (.refreshTask t) l d) (Session.exec env (.refreshTask t) l' d') := by
  simp only [Session.exec]
  rw [← h.view.task t ht]
  refine answered_statement h ?_
  unfold Session.refresh
  cases hrow : (l.view d).task? t with
  | none => exact answered_error h _
  | some row =>
      have hid : S.tasks row.id := by
        rw [id_of_task? hrow]
        exact ht
      exact answered_ok (h.keepTask hid).openView trivial

theorem answered_select {q : Query} (hq : S.MayAsk q) :
    Answered S writes d₀ d₀' (.select q) (Session.select q l d) (Session.select q l' d') := by
  unfold Session.select
  rw [← h.view.eval hq]
  have hmembers : l.members = l'.members := h.members
  have hresolve : l'.resolveTask = l.resolveTask := by
    funext row
    rw [Session.resolveTask, Session.resolveTask, show l.tasks = l'.tasks from h.tasks]
  cases q with
  | userByUsername name =>
      refine answered_ok h.openView ?_
      rw [show (Query.userByUsername name).eval (l.view d) = some S.user from
        (h.view.token name hq).1]
      rfl
  | workspaceAccess w u =>
      cases hq
      cases heval : (l.view d).workspaceAccess? w S.user.id with
      | none =>
          simp only [Query.eval, heval, Query.load]
          exact answered_ok h.openView trivial
      | some row =>
          obtain ⟨workspace, m⟩ := row
          obtain ⟨hworkspace, hm⟩ := workspaceAccess?_eq_some.mp heval
          simp only [Query.eval, heval, Query.load, Session.resolveMember, ← hmembers]
          exact answered_ok (h.keepMember _).openView
            ⟨h.view.sees w (by rw [hm]; rfl), id_of_workspace? hworkspace⟩
  | taskIn t w =>
      cases heval : (l.view d).taskIn? t w with
      | none =>
          simp only [Query.eval, heval, Query.load]
          exact answered_ok h.openView trivial
      | some row =>
          have ht : S.tasks (l.resolveTask row).id := by
            have hid : (l.resolveTask row).id = t := by
              have hrow := id_of_task? (taskIn?_eq_some.mp heval).1
              unfold Session.resolveTask
              cases hfind : l.tasks.find? (Keyed.key row) with
              | none => exact hrow
              | some known => exact (Table.key_of_find? hfind).trans hrow
            rw [hid]
            exact h.view.tasks t w row hq heval
          simp only [Query.eval, heval, Query.load]
          rw [hresolve]
          exact answered_ok (h.keepTask ht).openView ht
  | memberWithUsername w v =>
      cases heval : (l.view d).memberWithUsername? w v with
      | none =>
          simp only [Query.eval, heval, Query.load]
          exact answered_ok h.openView trivial
      | some row =>
          obtain ⟨m, username⟩ := row
          simp only [Query.eval, heval, Query.load, Session.resolveMember, ← hmembers]
          exact answered_ok (h.keepMember _).openView trivial
  | tasks w query =>
      simp only [Query.load, hresolve]
      exact answered_ok h.openView trivial
  | members w limit offset =>
      simp only [Query.load, Session.resolveMember, ← hmembers]
      exact answered_ok h.openView trivial
  | countTasks w query => exact answered_ok h.openView trivial
  | countMembers w => exact answered_ok h.openView trivial
  | countMemberships u => exact answered_ok h.openView trivial
  | workspaces u limit offset => exact answered_ok h.openView trivial

end Sessions

/-- Alike sessions answer the calls within the sight alike. -/
theorem unwinds (S : Sight) (writes : Prop) (d₀ d₀' : Database) :
    Unwinds Session.machine (calling S writes) (Alike S writes d₀ d₀') := by
  rintro env c ⟨l, d⟩ ⟨l', d'⟩ h hmay
  have hc : Answered S writes d₀ d₀' c (Session.exec env c l d) (Session.exec env c l' d') := by
    cases c with
    | select q => exact answered_statement h (answered_select h hmay)
    | getMember w u => exact hmay.elim
    | memberAttributes w u => exact answered_memberAttributes h w u
    | lockMember w u => exact answered_statement h (answered_lockMember h hmay u)
    | lockTask w t => exact answered_statement h (answered_lockTask h hmay t)
    | insertUser username hashed => exact hmay.elim
    | insertWorkspace name creator => exact hmay.elim
    | insertMember w u role => exact hmay.elim
    | insertTask w creator data => exact hmay.elim
    | flushMemberRole w u role => exact answered_flushMemberRole h hmay.1 hmay.2 u role
    | flushTask t patch => exact answered_flushTask h hmay.1 t hmay.2
    | deleteMember w u => exact answered_statement h (answered_deleteMember h hmay.1 hmay.2 u)
    | deleteTask t => exact answered_statement h (answered_deleteTask h hmay.1 hmay.2)
    | scanTasks w => exact answered_statement h (answered_scanTasks h hmay)
    | clearAssignee w u t updatedAt =>
        exact answered_statement h (answered_clearAssignee h hmay.1 hmay.2 u t updatedAt)
    | refreshUser u => exact hmay.elim
    | refreshWorkspace w => exact hmay.elim
    | refreshMember w u => exact answered_refreshMember h hmay u
    | refreshTask t => exact answered_refreshTask h hmay
    | commit => exact answered_statement h (answered_ok (h.ended hmay) trivial)
    | rollback => exact answered_ok h.reset trivial
    | close => exact answered_ok h.reset trivial
    | utcNow => exact answered_ok h trivial
    | hashPassword password => exact hmay.elim
    | verifyPassword password hashed => exact hmay.elim
    | checkRateLimit check => exact answered_ok h trivial
  exact ⟨hc.answer, hc.tells, hc.alike⟩

end TaskPlatform
