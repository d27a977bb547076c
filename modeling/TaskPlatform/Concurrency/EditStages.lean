import TaskPlatform.Atomicity.Services
import TaskPlatform.Integrity.Answers
import TaskPlatform.Transaction.Lockstep

/-!
# The stages of a general edit

A request of `update_task` reads, flushes its patch, reads the row again, commits and
closes its session.  The stages say what its session and the rest of its program are
on the way.
-/

namespace TaskPlatform

open Transaction Service Database

/-! ## Reads before any write -/

namespace Session

/-- Known instances are as the snapshot has them. -/
def Loaded (l : Session) : Prop :=
  ∀ t row, l.tasks.find? t = some row → ∃ snap, l.readView = some snap ∧ snap.task? t = some row

/-- A session that has only read. -/
structure Clean (l : Session) : Prop where
  writes : l.writes = []
  loaded : l.Loaded

/-- A session after a read of `d`. -/
structure Reads (l : Session) (d : Database) (l' : Session) : Prop where
  clean : l'.Clean
  view : l'.readView = l.readView ∨ l'.readView = some (l.readView.getD d)

variable {env : Env} {l l' : Session} {d : Database}

theorem Clean.view_eq (h : l.Clean) : l.view d = l.readView.getD d := by
  rw [view, h.writes]
  rfl

/-- The snapshot of a session, once it is open, stays. -/
theorem Clean.open_loaded (h : l.Clean) {t : Id} {row : Task} (hrow : l.tasks.find? t = some row) :
    (l.readView.getD d).task? t = some row := by
  obtain ⟨snap, hview, hsnap⟩ := h.loaded t row hrow
  rw [hview]
  exact hsnap

theorem reads_same (h : l.Clean) : Reads l d l := ⟨h, Or.inl rfl⟩

/-- A read that does not enter a task. -/
theorem reads_open (h : l.Clean) (hw : l'.writes = l.writes) (hv : l'.readView = l.readView)
    (ht : l'.tasks = l.tasks) : Reads l d (l'.openView d) := by
  refine ⟨⟨hw.trans h.writes, fun t row hrow => ?_⟩, Or.inr (by rw [openView, hv])⟩
  have hrow : l'.tasks.find? t = some row := hrow
  rw [ht] at hrow
  refine ⟨_, rfl, ?_⟩
  rw [hv]
  exact h.open_loaded hrow

/-- A read that enters a task of the snapshot. -/
theorem reads_keepTask (h : l.Clean) {row : Task}
    (hrow : (l.readView.getD d).task? row.id = some row) :
    Reads l d ((l.keepTask row).openView d) := by
  refine ⟨⟨h.writes, fun t row' hrow' => ?_⟩, Or.inr rfl⟩
  have hrow' : (l.tasks.put row).find? t = some row' := hrow'
  refine ⟨_, rfl, ?_⟩
  rw [Relational.Table.find?_put] at hrow'
  split at hrow'
  · rename_i hid
    cases hrow'
    rw [← key_task, ← hid] at hrow
    exact hrow
  · exact h.open_loaded hrow'

theorem reads_statement {α : Type} (h : l.Clean) {x : Except SqlError α × Session × Database}
    (hx : Reads l d x.2.1) : Reads l d (statement env l d x).2.1 := by
  unfold statement
  split
  · exact reads_same h
  · exact hx

theorem reads_refresh {α : Type} (h : l.Clean) {row : Option α} (hl : Reads l d l') :
    Reads l d (refresh row l l' d).2.1 := by
  unfold refresh
  split
  · exact reads_same h
  · exact hl

theorem reads_load (h : l.Clean) [Collation] (q : Query) :
    Reads l d ((q.load l (q.eval (l.view d))).2.openView d) := by
  cases q with
  | workspaceAccess w u =>
      show Reads l d ((Query.load l (.workspaceAccess w u)
        ((l.view d).workspaceAccess? w u)).2.openView d)
      cases (l.view d).workspaceAccess? w u with
      | none => exact reads_open h rfl rfl rfl
      | some row => exact reads_open h rfl rfl rfl
  | memberWithUsername w u =>
      show Reads l d ((Query.load l (.memberWithUsername w u)
        ((l.view d).memberWithUsername? w u)).2.openView d)
      cases (l.view d).memberWithUsername? w u with
      | none => exact reads_open h rfl rfl rfl
      | some row => exact reads_open h rfl rfl rfl
  | taskIn t w =>
      show Reads l d ((Query.load l (.taskIn t w) ((l.view d).taskIn? t w)).2.openView d)
      cases hfound : (l.view d).taskIn? t w with
      | none => exact reads_open h rfl rfl rfl
      | some row =>
          refine reads_keepTask h ?_
          have hrow := (taskIn?_eq_some.mp hfound).1
          rw [h.view_eq] at hrow
          rw [id_resolveTask]
          unfold resolveTask
          cases hknown : l.tasks.find? row.id with
          | none =>
              rw [id_of_task? hrow, Option.getD_none]
              exact hrow
          | some known => exact h.open_loaded hknown
  | _ => exact reads_open h rfl rfl rfl

/-- A read of a session that has written nothing. -/
theorem reads_exec [Collation] (h : l.Clean) {c : Call} (hc : c.isRead) :
    Reads l d (exec env c l d).2.1 := by
  cases c with
  | select q => exact reads_statement h (reads_load h q)
  | getMember w u =>
      simp only [exec, getMember]
      split
      · exact reads_same h
      · refine reads_statement h ?_
        split
        · exact reads_open h rfl rfl rfl
        · exact reads_open h rfl rfl rfl
  | memberAttributes w u =>
      simp only [exec, memberAttributes]
      split
      · exact reads_same h
      · exact reads_same h
  | scanTasks w => exact reads_statement h (reads_same h)
  | refreshUser u => exact reads_statement h (reads_refresh h (reads_open h rfl rfl rfl))
  | refreshWorkspace w => exact reads_statement h (reads_refresh h (reads_open h rfl rfl rfl))
  | refreshMember w u =>
      refine reads_statement h (reads_refresh h ?_)
      cases (l.view d).member? w u with
      | none => exact reads_open h rfl rfl rfl
      | some m => exact reads_open h rfl rfl rfl
  | refreshTask t =>
      refine reads_statement h (reads_refresh h ?_)
      cases hrow : (l.view d).task? t with
      | none => exact reads_open h rfl rfl rfl
      | some row =>
          refine reads_keepTask h ?_
          rw [h.view_eq] at hrow
          rw [id_of_task? hrow]
          exact hrow
  | utcNow => exact reads_same h
  | hashPassword password => exact reads_same h
  | verifyPassword password hashed => exact reads_same h
  | checkRateLimit check => exact reads_same h
  | _ => exact hc.elim

end Session

/-! ## The text of the request -/

/-- A task that was asked for by its id has it. -/
def Call.Names : (c : Call) → c.Val → Prop
  | .select (.taskIn t _), some row => row.id = t
  | _, _ => True

/-- Reads, and what their answers tell. -/
def naming : Calling Call Call.Res where
  may := Call.isRead
  tells := fun c r => ∀ v, r = .ok v → c.Names v

theorem names_exec [Collation] (env : Env) (c : Call) (l : Session) (d : Database) :
    naming.tells c (Session.exec env c l d).1 := by
  intro v hv
  cases c with
  | select q =>
      cases q with
      | taskIn t w =>
          simp only [Session.exec, Session.statement] at hv
          split at hv
          · cases hv
          · cases hv
            show Call.Names (.select (.taskIn t w))
              (Query.load l (.taskIn t w) ((l.view d).taskIn? t w)).1
            cases hfound : (l.view d).taskIn? t w with
            | none => trivial
            | some row =>
                show (l.resolveTask row).id = t
                rw [id_resolveTask, id_of_task? (taskIn?_eq_some.mp hfound).1]
      | _ => trivial
  | _ => trivial

section Texts

variable {α : Type}

theorem callsE_of_issues {C : Calling Call Call.Res} {x : Service α} (h : Issues C.may x) :
    CallsE C x fun _ => True := by
  have hcalls : ∀ p : Prog Call Call.Res (Except Exc α), Prog.Only C.may p →
      Calls C p fun r => ∀ a, r = .ok a → True := by
    intro p hp
    induction hp with
    | ret a => exact fun _ _ => trivial
    | call ho _ ih => exact ⟨ho, fun r _ => ih r⟩
  exact hcalls x.run h

theorem callsE_limitedTaskAccess (scope : Scope) (subject : Option String) (w t : Id) :
    CallsE naming (limitedTaskAccess scope subject w t) fun access => access.task.id = t := by
  refine callsE_bind (callsE_bind (callsE_mono (fun access _ => ?_)
    (callsE_of_issues (issues_workspaceAccess (fun _ h => h) subject w))))
  refine callsE_bind ⟨trivial, fun r hr => ?_⟩
  cases r with
  | error e => exact nofun
  | ok found =>
      rintro _ ⟨⟩
      cases found with
      | none => exact callsE_throw _
      | some row =>
          refine callsE_pure (callsE_bind (callsE_mono (fun _ _ => ?_)
            (callsE_of_issues (issues_enforceWriteLimit (fun _ h => h) _ scope _))))
          exact callsE_pure (hr _ rfl)

end Texts

def closing (r : Response) : Prog Call Call.Res Response := .call .close fun _ => .ret r

/-- The rest of a request once its service has come to `x`. -/
def finishing (x : Service TaskResponse) : Prog Call Call.Res Response :=
  (rollbackOnSqlError x >>= fun r => pure (Body.task r)).run >>= closing

/-- `saveTask` after its flush. -/
def refreshAndCommit (t : Id) : Service TaskResponse := do
  let refreshed ← call (.refreshTask t)
  keepTask refreshed

/-- A request that reads before it saves the task. -/
inductive Reading (t : Id) (patch : TaskPatch) : Prog Call Call.Res Response → Prop where
  | fails {p : Prog Call Call.Res Response} (h : Prog.Fails Call.isQuiet p) : Reading t patch p
  | read {c : Call} {k : c.Res → Prog Call Call.Res Response} (hc : c.isRead)
      (h : ∀ r, naming.tells c r → Reading t patch (k r)) : Reading t patch (.call c k)
  | save : Reading t patch (finishing (saveTask t patch))

theorem fails_closing (e : Exc) : Prog.Fails Call.isQuiet (closing (.error e)) :=
  .call nofun fun _ => .ret e

theorem fails_finishing (e : SqlError) :
    Prog.Fails Call.isQuiet (finishing (throw (.sql e))) :=
  .call nofun fun r => by
    cases r with
    | ok _ => exact fails_closing _
    | error e' => exact fails_closing _

theorem finishing_saveTask (t : Id) (patch : TaskPatch) :
    ∃ k, finishing (saveTask t patch) = .call (.flushTask t patch) k ∧
      k (.ok ()) = finishing (refreshAndCommit t) ∧ ∀ e, Prog.Fails Call.isQuiet (k (.error e)) :=
  ⟨_, rfl, rfl, fails_finishing⟩

theorem finishing_refreshAndCommit (t : Id) :
    ∃ k, finishing (refreshAndCommit t) = .call (.refreshTask t) k ∧
      (∀ row, k (.ok row) = finishing (keepTask row)) ∧
      ∀ e, Prog.Fails Call.isQuiet (k (.error e)) :=
  ⟨_, rfl, fun _ => rfl, fails_finishing⟩

theorem finishing_keepTask (row : Task) :
    ∃ k, finishing (keepTask row) = .call .commit k ∧
      k (.ok ()) = closing (.ok (.task (taskData row))) ∧
      ∀ e, Prog.Fails Call.isQuiet (k (.error e)) :=
  ⟨_, rfl, rfl, fails_finishing⟩

section Reading

variable {t : Id} {patch : TaskPatch} {α : Type}

/-- A service that only reads, before a request that reads. -/
theorem reading_bind {x : Service α} {f : α → Service Body} {Q : α → Prop}
    (hx : CallsE naming x Q) (hf : ∀ a, Q a → Reading t patch ((f a).run >>= closing)) :
    Reading t patch ((x >>= f).run >>= closing) := by
  have hread : ∀ (p : Prog Call Call.Res (Except Exc α))
      (g : Except Exc α → Prog Call Call.Res Response), (∀ a, g (.ok a) = (f a).run) →
      (∀ e, g (.error e) = .ret (.error e)) → (Calls naming p fun r => ∀ a, r = .ok a → Q a) →
      Reading t patch ((p >>= g) >>= closing) := by
    intro p g hok herror
    induction p with
    | ret r =>
        intro hp
        cases r with
        | ok a =>
            show Reading t patch (g (.ok a) >>= closing)
            rw [hok]
            exact hf a (hp a rfl)
        | error e =>
            show Reading t patch (g (.error e) >>= closing)
            rw [herror]
            exact .fails (fails_closing e)
    | call c k ih => exact fun hp => .read hp.1 fun r hr => ih r (hp.2 r hr)
  rw [Prog.run_bindE]
  exact hread x.run _ (fun _ => rfl) (fun _ => rfl) hx

theorem reading_program (subject : Option String) (w t : Id) (body : TaskUpdate) :
    Reading t body.patch (Request.program (.updateTask subject w t (some body))) := by
  refine reading_bind (callsE_limitedTaskAccess .taskUpdate subject w t) fun access hid => ?_
  rw [← hid]
  show Reading _ body.patch
    ((updateTask access body >>= fun r => pure (Body.task r)).run >>= closing)
  rw [updateTask, bind_assoc]
  refine reading_bind (callsE_of_issues (issues_membershipRole (fun _ h => h) _)) fun role _ => ?_
  rw [bind_assoc]
  refine reading_bind (callsE_of_issues issues_raiseIf) fun _ _ => ?_
  exact .save

end Reading

end TaskPlatform
