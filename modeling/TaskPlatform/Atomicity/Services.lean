import TaskPlatform.Concurrency.Rules
import TaskPlatform.Service.Text

/-!
# The write services commit last

Each of the nine services works in its session, commits once and returns; a domain
error or a failed call leaves it without a commit.  That is read off the text of the
service, whatever its calls answer.
-/

namespace TaskPlatform

open Transaction Service Database

/-- A call that neither ends the transaction nor drops what it has written. -/
def Call.isWork (c : Call) : Prop := c ≠ .commit ∧ c ≠ .rollback ∧ c ≠ .close

theorem Call.isWork_or (c : Call) : c.isWork ∨ c = .commit ∨ c = .rollback ∨ c = .close := by
  by_cases hcommit : c = .commit
  · exact Or.inr (Or.inl hcommit)
  by_cases hrollback : c = .rollback
  · exact Or.inr (Or.inr (Or.inl hrollback))
  by_cases hclose : c = .close
  · exact Or.inr (Or.inr (Or.inr hclose))
  · exact Or.inl ⟨hcommit, hrollback, hclose⟩

def Call.isQuiet (c : Call) : Prop := c ≠ .commit

/-- The server has applied a commit. -/
def Committed.accepted (r : Call.Res .commit) : Prop := r = .ok ()

namespace Session

variable {env : Env} {l : Session} {d : Database}

/-- What a call that is work makes of a session: it adds writes, and it may open the
snapshot. -/
structure Extends (l : Session) (d : Database) (l' : Session) : Prop where
  writes : l.writes <+: l'.writes
  readView : l'.readView = l.readView ∨ l'.readView = some (l.readView.getD d)

theorem Extends.refl (l : Session) (d : Database) : Extends l d l :=
  ⟨List.prefix_refl _, Or.inl rfl⟩

theorem Extends.kept {l' : Session} (h : l'.writes = l.writes) (h' : l'.readView = l.readView) :
    Extends l d l' :=
  ⟨h ▸ List.prefix_refl _, Or.inl h'⟩

theorem Extends.opened {l' : Session} (h : l'.writes = l.writes) (h' : l'.readView = l.readView) :
    Extends l d (l'.openView d) :=
  ⟨h ▸ List.prefix_refl _, Or.inr (by rw [openView, h'])⟩

theorem Extends.written {l' : Session} {w : Write} (h : l'.writes = l.writes ++ [w])
    (h' : l'.readView = l.readView) : Extends l d l' :=
  ⟨h ▸ List.prefix_append l.writes [w], Or.inl h'⟩

theorem extends_statement {α : Type} {x : Except SqlError α × Session × Database}
    (h : Extends l d x.2.1) : Extends l d (statement env l d x).2.1 := by
  unfold statement
  split
  · exact Extends.refl l d
  · exact h

theorem extends_insert {α : Type} {check : Except SqlError Unit} {row : α} {w : Write}
    {l' : Session} {d' : Database} (h : l'.writes = l.writes) (h' : l'.readView = l.readView) :
    Extends l d (insert check row w l' d').2.1 := by
  unfold insert
  split
  · exact .kept h h'
  · exact .written (w := w) (congrArg (· ++ [w]) h) h'

theorem extends_refresh {α : Type} {row : Option α} {l' : Session} (h : Extends l d l') :
    Extends l d (refresh row l l' d).2.1 := by
  unfold refresh
  split
  · exact Extends.refl l d
  · exact h

variable [Collation]

theorem extends_exec {c : Call} (hc : c.isWork) : Extends l d (exec env c l d).2.1 := by
  cases c with
  | commit => exact absurd rfl hc.1
  | rollback => exact absurd rfl hc.2.1
  | close => exact absurd rfl hc.2.2
  | select q =>
      obtain ⟨hview, _, hwrites⟩ := q.load_keeps l (q.eval (l.view d))
      exact extends_statement (.opened hwrites hview)
  | getMember w u =>
      simp only [exec, getMember]
      split
      · exact Extends.refl l d
      · refine extends_statement ?_
        split
        · exact .opened rfl rfl
        · exact .opened rfl rfl
  | memberAttributes w u =>
      simp only [exec, memberAttributes]
      split
      · exact Extends.refl l d
      · exact Extends.refl l d
  | lockMember w u =>
      refine extends_statement ?_
      unfold lockMember
      split
      · exact .kept rfl rfl
      · exact Extends.refl l d
  | lockTask w t =>
      refine extends_statement ?_
      unfold lockTask
      split
      · exact .kept rfl rfl
      · exact Extends.refl l d
  | insertUser username hashed => exact extends_statement (extends_insert rfl rfl)
  | insertWorkspace name creator => exact extends_statement (extends_insert rfl rfl)
  | insertMember w u role => exact extends_statement (extends_insert rfl rfl)
  | insertTask w creator data => exact extends_statement (extends_insert rfl rfl)
  | flushMemberRole w u role =>
      simp only [exec, flushMemberRole]
      split
      · exact Extends.refl l d
      · split
        · exact Extends.refl l d
        · refine extends_statement ?_
          split
          · exact Extends.refl l d
          · exact .written rfl rfl
  | flushTask t patch =>
      simp only [exec, flushTask]
      split
      · exact Extends.refl l d
      · split
        · exact Extends.refl l d
        · refine extends_statement ?_
          split
          · exact Extends.refl l d
          · split
            · exact Extends.refl l d
            · exact .written rfl rfl
  | deleteMember w u =>
      refine extends_statement ?_
      unfold deleteMember
      split
      · exact .kept rfl rfl
      · exact .written rfl rfl
  | deleteTask t =>
      refine extends_statement ?_
      unfold deleteTask
      split
      · exact .kept rfl rfl
      · exact .written rfl rfl
  | scanTasks w => exact extends_statement (Extends.refl l d)
  | clearAssignee w u t updatedAt =>
      refine extends_statement ?_
      unfold clearAssignee
      split
      · exact Extends.refl l d
      · split
        · exact .written rfl rfl
        · split
          · exact .kept rfl rfl
          · exact Extends.refl l d
  | refreshUser u => exact extends_statement (extends_refresh (.opened rfl rfl))
  | refreshWorkspace w => exact extends_statement (extends_refresh (.opened rfl rfl))
  | refreshMember w u =>
      refine extends_statement (extends_refresh ?_)
      cases (l.view d).member? w u with
      | none => exact .opened rfl rfl
      | some m => exact .opened rfl rfl
  | refreshTask t =>
      refine extends_statement (extends_refresh ?_)
      cases (l.view d).task? t with
      | none => exact .opened rfl rfl
      | some row => exact .opened rfl rfl
  | utcNow => exact Extends.refl l d
  | hashPassword password => exact Extends.refl l d
  | verifyPassword password hashed => exact Extends.refl l d
  | checkRateLimit check => exact Extends.refl l d

end Session

/-! ## Texts -/

/-- All calls of a service are work. -/
abbrev Works {α : Type} (x : Service α) : Prop := Prog.Only Call.isWork x.run

abbrev Fails {α : Type} (x : Service α) : Prop := Prog.Fails Call.isQuiet x.run

abbrev CommitsLast {α : Type} (x : Service α) : Prop :=
  Prog.CommitsLast .commit Committed.accepted Call.isWork Call.isQuiet x.run

section Texts

variable {α β : Type}

theorem fails_throw (e : Exc) : Fails (throw e : Service α) := .ret e

/-- `except ...: db.rollback(); raise`. -/
theorem fails_rollback {f : Unit → Service α} (hf : Fails (f ())) :
    Fails (call .rollback >>= f) := by
  refine .call nofun fun r => ?_
  cases r with
  | ok _ => exact hf
  | error e => exact .ret _

theorem commitsLast_throw (e : Exc) : CommitsLast (throw e : Service α) := .fails (fails_throw e)

theorem commitsLast_bind {x : Service α} {f : α → Service β} (hx : Works x)
    (hf : ∀ a, CommitsLast (f a)) : CommitsLast (x >>= f) := by
  refine hx.commitsLast fun r => ?_
  cases r with
  | ok a => exact hf a
  | error e => exact .fails (.ret e)

theorem commitsLast_commit (a : α) : CommitsLast (call .commit >>= fun _ => pure a) := by
  refine .commit (fun r hr => ⟨a, ?_⟩) fun r hr => ?_
  · rw [hr]
    rfl
  · cases r with
    | ok _ => exact absurd rfl hr
    | error e => exact .ret _

theorem commitsLast_commitOnly : CommitsLast (call .commit) := by
  refine .commit (fun r hr => ⟨(), ?_⟩) fun r hr => ?_
  · rw [hr]
    rfl
  · cases r with
    | ok _ => exact absurd rfl hr
    | error e => exact .ret _

theorem commitsLast_tryCatch {x : Service α} {f : Exc → Service α} (hx : CommitsLast x)
    (hf : ∀ e, Fails (f e)) : CommitsLast (tryCatch x f) :=
  hx.handle (fun a => ⟨a, rfl⟩) hf

theorem commitsLast_map {x : Service α} (hx : CommitsLast x) (f : α → β) :
    CommitsLast (x >>= fun a => pure (f a)) :=
  hx.handle (fun a => ⟨f a, rfl⟩) fun e => .ret e

theorem commitsLast_rollbackOnSqlError {x : Service α} (hx : CommitsLast x) :
    CommitsLast (rollbackOnSqlError x) := by
  refine commitsLast_tryCatch hx fun e => ?_
  cases e with
  | sql e => exact fails_rollback (fails_throw _)
  | app e => exact fails_throw _
  | validation => exact fails_throw _

theorem commitsLast_rollbackOnError {x : Service α} (hx : CommitsLast x) :
    CommitsLast (rollbackOnError x) := by
  refine commitsLast_tryCatch hx fun e => ?_
  cases e with
  | sql e => exact fails_rollback (fails_throw _)
  | app e => exact fails_rollback (fails_throw _)
  | validation => exact fails_throw _

end Texts

/-! ## The services -/

theorem Call.isRead.isWork {c : Call} (h : c.isRead) : c.isWork := by
  cases c with
  | commit => exact h.elim
  | rollback => exact h.elim
  | close => exact h.elim
  | _ => exact ⟨nofun, nofun, nofun⟩

theorem works_membershipRole (access : WorkspaceAccess) : Works access.membershipRole :=
  issues_membershipRole (fun _ => Call.isRead.isWork) access

theorem works_clearUnfinishedTasks (w u : Id) : Works (clearUnfinishedTasks w u) := by
  refine issues_bind (issues_call ⟨nofun, nofun, nofun⟩) fun updatedAt => ?_
  refine issues_bind (issues_call ⟨nofun, nofun, nofun⟩) fun taskIds => ?_
  refine issues_forM (fun t => ?_) taskIds
  exact issues_call ⟨nofun, nofun, nofun⟩

theorem createWorkspace_commitsLast (user : User) (name : String) :
    CommitsLast (createWorkspace user name) := by
  refine commitsLast_rollbackOnSqlError ?_
  refine commitsLast_bind (issues_call ⟨nofun, nofun, nofun⟩) fun _ => ?_
  refine commitsLast_bind (issues_call ⟨nofun, nofun, nofun⟩) fun _ => ?_
  refine commitsLast_bind (issues_call ⟨nofun, nofun, nofun⟩) fun _ => ?_
  exact commitsLast_commit _

theorem addMember_commitsLast (access : WorkspaceAccess) (username : String) (role : MemberRole) :
    CommitsLast (addMember access username role) := by
  refine commitsLast_bind (works_membershipRole access) fun _ => ?_
  refine commitsLast_bind issues_raiseIf fun _ => ?_
  refine commitsLast_tryCatch ?_ fun e => ?_
  · refine commitsLast_bind (issues_call ⟨nofun, nofun, nofun⟩) fun _ => ?_
    refine commitsLast_bind issues_orRaise fun _ => ?_
    refine commitsLast_bind (issues_call ⟨nofun, nofun, nofun⟩) fun _ => ?_
    refine commitsLast_bind issues_raiseIf fun _ => ?_
    refine commitsLast_bind (issues_call ⟨nofun, nofun, nofun⟩) fun _ => ?_
    refine commitsLast_bind (issues_call ⟨nofun, nofun, nofun⟩) fun _ => ?_
    exact commitsLast_commit _
  · cases e with
    | sql e =>
        refine fails_rollback ?_
        split
        · exact fails_throw _
        · exact fails_throw _
    | app e => exact fails_throw _
    | validation => exact fails_throw _

theorem updateMemberRole_commitsLast (access : WorkspaceAccess) (u : Id) (role : MemberRole) :
    CommitsLast (updateMemberRole access u role) := by
  refine commitsLast_rollbackOnSqlError ?_
  have hread : Works (getMemberWithUsername access.workspace.id u) :=
    issues_bind (issues_call ⟨nofun, nofun, nofun⟩) fun _ => issues_orRaise
  refine commitsLast_bind hread fun found => ?_
  obtain ⟨membership, username⟩ := found
  refine commitsLast_bind issues_raiseIf fun _ => ?_
  refine commitsLast_bind (works_membershipRole access) fun _ => ?_
  refine commitsLast_bind issues_raiseIf fun _ => ?_
  refine commitsLast_bind (issues_call ⟨nofun, nofun, nofun⟩) fun _ => ?_
  refine commitsLast_bind (issues_call ⟨nofun, nofun, nofun⟩) fun _ => ?_
  exact commitsLast_commit _

theorem removeMember_commitsLast (access : WorkspaceAccess) (u : Id) :
    CommitsLast (removeMember access u) := by
  refine commitsLast_rollbackOnError ?_
  refine commitsLast_bind (issues_call ⟨nofun, nofun, nofun⟩) fun _ => ?_
  refine commitsLast_bind issues_orRaise fun membership => ?_
  refine commitsLast_bind (works_membershipRole access) fun role => ?_
  cases removalRefused role membership.role with
  | some e => exact commitsLast_throw _
  | none =>
      refine commitsLast_bind (works_clearUnfinishedTasks _ _) fun _ => ?_
      refine commitsLast_bind (issues_call ⟨nofun, nofun, nofun⟩) fun _ => ?_
      exact commitsLast_commitOnly

theorem createTask_commitsLast (access : WorkspaceAccess) (data : TaskCreate) :
    CommitsLast (createTask access data) := by
  refine commitsLast_rollbackOnSqlError ?_
  refine commitsLast_bind (issues_call ⟨nofun, nofun, nofun⟩) fun _ => ?_
  refine commitsLast_bind (issues_call ⟨nofun, nofun, nofun⟩) fun _ => ?_
  exact commitsLast_commit _

theorem saveTask_commitsLast (t : Id) (patch : TaskPatch) : CommitsLast (saveTask t patch) := by
  refine commitsLast_bind (issues_call ⟨nofun, nofun, nofun⟩) fun _ => ?_
  refine commitsLast_bind (issues_call ⟨nofun, nofun, nofun⟩) fun _ => ?_
  exact commitsLast_commit _

theorem updateTask_commitsLast (access : WorkspaceTaskAccess) (data : TaskUpdate) :
    CommitsLast (updateTask access data) := by
  refine commitsLast_bind (works_membershipRole _) fun _ => ?_
  refine commitsLast_bind issues_raiseIf fun _ => ?_
  exact commitsLast_rollbackOnSqlError (saveTask_commitsLast _ _)

theorem deleteTask_commitsLast (access : WorkspaceTaskAccess) :
    CommitsLast (deleteTask access) := by
  refine commitsLast_bind (works_membershipRole _) fun _ => ?_
  refine commitsLast_bind issues_raiseIf fun _ => commitsLast_rollbackOnSqlError ?_
  refine commitsLast_bind (issues_call ⟨nofun, nofun, nofun⟩) fun _ => ?_
  exact commitsLast_commitOnly

/-- What a workflow service does once it has decided. -/
theorem decided_commitsLast {t : Task} {patch : TaskPatch} (decision : Decision) :
    CommitsLast (match decision with
      | .refuse e => raise e
      | .keep => keepTask t
      | .change => saveTask t.id patch) := by
  cases decision with
  | refuse e => exact commitsLast_throw _
  | keep => exact commitsLast_commit _
  | change => exact saveTask_commitsLast _ _

theorem updateTaskStatus_commitsLast (access : WorkspaceTaskAccess) (data : TaskStatusUpdate) :
    CommitsLast (updateTaskStatus access data) := by
  refine commitsLast_rollbackOnError ?_
  refine commitsLast_bind (issues_lockMembershipRows (fun _ _ => ⟨nofun, nofun, nofun⟩) _ _)
    fun _ => ?_
  refine commitsLast_bind issues_orRaise fun _ => ?_
  refine commitsLast_bind (issues_lockTask ⟨nofun, nofun, nofun⟩) fun _ => ?_
  exact decided_commitsLast _

theorem updateTaskAssignee_commitsLast (access : WorkspaceTaskAccess)
    (data : TaskAssigneeUpdate) : CommitsLast (updateTaskAssignee access data) := by
  refine commitsLast_rollbackOnError ?_
  refine commitsLast_bind (works_membershipRole _) fun _ => ?_
  refine commitsLast_bind issues_raiseIf fun _ => ?_
  refine commitsLast_bind (issues_lockMembershipRows (fun _ _ => ⟨nofun, nofun, nofun⟩) _ _)
    fun _ => ?_
  refine commitsLast_bind issues_orRaise fun _ => ?_
  refine commitsLast_bind issues_raiseIf fun _ => ?_
  refine commitsLast_bind (issues_lockTask ⟨nofun, nofun, nofun⟩) fun _ => ?_
  exact decided_commitsLast _

end TaskPlatform
