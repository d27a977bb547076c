import Mathlib.Order.WithBot
import TaskPlatform.Concurrency.LockOrder
import TaskPlatform.Transaction.Schedule
import TaskPlatform.Transaction.WaitsFor

/-!
# No deadlock

Every request takes its locks in order.  Two removals in their bulk updates never wait
for each other: a task both match is assigned to the user whose membership both hold.
-/

namespace TaskPlatform

open Transaction Service Database Relational

theorem isLockFree_commit : Call.isLockFree .commit := fun _ h => h

theorem lockFree_of_read (c : Call) (h : c.isRead) : c.isLockFree := h.isLockFree

theorem issues_rollback {α : Type} {f : Unit → Service α} (hf : Issues Call.isLockFree (f ())) :
    Issues Call.isLockFree (call .rollback >>= f) :=
  issues_bind (issues_call fun _ h => h) fun _ => hf

/-- After the statement that writes a task. -/
theorem issues_refreshTask (t : Id) :
    Issues Call.isLockFree
      (do
        let refreshed ← call (.refreshTask t)
        call .commit
        return taskData refreshed) :=
  issues_bind (issues_call (lockFree_of_read _ trivial)) fun _ =>
    issues_bind (issues_call isLockFree_commit) fun _ => issues_pure _

section Ordered

variable [Collation] {α β : Type} {l : Session} {d : Database}

/-- A session without locks. -/
def Idle (l : Session) : Prop := ∀ k, ¬ l.Holds k

theorem idle_init : Idle {} := fun _ => Session.not_holds_ended (l := {})

theorem ordered_true {x : Service α} (hx : Issues Call.isLockFree x) :
    Ordered x (fun _ _ _ => True) l d :=
  ordered_mono (ordered_lockFree hx) fun _ _ _ _ => trivial

theorem ordered_read {x : Service α} {f : α → Service β} {Q : β → Session → Database → Prop}
    (hx : Issues Call.isLockFree x) (hl : Idle l)
    (h : ∀ a l' d', Idle l' → Ordered (f a) Q l' d') : Ordered (x >>= f) Q l d :=
  ordered_bind (ordered_mono (ordered_lockFree hx) fun a l' d' hlocks =>
    h a l' d' fun k hk => hl k (hlocks k hk))

theorem ordered_tryCatch {x : Service α} {f : Exc → Service α}
    (hx : Ordered x (fun _ _ _ => True) l d) (hf : ∀ e, Issues Call.isLockFree (f e)) :
    Ordered (tryCatch x f) (fun _ _ _ => True) l d := by
  intro request
  refine (wpE_tryCatch x f).mpr (wpE_mono x (fun _ _ _ h => h) (fun e l d _ => ?_) (hx request))
  exact ordered_true (hf e) request

theorem ordered_rollbackOnSqlError {x : Service α} (hx : Ordered x (fun _ _ _ => True) l d) :
    Ordered (rollbackOnSqlError x) (fun _ _ _ => True) l d := by
  refine ordered_tryCatch hx fun e => ?_
  cases e with
  | sql e => exact issues_rollback (issues_throw _)
  | app e => exact issues_throw _
  | validation => exact issues_throw _

theorem ordered_rollbackOnError {x : Service α} (hx : Ordered x (fun _ _ _ => True) l d) :
    Ordered (rollbackOnError x) (fun _ _ _ => True) l d := by
  refine ordered_tryCatch hx fun e => ?_
  cases e with
  | sql e => exact issues_rollback (issues_throw _)
  | app e => exact issues_rollback (issues_throw _)
  | validation => exact issues_throw _

/-- A call whose locks are held already or come after all that are held. -/
theorem ordered_next {c : Call}
    (hc : ∀ k, c.mayLock k → l.Holds k ∨ ∀ k', l.Holds k' → lockRank k' < lockRank k) :
    Ordered (call c) (fun _ l' _ => ∀ k, l'.Holds k → l.Holds k ∨ c.mayLock k) l d := by
  refine ordered_call (fun env d' _ k hk => ?_) fun env d' v l' d'' _ hx k hk => ?_
  · rcases Session.holds_exec hk with hk | hk
    · exact Or.inl hk
    · exact (hc k hk).imp_right .inOrder
  · have hl' : (Session.exactMachine.exec env c l d').2.1 = l' := by rw [hx]
    exact Session.holds_exec (hl' ▸ hk)

theorem ordered_first {c : Call} {f : c.Val → Service β} (hl : Idle l)
    (hf : ∀ a, Issues Call.isLockFree (f a)) :
    Ordered (call c >>= f) (fun _ _ _ => True) l d :=
  ordered_bind (ordered_mono (ordered_next fun _ _ => Or.inr fun k' hk' => absurd hk' (hl k'))
    fun a _ _ _ => ordered_true (hf a))

/-! ## Services with one lock -/

theorem createUser_ordered (data : UserCreate) (hl : Idle l) :
    Ordered (createUser data) (fun _ _ _ => True) l d := by
  refine ordered_read (issues_call (lockFree_of_read _ trivial)) hl fun _ _ _ hl => ?_
  refine ordered_read issues_raiseIf hl fun _ _ _ hl => ?_
  refine ordered_read (issues_call (lockFree_of_read _ trivial)) hl fun hashed _ _ hl => ?_
  refine ordered_tryCatch (ordered_first hl fun row => ?_) fun e => ?_
  · exact issues_bind (issues_call isLockFree_commit) fun _ =>
      issues_call (lockFree_of_read _ trivial)
  · cases e with
    | sql e =>
        refine issues_rollback ?_
        split
        · exact issues_throw _
        · exact issues_throw _
    | app e => exact issues_throw _
    | validation => exact issues_throw _

theorem createWorkspace_ordered (user : User) (name : String) (hl : Idle l) :
    Ordered (createWorkspace user name) (fun _ _ _ => True) l d := by
  refine ordered_rollbackOnSqlError (ordered_bind ?_)
  refine ordered_mono (ordered_next fun _ _ => Or.inr fun k' hk' => absurd hk' (hl k'))
    fun workspace l₁ d₁ h₁ => ordered_bind (ordered_mono (ordered_next ?_) fun _ _ _ _ => ?_)
  · rintro _ rfl
    refine Or.inr fun k' hk' => ?_
    obtain ⟨w, rfl⟩ := (h₁ k' hk').resolve_left (hl k')
    exact Prod.Lex.toLex_lt_toLex.mpr (Or.inl Nat.one_pos)
  · exact ordered_true (issues_bind (issues_call (lockFree_of_read _ trivial)) fun _ =>
      issues_bind (issues_call isLockFree_commit) fun _ => issues_pure _)

theorem addMember_ordered (access : WorkspaceAccess) (username : String) (role : MemberRole)
    (hl : Idle l) : Ordered (addMember access username role) (fun _ _ _ => True) l d := by
  refine ordered_read (issues_membershipRole lockFree_of_read access) hl fun _ _ _ hl => ?_
  refine ordered_read issues_raiseIf hl fun _ _ _ hl => ordered_tryCatch ?_ fun e => ?_
  · refine ordered_read (issues_call (lockFree_of_read _ trivial)) hl fun _ _ _ hl => ?_
    refine ordered_read issues_orRaise hl fun _ _ _ hl => ?_
    refine ordered_read (issues_call (lockFree_of_read _ trivial)) hl fun _ _ _ hl => ?_
    refine ordered_read issues_raiseIf hl fun _ _ _ hl => ordered_first hl fun _ => ?_
    exact issues_bind (issues_call (lockFree_of_read _ trivial)) fun _ =>
      issues_bind (issues_call isLockFree_commit) fun _ => issues_pure _
  · cases e with
    | sql e =>
        refine issues_rollback ?_
        split
        · exact issues_throw _
        · exact issues_throw _
    | app e => exact issues_throw _
    | validation => exact issues_throw _

theorem updateMemberRole_ordered (access : WorkspaceAccess) (u : Id) (role : MemberRole)
    (hl : Idle l) : Ordered (updateMemberRole access u role) (fun _ _ _ => True) l d := by
  have hread : Issues Call.isLockFree (getMemberWithUsername access.workspace.id u) :=
    issues_bind (issues_call (lockFree_of_read _ trivial)) fun _ => issues_orRaise
  refine ordered_rollbackOnSqlError (ordered_read hread hl fun found _ _ hl => ?_)
  obtain ⟨membership, username⟩ := found
  refine ordered_read issues_raiseIf hl fun _ _ _ hl => ?_
  refine ordered_read (issues_membershipRole lockFree_of_read access) hl fun _ _ _ hl => ?_
  refine ordered_read issues_raiseIf hl fun _ _ _ hl => ordered_first hl fun _ => ?_
  exact issues_bind (issues_call (lockFree_of_read _ trivial)) fun _ =>
    issues_bind (issues_call isLockFree_commit) fun _ => issues_pure _

theorem createTask_ordered (access : WorkspaceAccess) (data : TaskCreate) (hl : Idle l) :
    Ordered (createTask access data) (fun _ _ _ => True) l d :=
  ordered_rollbackOnSqlError (ordered_first hl fun task => issues_refreshTask task.id)

theorem updateTask_ordered (access : WorkspaceTaskAccess) (data : TaskUpdate) (hl : Idle l) :
    Ordered (updateTask access data) (fun _ _ _ => True) l d := by
  refine ordered_read (issues_membershipRole lockFree_of_read _) hl fun _ _ _ hl => ?_
  refine ordered_read issues_raiseIf hl fun _ _ _ hl => ordered_rollbackOnSqlError ?_
  exact ordered_first hl fun _ => issues_refreshTask _

theorem deleteTask_ordered (access : WorkspaceTaskAccess) (hl : Idle l) :
    Ordered (deleteTask access) (fun _ _ _ => True) l d := by
  refine ordered_read (issues_membershipRole lockFree_of_read _) hl fun _ _ _ hl => ?_
  refine ordered_read issues_raiseIf hl fun _ _ _ hl => ordered_rollbackOnSqlError ?_
  exact ordered_first hl fun _ => issues_call isLockFree_commit

/-! ## Memberships, then the task -/

/-- Locks on memberships of one workspace, of users before those in `us`. -/
def HoldsBefore (w : Id) (us : List Id) (l : Session) : Prop :=
  ∀ k, l.Holds k → ∃ v, k = .member w v ∧ ∀ u ∈ us, v < u

theorem ordered_lockMembershipRows (w : Id) (us : List Id) (hus : us.Pairwise (· < ·))
    (hl : HoldsBefore w us l) :
    Ordered (lockMembershipRows w us) (fun _ l' _ => HoldsBefore w [] l') l d := by
  induction us generalizing l d with
  | nil => exact ordered_pure hl
  | cons u us ih =>
      obtain ⟨hu, hus⟩ := List.pairwise_cons.mp hus
      refine ordered_bind (ordered_mono (ordered_next ?_) fun row l₁ d₁ h₁ => ?_)
      · rintro _ rfl
        refine Or.inr fun k' hk' => ?_
        obtain ⟨v, rfl, hv⟩ := hl k' hk'
        exact lockRank_member_lt (hv u List.mem_cons_self)
      · refine ordered_bind (ordered_mono (ih hus fun k hk => ?_) fun _ _ _ h => ordered_pure h)
        rcases h₁ k hk with hk | hk
        · obtain ⟨v, rfl, hv⟩ := hl k hk
          exact ⟨v, rfl, fun u' hu' => hv u' (List.mem_cons_of_mem u hu')⟩
        · exact ⟨u, hk, hu⟩

theorem ordered_lockWorkspaceMemberships (w : Id) (us : List Id) (hl : Idle l) :
    Ordered (lockWorkspaceMemberships w us) (fun _ l' _ => HoldsBefore w [] l') l d := by
  refine ordered_lockMembershipRows w _ ?_ fun k hk => absurd hk (hl k)
  have hsorted : (us.dedup.insertionSort fun a b => a ≤ b).Pairwise (· ≤ ·) :=
    List.pairwise_insertionSort _ _
  have hnodup : (us.dedup.insertionSort fun a b => a ≤ b).Nodup :=
    (List.perm_insertionSort _ _).nodup_iff.mpr us.nodup_dedup
  exact hsorted.imp₂ (fun _ _ hle hne => lt_of_le_of_ne hle hne) hnodup

/-- The task comes after the memberships, and is locked when it is found. -/
theorem ordered_lockTask {w t : Id} (hl : HoldsBefore w [] l) :
    Ordered (lockTask w t) (fun row l' _ => row.id = t ∧ l'.Holds (.task t)) l d := by
  refine ordered_bind (ordered_call (fun env d' _ k hk => ?_) fun env d' v l' d'' _ hx => ?_)
  · refine (Session.holds_exec hk).imp_right fun hk => ?_
    rw [show k = .task t from hk]
    refine .inOrder fun k' hk' => ?_
    obtain ⟨v, rfl, _⟩ := hl k' hk'
    exact lockRank_member_lt_task w v t
  · refine ordered_orRaise fun row hv => ?_
    have hx := Session.statement_ok hx
    simp only [Session.lockTask] at hx
    split at hx
    · rename_i found hfound
      cases hx
      cases hv
      exact ⟨id_of_task? (taskIn?_eq_some.mp hfound).1, Session.holds_lock _ _⟩
    · cases hx
      cases hv

theorem ordered_decided {t : Id} {row : Task} (hrow : row.id = t) (hl : l.Holds (.task t))
    (decision : Decision) (patch : TaskPatch) :
    Ordered
      (match decision with
        | .refuse e => raise e
        | .keep => keepTask row
        | .change => saveTask row.id patch)
      (fun _ _ _ => True) l d := by
  cases decision with
  | refuse e => exact ordered_throw
  | keep =>
      exact ordered_true (issues_bind (issues_call isLockFree_commit) fun _ => issues_pure _)
  | change =>
      refine ordered_bind (ordered_mono (ordered_next ?_) fun _ _ _ _ =>
        ordered_true (issues_refreshTask _))
      rintro _ rfl
      rw [hrow]
      exact Or.inl hl

theorem updateTaskStatus_ordered (access : WorkspaceTaskAccess) (data : TaskStatusUpdate)
    (hl : Idle l) : Ordered (updateTaskStatus access data) (fun _ _ _ => True) l d := by
  refine ordered_rollbackOnError (ordered_bind ?_)
  refine ordered_mono (ordered_lockWorkspaceMemberships _ _ hl) fun rows l₁ d₁ h₁ => ?_
  refine ordered_bind (ordered_orRaise fun own _ => ordered_bind ?_)
  exact ordered_mono (ordered_lockTask h₁) fun row l₂ d₂ h₂ => ordered_decided h₂.1 h₂.2 _ _

theorem updateTaskAssignee_ordered (access : WorkspaceTaskAccess) (data : TaskAssigneeUpdate)
    (hl : Idle l) : Ordered (updateTaskAssignee access data) (fun _ _ _ => True) l d := by
  refine ordered_rollbackOnError ?_
  refine ordered_read (issues_membershipRole lockFree_of_read _) hl fun _ _ _ hl => ?_
  refine ordered_read issues_raiseIf hl fun _ _ _ hl => ordered_bind ?_
  refine ordered_mono (ordered_lockWorkspaceMemberships _ _ hl) fun rows l₁ d₁ h₁ => ?_
  refine ordered_bind (ordered_orRaise fun own _ => ordered_bind (ordered_raiseIf ?_))
  refine ordered_bind (ordered_mono (ordered_lockTask h₁) fun row l₂ d₂ h₂ => ?_)
  exact ordered_decided h₂.1 h₂.2 _ _

/-! ## Removal -/

theorem sweeps_of_lock {w u : Id} (hl : Idle l) (m : WorkspaceMember) :
    Sweeps w u ((l.keepMember m).lock (.member w u)) d := by
  refine ⟨Session.holds_lock _ _, fun k hk => Or.inl ?_⟩
  exact (Session.holds_of_lock hk).resolve_left (hl k)

/-- One row of the bulk update. -/
theorem ordered_clearAssignee {w u t : Id} {updatedAt : Timestamp} (hl : Sweeps w u l d) :
    Ordered (call (.clearAssignee w u t updatedAt)) (fun _ => Sweeps w u) l d := by
  -- a lock that is new is that of a task whose committed row matches
  have hnew : ∀ env d', HeldTasksStay l d d' → ∀ k,
      (Session.exactMachine.exec env (.clearAssignee w u t updatedAt) l d').2.1.Holds k →
      l.Holds k ∨ (k = .task t ∧ Matches w u d' t) := by
    intro env d' _ k hk
    by_cases hheld : l.Holds k
    · exact Or.inl hheld
    · refine Session.holds_statement hk fun hk => ?_
      unfold Session.clearAssignee at hk
      split at hk
      · exact Or.inl hk
      · rename_i row hrow
        split at hk
        · rename_i hmatch
          rcases Session.holds_written l hk rfl rfl with hk | hk
          · exact Or.inl hk
          · have hkey : k = .task t := by
              rw [← id_of_task? hrow]
              exact List.mem_singleton.mp hk
            rw [hkey] at hheld
            exact Or.inr ⟨hkey, row, (Session.task?_current hheld d').symm.trans hrow, hmatch⟩
        · exact Or.inl hk
  refine ordered_call (fun env d' hd k hk => ?_) fun env d' v l' d'' hd hx => ?_
  · refine (hnew env d' hd k hk).imp_right fun h => ?_
    exact .sweep (hl.stay hd) h.1 h.2
  · have hl' : (Session.exactMachine.exec env (.clearAssignee w u t updatedAt) l d').2.1 = l' := by
      rw [hx]
    have hrest : d'' = d' ∧ ∀ k, l.Holds k → l'.Holds k := by
      have hx := Session.statement_ok hx
      unfold Session.clearAssignee at hx
      split at hx
      · cases hx
        exact ⟨rfl, fun _ hk => hk⟩
      · split at hx
        · cases hx
          exact ⟨rfl, fun _ hk => hk.write _⟩
        · cases hx
          exact ⟨rfl, fun _ hk => hk⟩
    obtain ⟨rfl, hmore⟩ := hrest
    refine ⟨hmore _ hl.member, fun k hk => ?_⟩
    rcases hnew env d'' hd k (hl' ▸ hk) with hk | ⟨rfl, hmatch⟩
    · exact (hl.stay hd).held k hk
    · exact Or.inr ⟨t, rfl, hmatch⟩

/-- A call that leaves its session and the rows alone. -/
theorem ordered_idleCall {w u : Id} {c : Call} (hl : Sweeps w u l d)
    (hc : ∀ env d' v l' d'', Session.exactMachine.exec env c l d' = (.ok v, l', d'') →
      l' = l ∧ d'' = d') (hfree : c.isLockFree) :
    Ordered (call c) (fun _ => Sweeps w u) l d := by
  refine ordered_call (fun env d' _ k hk => ?_) fun env d' v l' d'' hd hx => ?_
  · exact Or.inl ((Session.holds_exec hk).resolve_right (hfree k))
  · obtain ⟨rfl, rfl⟩ := hc env d' v l' d'' hx
    exact hl.stay hd

theorem ordered_clearUnfinishedTasks {w u : Id} (hl : Sweeps w u l d) :
    Ordered (clearUnfinishedTasks w u) (fun _ => Sweeps w u) l d := by
  refine ordered_bind (ordered_mono (ordered_idleCall hl (fun _ _ _ _ _ hx => ?_)
    (lockFree_of_read _ trivial)) fun updatedAt l₁ d₁ h₁ => ?_)
  · cases hx
    exact ⟨rfl, rfl⟩
  refine ordered_bind (ordered_mono (ordered_idleCall h₁ (fun _ _ _ _ _ hx => ?_)
    (lockFree_of_read _ trivial)) fun taskIds l₂ d₂ h₂ => ?_)
  · cases Session.statement_ok hx
    exact ⟨rfl, rfl⟩
  intro request
  refine wpE_forM (fun _ => Sweeps w u) (fun t rest l d h => ?_) taskIds l₂ d₂ h₂
  exact ordered_clearAssignee h request

theorem removeMember_ordered (access : WorkspaceAccess) (u : Id) (hl : Idle l) :
    Ordered (removeMember access u) (fun _ _ _ => True) l d := by
  refine ordered_rollbackOnError (ordered_bind ?_)
  refine ordered_call (fun env d' _ k hk => ?_) fun env d' v l₁ d₁ _ hx => ?_
  · exact (Session.holds_exec hk).imp_right fun _ => .inOrder fun k' hk' => absurd hk' (hl k')
  refine ordered_bind (ordered_orRaise fun membership hm => ?_)
  subst hm
  have hsweeps : Sweeps access.workspace.id u l₁ d₁ := by
    have hx := Session.statement_ok hx
    unfold Session.lockMember at hx
    split at hx
    · cases hx
      exact sweeps_of_lock hl _
    · cases hx
  refine ordered_bind (ordered_bind (ordered_mono (ordered_idleCall hsweeps
    (fun _ _ _ _ _ hx => ?_) (lockFree_of_read _ trivial)) fun own l₂ d₂ h₂ => ordered_pure ?_))
  · simp only [Session.exactMachine, Session.exec, Session.memberAttributes] at hx
    split at hx
    · cases hx
      exact ⟨rfl, rfl⟩
    · cases hx
  cases removalRefused own.role membership.role with
  | some e => exact ordered_throw
  | none =>
      refine ordered_bind (ordered_mono (ordered_clearUnfinishedTasks h₂) fun _ l₃ d₃ h₃ => ?_)
      refine ordered_bind (ordered_mono (ordered_next ?_) fun _ _ _ _ =>
        ordered_true (issues_call isLockFree_commit))
      rintro _ rfl
      exact Or.inl h₃.member

/-! ## Requests -/

theorem route_ordered (request : Request) :
    Ordered request.route (fun _ _ _ => True) {} d := by
  have hidle := idle_init
  have hread := lockFree_of_read
  cases request with
  | createUser ip body =>
      refine ordered_read (issues_enforceAuthLimit hread _) hidle fun _ _ _ hl => ?_
      refine ordered_read issues_validBody hl fun data _ _ hl => ordered_bind ?_
      exact ordered_mono (createUser_ordered data hl) fun _ _ _ _ => ordered_pure trivial
  | login ip username password =>
      refine ordered_true (issues_bind (issues_enforceAuthLimit hread _) fun _ => ?_)
      refine issues_bind ?_ fun _ => issues_pure _
      refine issues_bind (issues_call (hread _ trivial)) fun _ => ?_
      refine issues_bind issues_orRaise fun _ => ?_
      refine issues_bind (issues_call (hread _ trivial)) fun _ => ?_
      exact issues_bind issues_raiseIf fun _ => issues_pure _
  | getMe subject =>
      exact ordered_true (issues_bind (issues_getCurrentUser hread _) fun _ => issues_pure _)
  | createWorkspace subject body =>
      refine ordered_read (issues_getCurrentUser hread _) hidle fun user _ _ hl => ?_
      refine ordered_read (issues_enforceWriteLimit hread _ _ _) hl fun _ _ _ hl => ?_
      refine ordered_read issues_validBody hl fun data _ _ hl => ordered_bind ?_
      exact ordered_mono (createWorkspace_ordered user _ hl) fun _ _ _ _ => ordered_pure trivial
  | listWorkspaces subject page =>
      refine ordered_true (issues_bind (issues_getCurrentUser hread _) fun _ => ?_)
      refine issues_bind issues_validBody fun _ => issues_bind ?_ fun _ => issues_pure _
      exact issues_bind (issues_call (hread _ trivial)) fun _ =>
        issues_bind (issues_call (hread _ trivial)) fun _ => issues_pure _
  | getWorkspace subject w =>
      refine ordered_true (issues_bind (issues_workspaceAccess hread _ _) fun access => ?_)
      exact issues_bind (issues_bind (issues_membershipRole hread access) fun _ => issues_pure _)
        fun _ => issues_pure _
  | listMembers subject w page =>
      refine ordered_true (issues_bind (issues_workspaceAccess hread _ _) fun _ => ?_)
      refine issues_bind issues_validBody fun _ => issues_bind ?_ fun _ => issues_pure _
      exact issues_bind (issues_call (hread _ trivial)) fun _ =>
        issues_bind (issues_call (hread _ trivial)) fun _ => issues_pure _
  | addMember subject w body =>
      refine ordered_read (issues_limitedRoleAccess hread _ _ _ _) hidle fun access _ _ hl => ?_
      refine ordered_read issues_validBody hl fun data _ _ hl => ordered_bind ?_
      exact ordered_mono (addMember_ordered access _ _ hl) fun _ _ _ _ => ordered_pure trivial
  | updateMemberRole subject w u body =>
      refine ordered_read (issues_limitedRoleAccess hread _ _ _ _) hidle fun access _ _ hl => ?_
      refine ordered_read issues_validBody hl fun data _ _ hl => ordered_bind ?_
      exact ordered_mono (updateMemberRole_ordered access _ _ hl)
        fun _ _ _ _ => ordered_pure trivial
  | removeMember subject w u =>
      refine ordered_read (issues_limitedRoleAccess hread _ _ _ _) hidle fun access _ _ hl => ?_
      refine ordered_bind ?_
      exact ordered_mono (removeMember_ordered access u hl) fun _ _ _ _ => ordered_pure trivial
  | listTasks subject w query =>
      refine ordered_true (issues_bind (issues_workspaceAccess hread _ _) fun _ => ?_)
      refine issues_bind issues_validBody fun _ => issues_bind ?_ fun _ => issues_pure _
      exact issues_bind (issues_call (hread _ trivial)) fun _ =>
        issues_bind (issues_call (hread _ trivial)) fun _ => issues_pure _
  | createTask subject w body =>
      refine ordered_read (issues_limitedWorkspaceAccess hread _ _ _) hidle
        fun access _ _ hl => ?_
      refine ordered_read issues_validBody hl fun data _ _ hl => ordered_bind ?_
      exact ordered_mono (createTask_ordered access data hl) fun _ _ _ _ => ordered_pure trivial
  | getTask subject w t =>
      exact ordered_true (issues_bind (issues_taskAccess hread _ _ _) fun _ => issues_pure _)
  | updateTask subject w t body =>
      refine ordered_read (issues_limitedTaskAccess hread _ _ _ _) hidle fun access _ _ hl => ?_
      refine ordered_read issues_validBody hl fun data _ _ hl => ordered_bind ?_
      exact ordered_mono (updateTask_ordered access data hl) fun _ _ _ _ => ordered_pure trivial
  | updateTaskStatus subject w t body =>
      refine ordered_read (issues_limitedTaskAccess hread _ _ _ _) hidle fun access _ _ hl => ?_
      refine ordered_read issues_validBody hl fun data _ _ hl => ordered_bind ?_
      exact ordered_mono (updateTaskStatus_ordered access data hl)
        fun _ _ _ _ => ordered_pure trivial
  | updateTaskAssignee subject w t body =>
      refine ordered_read (issues_limitedTaskAccess hread _ _ _ _) hidle fun access _ _ hl => ?_
      refine ordered_read issues_validBody hl fun data _ _ hl => ordered_bind ?_
      exact ordered_mono (updateTaskAssignee_ordered access data hl)
        fun _ _ _ _ => ordered_pure trivial
  | deleteTask subject w t =>
      refine ordered_read (issues_limitedTaskAccess hread _ _ _ _) hidle fun access _ _ hl => ?_
      refine ordered_bind ?_
      exact ordered_mono (deleteTask_ordered access hl) fun _ _ _ _ => ordered_pure trivial

theorem request_ordered (request : Request) :
    orderProtocol.Verified Session.exactMachine request request.program {} d := by
  refine (wp_bind _ _ _ _ _ _ _).mpr (wp_mono _ _ (fun response l d _ => ?_)
    (route_ordered request request))
  intro d' _ env _
  refine ⟨⟨trivial, trivial, fun k _ t _ => rfl, fun k hk => ?_⟩, trivial⟩
  exact absurd hk (idle_init k)

end Ordered

/-! ## No cycle -/

section Waiting

variable [Collation] {σ : System Request Call Call.Res Response Session Database}

/-- Lock `k` comes after all that process `i` holds. -/
def ComesNext (σ : System Request Call Call.Res Response Session Database) (i : Nat)
    (k : RowKey) : Prop :=
  ∀ p, σ.procs i = some p → ∀ k', p.loc.Holds k' → lockRank k' < lockRank k

open Classical in
/-- The rank of a wait: that of the lock if it comes next, and else above all. -/
noncomputable def waitRank (σ : System Request Call Call.Res Response Session Database)
    (i : Nat) (k : RowKey) (_ : Nat) : WithTop (Nat ×ₗ MemberKey) :=
  if ComesNext σ i k then lockRank k else ⊤

/-- What a process that waits out of order is doing. -/
theorem sweeps_of_not_comesNext {i : Nat} {k : RowKey}
    {p : Proc Request Call Call.Res Response Session} (hp : σ.procs i = some p)
    (ha : Acquires p.loc σ.shared k) (h : ¬ ComesNext σ i k) :
    ∃ w u t, Sweeps w u p.loc σ.shared ∧ k = .task t ∧ Matches w u σ.shared t := by
  cases ha with
  | inOrder horder =>
      refine absurd (fun p' hp' k' hk' => ?_) h
      rw [hp, Option.some.injEq] at hp'
      subst hp'
      exact horder k' hk'
  | sweep hs hk ht => exact ⟨_, _, _, hs, hk, ht⟩

/-- The waits of a coherent state rise in rank. -/
theorem acyclic_of_coherent (hσ : orderProtocol.Coherent Session.exactMachine σ) (i : Nat) :
    ¬ Relation.TransGen
      (fun i j => ∃ k, System.Waits Session.exactMachine (fun _ _ _ _ _ => True) σ i k j) i i := by
  refine acyclic_of_rank (waitRank σ) (fun i k j k' j' h h' => ?_) i
  obtain ⟨p, q, l, d₁, hij, hi, hj, hguar, hk, hfree, hheld⟩ := hσ.waits h
  obtain ⟨q', _, l', d₂, _, hj', _, hguar', hk', hfree', _⟩ := hσ.waits h'
  rw [hj, Option.some.injEq] at hj'
  subst hj'
  have hacq : Acquires p.loc σ.shared k := (hguar k hk).resolve_left hfree
  have hacq' : Acquires q.loc σ.shared k' := (hguar' k' hk').resolve_left hfree'
  by_cases hnext : ComesNext σ i k
  · rw [waitRank, if_pos hnext, waitRank]
    by_cases hnext' : ComesNext σ j k'
    · rw [if_pos hnext']
      exact WithTop.coe_lt_coe.mpr (hnext' q hj k hheld)
    · rw [if_neg hnext']
      exact WithTop.coe_lt_top _
  · -- nobody waits while holding a task that a bulk update waits for
    obtain ⟨w, u, t, hs, rfl, row, hrow, hmatch⟩ := sweeps_of_not_comesNext hi hacq hnext
    by_cases hnext' : ComesNext σ j k'
    · exact absurd (hnext' q hj _ hheld) (not_lt_of_ge (lockRank_le_task t k'))
    · obtain ⟨w', u', t', hs', _, _⟩ := sweeps_of_not_comesNext hj hacq' hnext'
      rcases hs'.held _ hheld with hkey | ⟨t'', hkey, row', hrow', hmatch'⟩
      · cases hkey
      · cases hkey
        rw [hrow, Option.some.injEq] at hrow'
        subst hrow'
        obtain ⟨hw, hu, _⟩ := holdsUnfinished_iff.mp hmatch
        obtain ⟨hw', hu', _⟩ := holdsUnfinished_iff.mp hmatch'
        have hu : u = u' := Option.some.inj (hu.symm.trans hu')
        have hw : w = w' := hw.symm.trans hw'
        rw [← hw, ← hu] at hs'
        exact absurd hs'.member (hσ.exclusive i j p q hij hi hj _ hs.member)

theorem coherent_of_reachable {allowed : Request → Prop} {d : Database}
    (hr : System.Reachable Session.exactMachine workload allowed (fun _ _ _ _ _ => True) d σ) :
    orderProtocol.Coherent Session.exactMachine σ :=
  Protocol.coherent_of_reachable (W := workload) idle_init
    (fun request _ _ _ => request_ordered request) trivial hr

/-- In no reachable state does a transaction wait, directly or through others, for
itself. -/
theorem waits_acyclic (allowed : Request → Prop) (d : Database)
    (hr : System.Reachable Session.exactMachine workload allowed (fun _ _ _ _ _ => True) d σ)
    (i : Nat) :
    ¬ Relation.TransGen
      (fun i j => ∃ k, System.Waits Session.exactMachine (fun _ _ _ _ _ => True) σ i k j) i i :=
  acyclic_of_coherent (coherent_of_reachable hr) i

end Waiting

/-! ### Two edits of one task -/

def editRequest (data : Option TaskUpdate) : Request := .updateTask (some "owner") 1 1 data

/-- The first edit has written the task, the second is about to. -/
def editSchedule (data : Option TaskUpdate) : List (Event Request Env) :=
  .spawn 0 (editRequest data) :: List.replicate 6 (.call 0 sampleEnv) ++
    .spawn 1 (editRequest data) :: List.replicate 5 (.call 1 sampleEnv)

theorem waits_acyclic_sample :
    ∃ σ : System Request Call Call.Res Response Session Database,
      (∃ k, System.Waits (@Session.exactMachine sampleCollation) (fun _ _ _ _ _ => True) σ 1 k 0) ∧
      ¬ Relation.TransGen (fun i j => ∃ k, System.Waits (@Session.exactMachine sampleCollation)
        (fun _ _ _ _ _ => True) σ i k j) 0 0 := by
  let _ := sampleCollation
  let data := TaskUpdate.validate none (some (some 2)) none
  have hwaits : (((System.replay Session.exactMachine workload Session.heldKeys 2
      (System.start sampleDatabase) (editSchedule data)).map fun σ =>
        System.isWaiting Session.exactMachine Session.heldKeys sampleEnv σ 1 (.task 1)
          0)).getD false = true := by decide +kernel
  cases hreplay : System.replay Session.exactMachine workload Session.heldKeys 2
      (System.start sampleDatabase) (editSchedule data) with
  | none =>
      rw [hreplay] at hwaits
      cases hwaits
  | some σ =>
      rw [hreplay] at hwaits
      have hruns := System.runs_of_replay (fun _ _ hk => Session.mem_heldKeys.mpr hk)
        (System.below_start 2 sampleDatabase) hreplay
      have hr : System.Reachable Session.exactMachine workload (fun _ => True)
          (fun _ _ _ _ _ => True) sampleDatabase σ :=
        hruns.reachable (fun _ _ _ _ _ => trivial) (fun _ _ _ => trivial) .start
      have hwait : System.isWaiting Session.exactMachine Session.heldKeys sampleEnv σ 1
          (.task 1) 0 = true := hwaits
      refine ⟨σ, ⟨.task 1, System.waits_of_isWaiting (fun _ _ => Session.mem_heldKeys.mp)
        (fun _ _ _ _ _ => trivial) (by decide) hwait⟩, ?_⟩
      exact waits_acyclic _ sampleDatabase hr 0

end TaskPlatform
