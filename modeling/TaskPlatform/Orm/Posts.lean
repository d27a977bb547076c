import TaskPlatform.Orm.Session

/-!
# What a call writes

A call adds at most one write to its session.  A row it writes is new, under the next
id of its table and past the constraints, or it is a current row with some of its
columns changed.  The invariants of written rows are read off `posts_exec`, which is
the one case split over the calls.
-/

namespace TaskPlatform
namespace Session

open Database

/-- A new row is written if its check passes, and its id is used up in any case. -/
def Inserts (check : Except SqlError Unit) (w : Write) (l l' : Session) : Prop :=
  (check = .ok () ∧ l'.writes = l.writes ++ [w]) ∨ l'.writes = l.writes

/-- The writes and the committed database of a session after one call. -/
inductive Posts [Collation] (l : Session) (d : Database) (l' : Session) (d' : Database) : Prop where
  | kept (hl : l'.writes = l.writes) (hd : d' = d)
  | dropped (hl : l'.writes = []) (hd : d' = d)
  | committed (hl : l'.writes = []) (hd : d' = l.current d)
  | newUser (row : User) (hid : row.id = d.nextUserId)
      (hl : Inserts ((l.current d).checkUser row) (.putUser row) l l')
      (hd : d' = { d with nextUserId := d.nextUserId + 1 })
  | newWorkspace (row : Workspace) (hid : row.id = d.nextWorkspaceId)
      (hl : Inserts ((l.current d).checkWorkspace row) (.putWorkspace row) l l')
      (hd : d' = { d with nextWorkspaceId := d.nextWorkspaceId + 1 })
  | newMember (row : WorkspaceMember)
      (hl : Inserts ((l.current d).checkMember row) (.putMember row) l l') (hd : d' = d)
  | newTask (row : Task) (hid : row.id = d.nextTaskId)
      (hl : Inserts ((l.current d).checkNewTask row) (.putTask row) l l')
      (hd : d' = { d with nextTaskId := d.nextTaskId + 1 })
  | role (old : WorkspaceMember) (role : MemberRole) (now : Timestamp)
      (hold : (l.current d).member? old.workspaceId old.userId = some old)
      (hl : l'.writes = l.writes ++ [.putMember { old with role := role, updatedAt := now }])
      (hd : d' = d)
  | changed (old : Task) (patch : TaskPatch) (now : Timestamp)
      (hold : (l.current d).task? old.id = some old)
      (hcheck : (l.current d).checkTask { patch.apply old with updatedAt := now } = .ok ())
      (hl : l'.writes = l.writes ++ [.putTask { patch.apply old with updatedAt := now }])
      (hd : d' = d)
  | cleared (old : Task) (now : Timestamp) (hold : (l.current d).task? old.id = some old)
      (hl : l'.writes = l.writes ++ [.putTask { old with assigneeId := none, updatedAt := now }])
      (hd : d' = d)
  | memberGone (w u : Id) (hl : l'.writes = l.writes ++ [.deleteMember w u]) (hd : d' = d)
  | taskGone (t : Id) (hl : l'.writes = l.writes ++ [.deleteTask t]) (hd : d' = d)

section Posts

variable [Collation] {α : Type} {env : Env} {l l' : Session} {d d' : Database}

theorem posts_statement {x : Except SqlError α × Session × Database} (h : Posts l d x.2.1 x.2.2) :
    Posts l d (statement env l d x).2.1 (statement env l d x).2.2 := by
  unfold statement
  split
  · exact .kept rfl rfl
  · exact h

omit [Collation] in
theorem inserts_insert {check : Except SqlError Unit} {row : α} {w : Write}
    (hl : l'.writes = l.writes) : Inserts check w l (insert check row w l' d').2.1 := by
  unfold insert
  split
  · exact Or.inr hl
  · exact Or.inl ⟨rfl, congrArg (· ++ [w]) hl⟩

omit [Collation] in
theorem insert_shared {check : Except SqlError Unit} {row : α} {w : Write} :
    (insert check row w l d).2.2 = d := by
  unfold insert
  split
  · rfl
  · rfl

theorem posts_refresh {row : Option α} (hl : l'.writes = l.writes) :
    Posts l d (refresh row l l' d).2.1 (refresh row l l' d).2.2 := by
  unfold refresh
  split
  · exact .kept rfl rfl
  · exact .kept hl rfl

theorem posts_flushMemberRole (w u : Id) (role : MemberRole) :
    Posts l d (flushMemberRole w u role env l d).2.1 (flushMemberRole w u role env l d).2.2 := by
  unfold flushMemberRole
  split
  · exact .kept rfl rfl
  · split
    · exact .kept rfl rfl
    · refine posts_statement ?_
      split
      · exact .kept rfl rfl
      · rename_i old hold
        obtain ⟨hw, hu⟩ := key_of_member? hold
        refine .role old role env.now ?_ rfl rfl
        rw [hw, hu]
        exact hold

theorem posts_flushTask (t : Id) (patch : TaskPatch) :
    Posts l d (flushTask t patch env l d).2.1 (flushTask t patch env l d).2.2 := by
  unfold flushTask
  split
  · exact .kept rfl rfl
  · simp only
    split
    · exact .kept rfl rfl
    · refine posts_statement ?_
      split
      · exact .kept rfl rfl
      · rename_i old hold
        split
        · exact .kept rfl rfl
        · rename_i hcheck
          refine .changed old _ env.now ?_ hcheck rfl rfl
          rw [id_of_task? hold]
          exact hold

theorem posts_clearAssignee (w u t : Id) (updatedAt : Timestamp) :
    Posts l d (clearAssignee w u t updatedAt env l d).2.1
      (clearAssignee w u t updatedAt env l d).2.2 := by
  unfold clearAssignee
  split
  · exact .kept rfl rfl
  · rename_i old hold
    split
    · refine .cleared old updatedAt ?_ rfl rfl
      rw [id_of_task? hold]
      exact hold
    · split
      · exact .kept rfl rfl
      · exact .kept rfl rfl

theorem posts_exec (c : Call) : Posts l d (exec env c l d).2.1 (exec env c l d).2.2 := by
  cases c with
  | select q => exact posts_statement (.kept (q.load_keeps l (q.eval (l.view d))).2.2 rfl)
  | getMember w u =>
      simp only [exec, getMember]
      split
      · exact .kept rfl rfl
      · refine posts_statement ?_
        split
        · exact .kept rfl rfl
        · exact .kept rfl rfl
  | memberAttributes w u =>
      simp only [exec, memberAttributes]
      split
      · exact .kept rfl rfl
      · exact .kept rfl rfl
  | lockMember w u =>
      refine posts_statement ?_
      unfold lockMember
      split
      · exact .kept rfl rfl
      · exact .kept rfl rfl
  | lockTask w t =>
      refine posts_statement ?_
      unfold lockTask
      split
      · exact .kept rfl rfl
      · exact .kept rfl rfl
  | insertUser username hashed =>
      exact posts_statement (.newUser _ rfl (inserts_insert rfl) insert_shared)
  | insertWorkspace name creator =>
      exact posts_statement (.newWorkspace _ rfl (inserts_insert rfl) insert_shared)
  | insertMember w u role =>
      exact posts_statement (.newMember _ (inserts_insert rfl) insert_shared)
  | insertTask w creator data =>
      exact posts_statement (.newTask _ rfl (inserts_insert rfl) insert_shared)
  | flushMemberRole w u role => exact posts_flushMemberRole w u role
  | flushTask t patch => exact posts_flushTask t patch
  | deleteMember w u =>
      refine posts_statement ?_
      unfold deleteMember
      split
      · exact .kept rfl rfl
      · exact .memberGone w u rfl rfl
  | deleteTask t =>
      refine posts_statement ?_
      unfold deleteTask
      split
      · exact .kept rfl rfl
      · exact .taskGone t rfl rfl
  | scanTasks w => exact posts_statement (.kept rfl rfl)
  | clearAssignee w u t updatedAt => exact posts_statement (posts_clearAssignee w u t updatedAt)
  | refreshUser u => exact posts_statement (posts_refresh rfl)
  | refreshWorkspace w => exact posts_statement (posts_refresh rfl)
  | refreshMember w u =>
      refine posts_statement (posts_refresh ?_)
      cases (l.view d).member? w u with
      | none => rfl
      | some m => rfl
  | refreshTask t =>
      refine posts_statement (posts_refresh ?_)
      cases (l.view d).task? t with
      | none => rfl
      | some row => rfl
  | commit => exact posts_statement (.committed rfl rfl)
  | rollback => exact .dropped rfl rfl
  | close => exact .dropped rfl rfl
  | utcNow => exact .kept rfl rfl
  | hashPassword password => exact .kept rfl rfl
  | verifyPassword password hashed => exact .kept rfl rfl
  | checkRateLimit check => exact .kept rfl rfl

end Posts

end Session
end TaskPlatform
