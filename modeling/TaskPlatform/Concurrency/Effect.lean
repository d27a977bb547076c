import TaskPlatform.Api.Request

/-!
# What a request commits

`Commits` lists, for each request, the rows it may write and what is known of the
committed database `d` at that moment and of the snapshot `snap` its dependencies
read.  A fact about `d` is one the request holds a lock for; everything else it
looked at is a fact about `snap` only.

`Effect` is one step of one request: all steps but a commit leave the rows alone.
-/

namespace TaskPlatform

open Transaction Relational

namespace Database

/-- Two databases differ at most in their `AUTO_INCREMENT` counters. -/
structure SameRows (d d' : Database) : Prop where
  users : d.users = d'.users
  workspaces : d.workspaces = d'.workspaces
  members : d.members = d'.members
  tasks : d.tasks = d'.tasks

/-- Users and workspaces stay as they are once they exist. -/
structure Persists (d d' : Database) : Prop where
  user : ∀ u row, d.user? u = some row → d'.user? u = some row
  workspace : ∀ w row, d.workspace? w = some row → d'.workspace? w = some row

namespace SameRows

variable {d d' d'' : Database}

theorem refl (d : Database) : SameRows d d := ⟨rfl, rfl, rfl, rfl⟩

theorem symm (h : SameRows d d') : SameRows d' d :=
  ⟨h.users.symm, h.workspaces.symm, h.members.symm, h.tasks.symm⟩

theorem trans (h : SameRows d d') (h' : SameRows d' d'') : SameRows d d'' :=
  ⟨h.users.trans h'.users, h.workspaces.trans h'.workspaces, h.members.trans h'.members,
    h.tasks.trans h'.tasks⟩

theorem user? (h : SameRows d d') (u : Id) : d.user? u = d'.user? u :=
  congrArg (Table.find? · u) h.users

theorem workspace? (h : SameRows d d') (w : Id) : d.workspace? w = d'.workspace? w :=
  congrArg (Table.find? · w) h.workspaces

theorem member? (h : SameRows d d') (w u : Id) : d.member? w u = d'.member? w u :=
  congrArg (Table.find? · (memberKey w u)) h.members

theorem task? (h : SameRows d d') (t : Id) : d.task? t = d'.task? t :=
  congrArg (Table.find? · t) h.tasks

theorem sameRow [Collation] (h : SameRows d d') (k : RowKey) : SameRow k d d' := by
  cases k with
  | user u => exact h.user? u
  | username n => exact fun u => by rw [h.users]
  | workspace w => exact h.workspace? w
  | member w u => exact h.member? w u
  | task t => exact h.task? t

theorem persists (h : SameRows d d') : Persists d d' :=
  ⟨fun u _ hu => (h.user? u).symm.trans hu, fun w _ hw => (h.workspace? w).symm.trans hw⟩

end SameRows

namespace Persists

variable {d d' d'' : Database}

theorem refl (d : Database) : Persists d d := ⟨fun _ _ h => h, fun _ _ h => h⟩

theorem trans (h : Persists d d') (h' : Persists d' d'') : Persists d d'' :=
  ⟨fun u row hu => h'.user u row (h.user u row hu),
    fun w row hw => h'.workspace w row (h.workspace w row hw)⟩

theorem user_isSome (h : Persists d d') {u : Id} (hu : (d.user? u).isSome) :
    (d'.user? u).isSome := by
  obtain ⟨row, hrow⟩ := Option.isSome_iff_exists.mp hu
  rw [h.user u row hrow]
  rfl

theorem workspace_isSome (h : Persists d d') {w : Id} (hw : (d.workspace? w).isSome) :
    (d'.workspace? w).isSome := by
  obtain ⟨row, hrow⟩ := Option.isSome_iff_exists.mp hw
  rw [h.workspace w row hrow]
  rfl

end Persists

/-- A new user or workspace takes a key that is free. -/
def Fresh (d : Database) : Write → Prop
  | .putUser row => d.user? row.id = none
  | .putWorkspace row => d.workspace? row.id = none
  | _ => True

theorem persists_apply {d : Database} {w : Write} (hw : d.Fresh w) : Persists d (d.apply w) := by
  cases w with
  | putUser row =>
      refine ⟨fun u old hu => ?_, fun _ _ h => h⟩
      rw [user?_putUser, if_neg]
      · exact hu
      · rintro rfl
        rw [show d.user? row.id = none from hw] at hu
        cases hu
  | putWorkspace row =>
      refine ⟨fun _ _ h => h, fun k old hk => ?_⟩
      rw [workspace?_putWorkspace, if_neg]
      · exact hk
      · rintro rfl
        rw [show d.workspace? row.id = none from hw] at hk
        cases hk
  | putMember row => exact ⟨fun _ _ h => h, fun _ _ h => h⟩
  | deleteMember w u => exact ⟨fun _ _ h => h, fun _ _ h => h⟩
  | putTask row => exact ⟨fun _ _ h => h, fun _ _ h => h⟩
  | deleteTask t => exact ⟨fun _ _ h => h, fun _ _ h => h⟩

/-- The writes of a transaction, applied in turn, take free keys. -/
def FreshAll (d : Database) : List Write → Prop
  | [] => True
  | w :: ws => d.Fresh w ∧ (d.apply w).FreshAll ws

theorem persists_applyAll {d : Database} {ws : List Write} (h : d.FreshAll ws) :
    Persists d (d.applyAll ws) := by
  induction ws generalizing d with
  | nil => exact Persists.refl d
  | cons w ws ih => exact (persists_apply h.1).trans (ih h.2)

/-- Writes of memberships and tasks need no free key. -/
theorem freshAll_of_forall {ws : List Write} (h : ∀ w ∈ ws, ∀ d : Database, d.Fresh w) :
    ∀ d : Database, d.FreshAll ws := by
  induction ws with
  | nil => exact fun _ => trivial
  | cons w ws ih =>
      intro d
      exact ⟨h w List.mem_cons_self d, ih (fun w' hw' => h w' (List.mem_cons_of_mem w hw')) _⟩

section Collation

variable [Collation]

theorem sameRow_refl (k : RowKey) (d : Database) : SameRow k d d :=
  (SameRows.refl d).sameRow k

theorem sameRow_trans {k : RowKey} {d d' d'' : Database} (h : SameRow k d d')
    (h' : SameRow k d' d'') : SameRow k d d'' := by
  cases k with
  | user u => exact Eq.trans h h'
  | username n => exact fun u => (h u).trans (h' u)
  | workspace w => exact Eq.trans h h'
  | member w u => exact Eq.trans h h'
  | task t => exact Eq.trans h h'

/-- A write changes only the rows of its keys. -/
theorem sameRow_apply {d : Database} {w : Write} (hw : d.Fresh w) {k : RowKey}
    (hk : k ∉ w.keys) : SameRow k d (d.apply w) := by
  cases w with
  | putUser row =>
      cases k with
      | user u =>
          have hu : u ≠ row.id := fun h => hk (by rw [h]; exact List.mem_cons_self)
          exact ((user?_putUser d row u).trans (if_neg hu)).symm
      | username n =>
          have hn : Collation.weight row.username ≠ n := fun h => hk (by simp [Write.keys, h])
          intro u
          refine and_congr_left fun hu => ?_
          rw [apply, Table.mem_put]
          constructor
          · intro hm
            refine Or.inr ⟨hm, fun hid => ?_⟩
            have := Table.find?_key d.users hm
            rw [hid] at this
            rw [show d.users.find? (Keyed.key row) = none from hw] at this
            cases this
          · rintro (rfl | ⟨hm, _⟩)
            · exact absurd hu hn
            · exact hm
      | workspace w => exact rfl
      | member w u => exact rfl
      | task t => exact rfl
  | putWorkspace row =>
      cases k with
      | workspace w =>
          have h : w ≠ row.id := fun h => hk (by simp [Write.keys, h])
          exact ((workspace?_putWorkspace d row w).trans (if_neg h)).symm
      | username n => exact fun _ => Iff.rfl
      | user u => exact rfl
      | member w u => exact rfl
      | task t => exact rfl
  | putMember row =>
      cases k with
      | member w u =>
          have h : ¬ (w = row.workspaceId ∧ u = row.userId) := fun h =>
            hk (by simp [Write.keys, h.1, h.2])
          exact ((member?_putMember d row w u).trans (if_neg h)).symm
      | username n => exact fun _ => Iff.rfl
      | user u => exact rfl
      | workspace w => exact rfl
      | task t => exact rfl
  | deleteMember w' u' =>
      cases k with
      | member w u =>
          have h : ¬ (w = w' ∧ u = u') := fun h => hk (by simp [Write.keys, h.1, h.2])
          exact ((member?_deleteMember d w' u' w u).trans (if_neg h)).symm
      | username n => exact fun _ => Iff.rfl
      | user u => exact rfl
      | workspace w => exact rfl
      | task t => exact rfl
  | putTask row =>
      cases k with
      | task t =>
          have h : t ≠ row.id := fun h => hk (by simp [Write.keys, h])
          exact ((task?_putTask d row t).trans (if_neg h)).symm
      | username n => exact fun _ => Iff.rfl
      | user u => exact rfl
      | workspace w => exact rfl
      | member w u => exact rfl
  | deleteTask t' =>
      cases k with
      | task t =>
          have h : t ≠ t' := fun h => hk (by simp [Write.keys, h])
          exact ((task?_deleteTask d t' t).trans (if_neg h)).symm
      | username n => exact fun _ => Iff.rfl
      | user u => exact rfl
      | workspace w => exact rfl
      | member w u => exact rfl

theorem sameRow_applyAll {d : Database} {ws : List Write} (h : d.FreshAll ws) {k : RowKey}
    (hk : ∀ w ∈ ws, k ∉ w.keys) : SameRow k d (d.applyAll ws) := by
  induction ws generalizing d with
  | nil => exact sameRow_refl k d
  | cons w ws ih =>
      exact sameRow_trans (sameRow_apply h.1 (hk w List.mem_cons_self))
        (ih h.2 fun w' hw' => hk w' (List.mem_cons_of_mem w hw'))

/-- The user a token subject resolves to. -/
def actor? (d : Database) (subject : Option String) : Option User :=
  subject.bind d.userByUsername?

end Collation
end Database

variable [Collation]

open Database

/-- The user behind a token and his membership, as the dependencies of a
workspace route read them. -/
structure Actor (snap : Database) (subject : Option String) (w : Id) (user : User)
    (membership : WorkspaceMember) : Prop where
  token : snap.actor? subject = some user
  workspace : (snap.workspace? w).isSome
  member : snap.member? w user.id = some membership

/-- The user a request acts for: the one its token resolved to in the snapshot. -/
def Session.actor? (l : Session) (request : Request) : Option User :=
  l.readView.bind fun snap => snap.actor? request.subject

/-- The write of the bulk update of `remove_member` for one task. -/
def clearWrite (updatedAt : Timestamp) (t : Task) : Write :=
  .putTask { t with assigneeId := none, updatedAt := updatedAt }

/-! ### The bulk update -/

section Cleared

variable {d : Database} {updatedAt : Timestamp} {cleared : List Task} {t w u : Id}

omit [Collation] in
theorem freshAll_cleared (cleared : List Task) (d : Database) :
    d.FreshAll (cleared.map (clearWrite updatedAt)) := by
  refine freshAll_of_forall (fun w hw _ => ?_) d
  obtain ⟨a, _, rfl⟩ := List.mem_map.mp hw
  trivial

/-- The bulk update changes the tasks it cleared and nothing else. -/
theorem sameRow_cleared {k : RowKey} (hk : ∀ a ∈ cleared, k ≠ .task a.id) :
    SameRow k d (d.applyAll (cleared.map (clearWrite updatedAt))) := by
  refine sameRow_applyAll (freshAll_cleared cleared d) fun w hw hkey => ?_
  obtain ⟨a, ha, rfl⟩ := List.mem_map.mp hw
  exact hk a ha (List.mem_singleton.mp hkey)

theorem task?_of_not_cleared (ht : t ∉ cleared.map Task.id) :
    (d.applyAll (cleared.map (clearWrite updatedAt))).task? t = d.task? t := by
  have hsame : SameRow (.task t) d (d.applyAll (cleared.map (clearWrite updatedAt))) :=
    sameRow_cleared fun a ha hk => ht (by
      rw [RowKey.task.inj hk]
      exact List.mem_map_of_mem ha)
  exact hsame.symm

theorem assigneeId_of_cleared (ht : t ∈ cleared.map Task.id) {row : Task}
    (hrow : (d.applyAll (cleared.map (clearWrite updatedAt))).task? t = some row) :
    row.assigneeId = none := by
  induction cleared generalizing d with
  | nil => cases ht
  | cons a rest ih =>
      rw [List.map_cons, applyAll_cons] at hrow
      by_cases hrest : t ∈ rest.map Task.id
      · exact ih hrest hrow
      · have hid : t = a.id := (List.mem_cons.mp ht).resolve_right hrest
        rw [task?_of_not_cleared hrest, clearWrite, task?_putTask, if_pos hid] at hrow
        cases hrow
        rfl

/-- A task after a removal: as it was, or cleared. -/
theorem task?_removal {row : Task}
    (hrow : (d.applyAll (cleared.map (clearWrite updatedAt) ++ [.deleteMember w u])).task? t =
      some row) :
    (t ∉ cleared.map Task.id ∧ d.task? t = some row) ∨ row.assigneeId = none := by
  rw [applyAll_append] at hrow
  have hrow : (d.applyAll (cleared.map (clearWrite updatedAt))).task? t = some row := hrow
  by_cases ht : t ∈ cleared.map Task.id
  · exact Or.inr (assigneeId_of_cleared ht hrow)
  · rw [task?_of_not_cleared ht] at hrow
    exact Or.inl ⟨ht, hrow⟩

theorem task?_cleared {row : Task} (hrow : ∀ a ∈ cleared, a.id = t → a = row)
    (ht : t ∈ cleared.map Task.id) :
    (d.applyAll (cleared.map (clearWrite updatedAt))).task? t =
      some { row with assigneeId := none, updatedAt := updatedAt } := by
  induction cleared generalizing d with
  | nil => cases ht
  | cons a rest ih =>
      rw [List.map_cons, applyAll_cons]
      by_cases hrest : t ∈ rest.map Task.id
      · exact ih (fun b hb => hrow b (List.mem_cons_of_mem a hb)) hrest
      · have hid : a.id = t := ((List.mem_cons.mp ht).resolve_right hrest).symm
        rw [task?_of_not_cleared hrest, clearWrite, task?_putTask, if_pos hid.symm,
          hrow a List.mem_cons_self hid]

/-- What a removal makes of a task that is there. -/
theorem task?_removal_of_some (updatedAt : Timestamp) {row : Task}
    (hcleared : ∀ a ∈ cleared, d.task? a.id = some a ∧ holdsUnfinished w u a = true)
    (hrow : d.task? t = some row) :
    (d.applyAll (cleared.map (clearWrite updatedAt) ++ [.deleteMember w u])).task? t = some row ∨
      (holdsUnfinished w u row = true ∧
        (d.applyAll (cleared.map (clearWrite updatedAt) ++ [.deleteMember w u])).task? t =
          some { row with assigneeId := none, updatedAt := updatedAt }) := by
  rw [applyAll_append]
  show (d.applyAll (cleared.map (clearWrite updatedAt))).task? t = some row ∨ _ ∧
    (d.applyAll (cleared.map (clearWrite updatedAt))).task? t = _
  by_cases ht : t ∈ cleared.map Task.id
  · have hsame : ∀ a ∈ cleared, a.id = t → a = row := by
      intro a ha hid
      have htask := (hcleared a ha).1
      rw [hid, hrow, Option.some.injEq] at htask
      exact htask.symm
    obtain ⟨a, ha, hid⟩ := List.mem_map.mp ht
    refine Or.inr ⟨?_, task?_cleared hsame ht⟩
    rw [← hsame a ha hid]
    exact (hcleared a ha).2
  · rw [task?_of_not_cleared ht]
    exact Or.inl hrow

theorem member?_removal (w' u' : Id) :
    (d.applyAll (cleared.map (clearWrite updatedAt) ++ [.deleteMember w u])).member? w' u' =
      if w' = w ∧ u' = u then none else d.member? w' u' := by
  have hsame : SameRow (.member w' u') d (d.applyAll (cleared.map (clearWrite updatedAt))) :=
    sameRow_cleared fun _ _ hk => by cases hk
  rw [applyAll_append, applyAll_cons, applyAll_nil, member?_deleteMember]
  rw [show (d.applyAll (cleared.map (clearWrite updatedAt))).member? w' u' = d.member? w' u' from
    hsame.symm]

theorem workspace?_removal (w' : Id) :
    (d.applyAll (cleared.map (clearWrite updatedAt) ++ [.deleteMember w u])).workspace? w' =
      d.workspace? w' := by
  have hsame : SameRow (.workspace w') d (d.applyAll (cleared.map (clearWrite updatedAt))) :=
    sameRow_cleared fun _ _ hk => by cases hk
  rw [applyAll_append]
  exact hsame.symm

end Cleared

/-- A task's row at the end of a bulk update that was scanning for the unfinished
tasks of user `u`: either it was cleared, or when it was looked at it held
nothing to clear and the lock on `u`'s membership was already taken. -/
def Passed (rely : RowKey → Database → Database → Prop) (w u : Id) (cleared : List Task)
    (d : Database) (t : Id) : Prop :=
  t ∈ cleared.map Task.id ∨
    ∃ d₀, rely (.member w u) d₀ d ∧ ∀ row, d₀.task? t = some row → holdsUnfinished w u row = false

/-- The rows a request commits, with what holds when it does. -/
inductive Commits (rely : RowKey → Database → Database → Prop) (snap : Database)
    (held : RowKey → Prop) (d : Database) : Request → List Write → Prop where
  | createUser {ip : String} {body : UserCreate} {row : User}
      (hfree : d.user? row.id = none) :
      Commits rely snap held d (.createUser ip (some body)) [.putUser row]
  | createWorkspace {subject : Option String} {body : WorkspaceCreate} {user : User}
      {workspace : Workspace} {m : WorkspaceMember}
      (hactor : snap.actor? subject = some user) (huser : (d.user? user.id).isSome)
      (hfree : d.workspace? workspace.id = none)
      (hcreator : workspace.createdById = user.id)
      (hm : m.workspaceId = workspace.id ∧ m.userId = user.id ∧ m.role = .owner) :
      Commits rely snap held d (.createWorkspace subject (some body))
        [.putWorkspace workspace, .putMember m]
  | addMember {subject : Option String} {w : Id} {body : WorkspaceMemberCreate} {user : User}
      {membership m : WorkspaceMember}
      (hactor : Actor snap subject w user membership)
      (hrole : canAddMember membership.role body.role.1 = true)
      (hm : m.workspaceId = w ∧ m.role = body.role.1)
      (habsent : d.member? w m.userId = none)
      (hworkspace : (d.workspace? w).isSome) (huser : (d.user? m.userId).isSome) :
      Commits rely snap held d (.addMember subject w (some body)) [.putMember m]
  | updateMemberRole {subject : Option String} {w u : Id} {body : WorkspaceMemberRoleUpdate}
      {user : User} {membership old row : WorkspaceMember} {now : Timestamp}
      (hactor : Actor snap subject w user membership)
      (hold : snap.member? w u = some old) (howner : old.role ≠ .owner)
      (hrole : canUpdateMemberRole membership.role old.role body.role.1 = true)
      (hrow : d.member? w u = some row) :
      Commits rely snap held d (.updateMemberRole subject w u (some body))
        [.putMember { row with role := body.role.1, updatedAt := now }]
  | removeMember {subject : Option String} {w u : Id} {user : User}
      {membership row : WorkspaceMember} {cleared : List Task} {now : Timestamp}
      (hactor : Actor snap subject w user membership) (hself : u ≠ user.id)
      (hrow : d.member? w u = some row)
      (hrole : canRemoveMember membership.role row.role = true)
      (hcleared : ∀ t ∈ cleared, d.task? t.id = some t ∧ holdsUnfinished w u t = true)
      (hpassed : ∀ t, Passed rely w u cleared d t) :
      Commits rely snap held d (.removeMember subject w u)
        (cleared.map (clearWrite now) ++ [.deleteMember w u])
  | createTask {subject : Option String} {w : Id} {body : TaskCreate} {user : User}
      {membership : WorkspaceMember} {row : Task}
      (hactor : Actor snap subject w user membership)
      (hfree : d.task? row.id = none)
      (hrow : row.workspaceId = w ∧ row.creatorId = user.id ∧ row.assigneeId = none ∧
        row.status = .todo)
      (hworkspace : (d.workspace? w).isSome) (huser : (d.user? user.id).isSome) :
      Commits rely snap held d (.createTask subject w (some body)) [.putTask row]
  | updateTask {subject : Option String} {w t : Id} {body : TaskUpdate} {user : User}
      {membership : WorkspaceMember} {old row : Task} {now : Timestamp}
      (hactor : Actor snap subject w user membership)
      (hold : snap.taskIn? t w = some old)
      (hrole : canEditTask membership.role user.id old.creatorId = true)
      (hrow : d.task? t = some row) :
      Commits rely snap held d (.updateTask subject w t (some body))
        [.putTask { (body.patch.dirty old).apply row with updatedAt := now }]
  | updateTaskStatus {subject : Option String} {w t : Id} {body : TaskStatusUpdate}
      {user : User} {membership m : WorkspaceMember} {row : Task} {now : Timestamp}
      (hactor : Actor snap subject w user membership)
      (hm : d.member? w user.id = some m) (hrow : d.taskIn? t w = some row)
      (hdecide : decideStatus m.role user.id row body.status = .change) :
      Commits rely snap held d (.updateTaskStatus subject w t (some body))
        [.putTask { row with status := body.status, updatedAt := now }]
  | updateTaskAssignee {subject : Option String} {w t : Id} {body : TaskAssigneeUpdate}
      {user : User} {membership m : WorkspaceMember} {row : Task}
      {locked : List WorkspaceMember} {now : Timestamp}
      (hactor : Actor snap subject w user membership)
      (hm : d.member? w user.id = some m ∧ held (.member w user.id))
      (hlocked : ∀ a x, membershipOf locked a = some x →
        d.member? w a = some x ∧ held (.member w a))
      (hrow : d.taskIn? t w = some row)
      (hdecide : decideAssignee m.role user.id row body.assigneeId locked = .change) :
      Commits rely snap held d (.updateTaskAssignee subject w t (some body))
        [.putTask { row with assigneeId := body.assigneeId, updatedAt := now }]
  | deleteTask {subject : Option String} {w t : Id} {user : User}
      {membership : WorkspaceMember} {old row : Task}
      (hactor : Actor snap subject w user membership)
      (hold : snap.taskIn? t w = some old)
      (hrole : canDeleteTask membership.role user.id old.creatorId = true)
      (hrow : d.task? t = some row) :
      Commits rely snap held d (.deleteTask subject w t) [.deleteTask t]

/-- One step of a request under a protocol: it leaves the rows alone, or it is a
commit of rows that `Commits` allows. -/
inductive Effect (P : Protocol Request Session Database RowKey) (request : Request)
    (l : Session) (d d' : Database) : Prop where
  | quiet (h : SameRows d d')
  | commit (snap : Database) (hview : l.readView = some snap) (hinv : P.inv snap)
      (hevolve : P.evolve snap d) (h : Commits P.rely snap l.Holds d request l.writes)
      (hd' : d' = l.current d)

theorem Commits.freshAll {rely : RowKey → Database → Database → Prop} {snap d : Database}
    {held : RowKey → Prop} {request : Request} {ws : List Write}
    (h : Commits rely snap held d request ws) : d.FreshAll ws := by
  cases h with
  | createUser hfree => exact ⟨hfree, trivial⟩
  | createWorkspace _ _ hfree => exact ⟨hfree, trivial, trivial⟩
  | removeMember _ _ _ _ _ _ =>
      refine freshAll_of_forall (fun w hw d => ?_) d
      rcases List.mem_append.mp hw with hw | hw
      · obtain ⟨t, _, rfl⟩ := List.mem_map.mp hw
        trivial
      · rw [List.mem_singleton.mp hw]
        trivial
  | addMember => exact ⟨trivial, trivial⟩
  | updateMemberRole => exact ⟨trivial, trivial⟩
  | createTask => exact ⟨trivial, trivial⟩
  | updateTask => exact ⟨trivial, trivial⟩
  | updateTaskStatus => exact ⟨trivial, trivial⟩
  | updateTaskAssignee => exact ⟨trivial, trivial⟩
  | deleteTask => exact ⟨trivial, trivial⟩

namespace Effect

variable {P : Protocol Request Session Database RowKey} {request : Request} {l : Session}
  {d d' : Database}

theorem persists (h : Effect P request l d d') : Persists d d' := by
  cases h with
  | quiet h => exact h.persists
  | commit snap _ _ _ h hd' =>
      rw [hd']
      exact persists_applyAll h.freshAll

/-- A step leaves the rows alone that its transaction has no lock for. -/
theorem sameRow (h : Effect P request l d d') {k : RowKey} (hk : ¬ l.Holds k) :
    SameRow k d d' := by
  cases h with
  | quiet h => exact h.sameRow k
  | commit snap _ _ _ h hd' =>
      rw [hd']
      exact sameRow_applyAll h.freshAll fun w hw hkw => hk (Or.inr ⟨w, hw, hkw⟩)

end Effect
end TaskPlatform
