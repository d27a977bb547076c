import TaskPlatform.Api.Request

/-!
# What a user may see

`Sight` fixes what belongs to a user's view: the workspaces he is a member of,
their tasks, the users whose names he reads there, and the users those rows refer
to.  `Agree` relates two databases that cannot be told apart within a sight, and
`Sight.Allows` is what may be written to both without their coming apart.
-/

namespace TaskPlatform

open Relational Database

/-- What a user may learn of a database. -/
structure Sight where
  user : User
  workspaces : Id → Prop
  tasks : Id → Prop
  /-- The users whose names he may read. -/
  named : Id → Prop
  /-- The users he may infer to exist. -/
  users : Id → Prop
  users_of_named : ∀ {v}, named v → users v
  user_named : named user.id

section Agree

variable [Collation]

/-- Two databases that are the same within a sight, which contains whatever a row
within it refers to. -/
structure Agree (S : Sight) (d d' : Database) : Prop where
  self : d.user? S.user.id = some S.user ∧ d'.user? S.user.id = some S.user
  token : ∀ name, Collation.weight name = Collation.weight S.user.username →
    d.userByUsername? name = some S.user ∧ d'.userByUsername? name = some S.user
  own : ∀ w, d.member? w S.user.id = d'.member? w S.user.id
  sees : ∀ w, (d.member? w S.user.id).isSome → S.workspaces w
  workspace : ∀ w, S.workspaces w → d.workspace? w = d'.workspace? w
  member : ∀ w v, S.workspaces w → d.member? w v = d'.member? w v
  named : ∀ w v, S.workspaces w → (d.member? w v).isSome → S.named v
  username : ∀ v, S.named v → (d.user? v).map (·.username) = (d'.user? v).map (·.username)
  users : ∀ v, S.users v → (d.user? v).isSome ∧ (d'.user? v).isSome
  task : ∀ t, S.tasks t → d.task? t = d'.task? t
  taskIn : ∀ t w, S.workspaces w → d.taskIn? t w = d'.taskIn? t w
  tasks : ∀ t w row, S.workspaces w → d.taskIn? t w = some row → S.tasks t
  refers : ∀ t row, S.tasks t → d.task? t = some row →
    S.workspaces row.workspaceId ∧ S.users row.creatorId ∧ ∀ a ∈ row.assigneeId, S.users a

/-- What may be written to two databases that agree. -/
def Sight.Allows (S : Sight) : Write → Prop
  | .putUser _ | .putWorkspace _ => False
  | .putMember m => S.workspaces m.workspaceId ∧ S.named m.userId
  | .putTask row => S.tasks row.id ∧ S.workspaces row.workspaceId ∧ S.users row.creatorId ∧
      ∀ a ∈ row.assigneeId, S.users a
  | .deleteMember _ _ | .deleteTask _ => True

omit [Collation] in
theorem taskIn?_putTask (d : Database) (row : Task) (t w : Id) :
    (d.apply (.putTask row)).taskIn? t w =
      if t = row.id then (if row.workspaceId = w then some row else none) else d.taskIn? t w := by
  unfold taskIn?
  rw [task?_putTask]
  split_ifs with ht hw
  · simp [hw]
  · simp [hw]
  · rfl

variable {S : Sight} {d d' : Database}

/-- One membership that both databases store or delete. -/
theorem Agree.withMember (h : Agree S d d') {members members' : Table WorkspaceMember} {w u : Id}
    {changed : Option WorkspaceMember}
    (hd : ∀ w' v, { d with members := members }.member? w' v =
      if w' = w ∧ v = u then changed else d.member? w' v)
    (hd' : ∀ w' v, { d' with members := members' }.member? w' v =
      if w' = w ∧ v = u then changed else d'.member? w' v)
    (hchanged : changed.isSome → S.workspaces w ∧ S.named u) :
    Agree S { d with members := members } { d' with members := members' } where
  self := h.self
  token := h.token
  own := by
    intro w'
    rw [hd, hd', h.own]
  sees := by
    intro w' hmem
    rw [hd] at hmem
    split_ifs at hmem with heq
    · rw [heq.1]
      exact (hchanged hmem).1
    · exact h.sees w' hmem
  workspace := h.workspace
  member := by
    intro w' v hsee
    rw [hd, hd', h.member w' v hsee]
  named := by
    intro w' v hsee hmem
    rw [hd] at hmem
    split_ifs at hmem with heq
    · rw [heq.2]
      exact (hchanged hmem).2
    · exact h.named w' v hsee hmem
  username := h.username
  users := h.users
  task := h.task
  taskIn := h.taskIn
  tasks := h.tasks
  refers := h.refers

/-- One task that both databases store or delete. -/
theorem Agree.withTask (h : Agree S d d') {tasks tasks' : Table Task} {k : Id}
    {changed : Option Task}
    (hd : ∀ t, { d with tasks := tasks }.task? t = if t = k then changed else d.task? t)
    (hd' : ∀ t, { d' with tasks := tasks' }.task? t = if t = k then changed else d'.task? t)
    (hchanged : ∀ row ∈ changed, row.id = k ∧ S.Allows (.putTask row)) :
    Agree S { d with tasks := tasks } { d' with tasks := tasks' } where
  self := h.self
  token := h.token
  own := h.own
  sees := h.sees
  workspace := h.workspace
  member := h.member
  named := h.named
  username := h.username
  users := h.users
  task := by
    intro t ht
    rw [hd, hd', h.task t ht]
  taskIn := by
    intro t w hw
    unfold taskIn?
    rw [hd, hd']
    split_ifs
    · rfl
    · exact h.taskIn t w hw
  tasks := by
    intro t w row hw hrow
    obtain ⟨hrow, hworkspace⟩ := taskIn?_eq_some.mp hrow
    rw [hd] at hrow
    split_ifs at hrow with ht
    · obtain ⟨hid, hallows⟩ := hchanged row hrow
      rw [ht, ← hid]
      exact hallows.1
    · exact h.tasks t w row hw (taskIn?_eq_some.mpr ⟨hrow, hworkspace⟩)
  refers := by
    intro t row ht hrow
    rw [hd] at hrow
    split_ifs at hrow with heq
    · exact (hchanged row hrow).2.2
    · exact h.refers t row ht hrow

/-- Allowed writes keep two databases in agreement. -/
theorem Agree.apply (h : Agree S d d') {w : Write} (hw : S.Allows w) :
    Agree S (d.apply w) (d'.apply w) := by
  cases w with
  | putUser u => exact hw.elim
  | putWorkspace w => exact hw.elim
  | putMember m =>
      exact h.withMember (member?_putMember d m) (member?_putMember d' m) fun _ => hw
  | deleteMember w u =>
      exact h.withMember (member?_deleteMember d w u) (member?_deleteMember d' w u) nofun
  | putTask row =>
      refine h.withTask (task?_putTask d row) (task?_putTask d' row) fun row' hrow' => ?_
      cases hrow'
      exact ⟨rfl, hw⟩
  | deleteTask t => exact h.withTask (task?_deleteTask d t) (task?_deleteTask d' t) nofun

theorem Agree.applyAll (h : Agree S d d') {ws : List Write} (hws : ∀ w ∈ ws, S.Allows w) :
    Agree S (d.applyAll ws) (d'.applyAll ws) := by
  induction ws generalizing d d' with
  | nil => exact h
  | cons w ws ih =>
      exact ih (h.apply (hws w List.mem_cons_self)) fun w' hw' =>
        hws w' (List.mem_cons_of_mem w hw')

/-! ## Queries within a sight -/

/-- The plain queries that ask for nothing outside a sight. -/
def Sight.MayAsk (S : Sight) : Query → Prop
  | .userByUsername name => Collation.weight name = Collation.weight S.user.username
  | .workspaceAccess _ u | .countMemberships u | .workspaces u _ _ => u = S.user.id
  | .taskIn _ w | .memberWithUsername w _ | .countTasks w _ | .tasks w _ | .countMembers w
  | .members w _ _ => S.workspaces w

theorem Agree.memberRows (h : Agree S d d') {w : Id} (hw : S.workspaces w) :
    (d.members.rows.filter fun m => m.workspaceId = w) =
      d'.members.rows.filter fun m => m.workspaceId = w := by
  refine Table.filter_congr fun m hm => ?_
  have hmw : m.workspaceId = w := by simpa using hm
  have hsame : d.members.find? (memberKey m.workspaceId m.userId) =
      d'.members.find? (memberKey m.workspaceId m.userId) := h.member _ _ (by rw [hmw]; exact hw)
  have hiff : ∀ e : Database, m ∈ e.members.rows ↔
      e.members.find? (memberKey m.workspaceId m.userId) = some m := fun e => by
    rw [Table.find?_eq_some, key_member]
    exact (and_iff_left rfl).symm
  rw [hiff, hiff, hsame]

theorem Agree.ownRows (h : Agree S d d') :
    (d.members.rows.filter fun m => m.userId = S.user.id) =
      d'.members.rows.filter fun m => m.userId = S.user.id := by
  refine Table.filter_congr fun m hm => ?_
  have hmu : m.userId = S.user.id := by simpa using hm
  have hsame : d.members.find? (memberKey m.workspaceId S.user.id) =
      d'.members.find? (memberKey m.workspaceId S.user.id) := h.own _
  have hiff : ∀ e : Database, m ∈ e.members.rows ↔
      e.members.find? (memberKey m.workspaceId S.user.id) = some m := fun e => by
    rw [Table.find?_eq_some, key_member, hmu]
    exact (and_iff_left rfl).symm
  rw [hiff, hiff, hsame]

theorem Agree.taskRows (h : Agree S d d') {w : Id} (hw : S.workspaces w) {p : Task → Bool}
    (hp : ∀ t, p t = true → t.workspaceId = w) :
    d.tasks.rows.filter p = d'.tasks.rows.filter p := by
  refine Table.filter_congr fun t ht => ?_
  have hsame : d.taskIn? t.id w = d'.taskIn? t.id w := h.taskIn t.id w hw
  have hiff : ∀ e : Database, t ∈ e.tasks.rows ↔ e.taskIn? t.id w = some t := fun e => by
    rw [taskIn?_eq_some, task?, Table.find?_eq_some, key_task]
    exact ⟨fun hm => ⟨⟨hm, rfl⟩, hp t ht⟩, fun hm => hm.1.1⟩
  rw [hiff, hiff, hsame]

omit [Collation] in
theorem matchesQuery_workspace {w : Id} {q : TaskListQuery} {t : Task}
    (h : matchesQuery w q t = true) : t.workspaceId = w := by
  simp only [matchesQuery, Bool.and_eq_true, decide_eq_true_eq] at h
  exact h.1.1.1.1

theorem Agree.workspaceAccess? (h : Agree S d d') (w : Id) :
    d.workspaceAccess? w S.user.id = d'.workspaceAccess? w S.user.id := by
  unfold Database.workspaceAccess?
  rw [← h.own w]
  cases hm : d.member? w S.user.id with
  | none => cases d.workspace? w <;> cases d'.workspace? w <;> rfl
  | some m => rw [h.workspace w (h.sees w (by rw [hm]; rfl))]

theorem Agree.memberWithUsername? (h : Agree S d d') {w : Id} (hw : S.workspaces w) (v : Id) :
    d.memberWithUsername? w v = d'.memberWithUsername? w v := by
  unfold Database.memberWithUsername?
  rw [← h.member w v hw]
  cases hm : d.member? w v with
  | none => cases d.user? v <;> cases d'.user? v <;> rfl
  | some m =>
      have hname := h.username v (h.named w v hw (by rw [hm]; rfl))
      revert hname
      cases d.user? v <;> cases d'.user? v <;> simp

theorem Agree.selectMembers (h : Agree S d d') {w : Id} (hw : S.workspaces w) (limit offset : Nat) :
    d.selectMembers w limit offset = d'.selectMembers w limit offset := by
  unfold Database.selectMembers
  rw [← h.memberRows hw]
  refine congrArg (fun l : List (WorkspaceMember × String) =>
    pageOf limit offset (l.insertionSort fun a b => memberBefore a b)) ?_
  refine List.filterMap_congr fun m hm => ?_
  obtain ⟨hm, hmw⟩ := List.mem_filter.mp hm
  have hmw : m.workspaceId = w := by simpa using hmw
  have hmember : d.member? w m.userId = some m := by
    rw [member?, Table.find?_eq_some, key_member, hmw]
    exact ⟨hm, rfl⟩
  have hname := h.username m.userId (h.named w m.userId hw (by rw [hmember]; rfl))
  have hpair := congrArg (Option.map fun name => (m, name)) hname
  rw [Option.map_map, Option.map_map] at hpair
  exact hpair

theorem Agree.selectWorkspaces (h : Agree S d d') (limit offset : Nat) :
    d.selectWorkspaces S.user.id limit offset = d'.selectWorkspaces S.user.id limit offset := by
  unfold Database.selectWorkspaces
  rw [← h.ownRows]
  refine congrArg (fun l : List (Workspace × MemberRole) =>
    pageOf limit offset (l.insertionSort fun a b => b.1.id ≤ a.1.id)) ?_
  refine List.filterMap_congr fun m hm => ?_
  obtain ⟨hm, hmu⟩ := List.mem_filter.mp hm
  have hmu : m.userId = S.user.id := by simpa using hmu
  have hmember : d.member? m.workspaceId S.user.id = some m := by
    rw [member?, Table.find?_eq_some, key_member, hmu]
    exact ⟨hm, rfl⟩
  rw [h.workspace m.workspaceId (h.sees m.workspaceId (by rw [hmember]; rfl))]

/-- Databases that agree answer the queries within the sight alike. -/
theorem Agree.eval (h : Agree S d d') {q : Query} (hq : S.MayAsk q) : q.eval d = q.eval d' := by
  cases q with
  | userByUsername name => exact (h.token name hq).1.trans (h.token name hq).2.symm
  | workspaceAccess w u =>
      cases hq
      exact h.workspaceAccess? w
  | taskIn t w => exact h.taskIn t w hq
  | memberWithUsername w v => exact h.memberWithUsername? hq v
  | countTasks w query =>
      exact congrArg List.length (h.taskRows hq fun _ ht => matchesQuery_workspace ht)
  | tasks w query =>
      refine congrArg (fun l : List Task => pageOf query.limit query.offset
        (l.insertionSort fun a b => taskBefore query a b)) ?_
      exact h.taskRows hq fun _ ht => matchesQuery_workspace ht
  | countMembers w => exact congrArg List.length (h.memberRows hq)
  | members w limit offset => exact h.selectMembers hq limit offset
  | countMemberships u =>
      cases hq
      exact congrArg List.length h.ownRows
  | workspaces u limit offset =>
      cases hq
      exact h.selectWorkspaces limit offset

/-- A row that refers to the sight only passes the constraints of both databases
or of none. -/
theorem Agree.checkTask (h : Agree S d d') {row : Task} (hworkspace : S.workspaces row.workspaceId)
    (hcreator : S.users row.creatorId) (hassignee : ∀ a ∈ row.assigneeId, S.users a) :
    d.checkTask row = d'.checkTask row := by
  have hexists : ∀ v, S.users v → (d.user? v).isNone = false ∧ (d'.user? v).isNone = false := by
    intro v hv
    obtain ⟨hd, hd'⟩ := h.users v hv
    rw [Option.isNone_eq_false_iff, Option.isNone_eq_false_iff]
    exact ⟨hd, hd'⟩
  unfold Database.checkTask
  rw [← h.workspace row.workspaceId hworkspace, (hexists _ hcreator).1, (hexists _ hcreator).2]
  cases ha : row.assigneeId with
  | none => rfl
  | some a =>
      have hassigned := hexists a (hassignee a ha)
      simp only [hassigned.1, hassigned.2]

end Agree
end TaskPlatform
