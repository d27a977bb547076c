import TaskPlatform.Concurrency.Access

/-!
# Sessions without writes

Until its first write, and while nobody else commits, a session shows the committed
rows whatever it has read before: its snapshot is the database, and its instances are
the rows.
-/

namespace TaskPlatform

open Database Relational

namespace Session

/-- Nothing is written, and the snapshot and the instances are the committed rows. -/
structure Mirrors (l : Session) (d : Database) : Prop where
  snapshot : ∀ snap, l.readView = some snap → snap = d
  writes : l.writes = []
  member : ∀ k m, l.members.find? k = some m → d.members.find? k = some m
  task : ∀ t row, l.tasks.find? t = some row → d.tasks.find? t = some row

/-- Instances stay in the identity map. -/
structure Keeps (l l' : Session) : Prop where
  member : ∀ k, (l.members.find? k).isSome → (l'.members.find? k).isSome
  task : ∀ t, (l.tasks.find? t).isSome → (l'.tasks.find? t).isSome

theorem Keeps.refl (l : Session) : l.Keeps l := ⟨fun _ h => h, fun _ h => h⟩

theorem Keeps.trans {l l' l'' : Session} (h : l.Keeps l') (h' : l'.Keeps l'') : l.Keeps l'' :=
  ⟨fun k hk => h'.member k (h.member k hk), fun t ht => h'.task t (h.task t ht)⟩

theorem keeps_keepMember (l : Session) (m : WorkspaceMember) : l.Keeps (l.keepMember m) := by
  refine ⟨fun k hk => ?_, fun _ ht => ht⟩
  show ((l.members.put m).find? k).isSome
  rw [Table.find?_put]
  split
  · rfl
  · exact hk

theorem keeps_keepTask (l : Session) (row : Task) : l.Keeps (l.keepTask row) := by
  refine ⟨fun _ hk => hk, fun t ht => ?_⟩
  show ((l.tasks.put row).find? t).isSome
  rw [Table.find?_put]
  split
  · rfl
  · exact ht

theorem mirrors_nil (d : Database) : ({} : Session).Mirrors d := ⟨nofun, rfl, nofun, nofun⟩

namespace Mirrors

variable {l : Session} {d : Database}

theorem current (h : l.Mirrors d) : l.current d = d := Session.current_eq h.writes

theorem readView (h : l.Mirrors d) : l.readView.getD d = d := by
  cases hview : l.readView with
  | none => rfl
  | some snap => exact h.snapshot snap hview

theorem view (h : l.Mirrors d) : l.view d = d := by
  rw [Session.view, h.readView, h.writes, applyAll_nil]

theorem openView (h : l.Mirrors d) : (l.openView d).Mirrors d :=
  ⟨fun _ hsnap => (Option.some.inj hsnap).symm.trans h.readView, h.writes, h.member, h.task⟩

theorem lock (h : l.Mirrors d) (k : RowKey) : (l.lock k).Mirrors d :=
  ⟨h.snapshot, h.writes, h.member, h.task⟩

theorem keepMember (h : l.Mirrors d) {m : WorkspaceMember} {w u : Id}
    (hm : d.member? w u = some m) : (l.keepMember m).Mirrors d := by
  refine ⟨h.snapshot, h.writes, fun k x hx => ?_, h.task⟩
  have hput : (l.members.put m).find? k = some x := hx
  rw [Table.find?_put] at hput
  split at hput
  · rename_i hk
    cases hput
    rw [hk]
    exact Table.find?_key d.members (Table.mem_of_find? hm)
  · exact h.member k x hput

theorem keepTask (h : l.Mirrors d) {row : Task} {t : Id} (hrow : d.task? t = some row) :
    (l.keepTask row).Mirrors d := by
  refine ⟨h.snapshot, h.writes, h.member, fun k x hx => ?_⟩
  have hput : (l.tasks.put row).find? k = some x := hx
  rw [Table.find?_put] at hput
  split at hput
  · rename_i hk
    cases hput
    rw [hk]
    exact Table.find?_key d.tasks (Table.mem_of_find? hrow)
  · exact h.task k x hput

/-- A committed row is its own instance. -/
theorem resolveMember (h : l.Mirrors d) {m : WorkspaceMember} (hm : m ∈ d.members.rows) :
    l.resolveMember m = m := by
  unfold Session.resolveMember
  cases hkept : l.members.find? (Keyed.key m) with
  | none => rfl
  | some x =>
      have hx := h.member _ x hkept
      rw [Table.find?_key d.members hm] at hx
      exact (Option.some.inj hx).symm

theorem resolveTask (h : l.Mirrors d) {row : Task} (hrow : row ∈ d.tasks.rows) :
    l.resolveTask row = row := by
  unfold Session.resolveTask
  cases hkept : l.tasks.find? (Keyed.key row) with
  | none => rfl
  | some x =>
      have hx := h.task _ x hkept
      rw [Table.find?_key d.tasks hrow] at hx
      exact (Option.some.inj hx).symm

theorem member_eq (h : l.Mirrors d) {w u : Id} (hown : (l.members.find? (memberKey w u)).isSome)
    {m : WorkspaceMember} (hm : d.member? w u = some m) :
    l.members.find? (memberKey w u) = some m := by
  obtain ⟨x, hx⟩ := Option.isSome_iff_exists.mp hown
  have hrow : d.member? w u = some x := h.member _ x hx
  cases hrow.symm.trans hm
  exact hx

theorem task_eq (h : l.Mirrors d) {t : Id} (hloaded : (l.tasks.find? t).isSome) {row : Task}
    (hrow : d.task? t = some row) : l.tasks.find? t = some row := by
  obtain ⟨x, hx⟩ := Option.isSome_iff_exists.mp hloaded
  have hfound : d.task? t = some x := h.task _ x hx
  cases hfound.symm.trans hrow
  exact hx

end Mirrors
end Session

/-- The tasks of a page are rows. -/
theorem mem_of_mem_selectTasks {d : Database} {w : Id} {q : TaskListQuery} {row : Task}
    (h : row ∈ d.selectTasks w q) : row ∈ d.tasks.rows := by
  have hsorted := List.mem_of_mem_drop (List.mem_of_mem_take h)
  rw [List.mem_insertionSort] at hsorted
  exact (List.mem_filter.mp hsorted).1

theorem mem_of_mem_selectMembers {d : Database} {w : Id} {limit offset : Nat}
    {p : WorkspaceMember × String} (h : p ∈ d.selectMembers w limit offset) :
    p.1 ∈ d.members.rows := by
  have hsorted := List.mem_of_mem_drop (List.mem_of_mem_take h)
  rw [List.mem_insertionSort] at hsorted
  obtain ⟨m, hm, hjoin⟩ := List.mem_filterMap.mp hsorted
  obtain ⟨u, _, rfl⟩ := Option.map_eq_some_iff.mp hjoin
  exact (List.mem_filter.mp hm).1

section Load

variable [Collation] {l : Session} {d : Database}

/-- A query of a session without writes is answered from the tables. -/
theorem Session.Mirrors.load (h : l.Mirrors d) (q : Query) :
    (q.load l (q.eval d)).1 = q.eval d ∧ (q.load l (q.eval d)).2.Mirrors d ∧
      l.Keeps (q.load l (q.eval d)).2 := by
  cases q with
  | workspaceAccess w u =>
      cases hrow : d.workspaceAccess? w u with
      | none =>
          simp only [Query.eval, hrow]
          exact ⟨rfl, h, .refl l⟩
      | some pair =>
          obtain ⟨workspace, m⟩ := pair
          obtain ⟨_, hm⟩ := workspaceAccess?_eq_some.mp hrow
          simp only [Query.eval, hrow, Query.load, h.resolveMember (Table.mem_of_find? hm),
            true_and]
          exact ⟨h.keepMember hm, keeps_keepMember l m⟩
  | taskIn t w =>
      cases hrow : d.taskIn? t w with
      | none =>
          simp only [Query.eval, hrow]
          exact ⟨rfl, h, .refl l⟩
      | some row =>
          obtain ⟨htask, _⟩ := taskIn?_eq_some.mp hrow
          simp only [Query.eval, hrow, Query.load, h.resolveTask (Table.mem_of_find? htask),
            true_and]
          exact ⟨h.keepTask htask, keeps_keepTask l row⟩
  | memberWithUsername w u =>
      cases hrow : d.memberWithUsername? w u with
      | none =>
          simp only [Query.eval, hrow]
          exact ⟨rfl, h, .refl l⟩
      | some pair =>
          obtain ⟨m, username⟩ := pair
          obtain ⟨hm, _⟩ := memberWithUsername?_eq_some.mp hrow
          simp only [Query.eval, hrow, Query.load, h.resolveMember (Table.mem_of_find? hm),
            true_and]
          exact ⟨h.keepMember hm, keeps_keepMember l m⟩
  | tasks w query =>
      refine ⟨?_, h, .refl l⟩
      show (d.selectTasks w query).map l.resolveTask = d.selectTasks w query
      conv_rhs => rw [← List.map_id (d.selectTasks w query)]
      exact List.map_congr_left fun row hrow => h.resolveTask (mem_of_mem_selectTasks hrow)
  | members w limit offset =>
      refine ⟨?_, h, .refl l⟩
      show (d.selectMembers w limit offset).map (fun p => (l.resolveMember p.1, p.2)) =
        d.selectMembers w limit offset
      conv_rhs => rw [← List.map_id (d.selectMembers w limit offset)]
      refine List.map_congr_left fun p hp => ?_
      rw [h.resolveMember (mem_of_mem_selectMembers hp)]
      rfl
  | userByUsername username => exact ⟨rfl, h, .refl l⟩
  | countTasks w query => exact ⟨rfl, h, .refl l⟩
  | countMembers w => exact ⟨rfl, h, .refl l⟩
  | countMemberships u => exact ⟨rfl, h, .refl l⟩
  | workspaces u limit offset => exact ⟨rfl, h, .refl l⟩

end Load

end TaskPlatform
