import Mathlib.Logic.Equiv.Basic
import TaskPlatform.Confidentiality.Sight

/-!
# Databases a user cannot tell apart

Two databases are the same for a user if they are the same in his workspaces, up
to a `Renaming` of identifiers.  Well-formed ones agree within his sight.
-/

namespace TaskPlatform

open Relational Database

/-- An exchange of identifiers of workspaces and of tasks. -/
structure Renaming where
  workspace : Equiv.Perm Id
  task : Equiv.Perm Id

namespace Renaming

def none : Renaming := ⟨Equiv.refl Id, Equiv.refl Id⟩

variable (ρ : Renaming)

def workspaceRow (w : Workspace) : Workspace := { w with id := ρ.workspace w.id }

def member (m : WorkspaceMember) : WorkspaceMember :=
  { m with workspaceId := ρ.workspace m.workspaceId }

def taskRow (t : Task) : Task :=
  { t with id := ρ.task t.id, workspaceId := ρ.workspace t.workspaceId }

def workspaceResponse (w : WorkspaceResponse) : WorkspaceResponse :=
  { w with id := ρ.workspace w.id }

def taskResponse (t : TaskResponse) : TaskResponse :=
  { t with id := ρ.task t.id, workspaceId := ρ.workspace t.workspaceId }

def body : Body → Body
  | .user u => .user u
  | .token subject => .token subject
  | .workspace w => .workspace (ρ.workspaceResponse w)
  | .workspaces p => .workspaces { p with items := p.items.map ρ.workspaceResponse }
  | .member m => .member m
  | .members p => .members p
  | .task t => .task (ρ.taskResponse t)
  | .tasks p => .tasks { p with items := p.items.map ρ.taskResponse }
  | .noContent => .noContent

variable {ρ}

theorem workspaceRow_of_fixed {w : Workspace} (h : ρ.workspace w.id = w.id) :
    ρ.workspaceRow w = w := by rw [workspaceRow, h]

theorem member_of_fixed {m : WorkspaceMember} (h : ρ.workspace m.workspaceId = m.workspaceId) :
    ρ.member m = m := by rw [member, h]

theorem taskRow_of_fixed {t : Task} (hw : ρ.workspace t.workspaceId = t.workspaceId)
    (ht : ρ.task t.id = t.id) : ρ.taskRow t = t := by rw [taskRow, hw, ht]

/-! Rows that are found under identifiers that stay. -/

section Fixed

variable {d : Database} {w v t : Id}

theorem map_member?_of_fixed (hw : ρ.workspace w = w) :
    (d.member? w v).map ρ.member = d.member? w v := by
  cases hrow : d.member? w v with
  | none => rfl
  | some row =>
      have hid : row.workspaceId = w := (key_of_member? hrow).1
      exact congrArg some (member_of_fixed (by rw [hid, hw]))

theorem map_workspace?_of_fixed (hw : ρ.workspace w = w) :
    (d.workspace? w).map ρ.workspaceRow = d.workspace? w := by
  cases hrow : d.workspace? w with
  | none => rfl
  | some row =>
      have hid : row.id = w := id_of_workspace? hrow
      exact congrArg some (workspaceRow_of_fixed (by rw [hid, hw]))

theorem map_taskIn?_of_fixed (hw : ρ.workspace w = w) (ht : ρ.task t = t) :
    (d.taskIn? t w).map ρ.taskRow = d.taskIn? t w := by
  cases hrow : d.taskIn? t w with
  | none => rfl
  | some row =>
      obtain ⟨htask, hworkspace⟩ := taskIn?_eq_some.mp hrow
      have hid : row.id = t := id_of_task? htask
      exact congrArg some (taskRow_of_fixed (by rw [hworkspace, hw]) (by rw [hid, ht]))

end Fixed

variable (ρ)

/-- Only identifiers that one of two databases allocates next are exchanged. -/
structure Fresh (d d' : Database) : Prop where
  workspace : ∀ w, ρ.workspace w ≠ w → w = d.nextWorkspaceId ∨ w = d'.nextWorkspaceId
  task : ∀ t, ρ.task t ≠ t → t = d.nextTaskId ∨ t = d'.nextTaskId

theorem fresh_none (d d' : Database) : none.Fresh d d' :=
  ⟨fun _ h => absurd rfl h, fun _ h => absurd rfl h⟩

theorem map_member_none (o : Option WorkspaceMember) : o.map none.member = o := by
  cases o <;> rfl

theorem map_workspaceRow_none (o : Option Workspace) : o.map none.workspaceRow = o := by
  cases o <;> rfl

theorem map_taskRow_none (o : Option Task) : o.map none.taskRow = o := by
  cases o <;> rfl

theorem body_none (b : Body) : none.body b = b := by
  have hworkspace : none.workspaceResponse = id := rfl
  have htask : none.taskResponse = id := rfl
  cases b with
  | workspaces p => simp only [body, hworkspace, List.map_id]
  | tasks p => simp only [body, htask, List.map_id]
  | _ => rfl

end Renaming

/-- Two databases are the same for a user: his own row, his memberships, and in
every workspace he is a member of the workspace, its memberships with the members'
names, and its tasks. -/
structure SameSight (ρ : Renaming) (u : Id) (d d' : Database) : Prop where
  user : d.user? u = d'.user? u
  own : ∀ w, d'.member? (ρ.workspace w) u = (d.member? w u).map ρ.member
  workspace : ∀ w, (d.member? w u).isSome →
    d'.workspace? (ρ.workspace w) = (d.workspace? w).map ρ.workspaceRow
  member : ∀ w v, (d.member? w u).isSome →
    d'.member? (ρ.workspace w) v = (d.member? w v).map ρ.member
  username : ∀ w v, (d.member? w u).isSome → (d.member? w v).isSome →
    (d.user? v).map (·.username) = (d'.user? v).map (·.username)
  task : ∀ t w, (d.member? w u).isSome →
    d'.taskIn? (ρ.task t) (ρ.workspace w) = (d.taskIn? t w).map ρ.taskRow

/-- What the constraints of the schema give every state of the database. -/
structure WellFormed [Collation] (d : Database) : Prop where
  usernames : ∀ r ∈ d.users.rows, ∀ r' ∈ d.users.rows,
    Collation.weight r.username = Collation.weight r'.username → r = r'
  members : ∀ m ∈ d.members.rows, (d.workspace? m.workspaceId).isSome ∧ (d.user? m.userId).isSome
  tasks : ∀ t ∈ d.tasks.rows, (d.workspace? t.workspaceId).isSome ∧
    (d.user? t.creatorId).isSome ∧ ∀ a ∈ t.assigneeId, (d.user? a).isSome
  nextWorkspaceId : ∀ w ∈ d.workspaces.rows, w.id < d.nextWorkspaceId
  nextTaskId : ∀ t ∈ d.tasks.rows, t.id < d.nextTaskId

section Sights

variable [Collation] {S : Sight} {d d' : Database}

namespace WellFormed

theorem of_member (hd : WellFormed d) {w v : Id} (h : (d.member? w v).isSome) :
    (d.workspace? w).isSome ∧ (d.user? v).isSome := by
  obtain ⟨m, hm⟩ := Option.isSome_iff_exists.mp h
  have hrefers := hd.members m (Table.mem_of_find? hm)
  rwa [(key_of_member? hm).1, (key_of_member? hm).2] at hrefers

theorem of_task (hd : WellFormed d) {t : Id} {row : Task} (h : d.task? t = some row) :
    (d.workspace? row.workspaceId).isSome ∧ (d.user? row.creatorId).isSome ∧
      ∀ a ∈ row.assigneeId, (d.user? a).isSome :=
  hd.tasks row (Table.mem_of_find? h)

theorem workspace?_fresh (hd : WellFormed d) : d.workspace? d.nextWorkspaceId = none :=
  Table.find?_eq_none.mpr fun w hw => (hd.nextWorkspaceId w hw).ne

theorem task?_fresh (hd : WellFormed d) : d.task? d.nextTaskId = none :=
  Table.find?_eq_none.mpr fun t ht => (hd.nextTaskId t ht).ne

theorem taskIn?_fresh (hd : WellFormed d) (w : Id) : d.taskIn? d.nextTaskId w = none := by
  rw [taskIn?, hd.task?_fresh]
  rfl

/-- Nothing refers to a workspace before it exists. -/
theorem member?_fresh (hd : WellFormed d) (v : Id) : d.member? d.nextWorkspaceId v = none := by
  refine Option.not_isSome_iff_eq_none.mp fun h => ?_
  have hworkspace := (hd.of_member h).1
  rw [hd.workspace?_fresh] at hworkspace
  cases hworkspace

theorem taskIn?_freshWorkspace (hd : WellFormed d) (t : Id) :
    d.taskIn? t d.nextWorkspaceId = none := by
  cases h : d.taskIn? t d.nextWorkspaceId with
  | none => rfl
  | some row =>
      obtain ⟨hrow, hw⟩ := taskIn?_eq_some.mp h
      have hworkspace := (hd.of_task hrow).1
      rw [hw, hd.workspace?_fresh] at hworkspace
      cases hworkspace

end WellFormed

theorem Agree.sameSight (h : Agree S d d') : SameSight .none S.user.id d d' where
  user := h.self.1.trans h.self.2.symm
  own := fun w => (h.own w).symm.trans (Renaming.map_member_none _).symm
  workspace := fun w hw =>
    (h.workspace w (h.sees w hw)).symm.trans (Renaming.map_workspaceRow_none _).symm
  member := fun w v hw => (h.member w v (h.sees w hw)).symm.trans (Renaming.map_member_none _).symm
  username := fun w v hw hv => h.username v (h.named w v (h.sees w hw) hv)
  task := fun t w hw => (h.taskIn t w (h.sees w hw)).symm.trans (Renaming.map_taskRow_none _).symm

/-- The sight of a user of two databases. -/
def sightOf (u : User) (d d' : Database) : Sight where
  user := u
  workspaces := fun w => (d.member? w u.id).isSome
  tasks := fun t => ∃ w row, (d.member? w u.id).isSome ∧ d.taskIn? t w = some row
  named := fun v => v = u.id ∨ ∃ w, (d.member? w u.id).isSome ∧ (d.member? w v).isSome
  users := fun v => (v = u.id ∨ ∃ w, (d.member? w u.id).isSome ∧ (d.member? w v).isSome) ∨
    ((d.user? v).isSome ∧ (d'.user? v).isSome)
  users_of_named := Or.inl
  user_named := Or.inl rfl

theorem userByUsername?_of_mem (hd : WellFormed d) {u : User} (hu : u ∈ d.users.rows)
    {name : String} (hname : Collation.weight name = Collation.weight u.username) :
    d.userByUsername? name = some u := by
  unfold userByUsername?
  cases hfind : d.users.rows.find? fun r =>
      Collation.weight r.username = Collation.weight name with
  | none =>
      have hnot := List.find?_eq_none.mp hfind u hu
      simp [hname] at hnot
  | some r =>
      have hr : Collation.weight r.username = Collation.weight name := by
        simpa using List.find?_some hfind
      rw [hd.usernames r (List.mem_of_find?_eq_some hfind) u hu (hr.trans hname)]

theorem agree_of_sameSight (hd : WellFormed d) (hd' : WellFormed d') {u : User}
    (hu : d.user? u.id = some u) (hs : SameSight .none u.id d d') :
    Agree (sightOf u d d') d d' := by
  have hmember : ∀ w v, (d.member? w u.id).isSome → d.member? w v = d'.member? w v := fun w v hw =>
    ((hs.member w v hw).trans (Renaming.map_member_none _)).symm
  have htaskIn : ∀ t w, (d.member? w u.id).isSome → d.taskIn? t w = d'.taskIn? t w :=
    fun t w hw => ((hs.task t w hw).trans (Renaming.map_taskRow_none _)).symm
  have hu' : d'.user? u.id = some u := hs.user.symm.trans hu
  have hnamed : ∀ v, (sightOf u d d').named v → (d.user? v).isSome ∧ (d'.user? v).isSome := by
    rintro v (rfl | ⟨w, hw, hv⟩)
    · rw [hu, hu']
      exact ⟨rfl, rfl⟩
    · exact ⟨(hd.of_member hv).2, (hd'.of_member (by rw [← hmember w v hw]; exact hv)).2⟩
  exact
    { self := ⟨hu, hu'⟩
      token := fun name hname => ⟨userByUsername?_of_mem hd (Table.mem_of_find? hu) hname,
        userByUsername?_of_mem hd' (Table.mem_of_find? hu') hname⟩
      own := fun w => ((hs.own w).trans (Renaming.map_member_none _)).symm
      sees := fun w hw => hw
      workspace := fun w hw =>
        ((hs.workspace w hw).trans (Renaming.map_workspaceRow_none _)).symm
      member := hmember
      named := fun w v hw hv => Or.inr ⟨w, hw, hv⟩
      username := by
        rintro v (rfl | ⟨w, hw, hv⟩)
        · rw [hu, hu']
        · exact hs.username w v hw hv
      users := by
        rintro v (hv | hv)
        · exact hnamed v hv
        · exact hv
      task := by
        rintro t ⟨w, row, hw, hrow⟩
        have hrow' := (htaskIn t w hw).symm.trans hrow
        rw [(taskIn?_eq_some.mp hrow).1, (taskIn?_eq_some.mp hrow').1]
      taskIn := htaskIn
      tasks := fun t w row hw hrow => ⟨w, row, hw, hrow⟩
      refers := by
        rintro t row ⟨w, row', hw, hrow'⟩ hrow
        have hrow'' := (htaskIn t w hw).symm.trans hrow'
        obtain ⟨htask', hworkspace⟩ := taskIn?_eq_some.mp hrow''
        obtain ⟨htask, _⟩ := taskIn?_eq_some.mp hrow'
        cases hrow.symm.trans htask
        obtain ⟨_, hcreator, hassignee⟩ := hd.of_task hrow
        obtain ⟨_, hcreator', hassignee'⟩ := hd'.of_task htask'
        refine ⟨?_, Or.inr ⟨hcreator, hcreator'⟩, fun a ha =>
          Or.inr ⟨hassignee a ha, hassignee' a ha⟩⟩
        rw [hworkspace]
        exact hw }

end Sights
end TaskPlatform
