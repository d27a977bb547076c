import TaskPlatform.Migration.BackfillDowngrade
import TaskPlatform.Migration.DowngradeGuard

/-!
# What the backfill's downgrade does to the data its guard accepts

The guard says that a mapped workspace has its generated membership only, and that its
tasks are those of the mapped user.  Nothing is left then that keeps a mapped workspace,
whatever has been made besides.
-/

namespace TaskPlatform
namespace Migration
namespace Backfill

open Relational Truth

theorem detachable_of_atBackfill {s : Schema} (h : Finalize.AtBackfill s) : Detachable s := by
  refine ⟨fun col hcol => ?_, fun fk hfk hreferred => ?_, ?_⟩
  · have hall : ∀ col ∈ Finalize.backfilledSchema.columns,
        col.name ∈ assignedColumns → col.nullable = true := by decide
    exact hall col (h.columns.mem_iff.mp hcol)
  · by_cases howner : fk.constrained = .ownerId
    · rw [h.owner fk hfk howner] at hreferred
      cases hreferred
    · have hall : ∀ fk ∈ Finalize.finalSchema.foreignKeys,
          fk.referred = .workspaces → fk.constrained = .workspaceId := by decide
      have hother : fk ∈ s.foreignKeys.filter fun fk => fk.constrained ≠ .ownerId := by
        simp [hfk, howner]
      exact hall fk (h.foreignKeys.mem_iff.mp hother) hreferred
  · simp [h.map]

/-- The second set of rows is the first without the generated data. -/
structure OnlyGeneratedGone (r r' : Rows) : Prop where
  map : r'.map = ∅
  /-- The mapped workspaces were there, with the memberships of their owners. -/
  generated : ∀ m ∈ r.map.rows, (r.workspace? m.workspaceId).isSome = true ∧
    ∃ x, r.member? m.workspaceId m.userId = some x ∧ x.role = .owner
  workspace : ∀ m ∈ r.map.rows, r'.workspace? m.workspaceId = none
  member : ∀ m ∈ r.map.rows, r'.member? m.workspaceId m.userId = none
  task : ∀ t ∈ r.tasks.rows, (∃ m ∈ r.map.rows, t.workspaceId = some m.workspaceId) →
    r'.task? t.id = some
      { t with
        workspaceId := none, creatorId := none, assigneeId := none, status := none
        createdAt := none, updatedAt := none }
  otherUsers : r'.users = r.users
  otherWorkspaces : ∀ w, (∀ m ∈ r.map.rows, m.workspaceId ≠ w) → r'.workspace? w = r.workspace? w
  otherMembers : ∀ w u, (∀ m ∈ r.map.rows, ¬ (m.workspaceId = w ∧ m.userId = u)) →
    r'.member? w u = r.member? w u
  otherTasks : ∀ id, (∀ t, r.task? id = some t →
    ∀ m ∈ r.map.rows, t.workspaceId ≠ some m.workspaceId) → r'.task? id = r.task? id
  counters : r'.nextUserId = r.nextUserId ∧ r'.nextWorkspaceId = r.nextWorkspaceId ∧
    r'.nextTaskId = r.nextTaskId

section Effect

variable {r : Rows}

theorem GeneratedWorkspace.member_eq {m : Mapping} (h : GeneratedWorkspace r m)
    {x : WorkspaceMember} (hx : x ∈ r.members.rows) (hw : x.workspaceId = m.workspaceId) :
    x = ownerMembership m := by
  have hmem : x ∈ r.members.rows.filter fun x => x.workspaceId = m.workspaceId := by
    simp [hx, hw]
  rw [h.members] at hmem
  exact List.mem_singleton.mp hmem

theorem GeneratedWorkspace.member? {m : Mapping} (h : GeneratedWorkspace r m) :
    r.member? m.workspaceId m.userId = some (ownerMembership m) := by
  have hmem : ownerMembership m ∈ r.members.rows.filter fun x =>
      x.workspaceId = m.workspaceId := by
    rw [h.members]
    exact List.mem_singleton.mpr rfl
  exact Table.find?_eq_some.mpr ⟨(List.mem_filter.mp hmem).1, rfl⟩

variable (hworkspaces : ∀ m ∈ r.map.rows, GeneratedWorkspace r m)
  (howners : ∀ m ∈ r.map.rows, ∀ t ∈ r.tasks.rows, t.workspaceId = some m.workspaceId →
    t.ownerId = some m.userId)

/-- A task is cleared exactly when its workspace is a mapped one. -/
theorem cleared_eq_unassign {t : TaskRow} {m : Mapping} (hm : m ∈ r.map.rows)
    (howner : t.ownerId = some m.userId) (hw : t.workspaceId = some m.workspaceId) :
    cleared r.map.rows t = unassign t := by
  apply if_pos
  exact List.any_eq_true.mpr ⟨m, hm, inOwnersWorkspace_iff.mpr ⟨howner, hw⟩⟩

theorem cleared_eq_self {t : TaskRow} (h : ∀ m ∈ r.map.rows, t.workspaceId ≠ some m.workspaceId) :
    cleared r.map.rows t = t := by
  apply if_neg
  simp only [List.any_eq_true, not_exists, not_and]
  intro m hm hin
  exact h m hm (inOwnersWorkspace_iff.mp hin).2

include hworkspaces howners in
/-- What the statements of the downgrade leave. -/
theorem onlyGeneratedGone_reverted : OnlyGeneratedGone r (reverted r) where
  map := rfl
  generated m hm := by
    obtain ⟨user, _, hworkspace⟩ := (hworkspaces m hm).workspace
    exact ⟨Option.isSome_of_eq_some hworkspace, ownerMembership m, (hworkspaces m hm).member?, rfl⟩
  workspace m hm := by
    apply Table.find?_deleteWhere_eq_none
    intro w hw
    have hid : w.id = m.workspaceId := Table.key_of_find? hw
    exact isMapped_iff.mpr ⟨m, hm, hid.symm⟩
  member m hm := by
    apply Table.find?_deleteWhere_eq_none
    intro x hx
    have hw : x.workspaceId = m.workspaceId :=
      congrArg (fun k => (ofLex k).1) (Table.key_of_find? hx)
    exact isMapped_iff.mpr ⟨m, hm, hw.symm⟩
  task t ht hin := by
    obtain ⟨m, hm, hw⟩ := hin
    have hfind : r.tasks.find? t.id = some t := Table.find?_key r.tasks ht
    show (r.tasks.mapRows (cleared r.map.rows) (id_cleared r.map.rows)).find? t.id = _
    rw [Table.find?_mapRows, hfind, Option.map_some,
      cleared_eq_unassign hm (howners m hm t ht hw) hw]
    rfl
  otherUsers := rfl
  otherWorkspaces w hw := by
    apply Table.find?_deleteWhere_eq_self
    intro row hrow
    have hid : row.id = w := Table.key_of_find? hrow
    rw [Bool.eq_false_iff, Ne, isMapped_iff, hid]
    rintro ⟨m, hm, hsame⟩
    exact hw m hm hsame
  otherMembers w u hpair := by
    apply Table.find?_deleteWhere_eq_self
    intro x hx
    rw [Bool.eq_false_iff, Ne, isMapped_iff]
    rintro ⟨m, hm, hsame⟩
    -- The one membership of a mapped workspace is that of the pair.
    have hx' := (hworkspaces m hm).member_eq (Table.mem_of_find? hx) hsame.symm
    have hkey : memberKey x.workspaceId x.userId = memberKey w u := Table.key_of_find? hx
    rw [hx'] at hkey
    exact hpair m hm ⟨congrArg (fun k => (ofLex k).1) hkey, congrArg (fun k => (ofLex k).2) hkey⟩
  otherTasks id hid := by
    show (r.tasks.mapRows (cleared r.map.rows) (id_cleared r.map.rows)).find? id = r.tasks.find? id
    rw [Table.find?_mapRows]
    cases hfind : r.tasks.find? id with
    | none => rfl
    | some t => rw [Option.map_some, cleared_eq_self (hid t hfind)]
  counters := ⟨rfl, rfl, rfl⟩

end Effect

/-- Once its guard has accepted a database at the revision, the downgrade goes through,
and it removes the generated data and nothing else. -/
theorem downgrade_removes_generated {s : Store} (h : Finalize.AtBackfill s.schema)
    (hs : s.Consistent) {mappings : List Mapping}
    (hvalid : validateDowngrade s.rows = .ok mappings) :
    ∃ s', downgrade s = .ok s' ∧ s'.schema = s.schema ∧ OnlyGeneratedGone s.rows s'.rows := by
  obtain ⟨rfl, haccepted⟩ := (validateDowngrade_eq_ok h hs).mp hvalid
  have hworkspaces : ∀ m ∈ s.rows.map.rows, GeneratedWorkspace s.rows m :=
    fun m hm => (haccepted m hm).1
  have howners : ∀ m ∈ s.rows.map.rows, ∀ t ∈ s.rows.tasks.rows,
      t.workspaceId = some m.workspaceId → t.ownerId = some m.userId :=
    fun m hm t ht hw => ((haccepted m hm).2.2 t ht hw).owner
  have hprivate : ∀ m ∈ s.rows.map.rows, Private s.rows m := by
    intro m hm
    constructor
    · intro x hx hw
      rw [(hworkspaces m hm).member_eq hx hw]
      rfl
    · exact howners m hm
  have hrun : downgrade s = .ok ⟨s.schema, reverted s.rows⟩ :=
    downgrade_eq_ok (detachable_of_atBackfill h) hs.tasks hprivate hvalid
  exact ⟨_, hrun, rfl, onlyGeneratedGone_reverted hworkspaces howners⟩

/-- The backfilled sample after another user has come, made a workspace and a task in
it, and the first user has joined. -/
def sampleGrown : Store :=
  { Finalize.sampleBackfilled with
    rows := { Finalize.sampleBackfilled.rows with
      users := Finalize.sampleBackfilled.rows.users.put ⟨2, "bob", "hash"⟩
      workspaces := ⟨[⟨1, "Personal Workspace - ada", 1, 100, 100⟩, ⟨2, "Team", 2, 200, 200⟩],
        by decide⟩
      members := ⟨[⟨1, 1, .owner, 100, 100⟩, ⟨2, 1, .member, 210, 210⟩, ⟨2, 2, .owner, 200, 200⟩],
        by decide⟩
      tasks := ⟨[{ id := 1, title := "Write", completed := some true, priority := 3,
                   ownerId := some 1, workspaceId := some 1, creatorId := some 1,
                   status := some (.name .done), createdAt := some 100, updatedAt := some 100 },
                 { id := 2, title := "Read", completed := some false, priority := 1,
                   ownerId := some 2, workspaceId := some 2, creatorId := some 2,
                   assigneeId := some 1, status := some (.name .inProgress), createdAt := some 220,
                   updatedAt := some 230 }],
        by decide⟩
      nextUserId := 3
      nextWorkspaceId := 3
      nextTaskId := 3 } }

theorem consistent_sampleGrown : sampleGrown.Consistent := by
  refine ⟨fun t ht c hc => ?_, by decide +kernel, by decide, by decide, by decide, by decide⟩
  cases c with
  | _ => cases hc

theorem downgrade_removes_generated_sample :
    ∃ s', downgrade sampleGrown = .ok s' ∧ s'.schema = sampleGrown.schema ∧
      OnlyGeneratedGone sampleGrown.rows s'.rows :=
  downgrade_removes_generated Finalize.atBackfill_backfilledSchema consistent_sampleGrown
    (show validateDowngrade sampleGrown.rows = .ok sampleGrown.rows.map.rows by decide +kernel)

end Backfill
end Migration
end TaskPlatform
