import TaskPlatform.Migration.BackfillDowngrade
import TaskPlatform.Migration.FinalRows

/-!
# From a baseline to the final schema and back

The three revisions in their order, what they make of a baseline, and the way back.
-/

namespace TaskPlatform
namespace Migration

open Relational Backfill

/-- The revisions between the baseline and the final schema, oldest first. -/
def revisions (migrationTime : Timestamp) : List Revision :=
  [Compatibility.script, Backfill.script migrationTime, Finalize.script]

/-- `alembic upgrade` through some revisions. -/
def upgradeAll (xs : List Revision) (s : Store) : Result Store := xs.foldlM (fun s x => x.up s) s

/-- `alembic downgrade` through the same revisions, newest first. -/
def downgradeAll (xs : List Revision) (s : Store) : Result Store :=
  xs.reverse.foldlM (fun s x => x.down s) s

/-- A workspace the upgrades have made for a user. -/
def GeneratedFor (b r : Rows) (u w : Id) : Prop :=
  b.workspace? w = none ∧ ∃ row, r.workspace? w = some row ∧ row.createdById = u

/-- A legacy task and what has become of it. -/
structure MigratedTask (b r : Rows) (t₀ t : TaskRow) : Prop where
  workspace : ∃ u w, t₀.ownerId = some u ∧ GeneratedFor b r u w ∧ t.workspaceId = some w
  creator : t.creatorId = t₀.ownerId
  assignee : t.assigneeId = none
  status : t.status = some (.name (if t₀.completed = some true then .done else .todo))
  title : t.title = t₀.title
  description : t.description = t₀.description
  priority : t.priority = t₀.priority

/-- What the upgrades make of the rows of a baseline. -/
structure Migrated (b r : Rows) : Prop where
  users : r.users = b.users
  generated : ∀ u, (b.user? u).isSome = true → ∃! w, GeneratedFor b r u w
  owner : ∀ u w, GeneratedFor b r u w → ∀ v,
    (r.member? w v).map WorkspaceMember.role = if v = u then some .owner else none
  tasks : ∀ i, Option.Rel (MigratedTask b r) (b.task? i) (r.task? i)
  workspaces : ∀ w row, b.workspace? w = some row → r.workspace? w = some row
  members : ∀ w, (b.workspace? w).isSome = true → ∀ u, r.member? w u = b.member? w u

section Upgrades

variable {b r : Rows}

/-- A generated workspace is that of a mapping. -/
theorem Complete.generatedFor_iff (h : Complete b r) (hb : Legacy b) {u w : Id} :
    GeneratedFor b r u w ↔ ∃ m ∈ r.map.rows, m.userId = u ∧ m.workspaceId = w := by
  constructor
  · rintro ⟨hnone, row, hrow, hcreator⟩
    by_cases hmapped : ∀ m ∈ r.map.rows, m.workspaceId ≠ w
    · rw [h.workspaces w hmapped, hnone] at hrow
      cases hrow
    · simp only [not_forall, not_not] at hmapped
      obtain ⟨m, hm, rfl⟩ := hmapped
      obtain ⟨user, huser, hworkspace⟩ := (h.mapping m hm).2.workspace
      rw [hworkspace] at hrow
      cases hrow
      have hid : user.id = m.userId := Table.key_of_find? huser
      exact ⟨m, hm, hid.symm.trans hcreator, rfl⟩
  · rintro ⟨m, hm, rfl, rfl⟩
    obtain ⟨user, huser, hworkspace⟩ := (h.mapping m hm).2.workspace
    refine ⟨?_, _, hworkspace, Table.key_of_find? huser⟩
    cases hfind : b.workspace? m.workspaceId with
    | none => rfl
    | some row => exact absurd rfl (h.kept hb (Option.isSome_of_eq_some hfind) m hm)

theorem Complete.migratedTask (h : Complete b r) (hb : Legacy b) {t₀ : TaskRow}
    (ht₀ : t₀ ∈ b.tasks.rows) :
    MigratedTask b (Finalize.finalRows r) t₀ (Finalize.finalized (assigned r.map t₀)) := by
  obtain ⟨u, howner, hu⟩ := hb.owner t₀ ht₀
  obtain ⟨m, hm, rfl⟩ := h.exists_mapping hu
  rw [assigned_of_mapped howner (Table.find?_key r.map hm)]
  have hgenerated : GeneratedFor b r m.userId m.workspaceId :=
    (Complete.generatedFor_iff h hb).mpr ⟨m, hm, rfl, rfl⟩
  refine ⟨⟨m.userId, m.workspaceId, howner, hgenerated, rfl⟩, howner.symm, rfl, ?_, rfl, rfl, rfl⟩
  show some (StatusText.name (if (Truth.isTrue t₀.completed).holds then .done else .todo)) = _
  simp [Truth.isTrue]

theorem Complete.migrated (h : Complete b r) (hb : Legacy b) :
    Migrated b (Finalize.finalRows r) := by
  refine ⟨h.users, fun u hu => ?_, fun u w hw v => ?_, fun i => ?_, fun w row hrow => ?_,
    fun w hw u => ?_⟩
  · obtain ⟨m, hm, hid⟩ := h.exists_mapping hu
    refine ⟨m.workspaceId, (Complete.generatedFor_iff h hb).mpr ⟨m, hm, hid, rfl⟩, ?_⟩
    intro w hw
    obtain ⟨m', hm', hid', rfl⟩ := (Complete.generatedFor_iff h hb).mp hw
    rw [r.map.eq_of_key_eq hm' hm (hid'.trans hid.symm)]
  · obtain ⟨m, hm, rfl, rfl⟩ := (Complete.generatedFor_iff h hb).mp hw
    show (r.member? m.workspaceId v).map WorkspaceMember.role = _
    rw [(h.mapping m hm).2.members v]
    split
    · rfl
    · rfl
  · show Option.Rel _ (b.tasks.find? i)
      ((r.tasks.mapRows Finalize.finalized Finalize.id_finalized).find? i)
    rw [Table.find?_mapRows, h.tasks, Table.find?_mapRows]
    cases hfind : b.tasks.find? i with
    | none => exact Option.Rel.none
    | some t₀ => exact Option.Rel.some (Complete.migratedTask h hb (Table.mem_of_find? hfind))
  · show r.workspace? w = some row
    rw [h.workspaces w (h.kept hb (Option.isSome_of_eq_some hrow)), hrow]
  · exact h.members w (h.kept hb hw) u

/-- The upgrades of a baseline go through. -/
theorem upgradeAll_eq_ok {s : Store} (h : Baseline s) (migrationTime : Timestamp) :
    ∃ r, upgradeAll (revisions migrationTime) s =
      .ok ⟨Finalize.finalSchema, Finalize.finalRows r⟩ ∧ Complete s.rows r := by
  have hb := h.legacy
  obtain ⟨schema, b⟩ := s
  cases h.schema
  obtain ⟨r, hbackfill, hcomplete⟩ := Backfill.upgrade_eq_ok
    (s := ⟨Compatibility.upgradedSchema, b⟩) hb Compatibility.compatible_upgradedSchema
    migrationTime
  have hup := Revision.up_eq_ok (x := Backfill.script migrationTime) rfl hbackfill
  refine ⟨r, ?_, hcomplete⟩
  refine bind_eq_ok.mpr ⟨_, Compatibility.upgrade_eq_ok hb, bind_eq_ok.mpr ⟨_, hup, ?_⟩⟩
  exact bind_eq_ok.mpr ⟨_, Finalize.upgrade_eq_ok hcomplete hb, rfl⟩

end Upgrades

/-! ## The way back -/

section Downgrades

variable {b r : Rows}

/-- What the last downgrade makes of the schema the first leaves. -/
def restoredSchema : Schema :=
  { baselineSchema with
    revision := "9f4c2a7b1d30"
    columns := [⟨.id, .integer, false⟩, ⟨.title, .varchar 100, false⟩,
      ⟨.priority, .integer, false⟩, ⟨.description, .varchar 500, true⟩,
      ⟨.ownerId, .integer, false⟩, ⟨.completed, .boolean, false⟩]
    foreignKeys := [⟨"fk_tasks_owner_id_users", .ownerId, .users, ""⟩]
    indexes := [⟨"fk_tasks_owner_id_users", [.ownerId], true⟩] }

theorem changeAll_downgradeStatements :
    { Finalize.reopenedSchema with revision := "9f4c2a7b1d30" }.changeAll
      Compatibility.downgradeStatements = some restoredSchema := by
  decide +kernel

/-- The downgrades of what the upgrades have made go through. -/
theorem downgradeAll_eq_ok (h : Complete b r) (hb : Legacy b) (migrationTime : Timestamp) :
    downgradeAll (revisions migrationTime) ⟨Finalize.finalSchema, Finalize.finalRows r⟩ =
      .ok ⟨{ restoredSchema with revision := "6c2f9a4d7e31" }, reverted r⟩ := by
  have hbackfill := Revision.down_eq_ok (x := Backfill.script migrationTime) rfl
    (h.downgrade_eq_ok hb Finalize.compatible_reopenedSchema)
  have hunassigned : ∀ t ∈ (reverted r).tasks.rows, unassign t = t := by
    rw [(h.reverted_eq hb).2.2.2]
    exact hb.unassigned
  refine bind_eq_ok.mpr ⟨_, Finalize.downgrade_eq_ok h hb, bind_eq_ok.mpr ⟨_, hbackfill, ?_⟩⟩
  refine bind_eq_ok.mpr ⟨_, Compatibility.downgrade_eq_ok rfl changeAll_downgradeStatements
    hunassigned, rfl⟩

end Downgrades

/-- The revisions up to the final schema and back again keep every row of a baseline. -/
theorem migrations_roundTrip {s : Store} (h : Baseline s) (migrationTime : Timestamp) :
    ∃ s', upgradeAll (revisions migrationTime) s = .ok s' ∧ Migrated s.rows s'.rows ∧
      ∃ s'', downgradeAll (revisions migrationTime) s' = .ok s'' ∧
        s''.rows.users = s.rows.users ∧ s''.rows.workspaces = s.rows.workspaces ∧
        s''.rows.members = s.rows.members ∧ s''.rows.tasks = s.rows.tasks := by
  have hb := h.legacy
  obtain ⟨r, hup, hcomplete⟩ := upgradeAll_eq_ok h migrationTime
  refine ⟨_, hup, Complete.migrated hcomplete hb, _, downgradeAll_eq_ok hcomplete hb _, ?_⟩
  exact hcomplete.reverted_eq hb

/-- A database with a user who has a completed task and is a member of an older
workspace. -/
def sampleBaseline : Store :=
  { schema := baselineSchema
    rows :=
      { users := ⟨[⟨1, "ada", "hash"⟩, ⟨2, "bob", "hash"⟩], by decide⟩
        workspaces := ⟨[⟨1, "Team", 2, 10, 10⟩], by decide⟩
        members := ⟨[⟨1, 1, .member, 11, 11⟩, ⟨1, 2, .owner, 10, 10⟩], by decide⟩
        tasks := ⟨[{ id := 1, title := "Write", completed := some true, priority := 3,
                     ownerId := some 1 }], by decide⟩
        map := ∅
        nextUserId := 3
        nextWorkspaceId := 2
        nextTaskId := 2 } }

theorem baseline_sampleBaseline : Baseline sampleBaseline := by
  refine ⟨rfl, ⟨fun t ht c hc => ?_, by decide, by decide, by decide, by decide, nofun⟩, by decide⟩
  cases List.mem_singleton.mp ht
  cases c with
  | id | title | completed | priority | ownerId | description => cases hc
  | _ => rfl

theorem migrations_roundTrip_sample :
    ∃ s', upgradeAll (revisions 100) sampleBaseline = .ok s' ∧
      Migrated sampleBaseline.rows s'.rows ∧
      ∃ s'', downgradeAll (revisions 100) s' = .ok s'' ∧
        s''.rows.users = sampleBaseline.rows.users ∧
        s''.rows.workspaces = sampleBaseline.rows.workspaces ∧
        s''.rows.members = sampleBaseline.rows.members ∧
        s''.rows.tasks = sampleBaseline.rows.tasks :=
  migrations_roundTrip baseline_sampleBaseline 100

end Migration
end TaskPlatform
