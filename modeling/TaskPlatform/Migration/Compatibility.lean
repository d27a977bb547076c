import TaskPlatform.Migration.Store

/-!
# Revision `9f4c2a7b1d30`

The nullable collaboration columns of `tasks` and the mapping table.
-/

namespace TaskPlatform
namespace Migration
namespace Compatibility

def mapSchema : MapSchema :=
  { columns :=
      [⟨.userId, .integer, false⟩, ⟨.workspaceId, .integer, false⟩,
        ⟨.legacyTaskCount, .integer, false⟩, ⟨.legacyTaskMaxId, .integer, true⟩,
        ⟨.migratedAt, .datetime 6, false⟩]
    primaryKey := [.userId]
    uniqueConstraints := [("uq_task_collaboration_map_workspace_id", [.workspaceId])]
    foreignKeys :=
      [⟨"fk_task_collaboration_map_user_id_users", .userId, .users, "RESTRICT"⟩,
        ⟨"fk_task_collaboration_map_workspace_id_workspaces", .workspaceId, .workspaces,
          "RESTRICT"⟩] }

def upgradeStatements : List Ddl :=
  [.addColumn .workspaceId .integer,
    .addColumn .creatorId .integer,
    .addColumn .assigneeId .integer,
    .addColumn .status (.varchar 16),
    .addColumn .createdAt (.datetime 6),
    .addColumn .updatedAt (.datetime 6),
    .createForeignKey ⟨"fk_tasks_workspace_id_workspaces", .workspaceId, .workspaces, "RESTRICT"⟩,
    .createForeignKey ⟨"fk_tasks_creator_id_users", .creatorId, .users, "RESTRICT"⟩,
    .createForeignKey ⟨"fk_tasks_assignee_id_users", .assigneeId, .users, "RESTRICT"⟩,
    .createCheck .status,
    .createIndex "ix_tasks_workspace_id_id" [.workspaceId, .id],
    .createIndex "ix_tasks_workspace_status_id" [.workspaceId, .status, .id],
    .createIndex "ix_tasks_workspace_assignee_id" [.workspaceId, .assigneeId, .id],
    .createIndex "ix_tasks_creator_id" [.creatorId],
    .createIndex "ix_tasks_assignee_id" [.assigneeId],
    .createMap mapSchema]

def downgradeStatements : List Ddl :=
  [.dropMap,
    .dropForeignKey "fk_tasks_assignee_id_users",
    .dropForeignKey "fk_tasks_creator_id_users",
    .dropForeignKey "fk_tasks_workspace_id_workspaces",
    .dropCheck "ck_tasks_status",
    .dropIndex "ix_tasks_assignee_id",
    .dropIndex "ix_tasks_creator_id",
    .dropIndex "ix_tasks_workspace_assignee_id",
    .dropIndex "ix_tasks_workspace_status_id",
    .dropIndex "ix_tasks_workspace_id_id",
    .dropColumn .updatedAt,
    .dropColumn .createdAt,
    .dropColumn .status,
    .dropColumn .assigneeId,
    .dropColumn .creatorId,
    .dropColumn .workspaceId]

def script : Revision :=
  { revision := "9f4c2a7b1d30"
    downRevision := "6c2f9a4d7e31"
    upgrade := fun s => Ddl.runAll s upgradeStatements
    downgrade := fun s => Ddl.runAll s downgradeStatements }

/-- The schema the upgrade makes. -/
def upgradedSchema : Schema :=
  { revision := "9f4c2a7b1d30"
    columns := baselineSchema.columns ++
      [⟨.workspaceId, .integer, true⟩, ⟨.creatorId, .integer, true⟩,
        ⟨.assigneeId, .integer, true⟩, ⟨.status, .varchar 16, true⟩,
        ⟨.createdAt, .datetime 6, true⟩, ⟨.updatedAt, .datetime 6, true⟩]
    foreignKeys :=
      [⟨"tasks_ibfk_1", .ownerId, .users, ""⟩,
        ⟨"fk_tasks_workspace_id_workspaces", .workspaceId, .workspaces, "RESTRICT"⟩,
        ⟨"fk_tasks_creator_id_users", .creatorId, .users, "RESTRICT"⟩,
        ⟨"fk_tasks_assignee_id_users", .assigneeId, .users, "RESTRICT"⟩]
    checks := [.status]
    indexes :=
      [⟨"owner_id", [.ownerId], true⟩,
        ⟨"ix_tasks_workspace_id_id", [.workspaceId, .id], false⟩,
        ⟨"ix_tasks_workspace_status_id", [.workspaceId, .status, .id], false⟩,
        ⟨"ix_tasks_workspace_assignee_id", [.workspaceId, .assigneeId, .id], false⟩,
        ⟨"ix_tasks_creator_id", [.creatorId], false⟩,
        ⟨"ix_tasks_assignee_id", [.assigneeId], false⟩]
    map := some mapSchema }

theorem changeAll_upgradeStatements :
    baselineSchema.changeAll upgradeStatements =
      some { upgradedSchema with revision := baselineSchema.revision } := by
  decide +kernel

/-- The constraints of `tasks` between this revision and the next but one. -/
structure Compatible (s : Schema) : Prop where
  required : (s.columns.filter fun col => !col.nullable).map Column.name |>.Perm
    [.id, .title, .completed, .priority, .ownerId]
  references : (s.foreignKeys.map fun fk => (fk.constrained, fk.referred)).Perm
    [(.ownerId, .users), (.workspaceId, .workspaces), (.creatorId, .users), (.assigneeId, .users)]
  checks : s.checks = [.status]
  map : s.map = some mapSchema

theorem compatible_upgradedSchema : Compatible upgradedSchema := by
  refine ⟨?_, ?_, rfl, rfl⟩
  · decide
  · decide

theorem Compatible.allows_iff {s : Schema} (h : Compatible s) {r : Rows} {t : TaskRow} :
    s.allows r t = true ↔ t.completed.isSome = true ∧ t.ownerId.isSome = true ∧
      t.ownerId.all (r.hasId .users) = true ∧ t.workspaceId.all (r.hasId .workspaces) = true ∧
      t.creatorId.all (r.hasId .users) = true ∧ t.assigneeId.all (r.hasId .users) = true := by
  have hrequired : (s.columns.all fun col => col.nullable || !t.isNull col.name) = true ↔
      ∀ c ∈ (s.columns.filter fun col => !col.nullable).map Column.name, t.isNull c = false := by
    simp only [List.all_eq_true, List.forall_mem_map, List.mem_filter, Bool.or_eq_true,
      Bool.not_eq_true', and_imp]
    refine forall₂_congr fun col _ => ?_
    cases col.nullable with
    | false => simp
    | true => simp
  have hreferences : (s.foreignKeys.all fun fk => fk.allows r t) = true ↔
      ∀ x ∈ s.foreignKeys.map fun fk => (fk.constrained, fk.referred),
        (t.reference x.1).all (r.hasId x.2) = true := by
    simp only [List.all_eq_true, List.forall_mem_map, ForeignKey.allows]
  rw [Schema.allows, Bool.and_eq_true, Bool.and_eq_true, hrequired, hreferences, h.checks]
  simp only [h.required.mem_iff, h.references.mem_iff, List.forall_mem_cons, List.all_cons,
    List.all_nil, TaskCheck.allows_status]
  simp [TaskRow.isNull, TaskRow.reference, and_assoc]

end Compatibility
end Migration
end TaskPlatform
