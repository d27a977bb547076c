import TaskPlatform.Migration.BackfillUpgrade
import TaskPlatform.Migration.Finalize

/-!
# The final schema of a backfilled baseline

The validations and statements of revision `d4b6e8f1a203` on the rows the backfill
leaves, and the way back, which restores the two legacy columns.
-/

namespace TaskPlatform
namespace Migration
namespace Finalize

open Relational Truth Backfill

def finalSchema : Schema :=
  { revision := "d4b6e8f1a203"
    columns :=
      [⟨.id, .integer, false⟩, ⟨.title, .varchar 100, false⟩, ⟨.priority, .integer, false⟩,
        ⟨.description, .varchar 500, true⟩, ⟨.workspaceId, .integer, false⟩,
        ⟨.creatorId, .integer, false⟩, ⟨.assigneeId, .integer, true⟩,
        ⟨.status, .varchar 16, false⟩, ⟨.createdAt, .datetime 6, false⟩,
        ⟨.updatedAt, .datetime 6, false⟩]
    foreignKeys :=
      [⟨"fk_tasks_workspace_id_workspaces", .workspaceId, .workspaces, "RESTRICT"⟩,
        ⟨"fk_tasks_creator_id_users", .creatorId, .users, "RESTRICT"⟩,
        ⟨"fk_tasks_assignee_id_users", .assigneeId, .users, "RESTRICT"⟩]
    checks := [.status, .titleLength, .priority]
    indexes :=
      [⟨"ix_tasks_workspace_id_id", [.workspaceId, .id], false⟩,
        ⟨"ix_tasks_workspace_status_id", [.workspaceId, .status, .id], false⟩,
        ⟨"ix_tasks_workspace_assignee_id", [.workspaceId, .assigneeId, .id], false⟩,
        ⟨"ix_tasks_creator_id", [.creatorId], false⟩,
        ⟨"ix_tasks_assignee_id", [.assigneeId], false⟩]
    map := some Compatibility.mapSchema }

/-- The schema the backfill leaves. -/
def backfilledSchema : Schema := { Compatibility.upgradedSchema with revision := "c1e8d5a4b762" }

/-- The schema the downgrade makes of the final one. -/
def reopenedSchema : Schema :=
  { revision := "c1e8d5a4b762"
    columns := finalSchema.columns.map (fun col =>
      if col.name ∈ [.workspaceId, .creatorId, .status, .createdAt, .updatedAt] then
        { col with nullable := true } else col) ++
      [⟨.ownerId, .integer, false⟩, ⟨.completed, .boolean, false⟩]
    foreignKeys := finalSchema.foreignKeys ++ [⟨"fk_tasks_owner_id_users", .ownerId, .users, ""⟩]
    checks := [.status]
    indexes := finalSchema.indexes ++ [⟨"fk_tasks_owner_id_users", [.ownerId], true⟩]
    map := some Compatibility.mapSchema }

theorem changeAll_upgradeStatements :
    backfilledSchema.changeAll (upgradeStatements "tasks_ibfk_1") =
      some { finalSchema with revision := backfilledSchema.revision } := by
  decide +kernel

/-- The final schema with the legacy columns, still empty. -/
def legacySchema : Schema :=
  { finalSchema with
    columns := finalSchema.columns ++ [⟨.ownerId, .integer, true⟩, ⟨.completed, .boolean, true⟩] }

theorem changeAll_legacyColumns : finalSchema.changeAll legacyColumns = some legacySchema := by
  decide +kernel

theorem changeAll_downgradeStatements :
    legacySchema.changeAll downgradeStatements =
      some { reopenedSchema with revision := legacySchema.revision } := by
  decide +kernel

theorem compatible_reopenedSchema : Compatibility.Compatible reopenedSchema := by
  refine ⟨?_, ?_, rfl, rfl⟩
  · decide
  · decide

/-- A task without the legacy columns. -/
def finalized (t : TaskRow) : TaskRow := { t with ownerId := none, completed := none }

theorem id_finalized (t : TaskRow) : (finalized t).id = t.id := rfl

def finalRows (r : Rows) : Rows := { r with tasks := r.tasks.mapRows finalized id_finalized }

/-! ## The upgrade -/

section Upgrade

variable {b r : Rows}

theorem invalidTask_assign {w u : Id} {migratedAt : Timestamp} {t : TaskRow}
    (howner : t.ownerId = some u)
    (hfits : trimmedLengthOk t.title = true ∧ 1 ≤ t.priority ∧ t.priority ≤ 5) :
    (invalidTask (assign w u migratedAt t)).holds = false := by
  have hlength : 1 ≤ (sqlTrim t.title).length ∧ (sqlTrim t.title).length ≤ 100 := by
    simpa [trimmedLengthOk] using hfits.1
  have htitle : decide ((1 : Int) ≤ (sqlTrim t.title).length ∧
      ((sqlTrim t.title).length : Int) ≤ 100) = true := decide_eq_true (by omega)
  have hpriority : decide (1 ≤ t.priority ∧ t.priority ≤ 5) = true := decide_eq_true hfits.2
  refine holds_anyOf_eq_false.mpr ?_
  simp only [assign, howner, List.forall_mem_cons, holds_isNull, holds_and, Option.isNone_some,
    holds_ne_self, true_and, between, htitle, hpriority]
  cases t.completed with
  | none => exact ⟨rfl, rfl, rfl, rfl, rfl, List.forall_mem_nil _⟩
  | some completed =>
      cases completed with
      | _ => exact ⟨rfl, rfl, rfl, rfl, rfl, List.forall_mem_nil _⟩

/-- No task refers to a missing row. -/
theorem references_found (h : Complete b r) (hb : Legacy b) {t : TaskRow}
    (ht : t ∈ r.tasks.rows) : (∃ w, t.workspaceId = some w ∧ (r.workspace? w).isSome = true) ∧
      ∃ u, t.creatorId = some u ∧ (r.user? u).isSome = true := by
  obtain ⟨t₀, _, m, hm, _, rfl⟩ := h.task hb ht
  obtain ⟨user, huser, hworkspace⟩ := (h.mapping m hm).2.workspace
  refine ⟨⟨m.workspaceId, rfl, Option.isSome_of_eq_some hworkspace⟩, m.userId, rfl, ?_⟩
  rw [Rows.user?, h.users]
  exact Option.isSome_of_eq_some huser

theorem validateUpgrade_eq_ok (h : Complete b r) (hb : Legacy b) :
    validateUpgrade ⟨backfilledSchema, r⟩ = .ok "tasks_ibfk_1" := by
  unfold validateUpgrade
  refine abortWhen_bind.mpr ⟨not_not.mpr h.mappingCounts.1, ?_⟩
  refine abortWhen_bind.mpr ⟨not_not.mpr h.mappingCounts.2, ?_⟩
  refine abortWhen_bind.mpr ⟨not_not.mpr h.matchingOwnerCount, ?_⟩
  refine abortWhen_bind.mpr ⟨not_not.mpr (count_eq_zero.mpr fun t ht => ?_), ?_⟩
  · obtain ⟨t₀, ht₀, m, _, howner, rfl⟩ := h.task hb ht
    exact invalidTask_assign howner (hb.fits t₀ ht₀)
  refine abortWhen_bind.mpr ⟨not_not.mpr (orphanReferenceCount_eq_zero fun t ht =>
    references_found h hb ht), ?_⟩
  refine abortWhen_bind.mpr ⟨not_not.mpr (h.mappedTaskCount hb), ?_⟩
  rfl

theorem onRowsAll_upgradeStatements (name : String) (r : Rows) :
    Ddl.onRowsAll r (upgradeStatements name) = finalRows r := by
  have htasks : (r.tasks.mapRows (·.clear .ownerId) (TaskRow.id_clear · .ownerId)).mapRows
      (·.clear .completed) (TaskRow.id_clear · .completed) =
        r.tasks.mapRows finalized id_finalized := by
    rw [Table.mapRows_mapRows]
    exact Table.mapRows_congr fun t _ => rfl
  simp only [Ddl.onRowsAll, upgradeStatements, List.foldl_cons, List.foldl_nil, Ddl.onRows,
    finalRows, htasks]

theorem upgrade_eq_ok (h : Complete b r) (hb : Legacy b) :
    script.up ⟨backfilledSchema, r⟩ = .ok ⟨finalSchema, finalRows r⟩ := by
  have hrows : Ddl.acceptsAll r (upgradeStatements "tasks_ibfk_1") := by
    have hnull : ∀ t ∈ r.tasks.rows, t.isNull .workspaceId = false ∧ t.isNull .creatorId = false ∧
        t.isNull .status = false ∧ t.isNull .createdAt = false ∧ t.isNull .updatedAt = false := by
      intro t ht
      obtain ⟨t₀, _, m, _, _, rfl⟩ := h.task hb ht
      exact ⟨rfl, rfl, rfl, rfl, rfl⟩
    have hfits : ∀ t ∈ r.tasks.rows, TaskCheck.titleLength.allows t = true ∧
        TaskCheck.priority.allows t = true := by
      intro t ht
      obtain ⟨t₀, ht₀, m, _, _, rfl⟩ := h.task hb ht
      obtain ⟨htitle, hpriority⟩ := hb.fits t₀ ht₀
      simp [TaskCheck.allows, TaskCheck.condition, assign, between, htitle, hpriority]
    simp only [upgradeStatements, Ddl.acceptsAll, Ddl.accepts, Ddl.onRows, List.all_eq_true,
      Bool.not_eq_true', and_true]
    exact ⟨fun t ht => (hnull t ht).1, fun t ht => (hnull t ht).2.1,
      fun t ht => (hnull t ht).2.2.1, fun t ht => (hnull t ht).2.2.2.1,
      fun t ht => (hnull t ht).2.2.2.2, fun t ht => (hfits t ht).1, fun t ht => (hfits t ht).2⟩
  have hrun : upgrade ⟨backfilledSchema, r⟩ =
      .ok ⟨{ finalSchema with revision := backfilledSchema.revision }, finalRows r⟩ := by
    refine bind_eq_ok.mpr ⟨_, validateUpgrade_eq_ok h hb, ?_⟩
    rw [Ddl.runAll_eq_ok changeAll_upgradeStatements hrows, onRowsAll_upgradeStatements]
  exact Revision.up_eq_ok (x := script) rfl hrun

end Upgrade

/-! ## The downgrade -/

theorem allows_finalSchema_iff {r : Rows} {t : TaskRow} :
    finalSchema.allows r t = true ↔
      (t.workspaceId.isNone = false ∧ t.creatorId.isNone = false ∧ t.status.isNone = false ∧
        t.createdAt.isNone = false ∧ t.updatedAt.isNone = false) ∧
      (∀ fk ∈ finalSchema.foreignKeys, fk.allows r t = true) ∧
      trimmedLengthOk t.title = true ∧ 1 ≤ t.priority ∧ t.priority ≤ 5 := by
  rw [Schema.allows, Bool.and_eq_true, Bool.and_eq_true, ← List.all_eq_true, and_assoc]
  refine and_congr ?_ (and_congr Iff.rfl ?_)
  · simp [finalSchema, TaskRow.isNull]
  · simp only [finalSchema, List.all_cons, List.all_nil, TaskCheck.allows_status]
    simp [TaskCheck.allows, TaskCheck.condition, between]

section Downgrade

variable {b r : Rows}

/-- The rows once the legacy columns have been filled. -/
def restoredRows (r : Rows) : Rows :=
  { r with tasks := r.tasks.updateWhere (fun _ => true) restore id_restore }

/-- The constraints a restored row meets are the final ones. -/
theorem allows_legacySchema {t : TaskRow} :
    legacySchema.allows r (restore t) = finalSchema.allows r t := rfl

/-- The downgrade of rows that satisfy the final schema goes through. -/
theorem down_eq_ok (h : ∀ t ∈ r.tasks.rows, finalSchema.allows r t = true) :
    script.down ⟨finalSchema, r⟩ = .ok ⟨reopenedSchema, restoredRows r⟩ := by
  have hvalid : validateDowngrade r = .ok () := by
    refine abortWhen_eq_ok.mpr (not_not.mpr (count_eq_zero.mpr fun t ht => ?_))
    obtain ⟨⟨_, hcreator, hstatus, _⟩, _⟩ := allows_finalSchema_iff.mp (h t ht)
    apply holds_anyOf_eq_false.mpr
    simp only [List.forall_mem_cons, holds_isNull, hcreator, hstatus, true_and]
    exact ⟨holds_notIn_statuses t.statusValue, nofun⟩
  have hcolumns : Ddl.runAll ⟨finalSchema, r⟩ legacyColumns = .ok ⟨legacySchema, r⟩ :=
    Ddl.runAll_eq_ok changeAll_legacyColumns ⟨rfl, rfl, trivial⟩
  have hupdate : (Store.updateTasks ⟨legacySchema, r⟩ (fun _ => true) restore id_restore) =
      .ok ⟨legacySchema, restoredRows r⟩ :=
    accept_eq_ok.mpr ⟨fun t ht _ => allows_legacySchema.trans (h t ht), rfl⟩
  have hlegacy : ∀ t ∈ (restoredRows r).tasks.rows, t.ownerId.isNone = false ∧
      t.completed.isNone = false ∧ t.ownerId.all (r.hasId .users) = true := by
    intro t ht
    obtain ⟨t₀, ht₀, rfl⟩ := List.mem_map.mp ht
    obtain ⟨⟨_, hcreator, _⟩, hreferences, _⟩ := allows_finalSchema_iff.mp (h t₀ ht₀)
    refine ⟨hcreator, rfl, ?_⟩
    exact hreferences ⟨"fk_tasks_creator_id_users", .creatorId, .users, "RESTRICT"⟩ (by decide)
  have hrows : Ddl.acceptsAll (restoredRows r) downgradeStatements := by
    simp only [downgradeStatements, Ddl.acceptsAll, Ddl.accepts, Ddl.onRows, List.all_eq_true,
      Bool.not_eq_true', and_true, TaskRow.isNull, ForeignKey.allows, TaskRow.reference]
    exact ⟨fun t ht => (hlegacy t ht).1, fun t ht => (hlegacy t ht).2.1,
      fun t ht => (hlegacy t ht).2.2⟩
  have hrun : downgrade ⟨finalSchema, r⟩ =
      .ok ⟨{ reopenedSchema with revision := finalSchema.revision }, restoredRows r⟩ := by
    refine bind_eq_ok.mpr ⟨(), hvalid, bind_eq_ok.mpr ⟨_, hcolumns, bind_eq_ok.mpr
      ⟨_, hupdate, ?_⟩⟩⟩
    refine abortWhen_bind.mpr ⟨not_not.mpr (count_eq_zero.mpr fun t ht => ?_), ?_⟩
    · rw [holds_or, holds_isNull, holds_isNull, (hlegacy t ht).1, (hlegacy t ht).2.1]
      rfl
    · rw [Ddl.runAll_eq_ok changeAll_downgradeStatements hrows]
      rfl
  exact Revision.down_eq_ok (x := script) rfl hrun

/-- The legacy columns come back as they were. -/
theorem restore_finalized {w u : Id} {migratedAt : Timestamp} {t : TaskRow}
    (howner : t.ownerId = some u) (hcompleted : t.completed.isSome = true) :
    restore (finalized (assign w u migratedAt t)) = assign w u migratedAt t := by
  obtain ⟨id, title, completed, priority, ownerId, description, _, _, _, _, _, _⟩ := t
  cases howner
  obtain ⟨c, rfl⟩ := Option.isSome_iff_exists.mp hcompleted
  cases c with
  | false => rfl
  | true => rfl

/-- The rows the downgrade starts from. -/
theorem mem_finalRows (h : Complete b r) (hb : Legacy b) {t : TaskRow}
    (ht : t ∈ (finalRows r).tasks.rows) :
    ∃ t₀ ∈ b.tasks.rows, ∃ m ∈ r.map.rows, t₀.ownerId = some m.userId ∧
      t = finalized (assign m.workspaceId m.userId m.migratedAt t₀) := by
  obtain ⟨t', ht', rfl⟩ := List.mem_map.mp ht
  obtain ⟨t₀, ht₀, m, hm, howner, rfl⟩ := h.task hb ht'
  exact ⟨t₀, ht₀, m, hm, howner, rfl⟩

theorem restoredRows_finalRows (h : Complete b r) (hb : Legacy b) :
    restoredRows (finalRows r) = r := by
  have hmap : (r.tasks.mapRows finalized id_finalized).updateWhere (fun _ => true) restore
      id_restore = r.tasks := by
    rw [Table.updateWhere, Table.mapRows_mapRows]
    refine Table.mapRows_eq_self fun t ht => ?_
    obtain ⟨t₀, ht₀, m, _, howner, rfl⟩ := h.task hb ht
    exact restore_finalized howner (hb.completed t₀ ht₀)
  simp only [restoredRows, finalRows, hmap]

/-- The rows of a migrated baseline satisfy the final schema. -/
theorem allows_finalRows (h : Complete b r) (hb : Legacy b) {t : TaskRow}
    (ht : t ∈ (finalRows r).tasks.rows) : finalSchema.allows (finalRows r) t = true := by
  obtain ⟨t₀, ht₀, m, hm, _, rfl⟩ := mem_finalRows h hb ht
  obtain ⟨user, huser, hworkspace⟩ := (h.mapping m hm).2.workspace
  have hw : (finalRows r).hasId .workspaces m.workspaceId = true := by
    show (r.workspace? m.workspaceId).isSome = true
    rw [hworkspace]
    rfl
  have hu : (finalRows r).hasId .users m.userId = true := by
    show (r.users.find? m.userId).isSome = true
    rw [h.users]
    exact Option.isSome_of_eq_some huser
  refine allows_finalSchema_iff.mpr ⟨⟨rfl, rfl, rfl, rfl, rfl⟩, ?_, hb.fits t₀ ht₀⟩
  simp only [finalSchema, List.forall_mem_cons, ForeignKey.allows, TaskRow.reference, finalized,
    assign, Option.all_some, Option.all_none, hw, hu, true_and]
  exact List.forall_mem_nil _

theorem downgrade_eq_ok (h : Complete b r) (hb : Legacy b) :
    script.down ⟨finalSchema, finalRows r⟩ = .ok ⟨reopenedSchema, r⟩ := by
  rw [down_eq_ok fun t ht => allows_finalRows h hb ht, restoredRows_finalRows h hb]

end Downgrade
end Finalize
end Migration
end TaskPlatform
