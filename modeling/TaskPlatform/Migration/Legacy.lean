import TaskPlatform.Migration.Backfill
import TaskPlatform.Migration.Compatibility

/-!
# Baselines

The databases of revision `6c2f9a4d7e31` the migrations are for, and what their rows
are once the empty collaboration columns have been added.
-/

namespace TaskPlatform
namespace Migration

open Relational

/-- A database at revision `6c2f9a4d7e31` whose tasks suit the final constraints. -/
structure Baseline (s : Store) : Prop where
  schema : s.schema = baselineSchema
  consistent : s.Consistent
  fits : ∀ t ∈ s.rows.tasks.rows,
    trimmedLengthOk t.title = true ∧ 1 ≤ t.priority ∧ t.priority ≤ 5

/-- The rows of such a database, apart from its schema. -/
structure Legacy (r : Rows) : Prop where
  owner : ∀ t ∈ r.tasks.rows, ∃ u, t.ownerId = some u ∧ (r.user? u).isSome = true
  completed : ∀ t ∈ r.tasks.rows, t.completed.isSome = true
  unassigned : ∀ t ∈ r.tasks.rows, Backfill.unassign t = t
  fits : ∀ t ∈ r.tasks.rows, trimmedLengthOk t.title = true ∧ 1 ≤ t.priority ∧ t.priority ≤ 5
  usernames : ∀ u ∈ r.users.rows, u.username.length ≤ 50
  workspaces : ∀ w row, r.workspace? w = some row → w < r.nextWorkspaceId
  members : ∀ w u m, r.member? w u = some m → (r.workspace? w).isSome = true
  map : r.map = ∅

theorem Baseline.legacy {s : Store} (h : Baseline s) : Legacy s.rows := by
  obtain ⟨hschema, hconsistent, hfits⟩ := h
  have hallows := hconsistent.tasks
  rw [hschema] at hallows
  have hcolumns : ∀ t ∈ s.rows.tasks.rows, t.completed.isSome = true ∧ t.ownerId.isSome = true ∧
      t.ownerId.all (s.rows.hasId .users) = true := by
    intro t ht
    have h := hallows t ht
    simp only [Schema.allows, baselineSchema, TaskRow.isNull, ForeignKey.allows,
      TaskRow.reference, List.all_cons, List.all_nil, Bool.not_false, Bool.or_true, Bool.true_or,
      Bool.false_or, Bool.and_true, Bool.true_and, Bool.and_eq_true, Bool.not_eq_true',
      Option.isNone_eq_false_iff] at h
    exact ⟨h.1.1, h.1.2, h.2⟩
  refine ⟨?_, ?_, ?_, hfits, hconsistent.users, ?_, ?_, ?_⟩
  · intro t ht
    obtain ⟨_, howner, hall⟩ := hcolumns t ht
    obtain ⟨u, hu⟩ := Option.isSome_iff_exists.mp howner
    rw [hu] at hall
    exact ⟨u, hu, hall⟩
  · exact fun t ht => (hcolumns t ht).1
  · intro t ht
    have hclear := hconsistent.absent t ht
    rw [hschema] at hclear
    show (((((t.clear .workspaceId).clear .creatorId).clear .assigneeId).clear .status).clear
      .createdAt).clear .updatedAt = t
    rw [hclear .workspaceId rfl, hclear .creatorId rfl, hclear .assigneeId rfl,
      hclear .status rfl, hclear .createdAt rfl, hclear .updatedAt rfl]
  · intro w row hrow
    obtain ⟨hmem, rfl⟩ := Table.find?_eq_some.mp hrow
    exact (hconsistent.workspaces row hmem).2
  · intro w u m hm
    obtain ⟨hmem, hkey⟩ := Table.find?_eq_some.mp hm
    rw [← (memberKey_inj.mp hkey).1]
    exact (hconsistent.members m hmem).1
  · refine Table.ext_mem fun m => ⟨fun hm => ?_, fun hm => absurd hm List.not_mem_nil⟩
    have hmap := (hconsistent.map m hm).1
    rw [hschema] at hmap
    cases hmap

namespace Compatibility

/-- The upgrade leaves the rows alone. -/
theorem upgrade_eq_ok {r : Rows} (h : Legacy r) :
    script.up ⟨baselineSchema, r⟩ = .ok ⟨upgradedSchema, r⟩ := by
  have hnull : ∀ t ∈ r.tasks.rows, t.workspaceId = none ∧ t.creatorId = none ∧
      t.assigneeId = none ∧ t.status = none := by
    intro t ht
    rw [← h.unassigned t ht]
    exact ⟨rfl, rfl, rfl, rfl⟩
  have hrows : Ddl.acceptsAll r upgradeStatements := by
    simp only [upgradeStatements, Ddl.acceptsAll, Ddl.accepts, Ddl.onRows, List.all_eq_true,
      ForeignKey.allows, TaskRow.reference, TaskCheck.allows, TaskCheck.condition, true_and,
      and_true]
    refine ⟨fun t ht => ?_, fun t ht => ?_, fun t ht => ?_, fun t ht => ?_⟩
    · rw [(hnull t ht).1]
      rfl
    · rw [(hnull t ht).2.1]
      rfl
    · rw [(hnull t ht).2.2.1]
      rfl
    · rw [TaskRow.statusValue, (hnull t ht).2.2.2]
      rfl
  exact Revision.up_eq_ok (x := script) rfl (Ddl.runAll_eq_ok changeAll_upgradeStatements hrows)

/-- Once the collaboration columns are empty again, the downgrade removes the mapping
table and nothing else. -/
theorem downgrade_eq_ok {schema schema' : Schema} {r : Rows}
    (hrevision : schema.revision = script.revision)
    (hschema : schema.changeAll downgradeStatements = some schema')
    (hunassigned : ∀ t ∈ r.tasks.rows, Backfill.unassign t = t) :
    script.down ⟨schema, r⟩ =
      .ok ⟨{ schema' with revision := script.downRevision }, { r with map := ∅ }⟩ := by
  have hrows : Ddl.acceptsAll r downgradeStatements := by
    simp only [downgradeStatements, Ddl.acceptsAll, Ddl.accepts, and_true]
  have hclear : ∀ c ∈ [TaskColumn.updatedAt, .createdAt, .status, .assigneeId, .creatorId,
      .workspaceId], ∀ t ∈ r.tasks.rows, t.clear c = t := by
    intro c hc t ht
    rw [← hunassigned t ht]
    simp only [List.mem_cons, List.not_mem_nil, or_false] at hc
    rcases hc with rfl | rfl | rfl | rfl | rfl | rfl
    all_goals rfl
  have hall : Ddl.onRowsAll r downgradeStatements = { r with map := ∅ } := by
    show Ddl.onRowsAll { r with map := ∅ } downgradeStatements.tail = { r with map := ∅ }
    refine Ddl.onRowsAll_eq_self ?_
    have hdrop : ∀ c ∈ [TaskColumn.updatedAt, .createdAt, .status, .assigneeId, .creatorId,
        .workspaceId], (Ddl.dropColumn c).onRows { r with map := ∅ } = { r with map := ∅ } :=
      fun c hc => Ddl.onRows_dropColumn (hclear c hc)
    simp only [downgradeStatements, List.tail_cons, List.forall_mem_cons]
    exact ⟨rfl, rfl, rfl, rfl, rfl, rfl, rfl, rfl, rfl, hdrop _ (by decide), hdrop _ (by decide),
      hdrop _ (by decide), hdrop _ (by decide), hdrop _ (by decide), hdrop _ (by decide), nofun⟩
  have hdown := Revision.down_eq_ok (x := script) hrevision (Ddl.runAll_eq_ok hschema hrows)
  rw [hall] at hdown
  exact hdown

end Compatibility

end Migration
end TaskPlatform
