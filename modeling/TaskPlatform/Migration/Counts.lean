import TaskPlatform.Migration.Finalize

/-!
# What the counts of the validations say

The revisions compare the lengths of joins.  Keys make each of these comparisons a
statement about every row.  Comparisons that count rows go by three-valued logic.
-/

namespace TaskPlatform
namespace Migration

open Relational Truth

variable {r : Rows}

/-- As many mappings as users, and none of the users without one: the mappings are
those of the users. -/
theorem mappingCounts_iff :
    r.map.rows.length = r.users.rows.length ∧
      ((outerJoin (fun (u : User) (m : Mapping) => m.userId = u.id) r.users.rows
        r.map.rows).filter fun x => x.2.isNone).length = 0 ↔
    (∀ u ∈ r.users.rows, ∃ m ∈ r.map.rows, m.userId = u.id) ∧
      ∀ m ∈ r.map.rows, ∃ u ∈ r.users.rows, u.id = m.userId := by
  have husers := Table.keys_subset_iff (t := r.users) (u := r.map)
  have hmappings := Table.keys_subset_iff (t := r.map) (u := r.users)
  simp only [key_user, key_mapping] at husers hmappings
  rw [count_unmatched_eq_zero]
  simp only [decide_eq_true_eq]
  rw [← husers, ← hmappings]
  constructor
  · rintro ⟨hlength, hsubset⟩
    exact ⟨hsubset, Table.subset_keys_of_length hsubset hlength.le⟩
  · rintro ⟨hsubset, hsubset'⟩
    exact ⟨le_antisymm (Table.length_le_of_keys hsubset') (Table.length_le_of_keys hsubset),
      hsubset⟩

/-- A user has one membership at most in a workspace. -/
theorem matchingOwnerCount_iff :
    ((join ownMembership r.map.rows r.members.rows).filter fun x => x.2.role = .owner).length =
        r.map.rows.length ↔
      ∀ m ∈ r.map.rows, ∃ x ∈ r.members.rows,
        x.workspaceId = m.workspaceId ∧ x.userId = m.userId ∧ x.role = .owner := by
  rw [filter_join, (length_join_eq_iff fun m _ => ?_).2]
  · simp only [Bool.and_eq_true, ownMembership_iff, decide_eq_true_eq, and_assoc]
  · refine length_filter_le_one r.members.nodup_rows fun x hx y hy hon hon' => ?_
    have hon := ownMembership_iff.mp (Bool.and_eq_true_iff.mp hon).1
    have hon' := ownMembership_iff.mp (Bool.and_eq_true_iff.mp hon').1
    refine r.members.eq_of_key_eq hx hy (memberKey_inj.mpr ⟨?_, ?_⟩)
    · exact hon.1.trans hon'.1.symm
    · exact hon.2.trans hon'.2.symm

/-- A task has one mapping at most. -/
theorem mappedTaskCount_iff :
    (join inOwnersWorkspace r.tasks.rows r.map.rows).length = r.tasks.rows.length ↔
      ∀ t ∈ r.tasks.rows, ∃ m ∈ r.map.rows,
        t.ownerId = some m.userId ∧ t.workspaceId = some m.workspaceId := by
  rw [(length_join_eq_iff fun t _ => ?_).2]
  · simp only [inOwnersWorkspace_iff]
  · refine length_filter_le_one r.map.nodup_rows fun m hm m' hm' hon hon' => ?_
    have hsame := (inOwnersWorkspace_iff.mp hon).1.symm.trans (inOwnersWorkspace_iff.mp hon').1
    exact r.map.eq_of_key_eq hm hm' (Option.some.inj hsame)

/-- No reference of a task is missing. -/
theorem Finalize.orphanReferenceCount_eq_zero
    (h : ∀ t ∈ r.tasks.rows, (∃ w, t.workspaceId = some w ∧ (r.workspace? w).isSome = true) ∧
      ∃ u, t.creatorId = some u ∧ (r.user? u).isSome = true) :
    ((Finalize.taskReferences r).filter fun x => x.1.2.isNone || x.2.isNone).length = 0 := by
  refine count_eq_zero.mpr fun x hx => ?_
  have hinner := (mem_outerJoin.mp hx).1
  obtain ⟨⟨w, hw, hrow⟩, u, hu, huser⟩ := h _ (mem_outerJoin.mp hinner).1
  obtain ⟨workspace, hworkspace⟩ := Option.isSome_iff_exists.mp hrow
  obtain ⟨user, huser⟩ := Option.isSome_iff_exists.mp huser
  obtain ⟨hmem, hid⟩ := Table.find?_eq_some.mp hworkspace
  obtain ⟨hmem', hid'⟩ := Table.find?_eq_some.mp huser
  have hmatched : x.1.2.isNone = false :=
    matched_of_partner hinner ⟨workspace, hmem, holds_eq.mpr ⟨w, congrArg some hid, hw⟩⟩
  have hmatched' : x.2.isNone = false :=
    matched_of_partner hx ⟨user, hmem', holds_eq.mpr ⟨u, congrArg some hid', hu⟩⟩
  rw [hmatched, hmatched']
  rfl

/-! ## The legacy columns -/

/-- The status that says what `completed` says. -/
def legacyStatus (completed : Bool) : TaskStatus := if completed then .done else .todo

/-- Where `completed` is not NULL, the two comparisons with it are one. -/
theorem holds_ne_legacyStatus {st : Option TaskStatus} {c : Bool} :
    (and (isTrue (some c)) (ne st (some .done))).holds = false ∧
        (and (isFalse (some c)) (ne st (some .todo))).holds = false ↔
      (ne st (some (legacyStatus c))).holds = false := by
  cases c with
  | false => simp [Truth.isTrue, Truth.isFalse, legacyStatus]
  | true => simp [Truth.isTrue, Truth.isFalse, legacyStatus]

end Migration
end TaskPlatform
