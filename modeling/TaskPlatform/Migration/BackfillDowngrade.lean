import TaskPlatform.Migration.BackfillUpgrade

/-!
# The way back from a backfilled baseline

The downgrade recognises what the upgrade has made, and removes it.
-/

namespace TaskPlatform
namespace Migration
namespace Backfill

open Relational Truth

/-! ## The statements -/

/-- A task once the workspaces of some mappings have been cleared. -/
def cleared (done : List Mapping) (t : TaskRow) : TaskRow :=
  if done.any (inOwnersWorkspace t) then unassign t else t

theorem id_cleared (done : List Mapping) (t : TaskRow) : (cleared done t).id = t.id := by
  unfold cleared
  split
  · rfl
  · rfl

theorem cleared_append (done : List Mapping) (m : Mapping) (t : TaskRow) :
    cleared (done ++ [m]) t =
      if inOwnersWorkspace (cleared done t) m then unassign (cleared done t)
      else cleared done t := by
  unfold cleared
  rw [List.any_append, List.any_cons, List.any_nil, Bool.or_false]
  cases hdone : done.any (inOwnersWorkspace t) with
  | true =>
      have hnot : inOwnersWorkspace (unassign t) m = false := by
        rw [Bool.eq_false_iff]
        exact fun h => nomatch (inOwnersWorkspace_iff.mp h).2
      simp only [Bool.true_or, if_true, hnot, Bool.false_eq_true, if_false]
  | false => simp only [Bool.false_or, Bool.false_eq_true, if_false]

/-- Whether a workspace is one of the mapped ones. -/
def isMapped (mappings : List Mapping) (w : Id) : Bool :=
  mappings.any fun m => m.workspaceId = w

theorem isMapped_iff {mappings : List Mapping} {w : Id} :
    isMapped mappings w = true ↔ ∃ m ∈ mappings, m.workspaceId = w := by
  simp only [isMapped, List.any_eq_true, decide_eq_true_eq]

theorem isMapped_append (done : List Mapping) (m : Mapping) (w : Id) :
    isMapped (done ++ [m]) w = (isMapped done w || decide (m.workspaceId = w)) := by
  rw [isMapped, List.any_append, List.any_cons, List.any_nil, Bool.or_false, ← isMapped]

/-- The rows without some generated workspaces and their memberships. -/
def withoutGenerated (done : List Mapping) (r : Rows) : Rows :=
  { r with
    workspaces := r.workspaces.deleteWhere fun w => isMapped done w.id
    members := r.members.deleteWhere fun x => isMapped done x.workspaceId }

/-- The rows without anything generated. -/
def reverted (r : Rows) : Rows :=
  withoutGenerated r.map.rows
    { r with tasks := r.tasks.mapRows (cleared r.map.rows) (id_cleared r.map.rows), map := ∅ }

/-- The workspace of a mapping belongs to the mapped user alone. -/
structure Private (r : Rows) (m : Mapping) : Prop where
  member : ∀ x ∈ r.members.rows, x.workspaceId = m.workspaceId → x.userId = m.userId
  task : ∀ t ∈ r.tasks.rows, t.workspaceId = some m.workspaceId → t.ownerId = some m.userId

/-- The columns the upgrade assigns. -/
def assignedColumns : List TaskColumn :=
  [.workspaceId, .creatorId, .assigneeId, .status, .createdAt, .updatedAt]

/-- A schema whose assigned columns may be emptied, and in which nothing but
`workspace_id` keeps a task in a workspace. -/
structure Detachable (s : Schema) : Prop where
  nullable : ∀ col ∈ s.columns, col.name ∈ assignedColumns → col.nullable = true
  references : ∀ fk ∈ s.foreignKeys, fk.referred = .workspaces → fk.constrained = .workspaceId
  map : s.map.isSome = true

theorem detachable_of_compatible {s : Schema} (h : Compatibility.Compatible s) :
    Detachable s := by
  refine ⟨fun col hcol hassigned => ?_, fun fk hfk hreferred => ?_, ?_⟩
  · by_contra hnullable
    have hrequired : col.name ∈ (s.columns.filter fun col => !col.nullable).map Column.name := by
      apply List.mem_map_of_mem
      apply List.mem_filter.mpr
      exact ⟨hcol, by simp [hnullable]⟩
    rw [h.required.mem_iff] at hrequired
    revert hassigned hrequired
    cases col.name with
    | _ => decide
  · have hcolumn : (fk.constrained, fk.referred) ∈ s.foreignKeys.map fun fk =>
        (fk.constrained, fk.referred) := List.mem_map_of_mem hfk
    rw [h.references.mem_iff, hreferred] at hcolumn
    simpa using hcolumn
  · simp [h.map]

section Statements

variable {schema : Schema} {r : Rows}

/-- The columns the upgrade has assigned may be emptied. -/
theorem allows_unassign (hschema : Detachable schema) {t : TaskRow}
    (ht : schema.allows r t = true) {r' : Rows} (husers : r'.users = r.users)
    (hworkspaces : r'.workspaces = r.workspaces) : schema.allows r' (unassign t) = true := by
  simp only [Schema.allows, Bool.and_eq_true, List.all_eq_true] at ht ⊢
  obtain ⟨⟨hcolumns, hreferences⟩, hchecks⟩ := ht
  refine ⟨⟨fun col hcol => ?_, fun fk hfk => ?_⟩, fun ck hck => ?_⟩
  · by_cases hassigned : col.name ∈ assignedColumns
    · simp [hschema.nullable col hcol hassigned]
    · have hsame : (unassign t).isNull col.name = t.isNull col.name := by
        revert hassigned
        cases col.name with
        | id | title | completed | priority | ownerId | description => exact fun _ => rfl
        | _ => simp [assignedColumns]
      rw [hsame]
      exact hcolumns col hcol
  · have hsame : r'.hasId = r.hasId := by
      funext table x
      cases table with
      | users => simp only [Rows.hasId, Rows.user?, husers]
      | workspaces => simp only [Rows.hasId, Rows.workspace?, hworkspaces]
      | _ => rfl
    have hallows := hreferences fk hfk
    rw [ForeignKey.allows] at hallows ⊢
    rw [hsame]
    cases hcolumn : fk.constrained with
    | ownerId =>
        rw [hcolumn] at hallows
        exact hallows
    | _ => rfl
  · cases ck with
    | status => exact TaskCheck.allows_status _
    | titleLength => exact hchecks .titleLength hck
    | priority => exact hchecks .priority hck

theorem clearTasks_eq_ok (hschema : Detachable schema)
    (hrows : ∀ t ∈ r.tasks.rows, schema.allows r t = true) (mappings : List Mapping) :
    mappings.foldlM clearTasks ⟨schema, r⟩ =
      .ok ⟨schema,
        { r with tasks := r.tasks.mapRows (cleared mappings) (id_cleared mappings) }⟩ := by
  have hloop := foldlM_ok (f := clearTasks) (l := mappings) (b := ⟨schema, r⟩)
    (fun done s => s = ⟨schema, { r with
      tasks := r.tasks.mapRows (cleared done) (id_cleared done) }⟩)
    (fun done m rest _ s hs => ?_) ?_
  · obtain ⟨s, hrun, hs⟩ := hloop
    rw [hrun, hs]
  · subst hs
    refine ⟨_, accept_eq_ok.mpr ⟨fun t ht _ => ?_, rfl⟩, ?_⟩
    · obtain ⟨t₀, ht₀, rfl⟩ := List.mem_map.mp ht
      have hsame : unassign (cleared done t₀) = unassign t₀ := by
        unfold cleared
        split
        · rfl
        · rfl
      rw [hsame]
      exact allows_unassign hschema (hrows t₀ ht₀) rfl rfl
    · have htasks : (r.tasks.mapRows (cleared done) (id_cleared done)).updateWhere
          (fun t => inOwnersWorkspace t m) unassign id_unassign =
            r.tasks.mapRows (cleared (done ++ [m])) (id_cleared (done ++ [m])) := by
        rw [Table.updateWhere, Table.mapRows_mapRows]
        exact Table.mapRows_congr fun t _ => (cleared_append done m t).symm
      have hcondition : (fun t : TaskRow => (Truth.and (eq t.ownerId (some m.userId))
          (eq t.workspaceId (some m.workspaceId))).holds) = fun t => inOwnersWorkspace t m := by
        funext t
        rw [Bool.eq_iff_iff, inOwnersWorkspace_iff, holds_and, Bool.and_eq_true, holds_eq_some,
          holds_eq_some]
      simp only [hcondition, htasks]
  · rw [Table.mapRows_eq_self]
    exact fun t _ => rfl

/-- Nothing is left that keeps a generated workspace. -/
theorem refersTo_eq_false (hschema : Detachable schema) {w : Id}
    (hmembers : ∀ x ∈ r.members.rows, x.workspaceId ≠ w) (hmap : r.map = ∅)
    (htasks : ∀ t ∈ r.tasks.rows, t.workspaceId ≠ some w) :
    Store.refersTo ⟨schema, r⟩ w = false := by
  have hmap' : (r.map.rows.any fun m => m.workspaceId = w) = false := by
    rw [hmap]
    rfl
  have hmembers' : (r.members.rows.any fun x => x.workspaceId = w) = false := by
    simpa only [List.any_eq_false, decide_eq_true_eq] using hmembers
  simp only [Store.refersTo, hmembers', hmap', Bool.false_or, List.any_eq_false, Bool.and_eq_true,
    decide_eq_true_eq, List.any_eq_true, not_and, not_exists]
  intro fk hfk hreferred t ht hreference
  rw [hschema.references fk hfk hreferred] at hreference
  exact htasks t ht hreference

theorem deleteGenerated_eq_ok (hschema : Detachable schema) (hmap : r.map = ∅)
    {mappings : List Mapping}
    (hmembers : ∀ m ∈ mappings, ∀ x ∈ r.members.rows, x.workspaceId = m.workspaceId →
      x.userId = m.userId)
    (htasks : ∀ m ∈ mappings, ∀ t ∈ r.tasks.rows, t.workspaceId ≠ some m.workspaceId) :
    mappings.foldlM deleteGenerated ⟨schema, r⟩ =
      .ok ⟨schema, withoutGenerated mappings r⟩ := by
  have hloop := foldlM_ok (f := deleteGenerated) (l := mappings) (b := ⟨schema, r⟩)
    (fun done s => s = ⟨schema, withoutGenerated done r⟩) (fun done m rest hl s hs => ?_) ?_
  · obtain ⟨s, hrun, hs⟩ := hloop
    rw [hrun, hs]
  · subst hs
    have hm : m ∈ mappings := by
      rw [hl]
      exact List.mem_append_right done List.mem_cons_self
    have hdelete : (withoutGenerated done r).members.deleteWhere (fun x =>
        x.workspaceId = m.workspaceId && x.userId = m.userId) =
          (withoutGenerated (done ++ [m]) r).members := by
      show (r.members.deleteWhere _).deleteWhere _ = _
      rw [Table.deleteWhere_deleteWhere]
      refine Table.deleteWhere_congr fun x hx => ?_
      rw [isMapped_append]
      refine congrArg _ (Bool.eq_iff_iff.mpr ?_)
      rw [Bool.and_eq_true, decide_eq_true_eq, decide_eq_true_eq, decide_eq_true_eq]
      constructor
      · exact fun h => h.1.symm
      · exact fun h => ⟨h.symm, hmembers m hm x hx h.symm⟩
    have herase : (withoutGenerated done r).workspaces.erase m.workspaceId =
        (withoutGenerated (done ++ [m]) r).workspaces := by
      show (r.workspaces.deleteWhere _).erase _ = _
      rw [Table.erase_eq_deleteWhere, Table.deleteWhere_deleteWhere]
      refine Table.deleteWhere_congr fun w _ => ?_
      rw [isMapped_append, key_workspace]
      exact congrArg _ (decide_eq_decide.mpr eq_comm)
    refine ⟨_, bind_eq_ok.mpr ⟨_, rfl, accept_eq_ok.mpr ⟨?_, rfl⟩⟩, ?_⟩
    · refine refersTo_eq_false hschema (fun x hx => ?_) hmap (htasks m hm)
      have hx' : x ∈ (withoutGenerated (done ++ [m]) r).members.rows := hdelete ▸ hx
      intro hw
      have hkeep : (!isMapped (done ++ [m]) x.workspaceId) = true := (List.mem_filter.mp hx').2
      rw [isMapped_append, hw] at hkeep
      simp at hkeep
    · show (⟨schema, _⟩ : Store) = ⟨schema, _⟩
      simp only [hdelete, herase]
      rfl
  · have hworkspaces : (withoutGenerated [] r).workspaces = r.workspaces :=
      Table.deleteWhere_eq_self fun _ _ => rfl
    have hmembers : (withoutGenerated [] r).members = r.members :=
      Table.deleteWhere_eq_self fun _ _ => rfl
    show (⟨schema, r⟩ : Store) = ⟨schema, { r with
      workspaces := (withoutGenerated [] r).workspaces
      members := (withoutGenerated [] r).members }⟩
    rw [hworkspaces, hmembers]

/-- The downgrade goes through once its guard has. -/
theorem downgrade_eq_ok (hschema : Detachable schema)
    (hrows : ∀ t ∈ r.tasks.rows, schema.allows r t = true)
    (hprivate : ∀ m ∈ r.map.rows, Private r m) (hvalid : validateDowngrade r = .ok r.map.rows) :
    downgrade ⟨schema, r⟩ = .ok ⟨schema, reverted r⟩ := by
  refine bind_eq_ok.mpr ⟨_, hvalid, bind_eq_ok.mpr ⟨_, clearTasks_eq_ok hschema hrows _, ?_⟩⟩
  refine bind_eq_ok.mpr ⟨_, accept_eq_ok.mpr ⟨hschema.map, rfl⟩, ?_⟩
  refine deleteGenerated_eq_ok hschema rfl (fun m hm => (hprivate m hm).member) ?_
  intro m hm t ht hw
  obtain ⟨t₀, ht₀, rfl⟩ := List.mem_map.mp ht
  unfold cleared at hw
  split at hw
  · cases hw
  · rename_i hother
    refine hother (List.any_eq_true.mpr ⟨m, hm, inOwnersWorkspace_iff.mpr ⟨?_, hw⟩⟩)
    exact (hprivate m hm).task t₀ ht₀ hw

end Statements

/-! ## On a backfilled baseline -/

section Baseline

variable {b r : Rows}

/-- A task is in a mapped workspace exactly when its owner is the mapped user. -/
theorem Complete.workspace_iff (h : Complete b r) (hb : Legacy b) {t : TaskRow}
    (ht : t ∈ r.tasks.rows) {m : Mapping} (hm : m ∈ r.map.rows) :
    t.workspaceId = some m.workspaceId ↔ t.ownerId = some m.userId := by
  obtain ⟨t₀, _, m', hm', howner, rfl⟩ := h.task hb ht
  have howner' : (assign m'.workspaceId m'.userId m'.migratedAt t₀).ownerId = some m'.userId :=
    howner
  rw [howner']
  show some m'.workspaceId = some m.workspaceId ↔ some m'.userId = some m.userId
  rw [Option.some.injEq, Option.some.injEq]
  constructor
  · exact fun hsame => congrArg Mapping.userId (h.distinct m' hm' m hm hsame)
  · exact fun hsame => congrArg Mapping.workspaceId (r.map.eq_of_key_eq hm' hm hsame)

theorem Complete.members_eq (h : Complete b r) {m : Mapping} (hm : m ∈ r.map.rows) :
    (r.members.rows.filter fun x => x.workspaceId = m.workspaceId) = [ownerMembership m] := by
  have hgenerated := (h.mapping m hm).2
  refine filter_eq_singleton r.members.nodup_rows fun x => ?_
  rw [decide_eq_true_eq]
  constructor
  · rintro ⟨hx, hw⟩
    have hfind : r.member? x.workspaceId x.userId = some x := Table.find?_key r.members hx
    rw [hw, hgenerated.members] at hfind
    split_ifs at hfind with hu
    exact (Option.some.inj hfind).symm
  · rintro rfl
    have hfind := hgenerated.members m.userId
    rw [if_pos rfl] at hfind
    exact ⟨Table.mem_of_find? hfind, rfl⟩

theorem changedTask_assign {m : Mapping} {t : TaskRow} (howner : t.ownerId = some m.userId) :
    (changedTask m (assign m.workspaceId m.userId m.migratedAt t)).holds = false := by
  rw [changedTask, holds_and, Bool.and_eq_false_iff]
  refine Or.inr (holds_anyOf_eq_false.mpr ?_)
  simp only [assign, howner, List.forall_mem_cons, holds_ne_self, true_and]
  cases t.completed with
  | none => exact ⟨rfl, rfl, rfl, List.forall_mem_nil _⟩
  | some c =>
      cases c with
      | _ => exact ⟨rfl, rfl, rfl, List.forall_mem_nil _⟩

theorem Complete.validateMapping (h : Complete b r) (hb : Legacy b) {m : Mapping}
    (hm : m ∈ r.map.rows) : validateMapping r m = .ok () := by
  obtain ⟨user, huser, hworkspace⟩ := (h.mapping m hm).2.workspace
  have hid : user.id = m.userId := Table.key_of_find? huser
  have huser' : r.user? m.userId = some user := by
    rw [Rows.user?, h.users]
    exact huser
  unfold Backfill.validateMapping
  simp only [huser', hworkspace, Option.map_some, h.members_eq hm]
  refine abortWhen_bind.mpr ⟨?_, abortWhen_bind.mpr ⟨?_, abortWhen_bind.mpr ⟨?_, ?_⟩⟩⟩
  · simp [personalWorkspace, hid]
  · simp [ownerMembership]
  · obtain ⟨hcount, hmax⟩ := h.ownerTasks m.userId
    have hgenerated := (h.mapping m hm).2
    have hsame : r.tasks.rows.filter (fun t => (eq t.workspaceId (some m.workspaceId)).holds) =
        r.tasks.rows.filter fun t => (eq t.ownerId (some m.userId)).holds := by
      refine List.filter_congr fun t ht => Bool.eq_iff_iff.mpr ?_
      rw [holds_eq_some, holds_eq_some]
      exact h.workspace_iff hb ht hm
    rintro (hne | hne | hne)
    · exact hne (hcount.trans hgenerated.count.symm)
    · rw [hsame] at hne
      exact hne (hcount.trans hgenerated.count.symm)
    · exact hne (hmax.trans hgenerated.maxId.symm)
  · refine abortWhen_eq_ok.mpr (not_not.mpr (count_eq_zero.mpr fun t ht => ?_))
    obtain ⟨t₀, _, m', hm', howner, rfl⟩ := h.task hb ht
    by_cases hsame : m' = m
    · rw [← hsame]
      exact changedTask_assign howner
    · rw [changedTask, holds_and, Bool.and_eq_false_iff]
      refine Or.inl (Bool.eq_false_iff.mpr fun hw => ?_)
      have hworkspace := holds_eq_some.mp hw
      exact hsame (h.distinct m' hm' m hm (Option.some.inj hworkspace))

theorem Complete.isPrivate (h : Complete b r) (hb : Legacy b) {m : Mapping}
    (hm : m ∈ r.map.rows) : Private r m := by
  constructor
  · intro x hx hw
    have hmem : x ∈ r.members.rows.filter fun x => x.workspaceId = m.workspaceId :=
      List.mem_filter.mpr ⟨hx, decide_eq_true hw⟩
    rw [h.members_eq hm, List.mem_singleton] at hmem
    rw [hmem]
    rfl
  · exact fun t ht hw => (h.workspace_iff hb ht hm).mp hw

/-- All tasks are cleared in the end. -/
theorem Complete.cleared_eq (h : Complete b r) (hb : Legacy b) :
    r.tasks.mapRows (cleared r.map.rows) (id_cleared r.map.rows) = b.tasks := by
  rw [h.tasks, Table.mapRows_mapRows]
  refine Table.mapRows_eq_self fun t ht => ?_
  obtain ⟨u, howner, hu⟩ := hb.owner t ht
  obtain ⟨m, hm, rfl⟩ := h.exists_mapping hu
  have hassigned := assigned_of_mapped howner (Table.find?_key r.map hm)
  have hin : r.map.rows.any (inOwnersWorkspace (assigned r.map t)) = true := by
    rw [hassigned]
    exact List.any_eq_true.mpr ⟨m, hm, inOwnersWorkspace_iff.mpr ⟨howner, rfl⟩⟩
  rw [Function.comp_apply, cleared, if_pos hin, hassigned]
  exact hb.unassigned t ht

/-- Without what the upgrade has made, the rows are those of the baseline. -/
theorem Complete.reverted_eq (h : Complete b r) (hb : Legacy b) :
    (reverted r).users = b.users ∧ (reverted r).workspaces = b.workspaces ∧
      (reverted r).members = b.members ∧ (reverted r).tasks = b.tasks := by
  have hunmapped : ∀ {w}, isMapped r.map.rows w = false → ∀ m ∈ r.map.rows, m.workspaceId ≠ w := by
    intro w hw m hm heq
    exact Bool.eq_false_iff.mp hw (isMapped_iff.mpr ⟨m, hm, heq⟩)
  have habsent : ∀ {w}, isMapped r.map.rows w = true → b.workspace? w = none := by
    intro w hw
    obtain ⟨m, hm, rfl⟩ := isMapped_iff.mp hw
    cases hfind : b.workspace? m.workspaceId with
    | none => rfl
    | some row => exact absurd rfl (h.kept hb (Option.isSome_of_eq_some hfind) m hm)
  refine ⟨h.users, ?_, ?_, h.cleared_eq hb⟩
  · exact Table.deleteWhere_eq (isMapped r.map.rows) (fun w hw => habsent hw)
      fun w hw => h.workspaces w (hunmapped hw)
  · refine Table.deleteWhere_eq (fun k : MemberKey => isMapped r.map.rows (ofLex k).1)
      (fun k hk => ?_) fun k hk => h.members (ofLex k).1 (hunmapped hk) (ofLex k).2
    cases hfind : b.members.find? k with
    | none => rfl
    | some x =>
        have hworkspace := hb.members (ofLex k).1 (ofLex k).2 x hfind
        rw [habsent hk] at hworkspace
        cases hworkspace

/-- The downgrade of a backfilled baseline goes through. -/
theorem Complete.downgrade_eq_ok (h : Complete b r) (hb : Legacy b) {schema : Schema}
    (hschema : Compatibility.Compatible schema) :
    downgrade ⟨schema, r⟩ = .ok ⟨schema, reverted r⟩ := by
  have hvalid : validateDowngrade r = .ok r.map.rows := by
    refine bind_eq_ok.mpr ⟨(), forM_eq_ok.mpr fun m hm => ?_, rfl⟩
    exact h.validateMapping hb hm
  refine Backfill.downgrade_eq_ok (detachable_of_compatible hschema) (fun t ht => ?_)
    (fun m hm => h.isPrivate hb hm) hvalid
  obtain ⟨t₀, ht₀, m, hm, howner, rfl⟩ := h.task hb ht
  obtain ⟨user, huser, hworkspace⟩ := (h.mapping m hm).2.workspace
  have hfound : r.hasId .users m.userId = true := by
    show (r.users.find? m.userId).isSome = true
    rw [h.users]
    exact Option.isSome_of_eq_some huser
  have hw : r.hasId .workspaces m.workspaceId = true := Option.isSome_of_eq_some hworkspace
  refine hschema.allows_iff.mpr ⟨hb.completed t₀ ht₀, ?_, ?_, hw, hfound, rfl⟩
  · exact Option.isSome_of_eq_some howner
  · show t₀.ownerId.all (r.hasId .users) = true
    rw [howner]
    exact hfound

end Baseline

end Backfill
end Migration
end TaskPlatform
