import TaskPlatform.Migration.Counts
import TaskPlatform.Migration.FinalRows

/-!
# The contract step on any backfilled database

Revision `d4b6e8f1a203` sends its statements to a server that does not roll them back,
so its validation has to answer for all of them.  Everything here is about any database
at revision `c1e8d5a4b762`: its schema up to the order of columns and constraints and
the name of the foreign key of `owner_id`, and any rows that satisfy it.
-/

namespace TaskPlatform
namespace Migration

open Relational

/-! ## Schemas with the same constraints -/

/-- The same columns and constraints of `tasks`, in any order. -/
structure Schema.Alike (s s' : Schema) : Prop where
  columns : s.columns.Perm s'.columns
  foreignKeys : s.foreignKeys.Perm s'.foreignKeys
  checks : s.checks.Perm s'.checks
  map : s.map = s'.map

/-- Whether a statement looks at the indexes. -/
def Ddl.indexing : Ddl → Bool
  | .createIndex _ _ => true
  | .dropIndex _ => true
  | _ => false

namespace Schema.Alike

variable {s s' : Schema}

theorem symm (h : s.Alike s') : s'.Alike s :=
  ⟨h.columns.symm, h.foreignKeys.symm, h.checks.symm, h.map.symm⟩

theorem hasColumn (h : s.Alike s') (c : TaskColumn) : s.hasColumn c = s'.hasColumn c :=
  h.columns.any_eq

theorem hasConstraint (h : s.Alike s') (name : String) :
    s.hasConstraint name = s'.hasConstraint name := by
  rw [Schema.hasConstraint, Schema.hasConstraint, h.foreignKeys.any_eq, h.checks.any_eq]

theorem allows (h : s.Alike s') (r : Rows) (t : TaskRow) : s.allows r t = s'.allows r t := by
  rw [Schema.allows, Schema.allows, h.columns.all_eq, h.foreignKeys.all_eq, h.checks.all_eq]

theorem consistent (h : s.Alike s') {r : Rows} (hs : Store.Consistent ⟨s, r⟩) :
    Store.Consistent ⟨s', r⟩ where
  absent t ht c hc := hs.absent t ht c ((h.hasColumn c).trans hc)
  tasks t ht := (h.allows r t).symm.trans (hs.tasks t ht)
  users := hs.users
  workspaces := hs.workspaces
  members := hs.members
  map m hm := by
    rw [← h.map]
    exact hs.map m hm

/-- A statement that does not look at the indexes does the same to both. -/
theorem change (h : s.Alike s') {x : Ddl} (hx : x.indexing = false) {t' : Schema}
    (hchange : s'.change x = some t') : ∃ t, s.change x = some t ∧ t.Alike t' := by
  cases x with
  | addColumn c type =>
      simp only [Schema.change, h.hasColumn] at hchange ⊢
      split_ifs at hchange ⊢
      cases hchange
      exact ⟨_, rfl, h.columns.append_right _, h.foreignKeys, h.checks, h.map⟩
  | alterNullable c nullable =>
      simp only [Schema.change, h.hasColumn] at hchange ⊢
      split_ifs at hchange ⊢
      cases hchange
      exact ⟨_, rfl, h.columns.map _, h.foreignKeys, h.checks, h.map⟩
  | createForeignKey fk =>
      simp only [Schema.change, h.hasColumn, h.hasConstraint] at hchange ⊢
      by_cases hreject : (!s'.hasColumn fk.constrained || s'.hasConstraint fk.name) = true
      · rw [if_pos hreject] at hchange
        cases hchange
      · rw [if_neg hreject] at hchange ⊢
        cases hchange
        exact ⟨_, rfl, h.columns, h.foreignKeys.append_right _, h.checks, h.map⟩
  | createCheck ck =>
      simp only [Schema.change, h.hasColumn, h.hasConstraint] at hchange ⊢
      split_ifs at hchange ⊢
      cases hchange
      exact ⟨_, rfl, h.columns, h.foreignKeys, h.checks.append_right _, h.map⟩
  | createIndex name columns => cases hx
  | dropForeignKey name =>
      simp only [Schema.change, h.foreignKeys.any_eq] at hchange ⊢
      split_ifs at hchange ⊢
      cases hchange
      exact ⟨_, rfl, h.columns, h.foreignKeys.filter _, h.checks, h.map⟩
  | dropCheck name =>
      simp only [Schema.change, h.checks.any_eq] at hchange ⊢
      split_ifs at hchange ⊢
      cases hchange
      exact ⟨_, rfl, h.columns, h.foreignKeys, h.checks.filter _, h.map⟩
  | dropIndex name => cases hx
  | dropColumn c =>
      simp only [Schema.change, h.hasColumn, h.foreignKeys.any_eq, h.checks.any_eq] at hchange ⊢
      split_ifs at hchange ⊢
      cases hchange
      exact ⟨_, rfl, h.columns.filter _, h.foreignKeys, h.checks, h.map⟩
  | createMap schema =>
      simp only [Schema.change, h.map] at hchange ⊢
      split_ifs at hchange ⊢
      cases hchange
      exact ⟨_, rfl, h.columns, h.foreignKeys, h.checks, rfl⟩
  | dropMap =>
      simp only [Schema.change, h.map] at hchange ⊢
      split_ifs at hchange ⊢
      cases hchange
      exact ⟨_, rfl, h.columns, h.foreignKeys, h.checks, rfl⟩

theorem changeAll (h : s.Alike s') {xs : List Ddl} (hxs : ∀ x ∈ xs, x.indexing = false)
    {t' : Schema} (hchange : s'.changeAll xs = some t') :
    ∃ t, s.changeAll xs = some t ∧ t.Alike t' := by
  induction xs generalizing s s' with
  | nil =>
      cases hchange
      exact ⟨s, rfl, h⟩
  | cons x rest ih =>
      obtain ⟨t₁', hone', hrest'⟩ := Option.bind_eq_some_iff.mp hchange
      obtain ⟨t₁, hone, halike⟩ := h.change (hxs x List.mem_cons_self) hone'
      obtain ⟨t, hrest, hfinal⟩ := ih halike (fun y hy => hxs y (List.mem_cons_of_mem x hy)) hrest'
      refine ⟨t, ?_, hfinal⟩
      rw [Schema.changeAll, hone]
      exact hrest

end Schema.Alike

namespace Finalize

open Truth

/-! ## The schema at revision `c1e8d5a4b762` -/

/-- The server chose the name of the foreign key of `owner_id`, and nothing keeps the
baseline from having several of them. -/
structure AtBackfill (s : Schema) : Prop where
  revision : s.revision = "c1e8d5a4b762"
  columns : s.columns.Perm backfilledSchema.columns
  foreignKeys : (s.foreignKeys.filter fun fk => fk.constrained ≠ .ownerId).Perm
    finalSchema.foreignKeys
  owner : ∀ fk ∈ s.foreignKeys, fk.constrained = .ownerId → fk.referred = .users
  names : (s.foreignKeys.map ForeignKey.name).Nodup
  fresh : ∀ fk ∈ s.foreignKeys, ∀ ck : TaskCheck, fk.name ≠ ck.name
  checks : s.checks = [.status]
  map : s.map = some Compatibility.mapSchema

theorem atBackfill_backfilledSchema : AtBackfill backfilledSchema := by
  refine ⟨rfl, List.Perm.refl _, by decide, by decide, by decide, fun fk hfk ck => ?_, rfl, rfl⟩
  revert fk
  cases ck with
  | _ => decide

theorem atBackfill_reopenedSchema : AtBackfill reopenedSchema := by
  refine ⟨rfl, by decide, by decide, by decide, by decide, fun fk hfk ck => ?_, rfl, rfl⟩
  revert fk
  cases ck with
  | _ => decide

/-- The schema with one foreign key of `owner_id`. -/
def ownedSchema (fk : ForeignKey TaskColumn) : Schema :=
  { backfilledSchema with foreignKeys := fk :: finalSchema.foreignKeys }

theorem changeAll_ownedSchema {fk : ForeignKey TaskColumn} (howner : fk.constrained = .ownerId)
    (hname : ∀ fk' ∈ finalSchema.foreignKeys, fk'.name ≠ fk.name)
    (hfresh : ∀ ck : TaskCheck, fk.name ≠ ck.name) :
    (ownedSchema fk).changeAll (upgradeStatements fk.name) =
      some { finalSchema with revision := backfilledSchema.revision } := by
  obtain ⟨name, constrained, referred, ondelete⟩ := fk
  cases howner
  have htitle : name ≠ "ck_tasks_title_length" := hfresh .titleLength
  have hpriority : name ≠ "ck_tasks_priority" := hfresh .priority
  simp only [finalSchema, List.forall_mem_cons] at hname
  simp [upgradeStatements, Schema.changeAll, Schema.change, Schema.hasColumn, Schema.hasConstraint,
    ownedSchema, backfilledSchema, finalSchema, Compatibility.upgradedSchema, baselineSchema,
    TaskCheck.column, TaskCheck.name, hname, htitle, hpriority]

/-- What `_owner_foreign_key_name` finds. -/
structure OwnerKey (s : Schema) (name : String) : Prop where
  only : ∃ fk, (s.foreignKeys.filter fun fk => fk.constrained = .ownerId) = [fk] ∧ fk.name = name
  named : name ≠ ""

theorem ownerForeignKeyName_eq_ok {s : Schema} (h : AtBackfill s) {name : String} :
    ownerForeignKeyName s = .ok name ↔ OwnerKey s name := by
  have hsame : (s.foreignKeys.filter fun fk =>
      fk.constrained = .ownerId && fk.referred = .users) =
        s.foreignKeys.filter fun fk => fk.constrained = .ownerId := by
    refine List.filter_congr fun fk hfk => ?_
    by_cases howner : fk.constrained = .ownerId
    · simp [howner, h.owner fk hfk howner]
    · simp [howner]
  rw [ownerForeignKeyName, hsame]
  cases hmatching : s.foreignKeys.filter fun fk => fk.constrained = .ownerId with
  | nil =>
      refine ⟨nofun, fun hkey => ?_⟩
      obtain ⟨fk, honly, _⟩ := hkey.only
      rw [hmatching] at honly
      cases honly
  | cons fk rest =>
      cases rest with
      | cons fk' rest' =>
          refine ⟨nofun, fun hkey => ?_⟩
          obtain ⟨fk₀, honly, _⟩ := hkey.only
          rw [hmatching] at honly
          cases honly
      | nil =>
          show (abortIf (fk.name = "") _ >>= fun _ => pure fk.name) = _ ↔ _
          rw [abortWhen_bind]
          constructor
          · rintro ⟨hnamed, hname⟩
            cases hname
            exact ⟨⟨fk, hmatching, rfl⟩, hnamed⟩
          · rintro ⟨⟨fk₀, honly, hname⟩, hnamed⟩
            rw [hmatching] at honly
            cases honly
            exact ⟨hname ▸ hnamed, congrArg Except.ok hname⟩

/-- At the revision, one foreign key of `owner_id` makes the schema the one above. -/
theorem AtBackfill.alike {s : Schema} (h : AtBackfill s) {name : String}
    (hkey : OwnerKey s name) : ∃ fk, fk.name = name ∧ fk.constrained = .ownerId ∧
      (∀ fk' ∈ finalSchema.foreignKeys, fk'.name ≠ fk.name) ∧
      (∀ ck : TaskCheck, fk.name ≠ ck.name) ∧ s.Alike (ownedSchema fk) := by
  obtain ⟨fk, honly, hname⟩ := hkey.only
  have hmem : fk ∈ s.foreignKeys ∧ fk.constrained = .ownerId := by
    have hfk : fk ∈ s.foreignKeys.filter fun fk => fk.constrained = .ownerId := by
      rw [honly]
      exact List.mem_singleton.mpr rfl
    simpa using hfk
  have hperm : s.foreignKeys.Perm (fk :: finalSchema.foreignKeys) := by
    have hsplit := List.filter_append_perm (fun fk : ForeignKey TaskColumn =>
      decide (fk.constrained = .ownerId)) s.foreignKeys
    rw [honly] at hsplit
    refine hsplit.symm.trans (List.Perm.cons fk ?_)
    simpa using h.foreignKeys
  refine ⟨fk, hname, hmem.2, ?_, h.fresh fk hmem.1, h.columns, hperm, ?_, h.map⟩
  · have hnodup := (hperm.map ForeignKey.name).nodup_iff.mp h.names
    rw [List.map_cons, List.nodup_cons] at hnodup
    exact fun fk' hfk' hsame => hnodup.1 (hsame ▸ List.mem_map_of_mem hfk')
  · rw [h.checks]
    exact List.Perm.refl _

/-- What the schema at the revision says of a task. -/
theorem AtBackfill.task {s : Store} (h : AtBackfill s.schema) (hs : s.Consistent) {t : TaskRow}
    (ht : t ∈ s.rows.tasks.rows) :
    (∃ u, t.ownerId = some u) ∧ (∃ c, t.completed = some c) ∧
      ∀ fk ∈ finalSchema.foreignKeys, fk.allows s.rows t = true := by
  have hallows := hs.tasks t ht
  rw [Schema.allows, Bool.and_eq_true, Bool.and_eq_true, List.all_eq_true, List.all_eq_true]
    at hallows
  obtain ⟨⟨hcolumns, hreferences⟩, _⟩ := hallows
  have howner := hcolumns ⟨.ownerId, .integer, false⟩ (h.columns.mem_iff.mpr (by decide))
  have hcompleted := hcolumns ⟨.completed, .boolean, false⟩ (h.columns.mem_iff.mpr (by decide))
  refine ⟨?_, ?_, fun fk hfk => ?_⟩
  · cases ho : t.ownerId with
    | none => simp [TaskRow.isNull, ho] at howner
    | some u => exact ⟨u, rfl⟩
  · cases hc : t.completed with
    | none => simp [TaskRow.isNull, hc] at hcompleted
    | some c => exact ⟨c, rfl⟩
  · exact hreferences fk (List.mem_filter.mp (h.foreignKeys.mem_iff.mpr hfk)).1

/-! ## What the validation accepts -/

/-- A database whose collaboration data say what the legacy columns say. -/
structure Ready (r : Rows) : Prop where
  users : ∀ u ∈ r.users.rows, ∃ m ∈ r.map.rows, m.userId = u.id
  mappings : ∀ m ∈ r.map.rows, ∃ u ∈ r.users.rows, u.id = m.userId
  owners : ∀ m ∈ r.map.rows, ∃ x ∈ r.members.rows,
    x.workspaceId = m.workspaceId ∧ x.userId = m.userId ∧ x.role = .owner
  tasks : ∀ t ∈ r.tasks.rows, ∃ m ∈ r.map.rows,
    t.ownerId = some m.userId ∧ t.workspaceId = some m.workspaceId
  creators : ∀ t ∈ r.tasks.rows, t.creatorId = t.ownerId
  statuses : ∀ t ∈ r.tasks.rows, t.statusValue = t.completed.map legacyStatus
  final : ∀ t ∈ r.tasks.rows, finalSchema.allows r t = true

/-- The condition of the validation, on a task with its legacy columns. -/
theorem holds_invalidTask {t : TaskRow} {u : Id} {c : Bool} (howner : t.ownerId = some u)
    (hcompleted : t.completed = some c) :
    (invalidTask t).holds = false ↔ t.workspaceId.isNone = false ∧ t.creatorId = some u ∧
      t.statusValue = some (legacyStatus c) ∧ t.createdAt.isNone = false ∧
      t.updatedAt.isNone = false ∧ trimmedLengthOk t.title = true ∧ 1 ≤ t.priority ∧
      t.priority ≤ 5 := by
  have htitle : (1 : Int) ≤ (sqlTrim t.title).length ∧ ((sqlTrim t.title).length : Int) ≤ 100 ↔
      trimmedLengthOk t.title = true := by
    simp only [trimmedLengthOk, Bool.and_eq_true, decide_eq_true_eq]
    omega
  rw [invalidTask, holds_anyOf_eq_false, howner, hcompleted]
  simp only [List.forall_mem_cons, List.not_mem_nil, false_implies, forall_const, holds_isNull,
    holds_not_between, holds_notIn_statuses, true_and, and_true, ← t.isNone_statusValue]
  constructor
  · rintro ⟨hworkspace, hcreator, hstatus, hcreated, hupdated, hcreatorNe, hdone, htodo,
      hlength, hpriority⟩
    exact ⟨hworkspace, eq_some_of_holds_ne.mp ⟨hcreator, hcreatorNe⟩,
      eq_some_of_holds_ne.mp ⟨hstatus, holds_ne_legacyStatus.mp ⟨hdone, htodo⟩⟩, hcreated,
      hupdated, htitle.mp hlength, hpriority⟩
  · rintro ⟨hworkspace, hcreator, hstatus, hcreated, hupdated, hlength, hpriority⟩
    obtain ⟨hcreator, hcreatorNe⟩ := eq_some_of_holds_ne.mpr hcreator
    obtain ⟨hstatus, hstatusNe⟩ := eq_some_of_holds_ne.mpr hstatus
    obtain ⟨hdone, htodo⟩ := holds_ne_legacyStatus.mpr hstatusNe
    exact ⟨hworkspace, hcreator, hstatus, hcreated, hupdated, hcreatorNe, hdone, htodo,
      htitle.mpr hlength, hpriority⟩

/-- The counts of the validation say that the database is ready. -/
theorem validateUpgrade_eq_ok_iff {s : Store} (h : AtBackfill s.schema) (hs : s.Consistent)
    {name : String} : validateUpgrade s = .ok name ↔ Ready s.rows ∧ OwnerKey s.schema name := by
  rw [validateUpgrade]
  simp only [abortWhen_bind, ne_eq, not_not, ownerForeignKeyName_eq_ok h]
  rw [← and_assoc, mappingCounts_iff, matchingOwnerCount_iff, mappedTaskCount_iff]
  constructor
  · rintro ⟨⟨husers, hmappings⟩, howners, hvalid, _, htasks, hkey⟩
    refine ⟨⟨husers, hmappings, howners, htasks, fun t ht => ?_, fun t ht => ?_, fun t ht => ?_⟩,
      hkey⟩
    all_goals obtain ⟨⟨u, hu⟩, ⟨c, hc⟩, hreferences⟩ := h.task hs ht
    all_goals obtain ⟨hworkspace, hcreator, hstatus, hcreated, hupdated, hlength, hpriority⟩ :=
      (holds_invalidTask hu hc).mp (count_eq_zero.mp hvalid t ht)
    · rw [hcreator, hu]
    · rw [hstatus, hc]
      rfl
    · have hcreatorSet : t.creatorId.isNone = false := by
        rw [hcreator]
        rfl
      have hstatusSet : t.status.isNone = false := by
        rw [← t.isNone_statusValue, hstatus]
        rfl
      exact allows_finalSchema_iff.mpr ⟨⟨hworkspace, hcreatorSet, hstatusSet, hcreated, hupdated⟩,
        hreferences, hlength, hpriority⟩
  · rintro ⟨hready, hkey⟩
    refine ⟨⟨hready.users, hready.mappings⟩, hready.owners, count_eq_zero.mpr fun t ht => ?_, ?_,
      hready.tasks, hkey⟩
    · obtain ⟨⟨u, hu⟩, ⟨c, hc⟩, _⟩ := h.task hs ht
      obtain ⟨⟨hworkspace, _, _, hcreated, hupdated⟩, _, hlength, hpriority⟩ :=
        allows_finalSchema_iff.mp (hready.final t ht)
      refine (holds_invalidTask hu hc).mpr
        ⟨hworkspace, ?_, ?_, hcreated, hupdated, hlength, hpriority⟩
      · rw [hready.creators t ht, hu]
      · rw [hready.statuses t ht, hc]
        rfl
    · refine orphanReferenceCount_eq_zero fun t ht => ?_
      obtain ⟨⟨u, hu⟩, _, _⟩ := h.task hs ht
      obtain ⟨m, hm, howner, hworkspace⟩ := hready.tasks t ht
      obtain ⟨_, huser, hrow, _⟩ := hs.map m hm
      refine ⟨⟨m.workspaceId, hworkspace, hrow⟩, m.userId, ?_, huser⟩
      rw [hready.creators t ht, howner]

/-! ## What the upgrade leaves behind -/

/-- Statements one after the other, and the store after the last accepted one: the
server does not roll them back. -/
def statementsEffect (s : Store) : List Ddl → Result Unit × Store
  | [] => (.ok (), s)
  | x :: rest => match x.run s with
    | .error e => (.error e, s)
    | .ok s' => statementsEffect s' rest

/-- `upgrade`, with the store it leaves whether it raises or not. -/
def upgradeEffect (s : Store) : Result Unit × Store :=
  match validateUpgrade s with
  | .error e => (.error e, s)
  | .ok ownerForeignKeyName => statementsEffect s (upgradeStatements ownerForeignKeyName)

theorem runAll_eq_effect (s : Store) (xs : List Ddl) :
    Ddl.runAll s xs = (statementsEffect s xs).1.map fun _ => (statementsEffect s xs).2 := by
  induction xs generalizing s with
  | nil => rfl
  | cons x rest ih =>
      rw [Ddl.runAll, statementsEffect]
      cases hrun : x.run s with
      | error e => rfl
      | ok s' => exact ih s'

theorem upgrade_eq_effect (s : Store) :
    upgrade s = (upgradeEffect s).1.map fun _ => (upgradeEffect s).2 := by
  rw [upgrade, upgradeEffect]
  cases hvalid : validateUpgrade s with
  | error e => rfl
  | ok name => exact runAll_eq_effect s (upgradeStatements name)

theorem statementsEffect_of_runAll {s s' : Store} {xs : List Ddl}
    (h : Ddl.runAll s xs = .ok s') : statementsEffect s xs = (.ok (), s') := by
  rw [runAll_eq_effect] at h
  revert h
  rcases statementsEffect s xs with ⟨_ | _, s''⟩
  · nofun
  · intro h
    cases h
    rfl

/-- A validation raises nothing but its own errors. -/
def Aborts {α : Type} (x : Result α) : Prop := ∀ e, x = .error e → ∃ message, e = .abort message

theorem Aborts.bind {α β : Type} {x : Result α} {f : α → Result β} (hx : Aborts x)
    (hf : ∀ a, Aborts (f a)) : Aborts (x >>= f) := by
  intro e he
  cases x with
  | error e' =>
      cases he
      exact hx _ rfl
  | ok a => exact hf a e he

theorem aborts_abortWhen {c : Prop} [Decidable c] {message : String} :
    Aborts (abortWhen c message) := by
  intro e he
  unfold abortWhen at he
  split_ifs at he
  cases he
  exact ⟨message, rfl⟩

theorem aborts_ok {α : Type} (a : α) : Aborts (.ok a) := nofun

theorem aborts_ownerForeignKeyName (s : Schema) : Aborts (ownerForeignKeyName s) := by
  unfold ownerForeignKeyName
  dsimp only
  split
  · exact aborts_abortWhen.bind fun _ => aborts_ok _
  · exact aborts_abortWhen.bind fun _ => aborts_ok _

theorem aborts_validateUpgrade (s : Store) : Aborts (validateUpgrade s) := by
  unfold validateUpgrade
  refine aborts_abortWhen.bind fun _ => aborts_abortWhen.bind fun _ => ?_
  refine aborts_abortWhen.bind fun _ => aborts_abortWhen.bind fun _ => ?_
  refine aborts_abortWhen.bind fun _ => aborts_abortWhen.bind fun _ => ?_
  exact aborts_ownerForeignKeyName s.schema

theorem acceptsAll_upgradeStatements {r : Rows}
    (h : ∀ t ∈ r.tasks.rows, finalSchema.allows r t = true) (name : String) :
    Ddl.acceptsAll r (upgradeStatements name) := by
  simp only [upgradeStatements, Ddl.acceptsAll, Ddl.accepts, Ddl.onRows, List.all_eq_true,
    Bool.not_eq_true', and_true]
  have hfits : ∀ t ∈ r.tasks.rows, TaskCheck.titleLength.allows t = true ∧
      TaskCheck.priority.allows t = true := by
    intro t ht
    obtain ⟨_, _, hlength, hpriority⟩ := allows_finalSchema_iff.mp (h t ht)
    simp [TaskCheck.allows, TaskCheck.condition, between, hlength, hpriority]
  have hnull := fun t ht => (allows_finalSchema_iff.mp (h t ht)).1
  exact ⟨fun t ht => (hnull t ht).1, fun t ht => (hnull t ht).2.1,
    fun t ht => (hnull t ht).2.2.1, fun t ht => (hnull t ht).2.2.2.1,
    fun t ht => (hnull t ht).2.2.2.2, fun t ht => (hfits t ht).1, fun t ht => (hfits t ht).2⟩

/-- The rows without the legacy columns satisfy the final schema. -/
theorem consistent_finalRows {s : Store} (hs : s.Consistent)
    (hfinal : ∀ t ∈ s.rows.tasks.rows, finalSchema.allows s.rows t = true) :
    Store.Consistent ⟨finalSchema, finalRows s.rows⟩ where
  absent t ht c hc := by
    obtain ⟨t₀, _, rfl⟩ := List.mem_map.mp ht
    cases c with
    | ownerId => rfl
    | completed => rfl
    | _ => cases hc
  tasks t ht := by
    obtain ⟨t₀, ht₀, rfl⟩ := List.mem_map.mp ht
    obtain ⟨hcolumns, hreferences, hchecks⟩ := allows_finalSchema_iff.mp (hfinal t₀ ht₀)
    refine allows_finalSchema_iff.mpr ⟨hcolumns, ?_, hchecks⟩
    simp only [finalSchema, List.forall_mem_cons] at hreferences ⊢
    exact ⟨hreferences.1, hreferences.2.1, hreferences.2.2.1, List.forall_mem_nil _⟩
  users := hs.users
  workspaces := hs.workspaces
  members := hs.members
  map m hm := ⟨rfl, (hs.map m hm).2⟩

/-- The statements suit every database the validation accepts. -/
theorem upgradeEffect_of_valid {s : Store} (h : AtBackfill s.schema) (hs : s.Consistent)
    {name : String} (hvalid : validateUpgrade s = .ok name) :
    Ddl.acceptsAll s.rows (upgradeStatements name) ∧ ∃ schema, schema.Alike finalSchema ∧
      upgradeEffect s = (.ok (), ⟨schema, finalRows s.rows⟩) := by
  obtain ⟨hready, hkey⟩ := (validateUpgrade_eq_ok_iff h hs).mp hvalid
  have haccepts := acceptsAll_upgradeStatements hready.final name
  obtain ⟨fk, rfl, howner, hnames, hfresh, halike⟩ := h.alike hkey
  have hindexing : ∀ x ∈ upgradeStatements fk.name, x.indexing = false := by
    simp [upgradeStatements, Ddl.indexing]
  obtain ⟨schema, hchange, hfinal⟩ :=
    halike.changeAll hindexing (changeAll_ownedSchema howner hnames hfresh)
  have hrun : Ddl.runAll s (upgradeStatements fk.name) = .ok ⟨schema, finalRows s.rows⟩ := by
    rw [← onRowsAll_upgradeStatements fk.name]
    exact Ddl.runAll_eq_ok hchange haccepts
  refine ⟨haccepts, schema, ⟨hfinal.columns, hfinal.foreignKeys, hfinal.checks, hfinal.map⟩, ?_⟩
  rw [upgradeEffect, hvalid]
  exact statementsEffect_of_runAll hrun

/-- The upgrade of a database at revision `c1e8d5a4b762` changes nothing or makes the
final schema of it, with rows that satisfy it; and it does so for the databases that
are ready. -/
theorem upgrade_never_half_done {s : Store} (h : AtBackfill s.schema) (hs : s.Consistent) :
    ((∃ reason, upgradeEffect s = (.error (.abort reason), s)) ∨
      ∃ name s', OwnerKey s.schema name ∧ validateUpgrade s = .ok name ∧
        Ddl.acceptsAll s.rows (upgradeStatements name) ∧ upgradeEffect s = (.ok (), s') ∧
        s'.schema.Alike finalSchema ∧ s'.Consistent) ∧
    ∀ name, validateUpgrade s = .ok name ↔ Ready s.rows ∧ OwnerKey s.schema name := by
  refine ⟨?_, fun name => validateUpgrade_eq_ok_iff h hs⟩
  cases hvalid : validateUpgrade s with
  | error e =>
      obtain ⟨reason, rfl⟩ := aborts_validateUpgrade s e hvalid
      refine Or.inl ⟨reason, ?_⟩
      rw [upgradeEffect, hvalid]
  | ok name =>
      obtain ⟨hready, hkey⟩ := (validateUpgrade_eq_ok_iff h hs).mp hvalid
      obtain ⟨haccepts, schema, halike, heffect⟩ := upgradeEffect_of_valid h hs hvalid
      refine Or.inr ⟨name, _, hkey, rfl, haccepts, heffect, halike, ?_⟩
      exact halike.symm.consistent (consistent_finalRows hs hready.final)

/-- A backfilled database with one user, who has completed a task. -/
def sampleBackfilled : Store :=
  { schema := backfilledSchema
    rows :=
      { users := ⟨[⟨1, "ada", "hash"⟩], by decide⟩
        workspaces := ⟨[⟨1, "Personal Workspace - ada", 1, 100, 100⟩], by decide⟩
        members := ⟨[⟨1, 1, .owner, 100, 100⟩], by decide⟩
        tasks := ⟨[{ id := 1, title := "Write", completed := some true, priority := 3,
                     ownerId := some 1, workspaceId := some 1, creatorId := some 1,
                     status := some (.name .done), createdAt := some 100, updatedAt := some 100 }],
          by decide⟩
        map := ⟨[⟨1, 1, 1, some 1, 100⟩], by decide⟩
        nextUserId := 2
        nextWorkspaceId := 2
        nextTaskId := 2 } }

theorem consistent_sampleBackfilled : sampleBackfilled.Consistent := by
  refine ⟨fun t ht c hc => ?_, by decide +kernel, by decide, by decide, by decide, by decide⟩
  cases c with
  | _ => cases hc

theorem upgrade_never_half_done_sample :
    ((∃ reason, upgradeEffect sampleBackfilled = (.error (.abort reason), sampleBackfilled)) ∨
      ∃ name s', OwnerKey sampleBackfilled.schema name ∧
        validateUpgrade sampleBackfilled = .ok name ∧
        Ddl.acceptsAll sampleBackfilled.rows (upgradeStatements name) ∧
        upgradeEffect sampleBackfilled = (.ok (), s') ∧
        s'.schema.Alike finalSchema ∧ s'.Consistent) ∧
    ∀ name, validateUpgrade sampleBackfilled = .ok name ↔
      Ready sampleBackfilled.rows ∧ OwnerKey sampleBackfilled.schema name :=
  upgrade_never_half_done atBackfill_backfilledSchema consistent_sampleBackfilled

end Finalize
end Migration
end TaskPlatform
