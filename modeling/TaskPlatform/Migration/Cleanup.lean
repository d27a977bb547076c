import TaskPlatform.Concurrency.References
import TaskPlatform.Migration.Retire
import TaskPlatform.Migration.RoundTrip
import TaskPlatform.Serial.Run

/-!
# The cleanup after any use of the application

The application reads the rows of the final schema, and never touches the mapping
table.  Whatever it is asked to do, its references and the founders of the generated
workspaces stay, which is what revision `e5a1c7d9b302` validates.
-/

namespace TaskPlatform
namespace Migration

open Relational Transaction

/-! ## The rows the application works on -/

/-- A row of `tasks` as the final model has it. -/
def TaskRow.ofTask (t : Task) : TaskRow :=
  { id := t.id, title := t.title, priority := t.priority, description := t.description,
    workspaceId := some t.workspaceId, creatorId := some t.creatorId,
    assigneeId := t.assigneeId, status := some (.name t.status), createdAt := some t.createdAt,
    updatedAt := some t.updatedAt }

/-- The final model's reading of a row, whose required columns are not NULL. -/
def TaskRow.task (t : TaskRow) : Task :=
  { id := t.id, title := t.title, priority := t.priority, description := t.description,
    workspaceId := t.workspaceId.getD 0, creatorId := t.creatorId.getD 0,
    assigneeId := t.assigneeId, status := t.statusValue.getD .todo,
    createdAt := t.createdAt.getD 0, updatedAt := t.updatedAt.getD 0 }

theorem TaskRow.id_ofTask (t : Task) : (TaskRow.ofTask t).id = t.id := rfl

theorem TaskRow.id_task (t : TaskRow) : t.task.id = t.id := rfl

namespace Rows

/-- The rows of an application database beside a mapping table. -/
def ofDatabase (d : Database) (map : Table Mapping) : Rows :=
  { users := d.users, workspaces := d.workspaces, members := d.members,
    tasks := d.tasks.mapRows TaskRow.ofTask TaskRow.id_ofTask, map := map,
    nextUserId := d.nextUserId, nextWorkspaceId := d.nextWorkspaceId,
    nextTaskId := d.nextTaskId }

/-- What the application reads of the rows. -/
def database (r : Rows) : Database :=
  { users := r.users, workspaces := r.workspaces, members := r.members,
    tasks := r.tasks.mapRows TaskRow.task TaskRow.id_task, nextUserId := r.nextUserId,
    nextWorkspaceId := r.nextWorkspaceId, nextTaskId := r.nextTaskId }

/-- The application sees all of the rows. -/
theorem ofDatabase_database {r : Rows} (h : ∀ t ∈ r.tasks.rows, TaskRow.ofTask t.task = t) :
    ofDatabase r.database r.map = r := by
  have htasks : r.database.tasks.mapRows TaskRow.ofTask TaskRow.id_ofTask = r.tasks := by
    rw [database, Table.mapRows_mapRows]
    exact Table.mapRows_eq_self h
  rw [ofDatabase, htasks]
  rfl

end Rows

/-! ## The validations -/

namespace Retire

open Truth

variable {d : Database} {map : Table Mapping}

/-- Whose workspace a mapping stands for. -/
def founders (map : Table Mapping) (w u : Id) : Prop :=
  ∃ m ∈ map.rows, m.workspaceId = w ∧ m.userId = u

theorem duplicateValueCount_eq_zero {r : Rows} {column : Mapping → Id}
    (h : (r.map.rows.map column).Nodup) : duplicateValueCount r column = 0 := by
  refine count_eq_zero.mpr fun v _ => decide_eq_false ?_
  have hle := List.nodup_iff_count_le_one.mp h v
  omega

theorem isNone_eq_false {α : Type} {o : Option α} {a : α} (h : o = some a) : o.isNone = false := by
  rw [h]
  rfl

/-- A row of an outer join has a partner when there is one. -/
theorem partner {α β : Type} {on : α → β → Bool} {l : List α} {r : List β} {x : α × Option β}
    (hx : x ∈ outerJoin on l r) (h : ∃ b ∈ r, on x.1 b = true) : x.2.isNone = false := by
  rcases (mem_outerJoin.mp hx).2 with ⟨b, _, _, hb⟩ | ⟨hnone, _⟩
  · exact isNone_eq_false hb
  · obtain ⟨b, hb, hon⟩ := h
    rw [hnone b hb] at hon
    cases hon

theorem validateMappingData_eq_ok (hdistinct : (map.rows.map Mapping.workspaceId).Nodup)
    (hd : Referenced d) (hfounded : Founded (founders map) d) :
    validateMappingData (Rows.ofDatabase d map) = .ok () := by
  have howner : ∀ m ∈ map.rows, ∃ x, d.member? m.workspaceId m.userId = some x ∧
      x.role = .owner := by
    intro m hm
    exact Option.map_eq_some_iff.mp (hfounded _ _ ⟨m, hm, rfl, rfl⟩).1
  have huser : ∀ m ∈ map.rows, ∃ u ∈ d.users.rows, u.id = m.userId := by
    intro m hm
    obtain ⟨x, hx, _⟩ := howner m hm
    have hsome := (hd.member m.workspaceId m.userId (Option.isSome_of_eq_some hx)).2
    obtain ⟨u, hu⟩ := Option.isSome_iff_exists.mp hsome
    exact ⟨u, Table.find?_eq_some.mp hu⟩
  have hworkspace : ∀ m ∈ map.rows, ∃ row ∈ d.workspaces.rows, row.id = m.workspaceId ∧
      row.createdById = m.userId := by
    intro m hm
    obtain ⟨row, hrow, hcreator⟩ := (hfounded _ _ ⟨m, hm, rfl, rfl⟩).2
    exact ⟨row, Table.mem_of_find? hrow, Database.id_of_workspace? hrow, hcreator⟩
  unfold validateMappingData
  refine abortWhen_bind.mpr ⟨not_not.mpr (duplicateValueCount_eq_zero map.nodup_keys), ?_⟩
  refine abortWhen_bind.mpr ⟨not_not.mpr (duplicateValueCount_eq_zero hdistinct), ?_⟩
  refine abortWhen_bind.mpr ⟨not_not.mpr (count_eq_zero.mpr fun x hx => ?_), ?_⟩
  · have hinner := (mem_outerJoin.mp hx).1
    have hm := (mem_outerJoin.mp hinner).1
    obtain ⟨u, hu, hid⟩ := huser _ hm
    obtain ⟨row, hrow, hid', _⟩ := hworkspace _ hm
    rw [partner hinner ⟨u, hu, decide_eq_true hid⟩, partner hx ⟨row, hrow, decide_eq_true hid'⟩]
    rfl
  refine abortWhen_bind.mpr ⟨not_not.mpr (count_eq_zero.mpr fun x hx => ?_), ?_⟩
  · obtain ⟨m, hm, hpair⟩ := List.mem_flatMap.mp hx
    obtain ⟨w, hw, rfl⟩ := List.mem_map.mp hpair
    obtain ⟨hmem, hon⟩ := List.mem_filter.mp hw
    obtain ⟨row, hrow, hid, hcreator⟩ := hworkspace m hm
    have heq : w = row :=
      d.workspaces.eq_of_key_eq hmem hrow ((decide_eq_true_eq.mp hon).trans hid.symm)
    rw [heq]
    exact decide_eq_false (not_not.mpr hcreator)
  refine abortWhen_eq_ok.mpr (not_not.mpr (count_eq_zero.mpr fun x hx => partner hx ?_))
  obtain ⟨member, hmember, hrole⟩ := howner _ (mem_outerJoin.mp hx).1
  obtain ⟨hw, hu⟩ := Database.key_of_member? hmember
  refine ⟨member, Table.mem_of_find? hmember, Bool.and_eq_true_iff.mpr ⟨?_, decide_eq_true hrole⟩⟩
  exact ownMembership_iff.mpr ⟨hw, hu⟩

theorem validateTaskData_eq_ok (hd : Referenced d) :
    validateTaskData (Rows.ofDatabase d map) = .ok () := by
  unfold validateTaskData
  refine abortWhen_bind.mpr ⟨not_not.mpr (count_eq_zero.mpr fun t ht => ?_), ?_⟩
  · obtain ⟨task, _, rfl⟩ := List.mem_map.mp ht
    rfl
  refine abortWhen_bind.mpr ⟨not_not.mpr (count_eq_zero.mpr fun t ht => ?_), ?_⟩
  · obtain ⟨task, _, rfl⟩ := List.mem_map.mp ht
    exact holds_notIn_statuses (some task.status)
  refine abortWhen_eq_ok.mpr (not_not.mpr (count_eq_zero.mpr fun x hx => ?_))
  have hcreators := (mem_outerJoin.mp hx).1
  have hworkspaces := (mem_outerJoin.mp hcreators).1
  obtain ⟨task, htask, heq⟩ := List.mem_map.mp (mem_outerJoin.mp hworkspaces).1
  obtain ⟨hw, hc, ha⟩ := hd.task task.id task (Table.find?_key d.tasks htask)
  obtain ⟨row, hrow⟩ := Option.isSome_iff_exists.mp hw
  obtain ⟨creator, hcreator⟩ := Option.isSome_iff_exists.mp hc
  have hworkspace : x.1.1.2.isNone = false := by
    refine partner hworkspaces ⟨row, Table.mem_of_find? hrow, ?_⟩
    rw [← heq]
    exact holds_eq.mpr ⟨_, congrArg some (Database.id_of_workspace? hrow), rfl⟩
  have huser : x.1.2.isNone = false := by
    refine partner hcreators ⟨creator, Table.mem_of_find? hcreator, ?_⟩
    rw [← heq]
    exact holds_eq.mpr ⟨_, congrArg some (Database.id_of_user? hcreator), rfl⟩
  rw [hworkspace, huser, Bool.false_or, Bool.false_or, ← heq]
  show (task.assigneeId.isSome && x.2.isNone) = false
  cases hassignee : task.assigneeId with
  | none => rfl
  | some a =>
      obtain ⟨user, hfind⟩ := Option.isSome_iff_exists.mp (ha a hassignee)
      refine partner hx ⟨user, Table.mem_of_find? hfind, ?_⟩
      rw [← heq]
      exact holds_eq.mpr ⟨_, congrArg some (Database.id_of_user? hfind), hassignee⟩

theorem validateStructure_finalSchema : validateStructure Finalize.finalSchema = .ok () := by
  decide +kernel

/-- The schema without the mapping table. -/
def retiredSchema : Schema :=
  { Finalize.finalSchema with revision := "e5a1c7d9b302", map := none }

/-- The revision goes through, and drops the mapping table only. -/
theorem up_eq_ok (hdistinct : (map.rows.map Mapping.workspaceId).Nodup) (hd : Referenced d)
    (hfounded : Founded (founders map) d) :
    script.up ⟨Finalize.finalSchema, Rows.ofDatabase d map⟩ =
      .ok ⟨retiredSchema, Rows.ofDatabase d ∅⟩ := by
  have hvalid : validateUpgrade ⟨Finalize.finalSchema, Rows.ofDatabase d map⟩ = .ok () :=
    bind_eq_ok.mpr ⟨(), validateStructure_finalSchema, bind_eq_ok.mpr
      ⟨(), validateMappingData_eq_ok hdistinct hd hfounded, validateTaskData_eq_ok hd⟩⟩
  exact Revision.up_eq_ok (x := script) rfl (bind_eq_ok.mpr ⟨(), hvalid, rfl⟩)

end Retire

/-! ## What the upgrades leave to the application -/

section Upgraded

open Backfill

variable {s : Store} {r : Rows}

theorem ofTask_task_finalized (h : Complete s.rows r) (hb : Legacy s.rows) {t : TaskRow}
    (ht : t ∈ (Finalize.finalRows r).tasks.rows) : TaskRow.ofTask t.task = t := by
  obtain ⟨t₀, _, m, _, _, rfl⟩ := Finalize.mem_finalRows h hb ht
  rfl

/-- The workspaces and members of a migrated baseline are its own or generated. -/
theorem referenced_upgraded (hs : Baseline s) (h : Complete s.rows r) :
    Referenced (Finalize.finalRows r).database := by
  have hb := hs.legacy
  have huser : ∀ {u}, (s.rows.user? u).isSome = true → (r.users.find? u).isSome = true := by
    intro u hu
    rw [h.users]
    exact hu
  have hmapped : ∀ m ∈ r.map.rows, ∃ user, s.rows.user? m.userId = some user ∧
      r.workspace? m.workspaceId = some (personalWorkspace user m) :=
    fun m hm => (h.mapping m hm).2.workspace
  refine ⟨fun w row hrow => huser ?_, fun w u hu => ?_, fun t row hrow => ?_⟩
  · by_cases hw : ∀ m ∈ r.map.rows, m.workspaceId ≠ w
    · have hbase : s.rows.workspace? w = some row := (h.workspaces w hw).symm.trans hrow
      exact (hs.consistent.workspaces row (Table.mem_of_find? hbase)).1
    · simp only [not_forall, not_not] at hw
      obtain ⟨m, hm, rfl⟩ := hw
      obtain ⟨user, hfind, hworkspace⟩ := hmapped m hm
      cases hworkspace.symm.trans hrow
      have hid : user.id = m.userId := Table.key_of_find? hfind
      show (s.rows.user? user.id).isSome = true
      rw [hid]
      exact Option.isSome_of_eq_some hfind
  · by_cases hw : ∀ m ∈ r.map.rows, m.workspaceId ≠ w
    · obtain ⟨x, hx⟩ := Option.isSome_iff_exists.mp hu
      have hbase : s.rows.member? w u = some x := (h.members w hw u).symm.trans hx
      obtain ⟨hmem, hkey⟩ := Table.find?_eq_some.mp hbase
      obtain ⟨hworkspace, hsome⟩ := hs.consistent.members x hmem
      rw [(memberKey_inj.mp hkey).1] at hworkspace
      rw [(memberKey_inj.mp hkey).2] at hsome
      refine ⟨?_, huser hsome⟩
      show (r.workspace? w).isSome = true
      rw [h.workspaces w hw]
      exact hworkspace
    · simp only [not_forall, not_not] at hw
      obtain ⟨m, hm, rfl⟩ := hw
      obtain ⟨user, hfind, hworkspace⟩ := hmapped m hm
      refine ⟨Option.isSome_of_eq_some hworkspace, huser ?_⟩
      have hmember := (h.mapping m hm).2.members u
      change r.member? m.workspaceId u = _ at hmember
      have hu' : (r.member? m.workspaceId u).isSome = true := hu
      rw [hmember] at hu'
      split_ifs at hu' with heq
      · rw [heq]
        exact Option.isSome_of_eq_some hfind
      · cases hu'
  · obtain ⟨hmem, _⟩ := Table.find?_eq_some.mp hrow
    obtain ⟨t', ht', rfl⟩ := List.mem_map.mp hmem
    obtain ⟨t₀, _, m, hm, _, rfl⟩ := Finalize.mem_finalRows h hb ht'
    obtain ⟨user, hfind, hworkspace⟩ := hmapped m hm
    exact ⟨Option.isSome_of_eq_some hworkspace, huser (Option.isSome_of_eq_some hfind), nofun⟩

theorem founded_upgraded (h : Complete s.rows r) :
    Founded (Retire.founders r.map) (Finalize.finalRows r).database := by
  rintro w u ⟨m, hm, rfl, rfl⟩
  obtain ⟨user, hfind, hworkspace⟩ := (h.mapping m hm).2.workspace
  refine ⟨?_, _, hworkspace, Table.key_of_find? hfind⟩
  show (r.member? m.workspaceId m.userId).map WorkspaceMember.role = some .owner
  rw [(h.mapping m hm).2.members, if_pos rfl]
  rfl

theorem Complete.nodup_workspaceIds {b : Rows} (h : Complete b r) :
    (r.map.rows.map Mapping.workspaceId).Nodup :=
  List.Nodup.map_on (fun m hm m' hm' => h.distinct m hm m' hm') r.map.nodup_rows

end Upgraded

section Cleanup

variable [Collation]

/-- References and founders are kept by every history. -/
theorem founded_serveAll {founders : Id → Id → Prop} {d : Database}
    (h : Referenced d ∧ Founded founders d) (history : List Served) :
    Referenced (serveAll d history) ∧ Founded founders (serveAll d history) := by
  induction history generalizing d with
  | nil => exact h
  | cons served rest ih =>
      obtain ⟨env, request⟩ := served
      refine ih ?_
      exact (serve_inv (lockProtocol_sound _ _) (founded_tolerates founders request)
        (fun _ _ _ _ => trivial) h env).1

/-- After the upgrades of a baseline and any requests to the application, the cleanup
goes through, and drops the mapping table only. -/
theorem retire_of_history {s : Store} (h : Baseline s) (migrationTime : Timestamp) :
    ∃ s', upgradeAll (revisions migrationTime) s = .ok s' ∧
      Rows.ofDatabase s'.rows.database s'.rows.map = s'.rows ∧
      ∀ history,
        Retire.script.up
            ⟨s'.schema, Rows.ofDatabase (serveAll s'.rows.database history) s'.rows.map⟩ =
          .ok ⟨{ s'.schema with revision := "e5a1c7d9b302", map := none },
            Rows.ofDatabase (serveAll s'.rows.database history) ∅⟩ := by
  obtain ⟨r, hup, hcomplete⟩ := upgradeAll_eq_ok h migrationTime
  refine ⟨_, hup, Rows.ofDatabase_database fun t ht =>
    ofTask_task_finalized hcomplete h.legacy ht, fun history => ?_⟩
  obtain ⟨hreferenced, hfounded⟩ := founded_serveAll
    ⟨referenced_upgraded h hcomplete, founded_upgraded hcomplete⟩ history
  have hdistinct := Complete.nodup_workspaceIds hcomplete
  exact Retire.up_eq_ok hdistinct hreferenced hfounded

end Cleanup

theorem retire_of_history_sample :
    ∃ s', upgradeAll (revisions 100) sampleBaseline = .ok s' ∧
      Rows.ofDatabase s'.rows.database s'.rows.map = s'.rows ∧
      ∀ history,
        Retire.script.up
            ⟨s'.schema, Rows.ofDatabase
              (@serveAll sampleCollation s'.rows.database history) s'.rows.map⟩ =
          .ok ⟨{ s'.schema with revision := "e5a1c7d9b302", map := none },
            Rows.ofDatabase (@serveAll sampleCollation s'.rows.database history) ∅⟩ := by
  let _ := sampleCollation
  exact retire_of_history baseline_sampleBaseline 100

end Migration
end TaskPlatform
