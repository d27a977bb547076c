import TaskPlatform.Integrity.Accepted
import TaskPlatform.Migration.Cleanup
import TaskPlatform.Migration.Contract
import TaskPlatform.Serial.Reopening

/-!
# The contract step taken back and applied again

The downgrade of revision `d4b6e8f1a203` fills the legacy columns from the creator and
the status, and leaves the status alone.  The upgrade then compares the status with
`completed`, and two values do not stand for three.
-/

namespace TaskPlatform

open Relational Transaction Database

/-! ## Requests that change tasks -/

/-- A request that changes the fields, the status or the assignee of a task. -/
def Request.changesTask : Request → Bool
  | updateTask _ _ _ _ | updateTaskStatus _ _ _ _ | updateTaskAssignee _ _ _ _ => true
  | _ => false

/-- What such requests keep of a database. -/
structure Edited (d₀ d : Database) : Prop where
  users : d.users = d₀.users
  workspaces : d.workspaces = d₀.workspaces
  task : ∀ t row, d.task? t = some row → ∃ row₀, d₀.task? t = some row₀ ∧
    row.workspaceId = row₀.workspaceId ∧ row.creatorId = row₀.creatorId
  fits : ∀ t row, d.task? t = some row →
    trimmedLengthOk row.title = true ∧ 1 ≤ row.priority ∧ row.priority ≤ 5

section Edits

variable {d₀ d d' : Database}

theorem Edited.congr (h : Edited d₀ d) (hsame : SameRows d d') : Edited d₀ d' where
  users := hsame.users.symm.trans h.users
  workspaces := hsame.workspaces.symm.trans h.workspaces
  task t row hrow := h.task t row ((hsame.task? t).trans hrow)
  fits t row hrow := h.fits t row ((hsame.task? t).trans hrow)

theorem Edited.putTask (h : Edited d₀ d) {row row' : Task} (hrow : d.task? row'.id = some row)
    (hworkspace : row'.workspaceId = row.workspaceId) (hcreator : row'.creatorId = row.creatorId)
    (hfits : trimmedLengthOk row'.title = true ∧ 1 ≤ row'.priority ∧ row'.priority ≤ 5) :
    Edited d₀ (d.apply (.putTask row')) := by
  refine ⟨h.users, h.workspaces, fun t x hx => ?_, fun t x hx => ?_⟩
  · rw [task?_putTask] at hx
    split_ifs at hx with ht
    · cases hx
      rw [ht, hworkspace, hcreator]
      exact h.task row'.id row hrow
    · exact h.task t x hx
  · rw [task?_putTask] at hx
    split_ifs at hx with ht
    · cases hx
      exact hfits
    · exact h.fits t x hx

variable [Collation] {rely : RowKey → Database → Database → Prop} {held : RowKey → Prop}
  {request : Request} {ws : List Write} {snap : Database}

theorem edited_commit (hd : Edited d₀ d) (hrequest : request.changesTask = true)
    (h : Commits rely snap held d request ws) : Edited d₀ (d.applyAll ws) := by
  cases h with
  | @updateTask _ _ t body _ _ old row now _ _ _ hrow =>
      obtain ⟨htitle, hpriority⟩ := hd.fits t row hrow
      have hid : row.id = t := id_of_task? hrow
      have hpatch := (TaskUpdate.fits body d).dirty old
      rw [← hid] at hrow
      refine hd.putTask hrow ?_ ?_ ?_
      · rfl
      · rfl
      · constructor
        · show trimmedLengthOk ((body.patch.dirty old).title.getD row.title) = true
          cases hnew : (body.patch.dirty old).title with
          | none => exact htitle
          | some title => exact (hpatch.title title hnew).2
        · show 1 ≤ (body.patch.dirty old).priority.getD row.priority ∧
            (body.patch.dirty old).priority.getD row.priority ≤ 5
          cases hnew : (body.patch.dirty old).priority with
          | none => exact hpriority
          | some priority => exact hpatch.priority priority hnew
  | @updateTaskStatus _ _ t _ _ _ _ row _ _ _ hrow _ =>
      obtain ⟨htask, _⟩ := taskIn?_eq_some.mp hrow
      rw [← id_of_task? htask] at htask
      exact hd.putTask htask rfl rfl (hd.fits _ row htask)
  | @updateTaskAssignee _ _ t _ _ _ _ row _ _ _ _ _ hrow _ =>
      obtain ⟨htask, _⟩ := taskIn?_eq_some.mp hrow
      rw [← id_of_task? htask] at htask
      exact hd.putTask htask rfl rfl (hd.fits _ row htask)
  | _ => cases hrequest

theorem edited_serve (env : Nat → Env) (hd : Edited d₀ d) (hrequest : request.changesTask = true) :
    Edited d₀ (serve env request d).2 := by
  have htolerates : Tolerates (lockProtocol (Edited d₀) fun _ _ _ _ _ => True) request := by
    refine lockProtocol_tolerates (fun l d d' hd he => ?_) fun _ _ _ _ _ _ => trivial
    cases he with
    | quiet h => exact hd.congr h
    | commit snap _ _ _ h hd' =>
        subst hd'
        exact edited_commit hd hrequest h
  exact (serve_inv (lockProtocol_sound _ _) htolerates (fun _ _ _ _ => trivial) hd env).1

end Edits

namespace Migration
namespace Finalize

open Truth

/-! ## Down and up again -/

/-- Every user is OWNER of the workspace he is mapped to, and every task is in the
workspace of its creator. -/
structure Mapped (r : Rows) : Prop where
  users : ∀ u ∈ r.users.rows, ∃ m ∈ r.map.rows, m.userId = u.id
  mappings : ∀ m ∈ r.map.rows, ∃ u ∈ r.users.rows, u.id = m.userId
  owners : ∀ m ∈ r.map.rows, ∃ x ∈ r.members.rows,
    x.workspaceId = m.workspaceId ∧ x.userId = m.userId ∧ x.role = .owner
  tasks : ∀ t ∈ r.tasks.rows, ∃ m ∈ r.map.rows,
    t.creatorId = some m.userId ∧ t.workspaceId = some m.workspaceId

section Rows

variable {r : Rows}

theorem finalized_restore {t : TaskRow} (howner : t.clear .ownerId = t)
    (hcompleted : t.clear .completed = t) : finalized (restore t) = t := by
  show (t.clear .ownerId).clear .completed = t
  rw [howner, hcompleted]

theorem finalRows_restoredRows (hs : Store.Consistent ⟨finalSchema, r⟩) :
    finalRows (restoredRows r) = r := by
  have htasks : (r.tasks.updateWhere (fun _ => true) restore id_restore).mapRows finalized
      id_finalized = r.tasks := by
    rw [Table.updateWhere, Table.mapRows_mapRows]
    apply Table.mapRows_eq_self
    intro t ht
    exact finalized_restore (hs.absent t ht .ownerId rfl) (hs.absent t ht .completed rfl)
  simp only [finalRows, restoredRows, htasks]

/-- A restored row satisfies the constraints the downgrade leaves. -/
theorem allows_reopenedSchema {t : TaskRow} (h : finalSchema.allows r t = true) :
    reopenedSchema.allows (restoredRows r) (restore t) = true := by
  obtain ⟨⟨_, hcreator, _⟩, hreferences, _⟩ := allows_finalSchema_iff.mp h
  have hcolumns : (reopenedSchema.columns.all fun col =>
      col.nullable || !(restore t).isNull col.name) = true := by
    show (!t.creatorId.isNone && true) = true
    rw [hcreator]
    rfl
  have hforeign : (reopenedSchema.foreignKeys.all fun fk =>
      fk.allows (restoredRows r) (restore t)) = true := by
    simp only [finalSchema, List.forall_mem_cons] at hreferences
    obtain ⟨hworkspace, hcreator', hassignee, _⟩ := hreferences
    simp only [reopenedSchema, finalSchema, List.all_append, List.all_cons, List.all_nil,
      Bool.and_true, Bool.and_eq_true]
    exact ⟨⟨hworkspace, hcreator', hassignee⟩, hcreator'⟩
  have hchecks : (reopenedSchema.checks.all fun ck => ck.allows (restore t)) = true := by
    show (TaskCheck.status.allows (restore t) && true) = true
    rw [TaskCheck.allows_status, Bool.and_true]
  rw [Schema.allows, hcolumns, hforeign, hchecks]
  rfl

theorem consistent_restoredRows (hs : Store.Consistent ⟨finalSchema, r⟩) :
    Store.Consistent ⟨reopenedSchema, restoredRows r⟩ where
  absent t _ c hc := by
    cases c with
    | _ => cases hc
  tasks t ht := by
    obtain ⟨t₀, ht₀, rfl⟩ := List.mem_map.mp ht
    exact allows_reopenedSchema (hs.tasks t₀ ht₀)
  users := hs.users
  workspaces := hs.workspaces
  members := hs.members
  map := hs.map

theorem status_restore {t : TaskRow} {st : TaskStatus} (h : t.statusValue = some st) :
    (restore t).statusValue = (restore t).completed.map legacyStatus ↔ st ≠ .inProgress := by
  show t.statusValue =
    some (legacyStatus (if (eq t.statusValue (some .done)).holds then true else false)) ↔ _
  rw [h]
  cases st with
  | _ => decide

/-- The restored rows are ready for the upgrade unless a task is IN_PROGRESS. -/
theorem ready_restoredRows (hs : Store.Consistent ⟨finalSchema, r⟩) (hm : Mapped r)
    (hstatus : ∀ t ∈ r.tasks.rows, t.statusValue ≠ some .inProgress) : Ready (restoredRows r) where
  users := hm.users
  mappings := hm.mappings
  owners := hm.owners
  tasks t ht := by
    obtain ⟨t₀, ht₀, rfl⟩ := List.mem_map.mp ht
    exact hm.tasks t₀ ht₀
  creators t ht := by
    obtain ⟨t₀, _, rfl⟩ := List.mem_map.mp ht
    rfl
  statuses t ht := by
    obtain ⟨t₀, ht₀, rfl⟩ := List.mem_map.mp ht
    obtain ⟨⟨_, _, hnull, _⟩, _⟩ := allows_finalSchema_iff.mp (hs.tasks t₀ ht₀)
    cases hst : t₀.statusValue with
    | none => simp [← t₀.isNone_statusValue, hst] at hnull
    | some st =>
        refine (status_restore hst).mpr fun hin => ?_
        exact hstatus t₀ ht₀ (by rw [hst, hin])
  final t ht := by
    obtain ⟨t₀, ht₀, rfl⟩ := List.mem_map.mp ht
    exact hs.tasks t₀ ht₀

theorem changeAll_reopenedSchema :
    reopenedSchema.changeAll (upgradeStatements "fk_tasks_owner_id_users") =
      some { finalSchema with revision := reopenedSchema.revision } := by
  decide +kernel

theorem ownerKey_reopenedSchema : OwnerKey reopenedSchema "fk_tasks_owner_id_users" :=
  ⟨⟨_, rfl, rfl⟩, by decide⟩

theorem up_restoredRows (hs : Store.Consistent ⟨finalSchema, r⟩) (hm : Mapped r)
    (hstatus : ∀ t ∈ r.tasks.rows, t.statusValue ≠ some .inProgress) :
    script.up ⟨reopenedSchema, restoredRows r⟩ = .ok ⟨finalSchema, r⟩ := by
  have hready := ready_restoredRows hs hm hstatus
  have hvalid : validateUpgrade ⟨reopenedSchema, restoredRows r⟩ =
      .ok "fk_tasks_owner_id_users" :=
    (validateUpgrade_eq_ok_iff atBackfill_reopenedSchema (consistent_restoredRows hs)).mpr
      ⟨hready, ownerKey_reopenedSchema⟩
  have hrun : upgrade ⟨reopenedSchema, restoredRows r⟩ =
      .ok ⟨{ finalSchema with revision := reopenedSchema.revision }, r⟩ := by
    refine bind_eq_ok.mpr ⟨_, hvalid, ?_⟩
    rw [Ddl.runAll_eq_ok changeAll_reopenedSchema (acceptsAll_upgradeStatements hready.final _),
      onRowsAll_upgradeStatements, finalRows_restoredRows hs]
  exact Revision.up_eq_ok (x := script) rfl hrun

/-- A task that is IN_PROGRESS fails the validation of the upgrade. -/
theorem up_aborts (hs : Store.Consistent ⟨finalSchema, r⟩) (hm : Mapped r) {t : TaskRow}
    (ht : t ∈ r.tasks.rows) (hstatus : t.statusValue = some .inProgress) :
    script.up ⟨reopenedSchema, restoredRows r⟩ =
      .error (.abort ("Final task migration validation failed: " ++
        "legacy task data does not satisfy final constraints")) := by
  have hmem : restore t ∈ (restoredRows r).tasks.rows := List.mem_map_of_mem ht
  have hcounts := mappingCounts_iff (r := restoredRows r) |>.mpr ⟨hm.users, hm.mappings⟩
  have howners : ((join ownMembership (restoredRows r).map.rows
      (restoredRows r).members.rows).filter fun x => x.2.role = .owner).length =
        (restoredRows r).map.rows.length := matchingOwnerCount_iff.mpr hm.owners
  have hinvalid :
      ((restoredRows r).tasks.rows.filter fun t => (invalidTask t).holds).length ≠ 0 := by
    intro hcount
    have hvalid := count_eq_zero.mp hcount (restore t) hmem
    obtain ⟨⟨u, hu⟩, ⟨c, hc⟩, _⟩ :=
      atBackfill_reopenedSchema.task (consistent_restoredRows hs) hmem
    obtain ⟨_, _, hmapped, _⟩ := (holds_invalidTask hu hc).mp hvalid
    rw [← Option.map_some, ← hc] at hmapped
    exact (status_restore hstatus).mp hmapped rfl
  have hvalid : validateUpgrade ⟨reopenedSchema, restoredRows r⟩ =
      .error (.abort ("Final task migration validation failed: " ++
        "legacy task data does not satisfy final constraints")) := by
    unfold validateUpgrade
    dsimp only
    rw [abortWhen_bind_of_not (not_not.mpr hcounts.1), abortWhen_bind_of_not
      (not_not.mpr hcounts.2), abortWhen_bind_of_not (not_not.mpr howners),
      abortWhen_bind_of hinvalid]
  have hrun : upgrade ⟨reopenedSchema, restoredRows r⟩ =
      .error (.abort ("Final task migration validation failed: " ++
        "legacy task data does not satisfy final constraints")) := by
    rw [upgrade, hvalid]
    rfl
  exact Revision.up_eq_error (x := script) rfl hrun

end Rows

end Finalize

/-! ## After any changes of tasks -/

section Reapply

open Backfill

variable {s : Store} {r : Rows}

theorem edited_refl (h : Complete s.rows r) (hb : Legacy s.rows) :
    Edited (Finalize.finalRows r).database (Finalize.finalRows r).database := by
  refine ⟨rfl, rfl, fun t row hrow => ⟨row, hrow, rfl, rfl⟩, fun t row hrow => ?_⟩
  obtain ⟨t', ht', rfl⟩ := List.mem_map.mp (Table.mem_of_find? hrow)
  obtain ⟨t₀, ht₀, m, _, _, rfl⟩ := Finalize.mem_finalRows h hb ht'
  exact hb.fits t₀ ht₀

/-- The rows the application leaves satisfy the final schema. -/
theorem consistent_edited (hs : Baseline s) (h : Complete s.rows r) {d : Database}
    (hd : Edited (Finalize.finalRows r).database d) (hreferenced : Referenced d)
    (hfounded : Founded (Retire.founders r.map) d)
    (hgrows : Grows (Finalize.finalRows r).database d) :
    Store.Consistent ⟨Finalize.finalSchema, Rows.ofDatabase d r.map⟩ where
  absent t ht c hc := by
    obtain ⟨row, _, rfl⟩ := List.mem_map.mp ht
    cases c with
    | ownerId | completed => rfl
    | _ => cases hc
  tasks t ht := by
    obtain ⟨row, hrow, rfl⟩ := List.mem_map.mp ht
    have hfind : d.task? row.id = some row := Table.find?_key d.tasks hrow
    obtain ⟨hworkspace, hcreator, hassignee⟩ := hreferenced.task row.id row hfind
    refine Finalize.allows_finalSchema_iff.mpr
      ⟨⟨rfl, rfl, rfl, rfl, rfl⟩, ?_, hd.fits row.id row hfind⟩
    simp only [Finalize.finalSchema, List.forall_mem_cons]
    refine ⟨hworkspace, hcreator, ?_, List.forall_mem_nil _⟩
    show row.assigneeId.all _ = true
    cases hassigned : row.assigneeId with
    | none => rfl
    | some a => exact hassignee a hassigned
  users u hu := by
    have husers : d.users = s.rows.users := hd.users.trans h.users
    have hu' : u ∈ d.users.rows := hu
    rw [husers] at hu'
    exact hs.consistent.users u hu'
  workspaces w hw := by
    have hfind : d.workspace? w.id = some w := Table.find?_key d.workspaces hw
    refine ⟨hreferenced.workspace w.id w hfind, lt_of_lt_of_le ?_ hgrows.nextWorkspaceId⟩
    have hw' : r.workspace? w.id = some w := by
      have hsame := hd.workspaces
      rw [Database.workspace?, hsame] at hfind
      exact hfind
    show w.id < r.nextWorkspaceId
    by_cases hmapped : ∀ m ∈ r.map.rows, m.workspaceId ≠ w.id
    · rw [h.workspaces w.id hmapped] at hw'
      exact lt_of_lt_of_le (hs.legacy.workspaces w.id w hw') h.next
    · simp only [not_forall, not_not] at hmapped
      obtain ⟨m, hm, hid⟩ := hmapped
      rw [← hid]
      exact (h.mapping m hm).2.fresh.2
  members m hm := by
    have hfind : d.member? m.workspaceId m.userId = some m := Table.find?_key d.members hm
    exact hreferenced.member m.workspaceId m.userId (Option.isSome_of_eq_some hfind)
  map m hm := by
    obtain ⟨hrole, _⟩ := hfounded m.workspaceId m.userId ⟨m, hm, rfl, rfl⟩
    obtain ⟨x, hx, _⟩ := Option.map_eq_some_iff.mp hrole
    obtain ⟨hworkspace, huser⟩ :=
      hreferenced.member m.workspaceId m.userId (Option.isSome_of_eq_some hx)
    exact ⟨rfl, huser, hworkspace, fun m' hm' hsame => h.distinct m' hm' m hm hsame⟩

/-- The mappings still say where every task is. -/
theorem mapped_edited (hb : Legacy s.rows) (h : Complete s.rows r) {d : Database}
    (hd : Edited (Finalize.finalRows r).database d)
    (hfounded : Founded (Retire.founders r.map) d) :
    Finalize.Mapped (Rows.ofDatabase d r.map) where
  users u hu := by
    have husers : d.users = s.rows.users := hd.users.trans h.users
    have hu' : u ∈ d.users.rows := hu
    rw [husers] at hu'
    have hfind : s.rows.user? u.id = some u := Table.find?_key s.rows.users hu'
    exact h.exists_mapping (Option.isSome_of_eq_some hfind)
  mappings m hm := by
    obtain ⟨user, huser, hid⟩ := h.user_of_mapping (fun _ hu => hu) hm
    have husers : d.users = s.rows.users := hd.users.trans h.users
    refine ⟨user, ?_, hid⟩
    show user ∈ d.users.rows
    rw [husers]
    exact huser
  owners m hm := by
    obtain ⟨hrole, _⟩ := hfounded m.workspaceId m.userId ⟨m, hm, rfl, rfl⟩
    obtain ⟨x, hx, howner⟩ := Option.map_eq_some_iff.mp hrole
    obtain ⟨hw, hu⟩ := Database.key_of_member? hx
    exact ⟨x, Table.mem_of_find? hx, hw, hu, howner⟩
  tasks t ht := by
    obtain ⟨row, hrow, rfl⟩ := List.mem_map.mp ht
    obtain ⟨row₀, hrow₀, hworkspace, hcreator⟩ :=
      hd.task row.id row (Table.find?_key d.tasks hrow)
    obtain ⟨t', ht', rfl⟩ := List.mem_map.mp (Table.mem_of_find? hrow₀)
    obtain ⟨t₀, _, m, hm, _, rfl⟩ := Finalize.mem_finalRows h hb ht'
    exact ⟨m, hm, congrArg some hcreator, congrArg some hworkspace⟩

variable [Collation]

theorem grows_serveAll (d : Database) (history : List Served) : Grows d (serveAll d history) := by
  induction history generalizing d with
  | nil => exact Grows.refl d
  | cons served rest ih =>
      obtain ⟨env, request⟩ := served
      exact (grows_run env request.program 0 {} d).trans (ih _)

/-- After the upgrades of a baseline and any changes of its tasks, the contract step can
be taken back; it can be applied again, and gives back every row, exactly when no task
is IN_PROGRESS. -/
theorem reapply_of_history {s : Store} (h : Baseline s) (migrationTime : Timestamp) :
    ∃ s', upgradeAll (revisions migrationTime) s = .ok s' ∧
      Rows.ofDatabase s'.rows.database s'.rows.map = s'.rows ∧
      ∀ history : List Served, (∀ x ∈ history, x.2.changesTask = true) →
        ∃ s'', Finalize.script.down
            ⟨s'.schema, Rows.ofDatabase (serveAll s'.rows.database history) s'.rows.map⟩ =
              .ok s'' ∧
          ((∀ t row, (serveAll s'.rows.database history).task? t = some row →
              row.status ≠ .inProgress) →
            Finalize.script.up s'' = .ok
              ⟨s'.schema, Rows.ofDatabase (serveAll s'.rows.database history) s'.rows.map⟩) ∧
          ∀ t row, (serveAll s'.rows.database history).task? t = some row →
            row.status = .inProgress →
              Finalize.script.up s'' = .error (.abort
                ("Final task migration validation failed: " ++
                  "legacy task data does not satisfy final constraints")) := by
  obtain ⟨r, hup, hcomplete⟩ := upgradeAll_eq_ok h migrationTime
  refine ⟨_, hup, Rows.ofDatabase_database fun t ht =>
    ofTask_task_finalized hcomplete h.legacy ht, fun history hhistory => ?_⟩
  have hedited : Edited (Finalize.finalRows r).database
      (serveAll (Finalize.finalRows r).database history) :=
    inv_serveAll (fun env request d hd hrequest => edited_serve env hd hrequest)
      (edited_refl hcomplete h.legacy) (along_of_forall hhistory _)
  obtain ⟨hreferenced, hfounded⟩ := founded_serveAll
    ⟨referenced_upgraded h hcomplete, founded_upgraded hcomplete⟩ history
  have hconsistent := consistent_edited h hcomplete hedited hreferenced hfounded
    (grows_serveAll _ history)
  have hmapped := mapped_edited h.legacy hcomplete hedited hfounded
  refine ⟨_, Finalize.down_eq_ok hconsistent.tasks, fun hstatus => ?_, fun t row hrow hin => ?_⟩
  · apply Finalize.up_restoredRows hconsistent hmapped
    intro t ht
    obtain ⟨row, hrow, rfl⟩ := List.mem_map.mp ht
    intro hin
    exact hstatus row.id row (Table.find?_key _ hrow) (Option.some.inj hin)
  · have hmem := Table.mem_of_find? hrow
    apply Finalize.up_aborts hconsistent hmapped (t := TaskRow.ofTask row)
    · exact List.mem_map_of_mem hmem
    · exact congrArg some hin

end Reapply

theorem reapply_of_history_sample :
    ∃ s', upgradeAll (revisions 100) sampleBaseline = .ok s' ∧
      Rows.ofDatabase s'.rows.database s'.rows.map = s'.rows ∧
      ∀ history : List Served, (∀ x ∈ history, x.2.changesTask = true) →
        ∃ s'', Finalize.script.down ⟨s'.schema, Rows.ofDatabase
            (@serveAll sampleCollation s'.rows.database history) s'.rows.map⟩ = .ok s'' ∧
          ((∀ t row, (@serveAll sampleCollation s'.rows.database history).task? t = some row →
              row.status ≠ .inProgress) →
            Finalize.script.up s'' = .ok ⟨s'.schema, Rows.ofDatabase
              (@serveAll sampleCollation s'.rows.database history) s'.rows.map⟩) ∧
          ∀ t row, (@serveAll sampleCollation s'.rows.database history).task? t = some row →
            row.status = .inProgress →
              Finalize.script.up s'' = .error (.abort
                ("Final task migration validation failed: " ++
                  "legacy task data does not satisfy final constraints")) := by
  let _ := sampleCollation
  exact reapply_of_history baseline_sampleBaseline 100

/-- The user of the sample starts his finished task again. -/
def restartRequest : Request := .updateTaskStatus (some "ada") 2 1 (some ⟨.inProgress⟩)

/-- The request succeeds, and after the downgrade there is no way forward. -/
theorem restarted_sticks :
    Baseline sampleBaseline ∧ restartRequest.changesTask = true ∧
      ∃ s', upgradeAll (revisions 100) sampleBaseline = .ok s' ∧
        (@serve sampleCollation (fun _ => servingEnv) restartRequest
          s'.rows.database).1.isOk = true ∧
        ∃ s'', Finalize.script.down ⟨s'.schema, Rows.ofDatabase
            (@serve sampleCollation (fun _ => servingEnv) restartRequest s'.rows.database).2
            s'.rows.map⟩ = .ok s'' ∧
          ∀ s₁, Finalize.script.up s'' ≠ .ok s₁ := by
  refine ⟨baseline_sampleBaseline, rfl, _, rfl, by decide +kernel, _, rfl, fun s₁ h => ?_⟩
  cases h

end Migration
end TaskPlatform
