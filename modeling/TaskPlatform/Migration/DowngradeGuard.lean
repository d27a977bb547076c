import TaskPlatform.Migration.BackfillUpgrade
import TaskPlatform.Migration.Contract

/-!
# What the guard of the backfill's downgrade lets through

`_validate_downgrade` compares nullable columns with `!=`.  A comparison with NULL selects
nothing, and a text that the collation of the column equates with the name of a status is
not different from it.  The databases the guard accepts are the unchanged ones, and those
where nothing but such values sets the generated data apart.
-/

namespace TaskPlatform
namespace Migration
namespace Backfill

open Relational Truth

/-- The text the upgrade writes for `completed`. -/
def legacyText (completed : Bool) : StatusText := .name (legacyStatus completed)

/-- A task has the values the upgrade gives to a task of the mapped user. -/
structure GeneratedTask (m : Mapping) (t : TaskRow) : Prop where
  owner : t.ownerId = some m.userId
  creator : t.creatorId = t.ownerId
  assignee : t.assigneeId = none
  status : t.status = t.completed.map legacyText
  createdAt : t.createdAt = some m.migratedAt
  updatedAt : t.updatedAt = some m.migratedAt

/-- The workspace and its only membership are as generated. -/
structure GeneratedWorkspace (r : Rows) (m : Mapping) : Prop where
  workspace : ∃ user, r.user? m.userId = some user ∧
    r.workspace? m.workspaceId = some (personalWorkspace user m)
  members : (r.members.rows.filter fun x => x.workspaceId = m.workspaceId) = [ownerMembership m]

/-- The generated data are unchanged. -/
def Unchanged (r : Rows) : Prop :=
  ∀ m ∈ r.map.rows, GeneratedWorkspace r m ∧
    ∀ t ∈ r.tasks.rows, t.workspaceId = some m.workspaceId → GeneratedTask m t

/-- A task with the generated values in place of NULLs, and with the name of its status. -/
def reveal (m : Mapping) (t : TaskRow) : TaskRow :=
  { t with
    creatorId := t.creatorId.or t.ownerId
    status := (t.statusValue.or (t.completed.map legacyStatus)).map StatusText.name
    createdAt := t.createdAt.or (some m.migratedAt)
    updatedAt := t.updatedAt.or (some m.migratedAt) }

/-- A value the upgrade gives is NULL, or the status is spelled another way. -/
def Unseen (t : TaskRow) : Prop :=
  t.creatorId = none ∨ t.status = none ∨ t.createdAt = none ∨ t.updatedAt = none ∨
    ∃ st, t.status = some st ∧ st.text ≠ statusName st.status

/-- The mapping records the tasks of its workspace, and its user owns no other. -/
structure RecordsTasks (r : Rows) (m : Mapping) : Prop where
  owned : ∀ t ∈ r.tasks.rows, t.ownerId = some m.userId → t.workspaceId = some m.workspaceId
  count : (r.tasks.rows.filter fun t => t.workspaceId = some m.workspaceId).length =
    m.legacyTaskCount
  maxId : ∀ i, m.legacyTaskMaxId = some i ↔
    (∃ t ∈ r.tasks.rows, t.workspaceId = some m.workspaceId ∧ t.id = i) ∧
      ∀ t ∈ r.tasks.rows, t.workspaceId = some m.workspaceId → t.id ≤ i

/-- NULLs and spellings in tasks of mapped workspaces are all that sets the generated data
apart. -/
structure OnlyUnseen (r : Rows) : Prop where
  unseen : ∃ m ∈ r.map.rows, ∃ t ∈ r.tasks.rows, t.workspaceId = some m.workspaceId ∧ Unseen t
  workspaces : ∀ m ∈ r.map.rows, GeneratedWorkspace r m
  recorded : ∀ m ∈ r.map.rows, RecordsTasks r m
  tasks : ∀ m ∈ r.map.rows, ∀ t ∈ r.tasks.rows, t.workspaceId = some m.workspaceId →
    GeneratedTask m (reveal m t)

theorem StatusText.eq_name_iff {st : StatusText} {s : TaskStatus} :
    st = .name s ↔ st.status = s ∧ st.text = statusName st.status := by
  obtain ⟨status, text, own⟩ := st
  simp only [StatusText.name, StatusText.mk.injEq]
  exact and_congr_right fun hs => by rw [hs]

theorem StatusText.name_injective : Function.Injective StatusText.name :=
  fun _ _ h => congrArg StatusText.status h

/-- A comparison does not tell NULL from the value it compares with. -/
theorem holds_ne_iff_or {α : Type} [DecidableEq α] {a : Option α} {x : α} :
    (ne a (some x)).holds = false ↔ a.or (some x) = some x := by
  cases a with
  | none => simp [ne, eq, Truth.not]
  | some y => simp [ne, eq, Truth.not]

theorem or_eq_some_iff {α : Type} {a : Option α} {x : α} (ha : a ≠ none) :
    a.or (some x) = some x ↔ a = some x := by
  cases a with
  | none => exact absurd rfl ha
  | some y => simp

section Task

variable {m : Mapping} {t : TaskRow} {u : Id} {c : Bool}

/-- The revealed status is the generated one where the comparison does not tell them
apart. -/
theorem status_reveal :
    (reveal m t).status = (reveal m t).completed.map legacyText ↔
      t.statusValue.or (t.completed.map legacyStatus) = t.completed.map legacyStatus := by
  have htext : t.completed.map legacyText = (t.completed.map legacyStatus).map StatusText.name := by
    rw [Option.map_map]
    rfl
  show (t.statusValue.or (t.completed.map legacyStatus)).map StatusText.name =
    t.completed.map legacyText ↔ _
  rw [htext]
  exact (Option.map_injective StatusText.name_injective).eq_iff

/-- A status is the generated one when it is there, is not told apart and is spelled so. -/
theorem status_eq_iff (hcompleted : t.completed = some c) :
    t.status = t.completed.map legacyText ↔
      t.statusValue.or (t.completed.map legacyStatus) = t.completed.map legacyStatus ∧
        ¬ t.status = none ∧ ¬ ∃ st, t.status = some st ∧ st.text ≠ statusName st.status := by
  rw [hcompleted]
  unfold TaskRow.statusValue
  cases t.status with
  | none => simp
  | some st => simp [legacyText, StatusText.eq_name_iff]

/-- A task is as generated when it is so revealed, and no value is unseen. -/
theorem generatedTask_iff (hcompleted : t.completed = some c) :
    GeneratedTask m t ↔ GeneratedTask m (reveal m t) ∧ ¬ Unseen t := by
  constructor
  · intro h
    have hcreator := h.creator.trans h.owner
    obtain ⟨hvalue, hnull, hspelled⟩ := (status_eq_iff hcompleted).mp h.status
    refine ⟨⟨h.owner, ?_, h.assignee, status_reveal.mpr hvalue, ?_, ?_⟩, ?_⟩
    · show t.creatorId.or t.ownerId = t.ownerId
      rw [h.creator, Option.or_self]
    · show t.createdAt.or (some m.migratedAt) = some m.migratedAt
      rw [h.createdAt, Option.or_self]
    · show t.updatedAt.or (some m.migratedAt) = some m.migratedAt
      rw [h.updatedAt, Option.or_self]
    · simp only [Unseen, hcreator, h.createdAt, h.updatedAt, hnull, hspelled, reduceCtorEq,
        or_self, not_false_eq_true]
  · rintro ⟨h, hseen⟩
    simp only [Unseen, not_or] at hseen
    obtain ⟨hcreator, hnull, hcreated, hupdated, hspelled⟩ := hseen
    have howner : t.ownerId = some m.userId := h.owner
    have hcreator' : t.creatorId.or t.ownerId = t.ownerId := h.creator
    rw [howner, or_eq_some_iff hcreator] at hcreator'
    refine ⟨howner, hcreator'.trans howner.symm, h.assignee, ?_, ?_, ?_⟩
    · exact (status_eq_iff hcompleted).mpr ⟨status_reveal.mp h.status, hnull, hspelled⟩
    · exact (or_eq_some_iff hcreated).mp h.createdAt
    · exact (or_eq_some_iff hupdated).mp h.updatedAt

/-- The condition of the guard on the tasks of a workspace. -/
theorem holds_changedTask (howner : t.ownerId = some u) (hcompleted : t.completed = some c) :
    (changedTask m t).holds = false ↔
      (t.workspaceId = some m.workspaceId → GeneratedTask m (reveal m t)) := by
  have hchanges : (anyOf
      [ne t.ownerId (some m.userId), ne t.creatorId t.ownerId, isNotNull t.assigneeId,
        and (Truth.isTrue t.completed) (ne t.statusValue (some .done)),
        and (Truth.isFalse t.completed) (ne t.statusValue (some .todo)),
        ne t.createdAt (some m.migratedAt), ne t.updatedAt (some m.migratedAt)]).holds = false ↔
      GeneratedTask m (reveal m t) := by
    rw [holds_anyOf_eq_false]
    simp only [List.forall_mem_cons, List.not_mem_nil, false_implies, forall_const, and_true,
      hcompleted, holds_isNotNull, Option.isSome_eq_false_iff, Option.isNone_iff_eq_none]
    constructor
    · rintro ⟨hne, hcreator, hassignee, hdone, htodo, hcreated, hupdated⟩
      have howner' : t.ownerId = some m.userId := by
        rw [howner] at hne ⊢
        exact holds_ne_iff_or.mp hne
      rw [howner'] at hcreator
      refine ⟨howner', ?_, hassignee, ?_, holds_ne_iff_or.mp hcreated, holds_ne_iff_or.mp hupdated⟩
      · show t.creatorId.or t.ownerId = t.ownerId
        rw [howner']
        exact holds_ne_iff_or.mp hcreator
      · rw [status_reveal, hcompleted]
        exact holds_ne_iff_or.mp (holds_ne_legacyStatus.mp ⟨hdone, htodo⟩)
    · intro h
      have howner' : t.ownerId = some m.userId := h.owner
      have hcreator : t.creatorId.or t.ownerId = t.ownerId := h.creator
      have hstatus := status_reveal.mp h.status
      rw [hcompleted] at hstatus
      obtain ⟨hdone, htodo⟩ := holds_ne_legacyStatus.mpr (holds_ne_iff_or.mpr hstatus)
      rw [howner'] at hcreator ⊢
      exact ⟨holds_ne_self _, holds_ne_iff_or.mpr hcreator, h.assignee, hdone, htodo,
        holds_ne_iff_or.mpr h.createdAt, holds_ne_iff_or.mpr h.updatedAt⟩
  rw [changedTask, holds_and, Bool.and_eq_false_iff, hchanges, Bool.eq_false_iff, ne_eq,
    holds_eq_some, imp_iff_not_or]

end Task

section Guard

variable {r : Rows} {m : Mapping}

/-- The numbers the guard compares with the mapping. -/
structure RecordedTasks (r : Rows) (m : Mapping) : Prop where
  owned : ownerTaskCount r m.userId = m.legacyTaskCount
  contained : (r.tasks.rows.filter fun t =>
    (eq t.workspaceId (some m.workspaceId)).holds).length = m.legacyTaskCount
  maxId : ownerTaskMaxId r m.userId = m.legacyTaskMaxId

/-- Where the tasks of a workspace are those of its user, the numbers say which tasks the
mapping records. -/
theorem recordedTasks_iff (howners : ∀ t ∈ r.tasks.rows, t.workspaceId = some m.workspaceId →
    t.ownerId = some m.userId) : RecordedTasks r m ↔ RecordsTasks r m := by
  let owned := r.tasks.rows.filter fun t => (eq t.ownerId (some m.userId)).holds
  let contained := r.tasks.rows.filter fun t => (eq t.workspaceId (some m.workspaceId)).holds
  have hcontained : contained = r.tasks.rows.filter fun t => t.workspaceId = some m.workspaceId :=
    List.filter_congr fun t _ =>
      Bool.eq_iff_iff.mpr (holds_eq_some.trans decide_eq_true_iff.symm)
  have hmem : ∀ t, t ∈ contained ↔ t ∈ r.tasks.rows ∧ t.workspaceId = some m.workspaceId := by
    intro t
    rw [List.mem_filter, holds_eq_some]
  have hsub : contained.Sublist owned := by
    have hfilter : contained = owned.filter fun t =>
        (eq t.workspaceId (some m.workspaceId)).holds := by
      rw [List.filter_filter]
      refine List.filter_congr fun t ht => ?_
      cases hw : (eq t.workspaceId (some m.workspaceId)).holds with
      | false => rfl
      | true => exact (holds_eq_some.mpr (howners t ht (holds_eq_some.mp hw))).symm
    rw [hfilter]
    exact List.filter_sublist
  have hmax : (contained.map TaskRow.id).max? = m.legacyTaskMaxId ↔ ∀ i,
      m.legacyTaskMaxId = some i ↔
        (∃ t ∈ r.tasks.rows, t.workspaceId = some m.workspaceId ∧ t.id = i) ∧
          ∀ t ∈ r.tasks.rows, t.workspaceId = some m.workspaceId → t.id ≤ i := by
    rw [eq_comm, Option.ext_iff]
    refine forall_congr' fun i => iff_congr Iff.rfl ?_
    rw [List.max?_eq_some_iff]
    simp only [List.mem_map, hmem, and_assoc]
    refine and_congr_right fun _ => ⟨fun h t ht hw => h t.id ⟨t, ht, hw, rfl⟩, ?_⟩
    rintro h _ ⟨t, ht, hw, rfl⟩
    exact h t ht hw
  constructor
  · rintro ⟨howned, hcount, hmaxId⟩
    have hsame : contained = owned := hsub.eq_of_length (hcount.trans howned.symm)
    refine ⟨fun t ht ho => ?_, ?_, hmax.mp ?_⟩
    · have hin : t ∈ owned := List.mem_filter.mpr ⟨ht, holds_eq_some.mpr ho⟩
      rw [← hsame] at hin
      exact ((hmem t).mp hin).2
    · rw [← hcontained]
      exact hcount
    · rw [hsame]
      exact hmaxId
  · rintro ⟨howned, hcount, hmaxId⟩
    have hsame : contained = owned := by
      refine List.filter_congr fun t ht => Bool.eq_iff_iff.mpr ?_
      rw [holds_eq_some, holds_eq_some]
      exact ⟨howners t ht, howned t ht⟩
    rw [← hcontained] at hcount
    refine ⟨?_, hcount, ?_⟩
    · show owned.length = _
      rw [← hsame]
      exact hcount
    · show (owned.map TaskRow.id).max? = _
      rw [← hsame]
      exact hmax.mpr hmaxId

variable {reason reason' : String} {f : Unit → Result Unit}

/-- The comparisons with the row of the workspace, and what comes after. -/
theorem workspace_eq_ok :
    (match (r.user? m.userId).map User.username, r.workspace? m.workspaceId with
      | some username, some workspace =>
        abortIf (workspace.name ≠ personalWorkspaceName username ∨
          workspace.createdById ≠ m.userId ∨ workspace.createdAt ≠ m.migratedAt ∨
          workspace.updatedAt ≠ m.migratedAt) reason >>= f
      | _, _ => abortIf True reason' >>= f) = .ok () ↔
    (∃ user, r.user? m.userId = some user ∧
      r.workspace? m.workspaceId = some (personalWorkspace user m)) ∧ f () = .ok () := by
  cases huser : r.user? m.userId with
  | none => simp [abortWhen_bind]
  | some user =>
      cases hworkspace : r.workspace? m.workspaceId with
      | none => simp [abortWhen_bind]
      | some workspace =>
          have hid : user.id = m.userId := Table.key_of_find? huser
          have hid' : workspace.id = m.workspaceId := Table.key_of_find? hworkspace
          simp only [Option.map_some, abortWhen_bind, not_or, ne_eq, not_not, Option.some.injEq,
            exists_eq_left', personalWorkspace, hid]
          refine and_congr_left fun _ => ⟨?_, ?_⟩
          · rintro ⟨hname, hcreator, hcreated, hupdated⟩
            rw [← hid', ← hname, ← hcreator, Workspace.mk.injEq]
            exact ⟨rfl, rfl, rfl, hcreated, hupdated⟩
          · rintro rfl
            exact ⟨rfl, rfl, rfl, rfl⟩

/-- The comparisons with the memberships, and what comes after. -/
theorem members_eq_ok :
    (match r.members.rows.filter fun x => x.workspaceId = m.workspaceId with
      | [membership] =>
        abortIf (membership.userId ≠ m.userId ∨ membership.role ≠ MemberRole.owner ∨
          membership.joinedAt ≠ m.migratedAt ∨ membership.updatedAt ≠ m.migratedAt) reason >>= f
      | _ => abortIf True reason' >>= f) = .ok () ↔
    (r.members.rows.filter fun x => x.workspaceId = m.workspaceId) = [ownerMembership m] ∧
      f () = .ok () := by
  cases hmembers : r.members.rows.filter fun x => x.workspaceId = m.workspaceId with
  | nil => simp [abortWhen_bind]
  | cons x rest =>
      cases rest with
      | cons y rest => simp [abortWhen_bind]
      | nil =>
          have hx : x ∈ r.members.rows.filter fun x => x.workspaceId = m.workspaceId := by
            rw [hmembers]
            exact List.mem_singleton.mpr rfl
          have hworkspace := of_decide_eq_true (List.mem_filter.mp hx).2
          simp only [abortWhen_bind, not_or, ne_eq, not_not, List.cons.injEq, and_true,
            ownerMembership]
          refine and_congr_left fun _ => ⟨?_, ?_⟩
          · rintro ⟨huser, hrole, hjoined, hupdated⟩
            rw [← hworkspace, ← huser, ← hrole, WorkspaceMember.mk.injEq]
            exact ⟨rfl, rfl, rfl, hjoined, hupdated⟩
          · rintro rfl
            exact ⟨rfl, rfl, rfl, rfl⟩

/-- What the guard accepts of one mapping. -/
theorem validateMapping_eq_ok {s : Store} (h : Finalize.AtBackfill s.schema) (hs : s.Consistent) :
    validateMapping s.rows m = .ok () ↔ GeneratedWorkspace s.rows m ∧ RecordsTasks s.rows m ∧
      ∀ t ∈ s.rows.tasks.rows, t.workspaceId = some m.workspaceId →
        GeneratedTask m (reveal m t) := by
  have htasks : ((s.rows.tasks.rows.filter fun t => (changedTask m t).holds).length = 0) ↔
      ∀ t ∈ s.rows.tasks.rows, t.workspaceId = some m.workspaceId →
        GeneratedTask m (reveal m t) := by
    rw [count_eq_zero]
    refine forall₂_congr fun t ht => ?_
    obtain ⟨⟨u, hu⟩, ⟨c, hc⟩, _⟩ := h.task hs ht
    exact holds_changedTask hu hc
  unfold validateMapping
  refine workspace_eq_ok.trans ?_
  refine (and_congr_right fun _ => members_eq_ok).trans ?_
  dsimp only
  rw [abortWhen_bind, abortWhen_eq_ok]
  simp only [not_or, ne_eq, not_not, htasks]
  constructor
  · rintro ⟨hworkspace, hmembers, ⟨howned, hcontained, hmax⟩, htasks⟩
    exact ⟨⟨hworkspace, hmembers⟩,
      (recordedTasks_iff fun t ht hw => (htasks t ht hw).owner).mp ⟨howned, hcontained, hmax⟩,
      htasks⟩
  · rintro ⟨⟨hworkspace, hmembers⟩, hrecords, htasks⟩
    obtain ⟨howned, hcontained, hmax⟩ :=
      (recordedTasks_iff fun t ht hw => (htasks t ht hw).owner).mpr hrecords
    exact ⟨hworkspace, hmembers, ⟨howned, hcontained, hmax⟩, htasks⟩

end Guard

theorem validateDowngrade_eq_ok {s : Store} (h : Finalize.AtBackfill s.schema)
    (hs : s.Consistent) {mappings : List Mapping} :
    validateDowngrade s.rows = .ok mappings ↔ mappings = s.rows.map.rows ∧
      ∀ m ∈ s.rows.map.rows, GeneratedWorkspace s.rows m ∧ RecordsTasks s.rows m ∧
        ∀ t ∈ s.rows.tasks.rows, t.workspaceId = some m.workspaceId →
          GeneratedTask m (reveal m t) := by
  have hloop : s.rows.map.rows.forM (validateMapping s.rows) = .ok () ↔
      ∀ m ∈ s.rows.map.rows, GeneratedWorkspace s.rows m ∧ RecordsTasks s.rows m ∧
        ∀ t ∈ s.rows.tasks.rows, t.workspaceId = some m.workspaceId →
          GeneratedTask m (reveal m t) := by
    rw [forM_eq_ok]
    exact forall₂_congr fun m _ => validateMapping_eq_ok h hs
  rw [validateDowngrade, bind_eq_ok, ← hloop]
  constructor
  · rintro ⟨_, hvalid, hreturn⟩
    cases hreturn
    exact ⟨rfl, hvalid⟩
  · rintro ⟨rfl, hvalid⟩
    exact ⟨(), hvalid, rfl⟩

/-- The guard lets nothing but unchanged data through, except where NULLs and spellings
are the only change. -/
theorem guard_exact_iff {s : Store} (h : Finalize.AtBackfill s.schema) (hs : s.Consistent) :
    (∀ mappings, validateDowngrade s.rows = .ok mappings → Unchanged s.rows) ↔
      ¬ OnlyUnseen s.rows := by
  have hrevealed : ∀ {t : TaskRow} {m : Mapping}, t ∈ s.rows.tasks.rows →
      (GeneratedTask m t ↔ GeneratedTask m (reveal m t) ∧ ¬ Unseen t) := by
    intro t m ht
    obtain ⟨_, ⟨c, hc⟩, _⟩ := h.task hs ht
    exact generatedTask_iff hc
  constructor
  · intro hexact honly
    obtain ⟨m, hm, t, ht, hw, hunseen⟩ := honly.unseen
    have hunchanged := hexact _ ((validateDowngrade_eq_ok h hs).mpr ⟨rfl, fun m hm =>
      ⟨honly.workspaces m hm, honly.recorded m hm, honly.tasks m hm⟩⟩)
    exact ((hrevealed ht).mp ((hunchanged m hm).2 t ht hw)).2 hunseen
  · intro hother mappings hvalid m hm
    obtain ⟨_, haccepted⟩ := (validateDowngrade_eq_ok h hs).mp hvalid
    refine ⟨(haccepted m hm).1, fun t ht hw =>
      (hrevealed ht).mpr ⟨(haccepted m hm).2.2 t ht hw, ?_⟩⟩
    exact fun hunseen => hother ⟨⟨m, hm, t, ht, hw, hunseen⟩, fun m hm => (haccepted m hm).1,
      fun m hm => (haccepted m hm).2.1, fun m hm => (haccepted m hm).2.2⟩

/-- The backfilled sample with another creator and another status of its task. -/
def sampleChanged (creatorId : Option Id) (status : StatusText) : Store :=
  { Finalize.sampleBackfilled with
    rows := { Finalize.sampleBackfilled.rows with
      tasks := ⟨[{ id := 1, title := "Write", completed := some true, priority := 3,
                   ownerId := some 1, workspaceId := some 1, creatorId := creatorId,
                   status := some status, createdAt := some 100, updatedAt := some 100 }],
        by simp⟩ } }

def lowerCaseDone : StatusText :=
  { status := .done, text := "done", own := fun s h => by cases s <;> revert h <;> decide }

theorem consistent_withoutCreator : (sampleChanged none (.name .done)).Consistent := by
  refine ⟨fun t ht c hc => ?_, by decide +kernel, by decide, by decide, by decide, by decide⟩
  cases c with
  | _ => cases hc

theorem consistent_respelled : (sampleChanged (some 1) lowerCaseDone).Consistent := by
  refine ⟨fun t ht c hc => ?_, by decide +kernel, by decide, by decide, by decide, by decide⟩
  cases c with
  | _ => cases hc

/-- A database at the revision whose generated data have changed, and which the guard and
the downgrade let through all the same. -/
structure LetThrough (s : Store) : Prop where
  atBackfill : Finalize.AtBackfill s.schema
  consistent : s.Consistent
  accepted : validateDowngrade s.rows = .ok s.rows.map.rows
  downgraded : ∃ s', downgrade s = .ok s'
  changed : ¬ Unchanged s.rows

/-- A task without creator is let through, and a task whose status is `done`. -/
theorem guard_passes_unseen :
    LetThrough (sampleChanged none (.name .done)) ∧
      LetThrough (sampleChanged (some 1) lowerCaseDone) := by
  constructor
  · refine ⟨Finalize.atBackfill_backfilledSchema, consistent_withoutCreator,
      by decide +kernel, ⟨_, rfl⟩, fun hunchanged => ?_⟩
    have hcreator := ((hunchanged _ List.mem_cons_self).2 _ List.mem_cons_self rfl).creator
    cases hcreator
  · refine ⟨Finalize.atBackfill_backfilledSchema, consistent_respelled,
      by decide +kernel, ⟨_, rfl⟩, fun hunchanged => ?_⟩
    have hstatus := ((hunchanged _ List.mem_cons_self).2 _ List.mem_cons_self rfl).status
    revert hstatus
    decide

theorem guard_exact_iff_without_creator :
    (∀ mappings, validateDowngrade (sampleChanged none (.name .done)).rows = .ok mappings →
      Unchanged (sampleChanged none (.name .done)).rows) ↔
        ¬ OnlyUnseen (sampleChanged none (.name .done)).rows :=
  guard_exact_iff Finalize.atBackfill_backfilledSchema consistent_withoutCreator

end Backfill
end Migration
end TaskPlatform
