import TaskPlatform.Concurrency.Routes

/-!
# What one step publishes

In every interleaving a step of a request leaves the committed rows alone, or it is a
commit as `Commits` describes it.
-/

namespace TaskPlatform

open Transaction Database

variable [Collation] {request : Request} {l l' : Session} {d d' : Database}

/-- A step of a request from session `l`. -/
inductive Publishes (request : Request) (l : Session) (d d' : Database) : Prop where
  | quiet (h : SameRows d d')
  | commit (snap : Database) (hview : l.readView = some snap) (hpersists : Persists snap d)
      (h : Commits SameRow snap l.Holds d request l.writes) (hd' : d' = l.current d)

/-- The protocol of the row locks with what its steps publish. -/
def publishProtocol : Protocol Request Session Database RowKey :=
  lockProtocol (fun _ => True) fun request l d _ d' => Publishes request l d d'

theorem publish_tolerates (request : Request) : Tolerates publishProtocol request := by
  refine lockProtocol_tolerates (fun _ _ _ _ _ => trivial) fun l d l' d' _ he => ?_
  cases he with
  | quiet h => exact .quiet h
  | commit snap hview _ hevolve h hd' => exact .commit snap hview hevolve h hd'

theorem publish_coherent {d₀ : Database}
    {σ : System Request Call Call.Res Response Session Database}
    (hr : System.Reachable Session.machine workload (fun _ => True) (fun _ _ _ _ _ => True) d₀ σ) :
    publishProtocol.Coherent Session.machine σ :=
  coherent_of_requests (lockProtocol_sound _ _) (fun request _ => publish_tolerates request)
    trivial hr

theorem publishes_of_callStep {d₀ : Database}
    {σ σ' : System Request Call Call.Res Response Session Database} {i : Nat}
    (hr : System.Reachable Session.machine workload (fun _ => True) (fun _ _ _ _ _ => True) d₀ σ)
    (hs : System.CallStep Session.machine i request l l' σ σ') :
    Publishes request l σ.shared σ'.shared :=
  (Protocol.callStep_guarantees (publish_coherent hr) hs trivial).guar

/-- Users and workspaces stay as they are. -/
theorem Publishes.persists (h : Publishes request l d d') : Persists d d' := by
  cases h with
  | quiet h => exact h.persists
  | commit _ _ _ h hd' =>
      rw [hd']
      exact persists_applyAll h.freshAll

/-! ## What a commit makes of a task -/

/-- How a task that stays may change in one commit. -/
inductive Changes (row : Task) : Task → Prop where
  | kept : Changes row row
  | edited (body : TaskUpdate) (old : Task) (now : Timestamp) :
      Changes row { (body.patch.dirty old).apply row with updatedAt := now }
  | moved (status : TaskStatus) (now : Timestamp) :
      Changes row { row with status := status, updatedAt := now }
  | assigned (assigneeId : Option Id) (now : Timestamp) (h : row.status ≠ .done) :
      Changes row { row with assigneeId := assigneeId, updatedAt := now }

theorem Commits.changes {rely : RowKey → Database → Database → Prop} {snap : Database}
    {held : RowKey → Prop} {ws : List Write} (h : Commits rely snap held d request ws) {t : Id}
    {row row' : Task} (hrow : d.task? t = some row)
    (hrow' : (d.applyAll ws).task? t = some row') : Changes row row' := by
  -- the one row that was put, or the old one
  have hput : ∀ put : Task, ws = [.putTask put] →
      (put.id = t → row' = put → Changes row row') → Changes row row' := by
    intro put hws hchange
    subst hws
    rw [applyAll_cons, applyAll_nil, task?_putTask] at hrow'
    by_cases hid : t = put.id
    · rw [if_pos hid, Option.some.injEq] at hrow'
      exact hchange hid.symm hrow'.symm
    · rw [if_neg hid, hrow, Option.some.injEq] at hrow'
      rw [← hrow']
      exact .kept
  have hkept : (d.applyAll ws).task? t = d.task? t → Changes row row' := by
    intro hsame
    rw [hsame, hrow, Option.some.injEq] at hrow'
    rw [← hrow']
    exact .kept
  cases h with
  | createUser _ => exact hkept rfl
  | createWorkspace _ _ _ _ _ => exact hkept rfl
  | addMember _ _ _ _ _ _ => exact hkept rfl
  | updateMemberRole _ _ _ _ _ => exact hkept rfl
  | @removeMember _ w u _ _ _ cleared now _ _ _ _ hcleared _ =>
      rcases task?_removal_of_some now hcleared hrow with hkeep | ⟨hholds, hclear⟩
      · exact hkept (hkeep.trans hrow.symm)
      · rw [hclear, Option.some.injEq] at hrow'
        rw [← hrow']
        exact .assigned none now (holdsUnfinished_iff.mp hholds).2.2
  | @createTask _ _ _ _ _ new _ hfree _ _ _ =>
      refine hput new rfl fun hid _ => ?_
      rw [hid, hrow] at hfree
      cases hfree
  | @updateTask _ _ t' body _ _ old found now _ _ _ hfound =>
      refine hput _ rfl fun hid hput => ?_
      have hid : found.id = t := hid
      rw [← id_of_task? hfound, hid, hrow, Option.some.injEq] at hfound
      rw [hput, ← hfound]
      exact .edited body old now
  | @updateTaskStatus _ _ t' body _ _ _ found now _ _ hfound _ =>
      have hfound := (taskIn?_eq_some.mp hfound).1
      refine hput _ rfl fun hid hput => ?_
      have hid : found.id = t := hid
      rw [← id_of_task? hfound, hid, hrow, Option.some.injEq] at hfound
      rw [hput, ← hfound]
      exact .moved body.status now
  | @updateTaskAssignee _ _ t' body _ _ _ found _ now _ _ _ hfound hdecide =>
      have hfound := (taskIn?_eq_some.mp hfound).1
      refine hput _ rfl fun hid hput => ?_
      have hid : found.id = t := hid
      rw [← id_of_task? hfound, hid, hrow, Option.some.injEq] at hfound
      rw [← hfound] at hdecide
      rw [hput, ← hfound]
      exact .assigned body.assigneeId now (decideAssignee_change hdecide).2.1
  | @deleteTask _ _ t' _ _ _ _ _ _ _ _ =>
      rw [applyAll_cons, applyAll_nil, task?_deleteTask] at hrow'
      split at hrow'
      · cases hrow'
      · rw [hrow, Option.some.injEq] at hrow'
        rw [← hrow']
        exact .kept

/-- A task that is there before and after a step. -/
theorem Publishes.changes (h : Publishes request l d d') {t : Id} {row row' : Task}
    (hrow : d.task? t = some row) (hrow' : d'.task? t = some row') : Changes row row' := by
  cases h with
  | quiet h =>
      rw [← h.task? t, hrow, Option.some.injEq] at hrow'
      rw [← hrow']
      exact .kept
  | commit _ _ _ h hd' =>
      rw [hd'] at hrow'
      exact h.changes hrow hrow'

/-- A step of the system. -/
abbrev SystemStep (σ σ' : System Request Call Call.Res Response Session Database) : Prop :=
  System.Step Session.machine workload (fun _ => True) (fun _ _ _ _ _ => True) σ σ'

/-- The states of the system over a database. -/
abbrev Reaches (d : Database) (σ : System Request Call Call.Res Response Session Database) :
    Prop :=
  System.Reachable Session.machine workload (fun _ => True) (fun _ _ _ _ _ => True) d σ

theorem changes_of_step {d₀ : Database}
    {σ σ' : System Request Call Call.Res Response Session Database} (hr : Reaches d₀ σ)
    (hs : SystemStep σ σ') {t : Id} {row row' : Task} (hrow : σ.shared.task? t = some row)
    (hrow' : σ'.shared.task? t = some row') : Changes row row' := by
  cases hs with
  | spawn i request _ _ =>
      rw [show σ.shared.task? t = some row' from hrow', Option.some.injEq] at hrow
      rw [hrow]
      exact .kept
  | call h _ => exact (publishes_of_callStep hr h).changes hrow hrow'

end TaskPlatform
