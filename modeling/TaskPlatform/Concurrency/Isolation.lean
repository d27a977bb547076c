import TaskPlatform.Concurrency.Identity
import TaskPlatform.Serial.Run

/-!
# Write isolation

What a request commits lies in the workspace it is addressed to.
-/

namespace TaskPlatform

open Transaction Database Relational

/-- The workspace of the members and tasks endpoints. -/
def Request.workspaceId? : Request → Option Id
  | getWorkspace _ w | listMembers _ w _ | addMember _ w _ | updateMemberRole _ w _ _
  | removeMember _ w _ | listTasks _ w _ | createTask _ w _ | getTask _ w _
  | updateTask _ w _ _ | updateTaskStatus _ w _ _ | updateTaskAssignee _ w _ _
  | deleteTask _ w _ => some w
  | _ => none

/-- Nothing has changed but memberships and tasks of workspace `w`. -/
structure Isolated (w : Id) (d d' : Database) : Prop where
  users : d'.users = d.users
  workspaces : d'.workspaces = d.workspaces
  members : ∀ v u, v ≠ w → d'.member? v u = d.member? v u
  tasks : ∀ t row, row.workspaceId ≠ w → (d'.task? t = some row ↔ d.task? t = some row)

/-- A write of a membership or a task of workspace `w`, over one of them. -/
def Within (w : Id) (d : Database) : Write → Prop
  | .putMember m => m.workspaceId = w
  | .deleteMember v _ => v = w
  | .putTask row =>
    row.workspaceId = w ∧ ∀ old, d.task? row.id = some old → old.workspaceId = w
  | .deleteTask t => ∀ old, d.task? t = some old → old.workspaceId = w
  | _ => False

namespace Isolated

variable {w : Id} {d d' d'' : Database}

theorem refl (w : Id) (d : Database) : Isolated w d d :=
  ⟨rfl, rfl, fun _ _ _ => rfl, fun _ _ _ => Iff.rfl⟩

theorem trans (h : Isolated w d d') (h' : Isolated w d' d'') : Isolated w d d'' where
  users := h'.users.trans h.users
  workspaces := h'.workspaces.trans h.workspaces
  members := fun v u hv => (h'.members v u hv).trans (h.members v u hv)
  tasks := fun t row hrow => (h'.tasks t row hrow).trans (h.tasks t row hrow)

theorem of_sameRows (h : SameRows d d') : Isolated w d d' where
  users := h.users.symm
  workspaces := h.workspaces.symm
  members := fun v u _ => (h.member? v u).symm
  tasks := fun t row _ => by rw [h.task? t]

/-- A task of the workspace is one after such changes. -/
theorem workspaceId (h : Isolated w d d') {t : Id} {row row' : Task}
    (hrow : d.task? t = some row) (hw : row.workspaceId = w) (hrow' : d'.task? t = some row') :
    row'.workspaceId = w := by
  by_contra hne
  have hold := (h.tasks t row' hne).mp hrow'
  rw [hrow, Option.some.injEq] at hold
  exact hne (hold ▸ hw)

theorem within (h : Isolated w d d') {x : Write} (hx : Within w d x) : Within w d' x := by
  have hback : ∀ t, (∀ old, d.task? t = some old → old.workspaceId = w) →
      ∀ old, d'.task? t = some old → old.workspaceId = w := by
    intro t hold old hnew
    by_contra hne
    exact hne (hold old ((h.tasks t old hne).mp hnew))
  cases x with
  | putTask row => exact ⟨hx.1, hback row.id hx.2⟩
  | deleteTask t => exact hback t hx
  | putUser u => exact hx
  | putWorkspace ws => exact hx
  | putMember m => exact hx
  | deleteMember v u => exact hx

theorem apply {x : Write} (hx : Within w d x) : Isolated w d (d.apply x) := by
  cases x with
  | putUser u => exact hx.elim
  | putWorkspace ws => exact hx.elim
  | putMember m =>
      refine ⟨rfl, rfl, fun v u hv => ?_, fun _ _ _ => Iff.rfl⟩
      exact (member?_putMember d m v u).trans (if_neg fun h => hv (h.1.trans hx))
  | deleteMember v' u' =>
      refine ⟨rfl, rfl, fun v u hv => ?_, fun _ _ _ => Iff.rfl⟩
      exact (member?_deleteMember d v' u' v u).trans (if_neg fun h => hv (h.1.trans hx))
  | putTask put =>
      refine ⟨rfl, rfl, fun _ _ _ => rfl, fun t row hrow => ?_⟩
      rw [task?_putTask]
      by_cases ht : t = put.id
      · rw [if_pos ht, Option.some.injEq, ht]
        constructor
        · intro heq
          exact absurd (heq ▸ hx.1) hrow
        · intro hold
          exact absurd (hx.2 row hold) hrow
      · rw [if_neg ht]
  | deleteTask t' =>
      refine ⟨rfl, rfl, fun _ _ _ => rfl, fun t row hrow => ?_⟩
      rw [task?_deleteTask]
      by_cases ht : t = t'
      · rw [if_pos ht, ht]
        constructor
        · intro h
          cases h
        · intro hold
          exact absurd (hx row hold) hrow
      · rw [if_neg ht]

theorem applyAll {ws : List Write} (h : ∀ x ∈ ws, Within w d x) : Isolated w d (d.applyAll ws) := by
  induction ws generalizing d with
  | nil => exact refl w d
  | cons x ws ih =>
      obtain ⟨hx, hws⟩ := List.forall_mem_cons.mp h
      have hfirst := apply hx
      exact hfirst.trans (ih fun y hy => hfirst.within (hws y hy))

end Isolated

section Commits

variable [Collation] {request : Request} {snap d d' : Database} {l : Session}

/-- What is committed lies in the workspace, if its tasks did not move since they were
read. -/
theorem Commits.within {rely : RowKey → Database → Database → Prop} {held : RowKey → Prop}
    {ws : List Write} {w : Id} (h : Commits rely snap held d request ws)
    (hw : request.workspaceId? = some w)
    (hstay : ∀ t old row, snap.task? t = some old → old.workspaceId = w →
      d.task? t = some row → row.workspaceId = w) :
    ∀ x ∈ ws, Within w d x := by
  -- the one row that is put in the place of one of the workspace
  have hput : ∀ put row : Task, d.task? row.id = some row → row.workspaceId = w →
      put.id = row.id → put.workspaceId = row.workspaceId → Within w d (.putTask put) := by
    intro put row hrow hrw hid hworkspace
    refine ⟨hworkspace.trans hrw, fun old hold => ?_⟩
    rw [hid, hrow, Option.some.injEq] at hold
    exact hold ▸ hrw
  cases h with
  | createUser _ => cases hw
  | createWorkspace _ _ _ _ _ => cases hw
  | addMember _ _ hm _ _ _ =>
      cases hw
      exact List.forall_mem_singleton.mpr hm.1
  | updateMemberRole _ _ _ _ hrow =>
      cases hw
      exact List.forall_mem_singleton.mpr (key_of_member? hrow).1
  | removeMember _ _ _ _ hcleared _ =>
      cases hw
      intro x hx
      rcases List.mem_append.mp hx with hx | hx
      · obtain ⟨t, ht, rfl⟩ := List.mem_map.mp hx
        obtain ⟨hrow, hmatch⟩ := hcleared t ht
        exact hput _ t hrow (holdsUnfinished_iff.mp hmatch).1 rfl rfl
      · rw [List.mem_singleton.mp hx]
        rfl
  | createTask _ hfree hrow _ _ =>
      cases hw
      refine List.forall_mem_singleton.mpr ⟨hrow.1, fun old hold => ?_⟩
      rw [hfree] at hold
      cases hold
  | updateTask _ hold _ hrow =>
      cases hw
      obtain ⟨hsnap, hworkspace⟩ := taskIn?_eq_some.mp hold
      have hrow' := hrow
      rw [← id_of_task? hrow] at hrow'
      exact List.forall_mem_singleton.mpr
        (hput _ _ hrow' (hstay _ _ _ hsnap hworkspace hrow) rfl rfl)
  | updateTaskStatus _ _ hrow _ =>
      cases hw
      obtain ⟨hrow, hworkspace⟩ := taskIn?_eq_some.mp hrow
      rw [← id_of_task? hrow] at hrow
      exact List.forall_mem_singleton.mpr (hput _ _ hrow hworkspace rfl rfl)
  | updateTaskAssignee _ _ _ hrow _ =>
      cases hw
      obtain ⟨hrow, hworkspace⟩ := taskIn?_eq_some.mp hrow
      rw [← id_of_task? hrow] at hrow
      exact List.forall_mem_singleton.mpr (hput _ _ hrow hworkspace rfl rfl)
  | deleteTask _ hold _ _ =>
      cases hw
      obtain ⟨hsnap, hworkspace⟩ := taskIn?_eq_some.mp hold
      exact List.forall_mem_singleton.mpr fun row hrow => hstay _ _ row hsnap hworkspace hrow

/-- Who may delete a task, as the request reads it from `d`. -/
def MayDelete (d : Database) (request : Request) (t : Id) (row : Task) : Prop :=
  ∃ subject user m, request = .deleteTask subject row.workspaceId t ∧
    Actor d subject row.workspaceId user m ∧
    (m.role = .owner ∨ m.role = .admin ∨ user.id = row.creatorId)

/-- Only `delete_task` makes a task disappear. -/
theorem Commits.mayDelete {rely : RowKey → Database → Database → Prop} {held : RowKey → Prop}
    {ws : List Write} (h : Commits rely snap held d request ws) {t : Id} {row : Task}
    (hstay : ∀ old, snap.task? t = some old → old.identity = row.identity)
    (hrow : d.task? t = some row) (hgone : (d.applyAll ws).task? t = none) :
    MayDelete snap request t row := by
  have hput : ∀ put : Task, ws = [.putTask put] → MayDelete snap request t row := by
    intro put hws
    rw [hws, applyAll_cons, applyAll_nil, task?_putTask] at hgone
    split at hgone
    · cases hgone
    · rw [hrow] at hgone
      cases hgone
  have hkept : (d.applyAll ws).task? t = d.task? t → MayDelete snap request t row := by
    intro hsame
    rw [hsame, hrow] at hgone
    cases hgone
  cases h with
  | createUser _ => exact hkept rfl
  | createWorkspace _ _ _ _ _ => exact hkept rfl
  | addMember _ _ _ _ _ _ => exact hkept rfl
  | updateMemberRole _ _ _ _ _ => exact hkept rfl
  | @removeMember _ w u _ _ _ cleared now _ _ _ _ hcleared _ =>
      rcases task?_removal_of_some now hcleared hrow with hkeep | ⟨_, hclear⟩
      · exact hkept (hkeep.trans hrow.symm)
      · rw [hclear] at hgone
        cases hgone
  | createTask _ _ _ _ _ => exact hput _ rfl
  | updateTask _ _ _ _ => exact hput _ rfl
  | updateTaskStatus _ _ _ _ => exact hput _ rfl
  | updateTaskAssignee _ _ _ _ _ => exact hput _ rfl
  | @deleteTask subject w t' user m old _ ha hold hrole _ =>
      rw [applyAll_cons, applyAll_nil, task?_deleteTask] at hgone
      by_cases ht : t = t'
      · subst ht
        obtain ⟨hsnap, hworkspace⟩ := taskIn?_eq_some.mp hold
        have hid := hstay old hsnap
        simp only [Task.identity, TaskIdentity.mk.injEq] at hid
        have hw : w = row.workspaceId := hworkspace.symm.trans hid.1
        rw [canDeleteTask_iff, hid.2.1] at hrole
        exact ⟨subject, user, m, by rw [hw], hw ▸ ha, hrole⟩
      · rw [if_neg ht, hrow] at hgone
        cases hgone

end Commits

/-! ## Interleavings -/

section Runs

variable {d₀ : Database} {σ σ' : System Request Call Call.Res Response Session Database}
  {f : Id → TaskIdentity} {i : Nat} {request : Request} {l l' : Session}

/-- What a session has read of a task is of the same task as the committed row. -/
theorem identity_of_view (h : SystemNamed f σ)
    {p : Proc Request Call Call.Res Response Session} (hp : σ.procs i = some p)
    {snap : Database} (hview : p.loc.readView = some snap) {t : Id} {old row : Task}
    (hold : snap.task? t = some old) (hrow : σ.shared.task? t = some row) :
    old.identity = row.identity := by
  obtain ⟨_, hname⟩ := (h.sessions i p hp).view snap hview t old hold
  obtain ⟨_, hname'⟩ := h.rows t row hrow
  rw [hname, hname', id_of_task? hold, id_of_task? hrow]

variable [Collation]

theorem view_of_callStep (h : SystemNamed f σ)
    (hs : System.CallStep Session.machine i request l l' σ σ') {snap : Database}
    (hview : l.readView = some snap) {t : Id} {old row : Task} (hold : snap.task? t = some old)
    (hrow : σ.shared.task? t = some row) : old.identity = row.identity := by
  cases hs with
  | call env hp _ => exact identity_of_view h hp hview hold hrow

theorem isolated_of_callStep (h : SystemNamed f σ) (hr : Reaches d₀ σ)
    (hs : System.CallStep Session.machine i request l l' σ σ') {w : Id}
    (hw : request.workspaceId? = some w) : Isolated w σ.shared σ'.shared := by
  cases publishes_of_callStep hr hs with
  | quiet hrows => exact .of_sameRows hrows
  | commit snap hview _ hcommits hd' =>
      rw [hd']
      refine Isolated.applyAll (hcommits.within hw fun t old row hold hworkspace hrow => ?_)
      have hid := view_of_callStep h hs hview hold hrow
      exact (congrArg TaskIdentity.workspaceId hid).symm.trans hworkspace

theorem mayDelete_of_callStep (h : SystemNamed f σ) (hr : Reaches d₀ σ)
    (hs : System.CallStep Session.machine i request l l' σ σ') {t : Id} {row : Task}
    (hrow : σ.shared.task? t = some row) (hgone : σ'.shared.task? t = none) :
    ∃ snap, l.readView = some snap ∧ MayDelete snap request t row := by
  cases publishes_of_callStep hr hs with
  | quiet hrows =>
      rw [← hrows.task? t, hrow] at hgone
      cases hgone
  | commit snap hview _ hcommits hd' =>
      rw [hd'] at hgone
      refine ⟨snap, hview, hcommits.mayDelete (fun old hold => ?_) hrow hgone⟩
      exact view_of_callStep h hs hview hold hrow

theorem workspace_of_path (hr : Reaches d₀ σ) (hpath : Relation.ReflTransGen SystemStep σ σ') :
    Reaches d₀ σ' ∧ Persists σ.shared σ'.shared := by
  induction hpath with
  | refl => exact ⟨hr, .refl _⟩
  | tail _ hs ih =>
      obtain ⟨hr₁, hpersists⟩ := ih
      refine ⟨hr₁.step hs, ?_⟩
      cases hs with
      | spawn i request _ _ => exact hpersists
      | call h _ => exact hpersists.trans (publishes_of_callStep hr₁ h).persists

end Runs

/-! ## Requests served alone -/

section Alone

variable {request : Request} {d₀ d d' snap : Database}

theorem Changes.identity {row row' : Task} (h : Changes row row') :
    row'.identity = row.identity := by
  cases h with
  | kept => rfl
  | edited body old now => rfl
  | moved status now => rfl
  | assigned assigneeId now _ => rfl

def Request.isDelete : Request → Bool
  | deleteTask _ _ _ => true
  | _ => false

variable [Collation]

/-- The database in the course of a request that found `d₀`. -/
structure Serves (request : Request) (d₀ d : Database) : Prop where
  isolated : ∀ w, request.workspaceId? = some w → Isolated w d₀ d
  identity : ∀ t row row', d₀.task? t = some row → d.task? t = some row' →
    row'.identity = row.identity
  deleted : ∀ t row, d₀.task? t = some row → d.task? t = none → MayDelete d₀ request t row
  /-- A deletion leaves alone what it is permitted by. -/
  access : request.isDelete = true →
    d.users = d₀.users ∧ d.workspaces = d₀.workspaces ∧ d.members = d₀.members

theorem Serves.refl (request : Request) (d : Database) : Serves request d d where
  isolated := fun w _ => .refl w d
  identity := fun t row row' h h' => by
    rw [h, Option.some.injEq] at h'
    rw [h']
  deleted := fun t row h h' => by
    rw [h] at h'
    cases h'
  access := fun _ => ⟨rfl, rfl, rfl⟩

theorem Serves.of_sameRows (h : Serves request d₀ d) (hd : SameRows d d') :
    Serves request d₀ d' where
  isolated := fun w hw => (h.isolated w hw).trans (.of_sameRows hd)
  identity := fun t row row' hrow hrow' => h.identity t row row' hrow ((hd.task? t).trans hrow')
  deleted := fun t row hrow hgone => h.deleted t row hrow ((hd.task? t).trans hgone)
  access := fun hdelete => by
    obtain ⟨husers, hworkspaces, hmembers⟩ := h.access hdelete
    exact ⟨hd.users.symm.trans husers, hd.workspaces.symm.trans hworkspaces,
      hd.members.symm.trans hmembers⟩

theorem MayDelete.of_access {t : Id} {row row' : Task} (h : MayDelete snap request t row)
    (hsnap : Serves request d₀ snap) (hid : row.identity = row'.identity) :
    MayDelete d₀ request t row' := by
  obtain ⟨subject, user, m, rfl, ha, hrole⟩ := h
  obtain ⟨husers, hworkspaces, hmembers⟩ := hsnap.access rfl
  simp only [Task.identity, TaskIdentity.mk.injEq] at hid
  obtain ⟨htoken, hworkspace, hmember⟩ := ha
  rw [hid.1] at hworkspace hmember ⊢
  rw [hid.2.1] at hrole
  refine ⟨subject, user, m, rfl, ⟨?_, ?_, ?_⟩, hrole⟩
  · have hlookup : d₀.userByUsername? = snap.userByUsername? := by
      funext username
      rw [userByUsername?, userByUsername?, husers]
    rw [actor?, hlookup]
    exact htoken
  · rw [workspace?, ← hworkspaces]
    exact hworkspace
  · rw [member?, ← hmembers]
    exact hmember

theorem Serves.commit {rely : RowKey → Database → Database → Prop} {held : RowKey → Prop}
    {ws : List Write} (h : Commits rely snap held d request ws) (hsnap : Serves request d₀ snap)
    (hd : Serves request d₀ d) : Serves request d₀ (d.applyAll ws) where
  isolated := fun w hw => by
    refine (hd.isolated w hw).trans (Isolated.applyAll (h.within hw ?_))
    intro t old row hold hworkspace hrow
    by_contra hne
    have hrow₀ := ((hd.isolated w hw).tasks t row hne).mp hrow
    have hrow' := ((hsnap.isolated w hw).tasks t row hne).mpr hrow₀
    rw [hold, Option.some.injEq] at hrow'
    exact hne (hrow' ▸ hworkspace)
  identity := fun t row row' hrow hrow' => by
    cases hd' : d.task? t with
    | some found => exact (h.changes hd' hrow').identity.trans (hd.identity t row found hrow hd')
    | none =>
        -- a request that deletes a task creates none
        obtain ⟨subject, user, m, hrequest, _⟩ := hd.deleted t row hrow hd'
        subst hrequest
        cases h with
        | deleteTask _ _ _ _ =>
            rw [applyAll_cons, applyAll_nil, task?_deleteTask, hd', ite_self] at hrow'
            cases hrow'
  deleted := fun t row hrow hgone => by
    cases hd' : d.task? t with
    | none => exact hd.deleted t row hrow hd'
    | some found =>
        have hid := hd.identity t row found hrow hd'
        refine (h.mayDelete (fun old hold => ?_) hd' hgone).of_access hsnap hid
        exact (hsnap.identity t row old hrow hold).trans hid.symm
  access := fun hdelete => by
    cases h with
    | deleteTask _ _ _ _ => exact hd.access hdelete
    | _ => cases hdelete

theorem serves_tolerates (request : Request) (d₀ : Database) :
    Tolerates (lockProtocol (Serves request d₀) fun _ _ _ _ _ => True) request := by
  refine lockProtocol_tolerates (fun l d d' hd he => ?_) fun _ _ _ _ _ _ => trivial
  cases he with
  | quiet h => exact hd.of_sameRows h
  | commit snap _ hsnap _ h hd' =>
      rw [hd']
      exact .commit h hsnap hd

theorem serves_serve (env : Nat → Env) (request : Request) (d : Database) :
    Serves request d (serve env request d).2 :=
  (serve_inv (lockProtocol_sound _ _) (serves_tolerates request d) (fun _ _ _ _ => trivial)
    (Serves.refl request d) env).1

end Alone

/-- In every interleaving that starts with the ids of tasks below their counter: a
step of a request to workspace `w` changes memberships and tasks of `w` only; the
constant columns of tasks and workspaces stay; only a permitted `delete_task` makes a
task disappear.  A request that is served alone is permitted by the rows it finds. -/
theorem write_isolation [Collation] {d₀ : Database}
    {σ : System Request Call Call.Res Response Session Database} (hd : Counted d₀)
    (hr : Reaches d₀ σ) :
    (∀ i request l l' σ', System.CallStep Session.machine i request l l' σ σ' →
      (∀ w, request.workspaceId? = some w → Isolated w σ.shared σ'.shared) ∧
      ∀ t row, σ.shared.task? t = some row → σ'.shared.task? t = none →
        ∃ snap, l.readView = some snap ∧ MayDelete snap request t row) ∧
    (∀ σ', Relation.ReflTransGen SystemStep σ σ' →
      (∀ t row row', σ.shared.task? t = some row → σ'.shared.task? t = some row' →
        row'.id = row.id ∧ row'.identity = row.identity) ∧
      ∀ w row, σ.shared.workspace? w = some row → σ'.shared.workspace? w = some row) ∧
    (∀ env request d,
      (∀ w, request.workspaceId? = some w → Isolated w d (serve env request d).2) ∧
      ∀ t row, d.task? t = some row → (serve env request d).2.task? t = none →
        MayDelete d request t row) := by
  obtain ⟨f, hf⟩ := systemNamed_of_reaches hd hr
  refine ⟨fun i request l l' σ' hs => ⟨fun w hw => ?_, fun t row hrow hgone => ?_⟩,
    fun σ' hpath => ⟨fun t row row' hrow hrow' => ?_, ?_⟩, fun env request d => ?_⟩
  · exact isolated_of_callStep hf hr hs hw
  · exact mayDelete_of_callStep hf hr hs hrow hgone
  · exact ⟨(id_of_task? hrow').trans (id_of_task? hrow).symm, identity_eq hf hpath hrow hrow'⟩
  · exact (workspace_of_path hr hpath).2.workspace
  · have hserves := serves_serve env request d
    exact ⟨hserves.isolated, hserves.deleted⟩

/-! ### The owner deletes a task -/

theorem counted_sampleDatabase : Counted sampleDatabase := by
  intro t row hrow
  have hrows : ∀ row ∈ sampleDatabase.tasks.rows, row.id < sampleDatabase.nextTaskId := by decide
  rw [← id_of_task? hrow]
  exact hrows row (Table.mem_of_find? hrow)

def deleteRequest : Request := .deleteTask (some "owner") 1 1

/-- The deletion with everything done but its commit. -/
def deleteInProgress : Progress Call Call.Res Response Session Database :=
  (@Session.machine sampleCollation).advanceN (fun _ => sampleEnv) 6
    ⟨deleteRequest.program, {}, sampleDatabase⟩

theorem write_isolation_delete :
    ∃ row, deleteInProgress.shared.task? 1 = some row ∧ ∃ snap,
      deleteInProgress.loc.readView = some snap ∧
        @MayDelete sampleCollation snap deleteRequest 1 row := by
  let _ := sampleCollation
  have hr : Reaches sampleDatabase (System.solo 0 deleteRequest deleteInProgress) := by
    rw [deleteInProgress]
    exact System.reachable_advanceN (fun _ _ _ _ => trivial) _ 6 (System.reachable_spawn trivial)
  have hcall : deleteInProgress.prog.isCall = true := by decide +kernel
  have hsome : (deleteInProgress.shared.task? 1).isSome = true := by decide +kernel
  have hgone : (Session.machine.advance sampleEnv deleteInProgress).shared.task? 1 = none := by
    decide +kernel
  obtain ⟨row, hrow⟩ := Option.isSome_iff_exists.mp hsome
  have hstep := (write_isolation counted_sampleDatabase hr).1 0 deleteRequest _ _ _
    (System.callStep_advance sampleEnv hcall)
  exact ⟨row, hrow, hstep.2 1 row hrow hgone⟩

end TaskPlatform
