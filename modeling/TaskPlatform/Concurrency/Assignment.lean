import TaskPlatform.Concurrency.Routes

/-!
# Assignment and removal

Unfinished tasks stay unassigned or assigned to members while assignments, status
changes and removals of members interleave in any way.

The argument is a protocol on top of the row locks.  While somebody else holds
the lock on the membership of `u` in `w`, the unfinished tasks of `u` in `w` can
only become fewer: an assignment to `u` locks that membership first.  A removal
holds it from before its bulk update to its commit, so a task that held nothing
to clear when it was visited holds nothing to clear when the membership goes.
-/

namespace TaskPlatform

open Transaction Database

/-- Every task that is not DONE is unassigned or assigned to a member. -/
def UnfinishedAssigned (d : Database) : Prop :=
  ∀ t row, d.task? t = some row → row.status ≠ .done →
    ∀ a ∈ row.assigneeId, (d.member? row.workspaceId a).isSome

/-- The unfinished tasks of `u` in `w` were unfinished tasks of his before. -/
def OnlyFewer (w u : Id) (d d' : Database) : Prop :=
  ∀ t row', d'.task? t = some row' → holdsUnfinished w u row' = true →
    ∃ row, d.task? t = some row ∧ holdsUnfinished w u row = true

section Rows

variable {d d' : Database}

theorem unfinishedAssigned_putTask {row : Task} (hd : UnfinishedAssigned d)
    (h : row.status ≠ .done → ∀ a ∈ row.assigneeId, (d.member? row.workspaceId a).isSome) :
    UnfinishedAssigned (d.apply (.putTask row)) := by
  intro t row' hrow' hdone a ha
  rw [task?_putTask] at hrow'
  split_ifs at hrow' with ht
  · cases hrow'
    exact h hdone a ha
  · exact hd t row' hrow' hdone a ha

theorem unfinishedAssigned_putMember (hd : UnfinishedAssigned d) (m : WorkspaceMember) :
    UnfinishedAssigned (d.apply (.putMember m)) := by
  intro t row hrow hdone a ha
  rw [member?_putMember]
  split_ifs
  · rfl
  · exact hd t row hrow hdone a ha

theorem unfinishedAssigned_deleteTask (hd : UnfinishedAssigned d) (t : Id) :
    UnfinishedAssigned (d.apply (.deleteTask t)) := by
  intro t' row hrow hdone a ha
  rw [task?_deleteTask] at hrow
  split_ifs at hrow
  exact hd t' row hrow hdone a ha

theorem onlyFewer_deleteTask (w u t : Id) : OnlyFewer w u d (d.apply (.deleteTask t)) := by
  intro t' row hrow hu
  rw [task?_deleteTask] at hrow
  split_ifs at hrow
  exact ⟨row, hrow, hu⟩

theorem onlyFewer_putTask {w u : Id} {row row' : Task} (hrow : d.task? row'.id = some row)
    (h : holdsUnfinished w u row' = true → holdsUnfinished w u row = true) :
    OnlyFewer w u d (d.apply (.putTask row')) := by
  intro t new hnew hu
  rw [task?_putTask] at hnew
  split_ifs at hnew with ht
  · cases hnew
    rw [ht]
    exact ⟨row, hrow, h hu⟩
  · exact ⟨new, hnew, hu⟩

theorem onlyFewer_of_sameRows (h : SameRows d d') (w u : Id) : OnlyFewer w u d d' :=
  fun t row' hrow' hu => ⟨row', (h.task? t).trans hrow', hu⟩

theorem OnlyFewer.trans {d'' : Database} {w u : Id} (h : OnlyFewer w u d d')
    (h' : OnlyFewer w u d' d'') : OnlyFewer w u d d'' := by
  intro t row'' hrow hu
  obtain ⟨row', hrow', hu'⟩ := h' t row'' hrow hu
  exact h t row' hrow' hu'

theorem unfinishedAssigned_of_sameRows (hd : UnfinishedAssigned d) (h : SameRows d d') :
    UnfinishedAssigned d' := by
  intro t row hrow hdone a ha
  rw [← h.member?]
  exact hd t row ((h.task? t).trans hrow) hdone a ha

/-- A new assignee is a member whose membership is locked. -/
theorem assignee_locked {held : RowKey → Prop} {actor w : Id} {m : WorkspaceMember} {row : Task}
    {requested : Option Id} {locked : List WorkspaceMember}
    (hown : d.member? w actor = some m ∧ held (.member w actor))
    (hlocked : ∀ a x, membershipOf locked a = some x →
      d.member? w a = some x ∧ held (.member w a))
    (hdecide : decideAssignee m.role actor row requested locked = .change) :
    ∀ a ∈ requested, (d.member? w a).isSome ∧ held (.member w a) := by
  intro a ha
  obtain ⟨_, _, hcases⟩ := decideAssignee_change hdecide
  rcases hcases with ⟨_, hall⟩ | hclaim | hrelease
  · obtain ⟨x, hx⟩ := Option.isSome_iff_exists.mp (hall a ha)
    obtain ⟨hmember, hheld⟩ := hlocked a x hx
    exact ⟨by rw [hmember]; rfl, hheld⟩
  · obtain ⟨_, hreq, _⟩ := canSelfClaimTask_iff.mp hclaim
    rw [hreq, Option.mem_some_iff] at ha
    rw [← ha]
    exact ⟨by rw [hown.1]; rfl, hown.2⟩
  · obtain ⟨_, hreq, _⟩ := canSelfReleaseTask_iff.mp hrelease
    rw [hreq] at ha
    cases ha

end Rows

/-- What the holder of a lock relies on. -/
def assignmentRely [Collation] (k : RowKey) (d d' : Database) : Prop :=
  SameRow k d d' ∧ ∀ w u, k = .member w u → OnlyFewer w u d d'

def Request.isStatusUpdate : Request → Bool
  | updateTaskStatus _ _ _ _ => true
  | _ => false

def Request.isRemoval : Request → Bool
  | removeMember _ _ _ => true
  | _ => false

/-- A status request does not take a task out of DONE. -/
def KeepsDone (request : Request) (_ : Session) (d : Database) (_ : Session) (d' : Database) :
    Prop :=
  request.isStatusUpdate = true → ∀ t row row', d.task? t = some row → row.status = .done →
    d'.task? t = some row' → row'.status = .done

section Protocol

variable [Collation]

def assignmentProtocol : Protocol Request Session Database RowKey where
  inv := UnfinishedAssigned
  evolve := Persists
  rely := assignmentRely
  assume := KeepsDone
  guar := fun _ _ _ _ _ => True
  evolve_refl := Persists.refl
  evolve_trans := Persists.trans
  rely_refl := fun k d =>
    ⟨sameRow_refl k d, fun w u _ => onlyFewer_of_sameRows (SameRows.refl d) w u⟩
  rely_trans := fun h h' =>
    ⟨sameRow_trans h.1 h'.1, fun w u hk => (h.2 w u hk).trans (h'.2 w u hk)⟩

theorem assignmentProtocol_sound : Sound assignmentProtocol := ⟨fun h => h.1, fun h => h⟩

/-! ## Each commit keeps the protocol -/

variable {rely : RowKey → Database → Database → Prop} {held : RowKey → Prop} {request : Request}
  {ws : List Write} {l : Session} {d d' snap : Database}

/-- After a removal nobody has an unfinished task in the workspace he was removed
from. -/
theorem unfinishedAssigned_removal {w u : Id} {updatedAt : Timestamp} {cleared : List Task}
    (hd : UnfinishedAssigned d) (hrely : ∀ d₀, rely (.member w u) d₀ d → OnlyFewer w u d₀ d)
    (hpassed : ∀ t, Passed rely w u cleared d t) :
    UnfinishedAssigned
      (d.applyAll (cleared.map (clearWrite updatedAt) ++ [.deleteMember w u])) := by
  intro t row hrow hdone a ha
  rcases task?_removal hrow with ⟨ht, hold⟩ | hnone
  · rw [member?_removal, if_neg]
    · exact hd t row hold hdone a ha
    · rintro ⟨hw, hu⟩
      -- had it held something to clear, it would have when it was visited
      have hholds : holdsUnfinished w u row = true :=
        holdsUnfinished_iff.mpr ⟨hw, by rw [← hu]; exact ha, hdone⟩
      rcases hpassed t with hc | ⟨d₀, hd₀, hskip⟩
      · exact ht hc
      · obtain ⟨row₀, hrow₀, hholds₀⟩ := hrely d₀ hd₀ t row hold hholds
        rw [hskip row₀ hrow₀] at hholds₀
        cases hholds₀
  · rw [hnone] at ha
    cases ha

theorem onlyFewer_removal {w u w' u' : Id} {updatedAt : Timestamp} {cleared : List Task} :
    OnlyFewer w' u' d
      (d.applyAll (cleared.map (clearWrite updatedAt) ++ [.deleteMember w u])) := by
  intro t row hrow hu
  rcases task?_removal hrow with ⟨_, hold⟩ | hnone
  · exact ⟨row, hold, hu⟩
  · rw [holdsUnfinished_of_none hnone] at hu
    cases hu

/-- A commit keeps unfinished tasks with members, unless a status request takes a
task out of DONE whose assignee is no member. -/
theorem unfinishedAssigned_commit (hd : UnfinishedAssigned d)
    (hrely : request.isRemoval = true →
      ∀ w u d₀, rely (.member w u) d₀ d → OnlyFewer w u d₀ d)
    (hreopen : request.isStatusUpdate = true → ∀ t row row', d.task? t = some row →
      row.status = .done → (d.applyAll ws).task? t = some row' → row'.status ≠ .done →
        ∀ a ∈ row.assigneeId, (d.member? row.workspaceId a).isSome)
    (h : Commits rely snap held d request ws) : UnfinishedAssigned (d.applyAll ws) := by
  cases h with
  | createUser hfree => exact hd
  | @createWorkspace _ _ _ workspace m _ _ _ _ _ =>
      have hworkspace : UnfinishedAssigned (d.apply (.putWorkspace workspace)) := hd
      exact unfinishedAssigned_putMember hworkspace m
  | addMember _ _ _ _ _ _ => exact unfinishedAssigned_putMember hd _
  | updateMemberRole _ _ _ _ _ => exact unfinishedAssigned_putMember hd _
  | removeMember _ _ _ _ _ hpassed =>
      exact unfinishedAssigned_removal hd (hrely rfl _ _) hpassed
  | createTask _ _ hrow _ _ =>
      refine unfinishedAssigned_putTask hd fun _ a ha => ?_
      rw [hrow.2.2.1] at ha
      cases ha
  | @updateTask _ _ _ body _ _ old row _ _ _ _ hrow =>
      refine unfinishedAssigned_putTask hd fun hdone a ha => hd _ _ hrow ?_ a ?_
      · exact fun hold => hdone ((body.status_patch old row).trans hold)
      · exact (body.assigneeId_patch old row).symm.trans ha
  | @updateTaskStatus _ _ t body _ _ _ row now _ _ hrow _ =>
      have htask := (taskIn?_eq_some.mp hrow).1
      refine unfinishedAssigned_putTask hd fun hdone a ha => ?_
      by_cases hold : row.status = .done
      · refine hreopen rfl t row _ htask hold ?_ hdone a ha
        exact (task?_putTask d _ t).trans (if_pos (id_of_task? htask).symm)
      · exact hd t row htask hold a ha
  | updateTaskAssignee _ hm hlocked hrow hdecide =>
      obtain ⟨_, hworkspace⟩ := taskIn?_eq_some.mp hrow
      refine unfinishedAssigned_putTask hd fun _ a ha => ?_
      exact hworkspace ▸ (assignee_locked hm hlocked hdecide a ha).1
  | deleteTask _ _ _ _ => exact unfinishedAssigned_deleteTask hd _

/-- A commit gives a user an unfinished task in a workspace only with a lock on his
membership, or by taking a task of his out of DONE. -/
theorem onlyFewer_commit {w u : Id} (hheld : ¬ held (.member w u))
    (hreopen : request.isStatusUpdate = true → ∀ t row row', d.task? t = some row →
      row.status = .done → (d.applyAll ws).task? t = some row' → row'.status = .done)
    (h : Commits rely snap held d request ws) : OnlyFewer w u d (d.applyAll ws) := by
  have hsame : OnlyFewer w u d d := onlyFewer_of_sameRows (SameRows.refl d) w u
  cases h with
  | createUser hfree => exact hsame
  | createWorkspace _ _ _ _ _ => exact hsame
  | addMember _ _ _ _ _ _ => exact hsame
  | updateMemberRole _ _ _ _ _ => exact hsame
  | removeMember _ _ _ _ _ _ => exact onlyFewer_removal
  | createTask _ hfree hrow _ _ =>
      intro t new hnew hu
      have hnew := (task?_putTask d _ t).symm.trans hnew
      split_ifs at hnew
      · cases hnew
        rw [holdsUnfinished_of_none hrow.2.2.1] at hu
        cases hu
      · exact ⟨new, hnew, hu⟩
  | @updateTask _ _ _ body _ _ old row _ _ _ _ hrow =>
      refine onlyFewer_putTask ((id_of_task? hrow).symm ▸ hrow) fun hu => ?_
      obtain ⟨hw, ha, hdone⟩ := holdsUnfinished_iff.mp hu
      exact holdsUnfinished_iff.mpr ⟨hw, (body.assigneeId_patch old row).symm.trans ha,
        fun hold => hdone ((body.status_patch old row).trans hold)⟩
  | @updateTaskStatus _ _ t body _ _ _ row now _ _ hrow _ =>
      have htask := (taskIn?_eq_some.mp hrow).1
      refine onlyFewer_putTask ((id_of_task? htask).symm ▸ htask) fun hu => ?_
      obtain ⟨hw, ha, hdone⟩ := holdsUnfinished_iff.mp hu
      refine holdsUnfinished_iff.mpr ⟨hw, ha, fun hold => hdone ?_⟩
      refine hreopen rfl t row _ htask hold ?_
      exact (task?_putTask d _ t).trans (if_pos (id_of_task? htask).symm)
  | updateTaskAssignee _ hm hlocked hrow hdecide =>
      obtain ⟨htask, hworkspace⟩ := taskIn?_eq_some.mp hrow
      refine onlyFewer_putTask ((id_of_task? htask).symm ▸ htask) fun hu => ?_
      -- the new assignee's membership is locked, and `u`'s is not
      obtain ⟨hw, ha, _⟩ := holdsUnfinished_iff.mp hu
      refine absurd ?_ hheld
      rw [← hw, hworkspace]
      exact (assignee_locked hm hlocked hdecide u ha).2
  | deleteTask _ _ _ _ => exact onlyFewer_deleteTask w u _

theorem assignment_tolerates (request : Request) : Tolerates assignmentProtocol request := by
  intro l d l' d' hd hassume he
  refine ⟨?_, he.persists, fun k hk => ⟨he.sameRow hk, ?_⟩, trivial⟩
  · cases he with
    | quiet h => exact unfinishedAssigned_of_sameRows hd h
    | commit snap hview _ _ h hd' =>
        subst hd'
        refine unfinishedAssigned_commit hd (fun _ w u d₀ h₀ => h₀.2 w u rfl)
          (fun hs t row row' hrow hdone hrow' hdone' => ?_) h
        exact absurd (hassume hs t row row' hrow hdone hrow') hdone'
  · rintro w u rfl
    cases he with
    | quiet h => exact onlyFewer_of_sameRows h w u
    | commit snap hview _ _ h hd' =>
        subst hd'
        exact onlyFewer_commit hk hassume h

/-- Assignments, status changes, removals and any other requests, interleaved in any
way: if no status request takes a task out of DONE, every committed state has its
unfinished tasks unassigned or assigned to members. -/
theorem unfinishedAssigned_of_reachable (hd : UnfinishedAssigned d)
    {σ : System Request Call Call.Res Response Session Database}
    (hr : System.Reachable Session.machine workload (fun _ => True) KeepsDone d σ) :
    UnfinishedAssigned σ.shared :=
  (coherent_of_requests assignmentProtocol_sound (fun request _ => assignment_tolerates request)
    hd hr).inv

end Protocol

/-! ### A member with an unfinished task is removed -/

theorem unfinishedAssigned_sampleDatabase : UnfinishedAssigned sampleDatabase := by
  have h : UnfinishedAssigned
      { sampleDatabase with tasks := ∅ } := fun _ _ hrow => by cases hrow
  exact unfinishedAssigned_putTask h fun _ a ha => by cases ha

/-- The sample with its task in progress by the member. -/
def assignedDatabase : Database :=
  sampleDatabase.apply (.putTask
    { id := 1, title := "task", priority := 1, description := none, workspaceId := 1,
      creatorId := 1, assigneeId := some 2, status := .inProgress, createdAt := 0,
      updatedAt := 0 })

def removalRequest : Request := .removeMember (some "owner") 1 2

def removalDone : Progress Call Call.Res Response Session Database :=
  (@Session.machine sampleCollation).advanceN (fun _ => sampleEnv) 20
    ⟨removalRequest.program, {}, assignedDatabase⟩

theorem unfinishedAssigned_of_reachable_removal :
    removalDone.shared.member? 1 2 = none ∧ UnfinishedAssigned removalDone.shared := by
  let _ := sampleCollation
  have hr : System.Reachable Session.machine workload (fun _ => True) KeepsDone
      assignedDatabase (System.solo 0 removalRequest removalDone) := by
    rw [removalDone]
    exact System.reachable_advanceN (fun _ _ _ _ hstatus => nomatch hstatus) _ 20
      (System.reachable_spawn trivial)
  have hassigned : UnfinishedAssigned assignedDatabase :=
    unfinishedAssigned_putTask unfinishedAssigned_sampleDatabase fun _ a ha => by
      cases ha
      rfl
  exact ⟨by decide +kernel, unfinishedAssigned_of_reachable hassigned hr⟩

end TaskPlatform
