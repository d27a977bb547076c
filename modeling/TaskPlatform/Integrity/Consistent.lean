import TaskPlatform.Concurrency.Published
import TaskPlatform.Orm.Posts

/-!
# Rows the constraints accept

Every committed row satisfies the constraints of its table, and so does every row a
transaction has written, whoever commits in between: users and workspaces are never
deleted, and the counters only grow.
-/

namespace TaskPlatform

open Transaction Relational

namespace Database

/-- What the constraints ask of a written row, apart from free keys.  An id is one the
counter of its table has given out. -/
def Allows (d : Database) : Write → Prop
  | .putUser u => u.id < d.nextUserId ∧ u.username.length ≤ 50 ∧ u.hashedPassword.length ≤ 255
  | .putWorkspace w =>
    w.id < d.nextWorkspaceId ∧ w.name.length ≤ 100 ∧ trimmedLengthOk w.name = true ∧
      (d.user? w.createdById).isSome
  | .putMember m => (d.workspace? m.workspaceId).isSome ∧ (d.user? m.userId).isSome
  | .putTask t => t.id < d.nextTaskId ∧ d.checkTask t = .ok ()
  | .deleteMember _ _ => True
  | .deleteTask _ => True

/-- The writes of a transaction, applied in turn. -/
def AllowsAll (d : Database) : List Write → Prop
  | [] => True
  | w :: ws => d.Allows w ∧ (d.apply w).AllowsAll ws

/-- Every row satisfies the constraints. -/
structure Consistent (d : Database) : Prop where
  user : ∀ u row, d.user? u = some row → d.Allows (.putUser row)
  workspace : ∀ w row, d.workspace? w = some row → d.Allows (.putWorkspace row)
  member : ∀ w u row, d.member? w u = some row → d.Allows (.putMember row)
  task : ∀ t row, d.task? t = some row → d.Allows (.putTask row)

/-- Users and workspaces stay, and ids are given out in order. -/
structure Grows (d d' : Database) : Prop where
  user : ∀ u, (d.user? u).isSome → (d'.user? u).isSome
  workspace : ∀ w, (d.workspace? w).isSome → (d'.workspace? w).isSome
  nextUserId : d.nextUserId ≤ d'.nextUserId
  nextWorkspaceId : d.nextWorkspaceId ≤ d'.nextWorkspaceId
  nextTaskId : d.nextTaskId ≤ d'.nextTaskId

section Grows

variable {d d' : Database} {w : Write} {ws : List Write}

theorem Grows.refl (d : Database) : Grows d d :=
  ⟨fun _ h => h, fun _ h => h, le_refl _, le_refl _, le_refl _⟩

theorem Grows.trans {d'' : Database} (h : Grows d d') (h' : Grows d' d'') : Grows d d'' :=
  ⟨fun u hu => h'.user u (h.user u hu), fun w hw => h'.workspace w (h.workspace w hw),
    h.nextUserId.trans h'.nextUserId, h.nextWorkspaceId.trans h'.nextWorkspaceId,
    h.nextTaskId.trans h'.nextTaskId⟩

theorem grows_apply (d : Database) (w : Write) : Grows d (d.apply w) := by
  cases w with
  | putUser row =>
      refine ⟨fun u hu => ?_, fun _ h => h, le_refl _, le_refl _, le_refl _⟩
      rw [user?_putUser]
      split
      · rfl
      · exact hu
  | putWorkspace row =>
      refine ⟨fun _ h => h, fun w hw => ?_, le_refl _, le_refl _, le_refl _⟩
      rw [workspace?_putWorkspace]
      split
      · rfl
      · exact hw
  | putMember row => exact ⟨fun _ h => h, fun _ h => h, le_refl _, le_refl _, le_refl _⟩
  | deleteMember w u => exact ⟨fun _ h => h, fun _ h => h, le_refl _, le_refl _, le_refl _⟩
  | putTask row => exact ⟨fun _ h => h, fun _ h => h, le_refl _, le_refl _, le_refl _⟩
  | deleteTask t => exact ⟨fun _ h => h, fun _ h => h, le_refl _, le_refl _, le_refl _⟩

theorem grows_applyAll (d : Database) (ws : List Write) : Grows d (d.applyAll ws) := by
  induction ws generalizing d with
  | nil => exact .refl d
  | cons w ws ih => exact (grows_apply d w).trans (ih (d.apply w))

/-- The same writes on more rows. -/
theorem Grows.congr (h : Grows d d') (w : Write) : Grows (d.apply w) (d'.apply w) := by
  obtain ⟨hu, hw, hnextUser, hnextWorkspace, hnextTask⟩ := h
  cases w with
  | putUser row =>
      refine ⟨fun u hrow => ?_, hw, hnextUser, hnextWorkspace, hnextTask⟩
      rw [user?_putUser] at hrow ⊢
      split at hrow
      · rw [if_pos ‹_›]
        rfl
      · rw [if_neg ‹_›]
        exact hu u hrow
  | putWorkspace row =>
      refine ⟨hu, fun k hrow => ?_, hnextUser, hnextWorkspace, hnextTask⟩
      rw [workspace?_putWorkspace] at hrow ⊢
      split at hrow
      · rw [if_pos ‹_›]
        rfl
      · rw [if_neg ‹_›]
        exact hw k hrow
  | putMember row => exact ⟨hu, hw, hnextUser, hnextWorkspace, hnextTask⟩
  | deleteMember w u => exact ⟨hu, hw, hnextUser, hnextWorkspace, hnextTask⟩
  | putTask row => exact ⟨hu, hw, hnextUser, hnextWorkspace, hnextTask⟩
  | deleteTask t => exact ⟨hu, hw, hnextUser, hnextWorkspace, hnextTask⟩

theorem Grows.congrAll (h : Grows d d') (ws : List Write) :
    Grows (d.applyAll ws) (d'.applyAll ws) := by
  induction ws generalizing d d' with
  | nil => exact h
  | cons w ws ih => exact ih (h.congr w)

theorem checkTask_grows (h : Grows d d') {t : Task} (ht : d.checkTask t = .ok ()) :
    d'.checkTask t = .ok () := by
  rw [checkTask_iff] at ht ⊢
  obtain ⟨htitle, hdescription, htrim, hpriority, hworkspace, hcreator, hassignee⟩ := ht
  exact ⟨htitle, hdescription, htrim, hpriority, h.workspace _ hworkspace, h.user _ hcreator,
    fun a ha => h.user a (hassignee a ha)⟩

theorem Allows.grows (hw : d.Allows w) (h : Grows d d') : d'.Allows w := by
  cases w with
  | putUser row => exact ⟨lt_of_lt_of_le hw.1 h.nextUserId, hw.2⟩
  | putWorkspace row =>
      obtain ⟨hid, hname, htrim, hcreator⟩ := hw
      exact ⟨lt_of_lt_of_le hid h.nextWorkspaceId, hname, htrim, h.user _ hcreator⟩
  | putMember row => exact ⟨h.workspace _ hw.1, h.user _ hw.2⟩
  | deleteMember w u => exact trivial
  | putTask row => exact ⟨lt_of_lt_of_le hw.1 h.nextTaskId, checkTask_grows h hw.2⟩
  | deleteTask t => exact trivial

theorem AllowsAll.grows (hws : d.AllowsAll ws) (h : Grows d d') : d'.AllowsAll ws := by
  induction ws generalizing d d' with
  | nil => exact trivial
  | cons w ws ih => exact ⟨hws.1.grows h, ih hws.2 (h.congr w)⟩

theorem AllowsAll.concat (hws : d.AllowsAll ws) (hw : (d.applyAll ws).Allows w) :
    d.AllowsAll (ws ++ [w]) := by
  induction ws generalizing d with
  | nil => exact ⟨hw, trivial⟩
  | cons w' ws ih => exact ⟨hws.1, ih hws.2 hw⟩

end Grows

/-! ## Consistency is kept -/

section Consistent

variable {d d' : Database} {w : Write} {ws : List Write}

theorem consistent_empty : Consistent empty where
  user := nofun
  workspace := nofun
  member := nofun
  task := nofun

/-- Rows alone matter, and the counters may have grown. -/
theorem Consistent.sameRows (hd : Consistent d) (h : SameRows d d') (hgrows : Grows d d') :
    Consistent d' where
  user u row hrow := (hd.user u row ((h.user? u).trans hrow)).grows hgrows
  workspace w row hrow := (hd.workspace w row ((h.workspace? w).trans hrow)).grows hgrows
  member w u row hrow := (hd.member w u row ((h.member? w u).trans hrow)).grows hgrows
  task t row hrow := (hd.task t row ((h.task? t).trans hrow)).grows hgrows

theorem Consistent.apply (hd : Consistent d) (hw : d.Allows w) : Consistent (d.apply w) := by
  have hgrows : Grows d (d.apply w) := grows_apply d w
  have hnew : (d.apply w).Allows w := hw.grows hgrows
  have hold : ∀ {w'}, d.Allows w' → (d.apply w).Allows w' := fun h => h.grows hgrows
  refine ⟨fun u row hrow => ?_, fun k row hrow => ?_, fun k u row hrow => ?_,
    fun t row hrow => ?_⟩
  · cases w with
    | putUser put =>
        rw [user?_putUser] at hrow
        split at hrow
        · cases hrow
          exact hnew
        · exact hold (hd.user u row hrow)
    | _ => exact hold (hd.user u row hrow)
  · cases w with
    | putWorkspace put =>
        rw [workspace?_putWorkspace] at hrow
        split at hrow
        · cases hrow
          exact hnew
        · exact hold (hd.workspace k row hrow)
    | _ => exact hold (hd.workspace k row hrow)
  · cases w with
    | putMember put =>
        rw [member?_putMember] at hrow
        split at hrow
        · cases hrow
          exact hnew
        · exact hold (hd.member k u row hrow)
    | deleteMember w' u' =>
        rw [member?_deleteMember] at hrow
        split at hrow
        · cases hrow
        · exact hold (hd.member k u row hrow)
    | _ => exact hold (hd.member k u row hrow)
  · cases w with
    | putTask put =>
        rw [task?_putTask] at hrow
        split at hrow
        · cases hrow
          exact hnew
        · exact hold (hd.task t row hrow)
    | deleteTask t' =>
        rw [task?_deleteTask] at hrow
        split at hrow
        · cases hrow
        · exact hold (hd.task t row hrow)
    | _ => exact hold (hd.task t row hrow)

theorem Consistent.applyAll (hd : Consistent d) (hws : d.AllowsAll ws) :
    Consistent (d.applyAll ws) := by
  induction ws generalizing d with
  | nil => exact hd
  | cons w ws ih => exact ih (hd.apply hws.1) hws.2

/-- A membership refers to a workspace and to a user. -/
theorem Consistent.member_isSome (hd : Consistent d) {w u : Id} (h : (d.member? w u).isSome) :
    (d.workspace? w).isSome ∧ (d.user? u).isSome := by
  obtain ⟨m, hm⟩ := Option.isSome_iff_exists.mp h
  obtain ⟨hw, hu⟩ := key_of_member? hm
  have hrefs := hd.member w u m hm
  rw [← hw, ← hu]
  exact hrefs

/-- The next ids are free. -/
theorem Consistent.user_free (hd : Consistent d) : d.user? d.nextUserId = none := by
  cases hrow : d.user? d.nextUserId with
  | none => rfl
  | some row =>
      have hlt := (hd.user _ row hrow).1
      rw [id_of_user? hrow] at hlt
      exact absurd hlt (lt_irrefl _)

theorem Consistent.workspace_free (hd : Consistent d) :
    d.workspace? d.nextWorkspaceId = none := by
  cases hrow : d.workspace? d.nextWorkspaceId with
  | none => rfl
  | some row =>
      have hlt := (hd.workspace _ row hrow).1
      rw [id_of_workspace? hrow] at hlt
      exact absurd hlt (lt_irrefl _)

theorem Consistent.task_free (hd : Consistent d) : d.task? d.nextTaskId = none := by
  cases hrow : d.task? d.nextTaskId with
  | none => rfl
  | some row =>
      have hlt := (hd.task _ row hrow).1
      rw [id_of_task? hrow] at hlt
      exact absurd hlt (lt_irrefl _)

end Consistent
end Database

/-! ## Runs -/

open Database

/-- The rows of the database and the writes of a session. -/
structure Session.Consistent (l : Session) (d : Database) : Prop where
  rows : Database.Consistent d
  writes : d.AllowsAll l.writes

theorem Session.Consistent.current {l : Session} {d : Database} (h : l.Consistent d) :
    Database.Consistent (l.current d) :=
  h.rows.applyAll h.writes

section Runs

variable [Collation] {l l' : Session} {d d' : Database} {env : Env}

theorem grows_of_posts (h : Session.Posts l d l' d') : Grows d d' := by
  have hnext : ∀ n : Id, n ≤ n + 1 := fun n => le_of_lt (Int.lt_succ n)
  cases h with
  | committed hl hd =>
      rw [hd]
      exact grows_applyAll d l.writes
  | newUser row hid hl hd =>
      rw [hd]
      exact ⟨fun _ h => h, fun _ h => h, hnext _, le_refl _, le_refl _⟩
  | newWorkspace row hid hl hd =>
      rw [hd]
      exact ⟨fun _ h => h, fun _ h => h, le_refl _, hnext _, le_refl _⟩
  | newTask row hid hl hd =>
      rw [hd]
      exact ⟨fun _ h => h, fun _ h => h, le_refl _, le_refl _, hnext _⟩
  | kept hl hd | dropped hl hd | newMember _ hl hd | role _ _ _ _ hl hd | changed _ _ _ _ _ hl hd
  | cleared _ _ _ hl hd | memberGone _ _ hl hd | taskGone _ hl hd =>
      rw [hd]
      exact .refl d

omit [Collation] in
/-- A session whose next write is allowed. -/
theorem Session.Consistent.posted (h : l.Consistent d) (hrows : Database.Consistent d')
    (hgrows : Grows d d') {w : Write} (hl : l'.writes = l.writes ++ [w])
    (hw : (l.current d').Allows w) : l'.Consistent d' := by
  refine ⟨hrows, ?_⟩
  rw [hl]
  exact (h.writes.grows hgrows).concat hw

omit [Collation] in
theorem Session.Consistent.inserted (h : l.Consistent d) (hrows : Database.Consistent d')
    (hgrows : Grows d d') {check : Except SqlError Unit} {w : Write}
    (hl : Session.Inserts check w l l')
    (hw : check = .ok () → (l.current d').Allows w) : l'.Consistent d' := by
  rcases hl with ⟨hcheck, hl⟩ | hl
  · exact h.posted hrows hgrows hl (hw hcheck)
  · exact ⟨hrows, hl ▸ h.writes.grows hgrows⟩

theorem consistent_of_posts (h : l.Consistent d) (hpost : Session.Posts l d l' d') :
    l'.Consistent d' := by
  have hgrows : Grows d d' := grows_of_posts hpost
  have hcurrent : Grows (l.current d) (l.current d') := hgrows.congrAll l.writes
  cases hpost with
  | kept hl hd =>
      rw [hd]
      exact ⟨h.rows, hl ▸ h.writes⟩
  | dropped hl hd =>
      rw [hd]
      exact ⟨h.rows, hl ▸ trivial⟩
  | committed hl hd =>
      rw [hd]
      exact ⟨h.current, hl ▸ trivial⟩
  | newUser row hid hl hd =>
      have hrows : Database.Consistent d' := h.rows.sameRows (hd ▸ ⟨rfl, rfl, rfl, rfl⟩) hgrows
      refine h.inserted hrows hgrows hl fun hcheck => ?_
      refine ⟨?_, checkUser_lengths hcheck⟩
      rw [Session.current, (next_applyAll d' l.writes).1, hid, hd]
      exact Int.lt_succ _
  | newWorkspace row hid hl hd =>
      have hrows : Database.Consistent d' := h.rows.sameRows (hd ▸ ⟨rfl, rfl, rfl, rfl⟩) hgrows
      refine h.inserted hrows hgrows hl fun hcheck => ?_
      obtain ⟨hname, htrim⟩ := checkWorkspace_name hcheck
      refine ⟨?_, hname, htrim, hcurrent.user _ (checkWorkspace_ok hcheck).2⟩
      rw [Session.current, (next_applyAll d' l.writes).2.1, hid, hd]
      exact Int.lt_succ _
  | newMember row hl hd =>
      refine h.inserted (hd ▸ h.rows) hgrows hl fun hcheck => ?_
      exact Allows.grows (w := .putMember row) (checkMember_ok hcheck).2 hcurrent
  | newTask row hid hl hd =>
      have hrows : Database.Consistent d' := h.rows.sameRows (hd ▸ ⟨rfl, rfl, rfl, rfl⟩) hgrows
      refine h.inserted hrows hgrows hl fun hcheck => ?_
      refine ⟨?_, checkTask_grows hcurrent (checkNewTask_ok hcheck).2⟩
      rw [Session.current, (next_applyAll d' l.writes).2.2, hid, hd]
      exact Int.lt_succ _
  | role old role now hold hl hd =>
      refine h.posted (hd ▸ h.rows) hgrows hl ?_
      exact Allows.grows (w := .putMember old) (h.current.member _ _ old hold) hcurrent
  | changed old patch now hold hcheck hl hd =>
      refine h.posted (hd ▸ h.rows) hgrows hl ?_
      have hid := ((h.current.task _ old hold).grows hcurrent).1
      exact ⟨hid, checkTask_grows hcurrent hcheck⟩
  | cleared old now hold hl hd =>
      refine h.posted (hd ▸ h.rows) hgrows hl ?_
      obtain ⟨hid, hcheck⟩ := (h.current.task _ old hold).grows hcurrent
      refine ⟨hid, checkTask_iff.mpr ?_⟩
      obtain ⟨htitle, hdescription, htrim, hpriority, hw, hc, _⟩ := checkTask_iff.mp hcheck
      exact ⟨htitle, hdescription, htrim, hpriority, hw, hc, fun _ ha => by cases ha⟩
  | memberGone w u hl hd => exact h.posted (hd ▸ h.rows) hgrows hl trivial
  | taskGone t hl hd => exact h.posted (hd ▸ h.rows) hgrows hl trivial

theorem consistent_exec (h : l.Consistent d) (c : Call) :
    (Session.exec env c l d).2.1.Consistent (Session.exec env c l d).2.2 :=
  consistent_of_posts h (Session.posts_exec c)

theorem consistent_run {α : Type} (hd : Database.Consistent d) (env : Nat → Env)
    (p : Prog Call Call.Res α) :
    Database.Consistent (Session.machine.run env p 0 {} d).shared := by
  have hrun : ∀ (p : Prog Call Call.Res α) (n : Nat) (l : Session) (d : Database),
      l.Consistent d → Database.Consistent (Session.machine.run env p n l d).shared := by
    intro p
    induction p with
    | ret a => exact fun _ _ _ h => h.rows
    | call c k ih =>
        intro n l d h
        rw [run_call]
        exact ih _ _ _ _ (consistent_exec h c)
  exact hrun p 0 {} d ⟨hd, trivial⟩

theorem grows_run {α : Type} (env : Nat → Env) (p : Prog Call Call.Res α) (n : Nat) (l : Session)
    (d : Database) : Grows d (Session.machine.run env p n l d).shared := by
  induction p generalizing n l d with
  | ret a => exact Grows.refl d
  | call c k ih =>
      rw [run_call]
      exact (grows_of_posts (Session.posts_exec c)).trans (ih _ _ _ _)

variable {σ σ' : System Request Call Call.Res Response Session Database}

/-- The rows of the database and of every session. -/
structure SystemConsistent (σ : System Request Call Call.Res Response Session Database) : Prop where
  rows : Database.Consistent σ.shared
  sessions : ∀ i p, σ.procs i = some p → σ.shared.AllowsAll p.loc.writes

theorem systemConsistent_step (h : SystemConsistent σ) (hs : SystemStep σ σ') :
    SystemConsistent σ' := by
  cases hs with
  | spawn i request _ _ =>
      exact ⟨h.rows, System.forall_update trivial fun j p _ hp => h.sessions j p hp⟩
  | @call _ i request l l' hc _ =>
      cases hc with
      | @call _ o k env hp hfree =>
          have hpost : Session.Posts l σ.shared (Session.exec env o l σ.shared).2.1
              (Session.exec env o l σ.shared).2.2 := Session.posts_exec o
          have hnew := consistent_of_posts ⟨h.rows, h.sessions _ _ hp⟩ hpost
          refine ⟨hnew.rows, System.forall_update hnew.writes fun j q _ hq => ?_⟩
          exact (h.sessions j q hq).grows (grows_of_posts hpost)

theorem consistent_of_reaches {d₀ : Database} (hd : Database.Consistent d₀) (hr : Reaches d₀ σ) :
    SystemConsistent σ := by
  induction hr with
  | start => exact ⟨hd, fun i p hp => by cases hp⟩
  | step _ hs ih => exact systemConsistent_step ih hs

end Runs

theorem consistent_sampleDatabase : sampleDatabase.Consistent := by
  have husers : ∀ u ∈ sampleDatabase.users.rows, u.id < sampleDatabase.nextUserId ∧
      u.username.length ≤ 50 ∧ u.hashedPassword.length ≤ 255 := by decide +kernel
  have hworkspaces : ∀ w ∈ sampleDatabase.workspaces.rows, w.id < sampleDatabase.nextWorkspaceId ∧
      w.name.length ≤ 100 ∧ trimmedLengthOk w.name = true ∧
        (sampleDatabase.user? w.createdById).isSome := by decide +kernel
  have hmembers : ∀ m ∈ sampleDatabase.members.rows,
      (sampleDatabase.workspace? m.workspaceId).isSome ∧
        (sampleDatabase.user? m.userId).isSome := by decide +kernel
  have htasks : ∀ t ∈ sampleDatabase.tasks.rows, t.id < sampleDatabase.nextTaskId ∧
      sampleDatabase.checkTask t = .ok () := by decide +kernel
  exact ⟨fun _ row h => husers row (Table.mem_of_find? h),
    fun _ row h => hworkspaces row (Table.mem_of_find? h),
    fun _ _ row h => hmembers row (Table.mem_of_find? h),
    fun _ row h => htasks row (Table.mem_of_find? h)⟩

end TaskPlatform
