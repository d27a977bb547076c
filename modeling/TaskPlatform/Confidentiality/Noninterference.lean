import TaskPlatform.Confidentiality.SameSight
import TaskPlatform.Confidentiality.Services
import TaskPlatform.Serial.Run

/-!
# Noninterference

A request of a user gives the same response on two databases that are the same in
his workspaces, and leaves them so, up to the identifiers the database allocates.
Requests that insert nothing are run in lockstep.  The two that insert end with
rows whose identifiers differ, and a renaming exchanges them.
-/

namespace TaskPlatform

open Relational Transaction Database Service

section Noninterference

variable [Collation]

/-! ## Two services side by side -/

/-- How two runs end: in results that `Q` relates, or in the same exception over
databases that agree. -/
inductive Ended {α β : Type} (S : Sight)
    (Q : α → β → Session × Database → Session × Database → Prop) :
    Except Exc α → Except Exc β → Session × Database → Session × Database → Prop where
  | ok {a : α} {b : β} {s s' : Session × Database} (h : Q a b s s') :
      Ended S Q (.ok a) (.ok b) s s'
  | error (e : Exc) {s s' : Session × Database} (h : Agree S s.2 s'.2) :
      Ended S Q (.error e) (.error e) s s'

/-- Two services that end side by side. -/
def Beside {α β : Type} (S : Sight) (x : Service α) (y : Service β)
    (Q : α → β → Session × Database → Session × Database → Prop) (s s' : Session × Database) :
    Prop :=
  wp₂ Session.machine x.run y.run (Ended S Q) s s'

section Rules

variable {S : Sight} {writes : Prop} {α β γ δ : Type} {s s' : Session × Database}
  {d d' d₀ d₀' : Database} {l l' : Session}

theorem beside_pure {Q : α → β → Session × Database → Session × Database → Prop} {a : α} {b : β}
    (h : Q a b s s') : Beside S (pure a) (pure b) Q s s' := Ended.ok h

theorem beside_bind {x : Service α} {y : Service β} {f : α → Service γ} {g : β → Service δ}
    {P : α → β → Session × Database → Session × Database → Prop}
    {Q : γ → δ → Session × Database → Session × Database → Prop} (hx : Beside S x y P s s')
    (hf : ∀ a b s s', P a b s s' → Beside S (f a) (g b) Q s s') :
    Beside S (x >>= f) (y >>= g) Q s s' := by
  refine wp₂_bind (wp₂_mono (fun r r' s s' hr => ?_) hx)
  cases hr with
  | ok h => exact hf _ _ _ _ h
  | error e h => exact Ended.error e h

theorem beside_rollbackOnSqlError {x : Service α} {y : Service β}
    {Q : α → β → Session × Database → Session × Database → Prop} (hx : Beside S x y Q s s') :
    Beside S (rollbackOnSqlError x) (rollbackOnSqlError y) Q s s' := by
  refine wp₂_bind (wp₂_mono (fun r r' s s' hr => ?_) hx)
  cases hr with
  | ok h => exact Ended.ok h
  | error e h =>
      cases e with
      | sql e => exact fun _ => Ended.error _ h
      | app e => exact Ended.error _ h
      | validation => exact Ended.error _ h

/-- A service that looks at nothing outside the sight, next to itself. -/
theorem beside_self {x : Service α} {Q : α → Prop} (hx : CallsE (calling S writes) x Q)
    (hs : Alike S writes d₀ d₀' s s') :
    Beside S x x (fun a b s s' => a = b ∧ Q a ∧ Alike S writes d₀ d₀' s s') s s' := by
  refine wp₂_mono (fun r r' s s' hr => ?_) (wp₂_of_calls (unwinds S writes d₀ d₀') hx hs)
  obtain ⟨rfl, hQ, halike⟩ := hr
  cases r with
  | ok a => exact Ended.ok ⟨rfl, hQ a rfl, halike⟩
  | error e => exact Ended.error e halike.agree

/-- One call on either side. -/
theorem beside_call {c c' : Call}
    {Q : c.Val → c'.Val → Session × Database → Session × Database → Prop}
    (h : ∀ env, Ended S Q ((Session.exec env c l d).1.mapError Exc.sql)
      ((Session.exec env c' l' d').1.mapError Exc.sql)
      (Session.exec env c l d).2 (Session.exec env c' l' d').2) :
    Beside S (call c) (call c') Q (l, d) (l', d') := h

theorem ended_statement {env : Env} {x : Except SqlError α × Session × Database}
    {y : Except SqlError β × Session × Database}
    {Q : α → β → Session × Database → Session × Database → Prop} (hd : Agree S d d')
    (h : Ended S Q (x.1.mapError Exc.sql) (y.1.mapError Exc.sql) x.2 y.2) :
    Ended S Q ((Session.statement env l d x).1.mapError Exc.sql)
      ((Session.statement env l' d' y).1.mapError Exc.sql)
      (Session.statement env l d x).2 (Session.statement env l' d' y).2 := by
  unfold Session.statement
  cases env.fault with
  | none => exact h
  | some e => exact Ended.error _ hd

theorem ended_insert {row : α} {row' : β} {check check' : Except SqlError Unit} {w w' : Write}
    {Q : α → β → Session × Database → Session × Database → Prop} (hcheck : check = check')
    (hd : Agree S d d') (h : check = .ok () → Q row row' (l.write w, d) (l'.write w', d')) :
    Ended S Q ((Session.insert check row w l d).1.mapError Exc.sql)
      ((Session.insert check' row' w' l' d').1.mapError Exc.sql)
      (Session.insert check row w l d).2 (Session.insert check' row' w' l' d').2 := by
  subst hcheck
  unfold Session.insert
  cases hok : check with
  | error e => exact Ended.error _ hd
  | ok _ => exact Ended.ok (h hok)

end Rules

/-! ## A new task -/

section Creation

variable {S : Sight} {d d' : Database}

/-- Inserting a task on either side leaves two databases the same up to its id. -/
theorem sameSight_putTask (h : Agree S d d') (hd : WellFormed d) (hd' : WellFormed d')
    {row : Task} (hid : row.id = d.nextTaskId) :
    SameSight ⟨Equiv.refl Id, Equiv.swap d.nextTaskId d'.nextTaskId⟩ S.user.id
      (d.apply (.putTask row)) (d'.apply (.putTask { row with id := d'.nextTaskId })) where
  user := h.sameSight.user
  own := h.sameSight.own
  workspace := h.sameSight.workspace
  member := h.sameSight.member
  username := h.sameSight.username
  task := by
    intro t w hw
    have hsame : ∀ k, d.taskIn? k w = d'.taskIn? k w := fun k => h.taskIn k w (h.sees w hw)
    rw [taskIn?_putTask, taskIn?_putTask, hid]
    show (if Equiv.swap d.nextTaskId d'.nextTaskId t = d'.nextTaskId then _ else _) = _
    by_cases ht : t = d.nextTaskId
    · rw [ht, Equiv.swap_apply_left, if_pos rfl, if_pos rfl]
      show (if row.workspaceId = w then _ else _) = _
      split_ifs
      · simp [Renaming.taskRow, hid]
      · rfl
    · have hswap : Equiv.swap d.nextTaskId d'.nextTaskId t ≠ d'.nextTaskId := fun heq =>
        ht ((Equiv.swap_apply_eq_iff.mp heq).trans (Equiv.swap_apply_right _ _))
      rw [if_neg ht, if_neg hswap]
      by_cases ht' : t = d'.nextTaskId
      · -- the id of the other side is free on both
        rw [ht', Equiv.swap_apply_right, hsame, hd'.taskIn?_fresh]
        exact (hsame _).symm.trans (hd.taskIn?_fresh w)
      · rw [Equiv.swap_apply_of_ne_of_ne ht ht']
        show d'.taskIn? t w = _
        rw [← hsame, Renaming.map_taskIn?_of_fixed rfl (Equiv.swap_apply_of_ne_of_ne ht ht')]

/-- A session that has pending writes over a database. -/
structure Pending (ws : List Write) (e : Database) (s : Session × Database) : Prop where
  shared : s.2 = e
  writes : s.1.writes = ws

omit [Collation] in
/-- One more write, whatever happens to the counters. -/
theorem Pending.write {ws : List Write} {w : Write} {e f : Database} {l k : Session}
    (h : Pending ws e (l, d)) (hk : k.writes = l.writes ++ [w]) :
    Pending (ws ++ [w]) f (k, f) :=
  ⟨rfl, hk.trans (congrArg (· ++ [w]) h.writes)⟩

/-- How a service that inserts rows ends on the two sides: in results and databases
that are the same up to a renaming of new identifiers. -/
def Created {α : Type} (u : Id) (d d' : Database) (rename : Renaming → α → α) (a b : α)
    (s s' : Session × Database) : Prop :=
  ∃ ρ : Renaming, ρ.Fresh d d' ∧ b = rename ρ a ∧ SameSight ρ u s.2 s'.2

section Steps

variable {e e' : Database} {ws ws' : List Write} {s s' : Session × Database}

theorem beside_commit (hagree : Agree S e e') (hs : Pending ws e s) (hs' : Pending ws' e' s') :
    Beside S (call .commit) (call .commit)
      (fun _ _ s s' => s.2 = e.applyAll ws ∧ s'.2 = e'.applyAll ws') s s' := by
  obtain ⟨l, d⟩ := s
  obtain ⟨l', d'⟩ := s'
  obtain ⟨rfl, rfl⟩ := hs
  obtain ⟨rfl, rfl⟩ := hs'
  exact beside_call fun env => ended_statement hagree (Ended.ok ⟨rfl, rfl⟩)

/-- A row that was inserted is found again. -/
theorem beside_refreshTask {row row' : Task} (hagree : Agree S e e')
    (hs : Pending [.putTask row] e s) (hs' : Pending [.putTask row'] e' s') :
    Beside S (call (.refreshTask row.id)) (call (.refreshTask row'.id))
      (fun a b s s' => (a = row ∧ b = row') ∧
        Pending [.putTask row] e s ∧ Pending [.putTask row'] e' s') s s' := by
  obtain ⟨l, d⟩ := s
  obtain ⟨l', d'⟩ := s'
  obtain ⟨rfl, hwrites⟩ := hs
  obtain ⟨rfl, hwrites'⟩ := hs'
  have hview : ∀ (k : Session) (f : Database) (r : Task), k.writes = [.putTask r] →
      (k.view f).task? r.id = some r := by
    intro k f r hk
    rw [Session.view, hk]
    exact (task?_putTask _ r r.id).trans (if_pos rfl)
  refine beside_call fun env => ?_
  simp only [Session.exec, hview l d row hwrites, hview l' d' row' hwrites']
  exact ended_statement hagree (Ended.ok ⟨⟨rfl, rfl⟩, ⟨rfl, hwrites⟩, ⟨rfl, hwrites'⟩⟩)

end Steps

theorem beside_insertTask {w creator : Id} (hw : S.workspaces w) (hcreator : S.users creator)
    (data : TaskCreate) (hd : WellFormed d) (hd' : WellFormed d') {s s' : Session × Database}
    (hagree : Agree S d d') (hs : Pending [] d s) (hs' : Pending [] d' s') :
    Beside S (call (.insertTask w creator data)) (call (.insertTask w creator data))
      (fun row row' s s' => (row.id = d.nextTaskId ∧ row' = { row with id := d'.nextTaskId }) ∧
        row.workspaceId = w ∧
        Pending [.putTask row] { d with nextTaskId := d.nextTaskId + 1 } s ∧
        Pending [.putTask row'] { d' with nextTaskId := d'.nextTaskId + 1 } s') s s' := by
  obtain ⟨l, e⟩ := s
  obtain ⟨l', e'⟩ := s'
  obtain ⟨rfl, hwrites⟩ : e = d ∧ l.writes = [] := ⟨hs.shared, hs.writes⟩
  obtain ⟨rfl, hwrites'⟩ : e' = d' ∧ l'.writes = [] := ⟨hs'.shared, hs'.writes⟩
  refine beside_call fun env => ended_statement hagree ?_
  let row : Task :=
    { id := e.nextTaskId, title := data.title, priority := data.priority,
      description := data.description, workspaceId := w, creatorId := creator,
      assigneeId := none, status := .todo, createdAt := env.now, updatedAt := env.now }
  have hcheck : (l.current e).checkNewTask row =
      (l'.current e').checkNewTask { row with id := e'.nextTaskId } := by
    have hsame : e.checkTask row = e'.checkTask row := hagree.checkTask hw hcreator nofun
    rw [Session.current, Session.current, hwrites, hwrites']
    unfold Database.checkNewTask
    rw [show (e.applyAll []).task? row.id = none from hd.task?_fresh]
    rw [show (e'.applyAll []).task? e'.nextTaskId = none from hd'.task?_fresh]
    exact hsame
  have hbumped : Agree S { e with nextTaskId := e.nextTaskId + 1 }
      { e' with nextTaskId := e'.nextTaskId + 1 } := { hagree with }
  unfold Session.insertTask
  exact ended_insert hcheck hbumped fun _ => ⟨⟨rfl, rfl⟩, rfl, hs.write rfl, hs'.write rfl⟩

theorem beside_createTask {w : Id} {access : WorkspaceAccess} (hadmitted : Admitted S w access)
    (data : TaskCreate) (hd : WellFormed d) (hd' : WellFormed d') {s s' : Session × Database}
    (hs : Alike S False d d' s s') :
    Beside S (createTask access data) (createTask access data)
      (Created S.user.id d d' Renaming.taskResponse) s s' := by
  obtain ⟨hshared, hshared', hwrites⟩ := hs.still id
  have hagree : Agree S d d' := by
    have := hs.agree
    rwa [hshared, hshared'] at this
  have hwithin : S.workspaces access.workspace.id := hadmitted.workspace ▸ hadmitted.within
  have huser : S.users access.currentUser.id := by
    rw [hadmitted.user]
    exact S.users_of_named S.user_named
  refine beside_rollbackOnSqlError ?_
  refine beside_bind (beside_insertTask hwithin huser data hd hd' hagree ⟨hshared, hwrites⟩
    ⟨hshared', hs.pending.symm.trans hwrites⟩) ?_
  rintro row row' s s' ⟨⟨hid, hrow'⟩, _, hs, hs'⟩
  have hbumped : Agree S { d with nextTaskId := d.nextTaskId + 1 }
      { d' with nextTaskId := d'.nextTaskId + 1 } := { hagree with }
  refine beside_bind (beside_refreshTask hbumped hs hs') ?_
  rintro a b s s' ⟨⟨ha, hb⟩, hs, hs'⟩
  refine beside_bind (beside_commit hbumped hs hs') ?_
  rintro _ _ s s' ⟨hs, hs'⟩
  have hsight := sameSight_putTask hagree hd hd' hid
  refine beside_pure ⟨⟨Equiv.refl Id, Equiv.swap d.nextTaskId d'.nextTaskId⟩,
    ⟨fun _ h => absurd rfl h, fun t ht => ?_⟩, ?_, ?_⟩
  · exact (Equiv.swap_apply_ne_self_iff.mp ht).2
  · rw [ha, hb, hrow']
    simp [taskData, Renaming.taskResponse, hid]
  · rw [hs, hs', hrow']
    exact { hsight with }

/-! ## A new workspace -/

section Founding

omit [Collation]

theorem member?_founded (d : Database) (ws : Workspace) (m : WorkspaceMember) (w v : Id) :
    (d.applyAll [.putWorkspace ws, .putMember m]).member? w v =
      if w = m.workspaceId ∧ v = m.userId then some m else d.member? w v :=
  member?_putMember (d.apply (.putWorkspace ws)) m w v

theorem workspace?_founded (d : Database) (ws : Workspace) (m : WorkspaceMember) (w : Id) :
    (d.applyAll [.putWorkspace ws, .putMember m]).workspace? w =
      if w = ws.id then some ws else d.workspace? w :=
  workspace?_putWorkspace d ws w

end Founding

/-- The exchange of the identifiers of the two new workspaces. -/
abbrev Renaming.founding (d d' : Database) : Renaming :=
  ⟨Equiv.swap d.nextWorkspaceId d'.nextWorkspaceId, Equiv.refl Id⟩

section Founded

variable {ws ws' : Workspace} {m : WorkspaceMember} {w v : Id}

/-- A workspace the user sees is the new one, or was seen before and keeps its id. -/
theorem Agree.sees_founded (h : Agree S d d') (hd' : WellFormed d')
    (hm : m.workspaceId = d.nextWorkspaceId)
    (hw : ((d.applyAll [.putWorkspace ws, .putMember m]).member? w S.user.id).isSome) :
    w = d.nextWorkspaceId ∨
      (w ≠ d.nextWorkspaceId ∧ (Renaming.founding d d').workspace w = w ∧
        w ≠ d'.nextWorkspaceId ∧ (d.member? w S.user.id).isSome) := by
  rw [member?_founded, hm] at hw
  by_cases hn : w = d.nextWorkspaceId
  · exact Or.inl hn
  · rw [if_neg fun heq => hn heq.1] at hw
    have hn' : w ≠ d'.nextWorkspaceId := by
      rintro rfl
      rw [h.own, hd'.member?_fresh] at hw
      cases hw
    exact Or.inr ⟨hn, Equiv.swap_apply_of_ne_of_ne hn hn', hn', hw⟩

/-- The memberships of the new workspaces are exchanged. -/
theorem member?_founded_new (hd : WellFormed d) (hd' : WellFormed d')
    (hm : m.workspaceId = d.nextWorkspaceId) (v : Id) :
    (d'.applyAll [.putWorkspace ws',
        .putMember { m with workspaceId := d'.nextWorkspaceId }]).member?
          ((Renaming.founding d d').workspace d.nextWorkspaceId) v =
      ((d.applyAll [.putWorkspace ws, .putMember m]).member? d.nextWorkspaceId v).map
        (Renaming.founding d d').member := by
  rw [member?_founded, member?_founded, hm, Equiv.swap_apply_left, hd.member?_fresh,
    hd'.member?_fresh]
  by_cases hv : v = m.userId
  · rw [if_pos ⟨rfl, hv⟩, if_pos ⟨rfl, hv⟩]
    simp [Renaming.member, hm]
  · rw [if_neg fun heq => hv heq.2, if_neg fun heq => hv heq.2]
    rfl

omit [Collation] in
/-- The memberships of a workspace that was there before stay. -/
theorem member?_founded_old (hm : m.workspaceId = d.nextWorkspaceId) (hn : w ≠ d.nextWorkspaceId)
    (hn' : w ≠ d'.nextWorkspaceId) (hsame : d.member? w v = d'.member? w v) :
    (d'.applyAll [.putWorkspace ws',
        .putMember { m with workspaceId := d'.nextWorkspaceId }]).member?
          ((Renaming.founding d d').workspace w) v =
      ((d.applyAll [.putWorkspace ws, .putMember m]).member? w v).map
        (Renaming.founding d d').member := by
  have hfixed : (Renaming.founding d d').workspace w = w := Equiv.swap_apply_of_ne_of_ne hn hn'
  rw [hfixed, member?_founded, member?_founded, hm, if_neg fun heq => hn' heq.1,
    if_neg fun heq => hn heq.1, Renaming.map_member?_of_fixed hfixed, hsame]

end Founded

/-- A workspace inserted with its owner on either side leaves two databases the same
up to its id. -/
theorem sameSight_founded (h : Agree S d d') (hd : WellFormed d) (hd' : WellFormed d')
    {ws : Workspace} {m : WorkspaceMember} (hws : ws.id = d.nextWorkspaceId)
    (hm : m.workspaceId = d.nextWorkspaceId) (hu : m.userId = S.user.id) :
    SameSight (Renaming.founding d d') S.user.id
      (d.applyAll [.putWorkspace ws, .putMember m])
      (d'.applyAll [.putWorkspace { ws with id := d'.nextWorkspaceId },
        .putMember { m with workspaceId := d'.nextWorkspaceId }]) where
  user := h.self.1.trans h.self.2.symm
  own := by
    intro w
    by_cases hn : w = d.nextWorkspaceId
    · rw [hn]
      exact member?_founded_new hd hd' hm _
    · by_cases hn' : w = d'.nextWorkspaceId
      · -- neither side has the workspace that the other founds
        have hnone : d.member? d'.nextWorkspaceId S.user.id = none :=
          (h.own _).trans (hd'.member?_fresh _)
        have hnone' : d'.member? d.nextWorkspaceId S.user.id = none :=
          (h.own _).symm.trans (hd.member?_fresh _)
        rw [hn'] at hn ⊢
        rw [member?_founded, member?_founded, hm, Equiv.swap_apply_right,
          if_neg fun heq => hn heq.1.symm, if_neg fun heq => hn heq.1, hnone, hnone']
        rfl
      · exact member?_founded_old hm hn hn' (h.own w)
  workspace := by
    intro w hw
    rcases h.sees_founded hd' hm hw with rfl | ⟨hn, hfixed, hn', hold⟩
    · rw [workspace?_founded, workspace?_founded, hws, if_pos rfl, Equiv.swap_apply_left,
        if_pos rfl]
      simp [Renaming.workspaceRow, hws]
    · rw [hfixed, workspace?_founded, workspace?_founded, hws, if_neg hn, if_neg hn',
        Renaming.map_workspace?_of_fixed hfixed, h.workspace w (h.sees w hold)]
  member := by
    intro w v hw
    rcases h.sees_founded hd' hm hw with rfl | ⟨hn, _, hn', hold⟩
    · exact member?_founded_new hd hd' hm v
    · exact member?_founded_old hm hn hn' (h.member w v (h.sees w hold))
  username := by
    intro w v hw hv
    rcases h.sees_founded hd' hm hw with rfl | ⟨hn, _, _, hold⟩
    · rw [member?_founded, hm, hu, hd.member?_fresh] at hv
      split_ifs at hv with heq
      · rw [heq.2]
        exact congrArg (Option.map (·.username)) (h.self.1.trans h.self.2.symm)
      · cases hv
    · rw [member?_founded, hm, if_neg fun heq => hn heq.1] at hv
      exact h.username v (h.named w v (h.sees w hold) hv)
  task := by
    intro t w hw
    rcases h.sees_founded hd' hm hw with rfl | ⟨hn, hfixed, hn', hold⟩
    · rw [Equiv.swap_apply_left]
      show d'.taskIn? t d'.nextWorkspaceId = (d.taskIn? t d.nextWorkspaceId).map _
      rw [hd.taskIn?_freshWorkspace, hd'.taskIn?_freshWorkspace]
      rfl
    · rw [hfixed]
      show d'.taskIn? t w = (d.taskIn? t w).map _
      rw [Renaming.map_taskIn?_of_fixed hfixed rfl, h.taskIn t w (h.sees w hold)]

theorem beside_insertWorkspace {creator : Id} (hcreator : S.users creator) (name : String)
    (hd : WellFormed d) (hd' : WellFormed d') {s s' : Session × Database}
    (hagree : Agree S d d') (hs : Pending [] d s) (hs' : Pending [] d' s') :
    Beside S (call (.insertWorkspace name creator)) (call (.insertWorkspace name creator))
      (fun row row' s s' => (row.id = d.nextWorkspaceId ∧
          row' = { row with id := d'.nextWorkspaceId }) ∧
        Pending [.putWorkspace row] { d with nextWorkspaceId := d.nextWorkspaceId + 1 } s ∧
        Pending [.putWorkspace row'] { d' with nextWorkspaceId := d'.nextWorkspaceId + 1 } s')
      s s' := by
  obtain ⟨l, e⟩ := s
  obtain ⟨l', e'⟩ := s'
  obtain ⟨rfl, hwrites⟩ : e = d ∧ l.writes = [] := ⟨hs.shared, hs.writes⟩
  obtain ⟨rfl, hwrites'⟩ : e' = d' ∧ l'.writes = [] := ⟨hs'.shared, hs'.writes⟩
  refine beside_call fun env => ended_statement hagree ?_
  let row : Workspace := ⟨e.nextWorkspaceId, name, creator, env.now, env.now⟩
  have hcheck : (l.current e).checkWorkspace row =
      (l'.current e').checkWorkspace { row with id := e'.nextWorkspaceId } := by
    obtain ⟨huser, huser'⟩ := hagree.users creator hcreator
    rw [← Option.isNone_eq_false_iff] at huser huser'
    rw [Session.current, Session.current, hwrites, hwrites']
    unfold Database.checkWorkspace
    rw [show (e.applyAll []).workspace? row.id = none from hd.workspace?_fresh]
    rw [show (e'.applyAll []).workspace? e'.nextWorkspaceId = none from hd'.workspace?_fresh]
    rw [show ((e.applyAll []).user? row.createdById).isNone = false from huser]
    rw [show ((e'.applyAll []).user? row.createdById).isNone = false from huser']
  have hbumped : Agree S { e with nextWorkspaceId := e.nextWorkspaceId + 1 }
      { e' with nextWorkspaceId := e'.nextWorkspaceId + 1 } := { hagree with }
  unfold Session.insertWorkspace
  exact ended_insert hcheck hbumped fun _ => ⟨⟨rfl, rfl⟩, hs.write rfl, hs'.write rfl⟩

/-- The owner's membership of a workspace that was just inserted. -/
theorem beside_insertMember {owner : Id} {e e' : Database} {ws ws' : Workspace}
    (howner : S.users owner) (role : MemberRole) {s s' : Session × Database}
    (hagree : Agree S e e') (hfree : e.member? ws.id owner = none)
    (hfree' : e'.member? ws'.id owner = none)
    (hs : Pending [.putWorkspace ws] e s) (hs' : Pending [.putWorkspace ws'] e' s') :
    Beside S (call (.insertMember ws.id owner role)) (call (.insertMember ws'.id owner role))
      (fun m m' s s' => (m.workspaceId = ws.id ∧ m.userId = owner) ∧
        m' = { m with workspaceId := ws'.id } ∧
        Pending [.putWorkspace ws, .putMember m] e s ∧
        Pending [.putWorkspace ws', .putMember m'] e' s') s s' := by
  obtain ⟨l, d⟩ := s
  obtain ⟨l', d'⟩ := s'
  obtain ⟨rfl, hwrites⟩ : d = e ∧ l.writes = [.putWorkspace ws] := ⟨hs.shared, hs.writes⟩
  obtain ⟨rfl, hwrites'⟩ : d' = e' ∧ l'.writes = [.putWorkspace ws'] := ⟨hs'.shared, hs'.writes⟩
  refine beside_call fun env => ended_statement hagree ?_
  have hok : ∀ (f : Database) (v : Workspace), f.member? v.id owner = none →
      (f.user? owner).isSome →
      (f.applyAll [.putWorkspace v]).checkMember ⟨v.id, owner, role, env.now, env.now⟩ =
        .ok () := by
    intro f v hmember huser
    have hworkspace : (f.applyAll [.putWorkspace v]).workspace? v.id = some v :=
      (workspace?_putWorkspace f v v.id).trans (if_pos rfl)
    unfold Database.checkMember
    rw [show (f.applyAll [.putWorkspace v]).member? v.id owner = none from hmember, hworkspace]
    rw [← Option.isNone_eq_false_iff] at huser
    rw [show ((f.applyAll [.putWorkspace v]).user? owner).isNone = false from huser]
    rfl
  obtain ⟨huser, huser'⟩ := hagree.users owner howner
  have hcheck : (l.current d).checkMember ⟨ws.id, owner, role, env.now, env.now⟩ =
      (l'.current d').checkMember ⟨ws'.id, owner, role, env.now, env.now⟩ := by
    rw [Session.current, Session.current, hwrites, hwrites']
    exact (hok d ws hfree huser).trans (hok d' ws' hfree' huser').symm
  unfold Session.insertMember
  exact ended_insert hcheck hagree fun _ => ⟨⟨rfl, rfl⟩, rfl, hs.write rfl, hs'.write rfl⟩

theorem beside_refreshWorkspace {e e' : Database} {ws ws' : Workspace} {m m' : WorkspaceMember}
    {s s' : Session × Database} (hagree : Agree S e e')
    (hs : Pending [.putWorkspace ws, .putMember m] e s)
    (hs' : Pending [.putWorkspace ws', .putMember m'] e' s') :
    Beside S (call (.refreshWorkspace ws.id)) (call (.refreshWorkspace ws'.id))
      (fun a b s s' => (a = ws ∧ b = ws') ∧ Pending [.putWorkspace ws, .putMember m] e s ∧
        Pending [.putWorkspace ws', .putMember m'] e' s') s s' := by
  obtain ⟨l, d⟩ := s
  obtain ⟨l', d'⟩ := s'
  obtain ⟨rfl, hwrites⟩ := hs
  obtain ⟨rfl, hwrites'⟩ := hs'
  have hview : ∀ (k : Session) (f : Database) (v : Workspace) (x : WorkspaceMember),
      k.writes = [.putWorkspace v, .putMember x] → (k.view f).workspace? v.id = some v := by
    intro k f v x hk
    rw [Session.view, hk]
    exact (workspace?_founded _ v x v.id).trans (if_pos rfl)
  refine beside_call fun env => ?_
  simp only [Session.exec, hview l d ws m hwrites, hview l' d' ws' m' hwrites']
  exact ended_statement hagree (Ended.ok ⟨⟨rfl, rfl⟩, ⟨rfl, hwrites⟩, ⟨rfl, hwrites'⟩⟩)

theorem beside_createWorkspace {user : User} (huser : user = S.user) (name : String)
    (hd : WellFormed d) (hd' : WellFormed d') {s s' : Session × Database}
    (hs : Alike S False d d' s s') :
    Beside S (createWorkspace user name) (createWorkspace user name)
      (Created S.user.id d d' Renaming.workspaceResponse) s s' := by
  subst huser
  obtain ⟨hshared, hshared', hwrites⟩ := hs.still id
  have hagree : Agree S d d' := by
    have := hs.agree
    rwa [hshared, hshared'] at this
  have hown : S.users S.user.id := S.users_of_named S.user_named
  refine beside_rollbackOnSqlError ?_
  refine beside_bind (beside_insertWorkspace hown name hd hd' hagree ⟨hshared, hwrites⟩
    ⟨hshared', hs.pending.symm.trans hwrites⟩) ?_
  rintro ws ws' s s' ⟨⟨hid, hws'⟩, hs, hs'⟩
  have hbumped : Agree S { d with nextWorkspaceId := d.nextWorkspaceId + 1 }
      { d' with nextWorkspaceId := d'.nextWorkspaceId + 1 } := { hagree with }
  have hid' : ws'.id = d'.nextWorkspaceId := by rw [hws']
  have hfree : d.member? ws.id S.user.id = none := by rw [hid, hd.member?_fresh]
  have hfree' : d'.member? ws'.id S.user.id = none := by rw [hid', hd'.member?_fresh]
  refine beside_bind (beside_insertMember hown .owner hbumped hfree hfree' hs hs') ?_
  rintro m m' s s' ⟨⟨hm, hu⟩, hm', hs, hs'⟩
  refine beside_bind (beside_refreshWorkspace hbumped hs hs') ?_
  rintro a b s s' ⟨⟨ha, hb⟩, hs, hs'⟩
  refine beside_bind (beside_commit hbumped hs hs') ?_
  rintro _ _ s s' ⟨hs, hs'⟩
  have hsight := sameSight_founded hagree hd hd' hid (hm.trans hid) hu
  refine beside_pure ⟨.founding d d', ⟨fun w hw => ?_, fun _ h => absurd rfl h⟩, ?_, ?_⟩
  · exact (Equiv.swap_apply_ne_self_iff.mp hw).2
  · rw [ha, hb, hws']
    simp [workspaceData, Renaming.workspaceResponse, hid]
  · rw [hs, hs', hm', hid', hws']
    exact { hsight with }

/-! ## Every route -/

/-- Registration, login and the addition of a member take a username. -/
def Request.takesUsername : Request → Bool
  | createUser _ _ | login _ _ _ | addMember _ _ _ => true
  | _ => false

/-- The route next to itself, when it inserts nothing. -/
theorem beside_route {request : Request} {s s' : Session × Database}
    (h : CallsE (calling S True) request.route fun _ => True) (hs : Alike S True d d' s s') :
    Beside S request.route request.route (Created S.user.id d d' Renaming.body) s s' := by
  refine wp₂_mono (fun r r' s s' hr => ?_) (beside_self h hs)
  cases hr with
  | ok h =>
      obtain ⟨rfl, _, halike⟩ := h
      exact Ended.ok ⟨.none, Renaming.fresh_none d d', (Renaming.body_none _).symm,
        halike.agree.sameSight⟩
  | error e h => exact Ended.error e h

theorem route_beside {request : Request} (hsubject : S.Owns request.subject)
    (hsome : request.subject.isSome) (hname : request.takesUsername = false)
    (hd : WellFormed d) (hd' : WellFormed d') (hagree : Agree S d d') :
    Beside S request.route request.route (Created S.user.id d d' Renaming.body)
      ({}, d) ({}, d') := by
  have hstart : ∀ writes, Alike S writes d d' ({}, d) ({}, d') := fun writes =>
    { agree := hagree, snapshot := hagree, pending := rfl, members := rfl, tasks := rfl,
      allowed := nofun, loaded := nofun, still := fun _ => ⟨rfl, rfl, rfl⟩ }
  cases request with
  | createUser ip body => cases hsome
  | login ip username password => cases hsome
  | addMember subject w body => cases hname
  | getMe subject =>
      exact beside_route (calls_then (calls_getCurrentUser hsubject) fun _ _ =>
        callsE_pure trivial) (hstart _)
  | createWorkspace subject body =>
      refine beside_bind (beside_self (calls_getCurrentUser hsubject) (hstart False)) ?_
      rintro user _ s s' ⟨rfl, huser, hs⟩
      refine beside_bind (beside_self (calls_enforceWriteLimit user.id _ _) hs) ?_
      rintro _ _ s s' ⟨_, _, hs⟩
      refine beside_bind (beside_self (calls_validBody body) hs) ?_
      rintro data _ s s' ⟨rfl, _, hs⟩
      refine beside_bind (beside_createWorkspace huser data.name hd hd' hs) ?_
      rintro a b s s' ⟨ρ, hρ, rfl, hsight⟩
      exact beside_pure ⟨ρ, hρ, rfl, hsight⟩
  | listWorkspaces subject page =>
      refine beside_route ?_ (hstart _)
      refine calls_then (calls_getCurrentUser hsubject) fun user huser => ?_
      refine calls_then (calls_validBody page) fun page _ => ?_
      exact calls_then (calls_listWorkspaces huser page) fun _ _ => callsE_pure trivial
  | getWorkspace subject w =>
      refine beside_route ?_ (hstart _)
      refine calls_then (calls_workspaceAccess hsubject w) fun access _ => ?_
      exact calls_then (calls_getWorkspaceData access) fun _ _ => callsE_pure trivial
  | listMembers subject w page =>
      refine beside_route ?_ (hstart _)
      refine calls_then (calls_workspaceAccess hsubject w) fun access haccess => ?_
      refine calls_then (calls_validBody page) fun page _ => ?_
      exact calls_then (calls_listMembers haccess page) fun _ _ => callsE_pure trivial
  | updateMemberRole subject w u body =>
      refine beside_route ?_ (hstart _)
      refine calls_then (calls_limitedRoleAccess hsubject _ _ w) fun access haccess => ?_
      refine calls_then (calls_validBody body) fun data _ => ?_
      exact calls_then (calls_updateMemberRole trivial haccess u _) fun _ _ =>
        callsE_pure trivial
  | removeMember subject w u =>
      refine beside_route ?_ (hstart _)
      refine calls_then (calls_limitedRoleAccess hsubject _ _ w) fun access haccess => ?_
      exact calls_then (calls_removeMember trivial haccess u) fun _ _ => callsE_pure trivial
  | listTasks subject w query =>
      refine beside_route ?_ (hstart _)
      refine calls_then (calls_workspaceAccess hsubject w) fun access haccess => ?_
      refine calls_then (calls_validBody query) fun query _ => ?_
      exact calls_then (calls_listTasks haccess query) fun _ _ => callsE_pure trivial
  | createTask subject w body =>
      refine beside_bind (beside_self (calls_limitedWorkspaceAccess hsubject _ w)
        (hstart False)) ?_
      rintro access _ s s' ⟨rfl, haccess, hs⟩
      refine beside_bind (beside_self (calls_validBody body) hs) ?_
      rintro data _ s s' ⟨rfl, _, hs⟩
      refine beside_bind (beside_createTask haccess data hd hd' hs) ?_
      rintro a b s s' ⟨ρ, hρ, rfl, hsight⟩
      exact beside_pure ⟨ρ, hρ, rfl, hsight⟩
  | getTask subject w t =>
      refine beside_route ?_ (hstart _)
      exact calls_then (calls_taskAccess hsubject w t) fun _ _ => callsE_pure trivial
  | updateTask subject w t body =>
      refine beside_route ?_ (hstart _)
      refine calls_then (calls_limitedTaskAccess hsubject _ w t) fun access haccess => ?_
      refine calls_then (calls_validBody body) fun data _ => ?_
      exact calls_then (calls_updateTask trivial haccess data) fun _ _ => callsE_pure trivial
  | updateTaskStatus subject w t body =>
      refine beside_route ?_ (hstart _)
      refine calls_then (calls_limitedTaskAccess hsubject _ w t) fun access haccess => ?_
      refine calls_then (calls_validBody body) fun data _ => ?_
      exact calls_then (calls_updateTaskStatus trivial haccess data) fun _ _ =>
        callsE_pure trivial
  | updateTaskAssignee subject w t body =>
      refine beside_route ?_ (hstart _)
      refine calls_then (calls_limitedTaskAccess hsubject _ w t) fun access haccess => ?_
      refine calls_then (calls_validBody body) fun data _ => ?_
      exact calls_then (calls_updateTaskAssignee trivial haccess data) fun _ _ =>
        callsE_pure trivial
  | deleteTask subject w t =>
      refine beside_route ?_ (hstart _)
      refine calls_then (calls_limitedTaskAccess hsubject _ w t) fun access haccess => ?_
      exact calls_then (calls_deleteTask trivial haccess) fun _ _ => callsE_pure trivial

/-- On two well-formed databases that are the same for a user, every request of his
that takes no username is answered alike and leaves them the same for him, up to
an exchange of identifiers that were free. -/
theorem noninterference (hd : WellFormed d) (hd' : WellFormed d') {u : User}
    (hs : SameSight .none u.id d d') {request : Request}
    (hu : d.actor? request.subject = some u) (hname : request.takesUsername = false)
    (env : Nat → Env) :
    ∃ ρ : Renaming, ρ.Fresh d d' ∧
      (serve env request d').1 = (serve env request d).1.map ρ.body ∧
      SameSight ρ u.id (serve env request d).2 (serve env request d').2 := by
  obtain ⟨name, hsubject, hfind⟩ : ∃ name, request.subject = some name ∧
      d.userByUsername? name = some u := Option.bind_eq_some_iff.mp hu
  have hweight : Collation.weight u.username = Collation.weight name := by
    simpa using List.find?_some hfind
  have hid : d.user? u.id = some u := Table.find?_key d.users (List.mem_of_find?_eq_some hfind)
  have hagree := agree_of_sameSight hd hd' hid hs
  have hroute : Beside (sightOf u d d') request.route request.route
      (Created u.id d d' Renaming.body) ({}, d) ({}, d') := by
    refine route_beside ?_ (by rw [hsubject]; rfl) hname hd hd' hagree
    intro n hn
    rw [hsubject] at hn
    rw [← Option.some.inj hn]
    exact hweight.symm
  have hprogram : wp₂ Session.machine request.program request.program
      (fun r r' s s' => ∃ ρ : Renaming, ρ.Fresh d d' ∧ r' = r.map ρ.body ∧
        SameSight ρ u.id s.2 s'.2) ({}, d) ({}, d') := by
    refine wp₂_bind (wp₂_mono (fun r r' s s' hr _ => ?_) hroute)
    cases hr with
    | ok h =>
        obtain ⟨ρ, hρ, rfl, hsight⟩ := h
        exact ⟨ρ, hρ, rfl, hsight⟩
    | error e h => exact ⟨.none, Renaming.fresh_none d d', rfl, h.sameSight⟩
  exact wp₂_run env 0 hprogram

end Creation
end Noninterference

/-! ### A member of one workspace does not learn of another -/

/-- The sample with a workspace of somebody else, with a task. -/
def otherDatabase : Database :=
  { sampleDatabase.applyAll
      [.putUser ⟨3, "other", "h3"⟩, .putWorkspace ⟨2, "secret", 3, 0, 0⟩,
       .putMember ⟨2, 3, .owner, 0, 0⟩,
       .putTask { id := 2, title := "secret", priority := 5, description := none,
                  workspaceId := 2, creatorId := 3, assigneeId := some 3, status := .done,
                  createdAt := 0, updatedAt := 0 }] with
    nextUserId := 4, nextWorkspaceId := 3, nextTaskId := 3 }

theorem sameSight_otherDatabase : SameSight .none 2 sampleDatabase otherDatabase := by
  have hmember : ∀ w v, otherDatabase.member? w v =
      if w = 2 ∧ v = 3 then some ⟨2, 3, .owner, 0, 0⟩ else sampleDatabase.member? w v :=
    member?_putMember sampleDatabase ⟨2, 3, .owner, 0, 0⟩
  have hsees : ∀ w, (sampleDatabase.member? w 2).isSome → w ≠ 2 := by
    rintro w hw rfl
    exact absurd hw (by decide +kernel)
  have hvisible : ∀ w v, w ≠ 2 → otherDatabase.member? w v = sampleDatabase.member? w v := by
    intro w v hw
    rw [hmember, if_neg fun h => hw h.1]
  exact
    { user := by decide +kernel
      own := by
        intro w
        show otherDatabase.member? w 2 = _
        rw [hmember, if_neg fun h => absurd h.2 (by decide), Renaming.map_member_none]
      workspace := by
        intro w hw
        rw [Renaming.map_workspaceRow_none]
        exact (workspace?_putWorkspace sampleDatabase ⟨2, "secret", 3, 0, 0⟩ w).trans
          (if_neg (hsees w hw))
      member := by
        intro w v hw
        show otherDatabase.member? w v = _
        rw [hvisible w v (hsees w hw), Renaming.map_member_none]
      username := by
        intro w v _ hv
        obtain ⟨m, hm⟩ := Option.isSome_iff_exists.mp hv
        have hne : ∀ m ∈ sampleDatabase.members.rows, m.userId ≠ 3 := by decide +kernel
        have hv3 : v ≠ 3 := by
          rw [← (key_of_member? hm).2]
          exact hne m (Table.mem_of_find? hm)
        have huser := (user?_putUser sampleDatabase ⟨3, "other", "h3"⟩ v).trans (if_neg hv3)
        exact congrArg (Option.map (·.username)) huser.symm
      task := by
        intro t w hw
        rw [Renaming.map_taskRow_none]
        refine (taskIn?_putTask sampleDatabase _ t w).trans ?_
        by_cases ht : t = 2
        · have hnone : sampleDatabase.taskIn? 2 w = none := rfl
          rw [if_pos ht, if_neg (hsees w hw).symm, ht, hnone]
        · rw [if_neg ht] }

def creationRequest : Request := .createTask (some "member") 1 (TaskCreate.validate "new")

theorem noninterference_creation :
    ∃ ρ : Renaming, ρ.Fresh sampleDatabase otherDatabase ∧
      (@serve sampleCollation (fun _ => sampleEnv) creationRequest otherDatabase).1 =
        (@serve sampleCollation (fun _ => sampleEnv) creationRequest sampleDatabase).1.map ρ.body ∧
      SameSight ρ 2 (@serve sampleCollation (fun _ => sampleEnv) creationRequest sampleDatabase).2
        (@serve sampleCollation (fun _ => sampleEnv) creationRequest otherDatabase).2 := by
  let _ := sampleCollation
  have hd : WellFormed sampleDatabase :=
    ⟨by decide +kernel, by decide +kernel, by decide +kernel, by decide +kernel,
      by decide +kernel⟩
  have hd' : WellFormed otherDatabase :=
    ⟨by decide +kernel, by decide +kernel, by decide +kernel, by decide +kernel,
      by decide +kernel⟩
  have hu : sampleDatabase.actor? creationRequest.subject = some ⟨2, "member", "h2"⟩ := by
    decide +kernel
  exact noninterference hd hd' sameSight_otherDatabase hu rfl fun _ => sampleEnv

end TaskPlatform
