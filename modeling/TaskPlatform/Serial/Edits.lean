import TaskPlatform.Concurrency.EditStages
import TaskPlatform.Transaction.Order
import TaskPlatform.Transaction.Schedule

/-!
# Concurrent edits of one task

A general edit writes the columns it changes, as it has read them.  Edits that go on
side by side come to what they come to one after the other, as long as no column that
an edit names without changing it has been changed by the time it commits.
-/

namespace TaskPlatform

open Transaction Database

/-! ## Edits -/

/-- The columns of a general edit. -/
structure TaskContent where
  title : String
  description : Option String
  priority : Int
  deriving DecidableEq, Repr

def Task.content (t : Task) : TaskContent := ⟨t.title, t.description, t.priority⟩

/-- Apply a patch to the columns. -/
def TaskUpdate.edit (body : TaskUpdate) (c : TaskContent) : TaskContent :=
  { title := body.title.getD c.title
    description := body.description.getD c.description
    priority := body.priority.getD c.priority }

/-- The columns that an edit names with the value it has read have it still. -/
structure TaskUpdate.UpToDate (body : TaskUpdate) (old row : Task) : Prop where
  title : body.title = some old.title → row.title = old.title
  description : body.description = some old.description → row.description = old.description
  priority : body.priority = some old.priority → row.priority = old.priority

theorem getD_filter_ne {α : Type} [DecidableEq α] {v : Option α} {old new : α}
    (h : v = some old → new = old) : (v.filter (· ≠ old)).getD new = v.getD new := by
  cases v with
  | none => rfl
  | some x =>
      by_cases hx : x = old
      · rw [hx, h (congrArg some hx)]
        simp [Option.filter]
      · simp [Option.filter, hx]

theorem getD_of_filter_ne {α : Type} [DecidableEq α] {v : Option α} {old : α}
    (h : v.filter (· ≠ old) = none) : v.getD old = old := by
  cases v with
  | none => rfl
  | some x => simpa [Option.filter] using h

theorem TaskUpdate.UpToDate.content {body : TaskUpdate} {old row : Task}
    (h : body.UpToDate old row) :
    ((body.patch.dirty old).apply row).content = body.edit row.content :=
  TaskContent.mk.injEq .. ▸
    ⟨getD_filter_ne h.title, getD_filter_ne h.description, getD_filter_ne h.priority⟩

/-- An edit that finds its values changes nothing. -/
theorem TaskUpdate.edit_of_clean {body : TaskUpdate} {old : Task}
    (h : body.patch.dirty old = {}) : body.edit old.content = old.content :=
  TaskContent.mk.injEq .. ▸
    ⟨getD_of_filter_ne (congrArg TaskPatch.title h),
      getD_of_filter_ne (congrArg TaskPatch.description h),
      getD_of_filter_ne (congrArg TaskPatch.priority h)⟩

instance (body : TaskUpdate) (old row : Task) : Decidable (body.UpToDate old row) :=
  decidable_of_iff
    ((body.title = some old.title → row.title = old.title) ∧
      (body.description = some old.description → row.description = old.description) ∧
      (body.priority = some old.priority → row.priority = old.priority))
    ⟨fun h => ⟨h.1, h.2.1, h.2.2⟩, fun h => ⟨h.title, h.description, h.priority⟩⟩

/-- The program commits next. -/
def isCommitting : Prog Call Call.Res Response → Bool
  | .call .commit _ => true
  | _ => false

/-- The condition on a process that is about to commit a change. -/
def CommitsUpToDate (t : Id) (body : TaskUpdate) (p : Prog Call Call.Res Response) (l : Session)
    (d : Database) : Prop :=
  isCommitting p = true → ∀ snap ∈ l.readView, ∀ old ∈ snap.task? t, ∀ row ∈ d.task? t,
    body.patch.dirty old ≠ {} → body.UpToDate old row

instance (t : Id) (body : TaskUpdate) (p : Prog Call Call.Res Response) (l : Session)
    (d : Database) : Decidable (CommitsUpToDate t body p l d) :=
  inferInstanceAs (Decidable (_ → _))

/-! ## One edit among others -/

/-- The outcome of a flush that was accepted. -/
inductive Flushed (t : Id) (body : TaskUpdate) (old : Task) (d : Database) (l : Session) :
    Prop where
  | skipped (hw : l.writes = []) (hclean : body.patch.dirty old = {})
  | written (row : Task) (now : Timestamp) (hrow : d.task? t = some row)
      (hw : l.writes = [.putTask { (body.patch.dirty old).apply row with updatedAt := now }])
      (hdirty : body.patch.dirty old ≠ {})

section Stages

variable (t : Id) (c₀ : TaskContent) (body : Nat → TaskUpdate)

/-- Process `i` edits. -/
abbrev editBy (i : Nat) (c : TaskContent) : TaskContent := (body i).edit c

/-- The snapshot of a session has the task as it was on the way. -/
def Seen (order : List Nat) (l : Session) : Prop :=
  ∀ snap, l.readView = some snap →
    ∃ old, snap.task? t = some old ∧ Passes (editBy body) order c₀ old.content

/-- Where process `i` stands when the edits of `order` have been committed. -/
inductive EditStage (order : List Nat) (i : Nat) (d : Database) :
    Prog Call Call.Res Response → Session → Prop where
  | failed {p : Prog Call Call.Res Response} {l : Session}
      (hp : Prog.Fails Call.isQuiet p) (hi : i ∉ order) : EditStage order i d p l
  | reading {p : Prog Call Call.Res Response} {l : Session}
      (hp : Reading t (body i).patch p) (hl : l.Clean) (hseen : Seen t c₀ body order l)
      (hi : i ∉ order) : EditStage order i d p l
  | flushed {p : Prog Call Call.Res Response} {l : Session} {snap : Database} {old : Task}
      (hp : p = finishing (refreshAndCommit t) ∨ ∃ row, p = finishing (keepTask row))
      (hview : l.readView = some snap) (hold : snap.task? t = some old)
      (hseen : Passes (editBy body) order c₀ old.content) (hw : Flushed t (body i) old d l)
      (hi : i ∉ order) : EditStage order i d p l
  | done {p : Prog Call Call.Res Response} {l : Session}
      (hp : (∃ b, p = closing (.ok b)) ∨ ∃ b, p = .ret (.ok b)) (hw : l.writes = [])
      (hi : i ∈ order) : EditStage order i d p l

/-- What a step of process `i` does to the task and to the order of the edits. -/
structure Advances [Collation] (order order' : List Nat) (i : Nat) (l : Session) (d d' : Database) :
    Prop where
  row : ∀ row, d.task? t = some row → row.content = outcome (editBy body) order c₀ →
    ∃ row', d'.task? t = some row' ∧ row'.content = outcome (editBy body) order' c₀
  passes : ∀ x, Passes (editBy body) order c₀ x → Passes (editBy body) order' c₀ x
  mem : ∀ j, j ≠ i → (j ∈ order' ↔ j ∈ order)
  nodup : order.Nodup → order'.Nodup
  frame : ¬ l.Holds (.task t) → d'.task? t = d.task? t

end Stages

section Steps

variable [Collation] {t : Id} {c₀ : TaskContent} {body : Nat → TaskUpdate} {order : List Nat}
  {i : Nat} {d d' : Database} {l : Session} {env : Env}

/-- A written row is locked. -/
theorem holds_of_written {put : Task} (hw : l.writes = [.putTask put]) (hid : put.id = t) :
    l.Holds (.task t) := by
  refine Or.inr ⟨.putTask put, ?_, ?_⟩
  · rw [hw]
    exact List.mem_singleton.mpr rfl
  · show RowKey.task t ∈ [RowKey.task put.id]
    rw [hid]
    exact List.mem_singleton.mpr rfl

/-- A step that leaves the rows alone. -/
theorem Advances.quiet (h : SameRows d d') : Advances t c₀ body order order i l d d' where
  row := fun row hrow hc => ⟨row, (h.task? t).symm.trans hrow, hc⟩
  passes := fun _ hx => hx
  mem := fun _ _ => Iff.rfl
  nodup := fun hn => hn
  frame := fun _ => (h.task? t).symm

/-- What a flush of a task does. -/
theorem flushTask_cases (env : Env) (patch : TaskPatch) (l : Session) (d : Database) :
    (∃ e, Session.exec env (.flushTask t patch) l d = (.error e, l, d)) ∨
      ∃ loaded, l.tasks.find? t = some loaded ∧
        ((patch.dirty loaded = {} ∧
            Session.exec env (.flushTask t patch) l d = (.ok (), l, d)) ∨
          patch.dirty loaded ≠ {} ∧ ∃ row kept, (l.current d).task? t = some row ∧
            Session.exec env (.flushTask t patch) l d =
              (.ok (), (l.write (.putTask { (patch.dirty loaded).apply row with
                updatedAt := env.now })).keepTask kept, d)) := by
  simp only [Session.exec, Session.flushTask, Session.statement]
  cases hloaded : l.tasks.find? t with
  | none => exact Or.inl ⟨_, rfl⟩
  | some loaded =>
      by_cases hclean : patch.dirty loaded = {}
      · exact Or.inr ⟨loaded, rfl, Or.inl ⟨hclean, if_pos hclean⟩⟩
      · simp only [if_neg hclean]
        cases env.fault with
        | some e => exact Or.inl ⟨e, rfl⟩
        | none =>
            cases hrow : (l.current d).task? t with
            | none => exact Or.inl ⟨_, rfl⟩
            | some row =>
                simp only
                split
                · rename_i e _
                  exact Or.inl ⟨e, rfl⟩
                · exact Or.inr ⟨loaded, rfl, Or.inr ⟨hclean, row, _, rfl, rfl⟩⟩

omit [Collation] in
/-- A read keeps the snapshot on the way, or opens it where the edits have come to. -/
theorem Seen.read {l' : Session} (h : Seen t c₀ body order l) (hl : Session.Reads l d l')
    {row : Task} (hrow : d.task? t = some row) (hc : row.content = outcome (editBy body) order c₀) :
    Seen t c₀ body order l' := by
  intro snap hsnap
  rcases hl.view with hview | hview
  · exact h snap (hview.symm.trans hsnap)
  · rw [hview, Option.some.injEq] at hsnap
    cases hopen : l.readView with
    | some snap' =>
        rw [hopen, Option.getD_some] at hsnap
        exact h snap (hopen.trans (congrArg some hsnap))
    | none =>
        rw [hopen, Option.getD_none] at hsnap
        exact ⟨row, hsnap ▸ hrow, hc ▸ passes_outcome order c₀⟩

/-- A process that fails goes on failing. -/
theorem failed_step {c : Call} {k : c.Res → Prog Call Call.Res Response}
    (hp : Prog.Fails Call.isQuiet (.call c k)) (hi : i ∉ order) :
    ∃ order', Advances t c₀ body order order' i l d (Session.exec env c l d).2.2 ∧
      EditStage t c₀ body order' i (Session.exec env c l d).2.2 (k (Session.exec env c l d).1)
        (Session.exec env c l d).2.1 := by
  cases hp with
  | call hc h => exact ⟨order, .quiet (Session.exec_sameRows hc), .failed (h _) hi⟩

theorem reading_step {c : Call} {k : c.Res → Prog Call Call.Res Response}
    (hp : Reading t (body i).patch (.call c k)) (hl : l.Clean) (hseen : Seen t c₀ body order l)
    (hi : i ∉ order) {row : Task} (hrow : d.task? t = some row)
    (hc : row.content = outcome (editBy body) order c₀) :
    ∃ order', Advances t c₀ body order order' i l d (Session.exec env c l d).2.2 ∧
      EditStage t c₀ body order' i (Session.exec env c l d).2.2 (k (Session.exec env c l d).1)
        (Session.exec env c l d).2.1 := by
  generalize hprog : Prog.call c k = p at hp
  cases hp with
  | fails h =>
      subst hprog
      exact failed_step h hi
  | read hread h =>
      cases hprog
      have hreads : Session.Reads l d (Session.exec env c l d).2.1 := Session.reads_exec hl hread
      refine ⟨order, .quiet (Session.exec_sameRows hread.isWork.1), ?_⟩
      exact .reading (h _ (names_exec env c l d)) hreads.clean (hseen.read hreads hrow hc) hi
  | save =>
      obtain ⟨k', hsave, hok, herror⟩ := finishing_saveTask t (body i).patch
      rw [hsave] at hprog
      cases hprog
      refine ⟨order, .quiet (Session.exec_sameRows nofun), ?_⟩
      rcases flushTask_cases env (body i).patch l d with
        ⟨e, hexec⟩ | ⟨loaded, hloaded, ⟨hclean, hexec⟩ | ⟨hdirty, row', kept, hrow', hexec⟩⟩
      · rw [hexec]
        exact .failed (herror e) hi
      · obtain ⟨snap, hview, hsnap⟩ := hl.loaded t loaded hloaded
        obtain ⟨old, hold, hpassed⟩ := hseen snap hview
        rw [hsnap, Option.some.injEq] at hold
        rw [hexec]
        exact .flushed (Or.inl hok) hview hsnap (hold ▸ hpassed) (.skipped hl.writes hclean) hi
      · obtain ⟨snap, hview, hsnap⟩ := hl.loaded t loaded hloaded
        obtain ⟨old, hold, hpassed⟩ := hseen snap hview
        rw [hsnap, Option.some.injEq] at hold
        have hcurrent : d.task? t = some row' := by
          rw [Session.current, hl.writes] at hrow'
          exact hrow'
        rw [hexec]
        refine .flushed (Or.inl hok) hview hsnap (hold ▸ hpassed) (.written row' env.now hcurrent ?_
          hdirty) hi
        show l.writes ++ [_] = _
        rw [hl.writes]
        rfl

/-- Reading the row again leaves what was flushed. -/
theorem refresh_step {snap : Database} {old : Task} (hview : l.readView = some snap)
    (hold : snap.task? t = some old) (hseen : Passes (editBy body) order c₀ old.content)
    (hw : Flushed t (body i) old d l) (hi : i ∉ order) {c : Call}
    {k : c.Res → Prog Call Call.Res Response}
    (hp : Prog.call c k = finishing (refreshAndCommit t)) :
    ∃ order', Advances t c₀ body order order' i l d (Session.exec env c l d).2.2 ∧
      EditStage t c₀ body order' i (Session.exec env c l d).2.2 (k (Session.exec env c l d).1)
        (Session.exec env c l d).2.1 := by
  obtain ⟨k', hrefresh, hok, herror⟩ := finishing_refreshAndCommit t
  rw [hrefresh] at hp
  cases hp
  refine ⟨order, .quiet (Session.exec_sameRows nofun), ?_⟩
  simp only [Session.exec, Session.statement]
  cases env.fault with
  | some e => exact .failed (herror e) hi
  | none =>
      cases hrow : (l.view d).task? t with
      | none => exact .failed (herror _) hi
      | some row =>
          have hopen : l.readView.getD d = snap := by rw [hview, Option.getD_some]
          refine .flushed (Or.inr ⟨row, hok row⟩) (congrArg some hopen) hold hseen ?_ hi
          cases hw with
          | skipped hw hclean => exact .skipped hw hclean
          | written row now hrow hw hdirty => exact .written row now hrow hw hdirty

/-- A commit puts the edit last, or where it has changed nothing. -/
theorem commit_step {old : Task} (hseen : Passes (editBy body) order c₀ old.content)
    (hw : Flushed t (body i) old d l) (hi : i ∉ order) {row₁ : Task} {c : Call}
    {k : c.Res → Prog Call Call.Res Response} (hp : Prog.call c k = finishing (keepTask row₁))
    (hcurrent : ∀ row, d.task? t = some row → (body i).patch.dirty old ≠ {} →
      (body i).UpToDate old row) :
    ∃ order', Advances t c₀ body order order' i l d (Session.exec env c l d).2.2 ∧
      EditStage t c₀ body order' i (Session.exec env c l d).2.2 (k (Session.exec env c l d).1)
        (Session.exec env c l d).2.1 := by
  obtain ⟨k', hcommit, hok, herror⟩ := finishing_keepTask row₁
  rw [hcommit] at hp
  cases hp
  simp only [Session.exec, Session.statement]
  cases env.fault with
  | some e => exact ⟨order, .quiet (SameRows.refl d), .failed (herror e) hi⟩
  | none =>
      cases hw with
      | skipped hw hclean =>
          obtain ⟨order', hperm, houtcome, hpasses⟩ :=
            hseen.insert (e := i) (TaskUpdate.edit_of_clean hclean)
          have hrows : l.current d = d := by
            rw [Session.current, hw]
            rfl
          refine ⟨order', ⟨fun row hrow hc => ⟨row, ?_, hc.trans houtcome.symm⟩, hpasses,
            fun j hj => ?_, fun hn => ?_, fun _ => ?_⟩,
            .done (Or.inl ⟨_, hok⟩) rfl (hperm.mem_iff.mpr List.mem_cons_self)⟩
          · rw [hrows]
            exact hrow
          · rw [hperm.mem_iff, List.mem_cons, or_iff_right hj]
          · exact hperm.nodup_iff.mpr (List.nodup_cons.mpr ⟨hi, hn⟩)
          · rw [hrows]
      | written row now hrow hw hdirty =>
          have hid : row.id = t := id_of_task? hrow
          have hnew : (l.current d).task? t =
              some { ((body i).patch.dirty old).apply row with updatedAt := now } := by
            rw [Session.current, hw, applyAll_cons, applyAll_nil, task?_putTask]
            exact if_pos hid.symm
          have hcontent := (hcurrent row hrow hdirty).content
          refine ⟨order ++ [i], ⟨fun row' hrow' hc => ⟨_, hnew, ?_⟩, fun x hx => hx.concat i,
            fun j hj => ?_, fun hn => ?_, fun hfree => ?_⟩,
            .done (Or.inl ⟨_, hok⟩) rfl (List.mem_append_right _ List.mem_cons_self)⟩
          · rw [hrow, Option.some.injEq] at hrow'
            rw [outcome_concat, ← hc, ← hrow']
            exact hcontent
          · rw [List.mem_append, List.mem_singleton, or_iff_left hj]
          · exact List.nodup_append.mpr ⟨hn, List.nodup_singleton i,
              fun a ha b hb => fun hab => hi (by rw [← List.mem_singleton.mp hb, ← hab]; exact ha)⟩
          · exact absurd (holds_of_written hw hid) hfree

/-- One step of an edit. -/
theorem edit_step (env : Env) {c : Call} {k : c.Res → Prog Call Call.Res Response}
    (h : EditStage t c₀ body order i d (.call c k) l)
    (hcommit : CommitsUpToDate t (body i) (.call c k) l d) {row : Task}
    (hrow : d.task? t = some row) (hc : row.content = outcome (editBy body) order c₀) :
    ∃ order', Advances t c₀ body order order' i l d (Session.exec env c l d).2.2 ∧
      EditStage t c₀ body order' i (Session.exec env c l d).2.2 (k (Session.exec env c l d).1)
        (Session.exec env c l d).2.1 := by
  cases h with
  | failed hp hi => exact failed_step hp hi
  | reading hp hl hseen hi => exact reading_step hp hl hseen hi hrow hc
  | @flushed snap old hp hview hold hseen hw hi =>
      rcases hp with hp | ⟨row₁, hp⟩
      · exact refresh_step hview hold hseen hw hi hp
      · refine commit_step hseen hw hi hp fun row' hrow' hdirty => ?_
        obtain ⟨k', hkeep, _⟩ := finishing_keepTask row₁
        rw [hp, hkeep] at hcommit
        exact hcommit rfl snap hview old hold row' hrow' hdirty
  | done hp hw hi =>
      rcases hp with ⟨b, hp⟩ | ⟨b, hp⟩
      · cases hp
        exact ⟨order, .quiet (SameRows.refl d), .done (Or.inr ⟨b, rfl⟩) rfl hi⟩
      · cases hp

/-- The other processes stand where they stood. -/
theorem EditStage.stays {order' : List Nat} {j : Nat} {p : Prog Call Call.Res Response}
    {l' : Session} (h : EditStage t c₀ body order j d p l')
    (hpasses : ∀ x, Passes (editBy body) order c₀ x → Passes (editBy body) order' c₀ x)
    (hmem : j ∈ order' ↔ j ∈ order) (hrow : l'.Holds (.task t) → d'.task? t = d.task? t) :
    EditStage t c₀ body order' j d' p l' := by
  cases h with
  | failed hp hj => exact .failed hp fun hin => hj (hmem.mp hin)
  | reading hp hl hseen hj =>
      refine .reading hp hl (fun snap hsnap => ?_) fun hin => hj (hmem.mp hin)
      obtain ⟨old, hold, hpassed⟩ := hseen snap hsnap
      exact ⟨old, hold, hpasses _ hpassed⟩
  | flushed hp hview hold hseen hw hj =>
      refine .flushed hp hview hold (hpasses _ hseen) ?_ fun hin => hj (hmem.mp hin)
      cases hw with
      | skipped hw hclean => exact .skipped hw hclean
      | written row now hput hw hdirty =>
          refine .written row now ?_ hw hdirty
          have hid : row.id = t := id_of_task? hput
          rw [hrow (holds_of_written hw hid)]
          exact hput
  | done hp hw hj => exact .done hp hw (hmem.mpr hj)

omit [Collation] in
/-- A process that has come to a value has committed. -/
theorem EditStage.committed {b : Body} (h : EditStage t c₀ body order i d (.ret (.ok b)) l) :
    i ∈ order := by
  cases h with
  | failed hp _ => cases hp
  | reading hp _ _ _ =>
      generalize hprog : (Prog.ret (.ok b) : Prog Call Call.Res Response) = p at hp
      cases hp with
      | fails h =>
          subst hprog
          cases h
      | read _ _ => cases hprog
      | save => cases hprog
  | flushed hp _ _ _ _ _ =>
      rcases hp with hp | ⟨row, hp⟩
      · cases hp
      · cases hp
  | done _ _ hi => exact hi

end Steps

/-! ## Runs -/

section Runs

variable [Collation] {t : Id} {c₀ : TaskContent} {body : Nat → TaskUpdate} {order : List Nat}
  {d₀ : Database} {σ σ' : System Request Call Call.Res Response Session Database}

/-- The edits of `order` have been committed, one after the other. -/
structure EditsOrdered (t : Id) (c₀ : TaskContent) (body : Nat → TaskUpdate) (order : List Nat)
    (σ : System Request Call Call.Res Response Session Database) : Prop where
  nodup : order.Nodup
  row : ∃ row, σ.shared.task? t = some row ∧ row.content = outcome (editBy body) order c₀
  stages : ∀ i p, σ.procs i = some p → EditStage t c₀ body order i σ.shared p.prog p.loc
  known : ∀ i ∈ order, (σ.procs i).isSome = true

/-- The condition on a step of a run: a commit is up to date. -/
def UpToDateStep (t : Id) (body : Nat → TaskUpdate) (e : Event Request Env)
    (σ : System Request Call Call.Res Response Session Database) : Prop :=
  match e with
  | .spawn _ _ => True
  | .call i _ => ∀ p ∈ σ.procs i, CommitsUpToDate t (body i) p.prog p.loc σ.shared

instance (t : Id) (body : Nat → TaskUpdate) (e : Event Request Env)
    (σ : System Request Call Call.Res Response Session Database) :
    Decidable (UpToDateStep t body e σ) :=
  match e with
  | .spawn _ _ => isTrue trivial
  | .call i _ => inferInstanceAs (Decidable (∀ p ∈ σ.procs i, _))

omit [Collation] in
theorem editsOrdered_start {row₀ : Task} (body : Nat → TaskUpdate) (hrow : d₀.task? t = some row₀) :
    EditsOrdered t row₀.content body [] (System.start d₀) where
  nodup := List.nodup_nil
  row := ⟨row₀, hrow, rfl⟩
  stages := by
    intro i p hp
    cases hp
  known := by
    intro i hi
    cases hi

omit [Collation] in
theorem EditsOrdered.spawn (h : EditsOrdered t c₀ body order σ) {i : Nat}
    {subject : Option String} {w : Id} (hi : σ.procs i = none) :
    let request : Request := .updateTask subject w t (some (body i))
    EditsOrdered t c₀ body order (σ.set i ⟨request, request.program, {}⟩) where
  nodup := h.nodup
  row := h.row
  stages := by
    have hnew : i ∉ order := by
      intro hin
      have hknown := h.known i hin
      rw [hi] at hknown
      cases hknown
    refine System.forall_update ?_ fun j p _ hp => h.stages j p hp
    exact .reading (reading_program subject w t (body i)) ⟨rfl, nofun⟩ nofun hnew
  known j hj := System.isSome_set_procs (Or.inr (h.known j hj))

theorem EditsOrdered.call (hr : Reaches d₀ σ) (h : EditsOrdered t c₀ body order σ) {i : Nat}
    {env : Env} (hc : UpToDateStep t body (.call i env) σ)
    (hd : System.Does Session.machine workload (.call i env) σ σ') :
    ∃ order', EditsOrdered t c₀ body order' σ' := by
  cases hd with
  | @call _ i request c k l env hp hfree =>
      obtain ⟨row, hrow, hcontent⟩ := h.row
      obtain ⟨order', hadvance, hstage⟩ :=
        edit_step env (h.stages i _ hp) (hc _ hp) hrow hcontent
      refine ⟨order', hadvance.nodup h.nodup, hadvance.row row hrow hcontent,
        System.forall_update hstage fun j q hji hq => ?_, fun j hj => ?_⟩
      · refine (h.stages j q hq).stays hadvance.passes (hadvance.mem j hji) fun hlock => ?_
        exact hadvance.frame ((publish_coherent hr).exclusive j i q _ hji hq hp _ hlock)
      · refine System.isSome_set_procs ?_
        by_cases hji : j = i
        · exact Or.inl hji
        · exact Or.inr (h.known j ((hadvance.mem j hji).mp hj))

/-- The processes of `σ`, in some order, make of the columns what it has. -/
def Serialized (t : Id) (c₀ : TaskContent) (body : Nat → TaskUpdate)
    (σ : System Request Call Call.Res Response Session Database) : Prop :=
  ∃ order : List Nat, order.Nodup ∧ (∀ i, i ∈ order ↔ (σ.procs i).isSome = true) ∧
    ∃ row, σ.shared.task? t = some row ∧ row.content = outcome (editBy body) order c₀

/-- Every process has come to a value. -/
def AllSucceed (σ : System Request Call Call.Res Response Session Database) : Prop :=
  ∀ i p, σ.procs i = some p → ∃ b, p.prog = .ret (.ok b)

/-- Edits of one task that commit up to date come to what they come to in some order. -/
theorem edits_serializable {row₀ : Task} {w : Id} (subject : Nat → Option String)
    (body : Nat → TaskUpdate) {es : List (Event Request Env)} (hrow : d₀.task? t = some row₀)
    (hes : ∀ i request, .spawn i request ∈ es →
      request = .updateTask (subject i) w t (some (body i)))
    (hr : System.RunsWhere Session.machine workload (UpToDateStep t body) (System.start d₀) es σ)
    (hall : AllSucceed σ) : Serialized t row₀.content body σ := by
  obtain ⟨_, order, h⟩ : Reaches d₀ σ ∧ ∃ order, EditsOrdered t row₀.content body order σ := by
    have hstart : Reaches d₀ (System.start d₀) ∧
        ∃ order, EditsOrdered t row₀.content body order (System.start d₀) :=
      ⟨.start, [], editsOrdered_start body hrow⟩
    refine hr.keeps (I := fun σ => Reaches d₀ σ ∧ ∃ order, EditsOrdered t row₀.content body order σ)
      (fun e σ₁ σ₂ he hc hd h => ?_) hstart
    obtain ⟨hreaches, order, hordered⟩ := h
    refine ⟨hd.reachable (fun _ _ _ _ _ => trivial) (fun _ _ _ => trivial) hreaches, ?_⟩
    cases e with
    | spawn i request =>
        cases hes i request he
        cases hd with
        | spawn hi => exact ⟨order, hordered.spawn hi⟩
    | call i env => exact hordered.call hreaches hc hd
  refine ⟨order, h.nodup, fun i => ⟨h.known i, fun hi => ?_⟩, h.row⟩
  obtain ⟨p, hp⟩ := Option.isSome_iff_exists.mp hi
  obtain ⟨b, hret⟩ := hall i p hp
  have hstage := h.stages i p hp
  rw [hret] at hstage
  exact hstage.committed

end Runs

/-! ### Two requests for the sample task -/

/-- Both requests read the task, and then go on as `rest` says. -/
def crossing (request : Nat → Request) (rest : List Nat) : List (Event Request Env) :=
  .spawn 0 (request 0) :: List.replicate 3 (.call 0 sampleEnv) ++
    .spawn 1 (request 1) :: List.replicate 3 (.call 1 sampleEnv) ++
    rest.map fun i => .call i sampleEnv

theorem crossing_spawns {request : Nat → Request} {rest : List Nat} {i : Nat} {r : Request}
    (h : .spawn i r ∈ crossing request rest) : r = request i := by
  simp only [crossing, List.replicate, List.cons_append, List.nil_append, List.mem_cons,
    Event.spawn.injEq, reduceCtorEq, false_or, List.mem_map, and_false, exists_false,
    or_false] at h
  rcases h with ⟨rfl, rfl⟩ | ⟨rfl, rfl⟩
  · rfl
  · rfl

def hasSucceeded : Prog Call Call.Res Response → Bool
  | .ret (.ok _) => true
  | _ => false

theorem allSucceed_of_below {n : Nat}
    {σ : System Request Call Call.Res Response Session Database} (hσ : System.Below n σ)
    (h : ∀ i < n, ∀ p ∈ σ.procs i, hasSucceeded p.prog = true) : AllSucceed σ := by
  intro i p hp
  by_cases hi : i < n
  · have hprog := h i hi p hp
    unfold hasSucceeded at hprog
    split at hprog
    · rename_i b hret
      exact ⟨b, hret⟩
    · cases hprog
  · rw [hσ i (Nat.le_of_not_lt hi)] at hp
    cases hp

section Crossing

variable [Collation]
  {cond : Event Request Env → System Request Call Call.Res Response Session Database → Prop}
  [∀ e σ, Decidable (cond e σ)] {request : Nat → Request} {rest : List Nat} {check : Task → Bool}

/-- Replay the two requests, and see that both succeed and what they make of the task. -/
def crossingEnds (cond : Event Request Env →
      System Request Call Call.Res Response Session Database → Prop)
    [∀ e σ, Decidable (cond e σ)] (request : Nat → Request) (rest : List Nat)
    (check : Task → Bool) : Bool :=
  match System.replayWhere Session.machine workload Session.heldKeys 2 cond
      (System.start sampleDatabase) (crossing request rest) with
  | none => false
  | some σ =>
    ((List.range 2).all fun i => (σ.procs i).any fun p => hasSucceeded p.prog) &&
      (σ.shared.task? 1).any check

theorem crossing_of_ends (h : crossingEnds cond request rest check = true) :
    ∃ σ, System.RunsWhere Session.machine workload cond (System.start sampleDatabase)
        (crossing request rest) σ ∧
      AllSucceed σ ∧ (∀ i, (σ.procs i).isSome = true ↔ i < 2) ∧
      ∃ row, σ.shared.task? 1 = some row ∧ check row = true := by
  unfold crossingEnds at h
  split at h
  · cases h
  · rename_i σ hreplay
    obtain ⟨hprocs, hcheck⟩ := Bool.and_eq_true_iff.mp h
    obtain ⟨hruns, hbelow⟩ := System.runsWhere_of_replay (fun _ _ hk => Session.mem_heldKeys.mpr hk)
      (System.below_start 2 sampleDatabase) hreplay
    have hproc : ∀ i < 2, ∃ p, σ.procs i = some p ∧ hasSucceeded p.prog = true := by
      intro i hi
      exact (Option.any_eq_true _ _).mp (List.all_eq_true.mp hprocs i (List.mem_range.mpr hi))
    refine ⟨σ, hruns, allSucceed_of_below hbelow ?_, fun i => ⟨fun hi => ?_, fun hi => ?_⟩,
      (Option.any_eq_true _ _).mp hcheck⟩
    · intro i hi p hp
      obtain ⟨q, hq, hdone⟩ := hproc i hi
      cases hp.symm.trans hq
      exact hdone
    · by_contra hn
      rw [hbelow i (Nat.le_of_not_lt hn)] at hi
      cases hi
    · obtain ⟨p, hp, _⟩ := hproc i hi
      rw [hp]
      rfl

end Crossing

/-- Two processes come one after the other in one of two orders. -/
theorem two_orders {order : List Nat} (hnodup : order.Nodup) (hmem : ∀ i, i ∈ order ↔ i < 2) :
    order = [0, 1] ∨ order = [1, 0] := by
  have hperm : order.Perm [0, 1] := by
    refine (List.perm_ext_iff_of_nodup hnodup (by decide)).mpr fun i => ?_
    rw [hmem i, List.mem_pair]
    omega
  obtain ⟨a, b, rfl⟩ := List.length_eq_two.mp hperm.length_eq
  have ha := (hmem a).mp (List.mem_pair.mpr (Or.inl rfl))
  have hb := (hmem b).mp (List.mem_pair.mpr (Or.inr rfl))
  have hne : a ≠ b := by
    intro hab
    rw [hab] at hnodup
    exact absurd hnodup (by simp)
  have hab : a = 0 ∧ b = 1 ∨ a = 1 ∧ b = 0 := by omega
  rcases hab with ⟨rfl, rfl⟩ | ⟨rfl, rfl⟩
  · exact Or.inl rfl
  · exact Or.inr rfl

/-- The owner's edits of the sample task. -/
def ownerEdit (body : Nat → TaskUpdate) (i : Nat) : Request :=
  .updateTask (some "owner") 1 1 (some (body i))

/-- The first writes and commits, then the second. -/
def writesInTurn : List Nat := List.replicate 6 0 ++ List.replicate 6 1

/-- The first edit names the title, the second the priority. -/
def disjointEdits (i : Nat) : TaskUpdate :=
  if i = 0 then (TaskUpdate.validate (some (some "b")) none none).get (by decide +kernel)
  else (TaskUpdate.validate none (some (some 3)) none).get (by decide +kernel)

theorem edits_serializable_disjoint :
    ∃ σ : System Request Call Call.Res Response Session Database,
      (∀ i, (σ.procs i).isSome = true ↔ i < 2) ∧
        Serialized 1 ⟨"task", none, 1⟩ disjointEdits σ := by
  let _ := sampleCollation
  have hends : crossingEnds (UpToDateStep 1 disjointEdits) (ownerEdit disjointEdits) writesInTurn
      (fun _ => true) = true := by
    decide +kernel
  obtain ⟨σ, hruns, hall, hprocs, _⟩ := crossing_of_ends hends
  refine ⟨σ, hprocs, ?_⟩
  exact edits_serializable (fun _ => some "owner") disjointEdits rfl
    (fun _ _ => crossing_spawns) hruns hall

/-- The second edit names the title that both have read. -/
def mixedEdits (i : Nat) : TaskUpdate :=
  if i = 0 then (TaskUpdate.validate (some (some "b")) (some (some 2)) none).get (by decide +kernel)
  else (TaskUpdate.validate (some (some "task")) (some (some 3)) none).get (by decide +kernel)

/-- The edits of a run of which all succeed need not come to what they come to in
some order. -/
theorem edits_not_serializable :
    ¬ ∀ (body : Nat → TaskUpdate) (es : List (Event Request Env))
        (σ : System Request Call Call.Res Response Session Database),
      (∀ i request, .spawn i request ∈ es →
        request = .updateTask (some "owner") 1 1 (some (body i))) →
      System.Runs (@Session.machine sampleCollation) workload (System.start sampleDatabase) es σ →
      AllSucceed σ → Serialized 1 ⟨"task", none, 1⟩ body σ := by
  intro h
  let _ := sampleCollation
  have hends : crossingEnds (fun _ _ => True) (ownerEdit mixedEdits) writesInTurn
      (fun row => row.content = ⟨"b", none, 3⟩) = true := by
    decide +kernel
  obtain ⟨σ, hruns, hall, hprocs, row, hrow, hcontent⟩ := crossing_of_ends hends
  obtain ⟨order, hnodup, hmem, row', hrow', hserial⟩ :=
    h mixedEdits _ σ (fun _ _ => crossing_spawns) hruns.runs hall
  cases hrow.symm.trans hrow'
  rw [of_decide_eq_true hcontent] at hserial
  -- one order ends with the title "task", the other with the priority 2
  rcases two_orders hnodup fun i => (hmem i).trans (hprocs i) with rfl | rfl
  · exact absurd hserial (by decide +kernel)
  · exact absurd hserial (by decide +kernel)

end TaskPlatform
