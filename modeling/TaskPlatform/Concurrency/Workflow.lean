import TaskPlatform.Concurrency.SnapshotReads
import TaskPlatform.Serial.Timestamps

/-!
# Status and assignee requests in company

`update_task_status` and `update_task_assignee` lock the memberships they decide on and
then the task, and read each of them again.  So what they decide is what they would decide
if they came at their commit, or at the call that made them refuse, and nobody else came in
between.
-/

namespace TaskPlatform

open Transaction Service Database Relational Platform

/-! ## Who was let in -/

section Known

variable [Collation] {d d' : Database} {i : Circumstances} {subject : Option String} {w t : Id}
  {user : User} {workspace : Workspace} {own : WorkspaceMember} {row : Task} {scope : Scope}

/-- The user of the token and the workspace. -/
structure Known (subject : Option String) (w : Id) (user : User) (workspace : Workspace)
    (d : Database) : Prop where
  actor : d.actor? subject = some user
  workspace : d.workspace? w = some workspace

theorem Known.persists (h : Known subject w user workspace d) (hd : Persists d d')
    (hd' : NamesUnique d') : Known subject w user workspace d' :=
  ⟨actor?_stays hd' hd h.actor, hd.workspace _ _ h.workspace⟩

theorem enter_of_known (h : Known subject w user workspace d)
    (hown : d.member? w user.id = some own) :
    enter d subject w = .ok ⟨user, workspace, own⟩ := by
  have hrow : d.workspaceAccess? w user.id = some (workspace, own) :=
    workspaceAccess?_eq_some.mpr ⟨h.workspace, hown⟩
  rw [enter, authenticate, h.actor, expect_some, ok_bind, hrow]
  rfl

theorem enter_of_gone (h : Known subject w user workspace d)
    (hown : d.member? w user.id = none) :
    enter d subject w = refuse workspaceNotFoundError := by
  have hrow : d.workspaceAccess? w user.id = none := by
    rw [workspaceAccess?, h.workspace, hown]
  rw [enter, authenticate, h.actor, expect_some, ok_bind, hrow]
  rfl

/-- The write guard lets the user pass. -/
def Unhurried (user : User) (scope : Scope) (w : Id) (i : Circumstances) : Prop :=
  enforceWriteRateLimit (i.limiter (.write user.id scope (some w))) = .ok ()

theorem enterToChange_of_known (h : Known subject w user workspace d)
    (hown : d.member? w user.id = some own) (hrow : d.taskIn? t w = some row)
    (hi : Unhurried user scope w i) :
    enterToChange d i scope subject w t = .ok (⟨user, workspace, own⟩, row) := by
  rw [enterToChange, enterTask, enter_of_known h hown, ok_bind, hrow, expect_some, ok_bind]
  show (permitWrite i user scope (some w) >>= fun _ => _) = _
  rw [permitWrite, permit, hi]
  rfl

theorem enterToChange_of_gone (h : Known subject w user workspace d)
    (hown : d.member? w user.id = none) :
    enterToChange d i scope subject w t = refuse workspaceNotFoundError := by
  rw [enterToChange, enterTask, enter_of_gone h hown]
  rfl

theorem enterToChange_of_missing (h : Known subject w user workspace d)
    (hown : d.member? w user.id = some own) (hrow : d.taskIn? t w = none) :
    enterToChange d i scope subject w t = refuse taskNotFoundError := by
  rw [enterToChange, enterTask, enter_of_known h hown, ok_bind, hrow]
  rfl

/-- The guards of a change, on the snapshot they read. -/
theorem ends_enterToChange {good : Env → Prop} (hgood : ∀ env, good env → env.Faultless)
    (hsome : ∃ env, good env) (snap : Database) :
    Ends good (limitedTaskAccess scope subject w t)
      (fun access l _ => ∃ m env, TaskGranted snap subject w t access m l ∧ good env ∧
        Unhurried access.workspaceAccess.currentUser scope w env.circumstances)
      (fun e _ => ∃ i, i.FoundIn good ∧ enterToChange snap i scope subject w t = .error e)
      {} snap := by
  have hE := serverFails_of_good hgood
    (fun e _ => ∃ i, i.FoundIn good ∧ enterToChange snap i scope subject w t = .error e) snap
  refine ends_bind (ends_enterTask (Session.mirrors_nil snap) hE (fun e he => ?_)
    fun access m l hentry h => ends_bind ?_)
  · obtain ⟨env, henv⟩ := hsome
    refine ⟨env.circumstances, foundIn_env henv, ?_⟩
    rw [enterToChange, he]
    rfl
  rw [h.id]
  refine ends_permitWrite (fun env henv e he => ⟨env.circumstances, foundIn_env henv, ?_⟩)
    fun env henv hok => ends_pure ⟨m, env, h, henv, hok⟩
  rw [enterToChange, hentry, ok_bind]
  show (permitWrite env.circumstances access.workspaceAccess.currentUser scope (some w) >>=
    fun _ => _) = _
  rw [permitWrite, permit, show env.circumstances.limiter = env.limiter from rfl, he]
  rfl

end Known

/-! ## Locks -/

section Locks

variable [Collation] {good : Env → Prop} {request : Request} {l l' : Session} {log : Log}
  {d d' : Database} {E : Exc → Session × Log → Database → Prop}

theorem surrounds_of_holds (hl : ∀ k, l.Holds k → l'.Holds k) (h : Surrounds l' d d') :
    Surrounds l d d' :=
  ⟨meddles_of_holds hl h.interferes, h.consistent, h.names⟩

theorem Surrounds.member? (h : Surrounds l d d') {w u : Id} (hl : l.Holds (.member w u)) :
    d'.member? w u = d.member? w u :=
  (h.sameRow hl).symm

theorem Surrounds.task? (h : Surrounds l d d') {t : Id} (hl : l.Holds (.task t)) :
    d'.task? t = d.task? t :=
  (h.sameRow hl).symm

theorem surrounds_refl (hd : Intact d) (l : Session) : Surrounds l d d :=
  ⟨publishProtocol.interferes_refl Session.machine trivial l, hd.consistent, hd.names⟩

variable (hgood : ∀ env, good env → env.Faultless)

include hgood

/-- The row a locking read finds stays; where it finds none, there is none at that call. -/
theorem acts_lockMember {w u : Id} {Q : Option WorkspaceMember → Session × Log → Database → Prop}
    (hwrites : l.writes = [])
    (hnone : ∀ d' m, Surrounds l d d' → m.before = d' → m.after = m.before →
      d'.member? w u = none → Q none (l, log ++ [m]) d')
    (hsome : ∀ d' m row, Surrounds l d d' → m.before = d' → m.after = m.before →
      d'.member? w u = some row →
        Q (some row) ((l.keepMember row).lock (.member w u), log ++ [m]) d') :
    Acts Surrounds good request (call (.lockMember w u)) Q E (l, log) d := by
  refine acts_answered (fun h => by cases h) fun env d' henv hd => ?_
  have hexec : Session.exec env (.lockMember w u) l d' = Session.lockMember w u l d' :=
    statement_faultless (hgood env henv)
  simp only [hexec, Session.lockMember, Session.current_eq hwrites]
  cases hrow : d'.member? w u with
  | none => exact ⟨_, _, _, rfl, hnone d' _ hd rfl rfl hrow⟩
  | some row => exact ⟨_, _, _, rfl, hsome d' _ row hd rfl rfl hrow⟩

/-- The calls that locked, and for each membership that is missing the call that missed it. -/
structure Missed (w : Id) (us : List Id) (rows : List WorkspaceMember) (d : Database)
    (log : Log) : Prop where
  unchanged : ∀ m ∈ log, m.after = m.before
  missed : ∀ u ∈ us, membershipOf rows u = none →
    ∃ m ∈ log, Intact m.before ∧ Persists d m.before ∧ m.before.member? w u = none

theorem acts_lockMembershipRows {w : Id} (us : List Id) :
    ∀ {l : Session} {log : Log} {d : Database}
      {Q : List WorkspaceMember → Session × Log → Database → Prop}, l.writes = [] → Intact d →
    (∀ rows l' log' d', Surrounds l d d' → Locked w rows l l' d d' → Missed w us rows d log' →
      Q rows (l', log ++ log') d') →
    Acts Surrounds good request (lockMembershipRows w us) Q E (l, log) d := by
  induction us with
  | nil =>
      intro l log d Q _ hd h
      refine acts_pure ?_
      have hnil := h [] l [] d (surrounds_refl hd l)
        ⟨rfl, rfl, rfl, fun _ hk => hk, fun _ _ => rfl, fun _ hm => absurd hm List.not_mem_nil⟩
        ⟨fun _ hm => absurd hm List.not_mem_nil, fun _ hu => absurd hu List.not_mem_nil⟩
      rwa [List.append_nil] at hnil
  | cons u us ih =>
      intro l log d Q hwrites hd h
      refine acts_bind (acts_lockMember hgood hwrites (fun d₁ m hd₁ hbefore hafter hgone => ?_)
        fun d₁ m row hd₁ hbefore hafter hrow => ?_)
      · refine acts_bind (ih hwrites hd₁.intact fun rows l₂ log₂ d₂ hd₂ h₂ hmissed => ?_)
        refine acts_pure ?_
        rw [List.append_assoc]
        refine h rows l₂ _ d₂ (hd₁.trans hd₂)
          { h₂ with kept := fun v hv => (h₂.kept v hv).trans (hd₁.member? hv) } ⟨?_, ?_⟩
        · exact List.forall_mem_cons.mpr ⟨hafter, hmissed.unchanged⟩
        · intro v hv hnone
          rcases List.mem_cons.mp hv with rfl | hv
          · refine ⟨m, List.mem_cons_self, ?_⟩
            rw [hbefore]
            exact ⟨hd₁.intact, hd₁.persists, hgone⟩
          · obtain ⟨m', hm', hintact, hpersists, hgone'⟩ := hmissed.missed v hv hnone
            exact ⟨m', List.mem_cons_of_mem _ hm', hintact, hd₁.persists.trans hpersists, hgone'⟩
      · refine acts_bind (ih hwrites hd₁.intact fun rows l₂ log₂ d₂ hd₂ h₂ hmissed => ?_)
        refine acts_pure ?_
        rw [List.append_assoc]
        -- the new lock protects the new row while the rest is locked
        have hself : ((l.keepMember row).lock (.member w u)).Holds (.member w u) :=
          Session.holds_lock _ _
        have hid : row.userId = u := (key_of_member? hrow).2
        have hkept : d₂.member? w u = some row := (h₂.kept u hself).trans hrow
        have hsurrounds : Surrounds l d d₂ :=
          hd₁.trans (surrounds_of_holds (by exact fun _ hk => Session.Holds.lock hk _) hd₂)
        refine h (row :: rows) l₂ _ d₂ hsurrounds ⟨h₂.readView, h₂.writes, h₂.tasks,
          fun k hk => h₂.holds k (Session.Holds.lock hk _), fun v hv => ?_, fun x hx => ?_⟩
          ⟨?_, ?_⟩
        · exact (h₂.kept v (Session.Holds.lock hv _)).trans (hd₁.member? hv)
        · rcases List.mem_cons.mp hx with rfl | hx
          · rw [hid]
            exact ⟨hkept, h₂.holds _ hself⟩
          · exact h₂.rows x hx
        · exact List.forall_mem_cons.mpr ⟨hafter, hmissed.unchanged⟩
        · intro v hv hnone
          have hothers : ∀ x ∈ row :: rows, x.userId ≠ v := by simpa [membershipOf] using hnone
          rcases List.mem_cons.mp hv with rfl | hv
          · exact absurd hid (hothers row List.mem_cons_self)
          · have hrest : membershipOf rows v = none := by
              simpa [membershipOf] using fun x hx => hothers x (List.mem_cons_of_mem row hx)
            obtain ⟨m', hm', hintact, hpersists, hgone'⟩ := hmissed.missed v hv hrest
            exact ⟨m', List.mem_cons_of_mem _ hm', hintact, hd₁.persists.trans hpersists, hgone'⟩

theorem acts_lockTask {w t : Id} {Q : Task → Session × Log → Database → Prop}
    (hwrites : l.writes = [])
    (hmissing : ∀ d' m, Surrounds l d d' → m.before = d' → m.after = m.before →
      d'.taskIn? t w = none → E (.app taskNotFoundError) (l, log ++ [m]) d')
    (hfound : ∀ d' m row, Surrounds l d d' → m.before = d' → m.after = m.before →
      d'.taskIn? t w = some row →
        Q row ((l.keepTask row).lock (.task t), log ++ [m]) d') :
    Acts Surrounds good request (lockTask w t) Q E (l, log) d := by
  refine acts_bind (acts_answered (fun h => by cases h) fun env d' henv hd => ?_)
  have hexec : Session.exec env (.lockTask w t) l d' = Session.lockTask w t l d' :=
    statement_faultless (hgood env henv)
  simp only [hexec, Session.lockTask, Session.current_eq hwrites]
  cases hrow : d'.taskIn? t w with
  | none => exact ⟨_, _, _, rfl, acts_throw (hmissing d' _ hd rfl rfl hrow)⟩
  | some row => exact ⟨_, _, _, rfl, acts_pure (hfound d' _ row hd rfl rfl hrow)⟩

theorem acts_keepTask {row : Task} {Q : TaskResponse → Session × Log → Database → Prop}
    (hwrites : l.writes = [])
    (hQ : ∀ d' l' m, m.after = m.before → Q (taskData row) (l', log ++ [m]) d') :
    Acts Surrounds good request (keepTask row) Q E (l, log) d := by
  have hcurrent : ∀ d', l.current d' = d' := fun _ => Session.current_eq hwrites
  refine acts_bind (acts_commit hgood (fun env d' _ _ => ?_) fun env d' _ _ => acts_pure ?_)
  · exact Or.inl (by rw [hcurrent]; exact .refl d')
  · exact hQ _ _ _ (hcurrent d')

/-- Save a task that is locked.  Until the commit nobody else changes it. -/
theorem acts_saveLocked {t : Id} {row : Task} {patch : TaskPatch} (hwrites : l.writes = [])
    (hloaded : l.tasks.find? t = some row) (hheld : l.Holds (.task t))
    (hrow : d.task? t = some row) (hdirty : patch.dirty row ≠ {})
    (hfits : ∀ d', Surrounds l d d' → PatchFits d' patch) (hquiet : Quiet SameRows log)
    (hanswer : ∀ env d', good env → Surrounds l d d' → d'.task? t = some row →
      Answers good request d' (.ok (.task (taskData (patch.written row env.now))))
        (d'.apply (.putTask (patch.written row env.now)))) :
    Acts Surrounds good request (saveTask t patch)
      (fun response s _ => AnsweredAtOnce good request (.ok (.task response)) s.2) E
      (l, log) d := by
  refine acts_bind (acts_answered (fun h => by cases h) fun env d₁ henv hd₁ => ?_)
  have hrow₁ : d₁.task? t = some row := (hd₁.task? hheld).trans hrow
  have hcheck : d₁.checkTask { (patch.dirty row).apply row with updatedAt := env.now } =
      .ok () := ((hfits d₁ hd₁).dirty row).apply (hd₁.consistent.task t row hrow₁).2 env.now
  let new : Task := patch.written row env.now
  let l₁ : Session := (l.write (.putTask new)).keepTask new
  have hwrites₁ : l₁.writes = [.putTask new] := Session.writes_write hwrites _
  have hholds : ∀ k, l.Holds k → l₁.Holds k := fun _ hk => hk.write _
  have hflush : Session.exec env (.flushTask t patch) l d₁ = (.ok (), l₁, d₁) := by
    simp only [Session.exec, Session.flushTask, hloaded, statement_faultless (hgood env henv),
      Session.current_eq hwrites, hrow₁, hcheck, if_neg hdirty]
    rfl
  refine ⟨(), l₁, d₁, hflush, ?_⟩
  refine acts_bind (acts_answered (fun h => by cases h) fun env₂ d₂ henv₂ hd₂ => ?_)
  have hview : (l₁.view d₂).task? t = some new := by
    rw [Session.view, hwrites₁, applyAll_cons, applyAll_nil, task?_putTask]
    exact if_pos (id_of_task? hrow).symm
  have hrefresh : Session.exec env₂ (.refreshTask t) l₁ d₂ =
      (.ok new, (l₁.keepTask new).openView d₂, d₂) :=
    (statement_faultless (hgood env₂ henv₂)).trans (by rw [hview]; rfl)
  refine ⟨new, (l₁.keepTask new).openView d₂, d₂, hrefresh, ?_⟩
  have hcommitted : ∀ d', ((l₁.keepTask new).openView d₂).current d' =
      d'.apply (.putTask new) := by
    intro d'
    show d'.applyAll l₁.writes = _
    rw [hwrites₁]
    rfl
  have hanswers : ∀ d₃, Surrounds ((l₁.keepTask new).openView d₂) d₂ d₃ →
      Answers good request d₃ (.ok (.task (taskData new))) (d₃.apply (.putTask new)) := by
    intro d₃ hd₃
    have hd : Surrounds l d d₃ := hd₁.trans
      ((surrounds_of_holds hholds hd₂).trans (surrounds_of_holds (by exact hholds) hd₃))
    exact hanswer env d₃ henv hd ((hd.task? hheld).trans hrow)
  have hquiet₂ := (hquiet.concat (m := ⟨env, .flushTask t patch, l, d₁, l₁, d₁⟩) (.refl d₁)).concat
    (m := ⟨env₂, .refreshTask t, l₁, d₂, (l₁.keepTask new).openView d₂, d₂⟩) (.refl d₂)
  refine acts_bind (acts_commit hgood (fun env₃ d₃ _ hd₃ => ?_) fun env₃ d₃ _ hd₃ => acts_pure ?_)
  · refine Or.inr ⟨hquiet₂, ?_⟩
    rw [hcommitted]
    exact ⟨.task (taskData new), hanswers d₃ hd₃⟩
  · refine hquiet₂.atomic_concat ?_
    show Answers good request d₃ _ (((l₁.keepTask new).openView d₂).current d₃)
    rw [hcommitted]
    exact hanswers d₃ hd₃

end Locks

/-! ## Decisions on locked rows -/

section Decisions

variable [Collation] {good : Env → Prop} {request : Request} {l : Session} {log : Log}
  {d : Database} {subject : Option String} {w t : Id} {scope : Scope} {user : User}
  {workspace : Workspace} {own : WorkspaceMember} {limit : Env}

/-- What a request knows that has locked its own membership. -/
structure Deciding (subject : Option String) (w : Id) (user : User) (workspace : Workspace)
    (own : WorkspaceMember) (l : Session) (d : Database) : Prop
    extends Known subject w user workspace d where
  own : d.member? w user.id = some own
  held : l.Holds (.member w user.id)
  writes : l.writes = []

theorem Deciding.surrounds (h : Deciding subject w user workspace own l d) {d' : Database}
    (hd : Surrounds l d d') : Deciding subject w user workspace own l d' :=
  { h.toKnown.persists hd.persists hd.names with
    own := (hd.member? h.held).trans h.own, held := h.held, writes := h.writes }

/-- A refusal that no single moment explains. -/
abbrev Explained (good : Env → Prop) (request : Request) (excused : AppException → Prop) (e : Exc)
    (log : Log) : Prop :=
  Resolved good request (.error e) log ∨
    ((∃ err, e = .app err ∧ excused err) ∧ Quiet SameRows log)

variable (hgood : ∀ env, good env → env.Faultless)

include hgood

/-- The decision on the locked task is the answer at the call that locked it, and a change
is the answer at the commit. -/
theorem acts_decided (h : Deciding subject w user workspace own l d) (hquiet : Quiet SameRows log)
    (hlimit : good limit ∧ Unhurried user scope w limit.circumstances)
    (decide : Task → Decision) (excused : AppException → Prop) {patch : TaskPatch}
    (hresponds : ∀ i d' row, Surrounds l d d' → d'.taskIn? t w = some row →
      Unhurried user scope w i → respond i d' request = settle i d' row (decide row) patch ∨
        ∃ e, decide row = .refuse e ∧ excused e)
    (hmissing : ∀ i d', Deciding subject w user workspace own l d' → d'.taskIn? t w = none →
      respond i d' request = .error (.app taskNotFoundError))
    (hdirty : ∀ row, decide row = .change → patch.dirty row ≠ {})
    (hfits : ∀ row d', decide row = .change → Surrounds l d d' → PatchFits d' patch) :
    Acts Surrounds good request
      (do
        let task ← lockTask w t
        match decide task with
        | .refuse e => raise e
        | .keep => keepTask task
        | .change => saveTask task.id patch)
      (fun response s _ => AnsweredAtOnce good request (.ok (.task response)) s.2)
      (fun e s _ => Explained good request excused e s.2) (l, log) d := by
  have hfound : limit.circumstances.FoundIn good := foundIn_env hlimit.1
  have hlast : ∀ {m : Move Call Env Session Database} {response : Response},
      m.after = m.before → Answers good request m.before response m.before →
        AnsweredAtOnce good request response (log ++ [m]) := by
    intro m response hafter hanswers
    refine hquiet.atomic_concat ?_
    rw [hafter]
    exact hanswers
  refine acts_bind (acts_lockTask hgood h.writes (fun d₁ m hd₁ hbefore hafter hnone => ?_)
    fun d₁ m row hd₁ hbefore hafter hrow => ?_)
  · have hbefore₁ : Consistent m.before := hbefore ▸ hd₁.consistent
    refine Or.inl (Or.inl (hlast hafter (answers_error hbefore₁ hfound ?_)))
    rw [hbefore]
    exact hmissing _ d₁ (h.surrounds hd₁) hnone
  have hbefore₁ : Consistent m.before := hbefore ▸ hd₁.consistent
  obtain ⟨htask, hworkspace⟩ := taskIn?_eq_some.mp hrow
  have hid : row.id = t := id_of_task? htask
  cases hdecide : decide row with
  | refuse e =>
      refine acts_throw ?_
      rcases hresponds _ d₁ row hd₁ hrow hlimit.2 with hanswer | ⟨e', he', hexcused⟩
      · refine Or.inl (Or.inl (hlast hafter (answers_error hbefore₁ hfound ?_)))
        rw [hbefore, hanswer, hdecide]
        rfl
      · cases hdecide.symm.trans he'
        have hm : SameRows m.before m.after := hafter ▸ .refl _
        exact Or.inr ⟨⟨e, rfl, hexcused⟩, hquiet.concat hm⟩
  | keep =>
      refine acts_keepTask hgood h.writes fun d' l' m' hm' => ?_
      refine (hlast hafter (answers_ok hbefore₁ hfound ?_)).concat (hm' ▸ .refl _)
      rcases hresponds _ d₁ row hd₁ hrow hlimit.2 with hanswer | ⟨e', he', _⟩
      · rw [hbefore, hanswer, hdecide]
        rfl
      · cases hdecide.symm.trans he'
  | change =>
      show Acts Surrounds good request (saveTask row.id patch) _ _ _ _
      rw [hid]
      have hholds : ∀ k, l.Holds k → ((l.keepTask row).lock (.task t)).Holds k :=
        fun k hk => Session.Holds.lock hk _
      have hloaded : ((l.keepTask row).lock (.task t)).tasks.find? t = some row := by
        refine (Table.find?_put l.tasks row t).trans ?_
        rw [key_task, hid, if_pos rfl]
      have hm : SameRows m.before m.after := hafter ▸ .refl _
      refine acts_saveLocked hgood h.writes hloaded (Session.holds_lock _ _) htask
        (hdirty row hdecide) (fun d₂ hd₂ => ?_) (hquiet.concat hm) fun env d₂ henv hd₂ hrow₂ => ?_
      · exact hfits row d₂ hdecide (hd₁.trans (surrounds_of_holds hholds hd₂))
      have hd : Surrounds l d d₂ := hd₁.trans (surrounds_of_holds hholds hd₂)
      have hcircumstances : Circumstances.FoundIn
          { env.circumstances with limiter := limit.limiter } good :=
        (foundIn_env henv).withLimiter hlimit.1
      refine answers_ok hd₂.consistent hcircumstances ?_
      rcases hresponds { env.circumstances with limiter := limit.limiter } d₂ row hd
        (taskIn?_eq_some.mpr ⟨hrow₂, hworkspace⟩) hlimit.2 with hanswer | ⟨e', he', _⟩
      · rw [hanswer, hdecide]
        show Except.ok (assign _ d₂ row patch) = _
        rw [assign, if_neg (hdirty row hdecide)]
        rfl
      · cases hdecide.symm.trans he'

end Decisions

/-! ## Admission -/

section Admission

variable [Collation] {good : Env → Prop} {request : Request} {l : Session} {log : Log}
  {d : Database} {subject : Option String} {w t : Id} {scope : Scope}
  {access : WorkspaceTaskAccess} {own : WorkspaceMember} {move : Move Call Env Session Database}
  {limit : Env} {E : Exc → Session × Log → Database → Prop}

/-- What a request knows that has passed the guards of a change. -/
structure LetIn (good : Env → Prop) (scope : Scope) (subject : Option String) (w t : Id)
    (access : WorkspaceTaskAccess) (own : WorkspaceMember) (move : Move Call Env Session Database)
    (limit : Env) (l : Session) (log : Log) (d : Database) : Prop
    extends TaskGranted move.before subject w t access own l, Snapped Since move l log d where
  limited : good limit
  unhurried : Unhurried access.workspaceAccess.currentUser scope w limit.circumstances

/-- Whoever is refused on the way in is refused. -/
def EntersFirst (scope : Scope) (subject : Option String) (w t : Id) (request : Request) : Prop :=
  ∀ i d e, enterToChange d i scope subject w t = .error e → respond i d request = .error e

namespace LetIn

variable (h : LetIn good scope subject w t access own move limit l log d)

include h

theorem known_before :
    Known subject w access.workspaceAccess.currentUser access.workspaceAccess.workspace
      move.before :=
  ⟨h.token, h.workspace⟩

theorem known {d' : Database} (hd : Since d d') :
    Known subject w access.workspaceAccess.currentUser access.workspaceAccess.workspace d' :=
  h.known_before.persists (h.since.trans hd).persists hd.intact.names

theorem enters : enterToChange move.before limit.circumstances scope subject w t =
    .ok (access.workspaceAccess.entry own, access.task) :=
  enterToChange_of_known h.known_before h.member h.task h.unhurried

theorem refused_before {e : Exc}
    (he : respond limit.circumstances move.before request = .error e) :
    AnsweredAtOnce good request (.error e) log :=
  h.toSnapped.refused (foundIn_env h.limited) he

end LetIn

/-- The guards of a change. -/
theorem acts_letIn (hgood : ∀ env, good env → env.Faultless) (hsome : ∃ env, good env)
    (henters : EntersFirst scope subject w t request)
    {Q : WorkspaceTaskAccess → Session × Log → Database → Prop}
    (hrefuse : ∀ e l log d, Resolved good request (.error e) log → E e (l, log) d)
    (hQ : ∀ access own move limit l log d,
      LetIn good scope subject w t access own move limit l log d → Q access (l, log) d) :
    Acts Surrounds good request (limitedTaskAccess scope subject w t) Q E ({}, []) d := by
  refine acts_guarded (P := fun snap access l => ∃ m env, TaskGranted snap subject w t access m l ∧
      good env ∧ Unhurried access.workspaceAccess.currentUser scope w env.circumstances)
    ages_surrounds (plain_limitedTaskAccess scope subject w t) (fun snap _ => ?_)
    (fun access l hgranted => ?_) hrefuse fun access move l log d' hsnapped hgranted => ?_
  · refine smoothE_mono (fun _ _ _ h => h) (fun e _ _ he => ?_)
      (ends_enterToChange hgood hsome snap)
    obtain ⟨i, hi, henter⟩ := he
    exact ⟨i, hi, henters i snap e henter⟩
  · obtain ⟨_, _, hgranted, _⟩ := hgranted
    cases hgranted.workspace
  · obtain ⟨own, limit, hgranted, hlimit, hunhurried⟩ := hgranted
    exact hQ access own move limit l log d'
      { hgranted, hsnapped with limited := hlimit, unhurried := hunhurried }

/-- Lock memberships, the own one among them. -/
theorem acts_lockOwn (hgood : ∀ env, good env → env.Faultless)
    (h : LetIn good scope subject w t access own move limit l log d)
    (henters : EntersFirst scope subject w t request) {us : List Id}
    (hus : access.workspaceAccess.currentUser.id ∈ us) {α : Type}
    {f : List WorkspaceMember → WorkspaceMember → Service α}
    {Q : α → Session × Log → Database → Prop}
    (hgone : ∀ l' log' d', AnsweredAtOnce good request (.error (.app workspaceNotFoundError))
      log' → E (.app workspaceNotFoundError) (l', log') d')
    (hf : ∀ rows own' l' log' d', Locked w rows l l' d d' →
      (∀ a ∈ us, membershipOf rows a = none → ∃ m ∈ log', m.before.member? w a = none) →
      Deciding subject w access.workspaceAccess.currentUser access.workspaceAccess.workspace own'
        l' d' → Quiet SameRows log' → Acts Surrounds good request (f rows own') Q E (l', log') d') :
    Acts Surrounds good request
      (do
        let rows ← lockMembershipRows w us
        let membership ← orRaise (membershipOf rows access.workspaceAccess.currentUser.id)
          workspaceNotFoundError
        f rows membership) Q E (l, log) d := by
  have hwrites : l.writes = [] := h.mirror.writes
  refine acts_bind (acts_lockMembershipRows hgood us hwrites h.since.intact
    fun rows l₁ log₁ d₁ hd₁ h₁ hmissed => ?_)
  have hunchanged : ∀ m ∈ log ++ log₁, m.after = m.before :=
    List.forall_mem_append.mpr ⟨h.unchanged, hmissed.unchanged⟩
  refine acts_bind (acts_orRaise (fun hnone => ?_) fun own' hown => ?_)
  · -- at the call that missed it the workspace does not exist for the user
    obtain ⟨m, hm, hintact, hpersists, hmissing⟩ := hmissed.missed _ hus hnone
    have hm' : m ∈ log ++ log₁ := List.mem_append_right log hm
    refine hgone l₁ _ d₁ ((quiet_of_unchanged hunchanged).atomic hm' ?_)
    rw [hunchanged m hm']
    exact answers_error hintact.consistent (foundIn_env h.limited)
      (henters _ _ _ (enterToChange_of_gone (h.known ⟨hpersists, hintact⟩) hmissing))
  · obtain ⟨hown₁, hheld⟩ := h₁.membershipOf hown
    refine hf rows own' l₁ _ d₁ h₁ (fun a ha hnone => ?_)
      { h.known hd₁.since with own := hown₁, held := hheld, writes := h₁.writes.trans hwrites }
      (quiet_of_unchanged hunchanged)
    obtain ⟨m, hm, _, _, hmissing⟩ := hmissed.missed a ha hnone
    exact ⟨m, List.mem_append_right log hm, hmissing⟩

end Admission

/-! ## The services -/

section Services

variable [Collation] {good : Env → Prop} {l : Session} {log : Log} {d : Database}
  {subject : Option String} {w t : Id} {access : WorkspaceTaskAccess} {own : WorkspaceMember}
  {move : Move Call Env Session Database} {limit : Env}

theorem enters_updateTaskStatus (body : Option TaskStatusUpdate) :
    EntersFirst .taskStatus subject w t (.updateTaskStatus subject w t body) := by
  intro i d e h
  rw [respond, h]
  rfl

theorem enters_updateTaskAssignee (body : Option TaskAssigneeUpdate) :
    EntersFirst .taskAssignee subject w t (.updateTaskAssignee subject w t body) := by
  intro i d e h
  rw [respond, h]
  rfl

theorem respond_updateTaskStatus {i : Circumstances} {user : User} {workspace : Workspace}
    {row : Task} {data : TaskStatusUpdate} (h : Known subject w user workspace d)
    (hown : d.member? w user.id = some own) (hrow : d.taskIn? t w = some row)
    (hunhurried : Unhurried user .taskStatus w i) :
    respond i d (.updateTaskStatus subject w t (some data)) =
      settle i d row (decideStatus own.role user.id row data.status)
        { status := some data.status } := by
  rw [respond, enterToChange_of_known h hown hrow hunhurried]
  rfl

theorem respond_updateTaskAssignee {i : Circumstances} {user : User} {workspace : Workspace}
    {row : Task} {data : TaskAssigneeUpdate} (h : Known subject w user workspace d)
    (hown : d.member? w user.id = some own)
    (hnames : ¬ namesAnother own.role user.id data.assigneeId) (hrow : d.taskIn? t w = some row)
    (hunhurried : Unhurried user .taskAssignee w i) :
    respond i d (.updateTaskAssignee subject w t (some data)) =
      settle i d row
        (decideAssignee own.role user.id row data.assigneeId
          (data.assigneeId.toList.filterMap (d.member? w)))
        { assigneeId := some data.assigneeId } := by
  have hentry : ¬ namesAnother (Entrant.role ⟨user, workspace, own⟩) user.id data.assigneeId :=
    hnames
  rw [respond, enterToChange_of_known h hown hrow hunhurried]
  show handOver i d ⟨user, workspace, own⟩ row w data.assigneeId = _
  rw [handOver, demand_pos hentry]
  rfl

/-- What `rollbackOnError` adds to a refusal. -/
theorem resolved_concat {request : Request} {e : Exc} {log : Log}
    {m : Move Call Env Session Database} (h : Resolved good request (.error e) log)
    (hm : m.after = m.before) : Resolved good request (.error e) (log ++ [m]) := by
  have hsame : SameRows m.before m.after := hm ▸ .refl _
  exact h.imp (fun h => h.concat hsame) (fun h => ⟨h.1.concat hsame, h.2⟩)

theorem explained_concat {request : Request} {excused : AppException → Prop} {e : Exc} {log : Log}
    {m : Move Call Env Session Database} (h : Explained good request excused e log)
    (hm : m.after = m.before) : Explained good request excused e (log ++ [m]) := by
  have hsame : SameRows m.before m.after := hm ▸ .refl _
  exact h.imp (fun h => resolved_concat h hm) (fun h => ⟨h.1, h.2.concat hsame⟩)

/-- The role is read off the membership the session has loaded. -/
theorem acts_membershipRole {request : Request} {scope : Scope}
    {E : Exc → Session × Log → Database → Prop}
    (h : LetIn good scope subject w t access own move limit l log d)
    {Q : MemberRole → Session × Log → Database → Prop}
    (hQ : ∀ log d, LetIn good scope subject w t access own move limit l log d →
      Q own.role (l, log) d) :
    Acts Surrounds good request access.workspaceAccess.membershipRole Q E (l, log) d := by
  refine acts_ownRole h.toOpened fun d' m hd hm => hQ _ d' ?_
  exact { h.toTaskGranted, h.toSnapped.step ages_surrounds.trans hd.since hm with
    limited := h.limited, unhurried := h.unhurried }

/-- Two refusals of an assignment, for a membership that was as it is said to be when it was
locked, but may have been changed since or before. -/
def Misjudged (e : AppException) : Prop :=
  e = taskPermissionDeniedError ∨ e = workspaceMemberNotFoundError

omit [Collation] in
/-- Rows that are missing among the locked ones make a difference to one refusal only. -/
theorem decideAssignee_of_locked {role : MemberRole} {u : Id} {task : Task} {requested : Option Id}
    {rows rows' : List WorkspaceMember}
    (h : ∀ a ∈ requested, ∀ x, membershipOf rows a = some x → membershipOf rows' a = some x) :
    decideAssignee role u task requested rows' = decideAssignee role u task requested rows ∨
      decideAssignee role u task requested rows = .refuse workspaceMemberNotFoundError := by
  by_cases hfound : ∃ a ∈ requested, (membershipOf rows a).isNone
  · unfold decideAssignee
    simp only [hfound, if_true]
    split_ifs <;> simp
  · refine Or.inl (decideAssignee_of_found fun a ha => ?_)
    cases hrow : membershipOf rows a with
    | none => exact absurd ⟨a, ha, by rw [hrow]; rfl⟩ hfound
    | some x => exact h a ha x hrow

theorem acts_updateTaskStatus (hgood : ∀ env, good env → env.Faultless) {data : TaskStatusUpdate}
    (h : LetIn good .taskStatus subject w t access own move limit l log d) :
    Acts Surrounds good (.updateTaskStatus subject w t (some data)) (updateTaskStatus access data)
      (fun response s _ => AnsweredAtOnce good (.updateTaskStatus subject w t (some data))
        (.ok (.task response)) s.2)
      (fun e s _ => Resolved good (.updateTaskStatus subject w t (some data)) (.error e) s.2)
      (l, log) d := by
  refine acts_rollbackOnError (P := fun e log =>
    Resolved good (.updateTaskStatus subject w t (some data)) (.error e) log)
    (fun _ _ _ => resolved_concat) ?_
  show Acts Surrounds good _ (lockMembershipRows access.workspaceAccess.workspace.id
    ([access.workspaceAccess.currentUser.id].dedup.insertionSort fun a b => a ≤ b) >>= _) _ _ _ _
  rw [h.id, h.task_id]
  refine acts_lockOwn hgood h (enters_updateTaskStatus _)
    ((List.mem_insertionSort _).mpr (List.mem_dedup.mpr List.mem_cons_self))
    (fun _ _ _ => Or.inl) fun rows membership l₁ log₁ d₁ _ _ hdeciding hquiet => ?_
  refine wpE_mono _ (fun _ _ _ hanswered => hanswered) (fun e s d he => ?_)
    (acts_decided hgood hdeciding hquiet ⟨h.limited, h.unhurried⟩
      (fun row => decideStatus membership.role access.workspaceAccess.currentUser.id row
        data.status) (fun _ => False)
      (fun i d' row hd' hrow hunhurried => Or.inl ?_) (fun i d' hd' hnone => ?_)
      (fun row hchange => ?_) fun _ d' _ _ => fits_status d' data.status)
  · rcases he with he | ⟨⟨_, _, hfalse⟩, _⟩
    · exact he
    · exact hfalse.elim
  · have hd' := hdeciding.surrounds hd'
    exact respond_updateTaskStatus hd'.toKnown hd'.own hrow hunhurried
  · exact enters_updateTaskStatus _ i d' _ (enterToChange_of_missing hd'.toKnown hd'.own hnone)
  · exact TaskPatch.dirty_of_ne_status (decideStatus_change hchange).2.2

theorem acts_updateTaskAssignee (hgood : ∀ env, good env → env.Faultless)
    {data : TaskAssigneeUpdate}
    (h : LetIn good .taskAssignee subject w t access own move limit l log d) :
    Acts Surrounds good (.updateTaskAssignee subject w t (some data))
      (updateTaskAssignee access data)
      (fun response s _ => AnsweredAtOnce good (.updateTaskAssignee subject w t (some data))
        (.ok (.task response)) s.2)
      (fun e s _ => Explained good (.updateTaskAssignee subject w t (some data)) Misjudged e s.2)
      (l, log) d := by
  refine acts_rollbackOnError (P := Explained good
    (.updateTaskAssignee subject w t (some data)) Misjudged) (fun _ _ _ => explained_concat) ?_
  refine acts_bind (acts_membershipRole h fun log d h => acts_bind (acts_raiseIf (fun hnames => ?_)
    fun _ => ?_))
  · refine Or.inl (Or.inl (h.refused_before ?_))
    rw [respond, h.enters]
    have hrefused : ¬ ¬ namesAnother (access.workspaceAccess.entry own).role
        (access.workspaceAccess.entry own).user.id data.assigneeId := not_not.mpr hnames
    show handOver _ _ (access.workspaceAccess.entry own) _ _ _ = _
    rw [handOver, demand_neg hrefused]
    rfl
  show Acts Surrounds good _ (lockMembershipRows access.workspaceAccess.workspace.id
    ((access.workspaceAccess.currentUser.id :: data.assigneeId.toList).dedup.insertionSort
      fun a b => a ≤ b) >>= _) _ _ _ _
  have hlocks : ∀ a ∈ access.workspaceAccess.currentUser.id :: data.assigneeId.toList,
      a ∈ (access.workspaceAccess.currentUser.id :: data.assigneeId.toList).dedup.insertionSort
        (fun a b => a ≤ b) :=
    fun a ha => (List.mem_insertionSort _).mpr (List.mem_dedup.mpr ha)
  rw [h.id, h.task_id]
  refine acts_lockOwn hgood h (enters_updateTaskAssignee _) (hlocks _ List.mem_cons_self)
    (fun _ _ _ h => Or.inl (Or.inl h)) fun rows membership l₁ log₁ d₁ hlocked _ hdeciding hquiet =>
      acts_bind (acts_raiseIf (fun hnames => ?_) fun hnames => ?_)
  · exact Or.inr ⟨⟨_, rfl, Or.inl rfl⟩, hquiet⟩
  refine acts_decided hgood hdeciding hquiet ⟨h.limited, h.unhurried⟩
    (fun row => decideAssignee membership.role access.workspaceAccess.currentUser.id row
      data.assigneeId rows) Misjudged
    (fun i d' row hd' hrow hunhurried => ?_) (fun i d' hd' hnone => ?_) (fun row hchange => ?_)
    fun row d' hchange hd' => fits_assignee fun a ha => ?_
  · have hdeciding' := hdeciding.surrounds hd'
    have hfound : ∀ a ∈ data.assigneeId, ∀ x, membershipOf rows a = some x →
        membershipOf (data.assigneeId.toList.filterMap (d'.member? w)) a = some x := by
      intro a ha x hx
      obtain ⟨hmember, hheld⟩ := hlocked.membershipOf hx
      rw [membershipOf_requested ha, hd'.member? hheld, hmember]
    rcases decideAssignee_of_locked hfound with hsame | hmissing
    · refine Or.inl ?_
      rw [respond_updateTaskAssignee hdeciding'.toKnown hdeciding'.own hnames hrow hunhurried,
        hsame]
    · exact Or.inr ⟨_, hmissing, Or.inr rfl⟩
  · exact enters_updateTaskAssignee _ i d' _
      (enterToChange_of_missing hd'.toKnown hd'.own hnone)
  · exact TaskPatch.dirty_of_ne_assigneeId (decideAssignee_change hchange).1
  · -- the new assignee is a member whose membership is locked
    have hmember : (d₁.member? w a).isSome ∧ l₁.Holds (.member w a) :=
      assignee_locked ⟨hdeciding.own, hdeciding.held⟩ (fun _ _ hx => hlocked.membershipOf hx)
        hchange a ha
    have hstays : (d'.member? w a).isSome := by
      rw [hd'.member? hmember.2]
      exact hmember.1
    exact (hd'.consistent.member_isSome hstays).2

end Services

/-! ## The requests -/

section Requests

variable [Collation] {good : Env → Prop} {d : Database}

/-- The requests that decide under locks. -/
def Request.decidesLocked : Request → Prop
  | updateTaskStatus _ _ _ _ | updateTaskAssignee _ _ _ _ => True
  | _ => False

/-- An assignment that was refused on memberships as they were when it locked them, while
its task was elsewhere. -/
structure Overtaken (request : Request) (response : Response) (log : Log) : Prop where
  assignment : ∃ subject w t body, request = .updateTaskAssignee subject w t body
  refusal : ∃ e, response = .error (.app e) ∧ Misjudged e
  quiet : Quiet SameRows log

theorem acts_decidesLocked (hgood : ∀ env, good env → env.Faultless) (hsome : ∃ env, good env)
    {request : Request} (hlocked : request.decidesLocked) :
    Acts Surrounds good request request.route
      (fun body s _ => Resolved good request (.ok body) s.2 ∨ Overtaken request (.ok body) s.2)
      (fun e s _ => Resolved good request (.error e) s.2 ∨ Overtaken request (.error e) s.2)
      ({}, []) d := by
  cases request with
  | updateTaskStatus subject w t body =>
      refine acts_bind (acts_letIn hgood hsome (enters_updateTaskStatus body)
        (fun _ _ _ _ h => Or.inl h) fun access own move limit l log d h => acts_bind ?_)
      cases body with
      | none =>
          refine acts_throw (Or.inl (Or.inl (h.refused_before ?_)))
          rw [respond, h.enters]
          rfl
      | some data =>
          refine acts_pure (acts_bind (wpE_mono _ (fun response s d hanswered => ?_)
            (fun e s d he => Or.inl he) (acts_updateTaskStatus hgood h)))
          exact acts_pure (Or.inl (Or.inl hanswered))
  | updateTaskAssignee subject w t body =>
      refine acts_bind (acts_letIn hgood hsome (enters_updateTaskAssignee body)
        (fun _ _ _ _ h => Or.inl h) fun access own move limit l log d h => acts_bind ?_)
      cases body with
      | none =>
          refine acts_throw (Or.inl (Or.inl (h.refused_before ?_)))
          rw [respond, h.enters]
          rfl
      | some data =>
          refine acts_pure (acts_bind (wpE_mono _ (fun response s d hanswered => ?_)
            (fun e s d he => ?_) (acts_updateTaskAssignee hgood h)))
          · exact acts_pure (Or.inl (Or.inl hanswered))
          · refine he.imp_right ?_
            rintro ⟨⟨err, rfl, hexcused⟩, hquiet⟩
            exact ⟨⟨subject, w, t, some data, rfl⟩, ⟨err, rfl, hexcused⟩, hquiet⟩
  | _ => exact hlocked.elim

omit [Collation] in
theorem Overtaken.closed {request : Request} {response : Response} {log : Log}
    (h : Overtaken request response log) {m : Move Call Env Session Database}
    (hm : m.after = m.before) : Overtaken request response (log ++ [m]) := by
  have hsame : SameRows m.before m.after := hm ▸ .refl _
  exact { h with quiet := h.quiet.concat hsame }

/-- In every interleaving a status or assignee request with no call that fails is answered
as specified on the rows that one of its calls found, and that call alone changed a row.
Two refusals of an assignment are excepted; they change no row. -/
theorem decisions_answered_at_once {d₀ : Database} (hd : Intact d₀)
    {σ : System Request Call Call.Res Response (Session × Log) Database} (hr : Records d₀ σ)
    {i : Nat} {request : Request} (hlocked : request.decidesLocked) {response : Response}
    {s : Session × Log} (hi : σ.procs i = some ⟨request, .ret response, s⟩)
    (hfaultless : ∀ m ∈ s.2, m.env.Faultless) :
    AnsweredAtOnce (FoundBy s.2) request response s.2 ∨ Overtaken request response s.2 := by
  have hgood : ∀ env, FoundBy s.2 env → env.Faultless := by
    rintro env ⟨m, hm, rfl⟩
    exact hfaultless m hm
  refine wp_of_records
    (P := fun request response log =>
      Resolved (FoundBy s.2) request response log ∨ Overtaken request response log)
    (A := fun request response log =>
      AnsweredAtOnce (FoundBy s.2) request response log ∨ Overtaken request response log)
    (fun _ _ _ h => h.intact)
    (fun _ _ _ _ h hm hbefore => h.imp (fun h => h.closed hm hbefore) (fun h => h.closed hm))
    (company_surrounds hd)
    (fun request d hlocked hsome => acts_decidesLocked hgood hsome hlocked) hr i _ hi hlocked
    fun m hm => ⟨m, hm, rfl⟩

end Requests

/-! ### The member claims the task -/

def taskClaimed : Request :=
  .updateTaskAssignee (some "member") 1 1 (TaskAssigneeUpdate.validate (some 2))

theorem decisions_answered_at_once_claim :
    let _ := sampleCollation
    ∃ task, (undisturbed taskClaimed 13).prog.value? = some (.ok (.task task)) ∧
      task.assigneeId = some 2 ∧
      (AnsweredAtOnce (FoundBy (undisturbed taskClaimed 13).loc.2) taskClaimed (.ok (.task task))
          (undisturbed taskClaimed 13).loc.2 ∨
        Overtaken taskClaimed (.ok (.task task)) (undisturbed taskClaimed 13).loc.2) := by
  intro collation
  have hvalue : (undisturbed taskClaimed 13).prog.value? = some (.ok (.task
      { id := 1, title := "task", priority := 1, description := none, workspaceId := 1,
        creatorId := 1, assigneeId := some 2, status := .todo, createdAt := 0,
        updatedAt := 0 })) := by decide +kernel
  have hlocked : taskClaimed.decidesLocked := trivial
  exact ⟨_, hvalue, rfl, decisions_answered_at_once intact_sampleDatabase
    (records_undisturbed taskClaimed 13) hlocked (procs_undisturbed hvalue)
    (faultless_undisturbed taskClaimed 13)⟩

end TaskPlatform
