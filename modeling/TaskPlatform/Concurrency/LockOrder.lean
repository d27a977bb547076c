import TaskPlatform.Concurrency.Access
import TaskPlatform.Service.Text

/-!
# The order of locks

Memberships are locked by workspace and user, tasks after them.  Only a removal takes
a lock while it holds a task: its bulk update locks the unfinished tasks of one user,
whose membership it holds.
-/

namespace TaskPlatform

open Transaction Database Relational

/-- The place of a lock in the order.  Tasks share the last one. -/
def lockRank : RowKey → Nat ×ₗ MemberKey
  | .user _ | .username _ | .workspace _ => toLex (0, memberKey 0 0)
  | .member w u => toLex (1, memberKey w u)
  | .task _ => toLex (2, memberKey 0 0)

theorem lockRank_member_lt_task (w u t : Id) : lockRank (.member w u) < lockRank (.task t) :=
  Prod.Lex.toLex_lt_toLex.mpr (Or.inl Nat.one_lt_two)

theorem lockRank_member_lt {w u v : Id} (h : u < v) :
    lockRank (.member w u) < lockRank (.member w v) := by
  refine Prod.Lex.toLex_lt_toLex.mpr (Or.inr ⟨rfl, ?_⟩)
  exact Prod.Lex.toLex_lt_toLex.mpr (Or.inr ⟨rfl, h⟩)

theorem lockRank_le_task (t : Id) (k : RowKey) : lockRank k ≤ lockRank (.task t) := by
  cases k with
  | task t' => exact le_refl _
  | member w u => exact (lockRank_member_lt_task w u t).le
  | user u => exact (Prod.Lex.toLex_lt_toLex.mpr (Or.inl Nat.two_pos)).le
  | username n => exact (Prod.Lex.toLex_lt_toLex.mpr (Or.inl Nat.two_pos)).le
  | workspace w => exact (Prod.Lex.toLex_lt_toLex.mpr (Or.inl Nat.two_pos)).le

/-! ## What a call may lock -/

/-- The locks a call may take. -/
def Call.mayLock : Call → RowKey → Prop
  | lockMember w u, k | insertMember w u _, k | flushMemberRole w u _, k
  | deleteMember w u, k => k = .member w u
  | lockTask _ t, k | flushTask t _, k | deleteTask t, k | clearAssignee _ _ t _, k => k = .task t
  | insertUser _ _, k => (∃ u, k = .user u) ∨ ∃ n, k = .username n
  | insertWorkspace _ _, k => ∃ w, k = .workspace w
  | insertTask _ _ _, k => ∃ t, k = .task t
  | _, _ => False

def Call.isLockFree (c : Call) : Prop := ∀ k, ¬ c.mayLock k

theorem Call.isRead.isLockFree {c : Call} (h : c.isRead) : c.isLockFree := by
  cases c with
  | lockMember w u => exact h.elim
  | lockTask w t => exact h.elim
  | insertUser username hashed => exact h.elim
  | insertWorkspace name creator => exact h.elim
  | insertMember w u role => exact h.elim
  | insertTask w creator data => exact h.elim
  | flushMemberRole w u role => exact h.elim
  | flushTask t patch => exact h.elim
  | deleteMember w u => exact h.elim
  | deleteTask t => exact h.elim
  | clearAssignee w u t updatedAt => exact h.elim
  | _ => exact fun _ hk => hk

namespace Session

variable [Collation] {env : Env} {l l' : Session} {d : Database} {k : RowKey}

theorem holds_written (l : Session) {w : Write} (h : l'.Holds k)
    (hlocked : l'.locked = l.locked) (hwrites : l'.writes = l.writes ++ [w]) :
    l.Holds k ∨ k ∈ w.keys := by
  rcases h with h | ⟨w', hw', hk⟩
  · rw [hlocked] at h
    exact Or.inl (Or.inl h)
  · rw [hwrites] at hw'
    rcases List.mem_append.mp hw' with hw' | hw'
    · exact Or.inl (Or.inr ⟨w', hw', hk⟩)
    · rw [List.mem_singleton.mp hw'] at hk
      exact Or.inr hk

theorem holds_of_lock {k' : RowKey} (h : (l.lock k').Holds k) : l.Holds k ∨ k = k' := by
  rcases h with h | h
  · rcases List.mem_cons.mp h with h | h
    · exact Or.inr h
    · exact Or.inl (Or.inl h)
  · exact Or.inl (Or.inr h)

theorem not_holds_ended : ¬ l.ended.Holds k := by
  rintro (h | ⟨w, hw, _⟩)
  · cases h
  · cases hw

theorem holds_statement {α : Type} {p : Prop} {x : Except SqlError α × Session × Database}
    (h : (statement env l d x).2.1.Holds k) (hx : x.2.1.Holds k → l.Holds k ∨ p) :
    l.Holds k ∨ p := by
  unfold statement at h
  split at h
  · exact Or.inl h
  · exact hx h

theorem holds_insert {α : Type} {check : Except SqlError Unit} {row : α} {w : Write}
    {d' : Database} (h : (insert check row w l d').2.1.Holds k) : l.Holds k ∨ k ∈ w.keys := by
  unfold insert at h
  split at h
  · exact Or.inl h
  · exact holds_written l h rfl rfl

theorem holds_refresh {α : Type} {row : Option α}
    (h : (refresh row l l' d).2.1.Holds k) (hl : l'.Holds k → l.Holds k) : l.Holds k := by
  unfold refresh at h
  split at h
  · exact h
  · exact hl h

/-- A call takes no other locks. -/
theorem holds_exec {c : Call} (h : (exec env c l d).2.1.Holds k) : l.Holds k ∨ c.mayLock k := by
  cases c with
  | select q =>
      refine holds_statement h fun h => Or.inl ?_
      obtain ⟨_, hlocked, hwrites⟩ := q.load_keeps l (q.eval (l.view d))
      rcases h with h | ⟨w, hw, hk⟩
      · exact Or.inl (hlocked ▸ h)
      · exact Or.inr ⟨w, hwrites ▸ hw, hk⟩
  | getMember w u =>
      simp only [exec, getMember] at h
      split at h
      · exact Or.inl h
      · refine holds_statement h fun h => Or.inl ?_
        split at h
        · exact h
        · exact h
  | memberAttributes w u =>
      simp only [exec, memberAttributes] at h
      split at h
      · exact Or.inl h
      · exact Or.inl h
  | lockMember w u =>
      refine holds_statement h fun h => ?_
      unfold lockMember at h
      split at h
      · exact holds_of_lock h
      · exact Or.inl h
  | lockTask w t =>
      refine holds_statement h fun h => ?_
      unfold lockTask at h
      split at h
      · exact holds_of_lock h
      · exact Or.inl h
  | insertUser username hashed =>
      refine holds_statement h fun h => (holds_insert h).imp_right fun hk => ?_
      rcases List.mem_cons.mp hk with hk | hk
      · exact Or.inl ⟨_, hk⟩
      · exact Or.inr ⟨_, List.mem_singleton.mp hk⟩
  | insertWorkspace name creator =>
      exact holds_statement h fun h => (holds_insert h).imp_right fun hk =>
        ⟨_, List.mem_singleton.mp hk⟩
  | insertMember w u role =>
      exact holds_statement h fun h => (holds_insert h).imp_right List.mem_singleton.mp
  | insertTask w creator data =>
      exact holds_statement h fun h => (holds_insert h).imp_right fun hk =>
        ⟨_, List.mem_singleton.mp hk⟩
  | flushMemberRole w u role =>
      simp only [exec, flushMemberRole] at h
      split at h
      · exact Or.inl h
      · split at h
        · exact Or.inl h
        · refine holds_statement h fun h => ?_
          split at h
          · exact Or.inl h
          · rename_i row hrow
            obtain ⟨hw, hu⟩ := key_of_member? hrow
            refine (holds_written l h rfl rfl).imp_right fun hk => ?_
            rw [← hw, ← hu]
            exact List.mem_singleton.mp hk
  | flushTask t patch =>
      simp only [exec, flushTask] at h
      split at h
      · exact Or.inl h
      · split at h
        · exact Or.inl h
        · refine holds_statement h fun h => ?_
          split at h
          · exact Or.inl h
          · rename_i row hrow
            split at h
            · exact Or.inl h
            · refine (holds_written l h rfl rfl).imp_right fun hk => ?_
              rw [← id_of_task? hrow]
              exact List.mem_singleton.mp hk
  | deleteMember w u =>
      refine holds_statement h fun h => ?_
      unfold deleteMember at h
      split at h
      · exact Or.inl h
      · exact (holds_written l h rfl rfl).imp_right List.mem_singleton.mp
  | deleteTask t =>
      refine holds_statement h fun h => ?_
      unfold deleteTask at h
      split at h
      · exact Or.inl h
      · exact (holds_written l h rfl rfl).imp_right List.mem_singleton.mp
  | scanTasks w => exact holds_statement h Or.inl
  | clearAssignee w u t updatedAt =>
      refine holds_statement h fun h => ?_
      unfold clearAssignee at h
      split at h
      · exact Or.inl h
      · rename_i row hrow
        split at h
        · refine (holds_written l h rfl rfl).imp_right fun hk => ?_
          rw [← id_of_task? hrow]
          exact List.mem_singleton.mp hk
        · split at h
          · exact holds_of_lock h
          · exact Or.inl h
  | refreshUser u => exact holds_statement h fun h => Or.inl (holds_refresh h id)
  | refreshWorkspace w => exact holds_statement h fun h => Or.inl (holds_refresh h id)
  | refreshMember w u =>
      refine holds_statement h fun h => Or.inl (holds_refresh h fun h => ?_)
      cases hrow : (l.view d).member? w u with
      | none => rw [hrow] at h; exact h
      | some m => rw [hrow] at h; exact h
  | refreshTask t =>
      refine holds_statement h fun h => Or.inl (holds_refresh h fun h => ?_)
      cases hrow : (l.view d).task? t with
      | none => rw [hrow] at h; exact h
      | some row => rw [hrow] at h; exact h
  | commit => exact holds_statement h fun h => absurd h not_holds_ended
  | rollback => exact absurd h (not_holds_ended (l := {}))
  | close => exact absurd h (not_holds_ended (l := {}))
  | utcNow => exact Or.inl h
  | hashPassword password => exact Or.inl h
  | verifyPassword password hashed => exact Or.inl h
  | checkRateLimit check => exact Or.inl h

/-- The store whose bulk updates lock exactly the rows they change. -/
def exactMachine : Machine Call Call.Res Env Session Database RowKey :=
  ⟨fun env => exec { env with keepsLock := false }, Holds⟩

end Session

/-! ## The discipline -/

/-- The committed row of a task is one the bulk update of `remove_member` changes. -/
def Matches (w u : Id) (d : Database) (t : Id) : Prop :=
  ∃ row, d.task? t = some row ∧ holdsUnfinished w u row = true

section Discipline

variable [Collation]

/-- A session in the bulk update of a removal: it holds the membership and tasks that
match. -/
structure Sweeps (w u : Id) (l : Session) (d : Database) : Prop where
  member : l.Holds (.member w u)
  held : ∀ k, l.Holds k → k = .member w u ∨ ∃ t, k = .task t ∧ Matches w u d t

/-- How a lock may be taken: after every lock that is held, or in a bulk update. -/
inductive Acquires (l : Session) (d : Database) (k : RowKey) : Prop where
  | inOrder (h : ∀ k', l.Holds k' → lockRank k' < lockRank k)
  | sweep {w u t : Id} (h : Sweeps w u l d) (hk : k = .task t) (ht : Matches w u d t)

/-- The rows of held tasks stay, and every lock is taken as `Acquires` says. -/
def orderProtocol : Protocol Request Session Database RowKey where
  inv := fun _ => True
  evolve := fun _ _ => True
  rely := fun k d d' => ∀ t, k = .task t → d.task? t = d'.task? t
  assume := fun _ _ _ _ _ => True
  guar := fun _ l d l' _ => ∀ k, l'.Holds k → l.Holds k ∨ Acquires l d k
  evolve_refl := fun _ => trivial
  evolve_trans := fun _ _ => trivial
  rely_refl := fun _ _ _ _ => rfl
  rely_trans := fun h h' t hk => (h t hk).trans (h' t hk)

/-- The service keeps the discipline and ends, if it returns, in `Q`. -/
def Ordered {α : Type} (x : Service α) (Q : α → Session → Database → Prop) (l : Session)
    (d : Database) : Prop :=
  ∀ request, wpE Session.exactMachine (orderProtocol.contract Session.exactMachine request) x Q
    (fun _ _ _ => True) l d

/-- What the others leave alone of the tasks a session holds. -/
abbrev HeldTasksStay (l : Session) (d d' : Database) : Prop :=
  orderProtocol.Interferes Session.exactMachine l d d'

theorem HeldTasksStay.task? {l : Session} {d d' : Database} (h : HeldTasksStay l d d') {t : Id}
    (ht : l.Holds (.task t)) : d'.task? t = d.task? t :=
  (h.rely _ ht t rfl).symm

theorem Sweeps.stay {w u : Id} {l : Session} {d d' : Database} (h : Sweeps w u l d)
    (hd : HeldTasksStay l d d') : Sweeps w u l d' := by
  refine ⟨h.member, fun k hk => (h.held k hk).imp_right ?_⟩
  rintro ⟨t, rfl, row, hrow, hmatch⟩
  exact ⟨t, rfl, row, (hd.task? hk).trans hrow, hmatch⟩

theorem task?_applyAll {t : Id} {ws : List Write} (h : ∀ w ∈ ws, .task t ∉ w.keys)
    (d : Database) : (d.applyAll ws).task? t = d.task? t := by
  induction ws generalizing d with
  | nil => rfl
  | cons w ws ih =>
      obtain ⟨hw, hws⟩ := List.forall_mem_cons.mp h
      rw [applyAll_cons, ih hws]
      cases w with
      | putTask row =>
          refine (task?_putTask d row t).trans (if_neg fun heq => hw ?_)
          rw [heq]
          exact List.mem_singleton_self _
      | deleteTask t' =>
          refine (task?_deleteTask d t' t).trans (if_neg fun heq => hw ?_)
          rw [heq]
          exact List.mem_singleton_self _
      | _ => rfl

theorem Session.task?_current {l : Session} {t : Id} (ht : ¬ l.Holds (.task t))
    (d : Database) : (l.current d).task? t = d.task? t :=
  task?_applyAll (fun w hw hk => ht (Or.inr ⟨w, hw, hk⟩)) d

/-- A call leaves the committed tasks alone its session does not hold. -/
theorem Session.task?_exec {env : Env} {c : Call} {l : Session} {d : Database} {t : Id}
    (ht : ¬ l.Holds (.task t)) : (exec env c l d).2.2.task? t = d.task? t := by
  by_cases hc : c = .commit
  · subst hc
    simp only [exec, statement]
    split
    · rfl
    · exact task?_current ht d
  · exact ((exec_sameRows hc).task? t).symm

/-! ## Rules -/

variable {α β : Type} {l : Session} {d : Database}

theorem ordered_mono {x : Service α} {Q Q' : α → Session → Database → Prop}
    (hx : Ordered x Q l d) (h : ∀ a l d, Q a l d → Q' a l d) : Ordered x Q' l d :=
  fun request => wpE_mono x h (fun _ _ _ h => h) (hx request)

theorem ordered_pure {a : α} {Q : α → Session → Database → Prop} (h : Q a l d) :
    Ordered (pure a) Q l d :=
  fun _ => h

theorem ordered_throw {e : Exc} {Q : α → Session → Database → Prop} :
    Ordered (throw e : Service α) Q l d :=
  fun _ => trivial

theorem ordered_raiseIf {c : Prop} [Decidable c] {e : AppException}
    {Q : Unit → Session → Database → Prop} (h : Q () l d) :
    Ordered (Service.raiseIf c e) Q l d := by
  unfold Service.raiseIf
  split
  · exact ordered_throw
  · exact ordered_pure h

theorem ordered_orRaise {row : Option α} {e : AppException}
    {Q : α → Session → Database → Prop} (h : ∀ r, row = some r → Q r l d) :
    Ordered (Service.orRaise row e) Q l d := by
  cases row with
  | none => exact ordered_throw
  | some r => exact ordered_pure (h r rfl)

theorem ordered_bind {x : Service α} {f : α → Service β} {Q : β → Session → Database → Prop}
    (h : Ordered x (fun a => Ordered (f a) Q) l d) : Ordered (x >>= f) Q l d :=
  fun request => (wpE_bind x f).mpr
    (wpE_mono x (fun _ _ _ h => h request) (fun _ _ _ h => h) (h request))

/-- The caller of a call learns its answer, if it takes its locks in order. -/
theorem ordered_call {c : Call} {Q : c.Val → Session → Database → Prop}
    (hlocks : ∀ env d', HeldTasksStay l d d' → ∀ k,
      (Session.exactMachine.exec env c l d').2.1.Holds k → l.Holds k ∨ Acquires l d' k)
    (hQ : ∀ env d' v l' d'', HeldTasksStay l d d' →
      Session.exactMachine.exec env c l d' = (.ok v, l', d'') → Q v l' d'') :
    Ordered (Service.call c) Q l d := by
  intro request d' hd env _
  refine ⟨⟨trivial, trivial, fun k hk t hkt => ?_, hlocks env d' hd⟩, ?_⟩
  · subst hkt
    exact (Session.task?_exec hk).symm
  · rcases hx : Session.exactMachine.exec env c l d' with ⟨r, l', d''⟩
    cases r with
    | error e => trivial
    | ok v => exact hQ env d' v l' d'' hd hx

/-- Calls that take no lock need no order. -/
theorem ordered_lockFree {x : Service α} (hx : Issues Call.isLockFree x) :
    Ordered x (fun _ l' _ => ∀ k, l'.Holds k → l.Holds k) l d := by
  intro request
  have hprog : ∀ {ρ : Type} {p : Prog Call Call.Res ρ}, Prog.Only Call.isLockFree p →
      ∀ l d, wp Session.exactMachine (orderProtocol.contract Session.exactMachine request) p
        (fun _ l' _ => ∀ k, l'.Holds k → l.Holds k) l d := by
    intro ρ p hp
    induction hp with
    | ret a => exact fun _ _ _ h => h
    | call hc _ ih =>
        intro l d d' hd env _
        have hkeep : ∀ k, (Session.exactMachine.exec env _ l d').2.1.Holds k → l.Holds k :=
          fun k hk => (Session.holds_exec hk).resolve_right (hc k)
        refine ⟨⟨trivial, trivial, fun k hk t hkt => ?_, fun k hk => Or.inl (hkeep k hk)⟩, ?_⟩
        · subst hkt
          exact (Session.task?_exec hk).symm
        · exact wp_mono _ _ (fun _ _ _ h k hk => hkeep k (h k hk)) (ih _ _ _)
  refine wp_mono _ _ (fun r l d h => ?_) (hprog hx l d)
  cases r with
  | ok a => exact h
  | error e => trivial

end Discipline

end TaskPlatform
