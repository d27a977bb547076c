import TaskPlatform.Concurrency.Assignment
import TaskPlatform.Integrity.Consistent
import TaskPlatform.Serial.Calls
import TaskPlatform.Serial.Run

/-!
# Reopened tasks

A removal clears the unfinished tasks of a member and keeps his finished ones.  A
status request that takes such a task out of DONE does not look at the assignee,
so it leaves an unfinished task with somebody who is no member.  Histories in which no
such request succeeds, and only they, keep unfinished tasks with members.
-/

namespace TaskPlatform

open Transaction Database

section Reopening

variable [Collation]

/-- An OWNER or ADMIN asks for a DONE task to be taken out of DONE, and its assignee is no
member. -/
structure AsksReopen (d : Database) (subject : Option String) (w t : Id) (status : TaskStatus)
    (user : User) (m : WorkspaceMember) (row : Task) : Prop where
  status : status ≠ .done
  token : d.actor? subject = some user
  member : d.member? w user.id = some m
  entitled : m.role = .owner ∨ m.role = .admin
  task : d.taskIn? t w = some row
  done : row.status = .done
  stale : ∃ a, row.assigneeId = some a ∧ d.member? w a = none

/-- The limiter, which is the fourth call of a status request, lets it through, and no other
call up to its commit fails. -/
structure Unhindered (env : Nat → Env) (check : RateCheck) : Prop where
  admitted : enforceWriteRateLimit ((env 3).limiter check) = .ok ()
  answered : ∀ n < 9, n ≠ 3 → (env n).fault = none

def MayReopen (d : Database) : Request → Prop
  | .updateTaskStatus subject w t (some body) =>
    ∃ user m row, AsksReopen d subject w t body.status user m row
  | _ => False

/-- A status request takes a DONE task out of DONE whose assignee is no member. -/
def StaleReopen (d : Database) : Served → Prop
  | (env, .updateTaskStatus subject w t (some body)) =>
    ∃ user m row, AsksReopen d subject w t body.status user m row ∧
      Unhindered env (.write user.id .taskStatus (some w))
  | _ => False

/-- The protocol of one request in a serial history. -/
def reopeningProtocol (request : Request) : Protocol Request Session Database RowKey where
  inv := fun d => UnfinishedAssigned d ∧ ¬ MayReopen d request
  evolve := fun d d' => Persists d d' ∧ (request.isStatusUpdate = true → d.users = d'.users)
  rely := fun k d d' =>
    SameRow k d d' ∧ (request.isRemoval = true → ∀ w u, k = .member w u → OnlyFewer w u d d')
  assume := fun _ _ _ _ _ => True
  guar := fun _ _ _ _ _ => True
  evolve_refl := fun d => ⟨Persists.refl d, fun _ => rfl⟩
  evolve_trans := fun h h' => ⟨h.1.trans h'.1, fun hs => (h.2 hs).trans (h'.2 hs)⟩
  rely_refl := fun k d => ⟨sameRow_refl k d, fun _ w u _ => onlyFewer_of_sameRows
    (SameRows.refl d) w u⟩
  rely_trans := fun h h' => ⟨sameRow_trans h.1 h'.1, fun hr w u hk =>
    (h.2 hr w u hk).trans (h'.2 hr w u hk)⟩

theorem reopeningProtocol_sound (request : Request) : Sound (reopeningProtocol request) :=
  ⟨fun h => h.1, fun h => h.1⟩

variable {rely : RowKey → Database → Database → Prop} {held : RowKey → Prop} {request : Request}
  {ws : List Write} {d d' snap : Database}

omit [Collation] in
/-- Only an OWNER or ADMIN takes a task out of DONE. -/
theorem privileged_of_reopen {role : MemberRole} {actor : Id} {row : Task} {status : TaskStatus}
    (hdone : row.status = .done) (h : decideStatus role actor row status = .change) :
    (role = .owner ∨ role = .admin) ∧ status ≠ .done := by
  obtain ⟨_, hvalid, hne⟩ := decideStatus_change h
  refine ⟨?_, fun hs => hne (hdone.trans hs.symm)⟩
  rcases isValidStatusTransition_iff.mp hvalid with heq | howner | hadmin | ⟨htodo, _⟩ | ⟨hprog, _⟩
  · exact absurd heq hne
  · exact Or.inl howner
  · exact Or.inr hadmin
  · rw [hdone] at htodo
    cases htodo
  · rw [hdone] at hprog
    cases hprog

theorem actor?_congr (h : d.users = d'.users) (subject : Option String) :
    d.actor? subject = d'.actor? subject := by
  have hname : d.userByUsername? = d'.userByUsername? := by
    funext username
    rw [userByUsername?, userByUsername?, h]
  rw [actor?, actor?, hname]

theorem mayReopen_of_sameRows (h : SameRows d d') (hs : MayReopen d' request) :
    MayReopen d request := by
  cases request with
  | updateTaskStatus subject w t body =>
      cases body with
      | none => exact hs
      | some body =>
          obtain ⟨user, m, row, hasks⟩ := hs
          refine ⟨user, m, row, hasks.status, ?_, ?_, hasks.entitled, ?_, hasks.done, ?_⟩
          · rw [actor?_congr h.users]
            exact hasks.token
          · rw [h.member?]
            exact hasks.member
          · rw [taskIn?, h.task?]
            exact hasks.task
          · obtain ⟨a, ha, hnone⟩ := hasks.stale
            rw [← h.member?] at hnone
            exact ⟨a, ha, hnone⟩
  | _ => exact hs

/-- A request does not leave a task behind that it could reopen again. -/
theorem not_mayReopen_commit (h : Commits rely snap held d request ws) :
    ¬ MayReopen (d.applyAll ws) request := by
  cases h with
  | @updateTaskStatus _ w t body _ _ m row now _ _ hrow _ =>
      rintro ⟨_, _, row', hasks⟩
      have htask := (taskIn?_eq_some.mp hrow).1
      have hput := (task?_putTask d { row with status := body.status, updatedAt := now } t).trans
        (if_pos (id_of_task? htask).symm)
      cases hput.symm.trans (taskIn?_eq_some.mp hasks.task).1
      exact hasks.status hasks.done
  | _ => exact id

theorem reopening_commit (hd : UnfinishedAssigned d) (hcalm : ¬ MayReopen d request)
    (husers : request.isStatusUpdate = true → snap.users = d.users)
    (hrely : request.isRemoval = true →
      ∀ w u d₀, rely (.member w u) d₀ d → OnlyFewer w u d₀ d)
    (h : Commits rely snap held d request ws) : UnfinishedAssigned (d.applyAll ws) := by
  refine unfinishedAssigned_commit hd hrely (fun hs t row row' hrow hdone hrow' hdone' a ha => ?_) h
  cases h with
  | @updateTaskStatus subject w t' body user _ m old now hactor hm hold hdecide =>
      obtain ⟨htask, hworkspace⟩ := taskIn?_eq_some.mp hold
      have hput := task?_putTask d { old with status := body.status, updatedAt := now } t
      have hid : old.id = t' := id_of_task? htask
      by_cases ht : t = t'
      · subst ht
        cases htask.symm.trans hrow
        obtain ⟨hrole, hnew⟩ := privileged_of_reopen hdone hdecide
        have htoken : d.actor? subject = some user := by
          rw [← actor?_congr (husers rfl)]
          exact hactor.token
        refine isSome_of_not_isNone fun hnone => hcalm ?_
        rw [hworkspace] at hnone
        exact ⟨user, m, row, hnew, htoken, hm, hrole, hold, hdone, a, ha,
          Option.isNone_iff_eq_none.mp hnone⟩
      · -- the other tasks keep their status
        have hother := hput.trans (if_neg (show t ≠ old.id by rwa [hid]))
        cases hrow.symm.trans (hother.symm.trans hrow')
        exact absurd hdone hdone'
  | _ => cases hs

theorem reopening_tolerates (request : Request) :
    Tolerates (reopeningProtocol request) request := by
  intro l d l' d' hd _ he
  have husers : request.isStatusUpdate = true → d.users = d'.users := by
    intro hs
    cases he with
    | quiet h => exact h.users
    | commit snap _ _ _ h hd' =>
        rw [hd', Session.current]
        generalize l.writes = ws at h
        cases h with
        | updateTaskStatus _ _ _ _ => rfl
        | _ => cases hs
  refine ⟨?_, ⟨he.persists, husers⟩, fun k hk => ⟨he.sameRow hk, ?_⟩, trivial⟩
  · cases he with
    | quiet h =>
        exact ⟨unfinishedAssigned_of_sameRows hd.1 h,
          fun hs => hd.2 (mayReopen_of_sameRows h hs)⟩
    | commit snap hview _ hevolve h hd' =>
        subst hd'
        exact ⟨reopening_commit hd.1 hd.2 hevolve.2 (fun hr w u d₀ h₀ => h₀.2 hr w u rfl) h,
          not_mayReopen_commit h⟩
  · rintro hr w u rfl
    cases he with
    | quiet h => exact onlyFewer_of_sameRows h w u
    | commit snap hview _ _ h hd' =>
        subst hd'
        refine onlyFewer_commit hk (fun hs => ?_) h
        cases request with
        | removeMember => cases hs
        | _ => cases hr

/-! ## Histories -/

variable {env : Nat → Env} {subject : Option String} {w t : Id} {user : User}
  {m : WorkspaceMember} {row : Task}

omit [Collation] in
theorem decideStatus_reopen {role : MemberRole} {actor : Id} {status : TaskStatus}
    (hrole : role = .owner ∨ role = .admin) (hdone : row.status = .done) (h : status ≠ .done) :
    decideStatus role actor row status = .change := by
  have hne : ¬ TaskStatus.done = status := fun heq => h heq.symm
  rcases hrole with rfl | rfl
  · simp [decideStatus, canChangeTaskStatus, isValidStatusTransition, hdone, hne]
  · simp [decideStatus, canChangeTaskStatus, isValidStatusTransition, hdone, hne]

/-- What asks for a stale reopening does it, unless it is hindered. -/
theorem serve_asksReopen (hd : Consistent d) {body : TaskStatusUpdate}
    (h : AsksReopen d subject w t body.status user m row) (env : Nat → Env) :
    let changed := (serve env (.updateTaskStatus subject w t (some body)) d).2
    Unhindered env (.write user.id .taskStatus (some w)) ∧ changed =
        d.apply (.putTask { row with status := body.status, updatedAt := (env 6).now }) ∨
      ¬ Unhindered env (.write user.id .taskStatus (some w)) ∧ changed = d := by
  obtain ⟨htask, hworkspace⟩ := taskIn?_eq_some.mp h.task
  have hexists := (hd.member w user.id m h.member).1
  rw [(key_of_member? h.member).1] at hexists
  have hactor : Actor d subject w user m := ⟨h.token, hexists, h.member⟩
  let check : RateCheck := .write user.id .taskStatus (some w)
  have hends : EndsFrom env (Request.updateTaskStatus subject w t (some body)).route
      (fun _ _ _ d' => Unhindered env check ∧
        d' = d.apply (.putTask { row with status := body.status, updatedAt := (env 6).now }))
      (fun d' => ¬ Unhindered env check ∧ d' = d) 0 {} d := by
    have hfails : ∀ n < 9, n ≠ 3 → (env n).fault ≠ none → ¬ Unhindered env check ∧ d = d :=
      fun n hn hne hfault => ⟨fun hfree => hfault (hfree.answered n hn hne), rfl⟩
    refine endsFrom_bind (endsFrom_limitedTaskAccess hactor h.task
      (fun n hn => hfails n (by omega) (by omega))
      (fun hrefused => ⟨fun hfree => hrefused hfree.admitted, rfl⟩) ?_)
    rintro hread hadmitted access l rfl rfl rfl hmirror
    have hid : access.task.id = t := id_of_task? htask
    rw [← hid] at htask
    refine endsFrom_bind (endsFrom_pure (endsFrom_bind ?_))
    refine endsFrom_updateTaskStatus hmirror h.member (taskIn?_eq_some.mpr ⟨htask, hworkspace⟩)
      (hd.task _ _ htask).2 (decideStatus_reopen h.entitled h.done h.status)
      (fun k hk => hfails (4 + k) (by omega) (by omega)) fun hanswered _ _ => ?_
    refine endsFrom_pure ⟨⟨hadmitted, fun n hn hne => ?_⟩, rfl⟩
    by_cases hearly : n < 3
    · exact hread n hearly
    · obtain ⟨k, rfl⟩ := Nat.exists_eq_add_of_le (show 4 ≤ n by omega)
      exact hanswered k (by omega)
  rw [serve_eq_route]
  unfold EndsFrom at hends
  revert hends
  generalize Session.machine.run env
    (Request.updateTaskStatus subject w t (some body)).route.run 0 {} d = outcome
  intro hends
  obtain ⟨value, calls, l, d'⟩ := outcome
  cases value with
  | ok _ => exact Or.inl hends
  | error _ => exact Or.inr hends

theorem unfinishedAssigned_serve_iff (hd : Consistent d) (hassigned : UnfinishedAssigned d)
    (env : Nat → Env) (request : Request) :
    UnfinishedAssigned (serve env request d).2 ↔ ¬ StaleReopen d (env, request) := by
  by_cases hmay : MayReopen d request
  · cases request with
    | updateTaskStatus subject w t body =>
        cases body with
        | none => exact hmay.elim
        | some body =>
            obtain ⟨user, m, row, hasks⟩ := hmay
            obtain ⟨htask, hworkspace⟩ := taskIn?_eq_some.mp hasks.task
            rcases serve_asksReopen hd hasks env with ⟨hfree, hchanged⟩ | ⟨hhindered, hchanged⟩
            · refine iff_of_false (fun hkept => ?_) fun hno => hno ⟨user, m, row, hasks, hfree⟩
              obtain ⟨a, ha, hnone⟩ := hasks.stale
              rw [hchanged] at hkept
              -- the task has left DONE and has kept its assignee
              have hmember := hkept t _ ((task?_putTask _ _ _).trans
                (if_pos (id_of_task? htask).symm)) hasks.status a ha
              have hkeptMember : (d.member? row.workspaceId a).isSome := hmember
              rw [hworkspace, hnone] at hkeptMember
              cases hkeptMember
            · rw [hchanged]
              refine iff_of_true hassigned ?_
              rintro ⟨user', m', row', hasks', hfree⟩
              cases hasks.token.symm.trans hasks'.token
              exact hhindered hfree
    | _ => exact hmay.elim
  · refine iff_of_true ?_ fun hstale => hmay ?_
    · exact (serve_inv (reopeningProtocol_sound request) (reopening_tolerates request)
        (fun _ _ _ _ => trivial) ⟨hassigned, hmay⟩ env).1.1
    · cases request with
      | updateTaskStatus subject w t body =>
          cases body with
          | none => exact hstale
          | some body =>
              obtain ⟨user, m, row, hasks, _⟩ := hstale
              exact ⟨user, m, row, hasks⟩
      | _ => exact hstale

/-- The histories from an empty database that keep the unfinished tasks unassigned or with
members, after each of their requests, are those in which no status request takes a task out
of DONE whose assignee is no member. -/
theorem unfinishedAssigned_throughout_iff (history : List Served) :
    (∀ earlier, earlier <+: history → UnfinishedAssigned (serveAll Database.empty earlier)) ↔
      Along (fun d served => ¬ StaleReopen d served) Database.empty history :=
  throughout_iff_along Consistent UnfinishedAssigned
    (fun env request _ hd => consistent_run hd env request.program)
    (fun env request _ hd hassigned => unfinishedAssigned_serve_iff hd hassigned env request)
    consistent_empty (fun _ _ hrow => by cases hrow) history

end Reopening

/-! ### A member is removed and his finished task reopened -/

/-- Nothing fails, and the rate limiter lets everything through. -/
def servingEnv : Env :=
  { limiter := fun _ => .ok { allowed := true, limit := 10, count := 1, remaining := 9,
                              retryAfter := 0 } }

/-- Served without failures. -/
def served (requests : List Request) : List Served :=
  requests.map fun request => (fun _ => servingEnv, request)

/-- The owner assigns a task to bob, finishes it and removes bob. -/
def finishedHistory : List Served := served
  [.createUser "ip" (UserCreate.validate "owner" "password1"),
   .createUser "ip" (UserCreate.validate "bob" "password2"),
   .createWorkspace (some "owner") (WorkspaceCreate.validate "team"),
   .addMember (some "owner") 1 (WorkspaceMemberCreate.validate "bob"),
   .createTask (some "owner") 1 (TaskCreate.validate "task"),
   .updateTaskAssignee (some "owner") 1 1 (TaskAssigneeUpdate.validate (some 2)),
   .updateTaskStatus (some "owner") 1 1 (some ⟨.done⟩),
   .removeMember (some "owner") 1 2]

/-- Then he moves the task back to TODO. -/
def reopeningHistory : List Served :=
  finishedHistory ++ served [.updateTaskStatus (some "owner") 1 1 (some ⟨.todo⟩)]

theorem reopeningHistory_breaks :
    ¬ ∀ history, UnfinishedAssigned (@serveAll sampleCollation Database.empty history) := by
  intro h
  have htask : ((@serveAll sampleCollation Database.empty reopeningHistory).task? 1).map
      (fun row => (row.workspaceId, row.status, row.assigneeId)) =
        some (1, .todo, some 2) := by decide +kernel
  have hmember : (@serveAll sampleCollation Database.empty reopeningHistory).member? 1 2 =
      none := by decide +kernel
  obtain ⟨row, hrow, heq⟩ := Option.map_eq_some_iff.mp htask
  obtain ⟨hw, hs, ha⟩ : row.workspaceId = 1 ∧ row.status = .todo ∧ row.assigneeId = some 2 := by
    simpa using heq
  have hmem := h reopeningHistory 1 row hrow (by rw [hs]; decide) 2 ha
  rw [hw, hmember] at hmem
  cases hmem

theorem unfinishedAssigned_throughout_finished :
    UnfinishedAssigned (@serveAll sampleCollation Database.empty finishedHistory) := by
  let _ := sampleCollation
  have hdone : ∀ d env, ¬ StaleReopen d
      (env, .updateTaskStatus (some "owner") 1 1 (some ⟨.done⟩)) := by
    rintro d env ⟨_, _, _, hasks, _⟩
    exact hasks.status rfl
  have h : Along (fun d served => ¬ StaleReopen d served) Database.empty finishedHistory :=
    ⟨id, id, id, id, id, id, hdone _ _, id, trivial⟩
  exact (unfinishedAssigned_throughout_iff _).mpr h _ (List.prefix_refl _)

end TaskPlatform
