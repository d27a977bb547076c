import TaskPlatform.Concurrency.Isolation
import TaskPlatform.Integrity.Accepted

/-!
# The names of the users

`username` is unique under its collation, whoever registers at the same time: the entry
of a new name in the unique index is locked until its registration ends.  The subject of
a token is a username, so a token that names a user names the same user ever after.
-/

namespace TaskPlatform

open Transaction Relational

variable [Collation]

namespace Database

/-- No two users have names of equal weight. -/
def NamesUnique (d : Database) : Prop :=
  ∀ r ∈ d.users.rows, ∀ r' ∈ d.users.rows,
    Collation.weight r.username = Collation.weight r'.username → r = r'

/-- The name of a new user is free. -/
def NewName (d : Database) : Write → Prop
  | .putUser row => d.userByUsername? row.username = none
  | _ => True

/-- The writes of a transaction, applied in turn, take free names. -/
def NewNames (d : Database) : List Write → Prop
  | [] => True
  | w :: ws => d.NewName w ∧ (d.apply w).NewNames ws

variable {d d' : Database} {w : Write} {ws : List Write} {n : String}

theorem userByUsername?_eq_none {username : String} :
    d.userByUsername? username = none ↔
      ∀ u ∈ d.users.rows, Collation.weight u.username ≠ Collation.weight username := by
  simp [userByUsername?]

theorem weight_of_userByUsername? {username : String} {user : User}
    (h : d.userByUsername? username = some user) :
    Collation.weight user.username = Collation.weight username := by
  unfold Database.userByUsername? at h
  simpa using List.find?_some h

/-- A name finds the one user who has it. -/
theorem NamesUnique.userByUsername? (hd : NamesUnique d) {user : User} {username : String}
    (huser : user ∈ d.users.rows)
    (hname : Collation.weight user.username = Collation.weight username) :
    d.userByUsername? username = some user := by
  cases hfound : d.userByUsername? username with
  | none => exact absurd hname (userByUsername?_eq_none.mp hfound user huser)
  | some found =>
      have hmem : found ∈ d.users.rows := List.mem_of_find?_eq_some hfound
      have hweight : Collation.weight found.username = Collation.weight username :=
        weight_of_userByUsername? hfound
      rw [hd found hmem user huser (hweight.trans hname.symm)]

theorem NamesUnique.apply (hd : NamesUnique d) (hw : d.NewName w) : NamesUnique (d.apply w) := by
  cases w with
  | putUser row =>
      have hfree := userByUsername?_eq_none.mp hw
      intro r hr r' hr' hweight
      rcases Table.mem_put.mp hr with hr | ⟨hr, _⟩
      · rcases Table.mem_put.mp hr' with hr' | ⟨hr', _⟩
        · rw [hr, hr']
        · rw [hr] at hweight
          exact absurd hweight.symm (hfree r' hr')
      · rcases Table.mem_put.mp hr' with hr' | ⟨hr', _⟩
        · rw [hr'] at hweight
          exact absurd hweight (hfree r hr)
        · exact hd r hr r' hr' hweight
  | _ => exact hd

theorem NamesUnique.applyAll (hd : NamesUnique d) (hws : d.NewNames ws) :
    NamesUnique (d.applyAll ws) := by
  induction ws generalizing d with
  | nil => exact hd
  | cons w ws ih => exact ih (hd.apply hws.1) hws.2

theorem NewNames.concat (hws : d.NewNames ws) (hw : (d.applyAll ws).NewName w) :
    d.NewNames (ws ++ [w]) := by
  induction ws generalizing d with
  | nil => exact ⟨hw, trivial⟩
  | cons w' ws ih => exact ⟨hws.1, ih hws.2 hw⟩

/-- The same write leaves the same user under a name. -/
theorem sameRow_username_apply (h : SameRow (.username n) d d') (w : Write) :
    SameRow (.username n) (d.apply w) (d'.apply w) := by
  cases w with
  | putUser row =>
      intro u
      have hu := h u
      simp only [Database.apply, Table.mem_put]
      tauto
  | _ => exact h

/-- Free names stay free while their entries in the index are locked. -/
theorem NewNames.locked (hws : d.NewNames ws)
    (h : ∀ row, .putUser row ∈ ws → SameRow (.username (Collation.weight row.username)) d d') :
    d'.NewNames ws := by
  induction ws generalizing d d' with
  | nil => exact trivial
  | cons w ws ih =>
      refine ⟨?_, ih hws.2 fun row hrow => ?_⟩
      · cases w with
        | putUser row =>
            have hfree := userByUsername?_eq_none.mp hws.1
            refine userByUsername?_eq_none.mpr fun u hu hweight => ?_
            exact hfree u ((h row List.mem_cons_self u).mpr ⟨hu, hweight⟩).1 hweight
        | _ => trivial
      · exact sameRow_username_apply (h row (List.mem_cons_of_mem w hrow)) w

/-- Nobody takes the name of a user over. -/
theorem actor?_stays (hd' : NamesUnique d') (h : Persists d d') {subject : Option String}
    {user : User} (hactor : d.actor? subject = some user) : d'.actor? subject = some user := by
  obtain ⟨username, hsubject, hrow⟩ := Option.bind_eq_some_iff.mp hactor
  have huser : d.user? user.id = some user :=
    Table.find?_key d.users (List.mem_of_find?_eq_some hrow)
  have hweight : Collation.weight user.username = Collation.weight username :=
    weight_of_userByUsername? hrow
  rw [actor?, hsubject]
  exact hd'.userByUsername? (Table.mem_of_find? (h.user _ _ huser)) hweight

end Database

open Database

/-! ## Runs -/

section Runs

variable {l l' : Session} {d d' : Database}
  {σ σ' : System Request Call Call.Res Response Session Database}

/-- One call of a session whose new names are free. -/
theorem names_of_posts (hd : NamesUnique d) (hl : d.NewNames l.writes)
    (h : Session.Posts l d l' d') : NamesUnique d' ∧ d'.NewNames l'.writes := by
  -- a call that adds no user
  have hother : ∀ w : Write, (∀ row, w ≠ .putUser row) → l'.writes = l.writes ++ [w] →
      d.NewNames l'.writes := by
    intro w hw hwrites
    rw [hwrites]
    refine hl.concat ?_
    cases w with
    | putUser row => exact absurd rfl (hw row)
    | _ => trivial
  -- a call that raises a counter
  have hcounted : SameRows d d' → d.NewNames l'.writes →
      NamesUnique d' ∧ d'.NewNames l'.writes := by
    intro hrows hnames
    refine ⟨?_, hnames.locked fun row _ => hrows.sameRow _⟩
    rw [NamesUnique, ← hrows.users]
    exact hd
  have hinserted : ∀ {check : Except SqlError Unit} {w : Write}, (∀ row, w ≠ .putUser row) →
      Session.Inserts check w l l' → d.NewNames l'.writes := by
    intro check w hw hinserts
    rcases hinserts with ⟨_, hwrites⟩ | hwrites
    · exact hother w hw hwrites
    · exact hwrites ▸ hl
  cases h with
  | kept hwrites hd' =>
      rw [hd', hwrites]
      exact ⟨hd, hl⟩
  | dropped hwrites hd' =>
      rw [hd', hwrites]
      exact ⟨hd, trivial⟩
  | committed hwrites hd' =>
      rw [hd', hwrites]
      exact ⟨hd.applyAll hl, trivial⟩
  | newUser row _ hinserts hd' =>
      refine hcounted (hd' ▸ ⟨rfl, rfl, rfl, rfl⟩) ?_
      rcases hinserts with ⟨hcheck, hwrites⟩ | hwrites
      · rw [hwrites]
        exact hl.concat (checkUser_ok hcheck).2
      · exact hwrites ▸ hl
  | newWorkspace row _ hinserts hd' =>
      exact hcounted (hd' ▸ ⟨rfl, rfl, rfl, rfl⟩)
        (hinserted (fun _ => Write.noConfusion) hinserts)
  | newMember row hinserts hd' =>
      exact hcounted (hd' ▸ .refl d) (hinserted (fun _ => Write.noConfusion) hinserts)
  | newTask row _ hinserts hd' =>
      exact hcounted (hd' ▸ ⟨rfl, rfl, rfl, rfl⟩)
        (hinserted (fun _ => Write.noConfusion) hinserts)
  | role _ _ _ _ hwrites hd' | changed _ _ _ _ _ hwrites hd' | cleared _ _ _ hwrites hd'
  | memberGone _ _ hwrites hd' | taskGone _ hwrites hd' =>
      exact hcounted (hd' ▸ .refl d) (hother _ (fun _ => Write.noConfusion) hwrites)

/-- The users of the database and those every session is about to add. -/
structure SystemNames (σ : System Request Call Call.Res Response Session Database) : Prop where
  rows : NamesUnique σ.shared
  sessions : ∀ i p, σ.procs i = some p → σ.shared.NewNames p.loc.writes

theorem systemNames_step {d₀ : Database} (hr : Reaches d₀ σ) (h : SystemNames σ)
    (hs : SystemStep σ σ') : SystemNames σ' := by
  cases hs with
  | spawn i request _ _ =>
      exact ⟨h.rows, System.forall_update trivial fun j p _ hp => h.sessions j p hp⟩
  | @call _ i request l l' hc _ =>
      have hothers : ∀ j q, j ≠ i → σ.procs j = some q → Meddles publishProtocol q.loc σ.shared
          σ'.shared := fun j q =>
        Protocol.interferes_of_callStep (publish_coherent hr) hc trivial
      cases hc with
      | @call _ o k env hp hfree =>
          obtain ⟨hrows, hnames⟩ := names_of_posts h.rows (h.sessions _ _ hp)
            (@Session.posts_exec _ env _ _ o)
          refine ⟨hrows, System.forall_update hnames fun j q hj hq => ?_⟩
          refine (h.sessions j q hq).locked fun row hrow => ?_
          exact (hothers j q hj hq).rely _ (Or.inr ⟨_, hrow, List.mem_cons_of_mem _
            (List.mem_singleton_self _)⟩)

theorem systemNames_of_reaches {d₀ : Database} (hd : NamesUnique d₀) (hr : Reaches d₀ σ) :
    SystemNames σ := by
  induction hr with
  | start => exact ⟨hd, fun i p hp => by cases hp⟩
  | step hr hs ih => exact systemNames_step hr ih hs

/-- In every interleaving the usernames stay unique, and the subject of a token that once
resolved to a user resolves to the same user in every later state. -/
theorem token_names_same_user {d₀ : Database} (hd : NamesUnique d₀) (hr : Reaches d₀ σ)
    (hpath : Relation.ReflTransGen SystemStep σ σ') :
    NamesUnique σ'.shared ∧ ∀ subject user, σ.shared.actor? subject = some user →
      σ'.shared.actor? subject = some user := by
  have hreach : Reaches d₀ σ' ∧ Persists σ.shared σ'.shared := workspace_of_path hr hpath
  have hunique : NamesUnique σ'.shared := (systemNames_of_reaches hd hreach.1).rows
  exact ⟨hunique, fun subject user hactor => actor?_stays hunique hreach.2 hactor⟩

end Runs

/-! ### A registration commits -/

omit [Collation] in
theorem namesUnique_sampleDatabase : @NamesUnique sampleCollation sampleDatabase := by
  show ∀ r ∈ sampleDatabase.users.rows, ∀ r' ∈ sampleDatabase.users.rows,
    r.username = r'.username → r = r'
  decide +kernel

/-- The registration with everything done but its commit. -/
def registrationInProgress : Progress Call Call.Res Response Session Database :=
  (@Session.machine sampleCollation).advanceN (fun _ => registrationEnv) 4
    ⟨registration.program, {}, sampleDatabase⟩

omit [Collation] in
/-- The MEMBER's token is still his when alice has registered. -/
theorem token_names_same_user_registration :
    let _ := sampleCollation
    let after := Session.machine.advance registrationEnv registrationInProgress
    (after.shared.user? 3).isSome ∧ NamesUnique after.shared ∧
      after.shared.actor? (some "member") = some ⟨2, "member", "h2"⟩ := by
  intro collation after
  have hr : Reaches sampleDatabase (System.solo 0 registration registrationInProgress) := by
    rw [registrationInProgress]
    exact System.reachable_advanceN (fun _ _ _ _ => trivial) _ 4 (System.reachable_spawn trivial)
  have hcall : registrationInProgress.prog.isCall = true := by decide +kernel
  have hstep : SystemStep (System.solo 0 registration registrationInProgress)
      (System.solo 0 registration after) :=
    .call (System.callStep_advance registrationEnv hcall) trivial
  have hactor : registrationInProgress.shared.actor? (some "member") =
      some ⟨2, "member", "h2"⟩ := by decide +kernel
  have hstored : (after.shared.user? 3).isSome = true := by decide +kernel
  obtain ⟨hunique, hsame⟩ := token_names_same_user namesUnique_sampleDatabase hr (.single hstep)
  exact ⟨hstored, hunique, hsame _ _ hactor⟩

end TaskPlatform
