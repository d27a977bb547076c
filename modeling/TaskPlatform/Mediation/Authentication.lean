import TaskPlatform.Api.Security
import TaskPlatform.Concurrency.LockOrder
import TaskPlatform.Concurrency.Usernames
import TaskPlatform.Mediation.Requests
import TaskPlatform.Transaction.Schedule

/-!
# Acting under a token

What a request was told about a user stays true: users are never changed, and usernames
are unique.  So the user a token resolves to is the user whose password was verified when
the token was issued, whatever happened in between.
-/

namespace TaskPlatform

open Transaction Database Relational

def Request.Registers (request : Request) : Prop :=
  ∃ ip body, request = .createUser ip body

section Users

variable {request : Request} {x : Session × Log} {d d' : Database} {username : String}
  {user : User}

/-- A request with a token is let through for its caller. -/
theorem Qualified.entitled {h : Dialogue Call.Res} (hq : Qualified request h)
    (ht : request.takesToken = true) : ∃ user, Entitled request h user := by
  cases hq with
  | reading _ hu => exact ⟨_, hu⟩
  | charged hc _ _ =>
      cases hc with
      | registration heq | login heq =>
          rw [heq] at ht
          cases ht
      | write _ hu => exact ⟨_, hu⟩

/-- Only a registration inserts a user. -/
theorem May.registers {h : Dialogue Call.Res} {hashed : String}
    (hmay : request.May h (.insertUser username hashed)) : request.Registers := by
  cases hmay with
  | perform _ _ hp =>
      cases hp with
      | insertUser _ _ => exact ⟨_, _, rfl⟩
      | removal _ _ _ _ hc =>
          rcases hc with hc | ⟨_, _, _, _, _, _, hc⟩
          · cases hc
          · cases hc

variable [Collation]

/-- A plain read sees the snapshot, or opens it. -/
theorem readView_exec {env : Env} {c : Call} {l : Session} {snap : Database}
    (h : (Session.exec env c l d).2.1.readView = some snap) : snap = l.readView.getD d := by
  rcases c.isWork_or with hc | rfl | rfl | rfl
  · rcases (Session.extends_exec hc).readView with hview | hview
    · rw [hview] at h
      rw [h]
      rfl
    · rw [hview, Option.some.injEq] at h
      exact h.symm
  · simp only [Session.exec, Session.statement] at h
    split at h
    · rw [h]
      rfl
    · cases h
  · cases h
  · cases h

theorem users_applyAll {ws : List Write} (h : ∀ w ∈ ws, ∀ u, .user u ∉ w.keys)
    (d : Database) : (d.applyAll ws).users = d.users := by
  induction ws generalizing d with
  | nil => rfl
  | cons w ws ih =>
      obtain ⟨hw, hws⟩ := List.forall_mem_cons.mp h
      rw [applyAll_cons, ih hws]
      cases w with
      | putUser row => exact absurd List.mem_cons_self (hw row.id)
      | _ => rfl

/-- What a request knows of the users.  One that registers nobody holds none of them, and
what it was told of them is still so. -/
structure KnowsUsers (request : Request) (x : Session × Log) (d : Database) : Prop where
  view : ∀ snap, x.1.readView = some snap → Persists snap d
  idle : ¬ request.Registers → ∀ u, ¬ x.1.Holds (.user u)
  told : ¬ request.Registers → ∀ username user,
    Told (dialogue Session.machine x.2) (.select (.userByUsername username)) (some user) →
      d.user? user.id = some user ∧
        Collation.weight user.username = Collation.weight username

theorem KnowsUsers.later (h : KnowsUsers request x d) (hd : Persists d d') :
    KnowsUsers request x d' where
  view snap hsnap := (h.view snap hsnap).trans hd
  idle := h.idle
  told hr username user htold :=
    ⟨hd.user _ _ (h.told hr username user htold).1, (h.told hr username user htold).2⟩

theorem KnowsUsers.sees (h : KnowsUsers request x d) : Persists (x.1.readView.getD d) d := by
  cases hview : x.1.readView with
  | none => exact .refl d
  | some snap => exact h.view snap hview

/-- The row a `SELECT` by username returns is in the database. -/
theorem KnowsUsers.found (h : KnowsUsers request x d) (hr : ¬ request.Registers) {env : Env}
    (hfound : (Session.exec env (.select (.userByUsername username)) x.1 d).1 = .ok (some user)) :
    d.user? user.id = some user ∧ Collation.weight user.username = Collation.weight username := by
  have hview : (x.1.view d).userByUsername? username = some user := by
    simp only [Session.exec, Session.statement] at hfound
    split at hfound
    · cases hfound
    · exact Except.ok.inj hfound
  refine ⟨h.sees.user _ _ ?_, weight_of_userByUsername? hview⟩
  have husers : (x.1.view d).users = (x.1.readView.getD d).users :=
    users_applyAll (fun w hw u hk => h.idle hr u (Or.inr ⟨w, hw, hk⟩)) _
  have hmem : user ∈ (x.1.view d).users.rows := List.mem_of_find?_eq_some hview
  rw [user?, ← husers]
  exact Table.find?_key _ hmem

/-- A call adds to what the request knows. -/
theorem KnowsUsers.exec (h : KnowsUsers request x d) {c : Call} {env : Env}
    (hmay : request.May (dialogue Session.machine x.2) c)
    (hd : Persists d (Session.exec env c x.1 d).2.2) :
    KnowsUsers request (Session.machine.recording.exec env c x d).2.1
      (Session.exec env c x.1 d).2.2 where
  view snap hsnap := by
    rw [readView_exec hsnap]
    exact h.sees.trans hd
  idle hr u hu := by
    rcases Session.holds_exec hu with hu | hlock
    · exact h.idle hr u hu
    · cases c with
      | insertUser _ _ => exact hr (May.registers hmay)
      | lockMember _ _ | insertMember _ _ _ | flushMemberRole _ _ _ | deleteMember _ _
      | lockTask _ _ | flushTask _ _ | deleteTask _ | clearAssignee _ _ _ _ => cases hlock
      | insertWorkspace _ _ | insertTask _ _ _ =>
          obtain ⟨_, hk⟩ := hlock
          cases hk
      | _ => exact hlock
  told hr username user htold := by
    change _ ∈ List.map (Move.said Session.machine) (x.2 ++ [_]) at htold
    rw [List.map_append, List.mem_append] at htold
    rcases htold with htold | hlast
    · exact ((h.later hd).told hr username user htold)
    · obtain ⟨rfl, hres⟩ := Sigma.mk.inj_iff.mp (List.mem_singleton.mp hlast)
      obtain ⟨huser, hweight⟩ := h.found hr (eq_of_heq hres).symm
      exact ⟨hd.user _ _ huser, hweight⟩

end Users

/-! ## Runs -/

section Runs

variable [Collation] {d₀ : Database}
  {σ : System Request Call Call.Res Response (Session × Log) Database}

theorem knowsUsers_of_records (hr : Records d₀ σ) :
    ∀ i p, σ.procs i = some p → KnowsUsers p.tag p.loc σ.shared := by
  induction hr with
  | start => exact fun i p hp => by cases hp
  | step hr hs ih =>
      cases hs with
      | spawn i request _ _ =>
          refine System.forall_update ⟨fun snap h => (by cases h), fun _ u hu => ?_, ?_⟩
            fun j q _ hq => ih j q hq
          · rcases hu with hu | ⟨_, hw, _⟩
            · cases hu
            · cases hw
          · exact fun _ _ _ htold => by cases htold
      | call h _ =>
          have hpersists := (publishes_of_callStep (System.reachable_forget hr)
            (System.callStep_forget h)).persists
          cases h with
          | call env hp hfree =>
              refine System.forall_update ?_ fun j q _ hq => (ih j q hq).later hpersists
              exact (ih _ _ hp).exec (abiding_of_records hr hp).rest.1 hpersists

/-- The tokens a run is given: `presented i` came with request `i` at time `arrived i`, and
`issued j` is when login `j` created its token.  A token that decodes is one of those that
logins were answered with. -/
structure Bearing {Token : Type} (jwt : Jwt Token) (settings : TokenSettings)
    (presented : Nat → Option Token) (arrived issued : Nat → Nat)
    (σ : System Request Call Call.Res Response (Session × Log) Database) : Prop where
  subject : ∀ i p, σ.procs i = some p → p.tag.takesToken = true →
    p.tag.subject = (presented i).bind (decodeAccessToken jwt settings (arrived i))
  unforged : ∀ i token, presented i = some token →
    (decodeAccessToken jwt settings (arrived i) token).isSome →
      ∃ j login name x, σ.procs j = some ⟨login, .ret (.ok (.token name)), x⟩ ∧
        token = createAccessToken jwt settings (issued j) name

/-- In every interleaving the token that a request comes with was issued by a login that
verified the password of the very user the request acts as, and it has not expired. -/
theorem authenticated_by_login {Token : Type} {jwt : Jwt Token} {settings : TokenSettings}
    {presented : Nat → Option Token} {arrived issued : Nat → Nat} {i : Nat}
    {p : Proc Request Call Call.Res Response (Session × Log)} {user : User}
    (hd : NamesUnique d₀) (hr : Records d₀ σ) (hjwt : jwt.Faithful)
    (hbearing : Bearing jwt settings presented arrived issued σ) (hp : σ.procs i = some p)
    (hcaller : Caller p.tag (dialogue Session.machine p.loc.2) user) :
    ∃ j ip username password x,
      σ.procs j = some ⟨.login ip username password, .ret (.ok (.token user.username)), x⟩ ∧
        presented i = some (createAccessToken jwt settings (issued j) user.username) ∧
        Told (dialogue Session.machine x.2) (.verifyPassword password user.hashedPassword) true ∧
          arrived i < issued j + settings.accessTokenExpireMinutes * 60 * 1000000 := by
  obtain ⟨subject, hsubject, htold⟩ := hcaller.named
  have htakes : p.tag.takesToken = true := takesToken_of_subject hsubject
  -- the token
  obtain ⟨token, hpresented, hdecoded⟩ :=
    Option.bind_eq_some_iff.mp ((hbearing.subject i p hp htakes).symm.trans hsubject)
  obtain ⟨j, login, name, x, hj, rfl⟩ :=
    hbearing.unforged i token hpresented (Option.isSome_of_eq_some hdecoded)
  obtain ⟨rfl, hexpiry⟩ := decodeAccessToken_create hjwt hdecoded
  -- the login
  obtain ⟨ip, username, password, account, rfl, rfl, _, hfound, hverified⟩ :=
    (abiding_of_records hr hj).rest
  have hlogin : ¬ (Request.login ip username password).Registers := by
    rintro ⟨_, _, heq⟩
    cases heq
  have hbearer : ¬ p.tag.Registers := by
    rintro ⟨_, _, heq⟩
    rw [heq] at htakes
    cases htakes
  -- both users are in the database, under the same name
  have haccount := ((knowsUsers_of_records hr j _ hj).told hlogin username account hfound).1
  have huser := (knowsUsers_of_records hr i p hp).told hbearer _ user htold
  have hunique : NamesUnique σ.shared :=
    (systemNames_of_reaches hd (System.reachable_forget hr)).rows
  obtain rfl := hunique user (Table.mem_of_find? huser.1) account (Table.mem_of_find? haccount)
    huser.2
  exact ⟨j, ip, username, password, x, hj, hpresented, hverified, hexpiry⟩

end Runs

/-! ### The member logs in and asks who he is -/

/-- Tokens that carry their claims, their key and their algorithm. -/
def plainJwt : Jwt (Payload × String × String) where
  encode claims key algorithm := (claims, key, algorithm)
  decode token key algorithms now :=
    if token.2.1 = key ∧ token.2.2 ∈ algorithms ∧ now < token.1.exp * 1000000 then some token.1
    else none

theorem faithful_plainJwt : plainJwt.Faithful := by
  intro claims key algorithm now decoded h
  obtain ⟨⟨_, _, hexp⟩, heq⟩ := Option.ite_none_right_eq_some.mp h
  exact ⟨(Option.some.inj heq).symm, hexp⟩

def sampleSettings : TokenSettings := { secretKey := "key" }

/-- The token of the member. -/
def memberToken : Payload × String × String :=
  createAccessToken plainJwt sampleSettings 1000000 "member"

def loginAndUse : List (Event Request Env) :=
  [.spawn 0 (.login "127.0.0.1" "member" "h2"), .spawn 1 (.getMe (some "member"))] ++
    List.replicate 4 (.call 0 registrationEnv) ++ List.replicate 2 (.call 1 registrationEnv)

theorem authenticated_by_login_member :
    let _ := sampleCollation
    let presented : Nat → Option (Payload × String × String) := fun i =>
      if i = 1 then some memberToken else none
    ∃ σ p user, Records sampleDatabase σ ∧
      Bearing plainJwt sampleSettings presented (fun _ => 2000000) (fun _ => 1000000) σ ∧
      σ.procs 1 = some p ∧ Caller p.tag (dialogue Session.machine p.loc.2) user ∧
      ∃ j ip username password x,
        σ.procs j = some ⟨.login ip username password, .ret (.ok (.token user.username)), x⟩ ∧
          presented 1 = some (createAccessToken plainJwt sampleSettings 1000000 user.username) ∧
          Told (dialogue Session.machine x.2) (.verifyPassword password user.hashedPassword) true ∧
            2000000 < 1000000 + sampleSettings.accessTokenExpireMinutes * 60 * 1000000 := by
  intro collation presented
  have hends : ((System.replay Session.machine.recording (workload.recording Env Database)
      (fun x => Session.heldKeys x.1) 2 (System.start sampleDatabase) loginAndUse).map
        fun σ => ((σ.procs 0).bind fun p => if p.tag.takesToken then none else p.prog.value?,
          (σ.procs 1).bind fun p =>
            if p.tag.subject = some "member" then p.prog.value? else none)) =
      some (some (.ok (.token "member")), some (.ok (.user ⟨2, "member"⟩))) := by decide +kernel
  obtain ⟨σ, hreplay, hvalues⟩ := Option.map_eq_some_iff.mp hends
  obtain ⟨hlogin, huse⟩ := Prod.mk.inj hvalues
  obtain ⟨⟨login, prog, x⟩, hj, hlogin⟩ := Option.bind_eq_some_iff.mp hlogin
  obtain ⟨htakes, hprog⟩ := Option.ite_none_left_eq_some.mp hlogin
  cases Prog.eq_ret hprog
  obtain ⟨⟨use, prog, y⟩, hi, huse⟩ := Option.bind_eq_some_iff.mp huse
  obtain ⟨hsubject, hprog⟩ := Option.ite_none_right_eq_some.mp huse
  cases Prog.eq_ret hprog
  have hruns := System.runs_of_replay (fun _ _ hk => Session.mem_heldKeys.mpr hk)
    (System.below_start 2 sampleDatabase) hreplay
  have hbelow := System.below_of_replay (fun _ _ hk => Session.mem_heldKeys.mpr hk)
    (System.below_start 2 sampleDatabase) hreplay
  have hr : Records sampleDatabase σ :=
    hruns.reachable (fun _ _ _ _ _ => trivial) (fun _ _ _ => trivial) .start
  have hbearing : Bearing plainJwt sampleSettings presented (fun _ => 2000000)
      (fun _ => 1000000) σ := by
    refine ⟨fun i p hp hbearer => ?_, fun i token htoken _ => ⟨0, login, "member", x, hj, ?_⟩⟩
    · by_cases h1 : i = 1
      · subst h1
        cases hi.symm.trans hp
        exact hsubject.trans (by decide +kernel)
      · by_cases h0 : i = 0
        · subst h0
          cases hj.symm.trans hp
          exact absurd hbearer htakes
        · rw [hbelow i (by omega)] at hp
          cases hp
    · by_cases h1 : i = 1
      · exact (Option.some.inj ((if_pos h1).symm.trans htoken)).symm
      · cases (if_neg h1).symm.trans htoken
  obtain ⟨user, hentitled⟩ := Qualified.entitled (abiding_of_records hr hi).rest.1
    (takesToken_of_subject hsubject)
  refine ⟨σ, _, user, hr, hbearing, hi, hentitled.toCaller, ?_⟩
  exact authenticated_by_login namesUnique_sampleDatabase hr faithful_plainJwt hbearing hi
    hentitled.toCaller

end TaskPlatform
