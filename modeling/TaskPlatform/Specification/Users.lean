import TaskPlatform.Specification.Rules

/-!
# Registration, login and new workspaces do what is specified
-/

namespace TaskPlatform

open Transaction Service Database Relational Platform

section Services

variable [Collation] {good : Env → Prop} {l : Session} {d : Database}
  (hgood : ∀ env, good env → env.Faultless) (hsome : ∃ env, good env)

include hgood hsome

theorem fulfils_createUser (hd : Consistent d) (data : UserCreate) :
    Fulfils good (fun i => register i d data)
      (do
        let user ← TaskPlatform.createUser data
        return .user (userData user)) {} d := by
  have hE := serverFails_of_good hgood (RefusedWith good (fun i => register i d data) d) d
  have hmirror := Session.mirrors_nil d
  refine ends_bind (ends_bind (ends_select hmirror hE ?_))
  show Ends good _ _ _ (Session.openView {} d) d
  refine ends_bind (ends_raiseIf (fun htaken => ?_) fun hfree => ?_)
  · have htaken : (d.userByUsername? data.username).isSome := htaken
    have htaken : ¬ d.userByUsername? data.username = none := Option.isSome_iff_ne_none.mp htaken
    refine refusal_of hsome fun i => ?_
    rw [register, demand_neg htaken]
    rfl
  have hfree : d.userByUsername? data.username = none := Option.not_isSome_iff_eq_none.mp hfree
  refine ends_bind (ends_answered fun env henv => ⟨env.hash data.password, _, _, rfl, ?_⟩)
  let row : User := ⟨d.nextUserId, data.username, env.hash data.password⟩
  let d' : Database := { d with nextUserId := d.nextUserId + 1 }
  have hcheck : ((Session.openView {} d).current d).checkUser row = .ok () := by
    rw [Session.current_eq (l := Session.openView {} d) rfl, checkUser,
      if_neg (Nat.not_lt.mpr data.username_length.2),
      if_neg (Nat.not_lt.mpr ((hgood env henv).hash data.password)), hd.user_free, hfree]
    rfl
  refine ends_tryCatch (fun _ _ => False) (ends_bind ?_) fun e l d he => he.elim
  refine ends_answered fun env' henv' =>
    ⟨row, (Session.openView {} d).write (.putUser row), d', ?_, ?_⟩
  · exact (statement_faultless (hgood env' henv')).trans (insert_passed hcheck)
  refine ends_bind (ends_answered fun env'' henv'' => ⟨(), _, _,
    statement_faultless (hgood env'' henv''), ?_⟩)
  have hcommitted : ((Session.openView {} d).write (.putUser row)).current d' =
      d'.apply (.putUser row) := Session.current_of_write rfl _ _
  rw [hcommitted]
  have hview : (Session.view (((Session.openView {} d).write (.putUser row)).ended)
      (d'.apply (.putUser row))).user? row.id = some row := by
    show (d'.apply (.putUser row)).user? row.id = some row
    rw [user?_putUser, if_pos rfl]
  refine ends_answered fun env₃ henv₃ => ⟨row, _, _,
    (statement_faultless (hgood env₃ henv₃)).trans (by rw [hview]; rfl), ends_pure ?_⟩
  refine ⟨env.circumstances, foundIn_env henv, ?_⟩
  show register env.circumstances d data = _
  rw [register, demand_pos hfree]
  rfl

theorem fulfils_login (username password : String) :
    Fulfils good (fun i => logIn i d username password)
      (do
        let user ← authenticateUser username password
        return .token user.username) {} d := by
  have hE := serverFails_of_good hgood (RefusedWith good (fun i => logIn i d username password) d) d
  refine ends_bind (ends_bind (ends_select (Session.mirrors_nil d) hE ?_))
  show Ends good _ _ _ (Session.openView {} d) d
  refine ends_bind (ends_orRaise (fun hnone => ?_) fun user huser => ?_)
  · refine refusal_of hsome fun i => ?_
    rw [logIn, show d.userByUsername? username = none from hnone]
    rfl
  have huser : d.userByUsername? username = some user := huser
  refine ends_bind (ends_answered fun env henv =>
    ⟨env.verify password user.hashedPassword, _, _, rfl, ?_⟩)
  refine ends_bind (ends_raiseIf (fun hno => ?_) fun hyes => ends_pure (ends_pure ?_))
  · refine ⟨rfl, env.circumstances, foundIn_env henv, ?_⟩
    have hno : ¬ env.circumstances.verify password user.hashedPassword = true := fun hyes =>
      Bool.false_ne_true (hno.symm.trans hyes)
    show logIn env.circumstances d username password = _
    rw [logIn, huser, expect_some, ok_bind, demand_neg hno]
    rfl
  · refine ⟨env.circumstances, foundIn_env henv, ?_⟩
    have hyes : env.circumstances.verify password user.hashedPassword = true :=
      Bool.of_not_eq_false hyes
    show logIn env.circumstances d username password = _
    rw [logIn, huser, expect_some, ok_bind, demand_pos hyes]
    rfl

omit hsome in
theorem fulfils_createWorkspace (hd : Consistent d) (h : l.Mirrors d) {user : User}
    (huser : (d.user? user.id).isSome) (data : WorkspaceCreate) :
    Fulfils good (fun i => found i d user data)
      (do return .workspace (← TaskPlatform.createWorkspace user data.name)) l d := by
  refine ends_bind (ends_rollbackOnSqlError (ends_bind (ends_answered fun env henv => ?_)))
  let row : Workspace := ⟨d.nextWorkspaceId, data.name, user.id, env.now, env.now⟩
  let d' : Database := { d with nextWorkspaceId := d.nextWorkspaceId + 1 }
  have hcheck : (l.current d).checkWorkspace row = .ok () := by
    rw [h.current, checkWorkspace, if_neg (Nat.not_lt.mpr data.name_length.2),
      hd.workspace_free, trimmedLengthOk_of_strip data.name_strip data.name_length,
      Option.isNone_eq_false_iff.mpr huser]
    rfl
  refine ⟨row, l.write (.putWorkspace row), d',
    (statement_faultless (hgood env henv)).trans (insert_passed hcheck), ?_⟩
  have hcurrent : (l.write (.putWorkspace row)).current d' = d'.apply (.putWorkspace row) :=
    Session.current_of_write h.writes _ _
  refine ends_bind (ends_answered fun env' henv' => ?_)
  let owner : WorkspaceMember := ⟨row.id, user.id, .owner, env'.now, env'.now⟩
  have hnew : d.member? row.id user.id = none := by
    cases hm : d.member? row.id user.id with
    | none => rfl
    | some m =>
        have hrefs := hd.member_isSome (show (d.member? row.id user.id).isSome by rw [hm]; rfl)
        rw [show d.workspace? row.id = none from hd.workspace_free] at hrefs
        exact absurd hrefs.1 Bool.false_ne_true
  have hcheck' : ((l.write (.putWorkspace row)).current d').checkMember owner = .ok () := by
    rw [hcurrent]
    refine checkMember_of_free hnew ?_ huser
    rw [workspace?_putWorkspace, if_pos rfl]
    rfl
  refine ⟨owner, ((l.write (.putWorkspace row)).keepMember owner).write (.putMember owner), d',
    (statement_faultless (hgood env' henv')).trans (insert_passed hcheck'), ?_⟩
  have hwrites : ((l.write (.putWorkspace row)).keepMember owner).writes = [.putWorkspace row] :=
    Session.writes_write h.writes _
  have hview : ((((l.write (.putWorkspace row)).keepMember owner).write (.putMember owner)).view
      d').workspace? row.id = some row := by
    show (((l.readView.getD d').applyAll ((l.writes ++ [_]) ++ [_]))).workspace? row.id = _
    rw [h.writes]
    exact (workspace?_putWorkspace _ row row.id).trans (if_pos rfl)
  refine ends_bind (ends_answered fun env₃ henv₃ => ⟨row, _, _,
    (statement_faultless (hgood env₃ henv₃)).trans (by rw [hview]; rfl), ?_⟩)
  refine ends_bind (ends_answered fun env₄ henv₄ => ⟨(), _, _,
    statement_faultless (hgood env₄ henv₄), ends_pure (ends_pure ?_)⟩)
  refine ⟨{ env.circumstances with joinedAt := env'.now },
    ⟨⟨env, henv, rfl⟩, ⟨env, henv, rfl⟩, ⟨env', henv', rfl⟩, ⟨env, henv, rfl⟩,
      ⟨env, henv, rfl⟩⟩, ?_⟩
  have hfinal : ((((l.write (.putWorkspace row)).keepMember owner).write
      (.putMember owner)).openView d').current d' =
        (d'.apply (.putWorkspace row)).apply (.putMember owner) := by
    show d'.applyAll ((l.writes ++ [_]) ++ [_]) = _
    rw [h.writes]
    rfl
  rw [hfinal]
  rfl

end Services
end TaskPlatform
