import TaskPlatform.Concurrency.Routes

/-!
# The single OWNER of a workspace

No constraint of the database limits the OWNERs of a workspace.  The first part
shows that every interleaving keeps exactly one, its creator; the second that
changes of memberships are confined to the roles the actor had when his access
was checked.

A role update reads its target without a lock.  Its snapshot satisfies the
invariant too, and the creator of a workspace never changes, so a target that was
not the OWNER then is not the OWNER at the commit either.
-/

namespace TaskPlatform

open Transaction Database

/-- Who holds the role OWNER in a workspace is its creator and nobody else. -/
def SingleOwner (d : Database) : Prop :=
  ∀ w row, d.workspace? w = some row → ∀ u, d.roleOf w u = some .owner ↔ u = row.createdById

/-- The foreign key of memberships to workspaces. -/
def MembersReferenced (d : Database) : Prop :=
  ∀ w u, (d.member? w u).isSome → (d.workspace? w).isSome

structure Owned (d : Database) : Prop where
  owner : SingleOwner d
  referenced : MembersReferenced d

theorem roleOf_eq_some {d : Database} {w u : Id} {m : WorkspaceMember}
    (h : d.member? w u = some m) : d.roleOf w u = some m.role := by
  rw [roleOf, h]
  rfl

theorem roleOf_putMember (d : Database) (m : WorkspaceMember) (w u : Id) :
    (d.apply (.putMember m)).roleOf w u =
      if w = m.workspaceId ∧ u = m.userId then some m.role else d.roleOf w u := by
  rw [roleOf, member?_putMember]
  split_ifs
  · rfl
  · rfl

section Rows

variable {d d' : Database}

theorem Owned.congr (h : Owned d) (hw : ∀ w, d'.workspace? w = d.workspace? w)
    (hm : ∀ w u, d'.member? w u = d.member? w u) : Owned d' where
  owner := by
    intro w row hrow u
    rw [roleOf, hm]
    exact h.owner w row ((hw w).symm.trans hrow) u
  referenced := by
    intro w u hu
    rw [hw]
    exact h.referenced w u (by rw [← hm]; exact hu)

/-- Writing a membership that is not the creator's with a role that is not OWNER. -/
theorem Owned.putMember (h : Owned d) {m : WorkspaceMember} {ws : Workspace}
    (hws : d.workspace? m.workspaceId = some ws) (hu : m.userId ≠ ws.createdById)
    (hrole : m.role ≠ .owner) : Owned (d.apply (.putMember m)) where
  owner := by
    intro w row hrow u
    rw [roleOf_putMember]
    split_ifs with heq
    · obtain ⟨rfl, rfl⟩ := heq
      cases hws.symm.trans hrow
      exact ⟨fun hr => absurd (Option.some.inj hr) hrole, fun heq => absurd heq hu⟩
    · exact h.owner w row hrow u
  referenced := by
    intro w u hmember
    rw [member?_putMember] at hmember
    split_ifs at hmember with heq
    · change (d.workspace? w).isSome
      rw [heq.1, hws]
      rfl
    · exact h.referenced w u hmember

/-- A new workspace with its creator as OWNER. -/
theorem Owned.createWorkspace (h : Owned d) {ws : Workspace} {m : WorkspaceMember}
    (hfree : d.workspace? ws.id = none)
    (hm : m.workspaceId = ws.id ∧ m.userId = ws.createdById ∧ m.role = .owner) :
    Owned (d.applyAll [.putWorkspace ws, .putMember m]) where
  owner := by
    intro w row hrow u
    have hrow := (workspace?_putWorkspace d ws w).symm.trans hrow
    have hrole := roleOf_putMember (d.apply (.putWorkspace ws)) m w u
    rw [applyAll_cons, applyAll_cons, applyAll_nil, hrole, hm.1, hm.2.1, hm.2.2]
    split_ifs at hrow with hw
    · cases hrow
      by_cases hu : u = ws.createdById
      · rw [if_pos ⟨hw, hu⟩]
        exact iff_of_true rfl hu
      · -- nobody else can be a member of a workspace that did not exist
        rw [if_neg fun h => hu h.2]
        refine iff_of_false (fun hr => ?_) hu
        have hsome : (d.member? w u).isSome := by
          have hr : (d.member? w u).map (·.role) = some .owner := hr
          cases hmem : d.member? w u with
          | none =>
              rw [hmem] at hr
              cases hr
          | some _ => rfl
        have := h.referenced w u hsome
        rw [hw, hfree] at this
        cases this
    · rw [if_neg fun h => hw h.1]
      exact h.owner w row hrow u
  referenced := by
    intro w u hmember
    have hmember := (congrArg Option.isSome
      (member?_putMember (d.apply (.putWorkspace ws)) m w u)).symm.trans hmember
    have hworkspace : (d.applyAll [.putWorkspace ws, .putMember m]).workspace? w =
        if w = ws.id then some ws else d.workspace? w := workspace?_putWorkspace d ws w
    rw [hworkspace]
    split_ifs with hw
    · rfl
    · rw [if_neg fun h => hw (h.1.trans hm.1)] at hmember
      exact h.referenced w u hmember

end Rows

section Commit

variable [Collation] {rely : RowKey → Database → Database → Prop} {held : RowKey → Prop}
  {request : Request} {ws : List Write} {d snap : Database}

/-- Deleting a membership that is not the OWNER's. -/
theorem Owned.removal (h : Owned d) {updatedAt : Timestamp} {cleared : List Task} {w u : Id}
    (hrole : d.roleOf w u ≠ some .owner) :
    Owned (d.applyAll (cleared.map (clearWrite updatedAt) ++ [.deleteMember w u])) where
  owner := by
    intro w' row hrow u'
    rw [workspace?_removal] at hrow
    rw [roleOf, member?_removal]
    split_ifs with heq
    · obtain ⟨rfl, rfl⟩ := heq
      refine iff_of_false nofun fun hu => hrole ((h.owner w' row hrow u').mpr hu)
    · exact h.owner w' row hrow u'
  referenced := by
    intro w' u' hmember
    rw [workspace?_removal]
    rw [member?_removal] at hmember
    split_ifs at hmember
    · cases hmember
    · exact h.referenced w' u' hmember

/-- The creator cannot be the target of a membership change, in the snapshot or
now. -/
theorem owned_commit (hd : Owned d) (hsnap : Owned snap) (hp : Persists snap d)
    (h : Commits rely snap held d request ws) : Owned (d.applyAll ws) := by
  cases h with
  | createUser _ => exact hd.congr (fun _ => rfl) fun _ _ => rfl
  | createWorkspace _ _ hfree hcreator hm =>
      exact hd.createWorkspace hfree ⟨hm.1, hm.2.1.trans hcreator.symm, hm.2.2⟩
  | @addMember _ w body _ _ m _ _ hm habsent hworkspace _ =>
      obtain ⟨row, hrow⟩ := Option.isSome_iff_exists.mp hworkspace
      refine hd.putMember (hm.1 ▸ hrow) (fun hu => ?_) (hm.2 ▸ body.role.2)
      have howner := (hd.owner w row hrow m.userId).mpr hu
      rw [roleOf, habsent] at howner
      cases howner
  | @updateMemberRole _ w u body _ _ old row _ hactor hold howner _ hrow =>
      obtain ⟨workspace, hworkspace⟩ := Option.isSome_iff_exists.mp hactor.workspace
      obtain ⟨hw, hu⟩ := key_of_member? hrow
      have hsame : snap.roleOf w u = some old.role := roleOf_eq_some hold
      have hu' : u ≠ workspace.createdById := fun hcreator => by
        have := (hsnap.owner w workspace hworkspace u).mpr hcreator
        rw [hsame] at this
        exact howner (Option.some.inj this)
      have hnow : d.workspace? row.workspaceId = some workspace := by
        rw [hw]
        exact hp.workspace w workspace hworkspace
      exact Owned.putMember hd hnow (by rw [hu]; exact hu') body.role.2
  | removeMember _ _ hrow hrole _ _ =>
      refine hd.removal fun howner => ?_
      rw [roleOf_eq_some hrow] at howner
      rw [Option.some.inj howner] at hrole
      rcases canRemoveMember_iff.mp hrole with ⟨_, h⟩ | ⟨_, h⟩
      · exact h rfl
      · cases h
  | createTask _ _ _ _ _ => exact hd.congr (fun _ => rfl) fun _ _ => rfl
  | updateTask _ _ _ _ => exact hd.congr (fun _ => rfl) fun _ _ => rfl
  | updateTaskStatus _ _ _ _ => exact hd.congr (fun _ => rfl) fun _ _ => rfl
  | updateTaskAssignee _ _ _ _ _ => exact hd.congr (fun _ => rfl) fun _ _ => rfl
  | deleteTask _ _ _ _ => exact hd.congr (fun _ => rfl) fun _ _ => rfl

theorem owned_effect {inv : Database → Prop}
    {guar : Request → Session → Database → Session → Database → Prop} {l : Session}
    {d' : Database} (hinv : ∀ d, inv d → Owned d) (hd : Owned d)
    (he : Effect (lockProtocol inv guar) request l d d') : Owned d' := by
  cases he with
  | quiet h => exact hd.congr (fun w => (h.workspace? w).symm) fun w u => (h.member? w u).symm
  | commit snap _ hsnap hevolve h hd' =>
      subst hd'
      exact owned_commit hd (hinv snap hsnap) hevolve h

abbrev ownerProtocol : Protocol Request Session Database RowKey :=
  lockProtocol Owned fun _ _ _ _ _ => True

theorem owner_tolerates (request : Request) : Tolerates ownerProtocol request :=
  lockProtocol_tolerates (fun _ _ _ hd he => owned_effect (fun _ h => h) hd he)
    fun _ _ _ _ _ _ => trivial

/-- In every committed state of every interleaving, the OWNER of a workspace is its
creator and nobody else. -/
theorem singleOwner_of_reachable (howner : SingleOwner d) (hreferenced : MembersReferenced d)
    {σ : System Request Call Call.Res Response Session Database}
    (hr : System.Reachable Session.machine workload (fun _ => True) (fun _ _ _ _ _ => True) d σ) :
    SingleOwner σ.shared :=
  (coherent_of_requests (lockProtocol_sound _ _) (fun request _ => owner_tolerates request)
    ⟨howner, hreferenced⟩ hr).inv.owner

end Commit

/-! ### A member is promoted -/

theorem owned_sampleDatabase : Owned sampleDatabase := by
  let workspace : Workspace := ⟨1, "workspace", 1, 0, 0⟩
  let owner : WorkspaceMember := ⟨1, 1, .owner, 0, 0⟩
  let member : WorkspaceMember := ⟨1, 2, .member, 0, 0⟩
  have hempty : Owned Database.empty := ⟨nofun, nofun⟩
  have hcreated : Owned (Database.empty.applyAll [.putWorkspace workspace, .putMember owner]) :=
    hempty.createWorkspace rfl ⟨rfl, rfl, rfl⟩
  have hjoined : Owned ((Database.empty.applyAll
      [.putWorkspace workspace, .putMember owner]).apply (.putMember member)) :=
    hcreated.putMember (by rfl) (by decide) (by decide)
  exact hjoined.congr (fun _ => rfl) fun _ _ => rfl

def promotionRequest : Request :=
  .updateMemberRole (some "owner") 1 2 (some ⟨AssignableMemberRole.admin⟩)

def promotionDone : Progress Call Call.Res Response Session Database :=
  (@Session.machine sampleCollation).advanceN (fun _ => sampleEnv) 12
    ⟨promotionRequest.program, {}, sampleDatabase⟩

theorem singleOwner_of_reachable_promotion :
    promotionDone.shared.roleOf 1 2 = some .admin ∧ SingleOwner promotionDone.shared := by
  let _ := sampleCollation
  have hr : System.Reachable Session.machine workload (fun _ => True) (fun _ _ _ _ _ => True)
      sampleDatabase (System.solo 0 promotionRequest promotionDone) := by
    rw [promotionDone]
    exact System.reachable_advanceN (fun _ _ _ _ => trivial) _ 12 (System.reachable_spawn trivial)
  refine ⟨by decide +kernel, ?_⟩
  exact singleOwner_of_reachable owned_sampleDatabase.owner owned_sampleDatabase.referenced hr

/-! ## Changes of memberships are confined -/

/-- The role an actor had in a workspace when his access was checked. -/
def Session.accessRole (l : Session) (w actor : Id) : Option MemberRole :=
  l.readView.bind fun snap => snap.roleOf w actor

def Privileged (d : Database) (w u : Id) : Prop :=
  d.roleOf w u = some .owner ∨ d.roleOf w u = some .admin

/-- How a membership may change by an actor whose access was checked in `role`. -/
structure Confined (role : MemberRole) (actor w u : Id) (d d' : Database) : Prop where
  manager : role = .owner ∨ role = .admin
  /-- An ADMIN inserts or deletes, and only a MEMBER. -/
  admin : role = .admin → (d.member? w u = none ∧ d'.roleOf w u = some .member) ∨
    (d.roleOf w u = some .member ∧ d'.member? w u = none)
  /-- Who is privileged changes only by the OWNER. -/
  privileged : ¬ (Privileged d w u ↔ Privileged d' w u) → d.roleOf w actor = some .owner

section Confinement

variable [Collation] {rely : RowKey → Database → Database → Prop} {held : RowKey → Prop}
  {request : Request} {ws : List Write} {d snap : Database}

/-- Every membership of an existing workspace that a step changes is changed in a
confined way. -/
def confinedGuarantee (request : Request) (l : Session) (d : Database) (_ : Session)
    (d' : Database) : Prop :=
  ∀ w u, (d.workspace? w).isSome → d'.member? w u ≠ d.member? w u →
    ∃ actor role, l.actor? request = some actor ∧ l.accessRole w actor.id = some role ∧
      Confined role actor.id w u d d'

abbrev confinedProtocol : Protocol Request Session Database RowKey :=
  lockProtocol Owned confinedGuarantee

/-- The OWNER of a snapshot is the OWNER. -/
theorem owner_of_snapshot (hd : Owned d) (hsnap : Owned snap) (hp : Persists snap d)
    {subject : Option String} {w : Id} {user : User} {membership : WorkspaceMember}
    (hactor : Actor snap subject w user membership) (hrole : membership.role = .owner) :
    d.roleOf w user.id = some .owner := by
  obtain ⟨row, hrow⟩ := Option.isSome_iff_exists.mp hactor.workspace
  have hsnapRole : snap.roleOf w user.id = some .owner := by
    rw [roleOf_eq_some hactor.member, hrole]
  exact (hd.owner w row (hp.workspace w row hrow) user.id).mpr
    ((hsnap.owner w row hrow user.id).mp hsnapRole)

omit [Collation] in
theorem not_privileged_of_none {w u : Id} (h : d.member? w u = none) : ¬ Privileged d w u := by
  rw [Privileged, roleOf, h]
  simp

omit [Collation] in
theorem not_privileged_of_member {w u : Id} (h : d.roleOf w u = some .member) :
    ¬ Privileged d w u := by
  rw [Privileged, h]
  simp

omit [Collation] in
theorem confined_insert {role new : MemberRole} {actor w u : Id} {d' : Database}
    (howner : role = .owner → d.roleOf w actor = some .owner)
    (hrole : canAddMember role new = true) (habsent : d.member? w u = none)
    (hnew : d'.roleOf w u = some new) : Confined role actor w u d d' := by
  rcases canAddMember_iff.mp hrole with ⟨hr, _⟩ | ⟨hr, hmember⟩
  · exact ⟨Or.inl hr, fun ha => absurd (hr.symm.trans ha) (by decide), fun _ => howner hr⟩
  · rw [hmember] at hnew
    exact ⟨Or.inr hr, fun _ => Or.inl ⟨habsent, hnew⟩, fun hp => absurd
      (iff_of_false (not_privileged_of_none habsent) (not_privileged_of_member hnew)) hp⟩

omit [Collation] in
theorem confined_delete {role old : MemberRole} {actor w u : Id} {d' : Database}
    (howner : role = .owner → d.roleOf w actor = some .owner)
    (hrole : canRemoveMember role old = true) (hold : d.roleOf w u = some old)
    (habsent : d'.member? w u = none) : Confined role actor w u d d' := by
  rcases canRemoveMember_iff.mp hrole with ⟨hr, _⟩ | ⟨hr, hmember⟩
  · exact ⟨Or.inl hr, fun ha => absurd (hr.symm.trans ha) (by decide), fun _ => howner hr⟩
  · rw [hmember] at hold
    exact ⟨Or.inr hr, fun _ => Or.inr ⟨hold, habsent⟩, fun hp => absurd
      (iff_of_false (not_privileged_of_member hold) (not_privileged_of_none habsent)) hp⟩

theorem confined_commit (hd : Owned d) (hsnap : Owned snap) (hp : Persists snap d)
    (h : Commits rely snap held d request ws) {w u : Id} (hw : (d.workspace? w).isSome)
    (hchange : (d.applyAll ws).member? w u ≠ d.member? w u) :
    ∃ actor role, snap.actor? request.subject = some actor ∧ snap.roleOf w actor.id = some role ∧
      Confined role actor.id w u d (d.applyAll ws) := by
  cases h with
  | createUser _ => exact absurd rfl hchange
  | @createWorkspace _ _ _ ws m _ _ hfree _ hm =>
      -- the new workspace did not exist
      have hput : (d.applyAll [.putWorkspace ws, .putMember m]).member? w u =
          if w = m.workspaceId ∧ u = m.userId then some m else d.member? w u :=
        member?_putMember (d.apply (.putWorkspace ws)) m w u
      rw [hput] at hchange
      split_ifs at hchange with heq
      · rw [heq.1, hm.1, hfree] at hw
        cases hw
      · exact absurd rfl hchange
  | @addMember _ w' body user membership m hactor hrole hm habsent _ _ =>
      have hput : (d.applyAll [.putMember m]).roleOf w u =
          if w = m.workspaceId ∧ u = m.userId then some m.role else d.roleOf w u :=
        roleOf_putMember d m w u
      by_cases heq : w = m.workspaceId ∧ u = m.userId
      · obtain ⟨rfl, rfl⟩ := heq
        rw [if_pos ⟨rfl, rfl⟩, hm.2] at hput
        rw [hm.1] at hput ⊢
        exact ⟨user, membership.role, hactor.token, roleOf_eq_some hactor.member,
          confined_insert (owner_of_snapshot hd hsnap hp hactor) hrole habsent hput⟩
      · exact absurd ((member?_putMember d m w u).trans (if_neg heq)) hchange
  | @updateMemberRole _ w' u' body user membership old row now hactor _ _ hrole hrow =>
      obtain ⟨hw', hu'⟩ := key_of_member? hrow
      obtain ⟨hr, _, _⟩ := canUpdateMemberRole_iff.mp hrole
      by_cases heq : w = w' ∧ u = u'
      · obtain ⟨rfl, rfl⟩ := heq
        exact ⟨user, membership.role, hactor.token, roleOf_eq_some hactor.member,
          Or.inl hr, fun ha => absurd (hr.symm.trans ha) (by decide),
          fun _ => owner_of_snapshot hd hsnap hp hactor hr⟩
      · refine absurd ((member?_putMember d _ w u).trans (if_neg fun h => heq ?_)) hchange
        exact ⟨h.1.trans hw', h.2.trans hu'⟩
  | @removeMember _ w' u' user membership row cleared now hactor _ hrow hrole _ _ =>
      rw [member?_removal] at hchange
      split_ifs at hchange with heq
      · obtain ⟨rfl, rfl⟩ := heq
        exact ⟨user, membership.role, hactor.token, roleOf_eq_some hactor.member,
          confined_delete (owner_of_snapshot hd hsnap hp hactor) hrole (roleOf_eq_some hrow)
            ((member?_removal w u).trans (if_pos ⟨rfl, rfl⟩))⟩
      · exact absurd rfl hchange
  | createTask _ _ _ _ _ => exact absurd rfl hchange
  | updateTask _ _ _ _ => exact absurd rfl hchange
  | updateTaskStatus _ _ _ _ => exact absurd rfl hchange
  | updateTaskAssignee _ _ _ _ _ => exact absurd rfl hchange
  | deleteTask _ _ _ _ => exact absurd rfl hchange

theorem confined_tolerates (request : Request) : Tolerates confinedProtocol request := by
  refine lockProtocol_tolerates (fun _ _ _ hd he => owned_effect (fun _ h => h) hd he)
    fun l d l' d' hd he w u hw hchange => ?_
  cases he with
  | quiet h => exact absurd (h.member? w u).symm hchange
  | commit snap hview hsnap hevolve h hd' =>
      subst hd'
      obtain ⟨actor, role, hactor, hrole, hc⟩ := confined_commit hd hsnap hevolve h hw hchange
      refine ⟨actor, role, ?_, ?_, hc⟩
      · rw [Session.actor?, hview]
        exact hactor
      · rw [Session.accessRole, hview]
        exact hrole

/-- In every interleaving, a membership of an existing workspace changes only by an
actor whose access was checked as OWNER or ADMIN; an ADMIN inserts and deletes only
memberships that are MEMBERs when he commits; and who is OWNER or ADMIN changes only
by requests of the OWNER. -/
theorem membership_change_confined (howner : SingleOwner d) (hreferenced : MembersReferenced d)
    {σ σ' : System Request Call Call.Res Response Session Database} {i : Nat} {l l' : Session}
    (hr : System.Reachable Session.machine workload (fun _ => True) (fun _ _ _ _ _ => True) d σ)
    (hs : System.CallStep Session.machine i request l l' σ σ') {w u : Id}
    (hw : (σ.shared.workspace? w).isSome)
    (hchange : σ'.shared.member? w u ≠ σ.shared.member? w u) :
    ∃ actor role, l.actor? request = some actor ∧ l.accessRole w actor.id = some role ∧
      Confined role actor.id w u σ.shared σ'.shared := by
  have hc := coherent_of_requests (lockProtocol_sound _ _)
    (fun request _ => confined_tolerates request) ⟨howner, hreferenced⟩ hr
  exact (Protocol.callStep_guarantees hc hs trivial).guar w u hw hchange

end Confinement

/-! ### An ADMIN removes a member -/

/-- The sample with its member promoted and a new member in. -/
def adminDatabase : Database :=
  (sampleDatabase.apply (.putMember ⟨1, 2, .admin, 0, 0⟩)).apply
    (.putMember ⟨1, 3, .member, 0, 0⟩)

def dismissalRequest : Request := .removeMember (some "member") 1 3

/-- The removal with everything done but its commit. -/
def dismissalInProgress : Progress Call Call.Res Response Session Database :=
  (@Session.machine sampleCollation).advanceN (fun _ => sampleEnv) 10
    ⟨dismissalRequest.program, {}, adminDatabase⟩

theorem membership_change_confined_dismissal :
    ∃ actor role,
      @Session.actor? sampleCollation dismissalInProgress.loc dismissalRequest = some actor ∧
      dismissalInProgress.loc.accessRole 1 actor.id = some role ∧
      Confined role actor.id 1 3 dismissalInProgress.shared
        ((@Session.machine sampleCollation).advance sampleEnv dismissalInProgress).shared := by
  let _ := sampleCollation
  have hadmin : Owned (sampleDatabase.apply (.putMember ⟨1, 2, .admin, 0, 0⟩)) :=
    owned_sampleDatabase.putMember (by rfl) (by decide) (by decide)
  have hd : Owned adminDatabase :=
    hadmin.putMember (by rfl) (by decide) (by decide)
  have hr : System.Reachable Session.machine workload (fun _ => True) (fun _ _ _ _ _ => True)
      adminDatabase (System.solo 0 dismissalRequest dismissalInProgress) := by
    rw [dismissalInProgress]
    exact System.reachable_advanceN (fun _ _ _ _ => trivial) _ 10 (System.reachable_spawn trivial)
  have hs : System.CallStep Session.machine 0 dismissalRequest dismissalInProgress.loc
      (Session.machine.advance sampleEnv dismissalInProgress).loc
      (System.solo 0 dismissalRequest dismissalInProgress)
      (System.solo 0 dismissalRequest (Session.machine.advance sampleEnv dismissalInProgress)) :=
    System.callStep_advance sampleEnv (by decide +kernel)
  have hchange : (Session.machine.advance sampleEnv dismissalInProgress).shared.member? 1 3 ≠
      dismissalInProgress.shared.member? 1 3 := by decide +kernel
  exact membership_change_confined hd.owner hd.referenced hr hs (by decide +kernel) hchange

end TaskPlatform
