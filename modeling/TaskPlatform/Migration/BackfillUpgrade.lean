import TaskPlatform.Migration.Counts
import TaskPlatform.Migration.Legacy

/-!
# The backfill of a baseline

What the loop over the users has made of a baseline, in terms of the mapping table:
the invariant of the loop, and what the validations of the revision find.
-/

namespace TaskPlatform
namespace Migration
namespace Backfill

open Relational Truth

def personalWorkspace (user : User) (m : Mapping) : Workspace :=
  ⟨m.workspaceId, personalWorkspaceName user.username, user.id, m.migratedAt, m.migratedAt⟩

def ownerMembership (m : Mapping) : WorkspaceMember :=
  ⟨m.workspaceId, m.userId, .owner, m.migratedAt, m.migratedAt⟩

/-- A task as the mapping of its owner has it. -/
def assigned (map : Table Mapping) (t : TaskRow) : TaskRow :=
  match t.ownerId.bind map.find? with
  | some m => assign m.workspaceId m.userId m.migratedAt t
  | none => t

theorem id_assigned (map : Table Mapping) (t : TaskRow) : (assigned map t).id = t.id := by
  unfold assigned
  cases t.ownerId.bind map.find? with
  | none => rfl
  | some m => rfl

theorem ownerId_assigned (map : Table Mapping) (t : TaskRow) :
    (assigned map t).ownerId = t.ownerId := by
  unfold assigned
  cases t.ownerId.bind map.find? with
  | none => rfl
  | some m => rfl

theorem completed_assigned (map : Table Mapping) (t : TaskRow) :
    (assigned map t).completed = t.completed := by
  unfold assigned
  cases t.ownerId.bind map.find? with
  | none => rfl
  | some m => rfl

theorem assigned_of_mapped {map : Table Mapping} {t : TaskRow} {u : Id} {m : Mapping}
    (ht : t.ownerId = some u) (hm : map.find? u = some m) :
    assigned map t = assign m.workspaceId m.userId m.migratedAt t := by
  rw [assigned, ht, Option.bind_some, hm]

theorem assigned_of_unmapped {map : Table Mapping} {t : TaskRow} {u : Id}
    (ht : t.ownerId = some u) (hm : map.find? u = none) : assigned map t = t := by
  rw [assigned, ht, Option.bind_some, hm]

/-- What a mapping of `r` stands for, over a baseline `b`. -/
structure Generated (b r : Rows) (m : Mapping) : Prop where
  workspace : ∃ user, b.user? m.userId = some user ∧
    r.workspace? m.workspaceId = some (personalWorkspace user m)
  members : ∀ u, r.member? m.workspaceId u =
    if u = m.userId then some (ownerMembership m) else none
  count : m.legacyTaskCount = ownerTaskCount b m.userId
  maxId : m.legacyTaskMaxId = ownerTaskMaxId b m.userId
  fresh : b.nextWorkspaceId ≤ m.workspaceId ∧ m.workspaceId < r.nextWorkspaceId

/-- The rows once some users have their workspace. -/
structure Backfilled (b r : Rows) (done : List User) : Prop where
  users : r.users = b.users
  mapped : ∀ user ∈ done, (r.mapping? user.id).isSome = true
  mapping : ∀ m ∈ r.map.rows, (∃ user ∈ done, user.id = m.userId) ∧ Generated b r m
  distinct : ∀ m ∈ r.map.rows, ∀ m' ∈ r.map.rows, m.workspaceId = m'.workspaceId → m = m'
  workspaces : ∀ w, (∀ m ∈ r.map.rows, m.workspaceId ≠ w) → r.workspace? w = b.workspace? w
  members : ∀ w, (∀ m ∈ r.map.rows, m.workspaceId ≠ w) → ∀ u, r.member? w u = b.member? w u
  tasks : r.tasks = b.tasks.mapRows (assigned r.map) (id_assigned r.map)
  next : b.nextWorkspaceId ≤ r.nextWorkspaceId

theorem backfilled_nil {b : Rows} (h : Legacy b) : Backfilled b b [] := by
  have hmap : ∀ m ∈ b.map.rows, False := by
    rw [h.map]
    exact nofun
  refine ⟨rfl, nofun, fun m hm => (hmap m hm).elim, fun m hm => (hmap m hm).elim,
    fun _ _ => rfl, fun _ _ _ => rfl, ?_, Int.le_refl _⟩
  refine (Table.mapRows_eq_self fun t _ => ?_).symm
  unfold assigned
  rw [h.map]
  cases t.ownerId with
  | none => rfl
  | some u => rfl

/-! ## One user -/

theorem length_personalWorkspaceName (username : String) :
    (personalWorkspaceName username).length = 21 + username.length := by
  have hprefix : "Personal Workspace - ".length = 21 := by decide +kernel
  unfold personalWorkspaceName
  rw [String.length_append]
  exact congrArg (· + username.length) hprefix

theorem toList_personalWorkspaceName (username : String) :
    (personalWorkspaceName username).toList =
      'P' :: ("ersonal Workspace - ".toList ++ username.toList) := by
  have hprefix : "Personal Workspace - ".toList = 'P' :: "ersonal Workspace - ".toList := by
    decide +kernel
  unfold personalWorkspaceName
  rw [String.toList_append]
  exact congrArg (· ++ username.toList) hprefix

theorem personalWorkspaceName_fits {username : String} (h : username.length ≤ 50) :
    (personalWorkspaceName username).length ≤ 100 ∧
      trimmedLengthOk (personalWorkspaceName username) = true := by
  have hlength := length_personalWorkspaceName username
  have hle := length_stripChars_le (· == ' ') (personalWorkspaceName username).toList
  have hpos : 0 < (stripChars (· == ' ') (personalWorkspaceName username).toList).length := by
    rw [toList_personalWorkspaceName]
    exact List.length_pos_iff.mpr (stripChars_cons_ne_nil rfl)
  rw [String.length_toList] at hle
  refine ⟨by omega, ?_⟩
  simp only [trimmedLengthOk, sqlTrim, String.length_ofList, Bool.and_eq_true, decide_eq_true_eq]
  omega

/-- The mapping the body of the loop makes. -/
def newMapping (migrationTime : Timestamp) (r : Rows) (user : User) : Mapping :=
  ⟨user.id, r.nextWorkspaceId, ownerTaskCount r user.id, ownerTaskMaxId r user.id, migrationTime⟩

/-- What the body of the loop makes of the rows. -/
def generate (migrationTime : Timestamp) (r : Rows) (user : User) : Rows :=
  { r with
    workspaces := r.workspaces.put (personalWorkspace user (newMapping migrationTime r user))
    members := r.members.put (ownerMembership (newMapping migrationTime r user))
    map := r.map.put (newMapping migrationTime r user)
    tasks := r.tasks.updateWhere (fun t => (eq t.ownerId (some user.id)).holds)
      (assign r.nextWorkspaceId user.id migrationTime)
      (id_assign r.nextWorkspaceId user.id migrationTime)
    nextWorkspaceId := r.nextWorkspaceId + 1 }

section Generate

variable (migrationTime : Timestamp) (r : Rows) (user : User)

theorem workspace?_generate (w : Id) :
    (generate migrationTime r user).workspace? w =
      if w = r.nextWorkspaceId then some (personalWorkspace user (newMapping migrationTime r user))
      else r.workspace? w :=
  Table.find?_put r.workspaces _ w

theorem member?_generate (w u : Id) :
    (generate migrationTime r user).member? w u =
      if w = r.nextWorkspaceId ∧ u = user.id then
        some (ownerMembership (newMapping migrationTime r user))
      else r.member? w u := by
  show (r.members.put _).find? (memberKey w u) = _
  rw [Table.find?_put]
  simp only [key_member, memberKey_inj]
  rfl

theorem mapping?_generate (u : Id) :
    (generate migrationTime r user).mapping? u =
      if u = user.id then some (newMapping migrationTime r user) else r.mapping? u :=
  Table.find?_put r.map _ u

end Generate

/-- The legacy columns of a backfilled task are those of the baseline. -/
theorem Backfilled.ownerTasks {b r : Rows} {done : List User} (h : Backfilled b r done) (u : Id) :
    ownerTaskCount r u = ownerTaskCount b u ∧ ownerTaskMaxId r u = ownerTaskMaxId b u := by
  have hfilter : r.tasks.rows.filter (fun t => (eq t.ownerId (some u)).holds) =
      (b.tasks.rows.filter fun t => (eq t.ownerId (some u)).holds).map (assigned r.map) := by
    rw [h.tasks, Table.rows_mapRows, List.filter_map]
    simp only [Function.comp_def, ownerId_assigned]
  constructor
  · rw [ownerTaskCount, ownerTaskCount, hfilter, List.length_map]
  · rw [ownerTaskMaxId, ownerTaskMaxId, hfilter, List.map_map]
    simp only [Function.comp_def, id_assigned]

/-- The next workspace is new. -/
theorem Backfilled.unused {b r : Rows} {done : List User} (h : Backfilled b r done)
    (hb : Legacy b) :
    (∀ m ∈ r.map.rows, m.workspaceId ≠ r.nextWorkspaceId) ∧
      r.workspace? r.nextWorkspaceId = none ∧ ∀ u, r.member? r.nextWorkspaceId u = none := by
  have hfresh : ∀ m ∈ r.map.rows, m.workspaceId ≠ r.nextWorkspaceId :=
    fun m hm => ne_of_lt (h.mapping m hm).2.fresh.2
  have hnone : b.workspace? r.nextWorkspaceId = none := by
    cases hrow : b.workspace? r.nextWorkspaceId with
    | none => rfl
    | some row =>
        exact absurd (hb.workspaces _ row hrow) (not_lt.mpr h.next)
  refine ⟨hfresh, ?_, fun u => ?_⟩
  · rw [h.workspaces _ hfresh]
    exact hnone
  · rw [h.members _ hfresh]
    cases hm : b.member? r.nextWorkspaceId u with
    | none => rfl
    | some m =>
        have hsome := hb.members _ _ m hm
        rw [hnone] at hsome
        cases hsome

/-- A user the loop has not come to has no mapping. -/
theorem Backfilled.unmapped {b r : Rows} {done : List User} (h : Backfilled b r done)
    {user : User} (hnew : ∀ u ∈ done, u.id ≠ user.id) : ∀ m ∈ r.map.rows, m.userId ≠ user.id := by
  intro m hm heq
  obtain ⟨u, hu, hid⟩ := (h.mapping m hm).1
  exact hnew u hu (hid.trans heq)

section Iteration

variable {b r : Rows} {done : List User} {user : User} (migrationTime : Timestamp)

theorem mem_map_generate (hunmapped : ∀ m ∈ r.map.rows, m.userId ≠ user.id) {m : Mapping} :
    m ∈ (generate migrationTime r user).map.rows ↔
      m = newMapping migrationTime r user ∨ m ∈ r.map.rows := by
  show m ∈ (r.map.put _).rows ↔ _
  rw [Table.mem_put]
  exact or_congr_right ⟨fun hm => hm.1, fun hm => ⟨hm, hunmapped m hm⟩⟩

/-- The statement assigns the tasks of the user, who had no mapping. -/
theorem assigned_generate (hunmapped : ∀ m ∈ r.map.rows, m.userId ≠ user.id) {t : TaskRow}
    {u : Id} (howner : t.ownerId = some u) :
    (if (eq (some u) (some user.id)).holds
      then assign r.nextWorkspaceId user.id migrationTime (assigned r.map t)
      else assigned r.map t) = assigned (generate migrationTime r user).map t := by
  have hfind := mapping?_generate migrationTime r user u
  by_cases hu : u = user.id
  · have hnone : r.map.find? u = none := by
      rw [hu]
      exact Table.find?_eq_none.mpr hunmapped
    rw [if_pos hu] at hfind
    rw [if_pos (holds_eq.mpr ⟨u, rfl, congrArg some hu.symm⟩), assigned_of_unmapped howner hnone,
      assigned_of_mapped howner hfind]
    rfl
  · have hother : ¬ (eq (some u) (some user.id)).holds = true := by
      intro hsame
      obtain ⟨x, hx, hx'⟩ := holds_eq.mp hsame
      exact hu ((Option.some.inj hx).trans (Option.some.inj hx').symm)
    rw [if_neg hu] at hfind
    rw [if_neg hother]
    cases hmapped : r.map.find? u with
    | none =>
        rw [assigned_of_unmapped howner hmapped,
          assigned_of_unmapped howner (hfind.trans hmapped)]
    | some m =>
        rw [assigned_of_mapped howner hmapped, assigned_of_mapped howner (hfind.trans hmapped)]

/-- The new mapping stands for the new workspace. -/
theorem Backfilled.generated_new (h : Backfilled b r done) (hb : Legacy b)
    (huser : user ∈ b.users.rows) :
    Generated b (Backfill.generate migrationTime r user) (newMapping migrationTime r user) where
  workspace := by
    refine ⟨user, Table.find?_key b.users huser, ?_⟩
    rw [workspace?_generate]
    exact if_pos rfl
  members := by
    intro u
    rw [member?_generate]
    by_cases hu : u = user.id
    · rw [if_pos ⟨rfl, hu⟩]
      exact (if_pos hu).symm
    · rw [if_neg fun h => hu h.2]
      exact ((h.unused hb).2.2 u).trans (if_neg hu).symm
  count := (h.ownerTasks user.id).1
  maxId := (h.ownerTasks user.id).2
  fresh := ⟨h.next, Int.lt_succ r.nextWorkspaceId⟩

/-- The mappings that were there stand for what they did. -/
theorem Generated.generate {m : Mapping} (h : Generated b r m) :
    Generated b (Backfill.generate migrationTime r user) m where
  workspace := by
    obtain ⟨owner, howner, hworkspace⟩ := h.workspace
    refine ⟨owner, howner, ?_⟩
    rw [workspace?_generate, if_neg (ne_of_lt h.fresh.2)]
    exact hworkspace
  members := by
    intro u
    rw [member?_generate, if_neg fun heq => ne_of_lt h.fresh.2 heq.1]
    exact h.members u
  count := h.count
  maxId := h.maxId
  fresh := ⟨h.fresh.1, Int.lt_trans h.fresh.2 (Int.lt_succ r.nextWorkspaceId)⟩

theorem Backfilled.generate (h : Backfilled b r done) (hb : Legacy b)
    (huser : user ∈ b.users.rows) (hnew : ∀ u ∈ done, u.id ≠ user.id) :
    Backfilled b (Backfill.generate migrationTime r user) (done ++ [user]) := by
  have hunmapped := h.unmapped hnew
  have hmem := @mem_map_generate r user migrationTime hunmapped
  obtain ⟨hfresh, _, _⟩ := h.unused hb
  refine ⟨h.users, ?mapped, ?mapping, ?distinct, ?workspaces, ?members, ?tasks, ?next⟩
  case mapped =>
    intro u hu
    rw [mapping?_generate]
    by_cases hid : u.id = user.id
    · rw [if_pos hid]
      rfl
    · rw [if_neg hid]
      rcases List.mem_append.mp hu with hu | hu
      · exact h.mapped u hu
      · exact absurd (congrArg User.id (List.mem_singleton.mp hu)) hid
  case mapping =>
    intro m hm
    rcases hmem.mp hm with rfl | hm
    · exact ⟨⟨user, List.mem_append_right done (List.mem_singleton_self user), rfl⟩,
        h.generated_new migrationTime hb huser⟩
    · obtain ⟨⟨u, hu, hid⟩, hgenerated⟩ := h.mapping m hm
      exact ⟨⟨u, List.mem_append_left _ hu, hid⟩, hgenerated.generate migrationTime⟩
  case distinct =>
    intro m hm m' hm' hsame
    rcases hmem.mp hm with rfl | hm
    · rcases hmem.mp hm' with rfl | hm'
      · rfl
      · exact absurd hsame.symm (hfresh m' hm')
    · rcases hmem.mp hm' with rfl | hm'
      · exact absurd hsame (hfresh m hm)
      · exact h.distinct m hm m' hm' hsame
  case workspaces =>
    intro w hw
    have hne := hw _ (hmem.mpr (Or.inl rfl))
    rw [workspace?_generate, if_neg fun h => hne h.symm]
    exact h.workspaces w fun m hm => hw m (hmem.mpr (Or.inr hm))
  case members =>
    intro w hw u
    have hne := hw _ (hmem.mpr (Or.inl rfl))
    rw [member?_generate, if_neg fun h => hne h.1.symm]
    exact h.members w (fun m hm => hw m (hmem.mpr (Or.inr hm))) u
  case tasks =>
    show r.tasks.updateWhere (fun t => (eq t.ownerId (some user.id)).holds)
      (assign r.nextWorkspaceId user.id migrationTime)
      (id_assign r.nextWorkspaceId user.id migrationTime) = _
    rw [h.tasks, Table.updateWhere, Table.mapRows_mapRows]
    refine Table.mapRows_congr fun t ht => ?_
    obtain ⟨u, howner, _⟩ := hb.owner t ht
    simp only [Function.comp_apply, ownerId_assigned, howner]
    exact assigned_generate migrationTime hunmapped howner
  case next => exact Int.le_trans h.next (Int.le_of_lt (Int.lt_succ _))

end Iteration

/-- The statements for one user go through. -/
theorem backfillUser_eq_ok {s : Store} {b : Rows} {done : List User}
    (h : Backfilled b s.rows done) (hb : Legacy b) (hschema : Compatibility.Compatible s.schema)
    (migrationTime : Timestamp) {user : User} (huser : user ∈ b.users.rows)
    (hnew : ∀ u ∈ done, u.id ≠ user.id) :
    backfillUser migrationTime s user =
      .ok ⟨s.schema, Backfill.generate migrationTime s.rows user⟩ := by
  obtain ⟨hfresh, hworkspace, hmember⟩ := h.unused hb
  have hsome : (s.rows.user? user.id).isSome = true := by
    have hfind : b.users.find? user.id = some user := Table.find?_key b.users huser
    rw [Rows.user?, h.users, hfind]
    rfl
  have hput : ∀ row : Workspace, row.id = s.rows.nextWorkspaceId →
      ((s.rows.workspaces.put row).find? s.rows.nextWorkspaceId).isSome = true := by
    intro row hrow
    rw [Table.find?_put, key_workspace, if_pos hrow.symm]
    rfl
  have hunmapped : s.rows.mapping? user.id = none := Table.find?_eq_none.mpr (h.unmapped hnew)
  have hname := personalWorkspaceName_fits (hb.usernames user huser)
  unfold backfillUser
  refine bind_eq_ok.mpr ⟨_, accept_eq_ok.mpr ⟨⟨hname.1, hname.2, hsome, hworkspace⟩, rfl⟩, ?_⟩
  refine bind_eq_ok.mpr ⟨_, accept_eq_ok.mpr ⟨⟨hmember user.id, hput _ rfl, hsome⟩, rfl⟩, ?_⟩
  refine bind_eq_ok.mpr ⟨_, accept_eq_ok.mpr ⟨⟨?_, hunmapped, hfresh, hsome, hput _ rfl⟩, rfl⟩, ?_⟩
  · show s.schema.map.isSome = true
    rw [hschema.map]
    rfl
  refine accept_eq_ok.mpr ⟨fun t ht _ => ?_, rfl⟩
  refine hschema.allows_iff.mpr ?_
  have htasks : t ∈ s.rows.tasks.rows := ht
  rw [h.tasks] at htasks
  obtain ⟨t₀, ht₀, rfl⟩ := List.mem_map.mp htasks
  obtain ⟨u, howner, hu⟩ := hb.owner t₀ ht₀
  have howner' : (assigned s.rows.map t₀).ownerId = some u := (ownerId_assigned _ _).trans howner
  have hu' : (s.rows.user? u).isSome = true := by
    rw [Rows.user?, h.users]
    exact hu
  refine ⟨?_, ?_, ?_, ?_, ?_, ?_⟩
  · show (assigned s.rows.map t₀).completed.isSome = true
    rw [completed_assigned]
    exact hb.completed t₀ ht₀
  · show (assigned s.rows.map t₀).ownerId.isSome = true
    rw [howner']
    rfl
  · show (assigned s.rows.map t₀).ownerId.all _ = true
    rw [howner']
    exact hu'
  · exact hput _ rfl
  · exact hsome
  · rfl

/-! ## All users -/

section Validation

variable {b r : Rows}

/-- The loop has gone through all users. -/
abbrev Complete (b r : Rows) : Prop := Backfilled b r b.users.rows

theorem Backfilled.user_of_mapping {done : List User} (h : Backfilled b r done)
    (hdone : ∀ u ∈ done, u ∈ b.users.rows) {m : Mapping} (hm : m ∈ r.map.rows) :
    ∃ user ∈ b.users.rows, user.id = m.userId := by
  obtain ⟨user, huser, hid⟩ := (h.mapping m hm).1
  exact ⟨user, hdone user huser, hid⟩

/-- Workspaces of the baseline are not generated. -/
theorem Backfilled.kept {done : List User} (h : Backfilled b r done) (hb : Legacy b) {w : Id}
    (hw : (b.workspace? w).isSome = true) : ∀ m ∈ r.map.rows, m.workspaceId ≠ w := by
  intro m hm
  obtain ⟨row, hrow⟩ := Option.isSome_iff_exists.mp hw
  exact ne_of_gt (lt_of_lt_of_le (hb.workspaces w row hrow) (h.mapping m hm).2.fresh.1)

/-- Every user has a mapping. -/
theorem Complete.exists_mapping (h : Complete b r) {u : Id} (hu : (b.user? u).isSome = true) :
    ∃ m ∈ r.map.rows, m.userId = u := by
  obtain ⟨user, huser⟩ := Option.isSome_iff_exists.mp hu
  obtain ⟨hmem, hkey⟩ := Table.find?_eq_some.mp huser
  obtain ⟨m, hm⟩ := Option.isSome_iff_exists.mp (h.mapped user hmem)
  obtain ⟨hmem', hkey'⟩ := Table.find?_eq_some.mp hm
  exact ⟨m, hmem', hkey'.trans hkey⟩

/-- The mappings are those of the users. -/
theorem Complete.mappingCounts (h : Complete b r) :
    r.map.rows.length = r.users.rows.length ∧
      ((outerJoin (fun (u : User) (m : Mapping) => m.userId = u.id) r.users.rows
        r.map.rows).filter fun x => x.2.isNone).length = 0 := by
  refine mappingCounts_iff.mpr ⟨fun u hu => ?_, fun m hm => ?_⟩
  · rw [h.users] at hu
    have hfind : b.user? u.id = some u := Table.find?_key b.users hu
    exact h.exists_mapping (by rw [hfind]; rfl)
  · rw [h.users]
    exact h.user_of_mapping (fun _ hu => hu) hm

theorem Complete.mappedWorkspaceCount (h : Complete b r) :
    ((join (fun (m : Mapping) (w : Workspace) => w.id = m.workspaceId) r.map.rows
      r.workspaces.rows).filter fun x => x.2.createdById = x.1.userId).length =
      r.map.rows.length := by
  rw [filter_join]
  refine (length_join_eq_iff fun m _ => ?_).2.mpr fun m hm => ?_
  · refine length_filter_le_one r.workspaces.nodup_rows fun w hw w' hw' hon hon' => ?_
    simp only [Bool.and_eq_true, decide_eq_true_eq] at hon hon'
    exact r.workspaces.eq_of_key_eq hw hw' (hon.1.trans hon'.1.symm)
  · obtain ⟨user, huser, hworkspace⟩ := (h.mapping m hm).2.workspace
    refine ⟨_, Table.mem_of_find? hworkspace, ?_⟩
    have hid : user.id = m.userId := Table.key_of_find? huser
    simp only [personalWorkspace, hid, decide_true, Bool.and_self]

theorem Complete.matchingOwnerCount (h : Complete b r) :
    ((join ownMembership r.map.rows r.members.rows).filter fun x => x.2.role = .owner).length =
      r.map.rows.length := by
  refine matchingOwnerCount_iff.mpr fun m hm => ?_
  have hmember := (h.mapping m hm).2.members m.userId
  rw [if_pos rfl] at hmember
  exact ⟨_, Table.mem_of_find? hmember, rfl, rfl, rfl⟩

theorem Complete.allMappedMembershipCount (h : Complete b r) :
    (join (fun (m : Mapping) (x : WorkspaceMember) => x.workspaceId = m.workspaceId) r.map.rows
      r.members.rows).length = r.map.rows.length := by
  have hone : ∀ m ∈ r.map.rows, ∀ x ∈ r.members.rows, x.workspaceId = m.workspaceId →
      x = ownerMembership m := by
    intro m hm x hx hworkspace
    have hfind := (h.mapping m hm).2.members x.userId
    rw [← hworkspace] at hfind
    have hkey : r.member? x.workspaceId x.userId = some x := Table.find?_key r.members hx
    rw [hkey] at hfind
    split_ifs at hfind with hu
    exact Option.some.inj hfind
  refine (length_join_eq_iff fun m hm => ?_).2.mpr fun m hm => ?_
  · refine length_filter_le_one r.members.nodup_rows fun x hx y hy hon hon' => ?_
    rw [hone m hm x hx (decide_eq_true_eq.mp hon), hone m hm y hy (decide_eq_true_eq.mp hon')]
  · have hmember := (h.mapping m hm).2.members m.userId
    rw [if_pos rfl] at hmember
    exact ⟨_, Table.mem_of_find? hmember, decide_eq_true rfl⟩

/-- Every task is in the workspace of its owner. -/
theorem Complete.task (h : Complete b r) (hb : Legacy b) {t : TaskRow} (ht : t ∈ r.tasks.rows) :
    ∃ t₀ ∈ b.tasks.rows, ∃ m ∈ r.map.rows, t₀.ownerId = some m.userId ∧
      t = assign m.workspaceId m.userId m.migratedAt t₀ := by
  rw [h.tasks] at ht
  obtain ⟨t₀, ht₀, rfl⟩ := List.mem_map.mp ht
  obtain ⟨u, howner, hu⟩ := hb.owner t₀ ht₀
  obtain ⟨m, hm, rfl⟩ := h.exists_mapping hu
  exact ⟨t₀, ht₀, m, hm, howner, assigned_of_mapped howner (Table.find?_key r.map hm)⟩

theorem invalidTask_assign {w u : Id} {migratedAt : Timestamp} {t : TaskRow}
    (howner : t.ownerId = some u) : (invalidTask (assign w u migratedAt t)).holds = false := by
  refine holds_anyOf_eq_false.mpr ?_
  simp only [assign, howner, List.forall_mem_cons, holds_isNull, holds_isNotNull, holds_and,
    Option.isNone_some, Option.isSome_none, holds_ne_self, true_and]
  cases t.completed with
  | none => exact ⟨rfl, rfl, List.forall_mem_nil _⟩
  | some completed =>
      cases completed with
      | _ => exact ⟨rfl, rfl, List.forall_mem_nil _⟩

theorem Complete.mappedTaskCount (h : Complete b r) (hb : Legacy b) :
    (join inOwnersWorkspace r.tasks.rows r.map.rows).length = r.tasks.rows.length := by
  refine mappedTaskCount_iff.mpr fun t ht => ?_
  obtain ⟨t₀, _, m, hm, howner, rfl⟩ := h.task hb ht
  exact ⟨m, hm, howner, rfl⟩

theorem Complete.workspacesOf_baseline (h : Complete b r) (hb : Legacy b) :
    workspacesOf r (b.workspaces.rows.map Workspace.id) = b.workspaces.rows := by
  have hsame : workspacesOf r (b.workspaces.rows.map Workspace.id) =
      workspacesOf b (b.workspaces.rows.map Workspace.id) := by
    refine Table.filter_congr fun row hrow => ?_
    obtain ⟨row₀, hrow₀, hid⟩ := List.mem_map.mp (decide_eq_true_eq.mp hrow)
    have hfind : b.workspace? row.id = some row₀ := by
      rw [← hid]
      exact Table.find?_key b.workspaces hrow₀
    have hkept := h.workspaces row.id (h.kept hb (by rw [hfind]; rfl))
    constructor
    · intro hmem
      exact Table.mem_of_find? (hkept.symm.trans (Table.find?_key r.workspaces hmem))
    · intro hmem
      exact Table.mem_of_find? (hkept.trans (Table.find?_key b.workspaces hmem))
  rw [hsame]
  exact List.filter_eq_self.mpr fun row hrow => decide_eq_true (List.mem_map_of_mem hrow)

theorem Complete.membershipsOf_baseline (h : Complete b r) (hb : Legacy b) :
    membershipsOf r (b.workspaces.rows.map Workspace.id) =
      membershipsOf b (b.workspaces.rows.map Workspace.id) := by
  refine Table.filter_congr fun x hx => ?_
  obtain ⟨row, hrow, hid⟩ := List.mem_map.mp (decide_eq_true_eq.mp hx)
  have hsome : (b.workspace? x.workspaceId).isSome = true := by
    rw [← hid]
    have hfind : b.workspace? row.id = some row := Table.find?_key b.workspaces hrow
    rw [hfind]
    rfl
  have hkept := h.members x.workspaceId (h.kept hb hsome) x.userId
  constructor
  · intro hmem
    exact Table.mem_of_find? (hkept.symm.trans (Table.find?_key r.members hmem))
  · intro hmem
    exact Table.mem_of_find? (hkept.trans (Table.find?_key b.members hmem))

/-- The validations of the upgrade pass. -/
theorem Complete.validateUpgrade (h : Complete b r) (hb : Legacy b) :
    validateUpgrade b.workspaces.rows
      (membershipsOf b (b.workspaces.rows.map Workspace.id)) r = .ok () := by
  unfold Backfill.validateUpgrade
  refine abortWhen_bind.mpr ⟨not_not.mpr h.mappingCounts.1, ?_⟩
  refine abortWhen_bind.mpr ⟨not_not.mpr h.mappingCounts.2, ?_⟩
  refine abortWhen_bind.mpr ⟨not_not.mpr h.mappedWorkspaceCount, ?_⟩
  refine abortWhen_bind.mpr ⟨?_, ?_⟩
  · rintro (hne | hne)
    · exact hne h.matchingOwnerCount
    · exact hne h.allMappedMembershipCount
  refine bind_eq_ok.mpr ⟨(), forM_eq_ok.mpr fun m hm => abortWhen_eq_ok.mpr ?_, ?_⟩
  · obtain ⟨hcount, hmax⟩ := h.ownerTasks m.userId
    have hgenerated := (h.mapping m hm).2
    rintro (hne | hne)
    · exact hne (hcount.trans hgenerated.count.symm)
    · exact hne (hmax.trans hgenerated.maxId.symm)
  refine abortWhen_bind.mpr ⟨not_not.mpr (count_eq_zero.mpr fun t ht => ?_), ?_⟩
  · obtain ⟨t₀, _, m, _, howner, rfl⟩ := h.task hb ht
    exact invalidTask_assign howner
  refine abortWhen_bind.mpr ⟨not_not.mpr (h.mappedTaskCount hb), ?_⟩
  refine abortWhen_bind.mpr ⟨not_not.mpr (h.workspacesOf_baseline hb), ?_⟩
  exact abortWhen_eq_ok.mpr (not_not.mpr (h.membershipsOf_baseline hb))

end Validation

/-- The upgrade of a baseline goes through. -/
theorem upgrade_eq_ok {s : Store} (hb : Legacy s.rows)
    (hschema : Compatibility.Compatible s.schema) (migrationTime : Timestamp) :
    ∃ r, upgrade migrationTime s = .ok ⟨s.schema, r⟩ ∧ Complete s.rows r := by
  have hloop := foldlM_ok (f := backfillUser migrationTime) (l := s.rows.users.rows) (b := s)
    (fun done s' => s'.schema = s.schema ∧ Backfilled s.rows s'.rows done)
    (fun done user rest hl s' hs' => ?_) ⟨rfl, backfilled_nil hb⟩
  · obtain ⟨s', hrun, hsame, hcomplete⟩ := hloop
    refine ⟨s'.rows, ?_, hcomplete⟩
    unfold upgrade
    refine abortWhen_bind.mpr ⟨?_, ?_⟩
    · rw [hb.map]
      exact not_not.mpr rfl
    refine bind_eq_ok.mpr ⟨s', hrun, ?_⟩
    refine bind_eq_ok.mpr ⟨(), Complete.validateUpgrade hcomplete hb, ?_⟩
    rw [← hsame]
    rfl
  · obtain ⟨hsame, hdone⟩ := hs'
    have huser : user ∈ s.rows.users.rows := by
      rw [hl]
      exact List.mem_append_right done List.mem_cons_self
    have hnew : ∀ u ∈ done, u.id ≠ user.id := by
      intro u hu hid
      have hnodup := s.rows.users.nodup_rows
      rw [hl] at hnodup
      have hmem : u ∈ s.rows.users.rows := by
        rw [hl]
        exact List.mem_append_left _ hu
      have heq := s.rows.users.eq_of_key_eq hmem huser hid
      exact (List.nodup_append.mp hnodup).2.2 u hu user List.mem_cons_self heq
    refine ⟨_, backfillUser_eq_ok hdone hb (hsame ▸ hschema) migrationTime huser hnew, hsame, ?_⟩
    exact hdone.generate migrationTime hb huser hnew

end Backfill
end Migration
end TaskPlatform
