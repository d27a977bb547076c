import TaskPlatform.Integrity.Consistent
import TaskPlatform.Relational.Listing
import TaskPlatform.Serial.Rules

/-!
# Three views of the memberships

The workspaces of a user, his access to one of them, and the members of a workspace are
three joins with counts of their own.  In every reachable state they agree.
-/

namespace TaskPlatform

open Transaction Service Database Relational

namespace Database

/-! ## The rows of the listings -/

def membershipsOfUser (d : Database) (u : Id) : List WorkspaceMember :=
  d.members.rows.filter fun m => m.userId = u

def membershipsOfWorkspace (d : Database) (w : Id) : List WorkspaceMember :=
  d.members.rows.filter fun m => m.workspaceId = w

/-- The join of `list_workspaces`. -/
def workspaceRows (d : Database) (u : Id) : List (Workspace × MemberRole) :=
  (d.membershipsOfUser u).filterMap fun m =>
    (d.workspace? m.workspaceId).map fun w => (w, m.role)

/-- The join of `list_members`. -/
def memberRows (d : Database) (w : Id) : List (WorkspaceMember × String) :=
  (d.membershipsOfWorkspace w).filterMap fun m =>
    (d.user? m.userId).map fun u => (m, u.username)

/-- The workspaces of a user before they are cut into pages. -/
def workspaceListing (d : Database) (u : Id) : List (Workspace × MemberRole) :=
  (d.workspaceRows u).insertionSort fun a b => b.1.id ≤ a.1.id

/-- The members of a workspace before they are cut into pages. -/
def memberListing (d : Database) (w : Id) : List (WorkspaceMember × String) :=
  (d.memberRows w).insertionSort fun a b => memberBefore a b

theorem member?_of_mem {d : Database} {m : WorkspaceMember} (hm : m ∈ d.members.rows) :
    d.member? m.workspaceId m.userId = some m := Table.find?_key d.members hm

section Rows

variable {d : Database} (hd : Consistent d)

include hd

/-- Every membership has its workspace. -/
theorem Consistent.workspace_of_mem {m : WorkspaceMember} (hm : m ∈ d.members.rows) :
    (d.workspace? m.workspaceId).isSome :=
  (hd.member m.workspaceId m.userId m (member?_of_mem hm)).1

theorem Consistent.user_of_mem {m : WorkspaceMember} (hm : m ∈ d.members.rows) :
    (d.user? m.userId).isSome :=
  (hd.member m.workspaceId m.userId m (member?_of_mem hm)).2

/-- The join of `list_workspaces` loses no membership. -/
theorem Consistent.ids_workspaceRows (u : Id) :
    (d.workspaceRows u).map (fun row => row.1.id) =
      (d.membershipsOfUser u).map (·.workspaceId) := by
  apply map_filterMap_of_some
  intro m hm
  obtain ⟨w, hw⟩ := Option.isSome_iff_exists.mp (hd.workspace_of_mem (List.mem_filter.mp hm).1)
  rw [hw]
  exact congrArg some (id_of_workspace? hw)

/-- The join of `list_members` loses no membership. -/
theorem Consistent.fst_memberRows (w : Id) :
    (d.memberRows w).map Prod.fst = d.membershipsOfWorkspace w := by
  have hmap : (d.memberRows w).map Prod.fst = (d.membershipsOfWorkspace w).map id := by
    apply map_filterMap_of_some
    intro m hm
    obtain ⟨u, hu⟩ := Option.isSome_iff_exists.mp (hd.user_of_mem (List.mem_filter.mp hm).1)
    rw [hu]
    rfl
  rw [hmap, List.map_id]

end Rows

/-- Within a user's memberships the workspaces are distinct. -/
theorem nodup_membershipsOfUser (d : Database) (u : Id) :
    ((d.membershipsOfUser u).map (·.workspaceId)).Nodup := by
  have hkeys : ((d.membershipsOfUser u).map Keyed.key).Nodup :=
    d.members.nodup_keys.sublist (List.filter_sublist.map Keyed.key)
  refine nodup_of_keys (fun w => memberKey w u) hkeys fun m hm => ?_
  rw [key_member, of_decide_eq_true (List.mem_filter.mp hm).2]

theorem nodup_membershipsOfWorkspace (d : Database) (w : Id) :
    ((d.membershipsOfWorkspace w).map (·.userId)).Nodup := by
  have hkeys : ((d.membershipsOfWorkspace w).map Keyed.key).Nodup :=
    d.members.nodup_keys.sublist (List.filter_sublist.map Keyed.key)
  refine nodup_of_keys (fun u => memberKey w u) hkeys fun m hm => ?_
  rw [key_member, of_decide_eq_true (List.mem_filter.mp hm).2]

/-! ## Their order -/

section Order

variable {d : Database}

theorem Consistent.inOrder_workspaceListing (hd : Consistent d) (u : Id) :
    InOrder (fun row => OrderDual.toDual row.1.id) (d.workspaceListing u) := by
  refine inOrder_insertionSort (fun a b => OrderDual.toDual_le_toDual.symm) ?_
  have hids := d.nodup_membershipsOfUser u
  rw [← hd.ids_workspaceRows] at hids
  exact hids

theorem Consistent.nodup_memberListing (hd : Consistent d) (w : Id) :
    ((d.memberListing w).map fun row => row.1.userId).Nodup := by
  have hids := d.nodup_membershipsOfWorkspace w
  rw [← hd.fst_memberRows, List.map_map] at hids
  exact ((List.perm_insertionSort _ (d.memberRows w)).map _).nodup_iff.mpr hids

theorem Consistent.countMemberships_eq (hd : Consistent d) (u : Id) :
    d.countMemberships u = (d.workspaceListing u).length := by
  have hlen := congrArg List.length (hd.ids_workspaceRows u)
  rw [List.length_map, List.length_map] at hlen
  rw [workspaceListing, List.length_insertionSort, hlen]
  rfl

theorem Consistent.countMembers_eq (hd : Consistent d) (w : Id) :
    d.countMembers w = (d.memberListing w).length := by
  have hlen := congrArg List.length (hd.fst_memberRows w)
  rw [List.length_map] at hlen
  rw [memberListing, List.length_insertionSort, hlen]
  rfl

end Order

/-! ## Who is listed -/

section Listed

variable {d : Database}

theorem mem_workspaceListing {u : Id} {row : Workspace × MemberRole} :
    row ∈ d.workspaceListing u ↔
      d.workspace? row.1.id = some row.1 ∧ d.roleOf row.1.id u = some row.2 := by
  rw [workspaceListing, List.mem_insertionSort]
  constructor
  · intro h
    obtain ⟨m, hm, hjoin⟩ := List.mem_filterMap.mp h
    obtain ⟨w, hw, rfl⟩ := Option.map_eq_some_iff.mp hjoin
    have hid : w.id = m.workspaceId := id_of_workspace? hw
    have hrow := member?_of_mem (List.mem_filter.mp hm).1
    rw [of_decide_eq_true (List.mem_filter.mp hm).2] at hrow
    show d.workspace? w.id = some w ∧ d.roleOf w.id u = some m.role
    rw [hid, roleOf, hrow]
    exact ⟨hw, rfl⟩
  · rintro ⟨hw, hrole⟩
    obtain ⟨m, hm, hmrole⟩ := Option.map_eq_some_iff.mp hrole
    obtain ⟨hmw, hmu⟩ := key_of_member? hm
    refine List.mem_filterMap.mpr ⟨m, ?_, ?_⟩
    · exact List.mem_filter.mpr ⟨Table.mem_of_find? hm, decide_eq_true hmu⟩
    · rw [hmw, hw, Option.map_some, hmrole]

theorem mem_memberListing {w : Id} {row : WorkspaceMember × String} :
    row ∈ d.memberListing w ↔
      d.member? w row.1.userId = some row.1 ∧
        ∃ user, d.user? row.1.userId = some user ∧ user.username = row.2 := by
  rw [memberListing, List.mem_insertionSort]
  constructor
  · intro h
    obtain ⟨m, hm, hjoin⟩ := List.mem_filterMap.mp h
    obtain ⟨user, huser, rfl⟩ := Option.map_eq_some_iff.mp hjoin
    have hrow := member?_of_mem (List.mem_filter.mp hm).1
    rw [of_decide_eq_true (List.mem_filter.mp hm).2] at hrow
    exact ⟨hrow, user, huser, rfl⟩
  · rintro ⟨hrow, user, huser, hname⟩
    refine List.mem_filterMap.mpr ⟨row.1, ?_, ?_⟩
    · refine List.mem_filter.mpr ⟨Table.mem_of_find? hrow, decide_eq_true ?_⟩
      exact (key_of_member? hrow).1
    · rw [huser, Option.map_some, hname]

/-- A workspace is listed for a user with the role he has in it. -/
theorem Consistent.workspace_listed_iff (hd : Consistent d) {w u : Id} {role : MemberRole} :
    (∃ x ∈ (d.workspaceListing u).map fun row => workspaceData row.1 row.2,
      x.id = w ∧ x.currentRole = role) ↔ d.roleOf w u = some role := by
  constructor
  · rintro ⟨x, hx, rfl, rfl⟩
    obtain ⟨row, hrow, rfl⟩ := List.mem_map.mp hx
    exact (mem_workspaceListing.mp hrow).2
  · intro hrole
    obtain ⟨m, hm, hmrole⟩ := Option.map_eq_some_iff.mp hrole
    have hsome := hd.workspace_of_mem (Table.mem_of_find? hm)
    rw [(key_of_member? hm).1] at hsome
    obtain ⟨workspace, hw⟩ := Option.isSome_iff_exists.mp hsome
    have hid : workspace.id = w := id_of_workspace? hw
    refine ⟨_, List.mem_map.mpr ⟨(workspace, role), ?_, rfl⟩, hid, rfl⟩
    rw [← hid] at hw hrole
    exact mem_workspaceListing.mpr ⟨hw, hrole⟩

/-- A user is listed in a workspace with the role he has in it. -/
theorem Consistent.member_listed_iff (hd : Consistent d) {w u : Id} {role : MemberRole} :
    (∃ x ∈ (d.memberListing w).map fun row => memberData row.1 row.2,
      x.userId = u ∧ x.role = role) ↔ d.roleOf w u = some role := by
  constructor
  · rintro ⟨x, hx, rfl, rfl⟩
    obtain ⟨row, hrow, rfl⟩ := List.mem_map.mp hx
    show (d.member? w row.1.userId).map (·.role) = some row.1.role
    rw [(mem_memberListing.mp hrow).1]
    rfl
  · intro hrole
    obtain ⟨m, hm, rfl⟩ := Option.map_eq_some_iff.mp hrole
    obtain ⟨_, rfl⟩ := key_of_member? hm
    obtain ⟨user, huser⟩ := Option.isSome_iff_exists.mp (hd.user_of_mem (Table.mem_of_find? hm))
    refine ⟨_, List.mem_map.mpr ⟨(m, user.username), ?_, rfl⟩, rfl, rfl⟩
    exact mem_memberListing.mpr ⟨hm, user, huser, rfl⟩

end Listed

end Database

/-! ## Reading the views -/

/-- `get_workspace_access`, with the role it has found. -/
def workspaceSeenBy (user : User) (w : Id) : Service WorkspaceResponse := do
  let access ← getWorkspaceAccess w user
  getWorkspaceData access

/-- A page of `list_members` for a user who has access to the workspace. -/
def membersSeenBy (user : User) (w : Id) (page : PageQuery) :
    Service (Page WorkspaceMemberResponse) := do
  let access ← getWorkspaceAccess w user
  listMembers access page

/-- Page `k` of the same size. -/
def PageQuery.atPage (page : PageQuery) (k : Nat) : PageQuery :=
  { page with offset := k * page.limit }

section Views

variable [Collation] {α : Type}

/-- A service that runs alone while the server does not fail ends in `r` and changes
nothing. -/
def Returns (x : Service α) (d : Database) (r : Except Exc α) : Prop :=
  ∀ env : Nat → Env, (∀ n, (env n).fault = none) →
    (Session.machine.run env x.run 0 {} d).value = r ∧
      (Session.machine.run env x.run 0 {} d).shared = d

/-- The pages of a listing, read until one is empty, are `items`, and each of them has the
number of `items` as its total. -/
def ReadsOff (read : Nat → Service (Page α)) (d : Database) (items : List α) : Prop :=
  ∃ (pages : Nat → Page α) (n : Nat), (∀ k, Returns (read k) d (.ok (pages k))) ∧
    (∀ k, (pages k).total = items.length) ∧ Paged (fun k => (pages k).items) n items

variable {d : Database} {x : Service α}

theorem returns_ok {a : α}
    (h : Ends (fun env => env.fault = none) x (fun a' _ d' => a' = a ∧ d' = d)
      (fun _ _ => False) {} d) : Returns x d (.ok a) := by
  intro env henv
  obtain ⟨hok, herror⟩ := run_of_ends h henv
  cases hvalue : (Session.machine.run env x.run 0 {} d).value with
  | ok a' =>
      obtain ⟨_, rfl, hd⟩ := hok a' hvalue
      exact ⟨rfl, hd⟩
  | error e => exact (herror e hvalue).elim

theorem Returns.unique {r r' : Except Exc α} (h : Returns x d r) (h' : Returns x d r') : r = r' :=
  (h (fun _ => {}) fun _ => rfl).1.symm.trans (h' (fun _ => {}) fun _ => rfl).1

/-- The access of a member of the workspace is granted. -/
theorem ends_access (hd : Consistent d) {user : User} {w : Id} {m : WorkspaceMember}
    (hm : d.member? w user.id = some m) {Q : WorkspaceAccess → Session → Database → Prop}
    (hQ : ∀ access l', access.currentUser = user → Opened d w access m l' → Q access l' d) :
    Ends (fun env => env.fault = none) (getWorkspaceAccess w user) Q (fun _ _ => False) {} d := by
  have hE := serverFails_of_faultless (fun _ _ => False) d
  have hsome := hd.workspace_of_mem (Table.mem_of_find? hm)
  rw [(key_of_member? hm).1] at hsome
  obtain ⟨workspace, hworkspace⟩ := Option.isSome_iff_exists.mp hsome
  refine ends_getWorkspaceAccess (Session.mirrors_nil d) hE (fun hnone => ?_)
    fun access m' l' huser h => ?_
  · rw [workspaceAccess?_eq_some.mpr ⟨hworkspace, hm⟩] at hnone
    cases hnone
  · have hmember := h.member
    rw [huser] at hmember
    cases hmember.symm.trans hm
    exact hQ access l' huser h

theorem returns_workspaceSeenBy (hd : Consistent d) {user : User} {w : Id} {m : WorkspaceMember}
    (hm : d.member? w user.id = some m) :
    ∃ workspace, workspace.id = w ∧
      Returns (workspaceSeenBy user w) d (.ok (workspaceData workspace m.role)) := by
  have hsome := hd.workspace_of_mem (Table.mem_of_find? hm)
  rw [(key_of_member? hm).1] at hsome
  obtain ⟨workspace, hworkspace⟩ := Option.isSome_iff_exists.mp hsome
  refine ⟨workspace, id_of_workspace? hworkspace, returns_ok (ends_bind ?_)⟩
  refine ends_access hd hm fun access l' _ h => ends_bind ?_
  refine ends_membershipRole h (ends_pure ⟨?_, rfl⟩)
  rw [Option.some.inj (h.workspace.symm.trans hworkspace)]

/-- A user who is no member gets no access. -/
theorem returns_workspaceSeenBy_none {user : User} {w : Id} (hm : d.member? w user.id = none) :
    Returns (workspaceSeenBy user w) d (.error (.app workspaceNotFoundError)) := by
  intro env henv
  have hE := serverFails_of_faultless (fun e d' => e = .app workspaceNotFoundError ∧ d' = d) d
  have hends : Ends (fun env => env.fault = none) (workspaceSeenBy user w) (fun _ _ _ => False)
      (fun e d' => e = .app workspaceNotFoundError ∧ d' = d) {} d := by
    refine ends_bind (ends_getWorkspaceAccess (Session.mirrors_nil d) hE (fun _ => ⟨rfl, rfl⟩)
      fun access m l' huser h => ?_)
    have hmember := h.member
    rw [huser, hm] at hmember
    cases hmember
  obtain ⟨hok, herror⟩ := run_of_ends hends henv
  cases hvalue : (Session.machine.run env (workspaceSeenBy user w).run 0 {} d).value with
  | ok a =>
      obtain ⟨_, hfalse⟩ := hok a hvalue
      exact hfalse.elim
  | error e =>
      obtain ⟨rfl, hd⟩ := herror e hvalue
      exact ⟨rfl, hd⟩

/-- Access is granted with the role a user has. -/
theorem access_iff (hd : Consistent d) {user : User} {w : Id} {role : MemberRole} :
    (∃ x, Returns (workspaceSeenBy user w) d (.ok x) ∧ x.id = w ∧ x.currentRole = role) ↔
      d.roleOf w user.id = some role := by
  cases hm : d.member? w user.id with
  | none =>
      rw [roleOf, hm]
      constructor
      · rintro ⟨x, hx, _⟩
        cases hx.unique (returns_workspaceSeenBy_none hm)
      · intro hrole
        cases hrole
  | some m =>
      obtain ⟨workspace, hid, hreturns⟩ := returns_workspaceSeenBy hd hm
      rw [roleOf, hm, Option.map_some, Option.some.injEq]
      constructor
      · rintro ⟨x, hx, _, rfl⟩
        cases hx.unique hreturns
        rfl
      · rintro rfl
        exact ⟨_, hreturns, hid, rfl⟩

theorem readsOff_workspaces (hd : Consistent d) (user : User) (page : PageQuery) :
    ReadsOff (fun k => listWorkspaces user (page.atPage k)) d
      ((d.workspaceListing user.id).map fun row => workspaceData row.1 row.2) := by
  have hE := serverFails_of_faultless (fun _ _ => False) d
  have hmirror := Session.mirrors_nil d
  refine ⟨fun k => ⟨(d.selectWorkspaces user.id page.limit (k * page.limit)).map fun row =>
    workspaceData row.1 row.2, d.countMemberships user.id, page.limit, k * page.limit⟩, _,
    fun k => returns_ok ?_, fun k => ?_,
    (paged_take_drop page.limit_range.1 (d.workspaceListing user.id)).map _⟩
  · apply ends_bind
    apply ends_select hmirror hE
    apply ends_bind
    apply ends_select hmirror.openView hE
    exact ends_pure ⟨rfl, rfl⟩
  · rw [List.length_map]
    exact hd.countMemberships_eq user.id

theorem readsOff_members (hd : Consistent d) {viewer : User} {w : Id} {m : WorkspaceMember}
    (hm : d.member? w viewer.id = some m) (page : PageQuery) :
    ReadsOff (fun k => membersSeenBy viewer w (page.atPage k)) d
      ((d.memberListing w).map fun row => memberData row.1 row.2) := by
  have hE := serverFails_of_faultless (fun _ _ => False) d
  refine ⟨fun k => ⟨(d.selectMembers w page.limit (k * page.limit)).map fun row =>
    memberData row.1 row.2, d.countMembers w, page.limit, k * page.limit⟩, _,
    fun k => returns_ok (ends_bind ?_), fun k => ?_,
    (paged_take_drop page.limit_range.1 (d.memberListing w)).map _⟩
  · refine ends_access hd hm fun access l' _ h => ?_
    rw [listMembers, h.id]
    apply ends_bind
    apply ends_select h.mirror hE
    apply ends_bind
    apply ends_select h.mirror.openView hE
    exact ends_pure ⟨rfl, rfl⟩
  · rw [List.length_map]
    exact hd.countMembers_eq w

end Views

section Agreement

variable [Collation] {d₀ : Database}
  {σ : System Request Call Call.Res Response Session Database}

/-- In every reachable state the workspaces of a user, his access to a workspace and the
members of that workspace, as any member sees them, show the same memberships with the
same roles, for all page sizes. -/
theorem membership_views_agree (hd : Consistent d₀) (hr : Reaches d₀ σ) (user : User) (w : Id)
    (page : PageQuery) :
    ∃ workspaces, ReadsOff (fun k => listWorkspaces user (page.atPage k)) σ.shared workspaces ∧
      workspaces.Pairwise (fun a b => b.id < a.id) ∧
      (∀ role, (∃ x ∈ workspaces, x.id = w ∧ x.currentRole = role) ↔
        ∃ x, Returns (workspaceSeenBy user w) σ.shared (.ok x) ∧ x.id = w ∧
          x.currentRole = role) ∧
      ∀ viewer : User, (σ.shared.member? w viewer.id).isSome → ∀ page' : PageQuery,
        ∃ members, ReadsOff (fun k => membersSeenBy viewer w (page'.atPage k)) σ.shared members ∧
          (members.map (·.userId)).Nodup ∧
          ∀ role, (∃ x ∈ members, x.userId = user.id ∧ x.role = role) ↔
            ∃ x, Returns (workspaceSeenBy user w) σ.shared (.ok x) ∧ x.id = w ∧
              x.currentRole = role := by
  have hrows : Consistent σ.shared := (consistent_of_reaches hd hr).rows
  refine ⟨_, readsOff_workspaces hrows user page, ?_, fun role => ?_,
    fun viewer hviewer page' => ?_⟩
  · exact List.pairwise_map.mpr (hrows.inOrder_workspaceListing user.id)
  · rw [hrows.workspace_listed_iff, access_iff hrows]
  · obtain ⟨m, hm⟩ := Option.isSome_iff_exists.mp hviewer
    refine ⟨_, readsOff_members hrows hm page', ?_, fun role => ?_⟩
    · rw [List.map_map]
      exact hrows.nodup_memberListing w
    · rw [hrows.member_listed_iff, access_iff hrows]

end Agreement

/-- The MEMBER of the sample workspace, as his own list and its owner see him. -/
theorem membership_views_agree_sample :
    let _ := sampleCollation
    let member : User := ⟨2, "member", "h2"⟩
    ∃ workspaces, ReadsOff (fun k => listWorkspaces member (PageQuery.atPage ⟨1, 0, by decide⟩ k))
        sampleDatabase workspaces ∧
      workspaces.Pairwise (fun a b => b.id < a.id) ∧
      ∃ members, ReadsOff
          (fun k => membersSeenBy ⟨1, "owner", "h1"⟩ 1 (PageQuery.atPage ⟨1, 0, by decide⟩ k))
          sampleDatabase members ∧ (members.map (·.userId)).Nodup := by
  intro collation member
  have hstart : Reaches sampleDatabase (System.start sampleDatabase) := .start
  obtain ⟨workspaces, hread, horder, _, hmembers⟩ :=
    membership_views_agree consistent_sampleDatabase hstart member 1 ⟨1, 0, by decide⟩
  obtain ⟨members, hread', hnodup, _⟩ :=
    hmembers ⟨1, "owner", "h1"⟩ (by decide +kernel) ⟨1, 0, by decide⟩
  exact ⟨workspaces, hread, horder, members, hread', hnodup⟩

end TaskPlatform
