import TaskPlatform.Concurrency.Assignment
import TaskPlatform.Concurrency.Ownership

/-!
# References and founders

Every interleaving keeps the foreign keys of the application, and it keeps the
OWNER memberships and the creators of the workspaces that are there at its start:
nobody is removed or demoted who is OWNER.
-/

namespace TaskPlatform

open Transaction Database

/-- The rows a row refers to exist. -/
structure Referenced (d : Database) : Prop where
  workspace : ∀ w row, d.workspace? w = some row → (d.user? row.createdById).isSome
  member : ∀ w u, (d.member? w u).isSome → (d.workspace? w).isSome ∧ (d.user? u).isSome
  task : ∀ t row, d.task? t = some row → (d.workspace? row.workspaceId).isSome ∧
    (d.user? row.creatorId).isSome ∧ ∀ a ∈ row.assigneeId, (d.user? a).isSome

/-- Some users are the creators and OWNERs of some workspaces. -/
def Founded (founders : Id → Id → Prop) (d : Database) : Prop :=
  ∀ w u, founders w u → d.roleOf w u = some .owner ∧
    ∃ row, d.workspace? w = some row ∧ row.createdById = u

section Rows

variable {d d' : Database}

theorem Referenced.congr (h : Referenced d) (hsame : SameRows d d') : Referenced d' where
  workspace := by
    intro w row hrow
    rw [← hsame.user?]
    exact h.workspace w row ((hsame.workspace? w).trans hrow)
  member := by
    intro w u hu
    rw [← hsame.user?, ← hsame.workspace?]
    rw [← hsame.member?] at hu
    exact h.member w u hu
  task := by
    intro t row hrow
    rw [← hsame.workspace?, ← hsame.user?]
    obtain ⟨hw, hc, ha⟩ := h.task t row ((hsame.task? t).trans hrow)
    exact ⟨hw, hc, fun a hmem => by rw [← hsame.user?]; exact ha a hmem⟩

theorem Referenced.putUser (h : Referenced d) {u : User} (hfree : d.user? u.id = none) :
    Referenced (d.apply (.putUser u)) := by
  have hp : Persists d (d.apply (.putUser u)) := persists_apply hfree
  refine ⟨fun w row hrow => hp.user_isSome (h.workspace w row hrow), fun w v hv => ?_,
    fun t row hrow => ?_⟩
  · obtain ⟨hw, huser⟩ := h.member w v hv
    exact ⟨hw, hp.user_isSome huser⟩
  · obtain ⟨hw, hc, ha⟩ := h.task t row hrow
    exact ⟨hw, hp.user_isSome hc, fun a hmem => hp.user_isSome (ha a hmem)⟩

theorem Referenced.putWorkspace (h : Referenced d) {ws : Workspace}
    (hfree : d.workspace? ws.id = none) (huser : (d.user? ws.createdById).isSome) :
    Referenced (d.apply (.putWorkspace ws)) := by
  have hp : Persists d (d.apply (.putWorkspace ws)) := persists_apply hfree
  refine ⟨fun w row hrow => ?_, fun w u hu => ?_, fun t row hrow => ?_⟩
  · rw [workspace?_putWorkspace] at hrow
    split_ifs at hrow
    · cases hrow
      exact huser
    · exact h.workspace w row hrow
  · obtain ⟨hw, hu⟩ := h.member w u hu
    exact ⟨hp.workspace_isSome hw, hu⟩
  · obtain ⟨hw, hc, ha⟩ := h.task t row hrow
    exact ⟨hp.workspace_isSome hw, hc, ha⟩

theorem Referenced.putMember (h : Referenced d) {m : WorkspaceMember}
    (hw : (d.workspace? m.workspaceId).isSome) (hu : (d.user? m.userId).isSome) :
    Referenced (d.apply (.putMember m)) := by
  refine ⟨h.workspace, fun w u hmember => ?_, h.task⟩
  rw [member?_putMember] at hmember
  split_ifs at hmember with heq
  · rw [heq.1, heq.2]
    exact ⟨hw, hu⟩
  · exact h.member w u hmember

theorem Referenced.deleteMember (h : Referenced d) (w u : Id) :
    Referenced (d.apply (.deleteMember w u)) := by
  refine ⟨h.workspace, fun w' u' hmember => ?_, h.task⟩
  rw [member?_deleteMember] at hmember
  split_ifs at hmember
  · cases hmember
  · exact h.member w' u' hmember

theorem Referenced.putTask (h : Referenced d) {row : Task}
    (hw : (d.workspace? row.workspaceId).isSome) (hc : (d.user? row.creatorId).isSome)
    (ha : ∀ a ∈ row.assigneeId, (d.user? a).isSome) : Referenced (d.apply (.putTask row)) := by
  refine ⟨h.workspace, h.member, fun t old hold => ?_⟩
  rw [task?_putTask] at hold
  split_ifs at hold
  · cases hold
    exact ⟨hw, hc, ha⟩
  · exact h.task t old hold

theorem Referenced.deleteTask (h : Referenced d) (t : Id) :
    Referenced (d.apply (.deleteTask t)) := by
  refine ⟨h.workspace, h.member, fun t' row hrow => ?_⟩
  rw [task?_deleteTask] at hrow
  split_ifs at hrow
  exact h.task t' row hrow

theorem Referenced.cleared (h : Referenced d) {updatedAt : Timestamp} {cleared : List Task}
    (hcleared : ∀ t ∈ cleared, d.task? t.id = some t) :
    Referenced (d.applyAll (cleared.map (clearWrite updatedAt))) := by
  have hrefs : ∀ t ∈ cleared, (d.workspace? t.workspaceId).isSome ∧ (d.user? t.creatorId).isSome :=
    fun t ht => ⟨(h.task t.id t (hcleared t ht)).1, (h.task t.id t (hcleared t ht)).2.1⟩
  clear hcleared
  induction cleared generalizing d with
  | nil => exact h
  | cons t rest ih =>
      have ht := hrefs t List.mem_cons_self
      have hput : Referenced (d.apply
          (.putTask { t with assigneeId := none, updatedAt := updatedAt })) :=
        h.putTask ht.1 ht.2 nofun
      refine ih hput fun t' ht' => ?_
      exact hrefs t' (List.mem_cons_of_mem t ht')

end Rows

section Commit

variable [Collation] {rely : RowKey → Database → Database → Prop} {held : RowKey → Prop}
  {request : Request} {ws : List Write} {d snap : Database} {founders : Id → Id → Prop}

theorem referenced_commit (hd : Referenced d) (h : Commits rely snap held d request ws) :
    Referenced (d.applyAll ws) := by
  cases h with
  | createUser hfree => exact hd.putUser hfree
  | @createWorkspace _ _ user workspace m _ huser hfree hcreator hm =>
      rw [← hcreator] at huser
      have hworkspace := hd.putWorkspace hfree huser
      refine hworkspace.putMember ?_ ?_
      · rw [workspace?_putWorkspace, if_pos hm.1]
        rfl
      · rw [hm.2.1, ← hcreator]
        exact huser
  | addMember _ _ hm _ hworkspace huser =>
      rw [← hm.1] at hworkspace
      exact hd.putMember hworkspace huser
  | @updateMemberRole _ w u body _ _ _ row now _ _ _ _ hrow =>
      obtain ⟨hw, hu⟩ := key_of_member? hrow
      have href := hd.member w u (by rw [hrow]; rfl)
      rw [← hw, ← hu] at href
      exact hd.putMember (m := { row with role := body.role.1, updatedAt := now }) href.1 href.2
  | removeMember _ _ _ _ hcleared _ =>
      rw [applyAll_append]
      exact (hd.cleared fun t ht => (hcleared t ht).1).deleteMember _ _
  | createTask _ _ hrow hworkspace huser =>
      rw [← hrow.1] at hworkspace
      rw [← hrow.2.1] at huser
      refine hd.putTask hworkspace huser fun a ha => ?_
      rw [hrow.2.2.1] at ha
      cases ha
  | @updateTask _ _ _ body _ _ old row now _ _ _ hrow =>
      obtain ⟨hw, hc, ha⟩ := hd.task _ _ hrow
      refine hd.putTask hw hc fun a hmem => ha a ?_
      exact (body.assigneeId_patch old row).symm.trans hmem
  | updateTaskStatus _ _ hrow _ =>
      obtain ⟨hw, hc, ha⟩ := hd.task _ _ (taskIn?_eq_some.mp hrow).1
      exact hd.putTask hw hc ha
  | updateTaskAssignee _ hm hlocked hrow hdecide =>
      obtain ⟨hw, hc, _⟩ := hd.task _ _ (taskIn?_eq_some.mp hrow).1
      refine hd.putTask hw hc fun a ha => ?_
      exact (hd.member _ a (assignee_locked hm hlocked hdecide a ha).1).2
  | deleteTask _ _ _ _ => exact hd.deleteTask _

/-- Founders stay OWNERs: a role update would have seen the OWNER in its snapshot, and
a removal sees him in the row it has locked. -/
theorem founded_commit (hd : Founded founders d) (hsnap : Founded founders snap)
    (h : Commits rely snap held d request ws) : Founded founders (d.applyAll ws) := by
  intro w u hfounder
  obtain ⟨hrole, row, hrow, hcreator⟩ := hd w u hfounder
  refine ⟨?_, row, (persists_applyAll h.freshAll).workspace w row hrow, hcreator⟩
  cases h with
  | createUser _ => exact hrole
  | @createWorkspace _ _ _ workspace m _ _ hfree _ hm =>
      refine (roleOf_putMember (d.apply (.putWorkspace workspace)) m w u).trans ?_
      rw [if_neg]
      · exact hrole
      · rintro ⟨hw, _⟩
        rw [hw, hm.1, hfree] at hrow
        cases hrow
  | @addMember _ _ _ _ _ m _ _ hm habsent _ _ =>
      refine (roleOf_putMember d m w u).trans ?_
      rw [if_neg]
      · exact hrole
      · rintro ⟨hw, hu⟩
        rw [hw, hu, hm.1, roleOf, habsent] at hrole
        cases hrole
  | @updateMemberRole _ _ _ _ _ _ old m _ _ hold howner _ hm =>
      refine (roleOf_putMember d _ w u).trans ?_
      rw [if_neg]
      · exact hrole
      · rintro ⟨hw, hu⟩
        obtain ⟨hw', hu'⟩ := key_of_member? hm
        rw [hw, hu] at hfounder
        have hsame := (hsnap _ _ hfounder).1
        change snap.roleOf m.workspaceId m.userId = _ at hsame
        rw [hw', hu', roleOf_eq_some hold] at hsame
        exact howner (Option.some.inj hsame)
  | @removeMember _ w' u' _ _ m _ _ _ _ hm hremove _ _ =>
      rw [roleOf, member?_removal, if_neg]
      · exact hrole
      · rintro ⟨rfl, rfl⟩
        rw [roleOf_eq_some hm, Option.some.injEq] at hrole
        rw [hrole] at hremove
        rcases canRemoveMember_iff.mp hremove with ⟨_, hne⟩ | ⟨_, hmember⟩
        · exact hne rfl
        · cases hmember
  | createTask _ _ _ _ _ => exact hrole
  | updateTask _ _ _ _ => exact hrole
  | updateTaskStatus _ _ _ _ => exact hrole
  | updateTaskAssignee _ _ _ _ _ => exact hrole
  | deleteTask _ _ _ _ => exact hrole

/-- The protocol of the row locks with references and founders. -/
abbrev foundedProtocol (founders : Id → Id → Prop) :
    Protocol Request Session Database RowKey :=
  lockProtocol (fun d => Referenced d ∧ Founded founders d) fun _ _ _ _ _ => True

theorem founded_tolerates (founders : Id → Id → Prop) (request : Request) :
    Tolerates (foundedProtocol founders) request := by
  refine lockProtocol_tolerates (fun l d d' hd he => ?_) fun _ _ _ _ _ _ => trivial
  cases he with
  | quiet h =>
      refine ⟨hd.1.congr h, fun w u hfounder => ?_⟩
      rw [roleOf, ← h.member?, ← h.workspace?]
      exact hd.2 w u hfounder
  | commit snap _ hsnap _ h hd' =>
      subst hd'
      exact ⟨referenced_commit hd.1 h, founded_commit hd.2 hsnap.2 h⟩

end Commit
end TaskPlatform
