import TaskPlatform.Mediation.Evidence

/-!
# Walking through a service

What a request has shown it keeps on showing, and one rule for each construct of a
service.
-/

namespace TaskPlatform

open Transaction Service

section Shown

variable {request : Request} {h h' : Dialogue Call.Res} {user : User} {w : Id} {task : Task}

theorem Told.mono {c : Call} {v : c.Val} (ht : Told h c v) (hsub : h ⊆ h') : Told h' c v :=
  hsub ht

theorem Raised.mono {e : SqlError} (he : Raised h e) (hsub : h ⊆ h') : Raised h' e := by
  obtain ⟨c, hc⟩ := he
  exact ⟨c, hsub hc⟩

theorem Caller.mono (hu : Caller request h user) (hsub : h ⊆ h') : Caller request h' user := by
  obtain ⟨username, hs, ht⟩ := hu.named
  exact ⟨username, hs, ht.mono hsub⟩

theorem MemberOf.mono (hm : MemberOf request h user w) (hsub : h ⊆ h') :
    MemberOf request h' user w := by
  obtain ⟨row, hrow⟩ := hm.row
  exact ⟨hm.toCaller.mono hsub, hm.addressed, row, hrow.mono hsub⟩

theorem TaskOf.mono (ht : TaskOf request h user w task) (hsub : h ⊆ h') :
    TaskOf request h' user w task :=
  ⟨ht.toMemberOf.mono hsub, ht.addressedTask, ht.task.mono hsub⟩

theorem Entitled.mono (hu : Entitled request h user) (hsub : h ⊆ h') :
    Entitled request h' user := by
  refine ⟨hu.toCaller.mono hsub, fun w hw => (hu.member w hw).mono hsub, ?_, ?_⟩
  · intro roles hroles
    obtain ⟨w, m, hm, hw, hrole⟩ := hu.role roles hroles
    exact ⟨w, m, hm.mono hsub, hw, hrole⟩
  · intro t ht
    obtain ⟨w, task, htask⟩ := hu.task t ht
    exact ⟨w, task, htask.mono hsub⟩

theorem ChargedTo.mono {check : RateCheck} (hc : ChargedTo request h check) (hsub : h ⊆ h') :
    ChargedTo request h' check := by
  cases hc with
  | registration hr => exact .registration hr
  | login hr => exact .login hr
  | write hs hu => exact .write hs (hu.mono hsub)

theorem Qualified.mono (hq : Qualified request h) (hsub : h ⊆ h') : Qualified request h' := by
  cases hq with
  | reading hs hu => exact .reading hs (hu.mono hsub)
  | charged hc hr ha => exact .charged (hc.mono hsub) (hr.mono hsub) ha

theorem Declines.mono {e : AppException} (hd : Declines h request e) (hsub : h ⊆ h') :
    Declines h' request e := by
  cases hd with
  | usernameFound hu => exact .usernameFound (hu.mono hsub)
  | usernameRaced he hi => exact .usernameRaced (he.mono hsub) hi
  | unknownUsername hu => exact .unknownUsername (hu.mono hsub)
  | wrongPassword hu hp => exact .wrongPassword (hu.mono hsub) (hp.mono hsub)
  | mayNotAdd hu hm hrole => exact .mayNotAdd (hu.mono hsub) (hm.mono hsub) hrole
  | noTarget ht => exact .noTarget (ht.mono hsub)
  | alreadyMember ht hm => exact .alreadyMember (ht.mono hsub) (hm.mono hsub)
  | memberRaced he => exact .memberRaced (he.mono hsub)
  | noMember ht => exact .noMember (ht.mono hsub)
  | ownerRole ht hrole => exact .ownerRole (ht.mono hsub) hrole
  | mayNotUpdate hu hm ht howner hrole =>
      exact .mayNotUpdate (hu.mono hsub) (hm.mono hsub) (ht.mono hsub) howner hrole
  | noneToRemove ht => exact .noneToRemove (ht.mono hsub)
  | mayNotRemove hu hm ht hrole =>
      exact .mayNotRemove (hu.mono hsub) (hm.mono hsub) (ht.mono hsub) hrole
  | mayNotEdit ht hm hrole => exact .mayNotEdit (ht.mono hsub) (hm.mono hsub) hrole
  | mayNotDelete ht hm hrole => exact .mayNotDelete (ht.mono hsub) (hm.mono hsub) hrole
  | statusRefused hu hm hrow hd =>
      exact .statusRefused (hu.mono hsub) (hm.mono hsub) (hrow.mono hsub) hd
  | namesAnother hu hm hn =>
      exact .namesAnother (hu.mono hsub) (hm.imp (·.mono hsub) (·.mono hsub)) hn
  | assigneeRefused hu hm hlocked hnone hrow hd =>
      exact .assigneeRefused (hu.mono hsub) (hm.mono hsub) (fun m hm => (hlocked m hm).mono hsub)
        (fun u hu hn => (hnone u hu hn).mono hsub) (hrow.mono hsub) hd

theorem Request.Refuses.mono {e : Exc} (he : request.Refuses h e) (hsub : h ⊆ h') :
    request.Refuses h' e := by
  cases he with
  | missingToken hr hs => exact .missingToken hr hs
  | unknownSubject hs hu => exact .unknownSubject hs (hu.mono hsub)
  | notMember hu hw hm => exact .notMember (hu.mono hsub) hw (hm.mono hsub)
  | memberGone hu hm => exact .memberGone (hu.mono hsub) (hm.mono hsub)
  | noTask hu ht hm => exact .noTask (hu.mono hsub) ht (hm.mono hsub)
  | taskGone hu ht hm => exact .taskGone (hu.mono hsub) ht (hm.mono hsub)
  | wrongRole hu hr hm hrole => exact .wrongRole (hu.mono hsub) hr (hm.mono hsub) hrole
  | exceeded hc hr hd => exact .exceeded (hc.mono hsub) (hr.mono hsub) hd
  | unavailable ht hc hr => exact .unavailable ht (hc.mono hsub) (hr.mono hsub)
  | invalid hq ha => exact .invalid (hq.mono hsub) ha
  | declined hq hd => exact .declined (hq.mono hsub) (hd.mono hsub)
  | raised he => exact .raised (he.mono hsub)

end Shown

/-! ## Rules -/

/-- A service issues only calls its request has earned, ends in `Q` or raises an error
that the request may end in. -/
abbrev Mediates {α : Type} (request : Request) (Q : α → Dialogue Call.Res → Prop) (x : Service α)
    (h : Dialogue Call.Res) : Prop :=
  AbidesE request.policy Q (fun e h => request.Refuses h e) x h

section Rules

variable {α β : Type} {request : Request} {h : Dialogue Call.Res}

theorem mediates_bind {Q : β → Dialogue Call.Res → Prop} {x : Service α} {f : α → Service β}
    (hx : Mediates request (fun a h => Mediates request Q (f a) h) x h) :
    Mediates request Q (x >>= f) h :=
  (abidesE_bind x f).mpr hx

theorem mediates_imp {Q Q' : α → Dialogue Call.Res → Prop} {x : Service α}
    (hx : Mediates request Q x h) (hQ : ∀ a h', h ⊆ h' → Q a h' → Q' a h') :
    Mediates request Q' x h :=
  abidesE_mono hQ (fun _ _ _ he => he) hx

/-- A call its request has earned.  The dialogue goes on with its answer. -/
theorem mediates_call {c : Call} {Q : c.Val → Dialogue Call.Res → Prop} (hmay : request.May h c)
    (hQ : ∀ v, c.Fits (.ok v) → Told (h ++ [⟨c, .ok v⟩]) c v → Q v (h ++ [⟨c, .ok v⟩])) :
    Mediates request Q (call c) h := by
  refine ⟨hmay, fun r hfits => ?_⟩
  cases r with
  | ok v => exact hQ v hfits (List.mem_append_right _ (List.mem_singleton_self _))
  | error e => exact .raised ⟨c, List.mem_append_right _ (List.mem_singleton_self _)⟩

theorem sub_said (h : Dialogue Call.Res) (e : Sigma Call.Res) : h ⊆ h ++ [e] :=
  List.subset_append_left h [e]

theorem mediates_orRaise {Q : α → Dialogue Call.Res → Prop} {row : Option α} {e : AppException}
    (hnone : row = none → request.Refuses h (.app e)) (hsome : ∀ a, row = some a → Q a h) :
    Mediates request Q (orRaise row e) h := by
  cases row with
  | none => exact hnone rfl
  | some a => exact hsome a rfl

theorem mediates_raiseIf {Q : Unit → Dialogue Call.Res → Prop} {c : Prop} [Decidable c]
    {e : AppException} (htrue : c → request.Refuses h (.app e)) (hfalse : ¬ c → Q () h) :
    Mediates request Q (raiseIf c e) h := by
  unfold raiseIf
  split
  · rename_i hc
    exact htrue hc
  · rename_i hc
    exact hfalse hc

/-- A rollback on the way out changes nothing about the error. -/
theorem mediates_rollback {Q : α → Dialogue Call.Res → Prop} {e : Exc}
    (he : request.Refuses h e) :
    Mediates request Q (call .rollback >>= fun _ => throw e) h :=
  mediates_bind (mediates_call .rollback fun _ _ _ => he.mono (sub_said h _))

theorem mediates_rollbackOnSqlError {Q : α → Dialogue Call.Res → Prop} {x : Service α}
    (hx : Mediates request Q x h) : Mediates request Q (rollbackOnSqlError x) h := by
  refine (abidesE_tryCatch x _).mpr (abidesE_mono (fun _ _ _ ha => ha) (fun e h' _ he => ?_) hx)
  cases e with
  | sql err => exact mediates_rollback he
  | app err => exact he
  | validation => exact he

theorem mediates_rollbackOnError {Q : α → Dialogue Call.Res → Prop} {x : Service α}
    (hx : Mediates request Q x h) : Mediates request Q (rollbackOnError x) h := by
  refine (abidesE_tryCatch x _).mpr (abidesE_mono (fun _ _ _ ha => ha) (fun e h' _ he => ?_) hx)
  cases e with
  | sql err => exact mediates_rollback he
  | app err => exact mediates_rollback he
  | validation => exact he

end Rules
end TaskPlatform
