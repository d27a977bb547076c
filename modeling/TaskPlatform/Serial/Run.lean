import TaskPlatform.Concurrency.Routes

/-!
# Serial histories

Requests served one after the other, each with its own stream of environments.
What a protocol tolerates of a request holds of it when it is served alone, so
the serial results come from the same proofs of the services as the concurrent
ones.
-/

namespace TaskPlatform

open Transaction Database

variable [Collation]

/-- A request with what its calls find outside the database. -/
abbrev Served : Type := (Nat → Env) × Request

/-- The database after a history. -/
def serveAll (d : Database) : List Served → Database
  | [] => d
  | (env, request) :: rest => serveAll (serve env request d).2 rest

/-- Each request of a history satisfies `p` on the database it finds. -/
def Along (p : Database → Served → Prop) (d : Database) : List Served → Prop
  | [] => True
  | (env, request) :: rest => p d (env, request) ∧ Along p (serve env request d).2 rest

/-- An invariant that every request keeps under `p` holds after every history along
`p`. -/
theorem inv_serveAll {p : Database → Served → Prop} {inv : Database → Prop}
    (hstep : ∀ env request d, inv d → p d (env, request) → inv (serve env request d).2)
    {d : Database} (hd : inv d) {history : List Served} (h : Along p d history) :
    inv (serveAll d history) := by
  induction history generalizing d with
  | nil => exact hd
  | cons served rest ih => exact ih (hstep _ _ _ hd h.1) h.2

theorem along_of_forall {p : Served → Prop} {history : List Served}
    (h : ∀ x ∈ history, p x) (d : Database) : Along (fun _ => p) d history := by
  induction history generalizing d with
  | nil => exact trivial
  | cons served rest ih =>
      constructor
      · exact h served List.mem_cons_self
      · exact ih (fun x hx => h x (List.mem_cons_of_mem served hx)) _

/-- A step whose invariant survives exactly under `p`: a history keeps it throughout exactly
if it goes along `p`. -/
theorem throughout_iff_along (inv kept : Database → Prop) {p : Database → Served → Prop}
    (hinv : ∀ env request d, inv d → inv (serve env request d).2)
    (hstep : ∀ env request d, inv d → kept d →
      (kept (serve env request d).2 ↔ p d (env, request)))
    {d : Database} (hd : inv d) (hkept : kept d) (history : List Served) :
    (∀ earlier, earlier <+: history → kept (serveAll d earlier)) ↔ Along p d history := by
  induction history generalizing d with
  | nil =>
      refine ⟨fun _ => trivial, fun _ earlier hearlier => ?_⟩
      rw [List.prefix_nil.mp hearlier]
      exact hkept
  | cons served rest ih =>
      obtain ⟨env, request⟩ := served
      constructor
      · intro h
        have hnext := h [(env, request)] ⟨rest, rfl⟩
        refine ⟨(hstep env request d hd hkept).mp hnext, ?_⟩
        refine (ih (hinv env request d hd) hnext).mp fun earlier hearlier => ?_
        exact h ((env, request) :: earlier) (List.cons_prefix_cons.mpr ⟨rfl, hearlier⟩)
      · rintro ⟨hp, hrest⟩ earlier hearlier
        have hnext := (hstep env request d hd hkept).mpr hp
        cases earlier with
        | nil => exact hkept
        | cons first later =>
            obtain ⟨rfl, hlater⟩ := List.cons_prefix_cons.mp hearlier
            exact (ih (hinv env request d hd) hnext).mpr hrest later hlater

/-- A request that is served alone keeps every protocol that tolerates it. -/
theorem serve_inv {P : Protocol Request Session Database RowKey} {request : Request}
    (hS : Sound P) (hT : Tolerates P request) (hassume : ∀ l d l' d', P.assume request l d l' d')
    {d : Database} (hd : P.inv d) (env : Nat → Env) :
    P.inv (serve env request d).2 ∧ P.evolve d (serve env request d).2 :=
  Protocol.run_inv hassume (request_verified hS hT) hd env 0

end TaskPlatform
