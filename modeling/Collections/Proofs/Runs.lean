import Mathlib.Data.List.Forall2

/-!
# Runs

A system answers requests one after the other, and each request may change it (`serve`). Which
requests may come can depend on its state (`Admits`).

What every request keeps, a run keeps (`serve_keeps`). Two systems behave alike if some relation
between their states is kept by every request and makes their replies agree. Then they agree over
whole runs, and the relation holds afterwards (`serve_related`).
-/

set_option autoImplicit false

namespace Collections

variable {σ τ ε ρ π : Type}

/-- The replies of a system to requests that come one after the other, and its state afterwards. -/
def serve (step : σ → ε → ρ × σ) (state : σ) : List ε → List ρ × σ
  | [] => ([], state)
  | request :: rest =>
      let (reply, next) := step state request
      let (replies, last) := serve step next rest
      (reply :: replies, last)

/-- A run answers the first request and then the others. -/
theorem serve_cons {step : σ → ε → ρ × σ} {state next last : σ} {request : ε} {rest : List ε}
    {reply : ρ} {replies : List ρ} (answered : step state request = (reply, next))
    (served : serve step next rest = (replies, last)) :
    serve step state (request :: rest) = (reply :: replies, last) := by
  calc serve step state (request :: rest)
      = ((step state request).1 :: (serve step (step state request).2 rest).1,
          (serve step (step state request).2 rest).2) := rfl
    _ = (reply :: replies, last) := by rw [answered, served]

/-- To put every request differently is to answer it as what it is put as. -/
theorem serve_map {ι : Type} (step : σ → ε → ρ × σ) (put : ι → ε) (state : σ) (requests : List ι) :
    serve step state (requests.map put) =
      serve (fun state request => step state (put request)) state requests := by
  induction requests generalizing state with
  | nil => rfl
  | cons request rest ih =>
      have later := ih (step state (put request)).2
      exact congrArg (fun run => (_ :: run.1, run.2)) later

/-- Every request of a run is allowed in the state in which it comes. -/
def Admits (step : σ → ε → ρ × σ) (allowed : σ → ε → Prop) (state : σ) : List ε → Prop
  | [] => True
  | request :: rest =>
      allowed state request ∧ Admits step allowed (step state request).2 rest

instance decidableAdmits {step : σ → ε → ρ × σ} {allowed : σ → ε → Prop}
    [∀ state request, Decidable (allowed state request)] : (state : σ) → (requests : List ε) →
      Decidable (Admits step allowed state requests)
  | _, [] => isTrue trivial
  | state, request :: rest =>
      have : Decidable (Admits step allowed (step state request).2 rest) := decidableAdmits _ rest
      inferInstanceAs (Decidable (_ ∧ _))

/-- What does not depend on the state may be asked of the requests alone. -/
theorem admits_of_forall {step : σ → ε → ρ × σ} {allowed : ε → Prop} {requests : List ε}
    (all : ∀ request ∈ requests, allowed request) {state : σ} :
    Admits step (fun _ => allowed) state requests := by
  induction requests generalizing state with
  | nil => trivial
  | cons request rest ih =>
      obtain ⟨first, later⟩ := List.forall_mem_cons.mp all
      exact ⟨first, ih later⟩

/-- What every request keeps of a state, a run keeps. -/
theorem serve_keeps {step : σ → ε → ρ × σ} {holds : σ → Prop}
    (keeps : ∀ {state : σ} (request : ε), holds state → holds (step state request).2) {state : σ}
    (start : holds state) (requests : List ε) : holds (serve step state requests).2 := by
  induction requests generalizing state with
  | nil => exact start
  | cons request rest ih => exact ih (keeps request start)

/-- **What every request keeps of two states, a run keeps.** -/
theorem serve_related {step : σ → ε → ρ × σ} {other : τ → ε → π × τ} {agree : ρ → π → Prop}
    {related : σ → τ → Prop}
    (keeps : ∀ {state : σ} {twin : τ} (request : ε), related state twin →
      agree (step state request).1 (other twin request).1 ∧
        related (step state request).2 (other twin request).2)
    {state : σ} {twin : τ} (start : related state twin) (requests : List ε) :
    List.Forall₂ agree (serve step state requests).1 (serve other twin requests).1 ∧
      related (serve step state requests).2 (serve other twin requests).2 := by
  induction requests generalizing state twin with
  | nil => exact ⟨.nil, start⟩
  | cons request rest ih =>
      obtain ⟨agrees, next⟩ := keeps request start
      obtain ⟨agree, last⟩ := ih next
      exact ⟨.cons agrees agree, last⟩

/-- Systems that give the same replies give the same replies over whole runs. -/
theorem serve_eq {step : σ → ε → ρ × σ} {other : τ → ε → ρ × τ} {related : σ → τ → Prop}
    (keeps : ∀ {state : σ} {twin : τ} (request : ε), related state twin →
      (step state request).1 = (other twin request).1 ∧
        related (step state request).2 (other twin request).2)
    {state : σ} {twin : τ} (start : related state twin) (requests : List ε) :
    (serve step state requests).1 = (serve other twin requests).1 ∧
      related (serve step state requests).2 (serve other twin requests).2 := by
  obtain ⟨agree, last⟩ := serve_related keeps start requests
  rw [List.forall₂_eq_eq_eq] at agree
  exact ⟨agree, last⟩

end Collections
