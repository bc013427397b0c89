import Collections.Proofs.Runs
import Mathlib.Data.List.ReduceOption

/-!
# One winner

Callers bid for the value of a key that has none: each puts its own value unless there is one, and is
told which value there was. Others look at the key, and everything else that happens leaves its value
alone. What a step lets a caller see of the value, and what the step does to the value, then fit
together (`Sees`).

If all steps of a run are honest in this sense (`Honest`), the first bid wins, and whoever looks or
bids afterwards is told of the winner's value (`OneWinner`, `Honest.oneWinner`). Nobody who asks is
left without an answer if no step leaves anybody without one (`wanted_serve`).
-/

set_option autoImplicit false

namespace Collections

variable {ν σ ε : Type}

/-- What a caller sees of the value of a key. -/
inductive Sight (ν : Type) where
  /-- A caller puts a value unless there is one, and is told which there was. -/
  | bid (value : ν) (answer : Option ν)
  /-- A caller asks for the value. -/
  | look (answer : Option ν)
  deriving DecidableEq

namespace Sight

/-- The value that a caller is told of. -/
def answer : Sight ν → Option ν
  | bid _ answer | look answer => answer

/-- The value that a caller wants to put, unless it only looks. -/
def wanted : Sight ν → Option ν
  | bid value _ => some value
  | look _ => none

end Sight

/-- What was seen of the value of a key, and the value in the end. Either nobody bid and the key has
no value still, or one bid found no value, what was seen before it was that there is none, and
whatever was seen afterwards is the value of that bid, and so is the value in the end. -/
inductive OneWinner : List (Sight ν) → Option ν → Prop where
  | unsold {looks : List (Sight ν)} (nobody : ∀ sight ∈ looks, sight = .look none) :
      OneWinner looks none
  | sold {looks after : List (Sight ν)} (winner : ν) (nobody : ∀ sight ∈ looks, sight = .look none)
      (told : ∀ sight ∈ after, sight.answer = some winner) :
      OneWinner (looks ++ .bid winner none :: after) (some winner)

namespace OneWinner

variable {sights : List (Sight ν)} {final : Option ν}

/-- Who looks before the first bid sees no value. -/
theorem after_look (oneWinner : OneWinner sights final) :
    OneWinner (.look none :: sights) final := by
  cases oneWinner with
  | unsold nobody => exact .unsold (List.forall_mem_cons.mpr ⟨rfl, nobody⟩)
  | sold winner nobody told => exact .sold winner (List.forall_mem_cons.mpr ⟨rfl, nobody⟩) told

theorem first_bid {winner : ν} (told : ∀ sight ∈ sights, sight.answer = some winner) :
    OneWinner (.bid winner none :: sights) (some winner) := by
  have nobody : ∀ sight ∈ ([] : List (Sight ν)), sight = .look none := nofun
  exact .sold winner nobody told

end OneWinner

/-- A key whose value nobody sees keeps it, who looks is told the value, and who bids is told it
and puts another one if there is none. -/
def Sees (before after : Option ν) : Option (Sight ν) → Prop
  | none => after = before
  | some (.look answer) => answer = before ∧ after = before
  | some (.bid value answer) => answer = before ∧ after = before.or (some value)

namespace Sees

variable {after : Option ν} {seen : Option (Sight ν)}

/-- A key that has a value keeps it, and whoever sees it is told of it. -/
theorem of_some {winner : ν} (sees : Sees (some winner) after seen) :
    after = some winner ∧ ∀ sight ∈ seen, sight.answer = some winner := by
  cases seen with
  | none => exact ⟨sees, nofun⟩
  | some sight =>
      cases sight with
      | look answer =>
          obtain ⟨rfl, rfl⟩ := sees
          exact ⟨rfl, fun _ same => Option.some.inj same ▸ rfl⟩
      | bid value answer =>
          obtain ⟨rfl, rfl⟩ := sees
          exact ⟨rfl, fun _ same => Option.some.inj same ▸ rfl⟩

/-- A key that has no value gets one from the first bid. -/
theorem of_none (sees : Sees none after seen) :
    (after = none ∧ ∀ sight ∈ seen, sight = .look none) ∨
      ∃ winner, seen = some (.bid winner none) ∧ after = some winner := by
  cases seen with
  | none => exact .inl ⟨sees, nofun⟩
  | some sight =>
      cases sight with
      | look answer =>
          obtain ⟨rfl, rfl⟩ := sees
          exact .inl ⟨rfl, fun _ same => (Option.some.inj same).symm⟩
      | bid value answer =>
          obtain ⟨rfl, rfl⟩ := sees
          exact .inr ⟨value, rfl, rfl⟩

end Sees

/-! ## Runs -/

/-- The requests allowed in the states of an invariant show the value of a key as it is, and change it
only by a bid for a key without one. -/
structure Honest (step : σ → ε → Option (Sight ν) × σ) (value : σ → Option ν)
    (allowed : σ → ε → Prop) (holds : σ → Prop) : Prop where
  sees : ∀ {state : σ} {request : ε}, holds state → allowed state request →
    Sees (value state) (value (step state request).2) (step state request).1
  keeps : ∀ {state : σ} (request : ε), holds state → holds (step state request).2

theorem mem_reduceOption_cons {seen : Option (Sight ν)} {others : List (Option (Sight ν))}
    {sight : Sight ν} :
    sight ∈ (seen :: others).reduceOption ↔ sight ∈ seen ∨ sight ∈ others.reduceOption := by
  simp [List.reduceOption_mem_iff, eq_comm]

/-- If every step answers those who ask, a run answers them in the order in which they come. -/
theorem wanted_serve {step : σ → ε → Option (Sight ν) × σ} {asks : ε → Option (Option ν)}
    (answers : ∀ state request, (step state request).1.map Sight.wanted = asks request) (state : σ)
    (requests : List ε) :
    (serve step state requests).1.reduceOption.map Sight.wanted = requests.filterMap asks := by
  induction requests generalizing state with
  | nil => rfl
  | cons request rest hypothesis =>
      have later := hypothesis (step state request).2
      rw [List.filterMap_cons, ← answers state request, ← later]
      show ((step state request).1 :: _).reduceOption.map Sight.wanted = _
      cases (step state request).1 with
      | none => rfl
      | some sight => rfl

namespace Honest

variable {step : σ → ε → Option (Sight ν) × σ} {value : σ → Option ν} {allowed : σ → ε → Prop}
  {holds : σ → Prop} {state : σ} {requests : List ε}

/-- Once a key has a value it keeps it, and everybody is told of it. -/
theorem told (honest : Honest step value allowed holds) {winner : ν} (start : holds state)
    (settled : value state = some winner) (admitted : Admits step allowed state requests) :
    (∀ sight ∈ (serve step state requests).1.reduceOption, sight.answer = some winner) ∧
      value (serve step state requests).2 = some winner := by
  induction requests generalizing state with
  | nil => exact ⟨nofun, settled⟩
  | cons request rest hypothesis =>
      have seen := honest.sees start admitted.1
      rw [settled] at seen
      obtain ⟨still, told⟩ := seen.of_some
      obtain ⟨later, last⟩ := hypothesis (honest.keeps request start) still admitted.2
      refine ⟨fun sight member => ?_, last⟩
      rcases mem_reduceOption_cons.mp member with now | after
      · exact told sight now
      · exact later sight after

/-- **The first bid wins.** Of all that is seen in a run of honest steps one bid is answered by no value,
if any is made, and everything seen after it is its value. -/
theorem oneWinner (honest : Honest step value allowed holds) (start : holds state)
    (absent : value state = none) (admitted : Admits step allowed state requests) :
    OneWinner (serve step state requests).1.reduceOption (value (serve step state requests).2) := by
  induction requests generalizing state with
  | nil =>
      show OneWinner [] (value state)
      rw [absent]
      exact .unsold nofun
  | cons request rest hypothesis =>
      have seen := honest.sees start admitted.1
      have next := honest.keeps request start
      rw [absent] at seen
      show OneWinner ((step state request).1 :: _).reduceOption (value (serve step _ rest).2)
      rcases seen.of_none with ⟨still, looks⟩ | ⟨winner, bid, settled⟩
      · have later := hypothesis next still admitted.2
        cases sighted : (step state request).1 with
        | none => exact later
        | some sight =>
            obtain rfl := looks sight sighted
            exact later.after_look
      · obtain ⟨told, last⟩ := honest.told next settled admitted.2
        rw [bid, last]
        exact .first_bid told

end Honest

end Collections
