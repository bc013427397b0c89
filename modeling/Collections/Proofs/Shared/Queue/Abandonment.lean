import Collections.Proofs.Shared.Queue.WakeUps

/-!
# Iterations whose callback is left

An iteration wakes the callers that wait for space after its callback has returned. When the
callback is left before, its removals stay and nobody is woken (`World.ask_iterate_of_left`). So
an inserter can sleep on beside free space. `iterate_strands_iff` says exactly when it does: one
slept before, the removals brought the queue below its capacity, and the callback did not both
return and remove something.
-/

set_option autoImplicit false

namespace Collections.Shared

open SharedQueue (Operation)

namespace World

variable {α : Type} [BEq α] (preferred : Nat) (world : World α) (script : List Cue)

theorem ask_iterate :
    (world.ask preferred (.iterate script)).2 =
      rouse preferred { world with queue := (world.queue.iterate script).2.1 }
        (world.queue.iterate script).2.2 :=
  rfl

theorem queue_ask_iterate :
    (world.ask preferred (.iterate script)).2.queue = (world.queue.iterate script).2.1 := by
  rw [ask_iterate, SharedQueue.iterate_wakes]
  split <;> rfl

/-- Who waited for space before an iteration still does, as he did before or woken. -/
theorem inserters_ask_iterate :
    (world.ask preferred (.iterate script)).2.inserters =
      if (world.queue.walked script).1 ∧ (world.queue.walked script).2.removed ≠ 0 then
        Waiter.wakeAll world.inserters
      else world.inserters := by
  rw [ask_iterate, SharedQueue.iterate_wakes]
  split <;> rfl

/-- When a callback is left its removals stay, and nobody is woken. -/
theorem ask_iterate_of_left (left : (world.queue.walked script).1 = false) :
    (world.ask preferred (.iterate script)).2.queue.size +
        (world.queue.walked script).2.removed = world.queue.size ∧
      (world.ask preferred (.iterate script)).2.inserters = world.inserters := by
  constructor
  · rw [queue_ask_iterate, SharedQueue.iterate_size]
    exact world.queue.walked_handled script
  · rw [inserters_ask_iterate, if_neg]
    rintro ⟨returned, -⟩
    rw [left] at returned
    cases returned

end World

/-- **When an iteration leaves an inserter asleep beside free space.** It does exactly if one
slept before, the queue is below its capacity once the removed elements are gone, and it is not so
that the callback returned and had removed something. -/
theorem iterate_strands_iff {α : Type} [BEq α] (preferred : Nat) (world : World α)
    (script : List Cue) :
    (Waiter.SomeAsleep (world.ask preferred (.iterate script)).2.inserters ∧
        (world.ask preferred (.iterate script)).2.queue.size <
          (world.ask preferred (.iterate script)).2.queue.capacity) ↔
      Waiter.SomeAsleep world.inserters ∧
        world.queue.size < world.queue.capacity + (world.queue.walked script).2.removed ∧
        ¬ ((world.queue.walked script).1 = true ∧ (world.queue.walked script).2.removed ≠ 0) := by
  have handled := world.queue.walked_handled script
  rw [World.queue_ask_iterate, World.inserters_ask_iterate, SharedQueue.iterate_size,
    SharedQueue.iterate_capacity]
  by_cases wakes :
      (world.queue.walked script).1 = true ∧ (world.queue.walked script).2.removed ≠ 0
  · rw [if_pos wakes]
    constructor
    · rintro ⟨asleep, -⟩
      exact absurd asleep (Waiter.nobody_asleep_wakeAll world.inserters)
    · rintro ⟨-, -, quiet⟩
      exact absurd wakes quiet
  · rw [if_neg wakes]
    constructor
    · rintro ⟨asleep, space⟩
      exact ⟨asleep, by omega, wakes⟩
    · rintro ⟨asleep, space, -⟩
      exact ⟨asleep, by omega⟩

/-- An inserter waits for the space that one element takes. A callback removes the element, and is
left. -/
def abandoned : World Nat × Bool × Walk Nat :=
  let world := (World.put 0 { queue := heldByOne } 2).2
  let script := [.act .next .told, .act .remove .told, .stop]
  ((world.ask 0 (.iterate script)).2, world.queue.walked script)

/-- The callback of `abandoned` removed an element and was left, the queue has free space, and the
inserter sleeps on. -/
theorem abandoned_iteration_strands :
    abandoned.2.1 = false ∧ abandoned.2.2.removed = 1 ∧
      abandoned.1.queue.size < abandoned.1.queue.capacity ∧
      Waiter.SomeAsleep abandoned.1.inserters :=
  ⟨rfl, rfl, Nat.zero_lt_one, { request := 2 }, List.mem_cons_self, rfl⟩

end Collections.Shared
