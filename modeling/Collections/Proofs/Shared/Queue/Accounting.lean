import Collections.Shared.Queue.Operations

/-!
# What operations do to the size of a queue

An operation that changes the size of a queue wakes callers for it, and `Change` says whom. When
one element enters, one caller that waits for an element is woken. When one leaves, one caller
that waits for space is woken, and when any number may have left all of those are. Every operation
keeps to that and to the capacity (`perform?_accounted`), unless it is an iteration whose callback
is left (`Operation.Returns`).

An iteration keeps count of its removals. What a walk still has and what it has removed add up to
what it started with (`Walk.handled_play`). To drain a queue takes elements from its front one by one,
which comes down to taking some of them at once (`drainTo_eq`).
-/

set_option autoImplicit false

namespace Collections

namespace Container

variable {α : Type}

theorem length_step? {container after : Container α} {slot : Nat} {direction : Direction} {item : α}
    (stepped : container.step? slot direction = some (item, after)) :
    after.items.length = container.items.length := by
  simp only [step?, Option.bind_eq_bind, Option.bind_eq_some_iff, pure, Option.some.injEq,
    Prod.mk.injEq] at stepped
  obtain ⟨position, -, found, -, -, rfl⟩ := stepped
  rfl

theorem length_removeCurrent? {container after : Container α} {slot : Nat}
    (removed : container.removeCurrent? slot = some after) :
    after.items.length + 1 = container.items.length := by
  simp only [removeCurrent?, Option.bind_eq_bind, Option.bind_eq_some_iff, pure,
    Option.some.injEq] at removed
  obtain ⟨index, current, rfl⟩ := removed
  have inRange : index < container.items.length := by
    have := Option.filter_eq_some_iff.mp current
    simpa using this.2
  have shorter := List.length_eraseIdx_of_lt inRange
  simp only [eraseAt, shorter]
  omega

end Container

namespace Shared

/-! ## Walks -/

namespace Walk

variable {α : Type}

/-- How many elements a walk still has or has removed. -/
def handled (walk : Walk α) : Nat := walk.container.items.length + walk.removed

theorem handled_start (container : Container α) (slot : Nat) :
    (start container slot).handled = container.items.length := rfl

theorem handled_next (walk : Walk α) : walk.next.2.handled = walk.handled := by
  unfold next
  split
  next item container stepped =>
    simp only [handled, Container.length_step? stepped]
  next => rfl

theorem handled_remove (walk : Walk α) : walk.remove.2.handled = walk.handled := by
  unfold remove
  split
  next container removed =>
    have shorter := Container.length_removeCurrent? removed
    simp only [handled]
    omega
  next => rfl

theorem handled_perform (walk : Walk α) (action : Action) :
    (walk.perform action).2.handled = walk.handled := by
  cases action with
  | hasNext => rfl
  | next => exact walk.handled_next
  | remove => exact walk.handled_remove
  | removedCount => rfl

theorem handled_follow (walk : Walk α) (cue : Cue) :
    (walk.follow cue).2.2.handled = walk.handled := by
  cases cue with
  | stop => rfl
  | act action manner =>
      rw [← walk.handled_perform action, follow]
      rcases walk.perform action with ⟨_ | _, after⟩
      · cases manner <;> rfl
      · rfl

/-- **A walk keeps count of its removals, however its callback ends.** -/
theorem handled_play (walk : Walk α) (script : List Cue) :
    (walk.play script).2.2.handled = walk.handled := by
  induction script generalizing walk with
  | nil => rfl
  | cons cue rest ih =>
      rw [← walk.handled_follow cue, play]
      rcases walk.follow cue with ⟨reply, _ | _, after⟩
      · rfl
      · exact ih after

end Walk

namespace SharedQueue

variable {α : Type}

/-! ## Changes of size -/

/-- How an operation may change the size of a queue, and whom it wakes for it. -/
inductive Change (before after : Nat) : List Wake → Prop where
  | none (same : after = before) : Change before after []
  | entered (longer : after = before + 1) : Change before after [.oneTaker]
  | left (shorter : after + 1 = before) : Change before after [.oneInserter]
  | swept (shorter : after ≤ before) : Change before after [.allInserters]

/-- An operation kept the capacity, and woke callers as the change of size asks for. -/
structure Accounted (before after : SharedQueue α) (wakes : List Wake) : Prop where
  capacity : after.capacity = before.capacity
  change : Change before.size after.size wakes

theorem Accounted.untouched (queue : SharedQueue α) : Accounted queue queue [] :=
  ⟨rfl, .none rfl⟩

/-- What is told of an operation does not matter. -/
theorem Accounted.of_map {β γ : Type} {queue after : SharedQueue α} {effect : Effect α β}
    {tell : β → γ} {result : γ} {wakes : List Wake}
    (accounted : Accounted queue effect.2.1 effect.2.2)
    (told : some (effect.map tell id) = some (result, after, wakes)) :
    Accounted queue after wakes := by
  have same : effect.2 = (after, wakes) := congrArg Prod.snd (Option.some.inj told)
  rwa [same] at accounted

theorem isFull_iff {queue : SharedQueue α} : queue.isFull ↔ queue.capacity ≤ queue.size := by
  simp [isFull]

theorem size_eraseAt (queue : SharedQueue α) {index : Nat} (inRange : index < queue.size) :
    (queue.edit (queue.container.eraseAt index)).size + 1 = queue.size := by
  have shorter : (queue.edit (queue.container.eraseAt index)).size = queue.size - 1 :=
    List.length_eraseIdx_of_lt inRange
  omega

theorem push_accounted (queue : SharedQueue α) (item : α) :
    Accounted queue (queue.push item).1 (queue.push item).2 :=
  ⟨rfl, .entered (List.length_insertIdx_of_le_length (Nat.le_refl _) item)⟩

theorem items_of_pop? {queue after : SharedQueue α} {item : α} {wakes : List Wake}
    (popped : queue.pop? = some (item, after, wakes)) : queue.items = item :: after.items := by
  unfold pop? at popped
  split at popped
  next => cases popped
  next first rest items =>
    cases popped
    show queue.items = item :: queue.items.eraseIdx 0
    rw [items, List.eraseIdx_zero, List.tail_cons]

theorem items_of_pop?_eq_none {queue : SharedQueue α} (empty : queue.pop? = none) :
    queue.items = [] := by
  unfold pop? at empty
  split at empty
  next items => exact items
  next => cases empty

theorem pop?_accounted {queue after : SharedQueue α} {item : α} {wakes : List Wake}
    (popped : queue.pop? = some (item, after, wakes)) :
    after.size + 1 = queue.size ∧ Accounted queue after wakes := by
  unfold pop? at popped
  split at popped
  next => cases popped
  next first rest items =>
    cases popped
    have counted : queue.size = rest.length + 1 := congrArg List.length items
    have front : 0 < queue.size := by omega
    have shorter := queue.size_eraseAt front
    exact ⟨shorter, rfl, .left shorter⟩

theorem pop?_eq_none_iff {queue : SharedQueue α} : queue.pop? = none ↔ queue.size = 0 := by
  have sized : queue.size = queue.items.length := rfl
  rw [sized, pop?]
  cases queue.items <;> simp

theorem put?_accounted {queue after : SharedQueue α} {item : α} {wakes : List Wake}
    (put : queue.put? item = some (after, wakes)) :
    queue.size < queue.capacity ∧ after.size = queue.size + 1 ∧ Accounted queue after wakes := by
  unfold put? at put
  split at put
  next => cases put
  next space =>
    have pushed : queue.push item = (after, wakes) := Option.some.inj put
    have accounted := queue.push_accounted item
    rw [pushed] at accounted
    refine ⟨?_, ?_, accounted⟩
    · rw [isFull_iff] at space
      omega
    · have entered := congrArg (fun effect => effect.1.size) pushed
      exact entered.symm.trans (List.length_insertIdx_of_le_length (Nat.le_refl _) item)

theorem put?_eq_none_iff {queue : SharedQueue α} {item : α} :
    queue.put? item = none ↔ queue.capacity ≤ queue.size := by
  rw [← isFull_iff, put?]
  split <;> simp_all

/-! ## Operations -/

theorem offer_accounted (queue : SharedQueue α) (item : α) :
    Accounted queue (queue.offer item).2.1 (queue.offer item).2.2 := by
  unfold offer
  split
  · exact ⟨rfl, .none rfl⟩
  · exact queue.push_accounted item

theorem offerInTime_accounted (queue : SharedQueue α) (item : α) :
    Accounted queue (queue.offerInTime item).2.1 (queue.offerInTime item).2.2 := by
  unfold offerInTime
  split
  · exact ⟨rfl, .none rfl⟩
  · exact queue.push_accounted item

/-- One element less can enter after an attempt in time, or none could before. -/
theorem offerInTime_remainingCapacity (queue : SharedQueue α) (item : α) :
    (queue.offerInTime item).2.1.remainingCapacity ≤ queue.remainingCapacity - 1 := by
  have accounted := queue.offerInTime_accounted item
  rw [remainingCapacity_eq, remainingCapacity_eq, accounted.capacity]
  unfold offerInTime
  split
  next full =>
    rw [isFull_iff] at full
    show queue.capacity - queue.size ≤ _
    omega
  next =>
    have longer : (queue.push item).1.size = queue.size + 1 :=
      List.length_insertIdx_of_le_length (Nat.le_refl _) item
    simp only [longer]
    omega

theorem poll_accounted (queue : SharedQueue α) :
    Accounted queue queue.poll.2.1 queue.poll.2.2 := by
  unfold poll
  split
  next popped => exact (pop?_accounted popped).2
  next => exact .untouched queue

theorem pollInTime_accounted (queue : SharedQueue α) :
    Accounted queue queue.pollInTime.2.1 queue.pollInTime.2.2 := by
  unfold pollInTime
  split
  next popped => exact (pop?_accounted popped).2
  next => exact ⟨rfl, .none rfl⟩

/-- One element less is there after an attempt in time, or none was before. -/
theorem pollInTime_size (queue : SharedQueue α) :
    queue.pollInTime.2.1.size ≤ queue.size - 1 := by
  unfold pollInTime
  split
  next popped =>
    have shorter := (pop?_accounted popped).1
    simp only
    omega
  next empty =>
    have nothing := pop?_eq_none_iff.mp empty
    show queue.size ≤ _
    omega

/-- As many elements are moved as there are or as asked for, those in front and in their order. -/
theorem moveFront_eq (queue : SharedQueue α) (target : List α) (limit : Nat) :
    ∃ after : SharedQueue α, queue.moveFront target limit =
        (min limit queue.size, target ++ queue.items.take limit, after) ∧
      after.items = queue.items.drop limit ∧ after.capacity = queue.capacity := by
  induction limit generalizing queue target with
  | zero => exact ⟨queue, by simp [moveFront], rfl, rfl⟩
  | succ more ih =>
      rw [moveFront]
      cases popped : queue.pop? with
      | none =>
          have nothing := items_of_pop?_eq_none popped
          refine ⟨queue, ?_, by rw [nothing, List.drop_nil], rfl⟩
          rw [pop?_eq_none_iff.mp popped, nothing, List.take_nil, List.append_nil, Nat.min_zero]
      | some effect =>
          obtain ⟨item, next, wakes⟩ := effect
          have front := items_of_pop? popped
          obtain ⟨after, moved, left, capacity⟩ := ih next (target ++ [item])
          refine ⟨after, ?_, ?_, capacity.trans (pop?_accounted popped).2.capacity⟩
          · have sizes : queue.size = next.size + 1 := congrArg List.length front
            simp only [moved, front, sizes, List.take_succ_cons, List.append_assoc,
              List.singleton_append, Nat.add_min_add_right]
          · rw [left, front, List.drop_succ_cons]

/-- **To drain a queue** moves as many elements as there are or as asked for, and wakes all who wait
for space if that is any. -/
theorem drainTo_eq (queue : SharedQueue α) (limit : Nat) (target : List α) :
    ∃ after : SharedQueue α, queue.drainTo limit target =
        ((min limit queue.size, target ++ queue.items.take limit), after,
          if min limit queue.size = 0 then [] else [.allInserters]) ∧
      after.items = queue.items.drop limit ∧ after.capacity = queue.capacity := by
  obtain ⟨after, moved, left, capacity⟩ := queue.moveFront_eq target limit
  exact ⟨after, by rw [drainTo, moved], left, capacity⟩

theorem drainTo_accounted (queue : SharedQueue α) (limit : Nat) (target : List α) :
    Accounted queue (queue.drainTo limit target).2.1 (queue.drainTo limit target).2.2 := by
  obtain ⟨after, drained, left, capacity⟩ := queue.drainTo_eq limit target
  have remaining : after.size = queue.size - limit :=
    (congrArg List.length left).trans List.length_drop
  rw [drained]
  refine ⟨capacity, ?_⟩
  rw [remaining]
  by_cases nothing : min limit queue.size = 0
  · rw [if_pos nothing]
    exact .none (by omega)
  · rw [if_neg nothing]
    exact .swept (by omega)

theorem remove_accounted [BEq α] (queue : SharedQueue α) (item : α) :
    Accounted queue (queue.remove item).2.1 (queue.remove item).2.2 := by
  unfold remove
  split
  next index found =>
    have inRange : index < queue.size := (List.findIdx?_eq_some_iff_findIdx_eq.mp found).1
    exact ⟨rfl, .left (queue.size_eraseAt inRange)⟩
  next => exact .untouched queue

theorem clear_accounted (queue : SharedQueue α) :
    Accounted queue queue.clear.1 queue.clear.2 :=
  ⟨rfl, .swept (Nat.zero_le _)⟩

/-- The walk of an iteration, once its callback has returned or was left. -/
def walked (queue : SharedQueue α) (script : List Cue) : Bool × Walk α :=
  ((Walk.start queue.container 0).play script).2

theorem walked_handled (queue : SharedQueue α) (script : List Cue) :
    (queue.walked script).2.container.items.length + (queue.walked script).2.removed =
      queue.size :=
  ((Walk.start queue.container 0).handled_play script).trans (Walk.handled_start _ _)

theorem iterate_size (queue : SharedQueue α) (script : List Cue) :
    (queue.iterate script).2.1.size = (queue.walked script).2.container.items.length := by
  unfold iterate
  dsimp only
  split <;> rfl

theorem iterate_wakes (queue : SharedQueue α) (script : List Cue) :
    (queue.iterate script).2.2 =
      if (queue.walked script).1 ∧ (queue.walked script).2.removed ≠ 0 then [.allInserters]
      else [] := by
  unfold iterate
  dsimp only
  split
  next wakes => exact (if_pos wakes).symm
  next quiet => exact (if_neg quiet).symm

theorem iterate_capacity (queue : SharedQueue α) (script : List Cue) :
    (queue.iterate script).2.1.capacity = queue.capacity := by
  unfold iterate
  dsimp only
  split <;> rfl

theorem iterate_accounted (queue : SharedQueue α) (script : List Cue)
    (returned : (queue.walked script).1 = true) :
    Accounted queue (queue.iterate script).2.1 (queue.iterate script).2.2 := by
  have handled := queue.walked_handled script
  refine ⟨queue.iterate_capacity script, ?_⟩
  rw [queue.iterate_size script, queue.iterate_wakes script]
  by_cases removed : (queue.walked script).2.removed = 0
  · rw [if_neg (fun both => both.2 removed)]
    exact .none (by omega)
  · rw [if_pos ⟨returned, removed⟩]
    exact .swept (by omega)

end SharedQueue

open SharedQueue in
/-- The callback of an operation returns, if it has one. -/
def SharedQueue.Operation.Returns {α : Type} (queue : SharedQueue α) : Operation α → Prop
  | .iterate script => (queue.walked script).1 = true
  | _ => True

/-- **Every operation keeps the capacity, and wakes callers as its change of size asks for.** -/
theorem SharedQueue.perform?_accounted {α : Type} [BEq α] {queue after : SharedQueue α}
    {operation : Operation α} {result : Result α} {wakes : List Wake}
    (returns : operation.Returns queue)
    (performed : queue.perform? operation = some (result, after, wakes)) :
    Accounted queue after wakes := by
  cases operation with
  | offer item => exact (queue.offer_accounted item).of_map performed
  | offerInTime item => exact (queue.offerInTime_accounted item).of_map performed
  | put item =>
      obtain ⟨⟨_, _⟩, put, same⟩ := Option.map_eq_some_iff.mp performed
      cases same
      exact (put?_accounted put).2.2
  | poll => exact queue.poll_accounted.of_map performed
  | pollInTime => exact queue.pollInTime_accounted.of_map performed
  | take =>
      obtain ⟨⟨_, _, _⟩, popped, same⟩ := Option.map_eq_some_iff.mp performed
      cases same
      exact (pop?_accounted popped).2
  | remove item => exact (queue.remove_accounted item).of_map performed
  | drainTo limit target => exact (queue.drainTo_accounted limit target).of_map performed
  | clear => cases performed; exact queue.clear_accounted
  | iterate script => exact (queue.iterate_accounted script returns).of_map performed
  | peek => cases performed; exact .untouched queue
  | contains item => cases performed; exact .untouched queue
  | size => cases performed; exact .untouched queue
  | empty => cases performed; exact .untouched queue
  | capacity => cases performed; exact .untouched queue
  | remainingCapacity => cases performed; exact .untouched queue
  | forEach => cases performed; exact .untouched queue

end Shared

end Collections
