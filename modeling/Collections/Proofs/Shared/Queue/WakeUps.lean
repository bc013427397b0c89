import Collections.Proofs.Shared.Queue.Accounting
import Collections.Shared.Queue.Waiting

/-!
# No wake-up is lost

Callers that wait for space are needed when there is space, and callers that wait for an element
when there are elements. A queue wakes one caller for one element, and others may come before the
woken caller looks. What holds nevertheless is a count. As long as a caller sleeps, at least as
many callers have been woken and not looked yet as are needed (`Waiter.Covered`).

Every event keeps the count on both sides (`World.attended_happen`), if callbacks return. So it
holds wherever a world can get to from a queue on which nobody waits, whatever that queue holds
(`wake_ups_are_not_lost`). There nobody sleeps in front of what it waits for once all woken
callers have looked.
-/

set_option autoImplicit false

namespace Collections.Shared

/-! ## Waiting callers -/

namespace Waiter

variable {ρ : Type} {need : Nat} {waiters before after : List (Waiter ρ)}

/-- Some caller sleeps. -/
def SomeAsleep (waiters : List (Waiter ρ)) : Prop := ∃ waiter ∈ waiters, waiter.isAsleep

/-- How many callers have been woken and have not looked since. -/
def woken (waiters : List (Waiter ρ)) : Nat := waiters.countP isWoken

/-- If a caller sleeps, as many have been woken as are needed. -/
def Covered (need : Nat) (waiters : List (Waiter ρ)) : Prop :=
  SomeAsleep waiters → need ≤ woken waiters

theorem someAsleep_middle {waiter : Waiter ρ} :
    SomeAsleep (before ++ waiter :: after) ↔ waiter.isAsleep ∨ SomeAsleep (before ++ after) := by
  simp only [SomeAsleep, List.mem_append, List.mem_cons]
  constructor
  · rintro ⟨other, inBefore | rfl | inAfter, asleep⟩
    · exact .inr ⟨other, .inl inBefore, asleep⟩
    · exact .inl asleep
    · exact .inr ⟨other, .inr inAfter, asleep⟩
  · rintro (asleep | ⟨other, inBefore | inAfter, asleep⟩)
    · exact ⟨waiter, .inr (.inl rfl), asleep⟩
    · exact ⟨other, .inl inBefore, asleep⟩
    · exact ⟨other, .inr (.inr inAfter), asleep⟩

theorem woken_middle {waiter : Waiter ρ} :
    woken (before ++ waiter :: after) =
      woken (before ++ after) + if waiter.isWoken then 1 else 0 := by
  simp only [woken, List.countP_append, List.countP_cons]
  omega

theorem not_isAsleep_wake (waiter : Waiter ρ) : waiter.wake.isAsleep = false := by
  unfold wake
  split
  · rfl
  next awake => simpa using awake

theorem not_isAsleep_stir (waiter : Waiter ρ) : waiter.stir.isAsleep = false := by
  unfold stir
  split
  · rfl
  next awake => simpa using awake

theorem not_isWoken_of_isAsleep {waiter : Waiter ρ} (asleep : waiter.isAsleep = true) :
    waiter.isWoken = false := by
  have stance : waiter.stance = .asleep := by simpa [isAsleep] using asleep
  simp [isWoken, stance]

theorem isWoken_wake {waiter : Waiter ρ} (asleep : waiter.isAsleep = true) :
    waiter.wake.isWoken = true := by
  simp [wake, asleep, isWoken]

theorem isWoken_stir (waiter : Waiter ρ) : waiter.stir.isWoken = waiter.isWoken := by
  unfold stir
  split
  next asleep => rw [not_isWoken_of_isAsleep asleep]; rfl
  next => rfl

/-- The caller that `wakeOne` wakes sleeps. -/
theorem isAsleep_sleeper {preferred : Nat} {waiter : Waiter ρ}
    (found : waiters[sleeper preferred waiters]? = some waiter) : waiter.isAsleep := by
  unfold sleeper at found
  split at found
  next chosen =>
    rw [found] at chosen
    exact chosen
  next => exact List.findIdx_of_getElem?_eq_some found

theorem sleeper_lt_length (preferred : Nat) (someone : SomeAsleep waiters) :
    sleeper preferred waiters < waiters.length := by
  unfold sleeper
  split
  next chosen =>
    obtain ⟨waiter, found, -⟩ := (Option.any_eq_true _ _).mp chosen
    exact (List.getElem?_eq_some_iff.mp found).1
  next => exact List.findIdx_lt_length_of_exists someone

/-! ### Keeping the count -/

theorem covered_zero : Covered 0 waiters := fun _ => Nat.zero_le _

theorem Covered.of_le {less : Nat} (covered : Covered need waiters) (le : less ≤ need) :
    Covered less waiters :=
  fun someone => Nat.le_trans le (covered someone)

/-- Who is woken covers one more that is needed. -/
theorem Covered.wakeOne (covered : Covered need waiters) (preferred : Nat) :
    Covered (need + 1) (wakeOne preferred waiters) := by
  by_cases inRange : sleeper preferred waiters < waiters.length
  · obtain ⟨before, waiter, after, split, position, woke⟩ := List.exists_of_modify wake inRange
    have found : waiters[sleeper preferred waiters]? = some waiter := by
      rw [← position, split, List.getElem?_append_right (Nat.le_refl _), Nat.sub_self]
      rfl
    have asleep : waiter.isAsleep := isAsleep_sleeper found
    intro _
    have enough : need ≤ woken waiters := covered ⟨waiter, List.mem_of_getElem? found, asleep⟩
    rw [split, woken_middle, not_isWoken_of_isAsleep asleep] at enough
    rw [Waiter.wakeOne, woke, woken_middle, isWoken_wake asleep]
    simpa using enough
  · have nobody : ¬ SomeAsleep waiters := mt (sleeper_lt_length preferred) inRange
    rw [Waiter.wakeOne, List.modify_eq_self (Nat.le_of_not_lt inRange)]
    exact fun someone => absurd someone nobody

theorem nobody_asleep_wakeAll (waiters : List (Waiter ρ)) : ¬ SomeAsleep (wakeAll waiters) := by
  rintro ⟨waiter, member, asleep⟩
  obtain ⟨sleeper, -, rfl⟩ := List.mem_map.mp member
  rw [not_isAsleep_wake] at asleep
  cases asleep

/-- When all have been woken nobody sleeps. -/
theorem covered_wakeAll (need : Nat) (waiters : List (Waiter ρ)) :
    Covered need (wakeAll waiters) :=
  fun someone => absurd someone (nobody_asleep_wakeAll waiters)

theorem Covered.stir (covered : Covered need waiters) (position : Nat) :
    Covered need (waiters.modify position stir) := by
  by_cases inRange : position < waiters.length
  · obtain ⟨before, waiter, after, rfl, -, stirred⟩ := List.exists_of_modify Waiter.stir inRange
    rw [stirred]
    intro someone
    rw [someAsleep_middle, not_isAsleep_stir] at someone
    rw [woken_middle, isWoken_stir, ← woken_middle]
    exact covered (someAsleep_middle.mpr (.inr (someone.resolve_left Bool.false_ne_true)))
  · rw [List.modify_eq_self (Nat.le_of_not_lt inRange)]
    exact covered

/-- One that leaves covered at most one that is needed. -/
theorem Covered.eraseIdx (covered : Covered need waiters) (position : Nat) :
    Covered (need - 1) (waiters.eraseIdx position) := by
  by_cases inRange : position < waiters.length
  · obtain ⟨before, waiter, after, rfl, rfl, -⟩ := List.exists_of_modify id inRange
    rw [List.eraseIdx_append_of_length_le (Nat.le_refl _), Nat.sub_self, List.eraseIdx_cons_zero]
    intro someone
    have enough := covered (someAsleep_middle.mpr (.inr someone))
    rw [woken_middle] at enough
    split at enough <;> omega
  · rw [List.eraseIdx_of_length_le (Nat.le_of_not_lt inRange)]
    exact covered.of_le (Nat.sub_le _ _)

end Waiter

open SharedQueue (Accounted Operation)

/-! ## Worlds -/

namespace World

variable {α : Type}

/-- On both sides of the queue the callers that are needed have been woken, unless all have. -/
structure Attended (world : World α) : Prop where
  inserters : Waiter.Covered world.queue.remainingCapacity world.inserters
  takers : Waiter.Covered world.queue.size world.takers

/-- The callback of an event returns, if it has one. -/
def Returns (world : World α) : Event α → Prop
  | .ask operation => operation.Returns world.queue
  | _ => True

theorem attended_start (queue : SharedQueue α) : Attended { queue } := by
  constructor <;> exact fun ⟨_, member, _⟩ => absurd member List.not_mem_nil

/-- The wakes of an operation cover what it adds to the need. So it is enough that callers cover
the need that was there before it and still is. -/
theorem attended_rouse {queue after : SharedQueue α} {wakes : List Wake}
    {inserters : List (Waiter α)} {takers : List (Waiter Unit)} (preferred : Nat)
    (accounted : Accounted queue after wakes)
    (space : Waiter.Covered (min queue.remainingCapacity after.remainingCapacity) inserters)
    (elements : Waiter.Covered (min queue.size after.size) takers) :
    Attended (rouse preferred { queue := after, inserters, takers } wakes) := by
  obtain ⟨capacity, change⟩ := accounted
  have room : after.remainingCapacity = queue.capacity - after.size := by
    rw [after.remainingCapacity_eq, capacity]
  rw [queue.remainingCapacity_eq, room] at space
  cases change with
  | none same =>
      refine ⟨space.of_le ?_, elements.of_le ?_⟩
      · show after.remainingCapacity ≤ _
        omega
      · show after.size ≤ _
        omega
  | entered longer =>
      refine ⟨space.of_le ?_, (elements.wakeOne preferred).of_le ?_⟩
      · show after.remainingCapacity ≤ _
        omega
      · show after.size ≤ _
        omega
  | left shorter =>
      refine ⟨(space.wakeOne preferred).of_le ?_, elements.of_le ?_⟩
      · show after.remainingCapacity ≤ _
        omega
      · show after.size ≤ _
        omega
  | swept shorter =>
      refine ⟨Waiter.covered_wakeAll _ _, elements.of_le ?_⟩
      show after.size ≤ _
      omega

/-- An operation of a caller that does not wait. -/
theorem Attended.rouse {world : World α} (attended : world.Attended) (preferred : Nat)
    {after : SharedQueue α} {wakes : List Wake} (accounted : Accounted world.queue after wakes) :
    Attended (World.rouse preferred { world with queue := after } wakes) :=
  attended_rouse preferred accounted (attended.inserters.of_le (Nat.min_le_left _ _))
    (attended.takers.of_le (Nat.min_le_left _ _))

/-- A caller that finds no space does not add to the need. -/
theorem Attended.of_full {world : World α} (attended : world.Attended) {after : SharedQueue α}
    {inserters : List (Waiter α)} (full : world.queue.capacity ≤ world.queue.size)
    (capacity : after.capacity = world.queue.capacity) (size : after.size = world.queue.size) :
    Attended { world with queue := after, inserters } := by
  refine ⟨?_, ?_⟩
  · have none : after.remainingCapacity = 0 := by
      rw [after.remainingCapacity_eq]
      omega
    show Waiter.Covered after.remainingCapacity inserters
    rw [none]
    exact Waiter.covered_zero
  · show Waiter.Covered after.size world.takers
    rw [size]
    exact attended.takers

/-- A caller that finds no element does not add to the need. -/
theorem Attended.of_empty {world : World α} (attended : world.Attended) {after : SharedQueue α}
    {takers : List (Waiter Unit)} (empty : world.queue.size = 0)
    (size : after.size = world.queue.size)
    (remaining : after.remainingCapacity = world.queue.remainingCapacity) :
    Attended { world with queue := after, takers } := by
  refine ⟨?_, ?_⟩
  · show Waiter.Covered after.remainingCapacity world.inserters
    rw [remaining]
    exact attended.inserters
  · show Waiter.Covered after.size takers
    rw [size, empty]
    exact Waiter.covered_zero

/-- An inserter that enters its element was needed, and no longer is. -/
theorem Attended.inserter_leaves {world : World α} (attended : world.Attended) (preferred : Nat)
    {after : SharedQueue α} {wakes : List Wake} (accounted : Accounted world.queue after wakes)
    (entered : after.remainingCapacity ≤ world.queue.remainingCapacity - 1) (position : Nat) :
    Attended (World.rouse preferred
      { world with queue := after, inserters := world.inserters.eraseIdx position } wakes) :=
  attended_rouse preferred accounted
    ((attended.inserters.eraseIdx position).of_le
      (Nat.le_trans (Nat.min_le_right _ _) entered))
    (attended.takers.of_le (Nat.min_le_left _ _))

/-- A taker that takes an element was needed, and no longer is. -/
theorem Attended.taker_leaves {world : World α} (attended : world.Attended) (preferred : Nat)
    {after : SharedQueue α} {wakes : List Wake} (accounted : Accounted world.queue after wakes)
    (left : after.size ≤ world.queue.size - 1) (position : Nat) :
    Attended (World.rouse preferred
      { world with queue := after, takers := world.takers.eraseIdx position } wakes) :=
  attended_rouse preferred accounted
    (attended.inserters.of_le (Nat.min_le_left _ _))
    ((attended.takers.eraseIdx position).of_le (Nat.le_trans (Nat.min_le_right _ _) left))

/-! ## One event -/

variable {world : World α} (preferred : Nat)

theorem attended_put (attended : world.Attended) (item : α) :
    (world.put preferred item).2.Attended := by
  unfold put
  split
  next put => exact attended.rouse preferred (SharedQueue.put?_accounted put).2.2
  next full => exact attended.of_full (SharedQueue.put?_eq_none_iff.mp full) rfl rfl

theorem attended_offerInTime (attended : world.Attended) (item : α) :
    (world.offerInTime preferred item).2.Attended := by
  unfold offerInTime
  split
  next put => exact attended.rouse preferred (SharedQueue.put?_accounted put).2.2
  next full => exact attended.of_full (SharedQueue.put?_eq_none_iff.mp full) rfl rfl

theorem attended_take (attended : world.Attended) : (world.take preferred).2.Attended := by
  unfold take
  split
  next popped => exact attended.rouse preferred (SharedQueue.pop?_accounted popped).2
  next empty => exact attended.of_empty (SharedQueue.pop?_eq_none_iff.mp empty) rfl rfl

theorem attended_pollInTime (attended : world.Attended) :
    (world.pollInTime preferred).2.Attended := by
  unfold pollInTime
  split
  next popped => exact attended.rouse preferred (SharedQueue.pop?_accounted popped).2
  next empty => exact attended.of_empty (SharedQueue.pop?_eq_none_iff.mp empty) rfl rfl

theorem attended_carryOut [BEq α] (attended : world.Attended) {operation : Operation α}
    (returns : operation.Returns world.queue) :
    (world.carryOut preferred operation).2.Attended := by
  unfold carryOut
  split
  next performed =>
    exact attended.rouse preferred (SharedQueue.perform?_accounted returns performed)
  next => exact attended

theorem attended_ask [BEq α] (attended : world.Attended) {operation : Operation α}
    (returns : operation.Returns world.queue) :
    (world.ask preferred operation).2.Attended := by
  cases operation with
  | put item => exact attended_put preferred attended item
  | offerInTime item => exact attended_offerInTime preferred attended item
  | take => exact attended_take preferred attended
  | pollInTime => exact attended_pollInTime preferred attended
  | _ => exact attended_carryOut preferred attended returns

theorem attended_resumeInserter (attended : world.Attended) (position : Nat) :
    (world.resumeInserter preferred position).2.Attended := by
  unfold resumeInserter
  split
  next => exact attended
  next inserter runnable =>
    split
    next queue wakes put =>
      obtain ⟨space, longer, accounted⟩ := SharedQueue.put?_accounted put
      refine attended.inserter_leaves preferred accounted ?_ position
      rw [queue.remainingCapacity_eq, world.queue.remainingCapacity_eq, accounted.capacity]
      omega
    next full => exact attended.of_full (SharedQueue.put?_eq_none_iff.mp full) rfl rfl

theorem attended_resumeTaker (attended : world.Attended) (position : Nat) :
    (world.resumeTaker preferred position).2.Attended := by
  unfold resumeTaker
  split
  next => exact attended
  next taker runnable =>
    split
    next item queue wakes popped =>
      obtain ⟨shorter, accounted⟩ := SharedQueue.pop?_accounted popped
      exact attended.taker_leaves preferred accounted (by omega) position
    next empty => exact attended.of_empty (SharedQueue.pop?_eq_none_iff.mp empty) rfl rfl

theorem attended_expireInserter (attended : world.Attended) (position : Nat) :
    (world.expireInserter preferred position).2.Attended := by
  unfold expireInserter
  split
  next => exact attended
  next inserter due =>
    exact attended.inserter_leaves preferred (world.queue.offerInTime_accounted inserter.request)
      (world.queue.offerInTime_remainingCapacity inserter.request) position

theorem attended_expireTaker (attended : world.Attended) (position : Nat) :
    (world.expireTaker preferred position).2.Attended := by
  unfold expireTaker
  split
  next => exact attended
  next taker due =>
    exact attended.taker_leaves preferred world.queue.pollInTime_accounted
      world.queue.pollInTime_size position

/-- **Whatever happens, the callers that are needed have been woken, unless all have.** -/
theorem attended_happen [BEq α] (attended : world.Attended) {event : Event α}
    (returns : world.Returns event) : (world.happen preferred event).2.Attended := by
  cases event with
  | ask operation => exact attended_ask preferred attended returns
  | stirInserter position => exact ⟨attended.inserters.stir position, attended.takers⟩
  | stirTaker position => exact ⟨attended.inserters, attended.takers.stir position⟩
  | resumeInserter position => exact attended_resumeInserter preferred attended position
  | resumeTaker position => exact attended_resumeTaker preferred attended position
  | expireInserter position => exact attended_expireInserter preferred attended position
  | expireTaker position => exact attended_expireTaker preferred attended position

/-! ## Runs -/

/-- Where a world can get to while callbacks return, whoever is woken and whatever comes next. -/
inductive Reaches [BEq α] (start : World α) : World α → Prop where
  | start : Reaches start start
  | happen {world : World α} (reached : Reaches start world) (preferred : Nat) (event : Event α)
      (returns : world.Returns event) : Reaches start (world.happen preferred event).2

theorem attended_of_reaches [BEq α] {queue : SharedQueue α} (reached : Reaches { queue } world) :
    world.Attended := by
  induction reached with
  | start => exact attended_start queue
  | happen _ preferred event returns ih => exact attended_happen preferred ih returns

end World

open World in
/-- **No wake-up is lost.** Wherever a world can get to from a queue on which nobody waits: if an
inserter sleeps, as many inserters have been woken as there is space for, and if a taker sleeps,
as many takers have been woken as there are elements. So once all woken callers have looked, an
inserter sleeps only in front of a full queue and a taker only in front of an empty one, and they
do not both sleep. -/
theorem wake_ups_are_not_lost {α : Type} [BEq α] (queue : SharedQueue α) (world : World α)
    (reached : Reaches { queue } world) :
    (Waiter.SomeAsleep world.inserters →
      world.queue.capacity - world.queue.size ≤ Waiter.woken world.inserters) ∧
    (Waiter.SomeAsleep world.takers →
      world.queue.size ≤ Waiter.woken world.takers) ∧
    (Waiter.woken world.inserters = 0 → Waiter.SomeAsleep world.inserters →
      world.queue.isFull) ∧
    (Waiter.woken world.takers = 0 → Waiter.SomeAsleep world.takers →
      world.queue.isEmpty) ∧
    (Waiter.woken world.inserters = 0 → Waiter.woken world.takers = 0 →
      ¬ (Waiter.SomeAsleep world.inserters ∧ Waiter.SomeAsleep world.takers)) := by
  obtain ⟨inserters, takers⟩ := attended_of_reaches reached
  rw [world.queue.remainingCapacity_eq] at inserters
  have sized : world.queue.size = world.queue.items.length := rfl
  refine ⟨inserters, takers, fun none someone => ?_, fun none someone => ?_, ?_⟩
  · have space := inserters someone
    rw [SharedQueue.isFull_iff]
    omega
  · have elements := takers someone
    rw [SharedQueue.isEmpty, List.isEmpty_iff_length_eq_zero]
    omega
  · rintro noInserter noTaker ⟨inserter, taker⟩
    have space := inserters inserter
    have elements := takers taker
    have positive := world.queue.capacity_pos
    omega

/-- A queue with space for one element, which it holds. -/
def heldByOne : SharedQueue Nat :=
  { container := { items := [1] }, capacity := 1, capacity_pos := Nat.zero_lt_one }

/-- Two inserters wait for its space, and the second is woken when the element leaves. -/
def passedOver : World Nat :=
  let world := (World.happen 0 { queue := heldByOne } (.ask (.put 2))).2
  let world := (World.happen 0 world (.ask (.put 3))).2
  (World.happen 1 world (.ask .poll)).2

theorem wake_ups_are_not_lost_on_passedOver :
    Waiter.SomeAsleep passedOver.inserters ∧
      passedOver.queue.capacity - passedOver.queue.size = 1 ∧
      1 ≤ Waiter.woken passedOver.inserters := by
  have reached : World.Reaches { queue := heldByOne } passedOver :=
    .happen (.happen (.happen .start 0 (.ask (.put 2)) trivial) 0 (.ask (.put 3)) trivial)
      1 (.ask .poll) trivial
  have asleep : Waiter.SomeAsleep passedOver.inserters :=
    ⟨{ request := 2 }, List.mem_cons_self, rfl⟩
  exact ⟨asleep, rfl, (wake_ups_are_not_lost heldByOne passedOver reached).1 asleep⟩

end Collections.Shared
