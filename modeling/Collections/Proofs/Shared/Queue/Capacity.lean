import Collections.Proofs.Shared.Queue.Books

/-!
# The capacity of a queue bounds it

An element can enter a queue in five ways: its caller offers it at once, asks with a limit of time or
without one, or has waited and looks again, perhaps for the last time (`Event.brought?`). All of them
look at the same thing when they look, so each lets the element enter exactly if there is space at that
moment (`Attempted`, `World.attempted_happen`). It does not matter who came first or how long anybody
has waited.

So an event lets in at most one element, and none into a queue that is full
(`World.accepted_happen`). A queue that starts within its capacity stays within it, and one that starts
above it only shrinks until it is within (`World.size_recordAll`). The remaining capacity is computed in
words, and never wraps round (`toNat_remainingWords`, `capacity_bounds_queue`).
-/

set_option autoImplicit false

namespace Collections.Shared

open SharedQueue (Operation Result)

variable {α : Type}

/-! ## Attempts -/

/-- The element that a caller of an operation brings. -/
def SharedQueue.Operation.brought? : Operation α → Option α
  | .offer item | .offerInTime item | .put item => some item
  | _ => none

/-- The element that an event tries to let enter. -/
def Event.brought? (world : World α) : Event α → Option α
  | .ask operation => operation.brought?
  | .resumeInserter position =>
      (Waiter.runnable? world.inserters position).map (·.request)
  | .expireInserter position =>
      (Waiter.due? world.inserters position).map (·.request)
  | _ => none

/-- How an attempt to let an element enter a queue ends, by the space that there is. -/
inductive Attempted (before : SharedQueue α) (item : α) (after : SharedQueue α)
    (answer : Option (Result α)) : Prop where
  | entered (space : before.size < before.capacity)
      (told : answer = some (.flag true) ∨ answer = some .done)
      (items : after.items = before.items ++ [item])
  | refused (full : before.capacity ≤ before.size) (told : emptyHanded answer = true)
      (same : after.container = before.container)

namespace Attempted

variable {queue after : SharedQueue α} {item : α} {answer : Option (Result α)} {wakes : List Wake}

theorem of_put? (put : queue.put? item = some (after, wakes))
    (told : answer = some (.flag true) ∨ answer = some .done) :
    Attempted queue item after answer := by
  refine .entered (SharedQueue.put?_accounted put).1 told ?_
  unfold SharedQueue.put? at put
  split at put
  next => cases put
  next =>
    obtain rfl := congrArg Prod.fst (Option.some.inj put)
    exact queue.items_of_push item

theorem of_put?_eq_none (waits : queue.put? item = none) (told : emptyHanded answer = true)
    (same : after.container = queue.container) : Attempted queue item after answer :=
  .refused (SharedQueue.put?_eq_none_iff.mp waits) told same

theorem offer (queue : SharedQueue α) (item : α) :
    Attempted queue item (queue.offer item).2.1 (some (.flag (queue.offer item).1)) := by
  unfold SharedQueue.offer
  split
  next full => exact .refused (SharedQueue.isFull_iff.mp full) rfl rfl
  next space =>
    rw [SharedQueue.isFull_iff, Nat.not_le] at space
    exact .entered space (.inl rfl) (queue.items_of_push item)

theorem offerInTime (queue : SharedQueue α) (item : α) :
    Attempted queue item (queue.offerInTime item).2.1
      (some (.flag (queue.offerInTime item).1)) := by
  unfold SharedQueue.offerInTime
  split
  next full => exact .refused (SharedQueue.isFull_iff.mp full) rfl rfl
  next space =>
    rw [SharedQueue.isFull_iff, Nat.not_le] at space
    exact .entered space (.inl rfl) (queue.items_of_push item)

/-- An attempt is entered in the books if there was space. -/
theorem accepted_length (attempted : Attempted queue item after answer) :
    (Entry.ofInsertion item answer).accepted.length ≤ min 1 queue.remainingCapacity := by
  rw [queue.remainingCapacity_eq]
  cases attempted with
  | entered space told items =>
      have one : (Entry.ofInsertion item answer).accepted = [item] := by
        rcases told with rfl | rfl <;> rfl
      rw [one, List.length_singleton]
      omega
  | refused full told same =>
      have none : (Entry.ofInsertion item answer).accepted = [] := by
        unfold Entry.ofInsertion
        split <;> first | rfl | cases told
      rw [none]
      exact Nat.zero_le _

/-- Who is told of success at an attempt, and who is not. -/
theorem flag_iff {success : Bool} (attempted : Attempted queue item after (some (.flag success))) :
    success = decide (0 < queue.remainingCapacity) := by
  rw [queue.remainingCapacity_eq]
  cases attempted with
  | entered space told items =>
      have positive : 0 < queue.capacity - queue.size := by omega
      rw [decide_eq_true positive]
      rcases told with told | told <;> cases told
      rfl
  | refused full told same =>
      have nothing : ¬ 0 < queue.capacity - queue.size := by omega
      rw [decide_eq_false nothing]
      cases success
      · rfl
      · cases told

theorem refused_of_full (attempted : Attempted queue item after answer)
    (full : queue.capacity ≤ queue.size) :
    emptyHanded answer = true ∧ after.container = queue.container := by
  cases attempted with
  | entered space told items => exact absurd full (Nat.not_le.mpr space)
  | refused full told same => exact ⟨told, same⟩

end Attempted

/-! ## Events -/

namespace World

variable {preferred : Nat} {world : World α} {item : α}

/-- An attempt at the queue of a world has ended, and woke callers. -/
theorem attempted_rouse (after : World α) {answer : Option (Result α)} {wakes : List Wake}
    (attempted : Attempted world.queue item after.queue answer) :
    Attempted world.queue item (after.rouse preferred wakes).queue answer := by
  rw [queue_rouse]
  exact attempted

theorem attempted_put (item : α) :
    Attempted world.queue item (world.put preferred item).2.queue
      (world.put preferred item).1 := by
  unfold put
  split
  next put => exact attempted_rouse _ (.of_put? put (.inr rfl))
  next waits => exact .of_put?_eq_none waits rfl rfl

theorem attempted_offerInTime (item : α) :
    Attempted world.queue item (world.offerInTime preferred item).2.queue
      (world.offerInTime preferred item).1 := by
  unfold offerInTime
  split
  next put => exact attempted_rouse _ (.of_put? put (.inl rfl))
  next waits => exact .of_put?_eq_none waits rfl rfl

theorem attempted_offer [BEq α] (item : α) :
    Attempted world.queue item (world.ask preferred (.offer item)).2.queue
      (world.ask preferred (.offer item)).1 := by
  have attempted := Attempted.offer world.queue item
  exact attempted_rouse (World.mk (world.queue.offer item).2.1 world.inserters world.takers) attempted

theorem attempted_resumeInserter {position : Nat} {inserter : Waiter α}
    (found : Waiter.runnable? world.inserters position = some inserter) :
    Attempted world.queue inserter.request (world.resumeInserter preferred position).2.queue
      (world.resumeInserter preferred position).1 := by
  unfold resumeInserter
  rw [found]
  dsimp only
  split
  next put =>
    refine attempted_rouse _ (.of_put? put ?_)
    cases inserter.timed
    · exact .inr rfl
    · exact .inl rfl
  next waits => exact .of_put?_eq_none waits rfl rfl

theorem attempted_expireInserter {position : Nat} {inserter : Waiter α}
    (found : Waiter.due? world.inserters position = some inserter) :
    Attempted world.queue inserter.request (world.expireInserter preferred position).2.queue
      (world.expireInserter preferred position).1 := by
  unfold expireInserter
  rw [found]
  exact attempted_rouse _ (.offerInTime world.queue inserter.request)

theorem accepted_ofTaking (answer : Option (Result α)) :
    (Entry.ofTaking answer).accepted = [] := by
  unfold Entry.ofTaking
  split <;> rfl

variable [BEq α]

/-- **Whoever brings an element lets it enter exactly if there is space when he looks.** -/
theorem attempted_happen {event : Event α} (brings : event.brought? world = some item) :
    Attempted world.queue item (world.happen preferred event).2.queue
      (world.happen preferred event).1 := by
  cases event with
  | ask operation =>
      cases operation with
      | offer item => cases brings; exact attempted_offer item
      | offerInTime item => cases brings; exact attempted_offerInTime item
      | put item => cases brings; exact attempted_put item
      | _ => cases brings
  | resumeInserter position =>
      obtain ⟨inserter, found, rfl⟩ := Option.map_eq_some_iff.mp brings
      exact attempted_resumeInserter found
  | expireInserter position =>
      obtain ⟨inserter, found, rfl⟩ := Option.map_eq_some_iff.mp brings
      exact attempted_expireInserter found
  | _ => cases brings

/-- What an event that brings an element enters in the books. -/
theorem entry_of_brought? {event : Event α} (brings : event.brought? world = some item) :
    event.entry world = Entry.ofInsertion item := by
  cases event with
  | ask operation =>
      cases operation with
      | offer item | offerInTime item | put item => cases brings; rfl
      | _ => cases brings
  | resumeInserter position =>
      obtain ⟨inserter, found, rfl⟩ := Option.map_eq_some_iff.mp brings
      exact entry_of_inserter (getElem?_of_runnable? found) (.inl rfl)
  | expireInserter position =>
      obtain ⟨inserter, found, rfl⟩ := Option.map_eq_some_iff.mp brings
      exact entry_of_inserter (getElem?_of_due? found) (.inr rfl)
  | _ => cases brings

/-- Nothing is accepted of a caller that brings nothing. -/
theorem accepted_entry {operation : Operation α} (brings : operation.brought? = none)
    (items : List α) (answer : Option (Result α)) :
    (operation.entry items answer).accepted = [] := by
  unfold Operation.entry
  split
  case h_1 | h_2 | h_3 => cases brings
  case h_4 | h_5 | h_6 => exact accepted_ofTaking answer
  all_goals rfl

theorem accepted_of_brought?_eq_none {event : Event α} (brings : event.brought? world = none) :
    (event.entry world (world.happen preferred event).1).accepted = [] := by
  cases event with
  | ask operation => exact accepted_entry brings _ _
  | resumeInserter position =>
      have nobody := Option.map_eq_none_iff.mp brings
      simp only [happen, resumeInserter, nobody, entry_none]
  | expireInserter position =>
      have nobody := Option.map_eq_none_iff.mp brings
      simp only [happen, expireInserter, nobody, entry_none]
  | resumeTaker position | expireTaker position => exact accepted_ofTaking _
  | stirInserter position | stirTaker position => rfl

/-- **One event lets in at most one element, and none into a full queue.** -/
theorem accepted_happen (preferred : Nat) (world : World α) (event : Event α) :
    (event.entry world (world.happen preferred event).1).accepted.length ≤
      min 1 world.queue.remainingCapacity := by
  cases brings : event.brought? world with
  | none =>
      rw [accepted_of_brought?_eq_none brings]
      exact Nat.zero_le _
  | some item =>
      rw [entry_of_brought? brings]
      exact (attempted_happen brings).accepted_length

end World

/-- A queue grows by what it accepts at most. -/
theorem Posts.length_le {before after : List α} {entry : Entry α}
    (posts : Posts before after entry) :
    after.length ≤ before.length + entry.accepted.length := by
  cases posts with
  | accepted item entered => simp [entered]
  | given items left => simp [left]
  | deleted gone thinned => simpa using thinned.sublist.length_le

namespace World

variable [BEq α]

/-- An event makes a queue longer by the space that there is, if at all. -/
theorem size_happen (preferred : Nat) (world : World α) (event : Event α) :
    (world.happen preferred event).2.queue.size ≤
      world.queue.size + min 1 (world.queue.capacity - world.queue.size) := by
  have grows := (world.tells_happen preferred event).posts.length_le
  have accepts := world.accepted_happen preferred event
  rw [world.queue.remainingCapacity_eq] at accepts
  exact Nat.le_trans grows (Nat.add_le_add_left accepts _)

/-- **A queue is never longer than its capacity, or than it was at first.** -/
theorem size_recordAll (world : World α) (events : List (Nat × Event α)) :
    (world.recordAll events).2.queue.capacity = world.queue.capacity ∧
      (world.recordAll events).2.queue.size ≤ max world.queue.capacity world.queue.size := by
  induction events generalizing world with
  | nil => exact ⟨rfl, Nat.le_max_right _ _⟩
  | cons event rest hypothesis =>
      have keeps := (world.tells_happen event.1 event.2).capacity
      have grows := world.size_happen event.1 event.2
      obtain ⟨capacity, bounded⟩ := hypothesis (world.happen event.1 event.2).2
      rw [keeps] at capacity bounded
      refine ⟨capacity, ?_⟩
      show ((world.happen event.1 event.2).2.recordAll rest).2.queue.size ≤ _
      omega

end World

/-! ## Words -/

/-- How many elements can still enter, computed in words. -/
def remainingWords (capacity size : UInt64) : UInt64 :=
  if capacity ≤ size then 0 else capacity - size

theorem toNat_remainingWords (capacity size : UInt64) :
    (remainingWords capacity size).toNat = capacity.toNat - size.toNat := by
  unfold remainingWords
  split
  next full =>
    rw [UInt64.le_iff_toNat_le] at full
    exact (Nat.sub_eq_zero_of_le full).symm
  next space =>
    rw [UInt64.not_le] at space
    exact UInt64.toNat_sub_of_le _ _ (UInt64.le_of_lt space)

/-- **The capacity of a queue bounds it, whatever happens.** A queue can be made with every positive
capacity and from every list. After every run it is no longer than its capacity, or than it was at
first. While it is full every event accepts nothing and makes it no longer, and who brings an element
fails or has to wait and leaves the elements as they are. Once it is within its capacity it stays so. The
remaining capacity it tells of is what is missing to the capacity, computed in words without wrapping
round, and an offer succeeds at a moment exactly if that is positive. -/
theorem capacity_bounds_queue [BEq α] (capacity : UInt64) (positive : 0 < capacity) (grip : Grip)
    (items : List α) (counted : items.length < UInt64.size) :
    ∃ queue, SharedQueue.wrap? capacity.toNat grip items = some queue ∧ queue.items = items ∧
      ∀ events,
        let world := (World.recordAll { queue } events).2
        let size := world.queue.size
        size ≤ max capacity.toNat items.length ∧
          (capacity.toNat ≤ size → ∀ preferred event,
            let told := world.happen preferred event
            (event.entry world told.1).accepted = [] ∧ told.2.queue.size ≤ size ∧
              ∀ item, event.brought? world = some item →
                emptyHanded told.1 = true ∧ told.2.queue.container = world.queue.container) ∧
          (size ≤ capacity.toNat →
            ∀ later, (world.recordAll later).2.queue.size ≤ capacity.toNat) ∧
          let remaining := remainingWords capacity (.ofNat size)
          (remaining.toNat : Int) = max 0 (capacity.toNat - size) ∧
            ∀ preferred,
              (world.happen preferred (.ask .remainingCapacity)).1 =
                  some (.count remaining.toNat) ∧
                ∀ item, (world.happen preferred (.ask (.offer item))).1 =
                  some (.flag (decide (0 < remaining))) := by
  have room : 0 < capacity.toNat := UInt64.lt_iff_toNat_lt.mp positive
  refine ⟨_, dif_pos room, rfl, ?_⟩
  intro events world size
  obtain ⟨same, bounded⟩ : world.queue.capacity = capacity.toNat ∧
      size ≤ max capacity.toNat items.length := World.size_recordAll _ events
  have word : (UInt64.ofNat size).toNat = size := by
    refine UInt64.toNat_ofNat_of_lt' (Nat.lt_of_le_of_lt bounded ?_)
    exact Nat.max_lt.mpr ⟨capacity.toNat_lt, counted⟩
  have told : (remainingWords capacity (.ofNat size)).toNat = world.queue.remainingCapacity := by
    rw [toNat_remainingWords, word, world.queue.remainingCapacity_eq, same]
  refine ⟨bounded, ?_, ?_, ?_, ?_⟩
  · intro full preferred event answered
    have accepts := world.accepted_happen preferred event
    have grows := world.size_happen preferred event
    have nothing : world.queue.capacity - world.queue.size = 0 := by
      rw [same]
      exact Nat.sub_eq_zero_of_le full
    rw [world.queue.remainingCapacity_eq, nothing] at accepts
    rw [nothing] at grows
    refine ⟨List.eq_nil_of_length_eq_zero (Nat.le_zero.mp accepts), grows, ?_⟩
    intro item brings
    exact (World.attempted_happen brings).refused_of_full (Nat.le_trans (Nat.le_of_eq same) full)
  · intro within later
    have stays := (world.size_recordAll later).2
    rw [same] at stays
    exact Nat.le_trans stays (Nat.max_le.mpr ⟨Nat.le_refl _, within⟩)
  · rw [told, world.queue.remainingCapacity_eq, same]
    omega
  · intro preferred
    refine ⟨congrArg (fun count => some (Result.count count)) told.symm, ?_⟩
    intro item
    have success : (world.queue.offer item).1 = decide (0 < world.queue.remainingCapacity) :=
      (Attempted.offer world.queue item).flag_iff
    have same : (0 < remainingWords capacity (.ofNat size)) ↔
        0 < world.queue.remainingCapacity := by
      rw [← told]
      exact UInt64.lt_iff_toNat_lt
    rw [decide_eq_decide.mpr same, ← success]
    rfl

/-- A caller waits at a queue that is above its capacity. It looks in vain when one element has left,
and an offer fails. Its element enters when another has left. -/
def shrinking : List (Nat × Event Nat) :=
  [(0, .ask (.put 4)), (0, .ask .poll), (0, .resumeInserter 0), (0, .ask (.offer 5)),
    (0, .ask .poll), (0, .resumeInserter 0)]

/-- A queue of three elements with the capacity two, after `shrinking`. -/
theorem capacity_bounds_queue_on_shrinking :
    ∃ queue, SharedQueue.wrap? 2 .element [1, 2, 3] = some queue ∧
      (World.recordAll { queue } shrinking).2.queue.items = [3, 4] ∧
      ((World.recordAll { queue } shrinking).2.happen 0 (.ask (.offer 6))).1 =
        some (.flag false) := by
  obtain ⟨queue, made, -, bounded⟩ :=
    capacity_bounds_queue 2 (by decide) .element [1, 2, 3] (by decide)
  cases made
  obtain ⟨-, -, -, -, offers⟩ := bounded shrinking
  exact ⟨_, rfl, by decide, (offers 0).2 6⟩

end Collections.Shared
