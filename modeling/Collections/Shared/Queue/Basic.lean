import Collections.Shared.Association
import Collections.Shared.Guarded

/-!
# Bounded queues

A queue with a capacity that several callers use at a time. Elements enter at the back and leave
from the front. Who finds the queue full may wait for space, and who finds it empty may wait for
an element; so an operation answers also whom it wakes. An element that enters wakes one caller
that waits for one. An element that leaves wakes one caller that waits for space; operations
that may remove several wake all of those.

The capacity bounds insertions only. A queue made from a longer list holds it all and takes
nothing more until it has shrunk.
-/

set_option autoImplicit false

namespace Collections.Shared

open Log (Notice)

/-- A queue behind a lock. -/
structure SharedQueue (α : Type) extends Guarded α where
  capacity : Nat
  capacity_pos : 0 < capacity

/-- Whom an operation wakes. -/
inductive Wake where
  /-- One caller that waits for an element. -/
  | oneTaker
  /-- One caller that waits for space. -/
  | oneInserter
  /-- All callers that wait for space. -/
  | allInserters
  deriving DecidableEq, Repr

namespace SharedQueue

/-- What an operation answers, the queue after it, and whom it wakes. -/
abbrev Effect (α β : Type) := β × SharedQueue α × List Wake

/-! ## Notices -/

/-- The capacity of a queue that is given none. -/
def unbounded : Nat := UInt64.size - 1

def rejectedNotice : Notice :=
  .warning .sync s!"Synchronized_queue {Notice.object}: capacity 0 requested; rejecting."

def createdNotice (capacity count : Nat) : Notice :=
  .trace .sync
    s!"Synchronized_queue {Notice.object} created with capacity [{capacity}] and [{count}] initial elements."

def announcedNotice (capacity : Nat) : Notice :=
  .trace .container s!"Creating blocking queue with capacity [{capacity}]."

def fullNotice (capacity : Nat) : Notice :=
  .trace .sync s!"Synchronized_queue {Notice.object}: offer() found queue full at [{capacity}]."

def stillFullNotice : Notice :=
  .trace .sync
    s!"Synchronized_queue {Notice.object}: offer() timed out after {Notice.span}; queue still full."

def stillEmptyNotice : Notice :=
  .trace .sync
    s!"Synchronized_queue {Notice.object}: poll() timed out after {Notice.span}; queue still empty."

def awaitsSpaceNotice : Notice :=
  .trace .sync s!"Synchronized_queue {Notice.object}: put() waiting for space."

def awaitsElementNotice : Notice :=
  .trace .sync s!"Synchronized_queue {Notice.object}: take() waiting for an element."

def removedNotice (removed remaining : Nat) : Notice :=
  .trace .sync
    s!"Synchronized_queue {Notice.object}: iteration removed [{removed}] elements; [{remaining}] remain."

/-- The text of the failure to make a queue without capacity. -/
def rejection : Bytes := Bytes.ofString "Synchronized_queue capacity must be positive."

variable {α : Type}

/-- Wrap a list, unless the capacity is zero. -/
def wrap? (capacity : Nat) (grip : Grip) (items : List α) : Option (SharedQueue α) :=
  if capacity_pos : 0 < capacity then
    some { container := { grip, items }
           notices := [createdNotice capacity items.length]
           capacity, capacity_pos }
  else none

/-! ## State -/

def isFull (queue : SharedQueue α) : Bool := queue.capacity ≤ queue.size

def isEmpty (queue : SharedQueue α) : Bool := queue.items.isEmpty

/-- How many elements can still enter. -/
def remainingCapacity (queue : SharedQueue α) : Nat :=
  if queue.isFull then 0 else queue.capacity - queue.size

theorem remainingCapacity_eq (queue : SharedQueue α) :
    queue.remainingCapacity = queue.capacity - queue.size := by
  unfold remainingCapacity isFull
  split <;> simp_all

def edit (queue : SharedQueue α) (container : Container α) : SharedQueue α :=
  { queue with container }

def say (queue : SharedQueue α) (notice : Notice) : SharedQueue α :=
  { queue with notices := queue.notices ++ [notice] }

/-! ## Entering and leaving -/

/-- Let an element enter at the back. -/
def push (queue : SharedQueue α) (item : α) : SharedQueue α × List Wake :=
  (queue.edit (queue.container.insertAt queue.size item), [.oneTaker])

/-- Let the front element leave. -/
def pop? (queue : SharedQueue α) : Option (Effect α α) :=
  match queue.items with
  | [] => none
  | item :: _ => some (item, queue.edit (queue.container.eraseAt 0), [.oneInserter])

/-! ## Inserting -/

/-- Insert an element if there is space. -/
def offer (queue : SharedQueue α) (item : α) : Effect α Bool :=
  if queue.isFull then (false, queue.say (fullNotice queue.capacity), [])
  else (true, queue.push item)

/-- Insert an element if there is space before the time is up, seen when no other caller makes
space. -/
def offerInTime (queue : SharedQueue α) (item : α) : Effect α Bool :=
  if queue.isFull then (false, queue.say stillFullNotice, [])
  else (true, queue.push item)

/-- Insert an element at once, or find that the caller has to wait. -/
def put? (queue : SharedQueue α) (item : α) : Option (SharedQueue α × List Wake) :=
  if queue.isFull then none else some (queue.push item)

/-! ## Taking -/

/-- Take the front element if there is one. -/
def poll (queue : SharedQueue α) : Effect α (Option α) :=
  match queue.pop? with
  | some (item, queue, wakes) => (some item, queue, wakes)
  | none => (none, queue, [])

/-- Take the front element if there is one before the time is up, seen when no other caller
inserts one. -/
def pollInTime (queue : SharedQueue α) : Effect α (Option α) :=
  match queue.pop? with
  | some (item, queue, wakes) => (some item, queue, wakes)
  | none => (none, queue.say stillEmptyNotice, [])

/-- The front element. It stays. -/
def peek? (queue : SharedQueue α) : Option α := queue.items.head?

/-- Move elements from the front to the end of a list, one after the other, until as many have been
moved as asked for or none is left. -/
def moveFront (queue : SharedQueue α) (target : List α) : Nat → Nat × List α × SharedQueue α
  | 0 => (0, target, queue)
  | more + 1 =>
      match queue.pop? with
      | none => (0, target, queue)
      | some (item, queue, _) =>
          let (moved, target, queue) := queue.moveFront (target ++ [item]) more
          (moved + 1, target, queue)

/-- Move elements from the front to the end of a list, as many as asked for at most. If any has been
moved, all who wait for space are woken. -/
def drainTo (queue : SharedQueue α) (limit : Nat) (target : List α) :
    Effect α (Nat × List α) :=
  let (moved, target, queue) := queue.moveFront target limit
  ((moved, target), queue, if moved = 0 then [] else [.allInserters])

/-! ## Removing elsewhere -/

/-- Remove the first occurrence of an element, and tell whether there was one. -/
def remove [BEq α] (queue : SharedQueue α) (item : α) : Effect α Bool :=
  match queue.container.indexOf? item with
  | some index => (true, queue.edit (queue.container.eraseAt index), [.oneInserter])
  | none => (false, queue, [])

def contains [BEq α] (queue : SharedQueue α) (item : α) : Bool :=
  (queue.container.indexOf? item).isSome

def clear (queue : SharedQueue α) : SharedQueue α × List Wake :=
  (queue.edit queue.container.clear, [.allInserters])

/-- Walk the queue. Whoever waits for space is woken when the callback removed something and
returned. -/
def iterate (queue : SharedQueue α) (script : List Cue) : Effect α (List (Reply α)) :=
  let (replies, returned, walk) := (Walk.start queue.container 0).play script
  let queue := queue.edit walk.container
  if returned ∧ walk.removed ≠ 0 then
    (replies, queue.say (removedNotice walk.removed queue.size), [.allInserters])
  else (replies, queue, [])

end SharedQueue

end Collections.Shared
