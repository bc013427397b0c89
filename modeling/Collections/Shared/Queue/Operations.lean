import Collections.Shared.Queue.Basic

/-!
# Operations on a queue

What a caller may ask of a queue as one value, and what it is answered. An operation whose caller
would have to wait for others is not carried out (`perform?`).
-/

set_option autoImplicit false

namespace Collections.Shared.SharedQueue

/-- A plain operation on a queue. -/
inductive Operation (α : Type) where
  | offer (item : α)
  | offerInTime (item : α)
  | put (item : α)
  | poll
  | pollInTime
  | take
  | peek
  | remove (item : α)
  | contains (item : α)
  | drainTo (limit : Nat) (target : List α)
  | size
  | empty
  | capacity
  | remainingCapacity
  | clear
  | forEach
  | iterate (script : List Cue)

/-- What an operation answers. -/
inductive Result (α : Type) where
  | flag (value : Bool)
  | item (value : Option α)
  | count (value : Nat)
  | done
  | drained (count : Nat) (target : List α)
  | visited (items : List α)
  | replies (values : List (Reply α))

variable {α : Type} [BEq α]

/-- Carry out an operation, or refuse it when its caller would fall asleep for good. -/
def perform? (queue : SharedQueue α) : Operation α → Option (Effect α (Result α))
  | .offer item => some ((queue.offer item).map .flag id)
  | .offerInTime item => some ((queue.offerInTime item).map .flag id)
  | .put item => (queue.put? item).map fun (queue, wakes) => (.done, queue, wakes)
  | .poll => some (queue.poll.map .item id)
  | .pollInTime => some (queue.pollInTime.map .item id)
  | .take => queue.pop?.map fun (item, queue, wakes) => (.item (some item), queue, wakes)
  | .peek => some (.item queue.peek?, queue, [])
  | .remove item => some ((queue.remove item).map .flag id)
  | .contains item => some (.flag (queue.contains item), queue, [])
  | .drainTo limit target =>
      some ((queue.drainTo limit target).map (fun (count, target) => .drained count target) id)
  | .size => some (.count queue.size, queue, [])
  | .empty => some (.flag queue.isEmpty, queue, [])
  | .capacity => some (.count queue.capacity, queue, [])
  | .remainingCapacity => some (.count queue.remainingCapacity, queue, [])
  | .clear => some (.done, queue.clear)
  | .forEach => some (.visited queue.items, queue, [])
  | .iterate script => some ((queue.iterate script).map .replies id)

end Collections.Shared.SharedQueue
