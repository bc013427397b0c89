import Collections.Cursor.Container
import Collections.Failure
import Collections.Log.Notice

/-!
# Walking a locked container

While a callback holds the lock of a collection it may walk it with a cursor that delivers and
removes elements and counts its removals. What a callback does is a list of cues. A cue is an
action on the cursor or the decision to stop, and a failing action may be reported to the
callback, thrown and caught there, or thrown out of it. A callback that stops or is thrown out
does not return, but keeps the removals it made (`Walk.play`).
-/

set_option autoImplicit false

namespace Collections.Shared

/-- A container, a place in it, and the number of elements removed through that place. -/
structure Walk (α : Type) where
  container : Container α
  slot : Nat
  removed : Nat := 0

/-- What can be done with the cursor of a locked container. -/
inductive Action where
  | hasNext
  | next
  | remove
  | removedCount
  deriving DecidableEq, Repr

/-- How a failing action reports. -/
inductive Manner where
  /-- The callback is told of the cause. -/
  | told
  /-- The cause is thrown, and caught inside the callback. -/
  | thrown
  /-- The cause is thrown out of the callback. -/
  | leaving
  deriving DecidableEq, Repr

/-- One thing that a callback does. -/
inductive Cue where
  | act (action : Action) (manner : Manner)
  | stop
  deriving DecidableEq, Repr

/-- What a callback gets to see. -/
inductive Reply (α : Type) where
  | flag (value : Bool)
  | item (value : α)
  | done
  | count (value : Nat)
  | failed (cause : CursorError) (thrown : Bool)
  | stopped
  deriving Repr

namespace Walk

variable {α : Type}

/-- Start to walk a container. -/
def start (container : Container α) (slot : Nat) : Walk α :=
  { container := container.openPlace slot container.grip 0, slot }

def hasNext (walk : Walk α) : Bool := walk.container.hasStep walk.slot .forward

/-- Deliver the next element. -/
def next (walk : Walk α) : Except CursorError α × Walk α :=
  match walk.container.step? walk.slot .forward with
  | some (item, container) => (.ok item, { walk with container })
  | none => (.error .pastEnd, walk)

/-- Remove the element delivered last. -/
def remove (walk : Walk α) : Except CursorError Unit × Walk α :=
  match walk.container.removeCurrent? walk.slot with
  | some container => (.ok (), { walk with container, removed := walk.removed + 1 })
  | none => (.error .noCurrent, walk)

/-- Carry out an action. -/
def perform (walk : Walk α) : Action → Except CursorError (Reply α) × Walk α
  | .hasNext => (.ok (.flag walk.hasNext), walk)
  | .next =>
      let (result, walk) := walk.next
      (result.map .item, walk)
  | .remove =>
      let (result, walk) := walk.remove
      (result.map fun () => .done, walk)
  | .removedCount => (.ok (.count walk.removed), walk)

/-- Follow a cue: what the callback sees, whether it goes on, and the walk afterwards. -/
def follow (walk : Walk α) : Cue → Reply α × Bool × Walk α
  | .stop => (.stopped, false, walk)
  | .act action manner =>
      match walk.perform action with
      | (.ok reply, walk) => (reply, true, walk)
      | (.error cause, walk) =>
          match manner with
          | .told => (.failed cause false, true, walk)
          | .thrown => (.failed cause true, true, walk)
          | .leaving => (.failed cause true, false, walk)

/-- Follow cues until the callback returns or is left: what it saw, whether it returned, and the
walk afterwards. -/
def play (walk : Walk α) : List Cue → List (Reply α) × Bool × Walk α
  | [] => ([], true, walk)
  | cue :: rest =>
      match walk.follow cue with
      | (reply, true, walk) =>
          let (replies, returned, walk) := walk.play rest
          (reply :: replies, returned, walk)
      | (reply, false, walk) => ([reply], false, walk)

/-- Walk on, removing the elements that satisfy a test, for at most a number of rounds: the
elements delivered, and the walk afterwards. -/
def sweepWithin (drop : α → Bool) : Nat → Walk α → List α × Walk α
  | 0, walk => ([], walk)
  | rounds + 1, walk =>
      match walk.next with
      | (.error _, walk) => ([], walk)
      | (.ok item, walk) =>
          let walk := if drop item then walk.remove.2 else walk
          let (items, walk) := sweepWithin drop rounds walk
          (item :: items, walk)

/-- Walk through a whole container, removing the elements that satisfy a test. -/
def sweep (drop : α → Bool) (walk : Walk α) : List α × Walk α :=
  sweepWithin drop walk.container.items.length walk

end Walk

end Collections.Shared
