import Collections.Log.Notice
import Collections.Weak.Keying
import Collections.Weak.SlotTable

/-!
# Sets of reclaimable elements

A set that does not keep its elements alive: an element vanishes when it is reclaimed. To insert
an element that equals one that is there keeps the one that is there.

Whoever looks at an element pins it, so that it cannot be reclaimed under the eye. A walk through
the set pins two: the element it will deliver next and the one it delivered last (`SetWalk`).
Stale slots are passed over when the walk moves on. That takes time, and elements may be reclaimed
meanwhile, so each operation of a walk has a form that asks at every position anew
(`SetWalk.startDuring`, `SetWalk.nextDuring`, `SetWalk.removeDuring`). The plain forms are those in
which nothing is reclaimed meanwhile.
-/

set_option autoImplicit false

namespace Collections.Weak

open Log (Notice)

/-- An element under its hash. -/
structure SetSlot (κ : Type) where
  hash : UInt64
  element : κ

/-- A set that does not keep its elements alive. -/
structure WeakSet (κ : Type) where
  keying : Keying κ
  table : SlotTable (SetSlot κ) := {}
  notices : List Notice := []

namespace WeakSet

variable {κ : Type}

/-- The notice of a sweep that threw something out. -/
def purgedNotice (purged remaining : Nat) : Notice :=
  .trace .weak
    s!"Weak_hash_set {Notice.object}: purged [{purged}] stale elements; [{remaining}] remain."

def say (set : WeakSet κ) (notice : Notice) : WeakSet κ :=
  { set with notices := set.notices ++ [notice] }

/-- A slot is live while its element is. -/
def live (alive : κ → Bool) (slot : SetSlot κ) : Bool := alive slot.element

/-- Whether a slot holds the live element that equals a given one. -/
def wanted (keying : Keying κ) (alive : κ → Bool) (element : κ) (slot : SetSlot κ) : Bool :=
  slot.hash == keying.hash element && keying.same slot.element element && alive slot.element

/-- The live element that equals a given one, with its position. -/
def position? (set : WeakSet κ) (alive : κ → Bool) (element : κ) : Option (Nat × κ) :=
  (set.table.find? (wanted set.keying alive element)).map fun (position, slot) =>
    (position, slot.element)

/-- Take in the outcome of a sweep. -/
def afterSweep (set : WeakSet κ) : Nat × SlotTable (SetSlot κ) → Nat × WeakSet κ
  | (purged, table) =>
      let set := { set with table }
      (purged, if purged = 0 then set else set.say (purgedNotice purged table.slots.length))

/-! ## Operations -/

/-- Throw out the stale slots, and tell how many there were. -/
def purge (set : WeakSet κ) (alive : κ → Bool) : Nat × WeakSet κ :=
  set.afterSweep (set.table.sweep (live alive))

def purgeIfDue (set : WeakSet κ) (alive : κ → Bool) : WeakSet κ :=
  (set.afterSweep (set.table.sweepIfDue (live alive))).2

/-- Insert an element. Answers the element that is in the set, and whether it is new. -/
def insert (set : WeakSet κ) (alive : κ → Bool) (element : Option κ) :
    Except WeakError (κ × Bool) × WeakSet κ :=
  match element with
  | none => (.error .valueNull, set.say (.emitted .valueNull))
  | some element =>
      let set := set.purgeIfDue alive
      match set.position? alive element with
      | some (_, present) => (.ok (present, false), set)
      | none =>
          let slot := ⟨set.keying.hash element, element⟩
          (.ok (element, true), { set with table := set.table.insert slot })

/-- The element of the set that equals a given one. -/
def find? (set : WeakSet κ) (alive : κ → Bool) (element : Option κ) : Option κ := do
  let (_, present) ← set.position? alive (← element)
  return present

def contains (set : WeakSet κ) (alive : κ → Bool) (element : κ) : Bool :=
  (set.position? alive element).isSome

/-- Erase the element that equals a given one, and tell whether there was one. -/
def erase (set : WeakSet κ) (alive : κ → Bool) (element : Option κ) : Bool × WeakSet κ :=
  match element with
  | none => (false, set)
  | some element =>
      let set := set.purgeIfDue alive
      match set.position? alive element with
      | none => (false, set)
      | some (position, _) => (true, { set with table := set.table.eraseAt position })

/-- Find the element that equals a given one and erase it where it was found. -/
def eraseFound (set : WeakSet κ) (alive : κ → Bool) (element : Option κ) : Bool × WeakSet κ :=
  match element.bind (set.position? alive) with
  | none => (false, set)
  | some (position, _) => (true, { set with table := set.table.eraseAt position })

/-- The live elements. -/
def elements (set : WeakSet κ) (alive : κ → Bool) : List κ :=
  (set.table.slots.filter (live alive)).map (·.element)

def size (set : WeakSet κ) (alive : κ → Bool) : Nat := set.table.liveCount (live alive)

def isEmpty (set : WeakSet κ) (alive : κ → Bool) : Bool := set.size alive == 0

def clear (set : WeakSet κ) : WeakSet κ := { set with table := set.table.clear }

/-- Insert elements, in order, until one is absent. Tells how many are new, or of the failure. What
was inserted before it stays. -/
def insertAll (set : WeakSet κ) (alive : κ → Bool) :
    List (Option κ) → Except WeakError Nat × WeakSet κ
  | [] => (.ok 0, set)
  | element :: rest =>
      match set.insert alive element with
      | (.error cause, set) => (.error cause, set)
      | (.ok (_, added), set) =>
          match set.insertAll alive rest with
          | (.error cause, set) => (.error cause, set)
          | (.ok count, set) => (.ok (count + added.toNat), set)

end WeakSet

/-! ## Walking -/

/-- A walk through a set. -/
structure SetWalk (κ : Type) where
  set : WeakSet κ
  /-- The slot to be delivered next, with the element that is pinned there. -/
  ahead : Option (Nat × κ)
  /-- The element delivered last. It is pinned until another one is delivered. -/
  last : Option κ := none
  /-- Where the element delivered last may be removed, unless it has been. -/
  place : Option Nat := none
  /-- The number of removals. -/
  removed : Nat := 0

namespace SetWalk

variable {κ : Type}

/-- The first slot that is live when the search comes to it, from a position on, and its element. -/
def seekDuring (alive : Nat → κ → Bool) (position : Nat) : List (SetSlot κ) → Option (Nat × κ)
  | [] => none
  | slot :: rest =>
      if WeakSet.live (alive position) slot then some (position, slot.element)
      else seekDuring alive (position + 1) rest

/-- Start to walk a set. -/
def startDuring (set : WeakSet κ) (owned : Nat → κ → Bool) : SetWalk κ :=
  { set, ahead := seekDuring owned 0 set.table.slots }

def start (set : WeakSet κ) (alive : κ → Bool) : SetWalk κ := startDuring set fun _ => alive

def hasNext (walk : SetWalk κ) : Bool := walk.ahead.isSome

section Pinning

variable [DecidableEq κ]

/-- Whether the walk pins an element. -/
def pins (walk : SetWalk κ) (element : κ) : Bool :=
  (walk.ahead.any fun (_, pinned) => pinned = element) || walk.last.any (· = element)

/-- Deliver the element that is pinned ahead, and pin the next live one. The delivered element is
alive whoever else lets it go. -/
def nextDuring (walk : SetWalk κ) (owned : Nat → κ → Bool) : Except CursorError κ × SetWalk κ :=
  match walk.ahead with
  | none => (.error .pastEnd, walk)
  | some (position, element) =>
      let alive (place : Nat) (other : κ) := owned place other || other = element
      let behind := walk.set.table.slots.drop (position + 1)
      (.ok element,
        { walk with ahead := seekDuring alive (position + 1) behind
                    last := some element, place := some position })

/-- Remove the element delivered last. The walk goes on with the first live slot behind it; the
elements that are pinned meanwhile are alive whoever else lets them go. -/
def removeDuring (walk : SetWalk κ) (owned : Nat → κ → Bool) :
    Except CursorError Unit × SetWalk κ :=
  match walk.place with
  | none => (.error .noCurrent, walk)
  | some position =>
      let set := { walk.set with table := walk.set.table.eraseAt position }
      let alive (place : Nat) (element : κ) := owned place element || walk.pins element
      (.ok (), { walk with set, ahead := seekDuring alive position (set.table.slots.drop position)
                           place := none, removed := walk.removed + 1 })

def next (walk : SetWalk κ) (alive : κ → Bool) : Except CursorError κ × SetWalk κ :=
  walk.nextDuring fun _ => alive

def remove (walk : SetWalk κ) (alive : κ → Bool) : Except CursorError Unit × SetWalk κ :=
  walk.removeDuring fun _ => alive

/-- Walk on, removing the elements that satisfy a test, for at most a number of rounds: the
elements removed, and the walk afterwards. -/
def sweepWithin (alive drop : κ → Bool) : Nat → SetWalk κ → List κ × SetWalk κ
  | 0, walk => ([], walk)
  | rounds + 1, walk =>
      match walk.next alive with
      | (.error _, walk) => ([], walk)
      | (.ok element, walk) =>
          if drop element then
            let (elements, walk) := sweepWithin alive drop rounds (walk.remove alive).2
            (element :: elements, walk)
          else sweepWithin alive drop rounds walk

end Pinning

end SetWalk

namespace WeakSet

variable {κ : Type}

/-- Walk through the set, removing the elements that satisfy a test: the elements removed, and the
walk afterwards. -/
def removeWhere [DecidableEq κ] (set : WeakSet κ) (alive drop : κ → Bool) : List κ × SetWalk κ :=
  SetWalk.sweepWithin alive drop set.table.slots.length (SetWalk.start set alive)

end WeakSet

end Collections.Weak
