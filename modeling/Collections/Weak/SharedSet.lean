import Collections.Shared.Set
import Collections.Weak.Set

/-!
# Shared sets of reclaimable elements

A set of reclaimable elements that several callers use at a time, each operation being carried out
while no other is. It reports failures by throwing.
-/

set_option autoImplicit false

namespace Collections.Weak

open Shared (SharedSet)

/-- A set of reclaimable elements behind a lock. -/
structure SharedWeakSet (κ : Type) where
  bare : WeakSet κ

namespace SharedWeakSet

variable {κ : Type}

/-- Wrap an empty set. -/
def empty (keying : Keying κ) : SharedWeakSet κ :=
  ⟨{ keying, notices := [SharedSet.createdNotice 0] }⟩

/-- Insert an element, and tell whether it is new. -/
def insert (set : SharedWeakSet κ) (alive : κ → Bool) (element : Option κ) :
    Except WeakError Bool × SharedWeakSet κ :=
  let (result, bare) := set.bare.insert alive element
  (result.map (·.2), ⟨bare⟩)

/-- Insert elements, in order, and tell how many are new. What was inserted before an absent one
stays. -/
def insertAll (set : SharedWeakSet κ) (alive : κ → Bool) (elements : List (Option κ)) :
    Except WeakError Nat × SharedWeakSet κ :=
  (set.bare.insertAll alive elements).map id (⟨·⟩)

def contains (set : SharedWeakSet κ) (alive : κ → Bool) (element : Option κ) : Bool :=
  (set.bare.find? alive element).isSome

/-- Erase an element, and tell whether it was there. -/
def erase (set : SharedWeakSet κ) (alive : κ → Bool) (element : Option κ) :
    Bool × SharedWeakSet κ :=
  (set.bare.erase alive element).map id (⟨·⟩)

def clear (set : SharedWeakSet κ) : SharedWeakSet κ := ⟨set.bare.clear⟩

/-- Throw out the stale slots, and tell how many there were. -/
def purge (set : SharedWeakSet κ) (alive : κ → Bool) : Nat × SharedWeakSet κ :=
  (set.bare.purge alive).map id (⟨·⟩)

def elements (set : SharedWeakSet κ) (alive : κ → Bool) : List κ := set.bare.elements alive

def size (set : SharedWeakSet κ) (alive : κ → Bool) : Nat := set.bare.size alive

def isEmpty (set : SharedWeakSet κ) (alive : κ → Bool) : Bool := set.bare.isEmpty alive

/-- A copy of the set. -/
def snapshot (set : SharedWeakSet κ) : WeakSet κ := set.bare

/-- Walk through the set, removing the elements that satisfy a test. Answers the elements removed
and their number. -/
def removeWhere [DecidableEq κ] (set : SharedWeakSet κ) (alive drop : κ → Bool) :
    (List κ × Nat) × SharedWeakSet κ :=
  let (elements, walk) := set.bare.removeWhere alive drop
  let bare := walk.set
  ((elements, walk.removed),
    ⟨if walk.removed = 0 then bare
      else bare.say (SharedSet.removedNotice walk.removed (bare.size alive))⟩)

end SharedWeakSet

end Collections.Weak
