import Collections.Table

/-!
# Containers and the places in them

A container is a list of elements together with the places that cursors hold in it. A place
says which element comes next and which one was delivered last. Moving a place changes nothing
but that place. An edit goes through a place, to the element that this place delivered last, and
may shift the other places.

How a place survives an edit made elsewhere is its grip. In a linked container a place stays
with its element; otherwise it keeps its number (`Place.afterInsert`, `Place.afterErase`).

The element delivered last stands next to the gap that the place marks: just before it after a
step forward, just after it after a step backward. When it is removed, the place of a one-way cursor
goes to where it stood (`Container.removeCurrent?`). The place of a list cursor is an index, and
moves down by one if the removed element stood before it (`Container.removeIndexed?`).
-/

set_option autoImplicit false

namespace Collections

/-- The two ways to walk through a sequence. -/
inductive Direction where
  | forward
  | backward
  deriving DecidableEq, Repr

namespace Direction

def opposite : Direction → Direction
  | forward => backward
  | backward => forward

@[simp]
theorem opposite_opposite (direction : Direction) : direction.opposite.opposite = direction := by
  cases direction <;> rfl

end Direction

/-- What a place holds on to while the container is edited elsewhere. -/
inductive Grip where
  /-- The place keeps its number. -/
  | number
  /-- The place stays with its element. -/
  | element
  deriving DecidableEq, Repr, Inhabited

/-- A place in a list: a gap between two elements, and the element delivered last. -/
structure Place where
  grip : Grip := .number
  /-- The number of elements before the gap. -/
  next : Nat := 0
  /-- The position of the element delivered last, while it may still be edited. -/
  last : Option Nat := none
  deriving DecidableEq, Repr, Inhabited

namespace Place

/-- Where a position goes when an element is inserted. -/
def shiftUp (index position : Nat) : Nat := if index ≤ position then position + 1 else position

/-- Where a position goes when an element is erased. -/
def shiftDown (index position : Nat) : Nat := if index < position then position - 1 else position

/-- The place after an insertion made elsewhere. -/
def afterInsert (index : Nat) (place : Place) : Place :=
  match place.grip with
  | .number => place
  | .element => { place with next := shiftUp index place.next
                             last := place.last.map (shiftUp index) }

/-- The place after an erasure made elsewhere. A place whose last element is erased has none. -/
def afterErase (index : Nat) (place : Place) : Place :=
  match place.grip with
  | .number => place
  | .element =>
      { place with next := shiftDown index place.next
                   last := (place.last.filter (· ≠ index)).map (shiftDown index) }

/-- The position of the element that a step in a direction would deliver. -/
def ahead (place : Place) : Direction → Option Nat
  | .forward => some place.next
  | .backward => if place.next = 0 then none else some (place.next - 1)

/-- The place after a step in a direction that delivered the element at a position. -/
def stepped (place : Place) (position : Nat) : Direction → Place
  | .forward => { place with next := position + 1, last := some position }
  | .backward => { place with next := position, last := some position }

end Place

/-- A list of elements with the places held in it. -/
structure Container (α : Type) where
  /-- How places of one-way cursors hold on. -/
  grip : Grip := .number
  items : List α := []
  places : Table Place := {}

namespace Container

variable {α : Type}

instance : Inhabited (Container α) := ⟨{}⟩

/-- Open a place in front of a position. -/
def openPlace (container : Container α) (slot : Nat) (grip : Grip) (start : Nat) : Container α :=
  { container with places := container.places.set slot { grip, next := start } }

/-! ## Moving -/

/-- Whether a step in a direction would deliver an element. -/
def hasStep (container : Container α) (slot : Nat) (direction : Direction) : Bool :=
  match direction with
  | .forward => (container.places.get slot).next < container.items.length
  | .backward => (container.places.get slot).next ≠ 0

/-- Step over one element and deliver it. -/
def step? (container : Container α) (slot : Nat) (direction : Direction) :
    Option (α × Container α) := do
  let place := container.places.get slot
  let position ← place.ahead direction
  let item ← container.items[position]?
  return (item, { container with
    places := container.places.set slot (place.stepped position direction) })

/-- Where no step would deliver an element, none does. -/
theorem step?_of_hasStep_eq_false {container : Container α} {slot : Nat} {direction : Direction}
    (exhausted : container.hasStep slot direction = false) :
    container.step? slot direction = none := by
  cases direction with
  | forward =>
      have beyond : container.items.length ≤ (container.places.get slot).next := by
        simpa [hasStep] using exhausted
      simp [step?, Place.ahead, List.getElem?_eq_none beyond]
  | backward =>
      have front : (container.places.get slot).next = 0 := by simpa [hasStep] using exhausted
      simp [step?, Place.ahead, front]

/-! ## Editing at a position -/

/-- Insert an element in front of a position. -/
def insertAt (container : Container α) (index : Nat) (item : α) : Container α :=
  { container with items := container.items.insertIdx index item
                   places := container.places.map (Place.afterInsert index) }

/-- Erase the element at a position. -/
def eraseAt (container : Container α) (index : Nat) : Container α :=
  { container with items := container.items.eraseIdx index
                   places := container.places.map (Place.afterErase index) }

/-- Overwrite the element at a position. -/
def setAt (container : Container α) (index : Nat) (item : α) : Container α :=
  { container with items := container.items.set index item }

/-- Drop all elements. -/
def clear (container : Container α) : Container α :=
  { container with items := []
                   places := container.places.map fun place => { place with next := 0, last := none } }

/-! ## Editing through a place -/

/-- The position of the element that a place delivered last, if it is still in range. -/
def current? (container : Container α) (slot : Nat) : Option Nat :=
  (container.places.get slot).last.filter (· < container.items.length)

/-- Remove the element delivered last. The place goes to where it stood. -/
def removeCurrent? (container : Container α) (slot : Nat) : Option (Container α) := do
  let index ← container.current? slot
  let place := container.places.get slot
  let erased := container.eraseAt index
  return { erased with places := erased.places.set slot { place with next := index, last := none } }

/-- Remove the element delivered last, through a place that is an index. It moves down with the
elements behind the removed one. -/
def removeIndexed? (container : Container α) (slot : Nat) : Option (Container α) := do
  let index ← container.current? slot
  let place := container.places.get slot
  let erased := container.eraseAt index
  return { erased with
    places := erased.places.set slot
      { place with next := Place.shiftDown index place.next, last := none } }

/-- Overwrite the element delivered last. -/
def setCurrent? (container : Container α) (slot : Nat) (item : α) : Option (Container α) := do
  let index ← container.current? slot
  return container.setAt index item

/-- Insert an element into the gap and step over it. There is no last element afterwards. -/
def add (container : Container α) (slot : Nat) (item : α) : Container α :=
  let place := container.places.get slot
  let inserted := container.insertAt place.next item
  { inserted with
    places := inserted.places.set slot { place with next := place.next + 1, last := none } }

end Container

end Collections
