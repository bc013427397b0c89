import Collections.Cursor.Store

/-!
# Cursors

A cursor delivers elements one after the other and may remove the one it delivered last. A list
cursor also walks backward, overwrites and inserts. Cursors are built from other cursors: a list
cursor has a reversed view, two cursors have a combination which delivers the elements of the
first and then those of the second, and a cursor has a view that reads only.

A combination asks its first part for an element as long as that part has one. The first time it
is found exhausted the combination goes over to the second part, and does not come back. Only a
question whether there is a next element makes it go over (`Cursor.hasNext`), and delivery asks
that question first.

A reversed view walks its source the other way, with the two ends traded in what it reports.
Inserting through it leaves the new element behind the view, so it inserts through the source
and then takes one step back there.
-/

set_option autoImplicit false

namespace Collections

/-- A cursor that walks a list both ways. -/
inductive ListCursor where
  /-- The cursor at a place of a container. -/
  | direct (source slot : Handle)
  /-- The view of a list cursor that walks the other way. -/
  | reversed (view : Handle) (source : ListCursor)
  deriving DecidableEq, Repr

/-- A cursor over elements of one type. -/
inductive Cursor (α : Type) where
  /-- The one-way cursor at a place of a container. -/
  | direct (source slot : Handle)
  /-- A list cursor, used as a cursor. -/
  | ofList (cursor : ListCursor)
  /-- The pieces of a text, read as elements. -/
  | pieces (slot : Handle) (read : Bytes → α)
  /-- The cursor without elements. -/
  | empty
  /-- The elements of one cursor and then those of another. -/
  | combined (switch : Handle) (first second : Cursor α)
  /-- A view that does not edit. -/
  | readOnly (view : Handle) (source : Cursor α)

variable {α : Type}

/-- What an operation answers, and the store after it. -/
abbrev Outcome (α β : Type) := Except CursorError β × Store α

namespace ListCursor

/-- The handle that tells a list cursor apart from every other cursor. -/
def handle : ListCursor → Handle
  | direct _ slot => slot
  | reversed view _ => view

/-- The container that a list cursor walks. -/
def container : ListCursor → Handle
  | direct source _ => source
  | reversed _ source => source.container

/-! ## Walking -/

/-- The failure of a step in a direction. -/
def pastError : Direction → CursorError
  | .forward => .pastEnd
  | .backward => .pastStart

/-- Whether a step in a direction would deliver an element. -/
def hasStep : ListCursor → Direction → Store α → Bool
  | direct source slot, direction, store => (store.container source).hasStep slot direction
  | reversed _ source, direction, store => source.hasStep direction.opposite store

/-- Step over one element and deliver it. -/
def step : ListCursor → Direction → Store α → Outcome α α
  | direct source slot, direction, store =>
      match (store.container source).step? slot direction with
      | some (item, container) => (.ok item, store.put source container)
      | none => (.error (pastError direction), store)
  | reversed _ source, direction, store =>
      match source.step direction.opposite store with
      | (.ok item, store) => (.ok item, store)
      | (.error cause, store) => (.error cause.turned, store)

/-- The index of the element that a step in a direction would deliver, counted from the start of
the container. -/
def index : ListCursor → Direction → Store α → Int
  | direct source slot, direction, store =>
      match direction with
      | .forward => ((store.container source).places.get slot).next
      | .backward => ((store.container source).places.get slot).next - 1
  | reversed _ source, direction, store => source.index direction.opposite store

def hasNext (cursor : ListCursor) (store : Store α) : Bool := cursor.hasStep .forward store

def hasPrevious (cursor : ListCursor) (store : Store α) : Bool := cursor.hasStep .backward store

def next (cursor : ListCursor) (store : Store α) : Outcome α α := cursor.step .forward store

def previous (cursor : ListCursor) (store : Store α) : Outcome α α := cursor.step .backward store

def nextIndex (cursor : ListCursor) (store : Store α) : Int := cursor.index .forward store

def previousIndex (cursor : ListCursor) (store : Store α) : Int := cursor.index .backward store

/-! ## Editing -/

/-- Remove the element delivered last. -/
def remove : ListCursor → Store α → Outcome α Unit
  | direct source slot, store =>
      match (store.container source).removeIndexed? slot with
      | some container => (.ok (), store.put source container)
      | none => (.error .noCurrent, store)
  | reversed _ source, store => source.remove store

/-- Overwrite the element delivered last. -/
def set : ListCursor → α → Store α → Outcome α Unit
  | direct source slot, item, store =>
      match (store.container source).setCurrent? slot item with
      | some container => (.ok (), store.put source container)
      | none => (.error .noCurrent, store)
  | reversed _ source, item, store => source.set item store

/-- Insert an element where the cursor stands. It comes to lie behind the cursor. -/
def add : ListCursor → α → Store α → Outcome α Unit
  | direct source slot, item, store =>
      (.ok (), store.put source ((store.container source).add slot item))
  | reversed _ source, item, store =>
      match source.add item store with
      | (.ok (), store) =>
          match source.step .backward store with
          | (.ok _, store) => (.ok (), store)
          | (.error cause, store) => (.error cause, store)
      | (.error cause, store) => (.error cause, store)

/-! ## Reversing -/

/-- The source of a reversed view. -/
def reversedSource? : ListCursor → Option ListCursor
  | direct _ _ => none
  | reversed _ source => some source

def isReversed (cursor : ListCursor) : Bool := cursor.reversedSource?.isSome

/-- The list cursor that walks the other way: the source of a view, a view of anything else. -/
def reverse (cursor : ListCursor) (store : Store α) : ListCursor × Store α :=
  match cursor.reversedSource? with
  | some source => (source, store)
  | none =>
      let (view, store) := store.allocate
      (reversed view cursor, store)

end ListCursor

namespace Cursor

/-- The handle that tells a cursor apart from every other one. All empty cursors are one. -/
def handle? : Cursor α → Option Handle
  | direct _ slot => some slot
  | ofList cursor => some cursor.handle
  | pieces slot _ => some slot
  | empty => none
  | combined switch _ _ => some switch
  | readOnly view _ => some view

/-- The list cursor that a cursor is, if it is one. -/
def asList? : Cursor α → Option ListCursor
  | ofList cursor => some cursor
  | _ => none

/-! ## Reading -/

/-- Whether there is a next element. A combination whose first part is found exhausted goes over
to the second. -/
def hasNext : Cursor α → Store α → Bool × Store α
  | direct source slot, store => ((store.container source).hasStep slot .forward, store)
  | ofList cursor, store => (cursor.hasNext store, store)
  | pieces slot _, store => ((store.splitters.get slot).hasNext, store)
  | empty, store => (false, store)
  | combined switch first second, store =>
      if store.hasCrossed switch then second.hasNext store
      else
        match first.hasNext store with
        | (true, store) => (true, store)
        | (false, store) => second.hasNext (store.cross switch)
  | readOnly _ source, store => source.hasNext store

/-- Deliver the next element. -/
def next : Cursor α → Store α → Outcome α α
  | direct source slot, store =>
      match (store.container source).step? slot .forward with
      | some (item, container) => (.ok item, store.put source container)
      | none => (.error .pastEnd, store)
  | ofList cursor, store => cursor.next store
  | pieces slot read, store =>
      match (store.splitters.get slot).next? with
      | some (piece, splitter) =>
          (.ok (read piece), { store with splitters := store.splitters.set slot splitter })
      | none => (.error .pastEnd, store)
  | empty, store => (.error .pastEnd, store)
  | combined switch first second, store =>
      match (combined switch first second).hasNext store with
      | (false, store) => (.error .pastEnd, store)
      | (true, store) =>
          if store.hasCrossed switch then second.next store else first.next store
  | readOnly _ source, store => source.next store

/-! ## Editing -/

/-- Remove the element delivered last. A combination passes this to the part it is at. -/
def remove : Cursor α → Store α → Outcome α Unit
  | direct source slot, store =>
      match (store.container source).removeCurrent? slot with
      | some container => (.ok (), store.put source container)
      | none => (.error .noCurrent, store)
  | ofList cursor, store => cursor.remove store
  | pieces _ _, store => (.error .unsupported, store)
  | empty, store => (.error .noCurrent, store)
  | combined switch first second, store =>
      if store.hasCrossed switch then second.remove store else first.remove store
  | readOnly _ _, store => (.error .unsupported, store)

/-! ## Combining -/

/-- The elements of one cursor and then those of another. -/
def combine (first second : Cursor α) (store : Store α) : Cursor α × Store α :=
  let (switch, store) := store.allocate
  (combined switch first second, store.uncross switch)

/-- Combine two cursors, either of which may be absent. -/
def combine? (first second : Option (Cursor α)) (store : Store α) : Outcome α (Cursor α) :=
  match first, second with
  | none, _ => (.error .firstNull, store)
  | some _, none => (.error .secondNull, store)
  | some first, some second =>
      let (cursor, store) := combine first second store
      (.ok cursor, store)

/-- Combine three cursors: the first two, and the result with the third. -/
def combineThree? (first second third : Option (Cursor α)) (store : Store α) :
    Outcome α (Cursor α) :=
  match combine? first second store with
  | (.ok pair, store) => combine? (some pair) third store
  | failed => failed

/-- Combine four cursors: the first two, the last two, and the two results. -/
def combineFour? (first second third fourth : Option (Cursor α)) (store : Store α) :
    Outcome α (Cursor α) :=
  match combine? first second store with
  | (.ok front, store) =>
      match combine? third fourth store with
      | (.ok back, store) => combine? (some front) (some back) store
      | failed => failed
  | failed => failed

end Cursor

end Collections
