import Collections.Cursor.Sequence

/-!
# Reading cursors to the end

All elements of a cursor as a list, joined to a text, or visited one by one through a reader.

A reader is one element ahead of what is read from it: it fetches an element when it is made and
another whenever it advances, so its cursor has always delivered one element more. A reader that
fetched nothing is at the end for good. If the cursor fails to deliver an element that it has said
is there, no reader is made, or the reader stays where it is.

Reading to the end stops at the first answer that nothing is left. Every part of a cursor can be
walked over at most once, so `Cursor.limit` bounds the number of elements, and one question more
than that many is enough.
-/

set_option autoImplicit false

namespace Collections

variable {α : Type}

namespace Cursor

/-- At most this many elements can still come from a cursor. -/
def limit : Cursor α → Store α → Nat
  | direct source _, store => (store.items source).length
  | ofList cursor, store => (store.items cursor.container).length
  | pieces slot _, store => (store.splitters.get slot).limit
  | empty, _ => 0
  | combined _ first second, store => first.limit store + second.limit store
  | readOnly _ source, store => source.limit store

/-- Read elements until none is left, in at most the given number of rounds. -/
def drainWithin : Nat → Cursor α → Store α → Outcome α (List α)
  | 0, _, store => (.ok [], store)
  | rounds + 1, cursor, store =>
      match cursor.hasNext store with
      | (false, store) => (.ok [], store)
      | (true, store) =>
          match cursor.next store with
          | (.error cause, store) => (.error cause, store)
          | (.ok item, store) =>
              match drainWithin rounds cursor store with
              | (.ok items, store) => (.ok (item :: items), store)
              | (.error cause, store) => (.error cause, store)

/-- The elements that are left, in order. The cursor is at its end afterwards. -/
def toArray (cursor : Cursor α) (store : Store α) : Outcome α (List α) :=
  drainWithin (cursor.limit store + 1) cursor store

/-- The elements that are left, last to first. -/
def toArrayReversed (cursor : Cursor α) (store : Store α) : Outcome α (List α) :=
  match cursor.toArray store with
  | (.ok items, store) => (.ok items.reverse, store)
  | (.error cause, store) => (.error cause, store)

/-- The texts of the elements that are left, with a separator between neighbours. -/
def join (separator : Bytes) (render : α → Bytes) (cursor : Cursor α) (store : Store α) :
    Outcome α Bytes :=
  match cursor.toArray store with
  | (.ok items, store) => (.ok (Bytes.joined separator (items.map render)), store)
  | (.error cause, store) => (.error cause, store)

end Cursor

/-! ## Readers -/

/-- Reads a cursor one element ahead. At the end it has let go of the cursor. -/
structure Reader (α : Type) where
  cursor : Option (Cursor α)
  current : Option α

namespace Reader

/-- The reader that is at its end. -/
def finished : Reader α := ⟨none, none⟩

def atEnd (reader : Reader α) : Bool := reader.cursor.isNone

/-- Fetch the next element of a cursor, if there is one. -/
def fetch (cursor : Cursor α) (store : Store α) : Outcome α (Reader α) :=
  match cursor.hasNext store with
  | (false, store) => (.ok finished, store)
  | (true, store) =>
      match cursor.next store with
      | (.ok item, store) => (.ok ⟨some cursor, some item⟩, store)
      | (.error cause, store) => (.error cause, store)

/-- Go on to the next element. -/
def advance (reader : Reader α) (store : Store α) : Outcome α (Reader α) :=
  match reader.cursor with
  | none => (.ok reader, store)
  | some cursor => fetch cursor store

/-- Readers are equal if both are at the end, or if they read the same cursor. -/
def equals (left right : Reader α) : Bool :=
  left.cursor.map Cursor.handle? == right.cursor.map Cursor.handle?

/-- The two ways to increment a reader. -/
inductive Increment where
  /-- What is handed out is the reader after the increment. -/
  | pre
  /-- What is handed out is a copy of the reader as it was before. It reads the same cursor. -/
  | post
  deriving DecidableEq, Repr

/-- Increment a reader: what is handed out, the reader afterwards, and the store. A failure hands out
nothing. -/
def increment (state : Reader α × Store α) (kind : Increment) :
    Except CursorError (Reader α) × Reader α × Store α :=
  let (reader, store) := state
  match reader.advance store with
  | (.error cause, store) => (.error cause, reader, store)
  | (.ok next, store) =>
      match kind with
      | .pre => (.ok next, next, store)
      | .post => (.ok reader, next, store)

/-- Read and advance until the end, or until the given number of elements has been read. -/
def take : Nat → Reader α → Store α → Outcome α (List α)
  | 0, _, store => (.ok [], store)
  | count + 1, reader, store =>
      match reader.current with
      | none => (.ok [], store)
      | some item =>
          match reader.advance store with
          | (.error cause, store) => (.error cause, store)
          | (.ok reader, store) =>
              match reader.take count store with
              | (.error cause, store) => (.error cause, store)
              | (.ok items, store) => (.ok (item :: items), store)

end Reader

namespace Cursor

/-- The first elements that are left, read through a reader. The cursor has then delivered one
element more, if it had one. -/
def takeAhead (count : Nat) (cursor : Cursor α) (store : Store α) : Outcome α (List α) :=
  match Reader.fetch cursor store with
  | (.error cause, store) => (.error cause, store)
  | (.ok reader, store) => reader.take count store

/-- All elements that are left, read through a reader. -/
def collect (cursor : Cursor α) (store : Store α) : Outcome α (List α) :=
  cursor.takeAhead (cursor.limit store) store

end Cursor

end Collections
