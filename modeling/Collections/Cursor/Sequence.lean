import Collections.Cursor.Basic

/-!
# Sequences

A sequence is something that a cursor can be asked of, any number of times. Most sequences start
anew with every cursor: a container, a list backward, the pieces of a text, the empty sequence,
and the combination of two sequences. The sequence made of one cursor (`Sequence.loop`) hands out
that same cursor every time, so its elements are delivered once in all.
-/

set_option autoImplicit false

namespace Collections

/-- A sequence of elements, named by the handle it was made with. -/
inductive Sequence (α : Type) where
  /-- The elements of a container. -/
  | forward (view source : Handle)
  /-- The elements of a list, last to first. -/
  | backward (view source : Handle)
  /-- The pieces of a text, read as elements. -/
  | pieces (view : Handle) (start : Splitter) (read : Bytes → α)
  /-- The sequence without elements. -/
  | empty
  /-- The elements of one sequence and then those of another. -/
  | combined (view : Handle) (first second : Sequence α)
  /-- A sequence with its own interface hidden. -/
  | guarded (view : Handle) (source : Sequence α)
  /-- The sequence whose only cursor is a given one. -/
  | loop (view : Handle) (cursor : Cursor α)

namespace Sequence

variable {α : Type}

/-- The handle that tells a sequence apart from every other one. All empty sequences are one. -/
def handle? : Sequence α → Option Handle
  | forward view _ => some view
  | backward view _ => some view
  | pieces view _ _ => some view
  | empty => none
  | combined view _ _ => some view
  | guarded view _ => some view
  | loop view _ => some view

end Sequence

namespace Store

variable {α : Type}

/-! ## Cursors over containers -/

/-- A one-way cursor at the start of a container. -/
def cursorOver (store : Store α) (source : Handle) : Cursor α × Store α :=
  let (slot, store) := store.openPlace source (store.container source).grip 0
  (.direct source slot, store)

/-- A list cursor in front of a position of a container. -/
def listCursorOver (store : Store α) (source : Handle) (start : Nat) : ListCursor × Store α :=
  let (slot, store) := store.openPlace source .number start
  (.direct source slot, store)

/-- The list cursor that walks a list backward from its end. -/
def backwardCursorOver (store : Store α) (source : Handle) : ListCursor × Store α :=
  let (cursor, store) := store.listCursorOver source (store.items source).length
  cursor.reverse store

/-- A cursor over the pieces of a text. -/
def cursorOfPieces (store : Store α) (start : Splitter) (read : Bytes → α) :
    Cursor α × Store α :=
  let (slot, store) := store.allocate
  (.pieces slot read, { store with splitters := store.splitters.set slot start })

end Store

namespace Sequence

variable {α : Type}

/-- A cursor at the start of a sequence. -/
def cursor : Sequence α → Store α → Cursor α × Store α
  | forward _ source, store => store.cursorOver source
  | backward _ source, store =>
      let (cursor, store) := store.backwardCursorOver source
      (.ofList cursor, store)
  | pieces _ start read, store => store.cursorOfPieces start read
  | empty, store => (.empty, store)
  | combined _ first second, store =>
      let (front, store) := first.cursor store
      let (back, store) := second.cursor store
      Cursor.combine front back store
  | guarded _ source, store => source.cursor store
  | loop _ cursor, store => (cursor, store)

/-! ## Making sequences -/

/-- Make a sequence under an unused handle. -/
def make (build : Handle → Sequence α) (store : Store α) : Sequence α × Store α :=
  let (view, store) := store.allocate
  (build view, store)

/-- Combine two sequences, either of which may be absent. -/
def combine? (first second : Option (Sequence α)) (store : Store α) : Outcome α (Sequence α) :=
  match first, second with
  | none, _ => (.error .firstNull, store)
  | some _, none => (.error .secondNull, store)
  | some first, some second =>
      let (sequence, store) := make (combined · first second) store
      (.ok sequence, store)

/-- Combine three sequences: the first two, and the result with the third. -/
def combineThree? (first second third : Option (Sequence α)) (store : Store α) :
    Outcome α (Sequence α) :=
  match combine? first second store with
  | (.ok pair, store) => combine? (some pair) third store
  | failed => failed

/-- Combine four sequences: the first two, the last two, and the two results. -/
def combineFour? (first second third fourth : Option (Sequence α)) (store : Store α) :
    Outcome α (Sequence α) :=
  match combine? first second store with
  | (.ok front, store) =>
      match combine? third fourth store with
      | (.ok back, store) => combine? (some front) (some back) store
      | failed => failed
  | failed => failed

/-- The pieces of a text, unless the delimiter is empty. -/
def split? (delimiter subject : Bytes) (read : Bytes → α) (store : Store α) :
    Outcome α (Sequence α) :=
  match Splitter.start? delimiter subject with
  | none => (.error .emptyDelimiter, store)
  | some start =>
      let (sequence, store) := make (pieces · start read) store
      (.ok sequence, store)

end Sequence

end Collections
