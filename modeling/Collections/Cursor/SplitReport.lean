import Collections.Cursor.Consuming

/-!
# What a split gives

The pieces of a text in both orders, and the texts that joining them gives, each read from a
cursor of its own over one and the same sequence of pieces.
-/

set_option autoImplicit false

namespace Collections

/-- The pieces of a text and what joining them gives. -/
structure SplitReport where
  pieces : List Bytes
  reversed : List Bytes
  joined : Bytes
  /-- The pieces joined with another separator. -/
  glued : Option Bytes

namespace SplitReport

/-- Read a sequence from a new cursor. -/
def reading {β : Type} (pieces : Sequence Bytes) (read : Cursor Bytes → Store Bytes → Outcome Bytes β)
    (store : Store Bytes) : Outcome Bytes β :=
  let (cursor, store) := pieces.cursor store
  read cursor store

/-- Split a text and join the pieces again. -/
def ofText (delimiter subject : Bytes) (glue : Option Bytes) : Except CursorError SplitReport := do
  match Sequence.split? delimiter subject id {} with
  | (.error cause, _) => throw cause
  | (.ok sequence, store) =>
      let (pieces, store) := reading sequence Cursor.toArray store
      let (reversed, store) := reading sequence Cursor.toArrayReversed store
      let (joined, store) := reading sequence (Cursor.join delimiter id) store
      let pieces ← pieces
      let reversed ← reversed
      let joined ← joined
      match glue with
      | none => return { pieces, reversed, joined, glued := none }
      | some separator =>
          let glued ← (reading sequence (Cursor.join separator id) store).1
          return { pieces, reversed, joined, glued := some glued }

end SplitReport

end Collections
