import Collections.Bytes

/-!
# Building texts

A builder appends texts and numbers to a target, which may hold a text already, and can be
emptied.
-/

set_option autoImplicit false

namespace Collections.Text

/-- Something to append. -/
inductive Piece where
  | text (value : Bytes)
  | number (value : Int)

/-- The text that is appended for a piece. -/
def Piece.render : Piece → Bytes
  | text value => value
  | number value => Bytes.ofInt value

/-- The text that is being built. -/
structure Builder where
  target : Bytes := []

namespace Builder

def append (builder : Builder) (piece : Piece) : Builder := ⟨builder.target ++ piece.render⟩

def appendAll (builder : Builder) (pieces : List Piece) : Builder := pieces.foldl append builder

def clear (_builder : Builder) : Builder := {}

/-- Append a piece, or empty the builder where there is none. -/
def step (builder : Builder) : Option Piece → Builder
  | some piece => builder.append piece
  | none => builder.clear

/-- The texts after each of several steps, and the builder after all. -/
def run (builder : Builder) : List (Option Piece) → List Bytes × Builder
  | [] => ([], builder)
  | first :: rest =>
      let builder := builder.step first
      let (texts, last) := builder.run rest
      (builder.target :: texts, last)

end Builder

end Collections.Text
