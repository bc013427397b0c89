import Collections.Bytes

/-!
# Places in source text

A place in source text is written as the file, the function, and the line in parentheses. The file
may be cut to the last segment of its path before.
-/

set_option autoImplicit false

namespace Collections.Text

/-- What stands behind the last slash of a path. -/
def lastSegment (path : Bytes) : Bytes :=
  (path.reverse.takeWhile (· != 47)).reverse

/-- A place in source text. -/
structure Location where
  file : Bytes
  function : Bytes
  line : Nat

namespace Location

/-- A place with no more of its file than the last segment of the path. -/
def short (location : Location) : Location :=
  { location with file := lastSegment location.file }

/-- The written form of a place. -/
def render (location : Location) : Bytes :=
  location.file ++ Bytes.ofString ":" ++ location.function ++ Bytes.ofString "(" ++
    Bytes.ofNat location.line ++ Bytes.ofString ")"

end Location

end Collections.Text
