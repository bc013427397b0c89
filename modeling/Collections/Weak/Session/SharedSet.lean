import Collections.Weak.Session.Basic
import Collections.Weak.SharedSet

/-!
# Sessions with a shared set of reclaimable elements
-/

set_option autoImplicit false

namespace Collections.Weak

abbrev SharedSetSession : Type := Session (SharedWeakSet Object)

namespace SharedSetSession

/-- An operation on the set. -/
inductive Operation where
  | insert (name : Option Bytes)
  /-- Make objects and insert each. -/
  | insertRange (range : NameRange)
  | contains (name : Option Bytes)
  | erase (name : Option Bytes)
  | size
  | empty
  | clear
  | purge
  /-- Count a copy of the set. -/
  | snapshotSize
  | iterate
  /-- Remove the elements of values below a bound while walking the set. -/
  | eraseBelow (bound : Int)

def alive (session : SharedSetSession) : Object → Bool := session.holdings.holds

/-- The number of live elements. -/
def size (session : SharedSetSession) : Nat := session.container.size session.alive

def start (keying : Keying Object) : SharedSetSession := { container := .empty keying }

/-- Insert an object that has just been made. -/
def give (session : SharedSetSession) (object : Object) : SharedSetSession :=
  session.withContainer (session.container.insert session.alive (some object)).2

/-- Carry out an operation. -/
def perform? (session : SharedSetSession) : Operation → Option (SessionAnswer × SharedSetSession)
  | .insert name => do
      let element ← session.holdings.operand? name
      let (result, set) := session.container.insert session.alive element
      let answer := match result with
        | .ok added => .flag added
        | .error cause => .failed cause
      return (answer, session.withContainer set)
  | .insertRange range => some (.done, Session.giveEach give session range)
  | .contains name => do
      let element ← session.holdings.operand? name
      return (.flag (session.container.contains session.alive element), session)
  | .erase name => do
      let element ← session.holdings.operand? name
      let (erased, set) := session.container.erase session.alive element
      return (.flag erased, session.withContainer set)
  | .size => some (.count session.size, session)
  | .empty => some (.flag (session.container.isEmpty session.alive), session)
  | .clear => some (.done, session.withContainer session.container.clear)
  | .purge =>
      let (purged, set) := session.container.purge session.alive
      some (.count purged, session.withContainer set)
  | .snapshotSize => some (.count (session.container.snapshot.size session.alive), session)
  | .iterate =>
      some (.names (Object.sortedNames (session.container.elements session.alive)), session)
  | .eraseBelow bound =>
      let ((elements, removed), set) := session.container.removeWhere session.alive fun element =>
        decide (element.value < bound)
      some (.removed (Object.sortedNames elements) removed, session.withContainer set)

/-- Make steps, with the number of live elements after each. -/
def run? (session : SharedSetSession) :
    List (SessionStep Operation) →
      Option (List (SessionAnswer × Nat) × SharedSetSession) :=
  Session.run? perform? size session

end SharedSetSession

end Collections.Weak
