import Collections.Weak.Session.Basic
import Collections.Weak.Set

/-!
# Sessions with a set of reclaimable elements

The elements are objects held by name. To keep an element that was found, its place is pinned, and
the pin holds the element until it is removed.
-/

set_option autoImplicit false

namespace Collections.Weak

abbrev SetSession : Type := Session (WeakSet Object)

namespace SetSession

/-- An operation on the set. -/
inductive Operation where
  | insert (name : Option Bytes)
  /-- Make objects and insert each. -/
  | insertRange (range : NameRange)
  | find (name : Option Bytes)
  /-- Look a fresh object of a value up. -/
  | contains (value : Int)
  | erase (name : Option Bytes)
  /-- Find an element and erase it where it was found. -/
  | eraseFound (name : Option Bytes)
  | size
  | empty
  | clear
  | purge
  | iterate
  /-- Erase the elements of values below a bound while walking the set. -/
  | eraseBelow (bound : Int)
  /-- Copy the set, clear it, and count the copy. -/
  | copySize
  | pin (name : Option Bytes) (label : Bytes)
  | pinned (label : Bytes)
  | unpin (label : Bytes)

def alive (session : SetSession) : Object → Bool := session.holdings.holds

/-- The number of live elements. -/
def size (session : SetSession) : Nat := session.container.size session.alive

def start (keying : Keying Object) : SetSession := { container := { keying } }

/-- Insert an object that has just been made. -/
def give (session : SetSession) (object : Object) : SetSession :=
  session.withContainer (session.container.insert session.alive (some object)).2

/-- Carry out an operation. -/
def perform? (session : SetSession) : Operation → Option (SessionAnswer × SetSession)
  | .insert name => do
      let element ← session.holdings.operand? name
      let (result, set) := session.container.insert session.alive element
      let answer := match result with
        | .ok (present, added) => .inserted added present.name
        | .error cause => .failed cause
      return (answer, session.withContainer set)
  | .insertRange range => some (.done, Session.giveEach give session range)
  | .find name => do
      let element ← session.holdings.operand? name
      return (.name ((session.container.find? session.alive element).map (·.name)), session)
  | .contains value =>
      some (.flag (session.container.contains session.alive (.probe value)), session)
  | .erase name => do
      let element ← session.holdings.operand? name
      let (erased, set) := session.container.erase session.alive element
      return (.count erased.toNat, session.withContainer set)
  | .eraseFound name => do
      let element ← session.holdings.operand? name
      let (found, set) := session.container.eraseFound session.alive element
      return (.flag found, session.withContainer set)
  | .size => some (.count session.size, session)
  | .empty => some (.flag (session.container.isEmpty session.alive), session)
  | .clear => some (.done, session.withContainer session.container.clear)
  | .purge =>
      let (purged, set) := session.container.purge session.alive
      some (.count purged, session.withContainer set)
  | .iterate =>
      some (.names (Object.sortedNames (session.container.elements session.alive)), session)
  | .eraseBelow bound =>
      let (elements, walk) := session.container.removeWhere session.alive fun element =>
        decide (element.value < bound)
      some (.names (Object.sortedNames elements), session.withContainer walk.set)
  | .copySize =>
      let copy := session.container
      some (.count (copy.size session.alive), session.withContainer session.container.clear)
  | .pin name label => do
      let element ← session.holdings.operand? name
      match session.container.find? session.alive element with
      | none => return (.flag false, session)
      | some present =>
          return (.flag true, session.withHoldings (session.holdings.pin label present))
  | .pinned label => do
      let element ← session.holdings.pinned? label
      return (.name (some element.name), session)
  | .unpin label =>
      let (count, holdings) := session.holdings.unpin label
      some (.count count, session.withHoldings holdings)

/-- Make steps, with the number of live elements after each. -/
def run? (session : SetSession) :
    List (SessionStep Operation) → Option (List (SessionAnswer × Nat) × SetSession) :=
  Session.run? perform? size session

end SetSession

end Collections.Weak
