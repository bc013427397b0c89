import Collections.Weak.Map
import Collections.Weak.Session.Basic

/-!
# Sessions with a map of reclaimable keys

The keys of the map are objects held by name, and the map itself keeps none of them alive. Look-ups
are made with a fresh object of a given value.
-/

set_option autoImplicit false

namespace Collections.Weak

abbrev MapSession : Type := Session (WeakMap Object Int)

namespace MapSession

/-- An operation on the map. Keys are given by name where they are stored, and by value where they
are looked up. -/
inductive Operation where
  | put (key : Option Bytes) (value : Int)
  /-- Make objects, and map each to ten times its value. -/
  | putRange (range : NameRange)
  | get (value : Int)
  | contains (value : Int)
  | erase (value : Int)
  | size
  | empty
  | clear
  | purge
  /-- Add a number to every mapped value. -/
  | forEach (summand : Int)

def alive (session : MapSession) : Object → Bool := session.holdings.holds

/-- The number of live mappings. -/
def size (session : MapSession) : Nat := session.container.size session.alive

def start (keying : Keying Object) : MapSession := { container := { keying } }

/-- Map an object that has just been made to ten times its value. -/
def give (session : MapSession) (object : Object) : MapSession :=
  session.withContainer
    (session.container.put session.alive (some object) (10 * object.value)).2

/-- Carry out an operation. -/
def perform? (session : MapSession) : Operation → Option (SessionAnswer × MapSession)
  | .put key value => do
      let key ← session.holdings.operand? key
      let (result, map) := session.container.put session.alive key value
      let answer := match result with
        | .ok previous => .number previous
        | .error cause => .failed cause
      return (answer, session.withContainer map)
  | .putRange range => some (.done, Session.giveEach give session range)
  | .get value => some (.number (session.container.get? session.alive (.probe value)), session)
  | .contains value =>
      some (.flag (session.container.contains session.alive (.probe value)), session)
  | .erase value =>
      let (previous, map) := session.container.erase session.alive (.probe value)
      some (.number previous, session.withContainer map)
  | .size => some (.count session.size, session)
  | .empty => some (.flag (session.container.isEmpty session.alive), session)
  | .clear => some (.done, session.withContainer session.container.clear)
  | .purge =>
      let (purged, map) := session.container.purge session.alive
      some (.count purged, session.withContainer map)
  | .forEach summand =>
      let (entries, map) :=
        session.container.forEach session.alive fun _ value => value + summand
      some (.numbered (Object.sortedWith entries), session.withContainer map)

/-- Make steps, with the number of live mappings after each. -/
def run? (session : MapSession) :
    List (SessionStep Operation) → Option (List (SessionAnswer × Nat) × MapSession) :=
  Session.run? perform? size session

end MapSession

end Collections.Weak
