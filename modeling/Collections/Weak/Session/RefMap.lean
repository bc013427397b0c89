import Collections.Weak.RefMap.Basic
import Collections.Weak.Session.Basic

/-!
# Sessions with a reference map

Keys and values are objects held by name, and by the map as far as its references are strong. An
object that is given to the map is held at least until the call is over.
-/

set_option autoImplicit false

namespace Collections.Weak

abbrev RefMapSession : Type := Session (RefMap Object Object)

namespace RefMapSession

/-- An operation on the map. Objects are given by name, except for keys that are looked up, which
are given by value. -/
inductive Operation where
  | put (key value : Option Bytes)
  | putIfAbsent (key value : Option Bytes)
  /-- Make objects and map each to one object, or each to a new object of ten times its value that
  nothing but the map refers to. -/
  | putRange (range : NameRange) (value : Option Bytes)
  | replace (key : Int) (value : Option Bytes)
  | replaceIf (key : Int) (old new : Option Bytes)
  | get (key : Int)
  | containsKey (key : Int)
  | erase (key : Int)
  | removeIf (key : Int) (value : Option Bytes)
  | size
  | empty
  | clear
  | purge
  | forEach
  /-- Erase every key from inside the visit to it. -/
  | eraseEach
  | info
  /-- Let several callers insert fresh keys of the values from zero on, each unless it is there. -/
  | race (callers keys : Nat)

/-- Whether an object is held by a name, by the call under way, or by the map as it is. -/
def alive (session : RefMapSession) (given : List Object) (map : RefMap Object Object)
    (object : Object) : Bool :=
  given.any (·.id == object.id) || session.holdings.holds object ||
    map.keeps (·.id == object.id) (·.id == object.id)

def liveness (session : RefMapSession) (given : List Object) (map : RefMap Object Object) :
    Liveness Object Object :=
  ⟨session.alive given map, session.alive given map⟩

/-- What is alive between calls. -/
def present (session : RefMapSession) : Liveness Object Object :=
  session.liveness [] session.container

/-- What is alive in the course of a call that is given objects which no name may hold. -/
def moments (session : RefMapSession) (given : List Object) : Moments Object Object :=
  .following (session.liveness given)

/-- What is alive while a visitor holds on to mappings. -/
def held (session : RefMapSession) (visited : List (Object × Object)) (map : RefMap Object Object) :
    Liveness Object Object :=
  session.liveness (visited.flatMap fun (key, value) => [key, value]) map

/-- The number of live mappings. -/
def size (session : RefMapSession) : Nat := session.container.size session.present

/-- Start with an empty map. -/
def start? (keying : Keying Object) (options : RefMapOptions) :
    Option (Except Failure RefMapSession) := do
  match ← RefMap.make? keying (fun left right => left.value == right.value) options with
  | .ok map => return .ok { container := map }
  | .error cause => return .error cause

/-- What an operation answers that may fail for want of a key or a value. -/
def answered (session : RefMapSession) :
    Except WeakError (Option Object) × RefMap Object Object → SessionAnswer × RefMapSession
  | (.ok previous, map) => (.name (previous.map (·.name)), session.withContainer map)
  | (.error cause, map) => (.failed cause, session.withContainer map)

/-- Map an object that has just been made to a value, or to a new object that is not held
otherwise. -/
def give (value : Option Object) (session : RefMapSession) (key : Object) : RefMapSession :=
  match value with
  | some value =>
      session.withContainer
        (session.container.put (session.moments [value]) (some key) (some value)).2
  | none =>
      let (value, holdings) :=
        session.holdings.make (Bytes.ofString "val:" ++ key.name) (10 * key.value)
      let session : RefMapSession := session.withHoldings holdings
      session.withContainer
        (session.container.put (session.moments [value]) (some key) (some value)).2

/-- Insert a fresh key of a value unless it is there, and tell whether it was not. -/
def contend (session : RefMapSession) (number : Nat) : Bool × RefMapSession :=
  let name := Bytes.ofString "race" ++ Bytes.ofNat number
  let (key, holdings) := session.holdings.make name number
  let (value, holdings) := holdings.make name number
  let session : RefMapSession := session.withHoldings holdings
  match session.container.putIfAbsent (session.moments [key, value]) (some key) (some value) with
  | (.ok none, map) => (true, session.withContainer map)
  | (_, map) => (false, session.withContainer map)

/-- Insert fresh keys of several values. Tells how many were not there. -/
def contendAll (session : RefMapSession) : List Nat → Nat × RefMapSession
  | [] => (0, session)
  | first :: rest =>
      let (won, session) := session.contend first
      let (count, session) := session.contendAll rest
      (count + won.toNat, session)

/-- Carry out an operation. -/
def perform? (session : RefMapSession) : Operation → Option (SessionAnswer × RefMapSession)
  | .put key value => do
      let key ← session.holdings.operand? key
      let value ← session.holdings.operand? value
      return session.answered (session.container.put (session.moments []) key value)
  | .putIfAbsent key value => do
      let key ← session.holdings.operand? key
      let value ← session.holdings.operand? value
      return session.answered (session.container.putIfAbsent (session.moments []) key value)
  | .putRange range none => some (.done, Session.giveEach (give none) session range)
  | .putRange range (some name) => do
      let value ← session.holdings.find? name
      return (.done, Session.giveEach (give (some value)) session range)
  | .replace key value => do
      let value ← session.holdings.operand? value
      return session.answered (session.container.replace (session.moments []) (.probe key) value)
  | .replaceIf key old new => do
      let old ← session.holdings.operand? old
      let new ← session.holdings.operand? new
      match session.container.replaceIf (session.moments []) (.probe key) old new with
      | (.ok replaced, map) => return (.flag replaced, session.withContainer map)
      | (.error cause, map) => return (.failed cause, session.withContainer map)
  | .get key =>
      let value := session.container.get? session.present (.probe key)
      some (.name (value.map (·.name)), session)
  | .containsKey key =>
      some (.flag (session.container.containsKey session.present (.probe key)), session)
  | .erase key =>
      let (previous, map) := session.container.erase (session.moments []) (.probe key)
      some (.name (previous.map (·.name)), session.withContainer map)
  | .removeIf key value => do
      let value ← session.holdings.operand? value
      let (removed, map) := session.container.removeIf (session.moments []) (.probe key) value
      return (.flag removed, session.withContainer map)
  | .size => some (.count session.size, session)
  | .empty => some (.flag (session.container.isEmpty session.present), session)
  | .clear => some (.done, session.withContainer session.container.clear)
  | .purge =>
      let (purged, map) := session.container.purge (session.liveness [])
      some (.count purged, session.withContainer map)
  | .forEach =>
      some (visited (session.container.entries session.present), session)
  | .eraseEach =>
      let (entries, map) := session.container.eraseEach session.held
      some (visited entries, session.withContainer map)
  | .info =>
      let map := session.container
      some (.kinds map.keyKind map.valueKind map.segmentCount, session)
  | .race callers keys =>
      let (count, session) :=
        session.contendAll ((List.range callers).flatMap fun _ => List.range keys)
      some (.count count, session)
where
  visited (entries : List (Object × Object)) : SessionAnswer :=
    .paired (Object.sortedWith (entries.map fun (key, value) => (key, value.name)))

/-- Make steps, with the number of live mappings after each. -/
def run? (session : RefMapSession) :
    List (SessionStep Operation) →
      Option (List (SessionAnswer × Nat) × RefMapSession) :=
  Session.run? perform? size session

end RefMapSession

end Collections.Weak
