import Collections.Bytes

/-!
# Objects and who holds them

An object has an identity of its own: two objects may bear the same name and value. It lives as
long as something holds it. Holders are the names bound to it and the pins set on it; a pin is
set by whoever is looking at an element and must not lose it.
-/

set_option autoImplicit false

namespace Collections.Weak

/-- An object, known by its number. -/
structure Object where
  id : Nat
  name : Bytes
  value : Int
  deriving DecidableEq, Repr

namespace Object

/-- An object of a value that is made for one look-up alone. -/
def probe (value : Int) : Object := ⟨0, [], value⟩

/-- The names of objects, in ascending order. -/
def sortedNames (objects : List Object) : List Bytes :=
  (objects.map (·.name)).mergeSort fun left right => (compare left right).isLE

/-- The names of objects with something that belongs to each, in ascending order. -/
def sortedWith {β : Type} [Ord β] (pairs : List (Object × β)) : List (Bytes × β) :=
  (pairs.map fun (object, other) => (object.name, other)).mergeSort fun left right =>
    ((compare left.1 right.1).then (compare left.2 right.2)).isLE

end Object

/-- The names and pins that hold objects. -/
structure Holdings where
  named : List (Bytes × Object) := []
  pinned : List (Bytes × Object) := []
  /-- The number of the next object. -/
  fresh : Nat := 1

namespace Holdings

/-- Whether a name or a pin holds an object. -/
def holds (holdings : Holdings) (object : Object) : Bool :=
  holdings.named.any (·.2.id == object.id) || holdings.pinned.any (·.2.id == object.id)

def find? (holdings : Holdings) (name : Bytes) : Option Object := holdings.named.lookup name

/-- Make an object that nothing holds yet. -/
def make (holdings : Holdings) (name : Bytes) (value : Int) : Object × Holdings :=
  (⟨holdings.fresh, name, value⟩, { holdings with fresh := holdings.fresh + 1 })

/-- Bind a name to an object. A former object of that name is let go. -/
def bind (holdings : Holdings) (name : Bytes) (object : Object) : Holdings :=
  { holdings with named := (name, object) :: holdings.named.filter (·.1 != name) }

/-- Make an object and bind its name to it. -/
def new (holdings : Holdings) (name : Bytes) (value : Int) : Object × Holdings :=
  let (object, holdings) := holdings.make name value
  (object, holdings.bind name object)

/-- Let the object of a name go. -/
def drop (holdings : Holdings) (name : Bytes) : Holdings :=
  { holdings with named := holdings.named.filter (·.1 != name) }

/-- Let the objects of several names go, and tell how many of the names were bound. -/
def dropAll (holdings : Holdings) : List Bytes → Nat × Holdings
  | [] => (0, holdings)
  | name :: rest =>
      let (count, after) := (holdings.drop name).dropAll rest
      (count + (holdings.find? name).isSome.toNat, after)

/-- Pin an object under a name. A former pin of that name is removed. -/
def pin (holdings : Holdings) (name : Bytes) (object : Object) : Holdings :=
  { holdings with pinned := (name, object) :: holdings.pinned.filter (·.1 != name) }

def pinned? (holdings : Holdings) (name : Bytes) : Option Object := holdings.pinned.lookup name

/-- Remove a pin, and tell how many there were. -/
def unpin (holdings : Holdings) (name : Bytes) : Nat × Holdings :=
  ((holdings.pinned? name).isSome.toNat,
    { holdings with pinned := holdings.pinned.filter (·.1 != name) })

/-- An object that may be named or absent: `none` when a name is given that is not bound. -/
def operand? (holdings : Holdings) : Option Bytes → Option (Option Object)
  | none => some none
  | some name => (holdings.find? name).map some

end Holdings

/-- A run of numbers, and names made of a common front and the number. -/
structure NameRange where
  front : Bytes
  first : Int
  /-- The number behind the last one. -/
  bound : Int

namespace NameRange

def numbers (range : NameRange) : List Int :=
  (List.range (range.bound - range.first).toNat).map fun (offset : Nat) =>
    range.first + (offset : Int)

def name (range : NameRange) (number : Int) : Bytes := range.front ++ Bytes.ofInt number

def names (range : NameRange) : List Bytes := range.numbers.map range.name

end NameRange

end Collections.Weak
