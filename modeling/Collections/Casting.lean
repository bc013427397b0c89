/-!
# Casts between shared references

A shared reference to an object may be cast to another type. A cast to the type of all objects
always succeeds. A cast to a narrower type succeeds if the object is of it, and gives an absent
reference otherwise. A cast that succeeds refers to the same object, so that the object then has
both references for owners.
-/

set_option autoImplicit false

namespace Collections

/-- The kinds of objects. -/
inductive Shape where
  | round
  | square
  deriving DecidableEq, Repr

/-- A type that a reference can be cast to. -/
inductive CastTarget where
  /-- One kind of objects. -/
  | only (shape : Shape)
  /-- All objects. -/
  | any
  deriving DecidableEq, Repr

/-- A reference to a shared object, or none. -/
structure SharedRef where
  object : Option Shape
  deriving DecidableEq, Repr

namespace SharedRef

/-- Whether an object is of a type. -/
def fits (shape : Shape) : CastTarget → Bool
  | .only wanted => shape == wanted
  | .any => true

/-- Cast a reference. -/
def cast (reference : SharedRef) (target : CastTarget) : SharedRef :=
  ⟨reference.object.filter (fits · target)⟩

/-- The number of owners that an object has through two references. -/
def owners (first second : SharedRef) : Nat := first.object.isSome.toNat + second.object.isSome.toNat

/-- Whether a cast reference is there and shares its object with its source. -/
def shares (source cast : SharedRef) : Bool := cast.object.isSome && owners source cast == 2

end SharedRef

end Collections
