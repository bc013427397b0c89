import Collections.Weak.RefType

/-!
# Options of reference maps

A reference map is split into segments, whose number is a power of two: one is doubled until it
reaches the number that was asked for. The arithmetic is that of 64-bit words. Doubling wraps
around to zero beyond 2^63 and then never reaches anything, so there is no number of segments for
larger counts (`segments?`).
-/

set_option autoImplicit false

namespace Collections.Weak

/-- How a reference map is made. A missing kind of reference is one that does not exist. -/
structure RefMapOptions where
  initialCapacity : UInt64 := 16
  segmentCount : UInt64 := 16
  keyKind : Option RefType := some .strong
  valueKind : Option RefType := some .strong
  deriving DecidableEq, Repr

namespace RefMapOptions

/-! ## Common choices -/

/-- Keys and values are kept alive. -/
def strong : RefMapOptions := {}

/-- A mapping vanishes with its key. -/
def weakKeys : RefMapOptions := { keyKind := some .weak }

/-- A mapping vanishes with its value. -/
def weakValues : RefMapOptions := { valueKind := some .weak }

/-- A mapping vanishes with its key, and there is a single segment. -/
def weakKeysOneSegment : RefMapOptions := { keyKind := some .weak, segmentCount := 1 }

/-! ## Arithmetic -/

/-- Double a number until it reaches a bound, at most a number of times. -/
def doubled? (bound : UInt64) : Nat → UInt64 → Option UInt64
  | 0, _ => none
  | rounds + 1, count => if count < bound then doubled? bound rounds (2 * count) else some count

/-- The number of segments for a count that is asked for. A number that has not been reached when
all bits are shifted out is never reached. -/
def segments? (count : UInt64) : Option UInt64 := doubled? count 65 1

/-- The capacity of each segment when the whole capacity is spread over a number of them. The sum
wraps around. -/
def perSegment (capacity segments : UInt64) : UInt64 := (capacity + segments - 1) / segments

/-- The segment of a hash. -/
def segmentIndex (segments hash : UInt64) : UInt64 := (hash ^^^ (hash >>> 16)) &&& (segments - 1)

end RefMapOptions

end Collections.Weak
