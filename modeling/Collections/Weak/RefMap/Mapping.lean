import Collections.Weak.Keying
import Collections.Weak.Slot

/-!
# Mappings

A mapping refers to a key and to a value, strongly or weakly, and stands under the hash of the key.
It is live while neither of the two objects has been reclaimed, and exactly then gives both of them
(`isSome_pair?`).
-/

set_option autoImplicit false

namespace Collections.Weak

/-- Which keys and which values are alive. -/
structure Liveness (κ ν : Type) where
  key : κ → Bool
  value : ν → Bool

/-- A key and a value under the hash of the key. -/
structure Mapping (κ ν : Type) where
  hash : UInt64
  key : Slot κ
  value : Slot ν

namespace Mapping

variable {κ ν : Type}

def live (alive : Liveness κ ν) (mapping : Mapping κ ν) : Bool :=
  !(mapping.key.expired alive.key || mapping.value.expired alive.value)

/-- Whether a mapping is the live one of a key. -/
def wanted (keying : Keying κ) (key : κ) (alive : Liveness κ ν) (mapping : Mapping κ ν) : Bool :=
  mapping.hash == keying.hash key && !mapping.value.expired alive.value &&
    (mapping.key.get? alive.key).any (keying.same · key)

/-- Key and value, unless one of them has been reclaimed. -/
def pair? (alive : Liveness κ ν) (mapping : Mapping κ ν) : Option (κ × ν) := do
  return (← mapping.key.get? alive.key, ← mapping.value.get? alive.value)

/-- The mapping with another value under the same key. -/
def withValue (mapping : Mapping κ ν) (value : ν) : Mapping κ ν :=
  { mapping with value := mapping.value.reset value }

theorem isSome_pair? (alive : Liveness κ ν) (mapping : Mapping κ ν) :
    (mapping.pair? alive).isSome = mapping.live alive := by
  simp only [pair?, live, Slot.get?]
  cases mapping.key.expired alive.key <;> cases mapping.value.expired alive.value <;> rfl

end Mapping

end Collections.Weak
