import Collections.Weak.RefType

/-!
# Slots

A slot refers to an object, strongly or weakly, and keeps to that kind when it is made to refer
to another object. A weak slot is lost when its object is reclaimed; then it refers to nothing
(`get?`). A strong slot keeps its object alive (`keeps`).
-/

set_option autoImplicit false

namespace Collections.Weak

/-- A reference of a fixed kind. -/
structure Slot (α : Type) where
  kind : RefType
  target : α
  deriving DecidableEq, Repr

namespace Slot

variable {α : Type}

/-- Whether the slot keeps its object alive. -/
def keeps (slot : Slot α) : Bool := !slot.kind.isWeak

/-- Whether the object has been reclaimed. -/
def expired (slot : Slot α) (alive : α → Bool) : Bool := slot.kind.isWeak && !alive slot.target

/-- The object, unless it has been reclaimed. -/
def get? (slot : Slot α) (alive : α → Bool) : Option α :=
  if slot.expired alive then none else some slot.target

/-- Refer to another object. -/
def reset (slot : Slot α) (target : α) : Slot α := { slot with target }

end Slot

end Collections.Weak
