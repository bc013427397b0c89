import Collections.Weak.Session.Basic
import Collections.Weak.Slot

/-!
# Sessions with a single slot

A strong slot holds its object besides the names that do.
-/

set_option autoImplicit false

namespace Collections.Weak

/-- A session with a slot, which may not have been made yet. -/
abbrev SlotSession : Type := Session (Option (Slot Object))

namespace SlotSession

inductive Operation where
  | make (name : Bytes) (kind : RefType)
  | get
  | expired
  /-- Refer to another object. -/
  | reset (name : Bytes)

def alive (session : SlotSession) (object : Object) : Bool :=
  session.holdings.holds object ||
    session.container.any fun slot => slot.keeps && slot.target.id == object.id

/-- Carry out an operation. -/
def perform? (session : SlotSession) : Operation → Option (SessionAnswer × SlotSession)
  | .make name kind => do
      let target ← session.holdings.find? name
      return (.done, session.withContainer (some ⟨kind, target⟩))
  | .get => do
      let slot ← session.container
      return (.name ((slot.get? session.alive).map (·.name)), session)
  | .expired => do
      let slot ← session.container
      return (.flag (slot.expired session.alive), session)
  | .reset name => do
      let slot ← session.container
      let target ← session.holdings.find? name
      return (.done, session.withContainer (some (slot.reset target)))

/-- Make steps, with the number of slots after each. -/
def run? (session : SlotSession) :
    List (SessionStep Operation) → Option (List (SessionAnswer × Nat) × SlotSession) :=
  Session.run? perform? (fun session => session.container.isSome.toNat) session

end SlotSession

end Collections.Weak
