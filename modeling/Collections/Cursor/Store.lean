import Collections.Cursor.Container
import Collections.Cursor.Splitter
import Collections.Failure

/-!
# The store behind cursors

A cursor is a value without state of its own. Everything that changes while it is used is in the
store: the containers with the places in them, the splits under way, and for each combination
whether it has gone over to its second part. So two cursors that share a part share its state,
and a cursor that occurs twice in a combination is one cursor.

Every place, split, combination and view is made with a handle that was never used before. The
handle finds its state, and tells apart two objects that are otherwise alike.
-/

set_option autoImplicit false

namespace Collections

/-- The number under which an object is known to the store. -/
abbrev Handle := Nat

/-- The state of all cursors, and the containers they run over. -/
structure Store (α : Type) where
  containers : Table (Container α) := {}
  splitters : Table Splitter := {}
  /-- The combinations that have gone over to their second part. -/
  crossed : Table Bool := {}
  /-- The first handle that was never used. -/
  fresh : Handle := 0

namespace Store

variable {α : Type}

instance : Inhabited (Store α) := ⟨{}⟩

/-- An unused handle, and the store in which it counts as used. -/
def allocate (store : Store α) : Handle × Store α :=
  (store.fresh, { store with fresh := store.fresh + 1 })

def container (store : Store α) (source : Handle) : Container α := store.containers.get source

def items (store : Store α) (source : Handle) : List α := (store.container source).items

/-- Replace a container. -/
def put (store : Store α) (source : Handle) (container : Container α) : Store α :=
  { store with containers := store.containers.set source container }

@[simp]
theorem container_put_self (store : Store α) (source : Handle) (container : Container α) :
    (store.put source container).container source = container := by
  simp [put, Store.container]

theorem container_put_of_ne (store : Store α) {source other : Handle} (container : Container α)
    (differ : other ≠ source) :
    (store.put source container).container other = store.container other := by
  simp [put, Store.container, Table.get_set_of_ne _ _ differ]

/-- Whether a combination has gone over to its second part. -/
def hasCrossed (store : Store α) (switch : Handle) : Bool := store.crossed.get switch

/-- Let a combination start at its first part. -/
def uncross (store : Store α) (switch : Handle) : Store α :=
  { store with crossed := store.crossed.set switch false }

/-- Let a combination go over to its second part, for good. -/
def cross (store : Store α) (switch : Handle) : Store α :=
  { store with crossed := store.crossed.set switch true }

theorem hasCrossed_cross (store : Store α) (switch other : Handle) :
    (store.cross switch).hasCrossed other = if other = switch then true else store.hasCrossed other :=
  Table.get_set ..

theorem hasCrossed_uncross (store : Store α) (switch other : Handle) :
    (store.uncross switch).hasCrossed other =
      if other = switch then false else store.hasCrossed other :=
  Table.get_set ..

/-- Add a new container. -/
def addContainer (store : Store α) (container : Container α) : Handle × Store α :=
  let (source, store) := store.allocate
  (source, store.put source container)

/-- Open a place in a container, for a cursor. -/
def openPlace (store : Store α) (source : Handle) (grip : Grip) (start : Nat) :
    Handle × Store α :=
  let (slot, store) := store.allocate
  (slot, store.put source ((store.container source).openPlace slot grip start))

end Store

end Collections
