import Collections.Cursor.Container

/-!
# Association lists in containers

A container of pairs in which every key occurs at most once is a finite map. A new key goes to
its place in ascending order, or to the end where the container keeps no order. A key that is
there keeps its place, and keeps itself: only the mapped value is replaced.
-/

set_option autoImplicit false

namespace Collections

/-- Where a container puts new elements. -/
inductive Arrangement where
  /-- In ascending order. -/
  | ascending
  /-- In order of arrival. -/
  | arrival
  deriving DecidableEq, Repr, Inhabited

namespace Container

/-! ## Maps -/

section Maps

variable {κ ν : Type} [BEq κ] [Ord κ]

/-- The position of a key. -/
def keyIndex? (container : Container (κ × ν)) (key : κ) : Option Nat :=
  container.items.findIdx? (·.1 == key)

/-- The value of a key. -/
def lookup? (container : Container (κ × ν)) (key : κ) : Option ν :=
  container.items.lookup key

/-- The position at which a new key is put. -/
def keyPlace (container : Container (κ × ν)) (arrangement : Arrangement) (key : κ) : Nat :=
  match arrangement with
  | .ascending => container.items.countP fun entry => (compare entry.1 key).isLT
  | .arrival => container.items.length

/-- Map a key to a value. -/
def assign (container : Container (κ × ν)) (arrangement : Arrangement) (key : κ) (value : ν) :
    Container (κ × ν) :=
  match container.items.findIdx? (·.1 == key) with
  | some index =>
      match container.items[index]? with
      | some entry => container.setAt index (entry.1, value)
      | none => container
  | none => container.insertAt (container.keyPlace arrangement key) (key, value)

/-- Erase a key. -/
def eraseKey (container : Container (κ × ν)) (key : κ) : Container (κ × ν) :=
  match container.keyIndex? key with
  | some index => container.eraseAt index
  | none => container

end Maps

/-! ## Sets -/

section Sets

variable {α : Type} [BEq α] [Ord α]

/-- The position of the first occurrence of an element. -/
def indexOf? (container : Container α) (item : α) : Option Nat :=
  container.items.findIdx? (· == item)

/-- The position at which a new element is put. -/
def itemPlace (container : Container α) (arrangement : Arrangement) (item : α) : Nat :=
  match arrangement with
  | .ascending => container.items.countP fun other => (compare other item).isLT
  | .arrival => container.items.length

/-- Insert an element unless it is there, and tell whether it was inserted. -/
def insertNew (container : Container α) (arrangement : Arrangement) (item : α) :
    Bool × Container α :=
  match container.indexOf? item with
  | some _ => (false, container)
  | none => (true, container.insertAt (container.itemPlace arrangement item) item)

/-- Erase the first occurrence of an element, and tell whether there was one. -/
def eraseItem (container : Container α) (item : α) : Bool × Container α :=
  match container.indexOf? item with
  | some index => (true, container.eraseAt index)
  | none => (false, container)

end Sets

end Container

end Collections
