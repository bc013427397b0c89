import Collections.Shared.Association
import Collections.Shared.Guarded

/-!
# Shared sets

A set that several callers use at a time, each operation being carried out while no other is. It
may be ordered or not, and no answer depends on which it is.
-/

set_option autoImplicit false

namespace Collections.Shared

open Log (Notice)

/-- A set behind a lock. -/
structure SharedSet (α : Type) extends Guarded α where
  arrangement : Arrangement

namespace SharedSet

variable {α : Type} [BEq α] [Ord α]

/-- The notice of a set that was made with a number of elements. -/
def createdNotice (count : Nat) : Notice :=
  .trace .sync s!"Synchronized_set {Notice.object} created with [{count}] initial elements."

/-- The notice of an iteration that removed elements. -/
def removedNotice (removed remaining : Nat) : Notice :=
  .trace .sync
    s!"Synchronized_set {Notice.object}: iteration removed [{removed}] elements; [{remaining}] remain."

/-- Wrap a set that holds some elements. -/
def wrap (arrangement : Arrangement) (items : List α) : SharedSet α :=
  let container : Container α := items.foldl
    (fun container item => (container.insertNew arrangement item).2) { grip := .element }
  { container, arrangement, notices := [createdNotice container.items.length] }

def withGuarded (set : SharedSet α) (guarded : Guarded α) : SharedSet α :=
  { guarded with arrangement := set.arrangement }

def edit (set : SharedSet α) (container : Container α) : SharedSet α := { set with container }

/-! ## Operations -/

def contains (set : SharedSet α) (item : α) : Bool := (set.container.indexOf? item).isSome

/-- Insert an element, and tell whether it is new. -/
def insert (set : SharedSet α) (item : α) : Bool × SharedSet α :=
  (set.container.insertNew set.arrangement item).map id set.edit

/-- Insert elements, and tell how many are new. -/
def insertAll (set : SharedSet α) : List α → Nat × SharedSet α
  | [] => (0, set)
  | item :: rest =>
      let (added, set) := set.insert item
      let (count, set) := set.insertAll rest
      (count + added.toNat, set)

/-- Erase an element, and tell whether it was there. -/
def erase (set : SharedSet α) (item : α) : Bool × SharedSet α :=
  (set.container.eraseItem item).map id set.edit

/-- Insert an element that is not there and erase one that is. Tells whether it is there now. -/
def toggle (set : SharedSet α) (item : α) : Bool × SharedSet α :=
  if set.contains item then (false, (set.erase item).2) else (true, (set.insert item).2)

def clear (set : SharedSet α) : SharedSet α := set.edit set.container.clear

/-- Elements in ascending order. -/
def ascending (items : List α) : List α :=
  items.mergeSort fun left right => (compare left right).isLE

/-- The elements in ascending order. -/
def snapshot (set : SharedSet α) : List α := ascending set.items

/-! ## Steps -/

/-- A plain operation on a set. -/
inductive Operation (α : Type) where
  | insert (item : α)
  | insertAll (items : List α)
  | contains (item : α)
  | erase (item : α)
  | size
  | empty
  | clear
  | forEach
  /-- Remove the elements below a bound while walking the set. -/
  | removeBelow (bound : α)
  /-- Toggle an element of the bare set. -/
  | toggle (item : α)

/-- What a plain operation answers. -/
inductive Result (α : Type) where
  | flag (value : Bool)
  | count (value : Nat)
  | done
  | visited (items : List α)
  | swept (items : List α) (removed : Nat)

/-- Carry out a plain operation. Walks under way use the slots below the given one. -/
def apply (slot : Nat) (set : SharedSet α) : Operation α → Result α × SharedSet α
  | .insert item => (set.insert item).map .flag id
  | .insertAll items => (set.insertAll items).map .count id
  | .contains item => (.flag (set.contains item), set)
  | .erase item => (set.erase item).map .flag id
  | .size => (.count set.size, set)
  | .empty => (.flag (set.size == 0), set)
  | .clear => (.done, set.clear)
  | .forEach => (.visited set.snapshot, set)
  | .removeBelow bound =>
      let ((items, removed), guarded) :=
        set.toGuarded.removeWhere removedNotice slot fun item => (compare item bound).isLT
      (.swept (ascending items) removed, set.withGuarded guarded)
  | .toggle item => (set.toggle item).map .flag id

/-- Make a step. -/
def step (set : SharedSet α) (step : Step (Operation α)) :
    Answer α (Result α) × SharedSet α :=
  let applyGuarded (slot : Nat) (guarded : Guarded α) (operation : Operation α) :=
    let (result, after) := (set.withGuarded guarded).apply slot operation
    (result, after.toGuarded)
  let (answer, guarded) := Guarded.step applyGuarded removedNotice 0 set.toGuarded step
  (answer, set.withGuarded guarded)

/-- Make steps, with the content after each. -/
def run (set : SharedSet α) :
    List (Step (Operation α)) → List (Answer α (Result α) × List α) × SharedSet α
  | [] => ([], set)
  | first :: rest =>
      let (answer, set) := set.step first
      let (answers, last) := set.run rest
      ((answer, set.snapshot) :: answers, last)

end SharedSet

end Collections.Shared
