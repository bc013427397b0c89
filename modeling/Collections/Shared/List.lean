import Collections.Shared.Association
import Collections.Shared.Guarded

/-!
# Shared lists

A list that several callers use at a time, each operation being carried out while no other is.
Positions are total: any number may be given for one. An insertion takes place at positions up to
the length, reading and replacing and erasing at positions below it, and elsewhere nothing
happens.
-/

set_option autoImplicit false

namespace Collections.Shared

open Log (Notice)

/-- A list behind a lock. -/
structure SharedList (α : Type) extends Guarded α

namespace SharedList

variable {α : Type} [BEq α] [Ord α]

/-- The notice of a list that was made with a number of elements. -/
def createdNotice (count : Nat) : Notice :=
  .trace .sync s!"Synchronized_list {Notice.object} created with [{count}] initial elements."

/-- The notice of an iteration that removed elements. -/
def removedNotice (removed remaining : Nat) : Notice :=
  .trace .sync
    s!"Synchronized_list {Notice.object}: iteration removed [{removed}] elements; [{remaining}] remain."

/-- Wrap a list. -/
def wrap (items : List α) : SharedList α :=
  { container := { items }, notices := [createdNotice items.length] }

def edit (list : SharedList α) (container : Container α) : SharedList α := { list with container }

/-! ## Operations -/

def pushBack (list : SharedList α) (item : α) : SharedList α :=
  list.edit (list.container.insertAt list.size item)

def pushBackAll (list : SharedList α) (items : List α) : SharedList α :=
  items.foldl pushBack list

def get? (list : SharedList α) (index : Nat) : Option α := list.items[index]?

/-- Insert in front of a position, and tell whether there is such a position. -/
def insert (list : SharedList α) (index : Nat) (item : α) : Bool × SharedList α :=
  if index ≤ list.size then (true, list.edit (list.container.insertAt index item))
  else (false, list)

/-- Replace an element. Answers the former one. -/
def set (list : SharedList α) (index : Nat) (item : α) : Option α × SharedList α :=
  match list.get? index with
  | some former => (some former, list.edit (list.container.setAt index item))
  | none => (none, list)

/-- Erase the element at a position. Answers it. -/
def eraseAt (list : SharedList α) (index : Nat) : Option α × SharedList α :=
  match list.get? index with
  | some former => (some former, list.edit (list.container.eraseAt index))
  | none => (none, list)

def indexOf? (list : SharedList α) (item : α) : Option Nat := list.container.indexOf? item

def contains (list : SharedList α) (item : α) : Bool := (list.indexOf? item).isSome

/-- Erase the first occurrence of an element, and tell whether there was one. -/
def remove (list : SharedList α) (item : α) : Bool × SharedList α :=
  (list.container.eraseItem item).map id list.edit

def clear (list : SharedList α) : SharedList α := list.edit list.container.clear

def reverse (list : SharedList α) : SharedList α :=
  list.edit { list.container with items := list.items.reverse }

/-! ## Steps -/

/-- A plain operation on a list. -/
inductive Operation (α : Type) where
  | pushBack (item : α)
  | pushBackAll (items : List α)
  | insert (index : Nat) (item : α)
  | get (index : Nat)
  | set (index : Nat) (item : α)
  | eraseAt (index : Nat)
  | remove (item : α)
  | indexOf (item : α)
  | contains (item : α)
  | size
  | empty
  | clear
  /-- Visit all elements, asking for the first position of each. -/
  | forEach
  /-- Reverse the bare list. -/
  | reverse

/-- What a plain operation answers. -/
inductive Result (α : Type) where
  | item (value : Option α)
  | index (value : Option Nat)
  | flag (value : Bool)
  | count (value : Nat)
  | done
  | visited (items : List (α × Option Nat))

/-- Carry out a plain operation. -/
def apply (list : SharedList α) : Operation α → Result α × SharedList α
  | .pushBack item => (.done, list.pushBack item)
  | .pushBackAll items => (.done, list.pushBackAll items)
  | .insert index item => (list.insert index item).map .flag id
  | .get index => (.item (list.get? index), list)
  | .set index item => (list.set index item).map .item id
  | .eraseAt index => (list.eraseAt index).map .item id
  | .remove item => (list.remove item).map .flag id
  | .indexOf item => (.index (list.indexOf? item), list)
  | .contains item => (.flag (list.contains item), list)
  | .size => (.count list.size, list)
  | .empty => (.flag (list.size == 0), list)
  | .clear => (.done, list.clear)
  | .forEach => (.visited (list.items.map fun item => (item, list.indexOf? item)), list)
  | .reverse => (.done, list.reverse)

/-- Make a step. -/
def step (list : SharedList α) (step : Step (Operation α)) :
    Answer α (Result α) × SharedList α :=
  let applyGuarded (_slot : Nat) (guarded : Guarded α) (operation : Operation α) :=
    let (result, after) := apply (⟨guarded⟩ : SharedList α) operation
    (result, after.toGuarded)
  let (answer, guarded) := Guarded.step applyGuarded removedNotice 0 list.toGuarded step
  (answer, ⟨guarded⟩)

/-- Make steps, with the content after each. -/
def run (list : SharedList α) :
    List (Step (Operation α)) → List (Answer α (Result α) × List α) × SharedList α
  | [] => ([], list)
  | first :: rest =>
      let (answer, list) := list.step first
      let (answers, last) := list.run rest
      ((answer, list.items) :: answers, last)

end SharedList

end Collections.Shared
