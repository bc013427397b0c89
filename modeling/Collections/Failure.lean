import Collections.Bytes

/-!
# Failures

An operation that cannot do its work answers with a cause. Causes come in two numbered
families, one for cursors and views and one for collections of reclaimable objects, and in a
third form that carries nothing but its own text. Category, number and wording of a cause are
each given in one place.
-/

set_option autoImplicit false

namespace Collections

/-- What can go wrong with a cursor, a sequence or a view. -/
inductive CursorError where
  /-- The first argument is absent. -/
  | firstNull
  /-- The second argument is absent. -/
  | secondNull
  /-- A text cannot be split at an empty delimiter. -/
  | emptyDelimiter
  /-- There is no next element. -/
  | pastEnd
  /-- There is no previous element. -/
  | pastStart
  /-- No element has been delivered that could be edited. -/
  | noCurrent
  /-- This cursor or view does not edit. -/
  | unsupported
  deriving DecidableEq, Repr

/-- What can go wrong with a collection of reclaimable objects. -/
inductive WeakError where
  /-- The key is absent. -/
  | keyNull
  /-- The value is absent. -/
  | valueNull
  deriving DecidableEq, Repr

/-- Why an operation failed. -/
inductive Failure where
  | cursor (cause : CursorError)
  | weak (cause : WeakError)
  /-- A failure without a number, known by its text alone. -/
  | other (text : Bytes)
  deriving DecidableEq, Repr

namespace CursorError

def all : List CursorError :=
  [firstNull, secondNull, emptyDelimiter, pastEnd, pastStart, noCurrent, unsupported]

def category : String := "weave/seq"

def number : CursorError → Nat
  | firstNull => 1
  | secondNull => 2
  | emptyDelimiter => 3
  | pastEnd => 4
  | pastStart => 5
  | noCurrent => 6
  | unsupported => 7

def message : CursorError → String
  | firstNull => "Invalid argument: first is null."
  | secondNull => "Invalid argument: second is null."
  | emptyDelimiter => "Invalid argument: split delimiter is empty."
  | pastEnd => "next() past end of iterator."
  | pastStart => "previous() past start of iterator."
  | noCurrent =>
      "Illegal state: next() has not yet been called, or the current element was already removed."
  | unsupported => "Unsupported operation on this cursor or view."

/-- The cause as seen by a reader who walks the other way: the two ends trade places. -/
def turned : CursorError → CursorError
  | pastEnd => pastStart
  | pastStart => pastEnd
  | cause => cause

@[simp]
theorem turned_turned (cause : CursorError) : cause.turned.turned = cause := by
  cases cause <;> rfl

end CursorError

namespace WeakError

def all : List WeakError := [keyNull, valueNull]

def category : String := "weave/weak"

def number : WeakError → Nat
  | keyNull => 1
  | valueNull => 2

def message : WeakError → String
  | keyNull => "Invalid argument: key is null."
  | valueNull => "Invalid argument: value is null."

end WeakError

namespace Failure

/-- Category and number of a cause, written with a colon between them. -/
def code : Failure → Option String
  | cursor cause => some s!"{CursorError.category}:{cause.number}"
  | weak cause => some s!"{WeakError.category}:{cause.number}"
  | other _ => none

def message : Failure → Bytes
  | cursor cause => Bytes.ofString cause.message
  | weak cause => Bytes.ofString cause.message
  | other text => text

end Failure

end Collections
