import Collections.Failure

/-!
# Reporting by code or by throwing

A function that may fail reports through a code if its caller gave it a place for one, and throws
otherwise. `throwing` stands at the head of such a function: without a place for a code it runs
the function with a place of its own, and throws when a cause is left there.

What is thrown carries a cause, or a text alone when there is no cause.
-/

set_option autoImplicit false

namespace Collections

/-- What is thrown. -/
inductive Thrown where
  /-- A cause with a number. The text says where it arose. -/
  | caused (cause : Failure) (context : Bytes)
  /-- A text without a cause. -/
  | plain (context : Bytes)
  deriving Repr

namespace Thrown

/-- The text of what is thrown without a cause, as it is shown: up to its first zero byte. -/
def text? : Thrown → Option Bytes
  | caused _ _ => none
  | plain context => some context.terminated

/-- Throw with a cause, if there is one, and a text. -/
def make : Option Failure → Bytes → Thrown
  | some cause, context => caused cause context
  | none, context => plain context

end Thrown

/-- What became of a function that was to be run for a caller without a place for a code. -/
inductive Attempt (β : Type) where
  /-- The caller has a place for a code and runs the function itself. -/
  | left
  | executed (value : β)
  | thrown (what : Thrown)
  deriving Repr

namespace Attempt

variable {β : Type}

/-- Run a function that leaves a value and possibly a cause, unless the caller has a place for a
code of its own. -/
def throwing (hasOwnCode : Bool) (context : Bytes) (run : Unit → β × Option Failure) : Attempt β :=
  if hasOwnCode then left
  else
    match run () with
    | (value, none) => executed value
    | (_, some cause) => thrown (.caused cause context)

def wasExecuted : Attempt β → Bool
  | executed _ => true
  | _ => false

/-- The value that was left, or the one that was there before. -/
def value (before : β) : Attempt β → β
  | executed value => value
  | _ => before

end Attempt

/-- The cause of a category and a number. -/
def Failure.find? (category : String) (number : Nat) : Option Failure :=
  if category = CursorError.category then
    (CursorError.all.find? (·.number == number)).map .cursor
  else if category = WeakError.category then
    (WeakError.all.find? (·.number == number)).map .weak
  else none

end Collections
