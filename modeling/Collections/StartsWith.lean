import Collections.Bytes

/-!
# Prefixes of arrays

An array starts with another one if it is at least as long and agrees with it at every position
of the other. The two are walked side by side.

Elements are of several kinds. Values agree if they are equal. What may be absent, and what is
pointed to, agrees if both are absent, or if both are there and equal. Texts that are pointed to end
at their first zero byte, and are equal if they are up to there. Pointers of which nothing is known
but that they can be compared agree if they point to the same place, whatever stands there.

What is not there cannot be read: an element behind the end of an array, the value of something
absent, or a byte behind the memory of a text. To read it gives no answer. So an answer tells that
nothing of the kind has been read.
-/

set_option autoImplicit false

namespace Collections

/-! ## Elements -/

/-- A text in memory: its bytes and all that lie behind them. It ends at the first zero byte. -/
structure TerminatedText where
  memory : Bytes
  ends : 0 ∈ memory

namespace TerminatedText

/-- A text with a zero byte behind it. -/
def ofBytes (text : Bytes) : TerminatedText := ⟨text ++ [0], by simp⟩

/-- What the text says: the bytes before its end. -/
def content (text : TerminatedText) : Bytes := text.memory.terminated

/-- Compare memories byte by byte, until bytes differ or both are zero. -/
def compareMemory? : Bytes → Bytes → Option Ordering
  | left :: lefts, right :: rights =>
      if left = right then if left = 0 then some .eq else compareMemory? lefts rights
      else some (compare left right)
  | _, _ => none

/-- Whether two texts are equal. -/
def equals? (left right : TerminatedText) : Option Bool :=
  (compareMemory? left.memory right.memory).map (· == .eq)

end TerminatedText

/-- The kinds of elements. -/
inductive ElementKind where
  | plain
  /-- Values that may be absent. -/
  | optional
  /-- Pointers to values that have several owners. -/
  | shared
  /-- Pointers to values that they do not own. -/
  | bare
  /-- Pointers to texts. -/
  | text
  /-- Pointers to values that have one owner, or whose owners keep to other rules. -/
  | unique
  deriving DecidableEq, Repr

/-- A place of memory. -/
abbrev Address := Nat

namespace ElementKind

/-- An element of a kind. It is `none` if it is absent or points to nothing. -/
def Element (α : Type) : ElementKind → Type
  | plain => α
  | optional => Option α
  | shared => Option α
  | bare => Option α
  | text => Option TerminatedText
  | unique => Option Address

variable {α β : Type}

/-- Compare what two elements point to. If one of them points to nothing, both must. -/
def pointeesAgree? (same? : α → β → Option Bool) (left : Option α) (right : Option β) :
    Option Bool :=
  if left.isNone || right.isNone then some (left.isNone && right.isNone)
  else do same? (← left) (← right)

/-- Whether two elements of a kind agree, values being compared as given. -/
def agree? (same : α → β → Bool) :
    (kind : ElementKind) → kind.Element α → kind.Element β → Option Bool
  | plain => fun left right => some (same left right)
  | optional => pointeesAgree? fun left right => some (same left right)
  | shared => pointeesAgree? fun left right => some (same left right)
  | bare => pointeesAgree? fun left right => some (same left right)
  | text => pointeesAgree? TerminatedText.equals?
  | unique => fun left right : Option Address => some (left == right)

end ElementKind

/-! ## Arrays -/

variable {ε δ : Type}

/-- Walk two arrays side by side to the end of the second one, as long as they agree. -/
def agreeAlong? (agree? : ε → δ → Option Bool) : List ε → List δ → Option Bool
  | _, [] => some true
  | [], _ :: _ => none
  | left :: lefts, right :: rights => do
      if ← agree? left right then agreeAlong? agree? lefts rights else some false

/-- Whether an array starts with another one. -/
def startsWith? (agree? : ε → δ → Option Bool) (array : List ε) (start : List δ) : Option Bool :=
  if array.length < start.length then some false else agreeAlong? agree? array start

end Collections
