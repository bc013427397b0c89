/-!
# Byte strings

Every text that the library reads or writes is a list of bytes. Nothing is assumed about its
encoding: a text may hold zero bytes and bytes that are no valid UTF-8. Two texts compare
byte by byte, as unsigned numbers, and a text is less than its proper extensions.

The letter, digit and case rules below know ASCII alone. Bytes from 128 on are in no class and
have no case.
-/

set_option autoImplicit false

namespace Collections

/-- A text: any finite sequence of bytes. -/
abbrev Bytes := List UInt8

namespace Bytes

/-- The UTF-8 form of a string. -/
def ofString (text : String) : Bytes := text.toUTF8.data.toList

/-- The decimal form of a natural number, without leading zeros. -/
def ofNat (number : Nat) : Bytes := ofString (toString number)

/-- The decimal form of an integer, with a minus sign when it is negative. -/
def ofInt (number : Int) : Bytes := ofString (toString number)

/-- The part of a text before its first zero byte. -/
def terminated (text : Bytes) : Bytes := text.takeWhile (· != 0)

/-! ## ASCII classes and case -/

def isDigit (byte : UInt8) : Bool := 48 ≤ byte && byte ≤ 57

def isUpper (byte : UInt8) : Bool := 65 ≤ byte && byte ≤ 90

def isLower (byte : UInt8) : Bool := 97 ≤ byte && byte ≤ 122

def isAlphanumeric (byte : UInt8) : Bool := isDigit byte || isUpper byte || isLower byte

/-- A lower-case ASCII letter becomes its capital. Every other byte stays. -/
def upperByte (byte : UInt8) : UInt8 := if isLower byte then byte - 32 else byte

/-- The text with its ASCII letters capitalised. -/
def upper (text : Bytes) : Bytes := text.map upperByte

/-- The texts are equal up to ASCII case. -/
def equalsIgnoringCase (left right : Bytes) : Bool := upper left == upper right

/-! ## Cutting at a delimiter -/

/-- Cut a text at the first occurrence of a delimiter: what stands before it and what stands
after it. There is no cut when the delimiter does not occur. -/
def cut (delimiter : Bytes) : Bytes → Option (Bytes × Bytes)
  | [] => if delimiter.isEmpty then some ([], []) else none
  | byte :: rest =>
      if delimiter.isPrefixOf (byte :: rest) then
        some ([], (byte :: rest).drop delimiter.length)
      else (cut delimiter rest).map fun (before, after) => (byte :: before, after)

/-- A cut loses nothing: the two parts with the delimiter between them are the text. -/
theorem append_of_cut {delimiter text before after : Bytes}
    (found : cut delimiter text = some (before, after)) :
    before ++ delimiter ++ after = text := by
  induction text generalizing before with
  | nil =>
      unfold cut at found
      split at found
      · simp_all
      · simp at found
  | cons byte rest hypothesis =>
      unfold cut at found
      split at found
      next starts =>
        obtain ⟨tail, whole⟩ := List.isPrefixOf_iff_prefix.mp starts
        simp only [Option.some.injEq, Prod.mk.injEq] at found
        obtain ⟨rfl, rfl⟩ := found
        rw [← whole]
        simp
      next =>
        obtain ⟨⟨inner, _⟩, hit, equal⟩ := Option.map_eq_some_iff.mp found
        simp only [Prod.mk.injEq] at equal
        obtain ⟨rfl, rfl⟩ := equal
        simp [← hypothesis hit]

/-- What stands after a non-empty delimiter is shorter than the text. -/
theorem length_lt_of_cut {delimiter text before after : Bytes} (nonempty : delimiter ≠ [])
    (found : cut delimiter text = some (before, after)) : after.length < text.length := by
  have positive := List.length_pos_iff.mpr nonempty
  have whole := congrArg List.length (append_of_cut found)
  simp only [List.length_append] at whole
  omega

/-- The position of the first occurrence of a delimiter at or behind a position. -/
def find? (delimiter text : Bytes) (start : Nat) : Option Nat :=
  (cut delimiter (text.drop start)).map fun (before, _) => start + before.length

/-- An occurrence that is found lies behind the position and ends inside the text. -/
theorem bounds_of_find? {delimiter text : Bytes} {start found : Nat}
    (inside : start ≤ text.length) (hit : find? delimiter text start = some found) :
    start ≤ found ∧ found + delimiter.length ≤ text.length := by
  obtain ⟨⟨before, after⟩, parts, rfl⟩ := Option.map_eq_some_iff.mp hit
  have whole := congrArg List.length (append_of_cut parts)
  simp only [List.length_append, List.length_drop] at whole ⊢
  omega

/-- So many bytes of a text from a position on, or fewer where it ends before. The position must not
be behind the end. -/
def slice (text : Bytes) (start count : Nat) (_inside : start ≤ text.length) : Bytes :=
  (text.drop start).take count

/-- The texts in order, with a separator between neighbours. -/
def joined (separator : Bytes) : List Bytes → Bytes
  | [] => []
  | [text] => text
  | text :: next :: rest => text ++ separator ++ joined separator (next :: rest)

end Bytes

end Collections
