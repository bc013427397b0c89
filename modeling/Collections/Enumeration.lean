import Collections.Bytes

/-!
# Reading enumerations

An enumeration is a run of numbers with a name each, from `lowest` up to but without `sentinel`.
One value is read from the front of a text. The token is the longest run of ASCII letters,
digits and underscores there, and exactly the token is consumed.

A token that starts with a digit is a number where numbers are accepted, and then nothing else:
it has to be decimal throughout, fit the type, and lie in the run. Any other token is a name, and
the lowest number of that name is read. Whatever is neither gives the default, which need not be in
the run and may be negative.

The numbers of an enumeration may be kept in a type of characters. Such a type reads one byte as
its code in place of a number.
-/

set_option autoImplicit false

namespace Collections

/-- A run of named numbers, and how it is read. -/
structure Enumeration where
  nameOf : Nat → Bytes
  lowest : Nat := 0
  sentinel : Nat
  /-- The value of a text that names none. -/
  fallback : Int := 0
  /-- The largest number that the type holds. -/
  largest : Nat
  /-- The type is one of characters. -/
  ofCharacters : Bool := false
  acceptsNumbers : Bool := true
  caseSensitive : Bool := false

namespace Enumeration

/-- The bytes of which tokens consist. -/
def isToken (byte : UInt8) : Bool := Bytes.isAlphanumeric byte || byte == 95

/-- The value of a text of decimal digits. -/
def number? (text : Bytes) : Option Nat :=
  if text.isEmpty || !text.all Bytes.isDigit then none
  else some (text.foldl (fun value byte => value * 10 + (byte.toNat - 48)) 0)

/-- The numbers of the run, ascending. -/
def values (family : Enumeration) : List Nat :=
  List.range' family.lowest (family.sentinel - family.lowest)

def sameName (family : Enumeration) (left right : Bytes) : Bool :=
  if family.caseSensitive then left == right else Bytes.equalsIgnoringCase left right

/-- The code of the only byte of a text. -/
def code? : Bytes → Option Nat
  | [byte] => some byte.toNat
  | _ => none

/-- What the type makes of a text. -/
def convert? (family : Enumeration) (text : Bytes) : Option Nat :=
  if family.ofCharacters then code? text else number? text

/-- The value that a number in the text stands for. -/
def ofNumber (family : Enumeration) (token : Bytes) : Int :=
  match family.convert? token with
  | none => family.fallback
  | some value =>
      if value ≤ family.largest ∧ family.lowest ≤ value ∧ value < family.sentinel then value
      else family.fallback

/-- The value of a name. -/
def ofName (family : Enumeration) (token : Bytes) : Int :=
  match family.values.find? fun value => family.sameName (family.nameOf value) token with
  | none => family.fallback
  | some value => value

/-- The value of a whole token. -/
def ofToken (family : Enumeration) (token : Bytes) : Int :=
  match token with
  | [] => family.fallback
  | first :: _ =>
      if family.acceptsNumbers && Bytes.isDigit first then family.ofNumber token
      else family.ofName token

/-- Read one value, and what is left of the text. -/
def read (family : Enumeration) (text : Bytes) : Int × Bytes :=
  (family.ofToken (text.takeWhile isToken), text.dropWhile isToken)

/-- Read values that stand apart by one byte each. -/
def readSeveral (family : Enumeration) : Nat → Bytes → List Int × Bytes
  | 0, text => ([], text)
  | 1, text =>
      let (value, rest) := family.read text
      ([value], rest)
  | count + 2, text =>
      let (value, rest) := family.read text
      let (values, rest) := family.readSeveral (count + 1) (rest.drop 1)
      (value :: values, rest)

/-- The token and what is left are the text. -/
theorem token_append_rest (family : Enumeration) (text : Bytes) :
    text.takeWhile isToken ++ (family.read text).2 = text :=
  List.takeWhile_append_dropWhile

end Enumeration

end Collections
