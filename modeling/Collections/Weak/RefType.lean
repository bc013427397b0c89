import Collections.Enumeration

/-!
# Kinds of references

A strong reference keeps its object alive. A weak one does not, and is lost when the object is
reclaimed. A soft one is treated as a strong one.
-/

set_option autoImplicit false

namespace Collections.Weak

/-- How an object is referred to. -/
inductive RefType where
  | strong
  | weak
  | soft
  deriving DecidableEq, Repr, Inhabited

namespace RefType

/-- All kinds by number. -/
def all : List RefType := [strong, weak, soft]

def number : RefType → Nat
  | strong => 0
  | weak => 1
  | soft => 2

def name : RefType → String
  | strong => "STRONG"
  | weak => "WEAK"
  | soft => "SOFT"

def ofNumber (number : Nat) : RefType := all[number]?.getD strong

theorem ofNumber_number (kind : RefType) : ofNumber kind.number = kind := by cases kind <;> rfl

/-- Whether references of this kind let their object go. -/
def isWeak : RefType → Bool
  | weak => true
  | _ => false

/-- How kinds are read: by name in any case, or by number. -/
def enumeration : Enumeration where
  nameOf number := Bytes.ofString (ofNumber number).name
  sentinel := 3
  largest := 2147483647

/-- The kind at the front of a text. -/
def read (text : Bytes) : RefType := ofNumber (enumeration.read text).1.toNat

end RefType

end Collections.Weak
