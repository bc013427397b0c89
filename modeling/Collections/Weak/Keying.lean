import Collections.Weak.Holding

/-!
# Keys

When two objects count as the same key, and their hashes. Sameness is an equivalence, and objects
that are the same key have the same hash. Nothing else is assumed: different keys may well
collide.
-/

set_option autoImplicit false

namespace Collections.Weak

/-- An equivalence of keys with a hash that respects it. -/
structure Keying (κ : Type) where
  same : κ → κ → Bool
  hash : κ → UInt64
  refl (key : κ) : same key key = true
  symm (left right : κ) : same left right = true → same right left = true
  trans (left middle right : κ) :
    same left middle = true → same middle right = true → same left right = true
  hash_eq (left right : κ) : same left right = true → hash left = hash right

namespace Keying

/-- Objects are the same key if their values are equal, and hash by any function of the value. -/
def byValue (hash : Int → UInt64) : Keying Object where
  same left right := left.value == right.value
  hash object := hash object.value
  refl _ := by simp
  symm _ _ := by simp only [beq_iff_eq]; exact Eq.symm
  trans _ _ _ := by simp only [beq_iff_eq]; exact Eq.trans
  hash_eq _ _ := by simp only [beq_iff_eq]; exact congrArg hash

/-- Values are their own hashes, as 64-bit words. -/
def plain : Keying Object := byValue UInt64.ofInt

/-- All hashes are the same. -/
def colliding : Keying Object := byValue fun _ => 7

/-- Objects are the same key if their values differ by a multiple of a hundred. -/
def hundreds : Keying Object where
  same left right := (left.value - right.value) % 100 == 0
  hash object := UInt64.ofInt (object.value % 100)
  refl _ := by simp
  symm _ _ := by simp only [beq_iff_eq]; omega
  trans _ _ _ := by simp only [beq_iff_eq]; omega
  hash_eq left right := by
    simp only [beq_iff_eq]
    intro divides
    have equal : left.value % 100 = right.value % 100 := by omega
    rw [equal]

end Keying

end Collections.Weak
