/-!
# Tables

A table gives every index a value. All but finitely many indices have the default value, so
reading needs no bound and writing never fails. The one law of tables is `get_set`.
-/

set_option autoImplicit false

namespace Collections

/-- A value for every index, of which finitely many are written down. -/
structure Table (β : Type) where
  written : List β := []

namespace Table

variable {β : Type} [Inhabited β]

instance : Inhabited (Table β) := ⟨{}⟩

/-- The value at an index. -/
def get (table : Table β) (index : Nat) : β := table.written[index]?.getD default

/-- Write a value into a list at an index, filling up with defaults when the list is too short. -/
def write (value : β) : List β → Nat → List β
  | [], 0 => [value]
  | [], index + 1 => default :: write value [] index
  | _ :: rest, 0 => value :: rest
  | first :: rest, index + 1 => first :: write value rest index

/-- The table with a new value at one index. -/
def set (table : Table β) (index : Nat) (value : β) : Table β :=
  ⟨write value table.written index⟩

theorem getElem?_write (value : β) (values : List β) (index other : Nat) :
    ((write value values index)[other]?).getD default =
      if other = index then value else values[other]?.getD default := by
  induction values generalizing index other with
  | nil =>
      induction index generalizing other with
      | zero => cases other <;> simp [write]
      | succ index hypothesis => cases other <;> simp [write, hypothesis]
  | cons first rest hypothesis =>
      cases index <;> cases other <;> simp [write, hypothesis]

/-- **Writing changes the value at its own index and no other.** -/
theorem get_set (table : Table β) (index other : Nat) (value : β) :
    (table.set index value).get other = if other = index then value else table.get other :=
  getElem?_write value table.written index other

@[simp]
theorem get_set_self (table : Table β) (index : Nat) (value : β) :
    (table.set index value).get index = value := by simp [get_set]

theorem get_set_of_ne (table : Table β) {index other : Nat} (value : β) (differ : other ≠ index) :
    (table.set index value).get other = table.get other := by simp [get_set, differ]

/-- Apply a function to every value. -/
def map {γ : Type} (change : β → γ) (table : Table β) : Table γ := ⟨table.written.map change⟩

end Table

end Collections
