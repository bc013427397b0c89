import Collections.Shared.Association
import Collections.Failure

/-!
# New collections

Entries of maps as values of their own, and collections filled from a list.

An entry has a text, is equal to an entry of the same key and value, and does not let its value
be set. A map made from entries keeps the last of equal keys.
-/

set_option autoImplicit false

namespace Collections

/-- A key with a value. -/
structure KeyedInteger where
  key : Bytes
  value : Int
  deriving DecidableEq, Repr

namespace KeyedInteger

/-- Key and value with an equals sign between them. -/
def render (entry : KeyedInteger) : Bytes :=
  entry.key ++ Bytes.ofString "=" ++ Bytes.ofInt entry.value

/-- An entry refuses to have its value set. -/
def setValue (entry : KeyedInteger) (_value : Int) : Except CursorError Unit × KeyedInteger :=
  (.error .unsupported, entry)

end KeyedInteger

/-- The entries of a map made from a list, in ascending order of the keys. -/
def mapOfEntries {κ ν : Type} [BEq κ] [Ord κ] (entries : List (κ × ν)) : List (κ × ν) :=
  (entries.foldl (fun container (key, value) => container.assign .ascending key value)
    ({} : Container (κ × ν))).items

/-- The elements of a set made from a list, in ascending order. -/
def setOfItems (items : List Int) : List Int :=
  (items.foldl (fun container item => (container.insertNew .ascending item).2)
    ({} : Container Int)).items

/-- One collection of each kind, filled with the same integers. -/
structure FilledCollections where
  /-- Each integer under its decimal form. -/
  map : List (Bytes × Int)
  set : List Int
  /-- The integers in order. -/
  array : List Int
  /-- The integers, each put in front of those before. -/
  linked : List Int
  /-- For every class modulo five the sum of the last three digits of its integers, signed. -/
  sums : List (Nat × Int)

namespace FilledCollections

/-- The class of an integer modulo five. -/
def classOf (item : Int) : Nat := (item % 5).toNat

/-- Add to the sum of a class. -/
def increase (container : Container (Nat × Int)) (item : Int) : Container (Nat × Int) :=
  let key := classOf item
  container.assign .ascending key ((container.lookup? key).getD 0 + item.tmod 1000)

def ofItems (items : List Int) : FilledCollections where
  map := mapOfEntries (items.map fun item => (Bytes.ofInt item, item))
  set := setOfItems items
  array := items
  linked := items.foldl (fun linked item => item :: linked) []
  sums := (items.foldl increase {}).items

/-- Whether no collection holds anything. -/
def isEmpty (collections : FilledCollections) : Bool :=
  collections.map.isEmpty && collections.set.isEmpty && collections.array.isEmpty &&
    collections.linked.isEmpty && collections.sums.isEmpty

end FilledCollections

end Collections
