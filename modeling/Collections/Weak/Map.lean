import Collections.Log.Notice
import Collections.Weak.Keying
import Collections.Weak.SlotTable

/-!
# Maps with reclaimable keys

A map that does not keep its keys alive: a mapping vanishes when its key is reclaimed. To insert
under a key that is there replaces the value and keeps the key that is there, so the mapping goes
when that one goes.

Every operation is told which objects are alive.
-/

set_option autoImplicit false

namespace Collections.Weak

open Log (Notice)

/-- A mapping under the hash of its key. -/
structure MapSlot (κ ν : Type) where
  hash : UInt64
  key : κ
  mapped : ν

/-- A map that does not keep its keys alive. -/
structure WeakMap (κ ν : Type) where
  keying : Keying κ
  table : SlotTable (MapSlot κ ν) := {}
  notices : List Notice := []

namespace WeakMap

variable {κ ν : Type}

/-- The notice of a sweep that threw something out. -/
def purgedNotice (purged remaining : Nat) : Notice :=
  .trace .weak
    s!"Weak_hash_map {Notice.object}: purged [{purged}] stale entries; [{remaining}] remain."

def say (map : WeakMap κ ν) (notice : Notice) : WeakMap κ ν :=
  { map with notices := map.notices ++ [notice] }

/-- A slot is live while its key is. -/
def live (alive : κ → Bool) (slot : MapSlot κ ν) : Bool := alive slot.key

/-- Whether a slot is the live one of a key. -/
def wanted (keying : Keying κ) (alive : κ → Bool) (key : κ) (slot : MapSlot κ ν) : Bool :=
  slot.hash == keying.hash key && keying.same slot.key key && alive slot.key

/-- The live slot of a key, with its position. -/
def find? (map : WeakMap κ ν) (alive : κ → Bool) (key : κ) : Option (Nat × MapSlot κ ν) :=
  map.table.find? (wanted map.keying alive key)

/-- Take in the outcome of a sweep. -/
def afterSweep (map : WeakMap κ ν) : Nat × SlotTable (MapSlot κ ν) → Nat × WeakMap κ ν
  | (purged, table) =>
      let map := { map with table }
      (purged, if purged = 0 then map else map.say (purgedNotice purged table.slots.length))

/-! ## Operations -/

/-- Throw out the stale slots, and tell how many there were. -/
def purge (map : WeakMap κ ν) (alive : κ → Bool) : Nat × WeakMap κ ν :=
  map.afterSweep (map.table.sweep (live alive))

def purgeIfDue (map : WeakMap κ ν) (alive : κ → Bool) : WeakMap κ ν :=
  (map.afterSweep (map.table.sweepIfDue (live alive))).2

/-- Map a key to a value. Answers the value it had. -/
def put (map : WeakMap κ ν) (alive : κ → Bool) (key : Option κ) (value : ν) :
    Except WeakError (Option ν) × WeakMap κ ν :=
  match key with
  | none => (.error .keyNull, map.say (.emitted .keyNull))
  | some key =>
      let map := map.purgeIfDue alive
      match map.find? alive key with
      | none =>
          let slot := ⟨map.keying.hash key, key, value⟩
          (.ok none, { map with table := map.table.insert slot })
      | some (position, slot) =>
          (.ok (some slot.mapped),
            { map with table := map.table.setAt position { slot with mapped := value } })

def get? (map : WeakMap κ ν) (alive : κ → Bool) (key : κ) : Option ν :=
  (map.find? alive key).map fun (_, slot) => slot.mapped

def contains (map : WeakMap κ ν) (alive : κ → Bool) (key : κ) : Bool :=
  (map.find? alive key).isSome

/-- Erase a key. Answers the value it had. -/
def erase (map : WeakMap κ ν) (alive : κ → Bool) (key : κ) : Option ν × WeakMap κ ν :=
  let map := map.purgeIfDue alive
  match map.find? alive key with
  | none => (none, map)
  | some (position, slot) => (some slot.mapped, { map with table := map.table.eraseAt position })

/-- The number of mappings with a live key. -/
def size (map : WeakMap κ ν) (alive : κ → Bool) : Nat := map.table.liveCount (live alive)

def isEmpty (map : WeakMap κ ν) (alive : κ → Bool) : Bool := map.size alive == 0

def clear (map : WeakMap κ ν) : WeakMap κ ν := { map with table := map.table.clear }

/-- Sweep the map and change all its values. Answers the keys with the new values. -/
def forEach (map : WeakMap κ ν) (alive : κ → Bool) (change : κ → ν → ν) :
    List (κ × ν) × WeakMap κ ν :=
  let map := (map.purge alive).2
  let slots := map.table.slots.map fun slot => { slot with mapped := change slot.key slot.mapped }
  (slots.map fun slot => (slot.key, slot.mapped),
    { map with table := { map.table with slots } })

end WeakMap

end Collections.Weak
