import Collections.Log.Notice
import Collections.Table
import Collections.Weak.RefMap.Mapping
import Collections.Weak.RefMap.Options
import Collections.Weak.SlotTable

/-!
# Reference maps

A map that refers to its keys and to its values strongly or weakly, as its options say. A mapping
is live while neither of its two objects has been reclaimed. The map is split into segments by
the hashes of the keys, and each segment is swept on its own schedule.

To map a key that is there to a new value keeps the key object that is there.

Objects may be reclaimed while a call is under way, so the calls that sweep, search and then use
what they found are told what is alive at each of these moments (`Moments`). A call during which
nothing is reclaimed is a `steady` one. The map itself holds objects, and lets them go as soon as it
throws a mapping out. When one object is a key here and a value there, a sweep may thus make
mappings stale that it has yet to reach: then what is alive follows from what the map holds at each
moment (`following`).
-/

set_option autoImplicit false

namespace Collections.Weak

open Log (Notice)

/-- A map with strong or weak references to its keys and values. -/
structure RefMap (κ ν : Type) where
  keying : Keying κ
  sameValue : ν → ν → Bool
  keyKind : RefType
  valueKind : RefType
  segmentCount : UInt64
  /-- The number of mappings for which each segment has room from the start. -/
  reserved : UInt64 := 0
  segments : Table (SlotTable (Mapping κ ν)) := {}
  notices : List Notice := []

/-- What is alive in the course of a call: when the sweep and the search reach each position, and
when the mapping that was found is used. It may depend on what the map is at that moment. -/
structure Moments (κ ν : Type) where
  sweep : Nat → RefMap κ ν → Liveness κ ν
  search : Nat → RefMap κ ν → Liveness κ ν
  use : RefMap κ ν → Liveness κ ν

namespace Moments

variable {κ ν : Type}

/-- Nothing is reclaimed but what the map lets go of. -/
def following (alive : RefMap κ ν → Liveness κ ν) : Moments κ ν where
  sweep _ := alive
  search _ := alive
  use := alive

/-- Nothing is reclaimed in the course of the call. -/
def steady (alive : Liveness κ ν) : Moments κ ν := following fun _ => alive

end Moments

namespace RefMap

variable {κ ν : Type}

/-! ## Notices -/

/-- The notice of a map that was made. -/
def createdNotice (count : UInt64) (keyKind valueKind : RefType) : Notice :=
  let segments := count.toNat
  let keys := keyKind.name
  let values := valueKind.name
  .trace .weak
    s!"Concurrent_ref_map {Notice.object} created with [{segments}] segments; keys [{keys}]; values [{values}]."

def clearedNotice : Notice := .trace .weak s!"Concurrent_ref_map {Notice.object}: cleared."

/-- The notice of a requested sweep that threw something out. -/
def purgedNotice (purged : Nat) : Notice :=
  .trace .weak s!"Concurrent_ref_map {Notice.object}: purged [{purged}] stale entries."

def say (map : RefMap κ ν) (notice : Notice) : RefMap κ ν :=
  { map with notices := map.notices ++ [notice] }

/-! ## Making -/

/-- The failure of options that make no map. -/
def rejection : Failure :=
  .other (Bytes.ofString
    "Concurrent_ref_map segment count must be positive, and ref types must be valid.")

/-- Make a map. Options are refused that ask for no segments or for a kind of reference that does
not exist. There is no answer when the number of segments is never reached. Memory is taken to be
there for whatever is reserved. -/
def make? (keying : Keying κ) (sameValue : ν → ν → Bool) (options : RefMapOptions) :
    Option (Except Failure (RefMap κ ν)) :=
  match options.segmentCount == 0, options.keyKind, options.valueKind with
  | false, some keyKind, some valueKind =>
      (RefMapOptions.segments? options.segmentCount).map fun segmentCount =>
        .ok { keying, sameValue, keyKind, valueKind, segmentCount
              reserved := RefMapOptions.perSegment options.initialCapacity segmentCount
              notices := [createdNotice segmentCount keyKind valueKind] }
  | _, _, _ => some (.error rejection)

/-! ## Segments -/

/-- The index of the segment of a key. -/
def home (map : RefMap κ ν) (key : κ) : Nat :=
  (RefMapOptions.segmentIndex map.segmentCount (map.keying.hash key)).toNat

/-- The segments that have been used. -/
def used (map : RefMap κ ν) : List (SlotTable (Mapping κ ν)) := map.segments.written

def mapping (map : RefMap κ ν) (key : κ) (value : ν) : Mapping κ ν :=
  ⟨map.keying.hash key, ⟨map.keyKind, key⟩, ⟨map.valueKind, value⟩⟩

/-- The map with other mappings in one of its segments. -/
def withSlots (map : RefMap κ ν) (index : Nat) (slots : List (Mapping κ ν)) : RefMap κ ν :=
  { map with segments := map.segments.set index { map.segments.get index with slots } }

/-- Sweep a segment, and tell how many mappings were thrown out. -/
def sweepSegment (map : RefMap κ ν) (alive : Nat → RefMap κ ν → Liveness κ ν) (index : Nat) :
    Nat × RefMap κ ν :=
  let (purged, table) := (map.segments.get index).sweepDuring fun position there =>
    Mapping.live (alive position (map.withSlots index there))
  (purged, { map with segments := map.segments.set index table })

/-- Sweep several segments one after the other, and tell how many mappings were thrown out. -/
def sweepSegments (map : RefMap κ ν) (alive : RefMap κ ν → Liveness κ ν) :
    List Nat → Nat × RefMap κ ν
  | [] => (0, map)
  | index :: rest =>
      let (purged, map) := map.sweepSegment (fun _ => alive) index
      let (more, map) := map.sweepSegments alive rest
      (purged + more, map)

/-- A map whose segment of a key has been swept if it was time, and what was found there. -/
structure Lookup (κ ν : Type) where
  map : RefMap κ ν
  index : Nat
  found : Option (Nat × Mapping κ ν)

/-- Sweep the segment of a key if it is time, and look the key up there. -/
def lookup (map : RefMap κ ν) (moments : Moments κ ν) (key : κ) : Lookup κ ν :=
  let index := map.home key
  let map :=
    if (map.segments.get index).isDue then (map.sweepSegment moments.sweep index).2 else map
  ⟨map, index, (map.segments.get index).findDuring? fun position =>
    Mapping.wanted map.keying key (moments.search position map)⟩

/-- Change the segment of a look-up. -/
def Lookup.edit (lookup : Lookup κ ν)
    (change : SlotTable (Mapping κ ν) → SlotTable (Mapping κ ν)) : RefMap κ ν :=
  let map := lookup.map
  { map with segments := map.segments.set lookup.index (change (map.segments.get lookup.index)) }

/-- The value of a mapping that was found, at the moment when it is used. -/
def Lookup.value? (lookup : Lookup κ ν) (moments : Moments κ ν) (mapping : Mapping κ ν) :
    Option ν :=
  mapping.value.get? (moments.use lookup.map).value

/-- Whether both values are there and equal. -/
def agree (map : RefMap κ ν) (left right : Option ν) : Bool :=
  match left, right with
  | some left, some right => map.sameValue left right
  | _, _ => false

/-! ## Operations on one key -/

/-- Map a key to a value. Answers the value it had. -/
def put (map : RefMap κ ν) (moments : Moments κ ν) (key : Option κ) (value : Option ν) :
    Except WeakError (Option ν) × RefMap κ ν :=
  match key, value with
  | none, _ => (.error .keyNull, map.say (.emitted .keyNull))
  | some _, none => (.error .valueNull, map.say (.emitted .valueNull))
  | some key, some value =>
      let lookup := map.lookup moments key
      match lookup.found with
      | none => (.ok none, lookup.edit (·.insert (map.mapping key value)))
      | some (position, mapping) =>
          (.ok (lookup.value? moments mapping),
            lookup.edit (·.setAt position (mapping.withValue value)))

/-- Map a key to a value unless it has one. Answers the value it has. -/
def putIfAbsent (map : RefMap κ ν) (moments : Moments κ ν) (key : Option κ) (value : Option ν) :
    Except WeakError (Option ν) × RefMap κ ν :=
  match key, value with
  | none, _ => (.error .keyNull, map.say (.emitted .keyNull))
  | some _, none => (.error .valueNull, map.say (.emitted .valueNull))
  | some key, some value =>
      let lookup := map.lookup moments key
      match lookup.found with
      | none => (.ok none, lookup.edit (·.insert (map.mapping key value)))
      | some (position, mapping) =>
          match lookup.value? moments mapping with
          | some existing => (.ok (some existing), lookup.map)
          | none =>
              (.ok none, lookup.edit fun table =>
                (table.eraseAt position).insert (map.mapping key value))

/-- Map a key that has a value to another one. Answers the value it had. -/
def replace (map : RefMap κ ν) (moments : Moments κ ν) (key : κ) (value : Option ν) :
    Except WeakError (Option ν) × RefMap κ ν :=
  match value with
  | none => (.error .valueNull, map.say (.emitted .valueNull))
  | some value =>
      let lookup := map.lookup moments key
      match lookup.found with
      | none => (.ok none, lookup.map)
      | some (position, mapping) =>
          match lookup.value? moments mapping with
          | none => (.ok none, lookup.map)
          | some previous =>
              (.ok (some previous),
                lookup.edit (·.setAt position (mapping.withValue value)))

/-- Map a key to another value if it has a value that equals a given one, and tell whether it
does. -/
def replaceIf (map : RefMap κ ν) (moments : Moments κ ν) (key : κ) (old new : Option ν) :
    Except WeakError Bool × RefMap κ ν :=
  match new with
  | none => (.error .valueNull, map.say (.emitted .valueNull))
  | some new =>
      let lookup := map.lookup moments key
      match lookup.found with
      | none => (.ok false, lookup.map)
      | some (position, mapping) =>
          if map.agree (lookup.value? moments mapping) old then
            (.ok true, lookup.edit (·.setAt position (mapping.withValue new)))
          else (.ok false, lookup.map)

/-- Erase a key. Answers the value it had. -/
def erase (map : RefMap κ ν) (moments : Moments κ ν) (key : κ) : Option ν × RefMap κ ν :=
  let lookup := map.lookup moments key
  match lookup.found with
  | none => (none, lookup.map)
  | some (position, mapping) =>
      (lookup.value? moments mapping, lookup.edit (·.eraseAt position))

/-- Erase a key if it has a value that equals a given one, and tell whether it does. -/
def removeIf (map : RefMap κ ν) (moments : Moments κ ν) (key : κ) (value : Option ν) :
    Bool × RefMap κ ν :=
  let lookup := map.lookup moments key
  match lookup.found with
  | none => (false, lookup.map)
  | some (position, mapping) =>
      if map.agree (lookup.value? moments mapping) value then
        (true, lookup.edit (·.eraseAt position))
      else (false, lookup.map)

/-- The value of a key. Nothing is swept. -/
def get? (map : RefMap κ ν) (alive : Liveness κ ν) (key : κ) : Option ν := do
  let (_, mapping) ← (map.segments.get (map.home key)).find? (Mapping.wanted map.keying key alive)
  mapping.value.get? alive.value

def containsKey (map : RefMap κ ν) (alive : Liveness κ ν) (key : κ) : Bool :=
  (map.get? alive key).isSome

/-! ## Operations on the whole map -/

/-- Add up a number for each segment. -/
def total (map : RefMap κ ν) (count : SlotTable (Mapping κ ν) → Nat) : Nat :=
  map.used.foldl (fun sum table => sum + count table) 0

/-- The number of live mappings. -/
def size (map : RefMap κ ν) (alive : Liveness κ ν) : Nat :=
  map.total (·.liveCount (Mapping.live alive))

def isEmpty (map : RefMap κ ν) (alive : Liveness κ ν) : Bool := map.size alive == 0

/-- The live mappings, segment by segment. -/
def entries (map : RefMap κ ν) (alive : Liveness κ ν) : List (κ × ν) :=
  map.used.flatMap fun table => table.slots.filterMap (Mapping.pair? alive)

/-- Throw out all mappings. -/
def clear (map : RefMap κ ν) : RefMap κ ν :=
  { map with segments := map.segments.map SlotTable.clear }.say clearedNotice

/-- Sweep all segments, and tell how many mappings were thrown out. -/
def purge (map : RefMap κ ν) (alive : RefMap κ ν → Liveness κ ν) : Nat × RefMap κ ν :=
  let (purged, map) := map.sweepSegments alive (List.range map.used.length)
  (purged, if purged = 0 then map else map.say (purgedNotice purged))

/-- Visit the live mappings of several segments and erase each of them from inside the visit. The
visitor holds on to the mappings of one segment until it goes on to the next. What is alive depends
on what it holds and on the map. -/
def eraseEachOf (map : RefMap κ ν) (alive : List (κ × ν) → RefMap κ ν → Liveness κ ν) :
    List Nat → List (κ × ν) × RefMap κ ν
  | [] => ([], map)
  | index :: rest =>
      let visited := (map.segments.get index).slots.filterMap (Mapping.pair? (alive [] map))
      let map := visited.foldl
        (fun map (key, _) => (map.erase (.following (alive visited)) key).2) map
      let (others, map) := map.eraseEachOf alive rest
      (visited ++ others, map)

/-- Visit the live mappings of all segments and erase each of them from inside the visit. -/
def eraseEach (map : RefMap κ ν) (alive : List (κ × ν) → RefMap κ ν → Liveness κ ν) :
    List (κ × ν) × RefMap κ ν :=
  map.eraseEachOf alive (List.range map.used.length)

/-- Whether some mapping keeps an object alive. -/
def keeps (map : RefMap κ ν) (isKey : κ → Bool) (isValue : ν → Bool) : Bool :=
  map.used.any fun table => table.slots.any fun mapping =>
    (mapping.key.keeps && isKey mapping.key.target) ||
      (mapping.value.keeps && isValue mapping.value.target)

end RefMap

end Collections.Weak
