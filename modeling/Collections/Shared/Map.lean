import Collections.Shared.Association
import Collections.Shared.Guarded
import Collections.Bytes

/-!
# Shared maps

A map that several callers use at a time, each operation being carried out while no other is. The
conditional operations look and change in one go: `putIfAbsent`, `replace`, `replaceIf` and
`removeIf` change nothing unless their condition holds, and otherwise only their own key.

The map may be ordered by key or not. No answer depends on which it is, but for the order in which
mappings are visited.

What callers ask of a map is a call (`SharedMap.Call`). They may also go through the map with a
cursor (`SharedMap.iterate`), or change it under the lock in a way of their own.
-/

set_option autoImplicit false

namespace Collections.Shared

open Log (Notice)

/-- A map behind a lock. -/
structure SharedMap (κ ν : Type) extends Guarded (κ × ν) where
  arrangement : Arrangement

namespace SharedMap

variable {κ ν : Type} [BEq κ] [Ord κ]

/-- The notice of a map that was made with a number of mappings. -/
def createdNotice (count : Nat) : Notice :=
  .trace .sync s!"Synchronized_map {Notice.object} created with [{count}] initial mappings."

/-- The notice of a `putIfAbsent` that lost. -/
def presentNotice : Notice :=
  .trace .sync s!"Synchronized_map {Notice.object}: put_if_absent() found key already present."

/-- The notice of an iteration that removed mappings. -/
def removedNotice (removed remaining : Nat) : Notice :=
  .trace .sync
    s!"Synchronized_map {Notice.object}: iteration removed [{removed}] mappings; [{remaining}] remain."

/-- Wrap a map that holds some entries, the last of equal keys counting. -/
def wrap (arrangement : Arrangement) (entries : List (κ × ν)) : SharedMap κ ν :=
  let container : Container (κ × ν) := entries.foldl
    (fun container (key, value) => container.assign arrangement key value) { grip := .element }
  { container, arrangement, notices := [createdNotice container.items.length] }

/-- Replace the guarded part. -/
def withGuarded (map : SharedMap κ ν) (guarded : Guarded (κ × ν)) : SharedMap κ ν :=
  { guarded with arrangement := map.arrangement }

def edit (map : SharedMap κ ν) (container : Container (κ × ν)) : SharedMap κ ν :=
  { map with container }

/-! ## Operations -/

def get? (map : SharedMap κ ν) (key : κ) : Option ν := map.container.lookup? key

def containsKey (map : SharedMap κ ν) (key : κ) : Bool := (map.get? key).isSome

def containsValue [BEq ν] (map : SharedMap κ ν) (value : ν) : Bool :=
  map.items.any (·.2 == value)

/-- Map a key to a value. Answers the value it had. -/
def put (map : SharedMap κ ν) (key : κ) (value : ν) : Option ν × SharedMap κ ν :=
  (map.get? key, map.edit (map.container.assign map.arrangement key value))

/-- Erase a key. Answers the value it had. -/
def erase (map : SharedMap κ ν) (key : κ) : Option ν × SharedMap κ ν :=
  (map.get? key, map.edit (map.container.eraseKey key))

/-- Erase a key if it has a given value. -/
def removeIf [BEq ν] (map : SharedMap κ ν) (key : κ) (value : ν) : Bool × SharedMap κ ν :=
  if map.get? key == some value then (true, (map.erase key).2) else (false, map)

/-- Map a key to a value unless it has one. Answers the value it had. -/
def putIfAbsent (map : SharedMap κ ν) (key : κ) (value : ν) : Option ν × SharedMap κ ν :=
  match map.get? key with
  | some present => (some present, map.withGuarded (map.toGuarded.say presentNotice))
  | none => (none, (map.put key value).2)

/-- Replace the value of a key that has one. Answers the value it had. -/
def replace (map : SharedMap κ ν) (key : κ) (value : ν) : Option ν × SharedMap κ ν :=
  match map.get? key with
  | some present => (some present, (map.put key value).2)
  | none => (none, map)

/-- Replace the value of a key that has a given one. -/
def replaceIf [BEq ν] (map : SharedMap κ ν) (key : κ) (old new : ν) : Bool × SharedMap κ ν :=
  if map.get? key == some old then (true, (map.put key new).2) else (false, map)

/-- Map keys to values, in order. -/
def putAll (map : SharedMap κ ν) (entries : List (κ × ν)) : SharedMap κ ν :=
  entries.foldl (fun map (key, value) => (map.put key value).2) map

def clear (map : SharedMap κ ν) : SharedMap κ ν := map.edit map.container.clear

/-- Walk the map with a cursor. A callback that removed mappings and returned is noted. -/
def iterate (map : SharedMap κ ν) (script : List Cue) : List (Reply (κ × ν)) × SharedMap κ ν :=
  let (replies, returned, walk) := (Walk.start map.container 0).play script
  let walked : Guarded (κ × ν) := { map.toGuarded with container := walk.container }
  (replies,
    map.withGuarded (if returned then walked.sayRemoved removedNotice walk.removed else walked))

/-! ## Calls -/

/-- What is asked of a map. -/
inductive Call (κ ν : Type) where
  | put (key : κ) (value : ν)
  | get (key : κ)
  | containsKey (key : κ)
  | containsValue (value : ν)
  | erase (key : κ)
  | removeIf (key : κ) (value : ν)
  | putIfAbsent (key : κ) (value : ν)
  | replace (key : κ) (value : ν)
  | replaceIf (key : κ) (old new : ν)
  | putAll (entries : List (κ × ν))
  | size
  | isEmpty
  | clear
  /-- Visit all mappings. -/
  | forEach
  /-- Walk the map, and remove the mappings that satisfy a test. -/
  | removeWhere (drop : κ × ν → Bool)

/-- What a map answers. The mappings that it visited are told as a collection of some kind. -/
inductive Told (ν σ : Type) where
  | value (value : Option ν)
  | flag (value : Bool)
  | count (value : Nat)
  | visited (mappings : σ)
  | swept (mappings : σ) (removed : Nat)
  | done

/-- The same answer, with another collection of the mappings that were visited. -/
def Told.map {σ τ : Type} (collect : σ → τ) : Told ν σ → Told ν τ
  | .value answer => .value answer
  | .flag answer => .flag answer
  | .count answer => .count answer
  | .visited mappings => .visited (collect mappings)
  | .swept mappings removed => .swept (collect mappings) removed
  | .done => .done

/-- Answer a call. Walks under way use the slots below the given one. -/
def respond [BEq ν] (slot : Nat) (map : SharedMap κ ν) :
    Call κ ν → Told ν (List (κ × ν)) × SharedMap κ ν
  | .put key value => (map.put key value).map .value id
  | .get key => (.value (map.get? key), map)
  | .containsKey key => (.flag (map.containsKey key), map)
  | .containsValue value => (.flag (map.containsValue value), map)
  | .erase key => (map.erase key).map .value id
  | .removeIf key value => (map.removeIf key value).map .flag id
  | .putIfAbsent key value => (map.putIfAbsent key value).map .value id
  | .replace key value => (map.replace key value).map .value id
  | .replaceIf key old new => (map.replaceIf key old new).map .flag id
  | .putAll entries => (.done, map.putAll entries)
  | .size => (.count map.size, map)
  | .isEmpty => (.flag (map.size == 0), map)
  | .clear => (.done, map.clear)
  | .forEach => (.visited map.items, map)
  | .removeWhere drop =>
      let ((visited, removed), guarded) := map.toGuarded.removeWhere removedNotice slot drop
      (.swept visited removed, map.withGuarded guarded)

end SharedMap

end Collections.Shared
