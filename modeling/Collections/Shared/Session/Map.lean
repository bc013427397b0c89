import Collections.Shared.Map

/-!
# Sessions with a shared map

Callers make steps on a map to integers. Apart from calls, a step may visit the mappings with a
callback that asks for the size at each, add to a value on the bare map under the lock, or let several
callers race for keys. Mappings are shown in ascending order of their keys.
-/

set_option autoImplicit false

namespace Collections.Shared.SharedMap

variable {κ ν : Type} [BEq κ] [Ord κ]

/-- Mappings in ascending order of their keys. -/
def inOrder (mappings : List (κ × ν)) : List (κ × ν) :=
  mappings.mergeSort fun left right => (compare left.1 right.1).isLE

/-! ## Races -/

/-- Callers put their own value for a key if it is absent, one after the other: what each was
told. -/
def bid (map : SharedMap κ ν) (key : κ) : List ν → List (Option ν) × SharedMap κ ν
  | [] => ([], map)
  | value :: rest =>
      let (answer, map) := map.putIfAbsent key value
      let (answers, map) := map.bid key rest
      (answer :: answers, map)

/-- Callers bid for several keys. Counts for each key who found it absent, and a thousand for each
who was told of a value that the map does not hold. -/
def race [BEq ν] (map : SharedMap κ ν) (values : List ν) : List κ → List Nat × SharedMap κ ν
  | [] => ([], map)
  | key :: rest =>
      let (answers, map) := map.bid key values
      let winners := answers.countP (·.isNone)
      let misled := answers.countP fun answer => answer.isSome && answer != map.get? key
      let (tallies, map) := map.race values rest
      ((winners + 1000 * misled) :: tallies, map)

/-! ## Steps -/

/-- A plain operation of a session. -/
inductive Operation (κ : Type) where
  | call (call : Call κ Int)
  /-- Visit all mappings, asking for the size at each. -/
  | tour
  /-- Add to the value of a key on the bare map, starting from zero. -/
  | increase (key : κ) (amount : Int)
  /-- Let callers with values of their own race for keys, and erase these keys. -/
  | race (values : List Int) (keys : List κ)

/-- What a plain operation answers. -/
inductive Result (κ : Type) where
  | told (told : Told Int (List (κ × Int)))
  | amount (value : Int)
  | toured (mappings : List (κ × Int)) (sizes : Nat)
  | tallies (values : List Nat)

/-- Carry out a plain operation. Walks under way use the slots below the given one. -/
def apply (slot : Nat) (map : SharedMap κ Int) : Operation κ → Result κ × SharedMap κ Int
  | .call call => (map.respond slot call).map (fun told => .told (told.map inOrder)) id
  | .tour => (.toured (inOrder map.items) (map.items.foldl (fun sum _ => sum + map.size) 0), map)
  | .increase key amount =>
      let value := (map.get? key).getD 0 + amount
      (.amount value, (map.put key value).2)
  | .race values keys =>
      let (tallies, map) := map.race values keys
      (.tallies tallies, keys.foldl (fun map key => (map.erase key).2) map)

/-- Make a step. -/
def step (map : SharedMap κ Int) (step : Step (Operation κ)) :
    Answer (κ × Int) (Result κ) × SharedMap κ Int :=
  let applyGuarded (slot : Nat) (guarded : Guarded (κ × Int)) (operation : Operation κ) :=
    let (result, after) := (map.withGuarded guarded).apply slot operation
    (result, after.toGuarded)
  let (answer, guarded) := Guarded.step applyGuarded removedNotice 0 map.toGuarded step
  (answer, map.withGuarded guarded)

/-- Make steps, with the content after each. -/
def run (map : SharedMap κ Int) :
    List (Step (Operation κ)) → List (Answer (κ × Int) (Result κ) × List (κ × Int)) × SharedMap κ Int
  | [] => ([], map)
  | first :: rest =>
      let (answer, map) := map.step first
      let (answers, last) := map.run rest
      ((answer, inOrder map.items) :: answers, last)

end Collections.Shared.SharedMap
