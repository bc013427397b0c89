import Collections.Proofs.Weak.RefMap.Sweeping
import Collections.Failure

/-!
# Calls on a reference map, and a plain map to compare it with

A map in use is asked things by callers that hold objects, and from call to call they may let
objects go, or hold on to objects that they were given (`Event`). `Usage.run` lets a reference map
answer.

A plain map keeps pairs of objects in a list. It has no segments, no hashes and no sweeps, and a
pair counts exactly while those of its halves are alive that the map refers to weakly
(`PlainMap.present`). `PlainMap.run` lets it answer.

Two replies agree (`Reply.Agrees`) if they are the same, with two exceptions. Visits may come in
any order. And a plain map, which never sweeps on its own, finds in a requested sweep also the
mappings that the reference map has thrown out on its own before.
-/

set_option autoImplicit false

namespace Collections.Weak

/-! ## Calls -/

/-- What a map is asked. -/
inductive Call (κ ν : Type) where
  | put (key : Option κ) (value : Option ν)
  | putIfAbsent (key : Option κ) (value : Option ν)
  | replace (key : κ) (value : Option ν)
  | replaceIf (key : κ) (old new : Option ν)
  | get (key : κ)
  | containsKey (key : κ)
  | erase (key : κ)
  | removeIf (key : κ) (value : Option ν)
  | size
  | isEmpty
  | clear
  | purge
  | forEach

/-- What happens to a map in use. -/
inductive Event (κ ν : Type) where
  | call (call : Call κ ν)
  /-- From now on callers hold those objects that are alive and that they wish to hold. The others
  are reclaimed unless the map keeps them. -/
  | hold (wish : Liveness κ ν)

/-- What a map answers. -/
inductive Reply (κ ν : Type) where
  | failed (cause : WeakError)
  | value (value : Option ν)
  | flag (value : Bool)
  | count (value : Nat)
  | purged (count : Nat)
  | visited (entries : List (κ × ν))
  | done

variable {κ ν : Type}

/-- What is alive by both of two accounts. -/
def Liveness.inter (left right : Liveness κ ν) : Liveness κ ν where
  key key := left.key key && right.key key
  value value := left.value value && right.value value

theorem Liveness.Alike.inter {keyKind valueKind : RefType} {left right : Liveness κ ν}
    (alike : Alike keyKind valueKind left right) (wish : Liveness κ ν) :
    Alike keyKind valueKind (wish.inter left) (wish.inter right) := by
  constructor
  · intro weak
    funext key
    rw [Liveness.inter, Liveness.inter, alike.key weak]
  · intro weak
    funext value
    rw [Liveness.inter, Liveness.inter, alike.value weak]

namespace Call

/-- The failure of a call that is given no key or no value where it needs one. -/
def lack? : Call κ ν → Option WeakError
  | .put none _ | .putIfAbsent none _ => some .keyNull
  | .put (some _) none | .putIfAbsent (some _) none => some .valueNull
  | .replace _ none | .replaceIf _ _ none => some .valueNull
  | _ => none

/-- The key whose segment may be swept at the beginning of a call. -/
def sought? : Call κ ν → Option κ
  | .put (some key) (some _) | .putIfAbsent (some key) (some _) => some key
  | .replace key (some _) | .replaceIf key _ (some _) => some key
  | .erase key | .removeIf key _ => some key
  | _ => none

/-- Whether no stale mapping is left after a call. -/
def settles : Call κ ν → Bool
  | .clear | .purge => true
  | _ => false

end Call

namespace Reply

def ofExcept {β : Type} (told : β → Reply κ ν) : Except WeakError β → Reply κ ν
  | .ok answer => told answer
  | .error cause => .failed cause

/-- The reply of a map that has thrown out some mappings on its own since it was last settled, and
the reply of a plain map. -/
def Agrees (swept : Nat) : Reply κ ν → Reply κ ν → Prop
  | .visited entries, .visited others => entries.Perm others
  | .purged thrown, .purged total => thrown + swept = total
  | reply, other => reply = other

theorem Agrees.eq_value {swept : Nat} {reply : Reply κ ν} {value : Option ν}
    (agrees : Agrees swept reply (.value value)) : reply = .value value := by
  cases reply <;> exact agrees

end Reply

/-! ## The map in use -/

/-- Answer a call, with an account of what is alive as the map goes through it. -/
def RefMap.respond (map : RefMap κ ν) (alive : RefMap κ ν → Liveness κ ν) :
    Call κ ν → Reply κ ν × RefMap κ ν
  | .put key value => (map.put (.following alive) key value).map (.ofExcept .value) id
  | .putIfAbsent key value =>
      (map.putIfAbsent (.following alive) key value).map (.ofExcept .value) id
  | .replace key value => (map.replace (.following alive) key value).map (.ofExcept .value) id
  | .replaceIf key old new =>
      (map.replaceIf (.following alive) key old new).map (.ofExcept .flag) id
  | .get key => (.value (map.get? (alive map) key), map)
  | .containsKey key => (.flag (map.containsKey (alive map) key), map)
  | .erase key => (map.erase (.following alive) key).map .value id
  | .removeIf key value => (map.removeIf (.following alive) key value).map .flag id
  | .size => (.count (map.size (alive map)), map)
  | .isEmpty => (.flag (map.isEmpty (alive map)), map)
  | .clear => (.done, map.clear)
  | .purge => (map.purge alive).map .purged id
  | .forEach => (.visited (map.entries (alive map)), map)

/-- A map, the objects that callers hold, and how many mappings the map has thrown out on its own
since it was last settled. Objects that are not made yet count as held. -/
structure Usage (κ ν : Type) where
  map : RefMap κ ν
  owned : Liveness κ ν := ⟨fun _ => true, fun _ => true⟩
  swept : Nat := 0

namespace Usage

variable [DecidableEq κ] [DecidableEq ν]

/-- What is alive between two events. -/
def alive (usage : Usage κ ν) : Liveness κ ν := usage.map.aliveWith usage.owned

/-- The live mappings. -/
def entries (usage : Usage κ ν) : List (κ × ν) := usage.map.entries usage.alive

/-- How many mappings the map throws out on its own in a call. -/
def sweptIn (usage : Usage κ ν) (call : Call κ ν) : Nat :=
  match call.sought? with
  | some key => usage.map.sweptFor usage.owned key
  | none => 0

def step (usage : Usage κ ν) : Event κ ν → Reply κ ν × Usage κ ν
  | .call call =>
      let (reply, map) := usage.map.respond (RefMap.aliveWith usage.owned) call
      (reply, { usage with
        map, swept := if call.settles then 0 else usage.swept + usage.sweptIn call })
  | .hold wish => (.done, { usage with owned := wish.inter usage.alive })

/-- The replies to a run of events, each with the number of mappings that the map had thrown out
on its own before. -/
def run (usage : Usage κ ν) : List (Event κ ν) → List (Nat × Reply κ ν) × Usage κ ν
  | [] => ([], usage)
  | event :: rest =>
      let (reply, next) := usage.step event
      let (replies, last) := next.run rest
      ((usage.swept, reply) :: replies, last)

end Usage

/-! ## The plain map -/

/-- A list of pairs of objects, and the objects that callers hold. -/
structure PlainMap (κ ν : Type) where
  same : κ → κ → Bool
  sameValue : ν → ν → Bool
  keyKind : RefType
  valueKind : RefType
  owned : Liveness κ ν := ⟨fun _ => true, fun _ => true⟩
  pairs : List (κ × ν) := []

namespace PlainMap

/-- Whether those halves of a pair are alive that the map refers to weakly. -/
def present (plain : PlainMap κ ν) (pair : κ × ν) : Bool :=
  !(plain.keyKind.isWeak && !plain.owned.key pair.1 ||
    plain.valueKind.isWeak && !plain.owned.value pair.2)

/-- Whether a pair is a present one of a key. -/
def isOf (plain : PlainMap κ ν) (key : κ) (pair : κ × ν) : Bool :=
  plain.present pair && plain.same pair.1 key

/-- The present pair of a key. -/
def find? (plain : PlainMap κ ν) (key : κ) : Option (κ × ν) := plain.pairs.find? (plain.isOf key)

/-- The present pairs. -/
def entries (plain : PlainMap κ ν) : List (κ × ν) := plain.pairs.filter plain.present

def insert (plain : PlainMap κ ν) (key : κ) (value : ν) : PlainMap κ ν :=
  { plain with pairs := (key, value) :: plain.pairs }

/-- Give the present pair of a key another value. Its key object stays. -/
def setValue (plain : PlainMap κ ν) (key : κ) (value : ν) : PlainMap κ ν :=
  { plain with pairs := plain.pairs.map fun pair =>
      if plain.isOf key pair then (pair.1, value) else pair }

def remove (plain : PlainMap κ ν) (key : κ) : PlainMap κ ν :=
  { plain with pairs := plain.pairs.filter fun pair => !plain.isOf key pair }

/-- Whether the present pair of a key has a value that equals a given one. -/
def hasValue (plain : PlainMap κ ν) (key : κ) (value : Option ν) : Bool :=
  (plain.find? key).any fun pair => value.any (plain.sameValue pair.2)

/-- Answer a call. -/
def respond (plain : PlainMap κ ν) : Call κ ν → Reply κ ν × PlainMap κ ν
  | .put none _ | .putIfAbsent none _ => (.failed .keyNull, plain)
  | .put (some _) none | .putIfAbsent (some _) none => (.failed .valueNull, plain)
  | .replace _ none | .replaceIf _ _ none => (.failed .valueNull, plain)
  | .put (some key) (some value) =>
      match plain.find? key with
      | none => (.value none, plain.insert key value)
      | some pair => (.value (some pair.2), plain.setValue key value)
  | .putIfAbsent (some key) (some value) =>
      match plain.find? key with
      | none => (.value none, plain.insert key value)
      | some pair => (.value (some pair.2), plain)
  | .replace key (some value) =>
      match plain.find? key with
      | none => (.value none, plain)
      | some pair => (.value (some pair.2), plain.setValue key value)
  | .replaceIf key old (some new) =>
      if plain.hasValue key old then (.flag true, plain.setValue key new) else (.flag false, plain)
  | .get key => (.value ((plain.find? key).map (·.2)), plain)
  | .containsKey key => (.flag (plain.find? key).isSome, plain)
  | .erase key => (.value ((plain.find? key).map (·.2)), plain.remove key)
  | .removeIf key value =>
      if plain.hasValue key value then (.flag true, plain.remove key) else (.flag false, plain)
  | .size => (.count plain.entries.length, plain)
  | .isEmpty => (.flag plain.entries.isEmpty, plain)
  | .clear => (.done, { plain with pairs := [] })
  | .purge =>
      (.purged (plain.pairs.countP fun pair => !plain.present pair),
        { plain with pairs := plain.entries })
  | .forEach => (.visited plain.entries, plain)

/-- A present pair with another value is present if that value is alive. -/
theorem present_setValue {plain : PlainMap κ ν} {pair : κ × ν} {value : ν}
    (present : plain.present pair = true)
    (alive : plain.valueKind.isWeak = true → plain.owned.value value = true) :
    plain.present (pair.1, value) = true := by
  simp only [PlainMap.present, Bool.not_eq_true', Bool.or_eq_false_iff] at present ⊢
  refine ⟨present.1, ?_⟩
  cases weak : plain.valueKind.isWeak with
  | false => rfl
  | true => simp [alive weak]

variable [DecidableEq κ] [DecidableEq ν]

/-- What is alive: what callers hold, and what the map refers to strongly. -/
def alive (plain : PlainMap κ ν) : Liveness κ ν where
  key key := plain.owned.key key || !plain.keyKind.isWeak && plain.pairs.any (·.1 == key)
  value value :=
    plain.owned.value value || !plain.valueKind.isWeak && plain.pairs.any (·.2 == value)

def step (plain : PlainMap κ ν) : Event κ ν → Reply κ ν × PlainMap κ ν
  | .call call => plain.respond call
  | .hold wish => (.done, { plain with owned := wish.inter plain.alive })

/-- The replies to a run of events. -/
def run (plain : PlainMap κ ν) : List (Event κ ν) → List (Reply κ ν) × PlainMap κ ν
  | [] => ([], plain)
  | event :: rest =>
      let (reply, next) := plain.step event
      let (replies, last) := next.run rest
      (reply :: replies, last)

/-! ### What is alive -/

/-- Of the objects that are referred to weakly, those are alive that callers hold. -/
theorem alive_alike (plain : PlainMap κ ν) :
    Liveness.Alike plain.keyKind plain.valueKind plain.alive plain.owned := by
  constructor
  · intro weak
    funext key
    simp [alive, weak]
  · intro weak
    funext value
    simp [alive, weak]

/-- Callers may hold on to what is alive. So no pair becomes present again. -/
theorem present_of_present_inter (plain : PlainMap κ ν) (wish : Liveness κ ν) {pair : κ × ν}
    (present :
      ({ plain with owned := wish.inter plain.alive } : PlainMap κ ν).present pair = true) :
    plain.present pair = true := by
  simp only [PlainMap.present, Liveness.inter, Bool.not_eq_true', Bool.or_eq_false_iff] at present ⊢
  refine ⟨?_, ?_⟩
  · cases weak : plain.keyKind.isWeak with
    | false => rfl
    | true =>
        have held := present.1
        rw [weak, plain.alive_alike.key weak] at held
        cases owned : plain.owned.key pair.1 with
        | true => rfl
        | false => simp [owned] at held
  · cases weak : plain.valueKind.isWeak with
    | false => rfl
    | true =>
        have held := present.2
        rw [weak, plain.alive_alike.value weak] at held
        cases owned : plain.owned.value pair.2 with
        | true => rfl
        | false => simp [owned] at held

/-! ### One present pair for a key -/

section Unique

omit [DecidableEq κ] [DecidableEq ν]

/-- No two present ones of some pairs are of the same key. -/
def Apart (plain : PlainMap κ ν) (pairs : List (κ × ν)) : Prop :=
  (pairs.filter plain.present).Pairwise fun left right => plain.same left.1 right.1 = false

/-- No two present pairs are of the same key. -/
def Unique (plain : PlainMap κ ν) : Prop := plain.Apart plain.pairs

variable {plain : PlainMap κ ν} {keying : Keying κ} {key : κ} {pair : κ × ν} {others : List (κ × ν)}

theorem apart_cons_of_present (present : plain.present pair = true) :
    plain.Apart (pair :: others) ↔
      (∀ other ∈ others, plain.present other = true → plain.same pair.1 other.1 = false) ∧
        plain.Apart others := by
  rw [Apart, List.filter_cons_of_pos present, List.pairwise_cons]
  simp only [List.mem_filter, and_imp]
  rfl

theorem apart_cons_of_absent (absent : plain.present pair = false) :
    plain.Apart (pair :: others) ↔ plain.Apart others := by
  rw [Apart, List.filter_cons_of_neg (by simp [absent])]
  rfl

theorem apart_iff_of_perm (same : plain.same = keying.same) {pairs : List (κ × ν)}
    (parts : pairs.Perm others) : plain.Apart pairs ↔ plain.Apart others := by
  refine List.Perm.pairwise_iff ?_ (parts.filter plain.present)
  intro left right differ
  rw [same] at differ ⊢
  exact Bool.eq_false_iff.mpr fun equal =>
    Bool.eq_false_iff.mp differ (keying.symm _ _ equal)

/-- Beside a present pair of a key there is no other one. -/
theorem Unique.not_isOf (unique : plain.Unique) (same : plain.same = keying.same)
    (parts : plain.pairs.Perm (pair :: others)) (found : plain.isOf key pair = true) :
    ∀ other ∈ others, plain.isOf key other = false := by
  intro other member
  rw [isOf, Bool.and_eq_true, same] at found
  have apart := ((apart_iff_of_perm same parts).mp unique)
  rw [apart_cons_of_present found.1] at apart
  refine Bool.eq_false_iff.mpr fun alsoFound => ?_
  rw [isOf, Bool.and_eq_true, same] at alsoFound
  have differ := apart.1 other member alsoFound.1
  rw [same, keying.trans _ _ _ found.2 (keying.symm _ _ alsoFound.2)] at differ
  cases differ

theorem Unique.find?_eq_some (unique : plain.Unique) (same : plain.same = keying.same)
    (parts : plain.pairs.Perm (pair :: others)) (found : plain.isOf key pair = true) :
    plain.find? key = some pair := by
  have notOthers := unique.not_isOf same parts found
  rw [find?]
  cases located : plain.pairs.find? (plain.isOf key) with
  | none =>
      have missed := List.find?_eq_none.mp located pair
        (parts.mem_iff.mpr List.mem_cons_self)
      exact absurd found missed
  | some located' =>
      have isLocated := List.find?_some located
      have member := parts.mem_iff.mp (List.mem_of_find?_eq_some located)
      rcases List.mem_cons.mp member with rfl | inOthers
      · rfl
      · rw [notOthers _ inOthers] at isLocated
        cases isLocated

theorem Unique.setValue_perm (unique : plain.Unique) (same : plain.same = keying.same)
    (parts : plain.pairs.Perm (pair :: others)) (found : plain.isOf key pair = true) (value : ν) :
    (plain.setValue key value).pairs.Perm ((pair.1, value) :: others) := by
  have unchanged : others.map (fun other =>
      if plain.isOf key other then (other.1, value) else other) = others := by
    conv_rhs => rw [← List.map_id others]
    refine List.map_congr_left fun other member => ?_
    rw [unique.not_isOf same parts found other member]
    rfl
  refine (parts.map _).trans ?_
  rw [List.map_cons, unchanged, if_pos found]

theorem Unique.remove_perm (unique : plain.Unique) (same : plain.same = keying.same)
    (parts : plain.pairs.Perm (pair :: others)) (found : plain.isOf key pair = true) :
    (plain.remove key).pairs.Perm others := by
  refine (parts.filter _).trans ?_
  rw [List.filter_cons_of_neg (by simp [found])]
  rw [List.filter_eq_self.mpr]
  intro other member
  rw [unique.not_isOf same parts found other member]
  rfl

/-- Where there is no present pair of a key, none is removed. -/
theorem remove_of_find?_eq_none (missed : plain.find? key = none) : plain.remove key = plain := by
  have nothing := List.find?_eq_none.mp missed
  have all : plain.pairs.filter (fun pair => !plain.isOf key pair) = plain.pairs :=
    List.filter_eq_self.mpr fun pair member => by simpa using nothing pair member
  rw [remove, all]

/-- A present pair is found under every key that is the same as its own. -/
theorem Unique.find?_of_mem (unique : plain.Unique)
    (same : plain.same = keying.same) (member : pair ∈ plain.entries)
    (sameKey : keying.same pair.1 key = true) : plain.find? key = some pair := by
  obtain ⟨inPairs, present⟩ := List.mem_filter.mp member
  obtain ⟨front, back, pairs⟩ := List.append_of_mem inPairs
  have parts : plain.pairs.Perm (pair :: (front ++ back)) := by
    rw [pairs]
    exact List.perm_middle
  refine unique.find?_eq_some same parts ?_
  rw [isOf, present, same, sameKey]
  rfl

/-- A pair of a key that has none may be added. -/
theorem Unique.insert (unique : plain.Unique) (same : plain.same = keying.same)
    (missed : plain.find? key = none) (value : ν) : (plain.insert key value).Unique := by
  show plain.Apart ((key, value) :: plain.pairs)
  cases visible : plain.present (key, value) with
  | false => exact (apart_cons_of_absent visible).mpr unique
  | true =>
      refine (apart_cons_of_present visible).mpr ⟨fun other member present => ?_, unique⟩
      have notOf := List.find?_eq_none.mp missed other member
      rw [isOf, present, Bool.true_and, same] at notOf
      rw [same]
      exact Bool.eq_false_iff.mpr fun equal => notOf (keying.symm _ _ equal)

/-- A pair may take another value. -/
theorem Unique.setValue (unique : plain.Unique) (same : plain.same = keying.same)
    (parts : plain.pairs.Perm (pair :: others)) (found : plain.isOf key pair = true) (value : ν) :
    (plain.setValue key value).Unique := by
  show plain.Apart (plain.setValue key value).pairs
  rw [apart_iff_of_perm same (unique.setValue_perm same parts found value)]
  rw [isOf, Bool.and_eq_true] at found
  obtain ⟨apart, rest⟩ := (apart_cons_of_present found.1).mp
    ((apart_iff_of_perm same parts).mp unique)
  cases visible : plain.present (pair.1, value) with
  | false => exact (apart_cons_of_absent visible).mpr rest
  | true => exact (apart_cons_of_present visible).mpr ⟨apart, rest⟩

/-- Pairs may be left out. -/
theorem Unique.of_sublist (unique : plain.Unique) {pairs : List (κ × ν)}
    (fewer : pairs.Sublist plain.pairs) : plain.Apart pairs :=
  List.Pairwise.sublist (fewer.filter plain.present) unique

end Unique

end PlainMap

end Collections.Weak
