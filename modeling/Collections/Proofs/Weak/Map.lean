import Collections.Proofs.Runs
import Collections.Proofs.Weak.Filing
import Collections.Weak.Map

/-!
# A weak map answers as a list of pairs

A weak map in use is asked things, and from call to call keys may be reclaimed (`WeakMap.step`). A
plain map, which sweeps only when it is asked to, answers the same calls (`WeakMap.attend`). Two
replies agree as they do for reference maps: visits may come in any order, and a requested sweep of
the plain map also finds what the weak map has thrown out on its own before.

A visit calls back once for each mapping. So whatever the callback remembers from one mapping to the
next, what it does in a visit is a function of the key, and `Call.forEach` takes such functions.
-/

set_option autoImplicit false

namespace Collections.Weak

namespace WeakMap

variable {κ ν : Type}

/-! ## Calls -/

/-- What a weak map is asked. -/
inductive Call (κ ν : Type) where
  | put (key : Option κ) (value : ν)
  | get (key : κ)
  | contains (key : κ)
  | erase (key : κ)
  | size
  | isEmpty
  | clear
  | purge
  | forEach (change : κ → ν → ν)

/-- Answer a call. -/
def respond (map : WeakMap κ ν) (alive : κ → Bool) : Call κ ν → Reply κ ν × WeakMap κ ν
  | .put key value => (map.put alive key value).map (.ofExcept .value) id
  | .get key => (.value (map.get? alive key), map)
  | .contains key => (.flag (map.contains alive key), map)
  | .erase key => (map.erase alive key).map .value id
  | .size => (.count (map.size alive), map)
  | .isEmpty => (.flag (map.isEmpty alive), map)
  | .clear => (.done, map.clear)
  | .purge => (map.purge alive).map .purged id
  | .forEach change => (map.forEach alive change).map .visited id

/-- How many slots the map has thrown out on its own after a call, if it had thrown out some
before. -/
def sweptAfter (map : WeakMap κ ν) (alive : κ → Bool) (swept : Nat) : Call κ ν → Nat
  | .put (some _) _ | .erase _ => swept + (map.table.sweepIfDue (live alive)).1
  | .forEach _ => swept + (map.table.sweep (live alive)).1
  | .clear | .purge => 0
  | _ => swept

/-- What happens to a weak map in use, told with the number of slots that it had thrown out on its
own before. -/
def step (use : InUse (WeakMap κ ν) κ) :
    Occasion (Call κ ν) κ → (Nat × Reply κ ν) × InUse (WeakMap κ ν) κ
  | .call call =>
      let (reply, container) := use.container.respond use.alive call
      ((use.swept, reply), { use with
        container, swept := use.container.sweptAfter use.alive use.swept call })
  | .reclaim keep => ((use.swept, .done), use.reclaim keep)

/-- Answer a call with a list of pairs. -/
def answer (plain : PlainMap κ ν) : Call κ ν → Reply κ ν × PlainMap κ ν
  | .put key value => plain.respond (.put key (some value))
  | .get key => plain.respond (.get key)
  | .contains key => plain.respond (.containsKey key)
  | .erase key => plain.respond (.erase key)
  | .size => plain.respond .size
  | .isEmpty => plain.respond .isEmpty
  | .clear => plain.respond .clear
  | .purge => plain.respond .purge
  | .forEach change => (plain.changeValues change).respond .forEach

/-- What happens to a list of pairs. -/
def attend (plain : PlainMap κ ν) : Occasion (Call κ ν) κ → Reply κ ν × PlainMap κ ν
  | .call call => answer plain call
  | .reclaim keep => (.done, plain.reclaim keep)

/-! ## The map and its table -/

/-- How the slots of a weak map are filed. -/
def filing (keying : Keying κ) : Filing (MapSlot κ ν) κ ν where
  keying
  hash := MapSlot.hash
  pair slot := (slot.key, slot.mapped)

/-- The live mappings. -/
def entries (map : WeakMap κ ν) (alive : κ → Bool) : List (κ × ν) :=
  (filing map.keying).entries alive map.table

theorem table_purge (map : WeakMap κ ν) (alive : κ → Bool) :
    (map.purge alive).2.table = (map.table.sweep (live alive)).2 := by
  unfold purge afterSweep
  dsimp only
  split <;> rfl

/-! ## Mirroring -/

/-- A plain map mirrors a weak map in use. -/
structure Mirrored (keying : Keying κ) (use : InUse (WeakMap κ ν) κ) (plain : PlainMap κ ν) :
    Prop where
  keyed : use.container.keying = keying
  table : (filing keying).Mirrors use.container.table use.alive use.swept plain

/-- A weak map and a plain map answer alike, and the plain one mirrors the other one afterwards. -/
structure Matches (keying : Keying κ) (told : (Nat × Reply κ ν) × InUse (WeakMap κ ν) κ)
    (other : Reply κ ν × PlainMap κ ν) : Prop where
  agrees : Reply.Agrees told.1.1 told.1.2 other.1
  mirrored : Mirrored keying told.2 other.2

namespace Mirrored

variable {keying : Keying κ} {use : InUse (WeakMap κ ν) κ} {plain : PlainMap κ ν} {key : κ}
  {position : Nat} {slot : MapSlot κ ν}

/-- Of a sweep only the table matters. -/
theorem afterSweep (keyed : use.container.keying = keying) {swept : Nat}
    {outcome : Nat × SlotTable (MapSlot κ ν)}
    (table : (filing keying).Mirrors outcome.2 use.alive swept plain) :
    Mirrored keying { use with
      container := (use.container.afterSweep outcome).2, swept } plain := by
  unfold WeakMap.afterSweep
  dsimp only
  split <;> exact ⟨keyed, table⟩

/-- The sweep at the beginning of a call goes unnoticed. -/
theorem freshened (mirrored : Mirrored keying use plain) :
    Mirrored keying { use with
      container := use.container.purgeIfDue use.alive
      swept := use.swept + (use.container.table.sweepIfDue (live use.alive)).1 } plain :=
  afterSweep mirrored.keyed mirrored.table.sweepIfDue

/-- The live slot of a key is sought among the slots as they are filed. -/
theorem sought (mirrored : Mirrored keying use plain) (key : κ) :
    use.container.find? use.alive key =
      use.container.table.find? ((filing keying).wanted use.alive key) := by
  rw [find?, mirrored.keyed]
  rfl

theorem find?_eq (mirrored : Mirrored keying use plain) (key : κ) :
    plain.find? key =
      (use.container.find? use.alive key).map fun (_, slot) => (slot.key, slot.mapped) := by
  rw [mirrored.sought]
  exact mirrored.table.find?_eq key

/-! ### Calls that sweep -/

theorem put (mirrored : Mirrored keying use plain) (key : κ) (value : ν) :
    Matches keying (step use (.call (.put (some key) value)))
      (attend plain (.call (.put (some key) value))) := by
  have fresh := mirrored.freshened
  have found := fresh.find?_eq key
  simp only [step, respond, WeakMap.put, attend, answer, PlainMap.respond, found]
  have sought := fresh.sought key
  dsimp only at sought ⊢
  cases hit : (use.container.purgeIfDue use.alive).find? use.alive key with
  | none =>
      refine ⟨rfl, fresh.keyed, fresh.table.insert (sought.symm.trans hit) rfl ?_⟩
      rw [fresh.keyed]
      rfl
  | some hit' => exact ⟨rfl, fresh.keyed, fresh.table.setAt (sought.symm.trans hit) rfl rfl⟩

theorem erase (mirrored : Mirrored keying use plain) (key : κ) :
    Matches keying (step use (.call (.erase key))) (attend plain (.call (.erase key))) := by
  have fresh := mirrored.freshened
  have found := fresh.find?_eq key
  have sought := fresh.sought key
  simp only [step, respond, WeakMap.erase, attend, answer, PlainMap.respond, found]
  dsimp only at sought ⊢
  cases hit : (use.container.purgeIfDue use.alive).find? use.alive key with
  | none =>
      rw [PlainMap.remove_of_find?_eq_none (by rw [found, hit]; rfl)]
      exact ⟨rfl, fresh⟩
  | some hit' => exact ⟨rfl, fresh.keyed, fresh.table.eraseAt (sought.symm.trans hit)⟩

theorem purge (mirrored : Mirrored keying use plain) :
    Matches keying (step use (.call .purge)) (attend plain (.call .purge)) :=
  ⟨mirrored.table.sweep_add, afterSweep mirrored.keyed mirrored.table.swept_entries⟩

theorem forEach (mirrored : Mirrored keying use plain) (change : κ → ν → ν) :
    Matches keying (step use (.call (.forEach change)))
      (attend plain (.call (.forEach change))) := by
  have swept : Mirrored keying { use with
      container := (use.container.purge use.alive).2
      swept := use.swept + (use.container.table.sweep (live use.alive)).1 } plain :=
    afterSweep mirrored.keyed mirrored.table.sweep
  -- Behind the sweep all slots are live, so all are visited, and each value is that of a present
  -- pair.
  have allLive : ∀ slot ∈ (use.container.purge use.alive).2.table.slots,
      live use.alive slot = true := by
    rw [table_purge]
    exact fun slot member => (SlotTable.mem_sweep.mp member).2
  have changed := swept.table.changeValues
    (fun slot => { slot with mapped := change slot.key slot.mapped }) allLive
    (fun _ => rfl) (fun _ => rfl)
  refine ⟨?_, swept.keyed, changed⟩
  have visited := changed.entries_perm
  rw [Filing.entries, List.filter_eq_self.mpr] at visited
  · exact visited
  · intro slot member
    obtain ⟨former, stored, rfl⟩ := List.mem_map.mp member
    exact allLive former stored

/-! ### All calls -/

/-- **Every call is answered as by the plain map.** -/
theorem respond (mirrored : Mirrored keying use plain) (call : Call κ ν) :
    Matches keying (step use (.call call)) (attend plain (.call call)) := by
  cases call with
  | put key value =>
      cases key with
      | none => exact ⟨rfl, mirrored.keyed, mirrored.table⟩
      | some key => exact mirrored.put key value
  | get key =>
      refine ⟨?_, mirrored⟩
      show Reply.value ((use.container.find? use.alive key).map _) =
        Reply.value ((plain.find? key).map _)
      rw [mirrored.find?_eq, Option.map_map]
      rfl
  | contains key =>
      refine ⟨?_, mirrored⟩
      show Reply.flag (use.container.find? use.alive key).isSome =
        Reply.flag (plain.find? key).isSome
      rw [mirrored.find?_eq, Option.isSome_map]
  | erase key => exact mirrored.erase key
  | size => exact ⟨congrArg Reply.count mirrored.table.liveCount_eq, mirrored⟩
  | isEmpty =>
      refine ⟨?_, mirrored⟩
      have counted : use.container.size use.alive = plain.entries.length :=
        mirrored.table.liveCount_eq
      show Reply.flag (use.container.size use.alive == 0) = Reply.flag plain.entries.isEmpty
      rw [counted]
      cases plain.entries <;> rfl
  | clear => exact ⟨rfl, mirrored.keyed, mirrored.table.clear⟩
  | purge => exact mirrored.purge
  | forEach change => exact mirrored.forEach change

/-- **Whatever happens, both answer alike, and the plain map mirrors the weak one still.** -/
theorem step (mirrored : Mirrored keying use plain) (occasion : Occasion (Call κ ν) κ) :
    Matches keying (step use occasion) (attend plain occasion) := by
  cases occasion with
  | call call => exact mirrored.respond call
  | reclaim keep => exact ⟨rfl, mirrored.keyed, mirrored.table.reclaim keep⟩

/-! ### What follows -/

theorem entries_perm (mirrored : Mirrored keying use plain) :
    (use.container.entries use.alive).Perm plain.entries := by
  rw [WeakMap.entries, mirrored.keyed]
  exact mirrored.table.entries_perm

/-- A live mapping that is given another value keeps its key object. -/
theorem put_keeps (mirrored : Mirrored keying use plain) {entry : κ × ν}
    (member : entry ∈ use.container.entries use.alive) (same : keying.same entry.1 key = true)
    (value : ν) :
    let next := WeakMap.step use (.call (.put (some key) value))
    next.1.2 = .value (some entry.2) ∧
      (entry.1, value) ∈ next.2.container.entries next.2.alive ∧
      ∀ other ∈ next.2.container.entries next.2.alive, keying.same other.1 key = true →
        other = (entry.1, value) := by
  intro next
  rw [WeakMap.entries, mirrored.keyed] at member
  have found : plain.find? key = some entry := mirrored.table.find?_of_mem member same
  obtain ⟨agrees, after⟩ := mirrored.put key value
  simp only [attend, answer, PlainMap.respond, found] at agrees after
  have revalued : (entry.1, value) ∈ (plain.setValue key value).entries := by
    have isOf : plain.isOf key entry = true := List.find?_some found
    have inPairs : (entry.1, value) ∈ (plain.setValue key value).pairs :=
      List.mem_map.mpr ⟨entry, List.mem_of_find?_eq_some found, if_pos isOf⟩
    refine List.mem_filter.mpr ⟨inPairs, ?_⟩
    rw [PlainMap.isOf, Bool.and_eq_true, mirrored.table.present_eq] at isOf
    exact (after.table.present_eq _).trans isOf.1
  have inTable : (entry.1, value) ∈ next.2.container.entries next.2.alive :=
    after.entries_perm.mem_iff.mpr revalued
  refine ⟨agrees.eq_value, inTable, fun other inNext sameOther => ?_⟩
  rw [WeakMap.entries, after.keyed] at inTable inNext
  exact after.table.entry_eq inNext inTable
    (keying.trans _ _ _ sameOther (keying.symm _ _ same))

/-- A mapping vanishes with its key object, whichever equal ones are left. -/
theorem reclaim_vanishes (mirrored : Mirrored keying use plain) {entry : κ × ν}
    (member : entry ∈ use.container.entries use.alive) (same : keying.same entry.1 key = true)
    {keep : κ → Bool} (gone : keep entry.1 = false) :
    let next := (WeakMap.step use (.reclaim keep)).2
    next.container.get? next.alive key = none ∧ next.container.contains next.alive key = false := by
  intro next
  rw [WeakMap.entries, mirrored.keyed] at member
  have after := (mirrored.step (.reclaim keep)).mirrored
  have nothing : next.container.find? next.alive key = none := by
    rw [← Option.map_eq_none_iff, ← after.find?_eq]
    exact mirrored.table.find?_of_reclaimed member same gone
  rw [get?, contains, nothing]
  exact ⟨rfl, rfl⟩

end Mirrored

/-! ## The theorem -/

/-- What a weak map in use can be relied on for. -/
structure Orderly (use : InUse (WeakMap κ ν) κ) : Prop where
  /-- No two live slots are of the same key. -/
  apart : (use.container.table.slots.filter (live use.alive)).Pairwise fun left right =>
    use.container.keying.same left.key right.key = false
  /-- Every slot lies under the hash of its key. -/
  placed : ∀ slot ∈ use.container.table.slots, slot.hash = use.container.keying.hash slot.key
  /-- A live mapping that is given another value keeps its key object. -/
  keeps : ∀ entry ∈ use.container.entries use.alive, ∀ (key : κ) (value : ν),
    use.container.keying.same entry.1 key = true →
      let next := step use (.call (.put (some key) value))
      next.1.2 = .value (some entry.2) ∧
        (entry.1, value) ∈ next.2.container.entries next.2.alive ∧
        ∀ other ∈ next.2.container.entries next.2.alive,
          use.container.keying.same other.1 key = true → other = (entry.1, value)
  /-- A mapping vanishes with its key object, whichever equal ones are left. -/
  vanishes : ∀ entry ∈ use.container.entries use.alive, ∀ (key : κ) (keep : κ → Bool),
    use.container.keying.same entry.1 key = true → keep entry.1 = false →
      let next := (step use (.reclaim keep)).2
      next.container.get? next.alive key = none ∧ next.container.contains next.alive key = false
  /-- To put no key fails and changes nothing. The failure is noticed. -/
  lacks : ∀ value, step use (.call (.put none value)) =
    ((use.swept, .failed .keyNull),
      { use with container := use.container.say (.emitted .keyNull) })

theorem Mirrored.orderly {keying : Keying κ} {use : InUse (WeakMap κ ν) κ} {plain : PlainMap κ ν}
    (mirrored : Mirrored keying use plain) : Orderly use := by
  obtain rfl := mirrored.keyed
  exact {
    apart := mirrored.table.apart
    placed := mirrored.table.placed
    keeps := fun _ member _ value same => mirrored.put_keeps member same value
    vanishes := fun _ member _ _ same gone => mirrored.reclaim_vanishes member same gone
    lacks := fun _ => rfl }

/-- **A weak map answers as a list of pairs does** in which a pair counts only while its key is
alive. What the map throws out on its own shows only in the count of a requested sweep. -/
theorem answers_as_pairs (keying : Keying κ) (occasions : List (Occasion (Call κ ν) κ)) :
    let told := serve step { container := { keying } } occasions
    let plain := serve attend (.ofKeys keying) occasions
    List.Forall₂ (fun told other => Reply.Agrees told.1 told.2 other) told.1 plain.1 ∧
      (told.2.container.entries told.2.alive).Perm plain.2.entries ∧ Orderly told.2 := by
  intro told plain
  have start : Mirrored keying { container := { keying } } (.ofKeys keying : PlainMap κ ν) :=
    ⟨rfl, .start _⟩
  have run : List.Forall₂ (fun told other => Reply.Agrees told.1 told.2 other) told.1 plain.1 ∧
      Mirrored keying told.2 plain.2 :=
    serve_related (fun occasion mirrored =>
      have answered := mirrored.step occasion
      ⟨answered.agrees, answered.mirrored⟩) start occasions
  obtain ⟨agree, last⟩ := run
  exact ⟨agree, last.entries_perm, last.orderly⟩

end WeakMap

end Collections.Weak
