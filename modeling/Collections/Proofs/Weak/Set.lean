import Collections.Proofs.Runs
import Collections.Proofs.Weak.Filing
import Collections.Proofs.Weak.Walking

/-!
# A weak set answers as a list of elements

A weak set in use is asked things, and from call to call elements may be reclaimed (`WeakSet.step`).
A plain map to nothing, which sweeps only when it is asked to, answers the same calls
(`WeakSet.attend`). Two replies agree (`WeakSet.Reply.Agrees`) if they are the same, but elements
may come in any order, and a requested sweep of the plain map also finds what the weak set has
thrown out on its own before.

Whoever has got hold of a place in the set holds the element there. So the slot is live, and it is
the one that a search for the element finds (`WeakSet.Orderly.sought`). To erase an element where it
was found stands for every removal at a place (`Call.eraseFound`), and a walk that removes what it
has delivered goes from place to place (`Call.removeWhere`).
-/

set_option autoImplicit false

namespace Collections.Weak

namespace WeakSet

variable {κ : Type}

/-! ## Calls -/

/-- What a weak set is asked. -/
inductive Call (κ : Type) where
  | insert (element : Option κ)
  | find (element : Option κ)
  | contains (element : κ)
  | erase (element : Option κ)
  | eraseFound (element : Option κ)
  | removeWhere (drop : κ → Bool)
  | elements
  | size
  | isEmpty
  | clear
  | purge

/-- What a weak set answers. -/
inductive Reply (κ : Type) where
  | failed (cause : WeakError)
  /-- The element that is in the set, and whether it is new. -/
  | inserted (present : κ) (added : Bool)
  | found (present : Option κ)
  | flag (value : Bool)
  | count (value : Nat)
  | purged (count : Nat)
  | visited (elements : List κ)
  | done

/-- The reply of a set that has thrown out some slots on its own since it was last rid of stale
ones, and the reply of a plain map. -/
def Reply.Agrees (swept : Nat) : Reply κ → Reply κ → Prop
  | .visited elements, .visited others => elements.Perm others
  | .purged thrown, .purged total => thrown + swept = total
  | reply, other => reply = other

theorem Reply.Agrees.eq_inserted {swept : Nat} {reply : Reply κ} {present : κ} {added : Bool}
    (agrees : Agrees swept reply (.inserted present added)) :
    reply = .inserted present added := by
  cases reply <;> exact agrees

section Calls

variable [DecidableEq κ]

/-- Answer a call. -/
def respond (set : WeakSet κ) (alive : κ → Bool) : Call κ → Reply κ × WeakSet κ
  | .insert element =>
      let (result, set) := set.insert alive element
      (match result with
        | .ok (present, added) => .inserted present added
        | .error cause => .failed cause, set)
  | .find element => (.found (set.find? alive element), set)
  | .contains element => (.flag (set.contains alive element), set)
  | .erase element => (set.erase alive element).map .flag id
  | .eraseFound element => (set.eraseFound alive element).map .flag id
  | .removeWhere drop =>
      let (elements, walk) := set.removeWhere alive drop
      (.visited elements, walk.set)
  | .elements => (.visited (set.elements alive), set)
  | .size => (.count (set.size alive), set)
  | .isEmpty => (.flag (set.isEmpty alive), set)
  | .clear => (.done, set.clear)
  | .purge => (set.purge alive).map .purged id

/-- How many slots the set has thrown out on its own after a call, if it had thrown out some
before. -/
def sweptAfter (set : WeakSet κ) (alive : κ → Bool) (swept : Nat) : Call κ → Nat
  | .insert (some _) | .erase (some _) => swept + (set.table.sweepIfDue (live alive)).1
  | .clear | .purge => 0
  | _ => swept

/-- What happens to a weak set in use, told with the number of slots that it had thrown out on its
own before. -/
def step (use : InUse (WeakSet κ) κ) : Occasion (Call κ) κ → (Nat × Reply κ) × InUse (WeakSet κ) κ
  | .call call =>
      let (reply, container) := use.container.respond use.alive call
      ((use.swept, reply), { use with
        container, swept := use.container.sweptAfter use.alive use.swept call })
  | .reclaim keep => ((use.swept, .done), use.reclaim keep)

end Calls

/-- The element that a plain map has found. -/
def elementOf? (plain : PlainMap κ Unit) (element : κ) : Option κ := (plain.find? element).map (·.1)

/-- The present elements of a plain map. -/
def elementsOf (plain : PlainMap κ Unit) : List κ := plain.entries.map (·.1)

/-- Answer a call with a list of elements. -/
def answer (plain : PlainMap κ Unit) : Call κ → Reply κ × PlainMap κ Unit
  | .insert none => (.failed .valueNull, plain)
  | .insert (some element) =>
      match elementOf? plain element with
      | some present => (.inserted present false, plain)
      | none => (.inserted element true, plain.insert element ())
  | .find element => (.found (element.bind (elementOf? plain)), plain)
  | .contains element => (.flag (elementOf? plain element).isSome, plain)
  | .erase none | .eraseFound none => (.flag false, plain)
  | .erase (some element) | .eraseFound (some element) =>
      (.flag (elementOf? plain element).isSome, plain.remove element)
  | .removeWhere drop => (.visited ((elementsOf plain).filter drop), plain.removeKeys drop)
  | .elements => (.visited (elementsOf plain), plain)
  | .size => (.count (elementsOf plain).length, plain)
  | .isEmpty => (.flag (elementsOf plain).isEmpty, plain)
  | .clear => (.done, { plain with pairs := [] })
  | .purge =>
      (.purged (plain.pairs.countP fun pair => !plain.present pair),
        { plain with pairs := plain.entries })

/-- What happens to a list of elements. -/
def attend (plain : PlainMap κ Unit) : Occasion (Call κ) κ → Reply κ × PlainMap κ Unit
  | .call call => answer plain call
  | .reclaim keep => (.done, plain.reclaim keep)

/-! ## Mirroring -/

/-- How the slots of a weak set are filed. -/
def filing (keying : Keying κ) : Filing (SetSlot κ) κ Unit where
  keying
  hash := SetSlot.hash
  pair slot := (slot.element, ())

theorem mem_entries {set : WeakSet κ} {alive : κ → Bool} {present : κ}
    (member : present ∈ set.elements alive) (keying : Keying κ) :
    (present, ()) ∈ (filing keying).entries alive set.table := by
  obtain ⟨slot, live, rfl⟩ := List.mem_map.mp member
  exact List.mem_map.mpr ⟨slot, live, rfl⟩

/-- A plain map mirrors a weak set in use. -/
structure Mirrored (keying : Keying κ) (use : InUse (WeakSet κ) κ) (plain : PlainMap κ Unit) :
    Prop where
  keyed : use.container.keying = keying
  table : (filing keying).Mirrors use.container.table use.alive use.swept plain

/-- A weak set and a plain map answer alike, and the plain one mirrors the other one afterwards. -/
structure Matches (keying : Keying κ) (told : (Nat × Reply κ) × InUse (WeakSet κ) κ)
    (other : Reply κ × PlainMap κ Unit) : Prop where
  agrees : Reply.Agrees told.1.1 told.1.2 other.1
  mirrored : Mirrored keying told.2 other.2

namespace Mirrored

variable {keying : Keying κ} {use : InUse (WeakSet κ) κ} {plain : PlainMap κ Unit} {element : κ}
  {position : Nat}

/-- Of a sweep only the table matters. -/
theorem afterSweep (keyed : use.container.keying = keying) {swept : Nat}
    {outcome : Nat × SlotTable (SetSlot κ)}
    (table : (filing keying).Mirrors outcome.2 use.alive swept plain) :
    Mirrored keying { use with
      container := (use.container.afterSweep outcome).2, swept } plain := by
  unfold WeakSet.afterSweep
  dsimp only
  split <;> exact ⟨keyed, table⟩

/-- The sweep at the beginning of a call goes unnoticed. -/
theorem freshened (mirrored : Mirrored keying use plain) :
    Mirrored keying { use with
      container := use.container.purgeIfDue use.alive
      swept := use.swept + (use.container.table.sweepIfDue (live use.alive)).1 } plain :=
  afterSweep mirrored.keyed mirrored.table.sweepIfDue

/-- The place of an element is sought among the slots as they are filed. -/
theorem sought (mirrored : Mirrored keying use plain) (element : κ) :
    use.container.position? use.alive element =
      (use.container.table.find? ((filing keying).wanted use.alive element)).map
        fun (position, slot) => (position, slot.element) := by
  rw [position?, mirrored.keyed]
  rfl

theorem elementOf?_eq (mirrored : Mirrored keying use plain) (element : κ) :
    elementOf? plain element = (use.container.position? use.alive element).map (·.2) := by
  rw [elementOf?, mirrored.table.find?_eq, mirrored.sought, Option.map_map, Option.map_map]
  rfl

theorem elementsOf_perm (mirrored : Mirrored keying use plain) :
    (use.container.elements use.alive).Perm (elementsOf plain) := by
  have both := mirrored.table.entries_perm.map (·.1)
  rw [Filing.entries, List.map_map] at both
  exact both

theorem size_eq (mirrored : Mirrored keying use plain) :
    use.container.size use.alive = (elementsOf plain).length := by
  rw [elementsOf, List.length_map]
  exact mirrored.table.liveCount_eq

/-! ### One element -/

theorem inserted (mirrored : Mirrored keying use plain)
    (missed : use.container.position? use.alive element = none) :
    Mirrored keying { use with
      container := { use.container with
        table := use.container.table.insert ⟨use.container.keying.hash element, element⟩ } }
      (plain.insert element ()) := by
  rw [mirrored.sought, Option.map_eq_none_iff] at missed
  refine ⟨mirrored.keyed, mirrored.table.insert missed rfl ?_⟩
  rw [mirrored.keyed]
  rfl

theorem erased (mirrored : Mirrored keying use plain) {present : κ}
    (found : use.container.position? use.alive element = some (position, present)) :
    Mirrored keying { use with
      container := { use.container with table := use.container.table.eraseAt position } }
      (plain.remove element) := by
  rw [mirrored.sought, Option.map_eq_some_iff] at found
  obtain ⟨⟨place, slot⟩, there, ⟨⟩⟩ := found
  exact ⟨mirrored.keyed, mirrored.table.eraseAt there⟩

/-- Where nothing is found, there is nothing to remove. -/
theorem remove_eq (mirrored : Mirrored keying use plain)
    (missed : use.container.position? use.alive element = none) : plain.remove element = plain := by
  rw [mirrored.sought, Option.map_eq_none_iff] at missed
  exact PlainMap.remove_of_find?_eq_none (mirrored.table.find?_of_miss missed)

section Calls

variable [DecidableEq κ]

theorem insert (mirrored : Mirrored keying use plain) (element : κ) :
    Matches keying (step use (.call (.insert (some element))))
      (attend plain (.call (.insert (some element)))) := by
  have fresh := mirrored.freshened
  simp only [step, respond, WeakSet.insert, attend, answer, fresh.elementOf?_eq]
  cases hit : (use.container.purgeIfDue use.alive).position? use.alive element with
  | none => exact ⟨rfl, fresh.inserted hit⟩
  | some found => exact ⟨rfl, fresh⟩

theorem erase (mirrored : Mirrored keying use plain) (element : κ) :
    Matches keying (step use (.call (.erase (some element))))
      (attend plain (.call (.erase (some element)))) := by
  have fresh := mirrored.freshened
  simp only [step, respond, WeakSet.erase, attend, answer, fresh.elementOf?_eq]
  cases hit : (use.container.purgeIfDue use.alive).position? use.alive element with
  | none =>
      rw [fresh.remove_eq hit]
      exact ⟨rfl, fresh⟩
  | some found => exact ⟨rfl, fresh.erased hit⟩

theorem eraseFound (mirrored : Mirrored keying use plain) (element : κ) :
    Matches keying (step use (.call (.eraseFound (some element))))
      (attend plain (.call (.eraseFound (some element)))) := by
  simp only [step, respond, WeakSet.eraseFound, attend, answer, mirrored.elementOf?_eq,
    Option.bind_some]
  cases hit : use.container.position? use.alive element with
  | none =>
      rw [mirrored.remove_eq hit]
      exact ⟨rfl, mirrored⟩
  | some found => exact ⟨rfl, mirrored.erased hit⟩

/-! ### All calls -/

theorem removeWhere (mirrored : Mirrored keying use plain) (drop : κ → Bool) :
    Matches keying (step use (.call (.removeWhere drop)))
      (attend plain (.call (.removeWhere drop))) := by
  obtain ⟨elements, left⟩ := use.container.removeWhere_eq use.alive drop
  simp only [step, respond, attend, answer, elements, left]
  exact ⟨mirrored.elementsOf_perm.filter drop, mirrored.keyed, mirrored.table.removeKeys drop⟩

theorem purge (mirrored : Mirrored keying use plain) :
    Matches keying (step use (.call .purge)) (attend plain (.call .purge)) :=
  ⟨mirrored.table.sweep_add, afterSweep mirrored.keyed mirrored.table.swept_entries⟩

/-- **Every call is answered as by the plain map.** -/
theorem respond (mirrored : Mirrored keying use plain) (call : Call κ) :
    Matches keying (step use (.call call)) (attend plain (.call call)) := by
  cases call with
  | insert element =>
      cases element with
      | none => exact ⟨rfl, mirrored.keyed, mirrored.table⟩
      | some element => exact mirrored.insert element
  | find element =>
      refine ⟨?_, mirrored⟩
      cases element with
      | none => rfl
      | some element =>
          show Reply.found _ = Reply.found (elementOf? plain element)
          rw [mirrored.elementOf?_eq]
          cases hit : use.container.position? use.alive element <;> simp [find?, hit]
  | contains element =>
      refine ⟨?_, mirrored⟩
      show Reply.flag (use.container.position? use.alive element).isSome =
        Reply.flag (elementOf? plain element).isSome
      rw [mirrored.elementOf?_eq, Option.isSome_map]
  | erase element =>
      cases element with
      | none => exact ⟨rfl, mirrored⟩
      | some element => exact mirrored.erase element
  | eraseFound element =>
      cases element with
      | none => exact ⟨rfl, mirrored⟩
      | some element => exact mirrored.eraseFound element
  | removeWhere drop => exact mirrored.removeWhere drop
  | elements => exact ⟨mirrored.elementsOf_perm, mirrored⟩
  | size => exact ⟨congrArg Reply.count mirrored.size_eq, mirrored⟩
  | isEmpty =>
      refine ⟨?_, mirrored⟩
      show Reply.flag (use.container.size use.alive == 0) =
        Reply.flag (elementsOf plain).isEmpty
      rw [mirrored.size_eq]
      cases elementsOf plain <;> rfl
  | clear => exact ⟨rfl, mirrored.keyed, mirrored.table.clear⟩
  | purge => exact mirrored.purge

/-- **Whatever happens, both answer alike, and the plain map mirrors the weak set still.** -/
theorem step (mirrored : Mirrored keying use plain) (occasion : Occasion (Call κ) κ) :
    Matches keying (step use occasion) (attend plain occasion) := by
  cases occasion with
  | call call => exact mirrored.respond call
  | reclaim keep => exact ⟨rfl, mirrored.keyed, mirrored.table.reclaim keep⟩

/-! ### What follows -/

omit [DecidableEq κ] in
/-- A live slot is what a search for its element finds. -/
theorem sought_of_live (mirrored : Mirrored keying use plain) {slot : SetSlot κ}
    (there : use.container.table.slots[position]? = some slot)
    (alive : use.alive slot.element = true) (same : keying.same slot.element element = true) :
    use.container.position? use.alive element = some (position, slot.element) := by
  rw [mirrored.sought, mirrored.table.find?_of_live there alive same]
  rfl

/-- An element that is there stays when an equal one is inserted. -/
theorem insert_keeps (mirrored : Mirrored keying use plain) {present : κ}
    (member : present ∈ use.container.elements use.alive)
    (same : keying.same present element = true) :
    let next := WeakSet.step use (.call (.insert (some element)))
    next.1.2 = .inserted present false ∧
      (next.2.container.elements next.2.alive).Perm (use.container.elements use.alive) := by
  intro next
  have found : elementOf? plain element = some present := by
    rw [elementOf?, mirrored.table.find?_of_mem (mem_entries member keying) same]
    rfl
  obtain ⟨agrees, after⟩ := mirrored.insert element
  simp only [attend, answer, found] at agrees after
  exact ⟨agrees.eq_inserted, after.elementsOf_perm.trans mirrored.elementsOf_perm.symm⟩

/-- The place of an element is empty when it is reclaimed, whichever equal ones are left. -/
theorem reclaim_vanishes (mirrored : Mirrored keying use plain) {present : κ}
    (member : present ∈ use.container.elements use.alive)
    (same : keying.same present element = true) {keep : κ → Bool} (gone : keep present = false) :
    let next := (WeakSet.step use (.reclaim keep)).2
    next.container.find? next.alive (some element) = none ∧
      next.container.contains next.alive element = false := by
  intro next
  have after := (mirrored.step (.reclaim keep)).mirrored
  have nothing : next.container.position? next.alive element = none := by
    have missed := mirrored.table.find?_of_reclaimed (mem_entries member keying) same gone
    rw [← Option.map_eq_none_iff, ← after.elementOf?_eq, elementOf?, Option.map_eq_none_iff]
    exact missed
  simp [find?, contains, nothing]

end Calls

end Mirrored

/-! ## The theorem -/

section Theorem

variable [DecidableEq κ]

/-- What a weak set in use can be relied on for. -/
structure Orderly (use : InUse (WeakSet κ) κ) : Prop where
  /-- No two live slots hold equal elements. -/
  apart : (use.container.table.slots.filter (live use.alive)).Pairwise fun left right =>
    use.container.keying.same left.element right.element = false
  /-- Every slot lies under the hash of its element. -/
  placed : ∀ slot ∈ use.container.table.slots,
    slot.hash = use.container.keying.hash slot.element
  /-- A live slot is what a search for its element finds. -/
  sought : ∀ (position : Nat) (slot : SetSlot κ), use.container.table.slots[position]? = some slot →
    use.alive slot.element = true → ∀ element,
      use.container.keying.same slot.element element = true →
        use.container.position? use.alive element = some (position, slot.element)
  /-- An element that is there stays when an equal one is inserted. -/
  keeps : ∀ present ∈ use.container.elements use.alive, ∀ element,
    use.container.keying.same present element = true →
      let next := step use (.call (.insert (some element)))
      next.1.2 = .inserted present false ∧
        (next.2.container.elements next.2.alive).Perm (use.container.elements use.alive)
  /-- When an element is reclaimed, none that is equal to it is there. -/
  vanishes : ∀ present ∈ use.container.elements use.alive, ∀ (element : κ) (keep : κ → Bool),
    use.container.keying.same present element = true → keep present = false →
      let next := (step use (.reclaim keep)).2
      next.container.find? next.alive (some element) = none ∧
        next.container.contains next.alive element = false
  /-- To insert no element fails and changes nothing. The failure is noticed. -/
  lacks : step use (.call (.insert none)) =
    ((use.swept, .failed .valueNull),
      { use with container := use.container.say (.emitted .valueNull) })
  /-- No element is not found and not erased, and that changes nothing. -/
  seeksNothing : step use (.call (.find none)) = ((use.swept, .found none), use) ∧
    step use (.call (.erase none)) = ((use.swept, .flag false), use)

theorem Mirrored.orderly {keying : Keying κ} {use : InUse (WeakSet κ) κ}
    {plain : PlainMap κ Unit} (mirrored : Mirrored keying use plain) : Orderly use := by
  obtain rfl := mirrored.keyed
  exact {
    apart := mirrored.table.apart
    placed := mirrored.table.placed
    sought := fun _ _ there alive _ same => mirrored.sought_of_live there alive same
    keeps := fun _ member _ same => mirrored.insert_keeps member same
    vanishes := fun _ member _ _ same gone => mirrored.reclaim_vanishes member same gone
    lacks := rfl
    seeksNothing := ⟨rfl, rfl⟩ }

/-- **A weak set answers as a list of elements does** in which an element counts only while it is
alive. What the set throws out on its own shows only in the count of a requested sweep. -/
theorem answers_as_elements (keying : Keying κ) (occasions : List (Occasion (Call κ) κ)) :
    let told := serve step { container := { keying } } occasions
    let plain := serve attend (.ofKeys keying) occasions
    List.Forall₂ (fun told other => Reply.Agrees told.1 told.2 other) told.1 plain.1 ∧
      (told.2.container.elements told.2.alive).Perm (elementsOf plain.2) ∧ Orderly told.2 := by
  intro told plain
  have start : Mirrored keying { container := { keying } } (.ofKeys keying) := ⟨rfl, .start _⟩
  have run : List.Forall₂ (fun told other => Reply.Agrees told.1 told.2 other) told.1 plain.1 ∧
      Mirrored keying told.2 plain.2 :=
    serve_related (fun occasion mirrored =>
      have answered := mirrored.step occasion
      ⟨answered.agrees, answered.mirrored⟩) start occasions
  obtain ⟨agree, last⟩ := run
  exact ⟨agree, last.elementsOf_perm, last.orderly⟩

end Theorem

end WeakSet

end Collections.Weak
