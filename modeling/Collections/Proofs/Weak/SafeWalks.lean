import Mathlib.Data.List.Nodup
import Mathlib.Data.List.Perm.Subperm
import Collections.Proofs.Weak.LettingGo

/-!
# What can be relied on of a walk while owners let go

However a weak set has come about (`WeakSet.Arises`), no element is in it twice
(`WeakSet.Filed.nodup_elements`). So a walk through it delivers no element twice, it delivers what it
has announced, and at its end it has delivered every element that is still alive
(`walks_are_dependable_while_owners_let_go`).

A removal takes away the slot of the element that was delivered last, which is the only one that it is in
(`SetWalk.Underway.single`). The walk has then come to the same slot as before. So it goes on as a walk
does that is asked the same except for removals (`SetWalk.Alike`): both have the same slots left, and they
come to them at the same moments (`SetWalk.Alike.step`).
-/

set_option autoImplicit false

namespace Collections.Weak

variable {κ : Type}

open SetWalk (Request Response Stroll Underway Upcoming)

/-! ## Sets -/

namespace WeakSet

namespace Filed

variable {keying : Keying κ} {alive fewer : κ → Bool} {set other : WeakSet κ}

/-- Of the slots some may go and the others may change places, and elements may die. -/
theorem of_subperm (filed : Filed keying alive set) (keyed : other.keying = set.keying)
    (left : other.table.slots.Subperm set.table.slots)
    (fades : ∀ element, fewer element = true → alive element = true) :
    Filed keying fewer other := by
  obtain ⟨swept, plain, mirrored⟩ := filed
  have fewerLive : (other.table.slots.filter (live fewer)).Subperm
      (set.table.slots.filter (live alive)) := by
    have dead : (other.table.slots.filter (live fewer)).Sublist
        (other.table.slots.filter (live alive)) :=
      List.monotone_filter_right _ fun slot => fades slot.element
    exact dead.subperm.trans (left.filter _)
  have apart : (other.table.slots.filter (live fewer)).Pairwise fun left right =>
      keying.same left.element right.element = false := by
    obtain ⟨placed, perm, part⟩ := fewerLive
    refine (perm.pairwise_iff fun differ => ?_).mp (mirrored.table.apart.sublist part)
    exact Bool.eq_false_iff.mpr fun same =>
      Bool.eq_false_iff.mp differ (keying.symm _ _ same)
  let mirror : PlainMap κ Unit := { PlainMap.ofKeys keying with
    owned := ⟨fewer, fun _ => true⟩, pairs := other.table.slots.map (filing keying).pair }
  have present : mirror.present ∘ (filing keying).pair = live fewer := by
    funext slot
    simp [mirror, PlainMap.present, PlainMap.ofKeys, filing, live, RefType.isWeak]
  refine ⟨0, mirror, keyed.trans mirrored.keyed, ?_⟩
  refine ⟨rfl, rfl, rfl, rfl, ?_, ⟨[], ?_, fun _ none => absurd none List.not_mem_nil, rfl⟩, ?_⟩
  · exact fun slot member => mirrored.table.placed slot (left.subset member)
  · rw [List.append_nil]
  · show ((other.table.slots.map _).filter mirror.present).Pairwise _
    rw [List.filter_map, present, List.pairwise_map]
    exact apart

/-- No element is in the set twice. -/
theorem nodup_elements (filed : Filed keying alive set) : (set.elements alive).Nodup := by
  obtain ⟨swept, plain, mirrored⟩ := filed
  refine List.pairwise_map.mpr (mirrored.table.apart.imp ?_)
  rintro left right differ same
  have differ : keying.same left.element right.element = false := differ
  rw [same, keying.refl] at differ
  cases differ

end Filed

end WeakSet

/-! ## The same walk without removals -/

namespace SetWalk

/-- To search from a later position is to search for later ones. -/
theorem seekDuring_add (seen : Nat → κ → Bool) (shift start : Nat) (rest : List (SetSlot κ)) :
    seekDuring seen (start + shift) rest =
      (seekDuring (fun place => seen (place + shift)) start rest).map
        (fun found => (found.1 + shift, found.2)) := by
  induction rest generalizing start with
  | nil => rfl
  | cons slot rest hypothesis =>
      rw [seekDuring, seekDuring]
      split
      · rfl
      · rw [Nat.add_right_comm, hypothesis]

/-- A walk and one that has been asked the same, only no removals. They have delivered the same, they have
the same slots left and have come to the same one. -/
structure Alike (stroll twin : Stroll κ) (behind left : List (SetSlot κ)) : Prop where
  turn : twin.turn = stroll.turn
  delivered : twin.delivered = stroll.delivered
  slots : twin.walk.set.table.slots = behind ++ left
  removed : twin.walk.removed = 0
  ahead : twin.walk.ahead =
    stroll.walk.ahead.map (fun found => (found.1 + stroll.walk.removed, found.2))

namespace Alike

variable {stroll twin : Stroll κ} {behind left : List (SetSlot κ)}

theorem hasNext_eq (alike : Alike stroll twin behind left) :
    twin.walk.hasNext = stroll.walk.hasNext := by
  rw [hasNext, hasNext, alike.ahead, Option.isSome_map]

/-- Time goes by for both. -/
theorem waited (alike : Alike stroll twin behind left) :
    Alike stroll.waited twin.waited behind left :=
  { alike with turn := congrArg (· + 1) alike.turn }

variable [DecidableEq κ] {owners : Ownership κ} {set : WeakSet κ} {passed : List (SetSlot κ)}
  {position : Nat} {element : κ}

/-- The same elements have owners. -/
theorem owned_eq (alike : Alike stroll twin behind left) :
    twin.owned owners = stroll.owned owners := by
  funext slot element
  rw [Stroll.owned, Stroll.owned, alike.turn, alike.delivered]

/-- Both search the same slots at the same moments. -/
theorem next (alike : Alike stroll twin behind left)
    (underway : Underway owners set stroll behind passed left)
    (ahead : stroll.walk.ahead = some (position, element)) :
    (twin.step owners .next).1 = .delivered (.ok element) ∧
      ∃ behind passed left, Alike (stroll.step owners .next).2 (twin.step owners .next).2 behind left ∧
        Underway owners set (stroll.step owners .next).2 behind passed left := by
  have twinAhead : twin.walk.ahead = some (position + stroll.walk.removed, element) := by
    rw [alike.ahead, ahead]
    rfl
  obtain ⟨stale, slot, rest, rfl, place, -, further⟩ := underway.next ahead
  have told : stroll.step owners .next = _ := Stroll.step_next ahead
  have other : twin.step owners .next = _ := Stroll.step_next twinAhead
  have left : stroll.walk.set.table.slots.drop (position + 1) = rest := by
    have length : (passed ++ (stale ++ [slot])).length = position + 1 := by
      rw [place]
      simp [Nat.add_assoc]
    have slots : stroll.walk.set.table.slots = (passed ++ (stale ++ [slot])) ++ rest := by
      rw [underway.slots]
      simp
    rw [slots, ← length, List.drop_left]
  have twinSlots : twin.walk.set.table.slots = (behind ++ (stale ++ [slot])) ++ rest := by
    rw [alike.slots]
    simp
  have twinLeft : twin.walk.set.table.slots.drop (position + stroll.walk.removed + 1) = rest := by
    have length : (behind ++ (stale ++ [slot])).length = position + stroll.walk.removed + 1 := by
      simp only [List.length_append, underway.counted, place, List.length_singleton]
      omega
    rw [twinSlots, ← length, List.drop_left]
  refine ⟨congrArg Prod.fst other, _, _, _, ?_, further⟩
  rw [told, other]
  refine ⟨congrArg (· + 1) alike.turn, congrArg (· ++ [element]) alike.delivered, twinSlots,
    alike.removed, ?_⟩
  dsimp only
  rw [left, twinLeft, alike.removed, alike.owned_eq, Nat.add_right_comm, seekDuring_add]
  rfl

/-- A removal brings the walk one slot closer to the start, but not its twin. -/
theorem remove (alike : Alike stroll twin behind left)
    (underway : Underway owners set stroll behind passed left)
    (place : stroll.walk.place = some position) :
    ∃ passed, Alike (stroll.step owners .remove).2 twin.waited behind left ∧
      Underway owners set (stroll.step owners .remove).2 behind passed left := by
  obtain ⟨front, slot, rfl, -, moved, further⟩ := underway.remove place
  have told : stroll.step owners .remove = _ := Stroll.step_remove place
  have turn : (stroll.step owners .remove).2.turn = stroll.turn + 1 := congrArg (·.2.turn) told
  have delivered : (stroll.step owners .remove).2.delivered = stroll.delivered :=
    congrArg (·.2.delivered) told
  have removed : (stroll.step owners .remove).2.walk.removed = stroll.walk.removed + 1 :=
    congrArg (·.2.walk.removed) told
  refine ⟨front, ⟨?_, alike.delivered.trans delivered.symm, alike.slots, alike.removed, ?_⟩, further⟩
  · rw [turn, Stroll.waited, alike.turn]
  · have upcoming := underway.upcoming
    rw [moved, removed, Stroll.waited, alike.ahead]
    rcases ahead : stroll.walk.ahead with _ | ⟨position, element⟩
    · rfl
    · rw [ahead] at upcoming
      obtain ⟨stale, _, _, -, rfl, -⟩ := upcoming
      simp only [Option.map_some, List.length_append, List.length_singleton]
      congr 2
      omega

/-- **The answers are the same, those to removals apart.** -/
theorem step (alike : Alike stroll twin behind left)
    (underway : Underway owners set stroll behind passed left) (request : Request) :
    let told := stroll.step owners request
    let other := twin.step owners request.spared
    (told.1.isRemoval = true ∨ told.1 = other.1) ∧
      ∃ behind passed left, Alike told.2 other.2 behind left ∧
        Underway owners set told.2 behind passed left := by
  cases request with
  | hasNext =>
      simp only [Request.spared, Stroll.step_hasNext, alike.hasNext_eq]
      exact ⟨.inr trivial, _, _, _, alike.waited, underway.waits⟩
  | next =>
      rcases ahead : stroll.walk.ahead with _ | ⟨position, element⟩
      · have twinAhead : twin.walk.ahead = none := by rw [alike.ahead, ahead, Option.map_none]
        have told : stroll.step owners .next = _ := Stroll.step_next_of_none ahead
        have other : twin.step owners .next = _ := Stroll.step_next_of_none twinAhead
        simp only [Request.spared, told, other]
        exact ⟨.inr trivial, _, _, _, alike.waited, underway.waits⟩
      · obtain ⟨other, behind, passed, left, further⟩ := alike.next underway ahead
        have told : (stroll.step owners .next).1 = _ := congrArg Prod.fst (Stroll.step_next ahead)
        exact ⟨.inr (told.trans other.symm), _, _, _, further⟩
  | remove =>
      have other : twin.step owners .hasNext = _ := twin.step_hasNext
      rcases place : stroll.walk.place with _ | position
      · have told : stroll.step owners .remove = _ := Stroll.step_remove_of_none place
        simp only [Request.spared, told, other]
        exact ⟨.inl rfl, _, _, _, alike.waited, underway.waits⟩
      · have told : (stroll.step owners .remove).1 = _ :=
          congrArg Prod.fst (Stroll.step_remove place)
        obtain ⟨passed, further⟩ := alike.remove underway place
        simp only [Request.spared, other]
        exact ⟨.inl (congrArg Response.isRemoval told), _, _, _, further⟩

end Alike

/-! ## What is announced, and what may be removed -/

variable [DecidableEq κ] {owners : Ownership κ} {set : WeakSet κ} {stroll : Stroll κ}
  {behind passed left : List (SetSlot κ)}

namespace Underway

/-- What is pinned ahead stays so until it is delivered. -/
theorem ahead_step (underway : Underway owners set stroll behind passed left)
    {request : Request} (other : request ≠ .next) :
    (stroll.step owners request).2.walk.ahead.map Prod.snd =
      stroll.walk.ahead.map Prod.snd := by
  cases request with
  | hasNext => rfl
  | next => exact absurd rfl other
  | remove =>
      rcases place : stroll.walk.place with _ | position
      · rw [Stroll.step_remove_of_none place]
        rfl
      · obtain ⟨_, _, -, -, moved, -⟩ := underway.remove place
        rw [moved, Option.map_map]
        rfl

theorem ahead_serve (underway : Underway owners set stroll behind passed left)
    {idle : List Request} (noNext : .next ∉ idle) :
    (Collections.serve (Stroll.step owners) stroll idle).2.walk.ahead.map Prod.snd =
      stroll.walk.ahead.map Prod.snd := by
  induction idle generalizing stroll behind passed left with
  | nil => rfl
  | cons request rest hypothesis =>
      obtain ⟨other, noNext⟩ := List.ne_and_not_mem_of_not_mem_cons noNext
      obtain ⟨_, _, _, further⟩ := underway.step request
      exact (hypothesis further noNext).trans (underway.ahead_step other.symm)

end Underway

namespace Stroll

theorem isSome_place_step (stroll : Stroll κ) (request : Request) :
    (stroll.step owners request).2.walk.place.isSome =
      (stroll.step owners request).1.leavesPlace stroll.walk.place.isSome := by
  cases request with
  | hasNext => rfl
  | next =>
      rcases ahead : stroll.walk.ahead with _ | ⟨position, element⟩
      · rw [step_next_of_none ahead]
        rfl
      · rw [step_next ahead]
        rfl
  | remove =>
      rcases place : stroll.walk.place with _ | position
      · rw [step_remove_of_none place]
        exact congrArg Option.isSome place
      · rw [step_remove place]
        rfl

theorem isSome_place_serve (stroll : Stroll κ) (requests : List Request) :
    (serve (Stroll.step owners) stroll requests).2.walk.place.isSome =
      (serve (Stroll.step owners) stroll requests).1.foldl Response.leavesPlace
        stroll.walk.place.isSome := by
  induction requests generalizing stroll with
  | nil => rfl
  | cons request rest hypothesis =>
      have first : (stroll.step owners request).2.walk.place.isSome = _ :=
        stroll.isSome_place_step request
      simp only [serve, List.foldl_cons]
      rw [hypothesis, first]

theorem delivered_serve (stroll : Stroll κ) (requests : List Request) :
    (serve (Stroll.step owners) stroll requests).2.delivered = stroll.delivered ++
      (serve (Stroll.step owners) stroll requests).1.filterMap Response.element? := by
  induction requests generalizing stroll with
  | nil => exact (List.append_nil _).symm
  | cons request rest hypothesis =>
      have delivered : (stroll.step owners request).2.delivered =
          stroll.delivered ++ (stroll.step owners request).1.element?.toList := rfl
      rw [serve, hypothesis, delivered, List.append_assoc]
      cases told : (stroll.step owners request).1.element? <;> simp [told]

end Stroll

end SetWalk

/-! ## Sets that have been walked through -/

/-- A weak set in use, and what is alive. Any calls may come, and walks. -/
inductive WeakSet.Arises [DecidableEq κ] (keying : Keying κ) : (κ → Bool) → WeakSet κ → Prop where
  | empty : Arises keying (fun _ => true) { keying }
  | call {alive : κ → Bool} {set : WeakSet κ} (arises : Arises keying alive set) (call : Call κ) :
      Arises keying alive (set.respond alive call).2
  | said {alive : κ → Bool} {set : WeakSet κ} (arises : Arises keying alive set)
      (notice : Log.Notice) : Arises keying alive (set.say notice)
  /-- Nobody has a say in the order of the slots. -/
  | reordered {alive : κ → Bool} {set other : WeakSet κ} (arises : Arises keying alive set)
      (keyed : other.keying = set.keying) (perm : other.table.slots.Perm set.table.slots) :
      Arises keying alive other
  /-- Elements are reclaimed. -/
  | faded {alive fewer : κ → Bool} {set : WeakSet κ} (arises : Arises keying alive set)
      (fades : ∀ element, fewer element = true → alive element = true) : Arises keying fewer set
  /-- The set has been walked through while owners let go. -/
  | walked {set : WeakSet κ} (owners : Ownership κ) (arises : Arises keying (owners.owned 0 0) set)
      (requests : List Request) :
      Arises keying ((owners.reached set requests).alive owners)
        (owners.reached set requests).walk.set

namespace Ownership

variable [DecidableEq κ] (owners : Ownership κ) (set : WeakSet κ) (requests : List Request)

theorem isSome_place_reached :
    (owners.reached set requests).walk.place.isSome = owners.leavesPlace set requests :=
  Stroll.isSome_place_serve _ requests

theorem delivered_reached :
    (owners.reached set requests).delivered = owners.deliveries set requests :=
  Stroll.delivered_serve _ requests

theorem underway_reached : ∃ behind passed left,
    Underway owners set (owners.reached set requests) behind passed left := by
  let holds (stroll : Stroll κ) : Prop := ∃ behind passed left,
    Underway owners set stroll behind passed left
  have opened : holds (owners.opened set) := ⟨_, _, _, Underway.opened owners set⟩
  have keeps : ∀ {stroll : Stroll κ} (request : Request), holds stroll →
      holds (stroll.step owners request).2 := by
    rintro stroll request ⟨_, _, _, underway⟩
    exact underway.step request
  exact serve_keeps keeps opened requests

end Ownership

theorem WeakSet.Arises.filed [DecidableEq κ] {keying : Keying κ} {alive : κ → Bool} {set : WeakSet κ}
    (arises : Arises keying alive set) : Filed keying alive set := by
  induction arises with
  | empty => exact ⟨0, .ofKeys keying, rfl, .start _⟩
  | call _ call filed => exact filed.respond call
  | said _ notice filed => exact filed.say notice
  | reordered _ keyed perm filed => exact filed.of_subperm keyed perm.subperm fun _ => id
  | faded _ fades filed => exact filed.of_subperm rfl (.refl _) fades
  | walked owners _ requests filed =>
      obtain ⟨behind, passed, left, underway⟩ := owners.underway_reached _ requests
      refine filed.of_subperm underway.keying ?_ underway.since
      rw [underway.slots, underway.begun]
      exact (underway.kept.append (.refl left)).subperm

/-! ## Walks that can be relied on -/

section Theorem

variable [DecidableEq κ]

/-- What can be relied on of a walk that has answered some requests while owners let go. -/
structure Ownership.Dependable (owners : Ownership κ) (set : WeakSet κ) (requests : List Request) :
    Prop where
  /-- No element is delivered twice. -/
  once : (owners.deliveries set requests).Nodup
  /-- What is delivered was in the set when the walk was opened. -/
  known : owners.deliveries set requests ⊆ set.elements (owners.owned 0 0)
  /-- The element delivered last is pinned, and so it is alive whoever lets it go. -/
  held : ∀ element, (owners.deliveries set requests).getLast? = some element →
    (owners.reached set requests).walk.pins element = true
  /-- No request brings back to life what is dead. -/
  fades : ∀ request element,
    ((owners.reached set requests).step owners request).2.alive owners element = true →
      (owners.reached set requests).alive owners element = true
  /-- What has been announced is alive and stays so until it is delivered, and it is delivered when it
  is asked for, whatever has been removed before. -/
  announced : ((owners.reached set requests).step owners .hasNext).1 = .flag true →
    ∃ element, ∀ idle : List Request, .next ∉ idle →
      let later := (serve (Stroll.step owners) (owners.reached set requests) idle).2
      later.alive owners element = true ∧ (later.step owners .next).1 = .delivered (.ok element)
  /-- At the end of the walk, every element that is still alive has been delivered once. -/
  complete : ((owners.reached set requests).step owners .hasNext).1 = .flag false →
    ∀ element ∈ set.elements (owners.owned 0 0),
      (owners.reached set requests).alive owners element = true →
        (owners.deliveries set requests).count element = 1
  /-- What has been delivered last can be removed, and nothing else goes with it. -/
  removes : owners.leavesPlace set requests = true → ∃ front slot rest,
    (owners.deliveries set requests).getLast? = some slot.element ∧
      (owners.reached set requests).walk.set.table.slots = front ++ slot :: rest ∧
      (∀ other ∈ front ++ rest, other.element ≠ slot.element) ∧
      ((owners.reached set requests).step owners .remove).1 = .removed (.ok ()) ∧
      ((owners.reached set requests).step owners .remove).2.walk.set =
        (owners.reached set requests).walk.set.withSlots (front ++ rest)
  /-- Otherwise a removal fails and changes nothing. -/
  refuses : owners.leavesPlace set requests = false →
    ((owners.reached set requests).step owners .remove).1 = .removed (.error .noCurrent) ∧
      ((owners.reached set requests).step owners .remove).2.walk =
        (owners.reached set requests).walk
  /-- Nothing but a removal changes the set. -/
  keeps : ∀ request, request ≠ .remove →
    ((owners.reached set requests).step owners request).2.walk.set =
      (owners.reached set requests).walk.set
  /-- Removals make no difference to any other answer. -/
  spares : List.Forall₂ (fun told other => told.isRemoval = true ∨ told = other)
    (owners.run set requests).1 (owners.run set (requests.map Request.spared)).1

end Theorem

namespace SetWalk.Underway

variable [DecidableEq κ] {owners : Ownership κ} {set : WeakSet κ} {stroll : Stroll κ}
  {behind passed left : List (SetSlot κ)}

theorem delivered_sublist (underway : Underway owners set stroll behind passed left) :
    stroll.delivered.Sublist (set.elements (owners.owned 0 0)) := by
  refine underway.inOrder.trans (List.Sublist.map _ (List.Sublist.filter _ ?_))
  rw [underway.begun]
  exact List.sublist_append_left _ _

theorem mem_of_exhausted (underway : Underway owners set stroll behind passed left)
    (atEnd : stroll.walk.ahead = none) {element : κ}
    (known : element ∈ set.elements (owners.owned 0 0)) (alive : stroll.alive owners element = true) :
    element ∈ stroll.delivered := by
  have upcoming := underway.upcoming
  rw [atEnd] at upcoming
  obtain ⟨slot, stored, rfl⟩ := List.mem_map.mp known
  have inSet := (List.mem_filter.mp stored).1
  rw [underway.begun] at inSet
  rcases List.mem_append.mp inSet with isBehind | isLeft
  · exact underway.complete slot isBehind alive
  · cases (upcoming slot isLeft).symm.trans alive

/-- The element that may be removed is in a single slot. -/
theorem single (underway : Underway owners set stroll behind passed left)
    (nodup : (set.elements (owners.owned 0 0)).Nodup) {front : List (SetSlot κ)} {slot : SetSlot κ}
    (split : passed = front ++ [slot]) (alive : stroll.alive owners slot.element = true) :
    ∀ other ∈ front ++ left, other.element ≠ slot.element := by
  have stored : (front ++ slot :: left).Sublist set.table.slots := by
    rw [underway.begun, List.append_cons, ← split]
    exact underway.kept.append (.refl left)
  have live : WeakSet.live (owners.owned 0 0) slot = true := underway.since _ alive
  have apart := nodup.sublist ((stored.filter (WeakSet.live (owners.owned 0 0))).map SetSlot.element)
  rw [List.filter_append, List.filter_cons_of_pos live, List.map_append, List.map_cons,
    List.nodup_middle, List.nodup_cons, ← List.map_append, ← List.filter_append] at apart
  intro other member same
  have otherLive : WeakSet.live (owners.owned 0 0) other = true := by
    rw [WeakSet.live, same]
    exact live
  exact apart.1 (List.mem_map.mpr ⟨other, List.mem_filter.mpr ⟨member, otherLive⟩, same⟩)

/-- A removal takes away the slot of the element delivered last and leaves the others. -/
theorem removes (underway : Underway owners set stroll behind passed left)
    (nodup : (set.elements (owners.owned 0 0)).Nodup) {position : Nat}
    (place : stroll.walk.place = some position) :
    ∃ front slot rest, stroll.delivered.getLast? = some slot.element ∧
      stroll.walk.set.table.slots = front ++ slot :: rest ∧
      (∀ other ∈ front ++ rest, other.element ≠ slot.element) ∧
      (stroll.step owners .remove).1 = .removed (.ok ()) ∧
      (stroll.step owners .remove).2.walk.set = stroll.walk.set.withSlots (front ++ rest) := by
  obtain ⟨front, slot, split, last, -, further⟩ := underway.remove place
  have told : stroll.step owners .remove = _ := Stroll.step_remove place
  have pinned : stroll.alive owners slot.element = true :=
    Stroll.alive_iff.mpr (.inr (pins_iff.mpr (.inr last)))
  have slots : (stroll.step owners .remove).2.walk.set.table.slots = front ++ left := further.slots
  refine ⟨front, slot, left, underway.last.symm.trans last, ?_, underway.single nodup split pinned,
    congrArg Prod.fst told, ?_⟩
  · rw [underway.slots, split, ← List.append_cons]
  · rw [← slots, told]
    rfl

end SetWalk.Underway

/-- Nothing but a removal changes the set. -/
theorem SetWalk.Stroll.set_step [DecidableEq κ] {owners : Ownership κ} (stroll : Stroll κ)
    {request : Request} (other : request ≠ .remove) :
    (stroll.step owners request).2.walk.set = stroll.walk.set := by
  cases request with
  | hasNext => rfl
  | next =>
      rcases ahead : stroll.walk.ahead with _ | ⟨position, element⟩
      · rw [step_next_of_none ahead]
        rfl
      · rw [step_next ahead]
  | remove => exact absurd rfl other

/-- Removals make no difference to any other answer. -/
theorem Ownership.spares [DecidableEq κ] (owners : Ownership κ) (set : WeakSet κ)
    (requests : List Request) :
    List.Forall₂ (fun told other => told.isRemoval = true ∨ told = other)
      (owners.run set requests).1 (owners.run set (requests.map Request.spared)).1 := by
  let related (stroll twin : Stroll κ) : Prop := ∃ behind passed left,
    SetWalk.Alike stroll twin behind left ∧ Underway owners set stroll behind passed left
  have opened : related (owners.opened set) (owners.opened set) :=
    ⟨_, _, _, ⟨rfl, rfl, rfl, rfl, Option.map_id'.symm⟩, Underway.opened owners set⟩
  have keeps : ∀ {stroll twin : Stroll κ} (request : Request), related stroll twin →
      ((stroll.step owners request).1.isRemoval = true ∨
          (stroll.step owners request).1 = (twin.step owners request.spared).1) ∧
        related (stroll.step owners request).2 (twin.step owners request.spared).2 := by
    rintro stroll twin request ⟨_, _, _, alike, underway⟩
    exact alike.step underway request
  rw [run, run, serve_map]
  exact (serve_related keeps opened requests).1

/-- **Walks through a weak set can be relied on while owners let go of its elements**, whatever has become
of the set before, and at whatever moments they let go. What has been delivered last and what has been
announced is kept alive by the walk. No element is delivered twice, and at the end of the walk all elements
have been delivered that are still alive. A removal takes away the element delivered last and nothing else,
even if it has no owner left, and makes no difference to what is announced and delivered. -/
theorem walks_are_dependable_while_owners_let_go [DecidableEq κ] {keying : Keying κ}
    {set : WeakSet κ} (owners : Ownership κ) (arises : set.Arises keying (owners.owned 0 0))
    (requests : List Request) : owners.Dependable set requests := by
  have nodup := arises.filed.nodup_elements
  obtain ⟨behind, passed, left, underway⟩ := owners.underway_reached set requests
  have delivered := owners.delivered_reached set requests
  have part := underway.delivered_sublist
  rw [delivered] at part
  have once := part.nodup nodup
  refine ⟨once, part.subset, ?_, ?_, ?_, ?_, ?_, ?_, ?_, ?_⟩
  · intro element latest
    rw [← delivered] at latest
    exact SetWalk.pins_iff.mpr (.inr (underway.last.trans latest))
  · exact fun request element => Stroll.alive_of_step request
  · intro told
    obtain ⟨⟨position, element⟩, ahead⟩ := Option.isSome_iff_exists.mp (Response.flag.inj told)
    refine ⟨element, fun idle noNext => ?_⟩
    intro later
    have still : later.walk.ahead.map Prod.snd = some element :=
      (underway.ahead_serve noNext).trans (by rw [ahead]; rfl)
    obtain ⟨⟨further, _⟩, laterAhead, rfl⟩ := Option.map_eq_some_iff.mp still
    exact ⟨Stroll.alive_iff.mpr (.inr (SetWalk.pins_iff.mpr (.inl ⟨further, laterAhead⟩))),
      congrArg Prod.fst (Stroll.step_next laterAhead)⟩
  · intro told element known alive
    have atEnd : (owners.reached set requests).walk.ahead = none :=
      Option.isNone_iff_eq_none.mp (Option.isSome_eq_false_iff.mp (Response.flag.inj told))
    have member := underway.mem_of_exhausted atEnd known alive
    rw [delivered] at member
    exact List.count_eq_one_of_mem once member
  · intro leaves
    rw [← owners.isSome_place_reached] at leaves
    obtain ⟨position, place⟩ := Option.isSome_iff_exists.mp leaves
    rw [← delivered]
    exact underway.removes nodup place
  · intro leaves
    rw [← owners.isSome_place_reached, Option.isSome_eq_false_iff, Option.isNone_iff_eq_none]
      at leaves
    rw [Stroll.step_remove_of_none leaves]
    exact ⟨rfl, rfl⟩
  · exact fun request other => Stroll.set_step _ other
  · exact owners.spares set requests

/-- Three objects. -/
def crowd : WeakSet Object :=
  (serve (fun set => set.respond fun _ => true) { keying := .plain }
    [.insert (some ⟨1, [], 1⟩), .insert (some ⟨2, [], 2⟩), .insert (some ⟨3, [], 3⟩)]).2

/-- The second object is let go when the first search comes to it, the third one before it is removed,
and the first one between its announcement and its delivery. What is delivered is kept for a while. -/
def lettingGo : Ownership Object :=
  .lasting (fun object => if object.id = 2 then (1, 1) else if object.id = 3 then (1, 0) else (4, 0))
    fun _ => (2, 0)

/-- All three are let go under the eye of a walk. Two of them are delivered all the same, one is removed,
and the walk has missed the other one. -/
theorem walks_are_dependable_while_owners_let_go_on_crowd :
    let requests := [.next, .remove, .hasNext, .next]
    crowd.Arises .plain (lettingGo.owned 0 0) ∧ lettingGo.Dependable crowd requests ∧
      lettingGo.deliveries crowd requests = [⟨3, [], 3⟩, ⟨1, [], 1⟩] ∧
      lettingGo.owned 2 0 ⟨3, [], 3⟩ = false ∧ lettingGo.owned 4 0 ⟨1, [], 1⟩ = false ∧
      (lettingGo.reached crowd requests).walk.set.table.slots.map SetSlot.element =
        [⟨2, [], 2⟩, ⟨1, [], 1⟩] := by
  intro requests
  have arises : crowd.Arises .plain (lettingGo.owned 0 0) :=
    .faded (serve_keeps (fun call arises => arises.call call) .empty _) fun _ _ => rfl
  exact ⟨arises, walks_are_dependable_while_owners_let_go lettingGo arises requests, by decide +kernel,
    rfl, rfl, by decide +kernel⟩

end Collections.Weak
