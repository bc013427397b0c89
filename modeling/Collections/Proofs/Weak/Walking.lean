import Mathlib.Data.List.Basic
import Collections.Weak.Set

/-!
# Walks through a weak set

A walk looks for the next slot that is live when it comes to it (`SetWalk.seekDuring_cases`). What it
passes over is stale, and it stays in the set. As long as nothing is reclaimed, a walk that removes
the elements that satisfy a test therefore delivers every live element once, takes away the slots of
those that satisfy it, and leaves the other slots in their order (`WeakSet.removeWhere_eq`).
-/

set_option autoImplicit false

namespace Collections.Weak

variable {κ : Type} {alive drop : κ → Bool}

namespace WeakSet

/-- The set with other slots. -/
def withSlots (set : WeakSet κ) (slots : List (SetSlot κ)) : WeakSet κ :=
  { set with table := { set.table with slots } }

/-- Whether a slot stays when a walk removes the elements that satisfy a test. -/
def stays (alive drop : κ → Bool) (slot : SetSlot κ) : Bool :=
  !(live alive slot && drop slot.element)

/-- Of stale slots none is live, and all stay. -/
theorem filter_of_stale (drop : κ → Bool) {slots : List (SetSlot κ)}
    (stale : ∀ slot ∈ slots, live alive slot = false) :
    slots.filter (live alive) = [] ∧ slots.filter (stays alive drop) = slots :=
  ⟨List.filter_eq_nil_iff.mpr fun slot member => by simp [stale slot member],
    List.filter_eq_self.mpr fun slot member => by simp [stays, stale slot member]⟩

end WeakSet

namespace SetWalk

/-- Nothing is found where all slots are stale when the search comes to them. Otherwise what is found
is live then, and the slots in front of it are stale. -/
theorem seekDuring_cases (alive : Nat → κ → Bool) (position : Nat) (rest : List (SetSlot κ)) :
    (seekDuring alive position rest = none ∧
        ∀ slot ∈ rest, ∃ place, WeakSet.live (alive place) slot = false) ∨
      ∃ stale slot behind, rest = stale ++ slot :: behind ∧
        seekDuring alive position rest = some (position + stale.length, slot.element) ∧
        WeakSet.live (alive (position + stale.length)) slot = true ∧
        ∀ other ∈ stale, ∃ place ≤ position + stale.length,
          WeakSet.live (alive place) other = false := by
  induction rest generalizing position with
  | nil => exact .inl ⟨rfl, fun _ none => absurd none List.not_mem_nil⟩
  | cons slot rest hypothesis =>
      rw [seekDuring]
      by_cases live : WeakSet.live (alive position) slot = true
      · rw [if_pos live]
        exact .inr ⟨[], slot, rest, rfl, rfl, live, fun _ none => absurd none List.not_mem_nil⟩
      · rw [if_neg live]
        have here : WeakSet.live (alive position) slot = false := Bool.eq_false_iff.mpr live
        rcases hypothesis (position + 1) with ⟨nothing, allStale⟩ |
          ⟨stale, found, behind, rfl, hit, live, allStale⟩
        · exact .inl ⟨nothing, List.forall_mem_cons.mpr ⟨⟨position, here⟩, allStale⟩⟩
        · have further : position + 1 + stale.length = position + (slot :: stale).length := by
            rw [List.length_cons]
            omega
          rw [further] at hit live allStale
          exact .inr ⟨slot :: stale, found, behind, rfl, hit, live,
            List.forall_mem_cons.mpr ⟨⟨position, Nat.le_add_right _ _, here⟩, allStale⟩⟩

/-! ## The two parts of a set -/

/-- A walk has gone through some slots of its set, and the rest is ahead. What it holds is alive. -/
structure Between (alive : κ → Bool) (walk : SetWalk κ) (front rest : List (SetSlot κ)) :
    Prop where
  slots : walk.set.table.slots = front ++ rest
  ahead : walk.ahead = seekDuring (fun _ => alive) front.length rest
  last : ∀ element ∈ walk.last, alive element = true

theorem start_between (set : WeakSet κ) (alive : κ → Bool) :
    Between alive (start set alive) [] set.table.slots :=
  ⟨rfl, rfl, fun _ none => absurd none (Option.not_mem_none _)⟩

namespace Between

variable {walk : SetWalk κ} {front rest : List (SetSlot κ)}

theorem withSlots (between : Between alive walk front rest) :
    walk.set.withSlots (front ++ rest) = walk.set := by
  rw [← between.slots]
  rfl

/-- A walk is at its end if it has only stale slots ahead. Otherwise it has come to the first live
one. -/
theorem ahead_cases (between : Between alive walk front rest) :
    (walk.ahead = none ∧ ∀ slot ∈ rest, WeakSet.live alive slot = false) ∨
      ∃ stale slot behind, rest = stale ++ slot :: behind ∧
        walk.ahead = some ((front ++ stale).length, slot.element) ∧
        WeakSet.live alive slot = true ∧ ∀ other ∈ stale, WeakSet.live alive other = false := by
  rw [between.ahead]
  rcases seekDuring_cases (fun _ => alive) front.length rest with ⟨nothing, allStale⟩ |
    ⟨stale, slot, behind, whole, found, live, allStale⟩
  · exact .inl ⟨nothing, fun slot member => (allStale slot member).choose_spec⟩
  · rw [← List.length_append] at found
    exact .inr ⟨stale, slot, behind, whole, found, live,
      fun other member => (allStale other member).choose_spec.2⟩

section Pinning

variable [DecidableEq κ]

/-- To pin what is alive changes nothing. -/
theorem pinned (between : Between alive walk front rest) :
    (fun element => alive element || walk.pins element) = alive := by
  funext element
  cases pins : walk.pins element with
  | false => exact Bool.or_false _
  | true =>
      rw [Bool.or_true, eq_comm]
      rw [SetWalk.pins, Bool.or_eq_true, Option.any_eq_true, Option.any_eq_true] at pins
      rcases pins with ⟨⟨position, pinned⟩, isAhead, same⟩ | ⟨pinned, isLast, same⟩
      · obtain rfl : pinned = element := by simpa using same
        rcases between.ahead_cases with ⟨nothing, -⟩ | ⟨_, slot, _, _, found, live, -⟩
        · cases nothing.symm.trans isAhead
        · obtain ⟨rfl, rfl⟩ := Prod.mk.inj (Option.some.inj (found.symm.trans isAhead))
          exact live
      · obtain rfl : pinned = element := by simpa using same
        exact between.last _ isLast

/-- A walk that has only stale slots ahead is at its end, and otherwise it delivers the first live
one. Stale ones are passed over. -/
theorem next_cases (between : Between alive walk front rest) :
    (∃ cause, walk.next alive = (.error cause, walk)) ∧
        (∀ slot ∈ rest, WeakSet.live alive slot = false) ∨
      ∃ stale slot behind after, rest = stale ++ slot :: behind ∧
        (∀ other ∈ stale, WeakSet.live alive other = false) ∧
        WeakSet.live alive slot = true ∧
        walk.next alive = (.ok slot.element, after) ∧ after.set = walk.set ∧
        after.place = some (front ++ stale).length ∧
        Between alive after (front ++ stale ++ [slot]) behind := by
  rcases between.ahead_cases with ⟨ahead, allStale⟩ |
    ⟨stale, slot, behind, rfl, ahead, live, allStale⟩
  · refine .inl ⟨⟨.pastEnd, ?_⟩, allStale⟩
    rw [next, nextDuring, ahead]
  · have slots : walk.set.table.slots = (front ++ stale ++ [slot]) ++ behind := by
      rw [between.slots]
      simp
    have further : (front ++ stale ++ [slot]).length = (front ++ stale).length + 1 :=
      List.length_append
    have held : ∀ element, (alive element || decide (element = slot.element)) = alive element := by
      intro element
      by_cases same : element = slot.element
      · subst same
        rw [decide_eq_true rfl, Bool.or_true]
        exact live.symm
      · rw [decide_eq_false same, Bool.or_false]
    have delivered : walk.next alive = (.ok slot.element,
        { walk with ahead := seekDuring (fun _ => alive) (front ++ stale ++ [slot]).length behind
                    last := some slot.element, place := some (front ++ stale).length }) := by
      rw [next, nextDuring, ahead]
      simp only [held, slots, ← further, List.drop_left]
    refine .inr ⟨stale, slot, behind, _, rfl, allStale, live, delivered, rfl, rfl, slots, rfl, ?_⟩
    rintro _ ⟨⟩
    exact live

/-- The slot that was delivered last may be removed. -/
theorem remove {slot : SetSlot κ} (between : Between alive walk (front ++ [slot]) rest)
    (place : walk.place = some front.length) :
    (walk.remove alive).2.set = walk.set.withSlots (front ++ rest) ∧
      Between alive (walk.remove alive).2 front rest := by
  have slots : (walk.set.table.eraseAt front.length).slots = front ++ rest := by
    rw [SlotTable.eraseAt, between.slots]
    simp [List.eraseIdx_append_of_length_le]
  have removed : (walk.remove alive).2 =
      { walk with
        set := { walk.set with table := walk.set.table.eraseAt front.length }
        ahead := seekDuring (fun _ => alive) front.length rest
        place := none, removed := walk.removed + 1 } := by
    rw [SetWalk.remove, removeDuring, place]
    dsimp only
    rw [between.pinned, slots, List.drop_left]
  rw [removed]
  refine ⟨?_, slots, rfl, between.last⟩
  rw [← slots]
  rfl

/-- **A walk that removes takes away what it delivers and is to be dropped, and nothing else.** -/
theorem sweepWithin_eq (between : Between alive walk front rest) {rounds : Nat}
    (enough : rest.length ≤ rounds) :
    (sweepWithin alive drop rounds walk).1 =
        ((rest.filter (WeakSet.live alive)).map SetSlot.element).filter drop ∧
      (sweepWithin alive drop rounds walk).2.set =
        walk.set.withSlots (front ++ rest.filter (WeakSet.stays alive drop)) := by
  -- A round goes past one live slot and the stale ones before it, whether or not it removes it.
  induction rounds generalizing walk front rest with
  | zero =>
      obtain rfl : rest = [] := List.length_eq_zero_iff.mp (Nat.le_zero.mp enough)
      exact ⟨rfl, between.withSlots.symm⟩
  | succ rounds ih =>
      rcases between.next_cases with ⟨⟨cause, ended⟩, allStale⟩ |
        ⟨stale, slot, behind, after, rfl, allStale, live, delivered, sameSet, last, further⟩
      · obtain ⟨none, stay⟩ := WeakSet.filter_of_stale drop allStale
        rw [sweepWithin, ended, stay, none]
        exact ⟨rfl, between.withSlots.symm⟩
      · have fewer : behind.length ≤ rounds := by
          simp only [List.length_append, List.length_cons] at enough
          omega
        obtain ⟨none, stay⟩ := WeakSet.filter_of_stale drop allStale
        have ahead : (stale ++ slot :: behind).filter (WeakSet.live alive) =
            slot :: behind.filter (WeakSet.live alive) := by
          rw [List.filter_append, none, List.filter_cons_of_pos live, List.nil_append]
        rw [sweepWithin, delivered, ahead, List.map_cons, List.filter_append, stay]
        dsimp only
        by_cases dropped : drop slot.element = true
        · obtain ⟨removed, shorter⟩ := further.remove last
          obtain ⟨elements, left⟩ := ih shorter fewer
          have gone : WeakSet.stays alive drop slot = false := by
            simp [WeakSet.stays, live, dropped]
          rw [if_pos dropped, List.filter_cons_of_pos dropped,
            List.filter_cons_of_neg (Bool.eq_false_iff.mp gone), ← List.append_assoc]
          refine ⟨congrArg _ elements, left.trans ?_⟩
          rw [removed, sameSet]
          rfl
        · obtain ⟨elements, left⟩ := ih further fewer
          have kept : WeakSet.stays alive drop slot = true := by
            simp [WeakSet.stays, dropped]
          rw [if_neg dropped, List.filter_cons_of_neg dropped, List.filter_cons_of_pos kept]
          refine ⟨elements, left.trans ?_⟩
          rw [sameSet, List.append_assoc, List.append_assoc]
          rfl

end Pinning

end Between

end SetWalk

namespace WeakSet

/-- **A walk through a set removes the live elements that satisfy a test.** -/
theorem removeWhere_eq [DecidableEq κ] (set : WeakSet κ) (alive drop : κ → Bool) :
    (set.removeWhere alive drop).1 = (set.elements alive).filter drop ∧
      (set.removeWhere alive drop).2.set =
        set.withSlots (set.table.slots.filter (stays alive drop)) :=
  (SetWalk.start_between set alive).sweepWithin_eq (Nat.le_refl _)

end WeakSet

end Collections.Weak
