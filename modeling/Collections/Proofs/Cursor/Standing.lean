import Collections.Proofs.Cursor.Draining
import Collections.Proofs.Cursor.Seats

/-!
# Cursors that can be read to the end

A cursor of any shape can be read if each of its parts that goes through a container stands at a
place in it, between its two ends (`Seat.Shown`). The parts may share containers, and a part may
occur more than once.

Asking such a cursor lets some of its combinations go over and changes nothing else
(`Cursor.asked_hasNext`). If the answer is that there is a next element, it is delivered
(`Seat.Shown.next_of_hasNext`), and afterwards all parts stand where they can be read again
(`Seat.Shown.next`). A delivery uses up one element of a budget that was within the limit of the
cursor (`Seat.Shown.budget_lt_of_next`), so the cursor delivers elements until it is exhausted, and
there are no more of them than reading to the end allows for (`Seat.Shown.exists_drains`).
-/

set_option autoImplicit false

namespace Collections

variable {α : Type}

/-! ## What asking and delivering leave alone -/

namespace Store

/-- Nothing has changed, but combinations may have gone over. -/
structure Asked (before after : Store α) : Prop where
  containers : after.containers = before.containers
  splitters : after.splitters = before.splitters
  fresh : after.fresh = before.fresh

namespace Asked

variable {before middle after : Store α}

theorem refl (store : Store α) : Asked store store := ⟨rfl, rfl, rfl⟩

theorem trans (first : Asked before middle) (second : Asked middle after) : Asked before after :=
  ⟨second.containers.trans first.containers, second.splitters.trans first.splitters,
    second.fresh.trans first.fresh⟩

theorem cross (store : Store α) (switch : Handle) : Asked store (store.cross switch) :=
  ⟨rfl, rfl, rfl⟩

theorem container (asked : Asked before after) (source : Handle) :
    after.container source = before.container source :=
  congrArg (·.get source) asked.containers

theorem items (asked : Asked before after) (source : Handle) :
    after.items source = before.items source :=
  congrArg Container.items (asked.container source)

end Asked

/-- The containers hold what they held, and no splitter has come to have more pieces left. -/
structure Consumed (before after : Store α) : Prop where
  items : ∀ source, after.items source = before.items source
  splitter : ∀ slot, (after.splitters.get slot).limit ≤ (before.splitters.get slot).limit

namespace Consumed

variable {before middle after : Store α}

theorem refl (store : Store α) : Consumed store store := ⟨fun _ => rfl, fun _ => Nat.le_refl _⟩

theorem trans (first : Consumed before middle) (second : Consumed middle after) :
    Consumed before after :=
  ⟨fun source => (second.items source).trans (first.items source),
    fun slot => Nat.le_trans (second.splitter slot) (first.splitter slot)⟩

end Consumed

theorem Asked.consumed {before after : Store α} (asked : Asked before after) :
    Consumed before after :=
  ⟨asked.items, fun slot => Nat.le_of_eq (congrArg (fun table => (table.get slot).limit)
    asked.splitters)⟩

theorem MovedAt.consumed {source slot : Handle} {before after : Store α}
    (moved : MovedAt source slot before after) : Consumed before after :=
  ⟨moved.items, fun slot => Nat.le_of_eq (congrArg (fun table => (table.get slot).limit)
    moved.splitters)⟩

end Store

/-- A piece that has been handed out is not left any more. -/
theorem Splitter.limit_le_of_next? {splitter next : Splitter} {piece : Bytes}
    (delivered : splitter.next? = some (piece, next)) : next.limit ≤ splitter.limit := by
  unfold next? at delivered
  dsimp only at delivered
  split at delivered
  · cases delivered
  next unfinished =>
    split at delivered
    · obtain ⟨-, rfl⟩ := Prod.mk.inj (Option.some.inj delivered)
      exact Nat.zero_le _
    next found hit =>
      obtain ⟨-, rfl⟩ := Prod.mk.inj (Option.some.inj delivered)
      obtain ⟨later, -⟩ := Bytes.bounds_of_find? splitter.inside hit
      have further : splitter.position ≤ found + splitter.delimiter.length := by omega
      rw [limit, limit, if_neg unfinished, if_neg unfinished]
      exact Nat.add_le_add_right (Nat.sub_le_sub_left further _) 1

namespace Cursor

/-! ## Asking and delivering, by cases -/

section Cases

variable {switch : Handle} {first second : Cursor α} {store after : Store α} {more : Bool}

/-- A combination that has gone over asks its second part. Otherwise it asks the first one, and the
second one if that is exhausted. -/
theorem cases_hasNext (asked : (combined switch first second).hasNext store = (more, after)) :
    store.hasCrossed switch = true ∧ second.hasNext store = (more, after) ∨
      store.hasCrossed switch = false ∧ more = true ∧ first.hasNext store = (true, after) ∨
      store.hasCrossed switch = false ∧ ∃ between, first.hasNext store = (false, between) ∧
        second.hasNext (between.cross switch) = (more, after) := by
  rw [hasNext] at asked
  cases crossed : store.hasCrossed switch with
  | true =>
      rw [if_pos crossed] at asked
      exact .inl ⟨rfl, asked⟩
  | false =>
      rw [if_neg (by simp [crossed])] at asked
      rcases found : first.hasNext store with ⟨_ | _, between⟩
      · rw [found] at asked
        exact .inr (.inr ⟨rfl, between, rfl, asked⟩)
      · rw [found] at asked
        obtain ⟨rfl, rfl⟩ := Prod.mk.inj asked
        exact .inr (.inl ⟨rfl, rfl, rfl⟩)

/-- The same, and whether the combination has gone over afterwards. -/
theorem cases_hasNext_of_made {bound : Handle}
    (made : (combined switch first second).MadeBefore bound)
    (asked : (combined switch first second).hasNext store = (more, after)) :
    store.hasCrossed switch = true ∧ after.hasCrossed switch = true ∧
        second.hasNext store = (more, after) ∨
      store.hasCrossed switch = false ∧ after.hasCrossed switch = false ∧ more = true ∧
        first.hasNext store = (true, after) ∨
      store.hasCrossed switch = false ∧ after.hasCrossed switch = true ∧
        ∃ between, first.hasNext store = (false, between) ∧
          second.hasNext (between.cross switch) = (more, after) := by
  obtain ⟨-, firstMade, secondMade⟩ := made
  obtain ⟨crossed, askedBack⟩ | ⟨uncrossed, found, askedFront⟩ | ⟨uncrossed, between, askedFront,
    askedBack⟩ := cases_hasNext asked
  · refine .inl ⟨crossed, ?_, askedBack⟩
    rw [(confined_hasNext secondMade).keeps_of_eq askedBack (Nat.le_refl switch), crossed]
  · refine .inr (.inl ⟨uncrossed, ?_, found, askedFront⟩)
    rw [(confined_hasNext firstMade).keeps_of_eq askedFront (Nat.le_refl switch), uncrossed]
  · refine .inr (.inr ⟨uncrossed, ?_, between, askedFront, askedBack⟩)
    rw [(confined_hasNext secondMade).keeps_of_eq askedBack (Nat.le_refl switch),
      Store.hasCrossed_cross, if_pos rfl]

/-- A combination that has an element lets the part deliver it that it is at. -/
theorem next_combined (asked : (combined switch first second).hasNext store = (true, after)) :
    (combined switch first second).next store =
      if after.hasCrossed switch then second.next after else first.next after := by
  rw [next, asked]

end Cases

/-- Asking a cursor changes nothing, but combinations may go over. -/
theorem asked_of_hasNext {cursor : Cursor α} {store after : Store α} {more : Bool}
    (asked : cursor.hasNext store = (more, after)) : Store.Asked store after := by
  induction cursor generalizing store after more with
  | direct | ofList | pieces | empty =>
      obtain ⟨-, rfl⟩ := Prod.mk.inj asked
      exact .refl store
  | readOnly view source ih => exact ih asked
  | combined switch first second front back =>
      obtain ⟨-, inBack⟩ | ⟨-, -, inFront⟩ | ⟨-, between, inFront, inBack⟩ := cases_hasNext asked
      · exact back inBack
      · exact front inFront
      · exact ((front inFront).trans (.cross between switch)).trans (back inBack)

/-- A delivery is a step of the part at which the cursor is, after the cursor was asked. What a step
of each part keeps, and asking too, a delivery keeps. -/
theorem next_keeps {cursor : Cursor α} (keeps : Store α → Store α → Prop)
    (trans : ∀ {before middle after}, keeps before middle → keeps middle after → keeps before after)
    (asking : ∀ {before after}, Store.Asked before after → keeps before after)
    (seated : ∀ {seat part}, seat ∈ cursor.seats → Cursor.seat? part = some seat →
      ∀ before, keeps before (part.next before).2)
    (splitting : ∀ {slot read} before, keeps before ((pieces slot read).next before).2)
    (store : Store α) : keeps store (cursor.next store).2 := by
  induction cursor generalizing store with
  | direct | ofList => exact seated (List.mem_singleton_self _) rfl store
  | pieces slot read => exact splitting store
  | empty => exact asking (.refl store)
  | readOnly view source ih => exact ih seated store
  | combined switch first second front back =>
      cases asked : (combined switch first second).hasNext store with
      | mk more middle =>
          have before := asking (asked_of_hasNext asked)
          cases more with
          | false =>
              rw [next_of_hasNext_eq_false asked]
              exact before
          | true =>
              rw [next_combined asked]
              split
              · exact trans before
                  (back (fun member => seated (List.mem_append_right _ member)) middle)
              · exact trans before
                  (front (fun member => seated (List.mem_append_left _ member)) middle)

/-- Delivering leaves the elements of all containers as they are. -/
theorem consumed_next (cursor : Cursor α) (store : Store α) :
    Store.Consumed store (cursor.next store).2 := by
  refine next_keeps Store.Consumed Store.Consumed.trans Store.Asked.consumed ?_ ?_ store
  · intro seat part _ sits before
    rw [next_of_seat? sits]
    cases stepped : (before.container seat.source).step? seat.slot (seat.facing .forward) with
    | none => exact .refl before
    | some result =>
        obtain ⟨items, places⟩ := Container.of_step? stepped
        exact (Store.movedAt_put items places).consumed
  · intro slot read before
    rw [next]
    cases delivered : (before.splitters.get slot).next? with
    | none => exact .refl before
    | some result =>
        refine ⟨fun _ => rfl, ?_⟩
        intro other
        show ((before.splitters.set slot result.2).get other).limit ≤ _
        rw [Table.get_set]
        split
        next here =>
          rw [here]
          exact Splitter.limit_le_of_next? delivered
        next => exact Nat.le_refl _

/-- The limit of a cursor comes from what its parts go through. -/
theorem limit_le_of_consumed (cursor : Cursor α) {before after : Store α}
    (consumed : Store.Consumed before after) : cursor.limit after ≤ cursor.limit before := by
  induction cursor with
  | direct source slot => exact Nat.le_of_eq (congrArg List.length (consumed.items source))
  | ofList cursor => exact Nat.le_of_eq (congrArg List.length (consumed.items cursor.container))
  | pieces slot read => exact consumed.splitter slot
  | empty => exact Nat.le_refl 0
  | combined switch first second front back => exact Nat.add_le_add front back
  | readOnly view source ih => exact ih

end Cursor

/-! ## Standing between the ends -/

/-- Each of some seats stands at a place of its container. -/
def Seat.Shown (seats : List Seat) (store : Store α) : Prop :=
  ∀ seat ∈ seats, ∃ zipper, seat.Shows store zipper

namespace Seat

variable {seat : Seat} {seats : List Seat} {store after : Store α} {zipper : Zipper α}

/-- Seats at one place that look in opposite directions show the same from both ends. -/
theorem Shows.opposite (shows : seat.Shows store zipper) {other : Seat}
    (source : other.source = seat.source) (slot : other.slot = seat.slot) :
    ∃ zipper, other.Shows store zipper := by
  refine ⟨(zipper.straight seat.isView).straight other.isView, ?_⟩
  rw [Shows, Zipper.straight_straight, source, slot]
  exact shows

/-- Asking does not move anything. -/
theorem Shows.asked (shows : seat.Shows store zipper) (asked : Store.Asked store after) :
    seat.Shows after zipper := by
  rw [Shows, asked.container]
  exact shows

theorem Shown.hasNext {part : Cursor α} (shown : Shown seats store) (member : seat ∈ seats)
    (sits : part.seat? = some seat) :
    part.hasNext store = (!(seat.ahead store).isEmpty, store) := by
  obtain ⟨zipper, shows⟩ := shown seat member
  rw [shows.hasNext sits, shows.ahead_eq]

theorem Shown.asked (shown : Shown seats store) (asked : Store.Asked store after) :
    Shown seats after :=
  fun seat member => (shown seat member).imp fun _ shows => shows.asked asked

/-- **All seats still stand at a place after a delivery from some of them.** -/
theorem Shown.next (shown : Shown seats store) (cursor : Cursor α)
    (among : ∀ seat ∈ cursor.seats, seat ∈ seats) : Shown seats (cursor.next store).2 := by
  let keeps (before after : Store α) : Prop := Shown seats before → Shown seats after
  have kept : keeps store (cursor.next store).2 := by
    refine Cursor.next_keeps keeps (fun first second shown => second (first shown))
      (fun asked shown => shown.asked asked) ?_ ?_ store
    · intro seat part member sits before shown
      obtain ⟨⟨behind, ahead, current⟩, shows⟩ := shown seat (among seat member)
      cases ahead with
      | nil =>
          rw [Cursor.next_of_hasNext_eq_false (shows.hasNext sits)]
          exact shown
      | cons item rest =>
          obtain ⟨after, delivered, showsAfter, moved⟩ := shows.next sits
          rw [delivered]
          intro other present
          by_cases here : other.source = seat.source ∧ other.slot = seat.slot
          · exact showsAfter.opposite here.1 here.2
          · obtain ⟨zipper, showsOther⟩ := shown other present
            exact ⟨zipper, showsOther.of_movedAt moved here⟩
    · intro slot read before shown
      rw [Cursor.next]
      cases (before.splitters.get slot).next? <;> exact shown
  exact kept shown

theorem Shown.next_of_seat? {part : Cursor α} (sits : part.seat? = some seat)
    (shown : Shown part.seats store) (more : part.hasNext store = (true, after)) :
    ∃ item last, part.next store = (.ok item, last) := by
  rw [Cursor.seats_of_seat? sits] at shown
  obtain ⟨⟨behind, ahead, current⟩, shows⟩ := shown seat (List.mem_singleton_self seat)
  rw [shows.hasNext sits] at more
  cases ahead with
  | nil => cases (Prod.mk.inj more).1
  | cons item rest =>
      obtain ⟨last, delivered, -⟩ := shows.next sits
      exact ⟨item, last, delivered⟩

/-- **What a cursor says that it has, it delivers.** -/
theorem Shown.next_of_hasNext {cursor : Cursor α} (shown : Shown cursor.seats store)
    {bound : Handle} (made : cursor.MadeBefore bound)
    (more : cursor.hasNext store = (true, after)) :
    ∃ item last, cursor.next store = (.ok item, last) := by
  induction cursor generalizing bound store after with
  | direct | ofList => exact shown.next_of_seat? rfl more
  | pieces slot read =>
      cases delivered : (store.splitters.get slot).next? with
      | none =>
          rw [Splitter.next?_eq_none_iff] at delivered
          rw [Cursor.hasNext, delivered] at more
          cases (Prod.mk.inj more).1
      | some result =>
          refine ⟨read result.1,
            { store with splitters := store.splitters.set slot result.2 }, ?_⟩
          rw [Cursor.next, delivered]
  | empty => cases (Prod.mk.inj more).1
  | readOnly view source ih => exact ih shown made more
  | combined switch first second front back =>
      have inFront : Shown first.seats store :=
        fun seat member => shown seat (List.mem_append_left _ member)
      have inBack : Shown second.seats store :=
        fun seat member => shown seat (List.mem_append_right _ member)
      rw [Cursor.next_combined more]
      obtain ⟨-, crossed, asked⟩ | ⟨-, uncrossed, -, asked⟩ | ⟨-, crossed, between, asked,
        askedBack⟩ := Cursor.cases_hasNext_of_made made more
      · rw [if_pos crossed, ← Cursor.next_of_hasNext made.2.2 asked]
        exact back inBack made.2.2 asked
      · rw [uncrossed, if_neg Bool.false_ne_true, ← Cursor.next_of_hasNext made.2.1 asked]
        exact front inFront made.2.1 asked
      · have reached : Store.Asked store (between.cross switch) :=
          (Cursor.asked_of_hasNext asked).trans (.cross between switch)
        rw [if_pos crossed, ← Cursor.next_of_hasNext made.2.2 askedBack]
        exact back (inBack.asked reached) made.2.2 askedBack

end Seat

/-! ## Budgets -/

theorem ListCursor.container_eq (cursor : ListCursor) : cursor.container = cursor.seat.source := by
  induction cursor with
  | direct source slot => rfl
  | reversed view source ih => exact ih

namespace Cursor

/-- A bound on the elements that a cursor can still deliver. A combination that has not gone over
may have to reckon with all that its second part goes through. -/
def budget : Cursor α → Store α → Nat
  | direct source slot, store => (Seat.ahead ⟨source, slot, false⟩ store).length
  | ofList cursor, store => (cursor.seat.ahead store).length
  | pieces slot _, store => (store.splitters.get slot).pieces.length
  | empty, _ => 0
  | combined switch first second, store =>
      if store.hasCrossed switch then second.budget store
      else first.budget store + second.limit store
  | readOnly _ source, store => source.budget store

/-- The budget of a part that sits somewhere, and its limit. -/
theorem budget_of_seat? {part : Cursor α} {seat : Seat} (sits : part.seat? = some seat)
    (store : Store α) : part.budget store = (seat.ahead store).length ∧
      part.limit store = (store.items seat.source).length := by
  cases part with
  | direct source slot =>
      obtain rfl := Option.some.inj sits
      exact ⟨rfl, rfl⟩
  | ofList cursor =>
      obtain rfl := Option.some.inj sits
      exact ⟨rfl, congrArg (fun source => (store.items source).length) cursor.container_eq⟩
  | pieces | empty | combined | readOnly => cases sits

end Cursor

namespace Seat.Shown

variable {cursor : Cursor α} {store after : Store α} {bound : Handle} {more : Bool}

theorem budget_le_of_seat? {part : Cursor α} {seat : Seat} (sits : part.seat? = some seat)
    (shown : Shown part.seats store) : part.budget store ≤ part.limit store := by
  rw [Cursor.seats_of_seat? sits] at shown
  obtain ⟨zipper, shows⟩ := shown seat (List.mem_singleton_self seat)
  obtain ⟨budget, limit⟩ := Cursor.budget_of_seat? sits store
  rw [budget, limit, shows.ahead_eq, shows.length_eq]
  exact Nat.le_add_left _ _

/-- The budget is within the limit. -/
theorem budget_le_limit (shown : Shown cursor.seats store) :
    cursor.budget store ≤ cursor.limit store := by
  induction cursor with
  | direct | ofList => exact shown.budget_le_of_seat? rfl
  | pieces slot read => exact Splitter.length_pieces_le _
  | empty => exact Nat.le_refl 0
  | readOnly view source ih => exact ih shown
  | combined switch first second front back =>
      have inFront := front fun seat member => shown seat (List.mem_append_left _ member)
      have inBack := back fun seat member => shown seat (List.mem_append_right _ member)
      rw [Cursor.budget, Cursor.limit]
      split
      · exact Nat.le_trans inBack (Nat.le_add_left _ _)
      · exact Nat.add_le_add_right inFront _

/-- Asking does not raise the budget. -/
theorem budget_le_of_hasNext (shown : Shown cursor.seats store) (made : cursor.MadeBefore bound)
    (asked : cursor.hasNext store = (more, after)) : cursor.budget after ≤ cursor.budget store := by
  induction cursor generalizing bound store after more with
  | direct | ofList | pieces | empty =>
      obtain ⟨-, rfl⟩ := Prod.mk.inj asked
      exact Nat.le_refl _
  | readOnly view source ih => exact ih shown made asked
  | combined switch first second front back =>
      have inFront : Shown first.seats store :=
        fun seat member => shown seat (List.mem_append_left _ member)
      have inBack : Shown second.seats store :=
        fun seat member => shown seat (List.mem_append_right _ member)
      rw [Cursor.budget, Cursor.budget]
      obtain ⟨before, crossed, askedBack⟩ | ⟨before, uncrossed, -, askedFront⟩ | ⟨before, crossed,
        between, askedFront, askedBack⟩ := Cursor.cases_hasNext_of_made made asked
      · rw [if_pos crossed, if_pos before]
        exact back inBack made.2.2 askedBack
      · rw [uncrossed, before, if_neg Bool.false_ne_true, if_neg Bool.false_ne_true]
        exact Nat.add_le_add (front inFront made.2.1 askedFront)
          (second.limit_le_of_consumed (Cursor.asked_of_hasNext askedFront).consumed)
      · have reached : Store.Asked store (between.cross switch) :=
          (Cursor.asked_of_hasNext askedFront).trans (.cross between switch)
        rw [if_pos crossed, before, if_neg Bool.false_ne_true]
        calc second.budget after
            ≤ second.budget (between.cross switch) :=
              back (inBack.asked reached) made.2.2 askedBack
          _ ≤ second.limit (between.cross switch) := budget_le_limit (inBack.asked reached)
          _ ≤ second.limit store := second.limit_le_of_consumed reached.consumed
          _ ≤ first.budget store + second.limit store := Nat.le_add_left _ _

theorem budget_lt_of_seat? {part : Cursor α} {seat : Seat} (sits : part.seat? = some seat)
    (shown : Shown part.seats store) {item : α} (delivered : part.next store = (.ok item, after)) :
    part.budget after < part.budget store := by
  rw [Cursor.seats_of_seat? sits] at shown
  obtain ⟨⟨behind, ahead, current⟩, shows⟩ := shown seat (List.mem_singleton_self seat)
  rw [(Cursor.budget_of_seat? sits store).1, (Cursor.budget_of_seat? sits after).1, shows.ahead_eq]
  cases ahead with
  | nil =>
      rw [Cursor.next_of_hasNext_eq_false (shows.hasNext sits)] at delivered
      cases (Prod.mk.inj delivered).1
  | cons first rest =>
      obtain ⟨last, taken, showsLast, -⟩ := shows.next sits
      obtain ⟨-, rfl⟩ := Prod.mk.inj (taken.symm.trans delivered)
      rw [showsLast.ahead_eq]
      exact Nat.lt_succ_self _

/-- **A delivery uses up some of the budget.** -/
theorem budget_lt_of_next (shown : Shown cursor.seats store) (made : cursor.MadeBefore bound)
    {item : α} (delivered : cursor.next store = (.ok item, after)) :
    cursor.budget after < cursor.budget store := by
  induction cursor generalizing bound store after with
  | direct | ofList => exact shown.budget_lt_of_seat? rfl delivered
  | empty => cases (Prod.mk.inj delivered).1
  | readOnly view source ih => exact ih shown made delivered
  | pieces slot read =>
      rw [Cursor.next] at delivered
      cases left : (store.splitters.get slot).pieces with
      | nil =>
          have nothing : (store.splitters.get slot).next? = none := by
            rw [Splitter.next?_eq_none_iff, Splitter.hasNext_eq, left]
            rfl
          rw [nothing] at delivered
          cases (Prod.mk.inj delivered).1
      | cons piece others =>
          obtain ⟨splitter, taken, rest, -⟩ := Splitter.next?_of_pieces left
          rw [taken] at delivered
          obtain ⟨-, rfl⟩ := Prod.mk.inj delivered
          rw [Cursor.budget, Cursor.budget, Table.get_set_self, rest, left]
          exact Nat.lt_succ_self _
  | combined switch first second front back =>
      rcases asked : (Cursor.combined switch first second).hasNext store with ⟨_ | _, middle⟩
      · rw [Cursor.next_of_hasNext_eq_false asked] at delivered
        cases (Prod.mk.inj delivered).1
      · have shownMiddle := shown.asked (Cursor.asked_of_hasNext asked)
        refine Nat.lt_of_lt_of_le ?_ (shown.budget_le_of_hasNext made asked)
        rw [Cursor.next_combined asked] at delivered
        rw [Cursor.budget, Cursor.budget]
        cases crossed : middle.hasCrossed switch with
        | true =>
            rw [if_pos crossed] at delivered
            have still : after.hasCrossed switch = true := by
              rw [(Cursor.confined_next made.2.2).keeps_of_eq delivered (Nat.le_refl switch),
                crossed]
            rw [if_pos still, if_pos rfl]
            exact back (fun seat member => shownMiddle seat (List.mem_append_right _ member))
              made.2.2 delivered
        | false =>
            rw [crossed, if_neg Bool.false_ne_true] at delivered
            have still : after.hasCrossed switch = false := by
              rw [(Cursor.confined_next made.2.1).keeps_of_eq delivered (Nat.le_refl switch),
                crossed]
            have consumed := first.consumed_next middle
            rw [delivered] at consumed
            rw [still, if_neg Bool.false_ne_true, if_neg Bool.false_ne_true]
            exact Nat.add_lt_add_of_lt_of_le
              (front (fun seat member => shownMiddle seat (List.mem_append_left _ member))
                made.2.1 delivered)
              (second.limit_le_of_consumed consumed)

/-- **A cursor delivers elements until it is exhausted**, and not more of them than its limit. -/
theorem exists_drains (shown : Shown cursor.seats store) (made : cursor.MadeBefore bound) :
    ∃ items after, cursor.Drains store items after ∧ items.length ≤ cursor.limit store := by
  suffices within : ∃ items after, cursor.Drains store items after ∧
      items.length ≤ cursor.budget store by
    obtain ⟨items, after, drains, bounded⟩ := within
    exact ⟨items, after, drains, Nat.le_trans bounded shown.budget_le_limit⟩
  generalize size : cursor.budget store = budget
  induction budget using Nat.strongRecOn generalizing store with
  | ind budget ih =>
      cases asked : cursor.hasNext store with
      | mk more middle =>
          cases more with
          | false => exact ⟨[], middle, .exhausted asked, Nat.zero_le _⟩
          | true =>
              obtain ⟨item, next, delivered⟩ := shown.next_of_hasNext made asked
              have fewer : cursor.budget next < budget :=
                size ▸ shown.budget_lt_of_next made delivered
              have shownNext := shown.next cursor fun _ member => member
              rw [delivered] at shownNext
              obtain ⟨items, after, drains, bounded⟩ := ih _ fewer shownNext rfl
              rw [Cursor.next_of_hasNext made asked] at delivered
              exact ⟨item :: items, after, .delivers asked delivered drains,
                Nat.lt_of_le_of_lt bounded fewer⟩

end Seat.Shown

end Collections
