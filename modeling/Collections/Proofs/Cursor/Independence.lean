import Collections.Proofs.Cursor.Assembly
import Collections.Proofs.Cursor.Standing
import Mathlib.Data.List.Nodup

/-!
# Cursors that do not share anything

The state of a cursor is known under handles: of the places of its parts, of the splits that they go
through, and of its combinations (`Cursor.handles`). What is asked of the cursor changes nothing but
this state (`Store.Touches`), and what the cursor still has to deliver depends on nothing else but
the elements of the containers (`Cursor.rest_of_sameAt`).

If no handle occurs twice in a cursor, its parts do not disturb each other. Such a cursor offers a
list (`Cursor.Offers`): it says that there is a next element as long as the list has one
(`Cursor.Offers.hasNext`) and delivers the elements of the list in order
(`Cursor.Offers.next_cons`, `Cursor.Offers.next_nil`). To read it to the end gives all that is
left (`Cursor.Offers.drains`).
-/

set_option autoImplicit false

namespace Collections

variable {α : Type}

/-! ## Footprints -/

namespace Store

/-- Containers have kept their elements, and what is known under some handles has not changed. -/
structure SameAt (handles : List Handle) (before after : Store α) : Prop where
  items : ∀ source, after.items source = before.items source
  place : ∀ source, ∀ slot ∈ handles,
    (after.container source).places.get slot = (before.container source).places.get slot
  splitter : ∀ slot ∈ handles, after.splitters.get slot = before.splitters.get slot
  crossed : ∀ switch ∈ handles, after.hasCrossed switch = before.hasCrossed switch

theorem SameAt.mono {handles fewer : List Handle} {before after : Store α}
    (same : SameAt handles before after) (within : fewer ⊆ handles) : SameAt fewer before after :=
  ⟨same.items, fun source slot member => same.place source slot (within member),
    fun slot member => same.splitter slot (within member),
    fun switch member => same.crossed switch (within member)⟩

theorem Grown.sameAt {handles : List Handle} {before after : Store α} (grown : Grown before after)
    (older : ∀ handle ∈ handles, handle < before.fresh) : SameAt handles before after :=
  ⟨grown.items, fun source slot member => grown.place source slot (older slot member),
    fun slot member => grown.splitter slot (older slot member),
    fun switch member => grown.crossed switch (older switch member)⟩

/-- Nothing has changed but what is known under some handles. -/
structure Touches (handles : List Handle) (before after : Store α) : Prop where
  elsewhere : ∀ {others : List Handle}, others.Disjoint handles → SameAt others before after
  fresh : after.fresh = before.fresh

namespace Touches

variable {handles more : List Handle} {before middle after : Store α}

theorem items (touches : Touches handles before after) (source : Handle) :
    after.items source = before.items source :=
  (touches.elsewhere (List.disjoint_nil_left handles)).items source

theorem refl (handles : List Handle) (store : Store α) : Touches handles store store :=
  ⟨fun _ => ⟨fun _ => rfl, fun _ _ _ => rfl, fun _ _ => rfl, fun _ _ => rfl⟩, rfl⟩

theorem trans (first : Touches handles before middle) (second : Touches handles middle after) :
    Touches handles before after where
  elsewhere apart := by
    have one := first.elsewhere apart
    have two := second.elsewhere apart
    exact ⟨fun source => (two.items source).trans (one.items source),
      fun source slot member => (two.place source slot member).trans (one.place source slot member),
      fun slot member => (two.splitter slot member).trans (one.splitter slot member),
      fun switch member => (two.crossed switch member).trans (one.crossed switch member)⟩
  fresh := second.fresh.trans first.fresh

theorem mono (touches : Touches handles before after) (within : handles ⊆ more) :
    Touches more before after :=
  ⟨fun apart => touches.elsewhere (List.disjoint_of_subset_right within apart), touches.fresh⟩

theorem cross (store : Store α) (switch : Handle) :
    Touches [switch] store (store.cross switch) where
  elsewhere apart := by
    refine ⟨fun _ => rfl, fun _ _ _ => rfl, fun _ _ => rfl, ?_⟩
    intro other member
    rw [hasCrossed_cross, if_neg fun same => apart member (List.mem_singleton.mpr same)]
  fresh := rfl

theorem of_movedAt {source slot : Handle} (moved : MovedAt source slot before after) :
    Touches [slot] before after where
  elsewhere apart :=
    ⟨moved.items,
      fun other position member => moved.place other position fun same =>
        apart member (List.mem_singleton.mpr same.2),
      fun slot _ => congrArg (fun table => table.get slot) moved.splitters,
      fun switch _ => congrArg (fun table => table.get switch) moved.crossed⟩
  fresh := moved.fresh

theorem setSplitter (store : Store α) (slot : Handle) (splitter : Splitter) :
    Touches [slot] store { store with splitters := store.splitters.set slot splitter } where
  elsewhere apart := by
    refine ⟨fun _ => rfl, fun _ _ _ => rfl, ?_, fun _ _ => rfl⟩
    intro other member
    exact Table.get_set_of_ne _ _ fun same => apart member (List.mem_singleton.mpr same)
  fresh := rfl

end Touches

end Store

namespace Seat

variable {seat : Seat} {before after : Store α} {zipper : Zipper α}

theorem ahead_of_sameAt (same : Store.SameAt [seat.slot] before after) :
    seat.ahead after = seat.ahead before := by
  rw [ahead, ahead, same.items, same.place _ _ (List.mem_singleton_self _)]

theorem Shows.of_sameAt (shows : seat.Shows before zipper)
    (same : Store.SameAt [seat.slot] before after) : seat.Shows after zipper :=
  Zipper.Describes.congr shows (same.items _) (same.place _ _ (List.mem_singleton_self _))

theorem length_ahead_le (seat : Seat) (store : Store α) :
    (seat.ahead store).length ≤ (store.items seat.source).length := by
  rw [ahead]
  split
  · rw [List.length_reverse]
    exact List.length_take_le' _ _
  · rw [List.length_drop]
    exact Nat.sub_le _ _

end Seat

namespace Cursor

/-- The handles under which the state of a cursor is known. -/
def handles : Cursor α → List Handle
  | direct _ slot => [slot]
  | ofList cursor => [cursor.seat.slot]
  | pieces slot _ => [slot]
  | empty => []
  | combined switch first second => switch :: (first.handles ++ second.handles)
  | readOnly _ source => source.handles

/-- What a cursor has not delivered yet. -/
def rest : Cursor α → Store α → List α
  | direct source slot, store => Seat.ahead ⟨source, slot, false⟩ store
  | ofList cursor, store => cursor.seat.ahead store
  | pieces slot read, store => (store.splitters.get slot).pieces.map read
  | empty, _ => []
  | combined switch first second, store =>
      if store.hasCrossed switch then second.rest store else first.rest store ++ second.rest store
  | readOnly _ source, store => source.rest store

variable {cursor : Cursor α} {before after store : Store α} {bound : Handle}

/-- The handle and the rest of a part that sits somewhere. -/
theorem rest_of_seat? {part : Cursor α} {seat : Seat} (sits : part.seat? = some seat)
    (store : Store α) : part.handles = [seat.slot] ∧ part.rest store = seat.ahead store := by
  cases part with
  | direct source slot | ofList cursor =>
      obtain rfl := Option.some.inj sits
      exact ⟨rfl, rfl⟩
  | pieces | empty | combined | readOnly => cases sits

theorem slot_mem_handles {seat : Seat} (member : seat ∈ cursor.seats) :
    seat.slot ∈ cursor.handles := by
  induction cursor with
  | direct source slot | ofList cursor =>
      obtain rfl := List.mem_singleton.mp member
      exact List.mem_singleton_self _
  | pieces | empty => cases member
  | readOnly view source ih => exact ih member
  | combined switch first second front back =>
      refine List.mem_cons_of_mem _ (List.mem_append.mpr ?_)
      exact (List.mem_append.mp member).imp front back

/-- **What a cursor has to deliver depends on its own state** and on the containers. -/
theorem rest_of_sameAt (same : Store.SameAt cursor.handles before after) :
    cursor.rest after = cursor.rest before := by
  induction cursor with
  | direct | ofList => exact Seat.ahead_of_sameAt same
  | pieces slot read => rw [rest, rest, same.splitter slot (List.mem_singleton_self slot)]
  | empty => rfl
  | readOnly view source ih => exact ih same
  | combined switch first second front back =>
      have inFront := front (same.mono (List.subset_cons_of_subset _ (List.subset_append_left _ _)))
      have inBack := back (same.mono (List.subset_cons_of_subset _ (List.subset_append_right _ _)))
      rw [rest, rest, same.crossed switch List.mem_cons_self, inFront, inBack]

theorem length_rest_le (cursor : Cursor α) (store : Store α) :
    (cursor.rest store).length ≤ cursor.limit store := by
  induction cursor with
  | direct source slot => exact Seat.length_ahead_le _ store
  | ofList cursor =>
      rw [limit, cursor.container_eq]
      exact Seat.length_ahead_le _ store
  | pieces slot read =>
      rw [rest, List.length_map]
      exact Splitter.length_pieces_le _
  | empty => exact Nat.le_refl 0
  | readOnly view source ih => exact ih
  | combined switch first second front back =>
      rw [rest, limit]
      split
      · exact Nat.le_trans back (Nat.le_add_left _ _)
      · rw [List.length_append]
        exact Nat.add_le_add front back

/-! ## Offering a list -/

/-- A cursor whose parts share nothing has a list to deliver. -/
structure Offers (cursor : Cursor α) (bound : Handle) (store : Store α) (items : List α) :
    Prop where
  distinct : cursor.handles.Nodup
  made : cursor.MadeBefore bound
  shown : Seat.Shown cursor.seats store
  rest : cursor.rest store = items

namespace Offers

variable {items : List α} {item : α}

theorem mono {larger : Handle} (offers : cursor.Offers bound store items)
    (smaller : bound ≤ larger) : cursor.Offers larger store items :=
  ⟨offers.distinct, offers.made.mono smaller, offers.shown, offers.rest⟩

/-- What happens elsewhere does not concern a cursor. -/
theorem of_sameAt (offers : cursor.Offers bound before items)
    (same : Store.SameAt cursor.handles before after) : cursor.Offers bound after items where
  distinct := offers.distinct
  made := offers.made
  shown seat member := by
    obtain ⟨zipper, shows⟩ := offers.shown seat member
    have own : [seat.slot] ⊆ cursor.handles := fun handle here =>
      List.mem_singleton.mp here ▸ slot_mem_handles member
    exact ⟨zipper, shows.of_sameAt (same.mono own)⟩
  rest := (rest_of_sameAt same).trans offers.rest

/-- A combination offers what is left of its first part and then the second part, or, if it has gone
over, what is left of the second. -/
theorem combined_iff {switch : Handle} {first second : Cursor α} :
    (combined switch first second).Offers bound store items ↔
      (switch :: (first.handles ++ second.handles)).Nodup ∧ switch < bound ∧
        ∃ front back, first.Offers switch store front ∧ second.Offers switch store back ∧
          items = if store.hasCrossed switch then back else front ++ back := by
  constructor
  · rintro ⟨distinct, ⟨older, firstMade, secondMade⟩, shown, rfl⟩
    obtain ⟨-, parts⟩ := List.nodup_cons.mp distinct
    obtain ⟨distinctFront, distinctBack, -⟩ := List.nodup_append.mp parts
    have shownFront : Seat.Shown first.seats store :=
      fun seat member => shown seat (List.mem_append_left _ member)
    have shownBack : Seat.Shown second.seats store :=
      fun seat member => shown seat (List.mem_append_right _ member)
    exact ⟨distinct, older, first.rest store, second.rest store,
      ⟨distinctFront, firstMade, shownFront, rfl⟩, ⟨distinctBack, secondMade, shownBack, rfl⟩, rfl⟩
  · rintro ⟨distinct, older, front, back, offersFront, offersBack, rfl⟩
    refine ⟨distinct, ⟨older, offersFront.made, offersBack.made⟩, ?_, ?_⟩
    · intro seat member
      exact (List.mem_append.mp member).elim (offersFront.shown seat) (offersBack.shown seat)
    · rw [Cursor.rest, offersFront.rest, offersBack.rest]

/-! ### The parts of a combination -/

section Parts

variable {switch : Handle} {first second : Cursor α} {inFront inBack : List α}
  (distinct : (switch :: (first.handles ++ second.handles)).Nodup)
include distinct

/-- What happens in the first part leaves the second one and the switch alone. -/
theorem back_of_touches (offers : second.Offers switch before inBack)
    (touches : Store.Touches first.handles before after) :
    second.Offers switch after inBack ∧ after.hasCrossed switch = before.hasCrossed switch ∧
      Store.Touches (combined switch first second).handles before after := by
  obtain ⟨alone, parts⟩ := List.nodup_cons.mp distinct
  have elsewhere : [switch].Disjoint first.handles := fun handle here there =>
    alone (List.mem_append_left _ (List.mem_singleton.mp here ▸ there))
  have apart : second.handles.Disjoint first.handles := fun _ inSecond inFirst =>
    List.disjoint_of_nodup_append parts inFirst inSecond
  refine ⟨offers.of_sameAt (touches.elsewhere apart),
    (touches.elsewhere elsewhere).crossed switch (List.mem_singleton_self switch),
    touches.mono ?_⟩
  exact List.subset_cons_of_subset _ (List.subset_append_left _ _)

/-- What happens in the second part leaves the first one and the switch alone. -/
theorem front_of_touches (offers : first.Offers switch before inFront)
    (touches : Store.Touches second.handles before after) :
    first.Offers switch after inFront ∧ after.hasCrossed switch = before.hasCrossed switch ∧
      Store.Touches (combined switch first second).handles before after := by
  obtain ⟨alone, parts⟩ := List.nodup_cons.mp distinct
  have elsewhere : [switch].Disjoint second.handles := fun handle here there =>
    alone (List.mem_append_right _ (List.mem_singleton.mp here ▸ there))
  have apart : first.handles.Disjoint second.handles := List.disjoint_of_nodup_append parts
  refine ⟨offers.of_sameAt (touches.elsewhere apart),
    (touches.elsewhere elsewhere).crossed switch (List.mem_singleton_self switch),
    touches.mono ?_⟩
  exact List.subset_cons_of_subset _ (List.subset_append_right _ _)

/-- To go over changes neither part. -/
theorem parts_of_cross (offersFront : first.Offers switch before inFront)
    (offersBack : second.Offers switch before inBack) :
    first.Offers switch (before.cross switch) inFront ∧
      second.Offers switch (before.cross switch) inBack ∧
      Store.Touches (combined switch first second).handles before (before.cross switch) := by
  obtain ⟨alone, -⟩ := List.nodup_cons.mp distinct
  have touches := Store.Touches.cross before switch
  have notFront : first.handles.Disjoint [switch] := fun handle there here =>
    alone (List.mem_append_left _ (List.mem_singleton.mp here ▸ there))
  have notBack : second.handles.Disjoint [switch] := fun handle there here =>
    alone (List.mem_append_right _ (List.mem_singleton.mp here ▸ there))
  refine ⟨offersFront.of_sameAt (touches.elsewhere notFront),
    offersBack.of_sameAt (touches.elsewhere notBack), touches.mono ?_⟩
  intro handle here
  exact List.mem_singleton.mp here ▸ List.mem_cons_self

end Parts

/-! ### Asking -/

theorem hasNext_of_seat? {part : Cursor α} {seat : Seat} (offers : part.Offers bound store items)
    (sits : part.seat? = some seat) :
    ∃ after, part.hasNext store = (!items.isEmpty, after) ∧ part.Offers bound after items ∧
      Store.Touches part.handles store after := by
  have member : seat ∈ part.seats := seats_of_seat? sits ▸ List.mem_singleton_self seat
  refine ⟨store, ?_, offers, .refl _ _⟩
  rw [offers.shown.hasNext member sits, ← (rest_of_seat? sits store).2, offers.rest]

/-- **A cursor says that there is a next element as long as its list has one.** -/
theorem hasNext (offers : cursor.Offers bound store items) :
    ∃ after, cursor.hasNext store = (!items.isEmpty, after) ∧ cursor.Offers bound after items ∧
      Store.Touches cursor.handles store after := by
  induction cursor generalizing bound store items with
  | direct | ofList => exact offers.hasNext_of_seat? rfl
  | pieces slot read =>
      refine ⟨store, ?_, offers, .refl _ _⟩
      rw [Cursor.hasNext, Splitter.hasNext_eq, ← offers.rest, Cursor.rest, List.isEmpty_map]
  | empty =>
      obtain rfl : [] = items := offers.rest
      exact ⟨store, rfl, offers, .refl _ _⟩
  | readOnly view source ih =>
      obtain ⟨after, asked, still, touches⟩ := ih ⟨offers.distinct, offers.made, offers.shown,
        offers.rest⟩
      exact ⟨after, asked, ⟨still.distinct, still.made, still.shown, still.rest⟩, touches⟩
  | combined switch first second front back =>
      obtain ⟨distinct, older, inFront, inBack, offersFront, offersBack, rfl⟩ :=
        combined_iff.mp offers
      rw [Cursor.hasNext]
      cases crossed : store.hasCrossed switch with
      | true =>
          obtain ⟨after, asked, askedBack, touches⟩ := back offersBack
          obtain ⟨leftFront, same, whole⟩ := front_of_touches distinct offersFront touches
          refine ⟨after, asked, combined_iff.mpr ⟨distinct, older, inFront, inBack, leftFront,
            askedBack, ?_⟩, whole⟩
          rw [same, crossed]
      | false =>
          obtain ⟨between, asked, askedFront, touches⟩ := front offersFront
          obtain ⟨leftBack, same, whole⟩ := back_of_touches distinct offersBack touches
          simp only [asked, Bool.false_eq_true, if_false]
          cases inFront with
          | cons item rest =>
              refine ⟨between, rfl, combined_iff.mpr ⟨distinct, older, item :: rest, inBack,
                askedFront, leftBack, ?_⟩, whole⟩
              rw [same, crossed]
              rfl
          | nil =>
              -- The first part is exhausted: the combination goes over and asks the second part.
              obtain ⟨overFront, overBack, crossing⟩ := parts_of_cross distinct askedFront leftBack
              obtain ⟨after, askedOver, still, last⟩ := back overBack
              obtain ⟨leftFront, sameOver, wholeOver⟩ := front_of_touches distinct overFront last
              refine ⟨after, askedOver, combined_iff.mpr ⟨distinct, older, [], inBack, leftFront,
                still, ?_⟩, (whole.trans crossing).trans wholeOver⟩
              split <;> rfl

/-! ### Delivering -/

theorem next_of_seat? {part : Cursor α} {seat : Seat}
    (offers : part.Offers bound store (item :: items)) (sits : part.seat? = some seat) :
    ∃ after, part.next store = (.ok item, after) ∧ part.Offers bound after items ∧
      Store.Touches part.handles store after := by
  have only := seats_of_seat? sits
  obtain ⟨handles, rest⟩ := rest_of_seat? sits store
  obtain ⟨⟨behind, ahead, current⟩, shows⟩ :=
    offers.shown seat (only ▸ List.mem_singleton_self seat)
  obtain rfl : ahead = item :: items := by
    rw [← offers.rest, rest, shows.ahead_eq]
  obtain ⟨after, delivered, showsAfter, moved⟩ := shows.next sits
  refine ⟨after, delivered, ⟨offers.distinct, offers.made, ?_, ?_⟩, ?_⟩
  · intro other member
    rw [only] at member
    obtain rfl := List.mem_singleton.mp member
    exact ⟨_, showsAfter⟩
  · rw [(rest_of_seat? sits after).2, showsAfter.ahead_eq]
  · rw [handles]
    exact .of_movedAt moved

/-- **A cursor delivers the first element of its list**, and offers the others. -/
theorem next_cons (offers : cursor.Offers bound store (item :: items)) :
    ∃ after, cursor.next store = (.ok item, after) ∧ cursor.Offers bound after items ∧
      Store.Touches cursor.handles store after := by
  induction cursor generalizing bound store items with
  | direct | ofList => exact offers.next_of_seat? rfl
  | pieces slot read =>
      obtain ⟨piece, others, left, rfl, rfl⟩ := List.map_eq_cons_iff.mp offers.rest
      obtain ⟨splitter, taken, rest, -⟩ := Splitter.next?_of_pieces left
      refine ⟨{ store with splitters := store.splitters.set slot splitter }, ?_,
        ⟨offers.distinct, offers.made, fun _ none => absurd none List.not_mem_nil, ?_⟩,
        .setSplitter store slot splitter⟩
      · rw [Cursor.next, taken]
      · rw [Cursor.rest, Table.get_set_self, rest]
  | empty => cases offers.rest
  | readOnly view source ih =>
      obtain ⟨after, taken, still, touches⟩ := ih ⟨offers.distinct, offers.made, offers.shown,
        offers.rest⟩
      exact ⟨after, taken, ⟨still.distinct, still.made, still.shown, still.rest⟩, touches⟩
  | combined switch first second front back =>
      obtain ⟨between, asked, offersBetween, touches⟩ := offers.hasNext
      rw [next_combined asked]
      obtain ⟨distinct, older, inFront, inBack, offersFront, offersBack, split⟩ :=
        combined_iff.mp offersBetween
      cases crossed : between.hasCrossed switch with
      | true =>
          rw [crossed, if_pos rfl] at split
          obtain ⟨after, taken, still, last⟩ := back (split ▸ offersBack)
          obtain ⟨leftFront, same, whole⟩ := front_of_touches distinct offersFront last
          refine ⟨after, taken, combined_iff.mpr ⟨distinct, older, inFront, items, leftFront, still,
            ?_⟩, touches.trans whole⟩
          rw [same, crossed, if_pos rfl]
      | false =>
          rw [crossed, if_neg Bool.false_ne_true] at split
          cases inFront with
          | nil =>
              -- A combination that has not gone over has an element in its first part.
              obtain ⟨after, denied, -⟩ := offersFront.hasNext
              have again := hasNext_again offers.made asked
              obtain ⟨before, -⟩ | ⟨-, -, -, inFirst⟩ | ⟨-, gone, -⟩ :=
                cases_hasNext_of_made offers.made again
              · rw [crossed] at before
                cases before
              · rw [denied] at inFirst
                cases (Prod.mk.inj inFirst).1
              · rw [crossed] at gone
                cases gone
          | cons other rest =>
              obtain ⟨rfl, rfl⟩ := List.cons.inj split
              obtain ⟨after, taken, still, last⟩ := front offersFront
              obtain ⟨leftBack, same, whole⟩ := back_of_touches distinct offersBack last
              refine ⟨after, taken, combined_iff.mpr ⟨distinct, older, rest, inBack, still,
                leftBack, ?_⟩, touches.trans whole⟩
              rw [same, crossed, if_neg Bool.false_ne_true]
              rfl

/-- A cursor whose list is empty is past its end, and stays there. -/
theorem next_nil (offers : cursor.Offers bound store []) :
    ∃ after, cursor.next store = (.error .pastEnd, after) ∧ cursor.Offers bound after [] ∧
      Store.Touches cursor.handles store after := by
  obtain ⟨after, asked, still, touches⟩ := offers.hasNext
  exact ⟨after, next_of_hasNext_eq_false asked, still, touches⟩

/-- **A cursor drains into its list.** -/
theorem drains (offers : cursor.Offers bound store items) :
    ∃ after, cursor.Drains store items after ∧ cursor.Offers bound after [] ∧
      Store.Touches cursor.handles store after := by
  induction items generalizing store with
  | nil =>
      obtain ⟨after, asked, still, touches⟩ := offers.hasNext
      exact ⟨after, .exhausted asked, still, touches⟩
  | cons item rest ih =>
      obtain ⟨between, asked, ready, touches⟩ := offers.hasNext
      obtain ⟨next, taken, left, moved⟩ := ready.next_cons
      obtain ⟨after, drained, still, last⟩ := ih left
      exact ⟨after, .delivers asked taken drained, still, (touches.trans moved).trans last⟩

theorem length_le_limit (offers : cursor.Offers bound store items) :
    items.length ≤ cursor.limit store :=
  offers.rest ▸ cursor.length_rest_le store

end Offers

end Cursor

end Collections
