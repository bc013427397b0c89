import Collections.Proofs.Cursor.Requests
import Collections.Proofs.Cursor.Reversal

/-!
# Seats

The one-way cursor of a container, a list cursor and a reversed view have this in common: each sits
at a place of a container and goes through the container one way (`Seat`). Whether there is a next
element, what it is and what becomes of the place depends on the seat alone
(`Cursor.hasNext_of_seat?`, `Cursor.next_of_seat?`).

What a seat has in front of it and behind it is a zipper (`Seat.Shows`). There is a next element if
the zipper has something ahead, to deliver it is to step across the gap (`Seat.Shows.next`), and the
element that was delivered last can be removed once (`Seat.Shows.remove`,
`Seat.Shows.remove_of_current_eq_none`). The place of a one-way cursor is put where the removed
element stood and that of a list cursor is shifted, but at a place that a zipper describes this
comes to the same (`Zipper.Describes.removeCurrent?_eq`).

A delivery moves a single place (`Store.MovedAt`) and a removal changes a single container
(`Store.ChangedAt`). What other seats show stays as it is (`Seat.Shows.of_movedAt`,
`Seat.Shows.of_changedAt`).
-/

set_option autoImplicit false

namespace Collections

variable {α : Type}

/-! ## What an operation leaves alone -/

namespace Store

/-- Nothing has changed but one place of one container. -/
structure MovedAt (source slot : Handle) (before after : Store α) : Prop where
  items : ∀ other, after.items other = before.items other
  place : ∀ other position, ¬ (other = source ∧ position = slot) →
    (after.container other).places.get position = (before.container other).places.get position
  splitters : after.splitters = before.splitters
  crossed : after.crossed = before.crossed
  fresh : after.fresh = before.fresh

/-- Nothing has changed but one container with its places. -/
structure ChangedAt (source : Handle) (before after : Store α) : Prop where
  container : ∀ other, other ≠ source → after.container other = before.container other
  splitters : after.splitters = before.splitters
  crossed : after.crossed = before.crossed
  fresh : after.fresh = before.fresh

theorem changedAt_put (store : Store α) (source : Handle) (container : Container α) :
    ChangedAt source store (store.put source container) :=
  ⟨fun _ differ => store.container_put_of_ne container differ, rfl, rfl, rfl⟩

/-- A container may be replaced by one that differs from it in a place. -/
theorem movedAt_put {store : Store α} {source slot : Handle} {container : Container α}
    (items : container.items = (store.container source).items)
    (places : ∀ position, position ≠ slot →
      container.places.get position = (store.container source).places.get position) :
    MovedAt source slot store (store.put source container) := by
  refine ⟨?_, ?_, rfl, rfl, rfl⟩
  · intro other
    by_cases here : other = source
    · subst here
      rw [Store.items, container_put_self, items]
      rfl
    · rw [Store.items, container_put_of_ne store container here]
      rfl
  · intro other position apart
    by_cases here : other = source
    · subst here
      rw [container_put_self]
      exact places position fun same => apart ⟨rfl, same⟩
    · rw [container_put_of_ne store container here]

end Store

/-- A step moves the place that it is made at, and nothing else. -/
theorem Container.of_step? {container after : Container α} {slot : Nat} {direction : Direction}
    {item : α} (stepped : container.step? slot direction = some (item, after)) :
    after.items = container.items ∧
      ∀ position, position ≠ slot → after.places.get position = container.places.get position := by
  simp only [step?, Option.bind_eq_bind, Option.bind_eq_some_iff, pure, Option.some.injEq,
    Prod.mk.injEq] at stepped
  obtain ⟨position, -, item, -, -, rfl⟩ := stepped
  exact ⟨rfl, fun other apart => Table.get_set_of_ne _ _ apart⟩

/-! ## Seats -/

/-- Where something sits that goes through a container. -/
structure Seat where
  source : Handle
  slot : Handle
  /-- Whether it goes from the end to the start. -/
  isView : Bool := false
  deriving DecidableEq, Repr

/-- The direction in the container that corresponds to a direction from the seat. -/
def Seat.facing (seat : Seat) (direction : Direction) : Direction :=
  if seat.isView then direction.opposite else direction

namespace ListCursor

def seat : ListCursor → Seat
  | direct source slot => ⟨source, slot, false⟩
  | reversed _ source => { source.seat with isView := !source.seat.isView }

theorem facing_seat_reversed (view : Handle) (source : ListCursor) (direction : Direction) :
    (reversed view source).seat.facing direction = source.seat.facing direction.opposite := by
  rw [seat]
  rcases source.seat with ⟨_, _, _ | _⟩
  · rfl
  · exact (Direction.opposite_opposite direction).symm

theorem hasStep_eq (cursor : ListCursor) (direction : Direction) (store : Store α) :
    cursor.hasStep direction store =
      (store.container cursor.seat.source).hasStep cursor.seat.slot
        (cursor.seat.facing direction) := by
  induction cursor generalizing direction with
  | direct source slot => rfl
  | reversed view source ih =>
      rw [facing_seat_reversed]
      exact ih direction.opposite

/-- A list cursor steps as its seat does, and fails at the end that it walks to. -/
theorem step_eq (cursor : ListCursor) (direction : Direction) (store : Store α) :
    cursor.step direction store =
      match (store.container cursor.seat.source).step? cursor.seat.slot
          (cursor.seat.facing direction) with
      | some (item, container) => (.ok item, store.put cursor.seat.source container)
      | none => (.error (pastError direction), store) := by
  induction cursor generalizing direction with
  | direct source slot => rfl
  | reversed view source ih =>
      rw [facing_seat_reversed, step, ih direction.opposite]
      simp only [seat]
      cases (store.container source.seat.source).step? source.seat.slot
          (source.seat.facing direction.opposite) with
      | some result => rfl
      | none => cases direction <;> rfl

theorem remove_eq (cursor : ListCursor) (store : Store α) :
    cursor.remove store =
      match (store.container cursor.seat.source).removeIndexed? cursor.seat.slot with
      | some container => (.ok (), store.put cursor.seat.source container)
      | none => (.error .noCurrent, store) := by
  induction cursor with
  | direct source slot => rfl
  | reversed view source ih => exact ih

end ListCursor

namespace Cursor

/-- Where a cursor sits, if it goes through a container itself. -/
def seat? : Cursor α → Option Seat
  | direct source slot => some ⟨source, slot, false⟩
  | ofList cursor => some cursor.seat
  | _ => none

/-- Where the parts of a cursor sit, from left to right. -/
def seats : Cursor α → List Seat
  | combined _ first second => first.seats ++ second.seats
  | readOnly _ source => source.seats
  | part => part.seat?.toList

variable {part : Cursor α} {seat : Seat}

theorem seats_of_seat? (sits : part.seat? = some seat) : part.seats = [seat] := by
  cases part with
  | direct source slot | ofList cursor =>
      obtain rfl := Option.some.inj sits
      rfl
  | pieces | empty | combined | readOnly => cases sits

/-- What a seat is asked is whether a step forward would deliver an element. -/
theorem hasNext_of_seat? (sits : part.seat? = some seat) (store : Store α) :
    part.hasNext store =
      ((store.container seat.source).hasStep seat.slot (seat.facing .forward), store) := by
  cases part with
  | direct source slot =>
      obtain rfl := Option.some.inj sits
      rfl
  | ofList cursor =>
      obtain rfl := Option.some.inj sits
      exact congrArg (·, store) (cursor.hasStep_eq .forward store)
  | pieces | empty | combined | readOnly => cases sits

theorem next_of_seat? (sits : part.seat? = some seat) (store : Store α) :
    part.next store =
      match (store.container seat.source).step? seat.slot (seat.facing .forward) with
      | some (item, container) => (.ok item, store.put seat.source container)
      | none => (.error .pastEnd, store) := by
  cases part with
  | direct source slot =>
      obtain rfl := Option.some.inj sits
      rfl
  | ofList cursor =>
      obtain rfl := Option.some.inj sits
      exact cursor.step_eq .forward store
  | pieces | empty | combined | readOnly => cases sits

end Cursor

/-! ## What a seat shows -/

/-- At a place that a zipper describes, both ways to remove come to the same. -/
theorem Zipper.Describes.removeCurrent?_eq {zipper : Zipper α} {container : Container α}
    {slot : Nat} (describes : zipper.Describes container slot) :
    container.removeCurrent? slot = container.removeIndexed? slot := by
  rw [Container.removeCurrent?, Container.removeIndexed?, describes.current?_eq]
  have sound := describes.sound
  obtain ⟨behind, ahead, _ | _ | _⟩ := zipper
  · rfl
  · -- The element stands just behind the gap, which moves to where it stood.
    have next : (container.places.get slot).next = behind.length := describes.next
    have some : 0 < behind.length := List.length_pos_iff.mpr sound
    have shifted : Place.shiftDown (behind.length - 1) (container.places.get slot).next =
        behind.length - 1 := by
      rw [Place.shiftDown, next, if_pos (Nat.sub_lt some Nat.one_pos)]
    simp only [currentIndex?, Option.map_some, Option.bind_eq_bind, Option.bind_some, shifted]
  · -- The element stands just ahead of the gap, which stays.
    have next : (container.places.get slot).next = behind.length := describes.next
    have shifted : Place.shiftDown behind.length (container.places.get slot).next =
        behind.length := by
      rw [Place.shiftDown, next, if_neg (Nat.lt_irrefl _)]
    simp only [currentIndex?, Option.map_some, Option.bind_eq_bind, Option.bind_some, shifted]

/-- A description holds of every container with the same elements and the same place. -/
theorem Zipper.Describes.congr {zipper : Zipper α} {container other : Container α} {slot : Nat}
    (describes : zipper.Describes container slot) (items : other.items = container.items)
    (place : other.places.get slot = container.places.get slot) : zipper.Describes other slot where
  items := items.trans describes.items
  next := place ▸ describes.next
  last := place ▸ describes.last
  sound := describes.sound

/-- A zipper tells what lies behind a seat and ahead of it, as it is seen from there. -/
def Seat.Shows (seat : Seat) (store : Store α) (zipper : Zipper α) : Prop :=
  (zipper.straight seat.isView).Describes (store.container seat.source) seat.slot

/-- The elements in front of a seat, in the order in which it comes to them. -/
def Seat.ahead (seat : Seat) (store : Store α) : List α :=
  let gap := ((store.container seat.source).places.get seat.slot).next
  if seat.isView then ((store.items seat.source).take gap).reverse
  else (store.items seat.source).drop gap

namespace Seat.Shows

variable {part : Cursor α} {seat : Seat} {store after : Store α} {zipper : Zipper α} {item : α}
  {behind ahead : List α} {current : Option Direction} {source slot : Handle}

/-- The elements of the container, as they are seen from the seat. -/
theorem items_eq (shows : seat.Shows store zipper) :
    store.items seat.source = (zipper.straight seat.isView).items :=
  shows.items

theorem length_eq (shows : seat.Shows store zipper) :
    (store.items seat.source).length = zipper.behind.length + zipper.ahead.length := by
  have whole := Zipper.Describes.length_eq shows
  rw [Store.items, whole, Zipper.straight]
  split
  · exact Nat.add_comm _ _
  · rfl

theorem ahead_eq (shows : seat.Shows store zipper) : seat.ahead store = zipper.ahead := by
  obtain ⟨source, slot, isView⟩ := seat
  have items : store.items source = _ := shows.items
  have gap := Zipper.Describes.next shows
  rw [ahead, gap, items]
  cases isView with
  | false => exact List.drop_left' List.length_reverse
  | true =>
      have front : (zipper.turned.items.take zipper.ahead.length) = zipper.ahead.reverse :=
        List.take_left' List.length_reverse
      exact (congrArg List.reverse front).trans (List.reverse_reverse _)

/-! ### Other seats -/

/-- What happens at another place does not show. -/
theorem of_movedAt (shows : seat.Shows store zipper) (moved : Store.MovedAt source slot store after)
    (apart : ¬ (seat.source = source ∧ seat.slot = slot)) : seat.Shows after zipper :=
  Zipper.Describes.congr shows (moved.items seat.source) (moved.place _ _ apart)

/-- What happens to another container does not show. -/
theorem of_changedAt (shows : seat.Shows store zipper)
    (changed : Store.ChangedAt source store after) (apart : seat.source ≠ source) :
    seat.Shows after zipper := by
  rw [Seat.Shows, changed.container seat.source apart]
  exact shows

/-! ### Reading -/

theorem hasStep (shows : seat.Shows store zipper) :
    (store.container seat.source).hasStep seat.slot (seat.facing .forward) =
      !zipper.ahead.isEmpty := by
  obtain ⟨source, slot, isView⟩ := seat
  cases isView with
  | false => exact Zipper.Describes.hasStep_forward shows
  | true => exact Zipper.Describes.hasStep_backward shows

theorem hasNext (shows : seat.Shows store zipper) (sits : part.seat? = some seat) :
    part.hasNext store = (!zipper.ahead.isEmpty, store) := by
  rw [Cursor.hasNext_of_seat? sits, shows.hasStep]

/-- **To deliver the next element is to step across the gap.** -/
theorem next (shows : seat.Shows store ⟨behind, item :: ahead, current⟩)
    (sits : part.seat? = some seat) :
    ∃ after, part.next store = (.ok item, after) ∧
      seat.Shows after ⟨item :: behind, ahead, some .forward⟩ ∧
      Store.MovedAt seat.source seat.slot store after := by
  have stepped : ∃ container, (store.container seat.source).step? seat.slot
      (seat.facing .forward) = some (item, container) ∧
        (Zipper.straight seat.isView ⟨item :: behind, ahead, some .forward⟩).Describes container
          seat.slot := by
    obtain ⟨source, slot, isView⟩ := seat
    cases isView with
    | false => exact Zipper.Describes.step_forward shows
    | true => exact Zipper.Describes.step_backward shows
  obtain ⟨container, stepped, described⟩ := stepped
  obtain ⟨items, places⟩ := Container.of_step? stepped
  refine ⟨store.put seat.source container, ?_, ?_, Store.movedAt_put items places⟩
  · rw [Cursor.next_of_seat? sits, stepped]
  · rw [Seat.Shows, Store.container_put_self]
    exact described

/-! ### Removing -/

theorem remove_eq (shows : seat.Shows store zipper) (sits : part.seat? = some seat) :
    part.remove store =
      match (store.container seat.source).removeIndexed? seat.slot with
      | some container => (.ok (), store.put seat.source container)
      | none => (.error .noCurrent, store) := by
  cases part with
  | direct source slot =>
      obtain rfl := Option.some.inj sits
      rw [← Zipper.Describes.removeCurrent?_eq shows]
      rfl
  | ofList cursor =>
      obtain rfl := Option.some.inj sits
      exact cursor.remove_eq store
  | pieces | empty | combined | readOnly => cases sits

/-- **The element that was delivered last can be removed.** -/
theorem remove (shows : seat.Shows store ⟨item :: behind, ahead, some .forward⟩)
    (sits : part.seat? = some seat) :
    ∃ after, part.remove store = (.ok (), after) ∧ seat.Shows after ⟨behind, ahead, none⟩ ∧
      Store.ChangedAt seat.source store after := by
  have removed : ∃ container, (store.container seat.source).removeIndexed? seat.slot =
      some container ∧ (Zipper.straight seat.isView ⟨behind, ahead, none⟩).Describes container
        seat.slot := by
    obtain ⟨source, slot, isView⟩ := seat
    cases isView with
    | false => exact Zipper.Describes.remove_behind shows
    | true => exact Zipper.Describes.remove_ahead shows
  obtain ⟨container, removed, described⟩ := removed
  refine ⟨store.put seat.source container, ?_, ?_, Store.changedAt_put ..⟩
  · rw [shows.remove_eq sits, removed]
  · rw [Seat.Shows, Store.container_put_self]
    exact described

/-- Without such an element a removal fails. -/
theorem remove_of_current_eq_none (shows : seat.Shows store ⟨behind, ahead, none⟩)
    (sits : part.seat? = some seat) : part.remove store = (.error .noCurrent, store) := by
  have nothing : (store.container seat.source).removeIndexed? seat.slot = none := by
    rw [Container.removeIndexed?, Zipper.Describes.current?_eq shows]
    cases seat.isView <;> rfl
  rw [shows.remove_eq sits, nothing]

/-- The element that was delivered last lies behind the seat. -/
theorem exists_behind (shows : seat.Shows store ⟨behind, ahead, some .forward⟩) :
    ∃ item rest, behind = item :: rest := by
  refine List.exists_cons_of_ne_nil ?_
  obtain ⟨source, slot, isView⟩ := seat
  cases isView with
  | false => exact Zipper.Describes.sound shows
  | true => exact Zipper.Describes.sound shows

/-- A removal takes away the element that was delivered last, or there is none and it fails. -/
theorem remove_cases (shows : seat.Shows store zipper) (onward : zipper.current ≠ some .backward)
    (sits : part.seat? = some seat) :
    (∃ item behind after, zipper = ⟨item :: behind, zipper.ahead, some .forward⟩ ∧
        part.remove store = (.ok (), after) ∧ seat.Shows after ⟨behind, zipper.ahead, none⟩ ∧
          Store.ChangedAt seat.source store after) ∨
      zipper.current = none ∧ part.remove store = (.error .noCurrent, store) := by
  obtain ⟨behind, ahead, _ | _ | _⟩ := zipper
  · exact .inr ⟨rfl, shows.remove_of_current_eq_none sits⟩
  · obtain ⟨item, rest, rfl⟩ := shows.exists_behind
    obtain ⟨after, removed, showsAfter, changed⟩ := shows.remove sits
    exact .inl ⟨item, rest, after, rfl, removed, showsAfter, changed⟩
  · exact absurd rfl onward

end Seat.Shows

end Collections
