import Collections.Proofs.Cursor.Assembly
import Collections.Proofs.Cursor.Draining
import Collections.Proofs.Cursor.Standing

/-!
# Reading a list both ways

A cursor that sits at a place of a container drains into what lies ahead of its seat, and everything
lies behind it then (`Seat.Shows.drains`). A list cursor that steps in one direction as long as it can
(`ListCursor.readOut`) therefore delivers, on the way back, what it has delivered on the way there in
the opposite order, and after that what lay behind it (`ListCursor.readOut_back`).

So it makes no difference how a list is reversed: by turning round what was read from it, by asking for
its elements from the last to the first, or by turning a cursor round that stands at its end.

However list cursors are opened, reversed and used (`ListCursor.Obtained`), what comes out is a cursor
at a place or the view of one, and never the view of a view (`ListCursor.Obtained.shaped`).
-/

set_option autoImplicit false

namespace Collections

variable {α : Type}

@[simp]
theorem Seat.opposite_opposite (seat : Seat) : seat.opposite.opposite = seat := by
  rw [opposite, opposite, Bool.not_not]

/-! ## Reading to the end -/

/-- **A seat drains into what is ahead of it, and has everything behind it then.** -/
theorem Seat.Shows.drains {part : Cursor α} {seat : Seat} {store : Store α} {zipper : Zipper α}
    (shows : seat.Shows store zipper) (sits : part.seat? = some seat) :
    ∃ current after, part.Drains store zipper.ahead after ∧
      seat.Shows after ⟨zipper.ahead.reverse ++ zipper.behind, [], current⟩ ∧
      ∀ source, after.items source = store.items source := by
  obtain ⟨behind, ahead, current⟩ := zipper
  induction ahead generalizing store behind current with
  | nil => exact ⟨current, store, .exhausted (shows.hasNext sits), shows, fun _ => rfl⟩
  | cons item ahead hypothesis =>
      obtain ⟨next, delivered, further, moved⟩ := shows.next sits
      obtain ⟨last, after, drains, shown, same⟩ := hypothesis _ _ further
      refine ⟨last, after, .delivers (shows.hasNext sits) delivered drains, ?_, ?_⟩
      · simpa using shown
      · exact fun source => (same source).trans (moved.items source)

namespace Cursor

@[simp]
theorem seat?_ofList (cursor : ListCursor) : (ofList cursor : Cursor α).seat? = some cursor.seat :=
  rfl

/-- Read to its end, an opened cursor gives some elements, and no container has changed. -/
def Gives (opened : Cursor α × Store α) (items : List α) : Prop :=
  ∃ after, opened.1.toArray opened.2 = (.ok items, after) ∧
    opened.1.toArrayReversed opened.2 = (.ok items.reverse, after) ∧
    ∀ source, after.items source = opened.2.items source

theorem gives_of_shows {part : Cursor α} {seat : Seat} {store : Store α} {zipper : Zipper α}
    (shows : seat.Shows store zipper) (sits : part.seat? = some seat) :
    Gives (part, store) zipper.ahead := by
  obtain ⟨-, after, drains, -, same⟩ := shows.drains sits
  have bounded : zipper.ahead.length ≤ part.limit store := by
    rw [(budget_of_seat? sits store).2, shows.length_eq]
    exact Nat.le_add_left _ _
  exact ⟨after, drains.toArray bounded, drains.toArrayReversed bounded, same⟩

end Cursor

/-! ## Opening -/

namespace Store

/-- A one-way cursor has the whole container ahead. -/
theorem shows_cursorOver (store : Store α) (source : Handle) :
    Seat.Shows ⟨source, store.fresh, false⟩ (store.cursorOver source).2
      ⟨[], store.items source, none⟩ := by
  show Zipper.Describes _ ((Store.put _ source _).container source) _
  rw [Store.container_put_self]
  exact Zipper.describes_openPlace _ _ _ (Nat.zero_le _)

theorem shows_listCursorOver (store : Store α) (source : Handle) {start : Nat}
    (inside : start ≤ (store.items source).length) :
    (store.listCursorOver source start).1.seat.Shows (store.listCursorOver source start).2
      (.ofList (store.items source) start) :=
  Zipper.describes_listCursorOver store source inside

end Store

namespace ListCursor

variable {cursor : ListCursor} {store after : Store α} {zipper : Zipper α} {items : List α}

/-- To turn a cursor round is to look from its seat the other way. -/
theorem seat_reverse (cursor : ListCursor) (store : Store α) :
    (cursor.reverse store).1.seat = cursor.seat.opposite := by
  cases cursor with
  | direct source slot => rfl
  | reversed view source => exact source.seat.opposite_opposite.symm

theorem shows_reverse (shows : cursor.seat.Shows store zipper) :
    (cursor.reverse store).1.seat.Shows (cursor.reverse store).2 zipper.turned := by
  rw [seat_reverse]
  cases cursor <;> exact shows.turned

/-- A view looks from the seat of its source the other way. -/
theorem shows_reversed (view : Handle) (shows : cursor.seat.Shows store zipper) :
    (reversed view cursor).seat.Shows store zipper.turned :=
  shows.turned

/-! ## Reading out -/

/-- Step in a direction while there is an element, for at most a number of rounds: the elements
delivered, and the store afterwards. -/
def readWithin (cursor : ListCursor) (direction : Direction) : Nat → Store α → List α × Store α
  | 0, store => ([], store)
  | rounds + 1, store =>
      if cursor.hasStep direction store then
        match cursor.step direction store with
        | (.error _, store) => ([], store)
        | (.ok item, store) =>
            let (items, store) := readWithin cursor direction rounds store
            (item :: items, store)
      else ([], store)

/-- Step in a direction as long as there is an element. -/
def readOut (cursor : ListCursor) (direction : Direction) (store : Store α) : List α × Store α :=
  cursor.readWithin direction ((store.items cursor.container).length + 1) store

/-- Reading forward delivers the first elements of those that the cursor drains into. With rounds
enough for all of them it ends where the draining does. -/
theorem readWithin_of_drains (drains : (Cursor.ofList cursor).Drains store items after)
    (rounds : Nat) :
    (cursor.readWithin .forward rounds store).1 = items.take rounds ∧
      (items.length ≤ rounds → (cursor.readWithin .forward rounds store).2 = after) := by
  induction drains generalizing rounds with
  | @exhausted store after asked =>
      obtain ⟨nothing, rfl⟩ := Prod.mk.inj asked
      have stays : cursor.readWithin .forward rounds store = ([], store) := by
        cases rounds with
        | zero => rfl
        | succ rounds => exact if_neg (ne_true_of_eq_false nothing)
      rw [stays, List.take_nil]
      exact ⟨rfl, fun _ => rfl⟩
  | @delivers store asked next after item items more taken rest hypothesis =>
      obtain ⟨some, rfl⟩ := Prod.mk.inj more
      have step : cursor.step .forward store = (.ok item, next) := taken
      have hasStep : cursor.hasStep .forward store = true := some
      cases rounds with
      | zero => exact ⟨rfl, fun enough => absurd enough (Nat.not_succ_le_zero _)⟩
      | succ rounds =>
          obtain ⟨front, ends⟩ := hypothesis rounds
          simp only [readWithin, hasStep, step, if_pos, front]
          exact ⟨rfl, fun enough => ends (Nat.le_of_succ_le_succ enough)⟩

/-- To read backward is to read forward through a view. -/
theorem readWithin_backward (cursor : ListCursor) (view : Handle) (rounds : Nat) (store : Store α) :
    cursor.readWithin .backward rounds store =
      (reversed view cursor).readWithin .forward rounds store := by
  induction rounds generalizing store with
  | zero => rfl
  | succ rounds hypothesis =>
      have hasStep : (reversed view cursor).hasStep .forward store =
          cursor.hasStep .backward store := rfl
      rw [readWithin, readWithin, hasStep]
      rcases told : cursor.step .backward store with ⟨cause | item, next⟩
      · have step : (reversed view cursor).step .forward store = (.error cause.turned, next) := by
          rw [step, Direction.opposite, told]
        rw [step]
      · have step : (reversed view cursor).step .forward store = (.ok item, next) := by
          rw [step, Direction.opposite, told]
        simp only [step, hypothesis]

theorem length_items_container (shows : cursor.seat.Shows store zipper) :
    (store.items cursor.container).length = zipper.behind.length + zipper.ahead.length := by
  rw [container_eq, shows.length_eq]

/-- Reading forward delivers what is ahead of the seat, and leaves it behind. -/
theorem readOut_forward (shows : cursor.seat.Shows store zipper) :
    ∃ current after, cursor.readOut .forward store = (zipper.ahead, after) ∧
      cursor.seat.Shows after ⟨zipper.ahead.reverse ++ zipper.behind, [], current⟩ ∧
      ∀ source, after.items source = store.items source := by
  obtain ⟨current, after, drains, shown, same⟩ := shows.drains (Cursor.seat?_ofList cursor)
  have enough : zipper.ahead.length ≤ (store.items cursor.container).length + 1 := by
    rw [length_items_container shows]
    omega
  obtain ⟨front, ends⟩ := readWithin_of_drains drains ((store.items cursor.container).length + 1)
  rw [List.take_of_length_le enough] at front
  exact ⟨current, after, Prod.ext front (ends enough), shown, same⟩

theorem readOut_backward (shows : cursor.seat.Shows store zipper) :
    ∃ current after, cursor.readOut .backward store = (zipper.behind, after) ∧
      cursor.seat.Shows after ⟨[], zipper.behind.reverse ++ zipper.ahead, current⟩ ∧
      ∀ source, after.items source = store.items source := by
  obtain ⟨current, after, read, shown, same⟩ := readOut_forward (shows_reversed 0 shows)
  refine ⟨current.map Direction.opposite, after, ?_, ?_, same⟩
  · rw [readOut, readWithin_backward cursor 0]
    exact read
  · have back := shown.turned
    rwa [show (reversed 0 cursor).seat.opposite = cursor.seat from cursor.seat.opposite_opposite]
      at back

/-- Some rounds backward deliver the elements just behind the seat. -/
theorem fst_readWithin_backward (shows : cursor.seat.Shows store zipper) (rounds : Nat) :
    (cursor.readWithin .backward rounds store).1 = zipper.behind.take rounds := by
  obtain ⟨_, _, drains, -⟩ := (shows_reversed 0 shows).drains (Cursor.seat?_ofList _)
  rw [readWithin_backward cursor 0]
  exact (readWithin_of_drains drains rounds).1

theorem hasNext_of_shows (shows : cursor.seat.Shows store zipper) :
    cursor.hasNext store = !zipper.ahead.isEmpty :=
  congrArg Prod.fst (shows.hasNext (Cursor.seat?_ofList cursor))

theorem hasPrevious_of_shows (shows : cursor.seat.Shows store zipper) :
    cursor.hasPrevious store = !zipper.behind.isEmpty :=
  hasNext_of_shows (shows_reversed 0 shows)

/-- **On the way back comes what came on the way there, and then what lay behind.** -/
theorem readOut_back (shows : cursor.seat.Shows store zipper) :
    let there := cursor.readOut .forward store
    let back := cursor.readOut .backward there.2
    there.1 = zipper.ahead ∧ cursor.hasNext there.2 = false ∧
      (cursor.readWithin .backward there.1.length there.2).1 = there.1.reverse ∧
      back.1 = there.1.reverse ++ zipper.behind ∧ cursor.hasPrevious back.2 = false ∧
      ∀ source, back.2.items source = store.items source := by
  obtain ⟨_, middle, forward, turning, kept⟩ := readOut_forward shows
  obtain ⟨_, after, backward, arrived, same⟩ := readOut_backward turning
  simp only [forward, backward]
  refine ⟨trivial, hasNext_of_shows turning, ?_, trivial, hasPrevious_of_shows arrived, ?_⟩
  · rw [fst_readWithin_backward turning]
    exact List.take_left' List.length_reverse
  · exact fun source => (same source).trans (kept source)

/-! ## Every way to obtain a list cursor -/

/-- A list cursor in the store that it was obtained in, or that it has been used in since. -/
inductive Obtained : ListCursor → Store α → Prop where
  /-- Opened in front of a position. -/
  | opened (store : Store α) (source : Handle) {start : Nat}
      (inside : start ≤ (store.items source).length) :
      Obtained (store.listCursorOver source start).1 (store.listCursorOver source start).2
  /-- Opened by the sequence of the elements of a list, last to first. -/
  | backward (store : Store α) (source : Handle) :
      Obtained (store.backwardCursorOver source).1 (store.backwardCursorOver source).2
  | reversed {cursor : ListCursor} {store : Store α} (obtained : Obtained cursor store) :
      Obtained (cursor.reverse store).1 (cursor.reverse store).2
  | used {cursor : ListCursor} {store : Store α} (obtained : Obtained cursor store)
      (request : Request α) : Obtained cursor (cursor.respond store request).2
  /-- Whatever else has happened, the list is the same and so is the place in it. -/
  | undisturbed {cursor : ListCursor} {store after : Store α} (obtained : Obtained cursor store)
      (items : after.items cursor.seat.source = store.items cursor.seat.source)
      (place : (after.container cursor.seat.source).places.get cursor.seat.slot =
        (store.container cursor.seat.source).places.get cursor.seat.slot) : Obtained cursor after

namespace Obtained

/-- **A cursor obtained in any of these ways is a cursor at a place or the view of one.** -/
theorem shaped (obtained : Obtained cursor store) :
    ∃ source slot view isView, cursor = shape source slot view isView := by
  induction obtained with
  | opened store source inside => exact ⟨source, store.fresh, 0, false, rfl⟩
  | backward store source => exact ⟨source, store.fresh, store.fresh + 1, true, rfl⟩
  | @reversed cursor store _ hypothesis =>
      obtain ⟨source, slot, view, isView, rfl⟩ := hypothesis
      cases isView with
      | false => exact ⟨source, slot, store.fresh, true, rfl⟩
      | true => exact ⟨source, slot, view, false, rfl⟩
  | used _ _ hypothesis | undisturbed _ _ _ hypothesis => exact hypothesis

/-- It sits somewhere in its list. -/
theorem exists_shows (obtained : Obtained cursor store) :
    ∃ zipper, cursor.seat.Shows store zipper := by
  induction obtained with
  | opened store source inside => exact ⟨_, store.shows_listCursorOver source inside⟩
  | backward store source =>
      exact ⟨_, shows_reverse (store.shows_listCursorOver source (Nat.le_refl _))⟩
  | reversed _ hypothesis =>
      obtain ⟨zipper, shows⟩ := hypothesis
      exact ⟨_, shows_reverse shows⟩
  | @used cursor store obtained request hypothesis =>
      obtain ⟨zipper, shows⟩ := hypothesis
      obtain ⟨source, slot, view, isView, rfl⟩ := obtained.shaped
      cases isView <;> exact ⟨_, (Zipper.Describes.respond_shape shows view request).2⟩
  | undisturbed _ items place hypothesis =>
      obtain ⟨zipper, shows⟩ := hypothesis
      exact ⟨zipper, Zipper.Describes.congr shows items place⟩

/-- The elements behind it and those ahead of it are its list, in the direction that it goes. -/
theorem items_eq (obtained : Obtained cursor store) (shows : cursor.seat.Shows store zipper) :
    zipper.behind.reverse ++ zipper.ahead =
      if cursor.isReversed then (store.items cursor.container).reverse
      else store.items cursor.container := by
  obtain ⟨source, slot, view, isView, rfl⟩ := obtained.shaped
  rw [container_eq, shows.items_eq]
  cases isView with
  | false => rfl
  | true => exact (zipper.items_turned ▸ List.reverse_reverse zipper.items).symm

end Obtained

end ListCursor

/-- **All ways to reverse a list agree, the way back is the way there reversed, and no view is the
view of a view.** Reading a list from its start gives its elements, and reading it reversed gives
them last to first. So do, when read from their start, the cursors of the sequence that runs over
the list backward, as often as they are asked for, and the view of a cursor that was opened at the
end.

However a list cursor has been obtained and used, it is a cursor at a place or the view of one. To
turn one round that is no view, twice, gives the cursor itself. What it gives when it is read to
the end is what it delivers going forward until there is no next element. When it then goes back
as many steps as it went, it delivers the same elements in the opposite order, and until there is
no previous element it delivers those and then what had been behind it. What had been behind it
and what was ahead are together the list in the direction of the cursor. -/
theorem reversals_agree_and_never_stack (store : Store α) (source : Handle) :
    let list := store.items source
    let turned := store.reversedCursorOver source list.length
    Cursor.Gives (store.cursorOver source) list ∧
      (∀ view, Cursor.Gives ((Sequence.backward view source).cursor store) list.reverse) ∧
      Cursor.Gives (.ofList turned.1, turned.2) list.reverse ∧
      ∀ (cursor : ListCursor) (obtained : Store α), cursor.Obtained obtained →
        let items := obtained.items cursor.container
        let behind := (cursor.readOut .backward obtained).1
        let there := cursor.readOut .forward obtained
        let back := cursor.readOut .backward there.2
        (∃ place slot view isView, cursor = .shape place slot view isView) ∧
          (cursor.isReversed = false → ∀ other : Store α,
            ((cursor.reverse obtained).1.reverse other).1 = cursor) ∧
          Cursor.Gives (.ofList cursor, obtained) there.1 ∧
          (cursor.readWithin .backward there.1.length there.2).1 = there.1.reverse ∧
          back.1 = there.1.reverse ++ behind ∧
          cursor.hasNext there.2 = false ∧ cursor.hasPrevious back.2 = false ∧
          behind.reverse ++ there.1 = (if cursor.isReversed then items.reverse else items) ∧
          ∀ other, back.2.items other = obtained.items other := by
  intro list turned
  have backward : Cursor.Gives (.ofList turned.1, turned.2) list.reverse := by
    have atEnd := store.shows_listCursorOver source (Nat.le_refl list.length)
    have given := Cursor.gives_of_shows (ListCursor.shows_reverse atEnd)
      (Cursor.seat?_ofList _)
    rwa [Zipper.turned, Zipper.ofList, List.take_length] at given
  refine ⟨?_, fun _ => backward, backward, ?_⟩
  · exact Cursor.gives_of_shows (store.shows_cursorOver source) rfl
  intro cursor obtained known items behind there back
  obtain ⟨zipper, shows⟩ := known.exists_shows
  obtain ⟨_, _, read, -⟩ := ListCursor.readOut_backward shows
  obtain ⟨ahead, noNext, again, returned, noPrevious, kept⟩ := ListCursor.readOut_back shows
  replace read : behind = zipper.behind := congrArg Prod.fst read
  refine ⟨known.shaped, ?_, ?_, again, ?_, noNext, noPrevious, ?_, kept⟩
  · intro plain other
    obtain ⟨place, slot, view, isView, rfl⟩ := known.shaped
    cases isView with
    | false => rfl
    | true => cases plain
  · rw [ahead]
    exact Cursor.gives_of_shows shows rfl
  · rw [read]
    exact returned
  · rw [read, ahead]
    exact known.items_eq shows

/-- The cursor over three elements that goes backward, after a step, and turned round there. -/
def turnedMidway : ListCursor × Store Nat :=
  let store : Store Nat := { containers := ⟨[{ items := [1, 2, 3] }]⟩, fresh := 1 }
  let view := store.backwardCursorOver 0
  view.1.reverse (view.1.respond view.2 .next).2

/-- In that cursor the view is gone, the element that had been delivered is ahead, and on the way
back all elements come. Turned round twice more it is the same cursor. -/
theorem reversals_agree_and_never_stack_on_turnedMidway :
    let cursor := turnedMidway.1
    let obtained := turnedMidway.2
    let there := cursor.readOut .forward obtained
    let back := cursor.readOut .backward there.2
    cursor.Obtained obtained ∧ cursor.isReversed = false ∧ there.1 = [3] ∧
      back.1 = there.1.reverse ++ [2, 1] ∧ ((cursor.reverse obtained).1.reverse back.2).1 = cursor ∧
      Cursor.Gives (.ofList cursor, obtained) [3] ∧
      Cursor.Gives ((Sequence.backward 9 0).cursor obtained) [3, 2, 1] := by
  intro cursor obtained there back
  have known : cursor.Obtained obtained := ((ListCursor.Obtained.backward _ 0).used .next).reversed
  obtain ⟨-, again, -, every⟩ := reversals_agree_and_never_stack obtained 0
  obtain ⟨-, twice, given, -, returned, -⟩ := every cursor obtained known
  exact ⟨known, rfl, by decide, returned, twice rfl back.2, given, again 9⟩

end Collections
