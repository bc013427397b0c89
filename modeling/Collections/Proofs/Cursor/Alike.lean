import Collections.Proofs.Cursor.Assembly
import Collections.Proofs.Cursor.Standing

/-!
# What a cursor cannot tell apart

Two stores are alike from some seats if the seats have the same elements in front of them
(`Seat.Alike`). What lies behind may differ. A cursor whose parts sit there answers alike whether
there is a next element (`Seat.Alike.hasNext`) and delivers the same one (`Seat.Alike.next`), and
the stores are alike afterwards.

A removal changes what lies behind, so it leaves a store alike (`Seat.Onward.remove`). For this the
parts must not sit in one another's way: a container may be edited only through the cursor that goes
through it (`Seat.Apart`).

A question lets combinations go over, and then a removal may miss what it would have removed. But
the elements in front are the same as before. So a cursor cannot tell by them whether it was asked
(`Cursor.Indistinct.of_asked`), and this stays so whatever is asked of it later
(`Cursor.Indistinct.run`).
-/

set_option autoImplicit false

namespace Collections

variable {α : Type}

/-! ## Elements in front -/

namespace Seat

/-- A step puts the element behind the seat, which is in front of a seat at the same place that
looks the other way. Other seats do not notice. -/
theorem ahead_of_movedAt {seat : Seat} {before after : Store α} {behind rest : List α} {item : α}
    {current : Option Direction} (shows : seat.Shows before ⟨behind, item :: rest, current⟩)
    (showsAfter : seat.Shows after ⟨item :: behind, rest, some .forward⟩)
    (moved : Store.MovedAt seat.source seat.slot before after) (other : Seat) :
    other.ahead after =
      if other = seat then (seat.ahead before).tail
      else if other = seat.opposite then item :: other.ahead before
      else other.ahead before := by
  split
  next same =>
    rw [same, showsAfter.ahead_eq, shows.ahead_eq]
    rfl
  next differs =>
    split
    next facing =>
      rw [facing, showsAfter.turned.ahead_eq, shows.turned.ahead_eq]
      rfl
    next elsewhere =>
      have apart : ¬ (other.source = seat.source ∧ other.slot = seat.slot) := by
        rintro ⟨source, slot⟩
        obtain ⟨_, _, isView⟩ := seat
        obtain ⟨_, _, otherView⟩ := other
        obtain rfl : _ = _ := source
        obtain rfl : _ = _ := slot
        cases isView <;> cases otherView <;> first | exact differs rfl | exact elsewhere rfl
      rw [ahead, ahead, moved.items, moved.place _ _ apart]

/-! ## Stores alike from some seats -/

/-- In two stores the seats have the same elements in front of them, and there is the same to come
for cursors older than a bound. -/
structure Alike (seats : List Seat) (bound : Handle) (left right : Store α) : Prop where
  inLeft : Shown seats left
  inRight : Shown seats right
  ahead : ∀ seat ∈ seats, seat.ahead left = seat.ahead right
  splitters : left.splitters = right.splitters
  crossed : ∀ switch < bound, left.hasCrossed switch = right.hasCrossed switch

namespace Alike

variable {seats : List Seat} {bound : Handle} {left middle right store : Store α}
  {cursor : Cursor α}

theorem refl (shown : Shown seats store) (bound : Handle) : Alike seats bound store store :=
  ⟨shown, shown, fun _ _ => rfl, rfl, fun _ _ => rfl⟩

theorem symm (alike : Alike seats bound left right) : Alike seats bound right left :=
  ⟨alike.inRight, alike.inLeft, fun seat member => (alike.ahead seat member).symm,
    alike.splitters.symm, fun switch older => (alike.crossed switch older).symm⟩

theorem trans (first : Alike seats bound left middle) (second : Alike seats bound middle right) :
    Alike seats bound left right :=
  ⟨first.inLeft, second.inRight,
    fun seat member => (first.ahead seat member).trans (second.ahead seat member),
    first.splitters.trans second.splitters,
    fun switch older => (first.crossed switch older).trans (second.crossed switch older)⟩

theorem cross (alike : Alike seats bound left right) (switch : Handle) :
    Alike seats bound (left.cross switch) (right.cross switch) := by
  refine ⟨alike.inLeft.asked (.cross left switch), alike.inRight.asked (.cross right switch),
    alike.ahead, alike.splitters, ?_⟩
  intro other older
  rw [Store.hasCrossed_cross, Store.hasCrossed_cross, alike.crossed other older]

theorem hasNext_of_seat? {part : Cursor α} {seat : Seat} (alike : Alike seats bound left right)
    (sits : part.seat? = some seat) (member : seat ∈ seats) :
    ∃ more left' right', part.hasNext left = (more, left') ∧ part.hasNext right = (more, right') ∧
      Alike seats bound left' right' := by
  refine ⟨_, left, right, alike.inLeft.hasNext member sits, ?_, alike⟩
  rw [alike.inRight.hasNext member sits, alike.ahead seat member]

/-- **A cursor whose parts have the same in front of them gives the same answer.** -/
theorem hasNext (alike : Alike seats bound left right) (made : cursor.MadeBefore bound)
    (among : ∀ seat ∈ cursor.seats, seat ∈ seats) :
    ∃ more left' right', cursor.hasNext left = (more, left') ∧
      cursor.hasNext right = (more, right') ∧ Alike seats bound left' right' := by
  induction cursor generalizing left right with
  | direct | ofList => exact alike.hasNext_of_seat? rfl (among _ (List.mem_singleton_self _))
  | pieces slot read =>
      refine ⟨_, left, right, rfl, ?_, alike⟩
      rw [Cursor.hasNext, alike.splitters]
  | empty => exact ⟨_, left, right, rfl, rfl, alike⟩
  | readOnly view source ih => exact ih alike made among
  | combined switch first second front back =>
      have firstMade := made.2.1.mono (Nat.le_of_lt made.1)
      have secondMade := made.2.2.mono (Nat.le_of_lt made.1)
      have amongFront : ∀ seat ∈ first.seats, seat ∈ seats :=
        fun seat member => among seat (List.mem_append_left _ member)
      have amongBack : ∀ seat ∈ second.seats, seat ∈ seats :=
        fun seat member => among seat (List.mem_append_right _ member)
      simp only [Cursor.hasNext, alike.crossed switch made.1]
      split
      · exact back alike secondMade amongBack
      · obtain ⟨more, left', right', inLeft, inRight, after⟩ := front alike firstMade amongFront
        rw [inLeft, inRight]
        cases more with
        | true => exact ⟨true, left', right', rfl, rfl, after⟩
        | false => exact back (after.cross switch) secondMade amongBack

theorem next_of_seat? {part : Cursor α} {seat : Seat} (alike : Alike seats bound left right)
    (sits : part.seat? = some seat) (member : seat ∈ seats) :
    ∃ answer left' right', part.next left = (answer, left') ∧ part.next right = (answer, right') ∧
      Alike seats bound left' right' := by
  have among : ∀ other ∈ part.seats, other ∈ seats := by
    intro other inPart
    rw [Cursor.seats_of_seat? sits] at inPart
    exact List.mem_singleton.mp inPart ▸ member
  obtain ⟨⟨behind, ahead, current⟩, shows⟩ := alike.inLeft seat member
  obtain ⟨⟨behind', ahead', current'⟩, shows'⟩ := alike.inRight seat member
  obtain rfl : ahead = ahead' := by
    have same := alike.ahead seat member
    rwa [shows.ahead_eq, shows'.ahead_eq] at same
  cases ahead with
  | nil =>
      exact ⟨_, left, right, Cursor.next_of_hasNext_eq_false (shows.hasNext sits),
        Cursor.next_of_hasNext_eq_false (shows'.hasNext sits), alike⟩
  | cons item rest =>
      have shownLeft := alike.inLeft.next part among
      have shownRight := alike.inRight.next part among
      obtain ⟨left', delivered, showsAfter, moved⟩ := shows.next sits
      obtain ⟨right', delivered', showsAfter', moved'⟩ := shows'.next sits
      rw [delivered] at shownLeft
      rw [delivered'] at shownRight
      refine ⟨.ok item, left', right', delivered, delivered', shownLeft, shownRight, ?_, ?_, ?_⟩
      · intro other present
        rw [ahead_of_movedAt shows showsAfter moved, ahead_of_movedAt shows' showsAfter' moved',
          alike.ahead seat member, alike.ahead other present]
      · rw [moved.splitters, moved'.splitters, alike.splitters]
      · intro switch older
        rw [Store.hasCrossed, Store.hasCrossed, moved.crossed, moved'.crossed]
        exact alike.crossed switch older

/-- **A cursor whose parts have the same in front of them delivers the same.** -/
theorem next (alike : Alike seats bound left right) (made : cursor.MadeBefore bound)
    (among : ∀ seat ∈ cursor.seats, seat ∈ seats) :
    ∃ answer left' right', cursor.next left = (answer, left') ∧
      cursor.next right = (answer, right') ∧ Alike seats bound left' right' := by
  induction cursor generalizing left right with
  | direct | ofList => exact alike.next_of_seat? rfl (among _ (List.mem_singleton_self _))
  | pieces slot read =>
      simp only [Cursor.next, alike.splitters]
      cases (right.splitters.get slot).next? with
      | none => exact ⟨_, left, right, rfl, rfl, alike⟩
      | some result =>
          exact ⟨_, _, _, rfl, rfl, alike.inLeft, alike.inRight, alike.ahead, rfl, alike.crossed⟩
  | empty => exact ⟨_, left, right, rfl, rfl, alike⟩
  | readOnly view source ih => exact ih alike made among
  | combined switch first second front back =>
      obtain ⟨more, left', right', inLeft, inRight, asked⟩ := alike.hasNext made among
      cases more with
      | false =>
          exact ⟨_, left', right', Cursor.next_of_hasNext_eq_false inLeft,
            Cursor.next_of_hasNext_eq_false inRight, asked⟩
      | true =>
          rw [Cursor.next_combined inLeft, Cursor.next_combined inRight,
            asked.crossed switch made.1]
          split
          · exact back asked (made.2.2.mono (Nat.le_of_lt made.1))
              fun seat member => among seat (List.mem_append_right _ member)
          · exact front asked (made.2.1.mono (Nat.le_of_lt made.1))
              fun seat member => among seat (List.mem_append_left _ member)

end Alike

/-! ## Removals -/

/-- No container lies under two of some seats. A cursor must be the only one to modify its container
while it is used, so this is what it takes to remove anything through a combination. -/
def Apart (seats : List Seat) : Prop :=
  ∀ seat ∈ seats, ∀ other ∈ seats, seat.source = other.source → seat = other

instance decidableApart (seats : List Seat) : Decidable (Apart seats) :=
  inferInstanceAs (Decidable (∀ seat ∈ seats, ∀ other ∈ seats, _ → _))

/-- Each of some seats stands at a place, and the element that was delivered last from there, if it
can still be removed, lies behind it. -/
def Onward (seats : List Seat) (store : Store α) : Prop :=
  ∀ seat ∈ seats, ∃ zipper, seat.Shows store zipper ∧ zipper.current ≠ some .backward

namespace Onward

variable {seats : List Seat} {bound : Handle} {store after : Store α} {cursor : Cursor α}

theorem shown (onward : Onward seats store) : Shown seats store := fun seat member =>
  (onward seat member).imp fun _ => And.left

theorem asked (onward : Onward seats store) (asked : Store.Asked store after) :
    Onward seats after := by
  intro seat member
  obtain ⟨zipper, shows, unturned⟩ := onward seat member
  exact ⟨zipper, shows.asked asked, unturned⟩

theorem next (onward : Onward seats store) (apart : Apart seats)
    (among : ∀ seat ∈ cursor.seats, seat ∈ seats) : Onward seats (cursor.next store).2 := by
  let keeps (before after : Store α) : Prop := Onward seats before → Onward seats after
  have kept : keeps store (cursor.next store).2 := by
    refine Cursor.next_keeps keeps (fun first second onward => second (first onward))
      (fun asked onward => onward.asked asked) ?_ ?_ store
    · intro seat part member sits before onward
      obtain ⟨⟨behind, ahead, current⟩, shows, -⟩ := onward seat (among seat member)
      cases ahead with
      | nil =>
          rw [Cursor.next_of_hasNext_eq_false (shows.hasNext sits)]
          exact onward
      | cons item rest =>
          obtain ⟨after, delivered, showsAfter, moved⟩ := shows.next sits
          rw [delivered]
          intro other present
          by_cases here : other.source = seat.source
          · obtain rfl := apart other present seat (among seat member) here
            exact ⟨_, showsAfter, nofun⟩
          · obtain ⟨zipper, showsOther, unturned⟩ := onward other present
            exact ⟨zipper, showsOther.of_movedAt moved fun same => here same.1, unturned⟩
    · intro slot read before onward
      rw [Cursor.next]
      cases (before.splitters.get slot).next? <;> exact onward
  exact kept onward

theorem remove_of_seat? {part : Cursor α} {seat : Seat} (onward : Onward seats store)
    (apart : Apart seats) (sits : part.seat? = some seat) (member : seat ∈ seats)
    (bound : Handle) : Onward seats (part.remove store).2 ∧
      Alike seats bound (part.remove store).2 store := by
  obtain ⟨zipper, shows, unturned⟩ := onward seat member
  obtain ⟨item, behind, after, -, removed, showsAfter, changed⟩ | ⟨-, failed⟩ :=
    shows.remove_cases unturned sits
  · rw [removed]
    have still : Onward seats after := by
      intro other present
      by_cases here : other.source = seat.source
      · obtain rfl := apart other present seat member here
        exact ⟨_, showsAfter, nofun⟩
      · obtain ⟨zipper, showsOther, unturned⟩ := onward other present
        exact ⟨zipper, showsOther.of_changedAt changed here, unturned⟩
    refine ⟨still, still.shown, onward.shown, ?_, changed.splitters,
      fun switch _ => congrArg (fun table => table.get switch) changed.crossed⟩
    intro other present
    by_cases here : other.source = seat.source
    · obtain rfl := apart other present seat member here
      rw [showsAfter.ahead_eq, shows.ahead_eq]
    · obtain ⟨zipper, showsOther, -⟩ := onward other present
      rw [(showsOther.of_changedAt changed here).ahead_eq, showsOther.ahead_eq]
  · rw [failed]
    exact ⟨onward, .refl onward.shown bound⟩

/-- **A removal leaves in front of all seats what was there.** -/
theorem remove (onward : Onward seats store) (apart : Apart seats)
    (among : ∀ seat ∈ cursor.seats, seat ∈ seats) (bound : Handle) :
    Onward seats (cursor.remove store).2 ∧ Alike seats bound (cursor.remove store).2 store := by
  induction cursor with
  | direct | ofList =>
      exact onward.remove_of_seat? apart rfl (among _ (List.mem_singleton_self _)) bound
  | pieces | empty | readOnly => exact ⟨onward, .refl onward.shown bound⟩
  | combined switch first second front back =>
      rw [Cursor.remove]
      split
      · exact back fun seat member => among seat (List.mem_append_right _ member)
      · exact front fun seat member => among seat (List.mem_append_left _ member)

end Onward

end Seat

/-! ## Asking -/

namespace Cursor

/-- The parts of a cursor stand at places of their containers. If they are apart, the element that
was delivered last lies behind the part that delivered it. -/
structure Placed (cursor : Cursor α) (store : Store α) : Prop where
  shown : Seat.Shown cursor.seats store
  onward : Seat.Apart cursor.seats → Seat.Onward cursor.seats store

namespace Placed

variable {cursor : Cursor α} {store : Store α}

theorem of_fresh (fresh : cursor.Fresh store) : cursor.Placed store := by
  have onward : Seat.Onward cursor.seats store := by
    intro seat member
    obtain ⟨zipper, shows, nothing⟩ := fresh.unused seat member
    exact ⟨zipper, shows, by rw [nothing]; exact nofun⟩
  exact ⟨onward.shown, fun _ => onward⟩

/-- Requests leave all parts in place, if nothing is removed or the parts are apart. -/
theorem respond (placed : cursor.Placed store) {request : Request}
    (allowed : request = .remove → Seat.Apart cursor.seats) :
    cursor.Placed (cursor.respond store request).2 := by
  cases request with
  | hasNext =>
      have asked : Store.Asked store (cursor.hasNext store).2 := asked_of_hasNext rfl
      exact ⟨placed.shown.asked asked, fun apart => (placed.onward apart).asked asked⟩
  | next =>
      exact ⟨placed.shown.next cursor fun _ member => member,
        fun apart => (placed.onward apart).next apart fun _ member => member⟩
  | remove =>
      have apart := allowed rfl
      obtain ⟨onward, -⟩ := (placed.onward apart).remove apart (fun _ member => member) 0
      exact ⟨onward.shown, fun _ => onward⟩

theorem run (placed : cursor.Placed store) {requests : List Request}
    (allowed : .remove ∈ requests → Seat.Apart cursor.seats) :
    cursor.Placed (cursor.run store requests).2 := by
  induction requests generalizing store with
  | nil => exact placed
  | cons request rest ih =>
      exact ih (placed.respond fun removes => allowed (removes ▸ List.mem_cons_self))
        fun later => allowed (List.mem_cons_of_mem _ later)

end Placed

/-- Two answers say the same about the elements that are left. Whether a removal succeeded is not
compared. -/
def Response.Agrees : Response α → Response α → Prop
  | removed _, removed _ => True
  | left, right => left = right

/-- Asked whether there is a next element, a cursor gives the same answer in two stores, and
afterwards its parts have the same in front of them. -/
structure Indistinct (cursor : Cursor α) (bound : Handle) (left right : Store α) : Prop where
  answers : (cursor.hasNext left).1 = (cursor.hasNext right).1
  alike : Seat.Alike cursor.seats bound (cursor.hasNext left).2 (cursor.hasNext right).2

namespace Indistinct

variable {cursor : Cursor α} {bound : Handle} {left middle right store : Store α}

theorem symm (same : cursor.Indistinct bound left right) : cursor.Indistinct bound right left :=
  ⟨same.answers.symm, same.alike.symm⟩

theorem trans (first : cursor.Indistinct bound left middle)
    (second : cursor.Indistinct bound middle right) : cursor.Indistinct bound left right :=
  ⟨first.answers.trans second.answers, first.alike.trans second.alike⟩

theorem of_alike (made : cursor.MadeBefore bound)
    (alike : Seat.Alike cursor.seats bound left right) : cursor.Indistinct bound left right := by
  obtain ⟨more, left', right', inLeft, inRight, after⟩ := alike.hasNext made fun _ member => member
  exact ⟨by rw [inLeft, inRight], by rw [inLeft, inRight]; exact after⟩

/-- **A cursor that was asked is as it was.** -/
theorem of_asked (made : cursor.MadeBefore bound) (placed : cursor.Placed store) :
    cursor.Indistinct bound (cursor.hasNext store).2 store := by
  rcases asked : cursor.hasNext store with ⟨more, after⟩
  have shown : Seat.Shown cursor.seats after := placed.shown.asked (asked_of_hasNext asked)
  have again := hasNext_again made asked
  exact ⟨by rw [again, asked], by rw [again, asked]; exact .refl shown bound⟩

/-- So is a cursor through which something was removed, as far as elements are left. -/
theorem of_remove (made : cursor.MadeBefore bound) (placed : cursor.Placed store)
    (apart : Seat.Apart cursor.seats) : cursor.Indistinct bound (cursor.remove store).2 store :=
  .of_alike made ((placed.onward apart).remove apart (fun _ member => member) bound).2

theorem next (same : cursor.Indistinct bound left right) (made : cursor.MadeBefore bound) :
    (cursor.next left).1 = (cursor.next right).1 ∧
      cursor.Indistinct bound (cursor.next left).2 (cursor.next right).2 := by
  obtain ⟨answer, left', right', inLeft, inRight, after⟩ :=
    same.alike.next made fun _ member => member
  rw [next_of_hasNext made (rfl : cursor.hasNext left = _), inLeft,
    next_of_hasNext made (rfl : cursor.hasNext right = _), inRight]
  exact ⟨rfl, .of_alike made after⟩

/-- Whatever is asked of a cursor in stores that it cannot tell apart, it answers alike, and cannot
tell them apart afterwards. -/
theorem respond (same : cursor.Indistinct bound left right) (made : cursor.MadeBefore bound)
    (inLeft : cursor.Placed left) (inRight : cursor.Placed right) {request : Request}
    (allowed : request = .remove → Seat.Apart cursor.seats) :
    (cursor.respond left request).1.Agrees (cursor.respond right request).1 ∧
      cursor.Indistinct bound (cursor.respond left request).2 (cursor.respond right request).2 := by
  cases request with
  | hasNext =>
      refine ⟨congrArg Response.more same.answers, ?_⟩
      exact ((of_asked made inLeft).trans same).trans (of_asked made inRight).symm
  | next =>
      obtain ⟨answers, after⟩ := same.next made
      exact ⟨congrArg Response.delivered answers, after⟩
  | remove =>
      refine ⟨trivial, ?_⟩
      exact ((of_remove made inLeft (allowed rfl)).trans same).trans
        (of_remove made inRight (allowed rfl)).symm

theorem run (same : cursor.Indistinct bound left right) (made : cursor.MadeBefore bound)
    (inLeft : cursor.Placed left) (inRight : cursor.Placed right) {requests : List Request}
    (allowed : .remove ∈ requests → Seat.Apart cursor.seats) :
    List.Forall₂ Response.Agrees (cursor.run left requests).1 (cursor.run right requests).1 := by
  induction requests generalizing left right with
  | nil => exact .nil
  | cons request rest ih =>
      have first : request = .remove → Seat.Apart cursor.seats :=
        fun removes => allowed (removes ▸ List.mem_cons_self)
      obtain ⟨agrees, after⟩ := same.respond made inLeft inRight first
      exact .cons agrees (ih after (inLeft.respond first) (inRight.respond first)
        fun later => allowed (List.mem_cons_of_mem _ later))

end Indistinct

end Cursor

end Collections
