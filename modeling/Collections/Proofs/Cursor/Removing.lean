import Collections.Proofs.Cursor.Turns
import Collections.Proofs.Runs
import Mathlib.Data.List.Nodup
import Mathlib.Logic.Function.Basic

/-!
# Removals through combinations

A combination does not remember which of its parts delivered the last element. A removal goes to the
part that it is at, and by then the combination may have gone on. A ledger tells what becomes of it
(`Ledger`). It has for each seat what lies behind it and ahead of it, and it knows the latest
element with the seat that it came from, whether that element has been removed, and whether its seat
has been gone past since.

A ledger keeps track of a combination if the two agree on what lies around the seats, and each seat
that is still to come has a current element only if that is the latest one (`Ledger.Tracks`). To
ask goes on past exhausted seats and no further (`Ledger.Tracks.asked`). A delivery comes from the
first seat that has something ahead (`Ledger.Tracks.delivered`). A removal reaches the seat of
the latest element, or one that has delivered nothing (`Ledger.Tracks.remove`). So a combination on
distinct containers removes the latest element or fails and changes nothing
(`remove_takes_latest`).
-/

set_option autoImplicit false

namespace Collections

variable {α : Type}

/-- The element that an answer delivers. -/
def Cursor.Response.item? : Response α → Option α
  | delivered (.ok item) => some item
  | _ => none

/-! ## Ledgers -/

/-- The elements of a container, from what lies behind a seat, nearest first, and what lies
ahead. -/
def Seat.line (seat : Seat) (behind ahead : List α) : List α :=
  if seat.isView then ahead.reverse ++ behind else behind.reverse ++ ahead

theorem Seat.Shows.items_eq_line {seat : Seat} {store : Store α} {behind ahead : List α}
    {current : Option Direction} (shows : seat.Shows store ⟨behind, ahead, current⟩) :
    store.items seat.source = seat.line behind ahead := by
  rw [shows.items_eq, line]
  cases seat.isView <;> rfl

/-- What can be delivered and removed from seats that take turns. -/
structure Ledger (α : Type) where
  order : List Seat
  /-- What lies behind each seat, nearest first. -/
  behind : Seat → List α
  ahead : Seat → List α
  /-- The element delivered last, and the seat that it came from. -/
  latest : Option (Seat × α) := none
  /-- Whether that element has been removed. -/
  removed : Bool := false
  /-- Whether that seat has since been found exhausted, and is not the last one. -/
  passed : Bool := false

namespace Ledger

open Cursor (Request Response)

/-- The ledger of seats in which nothing has been delivered yet. -/
def opened (seats : List Seat) (store : Store α) : Ledger α where
  order := seats
  behind seat := seat.opposite.ahead store
  ahead seat := seat.ahead store

/-- The elements of the container under a seat. -/
def items (ledger : Ledger α) (seat : Seat) : List α :=
  seat.line (ledger.behind seat) (ledger.ahead seat)

/-- The first seat with something ahead, the element that it delivers, and those after it. -/
def next? (ledger : Ledger α) : Option (Seat × α × List α) :=
  ledger.order.findSome? fun seat =>
    match ledger.ahead seat with
    | [] => none
    | item :: rest => some (seat, item, rest)

/-- Whether a search for the next element goes past the seat of the latest one. -/
def goesPast (ledger : Ledger α) : Bool :=
  match ledger.latest with
  | none => false
  | some (seat, _) => (ledger.ahead seat).isEmpty && ledger.order.getLast? ≠ some seat

/-- Search for the next element. -/
def search (ledger : Ledger α) : Ledger α :=
  { ledger with passed := ledger.passed || ledger.goesPast }

/-- Deliver an element from a seat. -/
def deliver (ledger : Ledger α) (seat : Seat) (item : α) (rest : List α) : Ledger α :=
  { ledger with
    behind := Function.update ledger.behind seat (item :: ledger.behind seat)
    ahead := Function.update ledger.ahead seat rest
    latest := some (seat, item)
    removed := false
    passed := false }

/-- Remove the element nearest behind a seat. -/
def erase (ledger : Ledger α) (seat : Seat) : Ledger α :=
  { ledger with
    behind := Function.update ledger.behind seat (ledger.behind seat).tail
    removed := true }

/-- Answer a request. -/
def respond (ledger : Ledger α) : Request → Response α × Ledger α
  | .hasNext => (.more ledger.next?.isSome, ledger.search)
  | .next =>
      match ledger.next? with
      | none => (.delivered (.error .pastEnd), ledger.search)
      | some (seat, item, rest) => (.delivered (.ok item), ledger.deliver seat item rest)
  | .remove =>
      match ledger.latest with
      | none => (.removed (.error .noCurrent), ledger)
      | some (seat, _) =>
          if ledger.removed || ledger.passed then (.removed (.error .noCurrent), ledger)
          else (.removed (.ok ()), ledger.erase seat)

theorem respond_remove_of_missed {ledger : Ledger α}
    (missed : ledger.latest = none ∨ ledger.removed = true ∨ ledger.passed = true) :
    ledger.respond .remove = (.removed (.error .noCurrent), ledger) := by
  rw [respond]
  split
  · rfl
  next known =>
    obtain nothing | gone | past := missed
    · rw [nothing] at known
      cases known
    · rw [gone, Bool.true_or, if_pos rfl]
    · rw [past, Bool.or_true, if_pos rfl]

/-- The direction of the last step of a seat, while it has a current element. -/
def direction (ledger : Ledger α) (seat : Seat) : Option Direction :=
  if ledger.latest.map Prod.fst = some seat ∧ ledger.removed = false then some .forward else none

section Changes

variable (ledger : Ledger α) {seat other : Seat} (item : α) (rest : List α)

@[simp]
theorem behind_deliver_self :
    (ledger.deliver seat item rest).behind seat = item :: ledger.behind seat :=
  Function.update_self ..

@[simp]
theorem ahead_deliver_self : (ledger.deliver seat item rest).ahead seat = rest :=
  Function.update_self ..

theorem behind_deliver_of_ne (differs : other ≠ seat) :
    (ledger.deliver seat item rest).behind other = ledger.behind other :=
  Function.update_of_ne differs ..

theorem ahead_deliver_of_ne (differs : other ≠ seat) :
    (ledger.deliver seat item rest).ahead other = ledger.ahead other :=
  Function.update_of_ne differs ..

@[simp]
theorem behind_erase_self : (ledger.erase seat).behind seat = (ledger.behind seat).tail :=
  Function.update_self ..

theorem behind_erase_of_ne (differs : other ≠ seat) :
    (ledger.erase seat).behind other = ledger.behind other :=
  Function.update_of_ne differs ..

end Changes

theorem next?_eq_none {ledger : Ledger α}
    (exhausted : ∀ seat ∈ ledger.order, ledger.ahead seat = []) : ledger.next? = none := by
  refine List.findSome?_eq_none_iff.mpr fun seat member => ?_
  rw [exhausted seat member]

theorem next?_eq_some {ledger : Ledger α} {front later : List Seat} {here : Seat} {item : α}
    {rest : List α} (order : ledger.order = front ++ here :: later)
    (exhausted : ∀ seat ∈ front, ledger.ahead seat = [])
    (there : ledger.ahead here = item :: rest) : ledger.next? = some (here, item, rest) := by
  have none : (front.findSome? fun seat => match ledger.ahead seat with
      | [] => none
      | item :: rest => some (seat, item, rest)) = none := by
    refine List.findSome?_eq_none_iff.mpr fun seat member => ?_
    rw [exhausted seat member]
  rw [next?, order, List.findSome?_append, none, Option.none_or, List.findSome?_cons, there]

end Ledger

/-! ## Combinations on distinct containers -/

/-- A combination in which no container lies under two seats. -/
structure Cursor.Lined (cursor : Cursor α) (bound : Handle) : Prop where
  removable : cursor.Removable
  untangled : cursor.Untangled
  made : cursor.MadeBefore bound
  distinct : (cursor.seats.map Seat.source).Nodup

namespace Cursor.Lined

variable {cursor : Cursor α} {bound : Handle} {store : Store α} {seat other here : Seat}
  {later : List Seat}

theorem eq_of_source (lined : cursor.Lined bound) (one : seat ∈ cursor.seats)
    (two : other ∈ cursor.seats) (same : seat.source = other.source) : seat = other :=
  List.inj_on_of_nodup_map lined.distinct one two same

theorem mem_of_upcoming (member : seat ∈ cursor.upcoming store) : seat ∈ cursor.seats := by
  rw [← cursor.passed_append_upcoming store]
  exact List.mem_append_right _ member

theorem nodup (lined : cursor.Lined bound) (store : Store α) :
    (cursor.passed store ++ cursor.upcoming store).Nodup := by
  rw [cursor.passed_append_upcoming store]
  exact .of_map _ lined.distinct

/-- A seat is not both gone past and still to come. -/
theorem ne_of_passed (lined : cursor.Lined bound) (gone : seat ∈ cursor.passed store)
    (there : other ∈ cursor.upcoming store) : seat ≠ other := fun same =>
  (List.nodup_append.mp (lined.nodup store)).2.2 seat gone other there same

/-- The seats after the current one are others. -/
theorem ne_of_later (lined : cursor.Lined bound) (at_here : cursor.upcoming store = here :: later)
    (there : seat ∈ later) : seat ≠ here := by
  have nodup := (List.nodup_append.mp (lined.nodup store)).2.1
  rw [at_here] at nodup
  rintro rfl
  exact (List.nodup_cons.mp nodup).1 there

end Cursor.Lined

/-! ## Keeping track -/

namespace Ledger

open Cursor (Request Response)

/-- A ledger agrees with what lies around the seats of a cursor, and knows whether the seat that the
cursor is at has the latest element behind it. -/
structure Tracks (cursor : Cursor α) (start store : Store α) (ledger : Ledger α) : Prop where
  order : ledger.order = cursor.seats
  inOrder : cursor.InOrder store
  exhausted : ∀ seat ∈ cursor.passed store, ledger.ahead seat = []
  shows : ∀ seat ∈ cursor.seats, ∃ current,
    seat.Shows store ⟨ledger.behind seat, ledger.ahead seat, current⟩
  /-- A seat that is still to come has no current element but the latest one. -/
  upcoming : ∀ seat ∈ cursor.upcoming store,
    seat.Shows store ⟨ledger.behind seat, ledger.ahead seat, ledger.direction seat⟩
  latest : ∀ seat item, ledger.latest = some (seat, item) →
    (ledger.removed = false → ∃ rest, ledger.behind seat = item :: rest) ∧
      if ledger.passed then seat ∈ cursor.passed store
      else ∃ later, cursor.upcoming store = seat :: later
  elsewhere : ∀ source, (∀ seat ∈ cursor.seats, seat.source ≠ source) →
    store.items source = start.items source

namespace Tracks

variable {ledger : Ledger α} {cursor : Cursor α} {bound : Handle} {start store : Store α}
  {seat : Seat}

/-- A cursor that has just been assembled is tracked. -/
theorem opened (fresh : cursor.Fresh store) :
    (Ledger.opened cursor.seats store).Tracks cursor store store := by
  have all : cursor.upcoming store = cursor.seats := Cursor.upcoming_of_waiting fresh.waiting
  have none : cursor.passed store = [] := by
    have whole := cursor.passed_append_upcoming store
    rw [all] at whole
    exact List.append_left_eq_self.mp whole
  have unused : ∀ seat ∈ cursor.seats,
      seat.Shows store ⟨seat.opposite.ahead store, seat.ahead store, .none⟩ := by
    intro seat member
    obtain ⟨⟨behind, ahead, current⟩, shows, rfl⟩ := fresh.unused seat member
    rw [shows.turned.ahead_eq, shows.ahead_eq]
    exact shows
  exact {
    order := rfl
    inOrder := Cursor.inOrder_of_waiting fresh.waiting
    exhausted := fun seat member => by rw [none] at member; cases member
    shows := fun seat member => ⟨.none, unused seat member⟩
    upcoming := fun seat member => unused seat (all ▸ member)
    latest := fun _ _ same => by cases same
    elsewhere := fun _ _ => rfl }

theorem shown (tracks : ledger.Tracks cursor start store) : Seat.Shown cursor.seats store := by
  intro seat member
  obtain ⟨current, shows⟩ := tracks.shows seat member
  exact ⟨_, shows⟩

theorem ahead_eq (tracks : ledger.Tracks cursor start store) (member : seat ∈ cursor.seats) :
    seat.ahead store = ledger.ahead seat := by
  obtain ⟨current, shows⟩ := tracks.shows seat member
  exact shows.ahead_eq

/-! ### Asking -/

/-- The search goes past the current seat if that is exhausted and not the last one. -/
theorem goesPast_of_latest (tracks : ledger.Tracks cursor start store) (lined : cursor.Lined bound)
    {item : α} {later : List Seat} (known : ledger.latest = some (seat, item))
    (at_here : cursor.upcoming store = seat :: later) :
    ledger.goesPast = true ↔ ¬ (ledger.ahead seat = [] → later = []) := by
  have last : ledger.order.getLast? = (seat :: later).getLast? := by
    rw [tracks.order, ← cursor.passed_append_upcoming store, at_here,
      List.getLast?_append_of_ne_nil _ (List.cons_ne_nil _ _)]
  have only : (seat :: later).getLast? = some seat ↔ later = [] := by
    constructor
    · intro same
      by_contra some
      rw [List.getLast?_cons_of_ne_nil some] at same
      exact lined.ne_of_later at_here (List.mem_of_getLast? same) rfl
    · rintro rfl
      rfl
  rw [goesPast, known]
  simp only [Bool.and_eq_true, List.isEmpty_iff, decide_eq_true_eq, last, ne_eq, only,
    Classical.not_imp]

section Reached

variable {after : Store α}
  (reached : cursor.upcoming after = Seat.skip (·.ahead store) (cursor.upcoming store))
include reached

/-- What a search goes past is exhausted, and comes after what has been gone past before. -/
theorem passed_of_reached (tracks : ledger.Tracks cursor start store) :
    (∀ seat ∈ cursor.passed store, seat ∈ cursor.passed after) ∧
      ∀ seat ∈ cursor.passed after, ledger.ahead seat = [] := by
  obtain ⟨skipped, split, exhausted⟩ :=
    Seat.exists_skipped (·.ahead store) (cursor.upcoming store)
  have whole : cursor.passed after ++ cursor.upcoming after = cursor.passed store ++
      cursor.upcoming store :=
    (cursor.passed_append_upcoming after).trans (cursor.passed_append_upcoming store).symm
  have gone : cursor.passed after = cursor.passed store ++ skipped := by
    rw [split, ← reached, ← List.append_assoc] at whole
    exact List.append_cancel_right whole
  rw [gone]
  refine ⟨fun seat member => List.mem_append_left _ member, ?_⟩
  intro seat member
  obtain before | inSkipped := List.mem_append.mp member
  · exact tracks.exhausted seat before
  · have there : seat ∈ cursor.upcoming store := split ▸ List.mem_append_left _ inSkipped
    rw [← tracks.ahead_eq (Cursor.Lined.mem_of_upcoming there)]
    exact exhausted seat inSkipped

/-- The first seat with something ahead is the one that a search ends at. -/
theorem next?_of_reached (tracks : ledger.Tracks cursor start store) :
    Seat.anyAhead (·.ahead store) (cursor.upcoming store) = ledger.next?.isSome ∧
      ∀ seat item rest, ledger.next? = some (seat, item, rest) →
        ledger.ahead seat = item :: rest ∧ ∃ later, cursor.upcoming after = seat :: later := by
  cases more : Seat.anyAhead (·.ahead store) (cursor.upcoming store) with
  | false =>
      rw [Seat.anyAhead_eq_false_iff] at more
      have none : ledger.next? = none := by
        refine next?_eq_none fun seat member => ?_
        rw [tracks.order, ← cursor.passed_append_upcoming store] at member
        obtain before | there := List.mem_append.mp member
        · exact tracks.exhausted seat before
        · rw [← tracks.ahead_eq (Cursor.Lined.mem_of_upcoming there)]
          exact more seat there
      rw [none]
      exact ⟨rfl, nofun⟩
  | true =>
      obtain ⟨here, later, at_here, some⟩ := Seat.exists_ahead_of_skip more
      rw [at_here] at reached
      have member : here ∈ cursor.upcoming after := reached ▸ List.mem_cons_self
      rw [tracks.ahead_eq (Cursor.Lined.mem_of_upcoming member)] at some
      obtain ⟨item, rest, there⟩ := List.exists_cons_of_ne_nil some
      have order : ledger.order = cursor.passed after ++ here :: later := by
        rw [tracks.order, ← cursor.passed_append_upcoming after, reached]
      have first : ledger.next? = .some (here, item, rest) :=
        next?_eq_some order (tracks.passed_of_reached (reached.trans at_here.symm)).2 there
      rw [first]
      refine ⟨rfl, ?_⟩
      intro seat item' rest' same
      obtain ⟨rfl, rfl, rfl⟩ : here = seat ∧ item = item' ∧ rest = rest' := by simpa using same
      exact ⟨there, later, reached⟩

/-- The seat of the latest element has been gone past, or the search ends there. -/
theorem latest_of_reached (tracks : ledger.Tracks cursor start store) (lined : cursor.Lined bound)
    {item : α} (known : ledger.latest = some (seat, item)) :
    if ledger.search.passed then seat ∈ cursor.passed after
    else ∃ later, cursor.upcoming after = seat :: later := by
  obtain ⟨-, place⟩ := tracks.latest seat item known
  show if (ledger.passed || ledger.goesPast) = true then _ else _
  cases before : ledger.passed with
  | true =>
      rw [before, if_pos rfl] at place
      rw [Bool.true_or, if_pos rfl]
      exact (tracks.passed_of_reached reached).1 seat place
  | false =>
      rw [before, if_neg Bool.false_ne_true] at place
      obtain ⟨later, at_here⟩ := place
      have onSeat : seat ∈ cursor.seats :=
        Cursor.Lined.mem_of_upcoming (at_here ▸ List.mem_cons_self)
      have past := tracks.goesPast_of_latest lined known at_here
      rw [← tracks.ahead_eq onSeat] at past
      rw [Bool.false_or]
      by_cases stays : seat.ahead store = [] → later = []
      · rw [if_neg fun goes => past.mp goes stays, reached, at_here]
        exact ⟨later, Seat.skip_cons_self stays⟩
      · -- The search ends at a later seat, so this one has been gone past.
        obtain ⟨none, some⟩ := Classical.not_imp.mp stays
        have skipped := @Seat.skip_cons_of_ne_nil _ (·.ahead store) _ _ none some
        rw [at_here, skipped] at reached
        rw [if_pos (past.mpr stays)]
        rw [← cursor.passed_append_upcoming after, reached] at onSeat
        refine (List.mem_append.mp onSeat).resolve_right ?_
        intro there
        obtain ⟨skipped, whole, -⟩ := Seat.exists_skipped (·.ahead store) later
        have inLater : seat ∈ later := whole ▸ List.mem_append_right _ there
        exact lined.ne_of_later at_here inLater rfl

end Reached

/-- **A cursor that is asked searches for the next element**, and has then gone past exhausted
seats. -/
theorem asked (tracks : ledger.Tracks cursor start store) (lined : cursor.Lined bound) :
    ∃ after, cursor.hasNext store = (ledger.next?.isSome, after) ∧
      ledger.search.Tracks cursor start after ∧
      ∀ seat item rest, ledger.next? = some (seat, item, rest) →
        ledger.ahead seat = item :: rest ∧ ∃ later, cursor.upcoming after = seat :: later := by
  obtain ⟨after, asked, inOrder, reached⟩ :=
    tracks.inOrder.hasNext lined.removable lined.untangled lined.made tracks.shown
  have still : Store.Asked store after := Cursor.asked_of_hasNext asked
  obtain ⟨more, first⟩ := tracks.next?_of_reached reached
  refine ⟨after, asked.trans (congrArg (·, after) more), ?_, first⟩
  exact {
    order := tracks.order
    inOrder := inOrder
    exhausted := (tracks.passed_of_reached reached).2
    shows := fun seat member => (tracks.shows seat member).imp fun _ shows => shows.asked still
    upcoming := by
      intro seat member
      obtain ⟨skipped, split, -⟩ := Seat.exists_skipped (·.ahead store) (cursor.upcoming store)
      rw [← reached] at split
      exact (tracks.upcoming seat (split ▸ List.mem_append_right _ member)).asked still
    latest := fun seat item known =>
      ⟨(tracks.latest seat item known).1, tracks.latest_of_reached reached lined known⟩
    elsewhere := fun source apart => (still.items source).trans (tracks.elsewhere source apart) }

/-! ### Delivering -/

/-- A seat that is still to come, but is not the current one, has no current element. -/
theorem direction_of_later (tracks : ledger.Tracks cursor start store) (lined : cursor.Lined bound)
    {here : Seat} {later : List Seat} (at_here : cursor.upcoming store = here :: later)
    (there : seat ∈ later) : ledger.direction seat = none := by
  rw [direction, if_neg]
  rintro ⟨same, -⟩
  obtain ⟨⟨_, item⟩, known, rfl⟩ := Option.map_eq_some_iff.mp same
  obtain ⟨-, place⟩ := tracks.latest _ item known
  split at place
  · refine lined.ne_of_passed place ?_ rfl
    rw [at_here]
    exact List.mem_cons_of_mem _ there
  · obtain ⟨others, here_eq⟩ := place
    obtain ⟨rfl, -⟩ := List.cons.inj (at_here.symm.trans here_eq)
    exact lined.ne_of_later at_here there rfl

/-- **What is delivered comes from the first seat that has something ahead.** -/
theorem delivered (tracks : ledger.Tracks cursor start store) (lined : cursor.Lined bound)
    {here : Seat} {later : List Seat} {item : α} {rest : List α}
    (at_here : cursor.upcoming store = here :: later) (there : ledger.ahead here = item :: rest)
    (ready : cursor.hasNext store = (true, store)) :
    ∃ after, cursor.next store = (.ok item, after) ∧
      (ledger.deliver here item rest).Tracks cursor start after := by
  have onHere : here ∈ cursor.seats :=
    Cursor.Lined.mem_of_upcoming (at_here ▸ List.mem_cons_self)
  obtain ⟨part, sits, -, delivers⟩ := Cursor.exists_part lined.removable lined.made at_here
  obtain ⟨current, shows⟩ := tracks.shows here onHere
  rw [there] at shows
  obtain ⟨after, taken, showsAfter, moved⟩ := shows.next sits
  have passedAfter : cursor.passed after = cursor.passed store :=
    Cursor.passed_congr moved.crossed
  have upcomingAfter : cursor.upcoming after = here :: later :=
    (Cursor.upcoming_congr moved.crossed).trans at_here
  -- Other seats neither notice the step nor change in the ledger.
  have others : ∀ seat ∈ cursor.seats, seat ≠ here → ∀ current,
      seat.Shows store ⟨ledger.behind seat, ledger.ahead seat, current⟩ →
      seat.Shows after ⟨(ledger.deliver here item rest).behind seat,
        (ledger.deliver here item rest).ahead seat, current⟩ := by
    intro seat member differs current shows
    rw [behind_deliver_of_ne _ _ _ differs, ahead_deliver_of_ne _ _ _ differs]
    exact shows.of_movedAt moved fun same => differs (lined.eq_of_source member onHere same.1)
  rw [← behind_deliver_self ledger item rest, ← ahead_deliver_self ledger item rest] at showsAfter
  refine ⟨after, (delivers ready).trans taken, ?_⟩
  exact {
    order := tracks.order
    inOrder := tracks.inOrder.congr moved.crossed
    exhausted := by
      intro seat member
      rw [passedAfter] at member
      have differs := lined.ne_of_passed member (at_here ▸ List.mem_cons_self)
      rw [ahead_deliver_of_ne _ _ _ differs]
      exact tracks.exhausted seat member
    shows := by
      intro seat member
      by_cases same : seat = here
      · rw [same]
        exact ⟨_, showsAfter⟩
      · obtain ⟨current, shows⟩ := tracks.shows seat member
        exact ⟨current, others seat member same current shows⟩
    upcoming := by
      intro seat member
      rw [upcomingAfter] at member
      obtain rfl | inLater := List.mem_cons.mp member
      · rw [direction, if_pos ⟨rfl, rfl⟩]
        exact showsAfter
      · have differs := lined.ne_of_later at_here inLater
        have before : seat ∈ cursor.upcoming store := at_here ▸ List.mem_cons_of_mem _ inLater
        have shows := tracks.upcoming seat before
        rw [tracks.direction_of_later lined at_here inLater] at shows
        rw [direction, if_neg fun same => differs (Option.some.inj same.1).symm]
        exact others seat (Cursor.Lined.mem_of_upcoming before) differs _ shows
    latest := by
      intro seat other known
      obtain ⟨rfl, rfl⟩ : here = seat ∧ item = other := by simpa [deliver] using known
      exact ⟨fun _ => ⟨ledger.behind here, behind_deliver_self ..⟩, later, upcomingAfter⟩
    elsewhere := fun source apart => (moved.items source).trans (tracks.elsewhere source apart) }

/-! ### Removing -/

/-- An element that was removed, or whose seat has been gone past, is no current one. -/
theorem direction_eq_none (tracks : ledger.Tracks cursor start store) (lined : cursor.Lined bound)
    (there : seat ∈ cursor.upcoming store)
    (missed : ledger.latest = none ∨ ledger.removed = true ∨ ledger.passed = true) :
    ledger.direction seat = none := by
  rw [direction, if_neg]
  rintro ⟨same, present⟩
  obtain ⟨⟨_, item⟩, known, rfl⟩ := Option.map_eq_some_iff.mp same
  obtain nothing | gone | past := missed
  · rw [nothing] at known
    cases known
  · rw [gone] at present
    cases present
  · obtain ⟨-, place⟩ := tracks.latest _ item known
    rw [if_pos past] at place
    exact lined.ne_of_passed place there rfl

/-- The ledger after the removal of the latest element. -/
theorem erase (tracks : ledger.Tracks cursor start store) (lined : cursor.Lined bound)
    {after : Store α} {rest : List α} {later : List Seat}
    (at_here : cursor.upcoming store = seat :: later)
    (showsAfter : seat.Shows after ⟨rest, ledger.ahead seat, none⟩)
    (behind : (ledger.behind seat).tail = rest)
    (changed : Store.ChangedAt seat.source store after) :
    (ledger.erase seat).Tracks cursor start after := by
  have onSeat : seat ∈ cursor.seats :=
    Cursor.Lined.mem_of_upcoming (at_here ▸ List.mem_cons_self)
  have others : ∀ other ∈ cursor.seats, other ≠ seat → ∀ current,
      other.Shows store ⟨ledger.behind other, ledger.ahead other, current⟩ →
      other.Shows after ⟨(ledger.erase seat).behind other, ledger.ahead other, current⟩ := by
    intro other member differs current shows
    rw [behind_erase_of_ne _ differs]
    exact shows.of_changedAt changed fun same => differs (lined.eq_of_source member onSeat same)
  rw [← behind, ← behind_erase_self] at showsAfter
  have none : ∀ other, (ledger.erase seat).direction other = .none :=
    fun other => if_neg fun present => by cases present.2
  have upcomingAfter : cursor.upcoming after = cursor.upcoming store :=
    Cursor.upcoming_congr changed.crossed
  have passedAfter : cursor.passed after = cursor.passed store :=
    Cursor.passed_congr changed.crossed
  exact {
    order := tracks.order
    inOrder := tracks.inOrder.congr changed.crossed
    exhausted := fun other member => tracks.exhausted other (passedAfter ▸ member)
    shows := by
      intro other member
      by_cases same : other = seat
      · rw [same]
        exact ⟨_, showsAfter⟩
      · obtain ⟨current, shows⟩ := tracks.shows other member
        exact ⟨current, others other member same current shows⟩
    upcoming := by
      intro other member
      rw [none]
      rw [upcomingAfter, at_here] at member
      obtain rfl | inLater := List.mem_cons.mp member
      · exact showsAfter
      · have before : other ∈ cursor.upcoming store := at_here ▸ List.mem_cons_of_mem _ inLater
        have shows := tracks.upcoming other before
        rw [tracks.direction_of_later lined at_here inLater] at shows
        exact others other (Cursor.Lined.mem_of_upcoming before)
          (lined.ne_of_later at_here inLater) _ shows
    latest := by
      intro other item known
      rw [passedAfter, upcomingAfter]
      exact ⟨(fun present => by cases present), (tracks.latest other item known).2⟩
    elsewhere := by
      intro source apart
      have other := changed.container source fun same => apart seat onSeat same.symm
      exact (congrArg Container.items other).trans (tracks.elsewhere source apart) }

/-- **A removal reaches the seat of the latest element**, or one that has no current element. -/
theorem remove (tracks : ledger.Tracks cursor start store) (lined : cursor.Lined bound) :
    (∃ seat item rest after, ledger.latest = some (seat, item) ∧ ledger.removed = false ∧
        ledger.passed = false ∧ seat ∈ cursor.seats ∧ ledger.behind seat = item :: rest ∧
        cursor.remove store = (.ok (), after) ∧ (ledger.erase seat).Tracks cursor start after ∧
        Store.ChangedAt seat.source store after) ∨
      (ledger.latest = none ∨ ledger.removed = true ∨ ledger.passed = true) ∧
        cursor.remove store = (.error .noCurrent, store) := by
  obtain ⟨here, later, at_here⟩ :=
    List.exists_cons_of_ne_nil (lined.removable.upcoming_ne_nil store)
  have there : here ∈ cursor.upcoming store := at_here ▸ List.mem_cons_self
  obtain ⟨part, sits, removes, -⟩ := Cursor.exists_part lined.removable lined.made at_here
  have shows := tracks.upcoming here there
  by_cases missed : ledger.latest = none ∨ ledger.removed = true ∨ ledger.passed = true
  · rw [tracks.direction_eq_none lined there missed] at shows
    exact .inr ⟨missed, removes.trans (shows.remove_of_current_eq_none sits)⟩
  · obtain ⟨some, present, unpassed⟩ : ledger.latest ≠ none ∧ ledger.removed = false ∧
        ledger.passed = false := by simpa using missed
    obtain ⟨⟨seat, item⟩, known⟩ := Option.ne_none_iff_exists'.mp some
    obtain ⟨held, place⟩ := tracks.latest seat item known
    obtain ⟨rest, behind⟩ := held present
    rw [unpassed, if_neg Bool.false_ne_true] at place
    obtain ⟨others, at_seat⟩ := place
    obtain ⟨rfl, -⟩ := List.cons.inj (at_here.symm.trans at_seat)
    rw [direction, known, if_pos ⟨rfl, present⟩, behind] at shows
    obtain ⟨after, removed, showsAfter, changed⟩ := shows.remove sits
    refine .inl ⟨here, item, rest, after, known, present, unpassed,
      Cursor.Lined.mem_of_upcoming there, behind, removes.trans removed, ?_, changed⟩
    exact tracks.erase lined at_here showsAfter (by rw [behind]; rfl) changed

/-! ### Runs -/

/-- **The ledger gives the answers of the cursor**, and keeps track of it. -/
theorem respond (tracks : ledger.Tracks cursor start store) (lined : cursor.Lined bound)
    (request : Request) :
    (cursor.respond store request).1 = (ledger.respond request).1 ∧
      (ledger.respond request).2.Tracks cursor start (cursor.respond store request).2 := by
  cases request with
  | hasNext =>
      obtain ⟨after, asked, tracksAfter, -⟩ := tracks.asked lined
      rw [Cursor.respond, asked]
      exact ⟨rfl, tracksAfter⟩
  | next =>
      obtain ⟨after, asked, tracksAfter, first⟩ := tracks.asked lined
      cases found : ledger.next? with
      | none =>
          rw [found] at asked
          rw [Cursor.respond, Cursor.next_of_hasNext_eq_false asked, Ledger.respond, found]
          exact ⟨rfl, tracksAfter⟩
      | some result =>
          obtain ⟨seat, item, rest⟩ := result
          rw [found] at asked
          obtain ⟨there, later, at_seat⟩ := first seat item rest found
          obtain ⟨last, taken, tracksLast⟩ := tracksAfter.delivered lined at_seat there
            (Cursor.hasNext_again lined.made asked)
          rw [Cursor.respond, Cursor.next_of_hasNext lined.made asked, taken, Ledger.respond, found]
          exact ⟨rfl, tracksLast⟩
  | remove =>
      rw [Cursor.respond]
      obtain ⟨seat, item, rest, after, known, present, unpassed, -, -, removed, tracksAfter, -⟩ |
        ⟨missed, failed⟩ := tracks.remove lined
      · rw [removed, Ledger.respond, known, present, unpassed]
        exact ⟨rfl, tracksAfter⟩
      · rw [failed, respond_remove_of_missed missed]
        exact ⟨rfl, tracks⟩

end Tracks

/-- The latest element is the one that was delivered last. -/
theorem latest_serve (ledger : Ledger α) (requests : List Request) :
    (((serve respond ledger requests).1.filterMap Response.item?).getLast?.or
        (ledger.latest.map Prod.snd)) =
      (serve respond ledger requests).2.latest.map Prod.snd := by
  induction requests generalizing ledger with
  | nil => rfl
  | cons request rest ih =>
      have step : (ledger.respond request).1.item?.or (ledger.latest.map Prod.snd) =
          (ledger.respond request).2.latest.map Prod.snd := by
        cases request with
        | hasNext => rfl
        | next =>
            rw [respond]
            cases ledger.next? <;> rfl
        | remove =>
            rw [respond]
            split
            · rfl
            · split <;> rfl
      have served : (serve respond ledger (request :: rest)).1 =
          (ledger.respond request).1 :: (serve respond (ledger.respond request).2 rest).1 := rfl
      rw [served, List.filterMap_cons]
      refine Eq.trans ?_ (ih (ledger.respond request).2)
      rw [← step]
      cases (ledger.respond request).1.item? with
      | none => rfl
      | some item =>
          dsimp only
          rw [List.getLast?_cons]
          cases (List.getLast? _) <;> rfl

end Ledger

open Ledger in
/-- **A removal through a combination never takes the wrong element.** Let cursors on distinct
containers be combined in any nesting, and asked, read and used for removals in any run. All its
answers and the elements that it leaves in each container are those of the ledger, and other
containers are as before. A removal fails exactly if nothing has been delivered yet, or
the latest element has been removed, or the seat that it came from has since been found exhausted
and is not the last one. Then it changes nothing. Otherwise it takes from its container the
occurrence that was delivered last, and leaves the others alone. -/
theorem remove_takes_latest {made : List (Cursor α)} {store : Store α}
    (assembled : Assembled made store) {cursor : Cursor α} (member : cursor ∈ made)
    (removable : cursor.Removable) (distinct : (cursor.seats.map Seat.source).Nodup)
    (requests : List Cursor.Request) :
    let run := cursor.run store requests
    let kept := serve Ledger.respond (Ledger.opened cursor.seats store) requests
    let removal := cursor.remove run.2
    run.1 = kept.1 ∧
      (run.1.filterMap Cursor.Response.item?).getLast? = kept.2.latest.map Prod.snd ∧
      (∀ seat ∈ cursor.seats, run.2.items seat.source = kept.2.items seat) ∧
      (∀ source, (∀ seat ∈ cursor.seats, seat.source ≠ source) →
        run.2.items source = store.items source) ∧
      (removal.1 = .error .noCurrent ↔
        kept.2.latest = none ∨ kept.2.removed = true ∨ kept.2.passed = true) ∧
      (removal.1 = .error .noCurrent → removal.2 = run.2) ∧
      (removal.1 ≠ .error .noCurrent → removal.1 = .ok () ∧
        ∃ seat ∈ cursor.seats, ∃ item behind, kept.2.latest = some (seat, item) ∧
          kept.2.behind seat = item :: behind ∧
          run.2.items seat.source = seat.line (item :: behind) (kept.2.ahead seat) ∧
          removal.2.items seat.source = seat.line behind (kept.2.ahead seat) ∧
          ∀ other, other ≠ seat.source → removal.2.items other = run.2.items other) := by
  intro run kept removal
  have fresh := assembled.fresh cursor member
  have lined : cursor.Lined store.fresh := {
    removable := removable
    untangled := Cursor.untangled_of_toldApart removable (.of_map _ distinct)
      (assembled.toldApart.mono fun part there => by
        rw [List.flatMap_singleton] at there
        exact List.mem_flatMap_of_mem member there)
    made := fresh.made
    distinct := distinct }
  obtain ⟨answers, tracks⟩ : run.1 = kept.1 ∧ kept.2.Tracks cursor store run.2 := by
    have related := serve_eq (fun request tracks => Tracks.respond tracks lined request)
      (Tracks.opened fresh) requests
    rwa [← Cursor.run_eq_serve] at related
  refine ⟨answers, ?_, ?_, tracks.elsewhere, ?_⟩
  · rw [answers]
    exact (Option.or_none ..).symm.trans (Ledger.latest_serve _ requests)
  · intro seat there
    obtain ⟨current, shows⟩ := tracks.shows seat there
    exact shows.items_eq_line
  obtain ⟨seat, item, rest, after, known, present, unpassed, there, behind, removed, tracksAfter,
    changed⟩ | ⟨missed, failed⟩ := tracks.remove lined
  · have done : removal = (.ok (), after) := removed
    rw [done]
    refine ⟨⟨nofun, ?_⟩, nofun, fun _ => ⟨rfl, seat, there, item, rest, known, behind, ?_, ?_, ?_⟩⟩
    · rw [known, present, unpassed]
      simp
    · obtain ⟨current, shows⟩ := tracks.shows seat there
      rw [← behind]
      exact shows.items_eq_line
    · obtain ⟨current, shows⟩ := tracksAfter.shows seat there
      rw [Ledger.behind_erase_self, behind] at shows
      exact shows.items_eq_line
    · intro other apart
      exact congrArg Container.items (changed.container other apart)
  · have done : removal = (.error .noCurrent, run.2) := failed
    rw [done]
    exact ⟨⟨fun _ => missed, fun _ => rfl⟩, fun _ => rfl, fun succeeds => absurd rfl succeeds⟩

/-- A container of two, an empty list, and a container of one. -/
def threeShelves : Store Nat where
  containers := ⟨[{ items := [1, 2] }, {}, { items := [3] }]⟩
  fresh := 3

/-- The three, with the list from its end, nested to the right. -/
def threeInLine : Cursor Nat × Store Nat :=
  let (first, store) := threeShelves.cursorOver 0
  let (list, store) := store.listCursorOver 1 0
  let (view, store) := list.reverse store
  let (last, store) := store.cursorOver 2
  let (back, store) := Cursor.combine (.ofList view) last store
  Cursor.combine first back store

theorem assembled_threeInLine :
    Assembled [threeInLine.1, .combined 7 (.ofList (.reversed 5 (.direct 1 4))) (.direct 2 6),
      .direct 2 6, .ofList (.reversed 5 (.direct 1 4)), .ofList (.direct 1 4), .direct 0 3]
      threeInLine.2 := by
  have first : Assembled [.direct 0 3] (threeShelves.cursorOver 0).2 :=
    .cursor (.start threeShelves) (.forward 0 0) fun _ none => absurd none List.not_mem_nil
  have view := (first.listCursor 1 (Nat.le_refl 0)).reverse List.mem_cons_self
  have last := view.cursor (.forward 0 2) fun _ none => absurd none List.not_mem_nil
  have back := last.combine (List.mem_cons_of_mem _ List.mem_cons_self) List.mem_cons_self
  refine back.combine ?_ List.mem_cons_self
  exact List.mem_cons_of_mem _ (List.mem_cons_of_mem _ (List.mem_cons_of_mem _
    (List.mem_cons_of_mem _ List.mem_cons_self)))

/-- A question at the end of the first container puts its last element out of reach. One at the end
of the last container does not. -/
theorem remove_takes_latest_threeInLine :
    let cursor := threeInLine.1
    let asked := (cursor.run threeInLine.2 [.next, .next, .hasNext]).2
    let ended := (cursor.run threeInLine.2 [.next, .remove, .next, .next, .hasNext, .next]).2
    cursor.Removable ∧ (cursor.seats.map Seat.source).Nodup ∧
      cursor.remove asked = (.error .noCurrent, asked) ∧
      (cursor.remove ended).1 = .ok () ∧ (cursor.remove ended).2.items 0 = [2] ∧
      ∃ behind ahead, ended.items 2 = Seat.line ⟨2, 6, false⟩ (3 :: behind) ahead ∧
        (cursor.remove ended).2.items 2 = Seat.line ⟨2, 6, false⟩ behind ahead := by
  intro cursor asked ended
  have removable : cursor.Removable := ⟨rfl, rfl, rfl⟩
  have distinct : (cursor.seats.map Seat.source).Nodup := by decide
  obtain ⟨-, -, -, -, fails, unchanged, -⟩ := remove_takes_latest assembled_threeInLine
    List.mem_cons_self removable distinct [.next, .next, .hasNext]
  have failed := fails.mpr (.inr (.inr rfl))
  obtain ⟨-, -, -, -, -, -, succeeds⟩ := remove_takes_latest assembled_threeInLine
    List.mem_cons_self removable distinct [.next, .remove, .next, .next, .hasNext, .next]
  obtain ⟨done, seat, -, item, behind, known, -, before, after, others⟩ := succeeds nofun
  obtain ⟨rfl, rfl⟩ : (⟨2, 6, false⟩ : Seat) = seat ∧ 3 = item :=
    Prod.mk.inj (Option.some.inj known)
  exact ⟨removable, distinct, Prod.ext failed (unchanged failed), done, others 0 (by decide),
    behind, _, before, after⟩

end Collections
