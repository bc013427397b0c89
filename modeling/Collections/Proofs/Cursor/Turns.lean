import Collections.Proofs.Cursor.Assembly
import Collections.Proofs.Cursor.Standing

/-!
# Whose turn it is

The seats of a nested combination take turns from left to right. Those that the combination has gone
past come before the one that it is at, and after that come those that have not had their turn
(`Cursor.passed`, `Cursor.upcoming`). What is delivered comes from the seat that the combination is
at, and a removal goes there (`Cursor.exists_part`).

To ask for an element is to go on past exhausted seats, but never past the last one
(`Seat.skip`, `Cursor.InOrder.hasNext`). For this the combinations to the right of the current seat
must not have gone over yet (`Cursor.InOrder`), and no combination may occur on both sides of
another (`Cursor.Untangled`). Both hold at the beginning, for a combination in which no container
lies under two seats (`Cursor.untangled_of_toldApart`).
-/

set_option autoImplicit false

namespace Collections

variable {α : Type}

/-! ## Going past exhausted seats -/

namespace Seat

/-- Go past seats that have nothing in front of them, but not past the last one. -/
def skip (ahead : Seat → List α) : List Seat → List Seat
  | [] => []
  | [last] => [last]
  | first :: second :: rest =>
      if (ahead first).isEmpty then skip ahead (second :: rest) else first :: second :: rest

variable {ahead : Seat → List α} {here : Seat} {seats front back later : List Seat}

theorem skip_cons_of_ne_nil (exhausted : ahead here = []) (some : later ≠ []) :
    skip ahead (here :: later) = skip ahead later := by
  obtain ⟨next, rest, rfl⟩ := List.exists_cons_of_ne_nil some
  rw [skip, exhausted]
  rfl

/-- Only the last seat is not gone past although it is exhausted. -/
theorem skip_cons_self (stays : ahead here = [] → later = []) :
    skip ahead (here :: later) = here :: later := by
  cases later with
  | nil => rfl
  | cons next rest =>
      have more : (ahead here).isEmpty = false := by
        rw [List.isEmpty_eq_false_iff]
        exact fun exhausted => List.cons_ne_nil _ _ (stays exhausted)
      rw [skip, if_neg (by simp [more])]

/-- What is gone past are the first seats, and they are exhausted. -/
theorem exists_skipped (ahead : Seat → List α) (seats : List Seat) :
    ∃ skipped, seats = skipped ++ skip ahead seats ∧ ∀ seat ∈ skipped, ahead seat = [] := by
  induction seats with
  | nil => exact ⟨[], rfl, fun _ none => absurd none List.not_mem_nil⟩
  | cons first rest ih =>
      by_cases stays : ahead first = [] → rest = []
      · rw [skip_cons_self stays]
        exact ⟨[], rfl, fun _ none => absurd none List.not_mem_nil⟩
      · obtain ⟨exhausted, more⟩ := Classical.not_imp.mp stays
        obtain ⟨skipped, whole, all⟩ := ih
        rw [skip_cons_of_ne_nil exhausted more]
        exact ⟨first :: skipped, congrArg (first :: ·) whole,
          List.forall_mem_cons.mpr ⟨exhausted, all⟩⟩

/-- Whether some seat has something in front of it. -/
def anyAhead (ahead : Seat → List α) (seats : List Seat) : Bool :=
  seats.any fun seat => !(ahead seat).isEmpty

theorem anyAhead_append (front back : List Seat) :
    anyAhead ahead (front ++ back) = (anyAhead ahead front || anyAhead ahead back) :=
  List.any_append

theorem anyAhead_eq_false_iff : anyAhead ahead seats = false ↔ ∀ seat ∈ seats, ahead seat = [] := by
  simp [anyAhead]

/-- The first seat that is not gone past has something in front of it, if any has. -/
theorem exists_ahead_of_skip (more : anyAhead ahead seats = true) :
    ∃ here later, skip ahead seats = here :: later ∧ ahead here ≠ [] := by
  induction seats with
  | nil => cases more
  | cons first rest ih =>
      by_cases exhausted : ahead first = []
      · have inRest : anyAhead ahead rest = true := by
          simpa [anyAhead, exhausted] using more
        have some : rest ≠ [] := by
          rintro rfl
          cases inRest
        rw [skip_cons_of_ne_nil exhausted some]
        exact ih inRest
      · exact ⟨first, rest, skip_cons_self fun none => absurd none exhausted, exhausted⟩

theorem skip_append_of_anyAhead (more : anyAhead ahead front = true) (back : List Seat) :
    skip ahead (front ++ back) = skip ahead front ++ back := by
  induction front with
  | nil => cases more
  | cons first rest ih =>
      by_cases exhausted : ahead first = []
      · have inRest : anyAhead ahead rest = true := by
          simpa [anyAhead, exhausted] using more
        have some : rest ≠ [] := by
          rintro rfl
          cases inRest
        rw [List.cons_append, skip_cons_of_ne_nil exhausted (by simp [some]),
          skip_cons_of_ne_nil exhausted some]
        exact ih inRest
      · rw [List.cons_append, skip_cons_self fun none => absurd none exhausted,
          skip_cons_self fun none => absurd none exhausted, List.cons_append]

theorem skip_append_of_exhausted (exhausted : anyAhead ahead front = false) (some : back ≠ []) :
    skip ahead (front ++ back) = skip ahead back := by
  rw [anyAhead_eq_false_iff] at exhausted
  induction front with
  | nil => rfl
  | cons first rest ih =>
      obtain ⟨none, all⟩ := List.forall_mem_cons.mp exhausted
      rw [List.cons_append, skip_cons_of_ne_nil none (by simp [some])]
      exact ih all

end Seat

namespace Cursor

/-! ## The seat that a combination is at -/

/-- A cursor that goes through a container, or a combination of such cursors. -/
def Removable : Cursor α → Prop
  | combined _ first second => first.Removable ∧ second.Removable
  | part => part.seat?.isSome = true

/-- The seats that have been gone past. -/
def passed : Cursor α → Store α → List Seat
  | combined switch first second, store =>
      if store.hasCrossed switch then first.seats ++ second.passed store else first.passed store
  | _, _ => []

/-- The seat that a cursor is at, and those after it. -/
def upcoming : Cursor α → Store α → List Seat
  | combined switch first second, store =>
      if store.hasCrossed switch then second.upcoming store
      else first.upcoming store ++ second.seats
  | part, _ => part.seats

/-- If a combination has not gone over, no combination in its second part has. -/
def InOrder : Cursor α → Store α → Prop
  | combined switch first second, store =>
      if store.hasCrossed switch then second.InOrder store
      else first.InOrder store ∧ ∀ inner ∈ second.switches, store.hasCrossed inner = false
  | _, _ => True

/-- No combination occurs in both parts of another one. -/
def Untangled : Cursor α → Prop
  | combined _ first second =>
      first.Untangled ∧ second.Untangled ∧ first.switches.Disjoint second.switches
  | readOnly _ source => source.Untangled
  | _ => True

variable {cursor : Cursor α} {store after : Store α} {bound : Handle} {here : Seat}
  {later : List Seat}

theorem passed_append_upcoming (cursor : Cursor α) (store : Store α) :
    cursor.passed store ++ cursor.upcoming store = cursor.seats := by
  induction cursor with
  | direct | ofList | pieces | empty | readOnly => rfl
  | combined switch first second front back =>
      rw [passed, upcoming, seats]
      split
      · rw [List.append_assoc, back]
      · rw [← List.append_assoc, front]

theorem Removable.seats_ne_nil (removable : cursor.Removable) : cursor.seats ≠ [] := by
  induction cursor with
  | direct | ofList => exact List.cons_ne_nil _ _
  | pieces | empty | readOnly => cases removable
  | combined switch first second front back =>
      exact List.append_ne_nil_of_left_ne_nil (front removable.1) _

theorem Removable.upcoming_ne_nil (removable : cursor.Removable) (store : Store α) :
    cursor.upcoming store ≠ [] := by
  induction cursor with
  | direct | ofList => exact List.cons_ne_nil _ _
  | pieces | empty | readOnly => cases removable
  | combined switch first second front back =>
      rw [upcoming]
      split
      · exact back removable.2
      · exact List.append_ne_nil_of_left_ne_nil (front removable.1) _

/-! ### Before anything is asked -/

section Waiting

variable (waiting : ∀ switch ∈ cursor.switches, store.hasCrossed switch = false)
include waiting

theorem upcoming_of_waiting : cursor.upcoming store = cursor.seats := by
  induction cursor with
  | direct | ofList | pieces | empty | readOnly => rfl
  | combined switch first second front back =>
      have uncrossed := waiting switch List.mem_cons_self
      rw [upcoming, uncrossed, if_neg Bool.false_ne_true, seats, front fun inner member =>
        waiting inner (List.mem_cons_of_mem _ (List.mem_append_left _ member))]

theorem inOrder_of_waiting : cursor.InOrder store := by
  induction cursor with
  | direct | ofList | pieces | empty | readOnly => trivial
  | combined switch first second front back =>
      have uncrossed := waiting switch List.mem_cons_self
      rw [InOrder, uncrossed, if_neg Bool.false_ne_true]
      exact ⟨front fun inner member =>
        waiting inner (List.mem_cons_of_mem _ (List.mem_append_left _ member)),
        fun inner member =>
          waiting inner (List.mem_cons_of_mem _ (List.mem_append_right _ member))⟩

end Waiting

/-! ### What does not depend on the containers -/

section Congr

variable (same : after.crossed = store.crossed)
include same

theorem passed_congr : cursor.passed after = cursor.passed store := by
  have crossed : ∀ switch, after.hasCrossed switch = store.hasCrossed switch :=
    fun switch => congrArg (fun table => table.get switch) same
  induction cursor with
  | direct | ofList | pieces | empty | readOnly => rfl
  | combined switch first second front back => rw [passed, passed, crossed, front, back]

theorem upcoming_congr : cursor.upcoming after = cursor.upcoming store := by
  have crossed : ∀ switch, after.hasCrossed switch = store.hasCrossed switch :=
    fun switch => congrArg (fun table => table.get switch) same
  induction cursor with
  | direct | ofList | pieces | empty | readOnly => rfl
  | combined switch first second front back => rw [upcoming, upcoming, crossed, front, back]

theorem InOrder.congr (inOrder : cursor.InOrder store) : cursor.InOrder after := by
  have crossed : ∀ switch, after.hasCrossed switch = store.hasCrossed switch :=
    fun switch => congrArg (fun table => table.get switch) same
  induction cursor with
  | direct | ofList | pieces | empty | readOnly => trivial
  | combined switch first second front back =>
      rw [InOrder] at inOrder ⊢
      rw [crossed]
      split
      next gone =>
        rw [if_pos gone] at inOrder
        exact back inOrder
      next uncrossed =>
        rw [if_neg uncrossed] at inOrder
        exact ⟨front inOrder.1, fun inner member => (crossed inner).trans (inOrder.2 inner member)⟩

end Congr

/-! ## Asking -/

/-- Asking lets only combinations of the cursor go over. -/
theorem hasCrossed_of_hasNext {more : Bool} (asked : cursor.hasNext store = (more, after))
    {switch : Handle} (elsewhere : switch ∉ cursor.switches) :
    after.hasCrossed switch = store.hasCrossed switch := by
  induction cursor generalizing store after more with
  | direct | ofList | pieces | empty =>
      obtain ⟨-, rfl⟩ := Prod.mk.inj asked
      rfl
  | readOnly view source ih => exact ih asked elsewhere
  | combined other first second front back =>
      rw [switches, List.mem_cons, List.mem_append, not_or, not_or] at elsewhere
      obtain ⟨differs, notFront, notBack⟩ := elsewhere
      obtain ⟨-, inBack⟩ | ⟨-, -, inFront⟩ | ⟨-, between, inFront, inBack⟩ := cases_hasNext asked
      · exact back inBack notBack
      · exact front inFront notFront
      · rw [back inBack notBack, Store.hasCrossed_cross, if_neg differs, front inFront notFront]

/-- **To ask is to go on past exhausted seats.** -/
theorem InOrder.hasNext (inOrder : cursor.InOrder store) (removable : cursor.Removable)
    (untangled : cursor.Untangled) (made : cursor.MadeBefore bound)
    (shown : Seat.Shown cursor.seats store) :
    ∃ after, cursor.hasNext store =
        (Seat.anyAhead (·.ahead store) (cursor.upcoming store), after) ∧
      cursor.InOrder after ∧
      cursor.upcoming after = Seat.skip (·.ahead store) (cursor.upcoming store) := by
  induction cursor generalizing bound store with
  | direct | ofList =>
      refine ⟨store, (Seat.Shown.hasNext shown (List.mem_singleton_self _) rfl).trans ?_, trivial,
        rfl⟩
      exact congrArg (·, store) (Bool.or_false _).symm
  | pieces | empty | readOnly => cases removable
  | combined switch first second front back =>
      obtain ⟨-, firstMade, secondMade⟩ := made
      obtain ⟨untangledFront, untangledBack, disjoint⟩ := untangled
      have shownFront : Seat.Shown first.seats store :=
        fun seat member => shown seat (List.mem_append_left _ member)
      have shownBack : Seat.Shown second.seats store :=
        fun seat member => shown seat (List.mem_append_right _ member)
      rw [InOrder] at inOrder
      cases crossed : store.hasCrossed switch with
      | true =>
          rw [crossed, if_pos rfl] at inOrder
          obtain ⟨after, asked, inOrderAfter, reached⟩ :=
            back inOrder removable.2 untangledBack secondMade shownBack
          have still : after.hasCrossed switch = true := by
            rw [(confined_hasNext secondMade).keeps_of_eq asked (Nat.le_refl switch), crossed]
          refine ⟨after, ?_, ?_, ?_⟩
          · rw [Cursor.hasNext, if_pos crossed, asked, upcoming, if_pos crossed]
          · rwa [InOrder, if_pos still]
          · rw [upcoming, if_pos still, upcoming, if_pos crossed, reached]
      | false =>
          rw [crossed, if_neg Bool.false_ne_true] at inOrder
          obtain ⟨inOrderFront, waiting⟩ := inOrder
          obtain ⟨between, asked, inOrderBetween, reached⟩ :=
            front inOrderFront removable.1 untangledFront firstMade shownFront
          have waitingBetween : ∀ inner ∈ second.switches, between.hasCrossed inner = false := by
            intro inner member
            rw [hasCrossed_of_hasNext asked fun inFront => disjoint inFront member,
              waiting inner member]
          have still : between.hasCrossed switch = false := by
            rw [(confined_hasNext firstMade).keeps_of_eq asked (Nat.le_refl switch), crossed]
          cases more : Seat.anyAhead (·.ahead store) (first.upcoming store) with
          | true =>
              rw [more] at asked
              refine ⟨between, ?_, ?_, ?_⟩
              · rw [Cursor.hasNext, if_neg (by simp [crossed]), asked, upcoming,
                  if_neg (by simp [crossed]), Seat.anyAhead_append, more, Bool.true_or]
              · rw [InOrder, if_neg (by simp [still])]
                exact ⟨inOrderBetween, waitingBetween⟩
              · rw [upcoming, if_neg (by simp [still]), upcoming, if_neg (by simp [crossed]),
                  Seat.skip_append_of_anyAhead more, reached]
          | false =>
              rw [more] at asked
              -- The first part is exhausted: the combination goes over and asks the second part.
              have reachedOver : Store.Asked store (between.cross switch) :=
                (asked_of_hasNext asked).trans (.cross between switch)
              have waitingOver : ∀ inner ∈ second.switches,
                  (between.cross switch).hasCrossed inner = false := by
                intro inner member
                have differs : inner ≠ switch := Nat.ne_of_lt (lt_of_mem_switches secondMade member)
                rw [Store.hasCrossed_cross, if_neg differs, waitingBetween inner member]
              obtain ⟨after, askedBack, inOrderAfter, reachedBack⟩ :=
                back (inOrder_of_waiting waitingOver) removable.2 untangledBack secondMade
                  (shownBack.asked reachedOver)
              rw [upcoming_of_waiting waitingOver] at askedBack reachedBack
              have ahead : (fun seat : Seat => seat.ahead (between.cross switch)) =
                  fun seat => seat.ahead store := by
                funext seat
                rw [Seat.ahead, Seat.ahead, Store.items, Store.items, reachedOver.container]
              rw [ahead] at askedBack reachedBack
              have gone : after.hasCrossed switch = true := by
                rw [(confined_hasNext secondMade).keeps_of_eq askedBack (Nat.le_refl switch),
                  Store.hasCrossed_cross, if_pos rfl]
              refine ⟨after, ?_, ?_, ?_⟩
              · rw [Cursor.hasNext, if_neg (by simp [crossed]), asked, upcoming,
                  if_neg (by simp [crossed]), Seat.anyAhead_append, more, Bool.false_or]
                exact askedBack
              · rwa [InOrder, if_pos gone]
              · rw [upcoming, if_pos gone, upcoming, if_neg (by simp [crossed]),
                  Seat.skip_append_of_exhausted more removable.2.seats_ne_nil, reachedBack]

/-! ## Delivering and removing -/

/-- **What a cursor that is ready delivers comes from the seat that it is at**, and a removal goes
there. -/
theorem exists_part (removable : cursor.Removable) (made : cursor.MadeBefore bound)
    (at_here : cursor.upcoming store = here :: later) :
    ∃ part : Cursor α, part.seat? = some here ∧ cursor.remove store = part.remove store ∧
      (cursor.hasNext store = (true, store) → cursor.next store = part.next store) := by
  induction cursor generalizing bound later with
  | direct source slot =>
      obtain ⟨rfl, -⟩ := List.cons.inj at_here
      exact ⟨.direct source slot, rfl, rfl, fun _ => rfl⟩
  | ofList list =>
      obtain ⟨rfl, -⟩ := List.cons.inj at_here
      exact ⟨.ofList list, rfl, rfl, fun _ => rfl⟩
  | pieces | empty | readOnly => cases removable
  | combined switch first second front back =>
      rw [upcoming] at at_here
      cases crossed : store.hasCrossed switch with
      | true =>
          rw [if_pos crossed] at at_here
          obtain ⟨part, sits, removes, delivers⟩ := back removable.2 made.2.2 at_here
          refine ⟨part, sits, ?_, ?_⟩
          · rw [Cursor.remove, if_pos crossed, removes]
          · intro ready
            rw [next_combined ready, if_pos crossed]
            refine delivers ?_
            rwa [Cursor.hasNext, if_pos crossed] at ready
      | false =>
          rw [if_neg (by simp [crossed])] at at_here
          obtain ⟨first', rest, split⟩ :=
            List.exists_cons_of_ne_nil (removable.1.upcoming_ne_nil store)
          rw [split, List.cons_append] at at_here
          obtain ⟨rfl, -⟩ := List.cons.inj at_here
          obtain ⟨part, sits, removes, delivers⟩ := front removable.1 made.2.1 split
          refine ⟨part, sits, ?_, ?_⟩
          · rw [Cursor.remove, if_neg (by simp [crossed]), removes]
          · intro ready
            rw [next_combined ready, if_neg (by simp [crossed])]
            obtain ⟨before, -⟩ | ⟨-, -, -, asked⟩ | ⟨-, gone, -⟩ := cases_hasNext_of_made made ready
            · rw [crossed] at before
              cases before
            · exact delivers asked
            · rw [crossed] at gone
              cases gone

/-! ## Combinations that occur once -/

theorem exists_combination {switch : Handle} (member : switch ∈ cursor.switches) :
    ∃ first second, combined switch first second ∈ cursor.combinations := by
  induction cursor with
  | direct | ofList | pieces | empty => cases member
  | readOnly view source ih => exact ih member
  | combined other first second front back =>
      obtain rfl | inside := List.mem_cons.mp member
      · exact ⟨first, second, List.mem_cons_self⟩
      · have within : ∃ left right, combined switch left right ∈
            first.combinations ++ second.combinations := by
          obtain inFront | inBack := List.mem_append.mp inside
          · obtain ⟨left, right, there⟩ := front inFront
            exact ⟨left, right, List.mem_append_left _ there⟩
          · obtain ⟨left, right, there⟩ := back inBack
            exact ⟨left, right, List.mem_append_right _ there⟩
        obtain ⟨left, right, there⟩ := within
        exact ⟨left, right, List.mem_cons_of_mem _ there⟩

/-- A combination in a cursor has seats, and they are seats of the cursor. -/
theorem Removable.seats_of_mem_combinations (removable : cursor.Removable) {part : Cursor α}
    (member : part ∈ cursor.combinations) :
    part.seats ≠ [] ∧ ∀ seat ∈ part.seats, seat ∈ cursor.seats := by
  induction cursor with
  | direct | ofList | pieces | empty => cases member
  | readOnly => cases removable
  | combined switch first second front back =>
      obtain rfl | inside := List.mem_cons.mp member
      · exact ⟨removable.seats_ne_nil, fun _ there => there⟩
      · obtain inFront | inBack := List.mem_append.mp inside
        · obtain ⟨some, within⟩ := front removable.1 inFront
          exact ⟨some, fun seat there => List.mem_append_left _ (within seat there)⟩
        · obtain ⟨some, within⟩ := back removable.2 inBack
          exact ⟨some, fun seat there => List.mem_append_right _ (within seat there)⟩

/-- **If no seat occurs twice, no combination does.** -/
theorem untangled_of_toldApart (removable : cursor.Removable) (distinct : cursor.seats.Nodup)
    (told : ToldApart [cursor]) : cursor.Untangled := by
  induction cursor with
  | direct | ofList | pieces | empty => trivial
  | readOnly => cases removable
  | combined switch first second front back =>
      obtain ⟨distinctFront, distinctBack, apart⟩ := List.nodup_append.mp distinct
      have within : ∀ part ∈ first.combinations ++ second.combinations,
          part ∈ [combined switch first second].flatMap combinations := by
        intro part member
        rw [List.flatMap_singleton]
        exact List.mem_cons_of_mem _ member
      refine ⟨front removable.1 distinctFront (told.mono ?_),
        back removable.2 distinctBack (told.mono ?_), ?_⟩
      · intro part member
        rw [List.flatMap_singleton] at member
        exact within part (List.mem_append_left _ member)
      · intro part member
        rw [List.flatMap_singleton] at member
        exact within part (List.mem_append_right _ member)
      · intro inner inFront inBack
        -- A combination on both sides would bring its seats to both sides.
        obtain ⟨left, right, there⟩ := exists_combination inFront
        obtain ⟨left', right', there'⟩ := exists_combination inBack
        have same := told _ (within _ (List.mem_append_left _ there)) _
          (within _ (List.mem_append_right _ there')) rfl
        rw [← same] at there'
        obtain ⟨some, seatsFront⟩ := removable.1.seats_of_mem_combinations there
        obtain ⟨-, seatsBack⟩ := removable.2.seats_of_mem_combinations there'
        obtain ⟨seat, member⟩ := List.exists_mem_of_ne_nil _ some
        exact apart seat (seatsFront seat member) seat (seatsBack seat member) rfl

end Cursor

end Collections
