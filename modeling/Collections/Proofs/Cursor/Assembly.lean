import Collections.Cursor.Sequence
import Collections.Proofs.Cursor.Seats

/-!
# Assembling cursors

Cursors are built one after the other: a sequence hands one out, a list cursor is opened, and list
cursors that are there are reversed, cursors that are there are combined, or viewed to be read only
(`Assembled`). A cursor that is there may be used for several others, and a sequence made of one
hands out the same cursor every time.

To build a cursor takes handles that were never used, and leaves alone what is known under older
ones (`Store.Grown`). So every cursor that has been built is fresh (`Assembled.fresh`): its parts
are older than the combinations of them, each stands at a place of its container, nothing has been
delivered yet, and no combination has gone over. If two combinations have the same handle, they are
the same (`Assembled.toldApart`).
-/

set_option autoImplicit false

namespace Collections

variable {α : Type}

/-! ## New handles -/

namespace Store

/-- Handles have been taken into use, and what is known under older ones is as it was. -/
structure Grown (before after : Store α) : Prop where
  items : ∀ source, after.items source = before.items source
  place : ∀ source, ∀ slot < before.fresh,
    (after.container source).places.get slot = (before.container source).places.get slot
  splitter : ∀ slot < before.fresh, after.splitters.get slot = before.splitters.get slot
  crossed : ∀ switch < before.fresh, after.hasCrossed switch = before.hasCrossed switch
  fresh : before.fresh ≤ after.fresh

namespace Grown

variable {before middle after : Store α}

theorem refl (store : Store α) : Grown store store :=
  ⟨fun _ => rfl, fun _ _ _ => rfl, fun _ _ => rfl, fun _ _ => rfl, Nat.le_refl _⟩

theorem trans (first : Grown before middle) (second : Grown middle after) : Grown before after where
  items source := (second.items source).trans (first.items source)
  place source slot older :=
    (second.place source slot (Nat.lt_of_lt_of_le older first.fresh)).trans
      (first.place source slot older)
  splitter slot older :=
    (second.splitter slot (Nat.lt_of_lt_of_le older first.fresh)).trans (first.splitter slot older)
  crossed switch older :=
    (second.crossed switch (Nat.lt_of_lt_of_le older first.fresh)).trans
      (first.crossed switch older)
  fresh := Nat.le_trans first.fresh second.fresh

theorem allocate (store : Store α) : Grown store store.allocate.2 :=
  { refl store with fresh := Nat.le_succ _ }

theorem openPlace (store : Store α) (source : Handle) (grip : Grip) (start : Nat) :
    Grown store (store.openPlace source grip start).2 := by
  have moved : MovedAt source store.fresh store.allocate.2
      (store.openPlace source grip start).2 :=
    movedAt_put rfl fun _ differ => Table.get_set_of_ne _ _ differ
  refine ⟨moved.items, fun other slot older => moved.place other slot ?_, fun _ _ => rfl,
    fun _ _ => rfl, Nat.le_succ _⟩
  rintro ⟨-, rfl⟩
  exact Nat.lt_irrefl _ older

theorem cursorOfPieces (store : Store α) (start : Splitter) (read : Bytes → α) :
    Grown store (store.cursorOfPieces start read).2 :=
  { refl store with
    splitter := fun _ older => Table.get_set_of_ne _ _ (Nat.ne_of_lt older)
    fresh := Nat.le_succ _ }

theorem combine (first second : Cursor α) (store : Store α) :
    Grown store (Cursor.combine first second store).2 :=
  { refl store with
    crossed := by
      intro switch older
      rw [Cursor.combine, Store.allocate, hasCrossed_uncross, if_neg (Nat.ne_of_lt older)]
      rfl
    fresh := Nat.le_succ _ }

theorem reverse (cursor : ListCursor) (store : Store α) : Grown store (cursor.reverse store).2 := by
  cases cursor with
  | direct source slot => exact allocate store
  | reversed view source => exact refl store

end Grown

end Store

/-- What a seat shows does not depend on what is known under newer handles. -/
theorem Seat.Shows.of_grown {seat : Seat} {before after : Store α} {zipper : Zipper α}
    (shows : seat.Shows before zipper) (grown : Store.Grown before after)
    (older : seat.slot < before.fresh) : seat.Shows after zipper :=
  Zipper.Describes.congr shows (grown.items _) (grown.place _ _ older)

/-! ## Fresh cursors -/

/-- The seat at the same place that looks the other way. -/
def Seat.opposite (seat : Seat) : Seat := { seat with isView := !seat.isView }

theorem Seat.Shows.turned {seat : Seat} {store : Store α} {zipper : Zipper α}
    (shows : seat.Shows store zipper) : seat.opposite.Shows store zipper.turned := by
  have same : zipper.turned.straight (!seat.isView) = zipper.straight seat.isView := by
    cases seat.isView with
    | false => exact zipper.turned_turned
    | true => rfl
  rw [Shows, opposite, same]
  exact shows

/-- A seat in which nothing has been delivered since it was taken. -/
def Seat.Unused (seat : Seat) (store : Store α) : Prop :=
  ∃ zipper, seat.Shows store zipper ∧ zipper.current = none

namespace Cursor

/-- The combinations in a cursor. -/
def switches : Cursor α → List Handle
  | combined switch first second => switch :: (first.switches ++ second.switches)
  | readOnly _ source => source.switches
  | _ => []

theorem lt_of_mem_switches {cursor : Cursor α} {bound switch : Handle}
    (made : cursor.MadeBefore bound) (member : switch ∈ cursor.switches) : switch < bound := by
  induction cursor generalizing bound with
  | direct | ofList | pieces | empty => cases member
  | readOnly view source ih => exact ih made member
  | combined other first second front back =>
      obtain rfl | inside := List.mem_cons.mp member
      · exact made.1
      · obtain inFront | inBack := List.mem_append.mp inside
        · exact Nat.lt_trans (front made.2.1 inFront) made.1
        · exact Nat.lt_trans (back made.2.2 inBack) made.1

/-- A cursor that has been built and not been used yet. -/
structure Fresh (store : Store α) (cursor : Cursor α) : Prop where
  made : cursor.MadeBefore store.fresh
  older : ∀ seat ∈ cursor.seats, seat.slot < store.fresh
  unused : ∀ seat ∈ cursor.seats, seat.Unused store
  waiting : ∀ switch ∈ cursor.switches, store.hasCrossed switch = false
  /-- A list cursor is one that was opened, or the reversed view of one. -/
  shaped : ∀ list, cursor = .ofList list →
    ∃ source slot view isView, list = .shape source slot view isView

namespace Fresh

variable {before after store : Store α} {cursor first second : Cursor α}

theorem grown (fresh : cursor.Fresh before) (grown : Store.Grown before after) :
    cursor.Fresh after where
  made := fresh.made.mono grown.fresh
  older seat member := Nat.lt_of_lt_of_le (fresh.older seat member) grown.fresh
  unused seat member := by
    obtain ⟨zipper, shows, nothing⟩ := fresh.unused seat member
    exact ⟨zipper, shows.of_grown grown (fresh.older seat member), nothing⟩
  waiting switch member := by
    rw [grown.crossed switch (lt_of_mem_switches fresh.made member), fresh.waiting switch member]
  shaped := fresh.shaped

theorem cursorOver (store : Store α) (source : Handle) :
    (store.cursorOver source).1.Fresh (store.cursorOver source).2 where
  made := trivial
  older seat member := by
    obtain rfl := List.mem_singleton.mp member
    exact Nat.lt_succ_self _
  unused seat member := by
    obtain rfl := List.mem_singleton.mp member
    refine ⟨Zipper.ofList (store.items source) 0, ?_, rfl⟩
    show Zipper.Describes _ ((Store.put _ source _).container source) _
    rw [Store.container_put_self]
    exact Zipper.describes_openPlace _ _ _ (Nat.zero_le _)
  waiting _ none := absurd none List.not_mem_nil
  shaped list same := by cases same

theorem listCursorOver (store : Store α) (source : Handle) {start : Nat}
    (inside : start ≤ (store.items source).length) :
    (Cursor.ofList (store.listCursorOver source start).1 : Cursor α).Fresh
      (store.listCursorOver source start).2 where
  made := trivial
  older seat member := by
    obtain rfl := List.mem_singleton.mp member
    exact Nat.lt_succ_self _
  unused seat member := by
    obtain rfl := List.mem_singleton.mp member
    exact ⟨_, Zipper.describes_listCursorOver store source inside, rfl⟩
  waiting _ none := absurd none List.not_mem_nil
  shaped list same := by
    obtain rfl := Cursor.ofList.inj same
    exact ⟨source, store.fresh, 0, false, rfl⟩

theorem reverse {list : ListCursor} (fresh : (Cursor.ofList list : Cursor α).Fresh store) :
    (Cursor.ofList (list.reverse store).1 : Cursor α).Fresh (list.reverse store).2 := by
  have grown := Store.Grown.reverse list store
  obtain ⟨source, slot, view, isView, rfl⟩ := fresh.shaped list rfl
  have flipped : ((ListCursor.shape source slot view isView).reverse store).1.seat =
      (ListCursor.shape source slot view isView).seat.opposite := by
    cases isView <;> rfl
  have older := fresh.older _ (List.mem_singleton_self _)
  obtain ⟨zipper, shows, nothing⟩ := fresh.unused _ (List.mem_singleton_self _)
  refine ⟨trivial, ?_, ?_, fun _ none => absurd none List.not_mem_nil, ?_⟩
  · intro seat member
    obtain rfl := List.mem_singleton.mp member
    rw [flipped]
    exact Nat.lt_of_lt_of_le older grown.fresh
  · intro seat member
    obtain rfl := List.mem_singleton.mp member
    rw [flipped]
    exact ⟨zipper.turned, (shows.of_grown grown older).turned, by rw [Zipper.turned, nothing]; rfl⟩
  · intro other same
    obtain rfl := Cursor.ofList.inj same
    cases isView with
    | false => exact ⟨source, slot, store.fresh, true, rfl⟩
    | true => exact ⟨source, slot, view, false, rfl⟩

theorem cursorOfPieces (store : Store α) (start : Splitter) (read : Bytes → α) :
    (store.cursorOfPieces start read).1.Fresh (store.cursorOfPieces start read).2 :=
  ⟨trivial, fun _ none => absurd none List.not_mem_nil, fun _ none => absurd none List.not_mem_nil,
    fun _ none => absurd none List.not_mem_nil, fun _ same => by cases same⟩

theorem empty (store : Store α) : (Cursor.empty : Cursor α).Fresh store :=
  ⟨trivial, fun _ none => absurd none List.not_mem_nil, fun _ none => absurd none List.not_mem_nil,
    fun _ none => absurd none List.not_mem_nil, fun _ same => by cases same⟩

theorem combine (front : first.Fresh store) (back : second.Fresh store) :
    (Cursor.combine first second store).1.Fresh (Cursor.combine first second store).2 := by
  have grown := Store.Grown.combine first second store
  refine ⟨madeBefore_combine front.made back.made, ?_, ?_, ?_, fun _ same => by cases same⟩
  · intro seat member
    exact (List.mem_append.mp member).elim ((front.grown grown).older seat)
      ((back.grown grown).older seat)
  · intro seat member
    exact (List.mem_append.mp member).elim ((front.grown grown).unused seat)
      ((back.grown grown).unused seat)
  · intro switch member
    obtain rfl | inside := List.mem_cons.mp member
    · exact (store.allocate.2.hasCrossed_uncross _ _).trans (if_pos rfl)
    · exact (List.mem_append.mp inside).elim ((front.grown grown).waiting switch)
        ((back.grown grown).waiting switch)

theorem readOnly (fresh : cursor.Fresh store) :
    (Cursor.readOnly store.allocate.1 cursor).Fresh store.allocate.2 := by
  have grown := fresh.grown (.allocate store)
  exact ⟨grown.made, grown.older, grown.unused, grown.waiting, fun _ same => by cases same⟩

end Fresh

end Cursor

/-! ## Cursors handed out by sequences -/

namespace Sequence

/-- The cursors that a sequence hands out although it has not made them. -/
def looped : Sequence α → List (Cursor α)
  | loop _ cursor => [cursor]
  | combined _ first second => first.looped ++ second.looped
  | guarded _ source => source.looped
  | _ => []

theorem grown_cursor (sequence : Sequence α) (store : Store α) :
    Store.Grown store (sequence.cursor store).2 := by
  induction sequence generalizing store with
  | forward view source => exact .openPlace store source _ 0
  | backward view source =>
      refine Store.Grown.trans (.openPlace store source .number (store.items source).length) ?_
      exact .reverse (.direct source store.fresh) _
  | pieces view start read => exact .cursorOfPieces store start read
  | empty => exact .refl store
  | combined view first second front back =>
      exact ((front store).trans (back _)).trans (.combine _ _ _)
  | guarded view source ih => exact ih store
  | loop view cursor => exact .refl store

/-- A sequence hands out fresh cursors. -/
theorem fresh_cursor (sequence : Sequence α) {store : Store α}
    (looped : ∀ cursor ∈ sequence.looped, cursor.Fresh store) :
    (sequence.cursor store).1.Fresh (sequence.cursor store).2 := by
  induction sequence generalizing store with
  | forward view source => exact .cursorOver store source
  | backward view source => exact (Cursor.Fresh.listCursorOver store source (Nat.le_refl _)).reverse
  | pieces view start read => exact .cursorOfPieces store start read
  | empty => exact .empty store
  | combined view first second front back =>
      have inFront := front fun cursor member => looped cursor (List.mem_append_left _ member)
      have inBack := back fun cursor member =>
        (looped cursor (List.mem_append_right _ member)).grown (first.grown_cursor store)
      exact .combine (inFront.grown (second.grown_cursor _)) inBack
  | guarded view source ih => exact ih looped
  | loop view cursor => exact looped cursor (List.mem_singleton_self cursor)

end Sequence

/-! ## Handles tell combinations apart -/

namespace Cursor

/-- The combinations in a cursor, each with its parts. -/
def combinations : Cursor α → List (Cursor α)
  | combined switch first second =>
      combined switch first second :: (first.combinations ++ second.combinations)
  | readOnly _ source => source.combinations
  | _ => []

/-- Two combinations in some cursors are the same if their handles are. -/
def ToldApart (cursors : List (Cursor α)) : Prop :=
  ∀ left ∈ cursors.flatMap combinations, ∀ right ∈ cursors.flatMap combinations,
    left.handle? = right.handle? → left = right

theorem handle?_lt_of_mem_combinations {cursor part : Cursor α} {bound : Handle}
    (made : cursor.MadeBefore bound) (member : part ∈ cursor.combinations) :
    ∃ switch < bound, part.handle? = some switch := by
  induction cursor generalizing bound with
  | direct | ofList | pieces | empty => cases member
  | readOnly view source ih => exact ih made member
  | combined switch first second front back =>
      obtain rfl | inside := List.mem_cons.mp member
      · exact ⟨switch, made.1, rfl⟩
      · have within : ∃ other < switch, part.handle? = some other :=
          (List.mem_append.mp inside).elim (front made.2.1) (back made.2.2)
        obtain ⟨other, older, same⟩ := within
        exact ⟨other, Nat.lt_trans older made.1, same⟩

namespace ToldApart

variable {cursors others : List (Cursor α)} {first second : Cursor α} {switch : Handle}

theorem mono (told : ToldApart cursors)
    (within : ∀ part ∈ others.flatMap combinations, part ∈ cursors.flatMap combinations) :
    ToldApart others :=
  fun left inLeft right inRight => told left (within left inLeft) right (within right inRight)

/-- A cursor whose combinations are there already brings in none. -/
theorem cons (told : ToldApart cursors) {cursor : Cursor α}
    (there : ∀ part ∈ cursor.combinations, part ∈ cursors.flatMap combinations) :
    ToldApart (cursor :: cursors) := by
  refine told.mono ?_
  intro part member
  rw [List.flatMap_cons] at member
  exact (List.mem_append.mp member).elim (there part) id

/-- A new combination is told apart by its handle. -/
theorem combine (told : ToldApart cursors) (made : ∀ cursor ∈ cursors, cursor.MadeBefore switch)
    (front : first ∈ cursors) (back : second ∈ cursors) :
    ToldApart (combined switch first second :: cursors) := by
  have cases : ∀ part ∈ (combined switch first second :: cursors).flatMap combinations,
      part = combined switch first second ∨ part ∈ cursors.flatMap combinations := by
    intro part member
    rw [List.flatMap_cons, combinations, List.cons_append, List.mem_cons, List.mem_append,
      List.mem_append] at member
    obtain rfl | (inFront | inBack) | there := member
    · exact .inl rfl
    · exact .inr (List.mem_flatMap_of_mem front inFront)
    · exact .inr (List.mem_flatMap_of_mem back inBack)
    · exact .inr there
  have older : ∀ part ∈ cursors.flatMap combinations, part.handle? ≠ some switch := by
    intro part member same
    obtain ⟨cursor, there, inside⟩ := List.mem_flatMap.mp member
    obtain ⟨other, before, known⟩ := handle?_lt_of_mem_combinations (made cursor there) inside
    exact Nat.ne_of_lt before (Option.some.inj (known.symm.trans same))
  intro left inLeft right inRight same
  obtain rfl | oldLeft := cases left inLeft
  · obtain rfl | oldRight := cases right inRight
    · rfl
    · exact absurd same.symm (older right oldRight)
  · obtain rfl | oldRight := cases right inRight
    · exact absurd same (older left oldLeft)
    · exact told left oldLeft right oldRight same

end ToldApart

end Cursor

/-- The combinations that a sequence makes are told apart. -/
theorem Sequence.toldApart_cursor (sequence : Sequence α) {made : List (Cursor α)} {store : Store α}
    (fresh : ∀ cursor ∈ made, cursor.Fresh store) (told : Cursor.ToldApart made)
    (there : ∀ cursor ∈ sequence.looped, cursor ∈ made) :
    Cursor.ToldApart ((sequence.cursor store).1 :: made) := by
  induction sequence generalizing made store with
  | forward | backward | pieces | empty =>
      exact told.cons fun _ none => absurd none List.not_mem_nil
  | guarded view source ih => exact ih fresh told there
  | loop view cursor =>
      exact told.cons fun _ member =>
        List.mem_flatMap_of_mem (there cursor (List.mem_singleton_self cursor)) member
  | combined view first second front back =>
      have thereFront : ∀ cursor ∈ first.looped, cursor ∈ made :=
        fun cursor member => there cursor (List.mem_append_left _ member)
      have thereBack : ∀ cursor ∈ second.looped, cursor ∈ (first.cursor store).1 :: made :=
        fun cursor member => List.mem_cons_of_mem _ (there cursor (List.mem_append_right _ member))
      have freshFront : ∀ cursor ∈ (first.cursor store).1 :: made,
          cursor.Fresh (first.cursor store).2 := by
        refine List.forall_mem_cons.mpr ⟨?_, ?_⟩
        · exact first.fresh_cursor fun cursor member => fresh cursor (thereFront cursor member)
        · intro cursor member
          exact (fresh cursor member).grown (first.grown_cursor store)
      have freshBack : ∀ cursor ∈
          (second.cursor (first.cursor store).2).1 :: (first.cursor store).1 :: made,
          cursor.Fresh (second.cursor (first.cursor store).2).2 := by
        refine List.forall_mem_cons.mpr ⟨?_, ?_⟩
        · exact second.fresh_cursor fun cursor member => freshFront cursor (thereBack cursor member)
        · intro cursor member
          exact (freshFront cursor member).grown (second.grown_cursor _)
      have both := back freshFront (front fresh told thereFront) thereBack
      have whole := both.combine (fun cursor member => (freshBack cursor member).made)
        (List.mem_cons_of_mem _ List.mem_cons_self) List.mem_cons_self
      refine whole.mono ?_
      intro part member
      rw [List.flatMap_cons] at member
      simp only [List.flatMap_cons, List.mem_append]
      exact (List.mem_append.mp member).imp_right fun old => .inr (.inr old)

/-! ## Assembling -/

/-- Cursors that have been built one after the other, the last one first, and the store
afterwards. -/
inductive Assembled : List (Cursor α) → Store α → Prop where
  | start (store : Store α) : Assembled [] store
  /-- A handle is used for something else. -/
  | allocate {made : List (Cursor α)} {store : Store α} (assembled : Assembled made store) :
      Assembled made store.allocate.2
  /-- A sequence is asked for a cursor. Cursors that it only hands out have been built before. -/
  | cursor {made : List (Cursor α)} {store : Store α} (assembled : Assembled made store)
      (sequence : Sequence α) (there : ∀ cursor ∈ sequence.looped, cursor ∈ made) :
      Assembled ((sequence.cursor store).1 :: made) (sequence.cursor store).2
  | listCursor {made : List (Cursor α)} {store : Store α} (assembled : Assembled made store)
      (source : Handle) {start : Nat} (inside : start ≤ (store.items source).length) :
      Assembled (.ofList (store.listCursorOver source start).1 :: made)
        (store.listCursorOver source start).2
  | reverse {made : List (Cursor α)} {store : Store α} (assembled : Assembled made store)
      {list : ListCursor} (there : .ofList list ∈ made) :
      Assembled (.ofList (list.reverse store).1 :: made) (list.reverse store).2
  | combine {made : List (Cursor α)} {store : Store α} (assembled : Assembled made store)
      {first second : Cursor α} (front : first ∈ made) (back : second ∈ made) :
      Assembled ((Cursor.combine first second store).1 :: made)
        (Cursor.combine first second store).2
  | readOnly {made : List (Cursor α)} {store : Store α} (assembled : Assembled made store)
      {cursor : Cursor α} (there : cursor ∈ made) :
      Assembled (.readOnly store.allocate.1 cursor :: made) store.allocate.2

/-- **Cursors that have been built are fresh.** -/
theorem Assembled.fresh {made : List (Cursor α)} {store : Store α}
    (assembled : Assembled made store) : ∀ cursor ∈ made, cursor.Fresh store := by
  induction assembled with
  | start store => exact fun _ none => absurd none List.not_mem_nil
  | @allocate made store _ ih =>
      exact fun cursor member => (ih cursor member).grown (.allocate store)
  | @cursor made store _ sequence there ih =>
      refine List.forall_mem_cons.mpr ⟨?_, ?_⟩
      · exact sequence.fresh_cursor fun cursor member => ih cursor (there cursor member)
      · intro cursor member
        exact (ih cursor member).grown (sequence.grown_cursor store)
  | @listCursor made store _ source start inside ih =>
      refine List.forall_mem_cons.mpr ⟨?_, ?_⟩
      · exact .listCursorOver store source inside
      · intro cursor member
        exact (ih cursor member).grown (.openPlace store source .number start)
  | @reverse made store _ list there ih =>
      refine List.forall_mem_cons.mpr ⟨?_, ?_⟩
      · exact (ih _ there).reverse
      · intro cursor member
        exact (ih cursor member).grown (.reverse list store)
  | @combine made store _ first second front back ih =>
      refine List.forall_mem_cons.mpr ⟨?_, ?_⟩
      · exact .combine (ih first front) (ih second back)
      · intro cursor member
        exact (ih cursor member).grown (.combine first second store)
  | @readOnly made store _ cursor there ih =>
      refine List.forall_mem_cons.mpr ⟨?_, ?_⟩
      · exact (ih cursor there).readOnly
      · intro cursor member
        exact (ih cursor member).grown (.allocate store)

/-- **Their combinations are told apart by their handles.** -/
theorem Assembled.toldApart {made : List (Cursor α)} {store : Store α}
    (assembled : Assembled made store) : Cursor.ToldApart made := by
  induction assembled with
  | start => exact fun _ none => absurd none List.not_mem_nil
  | allocate _ ih => exact ih
  | cursor assembled sequence there ih => exact sequence.toldApart_cursor assembled.fresh ih there
  | listCursor _ _ _ ih | reverse _ _ ih => exact ih.cons fun _ none => absurd none List.not_mem_nil
  | combine assembled front back ih =>
      exact ih.combine (fun cursor member => (assembled.fresh cursor member).made) front back
  | readOnly _ there ih => exact ih.cons fun _ member => List.mem_flatMap_of_mem there member

end Collections
