import Collections.Proofs.Cursor.Independence
import Collections.Proofs.Runs

/-!
# Sequences that start anew

A sequence that is not made of a given cursor stands for a list (`Sequence.meaning`), and each
cursor that it hands out offers that list from its start (`Sequence.offers_cursor`). The cursor
takes handles that were never used, so cursors that have been handed out before do not notice.

Readers of a sequence open cursors and read them in any order (`Readers.respond`). As no two cursors
share a handle, each of them goes through the list by itself (`Readers.Keeps.read`). So readers are
answered as if each had a copy of the list (`Readers.Keeps.respond`), which is what an expression
that is built from containers, lists, and texts means (`expression_means_list`).
-/

set_option autoImplicit false

namespace Collections

variable {α : Type}

/-! ## What a sequence stands for -/

namespace Sequence

/-- The elements of a sequence, if it starts anew with every cursor. -/
def meaning : Sequence α → Store α → List α
  | forward _ source, store => store.items source
  | backward _ source, store => (store.items source).reverse
  | pieces _ start read, _ => start.pieces.map read
  | empty, _ => []
  | combined _ first second, store => first.meaning store ++ second.meaning store
  | guarded _ source, store => source.meaning store
  | loop _ _, _ => []

theorem meaning_congr (sequence : Sequence α) {before after : Store α}
    (same : ∀ source, after.items source = before.items source) :
    sequence.meaning after = sequence.meaning before := by
  induction sequence with
  | forward view source => exact same source
  | backward view source => exact congrArg List.reverse (same source)
  | pieces | empty | loop => rfl
  | combined view first second front back => rw [meaning, meaning, front, back]
  | guarded view source ih => exact ih

end Sequence

/-! ## Handles that are taken one after the other -/

section Taken

variable {lower middle upper : Handle} {front back : List Handle}

theorem disjoint_of_taken (earlier : ∀ handle ∈ front, handle < middle)
    (later : ∀ handle ∈ back, middle ≤ handle) : front.Disjoint back := fun handle old new =>
  Nat.lt_irrefl _ (Nat.lt_of_lt_of_le (earlier handle old) (later handle new))

/-- Handles that were taken at different times differ. -/
theorem nodup_of_taken (distinctFront : front.Nodup) (distinctBack : back.Nodup)
    (earlier : ∀ handle ∈ front, handle < middle)
    (later : ∀ handle ∈ back, middle ≤ handle ∧ handle < upper) (ordered : middle ≤ upper) :
    (upper :: (front ++ back)).Nodup := by
  refine List.nodup_cons.mpr ⟨?_, List.nodup_append.mpr ⟨distinctFront, distinctBack, ?_⟩⟩
  · intro here
    obtain inFront | inBack := List.mem_append.mp here
    · exact Nat.lt_irrefl _ (Nat.lt_of_lt_of_le (earlier _ inFront) ordered)
    · exact Nat.lt_irrefl _ (later _ inBack).2
  · rintro handle inFront _ inBack rfl
    exact disjoint_of_taken earlier (fun handle member => (later handle member).1) inFront inBack

theorem between_of_taken (earlier : ∀ handle ∈ front, lower ≤ handle ∧ handle < middle)
    (later : ∀ handle ∈ back, middle ≤ handle ∧ handle < upper) (first : lower ≤ middle)
    (second : middle ≤ upper) :
    ∀ handle ∈ upper :: (front ++ back), lower ≤ handle ∧ handle < upper + 1 := by
  intro handle member
  obtain rfl | inside := List.mem_cons.mp member
  · exact ⟨Nat.le_trans first second, Nat.lt_succ_self _⟩
  · obtain inFront | inBack := List.mem_append.mp inside
    · obtain ⟨beyond, below⟩ := earlier handle inFront
      exact ⟨beyond, Nat.lt_succ_of_lt (Nat.lt_of_lt_of_le below second)⟩
    · obtain ⟨beyond, below⟩ := later handle inBack
      exact ⟨Nat.le_trans first beyond, Nat.lt_succ_of_lt below⟩

end Taken

theorem Seat.ahead_openPlace (store : Store α) (source : Handle) (grip : Grip) (start : Nat)
    (isView : Bool) :
    Seat.ahead ⟨source, store.fresh, isView⟩ (store.openPlace source grip start).2 =
      if isView then ((store.items source).take start).reverse
      else (store.items source).drop start := by
  have opened : (store.openPlace source grip start).2.container source =
      (store.container source).openPlace store.fresh grip start :=
    store.allocate.2.container_put_self source _
  rw [ahead, Store.items, opened, Container.openPlace, Table.get_set_self]
  rfl

/-- A cursor that has just been built offers what it has to deliver, if its parts share nothing. -/
theorem Cursor.Fresh.offers {cursor : Cursor α} {store : Store α} (fresh : cursor.Fresh store)
    (distinct : cursor.handles.Nodup) {items : List α} (rest : cursor.rest store = items) :
    cursor.Offers store.fresh store items where
  distinct := distinct
  made := fresh.made
  shown seat member := (fresh.unused seat member).imp fun _ => And.left
  rest := rest

/-- A combination of cursors that were opened one after the other offers both lists. -/
theorem Cursor.offers_combine {first second : Cursor α} {between last : Store α}
    {inFront inBack : List α} (offersFront : first.Offers between.fresh between inFront)
    (offersBack : second.Offers last.fresh last inBack) (later : Store.Grown between last)
    (front : ∀ handle ∈ first.handles, handle < between.fresh)
    (back : ∀ handle ∈ second.handles, between.fresh ≤ handle ∧ handle < last.fresh) :
    (Cursor.combine first second last).1.Offers (Cursor.combine first second last).2.fresh
      (Cursor.combine first second last).2 (inFront ++ inBack) := by
  have combining := Store.Grown.combine first second last
  have uncrossed : (Cursor.combine first second last).2.hasCrossed last.fresh = false :=
    (last.allocate.2.hasCrossed_uncross _ _).trans (if_pos rfl)
  have distinct := nodup_of_taken offersFront.distinct offersBack.distinct front back later.fresh
  refine Offers.combined_iff.mpr
    ⟨distinct, Nat.lt_succ_self _, inFront, inBack, ?_, ?_, ?_⟩
  · exact (offersFront.of_sameAt ((later.trans combining).sameAt front)).mono later.fresh
  · exact offersBack.of_sameAt (combining.sameAt fun handle member => (back handle member).2)
  · rw [uncrossed, if_neg Bool.false_ne_true]

/-- **Each cursor of a sequence offers all its elements**, under handles of its own. -/
theorem Sequence.offers_cursor (sequence : Sequence α) (restarts : sequence.looped = [])
    (store : Store α) :
    (sequence.cursor store).1.Offers (sequence.cursor store).2.fresh (sequence.cursor store).2
        (sequence.meaning store) ∧
      ∀ handle ∈ (sequence.cursor store).1.handles,
        store.fresh ≤ handle ∧ handle < (sequence.cursor store).2.fresh := by
  have fresh : ∀ {store : Store α} {sequence : Sequence α}, sequence.looped = [] →
      (sequence.cursor store).1.Fresh (sequence.cursor store).2 := fun restarts =>
    Sequence.fresh_cursor _ fun _ none => absurd (restarts ▸ none) List.not_mem_nil
  have single : ∀ {slot : Handle}, ∀ handle ∈ [slot], slot ≤ handle ∧ handle < slot + 1 := by
    intro slot handle here
    obtain rfl := List.mem_singleton.mp here
    exact ⟨Nat.le_refl _, Nat.lt_succ_self _⟩
  induction sequence generalizing store with
  | forward view source =>
      refine ⟨(fresh restarts).offers (List.nodup_singleton _) ?_, single⟩
      exact Seat.ahead_openPlace store source _ 0 false
  | backward view source =>
      refine ⟨(fresh restarts).offers (List.nodup_singleton _) ?_, ?_⟩
      · refine (Seat.ahead_openPlace store source .number _ true).trans ?_
        exact congrArg List.reverse (List.take_length ..)
      · intro handle here
        obtain ⟨beyond, below⟩ := single handle here
        exact ⟨beyond, Nat.lt_succ_of_lt below⟩
  | pieces view start read =>
      refine ⟨(fresh restarts).offers (List.nodup_singleton _) ?_, single⟩
      show ((store.splitters.set store.fresh start).get store.fresh).pieces.map read = _
      rw [Table.get_set_self]
      rfl
  | empty =>
      exact ⟨(fresh restarts).offers List.nodup_nil rfl, fun _ none => absurd none List.not_mem_nil⟩
  | guarded view source ih => exact ih restarts store
  | loop => cases restarts
  | combined view first second front back =>
      obtain ⟨noneFront, noneBack⟩ := List.append_eq_nil_iff.mp restarts
      obtain ⟨offersFront, withinFront⟩ := front noneFront store
      obtain ⟨offersBack, withinBack⟩ := back noneBack (first.cursor store).2
      have earlier := first.grown_cursor store
      have later := second.grown_cursor (first.cursor store).2
      rw [second.meaning_congr earlier.items] at offersBack
      exact ⟨Cursor.offers_combine offersFront offersBack later
          (fun handle member => (withinFront handle member).2) withinBack,
        between_of_taken withinFront withinBack earlier.fresh later.fresh⟩

/-! ## Expressions -/

/-- A way to build a sequence that starts anew with every cursor. -/
inductive Expression (α : Type) where
  | elements (source : Handle)
  | reversed (source : Handle)
  /-- The pieces of a text, read as elements. -/
  | split (delimiter subject : Bytes) (nonempty : delimiter ≠ []) (read : Bytes → α)
  | empty
  | combine (first second : Expression α)
  | combineThree (first second third : Expression α)
  | combineFour (first second third fourth : Expression α)
  | guarded (source : Expression α)

namespace Expression

/-- The list that an expression means. -/
def meaning : Expression α → Store α → List α
  | elements source, store => store.items source
  | reversed source, store => (store.items source).reverse
  | split delimiter subject nonempty read, _ =>
      (Splitter.piecesOf delimiter nonempty subject).map read
  | empty, _ => []
  | combine first second, store => first.meaning store ++ second.meaning store
  | combineThree first second third, store =>
      first.meaning store ++ second.meaning store ++ third.meaning store
  | combineFour first second third fourth, store =>
      first.meaning store ++ second.meaning store ++ third.meaning store ++ fourth.meaning store
  | guarded source, store => source.meaning store

/-- Build something, and go on with it unless that failed. -/
def andThen {β γ : Type} (outcome : Outcome α β) (next : β → Store α → Outcome α γ) :
    Outcome α γ :=
  match outcome with
  | (.ok result, store) => next result store
  | (.error cause, store) => (.error cause, store)

/-- Build the sequence of an expression. -/
def build : Expression α → Store α → Outcome α (Sequence α)
  | elements source, store => (Sequence.make (.forward · source) store).map .ok id
  | reversed source, store => (Sequence.make (.backward · source) store).map .ok id
  | split delimiter subject _ read, store => Sequence.split? delimiter subject read store
  | empty, store => (.ok .empty, store)
  | combine first second, store =>
      andThen (first.build store) fun first store =>
      andThen (second.build store) fun second store =>
        Sequence.combine? (some first) (some second) store
  | combineThree first second third, store =>
      andThen (first.build store) fun first store =>
      andThen (second.build store) fun second store =>
      andThen (third.build store) fun third store =>
        Sequence.combineThree? (some first) (some second) (some third) store
  | combineFour first second third fourth, store =>
      andThen (first.build store) fun first store =>
      andThen (second.build store) fun second store =>
      andThen (third.build store) fun third store =>
      andThen (fourth.build store) fun fourth store =>
        Sequence.combineFour? (some first) (some second) (some third) (some fourth) store
  | guarded source, store =>
      andThen (source.build store) fun source store =>
        (Sequence.make (.guarded · source) store).map .ok id

/-- An expression builds a sequence that starts anew and stands for what the expression means. -/
structure Builds (expression : Expression α) (store : Store α) (sequence : Sequence α)
    (built : Store α) : Prop where
  result : expression.build store = (.ok sequence, built)
  restarts : sequence.looped = []
  grown : Store.Grown store built
  meaning : ∀ store, sequence.meaning store = expression.meaning store

theorem Builds.andThen_eq {β : Type} {expression : Expression α} {store built : Store α}
    {sequence : Sequence α} (builds : expression.Builds store sequence built)
    (next : Sequence α → Store α → Outcome α β) :
    andThen (expression.build store) next = next sequence built := by
  rw [builds.result]
  rfl

/-- **Every expression can be built.** -/
theorem exists_builds (expression : Expression α) (store : Store α) :
    ∃ sequence built, expression.Builds store sequence built := by
  have allocating : ∀ {before after : Store α}, Store.Grown before after →
      Store.Grown before after.allocate.2 := fun grown => grown.trans (.allocate _)
  induction expression generalizing store with
  | elements source => exact ⟨_, _, rfl, rfl, .allocate store, fun _ => rfl⟩
  | reversed source => exact ⟨_, _, rfl, rfl, .allocate store, fun _ => rfl⟩
  | split delimiter subject nonempty read =>
      refine ⟨.pieces store.fresh { delimiter, subject, nonempty } read, store.allocate.2, ?_, rfl,
        .allocate store, fun _ => rfl⟩
      rw [build, Sequence.split?, Splitter.start?, dif_pos nonempty]
      rfl
  | empty => exact ⟨_, _, rfl, rfl, .refl store, fun _ => rfl⟩
  | guarded source ih =>
      obtain ⟨inner, built, builds⟩ := ih store
      refine ⟨.guarded built.fresh inner, built.allocate.2, ?_, builds.restarts,
        allocating builds.grown, builds.meaning⟩
      rw [build, builds.result]
      rfl
  | combine first second ihFirst ihSecond =>
      obtain ⟨one, _, first⟩ := ihFirst store
      obtain ⟨two, last, second⟩ := ihSecond _
      refine ⟨.combined last.fresh one two, last.allocate.2, ?_, ?_,
        allocating (first.grown.trans second.grown), ?_⟩
      · rw [build]
        exact (first.andThen_eq _).trans (second.andThen_eq _)
      · simp only [Sequence.looped, first.restarts, second.restarts, List.append_nil]
      · intro store
        rw [meaning, ← first.meaning, ← second.meaning]
        rfl
  | combineThree first second third ihFirst ihSecond ihThird =>
      obtain ⟨one, _, first⟩ := ihFirst store
      obtain ⟨two, _, second⟩ := ihSecond _
      obtain ⟨three, last, third⟩ := ihThird _
      have grown := (first.grown.trans second.grown).trans third.grown
      refine ⟨.combined (last.fresh + 1) (.combined last.fresh one two) three,
        last.allocate.2.allocate.2, ?_, ?_, allocating (allocating grown), ?_⟩
      · rw [build]
        exact (first.andThen_eq _).trans ((second.andThen_eq _).trans (third.andThen_eq _))
      · simp only [Sequence.looped, first.restarts, second.restarts, third.restarts,
          List.append_nil]
      · intro store
        rw [meaning, ← first.meaning, ← second.meaning, ← third.meaning]
        rfl
  | combineFour first second third fourth ihFirst ihSecond ihThird ihFourth =>
      obtain ⟨one, _, first⟩ := ihFirst store
      obtain ⟨two, _, second⟩ := ihSecond _
      obtain ⟨three, _, third⟩ := ihThird _
      obtain ⟨four, last, fourth⟩ := ihFourth _
      have grown := ((first.grown.trans second.grown).trans third.grown).trans fourth.grown
      refine ⟨.combined (last.fresh + 2) (.combined last.fresh one two)
        (.combined (last.fresh + 1) three four), last.allocate.2.allocate.2.allocate.2, ?_, ?_,
        allocating (allocating (allocating grown)), ?_⟩
      · rw [build]
        exact (first.andThen_eq _).trans ((second.andThen_eq _).trans
          ((third.andThen_eq _).trans (fourth.andThen_eq _)))
      · simp only [Sequence.looped, first.restarts, second.restarts, third.restarts,
          fourth.restarts, List.append_nil]
      · intro store
        rw [meaning, ← first.meaning, ← second.meaning, ← third.meaning, ← fourth.meaning,
          List.append_assoc]
        rfl

end Expression

/-! ## Readers -/

/-- What can be asked of a cursor that is only read. -/
inductive Reading where
  | hasNext
  | next
  | toArray
  | toArrayReversed
  | join (separator : Bytes)

/-- What a cursor that is read answers. -/
inductive Reading.Answer (α : Type) where
  | more (value : Bool)
  | delivered (result : Except CursorError α)
  | items (result : Except CursorError (List α))
  | text (result : Except CursorError Bytes)

/-- Answer a reader from a cursor. -/
def Cursor.read (render : α → Bytes) (cursor : Cursor α) (store : Store α) :
    Reading → Reading.Answer α × Store α
  | .hasNext => (cursor.hasNext store).map .more id
  | .next => (cursor.next store).map .delivered id
  | .toArray => (cursor.toArray store).map .items id
  | .toArrayReversed => (cursor.toArrayReversed store).map .items id
  | .join separator => (cursor.join separator render store).map .text id

/-- Answer a reader from a list of what is left. -/
def Reading.fromList (render : α → Bytes) (left : List α) : Reading → Answer α × List α
  | hasNext => (.more !left.isEmpty, left)
  | next =>
      match left with
      | [] => (.delivered (.error .pastEnd), [])
      | item :: rest => (.delivered (.ok item), rest)
  | toArray => (.items (.ok left), [])
  | toArrayReversed => (.items (.ok left.reverse), [])
  | join separator => (.text (.ok (Bytes.joined separator (left.map render))), [])

/-- **A cursor answers a reader as the list that it offers.** -/
theorem Cursor.Offers.read {cursor : Cursor α} {bound : Handle} {store : Store α} {items : List α}
    (offers : cursor.Offers bound store items) (render : α → Bytes) (reading : Reading) :
    ∃ after, cursor.read render store reading = ((reading.fromList render items).1, after) ∧
      cursor.Offers bound after (reading.fromList render items).2 ∧
      Store.Touches cursor.handles store after := by
  cases reading with
  | hasNext =>
      obtain ⟨after, asked, still, touches⟩ := offers.hasNext
      exact ⟨after, by rw [Cursor.read, asked]; rfl, still, touches⟩
  | next =>
      cases items with
      | nil =>
          obtain ⟨after, failed, still, touches⟩ := offers.next_nil
          exact ⟨after, by rw [Cursor.read, failed]; rfl, still, touches⟩
      | cons item rest =>
          obtain ⟨after, delivered, left, touches⟩ := offers.next_cons
          exact ⟨after, by rw [Cursor.read, delivered]; rfl, left, touches⟩
  | toArray =>
      obtain ⟨after, drains, still, touches⟩ := offers.drains
      refine ⟨after, ?_, still, touches⟩
      rw [Cursor.read, drains.toArray offers.length_le_limit]
      rfl
  | toArrayReversed =>
      obtain ⟨after, drains, still, touches⟩ := offers.drains
      refine ⟨after, ?_, still, touches⟩
      rw [Cursor.read, drains.toArrayReversed offers.length_le_limit]
      rfl
  | join separator =>
      obtain ⟨after, drains, still, touches⟩ := offers.drains
      refine ⟨after, ?_, still, touches⟩
      rw [Cursor.read, drains.join offers.length_le_limit]
      rfl

/-- The cursors of a sequence that have been opened, and the store. -/
structure Readers (α : Type) where
  store : Store α
  cursors : List (Cursor α) := []

namespace Readers

/-- Another cursor is opened, or one of those that are open is read. -/
inductive Request where
  | openCursor
  | read (index : Nat) (reading : Reading)

inductive Reply (α : Type) where
  | opened
  | answered (answer : Reading.Answer α)
  | missing

/-- Answer a request from a sequence and its open cursors. -/
def respond (sequence : Sequence α) (render : α → Bytes) (readers : Readers α) :
    Request → Reply α × Readers α
  | .openCursor =>
      let (cursor, store) := sequence.cursor readers.store
      (.opened, ⟨store, readers.cursors ++ [cursor]⟩)
  | .read index reading =>
      match readers.cursors[index]? with
      | none => (.missing, readers)
      | some cursor =>
          let (answer, store) := cursor.read render readers.store reading
          (.answered answer, { readers with store })

/-- Answer a request from a list and what is left of its copies. -/
def fromList (whole : List α) (render : α → Bytes) (copies : List (List α)) :
    Request → Reply α × List (List α)
  | .openCursor => (.opened, copies ++ [whole])
  | .read index reading =>
      match copies[index]? with
      | none => (.missing, copies)
      | some left =>
          let (answer, rest) := reading.fromList render left
          (.answered answer, copies.set index rest)

theorem getElem?_concat_cases {β : Type} {list : List β} {last item : β} {index : Nat}
    (found : (list ++ [last])[index]? = some item) :
    index < list.length ∧ list[index]? = some item ∨ index = list.length ∧ item = last := by
  obtain inside | outside := Nat.lt_or_ge index list.length
  · exact .inl ⟨inside, List.getElem?_append_left inside ▸ found⟩
  · rw [List.getElem?_append_right outside, List.getElem?_singleton] at found
    split at found
    · next zero =>
        have same := Nat.le_antisymm (Nat.sub_eq_zero_iff_le.mp zero) outside
        exact .inr ⟨same, (Option.some.inj found).symm⟩
    · cases found

/-- Each open cursor offers what is left of its copy, no two share anything, and the containers have
the elements that they had at the start. -/
structure Keeps (start : Store α) (readers : Readers α) (copies : List (List α)) : Prop where
  items : ∀ source, readers.store.items source = start.items source
  length : readers.cursors.length = copies.length
  offers : ∀ (index : Nat) (cursor : Cursor α) (left : List α),
    readers.cursors[index]? = some cursor → copies[index]? = some left →
      cursor.Offers readers.store.fresh readers.store left
  older : ∀ cursor ∈ readers.cursors, ∀ handle ∈ cursor.handles, handle < readers.store.fresh
  apart : ∀ (one two : Nat) (cursor other : Cursor α), one ≠ two →
    readers.cursors[one]? = some cursor → readers.cursors[two]? = some other →
      cursor.handles.Disjoint other.handles

namespace Keeps

variable {start : Store α} {readers : Readers α} {copies : List (List α)}

/-- A cursor that is opened offers the whole list, under handles of its own. -/
theorem openCursor (keeps : Keeps start readers copies) {sequence : Sequence α}
    (restarts : sequence.looped = []) :
    Keeps start ⟨(sequence.cursor readers.store).2,
      readers.cursors ++ [(sequence.cursor readers.store).1]⟩
      (copies ++ [sequence.meaning readers.store]) := by
  obtain ⟨offers, within⟩ := sequence.offers_cursor restarts readers.store
  have grown := sequence.grown_cursor readers.store
  have apart : ∀ cursor ∈ readers.cursors,
      cursor.handles.Disjoint (sequence.cursor readers.store).1.handles :=
    fun cursor member => disjoint_of_taken (keeps.older cursor member) fun handle new =>
      (within handle new).1
  exact {
    items := fun source => (grown.items source).trans (keeps.items source)
    length := by rw [List.length_append, List.length_append, keeps.length]; rfl
    offers := by
      intro index cursor left found copied
      obtain ⟨inside, there⟩ | ⟨rfl, rfl⟩ := getElem?_concat_cases found
      · rw [List.getElem?_append_left (keeps.length ▸ inside)] at copied
        have older := keeps.older cursor (List.mem_of_getElem? there)
        exact ((keeps.offers index cursor left there copied).of_sameAt (grown.sameAt older)).mono
          grown.fresh
      · rw [keeps.length, List.getElem?_concat_length] at copied
        exact Option.some.inj copied ▸ offers
    older := by
      intro cursor member handle known
      obtain there | here := List.mem_append.mp member
      · exact Nat.lt_of_lt_of_le (keeps.older cursor there handle known) grown.fresh
      · obtain rfl := List.mem_singleton.mp here
        exact (within handle known).2
    apart := by
      intro one two cursor other differ found foundOther
      obtain ⟨-, there⟩ | ⟨rfl, rfl⟩ := getElem?_concat_cases found <;>
        obtain ⟨-, thereOther⟩ | ⟨rfl, rfl⟩ := getElem?_concat_cases foundOther
      · exact keeps.apart one two cursor other differ there thereOther
      · exact apart cursor (List.mem_of_getElem? there)
      · exact List.disjoint_symm (apart other (List.mem_of_getElem? thereOther))
      · exact absurd rfl differ }

/-- **What is read through one cursor does not concern the others.** -/
theorem read (keeps : Keeps start readers copies) (render : α → Bytes) {index : Nat}
    {cursor : Cursor α} {left : List α} (found : readers.cursors[index]? = some cursor)
    (copied : copies[index]? = some left) (reading : Reading) :
    (cursor.read render readers.store reading).1 = (reading.fromList render left).1 ∧
      Keeps start { readers with store := (cursor.read render readers.store reading).2 }
        (copies.set index (reading.fromList render left).2) := by
  obtain ⟨after, answered, rest, touches⟩ :=
    (keeps.offers index cursor left found copied).read render reading
  rw [answered]
  refine ⟨rfl, ?_⟩
  exact {
    items := fun source => (touches.items source).trans (keeps.items source)
    length := by rw [List.length_set]; exact keeps.length
    offers := by
      intro other reader remains there copiedOther
      rw [touches.fresh]
      by_cases same : index = other
      · subst same
        obtain rfl : cursor = reader := Option.some.inj (found.symm.trans there)
        rw [List.getElem?_set_self (List.getElem?_eq_some_iff.mp copied).1] at copiedOther
        exact Option.some.inj copiedOther ▸ rest
      · rw [List.getElem?_set_ne same] at copiedOther
        have apart := keeps.apart other index reader cursor (Ne.symm same) there found
        exact (keeps.offers other reader remains there copiedOther).of_sameAt
          (touches.elsewhere apart)
    older := by
      intro other member handle known
      rw [touches.fresh]
      exact keeps.older other member handle known
    apart := keeps.apart }

/-- **Readers are answered as if each had a copy of the list.** -/
theorem respond (keeps : Keeps start readers copies) {sequence : Sequence α}
    (restarts : sequence.looped = []) (render : α → Bytes) (request : Request) :
    (readers.respond sequence render request).1 =
        (fromList (sequence.meaning start) render copies request).1 ∧
      Keeps start (readers.respond sequence render request).2
        (fromList (sequence.meaning start) render copies request).2 := by
  cases request with
  | openCursor =>
      have opened := keeps.openCursor restarts
      rw [sequence.meaning_congr keeps.items] at opened
      exact ⟨rfl, opened⟩
  | read index reading =>
      rw [Readers.respond, fromList]
      cases found : readers.cursors[index]? with
      | none =>
          have outside := keeps.length ▸ List.getElem?_eq_none_iff.mp found
          rw [List.getElem?_eq_none outside]
          exact ⟨rfl, keeps⟩
      | some cursor =>
          have inside := keeps.length ▸ (List.getElem?_eq_some_iff.mp found).1
          rw [List.getElem?_eq_getElem inside]
          obtain ⟨answered, still⟩ :=
            keeps.read render found (List.getElem?_eq_getElem inside) reading
          exact ⟨congrArg Reply.answered answered, still⟩

/-- Before a cursor is opened there is nothing to keep apart. -/
theorem unopened (start : Store α) : Keeps start ⟨start, []⟩ [] where
  items _ := rfl
  length := rfl
  offers _ _ _ none := by cases none
  older _ none := absurd none List.not_mem_nil
  apart _ _ _ _ _ none := by cases none

end Keeps

end Readers

/-- **An expression means a list.** It can be built, and whoever reads the sequence is answered as
if each cursor had a copy of the list of its own. No container changes. -/
theorem expression_means_list (expression : Expression α) (store : Store α) (render : α → Bytes) :
    ∃ sequence built, expression.build store = (.ok sequence, built) ∧
      (∀ source, built.items source = store.items source) ∧
      ∀ requests,
        let session := serve (Readers.respond sequence render) ⟨built, []⟩ requests
        session.1 = (serve (Readers.fromList (expression.meaning store) render) [] requests).1 ∧
          ∀ source, session.2.store.items source = store.items source := by
  obtain ⟨sequence, built, builds⟩ := expression.exists_builds store
  have meaning : sequence.meaning built = expression.meaning store := by
    rw [sequence.meaning_congr builds.grown.items, builds.meaning]
  refine ⟨sequence, built, builds.result, builds.grown.items, ?_⟩
  intro requests
  have start := Readers.Keeps.unopened built
  obtain ⟨replies, last⟩ := serve_eq
    (fun request keeps => keeps.respond builds.restarts render request) start requests
  rw [meaning] at replies
  exact ⟨replies, fun source => (last.items source).trans (builds.grown.items source)⟩

/-- A list, and then the same list from its end. One reader has taken the first element when another
begins to read everything. -/
example :
    let store : Store Nat := { containers := ⟨[{ items := [1, 2] }]⟩, fresh := 1 }
    let thereAndBack : Expression Nat := .combine (.elements 0) (.reversed 0)
    (Expression.andThen (thereAndBack.build store) fun sequence built =>
      let (replies, readers) := serve (Readers.respond sequence fun _ => []) ⟨built, []⟩
        [.openCursor, .read 0 .next, .openCursor, .read 1 .toArray, .read 0 .toArrayReversed]
      (.ok replies, readers.store)).1 =
    .ok [.opened, .answered (.delivered (.ok 1)), .opened,
      .answered (.items (.ok [1, 2, 2, 1])), .answered (.items (.ok [1, 2, 2]))] := by
  rfl

end Collections
