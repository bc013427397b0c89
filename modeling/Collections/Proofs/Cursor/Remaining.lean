import Collections.Proofs.Cursor.Independence

/-!
# What is left of a cursor

A cursor answers by its own state and by the elements of the containers. In two stores in which
these are the same it gives the same answers, and they are the same afterwards
(`Cursor.hasNext_of_sameAt`, `Cursor.next_of_sameAt`). It changes nothing but its own state
(`Cursor.touches_hasNext`, `Cursor.touches_next`). For this its parts may share what they like.

A cursor has those elements left that it delivers until it is exhausted (`Cursor.HasLeft`). To ask
it leaves them, a delivery takes away the first (`Cursor.HasLeft.hasNext`,
`Cursor.HasLeft.next_cons`), and what happens elsewhere does not concern them
(`Cursor.HasLeft.of_sameAt`).

Every cursor that has been built is usable (`Assembled.usable`): the store knows its state, and its
parts stand at places of their containers. It stays so, and what it provides is what reading it to
the end gives (`Cursor.Usable.provides`, `Cursor.Provides.toArray`).
-/

set_option autoImplicit false

namespace Collections

variable {α : Type}

/-! ## Steps in stores that are the same -/

/-- A step depends on the elements and on the place at which it is made. -/
theorem Container.step?_congr {left right : Container α} {slot : Nat}
    (items : right.items = left.items) (place : right.places.get slot = left.places.get slot)
    (direction : Direction) :
    right.step? slot direction = (left.step? slot direction).map fun (item, moved) =>
      (item, { right with places := right.places.set slot (moved.places.get slot) }) := by
  simp only [step?, items, place, Option.bind_eq_bind]
  cases (left.places.get slot).ahead direction with
  | none => rfl
  | some position =>
      cases found : left.items[position]? with
      | none => simp [found]
      | some item => simp [found, Table.get_set_self]

namespace Store.SameAt

variable {handles : List Handle} {left right : Store α}

theorem cross (same : SameAt handles left right) (switch : Handle) :
    SameAt handles (left.cross switch) (right.cross switch) where
  items := same.items
  place := same.place
  splitter := same.splitter
  crossed other member := by
    rw [hasCrossed_cross, hasCrossed_cross, same.crossed other member]

theorem setSplitter (same : SameAt handles left right) (slot : Handle) (splitter : Splitter) :
    SameAt handles { left with splitters := left.splitters.set slot splitter }
      { right with splitters := right.splitters.set slot splitter } where
  items := same.items
  place := same.place
  splitter other member := by
    show (right.splitters.set slot splitter).get other = (left.splitters.set slot splitter).get other
    rw [Table.get_set, Table.get_set, same.splitter other member]
  crossed := same.crossed

/-- Containers may be replaced by others with the elements that they had and the same places. -/
theorem put (same : SameAt handles left right) {source : Handle} {one two : Container α}
    (itemsLeft : one.items = left.items source) (itemsRight : two.items = right.items source)
    (places : ∀ slot ∈ handles, two.places.get slot = one.places.get slot) :
    SameAt handles (left.put source one) (right.put source two) where
  items other := by
    by_cases here : other = source
    · subst here
      rw [Store.items, Store.items, container_put_self, container_put_self, itemsLeft, itemsRight]
      exact same.items other
    · rw [Store.items, Store.items, container_put_of_ne _ _ here, container_put_of_ne _ _ here]
      exact same.items other
  place other slot member := by
    by_cases here : other = source
    · subst here
      rw [container_put_self, container_put_self, places slot member]
    · rw [container_put_of_ne _ _ here, container_put_of_ne _ _ here, same.place other slot member]
  splitter := same.splitter
  crossed := same.crossed

end Store.SameAt

namespace Cursor

variable {cursor : Cursor α} {handles : List Handle} {left right store : Store α}

/-! ## What a cursor depends on -/

section Seated

variable {part : Cursor α} {seat : Seat} (same : Store.SameAt handles left right)
  (sits : part.seat? = some seat) (member : seat.slot ∈ handles)
include same sits member

theorem hasNext_of_seat_of_sameAt :
    (part.hasNext right).1 = (part.hasNext left).1 ∧
      Store.SameAt handles (part.hasNext left).2 (part.hasNext right).2 := by
  rw [hasNext_of_seat? sits, hasNext_of_seat? sits]
  have items : (right.container seat.source).items = (left.container seat.source).items :=
    same.items seat.source
  refine ⟨?_, same⟩
  cases seat.facing .forward <;>
    simp only [Container.hasStep, items, same.place seat.source seat.slot member]

theorem next_of_seat_of_sameAt :
    (part.next right).1 = (part.next left).1 ∧
      Store.SameAt handles (part.next left).2 (part.next right).2 := by
  rw [next_of_seat? sits, next_of_seat? sits,
    Container.step?_congr (same.items seat.source) (same.place _ _ member)]
  cases stepped : (left.container seat.source).step? seat.slot (seat.facing .forward) with
  | none => exact ⟨rfl, same⟩
  | some result =>
      obtain ⟨item, moved⟩ := result
      obtain ⟨items, places⟩ := Container.of_step? stepped
      refine ⟨rfl, same.put items rfl ?_⟩
      intro slot known
      show ((right.container seat.source).places.set seat.slot _).get slot = _
      rw [Table.get_set]
      split
      next here => rw [here]
      next elsewhere => rw [places slot elsewhere, same.place seat.source slot known]

end Seated

/-- **A cursor whose state is the same gives the same answer**, and its state is the same
afterwards. -/
theorem hasNext_of_sameAt (same : Store.SameAt handles left right)
    (within : cursor.handles ⊆ handles) :
    (cursor.hasNext right).1 = (cursor.hasNext left).1 ∧
      Store.SameAt handles (cursor.hasNext left).2 (cursor.hasNext right).2 := by
  induction cursor generalizing left right with
  | direct | ofList =>
      exact hasNext_of_seat_of_sameAt same rfl (within (List.mem_singleton_self _))
  | pieces slot read =>
      refine ⟨?_, same⟩
      rw [hasNext, hasNext, same.splitter slot (within (List.mem_singleton_self slot))]
  | empty => exact ⟨rfl, same⟩
  | readOnly view source ih => exact ih same within
  | combined switch first second front back =>
      obtain ⟨member, parts⟩ := List.cons_subset.mp within
      obtain ⟨inFront, inBack⟩ := List.append_subset.mp parts
      rw [hasNext, hasNext, same.crossed switch member]
      split
      · exact back same inBack
      · obtain ⟨answers, asked⟩ := front same inFront
        rcases inLeft : first.hasNext left with ⟨more, left'⟩
        rcases inRight : first.hasNext right with ⟨other, right'⟩
        rw [inLeft, inRight] at answers asked
        obtain rfl : other = more := answers
        cases other with
        | true => exact ⟨rfl, asked⟩
        | false => exact back (asked.cross switch) inBack

/-- **A cursor whose state is the same delivers the same**, and its state is the same afterwards. -/
theorem next_of_sameAt (same : Store.SameAt handles left right) (within : cursor.handles ⊆ handles) :
    (cursor.next right).1 = (cursor.next left).1 ∧
      Store.SameAt handles (cursor.next left).2 (cursor.next right).2 := by
  induction cursor generalizing left right with
  | direct | ofList =>
      exact next_of_seat_of_sameAt same rfl (within (List.mem_singleton_self _))
  | pieces slot read =>
      rw [next, next, same.splitter slot (within (List.mem_singleton_self slot))]
      cases (left.splitters.get slot).next? with
      | none => exact ⟨rfl, same⟩
      | some result => exact ⟨rfl, same.setSplitter slot result.2⟩
  | empty => exact ⟨rfl, same⟩
  | readOnly view source ih => exact ih same within
  | combined switch first second front back =>
      obtain ⟨answers, asked⟩ := hasNext_of_sameAt same within
      obtain ⟨member, parts⟩ := List.cons_subset.mp within
      obtain ⟨inFront, inBack⟩ := List.append_subset.mp parts
      rcases inLeft : (combined switch first second).hasNext left with ⟨more, left'⟩
      rcases inRight : (combined switch first second).hasNext right with ⟨other, right'⟩
      rw [inLeft, inRight] at answers asked
      obtain rfl : other = more := answers
      cases other with
      | false =>
          rw [next_of_hasNext_eq_false inLeft, next_of_hasNext_eq_false inRight]
          exact ⟨rfl, asked⟩
      | true =>
          rw [next_combined inLeft, next_combined inRight, asked.crossed switch member]
          split
          · exact back asked inBack
          · exact front asked inFront

/-! ## What a cursor changes -/

/-- A part that does not concern its combination touches nothing but what is known to both. -/
theorem touches_hasNext (cursor : Cursor α) (store : Store α) :
    Store.Touches cursor.handles store (cursor.hasNext store).2 := by
  induction cursor generalizing store with
  | direct | ofList | pieces | empty => exact .refl _ store
  | readOnly view source ih => exact ih store
  | combined switch first second front back =>
      have inFront : ∀ store, Store.Touches (combined switch first second).handles store
          (first.hasNext store).2 := fun store =>
        (front store).mono (List.subset_cons_of_subset _ (List.subset_append_left _ _))
      have inBack : ∀ store, Store.Touches (combined switch first second).handles store
          (second.hasNext store).2 := fun store =>
        (back store).mono (List.subset_cons_of_subset _ (List.subset_append_right _ _))
      have crossing : ∀ store : Store α, Store.Touches (combined switch first second).handles store
          (store.cross switch) := fun store =>
        (Store.Touches.cross store switch).mono
          (List.cons_subset.mpr ⟨List.mem_cons_self, List.nil_subset _⟩)
      rw [hasNext]
      split
      · exact inBack store
      · have before := inFront store
        rcases asked : first.hasNext store with ⟨_ | _, between⟩
        · rw [asked] at before
          exact (before.trans (crossing between)).trans (inBack _)
        · rwa [asked] at before

theorem touches_next_of_seat? {part : Cursor α} {seat : Seat} (sits : part.seat? = some seat)
    (store : Store α) : Store.Touches part.handles store (part.next store).2 := by
  rw [next_of_seat? sits, (rest_of_seat? sits store).1]
  cases stepped : (store.container seat.source).step? seat.slot (seat.facing .forward) with
  | none => exact .refl _ store
  | some result =>
      obtain ⟨items, places⟩ := Container.of_step? stepped
      exact .of_movedAt (Store.movedAt_put items places)

theorem touches_next (cursor : Cursor α) (store : Store α) :
    Store.Touches cursor.handles store (cursor.next store).2 := by
  induction cursor generalizing store with
  | direct | ofList => exact touches_next_of_seat? rfl store
  | pieces slot read =>
      rw [next]
      cases (store.splitters.get slot).next? with
      | none => exact .refl _ store
      | some result => exact .setSplitter store slot result.2
  | empty => exact .refl _ store
  | readOnly view source ih => exact ih store
  | combined switch first second front back =>
      have asking := touches_hasNext (combined switch first second) store
      rcases asked : (combined switch first second).hasNext store with ⟨_ | _, middle⟩
      · rw [next_of_hasNext_eq_false asked]
        rwa [asked] at asking
      · rw [next_combined asked]
        rw [asked] at asking
        split
        · exact asking.trans ((back middle).mono
            (List.subset_cons_of_subset _ (List.subset_append_right _ _)))
        · exact asking.trans ((front middle).mono
            (List.subset_cons_of_subset _ (List.subset_append_left _ _)))

/-! ## What is left -/

section Left

variable {bound : Handle} {after : Store α} {item : α} {items others : List α}

namespace Drains

/-- A cursor drains in one way. -/
theorem eq_items (drains : cursor.Drains store items after) {last : Store α}
    (again : cursor.Drains store others last) : others = items := by
  induction drains generalizing others with
  | exhausted asked =>
      cases again with
      | exhausted => rfl
      | delivers more => cases asked.symm.trans more
  | delivers more taken rest ih =>
      cases again with
      | exhausted asked => cases asked.symm.trans more
      | delivers moreAgain takenAgain restAgain =>
          obtain ⟨-, rfl⟩ := Prod.mk.inj (more.symm.trans moreAgain)
          obtain ⟨same, rfl⟩ := Prod.mk.inj (taken.symm.trans takenAgain)
          rw [Except.ok.inj same, ih restAgain]

/-- To drain a cursor touches nothing but its state. -/
theorem touches (drains : cursor.Drains store items after) :
    Store.Touches cursor.handles store after := by
  induction drains with
  | @exhausted store after asked =>
      have asking := cursor.touches_hasNext store
      rwa [asked] at asking
  | @delivers store asked next after item items more taken rest ih =>
      have asking := cursor.touches_hasNext store
      have taking := cursor.touches_next asked
      rw [more] at asking
      rw [taken] at taking
      exact (asking.trans taking).trans ih

/-- A cursor whose state is the same drains into the same list. -/
theorem of_sameAt (drains : cursor.Drains left items after)
    (same : Store.SameAt cursor.handles left right) : ∃ last, cursor.Drains right items last := by
  induction drains generalizing right with
  | @exhausted store after asked =>
      obtain ⟨answers, -⟩ := hasNext_of_sameAt same (List.Subset.refl _)
      rcases again : cursor.hasNext right with ⟨other, last⟩
      rw [asked, again] at answers
      obtain rfl : other = false := answers
      exact ⟨last, .exhausted again⟩
  | @delivers store asked next after item items more taken rest ih =>
      obtain ⟨answers, asking⟩ := hasNext_of_sameAt same (List.Subset.refl _)
      rcases again : cursor.hasNext right with ⟨other, middle⟩
      rw [more, again] at answers asking
      obtain rfl : other = true := answers
      obtain ⟨delivered, moved⟩ := next_of_sameAt asking (List.Subset.refl _)
      rcases there : cursor.next middle with ⟨result, moving⟩
      rw [taken, there] at delivered moved
      obtain rfl : result = .ok item := delivered
      obtain ⟨last, drains⟩ := ih moved
      exact ⟨last, .delivers again there drains⟩

end Drains

/-- The elements that a cursor delivers until it is exhausted. -/
def HasLeft (cursor : Cursor α) (store : Store α) (items : List α) : Prop :=
  ∃ after, cursor.Drains store items after

namespace HasLeft

theorem of_sameAt (hasLeft : cursor.HasLeft left items)
    (same : Store.SameAt cursor.handles left right) : cursor.HasLeft right items := by
  obtain ⟨after, drains⟩ := hasLeft
  exact drains.of_sameAt same

/-- What is left is left after a question too. -/
theorem hasNext (hasLeft : cursor.HasLeft store items) (made : cursor.MadeBefore bound) :
    (cursor.hasNext store).1 = !items.isEmpty ∧ cursor.HasLeft (cursor.hasNext store).2 items := by
  obtain ⟨after, drains⟩ := hasLeft
  cases drains with
  | exhausted asked =>
      rw [asked]
      exact ⟨rfl, after, .exhausted (hasNext_again made asked)⟩
  | delivers more taken rest =>
      rw [more]
      exact ⟨rfl, after, .delivers (hasNext_again made more) taken rest⟩

/-- **The first element that is left is delivered**, and the others are left. -/
theorem next_cons (hasLeft : cursor.HasLeft store (item :: items)) (made : cursor.MadeBefore bound) :
    ∃ after, cursor.next store = (.ok item, after) ∧ cursor.HasLeft after items := by
  obtain ⟨after, drains⟩ := hasLeft
  cases drains with
  | delivers more taken rest =>
      exact ⟨_, (next_of_hasNext made more).trans taken, after, rest⟩

/-- With nothing left nothing is delivered, and nothing is left. -/
theorem next_nil (hasLeft : cursor.HasLeft store []) (made : cursor.MadeBefore bound) :
    ∃ after, cursor.next store = (.error .pastEnd, after) ∧ cursor.HasLeft after [] := by
  obtain ⟨after, drains⟩ := hasLeft
  cases drains with
  | exhausted asked =>
      exact ⟨after, next_of_hasNext_eq_false asked, after, .exhausted (hasNext_again made asked)⟩

/-- Reading to the end gives what is left. -/
theorem toArray (hasLeft : cursor.HasLeft store items) (shown : Seat.Shown cursor.seats store)
    (made : cursor.MadeBefore bound) : (cursor.toArray store).1 = .ok items := by
  obtain ⟨all, after, drains, bounded⟩ := shown.exists_drains made
  obtain ⟨last, again⟩ := hasLeft
  rw [drains.toArray bounded, drains.eq_items again]

end HasLeft

end Left

/-! ## Usable cursors -/

/-- The store knows the state of a cursor, and its parts stand at places of their containers. -/
structure Usable (cursor : Cursor α) (store : Store α) : Prop where
  made : cursor.MadeBefore store.fresh
  older : ∀ handle ∈ cursor.handles, handle < store.fresh
  shown : Seat.Shown cursor.seats store

namespace Usable

variable {after : Store α} {items : List α}

theorem of_sameAt (usable : cursor.Usable store)
    (same : Store.SameAt cursor.handles store after) (fresh : store.fresh ≤ after.fresh) :
    cursor.Usable after where
  made := usable.made.mono fresh
  older handle member := Nat.lt_of_lt_of_le (usable.older handle member) fresh
  shown seat member := by
    obtain ⟨zipper, shows⟩ := usable.shown seat member
    have own : [seat.slot] ⊆ cursor.handles :=
      List.cons_subset.mpr ⟨slot_mem_handles member, List.nil_subset _⟩
    exact ⟨zipper, shows.of_sameAt (same.mono own)⟩

theorem of_grown (usable : cursor.Usable store) (grown : Store.Grown store after) :
    cursor.Usable after :=
  usable.of_sameAt (grown.sameAt usable.older) grown.fresh

theorem hasNext (usable : cursor.Usable store) : cursor.Usable (cursor.hasNext store).2 where
  made := (cursor.touches_hasNext store).fresh ▸ usable.made
  older := (cursor.touches_hasNext store).fresh ▸ usable.older
  shown := usable.shown.asked (asked_of_hasNext rfl)

theorem next (usable : cursor.Usable store) : cursor.Usable (cursor.next store).2 where
  made := (cursor.touches_next store).fresh ▸ usable.made
  older := (cursor.touches_next store).fresh ▸ usable.older
  shown := usable.shown.next cursor fun _ member => member

/-- No more elements are left than reading to the end allows for. -/
theorem length_le_limit (usable : cursor.Usable store) (hasLeft : cursor.HasLeft store items) :
    items.length ≤ cursor.limit store := by
  obtain ⟨all, after, drains, bounded⟩ := usable.shown.exists_drains usable.made
  obtain ⟨last, again⟩ := hasLeft
  rw [drains.eq_items again]
  exact bounded

end Usable

/-- A usable cursor with some elements left. -/
structure Provides (cursor : Cursor α) (store : Store α) (items : List α) : Prop where
  usable : cursor.Usable store
  hasLeft : cursor.HasLeft store items

/-- **A usable cursor provides what reading it to the end gives.** -/
theorem Usable.provides {items : List α} (usable : cursor.Usable store)
    (left : (cursor.toArray store).1 = .ok items) : cursor.Provides store items := by
  obtain ⟨all, after, drains, bounded⟩ := usable.shown.exists_drains usable.made
  rw [drains.toArray bounded] at left
  obtain rfl := Except.ok.inj left
  exact ⟨usable, after, drains⟩

namespace Provides

variable {after : Store α} {item : α} {items : List α}

theorem toArray (provides : cursor.Provides store items) : (cursor.toArray store).1 = .ok items :=
  provides.hasLeft.toArray provides.usable.shown provides.usable.made

theorem of_grown (provides : cursor.Provides store items) (grown : Store.Grown store after) :
    cursor.Provides after items :=
  ⟨provides.usable.of_grown grown, provides.hasLeft.of_sameAt (grown.sameAt provides.usable.older)⟩

/-- What is done under other handles does not concern a cursor. -/
theorem of_touches (provides : cursor.Provides store items)
    (touches : Store.Touches handles store after) (apart : cursor.handles.Disjoint handles) :
    cursor.Provides after items :=
  have same := touches.elsewhere apart
  ⟨provides.usable.of_sameAt same (Nat.le_of_eq touches.fresh.symm), provides.hasLeft.of_sameAt same⟩

theorem hasNext (provides : cursor.Provides store items) :
    (cursor.hasNext store).1 = !items.isEmpty ∧
      cursor.Provides (cursor.hasNext store).2 items := by
  obtain ⟨answered, still⟩ := provides.hasLeft.hasNext provides.usable.made
  exact ⟨answered, provides.usable.hasNext, still⟩

theorem next_cons (provides : cursor.Provides store (item :: items)) :
    ∃ after, cursor.next store = (.ok item, after) ∧ cursor.Provides after items := by
  obtain ⟨after, taken, others⟩ := provides.hasLeft.next_cons provides.usable.made
  have moved := provides.usable.next
  rw [taken] at moved
  exact ⟨after, taken, moved, others⟩

theorem next_nil (provides : cursor.Provides store []) :
    ∃ after, cursor.next store = (.error .pastEnd, after) ∧ cursor.Provides after [] := by
  obtain ⟨after, failed, nothing⟩ := provides.hasLeft.next_nil provides.usable.made
  have moved := provides.usable.next
  rw [failed] at moved
  exact ⟨after, failed, moved, nothing⟩

/-- A cursor that has been read to the end has nothing left. -/
theorem drains (provides : cursor.Provides store items) :
    ∃ after, cursor.Drains store items after ∧ cursor.Provides after [] := by
  obtain ⟨usable, last, drains⟩ := provides
  induction drains with
  | @exhausted store after asked =>
      have nothing := (Provides.mk usable ⟨after, .exhausted asked⟩).hasNext.2
      rw [asked] at nothing
      exact ⟨after, .exhausted asked, nothing⟩
  | @delivers store asked next after item items more taken rest ih =>
      have moved := usable.hasNext
      rw [more] at moved
      have later := moved.next
      rw [taken] at later
      obtain ⟨last, others, nothing⟩ := ih later
      exact ⟨last, .delivers more taken others, nothing⟩

end Provides

end Cursor

/-! ## Cursors that have been built -/

/-- The state of a cursor that a sequence hands out is known under new handles, or is that of a
cursor which the sequence did not make. -/
theorem Sequence.handles_cursor (sequence : Sequence α) (store : Store α) :
    ∀ handle ∈ (sequence.cursor store).1.handles,
      store.fresh ≤ handle ∧ handle < (sequence.cursor store).2.fresh ∨
        ∃ looped ∈ sequence.looped, handle ∈ looped.handles := by
  induction sequence generalizing store with
  | forward | pieces =>
      intro handle member
      obtain rfl := List.mem_singleton.mp member
      exact .inl ⟨Nat.le_refl _, Nat.lt_succ_self _⟩
  | backward =>
      intro handle member
      obtain rfl := List.mem_singleton.mp member
      exact .inl ⟨Nat.le_refl _, Nat.lt_succ_of_lt (Nat.lt_succ_self _)⟩
  | empty => exact fun _ none => absurd none List.not_mem_nil
  | guarded view source ih => exact ih store
  | loop view cursor => exact fun handle member => .inr ⟨cursor, List.mem_singleton_self _, member⟩
  | combined view first second front back =>
      have earlier := (first.grown_cursor store).fresh
      have later := (second.grown_cursor (first.cursor store).2).fresh
      intro handle member
      obtain rfl | inside := List.mem_cons.mp member
      · exact .inl ⟨Nat.le_trans earlier later, Nat.lt_succ_self _⟩
      · obtain inFront | inBack := List.mem_append.mp inside
        · obtain ⟨beyond, below⟩ | ⟨looped, there, known⟩ := front store handle inFront
          · exact .inl ⟨beyond, Nat.lt_succ_of_lt (Nat.lt_of_lt_of_le below later)⟩
          · exact .inr ⟨looped, List.mem_append_left _ there, known⟩
        · obtain ⟨beyond, below⟩ | ⟨looped, there, known⟩ := back _ handle inBack
          · exact .inl ⟨Nat.le_trans earlier beyond, Nat.lt_succ_of_lt below⟩
          · exact .inr ⟨looped, List.mem_append_right _ there, known⟩

namespace Assembled

variable {made : List (Cursor α)} {store : Store α}

/-- The state of cursors that have been built is known to the store. -/
theorem older (assembled : Assembled made store) :
    ∀ cursor ∈ made, ∀ handle ∈ cursor.handles, handle < store.fresh := by
  induction assembled with
  | start store => exact fun _ none => absurd none List.not_mem_nil
  | allocate _ ih =>
      exact fun cursor member handle known => Nat.lt_succ_of_lt (ih cursor member handle known)
  | @cursor made store _ sequence there ih =>
      have grown := (sequence.grown_cursor store).fresh
      have kept : ∀ cursor ∈ made, ∀ handle ∈ cursor.handles,
          handle < (sequence.cursor store).2.fresh :=
        fun cursor member handle known => Nat.lt_of_lt_of_le (ih cursor member handle known) grown
      refine List.forall_mem_cons.mpr ⟨?_, kept⟩
      intro handle known
      obtain ⟨-, below⟩ | ⟨looped, member, inside⟩ := sequence.handles_cursor store handle known
      · exact below
      · exact kept looped (there looped member) handle inside
  | @listCursor made store _ source start inside ih =>
      refine List.forall_mem_cons.mpr ⟨?_, ?_⟩
      · intro handle known
        obtain rfl := List.mem_singleton.mp known
        exact Nat.lt_succ_self _
      · exact fun cursor member handle known => Nat.lt_succ_of_lt (ih cursor member handle known)
  | @reverse made store _ list there ih =>
      have grown := (Store.Grown.reverse list store).fresh
      have kept : ∀ cursor ∈ made, ∀ handle ∈ cursor.handles, handle < (list.reverse store).2.fresh :=
        fun cursor member handle known => Nat.lt_of_lt_of_le (ih cursor member handle known) grown
      refine List.forall_mem_cons.mpr ⟨?_, kept⟩
      have same : (list.reverse store).1.seat.slot = list.seat.slot := by cases list <;> rfl
      intro handle known
      obtain rfl := List.mem_singleton.mp known
      rw [same]
      exact kept _ there _ (List.mem_singleton_self _)
  | @combine made store _ first second front back ih =>
      have kept : ∀ cursor ∈ made, ∀ handle ∈ cursor.handles, handle < store.fresh + 1 :=
        fun cursor member handle known => Nat.lt_succ_of_lt (ih cursor member handle known)
      refine List.forall_mem_cons.mpr ⟨?_, kept⟩
      intro handle known
      obtain rfl | inside := List.mem_cons.mp known
      · exact Nat.lt_succ_self _
      · exact (List.mem_append.mp inside).elim (kept first front handle) (kept second back handle)
  | @readOnly made store _ cursor there ih =>
      have kept : ∀ cursor ∈ made, ∀ handle ∈ cursor.handles, handle < store.fresh + 1 :=
        fun cursor member handle known => Nat.lt_succ_of_lt (ih cursor member handle known)
      exact List.forall_mem_cons.mpr ⟨kept cursor there, kept⟩

/-- **Cursors that have been built are usable.** -/
theorem usable (assembled : Assembled made store) {cursor : Cursor α} (member : cursor ∈ made) :
    cursor.Usable store where
  made := (assembled.fresh cursor member).made
  older := assembled.older cursor member
  shown seat there := by
    obtain ⟨zipper, shows, -⟩ := (assembled.fresh cursor member).unused seat there
    exact ⟨zipper, shows⟩

end Assembled

end Collections
