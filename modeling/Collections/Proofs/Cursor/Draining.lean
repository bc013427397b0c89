import Collections.Cursor.Consuming

/-!
# What cursors deliver

A cursor drains into a list if it delivers the elements of the list one after the other and is then
found exhausted (`Cursor.Drains`). Reading a cursor to its end takes a number of rounds that is
fixed beforehand, and gives that list if the number is large enough (`Cursor.Drains.drainWithin`).
It is: no more elements come than the limit of the cursor says. So all elements of a container come
from a cursor over it (`Cursor.drains_cursorOver`), and all pieces of a text from a cursor over them
(`Cursor.toArray_pieces`).
-/

set_option autoImplicit false

namespace Collections

variable {α : Type}

namespace Cursor

/-- From one store to another, a cursor delivers the elements of a list, and is then exhausted. -/
inductive Drains (cursor : Cursor α) : Store α → List α → Store α → Prop where
  | exhausted {store after : Store α} (asked : cursor.hasNext store = (false, after)) :
      Drains cursor store [] after
  | delivers {store asked next after : Store α} {item : α} {items : List α}
      (more : cursor.hasNext store = (true, asked)) (taken : cursor.next asked = (.ok item, next))
      (rest : Drains cursor next items after) : Drains cursor store (item :: items) after

namespace Drains

variable {cursor : Cursor α} {store after : Store α} {items : List α}

theorem drainWithin (drains : cursor.Drains store items after) {rounds : Nat}
    (enough : items.length < rounds) : cursor.drainWithin rounds store = (.ok items, after) := by
  induction drains generalizing rounds with
  | exhausted asked =>
      obtain ⟨rounds, rfl⟩ := Nat.exists_eq_add_one_of_ne_zero (Nat.ne_zero_of_lt enough)
      rw [Cursor.drainWithin, asked]
  | delivers more taken rest ih =>
      obtain ⟨rounds, rfl⟩ := Nat.exists_eq_add_one_of_ne_zero (Nat.ne_zero_of_lt enough)
      simp only [Cursor.drainWithin, more, taken, ih (Nat.lt_of_succ_lt_succ enough)]

theorem toArray (drains : cursor.Drains store items after)
    (bounded : items.length ≤ cursor.limit store) : cursor.toArray store = (.ok items, after) :=
  drains.drainWithin (Nat.lt_succ_of_le bounded)

theorem join (drains : cursor.Drains store items after)
    (bounded : items.length ≤ cursor.limit store) (separator : Bytes) (render : α → Bytes) :
    cursor.join separator render store =
      (.ok (Bytes.joined separator (items.map render)), after) := by
  rw [Cursor.join, drains.toArray bounded]

theorem toArrayReversed (drains : cursor.Drains store items after)
    (bounded : items.length ≤ cursor.limit store) :
    cursor.toArrayReversed store = (.ok items.reverse, after) := by
  rw [Cursor.toArrayReversed, drains.toArray bounded]

/-- A reader, which is one element ahead, reads the same. -/
theorem takeAhead (drains : cursor.Drains store items after) {count : Nat}
    (enough : items.length ≤ count) : cursor.takeAhead count store = (.ok items, after) := by
  induction drains generalizing count with
  | exhausted asked =>
      simp only [Cursor.takeAhead, Reader.fetch, asked]
      cases count <;> rfl
  | @delivers store asked next after item items more taken rest ih =>
      obtain ⟨count, rfl⟩ := Nat.exists_eq_add_one_of_ne_zero (Nat.ne_zero_of_lt enough)
      have fetched : Reader.fetch cursor store = (.ok ⟨some cursor, some item⟩, next) := by
        simp only [Reader.fetch, more, taken]
      have later := ih (Nat.le_of_succ_le_succ enough)
      rw [Cursor.takeAhead] at later
      simp only [Cursor.takeAhead, fetched, Reader.take, Reader.advance]
      rcases ahead : Reader.fetch cursor next with ⟨cause | reader, between⟩
      · rw [ahead] at later
        cases later
      · rw [ahead] at later
        dsimp only at later ⊢
        rw [later]

theorem collect (drains : cursor.Drains store items after)
    (bounded : items.length ≤ cursor.limit store) : cursor.collect store = (.ok items, after) :=
  drains.takeAhead bounded

end Drains

/-! ## Containers -/

/-- A cursor at a place delivers what lies behind that place. -/
theorem drains_direct (store : Store α) (source slot : Handle) :
    ∃ after, (Cursor.direct source slot).Drains store
      ((store.items source).drop ((store.container source).places.get slot).next) after := by
  generalize left : (store.items source).drop ((store.container source).places.get slot).next =
    items
  induction items generalizing store with
  | nil =>
      have beyond : (store.container source).items.length ≤
          ((store.container source).places.get slot).next := List.drop_eq_nil_iff.mp left
      refine ⟨store, .exhausted ?_⟩
      rw [hasNext, Container.hasStep, decide_eq_false (Nat.not_lt_of_le beyond)]
  | cons item rest ih =>
      have there :
          (store.container source).items[((store.container source).places.get slot).next]? =
            some item := by
        rw [← Store.items, ← List.head?_drop, left]
        rfl
      have inside := (List.getElem?_eq_some_iff.mp there).1
      let moved : Container α := { store.container source with
        places := (store.container source).places.set slot
          (((store.container source).places.get slot).stepped
            ((store.container source).places.get slot).next .forward) }
      have behind : ((store.put source moved).items source).drop
          (((store.put source moved).container source).places.get slot).next = rest := by
        rw [Store.items, Store.container_put_self, Table.get_set_self]
        show (store.items source).drop (((store.container source).places.get slot).next + 1) = rest
        rw [← List.tail_drop, left]
        rfl
      obtain ⟨after, drains⟩ := ih (store.put source moved) behind
      have more : (Cursor.direct source slot).hasNext store = (true, store) := by
        rw [hasNext, Container.hasStep, decide_eq_true inside]
      have taken : (Cursor.direct source slot).next store = (.ok item, store.put source moved) := by
        simp only [next, Container.step?, Place.ahead, there, Option.bind_eq_bind,
          Option.bind_some, pure]
        rfl
      exact ⟨after, .delivers more taken drains⟩

/-- A cursor that is opened at the start of a container delivers all its elements. -/
theorem drains_cursorOver (store : Store α) (source : Handle) :
    ∃ after, (store.cursorOver source).1.Drains (store.cursorOver source).2 (store.items source)
      after := by
  have drains := drains_direct (store.cursorOver source).2 source store.fresh
  have opened : (store.cursorOver source).2.container source =
      (store.container source).openPlace store.fresh (store.container source).grip 0 :=
    Store.container_put_self _ _ _
  rw [Store.items, opened, Container.openPlace, Table.get_set_self] at drains
  exact drains

theorem limit_cursorOver (store : Store α) (source : Handle) :
    (store.cursorOver source).1.limit (store.cursorOver source).2 =
      (store.items source).length := by
  show (((Store.put _ source _).container source).items).length = _
  rw [Store.container_put_self]
  rfl

/-- **Joining the elements of a container gives their texts with the separator between them.** -/
theorem join_cursorOver (store : Store α) (source : Handle) (separator : Bytes)
    (render : α → Bytes) :
    ∃ after, (store.cursorOver source).1.join separator render (store.cursorOver source).2 =
      (.ok (Bytes.joined separator ((store.items source).map render)), after) := by
  obtain ⟨after, drains⟩ := drains_cursorOver store source
  exact ⟨after, drains.join (Nat.le_of_eq (limit_cursorOver store source).symm) _ _⟩

/-! ## Pieces -/

/-- A cursor over the pieces of a text delivers those that are left. -/
theorem drains_pieces (store : Store α) (slot : Handle) (read : Bytes → α) :
    ∃ after, (Cursor.pieces slot read).Drains store
      ((store.splitters.get slot).pieces.map read) after := by
  generalize left : (store.splitters.get slot).pieces = pieces
  induction pieces generalizing store with
  | nil =>
      refine ⟨store, .exhausted ?_⟩
      rw [hasNext, Splitter.hasNext_eq, left]
      rfl
  | cons piece others ih =>
      obtain ⟨splitter, delivered, rest, -⟩ := Splitter.next?_of_pieces left
      obtain ⟨after, drains⟩ := ih { store with splitters := store.splitters.set slot splitter }
        (by rw [Table.get_set_self, rest])
      have more : (Cursor.pieces slot read).hasNext store = (true, store) := by
        rw [hasNext, Splitter.hasNext_eq, left]
        rfl
      refine ⟨after, .delivers more ?_ drains⟩
      rw [next, delivered]

/-- **Reading a cursor over pieces to its end gives the pieces that are left.** -/
theorem toArray_pieces (store : Store α) (slot : Handle) (read : Bytes → α) :
    ∃ after, (Cursor.pieces slot read).toArray store =
      (.ok ((store.splitters.get slot).pieces.map read), after) := by
  obtain ⟨after, drains⟩ := drains_pieces store slot read
  refine ⟨after, drains.toArray ?_⟩
  rw [List.length_map]
  exact Splitter.length_pieces_le _

theorem join_pieces (store : Store α) (slot : Handle) (read : Bytes → α) (separator : Bytes)
    (render : α → Bytes) :
    ∃ after, (Cursor.pieces slot read).join separator render store =
      (.ok (Bytes.joined separator (((store.splitters.get slot).pieces.map read).map render)),
        after) := by
  obtain ⟨after, toArray⟩ := toArray_pieces store slot read
  exact ⟨after, by rw [join, toArray]⟩

end Cursor

end Collections
