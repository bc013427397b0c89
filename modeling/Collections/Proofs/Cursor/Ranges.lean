import Collections.Proofs.Cursor.Remaining
import Collections.Proofs.Runs

/-!
# Ranges

A reader is made from a cursor and goes through the elements that the cursor has left. It stands at
one of them, or at its end, and the cursor has those left that come after that one (`Reader.At`). So
the cursor is always one element further than the reader.

To make a reader takes the first element from the cursor (`Reader.at_fetch`), and to increment it
takes another (`Reader.At.increment`). Neither fails. The copy that a post-increment hands out keeps
its element. A loop over a range visits what the cursor has left and then ends (`Reader.At.loop`),
and a loop that is left early has taken one element more than it has visited (`Reader.At.take`).
-/

set_option autoImplicit false

namespace Collections

variable {α : Type}

namespace Reader

/-- A reader of a cursor stands at the first of some elements, or at its end if there are none. The
cursor has the others left. -/
structure At (cursor : Cursor α) (left : List α) (state : Reader α × Store α) : Prop where
  reader : state.1 = left.head?.elim finished fun item => ⟨some cursor, some item⟩
  provides : cursor.Provides state.2 left.tail

/-- A loop that visits each element at which a reader stands, until the reader is at its end. -/
inductive Loop : Reader α → Store α → List α → Store α → Prop where
  | ended {reader : Reader α} {store : Store α} (equal : reader.equals finished = true) :
      Loop reader store [] store
  | visits {reader next : Reader α} {store moved after : Store α} {item : α} {items : List α}
      (differs : reader.equals finished = false) (stands : reader.current = some item)
      (advanced : reader.advance store = (.ok next, moved)) (rest : Loop next moved items after) :
      Loop reader store (item :: items) after

variable {cursor : Cursor α} {store : Store α} {left : List α} {state : Reader α × Store α}

/-- **A reader that is made takes the first element from its cursor.** -/
theorem at_fetch (provides : cursor.Provides store left) :
    ∃ reader after, fetch cursor store = (.ok reader, after) ∧ At cursor left (reader, after) := by
  obtain ⟨answered, asked⟩ := provides.hasNext
  rcases told : cursor.hasNext store with ⟨more, between⟩
  rw [told] at answered asked
  obtain rfl : more = !left.isEmpty := answered
  cases left with
  | nil =>
      have ended : fetch cursor store = (.ok finished, between) := by
        rw [fetch, told]
        rfl
      exact ⟨finished, between, ended, rfl, asked⟩
  | cons item rest =>
      obtain ⟨after, taken, others⟩ := asked.next_cons
      have fetched : fetch cursor store = (.ok ⟨some cursor, some item⟩, after) := by
        simp [fetch, told, taken]
      exact ⟨_, after, fetched, rfl, others⟩

namespace At

/-- **A reader that advances goes to the next element.** At its end it stays there. -/
theorem advance (here : At cursor left state) :
    ∃ next after, state.1.advance state.2 = (.ok next, after) ∧
      At cursor left.tail (next, after) := by
  obtain ⟨reader, store⟩ := state
  obtain ⟨stands, provides⟩ := here
  cases left with
  | nil =>
      obtain rfl : reader = finished := stands
      exact ⟨finished, store, rfl, rfl, provides⟩
  | cons item rest =>
      obtain rfl : reader = ⟨some cursor, some item⟩ := stands
      exact at_fetch provides

theorem current (here : At cursor left state) : state.1.current = left.head? := by
  rw [here.reader]
  cases left <;> rfl

/-- A reader is equal to one at its end if nothing is left. -/
theorem equals_finished (here : At cursor left state) :
    state.1.equals finished = left.isEmpty := by
  rw [here.reader]
  cases left <;> rfl

/-! ### Increments -/

/-- **An increment hands out a reader**, and what a post-increment hands out is a copy that stands
where the reader stood. -/
theorem increment (here : At cursor left state) (kind : Increment) :
    ∃ handed next, increment state kind = (.ok handed, next) ∧ At cursor left.tail next ∧
      (kind = .post → handed.current = left.head?) := by
  obtain ⟨next, after, advanced, there⟩ := here.advance
  cases kind with
  | pre => exact ⟨next, (next, after), by rw [Reader.increment, advanced], there, nofun⟩
  | post =>
      exact ⟨state.1, (next, after), by rw [Reader.increment, advanced], there, fun _ => here.current⟩

/-- After some increments the reader stands as many elements further. Each has handed out a reader,
and each post-increment a copy that stands where the reader stood. -/
theorem increments (here : At cursor left state) (kinds : List Increment) :
    At cursor (left.drop kinds.length) (serve Reader.increment state kinds).2 ∧
      ∀ (index : Nat) (kind : Increment), kinds[index]? = some kind →
        ∃ handed, (serve Reader.increment state kinds).1[index]? = some (.ok handed) ∧
          (kind = .post → handed.current = left[index]?) := by
  induction kinds generalizing left state with
  | nil =>
      refine ⟨here, ?_⟩
      intro index kind none
      simp at none
  | cons first rest ih =>
      obtain ⟨handed, next, incremented, further, copied⟩ := here.increment first
      obtain ⟨there, copies⟩ := ih further
      rw [List.drop_tail] at there
      have served : serve Reader.increment state (first :: rest) =
          (.ok handed :: (serve Reader.increment next rest).1,
            (serve Reader.increment next rest).2) := serve_cons incremented rfl
      rw [served]
      refine ⟨there, ?_⟩
      intro index kind here
      cases index with
      | zero =>
          obtain rfl : first = kind := Option.some.inj here
          exact ⟨handed, rfl, fun isPost => (copied isPost).trans List.head?_eq_getElem?⟩
      | succ index =>
          obtain ⟨copy, found, stands⟩ := copies index kind here
          exact ⟨copy, found, fun isPost => (stands isPost).trans List.getElem?_tail⟩

/-! ### Loops -/

/-- **A loop visits everything that is left, and ends.** -/
theorem loop (here : At cursor left state) :
    ∃ after, Loop state.1 state.2 left after ∧ (cursor.toArray after).1 = .ok [] := by
  induction left generalizing state with
  | nil =>
      have same := here.equals_finished
      exact ⟨state.2, .ended same, here.provides.toArray⟩
  | cons item rest ih =>
      obtain ⟨next, moved, advanced, there⟩ := here.advance
      obtain ⟨after, visits, nothing⟩ := ih there
      exact ⟨after, .visits here.equals_finished here.current advanced visits, nothing⟩

/-- **A loop that is left early has visited the first elements**, and one more has been taken. -/
theorem take (here : At cursor left state) (count : Nat) :
    (state.1.take count state.2).1 = .ok (left.take count) ∧
      (cursor.toArray (state.1.take count state.2).2).1 = .ok (left.drop (count + 1)) := by
  induction count generalizing left state with
  | zero => exact ⟨rfl, by simpa [Reader.take] using here.provides.toArray⟩
  | succ count ih =>
      have stands := here.current
      cases left with
      | nil =>
          have ended : state.1.take (count + 1) state.2 = (.ok [], state.2) := by
            simp [Reader.take, stands]
          rw [ended]
          exact ⟨rfl, here.provides.toArray⟩
      | cons item rest =>
          obtain ⟨next, after, advanced, there⟩ := here.advance
          obtain ⟨visited, others⟩ := ih there
          rcases taken : next.take count after with ⟨result, last⟩
          rw [taken] at visited others
          obtain rfl : result = .ok (rest.take count) := visited
          have further : state.1.take (count + 1) state.2 = (.ok (item :: rest.take count), last) := by
            simp [Reader.take, stands, advanced, taken]
          rw [further]
          exact ⟨rfl, others⟩

end At

end Reader

/-- **A range is read one element ahead.** Take a cursor with some elements left. A reader is made
from it without a failure. After at most as many increments as there are elements, of either kind in
any order, none of which fails, the reader is equal to one at its end if there were as many, and
otherwise stands at the element with the number of the increments. The copies that post-increments
handed out stand at the elements that these left. The cursor has lost one element more than there
were increments, as far as it had any.

So a loop over the range visits exactly the elements, in order, and ends. If it is left after some
elements, the one that follows them is lost. -/
theorem ranges_read_one_ahead {cursor : Cursor α} {store : Store α} (usable : cursor.Usable store)
    {items : List α} (left : (cursor.toArray store).1 = .ok items) :
    ∃ first between, Reader.fetch cursor store = (.ok first, between) ∧
    (∀ kinds : List Reader.Increment, kinds.length ≤ items.length →
      let (handed, reader, reached) := serve Reader.increment (first, between) kinds
      (reader.equals .finished = true ↔ kinds.length = items.length) ∧
        (∀ inside : kinds.length < items.length, reader.current = some items[kinds.length]) ∧
        (∀ (index : Nat) (inside : index < items.length) (kind : Reader.Increment),
          kinds[index]? = some kind → ∃ copy, handed[index]? = some (.ok copy) ∧
            (kind = .post → copy.current = some items[index])) ∧
        (cursor.toArray reached).1 = .ok (items.drop (min (kinds.length + 1) items.length))) ∧
    (∃ after, Reader.Loop first between items after ∧ (cursor.toArray after).1 = .ok []) ∧
    (cursor.collect store).1 = .ok items ∧
    ∀ count,
      (cursor.takeAhead count store).1 = .ok (items.take count) ∧
        (cursor.toArray (cursor.takeAhead count store).2).1 = .ok (items.drop (count + 1)) := by
  have provides := usable.provides left
  obtain ⟨first, between, fetched, start⟩ := Reader.at_fetch provides
  have ahead (count : Nat) : cursor.takeAhead count store = first.take count between := by
    rw [Cursor.takeAhead, fetched]
  refine ⟨first, between, fetched, ?_, start.loop, ?_, fun count => ahead count ▸ start.take count⟩
  · intro kinds within
    obtain ⟨there, copies⟩ := start.increments kinds
    rcases served : serve Reader.increment (first, between) kinds with ⟨handed, reader, reached⟩
    rw [served] at there copies
    refine ⟨?_, ?_, ?_, ?_⟩
    · rw [there.equals_finished, List.isEmpty_iff, List.drop_eq_nil_iff]
      omega
    · intro inside
      rw [there.current, List.head?_drop, List.getElem?_eq_getElem inside]
    · intro index inside kind here
      obtain ⟨copy, found, stands⟩ := copies index kind here
      rw [List.getElem?_eq_getElem inside] at stands
      exact ⟨copy, found, stands⟩
    · rw [there.provides.toArray, List.tail_drop]
      obtain more | ended := Nat.lt_or_ge kinds.length items.length
      · rw [Nat.min_eq_left more]
      · rw [Nat.min_eq_right (by omega), List.drop_length, List.drop_eq_nil_of_le (by omega)]
  · rw [Cursor.collect, ahead, (start.take _).1,
      List.take_of_length_le (usable.length_le_limit provides.hasLeft)]

/-- A store with a list of two elements. -/
def oneTwo : Store Nat := { containers := ⟨[{ items := [1, 2] }]⟩, fresh := 1 }

/-- The list, and then the same list from its end. -/
def thereAndBack : Cursor Nat × Store Nat :=
  let (front, store) := oneTwo.cursorOver 0
  let (back, store) := store.backwardCursorOver 0
  Cursor.combine front (.ofList back) store

theorem usable_thereAndBack : thereAndBack.1.Usable thereAndBack.2 := by
  have front := Assembled.cursor (.start oneTwo) (.forward 0 0) fun _ none =>
    absurd none List.not_mem_nil
  have both := front.cursor (.backward 0 0) fun _ none => absurd none List.not_mem_nil
  have whole := both.combine (List.mem_cons_of_mem _ List.mem_cons_self) List.mem_cons_self
  exact whole.usable List.mem_cons_self

/-- After three increments the reader stands at the last element, and the cursor has none left.
After four it is at its end. A loop that is left after one element has taken two. -/
theorem ranges_read_one_ahead_thereAndBack :
    let (cursor, store) := thereAndBack
    ∃ first between, Reader.fetch cursor store = (.ok first, between) ∧
      (let (handed, reader, reached) :=
        serve Reader.increment (first, between) [.post, .pre, .post]
      let (_, last, _) := serve Reader.increment (first, between) [.pre, .pre, .pre, .post]
      cursor.Usable store ∧ (cursor.toArray store).1 = .ok [1, 2, 2, 1] ∧
        reader.equals .finished = false ∧ reader.current = some 1 ∧
        (∃ copy, handed[2]? = some (.ok copy) ∧ copy.current = some 2) ∧
        (cursor.toArray reached).1 = .ok [] ∧ last.equals .finished = true) ∧
      (∃ after, Reader.Loop first between [1, 2, 2, 1] after ∧
        (cursor.toArray after).1 = .ok []) ∧
      (cursor.takeAhead 1 store).1 = .ok [1] ∧
      (cursor.toArray (cursor.takeAhead 1 store).2).1 = .ok [2, 1] := by
  have left : (thereAndBack.1.toArray thereAndBack.2).1 = .ok [1, 2, 2, 1] := rfl
  obtain ⟨first, between, fetched, walks, loop, -, early⟩ :=
    ranges_read_one_ahead usable_thereAndBack left
  obtain ⟨unended, stands, copies, taken⟩ := walks [.post, .pre, .post] (by decide)
  obtain ⟨ended, -⟩ := walks [.pre, .pre, .pre, .post] (by decide)
  obtain ⟨copy, found, copied⟩ := copies 2 (by decide) .post rfl
  have differs : ¬ (3 : Nat) = 4 := by decide
  exact ⟨first, between, fetched,
    ⟨usable_thereAndBack, left, Bool.eq_false_iff.mpr fun same => differs (unended.mp same),
      stands (by decide), ⟨copy, found, copied rfl⟩, taken, ended.mpr rfl⟩, loop, early 1⟩

end Collections
