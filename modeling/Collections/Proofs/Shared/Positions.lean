import Collections.Proofs.Runs
import Collections.Shared.List
import Mathlib.Data.List.Basic

/-!
# Shared lists answer as lists

What callers ask of a shared list can be asked of a bare list (`PlainList.answer`). Both answer every
operation alike and have the same content afterwards (`SharedList.apply_eq`), so nothing that is done
behind the lock tells how the list is kept.

A position may be any number (`SharedList.Positional`). An insertion reaches one position further than
the other operations, to the end of the list, and where an operation does not reach it changes nothing.
Where it does reach, the element that was there is told, and the elements at the other positions stay in
order. To remove an element is to erase the position at which it is found first
(`SharedList.remove_eq`).
-/

set_option autoImplicit false

namespace Collections.Shared

open SharedList (Operation Result)

variable {α : Type}

/-! ## Bare lists -/

namespace PlainList

variable [BEq α]

/-- What a list answers to an operation, and the list afterwards. -/
def answer (items : List α) : Operation α → Result α × List α
  | .pushBack item => (.done, items ++ [item])
  | .pushBackAll more => (.done, items ++ more)
  | .insert index item =>
      if index ≤ items.length then (.flag true, items.take index ++ item :: items.drop index)
      else (.flag false, items)
  | .get index => (.item items[index]?, items)
  | .set index item => (.item items[index]?, items.set index item)
  | .eraseAt index => (.item items[index]?, items.eraseIdx index)
  | .remove item => (.flag (items.any (· == item)), items.eraseP (· == item))
  | .indexOf item => (.index (items.findIdx? (· == item)), items)
  | .contains item => (.flag (items.any (· == item)), items)
  | .size => (.count items.length, items)
  | .empty => (.flag items.isEmpty, items)
  | .clear => (.done, [])
  | .forEach => (.visited (items.map fun item => (item, items.findIdx? (· == item))), items)
  | .reverse => (.done, items.reverse)

/-- What a list answers, with the list afterwards. -/
def observe (items : List α) (operation : Operation α) :
    (Answer α (Result α) × List α) × List α :=
  let (result, after) := answer items operation
  ((.plain result, after), after)

end PlainList

namespace SharedList

/-! ## Operations -/

/-- The elements on both sides of an insertion stay in order. -/
theorem insertIdx_of_le {items : List α} {index : Nat} (inside : index ≤ items.length) (item : α) :
    items.insertIdx index item = items.take index ++ item :: items.drop index := by
  induction index generalizing items with
  | zero => rfl
  | succ index hypothesis =>
      cases items with
      | nil => cases inside
      | cons first rest =>
          rw [List.insertIdx_succ_cons, hypothesis (Nat.le_of_succ_le_succ inside)]
          rfl

variable {list : SharedList α} {items : List α}

theorem items_pushBack (list : SharedList α) (item : α) :
    (list.pushBack item).items = list.items ++ [item] :=
  List.insertIdx_length_self

theorem items_pushBackAll (list : SharedList α) (more : List α) :
    (list.pushBackAll more).items = list.items ++ more := by
  induction more generalizing list with
  | nil => exact (List.append_nil _).symm
  | cons item rest hypothesis =>
      have step : list.pushBackAll (item :: rest) = (list.pushBack item).pushBackAll rest := rfl
      rw [step, hypothesis, items_pushBack, List.append_assoc]
      rfl

theorem insert_of_le {index : Nat} (inside : index ≤ list.size) (item : α) :
    list.insert index item = (true, list.edit (list.container.insertAt index item)) :=
  if_pos inside

theorem insert_of_lt {index : Nat} (beyond : list.size < index) (item : α) :
    list.insert index item = (false, list) :=
  if_neg (Nat.not_le.mpr beyond)

/-- The former element is told, whether or not there is one. -/
theorem set_fst (list : SharedList α) (index : Nat) (item : α) :
    (list.set index item).1 = list.items[index]? := by
  rw [set, get?]
  cases list.items[index]? <;> rfl

theorem set_of_le {index : Nat} (beyond : list.size ≤ index) (item : α) :
    list.set index item = (none, list) := by
  have nothing : list.items[index]? = none := List.getElem?_eq_none beyond
  rw [set, get?, nothing]

theorem items_set (list : SharedList α) (index : Nat) (item : α) :
    (list.set index item).2.items = list.items.set index item := by
  rcases Nat.lt_or_ge index list.items.length with inside | beyond
  · rw [set, get?, List.getElem?_eq_getElem inside]
    rfl
  · rw [set_of_le beyond, List.set_eq_of_length_le beyond]

theorem eraseAt_fst (list : SharedList α) (index : Nat) :
    (list.eraseAt index).1 = list.items[index]? := by
  rw [eraseAt, get?]
  cases list.items[index]? <;> rfl

theorem eraseAt_of_le {index : Nat} (beyond : list.size ≤ index) :
    list.eraseAt index = (none, list) := by
  have nothing : list.items[index]? = none := List.getElem?_eq_none beyond
  rw [eraseAt, get?, nothing]

theorem items_eraseAt (list : SharedList α) (index : Nat) :
    (list.eraseAt index).2.items = list.items.eraseIdx index := by
  rcases Nat.lt_or_ge index list.items.length with inside | beyond
  · rw [eraseAt, get?, List.getElem?_eq_getElem inside]
    rfl
  · rw [eraseAt_of_le beyond, List.eraseIdx_of_length_le beyond]

section Equality

variable [BEq α]

theorem contains_eq (list : SharedList α) (item : α) :
    list.contains item = list.items.any (· == item) :=
  List.findIdx?_isSome

/-- **To remove an element is to erase the position at which it is found first.** -/
theorem remove_eq (list : SharedList α) (item : α) :
    list.remove item =
      match list.indexOf? item with
      | some index => (true, (list.eraseAt index).2)
      | none => (false, list) := by
  rw [remove, Container.eraseItem, indexOf?]
  cases found : list.container.indexOf? item with
  | none => rfl
  | some index =>
      have inside : index < list.items.length :=
        (List.findIdx?_eq_some_iff_findIdx_eq.mp found).1
      dsimp only
      rw [eraseAt, get?, List.getElem?_eq_getElem inside]
      rfl

theorem items_remove (list : SharedList α) (item : α) :
    (list.remove item).2.items = list.items.eraseP (· == item) := by
  have sought : list.items.findIdx? (· == item) = list.indexOf? item := rfl
  rw [remove_eq, List.eraseP_eq_eraseIdx, sought]
  cases list.indexOf? item with
  | none => rfl
  | some index => exact list.items_eraseAt index

/-! ## Any number is a position -/

/-- How far the operations of a list reach, and what they leave elsewhere. -/
structure Positional (list : SharedList α) : Prop where
  insert_iff : ∀ index item, (list.insert index item).1 = true ↔ index ≤ list.size
  get_iff : ∀ index, (list.get? index).isSome = true ↔ index < list.size
  set_iff : ∀ index item, (list.set index item).1.isSome = true ↔ index < list.size
  eraseAt_iff : ∀ index, (list.eraseAt index).1.isSome = true ↔ index < list.size
  /-- Beyond the end nothing happens. -/
  insert_beyond : ∀ index item, list.size < index → (list.insert index item).2 = list
  set_beyond : ∀ index item, list.size ≤ index → (list.set index item).2 = list
  eraseAt_beyond : ∀ index, list.size ≤ index → (list.eraseAt index).2 = list
  /-- The element that was there is told. -/
  set_tells : ∀ index item, (list.set index item).1 = list.get? index
  eraseAt_tells : ∀ index, (list.eraseAt index).1 = list.get? index
  /-- The other elements stay, in order. -/
  set_keeps : ∀ index item, index < list.size →
    (list.set index item).2.items = list.items.take index ++ item :: list.items.drop (index + 1)
  eraseAt_keeps : ∀ index, index < list.size →
    (list.eraseAt index).2.items = list.items.take index ++ list.items.drop (index + 1)
  /-- An element is found if there is an equal one, and removed where it is found. -/
  contains_iff : ∀ item, list.contains item = true ↔ ∃ other ∈ list.items, (other == item) = true
  found_iff : ∀ item, (list.indexOf? item).isSome = list.contains item
  remove_iff : ∀ item, (list.remove item).1 = list.contains item
  remove_found : ∀ item index, list.indexOf? item = some index →
    (list.remove item).2.items = list.items.take index ++ list.items.drop (index + 1)
  remove_missed : ∀ item, list.indexOf? item = none → (list.remove item).2 = list
  /-- The position that is found is the first one with such an element. -/
  indexOf_first : ∀ item index, list.indexOf? item = some index →
    (∃ other, list.get? index = some other ∧ (other == item) = true) ∧
      ∀ earlier < index, ∀ other, list.get? earlier = some other → (other == item) = false

theorem positional (list : SharedList α) : list.Positional where
  insert_iff index item := by
    rcases Nat.lt_or_ge list.size index with beyond | inside
    · simp [insert_of_lt beyond, beyond]
    · simp [insert_of_le inside, inside]
  get_iff index := by simp [get?, Guarded.size, Guarded.items]
  set_iff index item := by simp [set_fst, Guarded.size, Guarded.items]
  eraseAt_iff index := by simp [eraseAt_fst, Guarded.size, Guarded.items]
  insert_beyond index item beyond := congrArg Prod.snd (insert_of_lt beyond item)
  set_beyond index item beyond := congrArg Prod.snd (set_of_le beyond item)
  eraseAt_beyond index beyond := congrArg Prod.snd (eraseAt_of_le beyond)
  set_tells := list.set_fst
  eraseAt_tells := list.eraseAt_fst
  set_keeps index item inside := by
    rw [items_set]
    exact List.set_eq_take_append_cons_drop.trans (if_pos inside)
  eraseAt_keeps index _ := by rw [items_eraseAt, List.eraseIdx_eq_take_drop_succ]
  contains_iff item := by rw [contains_eq, List.any_eq_true]
  found_iff _ := rfl
  remove_iff item := by
    rw [remove_eq, contains]
    cases list.indexOf? item <;> rfl
  remove_found item index found := by
    rw [remove_eq, found, ← List.eraseIdx_eq_take_drop_succ]
    exact list.items_eraseAt index
  remove_missed item missed := by rw [remove_eq, missed]
  indexOf_first item index found := by
    obtain ⟨inside, isThere, before⟩ := List.findIdx?_eq_some_iff_getElem.mp found
    refine ⟨⟨_, List.getElem?_eq_getElem inside, isThere⟩, ?_⟩
    intro earlier isEarlier other there
    obtain ⟨inRange, rfl⟩ := List.getElem?_eq_some_iff.mp there
    exact Bool.eq_false_iff.mpr (before earlier isEarlier)

/-! ## Runs -/

/-- **Every operation is answered as by the bare list of the elements.** -/
theorem apply_eq (list : SharedList α) (operation : Operation α) :
    (list.apply operation).1 = (PlainList.answer list.items operation).1 ∧
      (list.apply operation).2.items = (PlainList.answer list.items operation).2 := by
  cases operation with
  | pushBack item => exact ⟨rfl, list.items_pushBack item⟩
  | pushBackAll more => exact ⟨rfl, list.items_pushBackAll more⟩
  | insert index item =>
      rw [apply, PlainList.answer]
      split
      next inside =>
        rw [insert_of_le inside]
        exact ⟨rfl, insertIdx_of_le inside item⟩
      next beyond =>
        rw [insert_of_lt (Nat.not_le.mp beyond)]
        exact ⟨rfl, rfl⟩
  | get index => exact ⟨rfl, rfl⟩
  | set index item =>
      exact ⟨congrArg Result.item (list.set_fst index item), list.items_set index item⟩
  | eraseAt index =>
      exact ⟨congrArg Result.item (list.eraseAt_fst index), list.items_eraseAt index⟩
  | remove item =>
      have told : (list.remove item).1 = list.items.any (· == item) :=
        (list.positional.remove_iff item).trans (list.contains_eq item)
      exact ⟨congrArg Result.flag told, list.items_remove item⟩
  | indexOf item => exact ⟨rfl, rfl⟩
  | contains item => exact ⟨congrArg Result.flag (list.contains_eq item), rfl⟩
  | size => exact ⟨rfl, rfl⟩
  | empty =>
      refine ⟨congrArg Result.flag ?_, rfl⟩
      show (list.items.length == 0) = list.items.isEmpty
      cases list.items <;> rfl
  | clear => exact ⟨rfl, rfl⟩
  | forEach => exact ⟨rfl, rfl⟩
  | reverse => exact ⟨rfl, rfl⟩

/-- A plain step is the operation itself. -/
theorem step_plain (list : SharedList α) (operation : Operation α) :
    list.step (.plain operation) = (.plain (list.apply operation).1, (list.apply operation).2) := by
  simp only [step, Guarded.step]

theorem run_plain (list : SharedList α) (operations : List (Operation α)) :
    (list.run (operations.map .plain)).1 =
        (serve PlainList.observe list.items operations).1 ∧
      (list.run (operations.map .plain)).2.items =
        (serve PlainList.observe list.items operations).2 := by
  induction operations generalizing list with
  | nil => exact ⟨rfl, rfl⟩
  | cons operation rest hypothesis =>
      obtain ⟨told, left⟩ := list.apply_eq operation
      obtain ⟨later, last⟩ := hypothesis (list.apply operation).2
      rw [left] at later last
      rw [List.map_cons, run, step_plain]
      simp only [serve, PlainList.observe, told, left, later, last, and_self]

end Equality

end SharedList

/-- **A shared list is a list, and any number is a position in it.** However the container behind the
lock keeps its places, the list answers every run of operations as the bare list of its elements does,
and holds the same elements after each of them. So two shared lists of the same elements cannot be told
apart. After every run, an insertion reaches the positions up to the length and every other operation
those below it; elsewhere they change nothing (`SharedList.Positional`). -/
theorem sharedList_is_list [BEq α] (list : SharedList α) (operations : List (Operation α)) :
    let run := list.run (operations.map .plain)
    let plain := serve PlainList.observe list.items operations
    run.1 = plain.1 ∧
      run.2.items = plain.2 ∧
      run.2.Positional ∧
      ∀ other : SharedList α, other.items = list.items →
        (other.run (operations.map .plain)).1 = run.1 := by
  intro run plain
  obtain ⟨answers, content⟩ := list.run_plain operations
  refine ⟨answers, content, run.2.positional, ?_⟩
  intro other same
  rw [(other.run_plain operations).1, same]
  exact answers.symm

/-- Operations at the length of a list and at the largest 64-bit number, and on an element that is there
twice. -/
def edgeOperations : List (Operation Nat) :=
  [.insert 3 9, .insert 18446744073709551615 8, .get 4, .set 4 5, .set 0 6,
    .eraseAt 18446744073709551615, .remove 1, .remove 1, .indexOf 9, .eraseAt 1, .forEach]

/-- Two lists of the same elements that keep their places in different ways, after
`edgeOperations`. -/
theorem sharedList_is_list_on_edgeOperations :
    let list : SharedList Nat := .wrap [1, 2, 1]
    let other : SharedList Nat := { container := { grip := .element, items := [1, 2, 1] } }
    other.items = list.items ∧
      (other.run (edgeOperations.map .plain)).1 = (list.run (edgeOperations.map .plain)).1 ∧
      (list.run (edgeOperations.map .plain)).1 =
        [(.plain (.flag true), [1, 2, 1, 9]), (.plain (.flag false), [1, 2, 1, 9]),
          (.plain (.item none), [1, 2, 1, 9]), (.plain (.item none), [1, 2, 1, 9]),
          (.plain (.item (some 1)), [6, 2, 1, 9]), (.plain (.item none), [6, 2, 1, 9]),
          (.plain (.flag true), [6, 2, 9]), (.plain (.flag false), [6, 2, 9]),
          (.plain (.index (some 2)), [6, 2, 9]), (.plain (.item (some 2)), [6, 9]),
          (.plain (.visited [(6, some 0), (9, some 1)]), [6, 9])] := by
  intro list other
  obtain ⟨answers, -, -, same⟩ := sharedList_is_list list edgeOperations
  exact ⟨rfl, same other rfl, answers⟩

end Collections.Shared
