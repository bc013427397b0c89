import Collections.Proofs.Cursor.Standing
import Collections.Proofs.Runs

/-!
# Cursors that only read

A cursor is sheltered if each of its parts that could edit a container lies under a view that only
reads (`Cursor.Sheltered`). Whatever its combinations have gone over to, a removal ends at such a
view, at the pieces of a text or at the empty cursor. So it fails and changes nothing
(`Cursor.Sheltered.remove`).

A cursor without these views (`Cursor.bare`) reads just as it did: asking, delivering, reading to
the end and going through a range are the same operations (`Cursor.hasNext_bare`,
`Cursor.next_bare`, `Cursor.toArray_bare`, `Reader.fetch_bare`). What a guest of the cursor asks for
besides removals is answered alike without the views (`Cursor.attend_bare`), and does not change the
elements of any container (`Cursor.items_attend`). So a guest of a sheltered cursor is answered as a
guest of the bare one who removes nothing (`sheltered_is_only_read`).
-/

set_option autoImplicit false

namespace Collections

variable {α : Type}

namespace Cursor

/-- Everything that could be edited lies under a view that only reads. -/
def Sheltered : Cursor α → Prop
  | direct _ _ | ofList _ => False
  | pieces _ _ | empty => True
  | combined _ first second => first.Sheltered ∧ second.Sheltered
  | readOnly _ _ => True

/-- The cursor without its views that only read. -/
def bare : Cursor α → Cursor α
  | combined switch first second => combined switch first.bare second.bare
  | readOnly _ source => source.bare
  | part => part

/-! ## Reading without the views -/

theorem hasNext_bare (cursor : Cursor α) (store : Store α) :
    cursor.bare.hasNext store = cursor.hasNext store := by
  induction cursor generalizing store with
  | direct | ofList | pieces | empty => rfl
  | readOnly view source ih => exact ih store
  | combined switch first second front back => simp only [bare, hasNext, front, back]

theorem next_bare (cursor : Cursor α) (store : Store α) :
    cursor.bare.next store = cursor.next store := by
  induction cursor generalizing store with
  | direct | ofList | pieces | empty => rfl
  | readOnly view source ih => exact ih store
  | combined switch first second front back =>
      have asked := hasNext_bare (combined switch first second) store
      rw [bare] at asked
      simp only [bare, next, asked, front, back]

theorem limit_bare (cursor : Cursor α) (store : Store α) :
    cursor.bare.limit store = cursor.limit store := by
  induction cursor with
  | direct | ofList | pieces | empty => rfl
  | readOnly view source ih => exact ih
  | combined switch first second front back => simp only [bare, limit, front, back]

theorem drainWithin_bare (cursor : Cursor α) (rounds : Nat) (store : Store α) :
    cursor.bare.drainWithin rounds store = cursor.drainWithin rounds store := by
  induction rounds generalizing store with
  | zero => rfl
  | succ rounds ih => simp only [drainWithin, hasNext_bare, next_bare, ih]

/-- **Reading to the end is the same without the views.** -/
theorem toArray_bare (cursor : Cursor α) (store : Store α) :
    cursor.bare.toArray store = cursor.toArray store := by
  rw [toArray, toArray, limit_bare, drainWithin_bare]

end Cursor

namespace Reader

/-- The reader of a cursor without its views. -/
def bare (reader : Reader α) : Reader α := { reader with cursor := reader.cursor.map Cursor.bare }

theorem equals_finished_bare (reader : Reader α) :
    reader.bare.equals finished = reader.equals finished := by
  obtain ⟨_ | cursor, current⟩ := reader <;> rfl

theorem fetch_bare (cursor : Cursor α) (store : Store α) :
    fetch cursor.bare store = (fetch cursor store).map (·.map bare) id := by
  simp only [fetch, Cursor.hasNext_bare, Cursor.next_bare]
  rcases cursor.hasNext store with ⟨_ | _, asked⟩
  · rfl
  · dsimp only
    rcases cursor.next asked with ⟨_ | _, after⟩ <;> rfl

theorem increment_bare (reader : Reader α) (store : Store α) (kind : Increment) :
    increment (reader.bare, store) kind =
      (increment (reader, store) kind).map (·.map bare) (Prod.map bare id) := by
  have advanced : reader.bare.advance store = (reader.advance store).map (·.map bare) id := by
    obtain ⟨_ | cursor, current⟩ := reader
    · rfl
    · exact fetch_bare cursor store
  simp only [increment, advanced]
  rcases reader.advance store with ⟨cause | next, after⟩
  · rfl
  · cases kind <;> rfl

end Reader

/-! ## What reading leaves alone -/

namespace Cursor

theorem consumed_drainWithin (cursor : Cursor α) (rounds : Nat) (store : Store α) :
    Store.Consumed store (cursor.drainWithin rounds store).2 := by
  induction rounds generalizing store with
  | zero => exact .refl store
  | succ rounds ih =>
      rw [drainWithin]
      rcases asked : cursor.hasNext store with ⟨_ | _, between⟩
      · exact (asked_of_hasNext asked).consumed
      · have asking := (asked_of_hasNext asked).consumed
        have taking := cursor.consumed_next between
        rcases taken : cursor.next between with ⟨cause | item, after⟩
        · rw [taken] at taking
          simpa only [taken] using asking.trans taking
        · rw [taken] at taking
          have through := (asking.trans taking).trans (ih after)
          simp only [taken]
          rcases drained : cursor.drainWithin rounds after with ⟨_ | _, last⟩ <;>
            rwa [drained] at through

end Cursor

namespace Reader

theorem consumed_fetch (cursor : Cursor α) (store : Store α) :
    Store.Consumed store (fetch cursor store).2 := by
  rw [fetch]
  rcases asked : cursor.hasNext store with ⟨_ | _, between⟩
  · exact (Cursor.asked_of_hasNext asked).consumed
  · have asking := (Cursor.asked_of_hasNext asked).consumed
    have taking := cursor.consumed_next between
    rcases taken : cursor.next between with ⟨cause | item, after⟩
    · rw [taken] at taking
      simpa only [taken] using asking.trans taking
    · rw [taken] at taking
      simpa only [taken] using asking.trans taking

theorem consumed_advance (reader : Reader α) (store : Store α) :
    Store.Consumed store (reader.advance store).2 := by
  obtain ⟨_ | cursor, current⟩ := reader
  · exact .refl store
  · exact consumed_fetch cursor store

end Reader

namespace Cursor

theorem toArrayReversed_eq (cursor : Cursor α) (store : Store α) :
    cursor.toArrayReversed store = (cursor.toArray store).map (·.map List.reverse) id := by
  rw [toArrayReversed]
  rcases cursor.toArray store with ⟨cause | items, after⟩ <;> rfl

theorem join_eq (separator : Bytes) (render : α → Bytes) (cursor : Cursor α) (store : Store α) :
    cursor.join separator render store =
      (cursor.toArray store).map (·.map fun items => Bytes.joined separator (items.map render))
        id := by
  rw [join]
  rcases cursor.toArray store with ⟨cause | items, after⟩ <;> rfl

/-! ## Removals -/

/-- **A removal through a sheltered cursor fails and changes nothing.** -/
theorem Sheltered.remove {cursor : Cursor α} (sheltered : cursor.Sheltered) (store : Store α) :
    ∃ cause, cursor.remove store = (.error cause, store) := by
  induction cursor with
  | direct | ofList => exact absurd sheltered id
  | pieces | empty | readOnly => exact ⟨_, rfl⟩
  | combined switch first second front back =>
      rw [Cursor.remove]
      split
      · exact back sheltered.2
      · exact front sheltered.1

end Cursor

/-! ## Guests -/

/-- A guest of a cursor has made some readers of it, or copies of them. -/
structure Visit (α : Type) where
  store : Store α
  readers : List (Reader α) := []

namespace Visit

/-- What a guest can ask for. -/
inductive Request (α : Type) where
  | hasNext
  | next
  | remove
  | toArray
  | toArrayReversed
  | join (separator : Bytes) (render : α → Bytes)
  /-- Make a reader. -/
  | range
  /-- Increment a reader. What is handed out is one reader more. -/
  | increment (index : Nat) (kind : Reader.Increment)

/-- What a guest is told. -/
inductive Answer (α : Type) where
  | more (value : Bool)
  | delivered (result : Except CursorError α)
  | removed (result : Except CursorError Unit)
  | items (result : Except CursorError (List α))
  | text (result : Except CursorError Bytes)
  /-- The element of the reader that is handed out, and whether the reader is at its end. -/
  | reader (result : Except CursorError (Option α × Bool))
  | missing

def Request.isRemove : Request α → Bool
  | remove => true
  | _ => false

def Answer.isRemoved : Answer α → Bool
  | removed _ => true
  | _ => false

/-- The same readers, of the cursor without its views. -/
def bare (visit : Visit α) : Visit α := { visit with readers := visit.readers.map Reader.bare }

end Visit

namespace Cursor

/-- Answer a guest. -/
def attend (cursor : Cursor α) (visit : Visit α) : Visit.Request α → Visit.Answer α × Visit α
  | .hasNext => (cursor.hasNext visit.store).map .more ({ visit with store := · })
  | .next => (cursor.next visit.store).map .delivered ({ visit with store := · })
  | .remove => (cursor.remove visit.store).map .removed ({ visit with store := · })
  | .toArray => (cursor.toArray visit.store).map .items ({ visit with store := · })
  | .toArrayReversed => (cursor.toArrayReversed visit.store).map .items ({ visit with store := · })
  | .join separator render =>
      (cursor.join separator render visit.store).map .text ({ visit with store := · })
  | .range =>
      match Reader.fetch cursor visit.store with
      | (.error cause, store) => (.reader (.error cause), { visit with store })
      | (.ok reader, store) =>
          (.reader (.ok (reader.current, reader.equals .finished)),
            ⟨store, visit.readers ++ [reader]⟩)
  | .increment index kind =>
      match visit.readers[index]? with
      | none => (.missing, visit)
      | some reader =>
          match Reader.increment (reader, visit.store) kind with
          | (.error cause, next, store) =>
              (.reader (.error cause), ⟨store, visit.readers.set index next⟩)
          | (.ok handed, next, store) =>
              (.reader (.ok (handed.current, next.equals .finished)),
                ⟨store, visit.readers.set index next ++ [handed]⟩)

/-- What a guest asks for besides removals, a cursor does as it does without its views. -/
theorem attend_bare (cursor : Cursor α) (visit : Visit α) {request : Visit.Request α}
    (reads : request.isRemove = false) :
    cursor.bare.attend visit.bare request = (cursor.attend visit request).map id Visit.bare := by
  cases request with
  | remove => cases reads
  | hasNext => simp only [attend, Visit.bare, hasNext_bare, Prod.map_map]; rfl
  | next => simp only [attend, Visit.bare, next_bare, Prod.map_map]; rfl
  | toArray => simp only [attend, Visit.bare, toArray_bare, Prod.map_map]; rfl
  | toArrayReversed =>
      simp only [attend, Visit.bare, toArrayReversed_eq, toArray_bare, Prod.map_map]
      rfl
  | join separator render =>
      simp only [attend, Visit.bare, join_eq, toArray_bare, Prod.map_map]
      rfl
  | range =>
      simp only [attend, Visit.bare, Reader.fetch_bare]
      rcases Reader.fetch cursor visit.store with ⟨cause | reader, store⟩
      · rfl
      · simp [Visit.bare, Except.map, Reader.equals_finished_bare]
        rfl
  | increment index kind =>
      simp only [attend, Visit.bare, List.getElem?_map]
      cases visit.readers[index]? with
      | none => rfl
      | some reader =>
          simp only [Option.map_some, Reader.increment_bare]
          rcases Reader.increment (reader, visit.store) kind with ⟨cause | handed, next, store⟩
          · simp [Visit.bare, Except.map, List.map_set]
          · simp [Visit.bare, Except.map, Reader.equals_finished_bare, List.map_set]
            rfl

/-- **Nothing that a guest asks for besides removals changes the elements of a container.** -/
theorem items_attend (cursor : Cursor α) (visit : Visit α) {request : Visit.Request α}
    (reads : request.isRemove = false) (source : Handle) :
    (cursor.attend visit request).2.store.items source = visit.store.items source := by
  have drained : (cursor.toArray visit.store).2.items source = visit.store.items source :=
    (cursor.consumed_drainWithin _ visit.store).items source
  cases request with
  | remove => cases reads
  | hasNext => exact (asked_of_hasNext rfl).consumed.items source
  | next => exact (cursor.consumed_next visit.store).items source
  | toArray => exact drained
  | toArrayReversed => rwa [attend, toArrayReversed_eq]
  | join separator render => rwa [attend, join_eq]
  | range =>
      have fetched := (Reader.consumed_fetch cursor visit.store).items source
      rw [attend]
      rcases told : Reader.fetch cursor visit.store with ⟨cause | reader, store⟩ <;>
        rwa [told] at fetched
  | increment index kind =>
      rw [attend]
      cases visit.readers[index]? with
      | none => rfl
      | some reader =>
          have advanced := (Reader.consumed_advance reader visit.store).items source
          dsimp only [Reader.increment]
          rcases told : reader.advance visit.store with ⟨cause | next, store⟩
          · rwa [told] at advanced
          · rw [told] at advanced
            cases kind <;> exact advanced

/-- To removals, and to nothing else, a guest is told whether they succeeded. -/
theorem isRemoved_attend (cursor : Cursor α) (visit : Visit α) (request : Visit.Request α) :
    (cursor.attend visit request).1.isRemoved = request.isRemove := by
  cases request with
  | increment index kind =>
      rw [attend]
      cases visit.readers[index]? with
      | none => rfl
      | some reader =>
          dsimp only
          rcases Reader.increment (reader, visit.store) kind with ⟨cause | handed, next, store⟩ <;>
            rfl
  | range =>
      rw [attend]
      rcases Reader.fetch cursor visit.store with ⟨cause | reader, store⟩ <;> rfl
  | _ => rfl

/-- A removal through a sheltered cursor fails, and the guest is where he was. -/
theorem Sheltered.attend_remove {cursor : Cursor α} (sheltered : cursor.Sheltered)
    (visit : Visit α) :
    ∃ cause, cursor.attend visit .remove = (.removed (.error cause), visit) := by
  obtain ⟨cause, failed⟩ := sheltered.remove visit.store
  exact ⟨cause, by rw [attend, failed]; rfl⟩

end Cursor

/-- **What lies under views that only read is not edited.** Take a cursor whose parts are all
sheltered, except for pieces of texts and empty cursors, in whatever nesting. Whatever a guest asks
for, in whatever order, no container changes, and each removal fails. The other answers are those
that a guest of the same cursor without the views is given who does not ask for the removals, and
both leave the same. -/
theorem sheltered_is_only_read {cursor : Cursor α} (sheltered : cursor.Sheltered) (visit : Visit α)
    (requests : List (Visit.Request α)) :
    let (answers, left) := serve cursor.attend visit requests
    (∀ source, left.store.items source = visit.store.items source) ∧
      (∀ index : Nat, requests[index]? = some .remove →
        ∃ cause, answers[index]? = some (.removed (.error cause))) ∧
      serve cursor.bare.attend visit.bare (requests.filter (!·.isRemove)) =
        (answers.filter (!·.isRemoved), left.bare) := by
  induction requests generalizing visit with
  | nil =>
      refine ⟨fun _ => rfl, ?_, rfl⟩
      intro index none
      cases none
  | cons request rest ih =>
      have told := cursor.isRemoved_attend visit request
      have later := ih (cursor.attend visit request).2
      rcases answered : cursor.attend visit request with ⟨answer, next⟩
      rcases served : serve cursor.attend next rest with ⟨answers, left⟩
      simp only [answered, served] at told later
      obtain ⟨unchanged, failed, plain⟩ := later
      rw [serve_cons answered served]
      cases removes : request.isRemove with
      | true =>
          obtain rfl : request = .remove := by
            cases request <;> first | rfl | cases removes
          obtain ⟨cause, fails⟩ := sheltered.attend_remove visit
          obtain ⟨rfl, rfl⟩ := Prod.mk.inj (answered.symm.trans fails)
          refine ⟨unchanged, ?_, plain⟩
          intro index here
          cases index with
          | zero => exact ⟨cause, rfl⟩
          | succ index => exact failed index here
      | false =>
          have reads := cursor.items_attend visit removes
          have bare := cursor.attend_bare visit removes
          rw [answered] at reads bare
          rw [removes] at told
          refine ⟨fun source => (unchanged source).trans (reads source), ?_, ?_⟩
          · intro index here
            cases index with
            | zero =>
                obtain rfl := Option.some.inj here
                cases removes
            | succ index => exact failed index here
          · rw [List.filter_cons_of_pos (by rw [removes]; rfl),
              List.filter_cons_of_pos (by rw [told]; rfl)]
            exact serve_cons bare plain

/-- A store with a list of two elements and a text of two pieces. -/
def listAndText : Store Nat where
  containers := ⟨[{ items := [1, 2] }]⟩
  splitters := ⟨[default, { delimiter := [44], subject := [97, 44, 98, 99] }]⟩
  fresh := 2

/-- The list under a view that only reads, then the lengths of the pieces, then the list from its
end under such a view, within another one. -/
def listAndTextUnderViews : Cursor Nat × Store Nat :=
  let (front, store) := listAndText.cursorOver 0
  let (view, store) := store.allocate
  let (back, store) := store.backwardCursorOver 0
  let (inner, store) := store.allocate
  let (behind, store) :=
    Cursor.combine (.pieces 1 List.length) (.readOnly inner (.ofList back)) store
  let (outer, store) := store.allocate
  Cursor.combine (.readOnly view front) (.readOnly outer behind) store

/-- Removals fail after the first element, which comes from the list, and after the third, which is
the length of a piece. What is read is what is read without the views. -/
theorem sheltered_is_only_read_listAndText :
    let (cursor, store) := listAndTextUnderViews
    let visit : Visit Nat := ⟨store, []⟩
    let (answers, left) := serve cursor.attend visit
      [.next, .remove, .range, .increment 0 .post, .remove, .hasNext, .toArray]
    let plain := serve cursor.bare.attend visit
      [.next, .range, .increment 0 .post, .hasNext, .toArray]
    cursor.Sheltered ∧ left.store.items 0 = [1, 2] ∧
      (∃ cause, answers[1]? = some (.removed (.error cause))) ∧
      (∃ cause, answers[4]? = some (.removed (.error cause))) ∧
      plain.1 = answers.filter (!·.isRemoved) ∧ plain.2 = left.bare ∧
      plain.1 = [.delivered (.ok 1), .reader (.ok (some 2, false)), .reader (.ok (some 2, false)),
        .more true, .items (.ok [2, 2, 1])] := by
  have sheltered : listAndTextUnderViews.1.Sheltered := ⟨trivial, trivial⟩
  obtain ⟨unchanged, fails, plain⟩ := sheltered_is_only_read sheltered ⟨listAndTextUnderViews.2, []⟩
    [.next, .remove, .range, .increment 0 .post, .remove, .hasNext, .toArray]
  exact ⟨sheltered, unchanged 0, fails 1 rfl, fails 4 rfl, congrArg Prod.fst plain,
    congrArg Prod.snd plain, rfl⟩

end Collections
