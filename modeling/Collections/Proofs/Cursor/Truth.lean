import Collections.Proofs.Cursor.Alike

/-!
# Cursors that tell the truth

A cursor says that there is a next element exactly if it would deliver one, and fails to deliver one
only at its end. So whoever asks before each delivery reads all elements and meets no failure
(`Cursor.TellsTruth`). A cursor whose parts stand at places of their containers does so
(`Cursor.Placed.tellsTruth`), and that is kept by all requests.

Being asked makes no difference to what a cursor has to deliver (`Cursor.Indistinct.of_asked`), and
a cursor that has failed to deliver an element stays exhausted (`Cursor.Placed.stays_exhausted`).
Only a list cursor can get elements in front of it again, by a step backward or, seen from the other
end, by an addition (`Zipper.stays_exhausted`).

Together they say that a cursor which has been assembled in any way tells the truth in every state
that requests lead to (`hasNext_tells_truth`). To remove something through a cursor is allowed if no
container lies under two of its parts, as a part must be the only one to modify its container. Where
one list lies under two parts, to be asked whether there is more decides which of them removes, and
with it what is delivered later (`asking_changes_deliveries`).
-/

set_option autoImplicit false

namespace Collections

variable {α : Type}

namespace Cursor

/-- There is a next element exactly if a cursor says so, it fails to deliver one only at its end,
and to read all elements does not fail. -/
structure TellsTruth (cursor : Cursor α) (store : Store α) : Prop where
  hasNext_iff : (cursor.hasNext store).1 = true ↔ ∃ item, (cursor.next store).1 = .ok item
  pastEnd : ∀ cause, (cursor.next store).1 = .error cause → cause = .pastEnd
  readable : ∃ items, (cursor.toArray store).1 = .ok items ∧
    (cursor.hasNext (cursor.toArray store).2).1 = false ∧
    (cursor.toArrayReversed store).1 = .ok items.reverse ∧
    (∀ separator render, (cursor.join separator render store).1 =
      .ok (Bytes.joined separator (items.map render))) ∧
    (cursor.collect store).1 = .ok items

/-- A cursor that has been read to the end is exhausted. -/
theorem Drains.exhausted_after {cursor : Cursor α} {store after : Store α} {items : List α}
    {bound : Handle} (drains : cursor.Drains store items after) (made : cursor.MadeBefore bound) :
    cursor.hasNext after = (false, after) := by
  induction drains with
  | exhausted asked => exact hasNext_again made asked
  | delivers more taken rest ih => exact ih

/-- **Wherever its parts stand, a cursor tells the truth.** -/
theorem tellsTruth {cursor : Cursor α} {bound : Handle} {store : Store α}
    (shown : Seat.Shown cursor.seats store) (made : cursor.MadeBefore bound) :
    cursor.TellsTruth store := by
  rcases asked : cursor.hasNext store with ⟨more, middle⟩
  obtain ⟨items, after, drains, bounded⟩ := shown.exists_drains made
  have reads : ∃ items, (cursor.toArray store).1 = .ok items ∧
      (cursor.hasNext (cursor.toArray store).2).1 = false ∧
      (cursor.toArrayReversed store).1 = .ok items.reverse ∧
      (∀ separator render, (cursor.join separator render store).1 =
        .ok (Bytes.joined separator (items.map render))) ∧
      (cursor.collect store).1 = .ok items := by
    refine ⟨items, ?_, ?_, ?_, ?_, ?_⟩
    · rw [drains.toArray bounded]
    · rw [drains.toArray bounded, drains.exhausted_after made]
    · rw [drains.toArrayReversed bounded]
    · intro separator render
      rw [drains.join bounded]
    · rw [drains.collect bounded]
  cases more with
  | false =>
      have failed := next_of_hasNext_eq_false asked
      refine ⟨⟨?_, fun ⟨item, delivered⟩ => ?_⟩, ?_, reads⟩
      · intro more
        rw [asked] at more
        cases more
      · rw [failed] at delivered
        cases delivered
      · intro cause fails
        rw [failed] at fails
        exact (Except.error.inj fails).symm
  | true =>
      obtain ⟨item, last, delivered⟩ := shown.next_of_hasNext made asked
      refine ⟨⟨fun _ => ⟨item, congrArg Prod.fst delivered⟩, fun _ => congrArg Prod.fst asked⟩,
        ?_, reads⟩
      intro cause fails
      rw [delivered] at fails
      cases fails

/-- A cursor that tells the truth and fails to deliver an element denies having one. -/
theorem TellsTruth.hasNext_eq_false {cursor : Cursor α} {store : Store α}
    (truth : cursor.TellsTruth store) {cause : CursorError}
    (failed : (cursor.next store).1 = .error cause) : (cursor.hasNext store).1 = false := by
  refine Bool.eq_false_iff.mpr ?_
  intro more
  obtain ⟨item, delivered⟩ := truth.hasNext_iff.mp more
  rw [delivered] at failed
  cases failed

namespace Placed

variable {cursor : Cursor α} {bound : Handle} {store : Store α}

/-- An exhausted cursor delivers nothing, and no request changes that. -/
theorem respond_of_exhausted (placed : cursor.Placed store) (made : cursor.MadeBefore bound)
    (exhausted : (cursor.hasNext store).1 = false) {request : Request}
    (allowed : request = .remove → Seat.Apart cursor.seats) :
    (∀ result, (cursor.respond store request).1 = .delivered result → result = .error .pastEnd) ∧
      (cursor.hasNext (cursor.respond store request).2).1 = false := by
  have asked : cursor.hasNext store = (false, (cursor.hasNext store).2) := Prod.ext exhausted rfl
  have again := congrArg Prod.fst (hasNext_again made asked)
  cases request with
  | hasNext => exact ⟨nofun, again⟩
  | next =>
      have failed := next_of_hasNext_eq_false asked
      rw [Cursor.respond, failed]
      exact ⟨fun result same => (Response.delivered.inj same).symm, again⟩
  | remove =>
      refine ⟨nofun, ?_⟩
      rw [← exhausted]
      exact (Indistinct.of_remove made placed (allowed rfl)).answers

/-- **What has been exhausted stays so.** -/
theorem stays_exhausted (placed : cursor.Placed store) (made : cursor.MadeBefore bound)
    (exhausted : (cursor.hasNext store).1 = false) {requests : List Request}
    (allowed : .remove ∈ requests → Seat.Apart cursor.seats) :
    ∀ result, .delivered result ∈ (cursor.run store requests).1 → result = .error .pastEnd := by
  induction requests generalizing store with
  | nil => exact fun _ none => absurd none List.not_mem_nil
  | cons request rest ih =>
      have first : request = .remove → Seat.Apart cursor.seats :=
        fun removes => allowed (removes ▸ List.mem_cons_self)
      obtain ⟨fails, still⟩ := placed.respond_of_exhausted made exhausted first
      intro result member
      obtain here | later := List.mem_cons.mp member
      · exact fails result here.symm
      · exact ih (placed.respond first) still
          (fun later => allowed (List.mem_cons_of_mem _ later)) result later

end Placed

/-- Questions whether there is a next element lead to the state after the first of them. -/
theorem indistinct_of_asked_again {cursor : Cursor α} {bound : Handle} {store : Store α}
    (made : cursor.MadeBefore bound) (placed : cursor.Placed store) (count : Nat) :
    let asked := (cursor.run store (List.replicate count .hasNext)).2
    cursor.Indistinct bound asked store ∧ cursor.Placed asked := by
  induction count generalizing store with
  | zero => exact ⟨.of_alike made (.refl placed.shown bound), placed⟩
  | succ count ih =>
      have next : cursor.Placed (cursor.hasNext store).2 :=
        placed.respond fun removes : Request.hasNext = .remove => nomatch removes
      obtain ⟨same, there⟩ := ih next
      exact ⟨same.trans (.of_asked made placed), there⟩

end Cursor

/-! ## List cursors -/

namespace Zipper

open ListCursor (Request Response)

variable {zipper : Zipper α} {isView : Bool}

/-- With nothing ahead only a step backward or an addition gets something there. -/
theorem respondFrom_of_exhausted (exhausted : zipper.ahead = []) {request : Request α}
    (noPrevious : request ≠ .previous) (noAdd : request.isAdd = false) :
    (∀ result, (zipper.respondFrom isView request).1 = .delivered result →
        result = .error .pastEnd) ∧
      (zipper.respondFrom isView request).2.ahead = [] := by
  obtain ⟨behind, ahead, current⟩ := zipper
  obtain rfl : ahead = [] := exhausted
  cases request with
  | previous => exact absurd rfl noPrevious
  | add item => cases noAdd
  | next =>
      have failed : (respondFrom isView ⟨behind, [], current⟩ .next) =
          (.delivered (.error .pastEnd), ⟨behind, [], current⟩) := by
        cases isView <;> rfl
      rw [failed]
      exact ⟨fun result same => (Response.delivered.inj same).symm, rfl⟩
  | remove | set => cases isView <;> rcases current with _ | _ | _ <;> exact ⟨nofun, rfl⟩
  | _ => cases isView <;> exact ⟨nofun, rfl⟩

theorem stays_exhausted (exhausted : zipper.ahead = []) {requests : List (Request α)}
    (forward : ∀ request ∈ requests, request ≠ .previous ∧ request.isAdd = false) :
    ∀ result, .delivered result ∈ (serve (respondFrom isView) zipper requests).1 →
      result = .error .pastEnd := by
  induction requests generalizing zipper with
  | nil => exact fun _ none => absurd none List.not_mem_nil
  | cons request rest ih =>
      obtain ⟨⟨noPrevious, noAdd⟩, later⟩ := List.forall_mem_cons.mp forward
      obtain ⟨fails, still⟩ := respondFrom_of_exhausted exhausted noPrevious noAdd
      intro result member
      obtain here | there := List.mem_cons.mp member
      · exact fails result here.symm
      · exact ih still later result there

end Zipper

namespace ListCursor

/-- To ask a list cursor whether there is a next element changes nothing. -/
theorem serve_hasNext (cursor : ListCursor) (store : Store α) (count : Nat) :
    (serve cursor.respond store (List.replicate count .hasNext)).2 = store := by
  induction count with
  | zero => rfl
  | succ count ih => exact ih

section Shapes

variable {zipper : Zipper α} {store : Store α} {source slot : Handle} {isView : Bool}

theorem seat_shape (source slot view : Handle) (isView : Bool) :
    (shape source slot view isView).seat = ⟨source, slot, isView⟩ := by
  cases isView <;> rfl

/-- Both list cursors at a place that a zipper describes tell the truth. -/
theorem tellsTruth_shape
    (describes : (zipper.straight isView).Describes (store.container source) slot)
    (view : Handle) : (Cursor.ofList (shape source slot view isView)).TellsTruth store := by
  have shown : Seat.Shown (Cursor.ofList (shape source slot view isView) : Cursor α).seats
      store := by
    intro seat member
    obtain rfl := List.mem_singleton.mp member
    rw [seat_shape]
    exact ⟨zipper, describes⟩
  have made : (Cursor.ofList (shape source slot view isView) : Cursor α).MadeBefore 0 := trivial
  exact Cursor.tellsTruth shown made

/-- A list cursor that has failed to deliver an element fails until it goes back or adds one. -/
theorem shape_stays_exhausted
    (describes : (zipper.straight isView).Describes (store.container source) slot) (view : Handle)
    {cause : CursorError} (failed : ((shape source slot view isView).next store).1 = .error cause)
    {requests : List (Request α)}
    (forward : ∀ request ∈ requests, request ≠ .previous ∧ request.isAdd = false) :
    ∀ result, .delivered result ∈ (serve (shape source slot view isView).respond
        ((shape source slot view isView).next store).2 requests).1 →
      result = .error .pastEnd := by
  have shows : Seat.Shows ⟨source, slot, isView⟩ store zipper := describes
  have sits : (Cursor.ofList (shape source slot view isView) : Cursor α).seat? =
      some ⟨source, slot, isView⟩ := congrArg some (seat_shape source slot view isView)
  have asked := shows.hasNext sits
  have denied := (tellsTruth_shape describes view).hasNext_eq_false failed
  rw [asked] at denied
  have exhausted : zipper.ahead = [] := by simpa using denied
  rw [exhausted] at asked
  have unmoved : ((shape source slot view isView).next store).2 = store :=
    congrArg Prod.snd (Cursor.next_of_hasNext_eq_false asked)
  rw [unmoved, (describes.serve_shape view requests).1]
  exact zipper.stays_exhausted exhausted forward

end Shapes

end ListCursor

/-! ## The truth about all cursors -/

/-- **Every cursor tells the truth about whether there is a next element.** Take a cursor that has
been assembled in any way, and any run of requests to it. Afterwards it says that there is a next
element exactly if it would deliver one, fails to deliver one only at its end, and can be read to
the end without a failure. To ask it any number of times makes no difference to what it says and
delivers later, and once it has failed to deliver an element it always fails. It may be used to
remove elements if no container lies under two of its parts, since a container must not be modified
but through the one part that goes through it.

The same holds of a list cursor with all that can be asked of it. It stays exhausted as long as it
neither goes back nor adds an element. -/
theorem hasNext_tells_truth {made : List (Cursor α)} {store : Store α}
    (assembled : Assembled made store) :
    (∀ cursor ∈ made, ∀ requests : List Cursor.Request,
      (.remove ∈ requests → Seat.Apart cursor.seats) →
      let reached := (cursor.run store requests).2
      cursor.TellsTruth reached ∧
        ∀ later : List Cursor.Request, (.remove ∈ later → Seat.Apart cursor.seats) →
          (∀ count,
            let asked := (cursor.run reached (List.replicate count .hasNext)).2
            List.Forall₂ Cursor.Response.Agrees (cursor.run asked later).1
              (cursor.run reached later).1) ∧
          (∀ cause, (cursor.next reached).1 = .error cause →
            ∀ result, .delivered result ∈ (cursor.run (cursor.next reached).2 later).1 →
              result = .error .pastEnd)) ∧
    (∀ list, .ofList list ∈ made → ∀ requests : List (ListCursor.Request α),
      let reached := (serve list.respond store requests).2
      (Cursor.ofList list).TellsTruth reached ∧
        ∀ later : List (ListCursor.Request α),
          (∀ count,
            let asked := (serve list.respond reached (List.replicate count .hasNext)).2
            (serve list.respond asked later).1 = (serve list.respond reached later).1) ∧
          (∀ cause, (list.next reached).1 = .error cause →
            (∀ request ∈ later, request ≠ .previous ∧ request.isAdd = false) →
            ∀ result, .delivered result ∈ (serve list.respond (list.next reached).2 later).1 →
              result = .error .pastEnd)) := by
  refine ⟨?_, ?_⟩
  · intro cursor member requests allowed reached
    have fresh := assembled.fresh cursor member
    have placed : cursor.Placed reached := (Cursor.Placed.of_fresh fresh).run allowed
    refine ⟨Cursor.tellsTruth placed.shown fresh.made,
      fun later allowedLater => ⟨?_, ?_⟩⟩
    · intro count
      obtain ⟨same, there⟩ := Cursor.indistinct_of_asked_again fresh.made placed count
      exact same.run fresh.made there placed allowedLater
    · intro cause failed
      have exhausted := (Cursor.tellsTruth placed.shown fresh.made).hasNext_eq_false failed
      have allowedNext : Cursor.Request.next = .remove → Seat.Apart cursor.seats := nofun
      have after : cursor.Placed (cursor.next reached).2 := placed.respond allowedNext
      obtain ⟨-, still⟩ := placed.respond_of_exhausted fresh.made exhausted allowedNext
      exact after.stays_exhausted fresh.made still allowedLater
  · intro list member requests reached
    have fresh := assembled.fresh _ member
    obtain ⟨source, slot, view, isView, rfl⟩ := fresh.shaped list rfl
    obtain ⟨start, shows, -⟩ := fresh.unused _ (List.mem_singleton_self _)
    rw [ListCursor.seat_shape] at shows
    -- Whatever is asked of it, a zipper describes where it stands.
    obtain ⟨-, describes⟩ := Zipper.Describes.serve_shape shows view requests
    refine ⟨ListCursor.tellsTruth_shape describes view, fun later => ⟨?_, ?_⟩⟩
    · intro count
      rw [ListCursor.serve_hasNext]
    · exact fun cause failed forward =>
        ListCursor.shape_stays_exhausted describes view failed forward

/-- Two list cursors over one list, one after the other. -/
def twiceOver : Cursor Nat × Store Nat :=
  let store : Store Nat := { containers := ⟨[{ items := [1] }]⟩, fresh := 1 }
  let (first, store) := store.listCursorOver 0 0
  let (second, store) := store.listCursorOver 0 0
  Cursor.combine (.ofList first) (.ofList second) store

/-- **With one list under two parts, asking makes a difference.** After the delivery of the first
part, the cursor either removes the element, and then there is none left to deliver, or it is asked
before whether there is more. This leads on to the second part, which has nothing to remove yet and
delivers the same element again. -/
theorem asking_changes_deliveries :
    let (cursor, store) := twiceOver
    let reached := (cursor.run store [.next]).2
    let asked := (cursor.run reached [.hasNext]).2
    (∃ made, Assembled made store ∧ cursor ∈ made) ∧ ¬ Seat.Apart cursor.seats ∧
      (cursor.run reached [.remove, .next]).1 =
        [.removed (.ok ()), .delivered (.error .pastEnd)] ∧
      (cursor.run asked [.remove, .next]).1 =
        [.removed (.error .noCurrent), .delivered (.ok 1)] ∧
      ¬ List.Forall₂ Cursor.Response.Agrees (cursor.run asked [.remove, .next]).1
        (cursor.run reached [.remove, .next]).1 := by
  have assembled : Assembled [twiceOver.1, .ofList (.direct 0 2), .ofList (.direct 0 1)]
      twiceOver.2 :=
    .combine (.listCursor (.listCursor (.start _) 0 (Nat.zero_le 1)) 0 (Nat.zero_le 1))
      (List.mem_cons_of_mem _ List.mem_cons_self) List.mem_cons_self
  refine ⟨⟨_, assembled, List.mem_cons_self⟩, by decide, rfl, rfl, ?_⟩
  rintro (_ | ⟨-, _ | ⟨same, -⟩⟩)
  cases same

/-- A list of two that is read from its end, and then a container with one element. -/
def endFirst : Cursor Nat × Store Nat :=
  let store : Store Nat := { containers := ⟨[{ items := [1, 2] }, { items := [3] }]⟩, fresh := 2 }
  let (list, store) := store.listCursorOver 0 2
  let (view, store) := list.reverse store
  let (other, store) := store.cursorOver 1
  Cursor.combine (.ofList view) other store

theorem assembled_endFirst :
    Assembled [endFirst.1, .direct 1 4, .ofList (.reversed 3 (.direct 0 2)),
      .ofList (.direct 0 2)] endFirst.2 :=
  .combine
    (.cursor (.reverse (.listCursor (.start _) 0 (Nat.le_refl 2)) List.mem_cons_self)
      (.forward 0 1) fun _ none => absurd none List.not_mem_nil)
    (List.mem_cons_of_mem _ List.mem_cons_self) List.mem_cons_self

/-- The view delivers the list from its end, and its last delivery is removed. The cursor is asked
twice before it goes on, and is then exhausted. The view alone goes back once before it is. -/
theorem hasNext_tells_truth_endFirst :
    let cursor := endFirst.1
    let view : ListCursor := .reversed 3 (.direct 0 2)
    let removed := (cursor.run endFirst.2 [.hasNext, .next, .next, .remove]).2
    let asked := (cursor.run removed [.hasNext, .hasNext]).2
    let last := (cursor.run endFirst.2 [.next, .next, .remove, .next]).2
    let turned := (serve view.respond endFirst.2 [.next, .previous, .next, .next]).2
    Seat.Apart cursor.seats ∧ removed.items 0 = [2] ∧ cursor.TellsTruth removed ∧
      List.Forall₂ Cursor.Response.Agrees (cursor.run asked [.remove, .next]).1
        (cursor.run removed [.remove, .next]).1 ∧
      (cursor.next last).1 = .error .pastEnd ∧
      (∀ result, .delivered result ∈ (cursor.run (cursor.next last).2 [.remove, .next]).1 →
        result = .error .pastEnd) ∧
      (Cursor.ofList view).TellsTruth turned ∧ (view.next turned).1 = .error .pastEnd ∧
      (∀ result, .delivered result ∈ (serve view.respond (view.next turned).2 [.remove, .next]).1 →
        result = .error .pastEnd) := by
  intro cursor view removed asked last turned
  obtain ⟨combined, listed⟩ := hasNext_tells_truth assembled_endFirst
  have apart : Seat.Apart cursor.seats := by decide
  obtain ⟨truth, later⟩ := combined cursor List.mem_cons_self
    [.hasNext, .next, .next, .remove] fun _ => apart
  obtain ⟨-, fails⟩ := (combined cursor List.mem_cons_self [.next, .next, .remove, .next]
    fun _ => apart).2 [.remove, .next] fun _ => apart
  obtain ⟨viewed, viewedLater⟩ := listed view
    (List.mem_cons_of_mem _ (List.mem_cons_of_mem _ List.mem_cons_self))
    [.next, .previous, .next, .next]
  refine ⟨apart, rfl, truth, (later [.remove, .next] fun _ => apart).1 2, rfl,
    fails .pastEnd rfl, viewed, rfl, ?_⟩
  refine (viewedLater [.remove, .next]).2 .pastEnd rfl ?_
  simp [ListCursor.Request.isAdd]

end Collections
