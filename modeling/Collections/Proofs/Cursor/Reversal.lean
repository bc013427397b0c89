import Collections.Proofs.Cursor.ListZipper

/-!
# Reversed views of list cursors

Seen from the other end of the list a zipper has its two sides exchanged, and a step in one
direction is a step in the other (`Zipper.turned`). A reversed view asks its source the turned
question and turns the answer back (`ListCursor.respond_reversed`), so it walks as the turned zipper
does (`Zipper.Describes.respond_view`).

One request is not passed on as it is. To leave a new element behind itself, a view adds it through
its source and then lets the source step back over it. That step delivers the element, so it is the
current one afterwards, whereas a list cursor has none after an addition
(`Zipper.respondTurned`). Two things follow.

As long as every addition is followed by a step before something is removed or overwritten, the
difference does not show, and a reversed view is a list cursor over the reversed list
(`reversed_view_walks_reversed_list`).

Otherwise it does. Between an addition and the next step an edit fails for want of a current element
exactly if the cursor is no view, or if the new element has been removed already
(`edit_after_add_fails_iff`). In particular a view that has just added an element overwrites it
(`view_overwrites_added`).
-/

set_option autoImplicit false

namespace Collections

variable {α : Type}

/-! ## Questions from the other end -/

namespace ListCursor

namespace Request

/-- The request that has the same meaning from the other end of the list. -/
def turned : Request α → Request α
  | hasNext => hasPrevious
  | next => previous
  | hasPrevious => hasNext
  | previous => next
  | nextIndex => previousIndex
  | previousIndex => nextIndex
  | request => request

/-- Whether an element is added. -/
def isAdd : Request α → Bool
  | add _ => true
  | _ => false

/-- Whether the current element is removed or overwritten. -/
def isEdit : Request α → Bool
  | remove | set _ => true
  | _ => false

/-- Whether an index is asked for. -/
def asksIndex : Request α → Bool
  | nextIndex | previousIndex => true
  | _ => false

end Request

namespace Response

/-- The response as it reads from the other end of the list. -/
def turned : Response α → Response α
  | delivered (.error cause) => delivered (.error cause.turned)
  | response => response

@[simp]
theorem turned_turned (response : Response α) : response.turned.turned = response := by
  rcases response with _ | (_ | _) | _ | _ <;> simp [turned]

/-- Whether a step delivered an element. -/
def isDelivery : Response α → Bool
  | delivered (.ok _) => true
  | _ => false

end Response

/-- A view asks its source the turned question and turns the answer back, unless it adds an
element. -/
theorem respond_reversed (view : Handle) (source : ListCursor) (store : Store α)
    {request : Request α} (noAdd : request.isAdd = false) :
    (reversed view source).respond store request =
      ((source.respond store request.turned).1.turned, (source.respond store request.turned).2) := by
  cases request with
  | add item => cases noAdd
  | next =>
      simp only [respond, Request.turned, next, previous, step, Direction.opposite]
      rcases source.step .backward store with ⟨_ | _, after⟩ <;> rfl
  | previous =>
      simp only [respond, Request.turned, next, previous, step, Direction.opposite]
      rcases source.step .forward store with ⟨_ | _, after⟩ <;> rfl
  | _ => rfl

end ListCursor

/-! ## Zippers from the other end -/

namespace Zipper

open ListCursor (Request Response)

/-- The zipper as it looks from the other end of the list. -/
def turned (zipper : Zipper α) : Zipper α :=
  ⟨zipper.ahead, zipper.behind, zipper.current.map Direction.opposite⟩

@[simp]
theorem turned_turned (zipper : Zipper α) : zipper.turned.turned = zipper := by
  obtain ⟨behind, ahead, current⟩ := zipper
  cases current <;> simp [turned]

@[simp]
theorem items_turned (zipper : Zipper α) : zipper.turned.items = zipper.items.reverse := by
  simp [turned, items]

/-- From the other end a gap is as many elements before the end as it was behind the start. -/
theorem turned_ofList {list : List α} {start : Nat} (inside : start ≤ list.length) :
    (ofList list start).turned = ofList list.reverse (list.length - start) := by
  have front : list.drop start = (list.reverse.take (list.length - start)).reverse := by
    rw [List.take_reverse, List.reverse_reverse, Nat.sub_sub_self inside]
  have back : (list.take start).reverse = list.reverse.drop (list.length - start) := by
    rw [List.drop_reverse, Nat.sub_sub_self inside]
  rw [turned, ofList, ofList, front, back]
  rfl

/-- Answer a request as a reversed view does. It has no current element after an addition but the
new one, and it counts indices from the far end. -/
def respondTurned (zipper : Zipper α) : Request α → Response α × Zipper α
  | .add item => (.edited (.ok ()), ⟨item :: zipper.behind, zipper.ahead, some .forward⟩)
  | .nextIndex => (.index (zipper.ahead.length - 1), zipper)
  | .previousIndex => (.index zipper.ahead.length, zipper)
  | request => zipper.respond request

/-- To turn a zipper and ask the turned question is to answer as a view and turn everything
back. -/
theorem respond_turned (zipper : Zipper α) {request : Request α} (noAdd : request.isAdd = false) :
    zipper.turned.respond request.turned =
      ((zipper.respondTurned request).1.turned, (zipper.respondTurned request).2.turned) := by
  obtain ⟨behind, ahead, current⟩ := zipper
  cases request with
  | add item => cases noAdd
  | next => cases ahead <;> rfl
  | previous => cases behind <;> rfl
  | remove => rcases current with _ | (_ | _) <;> rfl
  | set item => rcases current with _ | (_ | _) <;> rfl
  | _ => rfl

section Views

variable {zipper : Zipper α} {store : Store α} {source slot : Handle}

/-- **A reversed view walks as the turned zipper.** If the turned zipper describes the place of the
source, the zipper answers as the view does, and afterwards the turned one describes the place
again. -/
theorem Describes.respond_view (describes : zipper.turned.Describes (store.container source) slot)
    (view : Handle) (request : Request α) :
    let answer := (ListCursor.reversed view (.direct source slot)).respond store request
    answer.1 = (zipper.respondTurned request).1 ∧
      (zipper.respondTurned request).2.turned.Describes (answer.2.container source) slot := by
  cases adds : request.isAdd with
  | false =>
      obtain ⟨reply, described⟩ := describes.respond request.turned
      rw [respond_turned zipper adds] at reply described
      rw [ListCursor.respond_reversed view _ store adds]
      exact ⟨by rw [reply, Response.turned_turned], described⟩
  | true =>
      cases request with
      | add item =>
          -- The source adds the element, and then steps back over it.
          have added := describes.add item
          obtain ⟨after, stepped, described⟩ := added.step_backward
          simp only [ListCursor.respond, ListCursor.add, ListCursor.step, Store.container_put_self,
            stepped]
          refine ⟨rfl, ?_⟩
          show Zipper.Describes _ ((Store.put _ source after).container source) slot
          rw [Store.container_put_self]
          exact described
      | _ => cases adds

end Views

end Zipper

/-- The reversed view of a list cursor in front of a position of a container. -/
def Store.reversedCursorOver (store : Store α) (source : Handle) (start : Nat) :
    ListCursor × Store α :=
  let (cursor, store) := store.listCursorOver source start
  cursor.reverse store

/-- A list cursor stands in the gap that it was opened at. -/
theorem Zipper.describes_listCursorOver (store : Store α) (source : Handle) {start : Nat}
    (inside : start ≤ (store.items source).length) :
    (Zipper.ofList (store.items source) start).Describes
      ((store.listCursorOver source start).2.container source) store.fresh := by
  show Zipper.Describes _ ((Store.put _ source _).container source) _
  rw [Store.container_put_self]
  exact Zipper.describes_openPlace _ _ _ inside

/-! ## Steps between additions and edits -/

namespace ListCursor

/-- Whether an element was added since the last step that delivered one. -/
def addedAfter (added : Bool) : Request α → Response α → Bool
  | .add _, _ => true
  | _, .delivered (.ok _) => false
  | _, _ => added

/-- In a run with its answers, between every addition and the next edit a step delivers an
element. -/
def StepsBeforeEdits : Bool → List (Request α × Response α) → Prop
  | _, [] => True
  | added, (request, response) :: rest =>
      (request.isEdit = true → added = false) ∧
        StepsBeforeEdits (addedAfter added request response) rest

instance decidableStepsBeforeEdits : (added : Bool) → (run : List (Request α × Response α)) →
    Decidable (StepsBeforeEdits added run)
  | _, [] => isTrue trivial
  | added, (request, response) :: rest =>
      have := decidableStepsBeforeEdits (addedAfter added request response) rest
      inferInstanceAs (Decidable (_ ∧ _))

end ListCursor

namespace Zipper

/-- Two zippers that differ at most in the current element, and only if one was just added. -/
structure Twins (added : Bool) (view walked : Zipper α) : Prop where
  behind : view.behind = walked.behind
  ahead : view.ahead = walked.ahead
  current : added = false → view.current = walked.current

namespace Twins

variable {added : Bool} {view walked : Zipper α}

theorem items (twins : Twins added view walked) : view.items = walked.items := by
  rw [Zipper.items, Zipper.items, twins.behind, twins.ahead]

theorem refl (added : Bool) (zipper : Zipper α) : Twins added zipper zipper :=
  ⟨rfl, rfl, fun _ => rfl⟩

/-- Twins answer alike and stay twins, unless an element is edited that was just added. -/
theorem respond (twins : Twins added view walked) {request : ListCursor.Request α}
    (noIndex : request.asksIndex = false) (stepped : request.isEdit = true → added = false) :
    (view.respondTurned request).1 = (walked.respond request).1 ∧
      Twins (ListCursor.addedAfter added request (walked.respond request).1)
        (view.respondTurned request).2 (walked.respond request).2 := by
  obtain ⟨behind, ahead, current⟩ := view
  obtain ⟨behind', ahead', current'⟩ := walked
  obtain ⟨rfl, rfl, same⟩ := twins
  cases request with
  | hasNext => exact ⟨rfl, rfl, rfl, same⟩
  | hasPrevious => exact ⟨rfl, rfl, rfl, same⟩
  | next =>
      cases ahead with
      | nil => exact ⟨rfl, rfl, rfl, same⟩
      | cons item rest => exact ⟨rfl, refl _ _⟩
  | previous =>
      cases behind with
      | nil => exact ⟨rfl, rfl, rfl, same⟩
      | cons item rest => exact ⟨rfl, refl _ _⟩
  | nextIndex => cases noIndex
  | previousIndex => cases noIndex
  | remove =>
      obtain rfl : current = current' := same (stepped rfl)
      exact ⟨rfl, refl _ _⟩
  | set item =>
      obtain rfl : current = current' := same (stepped rfl)
      exact ⟨rfl, refl _ _⟩
  | add item => exact ⟨rfl, rfl, rfl, fun none => nomatch none⟩

end Twins

end Zipper

/-! ## The view of a list and a cursor over the reversed list -/

section Runs

variable {added : Bool} {viewed walked : Zipper α} {store other : Store α}
  {source slot twin place : Handle}

/-- A view and a list cursor that stand at the same gap of reversed lists stay in step, as long as
no element is edited that was just added. -/
theorem view_stays_in_step (view : Handle) (twins : Zipper.Twins added viewed walked)
    (viewing : viewed.turned.Describes (store.container source) slot)
    (walking : walked.Describes (other.container twin) place)
    {requests : List (ListCursor.Request α)}
    (noIndex : ∀ request ∈ requests, request.asksIndex = false)
    (stepped : ListCursor.StepsBeforeEdits added
      (requests.zip (serve (ListCursor.direct twin place).respond other requests).1)) :
    let turned := serve (ListCursor.reversed view (.direct source slot)).respond store requests
    let forward := serve (ListCursor.direct twin place).respond other requests
    turned.1 = forward.1 ∧
      ∃ added viewed walked, Zipper.Twins added viewed walked ∧
        viewed.turned.Describes (turned.2.container source) slot ∧
        walked.Describes (forward.2.container twin) place := by
  induction requests generalizing added viewed walked store other with
  | nil => exact ⟨rfl, added, viewed, walked, twins, viewing, walking⟩
  | cons request rest hypothesis =>
      have answered := walking.respond request
      have viewAnswered := viewing.respond_view view request
      simp only [serve, List.zip_cons_cons, ListCursor.StepsBeforeEdits, answered.reply] at stepped
      obtain ⟨unedited, stepped⟩ := stepped
      have alike := twins.respond (noIndex request List.mem_cons_self) unedited
      obtain ⟨answers, final⟩ := hypothesis alike.2 viewAnswered.2 answered.describes
        (fun request later => noIndex request (List.mem_cons_of_mem _ later)) stepped
      refine ⟨?_, final⟩
      simp only [serve, answers, viewAnswered.1, answered.reply, alike.1]

end Runs

/-- **A reversed view is a list cursor over the reversed list.** Made over a list cursor in front of
any position, and asked anything but an index, it gives in every run the answers and the failures of
a list cursor that walks the reversed list from the mirrored position, if between every addition and
the next edit some step delivers an element. The lists stay the reverse of each other, and so
do the indices of the two gaps. -/
theorem reversed_view_walks_reversed_list (store other : Store α) (source twin : Handle)
    (start : Nat) (inside : start ≤ (store.items source).length)
    (mirrored : other.items twin = (store.items source).reverse)
    (requests : List (ListCursor.Request α))
    (noIndex : ∀ request ∈ requests, request.asksIndex = false)
    (stepped :
      let forward := other.listCursorOver twin ((store.items source).length - start)
      ListCursor.StepsBeforeEdits false
        (requests.zip (serve forward.1.respond forward.2 requests).1)) :
    let view := store.reversedCursorOver source start
    let forward := other.listCursorOver twin ((store.items source).length - start)
    let viewed := serve view.1.respond view.2 requests
    let walked := serve forward.1.respond forward.2 requests
    viewed.1 = walked.1 ∧
      viewed.2.items source = (walked.2.items twin).reverse ∧
      view.1.nextIndex viewed.2 =
        (walked.2.items twin).length - 1 - forward.1.nextIndex walked.2 := by
  intro view forward viewed walked
  let gap := Zipper.ofList (other.items twin) ((store.items source).length - start)
  have viewing : gap.turned.Describes (view.2.container source) store.fresh := by
    have turned : gap.turned = Zipper.ofList (store.items source) start := by
      rw [← Zipper.turned_turned (Zipper.ofList _ start), Zipper.turned_ofList inside, ← mirrored]
    rw [turned]
    exact Zipper.describes_listCursorOver store source inside
  have walking : gap.Describes (forward.2.container twin) other.fresh := by
    refine Zipper.describes_listCursorOver other twin ?_
    rw [mirrored, List.length_reverse]
    exact Nat.sub_le _ _
  obtain ⟨answers, added, left, right, twins, viewing, walking⟩ :=
    view_stays_in_step (store.fresh + 1) (.refl false gap) viewing walking noIndex stepped
  have viewEnd : left.turned.Describes (viewed.2.container source) store.fresh := viewing
  have walkEnd : right.Describes (walked.2.container twin) other.fresh := walking
  refine ⟨answers, ?_, ?_⟩
  · show (viewed.2.container source).items = (walked.2.container twin).items.reverse
    rw [viewEnd.items, walkEnd.items, Zipper.items_turned, twins.items]
  · have viewGap : ((viewed.2.container source).places.get store.fresh).next =
        right.ahead.length := by
      rw [viewEnd.next, ← twins.ahead]
      rfl
    have size : (walked.2.items twin).length = _ := walkEnd.length_eq
    show (((viewed.2.container source).places.get store.fresh).next : Int) - 1 =
      (walked.2.items twin).length - 1 - ((walked.2.container twin).places.get other.fresh).next
    rw [viewGap, walkEnd.next, size]
    omega

/-- Steps in both directions past either end, with additions and edits between them. -/
def pastBothEnds : List (ListCursor.Request Nat) :=
  [.remove, .next, .next, .set 4, .add 7, .hasNext, .next, .previous, .remove, .previous, .previous,
    .previous, .previous, .hasPrevious, .add 9, .next, .set 5]

/-- A run past both ends, on a view of a list of three and on the reversed list. -/
theorem reversed_view_walks_reversed_list_on_pastBothEnds :
    let store : Store Nat := { containers := ⟨[{ items := [1, 2, 3] }]⟩, fresh := 1 }
    let other : Store Nat := { containers := ⟨[{ items := [3, 2, 1] }]⟩, fresh := 1 }
    let view := store.reversedCursorOver 0 1
    let forward := other.listCursorOver 0 ((store.items 0).length - 1)
    let viewed := serve view.1.respond view.2 pastBothEnds
    let walked := serve forward.1.respond forward.2 pastBothEnds
    1 ≤ (store.items 0).length ∧ other.items 0 = (store.items 0).reverse ∧
      (∀ request ∈ pastBothEnds, request.asksIndex = false) ∧
      ListCursor.StepsBeforeEdits false (pastBothEnds.zip walked.1) ∧
      viewed.1 = [.edited (.error .noCurrent), .delivered (.ok 1), .delivered (.error .pastEnd),
        .edited (.ok ()), .edited (.ok ()), .flag false, .delivered (.error .pastEnd),
        .delivered (.ok 7), .edited (.ok ()), .delivered (.ok 4), .delivered (.ok 2),
        .delivered (.ok 3), .delivered (.error .pastStart), .flag false, .edited (.ok ()),
        .delivered (.ok 3), .edited (.ok ())] ∧
      viewed.2.items 0 = [4, 2, 5, 9] ∧ view.1.nextIndex viewed.2 = 1 := by
  intro store other view forward viewed walked
  obtain ⟨answers, items, gaps⟩ :=
    reversed_view_walks_reversed_list store other 0 0 1 (by decide) rfl pastBothEnds (by decide)
      (by decide)
  refine ⟨by decide, rfl, by decide, by decide, ?_, ?_, ?_⟩
  · rw [answers]
    decide
  · rw [items]
    decide
  · rw [gaps]
    decide

/-! ## Edits after an addition -/

namespace ListCursor

/-- What an edit leaves where the current element was. -/
def Request.written : Request α → List α
  | set item => [item]
  | _ => []

/-- An edit that fails changes nothing. -/
theorem respond_of_failed_edit (cursor : ListCursor) {store : Store α} {edit : Request α}
    (edits : edit.isEdit = true) {cause : CursorError}
    (failed : (cursor.respond store edit).1 = .edited (.error cause)) :
    (cursor.respond store edit).2 = store := by
  induction cursor with
  | direct source slot =>
      cases edit with
      | remove =>
          simp only [respond, remove] at failed ⊢
          cases removed : (store.container source).removeIndexed? slot with
          | none => rfl
          | some after => simp [removed] at failed
      | set item =>
          simp only [respond, set] at failed ⊢
          cases changed : (store.container source).setCurrent? slot item with
          | none => rfl
          | some after => simp [changed] at failed
      | _ => cases edits
  | reversed view source hypothesis =>
      cases edit with
      | remove => exact hypothesis failed
      | set item => exact hypothesis failed
      | _ => cases edits

end ListCursor

namespace Zipper

open ListCursor (Request Response)

/-- Answer a request as a list cursor or as a reversed view of one. -/
def respondFrom (isView : Bool) : Zipper α → Request α → Response α × Zipper α :=
  if isView then respondTurned else respond

/-- The zipper as it looks from the start of the list, whichever end it was cut from. -/
def straight (isView : Bool) (zipper : Zipper α) : Zipper α :=
  if isView then zipper.turned else zipper

section Idling

variable {behind ahead : List α} {item : α} {request : Request α} {idle : List (Request α)}

/-- Without a current element, nothing but an addition or a delivery changes anything. -/
theorem respondFrom_of_idle (isView : Bool) (quiet : request.isAdd = false)
    (still : (respondFrom isView ⟨behind, ahead, none⟩ request).1.isDelivery = false) :
    (respondFrom isView ⟨behind, ahead, none⟩ request).2 = ⟨behind, ahead, none⟩ := by
  cases request with
  | add item => cases quiet
  | next => cases isView <;> cases ahead <;> first | rfl | cases still
  | previous => cases isView <;> cases behind <;> first | rfl | cases still
  | _ => cases isView <;> rfl

theorem serve_respondFrom_of_idle (isView : Bool) (quiet : ∀ request ∈ idle, request.isAdd = false)
    (still : ∀ response ∈ (serve (respondFrom isView) ⟨behind, ahead, none⟩ idle).1,
      response.isDelivery = false) :
    (serve (respondFrom isView) ⟨behind, ahead, none⟩ idle).2 = ⟨behind, ahead, none⟩ := by
  induction idle with
  | nil => rfl
  | cons request rest hypothesis =>
      have same := respondFrom_of_idle isView (quiet request List.mem_cons_self)
        (still _ List.mem_cons_self)
      simp only [serve, same] at still ⊢
      exact hypothesis (fun request later => quiet request (List.mem_cons_of_mem _ later))
        (fun response later => still response (List.mem_cons_of_mem _ later))

/-- An element that a view has added stays its current one until it is removed or the view
steps. -/
theorem serve_respondTurned_of_idle (quiet : ∀ request ∈ idle, request.isAdd = false)
    (still : ∀ response ∈ (serve respondTurned ⟨item :: behind, ahead, some .forward⟩ idle).1,
      response.isDelivery = false) :
    let after := (serve respondTurned ⟨item :: behind, ahead, some .forward⟩ idle).2
    (.remove ∈ idle → after = ⟨behind, ahead, none⟩) ∧
      (.remove ∉ idle → ∃ other, after = ⟨other :: behind, ahead, some .forward⟩) := by
  induction idle generalizing item with
  | nil => exact ⟨nofun, fun _ => ⟨item, rfl⟩⟩
  | cons request rest hypothesis =>
      have quietLater : ∀ request ∈ rest, request.isAdd = false :=
        fun request later => quiet request (List.mem_cons_of_mem _ later)
      have later : ∀ {other : α}, request ≠ .remove →
          (respondTurned ⟨item :: behind, ahead, some .forward⟩ request).2 =
            ⟨other :: behind, ahead, some .forward⟩ →
          let after := (serve respondTurned ⟨item :: behind, ahead, some .forward⟩
            (request :: rest)).2
          (.remove ∈ request :: rest → after = ⟨behind, ahead, none⟩) ∧
            (.remove ∉ request :: rest →
              ∃ other, after = ⟨other :: behind, ahead, some .forward⟩) := by
        intro other differs next
        simp only [serve, next, List.mem_cons, differs.symm, false_or] at still ⊢
        exact hypothesis quietLater (fun response later => still response (.inr later))
      cases request with
      | add item => cases quiet _ List.mem_cons_self
      | next =>
          cases ahead with
          | nil => exact later nofun rfl
          | cons item rest => cases still _ List.mem_cons_self
      | previous => cases still _ List.mem_cons_self
      | remove =>
          have removed := serve_respondFrom_of_idle true quietLater
            fun response later => still response (List.mem_cons_of_mem _ later)
          exact ⟨fun _ => removed, fun absent => absurd List.mem_cons_self absent⟩
      | set other => exact later nofun rfl
      | _ => exact later nofun rfl

/-- Between an addition and the next delivery an edit finds no current element, unless it is made
by a view and finds the new one. -/
theorem edit_after_add (isView : Bool) (zipper : Zipper α)
    (quiet : ∀ request ∈ idle, request.isAdd = false)
    (still : ∀ response ∈
      (serve (respondFrom isView) (zipper.respondFrom isView (.add item)).2 idle).1,
      response.isDelivery = false) (edits : request.isEdit = true) :
    let idled := serve (respondFrom isView) (zipper.respondFrom isView (.add item)).2 idle
    let edited := idled.2.respondFrom isView request
    (edited.1 = .edited (.error .noCurrent) ↔ isView = false ∨ .remove ∈ idle) ∧
      (isView = true → .remove ∉ idle → edited.1 = .edited (.ok ()) ∧
        edited.2.behind = request.written ++ zipper.behind ∧ edited.2.ahead = zipper.ahead) := by
  obtain ⟨behind, ahead, current⟩ := zipper
  intro idled edited
  cases isView with
  | false =>
      have same : idled.2 = ⟨item :: behind, ahead, none⟩ :=
        serve_respondFrom_of_idle false quiet still
      have fails : edited.1 = .edited (.error .noCurrent) := by
        simp only [edited, same]
        cases request <;> first | rfl | cases edits
      exact ⟨⟨fun _ => .inl rfl, fun _ => fails⟩, nofun⟩
  | true =>
      obtain ⟨gone, stays⟩ := serve_respondTurned_of_idle quiet still
      by_cases removed : .remove ∈ idle
      · have same : idled.2 = ⟨behind, ahead, none⟩ := gone removed
        have fails : edited.1 = .edited (.error .noCurrent) := by
          simp only [edited, same]
          cases request <;> first | rfl | cases edits
        exact ⟨⟨fun _ => .inr removed, fun _ => fails⟩, fun _ absent => absurd removed absent⟩
      · obtain ⟨other, same⟩ := stays removed
        have done : edited.1 = .edited (.ok ()) ∧
            edited.2.behind = request.written ++ behind ∧ edited.2.ahead = ahead := by
          have same : idled.2 = ⟨other :: behind, ahead, some .forward⟩ := same
          simp only [edited, same]
          cases request <;> first | exact ⟨rfl, rfl, rfl⟩ | cases edits
        refine ⟨⟨fun fails => ?_, fun either => ?_⟩, fun _ _ => done⟩
        · rw [done.1] at fails
          cases fails
        · exact absurd either (by simp [removed])

end Idling

@[simp]
theorem straight_straight (isView : Bool) (zipper : Zipper α) :
    (zipper.straight isView).straight isView = zipper := by
  cases isView <;> simp [straight]

end Zipper

/-! ## The cursor and its view -/

namespace ListCursor

/-- One of the two list cursors at a place: the one that was opened there, or its view. -/
def shape (source slot view : Handle) (isView : Bool) : ListCursor :=
  if isView then reversed view (direct source slot) else direct source slot

end ListCursor

section Shapes

variable {zipper : Zipper α} {store : Store α} {source slot : Handle}

/-- Both list cursors at a place walk as the zipper that describes it, each from its end. -/
theorem Zipper.Describes.respond_shape {isView : Bool}
    (describes : (zipper.straight isView).Describes (store.container source) slot) (view : Handle)
    (request : ListCursor.Request α) :
    let answer := (ListCursor.shape source slot view isView).respond store request
    answer.1 = (zipper.respondFrom isView request).1 ∧
      ((zipper.respondFrom isView request).2.straight isView).Describes
        (answer.2.container source) slot := by
  cases isView with
  | false =>
      have answered := describes.respond request
      exact ⟨answered.reply, answered.describes⟩
  | true => exact describes.respond_view view request

theorem Zipper.Describes.serve_shape {isView : Bool}
    (describes : (zipper.straight isView).Describes (store.container source) slot) (view : Handle)
    (requests : List (ListCursor.Request α)) :
    let run := serve (ListCursor.shape source slot view isView).respond store requests
    run.1 = (serve (Zipper.respondFrom isView) zipper requests).1 ∧
      ((serve (Zipper.respondFrom isView) zipper requests).2.straight isView).Describes
        (run.2.container source) slot := by
  let related (store : Store α) (zipper : Zipper α) : Prop :=
    (zipper.straight isView).Describes (store.container source) slot
  have start : related store zipper := describes
  have keeps : ∀ {store : Store α} {zipper : Zipper α} (request : ListCursor.Request α),
      related store zipper →
        ((ListCursor.shape source slot view isView).respond store request).1 =
            (zipper.respondFrom isView request).1 ∧
          related ((ListCursor.shape source slot view isView).respond store request).2
            (zipper.respondFrom isView request).2 :=
    fun request describes => Describes.respond_shape describes view request
  exact serve_eq keeps start requests

/-- Whatever is asked of the two list cursors at a place, some zipper describes it. -/
theorem Zipper.exists_describes_serve_shape
    (placed : ∃ zipper : Zipper α, zipper.Describes (store.container source) slot) (view : Handle)
    (requests : List (Bool × ListCursor.Request α)) :
    let reached := (serve (fun store asked =>
      (ListCursor.shape source slot view asked.1).respond store asked.2) store requests).2
    ∃ zipper : Zipper α, zipper.Describes (reached.container source) slot := by
  induction requests generalizing store with
  | nil => exact placed
  | cons asked rest hypothesis =>
      obtain ⟨zipper, describes⟩ := placed
      rw [← zipper.straight_straight asked.1] at describes
      exact hypothesis ⟨_, (describes.respond_shape view asked.2).2⟩

end Shapes

/-- **After an addition a list cursor has no current element, but a view has the new one.** Let a
place be reached by any requests to the cursor opened there and to its view, and let one of the two
add an element. Until its next delivery, an edit through it fails and changes nothing
if it is the cursor itself, or if the new element has been removed. Otherwise it is the view,
and the edit succeeds: it removes or overwrites the new element. -/
theorem edit_after_add_fails_iff (store : Store α) (source : Handle) (start : Nat)
    (inside : start ≤ (store.items source).length)
    (before : List (Bool × ListCursor.Request α)) (isView : Bool) (item : α) :
    let plain := store.listCursorOver source start
    let view := plain.1.reverse plain.2
    let cursor (isView : Bool) := if isView then view.1 else plain.1
    let reached := (serve (fun store asked => (cursor asked.1).respond store asked.2) view.2 before).2
    let added := (cursor isView).respond reached (.add item)
    added.1 = .edited (.ok ()) ∧
      ∀ idle : List (ListCursor.Request α),
        let idled := serve (cursor isView).respond added.2 idle
        (∀ request ∈ idle, request.isAdd = false) →
        (∀ response ∈ idled.1, response.isDelivery = false) →
        ∀ edit : ListCursor.Request α, edit.isEdit = true →
          let edited := (cursor isView).respond idled.2 edit
          (edited.1 = .edited (.error .noCurrent) ↔ isView = false ∨ .remove ∈ idle) ∧
            (edited.1 = .edited (.error .noCurrent) → edited.2 = idled.2) ∧
            (isView = true → .remove ∉ idle → edited.1 = .edited (.ok ()) ∧
              ∃ front back, reached.items source = front ++ back ∧
                added.2.items source = front ++ item :: back ∧
                edited.2.items source = front ++ edit.written ++ back) := by
  intro plain view cursor reached added
  have shaped : ∀ isView, cursor isView =
      ListCursor.shape source store.fresh (store.fresh + 1) isView := by
    intro isView
    cases isView <;> rfl
  have opening : (Zipper.ofList (store.items source) start).Describes (view.2.container source)
      store.fresh := Zipper.describes_listCursorOver store source inside
  obtain ⟨straight, describes⟩ : ∃ straight : Zipper α,
      straight.Describes (reached.container source) store.fresh :=
    Zipper.exists_describes_serve_shape ⟨_, opening⟩ (store.fresh + 1) before
  let zipper := straight.straight isView
  replace describes : (zipper.straight isView).Describes (reached.container source) store.fresh := by
    rwa [Zipper.straight_straight]
  obtain ⟨reply, adding⟩ := describes.respond_shape (store.fresh + 1) (.add item)
  rw [← shaped isView] at reply adding
  refine ⟨reply.trans (by cases isView <;> rfl), ?_⟩
  intro idle idled quiet still edit edits edited
  obtain ⟨replies, idling⟩ := adding.serve_shape (store.fresh + 1) idle
  rw [← shaped isView] at replies idling
  obtain ⟨answer, editing⟩ := idling.respond_shape (store.fresh + 1) edit
  rw [← shaped isView] at answer editing
  obtain ⟨fails, succeeds⟩ := zipper.edit_after_add isView quiet (replies ▸ still) edits
  refine ⟨?_, ?_, ?_⟩
  · rw [← fails]
    exact iff_of_eq (congrArg (· = _) answer)
  · exact fun failed => (cursor isView).respond_of_failed_edit edits failed
  · rintro rfl absent
    obtain ⟨done, behind, ahead⟩ := succeeds rfl absent
    refine ⟨answer.trans done, zipper.ahead.reverse, zipper.behind, ?_, ?_, ?_⟩
    · exact describes.items
    · exact adding.items
    · refine editing.items.trans ?_
      show (Zipper.turned _).items = _
      rw [Zipper.items_turned, Zipper.items, behind, ahead]
      simp

/-- A view of a list of three, reached through both cursors, adds an element. It does not deliver
one before it edits. -/
theorem edit_after_add_fails_iff_for_view :
    let store : Store Nat := { containers := ⟨[{ items := [1, 2, 3] }]⟩, fresh := 1 }
    let plain := store.listCursorOver 0 2
    let view := plain.1.reverse plain.2
    let cursor (isView : Bool) := if isView then view.1 else plain.1
    let reached := (serve (fun store asked => (cursor asked.1).respond store asked.2) view.2
      [(false, .next), (true, .next), (false, .remove)]).2
    let added := (cursor true).respond reached (.add 7)
    let idled := serve (cursor true).respond added.2 [.hasNext, .set 8]
    let edited := (cursor true).respond idled.2 .remove
    2 ≤ (store.items 0).length ∧
      (∀ request ∈ [ListCursor.Request.hasNext, .set 8], request.isAdd = false) ∧
      (∀ response ∈ idled.1, response.isDelivery = false) ∧
      ListCursor.Request.isEdit (.remove : ListCursor.Request Nat) = true ∧
      ¬ edited.1 = .edited (.error .noCurrent) ∧
      ∃ front back, reached.items 0 = front ++ back ∧ added.2.items 0 = front ++ 7 :: back ∧
        edited.2.items 0 = front ++ back := by
  intro store plain view cursor reached added idled edited
  obtain ⟨-, later⟩ := edit_after_add_fails_iff store 0 2 (by decide)
    [(false, .next), (true, .next), (false, .remove)] true 7
  obtain ⟨fails, -, succeeds⟩ := later [.hasNext, .set 8] (by decide) (by decide) .remove rfl
  obtain ⟨-, front, back, before, after, done⟩ := succeeds rfl (by decide)
  refine ⟨by decide, by decide, by decide, rfl, fun failed => ?_, front, back, before, after, ?_⟩
  · rcases fails.mp failed with isView | removed
    · cases isView
    · exact absurd removed (by decide)
  · have done : edited.2.items 0 = front ++ [] ++ back := done
    rwa [List.append_nil] at done

/-- A view of a list of two adds an element in front and overwrites it at once, where a list cursor
would have found no current element. -/
theorem view_overwrites_added :
    let store : Store Nat := { containers := ⟨[{ items := [1, 2] }]⟩, fresh := 1 }
    let view := store.reversedCursorOver 0 0
    let run := serve view.1.respond view.2 [.add 9, .set 7]
    run.1 = [.edited (.ok ()), .edited (.ok ())] ∧ run.2.items 0 = [7, 1, 2] := by
  decide

end Collections
