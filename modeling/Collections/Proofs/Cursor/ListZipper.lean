import Collections.Cursor.Sequence
import Collections.Proofs.Runs

/-!
# List cursors are zippers

A zipper is a list cut in two at a gap. A step moves one element across the gap, and the element
that it delivered is the current one: it stands just behind the gap after a step forward and just
ahead of it after a step backward. Removing and overwriting act on the current element, and a new
element goes behind the gap.

A list cursor keeps two numbers instead, the index of the gap and the index of the element delivered
last, into a list that shrinks and grows under them. A zipper describes such a place
(`Zipper.Describes`) if the list is what lies on both sides of its gap, the gap is at the index, and
the current element is at the other index. Every request keeps that (`Zipper.Describes.respond`), so
a list cursor answers every run as the zipper does (`listCursor_walks_as_zipper`). In particular no
index ever leaves the list (`Zipper.Describes.next_le`, `Zipper.Describes.last_lt`).
-/

set_option autoImplicit false

namespace Collections

variable {α : Type}

/-! ## Requests -/

namespace ListCursor

/-- What can be asked of a list cursor. -/
inductive Request (α : Type) where
  | hasNext
  | next
  | hasPrevious
  | previous
  | nextIndex
  | previousIndex
  | remove
  | set (item : α)
  | add (item : α)
  deriving DecidableEq, Repr

/-- What a list cursor answers. -/
inductive Response (α : Type) where
  | flag (value : Bool)
  | delivered (result : Except CursorError α)
  | index (value : Int)
  | edited (result : Except CursorError Unit)
  deriving DecidableEq

/-- Answer a request. -/
def respond (cursor : ListCursor) (store : Store α) : Request α → Response α × Store α
  | .hasNext => (.flag (cursor.hasNext store), store)
  | .next => (cursor.next store).map .delivered id
  | .hasPrevious => (.flag (cursor.hasPrevious store), store)
  | .previous => (cursor.previous store).map .delivered id
  | .nextIndex => (.index (cursor.nextIndex store), store)
  | .previousIndex => (.index (cursor.previousIndex store), store)
  | .remove => (cursor.remove store).map .edited id
  | .set item => (cursor.set item store).map .edited id
  | .add item => (cursor.add item store).map .edited id

end ListCursor

/-! ## Zippers -/

/-- A list cut in two at a gap. -/
structure Zipper (α : Type) where
  /-- The elements behind the gap, nearest first. -/
  behind : List α
  ahead : List α
  /-- The direction of the last step, while the element that it delivered is the current one. -/
  current : Option Direction := none

namespace Zipper

/-- A list with the gap in front of a position. -/
def ofList (items : List α) (start : Nat) : Zipper α :=
  { behind := (items.take start).reverse, ahead := items.drop start }

/-- The whole list. -/
def items (zipper : Zipper α) : List α := zipper.behind.reverse ++ zipper.ahead

/-- Answer a request. -/
def respond (zipper : Zipper α) : ListCursor.Request α → ListCursor.Response α × Zipper α
  | .hasNext => (.flag !zipper.ahead.isEmpty, zipper)
  | .next =>
      match zipper.ahead with
      | [] => (.delivered (.error .pastEnd), zipper)
      | item :: rest => (.delivered (.ok item), ⟨item :: zipper.behind, rest, some .forward⟩)
  | .hasPrevious => (.flag !zipper.behind.isEmpty, zipper)
  | .previous =>
      match zipper.behind with
      | [] => (.delivered (.error .pastStart), zipper)
      | item :: rest => (.delivered (.ok item), ⟨rest, item :: zipper.ahead, some .backward⟩)
  | .nextIndex => (.index zipper.behind.length, zipper)
  | .previousIndex => (.index (zipper.behind.length - 1), zipper)
  | .remove =>
      match zipper.current with
      | none => (.edited (.error .noCurrent), zipper)
      | some .forward => (.edited (.ok ()), ⟨zipper.behind.tail, zipper.ahead, none⟩)
      | some .backward => (.edited (.ok ()), ⟨zipper.behind, zipper.ahead.tail, none⟩)
  | .set item =>
      match zipper.current with
      | none => (.edited (.error .noCurrent), zipper)
      | some .forward =>
          (.edited (.ok ()), { zipper with behind := zipper.behind.modifyHead fun _ => item })
      | some .backward =>
          (.edited (.ok ()), { zipper with ahead := zipper.ahead.modifyHead fun _ => item })
  | .add item => (.edited (.ok ()), ⟨item :: zipper.behind, zipper.ahead, none⟩)

/-- The index of the current element. -/
def currentIndex? (zipper : Zipper α) : Option Nat :=
  zipper.current.map fun
    | .forward => zipper.behind.length - 1
    | .backward => zipper.behind.length

/-- There is an element where the current one is to be. -/
def Sound (zipper : Zipper α) : Prop :=
  match zipper.current with
  | none => True
  | some .forward => zipper.behind ≠ []
  | some .backward => zipper.ahead ≠ []

/-- A zipper describes a place in a container. -/
structure Describes (zipper : Zipper α) (container : Container α) (slot : Nat) : Prop where
  items : container.items = zipper.items
  next : (container.places.get slot).next = zipper.behind.length
  last : (container.places.get slot).last = zipper.currentIndex?
  sound : zipper.Sound

variable {zipper : Zipper α} {container : Container α} {slot : Nat} {item : α}
  {behind ahead : List α} {current : Option Direction}

theorem describes_openPlace (container : Container α) (slot : Nat) (grip : Grip) {start : Nat}
    (inside : start ≤ container.items.length) :
    (ofList container.items start).Describes (container.openPlace slot grip start) slot := by
  refine ⟨?_, ?_, ?_, trivial⟩
  · simp [ofList, items, Container.openPlace]
  · simp [ofList, Container.openPlace, inside]
  · simp [ofList, Container.openPlace, currentIndex?]

namespace Describes

/-! ## Indices -/

theorem length_eq (describes : zipper.Describes container slot) :
    container.items.length = zipper.behind.length + zipper.ahead.length := by
  rw [describes.items, Zipper.items, List.length_append, List.length_reverse]

/-- The gap is inside the list or at its end. -/
theorem next_le (describes : zipper.Describes container slot) :
    (container.places.get slot).next ≤ container.items.length := by
  rw [describes.next, describes.length_eq]
  omega

/-- The element delivered last is in the list, next to the gap. -/
theorem last_lt (describes : zipper.Describes container slot) {last : Nat}
    (delivered : (container.places.get slot).last = some last) :
    last < container.items.length ∧
      (last + 1 = (container.places.get slot).next ∨
        last = (container.places.get slot).next) := by
  have sound := describes.sound
  rw [describes.last, currentIndex?] at delivered
  rw [describes.next, describes.length_eq]
  unfold Sound at sound
  cases stepped : zipper.current with
  | none =>
      rw [stepped] at delivered
      cases delivered
  | some direction =>
      rw [stepped] at delivered sound
      cases direction with
      | forward =>
          obtain rfl := Option.some.inj delivered
          have some := List.length_pos_iff.mpr sound
          dsimp only
          omega
      | backward =>
          obtain rfl := Option.some.inj delivered
          have some := List.length_pos_iff.mpr sound
          dsimp only
          omega

/-- The current element is in range, so it is found whenever there is one. -/
theorem current?_eq (describes : zipper.Describes container slot) :
    container.current? slot = zipper.currentIndex? := by
  rw [Container.current?, ← describes.last]
  cases delivered : (container.places.get slot).last with
  | none => rfl
  | some last => simp [(describes.last_lt delivered).1]

/-! ## Steps -/

theorem hasStep_forward (describes : zipper.Describes container slot) :
    container.hasStep slot .forward = !zipper.ahead.isEmpty := by
  rw [Container.hasStep, describes.next, describes.length_eq]
  cases zipper.ahead <;> simp

theorem hasStep_backward (describes : zipper.Describes container slot) :
    container.hasStep slot .backward = !zipper.behind.isEmpty := by
  rw [Container.hasStep, describes.next]
  cases zipper.behind <;> simp

theorem step_forward (describes : Describes ⟨behind, item :: ahead, current⟩ container slot) :
    ∃ after, container.step? slot .forward = some (item, after) ∧
      Describes ⟨item :: behind, ahead, some .forward⟩ after slot := by
  have there : container.items[behind.length]? = some item := by
    rw [describes.items, Zipper.items, List.getElem?_append_right (by simp)]
    simp
  refine ⟨{ container with
    places := container.places.set slot
      ((container.places.get slot).stepped behind.length .forward) }, ?_, ?_, ?_, ?_,
    List.cons_ne_nil _ _⟩
  · simp only [Container.step?, Place.ahead, describes.next, there, Option.bind_eq_bind,
      Option.bind_some, pure]
  · show container.items = _
    rw [describes.items]
    simp [Zipper.items]
  · rw [Table.get_set_self]
    rfl
  · rw [Table.get_set_self]
    rfl

theorem step_backward (describes : Describes ⟨item :: behind, ahead, current⟩ container slot) :
    ∃ after, container.step? slot .backward = some (item, after) ∧
      Describes ⟨behind, item :: ahead, some .backward⟩ after slot := by
  have there : container.items[behind.length]? = some item := by
    rw [describes.items, Zipper.items]
    simp
  have next : (container.places.get slot).next = behind.length + 1 := describes.next
  refine ⟨{ container with
    places := container.places.set slot
      ((container.places.get slot).stepped behind.length .backward) }, ?_, ?_, ?_, ?_,
    List.cons_ne_nil _ _⟩
  · simp only [Container.step?, Place.ahead, next, there, Option.bind_eq_bind,
      Option.bind_some, pure, Nat.add_one_ne_zero, if_false, Nat.add_sub_cancel]
  · show container.items = _
    rw [describes.items]
    simp [Zipper.items]
  · rw [Table.get_set_self]
    rfl
  · rw [Table.get_set_self]
    rfl

/-! ## Edits -/

/-- To remove an element is to take it out of the list and to move the gap, if it stood behind. -/
theorem removeIndexed?_eq {index : Nat} (there : container.current? slot = some index) :
    ∃ after, container.removeIndexed? slot = some after ∧
      after.items = container.items.eraseIdx index ∧
      (after.places.get slot).next = Place.shiftDown index (container.places.get slot).next ∧
      (after.places.get slot).last = none := by
  refine ⟨{ container.eraseAt index with
    places := (container.eraseAt index).places.set slot
      { container.places.get slot with
        next := Place.shiftDown index (container.places.get slot).next, last := none } },
    ?_, rfl, ?_, ?_⟩
  · rw [Container.removeIndexed?, there]
    rfl
  · rw [Table.get_set_self]
  · rw [Table.get_set_self]

theorem remove_behind
    (describes : Describes ⟨item :: behind, ahead, some .forward⟩ container slot) :
    ∃ after, container.removeIndexed? slot = some after ∧
      Describes ⟨behind, ahead, none⟩ after slot := by
  have next : (container.places.get slot).next = behind.length + 1 := describes.next
  have there : container.current? slot = some behind.length := describes.current?_eq
  obtain ⟨after, removed, items, gap, last⟩ := removeIndexed?_eq there
  refine ⟨after, removed, ?_, ?_, last, trivial⟩
  · rw [items, describes.items]
    simp [Zipper.items, List.eraseIdx_append_of_length_le]
  · rw [gap, next, Place.shiftDown, if_pos (Nat.lt_succ_self _)]
    rfl

theorem remove_ahead
    (describes : Describes ⟨behind, item :: ahead, some .backward⟩ container slot) :
    ∃ after, container.removeIndexed? slot = some after ∧
      Describes ⟨behind, ahead, none⟩ after slot := by
  have there : container.current? slot = some behind.length := describes.current?_eq
  obtain ⟨after, removed, items, gap, last⟩ := removeIndexed?_eq there
  refine ⟨after, removed, ?_, ?_, last, trivial⟩
  · rw [items, describes.items]
    simp [Zipper.items, List.eraseIdx_append_of_length_le]
  · rw [gap, describes.next, Place.shiftDown, if_neg (Nat.lt_irrefl _)]

theorem set_behind (describes : Describes ⟨item :: behind, ahead, some .forward⟩ container slot)
    (other : α) :
    ∃ after, container.setCurrent? slot other = some after ∧
      Describes ⟨other :: behind, ahead, some .forward⟩ after slot := by
  have there : container.current? slot = some behind.length := describes.current?_eq
  refine ⟨container.setAt behind.length other, ?_, ?_, describes.next, describes.last,
    List.cons_ne_nil _ _⟩
  · rw [Container.setCurrent?, there]
    rfl
  · show container.items.set behind.length other = _
    rw [describes.items]
    simp [Zipper.items]

theorem set_ahead (describes : Describes ⟨behind, item :: ahead, some .backward⟩ container slot)
    (other : α) :
    ∃ after, container.setCurrent? slot other = some after ∧
      Describes ⟨behind, other :: ahead, some .backward⟩ after slot := by
  have there : container.current? slot = some behind.length := describes.current?_eq
  refine ⟨container.setAt behind.length other, ?_, ?_, describes.next, describes.last,
    List.cons_ne_nil _ _⟩
  · rw [Container.setCurrent?, there]
    rfl
  · show container.items.set behind.length other = _
    rw [describes.items]
    simp [Zipper.items]

theorem add (describes : zipper.Describes container slot) (item : α) :
    Describes ⟨item :: zipper.behind, zipper.ahead, none⟩ (container.add slot item) slot := by
  have inserted : (zipper.behind.reverse ++ zipper.ahead).insertIdx zipper.behind.length item =
      zipper.behind.reverse ++ item :: zipper.ahead := by
    rw [← List.length_reverse]
    exact List.modifyTailIdx_add (item :: ·) 0 _ _
  refine ⟨?_, ?_, ?_, trivial⟩
  · show container.items.insertIdx (container.places.get slot).next item = _
    rw [describes.items, describes.next, Zipper.items, inserted]
    simp [Zipper.items]
  · rw [Container.add, Table.get_set_self]
    show (container.places.get slot).next + 1 = _
    rw [describes.next]
    rfl
  · rw [Container.add, Table.get_set_self]
    rfl

end Describes

/-! ## Requests -/

variable {store : Store α} {source : Handle} {request : ListCursor.Request α}

/-- A zipper answers a request as the cursor at a place does, and describes the place
afterwards. -/
structure Answers (zipper : Zipper α) (store : Store α) (source : Handle) (slot : Nat)
    (request : ListCursor.Request α) : Prop where
  reply : ((ListCursor.direct source slot).respond store request).1 = (zipper.respond request).1
  describes : (zipper.respond request).2.Describes
    (((ListCursor.direct source slot).respond store request).2.container source) slot

/-- A request may leave things as they are. -/
theorem Describes.answers_unchanged (describes : zipper.Describes (store.container source) slot)
    {response : ListCursor.Response α}
    (answer : (ListCursor.direct source slot).respond store request = (response, store))
    (reply : zipper.respond request = (response, zipper)) :
    zipper.Answers store source slot request := by
  constructor <;> rw [answer, reply]
  exact describes

/-- A request may leave another container. -/
theorem Describes.answers_put {after : Container α} {other : Zipper α}
    (describes : other.Describes after slot) {response : ListCursor.Response α}
    (answer : (ListCursor.direct source slot).respond store request =
      (response, store.put source after))
    (reply : zipper.respond request = (response, other)) :
    zipper.Answers store source slot request := by
  constructor <;> rw [answer, reply]
  rw [Store.container_put_self]
  exact describes

namespace Describes

/-- A step across the gap. -/
theorem answers_next (describes : zipper.Describes (store.container source) slot) :
    zipper.Answers store source slot .next := by
  obtain ⟨behind, ahead, current⟩ := zipper
  cases ahead with
  | nil =>
      refine describes.answers_unchanged ?_ rfl
      simp only [ListCursor.respond, ListCursor.next, ListCursor.step,
        Container.step?_of_hasStep_eq_false describes.hasStep_forward]
      rfl
  | cons item rest =>
      obtain ⟨after, stepped, described⟩ := describes.step_forward
      refine described.answers_put ?_ rfl
      simp only [ListCursor.respond, ListCursor.next, ListCursor.step, stepped]
      rfl

theorem answers_previous (describes : zipper.Describes (store.container source) slot) :
    zipper.Answers store source slot .previous := by
  obtain ⟨behind, ahead, current⟩ := zipper
  cases behind with
  | nil =>
      refine describes.answers_unchanged ?_ rfl
      simp only [ListCursor.respond, ListCursor.previous, ListCursor.step,
        Container.step?_of_hasStep_eq_false describes.hasStep_backward]
      rfl
  | cons item rest =>
      obtain ⟨after, stepped, described⟩ := describes.step_backward
      refine described.answers_put ?_ rfl
      simp only [ListCursor.respond, ListCursor.previous, ListCursor.step, stepped]
      rfl

/-- A removal of the current element, if there is one. -/
theorem answers_remove (describes : zipper.Describes (store.container source) slot) :
    zipper.Answers store source slot .remove := by
  have sound := describes.sound
  obtain ⟨behind, ahead, _ | _ | _⟩ := zipper
  · have nothing : (store.container source).removeIndexed? slot = none := by
      rw [Container.removeIndexed?, describes.current?_eq]
      rfl
    refine describes.answers_unchanged ?_ rfl
    simp only [ListCursor.respond, ListCursor.remove, nothing]
    rfl
  · obtain ⟨item, rest, rfl⟩ := List.exists_cons_of_ne_nil sound
    obtain ⟨after, removed, described⟩ := describes.remove_behind
    refine described.answers_put ?_ rfl
    simp only [ListCursor.respond, ListCursor.remove, removed]
    rfl
  · obtain ⟨item, rest, rfl⟩ := List.exists_cons_of_ne_nil sound
    obtain ⟨after, removed, described⟩ := describes.remove_ahead
    refine described.answers_put ?_ rfl
    simp only [ListCursor.respond, ListCursor.remove, removed]
    rfl

theorem answers_set (describes : zipper.Describes (store.container source) slot) (other : α) :
    zipper.Answers store source slot (.set other) := by
  have sound := describes.sound
  obtain ⟨behind, ahead, _ | _ | _⟩ := zipper
  · have nothing : (store.container source).setCurrent? slot other = none := by
      rw [Container.setCurrent?, describes.current?_eq]
      rfl
    refine describes.answers_unchanged ?_ rfl
    simp only [ListCursor.respond, ListCursor.set, nothing]
    rfl
  · obtain ⟨item, rest, rfl⟩ := List.exists_cons_of_ne_nil sound
    obtain ⟨after, changed, described⟩ := describes.set_behind other
    refine described.answers_put ?_ rfl
    simp only [ListCursor.respond, ListCursor.set, changed]
    rfl
  · obtain ⟨item, rest, rfl⟩ := List.exists_cons_of_ne_nil sound
    obtain ⟨after, changed, described⟩ := describes.set_ahead other
    refine described.answers_put ?_ rfl
    simp only [ListCursor.respond, ListCursor.set, changed]
    rfl

/-- **Every request is answered as by the zipper, which describes the place afterwards.** -/
theorem respond (describes : zipper.Describes (store.container source) slot)
    (request : ListCursor.Request α) : zipper.Answers store source slot request := by
  cases request with
  | hasNext => exact ⟨congrArg ListCursor.Response.flag describes.hasStep_forward, describes⟩
  | next => exact describes.answers_next
  | hasPrevious => exact ⟨congrArg ListCursor.Response.flag describes.hasStep_backward, describes⟩
  | previous => exact describes.answers_previous
  | nextIndex =>
      exact ⟨congrArg (fun gap : Nat => ListCursor.Response.index gap) describes.next, describes⟩
  | previousIndex =>
      exact ⟨congrArg (fun gap : Nat => ListCursor.Response.index (gap - 1)) describes.next,
        describes⟩
  | remove => exact describes.answers_remove
  | set item => exact describes.answers_set item
  | add item => exact (describes.add item).answers_put rfl rfl

end Describes

end Zipper

/-! ## The theorem -/

/-- **A list cursor walks as a zipper.** Opened in front of any position of any list, it gives in
every run the answers of the zipper that is cut there. Afterwards the list is what lies on both sides of
the gap, the two indices are those of the gap and of the current element, and both are in range:
the gap inside the list or at its end, the current element in the list and next to the gap. -/
theorem listCursor_walks_as_zipper (store : Store α) (source : Handle) (start : Nat)
    (inside : start ≤ (store.items source).length) (requests : List (ListCursor.Request α)) :
    let opened := store.listCursorOver source start
    let walked := serve opened.1.respond opened.2 requests
    let zipped := serve Zipper.respond (Zipper.ofList (store.items source) start) requests
    let place := (walked.2.container source).places.get opened.1.handle
    walked.1 = zipped.1 ∧
      walked.2.items source = zipped.2.behind.reverse ++ zipped.2.ahead ∧
      place.next = zipped.2.behind.length ∧
      place.last = zipped.2.currentIndex? ∧
      place.next ≤ (walked.2.items source).length ∧
      ∀ last, place.last = some last →
        last < (walked.2.items source).length ∧ (last + 1 = place.next ∨ last = place.next) := by
  intro opened walked zipped place
  let related (store : Store α) (zipper : Zipper α) : Prop :=
    zipper.Describes (store.container source) opened.1.handle
  have opening : related opened.2 (Zipper.ofList (store.items source) start) := by
    show Zipper.Describes _ ((Store.put _ source _).container source) _
    rw [Store.container_put_self]
    exact Zipper.describes_openPlace _ _ _ inside
  have keeps : ∀ {store : Store α} {zipper : Zipper α} (request : ListCursor.Request α),
      related store zipper →
        (opened.1.respond store request).1 = (zipper.respond request).1 ∧
          related (opened.1.respond store request).2 (zipper.respond request).2 :=
    fun request describes =>
      have answered := describes.respond request
      ⟨answered.reply, answered.describes⟩
  obtain ⟨answers, describes⟩ := serve_eq keeps opening requests
  exact ⟨answers, describes.items, describes.next, describes.last, describes.next_le,
    fun _ delivered => describes.last_lt delivered⟩

/-- Elements are removed after steps in both directions, one is added, and one is overwritten. -/
def backAndForth : List (ListCursor.Request Nat) :=
  [.next, .next, .previous, .remove, .remove, .add 7, .set 8, .previous, .set 9, .nextIndex, .next,
    .next, .next, .remove]

/-- A run with failing requests and steps in both directions, from a list of three. -/
theorem listCursor_walks_as_zipper_on_backAndForth :
    let store : Store Nat := { containers := ⟨[{ items := [1, 2, 3] }]⟩, fresh := 1 }
    let opened := store.listCursorOver 0 0
    let walked := serve opened.1.respond opened.2 backAndForth
    0 ≤ (store.items 0).length ∧
      walked.1 = [.delivered (.ok 1), .delivered (.ok 2), .delivered (.ok 2), .edited (.ok ()),
        .edited (.error .noCurrent), .edited (.ok ()), .edited (.error .noCurrent),
        .delivered (.ok 7), .edited (.ok ()), .index 1, .delivered (.ok 9), .delivered (.ok 3),
        .delivered (.error .pastEnd), .edited (.ok ())] ∧
      walked.2.items 0 = [1, 9] := by
  intro store opened walked
  obtain ⟨answers, items, -⟩ :=
    listCursor_walks_as_zipper store 0 0 (Nat.zero_le _) backAndForth
  exact ⟨Nat.zero_le _, answers, items⟩

end Collections
