import Collections.Cursor.Basic
import Collections.Proofs.Runs

/-!
# Requests to a cursor

What can be asked of a cursor is whether there is a next element, the next element, and that the
last one be removed. A run is a list of such requests, and answers each of them (`Cursor.run`).

A combination is made after its parts, so its handle is younger than all handles in them
(`Cursor.MadeBefore`). Therefore a cursor made before a bound neither looks at the combinations
made later nor lets them go over. It gives the same answers in two stores that agree on
everything older than the bound, and leaves the younger combinations as they are (`Confined`,
`confined_next`). In particular the parts of a combination leave its own switch alone, and a
question asked twice in a row is answered alike and changes nothing the second time
(`hasNext_again`).
-/

set_option autoImplicit false

namespace Collections

variable {α β : Type}

/-! ## Stores that agree below a bound -/

namespace Store

/-- The stores hold the same containers and splits, and the same combinations older than a bound
have gone over. -/
structure AgreeBelow (bound : Handle) (left right : Store α) : Prop where
  containers : left.containers = right.containers
  splitters : left.splitters = right.splitters
  crossed : ∀ switch < bound, left.hasCrossed switch = right.hasCrossed switch

namespace AgreeBelow

variable {bound lower : Handle} {left right : Store α}

theorem refl (bound : Handle) (store : Store α) : store.AgreeBelow bound store :=
  ⟨rfl, rfl, fun _ _ => rfl⟩

theorem trans {middle : Store α} (first : left.AgreeBelow bound middle)
    (second : middle.AgreeBelow bound right) : left.AgreeBelow bound right :=
  ⟨first.containers.trans second.containers, first.splitters.trans second.splitters,
    fun switch older => (first.crossed switch older).trans (second.crossed switch older)⟩

theorem mono (agree : left.AgreeBelow bound right) (smaller : lower ≤ bound) :
    left.AgreeBelow lower right :=
  ⟨agree.containers, agree.splitters, fun switch older =>
    agree.crossed switch (Nat.lt_of_lt_of_le older smaller)⟩

theorem container (agree : left.AgreeBelow bound right) (source : Handle) :
    left.container source = right.container source :=
  congrArg (·.get source) agree.containers

theorem put (agree : left.AgreeBelow bound right) (source : Handle) (container : Container α) :
    (left.put source container).AgreeBelow bound (right.put source container) :=
  ⟨congrArg (·.set source container) agree.containers, agree.splitters, agree.crossed⟩

theorem cross (agree : left.AgreeBelow bound right) (switch : Handle) :
    (left.cross switch).AgreeBelow bound (right.cross switch) := by
  refine ⟨agree.containers, agree.splitters, fun other older => ?_⟩
  rw [hasCrossed_cross, hasCrossed_cross, agree.crossed other older]

/-- A combination that is not older than the bound may go over on one side alone. -/
theorem cross_left (agree : left.AgreeBelow bound right) {switch : Handle}
    (beyond : bound ≤ switch) : (left.cross switch).AgreeBelow bound right := by
  refine ⟨agree.containers, agree.splitters, fun other older => ?_⟩
  rw [hasCrossed_cross, if_neg (Nat.ne_of_lt (Nat.lt_of_lt_of_le older beyond)),
    agree.crossed other older]

end AgreeBelow

end Store

/-! ## Confined operations -/

/-- An operation neither looks at the combinations that are not older than a bound nor lets one of
them go over. -/
structure Confined (bound : Handle) (operation : Store α → β × Store α) : Prop where
  agree : ∀ {left right : Store α}, left.AgreeBelow bound right →
    (operation left).1 = (operation right).1 ∧
      (operation left).2.AgreeBelow bound (operation right).2
  keeps : ∀ (store : Store α) (switch : Handle), bound ≤ switch →
    (operation store).2.hasCrossed switch = store.hasCrossed switch

namespace Confined

variable {bound : Handle} {operation : Store α → β × Store α}

/-- A confined operation gives one answer in two stores that agree, and leaves two that agree. -/
theorem both (confined : Confined bound operation) {left right : Store α}
    (agree : left.AgreeBelow bound right) :
    ∃ answer left' right', operation left = (answer, left') ∧ operation right = (answer, right') ∧
      left'.AgreeBelow bound right' := by
  obtain ⟨answers, after⟩ := confined.agree agree
  exact ⟨_, _, (operation right).2, rfl, Prod.ext answers.symm rfl, after⟩

theorem keeps_of_eq (confined : Confined bound operation) {store after : Store α} {answer : β}
    (found : operation store = (answer, after)) {switch : Handle} (beyond : bound ≤ switch) :
    after.hasCrossed switch = store.hasCrossed switch := by
  rw [← confined.keeps store switch beyond, found]

/-- A larger bound confines less. -/
theorem mono (confined : Confined bound operation) {larger : Handle} (smaller : bound ≤ larger) :
    Confined larger operation where
  agree := by
    intro left right agree
    obtain ⟨answers, after⟩ := confined.agree (agree.mono smaller)
    refine ⟨answers, after.containers, after.splitters, fun switch older => ?_⟩
    by_cases inside : switch < bound
    · exact after.crossed switch inside
    · have outside : bound ≤ switch := Nat.le_of_not_lt inside
      rw [confined.keeps left switch outside, confined.keeps right switch outside]
      exact agree.crossed switch older
  keeps store switch beyond := confined.keeps store switch (Nat.le_trans smaller beyond)

end Confined

namespace ListCursor

/-- A step of a list cursor looks at containers alone. -/
theorem confined_step (cursor : ListCursor) (direction : Direction) :
    Confined (α := α) 0 (cursor.step direction) := by
  induction cursor generalizing direction with
  | direct source slot =>
      constructor
      · intro left right agree
        simp only [step, agree.container source]
        cases (right.container source).step? slot direction with
        | none => exact ⟨rfl, agree⟩
        | some result => exact ⟨rfl, agree.put source result.2⟩
      · intro store switch _
        simp only [step]
        cases (store.container source).step? slot direction <;> rfl
  | reversed view source hypothesis =>
      have inner := hypothesis direction.opposite
      constructor
      · intro left right agree
        obtain ⟨answer, left', right', fromLeft, fromRight, after⟩ := inner.both agree
        simp only [step, fromLeft, fromRight]
        cases answer <;> exact ⟨rfl, after⟩
      · intro store switch beyond
        rw [← inner.keeps store switch beyond]
        simp only [step]
        rcases source.step direction.opposite store with ⟨_ | _, after⟩ <;> rfl

/-- A removal through a list cursor looks at containers alone. -/
theorem confined_remove (cursor : ListCursor) : Confined (α := α) 0 cursor.remove := by
  induction cursor with
  | direct source slot =>
      constructor
      · intro left right agree
        simp only [remove, agree.container source]
        cases (right.container source).removeIndexed? slot with
        | none => exact ⟨rfl, agree⟩
        | some container => exact ⟨rfl, agree.put source container⟩
      · intro store switch _
        simp only [remove]
        cases (store.container source).removeIndexed? slot <;> rfl
  | reversed view source hypothesis => exact hypothesis

/-- A step that has no element to deliver fails at the end it walks to. -/
theorem step_of_hasStep_eq_false {cursor : ListCursor} {direction : Direction} {store : Store α}
    (exhausted : cursor.hasStep direction store = false) :
    cursor.step direction store = (.error (pastError direction), store) := by
  induction cursor generalizing direction with
  | direct source slot => rw [step, Container.step?_of_hasStep_eq_false exhausted]
  | reversed view source hypothesis =>
      rw [step, hypothesis exhausted]
      cases direction <;> rfl

theorem hasStep_congr {bound : Handle} {left right : Store α} (agree : left.AgreeBelow bound right)
    (cursor : ListCursor) (direction : Direction) :
    cursor.hasStep direction left = cursor.hasStep direction right := by
  induction cursor generalizing direction with
  | direct source slot => simp only [hasStep, agree.container source]
  | reversed view source hypothesis => exact hypothesis direction.opposite

end ListCursor

namespace Cursor

/-! ## Age -/

/-- Every combination in a cursor is older than a bound, and its parts are older than it. -/
def MadeBefore : Cursor α → Handle → Prop
  | combined switch first second, bound =>
      switch < bound ∧ first.MadeBefore switch ∧ second.MadeBefore switch
  | readOnly _ source, bound => source.MadeBefore bound
  | _, _ => True

theorem MadeBefore.mono {cursor : Cursor α} {bound larger : Handle}
    (made : cursor.MadeBefore bound) (smaller : bound ≤ larger) : cursor.MadeBefore larger := by
  induction cursor with
  | combined switch first second _ _ => exact ⟨Nat.lt_of_lt_of_le made.1 smaller, made.2⟩
  | readOnly view source hypothesis => exact hypothesis made
  | direct | ofList | pieces | empty => trivial

/-- What is made by combining two cursors that exist is younger than both. -/
theorem madeBefore_combine {first second : Cursor α} {store : Store α}
    (front : first.MadeBefore store.fresh) (back : second.MadeBefore store.fresh) :
    (combine first second store).1.MadeBefore (combine first second store).2.fresh :=
  ⟨Nat.lt_succ_self store.fresh, front, back⟩

/-! ## What a cursor looks at -/

theorem confined_hasNext {cursor : Cursor α} {bound : Handle} (made : cursor.MadeBefore bound) :
    Confined bound cursor.hasNext := by
  induction cursor generalizing bound with
  | direct source slot =>
      refine ⟨fun agree => ⟨?_, agree⟩, fun _ _ _ => rfl⟩
      simp only [hasNext, agree.container source]
  | ofList cursor =>
      refine ⟨fun agree => ⟨?_, agree⟩, fun _ _ _ => rfl⟩
      exact cursor.hasStep_congr agree .forward
  | pieces slot read =>
      refine ⟨fun agree => ⟨?_, agree⟩, fun _ _ _ => rfl⟩
      simp only [hasNext, agree.splitters]
  | empty => exact ⟨fun agree => ⟨rfl, agree⟩, fun _ _ _ => rfl⟩
  | readOnly view source hypothesis => exact hypothesis made
  | combined switch first second front back =>
      obtain ⟨older, firstMade, secondMade⟩ := made
      have firstPart := (front firstMade).mono (Nat.le_of_lt older)
      have secondPart := (back secondMade).mono (Nat.le_of_lt older)
      constructor
      · intro left right agree
        simp only [hasNext, agree.crossed switch older]
        split
        · exact secondPart.agree agree
        · obtain ⟨answer, left', right', fromLeft, fromRight, after⟩ := firstPart.both agree
          simp only [fromLeft, fromRight]
          cases answer with
          | true => exact ⟨rfl, after⟩
          | false => exact secondPart.agree (after.cross switch)
      · intro store other beyond
        have apart : other ≠ switch := Nat.ne_of_gt (Nat.lt_of_lt_of_le older beyond)
        simp only [hasNext]
        split
        · exact secondPart.keeps store other beyond
        · rw [← firstPart.keeps store other beyond]
          rcases first.hasNext store with ⟨_ | _, between⟩
          · show (second.hasNext (between.cross switch)).2.hasCrossed other = _
            rw [secondPart.keeps _ other beyond, Store.hasCrossed_cross, if_neg apart]
          · rfl

/-- **Asking again gives the same answer and changes nothing.** -/
theorem hasNext_again {cursor : Cursor α} {bound : Handle} (made : cursor.MadeBefore bound)
    {store after : Store α} {more : Bool} (asked : cursor.hasNext store = (more, after)) :
    cursor.hasNext after = (more, after) := by
  induction cursor generalizing bound store after more with
  | direct source slot | ofList cursor | pieces slot read | empty =>
      obtain ⟨rfl, rfl⟩ := Prod.mk.inj asked
      rfl
  | readOnly view source hypothesis => exact hypothesis made asked
  | combined switch first second front back =>
      obtain ⟨_, firstMade, secondMade⟩ := made
      have crossedAfter : ∀ {store after : Store α} {more : Bool},
          second.hasNext store = (more, after) → store.hasCrossed switch = true →
            (combined switch first second).hasNext after = (more, after) := by
        intro store after more found crossed
        have still : after.hasCrossed switch = true := by
          rw [(confined_hasNext secondMade).keeps_of_eq found (Nat.le_refl switch), crossed]
        rw [hasNext, if_pos still]
        exact back secondMade found
      rw [hasNext] at asked
      split at asked
      next crossed => exact crossedAfter asked crossed
      next uncrossed =>
        cases found : first.hasNext store with
        | mk answer between =>
            rw [found] at asked
            cases answer with
            | true =>
                obtain ⟨rfl, rfl⟩ := Prod.mk.inj asked
                have still : ¬ between.hasCrossed switch = true := by
                  rwa [(confined_hasNext firstMade).keeps_of_eq found (Nat.le_refl switch)]
                rw [hasNext, if_neg still, front firstMade found]
            | false =>
                refine crossedAfter asked ?_
                rw [Store.hasCrossed_cross, if_pos rfl]

/-- **A cursor that denies having an element fails to deliver one, at its end.** -/
theorem next_of_hasNext_eq_false {cursor : Cursor α} {store after : Store α}
    (exhausted : cursor.hasNext store = (false, after)) :
    cursor.next store = (.error .pastEnd, after) := by
  induction cursor generalizing store after with
  | direct source slot =>
      obtain ⟨denied, rfl⟩ := Prod.mk.inj exhausted
      rw [next, Container.step?_of_hasStep_eq_false denied]
  | ofList cursor =>
      obtain ⟨denied, rfl⟩ := Prod.mk.inj exhausted
      exact ListCursor.step_of_hasStep_eq_false denied
  | pieces slot read =>
      obtain ⟨denied, rfl⟩ := Prod.mk.inj exhausted
      rw [next, Splitter.next?_eq_none_iff.mpr denied]
  | empty =>
      obtain ⟨_, rfl⟩ := Prod.mk.inj exhausted
      rfl
  | readOnly view source hypothesis => exact hypothesis exhausted
  | combined switch first second _ _ => rw [next, exhausted]

/-- Whether a cursor was asked before makes no difference to what it delivers. -/
theorem next_of_hasNext {cursor : Cursor α} {bound : Handle} (made : cursor.MadeBefore bound)
    {store after : Store α} {more : Bool} (asked : cursor.hasNext store = (more, after)) :
    cursor.next store = cursor.next after := by
  induction cursor generalizing bound with
  | direct | ofList | pieces | empty =>
      obtain ⟨_, rfl⟩ := Prod.mk.inj asked
      rfl
  | readOnly view source hypothesis => exact hypothesis made asked
  | combined switch first second _ _ => rw [next, next, asked, hasNext_again made asked]

theorem confined_next {cursor : Cursor α} {bound : Handle} (made : cursor.MadeBefore bound) :
    Confined bound cursor.next := by
  induction cursor generalizing bound with
  | direct source slot =>
      constructor
      · intro left right agree
        simp only [next, agree.container source]
        cases (right.container source).step? slot .forward with
        | none => exact ⟨rfl, agree⟩
        | some result => exact ⟨rfl, agree.put source result.2⟩
      · intro store switch _
        simp only [next]
        cases (store.container source).step? slot .forward <;> rfl
  | ofList cursor => exact (cursor.confined_step .forward).mono (Nat.zero_le bound)
  | pieces slot read =>
      constructor
      · intro left right agree
        simp only [next, agree.splitters]
        cases (right.splitters.get slot).next? with
        | none => exact ⟨rfl, agree⟩
        | some result => exact ⟨rfl, agree.containers, rfl, agree.crossed⟩
      · intro store switch _
        simp only [next]
        cases (store.splitters.get slot).next? <;> rfl
  | empty => exact ⟨fun agree => ⟨rfl, agree⟩, fun _ _ _ => rfl⟩
  | readOnly view source hypothesis => exact hypothesis made
  | combined switch first second front back =>
      have asking := confined_hasNext made
      obtain ⟨older, firstMade, secondMade⟩ := made
      have firstPart := (front firstMade).mono (Nat.le_of_lt older)
      have secondPart := (back secondMade).mono (Nat.le_of_lt older)
      constructor
      · intro left right agree
        obtain ⟨answer, left', right', fromLeft, fromRight, after⟩ := asking.both agree
        simp only [next, fromLeft, fromRight]
        cases answer with
        | false => exact ⟨rfl, after⟩
        | true =>
            simp only [after.crossed switch older]
            split
            · exact secondPart.agree after
            · exact firstPart.agree after
      · intro store other beyond
        rw [← asking.keeps store other beyond]
        simp only [next]
        rcases (combined switch first second).hasNext store with ⟨_ | _, after⟩
        · rfl
        · simp only
          split
          · exact secondPart.keeps after other beyond
          · exact firstPart.keeps after other beyond

theorem confined_remove {cursor : Cursor α} {bound : Handle} (made : cursor.MadeBefore bound) :
    Confined bound cursor.remove := by
  induction cursor generalizing bound with
  | direct source slot =>
      constructor
      · intro left right agree
        simp only [remove, agree.container source]
        cases (right.container source).removeCurrent? slot with
        | none => exact ⟨rfl, agree⟩
        | some container => exact ⟨rfl, agree.put source container⟩
      · intro store switch _
        simp only [remove]
        cases (store.container source).removeCurrent? slot <;> rfl
  | ofList cursor => exact cursor.confined_remove.mono (Nat.zero_le bound)
  | pieces | empty | readOnly => exact ⟨fun agree => ⟨rfl, agree⟩, fun _ _ _ => rfl⟩
  | combined switch first second front back =>
      obtain ⟨older, firstMade, secondMade⟩ := made
      have firstPart := (front firstMade).mono (Nat.le_of_lt older)
      have secondPart := (back secondMade).mono (Nat.le_of_lt older)
      constructor
      · intro left right agree
        simp only [remove, agree.crossed switch older]
        split
        · exact secondPart.agree agree
        · exact firstPart.agree agree
      · intro store other beyond
        simp only [remove]
        split
        · exact secondPart.keeps store other beyond
        · exact firstPart.keeps store other beyond

/-! ## Runs -/

/-- What can be asked of a cursor. -/
inductive Request where
  | hasNext
  | next
  | remove
  deriving DecidableEq, Repr

/-- What a cursor answers. -/
inductive Response (α : Type) where
  | more (value : Bool)
  | delivered (result : Except CursorError α)
  | removed (result : Except CursorError Unit)

/-- Answer a request. -/
def respond (cursor : Cursor α) (store : Store α) : Request → Response α × Store α
  | .hasNext => (cursor.hasNext store).map .more id
  | .next => (cursor.next store).map .delivered id
  | .remove => (cursor.remove store).map .removed id

/-- Answer requests one after the other. -/
def run (cursor : Cursor α) (store : Store α) : List Request → List (Response α) × Store α
  | [] => ([], store)
  | first :: rest =>
      let (response, store) := cursor.respond store first
      let (responses, store) := cursor.run store rest
      (response :: responses, store)

theorem run_eq_serve (cursor : Cursor α) (store : Store α) (requests : List Request) :
    cursor.run store requests = serve cursor.respond store requests := by
  induction requests generalizing store with
  | nil => rfl
  | cons request rest ih => simp only [run, serve, ih]

end Cursor

end Collections
