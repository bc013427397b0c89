import Collections.Proofs.Cursor.Requests

/-!
# Nested combinations are concatenations

Cursors that are combined in pairs, in whatever nesting, behave as a row of cursors with one
position. The row asks the cursor at its position for an element, goes on to the next cursor when
that one is found exhausted, and never passes the last one. Delivery asks first and then takes from
the cursor at the position, and a removal goes to the cursor at the position.

A nesting keeps its position in pieces: each combination remembers whether it has gone over to its
second part, and delivery asks again at every level on the way down. A nesting stands at a position
of the row (`Stands`) when the combinations that have gone over are those which that position
requires, and none to its right has. Asking a nesting does what asking the row does and leaves the
nesting standing where the row is (`Stands.hasNext`); then the cursor at that position is known to
have an element, so asking further down changes nothing (`Stands.next`). Hence a nesting and its
row answer every run alike (`Stands.run`), and two nestings of the same cursors do as well
(`nestings_read_alike`).
-/

set_option autoImplicit false

namespace Collections

variable {α : Type}

/-! ## Rows -/

/-- Cursors that are read one after the other, and the position of the current one. -/
structure Row (α : Type) where
  parts : List (Cursor α)
  position : Nat := 0

namespace Row

/-- Ask cursors in order until one has an element. The last one is never passed. Answers whether
there is an element, and how many cursors were passed. -/
def seek : List (Cursor α) → Store α → Bool × Nat × Store α
  | [], store => (false, 0, store)
  | [last], store =>
      let (more, store) := last.hasNext store
      (more, 0, store)
  | first :: second :: rest, store =>
      match first.hasNext store with
      | (true, store) => (true, 0, store)
      | (false, store) =>
          let (more, passed, store) := seek (second :: rest) store
          (more, passed + 1, store)

/-- The cursor at the position. -/
def current (row : Row α) : Cursor α := row.parts[row.position]?.getD .empty

/-- Whether there is a next element. Cursors found exhausted are passed. -/
def hasNext (row : Row α) (store : Store α) : Bool × Row α × Store α :=
  let (more, passed, store) := seek (row.parts.drop row.position) store
  (more, { row with position := row.position + passed }, store)

/-- Deliver the next element, from the current cursor. -/
def next (row : Row α) (store : Store α) : Except CursorError α × Row α × Store α :=
  match row.hasNext store with
  | (false, row, store) => (.error .pastEnd, row, store)
  | (true, row, store) =>
      let (result, store) := row.current.next store
      (result, row, store)

/-- Remove the element delivered last by the current cursor. -/
def remove (row : Row α) (store : Store α) : Except CursorError Unit × Row α × Store α :=
  let (result, store) := row.current.remove store
  (result, row, store)

/-- Answer a request. -/
def respond (row : Row α) (store : Store α) :
    Cursor.Request → Cursor.Response α × Row α × Store α
  | .hasNext => (row.hasNext store).map .more id
  | .next => (row.next store).map .delivered id
  | .remove => (row.remove store).map .removed id

/-- Answer requests one after the other. -/
def run (row : Row α) (store : Store α) :
    List Cursor.Request → List (Cursor.Response α) × Row α × Store α
  | [] => ([], row, store)
  | first :: rest =>
      let (response, row, store) := row.respond store first
      let (responses, row, store) := row.run store rest
      (response :: responses, row, store)

/-- Two rows in line are asked as one. -/
theorem seek_append (front back : List (Cursor α)) (someFront : front ≠ []) (someBack : back ≠ [])
    (store : Store α) :
    seek (front ++ back) store =
      match seek front store with
      | (true, passed, store) => (true, passed, store)
      | (false, passed, store) =>
          let (more, further, store) := seek back store
          (more, passed + 1 + further, store) := by
  induction front generalizing store with
  | nil => exact absurd rfl someFront
  | cons first rest hypothesis =>
      cases rest with
      | nil =>
          obtain ⟨head, tail, rfl⟩ := List.exists_cons_of_ne_nil someBack
          simp only [List.cons_append, List.nil_append, seek]
          rcases first.hasNext store with ⟨_ | _, after⟩
          · simp only [Nat.zero_add, Nat.add_comm 1]
          · rfl
      | cons second rest =>
          simp only [List.cons_append, seek]
          rcases first.hasNext store with ⟨_ | _, after⟩
          · have inner := hypothesis (by simp) after
            simp only [List.cons_append] at inner
            simp only [inner]
            rcases seek (second :: rest) after with ⟨_ | _, passed, last⟩
            · simp only [Nat.add_right_comm]
            · rfl
          · rfl

end Row

/-! ## Nestings -/

/-- A way to combine cursors in pairs. -/
inductive Nesting (α : Type) where
  | single (cursor : Cursor α)
  | pair (first second : Nesting α)

namespace Nesting

/-- The cursors of a nesting, from left to right. -/
def parts : Nesting α → List (Cursor α)
  | single cursor => [cursor]
  | pair first second => first.parts ++ second.parts

/-- Make the combinations of a nesting. -/
def combine : Nesting α → Store α → Cursor α × Store α
  | single cursor, store => (cursor, store)
  | pair first second, store =>
      let (front, store) := first.combine store
      let (back, store) := second.combine store
      Cursor.combine front back store

theorem parts_ne_nil (nesting : Nesting α) : nesting.parts ≠ [] := by
  cases nesting with
  | single cursor => simp [parts]
  | pair first second => simp [parts, first.parts_ne_nil]

end Nesting

/-! ## Standing at a position -/

/-- A nesting whose combinations were made with handles from a lower to an upper bound stands at a
position of its row. -/
inductive Stands (store : Store α) :
    Nat → Nesting α → Cursor α → Nat → Nat → Prop where
  | single {lower upper : Nat} {cursor : Cursor α} (made : cursor.MadeBefore lower)
      (ordered : lower ≤ upper) : Stands store lower (.single cursor) cursor upper 0
  /-- The combination is at its first part, and its second part at the start. -/
  | first {lower middle switch upper : Nat} {front back : Nesting α} {first second : Cursor α}
      {position : Nat} (here : Stands store lower front first middle position)
      (later : Stands store middle back second switch 0)
      (uncrossed : store.hasCrossed switch = false) (ordered : switch < upper) :
      Stands store lower (.pair front back) (.combined switch first second) upper position
  /-- The combination has gone over to its second part. -/
  | second {lower middle switch upper : Nat} {front back : Nesting α} {first second : Cursor α}
      {position : Nat} (made : first.MadeBefore switch) (between : lower ≤ middle)
      (here : Stands store middle back second switch position)
      (crossed : store.hasCrossed switch = true) (ordered : switch < upper) :
      Stands store lower (.pair front back) (.combined switch first second) upper
        (front.parts.length + position)

namespace Stands

variable {store : Store α} {lower upper : Nat} {nesting : Nesting α} {cursor : Cursor α}
  {position : Nat}

theorem le (stands : Stands store lower nesting cursor upper position) : lower ≤ upper := by
  induction stands with
  | single _ ordered => exact ordered
  | first _ _ _ ordered earlier later => omega
  | second _ between _ _ ordered earlier => omega

theorem madeBefore (stands : Stands store lower nesting cursor upper position) :
    cursor.MadeBefore upper := by
  induction stands with
  | single made ordered => exact made.mono ordered
  | first _ later _ ordered front back => exact ⟨ordered, front.mono later.le, back⟩
  | second made _ _ _ ordered back => exact ⟨ordered, made, back⟩

theorem position_lt (stands : Stands store lower nesting cursor upper position) :
    position < nesting.parts.length := by
  induction stands with
  | single => exact Nat.zero_lt_one
  | first _ _ _ _ front _ =>
      rw [Nesting.parts, List.length_append]
      omega
  | second _ _ _ _ _ back =>
      rw [Nesting.parts, List.length_append]
      omega

/-- Where a nesting stands depends on its own combinations alone. -/
theorem congr {other : Store α} (stands : Stands store lower nesting cursor upper position)
    (same : ∀ switch, lower ≤ switch → switch < upper →
      other.hasCrossed switch = store.hasCrossed switch) :
    Stands other lower nesting cursor upper position := by
  induction stands with
  | single made ordered => exact .single made ordered
  | @first lower middle switch upper _ _ _ _ _ here later uncrossed ordered front back =>
      have order : lower ≤ middle ∧ middle ≤ switch := ⟨here.le, later.le⟩
      refine .first (front fun inner above below => ?_) (back fun inner above below => ?_) ?_
        ordered
      · exact same inner above (by omega)
      · exact same inner (by omega) (by omega)
      · rw [same switch (by omega) ordered, uncrossed]
  | @second lower middle switch upper _ _ _ _ _ made between here crossed ordered back =>
      have order : middle ≤ switch := here.le
      refine .second made between (back fun inner above below => ?_) ?_ ordered
      · exact same inner (by omega) (by omega)
      · rw [same switch (by omega) ordered, crossed]

end Stands

/-- The cursor at a position of a nesting is known to have an element. -/
def Ready (store : Store α) (nesting : Nesting α) (position : Nat) : Prop :=
  ∃ part, nesting.parts[position]? = some part ∧ part.hasNext store = (true, store)

/-- Whether an answer leaves a nesting ready, or at the end. -/
def Answered (store : Store α) (nesting : Nesting α) (position : Nat) (more : Bool) : Prop :=
  match more with
  | true => Ready store nesting position
  | false => position + 1 = nesting.parts.length

theorem Ready.inFront {store : Store α} {front : Nesting α} {position : Nat}
    (ready : Ready store front position) (back : Nesting α) :
    Ready store (.pair front back) position := by
  obtain ⟨part, found, more⟩ := ready
  have inside : position < front.parts.length := (List.getElem?_eq_some_iff.mp found).1
  exact ⟨part, (List.getElem?_append_left inside).trans found, more⟩

theorem Answered.inBack {store : Store α} {back : Nesting α} {position : Nat} {more : Bool}
    (answered : Answered store back position more) (front : Nesting α) :
    Answered store (.pair front back) (front.parts.length + position) more := by
  cases more with
  | false =>
      have last : position + 1 = back.parts.length := answered
      show front.parts.length + position + 1 = (front.parts ++ back.parts).length
      rw [List.length_append, ← last, Nat.add_assoc]
  | true =>
      obtain ⟨part, found, more⟩ := answered
      refine ⟨part, ?_, more⟩
      rw [Nesting.parts, List.getElem?_append_right (Nat.le_add_right _ _), Nat.add_sub_cancel_left]
      exact found

/-- **Asking a nesting is asking its row.** The nesting then stands where the row is. -/
theorem Stands.hasNext {base lower upper : Nat} {nesting : Nesting α} {cursor : Cursor α}
    {store flat : Store α} {position : Nat}
    (stands : Stands store lower nesting cursor upper position) (beyond : base ≤ lower)
    (older : ∀ part ∈ nesting.parts, part.MadeBefore base) (agree : store.AgreeBelow base flat) :
    ∃ more passed store' flat', cursor.hasNext store = (more, store') ∧
      Row.seek (nesting.parts.drop position) flat = (more, passed, flat') ∧
      store'.AgreeBelow base flat' ∧
      Stands store' lower nesting cursor upper (position + passed) ∧
      Answered store' nesting (position + passed) more := by
  induction nesting generalizing lower upper cursor store flat position with
  | single cursor =>
      cases stands with
      | single made ordered =>
          have part : cursor.MadeBefore base := older cursor (List.mem_singleton_self cursor)
          obtain ⟨more, store', flat', asked, askedFlat, after⟩ :=
            (Cursor.confined_hasNext part).both agree
          refine ⟨more, 0, store', flat', asked, ?_, after, .single made ordered, ?_⟩
          · simp only [Nesting.parts, List.drop_zero, Row.seek, askedFlat]
          · cases more with
            | true => exact ⟨cursor, rfl, Cursor.hasNext_again part asked⟩
            | false => rfl
  | pair front back frontAsks backAsks =>
      have olderFront : ∀ part ∈ front.parts, part.MadeBefore base := fun part member =>
        older part (List.mem_append_left back.parts member)
      have olderBack : ∀ part ∈ back.parts, part.MadeBefore base := fun part member =>
        older part (List.mem_append_right front.parts member)
      cases stands with
      | @second _ middle switch _ _ _ first second position made between here crossed ordered =>
          obtain ⟨more, passed, store', flat', asked, sought, after, there, answered⟩ :=
            backAsks here (Nat.le_trans beyond between) olderBack agree
          have still : store'.hasCrossed switch = true := by
            rw [(Cursor.confined_hasNext here.madeBefore).keeps_of_eq asked (Nat.le_refl switch),
              crossed]
          refine ⟨more, passed, store', flat', ?_, ?_, after, ?_, ?_⟩
          · rw [Cursor.hasNext, if_pos crossed, asked]
          · rw [Nesting.parts, List.drop_length_add_append, sought]
          · rw [Nat.add_assoc]
            exact .second made between there still ordered
          · rw [Nat.add_assoc]
            exact answered.inBack front
      | @first _ middle switch _ _ _ first second position here later uncrossed ordered =>
          have inside : position < front.parts.length := here.position_lt
          have reach : (front.parts ++ back.parts).drop position =
              front.parts.drop position ++ back.parts :=
            List.drop_append_of_le_length (Nat.le_of_lt inside)
          have someFront : front.parts.drop position ≠ [] := by
            rw [Ne, List.drop_eq_nil_iff]
            omega
          obtain ⟨more, passed, store', flat', asked, sought, after, there, answered⟩ :=
            frontAsks here beyond olderFront agree
          have keeps : ∀ other, middle ≤ other →
              store'.hasCrossed other = store.hasCrossed other := fun other above =>
            (Cursor.confined_hasNext here.madeBefore).keeps_of_eq asked above
          have waiting : Stands store' middle back second switch 0 :=
            later.congr fun inner above _ => keeps inner above
          cases more with
          | true =>
              refine ⟨true, passed, store', flat', ?_, ?_, after, ?_, answered.inFront back⟩
              · rw [Cursor.hasNext, if_neg (by simp [uncrossed]), asked]
              · rw [Nesting.parts, reach, Row.seek_append _ _ someFront back.parts_ne_nil, sought]
              · refine .first there waiting ?_ ordered
                rw [keeps switch later.le, uncrossed]
          | false =>
              -- The first part is exhausted: the combination goes over and asks the second part.
              have entered : Stands (store'.cross switch) middle back second switch 0 :=
                waiting.congr fun inner _ below => by
                  rw [Store.hasCrossed_cross, if_neg (Nat.ne_of_lt below)]
              have apart : (store'.cross switch).AgreeBelow base flat' :=
                after.cross_left (Nat.le_trans beyond (Nat.le_trans here.le later.le))
              have last : position + passed + 1 = front.parts.length := answered
              obtain ⟨more, further, store'', flat'', askedBack, soughtBack, afterBack, thereBack,
                answeredBack⟩ := backAsks entered (Nat.le_trans beyond here.le) olderBack apart
              have crossed : store''.hasCrossed switch = true := by
                rw [(Cursor.confined_hasNext entered.madeBefore).keeps_of_eq askedBack
                  (Nat.le_refl switch), Store.hasCrossed_cross, if_pos rfl]
              have total :
                  position + (passed + 1 + further) = front.parts.length + (0 + further) := by
                omega
              refine ⟨more, passed + 1 + further, store'', flat'', ?_, ?_, afterBack, ?_, ?_⟩
              · rw [Cursor.hasNext, if_neg (by simp [uncrossed]), asked]
                exact askedBack
              · rw [Nesting.parts, reach, Row.seek_append _ _ someFront back.parts_ne_nil, sought]
                rw [List.drop_zero] at soughtBack
                simp only [soughtBack]
              · rw [total]
                exact .second (here.madeBefore.mono later.le) here.le thereBack crossed ordered
              · rw [total]
                exact answeredBack.inBack front

/-- A nesting that is ready has an element, asking changes nothing, and delivery is that of the
current cursor. -/
theorem Stands.next {store : Store α} {lower upper : Nat} {nesting : Nesting α} {cursor : Cursor α}
    {position : Nat} (stands : Stands store lower nesting cursor upper position) {part : Cursor α}
    (current : nesting.parts[position]? = some part)
    (ready : part.hasNext store = (true, store)) :
    cursor.hasNext store = (true, store) ∧ cursor.next store = part.next store := by
  induction stands with
  | single _ _ =>
      obtain rfl : _ = part := Option.some.inj current
      exact ⟨ready, rfl⟩
  | @first _ _ switch _ front back first second position here _ uncrossed _ frontNext _ =>
      have inFront : front.parts[position]? = some part :=
        (List.getElem?_append_left here.position_lt).symm.trans current
      obtain ⟨asked, delivered⟩ := frontNext inFront
      have more : (Cursor.combined switch first second).hasNext store = (true, store) := by
        rw [Cursor.hasNext, if_neg (by simp [uncrossed]), asked]
      refine ⟨more, ?_⟩
      rw [Cursor.next, more, ← delivered]
      exact if_neg (by simp [uncrossed])
  | @second _ _ switch _ front back first second position _ _ here crossed _ backNext =>
      have inBack : back.parts[position]? = some part := by
        rw [← current, Nesting.parts, List.getElem?_append_right (Nat.le_add_right _ _),
          Nat.add_sub_cancel_left]
      obtain ⟨asked, delivered⟩ := backNext inBack
      have more : (Cursor.combined switch first second).hasNext store = (true, store) := by
        rw [Cursor.hasNext, if_pos crossed, asked]
      refine ⟨more, ?_⟩
      rw [Cursor.next, more, ← delivered]
      exact if_pos crossed

/-- A removal goes to the current cursor. -/
theorem Stands.remove {store : Store α} {lower upper : Nat} {nesting : Nesting α}
    {cursor : Cursor α} {position : Nat}
    (stands : Stands store lower nesting cursor upper position) {part : Cursor α}
    (current : nesting.parts[position]? = some part) :
    cursor.remove store = part.remove store := by
  induction stands with
  | single _ _ =>
      obtain rfl : _ = part := Option.some.inj current
      rfl
  | first here _ uncrossed _ frontRemove _ =>
      rw [Cursor.remove, if_neg (by simp [uncrossed])]
      exact frontRemove ((List.getElem?_append_left here.position_lt).symm.trans current)
  | second _ _ here crossed _ backRemove =>
      rw [Cursor.remove, if_pos crossed]
      apply backRemove
      rw [← current, Nesting.parts, List.getElem?_append_right (Nat.le_add_right _ _),
        Nat.add_sub_cancel_left]

/-! ## Runs -/

/-- A nesting in a store stands where its row is in another store, which holds the same. -/
structure Follows (base : Nat) (nesting : Nesting α) (cursor : Cursor α) (store : Store α)
    (row : Row α) (flat : Store α) : Prop where
  parts : row.parts = nesting.parts
  stands : ∃ upper, Stands store base nesting cursor upper row.position
  agree : store.AgreeBelow base flat

namespace Follows

variable {base : Nat} {nesting : Nesting α} {cursor : Cursor α} {store flat : Store α} {row : Row α}

/-- The current cursor of a row is a part of the nesting that follows it. -/
theorem current (follows : Follows base nesting cursor store row flat) :
    nesting.parts[row.position]? = some row.current := by
  obtain ⟨upper, stands⟩ := follows.stands
  have inside : row.position < nesting.parts.length := stands.position_lt
  rw [Row.current, follows.parts, List.getElem?_eq_getElem inside, Option.getD_some]

/-- An operation of the current cursor keeps the nesting at its position. -/
theorem use {β : Type} {operation : Store α → β × Store α} (confined : Confined base operation)
    (follows : Follows base nesting cursor store row flat) :
    ∃ answer store' flat', operation store = (answer, store') ∧ operation flat = (answer, flat') ∧
      Follows base nesting cursor store' row flat' := by
  obtain ⟨upper, stands⟩ := follows.stands
  obtain ⟨answer, store', flat', used, usedFlat, after⟩ := confined.both follows.agree
  refine ⟨answer, store', flat', used, usedFlat, follows.parts, ⟨upper, ?_⟩, after⟩
  exact stands.congr fun _ above _ => confined.keeps_of_eq used above

/-- Asking a nesting keeps it where its row is, and an element found is at the current cursor. -/
theorem hasNext (follows : Follows base nesting cursor store row flat)
    (older : ∀ part ∈ nesting.parts, part.MadeBefore base) :
    ∃ more row' store' flat', cursor.hasNext store = (more, store') ∧
      row.hasNext flat = (more, row', flat') ∧ Follows base nesting cursor store' row' flat' ∧
      (more = true → row'.current.hasNext store' = (true, store')) := by
  obtain ⟨upper, stands⟩ := follows.stands
  obtain ⟨more, passed, store', flat', asked, sought, after, there, answered⟩ :=
    stands.hasNext (Nat.le_refl base) older follows.agree
  have moved : Follows base nesting cursor store' { row with position := row.position + passed }
      flat' := ⟨follows.parts, ⟨upper, there⟩, after⟩
  refine ⟨more, _, store', flat', asked, ?_, moved, ?_⟩
  · rw [Row.hasNext, follows.parts, sought]
  · rintro rfl
    obtain ⟨part, found, ready⟩ := answered
    obtain rfl : part = _ := Option.some.inj (found.symm.trans moved.current)
    exact ready

/-- **One request to a nesting is one request to its row.** -/
theorem respond (follows : Follows base nesting cursor store row flat)
    (older : ∀ part ∈ nesting.parts, part.MadeBefore base) (request : Cursor.Request) :
    ∃ response row' store' flat', cursor.respond store request = (response, store') ∧
      row.respond flat request = (response, row', flat') ∧
      Follows base nesting cursor store' row' flat' := by
  cases request with
  | hasNext =>
      obtain ⟨more, row', store', flat', asked, askedRow, moved, _⟩ := follows.hasNext older
      refine ⟨.more more, row', store', flat', ?_, ?_, moved⟩
      · rw [Cursor.respond, asked]
        rfl
      · rw [Row.respond, askedRow]
        rfl
  | next =>
      obtain ⟨more, row', store', flat', asked, askedRow, moved, ready⟩ := follows.hasNext older
      obtain ⟨upper, stands⟩ := moved.stands
      have made : cursor.MadeBefore upper := stands.madeBefore
      cases more with
      | false =>
          refine ⟨.delivered (.error .pastEnd), row', store', flat', ?_, ?_, moved⟩
          · rw [Cursor.respond, Cursor.next_of_hasNext_eq_false asked]
            rfl
          · rw [Row.respond, Row.next, askedRow]
            rfl
      | true =>
          have part := older row'.current (List.mem_of_getElem? moved.current)
          obtain ⟨result, last, lastFlat, delivered, deliveredFlat, after⟩ :=
            moved.use (Cursor.confined_next part)
          obtain ⟨upper', start⟩ := follows.stands
          refine ⟨.delivered result, row', last, lastFlat, ?_, ?_, after⟩
          · rw [Cursor.respond, Cursor.next_of_hasNext start.madeBefore asked,
              (stands.next moved.current (ready rfl)).2, delivered]
            rfl
          · rw [Row.respond, Row.next, askedRow]
            simp only [deliveredFlat]
            rfl
  | remove =>
      have part := older row.current (List.mem_of_getElem? follows.current)
      obtain ⟨result, store', flat', removed, removedFlat, after⟩ :=
        follows.use (Cursor.confined_remove part)
      obtain ⟨upper, stands⟩ := follows.stands
      refine ⟨.removed result, row, store', flat', ?_, ?_, after⟩
      · rw [Cursor.respond, stands.remove follows.current, removed]
        rfl
      · rw [Row.respond, Row.remove, removedFlat]
        rfl

/-- **A nesting and its row answer every run alike.** -/
theorem run (follows : Follows base nesting cursor store row flat)
    (older : ∀ part ∈ nesting.parts, part.MadeBefore base) (requests : List Cursor.Request) :
    ∃ responses row' store' flat', cursor.run store requests = (responses, store') ∧
      row.run flat requests = (responses, row', flat') ∧
      Follows base nesting cursor store' row' flat' := by
  induction requests generalizing store row flat with
  | nil => exact ⟨[], row, store, flat, rfl, rfl, follows⟩
  | cons first rest hypothesis =>
      obtain ⟨response, row', store', flat', answered, answeredRow, after⟩ :=
        follows.respond older first
      obtain ⟨responses, row'', store'', flat'', further, furtherRow, last⟩ := hypothesis after
      refine ⟨response :: responses, row'', store'', flat'', ?_, ?_, last⟩
      · rw [Cursor.run, answered]
        simp only [further]
      · rw [Row.run, answeredRow]
        simp only [furtherRow]

end Follows

/-- A nesting that has just been made stands at the start. -/
theorem Nesting.stands_combine (nesting : Nesting α) (store : Store α)
    (older : ∀ part ∈ nesting.parts, part.MadeBefore store.fresh) :
    Stands (nesting.combine store).2 store.fresh nesting (nesting.combine store).1
        (nesting.combine store).2.fresh 0 ∧
      (nesting.combine store).2.AgreeBelow store.fresh store := by
  induction nesting generalizing store with
  | single cursor =>
      have part : cursor.MadeBefore store.fresh := older cursor (List.mem_singleton_self cursor)
      exact ⟨.single part (Nat.le_refl _), .refl _ _⟩
  | pair front back frontStands backStands =>
      obtain ⟨here, agree⟩ := frontStands store fun part member =>
        older part (List.mem_append_left back.parts member)
      simp only [combine, Cursor.combine, Store.allocate]
      rcases made : front.combine store with ⟨first, between⟩
      rw [made] at here agree
      obtain ⟨later, agreeLater⟩ := backStands between fun part member =>
        (older part (List.mem_append_right front.parts member)).mono here.le
      rcases madeLater : back.combine between with ⟨second, last⟩
      rw [madeLater] at later agreeLater
      have below : ∀ other < last.fresh,
          (({ last with fresh := last.fresh + 1 } : Store α).uncross last.fresh).hasCrossed other =
            last.hasCrossed other := fun other older => by
        rw [Store.hasCrossed_uncross, if_neg (Nat.ne_of_lt older)]
        rfl
      have ordered : store.fresh ≤ between.fresh ∧ between.fresh ≤ last.fresh :=
        ⟨here.le, later.le⟩
      refine ⟨.first (here.congr fun other _ older => ?_) (later.congr fun other _ older => ?_) ?_
        (Nat.lt_succ_self _), ?_⟩
      · rw [below other (Nat.lt_of_lt_of_le older ordered.2)]
        exact agreeLater.crossed other older
      · exact below other older
      · rw [Store.hasCrossed_uncross, if_pos rfl]
      · have unchanged : (({ last with fresh := last.fresh + 1 } : Store α).uncross
            last.fresh).AgreeBelow store.fresh last := ⟨rfl, rfl, fun other older =>
          below other (Nat.lt_of_lt_of_le older (Nat.le_trans ordered.1 ordered.2))⟩
        exact unchanged.trans ((agreeLater.mono ordered.1).trans agree)

/-- A cursor in a store answers every run as a row of cursors does in another store. Both leave the
same containers, and the row stays at one of its cursors. -/
def Cursor.ReadsAs (cursor : Cursor α) (store : Store α) (parts : List (Cursor α))
    (flat : Store α) : Prop :=
  ∀ requests : List Cursor.Request,
    (cursor.run store requests).1 = (Row.run ⟨parts, 0⟩ flat requests).1 ∧
      (cursor.run store requests).2.containers =
        (Row.run ⟨parts, 0⟩ flat requests).2.2.containers ∧
      (Row.run ⟨parts, 0⟩ flat requests).2.1.position < parts.length

/-- **A nesting reads as the row of its cursors.** -/
theorem Nesting.readsAs_combine (nesting : Nesting α) (store : Store α)
    (older : ∀ part ∈ nesting.parts, part.MadeBefore store.fresh) :
    (nesting.combine store).1.ReadsAs (nesting.combine store).2 nesting.parts store := by
  intro requests
  obtain ⟨stands, agree⟩ := nesting.stands_combine store older
  have start : Follows store.fresh nesting (nesting.combine store).1 (nesting.combine store).2
      ⟨nesting.parts, 0⟩ store := ⟨rfl, ⟨_, stands⟩, agree⟩
  obtain ⟨responses, row, last, flat, answered, answeredRow, follows⟩ := start.run older requests
  obtain ⟨_, standsLast⟩ := follows.stands
  rw [answered, answeredRow]
  exact ⟨rfl, follows.agree.containers, standsLast.position_lt⟩

/-- **However the same cursors are nested, the combination reads alike.** Two nestings of the same
cursors answer every run alike and leave the same containers, and both read as the row of those
cursors; so do the combination of three and that of four. The cursors may share containers, and a
read-only view among them may hold combinations of its own. -/
theorem nestings_read_alike (left right : Nesting α) (same : left.parts = right.parts)
    (store : Store α) (older : ∀ part ∈ left.parts, part.MadeBefore store.fresh) :
    (∀ requests : List Cursor.Request,
      ((left.combine store).1.run (left.combine store).2 requests).1 =
          ((right.combine store).1.run (right.combine store).2 requests).1 ∧
        ∀ source, ((left.combine store).1.run (left.combine store).2 requests).2.items source =
          ((right.combine store).1.run (right.combine store).2 requests).2.items source) ∧
      (left.combine store).1.ReadsAs (left.combine store).2 left.parts store ∧
      (right.combine store).1.ReadsAs (right.combine store).2 left.parts store ∧
      (∀ first second third, left.parts = [first, second, third] →
        ∃ cursor built, Cursor.combineThree? (some first) (some second) (some third) store =
            (.ok cursor, built) ∧ cursor.ReadsAs built left.parts store) ∧
      (∀ first second third fourth, left.parts = [first, second, third, fourth] →
        ∃ cursor built, Cursor.combineFour? (some first) (some second) (some third) (some fourth)
            store = (.ok cursor, built) ∧ cursor.ReadsAs built left.parts store) := by
  have readsLeft := left.readsAs_combine store older
  have readsRight := right.readsAs_combine store (same ▸ older)
  rw [← same] at readsRight
  refine ⟨fun requests => ⟨?_, fun source => ?_⟩, readsLeft, readsRight, ?_, ?_⟩
  · exact (readsLeft requests).1.trans (readsRight requests).1.symm
  · have containers := (readsLeft requests).2.1.trans (readsRight requests).2.1.symm
    exact congrArg (fun held => (held.get source).items) containers
  · intro first second third shape
    rw [shape] at older ⊢
    exact ⟨_, _, rfl, Nesting.readsAs_combine
      (.pair (.pair (.single first) (.single second)) (.single third)) store older⟩
  · intro first second third fourth shape
    rw [shape] at older ⊢
    exact ⟨_, _, rfl, Nesting.readsAs_combine
      (.pair (.pair (.single first) (.single second)) (.pair (.single third) (.single fourth)))
      store older⟩

/-- Two containers, a place before the first and one behind the second, and the handles up to five
in use. -/
def twoShelves : Store Nat where
  containers := ⟨[{ items := [1, 2] }, { items := [3], places := ⟨[{}, {}, {}, { next := 1 }]⟩ }]⟩
  fresh := 6

/-- A container cursor, a reversed view, and a read-only view of a combination, nested to the
left. -/
def nestedLeft : Nesting Nat :=
  .pair (.pair (.single (.direct 0 2)) (.single (.ofList (.reversed 3 (.direct 1 3)))))
    (.single (.readOnly 5 (.combined 4 (.direct 0 2) .empty)))

/-- The same cursors, nested to the right. -/
def nestedRight : Nesting Nat :=
  .pair (.single (.direct 0 2)) (.pair (.single (.ofList (.reversed 3 (.direct 1 3))))
    (.single (.readOnly 5 (.combined 4 (.direct 0 2) .empty))))

theorem nestings_read_alike_on_shelves :
    nestedLeft.parts = nestedRight.parts ∧
      (∀ part ∈ nestedLeft.parts, part.MadeBefore twoShelves.fresh) ∧
      ∀ requests,
        ((nestedLeft.combine twoShelves).1.run (nestedLeft.combine twoShelves).2 requests).1 =
          ((nestedRight.combine twoShelves).1.run (nestedRight.combine twoShelves).2 requests).1 := by
  have older : ∀ part ∈ nestedLeft.parts, part.MadeBefore twoShelves.fresh := by
    simp [nestedLeft, Nesting.parts, Cursor.MadeBefore, twoShelves]
  refine ⟨rfl, older, fun requests => ?_⟩
  exact ((nestings_read_alike nestedLeft nestedRight rfl twoShelves older).1 requests).1

end Collections
