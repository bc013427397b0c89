import Collections.Cursor.Consuming

/-!
# Programs over named cursors

A program is a list of steps over named containers and named registers. A register holds a
cursor, a list cursor or a sequence, or nothing of one of these kinds. A step that makes
something stores it under a name and answers whether it is there; every other step answers what
its operation answers.

A step asks either to be told of a failure or to be thrown out by it. Both ways it gives the same
cause. A step that makes something and is only told of the failure stores nothing under its name;
one that is thrown out leaves the register as it was.

A step is refused when it names what does not exist, or uses it for what it is not
(`Session.step?`).
-/

set_option autoImplicit false

namespace Collections

/-- The name of a container or a register. -/
abbrev Name := Bytes

/-- How a container is laid out. -/
inductive Layout where
  /-- Elements in a row. -/
  | array
  /-- Elements that know their neighbours. -/
  | linked
  /-- Sorted elements that know their neighbours, each only once. -/
  | sorted
  deriving DecidableEq, Repr

/-- How a failing operation reports. -/
inductive Reporting where
  | told
  | thrown
  deriving DecidableEq, Repr

/-- Insert into a sorted list, unless the element is there. -/
def insertSorted {α : Type} [Ord α] (item : α) : List α → List α
  | [] => [item]
  | first :: rest =>
      match compare item first with
      | .lt => item :: first :: rest
      | .eq => first :: rest
      | .gt => first :: insertSorted item rest

/-- The elements in ascending order, each once. -/
def sortedDistinct {α : Type} [Ord α] (items : List α) : List α :=
  items.foldl (fun sorted item => insertSorted item sorted) []

namespace Container

variable {α : Type} [Ord α]

/-- A container of a layout, filled with elements in order. -/
def ofItems (layout : Layout) (items : List α) : Container α :=
  match layout with
  | .array => { items }
  | .linked => { grip := .element, items }
  | .sorted => { grip := .element, items := sortedDistinct items }

end Container

namespace Cursor.Program

/-- What a register can hold. -/
inductive Held (α : Type) where
  | cursor (value : Cursor α)
  | listCursor (value : ListCursor)
  | sequence (value : Sequence α)

/-- What there is to traverse. -/
inductive Kind where
  | cursor
  | sequence
  deriving DecidableEq, Repr

/-- An operation on the cursor in a register. -/
inductive Move (α : Type) where
  | hasNext
  | next
  | hasPrevious
  | previous
  | nextIndex
  | previousIndex
  | isReversed
  | remove
  | set (item : α)
  | add (item : α)
  deriving Repr

/-- An operation that makes something. An absent name stands for nothing. -/
inductive Making (α : Type) where
  | cursorOver (source : Name)
  | listCursorOver (source : Name) (start : Nat)
  | sequenceOver (source : Name)
  | reverse (source : Option Name)
  | reverseList (source : Option Name)
  | reverseListCursor (source : Name)
  | reversedSource (source : Name)
  | combine (kind : Kind) (parts : List (Option Name))
  | split (delimiter subject : Bytes) (read : Bytes → α)
  | emptyCursor
  | emptySequence
  | guarded (source : Option Name)
  | loop (source : Option Name)
  | readOnly (source : Option Name)
  | cursorOf (source : Name)
  | asListCursor (source : Option Name)

/-- A step of a program. -/
inductive Step (α : Type) where
  | container (name : Name) (layout : Layout) (items : List α)
  | dump
  | make (name : Name) (making : Making α)
  | join (separator : Bytes) (source : Option Name)
  | toArray (source : Option Name)
  | toArrayReversed (source : Option Name)
  | same (left right : Option Name)
  | collect (source : Name)
  | take (source : Name) (count : Nat)
  | move (target : Name) (move : Move α)

/-- What a step answers. -/
inductive Answer (α : Type) where
  | flag (value : Bool)
  | index (value : Int)
  | size (value : Nat)
  | item (value : α)
  | items (values : List α)
  | text (value : Bytes)
  | contents (values : List (Name × List α))
  | failed (cause : CursorError)
  /-- The outcome of an edit, and the contents of all containers after it. -/
  | edited (result : Except CursorError Unit) (contents : List (Name × List α))

/-- Names for the containers of a store, and for registers, each of which may hold nothing. -/
structure Session (α : Type) where
  store : Store α := {}
  containers : List (Name × Handle) := []
  registers : List (Name × Option (Held α)) := []

namespace Session

variable {α : Type}

/-- Bind a name, in place of a former binding. -/
def bind {β : Type} (name : Name) (value : β) (bindings : List (Name × β)) : List (Name × β) :=
  (name, value) :: bindings.filter (·.1 != name)

def container? (session : Session α) (name : Name) : Option Handle :=
  session.containers.lookup name

def hold (session : Session α) (name : Name) (held : Option (Held α)) : Session α :=
  { session with registers := bind name held session.registers }

/-- The contents of all named containers. -/
def contents (session : Session α) : List (Name × List α) :=
  session.containers.map fun (name, source) => (name, session.store.items source)

/-! ## Operands -/

/-- What an operand is: nothing, when its name is absent or the register holds nothing. -/
def operand? (session : Session α) : Option Name → Option (Option (Held α))
  | none => some none
  | some name => session.registers.lookup name

/-- An operand that is a cursor, or nothing. A list cursor is a cursor. -/
def cursorOperand? (session : Session α) (name : Option Name) : Option (Option (Cursor α)) := do
  match ← session.operand? name with
  | none => some none
  | some (.cursor value) => some (some value)
  | some (.listCursor value) => some (some (.ofList value))
  | some (.sequence _) => none

/-- An operand that is a list cursor, or nothing. -/
def listCursorOperand? (session : Session α) (name : Option Name) :
    Option (Option ListCursor) := do
  match ← session.operand? name with
  | none => some none
  | some (.listCursor value) => some (some value)
  | some _ => none

/-- An operand that is a sequence, or nothing. -/
def sequenceOperand? (session : Session α) (name : Option Name) :
    Option (Option (Sequence α)) := do
  match ← session.operand? name with
  | none => some none
  | some (.sequence value) => some (some value)
  | some _ => none

/-- A cursor to read: a cursor itself, or one of a sequence. -/
def readable (store : Store α) : Held α → Cursor α × Store α
  | .cursor value => (value, store)
  | .listCursor value => (.ofList value, store)
  | .sequence value => value.cursor store

/-- The identity of what a register holds. All empty cursors share one identity, and so do all
empty sequences. -/
def identity : Held α → Kind × Option Handle
  | .cursor value => (.cursor, value.handle?)
  | .listCursor value => (.cursor, some value.handle)
  | .sequence value => (.sequence, value.handle?)

/-! ## Making -/

/-- What a making step gives: what a register is to hold, and the store after it. -/
abbrev Made (α : Type) := Outcome α (Option (Held α))

def madeCursor : Outcome α (Cursor α) → Made α
  | (.ok cursor, store) => (.ok (some (.cursor cursor)), store)
  | (.error cause, store) => (.error cause, store)

def madeSequence : Outcome α (Sequence α) → Made α
  | (.ok sequence, store) => (.ok (some (.sequence sequence)), store)
  | (.error cause, store) => (.error cause, store)

/-- Combine two to four cursors. -/
def combineCursors? (parts : List (Option (Cursor α))) (store : Store α) : Option (Made α) :=
  match parts with
  | [first, second] => some (madeCursor (Cursor.combine? first second store))
  | [first, second, third] => some (madeCursor (Cursor.combineThree? first second third store))
  | [first, second, third, fourth] =>
      some (madeCursor (Cursor.combineFour? first second third fourth store))
  | _ => none

/-- Combine two to four sequences. -/
def combineSequences? (parts : List (Option (Sequence α))) (store : Store α) :
    Option (Made α) :=
  match parts with
  | [first, second] => some (madeSequence (Sequence.combine? first second store))
  | [first, second, third] =>
      some (madeSequence (Sequence.combineThree? first second third store))
  | [first, second, third, fourth] =>
      some (madeSequence (Sequence.combineFour? first second third fourth store))
  | _ => none

/-- Carry out a making operation, or refuse it. -/
def make? (session : Session α) (making : Making α) : Option (Made α) :=
  let store := session.store
  match making with
  | .cursorOver source => do
      let source ← session.container? source
      let (cursor, store) := store.cursorOver source
      return (.ok (some (.cursor cursor)), store)
  | .listCursorOver source start => do
      let source ← session.container? source
      if (store.items source).length < start then none
      let (cursor, store) := store.listCursorOver source start
      return (.ok (some (.listCursor cursor)), store)
  | .sequenceOver source => do
      let source ← session.container? source
      let (sequence, store) := Sequence.make (.forward · source) store
      return (.ok (some (.sequence sequence)), store)
  | .reverse source => do
      match ← session.listCursorOperand? source with
      | none => return (.error .firstNull, store)
      | some cursor =>
          let (cursor, store) := cursor.reverse store
          return (.ok (some (.listCursor cursor)), store)
  | .reverseList none => some (.error .firstNull, store)
  | .reverseList (some source) => do
      let source ← session.container? source
      let (sequence, store) := Sequence.make (.backward · source) store
      return (.ok (some (.sequence sequence)), store)
  | .reverseListCursor source => do
      let source ← session.container? source
      let (cursor, store) := store.backwardCursorOver source
      return (.ok (some (.listCursor cursor)), store)
  | .reversedSource source => do
      let cursor ← (← session.listCursorOperand? (some source))
      return (.ok (cursor.reversedSource?.map .listCursor), store)
  | .combine .cursor parts => do
      combineCursors? (← parts.mapM session.cursorOperand?) store
  | .combine .sequence parts => do
      combineSequences? (← parts.mapM session.sequenceOperand?) store
  | .split delimiter subject read =>
      some (madeSequence (Sequence.split? delimiter subject read store))
  | .emptyCursor => some (.ok (some (.cursor .empty)), store)
  | .emptySequence => some (.ok (some (.sequence .empty)), store)
  | .guarded source => do
      match ← session.sequenceOperand? source with
      | none => return (.error .firstNull, store)
      | some sequence =>
          let (sequence, store) := Sequence.make (.guarded · sequence) store
          return (.ok (some (.sequence sequence)), store)
  | .loop source => do
      match ← session.cursorOperand? source with
      | none => return (.error .firstNull, store)
      | some cursor =>
          let (sequence, store) := Sequence.make (.loop · cursor) store
          return (.ok (some (.sequence sequence)), store)
  | .readOnly source => do
      match ← session.cursorOperand? source with
      | none => return (.error .firstNull, store)
      | some cursor =>
          let (view, store) := store.allocate
          return (.ok (some (.cursor (.readOnly view cursor))), store)
  | .cursorOf source => do
      let sequence ← (← session.sequenceOperand? (some source))
      let (cursor, store) := sequence.cursor store
      return (.ok (some (.cursor cursor)), store)
  | .asListCursor source => do
      let cursor ← session.cursorOperand? source
      return (.ok ((cursor.bind Cursor.asList?).map .listCursor), store)

/-! ## Moves -/

/-- Carry out an operation on a list cursor. -/
def moveList (session : Session α) (cursor : ListCursor) : Move α → Session α × Answer α
  | .hasNext => (session, .flag (cursor.hasNext session.store))
  | .hasPrevious => (session, .flag (cursor.hasPrevious session.store))
  | .next => delivered (cursor.next session.store)
  | .previous => delivered (cursor.previous session.store)
  | .nextIndex => (session, .index (cursor.nextIndex session.store))
  | .previousIndex => (session, .index (cursor.previousIndex session.store))
  | .isReversed => (session, .flag cursor.isReversed)
  | .remove => edited (cursor.remove session.store)
  | .set item => edited (cursor.set item session.store)
  | .add item => edited (cursor.add item session.store)
where
  delivered : Outcome α α → Session α × Answer α
    | (.ok item, store) => ({ session with store }, .item item)
    | (.error cause, store) => ({ session with store }, .failed cause)
  edited : Outcome α Unit → Session α × Answer α
    | (result, store) =>
        let session := { session with store }
        (session, .edited result session.contents)

/-- Carry out an operation on a cursor, or refuse it when only list cursors have it. -/
def moveCursor? (session : Session α) (cursor : Cursor α) : Move α → Option (Session α × Answer α)
  | .hasNext =>
      let (more, store) := cursor.hasNext session.store
      some ({ session with store }, .flag more)
  | .next =>
      match cursor.next session.store with
      | (.ok item, store) => some ({ session with store }, .item item)
      | (.error cause, store) => some ({ session with store }, .failed cause)
  | .remove =>
      let (result, store) := cursor.remove session.store
      let session := { session with store }
      some (session, .edited result session.contents)
  | _ => none

/-! ## Steps -/

/-- The answer to a reading that gives a value or a cause. -/
def answered {β : Type} (session : Session α) (answer : β → Answer α) :
    Outcome α β → Session α × Answer α
  | (.ok value, store) => ({ session with store }, answer value)
  | (.error cause, store) => ({ session with store }, .failed cause)

/-- Carry out a step, or refuse it. -/
def step? [Ord α] (render : α → Bytes) (session : Session α) (reporting : Reporting) :
    Step α → Option (Session α × Answer α)
  | .container name layout items =>
      let container := Container.ofItems layout items
      let (source, store) := session.store.addContainer container
      some ({ session with store, containers := bind name source session.containers },
        .size container.items.length)
  | .dump => some (session, .contents session.contents)
  | .make name making => do
      match ← session.make? making with
      | (.ok held, store) => return ({ session with store }.hold name held, .flag held.isSome)
      | (.error cause, store) =>
          let session := { session with store }
          match reporting with
          | .told => return (session.hold name none, .failed cause)
          | .thrown => return (session, .failed cause)
  | .join separator source => do
      match ← session.operand? source with
      | none => return (session, .failed .secondNull)
      | some held =>
          let (cursor, store) := readable session.store held
          return answered session .text (cursor.join separator render store)
  | .toArray source => do
      match ← session.cursorOperand? source with
      | none => return (session, .failed .firstNull)
      | some cursor => return answered session .items (cursor.toArray session.store)
  | .toArrayReversed source => do
      match ← session.cursorOperand? source with
      | none => return (session, .failed .firstNull)
      | some cursor => return answered session .items (cursor.toArrayReversed session.store)
  | .same left right => do
      let left ← session.operand? left
      let right ← session.operand? right
      return (session, .flag (left.map identity == right.map identity))
  | .collect source => do
      let (cursor, store) := readable session.store (← (← session.operand? (some source)))
      return answered session .items (cursor.collect store)
  | .take source count => do
      let (cursor, store) := readable session.store (← (← session.operand? (some source)))
      return answered session .items (cursor.takeAhead count store)
  | .move target move => do
      match ← (← session.operand? (some target)) with
      | .listCursor cursor => return session.moveList cursor move
      | .cursor cursor => session.moveCursor? cursor move
      | .sequence _ => none

end Session

/-- Run a program from the start, or refuse it. -/
def run? {α : Type} [Ord α] (render : α → Bytes) (steps : List (Step α × Reporting)) :
    Option (List (Answer α × Reporting)) :=
  go {} steps
where
  go (session : Session α) : List (Step α × Reporting) → Option (List (Answer α × Reporting))
    | [] => some []
    | (step, reporting) :: rest => do
        let (session, answer) ← session.step? render reporting step
        return (answer, reporting) :: (← go session rest)

end Cursor.Program

end Collections
