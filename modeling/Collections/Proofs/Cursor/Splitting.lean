import Collections.Proofs.Cursor.Draining
import Collections.Proofs.Cursor.Requests
import Collections.Proofs.Runs
import Collections.Proofs.Text.GreedySplit
import Mathlib.Data.List.Infix

/-!
# Splitting and joining

A cursor over the pieces of a text hands out the greedy split of the text, and nothing of it can be
removed. What it answers is what a list answers from which elements are taken at the front
(`Cursor.handOut`): there is a next piece until the last one is out, and from then on every delivery
fails. Meanwhile it stands at a position inside the text, and the pieces that are left join to what
lies behind that position (`split_hands_out_greedy_pieces`).

Joining texts and splitting the result need not give back the texts, even if none of them contains
the delimiter: the delimiter may end with its own beginning, and then the end of a text and the
delimiter behind it may form an earlier occurrence. Without such a border it cannot
(`Bytes.Unbordered.closes`), and splitting undoes joining (`split_undoes_join`).
-/

set_option autoImplicit false

namespace Collections

/-! ## Handing out -/

namespace Cursor

variable {α : Type}

/-- Answer a request from a list of elements that are handed out and cannot be removed. -/
def handOut (left : List α) : Request → Response α × List α
  | .hasNext => (.more !left.isEmpty, left)
  | .next =>
      match left with
      | [] => (.delivered (.error .pastEnd), [])
      | item :: rest => (.delivered (.ok item), rest)
  | .remove => (.removed (.error .unsupported), left)

/-- In a store, a cursor over the pieces of a text has some pieces left to hand out. -/
structure Left (delimiter subject : Bytes) (slot : Handle) (store : Store α)
    (pieces : List Bytes) : Prop where
  pieces : (store.splitters.get slot).pieces = pieces
  delimiter : (store.splitters.get slot).delimiter = delimiter
  subject : (store.splitters.get slot).subject = subject

/-- A request to a cursor over pieces is answered from the list of those that are left. -/
theorem Left.respond {delimiter subject : Bytes} {slot : Handle} {store : Store Bytes}
    {pieces : List Bytes} (left : Left delimiter subject slot store pieces) (request : Request) :
    ((Cursor.pieces slot id).respond store request).1 = (handOut pieces request).1 ∧
      Left delimiter subject slot ((Cursor.pieces slot id).respond store request).2
        (handOut pieces request).2 := by
  cases request with
  | hasNext =>
      refine ⟨congrArg Response.more ?_, left⟩
      show (store.splitters.get slot).hasNext = _
      rw [Splitter.hasNext_eq, left.pieces]
  | remove => exact ⟨rfl, left⟩
  | next =>
      cases pieces with
      | nil =>
          have nothing : (store.splitters.get slot).next? = none := by
            rw [Splitter.next?_eq_none_iff, Splitter.hasNext_eq, left.pieces]
            rfl
          rw [Cursor.respond, Cursor.next, nothing]
          exact ⟨rfl, left⟩
      | cons piece others =>
          obtain ⟨splitter, delivered, rest, delimiter, subject⟩ :=
            Splitter.next?_of_pieces left.pieces
          rw [Cursor.respond, Cursor.next, delivered]
          refine ⟨rfl, ?_, ?_, ?_⟩
          · show ((store.splitters.set slot splitter).get slot).pieces = others
            rw [Table.get_set_self, rest]
          · show ((store.splitters.set slot splitter).get slot).delimiter = _
            rw [Table.get_set_self, delimiter, left.delimiter]
          · show ((store.splitters.set slot splitter).get slot).subject = _
            rw [Table.get_set_self, subject, left.subject]

end Cursor

/-! ## Splitting -/

/-- A text can be split at any delimiter that is not empty. -/
theorem Sequence.split?_eq (delimiter subject : Bytes) (nonempty : delimiter ≠ [])
    (store : Store Bytes) :
    Sequence.split? delimiter subject id store =
      (.ok (.pieces store.fresh { delimiter, subject, nonempty, inside := Nat.zero_le _ } id),
        { store with fresh := store.fresh + 1 }) := by
  rw [Sequence.split?, Splitter.start?, dif_pos nonempty]
  rfl

/-- **Splitting a text loses nothing and is greedy.** The pieces are the only greedy split of the
text, and joining them gives it back. In any run of requests the cursor over them answers as a list
from which pieces are taken at the front: there is a next one exactly until the last one is out, and
then every delivery fails. All the while the cursor stands at a position inside the text, and the
pieces that are left join to what lies behind it. -/
theorem split_hands_out_greedy_pieces (delimiter subject : Bytes) (nonempty : delimiter ≠ [])
    (store : Store Bytes) :
    ∃ (sequence : Sequence Bytes) (made opened : Store Bytes) (slot : Handle)
      (pieces : List Bytes),
      Sequence.split? delimiter subject id store = (.ok sequence, made) ∧
      sequence.cursor made = (.pieces slot id, opened) ∧
      (∀ others, Bytes.GreedySplit delimiter subject others ↔ others = pieces) ∧
      ((Cursor.pieces slot id).toArray opened).1 = .ok pieces ∧
      ((Cursor.pieces slot id).join delimiter id opened).1 = .ok subject ∧
      ∀ requests : List Cursor.Request,
        let walked := (Cursor.pieces slot id).run opened requests
        let handed := serve Cursor.handOut pieces requests
        let splitter := walked.2.splitters.get slot
        walked.1 = handed.1 ∧
          splitter.hasNext = !handed.2.isEmpty ∧
          splitter.position ≤ subject.length ∧
          (handed.2 ≠ [] → Bytes.joined delimiter handed.2 = subject.drop splitter.position) := by
  let start : Splitter := { delimiter, subject, nonempty }
  let opened : Store Bytes :=
    { store with
      fresh := store.fresh + 2
      splitters := store.splitters.set (store.fresh + 1) start }
  have left : Cursor.Left delimiter subject (store.fresh + 1) opened start.pieces := by
    constructor <;> simp only [opened, Table.get_set_self] <;> rfl
  have whole : start.pieces = Splitter.piecesOf delimiter nonempty subject := rfl
  refine ⟨.pieces store.fresh start id, _, opened, store.fresh + 1, start.pieces,
    Sequence.split?_eq delimiter subject nonempty store, rfl, fun others => ?_, ?_, ?_,
    fun requests => ?_⟩
  · rw [whole]
    exact Bytes.greedySplit_iff nonempty
  · obtain ⟨after, toArray⟩ := Cursor.toArray_pieces opened (store.fresh + 1) id
    rw [toArray, List.map_id, left.pieces]
  · obtain ⟨after, join⟩ := Cursor.join_pieces opened (store.fresh + 1) id delimiter id
    rw [join, List.map_id, List.map_id, left.pieces, whole, Splitter.joined_piecesOf]
  · intro walked handed splitter
    have served : walked = serve (Cursor.pieces (store.fresh + 1) id).respond opened requests :=
      Cursor.run_eq_serve _ _ _
    have keeps : ∀ {store : Store Bytes} {pieces : List Bytes} {slot : Handle}
        (request : Cursor.Request), Cursor.Left delimiter subject slot store pieces →
          ((Cursor.pieces slot id).respond store request).1 = (Cursor.handOut pieces request).1 ∧
            Cursor.Left delimiter subject slot
              ((Cursor.pieces slot id).respond store request).2
              (Cursor.handOut pieces request).2 :=
      fun request left => left.respond request
    obtain ⟨answers, last⟩ := serve_eq keeps left requests
    rw [← served] at answers last
    refine ⟨answers, ?_, ?_, fun more => ?_⟩
    · rw [Splitter.hasNext_eq, last.pieces]
    · rw [← last.subject]
      exact splitter.inside
    · have some : splitter.pieces ≠ [] := by
        rw [last.pieces]
        exact more
      have joined := Splitter.joined_pieces some
      rw [last.pieces, last.delimiter, Splitter.unread, last.subject] at joined
      exact joined

/-- The pieces of a text in which the delimiter overlaps itself. -/
theorem split_hands_out_greedy_pieces_of_overlaps :
    let delimiter : Bytes := [97, 97]
    let subject : Bytes := [97, 97, 97, 98, 97, 97]
    delimiter ≠ [] ∧
      ∃ sequence made,
        Sequence.split? delimiter subject id {} = (.ok sequence, made) ∧
          Bytes.GreedySplit delimiter subject [[], [97, 98], []] ∧
          ((sequence.cursor made).1.toArray (sequence.cursor made).2).1 =
            .ok [[], [97, 98], []] := by
  intro delimiter subject
  refine ⟨List.cons_ne_nil _ _, ?_⟩
  obtain ⟨sequence, made, opened, slot, pieces, split, cursor, greedy, toArray, -⟩ :=
    split_hands_out_greedy_pieces delimiter subject (List.cons_ne_nil _ _) {}
  have overlaps : Bytes.GreedySplit delimiter subject [[], [97, 98], []] := by
    have first : Bytes.cut delimiter subject = some ([], [97, 98, 97, 97]) := rfl
    have second : Bytes.cut delimiter [97, 98, 97, 97] = some ([97, 98], []) := rfl
    have third : Bytes.cut delimiter [] = none := rfl
    refine (Bytes.greedySplit_iff (List.cons_ne_nil _ _)).mpr ?_
    rw [Splitter.piecesOf_of_cut _ first, Splitter.piecesOf_of_cut _ second,
      Splitter.piecesOf_of_cut_eq_none _ third]
  obtain rfl := (greedy _).mp overlaps
  exact ⟨sequence, made, split, overlaps, by rw [cursor]; exact toArray⟩

/-! ## Joining and splitting -/

namespace Bytes

/-- No proper and non-empty part of a text is both its beginning and its end. -/
def Unbordered (text : Bytes) : Prop :=
  ∀ border, border ≠ [] → border ≠ text → border <+: text → ¬ border <:+ text

instance (text : Bytes) : Decidable (Unbordered text) :=
  decidable_of_iff
    (∀ border ∈ text.inits, border ≠ [] → border ≠ text → ¬ border <:+ text) <| by
      simp only [List.mem_inits]
      exact ⟨fun none border some proper start => none border start some proper,
        fun none border start some proper => none border some proper start⟩

/-- A single byte has no border. -/
theorem unbordered_singleton (byte : UInt8) : Unbordered [byte] := by
  intro border some proper start _
  rcases List.prefix_cons_iff.mp start with rfl | ⟨rest, rfl, inner⟩
  · exact some rfl
  · rw [List.prefix_nil.mp inner] at proper
    exact proper rfl

variable {delimiter piece : Bytes}

/-- **A delimiter without border closes every text that does not contain it.** -/
theorem Unbordered.closes (unbordered : Unbordered delimiter) (free : ¬ delimiter <:+: piece) :
    Closes delimiter piece := by
  intro before after equal
  rcases List.append_eq_append_iff.mp equal with ⟨rest, inPiece, -⟩ | ⟨border, across, ending⟩
  · -- The occurrence ends inside the piece.
    exact absurd ⟨before, rest, inPiece.symm⟩ free
  · rcases List.append_eq_append_iff.mp across with
      ⟨rest, inPiece, starting⟩ | ⟨rest, longer, inside⟩
    · -- It begins inside the piece and ends in the delimiter, so a part of it is a border.
      by_cases empty : border = []
      · subst empty
        rw [List.append_nil] at starting
        exact absurd ⟨before, [], by rw [List.append_nil, inPiece, starting]⟩ free
      · by_cases whole : border = delimiter
        · subst whole
          have none : rest = [] := List.eq_nil_of_length_eq_zero
            (by have lengths := congrArg List.length starting
                rw [List.length_append] at lengths
                omega)
          rw [inPiece, none, List.append_nil]
        · exact absurd ⟨rest, starting.symm⟩
            (unbordered border empty whole ⟨after, ending.symm⟩)
    · -- It begins behind the piece, where only the delimiter itself fits.
      have lengths := congrArg List.length ending
      rw [inside, List.length_append, List.length_append] at lengths
      have none : rest = [] := List.eq_nil_of_length_eq_zero (by omega)
      rw [longer, none, List.append_nil]

/-- Texts without the delimiter are the greedy split of what they are joined to. -/
theorem Unbordered.greedySplit (unbordered : Unbordered delimiter) {pieces : List Bytes}
    (some : pieces ≠ []) (free : ∀ piece ∈ pieces, ¬ delimiter <:+: piece) :
    GreedySplit delimiter (joined delimiter pieces) pieces where
  joined := rfl
  nonempty := some
  last piece last := free piece (List.mem_of_getLast? last)
  others piece member := unbordered.closes (free piece (List.dropLast_subset pieces member))

end Bytes

/-- **Splitting undoes joining** if the delimiter has no border, as is the case for every single
byte: texts that do not contain it, some of them possibly empty, are joined through a cursor, and
splitting the result gives them back in order and number. -/
theorem split_undoes_join :
    (∀ byte : UInt8, Bytes.Unbordered [byte]) ∧
      ∀ (delimiter : Bytes), delimiter ≠ [] → Bytes.Unbordered delimiter →
        ∀ (store : Store Bytes) (source : Handle), store.items source ≠ [] →
          (∀ piece ∈ store.items source, ¬ delimiter <:+: piece) →
          ∃ (text : Bytes) (read : Store Bytes) (sequence : Sequence Bytes) (made : Store Bytes),
            (store.cursorOver source).1.join delimiter id (store.cursorOver source).2 =
                (.ok text, read) ∧
              Sequence.split? delimiter text id read = (.ok sequence, made) ∧
              ((sequence.cursor made).1.toArray (sequence.cursor made).2).1 =
                .ok (store.items source) := by
  refine ⟨Bytes.unbordered_singleton, ?_⟩
  intro delimiter nonempty unbordered store source some free
  obtain ⟨read, join⟩ := Cursor.join_cursorOver store source delimiter id
  rw [List.map_id] at join
  obtain ⟨sequence, made, opened, slot, pieces, split, cursor, greedy, toArray, -⟩ :=
    split_hands_out_greedy_pieces delimiter _ nonempty read
  obtain rfl := (greedy _).mp (unbordered.greedySplit some free)
  exact ⟨_, read, sequence, made, join, split, by rw [cursor]; exact toArray⟩

/-- The pieces of the text that would be read wrongly if a piece and a delimiter could make another
delimiter. -/
theorem split_undoes_join_on_straddled :
    let delimiter : Bytes := [97, 98]
    let pieces : List Bytes := [[97], [], [98]]
    let store : Store Bytes := { containers := ⟨[{ items := pieces }]⟩, fresh := 1 }
    (delimiter ≠ [] ∧ Bytes.Unbordered delimiter ∧ store.items 0 ≠ [] ∧
        ∀ piece ∈ store.items 0, ¬ delimiter <:+: piece) ∧
      ∃ text read sequence made,
        (store.cursorOver 0).1.join delimiter id (store.cursorOver 0).2 = (.ok text, read) ∧
          Sequence.split? delimiter text id read = (.ok sequence, made) ∧
          ((sequence.cursor made).1.toArray (sequence.cursor made).2).1 = .ok pieces := by
  intro delimiter pieces store
  have unbordered : Bytes.Unbordered delimiter := by decide
  have free : ∀ piece ∈ store.items 0, ¬ delimiter <:+: piece := by decide
  exact ⟨⟨List.cons_ne_nil _ _, unbordered, List.cons_ne_nil _ _, free⟩,
    split_undoes_join.2 delimiter (List.cons_ne_nil _ _) unbordered store 0
      (List.cons_ne_nil _ _) free⟩

/-- With a border the law fails: two texts without the delimiter are joined, and other ones are read
back. -/
example : ¬ Bytes.Unbordered [97, 98, 97] ∧
    Bytes.joined [97, 98, 97] [[97, 98], []] = Bytes.joined [97, 98, 97] [[], [98, 97]] ∧
    Bytes.cut [97, 98, 97] (Bytes.joined [97, 98, 97] [[97, 98], []]) = some ([], [98, 97]) := by
  decide

end Collections
