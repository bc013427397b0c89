import Collections.Bytes

/-!
# Splitting a text

A splitter hands out the pieces of a text one after the other, each up to the next occurrence of
a delimiter, and the rest of the text as the last piece. Delimiters are searched for from the
left and do not overlap. The delimiter is never empty, so each piece leaves less to split.

A splitter stands at a position of its text, where the next piece starts. It never leaves the text:
the position moves behind an occurrence of the delimiter that was found inside
(`Bytes.bounds_of_find?`), so there is always a slice to hand out.

The pieces that a splitter will still hand out are `pieces`; joining them with the delimiter
gives back the text that was split (`joined_piecesOf`).
-/

set_option autoImplicit false

namespace Collections

/-- A split under way. -/
structure Splitter where
  delimiter : Bytes
  subject : Bytes
  /-- Where the next piece starts. -/
  position : Nat := 0
  /-- Whether the last piece has been handed out. -/
  finished : Bool := false
  nonempty : delimiter ≠ [] := by simp
  inside : position ≤ subject.length := by simp

namespace Splitter

instance : Inhabited Splitter := ⟨{ delimiter := [0], subject := [], finished := true }⟩

/-- Start to split a text, if the delimiter is not empty. -/
def start? (delimiter subject : Bytes) : Option Splitter :=
  if nonempty : delimiter ≠ [] then some { delimiter, subject, nonempty } else none

/-- Whether another piece is left. -/
def hasNext (splitter : Splitter) : Bool := !splitter.finished

/-- The next piece, and the splitter after it. -/
def next? (splitter : Splitter) : Option (Bytes × Splitter) :=
  let slice (count : Nat) := Bytes.slice splitter.subject splitter.position count splitter.inside
  if splitter.finished then none
  else
    match hit : Bytes.find? splitter.delimiter splitter.subject splitter.position with
    | none => some (slice splitter.subject.length, { splitter with finished := true })
    | some found =>
        some (slice (found - splitter.position),
          { splitter with
            position := found + splitter.delimiter.length
            inside := (Bytes.bounds_of_find? splitter.inside hit).2 })

theorem next?_eq_none_iff {splitter : Splitter} :
    splitter.next? = none ↔ splitter.hasNext = false := by
  unfold next? hasNext
  dsimp only
  split
  next finished => simp [finished]
  next unfinished => split <;> simp [unfinished]

/-- A bound on the number of pieces that are left. -/
def limit (splitter : Splitter) : Nat :=
  if splitter.finished then 0 else splitter.subject.length - splitter.position + 1

/-- The pieces of a text. -/
def piecesOf (delimiter : Bytes) (nonempty : delimiter ≠ []) (text : Bytes) : List Bytes :=
  match _found : Bytes.cut delimiter text with
  | none => [text]
  | some (piece, after) => piece :: piecesOf delimiter nonempty after
termination_by text.length
decreasing_by exact Bytes.length_lt_of_cut nonempty _found

/-- The part of the text that has not been handed out. -/
def unread (splitter : Splitter) : Bytes := splitter.subject.drop splitter.position

/-- The pieces that a splitter will still hand out. -/
def pieces (splitter : Splitter) : List Bytes :=
  if splitter.finished then [] else piecesOf splitter.delimiter splitter.nonempty splitter.unread

theorem piecesOf_ne_nil (delimiter : Bytes) (nonempty : delimiter ≠ []) (text : Bytes) :
    piecesOf delimiter nonempty text ≠ [] := by
  unfold piecesOf
  split <;> simp

/-- **Joining the pieces with the delimiter gives back the text.** -/
theorem joined_piecesOf (delimiter : Bytes) (nonempty : delimiter ≠ []) (text : Bytes) :
    Bytes.joined delimiter (piecesOf delimiter nonempty text) = text := by
  fun_induction piecesOf delimiter nonempty text with
  | case1 text => rfl
  | case2 text piece after found hypothesis =>
      cases shape : piecesOf delimiter nonempty after with
      | nil => exact absurd shape (piecesOf_ne_nil delimiter nonempty after)
      | cons first others =>
          rw [shape] at hypothesis
          rw [Bytes.joined, hypothesis, Bytes.append_of_cut found]

theorem piecesOf_of_cut_eq_none {delimiter : Bytes} (nonempty : delimiter ≠ []) {text : Bytes}
    (whole : Bytes.cut delimiter text = none) : piecesOf delimiter nonempty text = [text] := by
  unfold piecesOf
  split
  · rfl
  · simp_all

theorem piecesOf_of_cut {delimiter : Bytes} (nonempty : delimiter ≠ [])
    {text piece after : Bytes} (found : Bytes.cut delimiter text = some (piece, after)) :
    piecesOf delimiter nonempty text = piece :: piecesOf delimiter nonempty after := by
  rw [piecesOf]
  split <;> simp_all

/-- The pieces of a text are no more than its bytes, and one. -/
theorem length_piecesOf_le (delimiter : Bytes) (nonempty : delimiter ≠ []) (text : Bytes) :
    (piecesOf delimiter nonempty text).length ≤ text.length + 1 := by
  fun_induction piecesOf delimiter nonempty text with
  | case1 text => simp
  | case2 text piece after found hypothesis =>
      have shorter := Bytes.length_lt_of_cut nonempty found
      rw [List.length_cons]
      omega

/-- Where the delimiter does not occur any more, the rest of the text is the last piece. -/
theorem next?_of_cut_eq_none {splitter : Splitter} (unfinished : splitter.finished = false)
    (whole : Bytes.cut splitter.delimiter splitter.unread = none) :
    splitter.next? = some (splitter.unread, { splitter with finished := true }) := by
  have missed : Bytes.find? splitter.delimiter splitter.subject splitter.position = none := by
    rw [Bytes.find?, ← unread, whole]
    rfl
  have rest : (splitter.subject.drop splitter.position).take splitter.subject.length =
      splitter.unread := List.take_of_length_le (by simp)
  unfold next?
  dsimp only
  rw [if_neg (by simp [unfinished])]
  split
  · rw [Bytes.slice, rest]
  · simp_all

/-- Where it does, the piece before it is handed out, and the splitter goes on behind it. -/
theorem next?_of_cut {splitter : Splitter} (unfinished : splitter.finished = false)
    {piece after : Bytes}
    (parts : Bytes.cut splitter.delimiter splitter.unread = some (piece, after)) :
    ∃ next : Splitter, splitter.next? = some (piece, next) ∧
      next.delimiter = splitter.delimiter ∧ next.subject = splitter.subject ∧
      next.finished = false ∧ next.unread = after := by
  have hit : Bytes.find? splitter.delimiter splitter.subject splitter.position =
      some (splitter.position + piece.length) := by
    rw [Bytes.find?, ← unread, parts]
    rfl
  have whole : piece ++ splitter.delimiter ++ after = splitter.subject.drop splitter.position :=
    Bytes.append_of_cut parts
  have front : (splitter.subject.drop splitter.position).take
      (splitter.position + piece.length - splitter.position) = piece := by
    rw [← whole]
    simp
  have back : splitter.subject.drop
      (splitter.position + piece.length + splitter.delimiter.length) = after := by
    rw [Nat.add_assoc, ← List.drop_drop, ← whole, ← List.length_append, List.drop_left]
  refine ⟨{ splitter with
    position := splitter.position + piece.length + splitter.delimiter.length
    inside := (Bytes.bounds_of_find? splitter.inside hit).2 }, ?_, rfl, rfl, unfinished, back⟩
  unfold next?
  dsimp only
  rw [if_neg (by simp [unfinished])]
  split
  next missed =>
    rw [hit] at missed
    cases missed
  next found here =>
    obtain rfl : splitter.position + piece.length = found := by
      rw [hit] at here
      exact Option.some.inj here
    rw [Bytes.slice, front]

/-- There is another piece as long as one will be handed out. -/
theorem hasNext_eq (splitter : Splitter) : splitter.hasNext = !splitter.pieces.isEmpty := by
  unfold hasNext pieces
  cases finished : splitter.finished with
  | true => rfl
  | false => simp [piecesOf_ne_nil]

/-- **A splitter hands out the first of its pieces, and the others are left.** -/
theorem next?_of_pieces {splitter : Splitter} {piece : Bytes} {others : List Bytes}
    (left : splitter.pieces = piece :: others) :
    ∃ next : Splitter, splitter.next? = some (piece, next) ∧ next.pieces = others ∧
      next.delimiter = splitter.delimiter ∧ next.subject = splitter.subject := by
  unfold pieces at left
  cases unfinished : splitter.finished with
  | true => simp [unfinished] at left
  | false =>
      rw [if_neg (by simp [unfinished])] at left
      cases found : Bytes.cut splitter.delimiter splitter.unread with
      | none =>
          rw [piecesOf_of_cut_eq_none splitter.nonempty found] at left
          obtain ⟨rfl, rfl⟩ := List.cons.inj left
          exact ⟨_, next?_of_cut_eq_none unfinished found, rfl, rfl, rfl⟩
      | some parts =>
          rw [piecesOf_of_cut splitter.nonempty found] at left
          obtain ⟨rfl, rfl⟩ := List.cons.inj left
          obtain ⟨next, delivered, delimiter, subject, unfinishedNext, unread⟩ :=
            next?_of_cut unfinished found
          refine ⟨next, delivered, ?_, delimiter, subject⟩
          rw [pieces, if_neg (by simp [unfinishedNext]), unread]
          simp only [delimiter]

/-- As long as a piece is left, those that are left join to the part of the text that is left. -/
theorem joined_pieces {splitter : Splitter} (more : splitter.pieces ≠ []) :
    Bytes.joined splitter.delimiter splitter.pieces = splitter.unread := by
  unfold pieces at more ⊢
  split
  next finished => simp [finished] at more
  next => exact joined_piecesOf _ _ _

/-- A splitter has no more pieces than its limit. -/
theorem length_pieces_le (splitter : Splitter) : splitter.pieces.length ≤ splitter.limit := by
  unfold pieces limit
  split
  · exact Nat.le_refl 0
  · have bounded := length_piecesOf_le splitter.delimiter splitter.nonempty splitter.unread
    rwa [unread, List.length_drop] at bounded

end Splitter

end Collections
