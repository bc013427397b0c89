import Collections.Cursor.Splitter

/-!
# Greedy splits

A text can be cut into pieces with a delimiter between neighbours in several ways when the delimiter
overlaps itself. One of them is greedy (`GreedySplit`): the last piece does not contain the
delimiter, and behind any other piece the delimiter occurs there for the first time
(`Closes`).

Cutting at the first occurrence of a delimiter finds a piece that the delimiter closes, and finds
it wherever it is (`cut_eq_some_iff`). So the pieces of a splitter are the greedy split of its text,
and there is no other one (`greedySplit_iff`).
-/

set_option autoImplicit false

namespace Collections

namespace Bytes

variable {delimiter text piece before after : Bytes}

/-! ## First occurrences -/

/-- In a piece with the delimiter behind it, the delimiter occurs at the end and nowhere else. -/
def Closes (delimiter piece : Bytes) : Prop :=
  ∀ before after, before ++ delimiter ++ after = piece ++ delimiter → before = piece

theorem closes_nil (delimiter : Bytes) : Closes delimiter [] := by
  intro before after equal
  have lengths := congrArg List.length equal
  simp only [List.length_append, List.length_nil, Nat.zero_add] at lengths
  exact List.length_eq_zero_iff.mp (by omega)

/-- What is closed in front of a byte is closed with the byte if the delimiter does not occur
there. -/
theorem closes_cons_iff {byte : UInt8} :
    Closes delimiter (byte :: piece) ↔
      ¬ delimiter <+: byte :: piece ++ delimiter ∧ Closes delimiter piece := by
  constructor
  · intro closes
    refine ⟨fun ⟨after, starts⟩ => ?_, fun before after equal => ?_⟩
    · exact absurd (closes [] after starts) (by simp)
    · exact (List.cons.inj (closes (byte :: before) after (congrArg (byte :: ·) equal))).2
  · rintro ⟨notHere, closes⟩ before after equal
    cases before with
    | nil => exact absurd ⟨after, equal⟩ notHere
    | cons first rest =>
        obtain ⟨rfl, tails⟩ := List.cons.inj equal
        rw [closes rest after tails]

/-- **A cut is made at the first occurrence of the delimiter, wherever that is.** -/
theorem cut_eq_some_iff :
    cut delimiter text = some (piece, after) ↔
      Closes delimiter piece ∧ piece ++ delimiter ++ after = text := by
  induction text generalizing piece with
  | nil =>
      unfold cut
      cases delimiter with
      | nil =>
          simp only [List.isEmpty_nil, if_true, Option.some.injEq, Prod.mk.injEq,
            List.append_nil, List.append_eq_nil_iff]
          constructor
          · rintro ⟨rfl, rfl⟩
            exact ⟨closes_nil [], rfl, rfl⟩
          · rintro ⟨-, rfl, rfl⟩
            exact ⟨rfl, rfl⟩
      | cons byte rest => simp
  | cons byte rest hypothesis =>
      unfold cut
      split
      next starts =>
        obtain ⟨tail, whole⟩ := List.isPrefixOf_iff_prefix.mp starts
        simp only [← whole, List.drop_left, Option.some.injEq, Prod.mk.injEq]
        constructor
        · rintro ⟨rfl, rfl⟩
          exact ⟨closes_nil delimiter, rfl⟩
        · rintro ⟨closes, equal⟩
          -- The delimiter occurs at the front, so nothing stands before its first occurrence.
          have front : [] = piece := by
            refine closes [] (List.drop delimiter.length (piece ++ delimiter)) ?_
            have fits : delimiter <+: piece ++ delimiter := by
              refine List.prefix_of_prefix_length_le ⟨tail, rfl⟩ ⟨after, equal⟩ ?_
              simp
            exact List.prefix_iff_eq_append.mp fits
          subst front
          exact ⟨rfl, (List.append_cancel_left equal).symm⟩
      next differs =>
        have notHere : ¬ delimiter <+: byte :: rest := fun starts =>
          differs (List.isPrefixOf_iff_prefix.mpr starts)
        cases piece with
        | nil =>
            constructor
            · intro found
              obtain ⟨parts, -, equal⟩ := Option.map_eq_some_iff.mp found
              cases equal
            · rintro ⟨-, equal⟩
              exact absurd ⟨after, equal⟩ notHere
        | cons first inner =>
            rw [closes_cons_iff]
            constructor
            · intro found
              obtain ⟨parts, cutRest, equal⟩ := Option.map_eq_some_iff.mp found
              obtain ⟨heads, rfl⟩ := Prod.mk.inj equal
              obtain ⟨rfl, rfl⟩ := List.cons.inj heads
              obtain ⟨closes, whole⟩ := hypothesis.mp cutRest
              subst whole
              refine ⟨⟨fun starts => notHere (starts.trans ?_), closes⟩, rfl⟩
              exact List.prefix_append _ parts.2
            · rintro ⟨⟨-, closes⟩, equal⟩
              obtain ⟨rfl, tails⟩ := List.cons.inj equal
              have cutRest := hypothesis.mpr ⟨closes, tails⟩
              exact Option.map_eq_some_iff.mpr ⟨(inner, after), cutRest, rfl⟩

/-- No cut is made where the delimiter does not occur. -/
theorem cut_eq_none_iff : cut delimiter text = none ↔ ¬ delimiter <:+: text := by
  induction text with
  | nil => cases delimiter <;> simp [cut]
  | cons byte rest hypothesis =>
      rw [List.infix_cons_iff, not_or, ← hypothesis, cut, ← List.isPrefixOf_iff_prefix]
      cases delimiter.isPrefixOf (byte :: rest) <;> simp

/-! ## Greedy splits -/

/-- The pieces of a text that is cut wherever the delimiter occurs for the first time behind the
last cut. -/
structure GreedySplit (delimiter text : Bytes) (pieces : List Bytes) : Prop where
  joined : joined delimiter pieces = text
  nonempty : pieces ≠ []
  /-- The last piece does not contain the delimiter. -/
  last : ∀ piece, pieces.getLast? = some piece → ¬ delimiter <:+: piece
  /-- In any other piece with the delimiter behind it, the delimiter occurs at the end alone. -/
  others : ∀ piece ∈ pieces.dropLast, Closes delimiter piece

theorem greedySplit_singleton_iff :
    GreedySplit delimiter text [piece] ↔ piece = text ∧ ¬ delimiter <:+: piece := by
  constructor
  · intro split
    exact ⟨split.joined, split.last piece rfl⟩
  · rintro ⟨whole, free⟩
    refine ⟨whole, List.cons_ne_nil _ _, fun other last => ?_, fun other none => ?_⟩
    · obtain rfl := Option.some.inj last
      exact free
    · exact absurd none List.not_mem_nil

theorem greedySplit_cons_iff {second : Bytes} {rest : List Bytes} :
    GreedySplit delimiter text (piece :: second :: rest) ↔
      Closes delimiter piece ∧
        ∃ after, piece ++ delimiter ++ after = text ∧
          GreedySplit delimiter after (second :: rest) := by
  constructor
  · intro split
    refine ⟨split.others piece List.mem_cons_self, _, split.joined, rfl, List.cons_ne_nil _ _,
      split.last, fun other member => split.others other (List.mem_cons_of_mem _ member)⟩
  · rintro ⟨closes, after, whole, split⟩
    refine ⟨?_, List.cons_ne_nil _ _, split.last, fun other member => ?_⟩
    · rw [joined, split.joined, whole]
    · rcases List.mem_cons.mp member with rfl | later
      · exact closes
      · exact split.others other later

/-- **The pieces of a splitter are the greedy split of its text, and there is no other one.** -/
theorem greedySplit_iff (nonempty : delimiter ≠ []) {pieces : List Bytes} :
    GreedySplit delimiter text pieces ↔ pieces = Splitter.piecesOf delimiter nonempty text := by
  fun_induction Splitter.piecesOf delimiter nonempty text generalizing pieces with
  | case1 text whole =>
      have free := cut_eq_none_iff.mp whole
      constructor
      · intro split
        rcases pieces with _ | ⟨piece, _ | ⟨second, rest⟩⟩
        · exact absurd rfl split.nonempty
        · rw [(greedySplit_singleton_iff.mp split).1]
        · obtain ⟨-, after, parts, -⟩ := greedySplit_cons_iff.mp split
          exact absurd ⟨piece, after, parts⟩ free
      · rintro rfl
        exact greedySplit_singleton_iff.mpr ⟨rfl, free⟩
  | case2 text first after found hypothesis =>
      obtain ⟨closes, whole⟩ := cut_eq_some_iff.mp found
      constructor
      · intro split
        rcases pieces with _ | ⟨piece, _ | ⟨second, rest⟩⟩
        · exact absurd rfl split.nonempty
        · obtain ⟨rfl, free⟩ := greedySplit_singleton_iff.mp split
          exact absurd ⟨first, after, whole⟩ free
        · obtain ⟨closesPiece, others, parts, split⟩ := greedySplit_cons_iff.mp split
          have same := cut_eq_some_iff.mpr ⟨closesPiece, parts⟩
          rw [found] at same
          obtain ⟨rfl, rfl⟩ := Prod.mk.inj (Option.some.inj same)
          rw [hypothesis.mp split]
      · rintro rfl
        obtain ⟨second, rest, shape⟩ := List.exists_cons_of_ne_nil
          (Splitter.piecesOf_ne_nil delimiter nonempty after)
        have split := hypothesis.mpr shape.symm
        rw [shape]
        exact greedySplit_cons_iff.mpr ⟨closes, after, whole, split⟩

end Bytes

end Collections
