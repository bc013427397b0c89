import Collections.Proofs.Shared.Removals
import Collections.Shared.Association

/-!
# Keys that an edit leaves alone

A container of pairs is searched for a key from the front. So a pair of another key may be inserted,
changed or erased anywhere without making a difference to what is found
(`Container.lookup?_assign_of_ne`, `Container.lookup?_eraseKey_of_ne`), and a key that was not found
is found when it has been put, wherever it was put (`Container.lookup?_assign_of_absent`).
-/

set_option autoImplicit false

namespace Collections.Container

variable {κ ν : Type} [BEq κ] {key other : κ} {value : ν} {container after : Container (κ × ν)}

/-! ## Searching -/

theorem lookup?_eq_find? (container : Container (κ × ν)) (key : κ) :
    container.lookup? key = (container.items.find? (key == ·.1)).map (·.2) := by
  rw [lookup?]
  induction container.items with
  | nil => rfl
  | cons entry rest hypothesis =>
      rw [List.lookup_cons, List.find?_cons]
      cases key == entry.1
      · exact hypothesis
      · rfl

/-- Pairs of other keys may leave. -/
theorem lookup?_of_thinned {gone : List (κ × ν)} (thinned : Thinned container.items gone after.items)
    (others : ∀ entry ∈ gone, (key == entry.1) = false) :
    after.lookup? key = container.lookup? key := by
  rw [lookup?_eq_find?, lookup?_eq_find?, thinned.find?_eq others]

theorem lookup?_congr [EquivBEq κ] (same : (key == other) = true) :
    container.lookup? key = container.lookup? other := by
  have alike : (fun entry : κ × ν => key == entry.1) = fun entry => other == entry.1 := by
    funext entry
    exact BEq.congr_left same
  rw [lookup?_eq_find?, lookup?_eq_find?, alike]

theorem keyIndex?_eq_none [EquivBEq κ] (absent : container.lookup? key = none) :
    container.items.findIdx? (·.1 == key) = none := by
  rw [lookup?_eq_find?, Option.map_eq_none_iff, List.find?_eq_none] at absent
  refine List.findIdx?_eq_none_iff.mpr fun entry member => ?_
  rw [BEq.comm]
  exact Bool.eq_false_iff.mpr (absent entry member)

/-! ## Editing at a position -/

/-- Someone else's pair may be erased. -/
theorem lookup?_eraseAt_of_ne {index : Nat} {entry : κ × ν}
    (there : container.items[index]? = some entry) (differ : (key == entry.1) = false) :
    (container.eraseAt index).lookup? key = container.lookup? key := by
  refine lookup?_of_thinned (.eraseIdx there) fun gone member => ?_
  rw [List.mem_singleton.mp member]
  exact differ

/-- Someone else's pair may be inserted. -/
theorem lookup?_insertAt_of_ne (index : Nat) (differ : (key == other) = false) :
    (container.insertAt index (other, value)).lookup? key = container.lookup? key := by
  by_cases inside : index ≤ container.items.length
  · have there : (container.insertAt index (other, value)).items[index]? = some (other, value) := by
      rw [insertAt, List.getElem?_insertIdx_self, if_pos inside]
    rw [← lookup?_eraseAt_of_ne there differ]
    refine congrArg (List.lookup key) ?_
    exact List.eraseIdx_insertIdx_self _
  · have same : (container.insertAt index (other, value)).items = container.items :=
      List.insertIdx_of_length_lt (Nat.lt_of_not_le inside)
    rw [lookup?, lookup?, same]

/-- Someone else's value may change. -/
theorem lookup?_setAt_of_ne {index : Nat} {entry : κ × ν}
    (there : container.items[index]? = some entry) (differ : (key == entry.1) = false) :
    (container.setAt index (entry.1, value)).lookup? key = container.lookup? key := by
  obtain ⟨inRange, -⟩ := List.getElem?_eq_some_iff.mp there
  have changed : (container.setAt index (entry.1, value)).items[index]? = some (entry.1, value) :=
    List.getElem?_set_self inRange
  rw [← lookup?_eraseAt_of_ne there differ, ← lookup?_eraseAt_of_ne changed differ]
  refine congrArg (List.lookup key) ?_
  exact List.eraseIdx_set_eq

/-- A key that was not found is found wherever it is inserted. -/
theorem lookup?_insertAt_of_absent [EquivBEq κ] {index : Nat}
    (inside : index ≤ container.items.length) (absent : container.lookup? key = none) :
    (container.insertAt index (key, value)).lookup? key = some value := by
  have among : ∀ entry, entry ∈ (container.insertAt index (key, value)).items ↔
      entry = (key, value) ∨ entry ∈ container.items := fun _ => List.mem_insertIdx inside
  rw [lookup?_eq_find?, Option.map_eq_none_iff, List.find?_eq_none] at absent
  rw [lookup?_eq_find?]
  cases found : (container.insertAt index (key, value)).items.find? (key == ·.1) with
  | none =>
      have missed := List.find?_eq_none.mp found (key, value) ((among _).mpr (.inl rfl))
      exact absurd BEq.rfl missed
  | some entry =>
      rcases (among entry).mp (List.mem_of_find?_eq_some found) with rfl | before
      · rfl
      · exact absurd (List.find?_some found) (absent entry before)

/-! ## Editing by key -/

/-- What is found at the index of a key is a pair of it. -/
theorem exists_of_keyIndex? {index : Nat}
    (found : container.items.findIdx? (·.1 == other) = some index) :
    ∃ entry, container.items[index]? = some entry ∧ (entry.1 == other) = true := by
  obtain ⟨inRange, isKey, -⟩ := List.findIdx?_eq_some_iff_getElem.mp found
  exact ⟨_, List.getElem?_eq_getElem inRange, isKey⟩

theorem lookup?_eraseKey_of_ne [EquivBEq κ] (differ : (key == other) = false) :
    (container.eraseKey other).lookup? key = container.lookup? key := by
  unfold eraseKey
  split
  next index found =>
    obtain ⟨entry, there, isKey⟩ := exists_of_keyIndex? found
    refine lookup?_eraseAt_of_ne there ?_
    rw [BEq.congr_right isKey]
    exact differ
  next => rfl

section Assignments

variable [EquivBEq κ] [Ord κ] (arrangement : Arrangement)

theorem lookup?_assign_of_ne (differ : (key == other) = false) :
    (container.assign arrangement other value).lookup? key = container.lookup? key := by
  unfold assign
  split
  next index found =>
    obtain ⟨entry, there, isKey⟩ := exists_of_keyIndex? found
    rw [there]
    refine lookup?_setAt_of_ne there ?_
    rw [BEq.congr_right isKey]
    exact differ
  next => exact lookup?_insertAt_of_ne _ differ

theorem lookup?_assign_of_absent (absent : container.lookup? key = none) :
    (container.assign arrangement key value).lookup? key = some value := by
  have inside : container.keyPlace arrangement key ≤ container.items.length := by
    cases arrangement with
    | ascending => exact List.countP_le_length
    | arrival => exact Nat.le_refl _
  rw [assign, keyIndex?_eq_none absent]
  exact lookup?_insertAt_of_absent inside absent

end Assignments

end Collections.Container
