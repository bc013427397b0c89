import Collections.Proofs.Shared.Lookup
import Mathlib.Data.Finmap

/-!
# Containers of pairs as finite maps

A container of pairs is a finite map if no key occurs twice in it. Then its pairs, in whatever order
they stand, are those of one finite map, and a search in the container finds what the map has
(`Container.holds_iff`). To assign a key is to insert it into the map, wherever the container puts it
(`Container.Holds.assign`), and to erase one is to erase it from the map (`Container.Holds.eraseKey`).

When several keys are inserted in order, the last of equal ones counts
(`FiniteMap.lookup_insertAll`).
-/

set_option autoImplicit false

namespace Collections

variable {κ ν : Type}

/-! ## Finite maps -/

/-- Finitely many keys, each with one value. -/
abbrev FiniteMap (κ ν : Type) := Finmap fun _ : κ => ν

namespace FiniteMap

/-- The pairs of a finite map. -/
def pairs (content : FiniteMap κ ν) : Multiset (κ × ν) :=
  content.entries.map fun entry => (entry.1, entry.2)

/-- The finite map of the pairs that satisfy a test. -/
def keep (content : FiniteMap κ ν) (stays : κ × ν → Bool) : FiniteMap κ ν where
  entries := content.entries.filter fun entry => stays (entry.1, entry.2) = true
  nodupKeys := by
    have fewer := Multiset.map_le_map (f := Sigma.fst)
      (Multiset.filter_le (fun entry : (_ : κ) × ν => stays (entry.1, entry.2) = true)
        content.entries)
    exact Multiset.nodup_keys.mp (Multiset.nodup_of_le fewer content.nodupKeys.nodup_keys)

/-- Some key has a value. -/
def HasValue [BEq ν] (content : FiniteMap κ ν) (value : ν) : Prop :=
  ∃ pair ∈ pairs content, (pair.2 == value) = true

instance [BEq ν] (content : FiniteMap κ ν) (value : ν) : Decidable (HasValue content value) :=
  Multiset.decidableExistsMultiset

/-- The finite map after some keys were mapped to values, in order. -/
def insertAll [DecidableEq κ] (content : FiniteMap κ ν) (entries : List (κ × ν)) : FiniteMap κ ν :=
  entries.foldl (fun content entry => content.insert entry.1 entry.2) content

theorem map_fst_pairs (content : FiniteMap κ ν) :
    (pairs content).map Prod.fst = content.keys.val := by
  rw [pairs, Multiset.map_map]
  rfl

theorem card_pairs (content : FiniteMap κ ν) : (pairs content).card = content.keys.card := by
  rw [← Multiset.card_map Prod.fst, map_fst_pairs]
  rfl

theorem pairs_keep (content : FiniteMap κ ν) (stays : κ × ν → Bool) :
    pairs (keep content stays) = (pairs content).filter fun pair => stays pair = true := by
  unfold pairs keep
  rw [Multiset.filter_map]
  rfl

section Keys

variable [DecidableEq κ]

theorem mem_pairs {content : FiniteMap κ ν} {key : κ} {value : ν} :
    (key, value) ∈ pairs content ↔ content.lookup key = some value := by
  rw [Finmap.lookup_eq_some_iff, pairs, Multiset.mem_map]
  constructor
  · rintro ⟨entry, member, same⟩
    cases same
    exact member
  · intro member
    exact ⟨_, member, rfl⟩

theorem lookup_insert (content : FiniteMap κ ν) (key other : κ) (value : ν) :
    (content.insert key value).lookup other =
      if other = key then some value else content.lookup other := by
  by_cases same : other = key
  · subst same
    rw [if_pos rfl, Finmap.lookup_insert]
  · rw [if_neg same, Finmap.lookup_insert_of_ne content same]

theorem lookup_erase (content : FiniteMap κ ν) (key other : κ) :
    (content.erase key).lookup other = if other = key then none else content.lookup other := by
  by_cases same : other = key
  · subst same
    rw [if_pos rfl, Finmap.lookup_erase]
  · rw [if_neg same, Finmap.lookup_erase_ne same]

/-- The last of equal keys counts. -/
theorem lookup_insertAll (content : FiniteMap κ ν) (entries : List (κ × ν)) (key : κ) :
    (insertAll content entries).lookup key =
      (entries.reverse.lookup key).or (content.lookup key) := by
  induction entries generalizing content with
  | nil => rfl
  | cons entry rest hypothesis =>
      have later := hypothesis (content.insert entry.1 entry.2)
      rw [lookup_insert] at later
      rw [List.reverse_cons, List.lookup_append, Option.or_assoc]
      refine later.trans (congrArg _ ?_)
      rw [List.lookup_cons]
      by_cases same : key = entry.1
      · rw [if_pos same, beq_iff_eq.mpr same]
        rfl
      · rw [if_neg same, beq_eq_false_iff_ne.mpr same]
        rfl

end Keys

end FiniteMap

open FiniteMap (pairs)

/-! ## Containers of pairs -/

namespace Container

/-- No key occurs twice. -/
def Distinct (container : Container (κ × ν)) : Prop := (container.items.map (·.1)).Nodup

/-- The pairs in a container are those of a finite map. -/
def Holds (container : Container (κ × ν)) (content : FiniteMap κ ν) : Prop :=
  (container.items : Multiset (κ × ν)) = pairs content

variable {container : Container (κ × ν)} {key : κ} {value : ν}

theorem holds_empty (empty : container.items = []) : container.Holds ∅ := by
  rw [Holds, empty]
  rfl

variable [DecidableEq κ]

theorem lookup?_eq_none_iff :
    container.lookup? key = none ↔ key ∉ container.items.map (·.1) := by
  rw [lookup?, List.lookup_eq_none_iff, List.mem_map, not_exists]
  refine forall_congr' fun pair => ?_
  rw [bne_iff_ne, not_and, ne_comm]

/-- Where no key occurs twice, a search finds whatever pair there is. -/
theorem Distinct.lookup?_eq_some_iff (distinct : container.Distinct) :
    container.lookup? key = some value ↔ (key, value) ∈ container.items := by
  constructor
  · intro found
    obtain ⟨front, rest, split, -⟩ := List.lookup_eq_some_iff.mp found
    rw [split]
    exact List.mem_append_right front List.mem_cons_self
  · intro member
    cases found : container.lookup? key with
    | none =>
        have absent := lookup?_eq_none_iff.mp found
        exact absurd (List.mem_map_of_mem member) absent
    | some other =>
        obtain ⟨front, rest, split, -⟩ := List.lookup_eq_some_iff.mp found
        have there : (key, other) ∈ container.items := by
          rw [split]
          exact List.mem_append_right front List.mem_cons_self
        have same := List.inj_on_of_nodup_map distinct there member rfl
        exact congrArg (fun pair => some pair.2) same

/-- **A container holds a finite map exactly if no key occurs twice and searches agree.** -/
theorem holds_iff {content : FiniteMap κ ν} :
    container.Holds content ↔
      container.Distinct ∧ ∀ key, container.lookup? key = content.lookup key := by
  constructor
  · intro holds
    have distinct : container.Distinct := by
      have keys := congrArg (Multiset.map Prod.fst) holds
      rw [FiniteMap.map_fst_pairs, Multiset.map_coe] at keys
      exact Multiset.coe_nodup.mp (keys ▸ content.keys.nodup)
    refine ⟨distinct, ?_⟩
    intro key
    ext value
    rw [distinct.lookup?_eq_some_iff, ← FiniteMap.mem_pairs, ← holds]
    rfl
  · rintro ⟨distinct, agrees⟩
    have once : (pairs content).Nodup := by
      refine Multiset.Nodup.of_map Prod.fst ?_
      rw [FiniteMap.map_fst_pairs]
      exact content.keys.nodup
    refine (Multiset.Nodup.ext (Multiset.coe_nodup.mpr (.of_map _ distinct)) once).mpr ?_
    rintro ⟨key, value⟩
    rw [FiniteMap.mem_pairs, ← agrees, distinct.lookup?_eq_some_iff]
    rfl

/-! ## Editing -/

section Assigning

variable [Ord κ] (arrangement : Arrangement)

/-- A key that is assigned is there, and no other key comes or leaves. -/
theorem Distinct.assign (distinct : container.Distinct) (key : κ) (value : ν) :
    (container.assign arrangement key value).Distinct ∧
      (key, value) ∈ (container.assign arrangement key value).items := by
  unfold Container.assign
  split
  next index found =>
    obtain ⟨entry, there, isKey⟩ := exists_of_keyIndex? found
    obtain ⟨inRange, rfl⟩ := List.getElem?_eq_some_iff.mp there
    obtain rfl := eq_of_beq isKey
    rw [there]
    have sameKeys : (container.items.set index (container.items[index].1, value)).map (·.1) =
        container.items.map (·.1) := by
      rw [List.map_set, ← List.getElem_map Prod.fst, List.set_getElem_self]
      simpa using inRange
    refine ⟨?_, List.mem_set inRange _⟩
    show ((container.items.set index (container.items[index].1, value)).map (·.1)).Nodup
    rw [sameKeys]
    exact distinct
  next missing =>
    have absent : key ∉ container.items.map (·.1) := by
      rw [List.findIdx?_eq_none_iff] at missing
      simpa using fun other member => by simpa using missing (key, other) member
    have inside : container.keyPlace arrangement key ≤ container.items.length := by
      cases arrangement with
      | ascending => exact List.countP_le_length
      | arrival => exact Nat.le_refl _
    refine ⟨?_, (List.mem_insertIdx inside).mpr (.inl rfl)⟩
    have joined := (List.perm_insertIdx (key, value) container.items inside).map (·.1)
    exact joined.nodup_iff.mpr (List.nodup_cons.mpr ⟨absent, distinct⟩)

theorem Holds.assign {content : FiniteMap κ ν} (holds : container.Holds content) (key : κ)
    (value : ν) :
    (container.assign arrangement key value).Holds (content.insert key value) := by
  obtain ⟨distinct, agrees⟩ := holds_iff.mp holds
  obtain ⟨stays, member⟩ := distinct.assign arrangement key value
  refine holds_iff.mpr ⟨stays, ?_⟩
  intro other
  rw [FiniteMap.lookup_insert]
  by_cases same : other = key
  · rw [if_pos same, same]
    exact stays.lookup?_eq_some_iff.mpr member
  · rw [if_neg same, ← agrees]
    exact lookup?_assign_of_ne arrangement (beq_eq_false_iff_ne.mpr same)

/-- Assigning keys in order is inserting them in order. -/
theorem Holds.foldl_assign {content : FiniteMap κ ν} (holds : container.Holds content)
    (entries : List (κ × ν)) :
    (entries.foldl (fun container entry => container.assign arrangement entry.1 entry.2)
      container).Holds (FiniteMap.insertAll content entries) := by
  induction entries generalizing container content with
  | nil => exact holds
  | cons entry rest hypothesis => exact hypothesis (holds.assign arrangement entry.1 entry.2)

end Assigning

theorem Holds.eraseKey {content : FiniteMap κ ν} (holds : container.Holds content) (key : κ) :
    (container.eraseKey key).Holds (content.erase key) := by
  obtain ⟨distinct, agrees⟩ := holds_iff.mp holds
  have left : (container.eraseKey key).Distinct ∧ (container.eraseKey key).lookup? key = none := by
    rw [lookup?_eq_none_iff]
    unfold Container.eraseKey
    split
    next index found =>
      obtain ⟨entry, there, isKey⟩ := exists_of_keyIndex? found
      obtain ⟨inRange, rfl⟩ := List.getElem?_eq_some_iff.mp there
      obtain rfl := eq_of_beq isKey
      have apart := ((List.getElem_cons_eraseIdx_perm inRange).map Prod.fst).nodup_iff.mpr distinct
      obtain ⟨gone, stays⟩ := List.nodup_cons.mp apart
      exact ⟨stays, gone⟩
    next missing =>
      refine ⟨distinct, ?_⟩
      have absent := List.findIdx?_eq_none_iff.mp missing
      simpa using fun other member => by simpa using absent (key, other) member
  refine holds_iff.mpr ⟨left.1, ?_⟩
  intro other
  rw [FiniteMap.lookup_erase]
  by_cases same : other = key
  · rw [if_pos same, same]
    exact left.2
  · rw [if_neg same, ← agrees]
    exact lookup?_eraseKey_of_ne (beq_eq_false_iff_ne.mpr same)

end Container

end Collections
