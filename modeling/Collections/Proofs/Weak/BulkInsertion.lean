import Collections.Proofs.Weak.Set
import Collections.Weak.SharedSet

/-!
# Insertions of many elements that fail

To insert many elements is to insert one after the other until one is absent. Then the call fails, and
whatever it has inserted before stays (`WeakSet.insertAll_of_absent`). Who sees the failure cannot tell
how far the call got.

So the live elements of a shared set are those before the failing call only if the elements in front of
the first absent one were all there already (`failed_insertAll_keeps_iff`). Otherwise the new ones among
them have come (`WeakSet.Filed.exists_added`).
-/

set_option autoImplicit false

namespace Collections.Weak

variable {κ : Type}

namespace WeakSet

/-! ## How a call ends -/

theorem insertAll_cons (set : WeakSet κ) (alive : κ → Bool) (element : κ)
    (rest : List (Option κ)) :
    ∃ added, set.insertAll alive (some element :: rest) =
      (((set.insert alive (some element)).2.insertAll alive rest).1.map (· + added),
        ((set.insert alive (some element)).2.insertAll alive rest).2) := by
  have inserts : ∃ present new, (set.insert alive (some element)).1 = .ok (present, new) := by
    unfold insert
    dsimp only
    split
    next present found => exact ⟨present, false, rfl⟩
    next => exact ⟨element, true, rfl⟩
  obtain ⟨present, new, told⟩ := inserts
  refine ⟨new.toNat, ?_⟩
  have whole : set.insert alive (some element) =
      (.ok (present, new), (set.insert alive (some element)).2) := Prod.ext told rfl
  rw [insertAll, whole]
  dsimp only
  rcases (set.insert alive (some element)).2.insertAll alive rest with ⟨_ | _, after⟩ <;> rfl

/-- Elements that are there to be inserted are. -/
theorem insertAll_of_present (set : WeakSet κ) (alive : κ → Bool) (elements : List κ) :
    ∃ count, (set.insertAll alive (elements.map some)).1 = .ok count := by
  induction elements generalizing set with
  | nil => exact ⟨0, rfl⟩
  | cons element rest hypothesis =>
      obtain ⟨count, told⟩ := hypothesis (set.insert alive (some element)).2
      obtain ⟨added, whole⟩ := set.insertAll_cons alive element (rest.map some)
      refine ⟨count + added, ?_⟩
      rw [List.map_cons, whole, told]
      rfl

/-- **An absent element makes the call fail. What stands in front of it has been inserted, and what
stands behind it has not been looked at.** -/
theorem insertAll_of_absent (set : WeakSet κ) (alive : κ → Bool) (front : List κ)
    (rest : List (Option κ)) :
    set.insertAll alive (front.map some ++ none :: rest) =
      (.error .valueNull,
        (set.insertAll alive (front.map some)).2.say (.emitted .valueNull)) := by
  induction front generalizing set with
  | nil => rfl
  | cons element front hypothesis =>
      obtain ⟨added, whole⟩ := set.insertAll_cons alive element (front.map some ++ none :: rest)
      obtain ⟨fewer, part⟩ := set.insertAll_cons alive element (front.map some)
      rw [List.map_cons, List.cons_append, whole, part, hypothesis]
      rfl

/-- Elements may be absent somewhere, first behind some that are there. -/
theorem exists_front (elements : List (Option κ)) :
    (∃ front : List κ, elements = front.map some) ∨
      ∃ (front : List κ) (rest : List (Option κ)), elements = front.map some ++ none :: rest := by
  induction elements with
  | nil => exact .inl ⟨[], rfl⟩
  | cons element elements hypothesis =>
      cases element with
      | none => exact .inr ⟨[], elements, rfl⟩
      | some element =>
          rcases hypothesis with ⟨front, rfl⟩ | ⟨front, rest, rfl⟩
          · exact .inl ⟨element :: front, rfl⟩
          · exact .inr ⟨element :: front, rest, rfl⟩

/-- A call fails exactly if an element is absent, and tells so. -/
theorem insertAll_fails_iff (set : WeakSet κ) (alive : κ → Bool) (elements : List (Option κ))
    (cause : WeakError) :
    (set.insertAll alive elements).1 = .error cause ↔ cause = .valueNull ∧ none ∈ elements := by
  rcases exists_front elements with ⟨front, rfl⟩ | ⟨front, rest, rfl⟩
  · obtain ⟨count, told⟩ := set.insertAll_of_present alive front
    rw [told]
    simp
  · rw [insertAll_of_absent]
    simp [eq_comm]

/-! ## What a call changes -/

/-- A set is filed as some plain map says, so that each element of it can be found. -/
def Filed (keying : Keying κ) (alive : κ → Bool) (set : WeakSet κ) : Prop :=
  ∃ swept plain, Mirrored keying { container := set, alive, swept } plain

namespace Filed

variable {keying : Keying κ} {alive : κ → Bool} {set : WeakSet κ} {element : κ}

theorem say (filed : Filed keying alive set) (notice : Log.Notice) :
    Filed keying alive (set.say notice) := by
  obtain ⟨swept, plain, mirrored⟩ := filed
  exact ⟨swept, plain, mirrored.keyed, mirrored.table⟩

theorem reclaim (filed : Filed keying alive set) (keep : κ → Bool) :
    Filed keying (fun element => keep element && alive element) set := by
  obtain ⟨swept, plain, mirrored⟩ := filed
  exact ⟨swept, plain.reclaim keep, mirrored.keyed, mirrored.table.reclaim keep⟩

/-- An element that is new comes, and everything else stays. -/
theorem insert_of_new (filed : Filed keying alive set) (held : alive element = true)
    (new : ∀ present ∈ set.elements alive, keying.same present element = false) :
    ((set.insert alive (some element)).2.elements alive).Perm (element :: set.elements alive) := by
  classical
  obtain ⟨swept, plain, mirrored⟩ := filed
  have missed : elementOf? plain element = none := by
    rw [elementOf?, Option.map_eq_none_iff, PlainMap.find?, List.find?_eq_none]
    intro pair stored isOf
    rw [PlainMap.isOf, mirrored.table.same, Bool.and_eq_true] at isOf
    obtain ⟨present, same⟩ := isOf
    have there : pair.1 ∈ elementsOf plain :=
      List.mem_map_of_mem (List.mem_filter.mpr ⟨stored, present⟩)
    exact Bool.eq_false_iff.mp (new pair.1 (mirrored.elementsOf_perm.mem_iff.mpr there)) same
  have after := (mirrored.insert element).mirrored.elementsOf_perm
  have present : plain.present (element, ()) = true := (mirrored.table.present_eq _).trans held
  have joined : elementsOf (plain.insert element ()) = element :: elementsOf plain := by
    show (((element, ()) :: plain.pairs).filter plain.present).map _ = _
    rw [List.filter_cons_of_pos present]
    rfl
  simp only [attend, answer, missed] at after
  rw [joined] at after
  exact after.trans (mirrored.elementsOf_perm.symm.cons element)

/-- An element stays out when an equal one is there. -/
theorem insert_of_present (filed : Filed keying alive set) {present : κ}
    (member : present ∈ set.elements alive) (same : keying.same present element = true) :
    ((set.insert alive (some element)).2.elements alive).Perm (set.elements alive) := by
  classical
  obtain ⟨swept, plain, mirrored⟩ := filed
  exact (mirrored.insert_keeps member same).2

section Calls

variable [DecidableEq κ]

theorem respond (filed : Filed keying alive set) (call : Call κ) :
    Filed keying alive (set.respond alive call).2 := by
  obtain ⟨swept, plain, mirrored⟩ := filed
  exact ⟨_, _, (mirrored.respond call).mirrored⟩

theorem insertAll (filed : Filed keying alive set) (elements : List (Option κ)) :
    Filed keying alive (set.insertAll alive elements).2 := by
  induction elements generalizing set with
  | nil => exact filed
  | cons element rest hypothesis =>
      cases element with
      | none => exact filed.say _
      | some element =>
          obtain ⟨added, whole⟩ := set.insertAll_cons alive element rest
          rw [whole]
          exact hypothesis (filed.respond (.insert (some element)))

/-- **To insert many elements brings those of them that are new, and takes none away.** Nothing is new
exactly if each of them was there already. -/
theorem exists_added (filed : Filed keying alive set) {elements : List κ}
    (held : ∀ element ∈ elements, alive element = true) :
    ∃ added,
      ((set.insertAll alive (elements.map some)).2.elements alive).Perm
          (added ++ set.elements alive) ∧
        added ⊆ elements ∧
        (added = [] ↔ ∀ element ∈ elements, ∃ present ∈ set.elements alive,
          keying.same present element = true) := by
  -- What an element finds in the set after those before it, it finds in the set or among them.
  induction elements generalizing set with
  | nil => exact ⟨[], .refl _, List.Subset.refl _, by simp⟩
  | cons element rest hypothesis =>
      obtain ⟨first, later⟩ := List.forall_mem_cons.mp held
      obtain ⟨_, whole⟩ := set.insertAll_cons alive element (rest.map some)
      have next : Filed keying alive (set.insert alive (some element)).2 :=
        filed.respond (.insert (some element))
      obtain ⟨added, joined, fromRest, nothing⟩ := hypothesis next later
      rw [List.map_cons, whole]
      by_cases there : ∃ present ∈ set.elements alive, keying.same present element = true
      · obtain ⟨present, member, same⟩ := there
        have unchanged := filed.insert_of_present member same
        refine ⟨added, joined.trans (unchanged.append_left added),
          List.subset_cons_of_subset element fromRest, ?_⟩
        rw [nothing, List.forall_mem_cons]
        simp only [unchanged.mem_iff]
        exact ⟨fun all => ⟨⟨present, member, same⟩, all⟩, fun all => all.2⟩
      · have new : ∀ present ∈ set.elements alive, keying.same present element = false := by
          intro present member
          exact Bool.eq_false_iff.mpr fun same => there ⟨present, member, same⟩
        have longer := filed.insert_of_new first new
        refine ⟨added ++ [element], ?_, ?_, ?_⟩
        · refine (joined.trans (longer.append_left added)).trans (.of_eq ?_)
          rw [List.append_assoc]
          rfl
        · exact List.append_subset.mpr ⟨List.subset_cons_of_subset element fromRest, by simp⟩
        · rw [List.forall_mem_cons]
          exact ⟨fun empty => absurd empty (by simp), fun all => absurd all.1 there⟩

end Calls

end Filed

end WeakSet

/-! ## Shared sets -/

namespace SharedWeakSet

/-- What a shared set is asked. -/
inductive Call (κ : Type) where
  | insert (element : Option κ)
  | insertAll (elements : List (Option κ))
  | contains (element : Option κ)
  | erase (element : Option κ)
  | elements
  | size
  | isEmpty
  | snapshot
  | clear
  | purge
  | removeWhere (drop : κ → Bool)
  /-- Use the bare set under the lock. -/
  | withLocked (call : WeakSet.Call κ)

variable [DecidableEq κ]

/-- The set after a call. -/
def after (set : SharedWeakSet κ) (alive : κ → Bool) : Call κ → SharedWeakSet κ
  | .insert element => (set.insert alive element).2
  | .insertAll elements => (set.insertAll alive elements).2
  | .erase element => (set.erase alive element).2
  | .clear => set.clear
  | .purge => (set.purge alive).2
  | .removeWhere drop => (set.removeWhere alive drop).2
  | .withLocked call => ⟨(set.bare.respond alive call).2⟩
  | .contains _ | .elements | .size | .isEmpty | .snapshot => set

/-- What happens to a shared set in use. -/
def occur (use : InUse (SharedWeakSet κ) κ) : Occasion (Call κ) κ → InUse (SharedWeakSet κ) κ
  | .call call => { use with container := use.container.after use.alive call }
  | .reclaim keep => use.reclaim keep

/-- A shared set that was made empty and has been in use since. -/
def used (keying : Keying κ) (occasions : List (Occasion (Call κ) κ)) :
    InUse (SharedWeakSet κ) κ :=
  occasions.foldl occur { container := .empty keying }

theorem filed_after {keying : Keying κ} {alive : κ → Bool} {set : SharedWeakSet κ}
    (filed : set.bare.Filed keying alive) (call : Call κ) :
    (set.after alive call).bare.Filed keying alive := by
  cases call with
  | insert element => exact filed.respond (.insert element)
  | insertAll elements => exact filed.insertAll elements
  | erase element => exact filed.respond (.erase element)
  | clear => exact filed.respond .clear
  | purge => exact filed.respond .purge
  | withLocked call => exact filed.respond call
  | removeWhere drop =>
      have bare := filed.respond (.removeWhere drop)
      unfold after SharedWeakSet.removeWhere
      dsimp only
      split
      · exact bare
      · exact bare.say _
  | contains | elements | size | isEmpty | snapshot => exact filed

theorem filed_used (keying : Keying κ) (occasions : List (Occasion (Call κ) κ)) :
    (used keying occasions).container.bare.Filed keying (used keying occasions).alive := by
  have start : (SharedWeakSet.empty keying).bare.Filed keying (fun _ => true) :=
    ⟨0, .ofKeys keying, rfl, .start _⟩
  suffices kept : ∀ use : InUse (SharedWeakSet κ) κ, use.container.bare.Filed keying use.alive →
      (occasions.foldl occur use).container.bare.Filed keying (occasions.foldl occur use).alive from
    kept _ start
  induction occasions with
  | nil => exact fun use filed => filed
  | cons occasion rest hypothesis =>
      intro use filed
      refine hypothesis _ ?_
      cases occasion with
      | call call => exact filed_after filed call
      | reclaim keep => exact filed.reclaim keep

end SharedWeakSet

/-- **When a failing insertion of many elements leaves a shared set as it was.** Whatever happened to
the set before, a call fails exactly if it is given an absent element. What stands in front of the first
absent one has then been inserted, and the failure has been noticed, and nothing else has happened. So
the live elements are those before the call exactly if each of the elements in front has an equal one
among them. -/
theorem failed_insertAll_keeps_iff [DecidableEq κ] (keying : Keying κ)
    (occasions : List (Occasion (SharedWeakSet.Call κ) κ)) :
    let use := SharedWeakSet.used keying occasions
    let live := use.container.elements use.alive
    (∀ elements cause, (use.container.insertAll use.alive elements).1 = .error cause ↔
      cause = .valueNull ∧ none ∈ elements) ∧
      ∀ (front : List κ) (rest : List (Option κ)), (∀ element ∈ front, use.alive element = true) →
        let failed := use.container.insertAll use.alive (front.map some ++ none :: rest)
        let inserted := use.container.insertAll use.alive (front.map some)
        failed.1 = .error .valueNull ∧
          failed.2.bare = inserted.2.bare.say (.emitted .valueNull) ∧
          (∃ added, added ⊆ front ∧ (failed.2.elements use.alive).Perm (added ++ live)) ∧
          ((failed.2.elements use.alive).Perm live ↔
            ∀ element ∈ front, ∃ present ∈ live, keying.same present element = true) := by
  intro use live
  have filed : use.container.bare.Filed keying use.alive := SharedWeakSet.filed_used keying occasions
  refine ⟨use.container.bare.insertAll_fails_iff use.alive, ?_⟩
  intro front rest held failed inserted
  have ends := use.container.bare.insertAll_of_absent use.alive front rest
  obtain ⟨added, joined, fromFront, nothing⟩ := filed.exists_added held
  have after : (failed.2.elements use.alive).Perm (added ++ live) := by
    have bare : failed.2.bare = inserted.2.bare.say (.emitted .valueNull) := congrArg Prod.snd ends
    show (failed.2.bare.elements use.alive).Perm _
    rw [bare]
    exact joined
  refine ⟨congrArg Prod.fst ends, congrArg Prod.snd ends, ⟨added, fromFront, after⟩, ?_⟩
  refine Iff.trans ?_ nothing
  constructor
  · intro unchanged
    have counted := (after.symm.trans unchanged).length_eq
    rw [List.length_append] at counted
    exact List.eq_nil_of_length_eq_zero (by omega)
  · rintro rfl
    exact after

/-- A call that is given an element equal to one in the set, and then an absent one. -/
theorem failed_insertAll_keeps_iff_for_known :
    let use := SharedWeakSet.used .plain [.call (.insert (some ⟨1, [], 5⟩))]
    let failed := use.container.insertAll use.alive [some ⟨2, [], 5⟩, none]
    failed.1 = .error .valueNull ∧ use.container.elements use.alive = [⟨1, [], 5⟩] ∧
      (failed.2.elements use.alive).Perm (use.container.elements use.alive) := by
  intro use failed
  obtain ⟨-, fails⟩ := failed_insertAll_keeps_iff .plain [.call (.insert (some ⟨1, [], 5⟩))]
  obtain ⟨error, -, -, keeps⟩ := fails [⟨2, [], 5⟩] [] (fun _ _ => rfl)
  exact ⟨error, rfl, keeps.mpr (by simpa using ⟨_, List.mem_cons_self, rfl⟩)⟩

/-- A call that is given a new element and then an absent one fails, and the new element has come into
an empty set. -/
theorem failed_insertAll_leaves_new :
    let set := SharedWeakSet.empty .plain
    let failed := set.insertAll (fun _ => true) [some ⟨1, [], 5⟩, none]
    failed.1 = .error .valueNull ∧ set.elements (fun _ => true) = [] ∧
      failed.2.elements (fun _ => true) = [⟨1, [], 5⟩] :=
  ⟨rfl, rfl, rfl⟩

end Collections.Weak
