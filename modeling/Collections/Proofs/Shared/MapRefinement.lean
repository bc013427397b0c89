import Collections.Filling
import Collections.Proofs.Runs
import Collections.Proofs.Shared.FiniteMap
import Collections.Proofs.Shared.Map

/-!
# Shared maps answer as finite maps

What callers ask of a shared map can be asked of a finite map (`FiniteMap.ask`). One call after the
other, both answer alike and hold the same pairs afterwards (`SharedMap.Holds.ask`), whether the
shared map keeps its keys in order or not. The order in which pairs are visited is not compared.

A conditional call that fails leaves the container as it is (`SharedMap.container_of_fails`), and
any other leaves all keys but its own (`SharedMap.get?_of_condition?`). To put many pairs is to put
one after the other (`SharedMap.putAll_eq`).
-/

set_option autoImplicit false

namespace Collections

variable {κ ν : Type}

open FiniteMap (pairs)

/-! ## Calls -/

namespace Shared.SharedMap

namespace Call

/-- The key of a conditional call. -/
def condition? : Call κ ν → Option κ
  | .removeIf key _ | .putIfAbsent key _ | .replace key _ | .replaceIf key _ _ => some key
  | _ => none

/-- A conditional call is told that its condition does not hold. -/
def Fails {σ : Type} : Call κ ν → Told ν σ → Prop
  | .removeIf _ _, .flag false | .replaceIf _ _ _, .flag false => True
  | .putIfAbsent _ _, .value (some _) | .replace _ _, .value none => True
  | _, _ => False

end Call

variable [BEq κ] [Ord κ] [BEq ν]

/-- Answer a call. Pairs that are visited may come in any order. -/
def ask (map : SharedMap κ ν) (call : Call κ ν) :
    Told ν (Multiset (κ × ν)) × SharedMap κ ν :=
  (map.respond 0 call).map (Told.map Multiset.ofList) id

/-- Answer a call, and show the pairs afterwards. -/
def observe (map : SharedMap κ ν) (call : Call κ ν) :
    (Told ν (Multiset (κ × ν)) × Multiset (κ × ν)) × SharedMap κ ν :=
  let (outcome, after) := map.ask call
  ((outcome, after.items), after)

end Shared.SharedMap

open Shared (SharedMap)
open Shared.SharedMap (Call Told)

namespace FiniteMap

variable [DecidableEq κ] [BEq ν]

/-- What a finite map answers to a call, and the finite map afterwards. -/
def ask (content : FiniteMap κ ν) : Call κ ν → Told ν (Multiset (κ × ν)) × FiniteMap κ ν
  | .put key value => (.value (content.lookup key), content.insert key value)
  | .get key => (.value (content.lookup key), content)
  | .containsKey key => (.flag (decide (key ∈ content)), content)
  | .containsValue value => (.flag (decide (HasValue content value)), content)
  | .erase key => (.value (content.lookup key), content.erase key)
  | .removeIf key value =>
      if content.lookup key == some value then (.flag true, content.erase key)
      else (.flag false, content)
  | .putIfAbsent key value =>
      if key ∈ content then (.value (content.lookup key), content)
      else (.value none, content.insert key value)
  | .replace key value =>
      if key ∈ content then (.value (content.lookup key), content.insert key value)
      else (.value none, content)
  | .replaceIf key old new =>
      if content.lookup key == some old then (.flag true, content.insert key new)
      else (.flag false, content)
  | .putAll entries => (.done, insertAll content entries)
  | .size => (.count content.keys.card, content)
  | .isEmpty => (.flag (decide (content.keys = ∅)), content)
  | .clear => (.done, ∅)
  | .forEach => (.visited (pairs content), content)
  | .removeWhere drop =>
      (.swept (pairs content) (pairs (keep content drop)).card, keep content fun pair => !drop pair)

/-- What a finite map answers, with its pairs afterwards. -/
def observe (content : FiniteMap κ ν) (call : Call κ ν) :
    (Told ν (Multiset (κ × ν)) × Multiset (κ × ν)) × FiniteMap κ ν :=
  let (outcome, after) := ask content call
  ((outcome, pairs after), after)

end FiniteMap

/-! ## One call -/

namespace Shared.SharedMap

/-- The pairs of a shared map are those of a finite map. -/
def Holds (map : SharedMap κ ν) (content : FiniteMap κ ν) : Prop := map.container.Holds content

namespace Holds

variable {map : SharedMap κ ν} {content : FiniteMap κ ν}

theorem items_eq (holds : map.Holds content) : (map.items : Multiset (κ × ν)) = pairs content :=
  holds

theorem size_eq (holds : map.Holds content) : map.size = content.keys.card := by
  rw [← FiniteMap.card_pairs, ← holds.items_eq]
  rfl

theorem containsValue_eq [BEq ν] (holds : map.Holds content) (value : ν) :
    map.containsValue value = decide (FiniteMap.HasValue content value) := by
  rw [Bool.eq_iff_iff, decide_eq_true_iff, FiniteMap.HasValue, ← holds.items_eq]
  exact List.any_eq_true

theorem filter_eq (holds : map.Holds content) (test : κ × ν → Bool) :
    (map.items.filter test : Multiset (κ × ν)) = pairs (FiniteMap.keep content test) := by
  rw [FiniteMap.pairs_keep, ← holds.items_eq, Multiset.filter_coe]
  simp only [Bool.decide_eq_true]

theorem removeWhere (holds : map.Holds content) (drop : κ × ν → Bool) :
    let swept := map.toGuarded.removeWhere removedNotice 0 drop
    (swept.1.1 : Multiset (κ × ν)) = pairs content ∧
      swept.1.2 = (pairs (FiniteMap.keep content drop)).card ∧
      (map.withGuarded swept.2).Holds (FiniteMap.keep content fun pair => !drop pair) := by
  obtain ⟨visited, kept⟩ := map.toGuarded.removeWhere_eq removedNotice 0 drop
  intro swept
  refine ⟨?_, ?_, ?_⟩
  · rw [← holds.items_eq]
    exact congrArg (fun told => (told.1 : Multiset (κ × ν))) visited
  · rw [← holds.filter_eq]
    exact congrArg Prod.snd visited
  · show (swept.2.items : Multiset (κ × ν)) = _
    rw [← holds.filter_eq]
    exact congrArg _ kept

variable [DecidableEq κ]

theorem isEmpty_eq (holds : map.Holds content) :
    (map.size == 0) = decide (content.keys = ∅) := by
  rw [holds.size_eq, Bool.eq_iff_iff, decide_eq_true_iff, beq_iff_eq]
  exact Finset.card_eq_zero

theorem get?_eq (holds : map.Holds content) (key : κ) : map.get? key = content.lookup key :=
  (Container.holds_iff.mp holds).2 key

theorem erase (holds : map.Holds content) (key : κ) :
    (map.erase key).2.Holds (content.erase key) :=
  Container.Holds.eraseKey holds key

variable [Ord κ]

theorem put (holds : map.Holds content) (key : κ) (value : ν) :
    (map.put key value).2.Holds (content.insert key value) :=
  Container.Holds.assign map.arrangement holds key value

theorem putAll (holds : map.Holds content) (entries : List (κ × ν)) :
    (map.putAll entries).Holds (FiniteMap.insertAll content entries) := by
  induction entries generalizing map content with
  | nil => exact holds
  | cons entry rest hypothesis => exact hypothesis (holds.put entry.1 entry.2)

variable [BEq ν]

/-- **A shared map answers each call as the finite map of its pairs.** -/
theorem ask (holds : map.Holds content) (call : Call κ ν) :
    (map.ask call).1 = (FiniteMap.ask content call).1 ∧
      (map.ask call).2.Holds (FiniteMap.ask content call).2 := by
  cases call with
  | put key value => exact ⟨congrArg Told.value (holds.get?_eq key), holds.put key value⟩
  | get key => exact ⟨congrArg Told.value (holds.get?_eq key), holds⟩
  | containsKey key =>
      refine ⟨congrArg Told.flag ?_, holds⟩
      show (map.get? key).isSome = decide (key ∈ content)
      rw [holds.get?_eq, Bool.eq_iff_iff, decide_eq_true_iff]
      exact Finmap.lookup_isSome
  | containsValue value => exact ⟨congrArg Told.flag (holds.containsValue_eq value), holds⟩
  | erase key => exact ⟨congrArg Told.value (holds.get?_eq key), holds.erase key⟩
  | removeIf key value =>
      simp only [SharedMap.ask, respond, FiniteMap.ask, removeIf, holds.get?_eq key]
      split
      · exact ⟨rfl, holds.erase key⟩
      · exact ⟨rfl, holds⟩
  | putIfAbsent key value =>
      simp only [SharedMap.ask, respond, FiniteMap.ask, putIfAbsent, holds.get?_eq key,
        ← Finmap.lookup_isSome]
      cases content.lookup key with
      | none => exact ⟨rfl, holds.put key value⟩
      | some present => exact ⟨rfl, holds⟩
  | replace key value =>
      simp only [SharedMap.ask, respond, FiniteMap.ask, replace, holds.get?_eq key, ← Finmap.lookup_isSome]
      cases content.lookup key with
      | none => exact ⟨rfl, holds⟩
      | some present => exact ⟨rfl, holds.put key value⟩
  | replaceIf key old new =>
      simp only [SharedMap.ask, respond, FiniteMap.ask, replaceIf, holds.get?_eq key]
      split
      · exact ⟨rfl, holds.put key new⟩
      · exact ⟨rfl, holds⟩
  | putAll entries => exact ⟨rfl, holds.putAll entries⟩
  | size => exact ⟨congrArg Told.count holds.size_eq, holds⟩
  | isEmpty => exact ⟨congrArg Told.flag holds.isEmpty_eq, holds⟩
  | clear => exact ⟨rfl, Container.holds_empty rfl⟩
  | forEach => exact ⟨congrArg Told.visited holds.items_eq, holds⟩
  | removeWhere drop =>
      obtain ⟨visited, removed, left⟩ := holds.removeWhere drop
      exact ⟨congr (congrArg Told.swept visited) removed, left⟩

theorem observe (holds : map.Holds content) (call : Call κ ν) :
    (map.observe call).1 = (FiniteMap.observe content call).1 ∧
      (map.observe call).2.Holds (FiniteMap.observe content call).2 := by
  obtain ⟨outcome, after⟩ := holds.ask call
  exact ⟨Prod.ext outcome after.items_eq, after⟩

end Holds

/-- A map that is made from pairs holds the last of equal keys. -/
theorem holds_wrap [DecidableEq κ] [Ord κ] (arrangement : Arrangement) (entries : List (κ × ν)) :
    (wrap arrangement entries).Holds (FiniteMap.insertAll ∅ entries) :=
  Container.Holds.foldl_assign arrangement (Container.holds_empty rfl) entries

/-! ## Conditions -/

section Conditions

variable [DecidableEq κ] [Ord κ] [BEq ν] {map : SharedMap κ ν} {call : Call κ ν}

/-- A condition that does not hold changes nothing. -/
theorem container_of_fails (fails : call.Fails (map.ask call).1) :
    (map.ask call).2.container = map.container := by
  cases call with
  | removeIf key value =>
      simp only [ask, respond, removeIf] at fails ⊢
      split at fails
      · cases fails
      next missed =>
        rw [if_neg missed]
        rfl
  | replaceIf key old new =>
      simp only [ask, respond, replaceIf] at fails ⊢
      split at fails
      · cases fails
      next missed =>
        rw [if_neg missed]
        rfl
  | putIfAbsent key value =>
      simp only [ask, respond, putIfAbsent] at fails ⊢
      cases found : map.get? key with
      | none =>
          rw [found] at fails
          cases fails
      | some present => rfl
  | replace key value =>
      simp only [ask, respond, replace] at fails ⊢
      cases found : map.get? key with
      | none => rfl
      | some present =>
          rw [found] at fails
          cases fails
  | _ => cases fails

/-- A condition that holds changes its own key at most. -/
theorem get?_of_condition? {key other : κ} (own : call.condition? = some key)
    (differ : other ≠ key) : (map.ask call).2.get? other = map.get? other := by
  have apart : (other == key) = false := beq_eq_false_iff_ne.mpr differ
  cases call with
  | removeIf key value =>
      cases own
      simp only [ask, respond, removeIf]
      split
      · exact get?_erase_of_ne apart
      · rfl
  | putIfAbsent key value =>
      cases own
      exact get?_putIfAbsent_of_ne apart value
  | replace key value =>
      cases own
      simp only [ask, respond, replace]
      split
      · exact get?_put_of_ne apart value
      · rfl
  | replaceIf key old new =>
      cases own
      simp only [ask, respond, replaceIf]
      split
      · exact get?_put_of_ne apart new
      · rfl
  | _ => cases own

/-- To put many pairs is to put one after the other. -/
theorem putAll_eq (map : SharedMap κ ν) (entries : List (κ × ν)) :
    map.putAll entries =
      (serve ask map (entries.map fun entry => .put entry.1 entry.2)).2 := by
  induction entries generalizing map with
  | nil => rfl
  | cons entry rest hypothesis => exact hypothesis (map.put entry.1 entry.2).2

end Conditions

end Shared.SharedMap

/-! ## Runs -/

/-- A map that is made from pairs at once holds the last of equal keys. -/
theorem holds_mapOfEntries [DecidableEq κ] [Ord κ] (entries : List (κ × ν)) :
    (mapOfEntries entries : Multiset (κ × ν)) = pairs (FiniteMap.insertAll ∅ entries) :=
  Container.Holds.foldl_assign .ascending (Container.holds_empty rfl) entries

namespace Shared

/-- **A shared map is a finite map, however it keeps its keys.** Made from the same pairs, it answers
every run of calls as a finite map does, and holds the same pairs after each of them. So a map that
keeps its keys in order and one that does not cannot be told apart. After every run, a conditional
call that fails leaves the container as it is, and one that does not changes no other key. To put
many pairs is to put them one by one, so that the last of equal keys counts, and an empty map then
holds what a map holds that is made from these pairs. -/
theorem sharedMap_is_finiteMap [DecidableEq κ] [Ord κ] [BEq ν] (entries : List (κ × ν))
    (calls : List (Call κ ν)) :
    (∀ arrangement,
      (serve SharedMap.observe (.wrap arrangement entries) calls).1 =
        (serve FiniteMap.observe (FiniteMap.insertAll ∅ entries) calls).1) ∧
      (serve SharedMap.observe (.wrap .ascending entries) calls).1 =
        (serve SharedMap.observe (.wrap .arrival entries) calls).1 ∧
      ∀ arrangement,
        let map := (serve SharedMap.observe (.wrap arrangement entries) calls).2
        (∀ call : Call κ ν,
          (call.Fails (map.ask call).1 → (map.ask call).2.container = map.container) ∧
            ∀ key, call.condition? = some key →
              ∀ other, other ≠ key → (map.ask call).2.get? other = map.get? other) ∧
          ∀ more : List (κ × ν),
            map.putAll more =
                (serve SharedMap.ask map (more.map fun entry => .put entry.1 entry.2)).2 ∧
              (∀ key, (map.putAll more).get? key = (more.reverse.lookup key).or (map.get? key)) ∧
              (map.items = [] →
                ((map.putAll more).items : Multiset (κ × ν)) = mapOfEntries more) := by
  have served : ∀ arrangement,
      (serve SharedMap.observe (.wrap arrangement entries) calls).1 =
          (serve FiniteMap.observe (FiniteMap.insertAll ∅ entries) calls).1 ∧
        (serve SharedMap.observe (.wrap arrangement entries) calls).2.Holds
          (serve FiniteMap.observe (FiniteMap.insertAll ∅ entries) calls).2 := by
    intro arrangement
    exact serve_eq (fun call holds => SharedMap.Holds.observe holds call)
      (SharedMap.holds_wrap arrangement entries) calls
  refine ⟨fun arrangement => (served arrangement).1, ?_, ?_⟩
  · exact (served .ascending).1.trans (served .arrival).1.symm
  · intro arrangement map
    have holds : map.Holds _ := (served arrangement).2
    refine ⟨?_, ?_⟩
    · intro call
      exact ⟨SharedMap.container_of_fails, fun key own other => SharedMap.get?_of_condition? own⟩
    · intro more
      refine ⟨map.putAll_eq more, ?_, ?_⟩
      · intro key
        rw [(holds.putAll more).get?_eq, FiniteMap.lookup_insertAll, holds.get?_eq]
      · intro empty
        have fresh : map.Holds ∅ := Container.holds_empty empty
        rw [(fresh.putAll more).items_eq, holds_mapOfEntries]

/-- A condition fails, another holds, pairs are filtered, and pairs with equal keys are put. -/
def mixedCalls : List (Call Nat Nat) :=
  [.replaceIf 2 20 5, .putIfAbsent 3 30, .removeWhere (fun pair => decide (pair.2 < 15)),
    .putAll [(4, 1), (4, 2)]]

/-- A map whose keys arrive out of order, after `mixedCalls`. -/
theorem sharedMap_is_finiteMap_on_mixedCalls :
    let map := (serve SharedMap.observe (.wrap .arrival [(2, 20), (1, 10), (2, 21)]) mixedCalls).2
    map.items = [(2, 21), (3, 30), (4, 2)] ∧
      (map.ask (.removeIf 3 29)).2.container = map.container ∧
      (map.putAll [(3, 1), (3, 2)]).get? 3 = some 2 := by
  intro map
  obtain ⟨-, -, kept⟩ := sharedMap_is_finiteMap [(2, 20), (1, 10), (2, 21)] mixedCalls
  obtain ⟨conditions, puts⟩ := kept .arrival
  have fails : (Call.removeIf 3 29).Fails (map.ask (.removeIf 3 29)).1 := trivial
  exact ⟨rfl, (conditions _).1 fails, (puts [(3, 1), (3, 2)]).2.1 3⟩

end Shared

end Collections
