import Collections.Proofs.Bidding
import Collections.Proofs.Shared.Filtering
import Collections.Proofs.Shared.Lookup
import Collections.Shared.Map

/-!
# Callers of a shared map

A map is called, walked through with a cursor, or changed under the lock in some way
(`SharedMap.Access`). An iteration is what a step of a session makes of it
(`SharedMap.step_iterate`).

Accesses that leave a key to those who bid for it (`SharedMap.Access.Spares`) change its value only by
a bid for a key without one, and tell it as it is (`SharedMap.sees_watch`, `SharedMap.honest_watch`).
-/

set_option autoImplicit false

namespace Collections.Shared.SharedMap

variable {κ ν : Type}

theorem container_iterate (map : SharedMap κ ν) (script : List Cue) :
    (map.iterate script).2.container =
      ((Walk.start map.container 0).play script).2.2.container := by
  unfold iterate Guarded.sayRemoved
  dsimp only
  split
  · split <;> rfl
  · rfl

section Iterating

variable {ρ β : Type} (apply : Nat → Guarded (κ × ν) → ρ → β × Guarded (κ × ν))

/-- An iteration whose callback makes no steps of its own. -/
theorem step_iterate (map : SharedMap κ ν) (script : List Cue) :
    Guarded.step apply removedNotice 0 map.toGuarded (.iterate (script.map .cue)) =
      (.several ((map.iterate script).1.map .reply), (map.iterate script).2.toGuarded) :=
  Guarded.step_iterate apply removedNotice 0 map.toGuarded script

end Iterating

variable [BEq κ] [Ord κ]

/-! ## One key -/

/-- A way to use a map. -/
inductive Access (κ ν : Type) where
  | call (call : Call κ ν)
  /-- Walk the map with a cursor. -/
  | iterate (script : List Cue)
  /-- Change the map under the lock, in whatever way. -/
  | withLocked (change : Container (κ × ν) → Container (κ × ν))

namespace Call

/-- What a call lets its caller see of the value of a key. -/
def sight {σ : Type} (key : κ) : Call κ ν → Told ν σ → Option (Sight ν)
  | .putIfAbsent other value, .value answer =>
      if key == other then some (.bid value answer) else none
  | .get other, .value answer => if key == other then some (.look answer) else none
  | _, _ => none

/-- What a call asks about a key: the value that it bids, or nothing if it looks. -/
def asks (key : κ) : Call κ ν → Option (Option ν)
  | .putIfAbsent other value => if key == other then some (some value) else none
  | .get other => if key == other then some none else none
  | _ => none

/-- A call does not touch a key, unless it asks about it or bids for it. -/
def Spares (key : κ) (map : SharedMap κ ν) : Call κ ν → Prop
  | .put other _ | .erase other | .removeIf other _ | .replace other _ | .replaceIf other _ _ =>
      (key == other) = false
  | .putAll entries => ∀ entry ∈ entries, (key == entry.1) = false
  | .clear => False
  | .removeWhere drop => ∀ entry ∈ map.items, drop entry = true → (key == entry.1) = false
  | _ => True

end Call

namespace Access

def asks (key : κ) : Access κ ν → Option (Option ν)
  | .call made => made.asks key
  | .iterate _ | .withLocked _ => none

/-- An access does not touch a key, unless it asks about it or bids for it. -/
def Spares (key : κ) (map : SharedMap κ ν) : Access κ ν → Prop
  | .call made => made.Spares key map
  | .iterate script =>
      ∀ entry ∈ Walk.removedFrom none (map.iterate script).1, (key == entry.1) = false
  | .withLocked change => (change map.container).lookup? key = map.container.lookup? key

end Access

/-- Use a map, and note what is seen of the value of a key. -/
def watch [BEq ν] (key : κ) (map : SharedMap κ ν) : Access κ ν → Option (Sight ν) × SharedMap κ ν
  | .call call =>
      let (told, after) := map.respond 0 call
      (call.sight key told, after)
  | .iterate script => (none, (map.iterate script).2)
  | .withLocked change => (none, map.edit (change map.container))

/-- Whoever asks about a key is answered. -/
theorem wanted_watch [BEq ν] (key : κ) (map : SharedMap κ ν) (access : Access κ ν) :
    (map.watch key access).1.map Sight.wanted = access.asks key := by
  cases access with
  | iterate | withLocked => rfl
  | call call =>
      cases call with
      | putIfAbsent other value =>
          show (if key == other then some (Sight.bid value (map.putIfAbsent other value).1)
            else none).map Sight.wanted = if key == other then some (some value) else none
          split <;> rfl
      | get other =>
          show (if key == other then some (Sight.look (map.get? other)) else none).map
            Sight.wanted = if key == other then some none else none
          split <;> rfl
      | _ => rfl

section Sparing

variable [EquivBEq κ] {key other : κ} {map : SharedMap κ ν}

omit [Ord κ] in
theorem get?_erase_of_ne (differ : (key == other) = false) :
    (map.erase other).2.get? key = map.get? key :=
  Container.lookup?_eraseKey_of_ne differ

theorem get?_put_of_ne (differ : (key == other) = false) (value : ν) :
    (map.put other value).2.get? key = map.get? key :=
  Container.lookup?_assign_of_ne map.arrangement differ

theorem get?_putAll_of_ne {entries : List (κ × ν)}
    (others : ∀ entry ∈ entries, (key == entry.1) = false) :
    (map.putAll entries).get? key = map.get? key := by
  induction entries generalizing map with
  | nil => rfl
  | cons entry rest hypothesis =>
      obtain ⟨first, later⟩ := List.forall_mem_cons.mp others
      exact (hypothesis later).trans (get?_put_of_ne first entry.2)

/-- A bid for another key makes no difference. -/
theorem get?_putIfAbsent_of_ne (differ : (key == other) = false) (value : ν) :
    (map.putIfAbsent other value).2.get? key = map.get? key := by
  unfold putIfAbsent
  split
  · rfl
  · exact get?_put_of_ne differ value

/-- A bid for a key is told its value, and puts another one if there is none. -/
theorem putIfAbsent_of_eq (same : (key == other) = true) (value : ν) :
    (map.putIfAbsent other value).1 = map.get? key ∧
      (map.putIfAbsent other value).2.get? key = (map.get? key).or (some value) := by
  have found : ∀ map : SharedMap κ ν, map.get? key = map.get? other :=
    fun _ => Container.lookup?_congr same
  rw [found, found]
  unfold putIfAbsent
  split
  next present there =>
    refine ⟨there.symm, ?_⟩
    rw [there]
    exact there
  next absent =>
    refine ⟨absent.symm, ?_⟩
    rw [absent]
    exact Container.lookup?_assign_of_absent map.arrangement absent

omit [Ord κ] [EquivBEq κ] in
/-- A sweep that drops no mapping of a key leaves its value. -/
theorem get?_removeWhere (slot : Nat) {drop : κ × ν → Bool}
    (others : ∀ entry ∈ map.items, drop entry = true → (key == entry.1) = false) :
    (map.withGuarded (map.toGuarded.removeWhere removedNotice slot drop).2).get? key =
      map.get? key := by
  obtain ⟨-, kept⟩ := map.toGuarded.removeWhere_eq removedNotice slot drop
  have thinned := Thinned.filter map.items drop
  rw [← show _ = map.items.filter fun entry => !drop entry from kept] at thinned
  refine Container.lookup?_of_thinned thinned fun entry gone => ?_
  obtain ⟨member, dropped⟩ := List.mem_filter.mp gone
  exact others entry member dropped

/-- A call that spares a key leaves its value to those who bid for it, and shows it as it is. -/
theorem sees_call [BEq ν] {call : Call κ ν} (spares : call.Spares key map) :
    Sees (map.get? key) ((map.respond 0 call).2.get? key)
      (call.sight key (map.respond 0 call).1) := by
  cases call with
  | put other value => exact get?_put_of_ne spares value
  | erase other => exact get?_erase_of_ne spares
  | removeIf other value =>
      show (map.removeIf other value).2.get? key = map.get? key
      unfold removeIf
      split
      · exact get?_erase_of_ne spares
      · rfl
  | putIfAbsent other value =>
      show Sees _ ((map.putIfAbsent other value).2.get? key)
        (if key == other then some (.bid value (map.putIfAbsent other value).1) else none)
      cases same : key == other with
      | true => exact putIfAbsent_of_eq same value
      | false => exact get?_putIfAbsent_of_ne same value
  | replace other value =>
      show (map.replace other value).2.get? key = map.get? key
      unfold replace
      split
      · exact get?_put_of_ne spares value
      · rfl
  | replaceIf other old new =>
      show (map.replaceIf other old new).2.get? key = map.get? key
      unfold replaceIf
      split
      · exact get?_put_of_ne spares new
      · rfl
  | putAll entries => exact get?_putAll_of_ne spares
  | get other =>
      show Sees _ (map.get? key) (if key == other then some (.look (map.get? other)) else none)
      cases same : key == other with
      | true => exact ⟨(Container.lookup?_congr same).symm, rfl⟩
      | false => rfl
  | clear => cases spares
  | removeWhere drop => exact get?_removeWhere 0 spares
  | containsKey | containsValue | size | isEmpty | forEach => rfl

/-- Whatever spares a key leaves its value to those who bid for it, and shows it as it is. -/
theorem sees_watch [BEq ν] {access : Access κ ν} (spares : access.Spares key map) :
    Sees (map.get? key) ((map.watch key access).2.get? key) (map.watch key access).1 := by
  cases access with
  | call call => exact sees_call spares
  | iterate script =>
      have holds : (Walk.start map.container 0).Holds none := Walk.holds_start map.container 0
      show (map.iterate script).2.container.lookup? key = map.container.lookup? key
      rw [container_iterate]
      exact Container.lookup?_of_thinned (holds.thinned_play script) spares
  | withLocked change => exact spares

theorem honest_watch [BEq ν] (key : κ) :
    Honest (watch key) (fun map : SharedMap κ ν => map.get? key) (Access.Spares key)
      fun _ => True where
  sees _ spares := sees_watch spares
  keeps _ _ := trivial

end Sparing

end Collections.Shared.SharedMap
