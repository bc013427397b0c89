import Collections.Proofs.Weak.Map
import Collections.Proofs.Weak.RefMap.Upkeep
import Collections.Proofs.Weak.Set

/-!
# Weak containers stay small, and their sweeps are cheap

Each call on a weak map or on a weak set comes down to edits of its table (`WeakMap.edits`,
`WeakSet.edits`), as it does for each segment of a reference map (`RefMap.editsAt`). The calls that
insert tend the table first, and no call inserts twice. So what holds of a tended table holds of all
of these: the table has at most twice the slots that the last sweep or clearing left, or sixteen,
and for each slot that was ever inserted it has come upon at most two in its own sweeps
(`weak_tables_stay_small`).

Every call comes with its own account of what is alive, so anything may be reclaimed between two
calls.
-/

set_option autoImplicit false

namespace Collections.Weak

variable {κ ν : Type}

open SlotTable (Edit audit Tends Thrifty Kept)

/-! ## Weak maps -/

namespace WeakMap

/-- Answer a call that comes with the keys that are alive. -/
def attended (map : WeakMap κ ν) (request : (κ → Bool) × Call κ ν) : Reply κ ν × WeakMap κ ν :=
  map.respond request.1 request.2

/-- What a call does to the table. -/
def edits (map : WeakMap κ ν) (request : (κ → Bool) × Call κ ν) : List (Edit (MapSlot κ ν)) :=
  let (alive, call) := request
  match call with
  | .put (some key) value =>
      .tend (fun _ _ => live alive) ::
        match (map.purgeIfDue alive).find? alive key with
        | none => [.insert ⟨map.keying.hash key, key, value⟩]
        | some (position, slot) => [.setAt position { slot with mapped := value }]
  | .erase key =>
      .tend (fun _ _ => live alive) ::
        match (map.purgeIfDue alive).find? alive key with
        | none => []
        | some (position, _) => [.eraseAt position]
  | .clear => [.clear]
  | .purge => [.sweep fun _ _ => live alive]
  | .forEach change =>
      [.sweep fun _ _ => live alive,
        .renew fun slot => { slot with mapped := change slot.key slot.mapped }]
  | _ => []

theorem keying_purgeIfDue (map : WeakMap κ ν) (alive : κ → Bool) :
    (map.purgeIfDue alive).keying = map.keying := by
  unfold purgeIfDue afterSweep
  dsimp only
  split <;> rfl

theorem table_purgeIfDue (map : WeakMap κ ν) (alive : κ → Bool) :
    (map.purgeIfDue alive).table = map.table.edited (.tend fun _ _ => live alive) := by
  rw [SlotTable.edited_tend]
  unfold purgeIfDue afterSweep
  dsimp only
  split <;> rfl

theorem tends : Tends (attended (κ := κ) (ν := ν)) WeakMap.table edits where
  plays map request := by
    obtain ⟨alive, call⟩ := request
    cases call with
    | put key value =>
        cases key with
        | none => rfl
        | some key =>
            simp only [attended, respond, put, edits]
            cases (map.purgeIfDue alive).find? alive key with
            | none =>
                rw [SlotTable.played, ← table_purgeIfDue, ← map.keying_purgeIfDue alive]
                rfl
            | some found =>
                rw [SlotTable.played, ← table_purgeIfDue]
                rfl
    | erase key =>
        simp only [attended, respond, erase, edits]
        cases (map.purgeIfDue alive).find? alive key with
        | none => exact map.table_purgeIfDue alive
        | some found =>
            rw [SlotTable.played, ← table_purgeIfDue]
            rfl
    | purge =>
        refine (map.table_purge alive).trans ?_
        rw [← SlotTable.edited_sweep]
        rfl
    | forEach change =>
        simp only [edits, SlotTable.played, SlotTable.edited_sweep, ← table_purge]
        rfl
    | get | contains | size | isEmpty | clear => rfl
  tended map request := by
    obtain ⟨alive, call⟩ := request
    cases call with
    | put key value =>
        cases key with
        | none => trivial
        | some key =>
            apply SlotTable.tended_tend
            cases (map.purgeIfDue alive).find? alive key with
            | none => exact SlotTable.tended_insert _
            | some found => exact SlotTable.tended_of_adds_eq_false rfl
    | erase key =>
        apply SlotTable.tended_tend
        cases (map.purgeIfDue alive).find? alive key with
        | none => trivial
        | some found => exact SlotTable.tended_of_adds_eq_false rfl
    | clear | purge => exact SlotTable.tended_of_adds_eq_false rfl
    | forEach change =>
        exact ⟨fun adds => absurd adds Bool.false_ne_true, SlotTable.tended_of_adds_eq_false rfl⟩
    | get | contains | size | isEmpty => trivial

end WeakMap

/-! ## Weak sets -/

namespace WeakSet

section Calls

variable [DecidableEq κ]

/-- Answer a call that comes with the elements that are alive. -/
def attended (set : WeakSet κ) (request : (κ → Bool) × Call κ) : Reply κ × WeakSet κ :=
  set.respond request.1 request.2

end Calls

/-- What a call does to the table. -/
def edits (set : WeakSet κ) (request : (κ → Bool) × Call κ) : List (Edit (SetSlot κ)) :=
  let (alive, call) := request
  match call with
  | .insert (some element) =>
      .tend (fun _ _ => live alive) ::
        match (set.purgeIfDue alive).position? alive element with
        | none => [.insert ⟨set.keying.hash element, element⟩]
        | some _ => []
  | .erase (some element) =>
      .tend (fun _ _ => live alive) ::
        match (set.purgeIfDue alive).position? alive element with
        | none => []
        | some (position, _) => [.eraseAt position]
  | .eraseFound element =>
      match element.bind (set.position? alive) with
      | none => []
      | some (position, _) => [.eraseAt position]
  | .removeWhere drop => [.retain (stays alive drop)]
  | .clear => [.clear]
  | .purge => [.sweep fun _ _ => live alive]
  | _ => []

theorem keying_purgeIfDue (set : WeakSet κ) (alive : κ → Bool) :
    (set.purgeIfDue alive).keying = set.keying := by
  unfold purgeIfDue afterSweep
  dsimp only
  split <;> rfl

theorem table_purgeIfDue (set : WeakSet κ) (alive : κ → Bool) :
    (set.purgeIfDue alive).table = set.table.edited (.tend fun _ _ => live alive) := by
  rw [SlotTable.edited_tend]
  unfold purgeIfDue afterSweep
  dsimp only
  split <;> rfl

theorem table_purge (set : WeakSet κ) (alive : κ → Bool) :
    (set.purge alive).2.table = set.table.edited (.sweep fun _ _ => live alive) := by
  rw [SlotTable.edited_sweep]
  unfold purge afterSweep
  dsimp only
  split <;> rfl

theorem tends [DecidableEq κ] : Tends (attended (κ := κ)) WeakSet.table edits where
  plays set request := by
    obtain ⟨alive, call⟩ := request
    cases call with
    | insert element =>
        cases element with
        | none => rfl
        | some element =>
            simp only [attended, respond, insert, edits]
            cases (set.purgeIfDue alive).position? alive element with
            | none =>
                rw [SlotTable.played, ← table_purgeIfDue, ← set.keying_purgeIfDue alive]
                rfl
            | some found => exact set.table_purgeIfDue alive
    | erase element =>
        cases element with
        | none => rfl
        | some element =>
            simp only [attended, respond, erase, edits]
            cases (set.purgeIfDue alive).position? alive element with
            | none => exact set.table_purgeIfDue alive
            | some found =>
                rw [SlotTable.played, ← table_purgeIfDue]
                rfl
    | eraseFound element =>
        simp only [attended, respond, eraseFound, edits]
        cases element.bind (set.position? alive) <;> rfl
    | removeWhere drop =>
        show (set.removeWhere alive drop).2.set.table = _
        rw [(set.removeWhere_eq alive drop).2]
        rfl
    | purge => exact set.table_purge alive
    | find | contains | elements | size | isEmpty | clear => rfl
  tended set request := by
    obtain ⟨alive, call⟩ := request
    cases call with
    | insert element =>
        cases element with
        | none => trivial
        | some element =>
            apply SlotTable.tended_tend
            cases (set.purgeIfDue alive).position? alive element with
            | none => exact SlotTable.tended_insert _
            | some found => trivial
    | erase element =>
        cases element with
        | none => trivial
        | some element =>
            apply SlotTable.tended_tend
            cases (set.purgeIfDue alive).position? alive element with
            | none => trivial
            | some found => exact SlotTable.tended_of_adds_eq_false rfl
    | eraseFound element =>
        simp only [edits]
        cases element.bind (set.position? alive) with
        | none => trivial
        | some found => exact SlotTable.tended_of_adds_eq_false rfl
    | removeWhere | clear | purge => exact SlotTable.tended_of_adds_eq_false rfl
    | find | contains | elements | size | isEmpty => trivial

end WeakSet

/-! ## The theorem -/

/-- **Weak tables stay small, and their upkeep is linear.** For every run of calls on a weak map, on
a weak set or on a reference map, with any reclamations between the calls, and for a reference map
also in the midst of them: as long as tables have fewer than 2^63 slots, the table of the map, that
of the set and each segment has at most twice the slots that the last sweep or clearing left, or
sixteen. In the sweeps that it has made on its own it has come upon at most twice as many slots as
were ever inserted. What is counted is what the calls do to the tables. -/
theorem weak_tables_stay_small [DecidableEq κ] (keying : Keying κ) :
    (Tends (WeakMap.attended (κ := κ) (ν := ν)) WeakMap.table WeakMap.edits ∧
      ∀ requests : List ((κ → Bool) × WeakMap.Call κ ν),
        Admits WeakMap.attended (fun map _ => map.table.slots.length < 2 ^ 63) { keying } requests →
          let run := serve (audit WeakMap.attended WeakMap.table WeakMap.edits) ({ keying }, {})
            requests
          Thrifty run.2.1.table run.2.2) ∧
    (Tends (WeakSet.attended (κ := κ)) WeakSet.table WeakSet.edits ∧
      ∀ requests : List ((κ → Bool) × WeakSet.Call κ),
        Admits WeakSet.attended (fun set _ => set.table.slots.length < 2 ^ 63) { keying } requests →
          let run := serve (audit WeakSet.attended WeakSet.table WeakSet.edits) ({ keying }, {})
            requests
          Thrifty run.2.1.table run.2.2) ∧
    ∀ index : Nat,
      let segment (map : RefMap κ ν) := map.segments.get index
      Tends RefMap.attended segment (RefMap.editsAt index) ∧
        ∀ (sameValue : ν → ν → Bool) (options : RefMapOptions) (map : RefMap κ ν),
          RefMap.make? keying sameValue options = some (.ok map) →
            ∀ requests : List (Moments κ ν × Call κ ν),
              Admits RefMap.attended (fun map _ => (segment map).slots.length < 2 ^ 63) map
                  requests →
                let run := serve (audit RefMap.attended segment (RefMap.editsAt index)) (map, {})
                  requests
                Thrifty (segment run.2.1) run.2.2 := by
  refine ⟨⟨WeakMap.tends, ?_⟩, ⟨WeakSet.tends, ?_⟩, fun index => ⟨RefMap.tends index, ?_⟩⟩
  · intro requests small
    exact (WeakMap.tends.kept Kept.start small).thrifty
  · intro requests small
    exact (WeakSet.tends.kept Kept.start small).thrifty
  · intro sameValue options map made requests small
    refine ((RefMap.tends index).kept ?_ small).thrifty
    show Kept false (map.segments.get index) {}
    rw [RefMap.segments_of_make? made]
    exact Kept.start

/-- One call for each of sixteen objects while all are alive, and one for another object when only
that one is left. -/
def crowding {α ε : Type} (all one : α) (call : Object → ε) : List (α × ε) :=
  (List.range 16).map (fun number => (all, call ⟨number, [], number⟩)) ++
    [(one, call ⟨16, [], 16⟩)]

/-- The calls map the objects in a weak map. -/
def crowdingMap : List ((Object → Bool) × WeakMap.Call Object Int) :=
  crowding (fun _ => true) (·.id = 16) fun object => .put (some object) object.value

/-- The calls insert the objects into a weak set. -/
def crowdingSet : List ((Object → Bool) × WeakSet.Call Object) :=
  crowding (fun _ => true) (·.id = 16) fun object => .insert (some object)

/-- The calls map the objects in a reference map. -/
def crowdingRefMap : List (Moments Object Int × Call Object Int) :=
  crowding (.steady ⟨fun _ => true, fun _ => true⟩) (.steady ⟨(·.id = 16), fun _ => true⟩)
    fun object => .put (some object) (some object.value)

/-- Sixteen objects come and go, and one more comes. Then the one sweep that was due has come upon
sixteen slots and left none, of seventeen that were inserted. -/
theorem weak_tables_stay_small_when_crowded :
    (Admits WeakMap.attended (fun map _ => map.table.slots.length < 2 ^ 63)
          { keying := Keying.plain } crowdingMap ∧
        let run := serve (audit WeakMap.attended WeakMap.table WeakMap.edits)
          ({ keying := Keying.plain }, {}) crowdingMap
        run.2.2 = ⟨0, 16, 17⟩ ∧ Thrifty run.2.1.table run.2.2) ∧
      (Admits WeakSet.attended (fun set _ => set.table.slots.length < 2 ^ 63)
          { keying := Keying.plain } crowdingSet ∧
        let run := serve (audit WeakSet.attended WeakSet.table WeakSet.edits)
          ({ keying := Keying.plain }, {}) crowdingSet
        run.2.2 = ⟨0, 16, 17⟩ ∧ Thrifty run.2.1.table run.2.2) ∧
      ∃ map, RefMap.make? Keying.plain (· == ·) { segmentCount := 1, keyKind := some .weak } =
          some (.ok map) ∧
        Admits RefMap.attended (fun map _ => (map.segments.get 0).slots.length < 2 ^ 63) map
          crowdingRefMap ∧
        let run := serve (audit RefMap.attended (·.segments.get 0) (RefMap.editsAt 0)) (map, {})
          crowdingRefMap
        run.2.2 = ⟨0, 16, 17⟩ ∧ Thrifty (run.2.1.segments.get 0) run.2.2 := by
  obtain ⟨⟨-, mapThrifty⟩, ⟨-, setThrifty⟩, refThrifty⟩ :=
    weak_tables_stay_small (κ := Object) (ν := Int) Keying.plain
  have mapSmall : Admits WeakMap.attended (fun map _ => map.table.slots.length < 2 ^ 63)
      { keying := Keying.plain } crowdingMap := by decide +kernel
  have setSmall : Admits WeakSet.attended (fun set _ => set.table.slots.length < 2 ^ 63)
      { keying := Keying.plain } crowdingSet := by decide +kernel
  refine ⟨⟨mapSmall, by decide +kernel, mapThrifty crowdingMap mapSmall⟩,
    ⟨setSmall, by decide +kernel, setThrifty crowdingSet setSmall⟩, _, rfl, ?_⟩
  refine ⟨by decide +kernel, by decide +kernel, ?_⟩
  exact (refThrifty 0).2 (· == ·) { segmentCount := 1, keyKind := some .weak } _ rfl crowdingRefMap
    (by decide +kernel)

end Collections.Weak
