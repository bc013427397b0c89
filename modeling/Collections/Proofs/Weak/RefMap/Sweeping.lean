import Mathlib.Algebra.Ring.Nat
import Mathlib.Data.List.Basic
import Collections.Proofs.Weak.RefMap.Storage

/-!
# Sweeps and look-ups of a reference map

A call that seeks a key may begin with a sweep of the segment of that key. The sweep lets objects
go, but none that another mapping refers to weakly. So it throws out the mappings that were stale
before the call and no others (`RefMap.Placed.sweepSegment_eq`), and the search behind it finds the
live mapping of the key whenever there is one (`RefMap.Placed.of_hit_eq_none`,
`RefMap.Placed.of_hit_eq_some`).

A requested sweep goes through all segments and leaves no stale mapping (`RefMap.Placed.purge`).
The size of a map and its entries are those of its live mappings (`RefMap.Placed.size_eq`,
`RefMap.Placed.entries_eq`).
-/

set_option autoImplicit false

namespace Collections.Weak

variable {κ ν : Type}

namespace SlotTable

variable {σ : Type} {wanted : σ → Bool} {table : SlotTable σ}

theorem of_find?_eq_none (nothing : table.find? wanted = none) {slot : σ}
    (member : slot ∈ table.slots) : wanted slot = false := by
  cases located : table.slots.findIdx? wanted with
  | none => exact List.findIdx?_eq_none_iff.mp located slot member
  | some position =>
      obtain ⟨inRange, -⟩ := List.findIdx?_eq_some_iff_findIdx_eq.mp located
      rw [find?, position?, located] at nothing
      simp [inRange] at nothing

theorem of_find?_eq_some {position : Nat} {slot : σ}
    (found : table.find? wanted = some (position, slot)) :
    table.slots[position]? = some slot ∧ wanted slot = true := by
  simp only [find?, position?, Option.bind_eq_bind, Option.bind_eq_some_iff, pure,
    Option.some.injEq, Prod.mk.injEq] at found
  obtain ⟨place, located, other, there, rfl, rfl⟩ := found
  refine ⟨there, ?_⟩
  obtain ⟨inRange, holds, -⟩ := List.findIdx?_eq_some_iff_getElem.mp located
  rw [List.getElem?_eq_getElem inRange] at there
  exact Option.some.inj there ▸ holds

/-- The first slot of its kind is found where it is. -/
theorem find?_eq_some {position : Nat} {slot : σ}
    (there : table.slots[position]? = some slot) (found : wanted slot = true)
    (only : ∀ other, other < position → ∀ before, table.slots[other]? = some before →
      wanted before = false) :
    table.find? wanted = some (position, slot) := by
  obtain ⟨inRange, atPosition⟩ := List.getElem?_eq_some_iff.mp there
  have first : table.slots.findIdx? wanted = some position := by
    refine List.findIdx?_eq_some_iff_getElem.mpr ⟨inRange, ?_, fun other earlier => ?_⟩
    · rw [atPosition]
      exact found
    · have isThere := List.getElem?_eq_getElem (Nat.lt_trans earlier inRange)
      rw [only other earlier _ isThere]
      exact Bool.false_ne_true
  rw [find?, position?, first]
  simp [there]

/-- A sweep takes stale slots away and nothing else. -/
theorem exists_gone (table : SlotTable σ) (live : σ → Bool) :
    ∃ gone, table.slots.Perm ((table.sweep live).2.slots ++ gone) ∧
      (∀ slot ∈ gone, live slot = false) ∧ gone.length = (table.sweep live).1 := by
  have parts := List.filter_append_perm live table.slots
  refine ⟨table.slots.filter fun slot => !live slot, parts.symm, fun slot member => ?_, ?_⟩
  · simpa using (List.mem_filter.mp member).2
  · have counted := parts.length_eq
    rw [List.length_append] at counted
    rw [sweep]
    omega

end SlotTable

namespace RefMap

variable {map : RefMap κ ν} {index : Nat} {mapping : Mapping κ ν}

/-! ## Sweeping -/

/-- A sweep that asks at every position anew throws out what a plain one does, if the answers are
the same as long as all that is there is of some sort. -/
theorem keptFrom_eq_filter {σ : Type} {live : Nat → List σ → σ → Bool} {plain : σ → Bool}
    {good : σ → Prop}
    (same : ∀ position there, (∀ slot ∈ there, good slot) →
      ∀ slot ∈ there, live position there slot = plain slot)
    (position : Nat) (kept slots : List σ) (goodKept : ∀ slot ∈ kept, good slot)
    (goodSlots : ∀ slot ∈ slots, good slot) :
    SlotTable.keptFrom live position kept slots = slots.filter plain := by
  induction slots generalizing position kept with
  | nil => rfl
  | cons slot rest ih =>
      have goodSlot := goodSlots slot List.mem_cons_self
      have goodRest : ∀ other ∈ rest, good other := fun other member =>
        goodSlots other (List.mem_cons_of_mem _ member)
      have goodAll : ∀ other ∈ kept ++ slot :: rest, good other := by
        intro other member
        rcases List.mem_append.mp member with inKept | inSlots
        · exact goodKept other inKept
        · exact goodSlots other inSlots
      have here : live position (kept ++ slot :: rest) slot = plain slot :=
        same position _ goodAll slot (List.mem_append_right _ List.mem_cons_self)
      rw [SlotTable.keptFrom, here, List.filter_cons]
      split
      · refine congrArg _ (ih _ _ (fun other member => ?_) goodRest)
        rcases List.mem_append.mp member with inKept | isSlot
        · exact goodKept other inKept
        · exact List.mem_singleton.mp isSlot ▸ goodSlot
      · exact ih _ _ goodKept goodRest

/-- The sweep of a segment takes stale mappings away and nothing else. -/
theorem exists_gone (map : RefMap κ ν) (owned : Liveness κ ν) (index : Nat) :
    ∃ gone, map.stored.Perm
        ((map.withSegment index ((map.segments.get index).sweep (Mapping.live owned)).2).stored ++
          gone) ∧
      (∀ mapping ∈ gone, mapping.live owned = false) ∧
      gone.length = ((map.segments.get index).sweep (Mapping.live owned)).1 := by
  obtain ⟨others, before, after⟩ := map.exists_others index
  obtain ⟨gone, parts, stale, counted⟩ :=
    (map.segments.get index).exists_gone (Mapping.live owned)
  refine ⟨gone, ?_, stale, counted⟩
  refine before.trans ((parts.append_right others).trans ?_)
  refine List.Perm.trans ?_ ((after _).symm.append_right gone)
  rw [List.append_assoc, List.append_assoc]
  exact List.perm_append_comm.append_left _

/-- How many mappings are thrown out by the sweep at the beginning of a call that seeks a key. -/
def sweptFor (map : RefMap κ ν) (owned : Liveness κ ν) (key : κ) : Nat :=
  let table := map.segments.get (map.home key)
  if table.isDue then (table.sweep (Mapping.live owned)).1 else 0

/-- The map after that sweep. -/
def freshened (map : RefMap κ ν) (owned : Liveness κ ν) (key : κ) : RefMap κ ν :=
  let table := map.segments.get (map.home key)
  if table.isDue then map.withSegment (map.home key) (table.sweep (Mapping.live owned)).2 else map

theorem settings_freshened (map : RefMap κ ν) (owned : Liveness κ ν) (key : κ) :
    (map.freshened owned key).settings = map.settings := by
  unfold freshened
  dsimp only
  split <;> rfl

theorem home_freshened (map : RefMap κ ν) (owned : Liveness κ ν) (key : κ) :
    (map.freshened owned key).home key = map.home key := by
  have same := congrArg (fun other => home other key) (map.settings_freshened owned key)
  exact same

theorem mapping_freshened (map : RefMap κ ν) (owned : Liveness κ ν) (sought key : κ) (value : ν) :
    (map.freshened owned sought).mapping key value = map.mapping key value := by
  have same := congrArg (fun other => mapping other key value) (map.settings_freshened owned sought)
  exact same

theorem agree_some (map : RefMap κ ν) (value : ν) (other : Option ν) :
    map.agree (some value) other = other.any (map.sameValue value) := by
  cases other <;> rfl

theorem Placed.freshened (placed : map.Placed) (owned : Liveness κ ν) (key : κ) :
    (map.freshened owned key).Placed := by
  unfold RefMap.freshened
  dsimp only
  split
  · exact placed.withSegment fun mapping member => placed _ _ (SlotTable.mem_sweep.mp member).1
  · exact placed

theorem exists_gone_freshened (map : RefMap κ ν) (owned : Liveness κ ν) (key : κ) :
    ∃ gone, map.stored.Perm ((map.freshened owned key).stored ++ gone) ∧
      (∀ mapping ∈ gone, mapping.live owned = false) ∧
      gone.length = map.sweptFor owned key := by
  unfold freshened sweptFor
  dsimp only
  split
  · exact map.exists_gone owned _
  · exact ⟨[], by rw [List.append_nil], fun _ none => absurd none List.not_mem_nil, rfl⟩

/-! ## The whole map -/

theorem total_eq_sum (map : RefMap κ ν) (count : SlotTable (Mapping κ ν) → Nat) :
    map.total count = (map.used.map count).sum := by
  have shifted : ∀ (tables : List (SlotTable (Mapping κ ν))) (start : Nat),
      tables.foldl (fun sum table => sum + count table) start =
        start + (tables.map count).sum := by
    intro tables
    induction tables with
    | nil => exact fun start => rfl
    | cons first rest ih =>
        intro start
        rw [List.foldl_cons, ih, List.map_cons, List.sum_cons, Nat.add_assoc]
  rw [total, shifted, Nat.zero_add]

theorem stored_clear (map : RefMap κ ν) : map.clear.stored = [] := by
  show (map.segments.written.map SlotTable.clear).flatMap SlotTable.slots = []
  rw [List.flatMap_map]
  exact List.flatMap_eq_nil_iff.mpr fun _ _ => rfl

theorem placed_of_stored_eq_nil (empty : map.stored = []) : map.Placed := by
  intro index mapping member
  obtain ⟨others, before, -⟩ := map.exists_others index
  have inStored : mapping ∈ map.stored := before.mem_iff.mpr (List.mem_append_left _ member)
  rw [empty] at inStored
  exact absurd inStored List.not_mem_nil

/-! ## Calls -/

section Calls

variable [DecidableEq κ] [DecidableEq ν] {owned : Liveness κ ν}

/-- **A sweep throws out what was stale before it.** It lets objects go, but none that another
mapping of the map refers to weakly. -/
theorem Placed.sweepSegment_eq (placed : map.Placed) (owned : Liveness κ ν) (index : Nat) :
    map.sweepSegment (fun _ => aliveWith owned) index =
      (((map.segments.get index).sweep (Mapping.live owned)).1,
        map.withSegment index ((map.segments.get index).sweep (Mapping.live owned)).2) := by
  have kept : SlotTable.keptFrom
      (fun _ there => Mapping.live (aliveWith owned (map.withSlots index there))) 0 []
        (map.segments.get index).slots =
      (map.segments.get index).slots.filter (Mapping.live owned) := by
    refine keptFrom_eq_filter (fun _ there fits mapping member => ?_) 0 [] _
      (fun _ none => absurd none List.not_mem_nil) (placed index)
    have placedThere : (map.withSlots index there).Placed := placed.withSegment fits
    exact (fits mapping member).live_congr (placedThere.alike owned)
  rw [sweepSegment, SlotTable.sweepDuring, kept]
  rfl

/-- The live mapping of a key, with its position in the segment of the key. -/
def hit (map : RefMap κ ν) (owned : Liveness κ ν) (key : κ) : Option (Nat × Mapping κ ν) :=
  (map.segments.get (map.home key)).find?
    (Mapping.wanted map.keying key (map.aliveWith owned))

/-- A look-up sweeps as if nothing were reclaimed meanwhile, and finds the live mapping of the
key. -/
theorem Placed.lookup_eq (placed : map.Placed) (owned : Liveness κ ν) (key : κ) :
    map.lookup (.following (aliveWith owned)) key =
      { map := map.freshened owned key
        index := (map.freshened owned key).home key
        found := (map.freshened owned key).hit owned key } := by
  rw [hit, home_freshened]
  simp only [lookup, RefMap.freshened, Moments.following, placed.sweepSegment_eq,
    SlotTable.findDuring?_const]

/-- If nothing is found, the map has no live mapping of the key. -/
theorem Placed.of_hit_eq_none (placed : map.Placed) {key : κ} (missed : map.hit owned key = none)
    (member : mapping ∈ map.stored) (live : mapping.live owned = true) :
    map.keying.same mapping.key.target key = false := by
  cases same : map.keying.same mapping.key.target key with
  | false => rfl
  | true =>
      have inHome := placed.mem_home member same
      have unwanted := SlotTable.of_find?_eq_none missed inHome
      rw [(placed _ mapping inHome).wanted_eq (placed.alike owned), live, same] at unwanted
      cases unwanted

/-- What is found is a live mapping of the key. -/
theorem Placed.of_hit_eq_some (placed : map.Placed) {key : κ} {position : Nat}
    (found : map.hit owned key = some (position, mapping)) :
    (map.segments.get (map.home key)).slots[position]? = some mapping ∧
      mapping.live owned = true ∧ map.keying.same mapping.key.target key = true := by
  obtain ⟨there, wanted⟩ := SlotTable.of_find?_eq_some found
  have fits := placed _ mapping (List.mem_of_getElem? there)
  rw [fits.wanted_eq (placed.alike owned), Bool.and_eq_true] at wanted
  exact ⟨there, wanted⟩

/-- The value of a mapping that was found is there. -/
theorem Placed.value_of_hit (placed : map.Placed) {key : κ} {position : Nat}
    (found : map.hit owned key = some (position, mapping)) :
    mapping.value.get? (map.aliveWith owned).value = some mapping.value.target := by
  obtain ⟨there, live, -⟩ := placed.of_hit_eq_some found
  have fits := placed _ mapping (List.mem_of_getElem? there)
  refine Mapping.value_of_live ?_
  rw [fits.live_congr (placed.alike owned), live]

/-! ### Calls that seek a key -/

variable {key : κ}

/-- What a look-up finds has its value when it is used. -/
theorem Placed.value?_eq (placed : map.Placed) {position : Nat}
    (found : (map.freshened owned key).hit owned key = some (position, mapping)) :
    (map.lookup (.following (aliveWith owned)) key).value? (.following (aliveWith owned)) mapping =
      some mapping.value.target := by
  rw [placed.lookup_eq]
  exact (placed.freshened owned key).value_of_hit found

/-- To put a key is to look at the live mapping that it has after the sweep. -/
theorem Placed.put_eq (placed : map.Placed) (value : ν) :
    map.put (.following (aliveWith owned)) (some key) (some value) =
      match (map.freshened owned key).hit owned key with
      | none => (.ok none, (map.freshened owned key).inserted key value)
      | some (position, mapping) =>
          (.ok (some mapping.value.target),
            (map.freshened owned key).revalued key position mapping value) := by
  unfold RefMap.put
  dsimp only
  cases hit : (map.freshened owned key).hit owned key with
  | none =>
      rw [placed.lookup_eq, hit, RefMap.inserted, mapping_freshened]
      rfl
  | some found =>
      have value? := placed.value?_eq hit
      rw [placed.lookup_eq, hit] at *
      dsimp only
      rw [value?]
      rfl

theorem Placed.putIfAbsent_eq (placed : map.Placed) (value : ν) :
    map.putIfAbsent (.following (aliveWith owned)) (some key) (some value) =
      match (map.freshened owned key).hit owned key with
      | none => (.ok none, (map.freshened owned key).inserted key value)
      | some (_, mapping) => (.ok (some mapping.value.target), map.freshened owned key) := by
  unfold RefMap.putIfAbsent
  dsimp only
  cases hit : (map.freshened owned key).hit owned key with
  | none =>
      rw [placed.lookup_eq, hit, RefMap.inserted, mapping_freshened]
      rfl
  | some found =>
      have value? := placed.value?_eq hit
      rw [placed.lookup_eq, hit] at *
      dsimp only
      rw [value?]

theorem Placed.replace_eq (placed : map.Placed) (value : ν) :
    map.replace (.following (aliveWith owned)) key (some value) =
      match (map.freshened owned key).hit owned key with
      | none => (.ok none, map.freshened owned key)
      | some (position, mapping) =>
          (.ok (some mapping.value.target),
            (map.freshened owned key).revalued key position mapping value) := by
  unfold RefMap.replace
  dsimp only
  cases hit : (map.freshened owned key).hit owned key with
  | none => rw [placed.lookup_eq, hit]
  | some found =>
      have value? := placed.value?_eq hit
      rw [placed.lookup_eq, hit] at *
      dsimp only
      rw [value?]
      rfl

theorem Placed.replaceIf_eq (placed : map.Placed) (old : Option ν) (new : ν) :
    map.replaceIf (.following (aliveWith owned)) key old (some new) =
      match (map.freshened owned key).hit owned key with
      | none => (.ok false, map.freshened owned key)
      | some (position, mapping) =>
          if old.any (map.sameValue mapping.value.target) then
            (.ok true, (map.freshened owned key).revalued key position mapping new)
          else (.ok false, map.freshened owned key) := by
  unfold RefMap.replaceIf
  dsimp only
  cases hit : (map.freshened owned key).hit owned key with
  | none => rw [placed.lookup_eq, hit]
  | some found =>
      have value? := placed.value?_eq hit
      rw [placed.lookup_eq, hit] at *
      dsimp only
      rw [value?, agree_some]
      rfl

theorem Placed.erase_eq (placed : map.Placed) :
    map.erase (.following (aliveWith owned)) key =
      match (map.freshened owned key).hit owned key with
      | none => (none, map.freshened owned key)
      | some (position, mapping) =>
          (some mapping.value.target, (map.freshened owned key).erased key position) := by
  unfold RefMap.erase
  dsimp only
  cases hit : (map.freshened owned key).hit owned key with
  | none => rw [placed.lookup_eq, hit]
  | some found =>
      have value? := placed.value?_eq hit
      rw [placed.lookup_eq, hit] at *
      dsimp only
      rw [value?]
      rfl

theorem Placed.removeIf_eq (placed : map.Placed) (value : Option ν) :
    map.removeIf (.following (aliveWith owned)) key value =
      match (map.freshened owned key).hit owned key with
      | none => (false, map.freshened owned key)
      | some (position, mapping) =>
          if value.any (map.sameValue mapping.value.target) then
            (true, (map.freshened owned key).erased key position)
          else (false, map.freshened owned key) := by
  unfold RefMap.removeIf
  dsimp only
  cases hit : (map.freshened owned key).hit owned key with
  | none => rw [placed.lookup_eq, hit]
  | some found =>
      have value? := placed.value?_eq hit
      rw [placed.lookup_eq, hit] at *
      dsimp only
      rw [value?, agree_some]
      rfl

/-- To get a key is to look at the live mapping that it has. Nothing is swept. -/
theorem Placed.get?_eq (placed : map.Placed) :
    map.get? (map.aliveWith owned) key =
      (map.hit owned key).map fun (_, mapping) => mapping.value.target := by
  show ((map.hit owned key).bind fun found => found.2.value.get? (map.aliveWith owned).value) = _
  cases hit : map.hit owned key with
  | none => rfl
  | some found => exact placed.value_of_hit hit

/-! ### Calls on the whole map -/

theorem Placed.size_eq (placed : map.Placed) (owned : Liveness κ ν) :
    map.size (map.aliveWith owned) = map.stored.countP (Mapping.live owned) := by
  have counted : map.size (map.aliveWith owned) =
      map.stored.countP (Mapping.live (map.aliveWith owned)) := by
    rw [size, total_eq_sum, stored, List.countP_flatMap]
    rfl
  rw [counted]
  refine List.countP_congr fun mapping member => ?_
  obtain ⟨index, fits⟩ := placed.exists_fits member
  rw [fits.live_congr (placed.alike owned)]

theorem Placed.entries_eq (placed : map.Placed) (owned : Liveness κ ν) :
    map.entries (map.aliveWith owned) =
      (map.stored.filter (Mapping.live owned)).map Mapping.pair := by
  have visible : map.stored.filterMap (Mapping.pair? (map.aliveWith owned)) =
      map.stored.filterMap fun mapping =>
        if mapping.live owned then some mapping.pair else none := by
    refine List.filterMap_congr fun mapping member => ?_
    obtain ⟨index, fits⟩ := placed.exists_fits member
    rw [fits.pair?_congr (placed.alike owned), Mapping.pair?_eq]
  rw [entries_eq_seen, visible, ← List.filterMap_eq_map, List.filterMap_filter]
  rfl

/-- **A requested sweep throws out the stale mappings of the segments it goes through**, and tells
how many there were. -/
theorem Placed.sweepSegments (placed : map.Placed) (owned : Liveness κ ν) (indices : List Nat) :
    let (purged, after) := map.sweepSegments (aliveWith owned) indices
    after.settings = map.settings ∧ after.Placed ∧
      (∃ gone, map.stored.Perm (after.stored ++ gone) ∧
        (∀ mapping ∈ gone, mapping.live owned = false) ∧ gone.length = purged) ∧
      ∀ index, (index ∈ indices ∨
          ∀ mapping ∈ (map.segments.get index).slots, mapping.live owned = true) →
        ∀ mapping ∈ (after.segments.get index).slots, mapping.live owned = true := by
  induction indices generalizing map with
  | nil =>
      exact ⟨rfl, placed,
        ⟨[], by rw [List.append_nil], fun _ none => absurd none List.not_mem_nil, rfl⟩,
        fun index clean => clean.resolve_left List.not_mem_nil⟩
  | cons first rest ih =>
      rw [RefMap.sweepSegments, placed.sweepSegment_eq owned first]
      obtain ⟨gone, parts, stale, counted⟩ := map.exists_gone owned first
      have placedThen : (map.withSegment first
          ((map.segments.get first).sweep (Mapping.live owned)).2).Placed :=
        placed.withSegment fun mapping member =>
          placed _ _ (SlotTable.mem_sweep.mp member).1
      obtain ⟨settings, placedLast, ⟨more, partsLast, staleLast, countedLast⟩, clean⟩ :=
        ih placedThen
      refine ⟨settings, placedLast, ⟨more ++ gone, ?_, ?_, ?_⟩, fun index named => clean index ?_⟩
      · refine parts.trans ((partsLast.append_right gone).trans ?_)
        rw [List.append_assoc]
      · intro mapping member
        exact (List.mem_append.mp member).elim (staleLast mapping) (stale mapping)
      · rw [List.length_append, countedLast, counted, Nat.add_comm]
      · by_cases here : index = first
        · subst here
          refine .inr fun mapping member => ?_
          rw [RefMap.withSegment, Table.get_set_self] at member
          exact (SlotTable.mem_sweep.mp member).2
        · rw [RefMap.withSegment, Table.get_set_of_ne _ _ here]
          exact named.imp_left fun member => (List.mem_cons.mp member).resolve_left here

/-- A requested sweep of the whole map leaves no stale mapping. -/
theorem Placed.purge (placed : map.Placed) (owned : Liveness κ ν) :
    (map.purge (aliveWith owned)).2.settings = map.settings ∧
      (map.purge (aliveWith owned)).2.Placed ∧
      (∃ gone, map.stored.Perm ((map.purge (aliveWith owned)).2.stored ++ gone) ∧
        (∀ mapping ∈ gone, mapping.live owned = false) ∧
        gone.length = (map.purge (aliveWith owned)).1) ∧
      ∀ mapping ∈ (map.purge (aliveWith owned)).2.stored, mapping.live owned = true := by
  obtain ⟨settings, placedAfter, gone, clean⟩ :=
    placed.sweepSegments owned (List.range map.used.length)
  have allLive : ∀ mapping ∈
      (map.sweepSegments (aliveWith owned) (List.range map.used.length)).2.stored,
      mapping.live owned = true := by
    intro mapping member
    obtain ⟨index, inSegment⟩ := exists_segment member
    refine clean index ?_ mapping inSegment
    by_cases used : index < map.used.length
    · exact .inl (List.mem_range.mpr used)
    · refine .inr fun other inBlank => ?_
      have blank : map.segments.written[index]? = none :=
        List.getElem?_eq_none (Nat.le_of_not_lt used)
      rw [Table.get, blank] at inBlank
      exact absurd inBlank List.not_mem_nil
  unfold RefMap.purge
  dsimp only
  split
  · exact ⟨settings, placedAfter, gone, allLive⟩
  · exact ⟨settings, placedAfter.say _, gone, allLive⟩

end Calls

end RefMap

end Collections.Weak
