import Collections.Proofs.Weak.RefMap.Storage

/-!
# Calls in the course of which objects are reclaimed

A call on a reference map asks of one object after the other whether it is alive: of the key and of
the value of each mapping that it sweeps, of those of each mapping that it compares with its key, and
last of the value of the mapping that it has found. Only other calls are kept off meanwhile. Objects
may be reclaimed between any two of these questions, and stay so (`Course`).

What a sweep throws out has thus been stale when the sweep came by, and is stale ever after
(`RefMap.Placed.swept`). What a search finds has been live at some instant, and need not be so any
more. What it passes over is stale by the time it ends (`RefMap.Searched`).
-/

set_option autoImplicit false

namespace Collections.Weak

variable {κ ν : Type}

/-! ## Objects that are reclaimed -/

/-- What is alive by one account is alive by another. -/
structure Liveness.Within (left right : Liveness κ ν) : Prop where
  key : ∀ key, left.key key = true → right.key key = true
  value : ∀ value, left.value value = true → right.value value = true

namespace Liveness.Within

variable {left middle right : Liveness κ ν}

theorem refl (alive : Liveness κ ν) : alive.Within alive := ⟨fun _ => id, fun _ => id⟩

theorem trans (first : left.Within middle) (second : middle.Within right) : left.Within right :=
  ⟨fun key alive => second.key key (first.key key alive),
    fun value alive => second.value value (first.value value alive)⟩

end Liveness.Within

theorem Slot.expired_of_within {α : Type} {slot : Slot α} {left right : α → Bool}
    (within : ∀ object, left object = true → right object = true)
    (expired : slot.expired right = true) : slot.expired left = true := by
  rw [Slot.expired, Bool.and_eq_true, Bool.not_eq_true'] at expired ⊢
  exact ⟨expired.1, Bool.eq_false_iff.mpr fun alive =>
    Bool.eq_false_iff.mp expired.2 (within _ alive)⟩

/-- A mapping that is stale stays so. -/
theorem Mapping.stale_of_within {left right : Liveness κ ν} {mapping : Mapping κ ν}
    (within : left.Within right) (stale : mapping.live right = false) :
    mapping.live left = false := by
  rw [live, Bool.not_eq_false', Bool.or_eq_true] at stale ⊢
  exact stale.imp (Slot.expired_of_within within.key) (Slot.expired_of_within within.value)

theorem Mapping.live_of_within {left right : Liveness κ ν} {mapping : Mapping κ ν}
    (within : left.Within right) (live : mapping.live left = true) :
    mapping.live right = true := by
  cases right : mapping.live right with
  | true => rfl
  | false =>
      rw [stale_of_within within right] at live
      cases live

/-! ## Courses -/

/-- The questions that a call asks before it uses what it has found. Each is whether the key or the
value at some position is alive. -/
inductive Question where
  | sweptKey (position : Nat)
  | sweptValue (position : Nat)
  | soughtKey (position : Nat)
  | soughtValue (position : Nat)

/-- What is alive from instant to instant, and the instants at which a call asks. The last question
is about the value of what was found, when it is used. -/
structure Course (κ ν : Type) where
  alive : Nat → Liveness κ ν
  instant : Question → Nat
  use : Nat
  fades : ∀ earlier later, earlier ≤ later → (alive later).Within (alive earlier)
  inTime : ∀ test, instant test ≤ use

namespace Course

/-- The answers to two questions, one about a key and one about a value. -/
def seen (course : Course κ ν) (key value : Question) : Liveness κ ν where
  key := (course.alive (course.instant key)).key
  value := (course.alive (course.instant value)).value

/-- What is alive when the call is over. -/
def last (course : Course κ ν) : Liveness κ ν := course.alive course.use

def moments (course : Course κ ν) : Moments κ ν where
  sweep position _ := course.seen (.sweptKey position) (.sweptValue position)
  search position _ := course.seen (.soughtKey position) (.soughtValue position)
  use _ := course.last

/-- Nothing is reclaimed. -/
def still (alive : Liveness κ ν) : Course κ ν where
  alive _ := alive
  instant _ := 0
  use := 0
  fades _ _ _ := .refl alive
  inTime _ := Nat.le_refl 0

/-- Objects are reclaimed once all questions but the last one have been asked. -/
def losing (before after : Liveness κ ν) (within : after.Within before) : Course κ ν where
  alive
    | 0 => before
    | _ + 1 => after
  instant _ := 0
  use := 1
  fades
    | 0, 0, _ => .refl before
    | 0, _ + 1, _ => within
    | _ + 1, _ + 1, _ => .refl after
  inTime _ := Nat.zero_le 1

theorem moments_still (alive : Liveness κ ν) : (still alive).moments = .steady alive := rfl

variable (course : Course κ ν)

/-- What is alive in the end was alive whenever it was asked about. -/
theorem last_within_seen (key value : Question) : course.last.Within (course.seen key value) :=
  ⟨(course.fades _ _ (course.inTime key)).key, (course.fades _ _ (course.inTime value)).value⟩

theorem last_within {instant : Nat} (inTime : instant ≤ course.use) :
    course.last.Within (course.alive instant) :=
  course.fades _ _ inTime

theorem within_first (instant : Nat) : (course.alive instant).Within (course.alive 0) :=
  course.fades _ _ (Nat.zero_le instant)

/-- What was alive at two questions was alive at the earlier one. -/
theorem exists_seen_within (key value : Question) :
    ∃ instant ≤ course.use, (course.seen key value).Within (course.alive instant) :=
  ⟨min (course.instant key) (course.instant value),
    Nat.le_trans (Nat.min_le_left ..) (course.inTime key),
    (course.fades _ _ (Nat.min_le_left ..)).key, (course.fades _ _ (Nat.min_le_right ..)).value⟩

end Course

/-! ## Tables in the course of a call -/

namespace SlotTable

variable {σ : Type}

/-- A sweep throws out what it finds stale, and nothing else. -/
theorem exists_gone_keptFrom (live : Nat → List σ → σ → Bool) (position : Nat)
    (kept slots : List σ) :
    ∃ gone, slots.Perm (keptFrom live position kept slots ++ gone) ∧
      ∀ slot ∈ gone, ∃ position there, live position there slot = false := by
  induction slots generalizing position kept with
  | nil => exact ⟨[], .nil, fun _ none => absurd none List.not_mem_nil⟩
  | cons slot rest ih =>
      rw [keptFrom]
      by_cases here : live position (kept ++ slot :: rest) slot = true
      · rw [if_pos here]
        obtain ⟨gone, parts, stale⟩ := ih (position + 1) (kept ++ [slot])
        exact ⟨gone, parts.cons slot, stale⟩
      · rw [if_neg here]
        obtain ⟨gone, parts, stale⟩ := ih (position + 1) kept
        refine ⟨slot :: gone, (parts.cons slot).trans List.perm_middle.symm, ?_⟩
        rw [List.forall_mem_cons]
        exact ⟨⟨position, _, Bool.eq_false_iff.mpr here⟩, stale⟩

variable {wanted : Nat → σ → Bool} {table : SlotTable σ}

theorem of_findDuring?_eq_none (nothing : table.findDuring? wanted = none) {slot : σ}
    (member : slot ∈ table.slots) : ∃ position, wanted position slot = false := by
  obtain ⟨position, there⟩ := List.mem_iff_getElem?.mp member
  rw [findDuring?, Option.map_eq_none_iff, List.find?_eq_none] at nothing
  exact ⟨position, Bool.eq_false_iff.mpr
    (nothing (slot, position) (List.mk_mem_zipIdx_iff_getElem?.mpr there))⟩

theorem of_findDuring?_eq_some {position : Nat} {slot : σ}
    (found : table.findDuring? wanted = some (position, slot)) :
    table.slots[position]? = some slot ∧ wanted position slot = true := by
  rw [findDuring?, Option.map_eq_some_iff] at found
  obtain ⟨⟨other, place⟩, first, equal⟩ := found
  obtain ⟨rfl, rfl⟩ := Prod.mk.inj equal
  have selected := List.find?_some first
  exact ⟨List.mk_mem_zipIdx_iff_getElem?.mp (List.mem_of_find?_eq_some first), selected⟩

end SlotTable

/-! ## Look-ups in the course of a call -/

namespace RefMap

variable {map : RefMap κ ν}

/-- The sweep of a segment throws out what it finds stale, and nothing else. -/
theorem Placed.swept (placed : map.Placed) (alive : Nat → RefMap κ ν → Liveness κ ν)
    (index : Nat) :
    let after := (map.sweepSegment alive index).2
    after.settings = map.settings ∧ after.Placed ∧
      ∃ gone, map.stored.Perm (after.stored ++ gone) ∧
        ∀ mapping ∈ gone, ∃ position there, mapping.live (alive position there) = false := by
  intro after
  obtain ⟨others, before, rewritten⟩ := map.exists_others index
  obtain ⟨gone, parts, stale⟩ := SlotTable.exists_gone_keptFrom
    (fun position there => Mapping.live (alive position (map.withSlots index there))) 0 []
      (map.segments.get index).slots
  refine ⟨rfl, placed.withSegment fun mapping member => ?_, gone, ?_, fun mapping member => ?_⟩
  · exact placed index mapping (parts.mem_iff.mpr (List.mem_append_left _ member))
  · refine before.trans ((parts.append_right others).trans ?_)
    refine List.Perm.trans ?_ ((rewritten _).symm.append_right gone)
    rw [List.append_assoc, List.append_assoc]
    exact List.perm_append_comm.append_left _
  · obtain ⟨position, there, found⟩ := stale mapping member
    exact ⟨position, _, found⟩

/-- Whether the search for a key that has come to a position finds a mapping there. -/
def wantedIn (map : RefMap κ ν) (course : Course κ ν) (key : κ) (position : Nat) :
    Mapping κ ν → Bool :=
  Mapping.wanted map.keying key (course.seen (.soughtKey position) (.soughtValue position))

/-- A search that finds nothing leaves nothing live behind. -/
theorem Placed.stale_of_missed (placed : map.Placed) (course : Course κ ν) {key : κ}
    (nothing : (map.segments.get (map.home key)).findDuring? (map.wantedIn course key) = none)
    {mapping : Mapping κ ν} (member : mapping ∈ map.stored)
    (same : map.keying.same mapping.key.target key = true) :
    mapping.live course.last = false := by
  have inHome := placed.mem_home member same
  obtain ⟨position, passed⟩ := SlotTable.of_findDuring?_eq_none nothing inHome
  rw [wantedIn, (placed _ mapping inHome).wanted_eq (.refl _), same, Bool.and_true] at passed
  exact Mapping.stale_of_within (course.last_within_seen _ _) passed

/-- What a search finds was live at some instant. -/
theorem Placed.live_of_hit (placed : map.Placed) (course : Course κ ν) {key : κ} {position : Nat}
    {mapping : Mapping κ ν}
    (found : (map.segments.get (map.home key)).findDuring? (map.wantedIn course key) =
      some (position, mapping)) :
    (map.segments.get (map.home key)).slots[position]? = some mapping ∧
      map.keying.same mapping.key.target key = true ∧
      ∃ instant ≤ course.use, mapping.live (course.alive instant) = true := by
  obtain ⟨there, wanted⟩ := SlotTable.of_findDuring?_eq_some found
  rw [wantedIn, (placed _ mapping (List.mem_of_getElem? there)).wanted_eq (.refl _),
    Bool.and_eq_true] at wanted
  obtain ⟨instant, inTime, within⟩ :=
    course.exists_seen_within (.soughtKey position) (.soughtValue position)
  exact ⟨there, wanted.2, instant, inTime, Mapping.live_of_within within wanted.1⟩

/-- What a look-up of a key does in the course of a call. -/
structure Searched (map : RefMap κ ν) (course : Course κ ν) (key : κ) (lookup : Lookup κ ν) :
    Prop where
  settings : lookup.map.settings = map.settings
  index : lookup.index = lookup.map.home key
  placed : lookup.map.Placed
  /-- What was thrown out is stale. -/
  swept : ∃ gone, map.stored.Perm (lookup.map.stored ++ gone) ∧
    ∀ mapping ∈ gone, mapping.live course.last = false
  /-- If nothing was found, all mappings of the key are stale. -/
  missed : lookup.found = none → ∀ mapping ∈ lookup.map.stored,
    map.keying.same mapping.key.target key = true → mapping.live course.last = false
  /-- What was found is a mapping of the key, and was live at some instant. -/
  hit : ∀ position mapping, lookup.found = some (position, mapping) →
    (lookup.map.segments.get lookup.index).slots[position]? = some mapping ∧
      map.keying.same mapping.key.target key = true ∧
      ∃ instant ≤ course.use, mapping.live (course.alive instant) = true

theorem home_of_settings {other : RefMap κ ν} (same : other.settings = map.settings) (key : κ) :
    other.home key = map.home key :=
  have equal := congrArg (fun settings => home settings key) same
  equal

theorem keying_of_settings {other : RefMap κ ν} (same : other.settings = map.settings) :
    other.keying = map.keying :=
  have equal := congrArg RefMap.keying same
  equal

/-- The sweep at the beginning of a call, if it is time for one. -/
theorem Placed.exists_swept (placed : map.Placed) (course : Course κ ν) (key : κ) :
    ∃ swept : RefMap κ ν,
      map.lookup course.moments key = ⟨swept, map.home key,
        (swept.segments.get (map.home key)).findDuring? (swept.wantedIn course key)⟩ ∧
      swept.settings = map.settings ∧ swept.Placed ∧
      ∃ gone, map.stored.Perm (swept.stored ++ gone) ∧
        ∀ mapping ∈ gone, mapping.live course.last = false := by
  refine ⟨_, rfl, ?_⟩
  split
  · obtain ⟨settings, after, gone, parts, stale⟩ :=
      placed.swept course.moments.sweep (map.home key)
    refine ⟨settings, after, gone, parts, fun mapping member => ?_⟩
    obtain ⟨position, there, found⟩ := stale mapping member
    exact Mapping.stale_of_within (course.last_within_seen _ _) found
  · exact ⟨rfl, placed, [], by rw [List.append_nil], fun _ none => absurd none List.not_mem_nil⟩

/-- **A call in its course finds a mapping that was live at some instant, or else leaves no live one
behind.** -/
theorem Placed.searched (placed : map.Placed) (course : Course κ ν) (key : κ) :
    Searched map course key (map.lookup course.moments key) := by
  obtain ⟨swept, whole, settings, after, gone⟩ := placed.exists_swept course key
  rw [← home_of_settings settings] at whole
  rw [whole]
  refine ⟨settings, rfl, after, gone, fun nothing mapping member same => ?_,
    fun position mapping found => ?_⟩
  · rw [← keying_of_settings settings] at same
    exact after.stale_of_missed course nothing member same
  · rw [← keying_of_settings settings]
    exact after.live_of_hit course found

end RefMap

end Collections.Weak
