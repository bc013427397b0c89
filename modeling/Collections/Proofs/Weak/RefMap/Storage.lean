import Collections.Weak.RefMap.Basic

/-!
# What a reference map stores

A map stores mappings in segments, live and stale ones. A mapping stands in the segment of its key,
under the hash of its key, and refers to its objects as the map does (`RefMap.Placed`).

Callers hold some objects and the map keeps others (`RefMap.aliveWith`). What the map keeps is
never what it refers to weakly, so whether a mapping is live depends on the callers alone
(`RefMap.Placed.alike`, `RefMap.Fits.live_congr`).

Up to order, the stored mappings are those of one segment and some others
(`RefMap.exists_others`). So an edit of one segment is an edit of the whole store: a new mapping
comes to it (`RefMap.stored_inserted`), or one mapping is given another value or leaves it
(`RefMap.exists_rest`).
-/

set_option autoImplicit false

namespace Collections

/-- The lists in a table are, up to order, that at one index and some others. -/
theorem Table.exists_others {β γ : Type} [Inhabited β] (content : β → List γ)
    (blank : content default = []) (table : Table β) (index : Nat) :
    ∃ others, (table.written.flatMap content).Perm (content (table.get index) ++ others) ∧
      ∀ value,
        ((table.set index value).written.flatMap content).Perm (content value ++ others) := by
  obtain ⟨written⟩ := table
  simp only [get, set]
  induction written generalizing index with
  | nil =>
      refine ⟨[], by simp [blank], fun value => ?_⟩
      induction index with
      | zero => simp [write]
      | succ index ih => simpa [write, blank] using ih
  | cons first rest ih =>
      cases index with
      | zero => exact ⟨rest.flatMap content, by simp, fun value => by simp [write]⟩
      | succ index =>
          obtain ⟨others, before, after⟩ := ih index
          refine ⟨content first ++ others, ?_, fun value => ?_⟩
          · simp only [List.flatMap_cons, List.getElem?_cons_succ]
            exact (before.append_left _).trans (List.perm_append_comm_assoc _ _ _)
          · simp only [write, List.flatMap_cons]
            exact ((after value).append_left _).trans (List.perm_append_comm_assoc _ _ _)

/-- What is written in a table stands at some index. -/
theorem Table.exists_get {β : Type} [Inhabited β] {table : Table β} {value : β}
    (member : value ∈ table.written) : ∃ index, table.get index = value := by
  obtain ⟨index, found⟩ := List.mem_iff_getElem?.mp member
  exact ⟨index, by rw [get, found]; rfl⟩

namespace Weak

variable {κ ν : Type}

/-- Beside a slot there is the rest, whatever becomes of that slot. -/
theorem SlotTable.exists_rest {σ : Type} {table : SlotTable σ} {position : Nat} {slot : σ}
    (there : table.slots[position]? = some slot) :
    ∃ rest, table.slots.Perm (slot :: rest) ∧
      (∀ other, (table.setAt position other).slots.Perm (other :: rest)) ∧
      (table.eraseAt position).slots.Perm rest := by
  obtain ⟨inRange, -⟩ := List.getElem?_eq_some_iff.mp there
  obtain ⟨front, middle, back, slots, rfl, -⟩ := List.exists_of_modify id inRange
  obtain rfl : middle = slot := by simpa [slots] using there
  refine ⟨front ++ back, ?_, fun other => ?_, ?_⟩
  · rw [slots]
    exact List.perm_middle
  · have overwritten : (front ++ middle :: back).set front.length other =
        front ++ other :: back := by
      simp
    rw [setAt, slots, overwritten]
    exact List.perm_middle
  · have without : (front ++ middle :: back).eraseIdx front.length = front ++ back := by
      simp [List.eraseIdx_append_of_length_le]
    rw [eraseAt, slots, without]

/-! ## What is alive -/

/-- Two accounts of what is alive agree on the objects that are held weakly. -/
structure Liveness.Alike (keyKind valueKind : RefType) (left right : Liveness κ ν) : Prop where
  key : keyKind.isWeak = true → left.key = right.key
  value : valueKind.isWeak = true → left.value = right.value

namespace Liveness.Alike

variable {keyKind valueKind : RefType} {left middle right : Liveness κ ν}

theorem refl (alive : Liveness κ ν) : Alike keyKind valueKind alive alive :=
  ⟨fun _ => rfl, fun _ => rfl⟩

theorem symm (alike : Alike keyKind valueKind left right) : Alike keyKind valueKind right left :=
  ⟨fun weak => (alike.key weak).symm, fun weak => (alike.value weak).symm⟩

theorem trans (first : Alike keyKind valueKind left middle)
    (second : Alike keyKind valueKind middle right) : Alike keyKind valueKind left right :=
  ⟨fun weak => (first.key weak).trans (second.key weak),
    fun weak => (first.value weak).trans (second.value weak)⟩

end Liveness.Alike

theorem Slot.expired_congr {α : Type} {slot : Slot α} {left right : α → Bool}
    (agree : slot.kind.isWeak = true → left = right) : slot.expired left = slot.expired right := by
  unfold Slot.expired
  cases weak : slot.kind.isWeak with
  | false => rfl
  | true => rw [agree weak]

theorem Slot.get?_congr {α : Type} {slot : Slot α} {left right : α → Bool}
    (agree : slot.kind.isWeak = true → left = right) : slot.get? left = slot.get? right := by
  rw [Slot.get?, Slot.get?, Slot.expired_congr agree]

/-- The objects of a mapping. -/
def Mapping.pair (mapping : Mapping κ ν) : κ × ν := (mapping.key.target, mapping.value.target)

theorem Mapping.pair?_eq (alive : Liveness κ ν) (mapping : Mapping κ ν) :
    mapping.pair? alive = if mapping.live alive then some mapping.pair else none := by
  rw [Mapping.pair?, Mapping.live, Slot.get?, Slot.get?]
  cases mapping.key.expired alive.key <;> cases mapping.value.expired alive.value <;> rfl

theorem Mapping.value_of_live {alive : Liveness κ ν} {mapping : Mapping κ ν}
    (live : mapping.live alive = true) :
    mapping.value.get? alive.value = some mapping.value.target := by
  rw [Mapping.live, Bool.not_eq_true', Bool.or_eq_false_iff] at live
  rw [Slot.get?, live.2]
  rfl

namespace RefMap

/-! ## What is stored -/

/-- All mappings that a map stores, stale ones included. -/
def stored (map : RefMap κ ν) : List (Mapping κ ν) := map.used.flatMap (·.slots)

/-- The entries are what is seen of the stored mappings. -/
theorem entries_eq_seen (map : RefMap κ ν) (alive : Liveness κ ν) :
    map.entries alive = map.stored.filterMap (Mapping.pair? alive) :=
  (List.filterMap_flatMap ..).symm

/-- A mapping stands where its key belongs, and refers to its objects as the map does. -/
structure Fits (map : RefMap κ ν) (index : Nat) (mapping : Mapping κ ν) : Prop where
  hash : mapping.hash = map.keying.hash mapping.key.target
  home : map.home mapping.key.target = index
  keyKind : mapping.key.kind = map.keyKind
  valueKind : mapping.value.kind = map.valueKind

/-- All mappings stand where they belong. -/
def Placed (map : RefMap κ ν) : Prop :=
  ∀ index, ∀ mapping ∈ (map.segments.get index).slots, map.Fits index mapping

/-- What stays the same as long as a map is used. -/
def settings (map : RefMap κ ν) : RefMap κ ν := { map with segments := {}, notices := [] }

variable {map other : RefMap κ ν} {index : Nat} {mapping : Mapping κ ν}

theorem Fits.of_settings (fits : map.Fits index mapping) (same : other.settings = map.settings) :
    other.Fits index mapping := by
  have transferred : map.settings.Fits index mapping :=
    ⟨fits.hash, fits.home, fits.keyKind, fits.valueKind⟩
  rw [← same] at transferred
  exact ⟨transferred.hash, transferred.home, transferred.keyKind, transferred.valueKind⟩

theorem Placed.say (placed : map.Placed) (notice : Log.Notice) : (map.say notice).Placed :=
  fun index mapping member => (placed index mapping member).of_settings rfl

theorem exists_segment (member : mapping ∈ map.stored) :
    ∃ index, mapping ∈ (map.segments.get index).slots := by
  obtain ⟨table, used, inTable⟩ := List.mem_flatMap.mp member
  obtain ⟨index, found⟩ := Table.exists_get used
  exact ⟨index, found ▸ inTable⟩

theorem Placed.exists_fits (placed : map.Placed) (member : mapping ∈ map.stored) :
    ∃ index, map.Fits index mapping := by
  obtain ⟨index, inSegment⟩ := exists_segment member
  exact ⟨index, placed index mapping inSegment⟩

/-- A mapping of the same key as another one stands in the segment of that one. -/
theorem Placed.mem_home (placed : map.Placed) (member : mapping ∈ map.stored) {key : κ}
    (same : map.keying.same mapping.key.target key = true) :
    mapping ∈ (map.segments.get (map.home key)).slots := by
  obtain ⟨index, inSegment⟩ := exists_segment member
  have fits := placed index mapping inSegment
  have homes : map.home key = index := by
    rw [← fits.home, home, home, map.keying.hash_eq _ _ same]
  rwa [homes]

/-- The map with another table as one of its segments. -/
def withSegment (map : RefMap κ ν) (index : Nat) (table : SlotTable (Mapping κ ν)) : RefMap κ ν :=
  { map with segments := map.segments.set index table }

theorem Placed.withSegment (placed : map.Placed) {table : SlotTable (Mapping κ ν)}
    (fits : ∀ mapping ∈ table.slots, map.Fits index mapping) :
    (map.withSegment index table).Placed := by
  intro place mapping member
  by_cases here : place = index
  · subst here
    rw [RefMap.withSegment, Table.get_set_self] at member
    exact (fits mapping member).of_settings rfl
  · rw [RefMap.withSegment, Table.get_set_of_ne _ _ here] at member
    exact (placed place mapping member).of_settings rfl

/-- Up to order, a map stores the mappings of one segment and some others. -/
theorem exists_others (map : RefMap κ ν) (index : Nat) :
    ∃ others, map.stored.Perm ((map.segments.get index).slots ++ others) ∧
      ∀ table, (map.withSegment index table).stored.Perm (table.slots ++ others) :=
  Table.exists_others SlotTable.slots rfl map.segments index

/-- A map keeps nothing that it refers to weakly. -/
theorem Placed.keeps_eq_false (placed : map.Placed) {isKey : κ → Bool} {isValue : ν → Bool}
    (noKey : map.keyKind.isWeak = true ∨ isKey = fun _ => false)
    (noValue : map.valueKind.isWeak = true ∨ isValue = fun _ => false) :
    map.keeps isKey isValue = false := by
  rw [keeps, List.any_eq_false]
  intro table used
  rw [List.any_eq_true]
  rintro ⟨mapping, inTable, kept⟩
  obtain ⟨index, fits⟩ := placed.exists_fits (List.mem_flatMap.mpr ⟨table, used, inTable⟩)
  rw [Slot.keeps, Slot.keeps, fits.keyKind, fits.valueKind] at kept
  rcases noKey with weakKey | rfl <;> rcases noValue with weakValue | rfl <;> simp_all

/-! ## What is alive with the map -/

section Alive

variable [DecidableEq κ] [DecidableEq ν]

/-- What is alive: what callers hold, and what the map keeps. -/
def aliveWith (owned : Liveness κ ν) (map : RefMap κ ν) : Liveness κ ν where
  key key := owned.key key || map.keeps (· == key) fun _ => false
  value value := owned.value value || map.keeps (fun _ => false) (· == value)

/-- Of the objects that are held weakly, those are alive that callers hold. -/
theorem Placed.alike (placed : map.Placed) (owned : Liveness κ ν) :
    Liveness.Alike map.keyKind map.valueKind (map.aliveWith owned) owned := by
  constructor
  · intro weak
    funext key
    show (owned.key key || map.keeps (· == key) fun _ => false) = owned.key key
    rw [placed.keeps_eq_false (.inl weak) (.inr rfl), Bool.or_false]
  · intro weak
    funext value
    show (owned.value value || map.keeps (fun _ => false) (· == value)) = owned.value value
    rw [placed.keeps_eq_false (.inr rfl) (.inl weak), Bool.or_false]

end Alive

/-! ## Live mappings -/

namespace Fits

variable {left right : Liveness κ ν}

theorem key_agree (fits : map.Fits index mapping)
    (alike : Liveness.Alike map.keyKind map.valueKind left right) :
    mapping.key.kind.isWeak = true → left.key = right.key := by
  rw [fits.keyKind]
  exact alike.key

theorem value_agree (fits : map.Fits index mapping)
    (alike : Liveness.Alike map.keyKind map.valueKind left right) :
    mapping.value.kind.isWeak = true → left.value = right.value := by
  rw [fits.valueKind]
  exact alike.value

theorem live_congr (fits : map.Fits index mapping)
    (alike : Liveness.Alike map.keyKind map.valueKind left right) :
    mapping.live left = mapping.live right := by
  rw [Mapping.live, Mapping.live, Slot.expired_congr (fits.key_agree alike),
    Slot.expired_congr (fits.value_agree alike)]

theorem pair?_congr (fits : map.Fits index mapping)
    (alike : Liveness.Alike map.keyKind map.valueKind left right) :
    mapping.pair? left = mapping.pair? right := by
  rw [Mapping.pair?, Mapping.pair?, Slot.get?_congr (fits.key_agree alike),
    Slot.get?_congr (fits.value_agree alike)]

/-- The wanted mapping of a key is live and of that key. Its hash is not a further condition. -/
theorem wanted_eq (fits : map.Fits index mapping)
    (alike : Liveness.Alike map.keyKind map.valueKind left right) (key : κ) :
    mapping.wanted map.keying key left =
      (mapping.live right && map.keying.same mapping.key.target key) := by
  have hashes : map.keying.same mapping.key.target key = true →
      (mapping.hash == map.keying.hash key) = true := by
    intro same
    rw [fits.hash, map.keying.hash_eq _ _ same, beq_self_eq_true]
  rw [Mapping.wanted, Mapping.live, Slot.get?_congr (fits.key_agree alike),
    Slot.expired_congr (fits.value_agree alike), Slot.get?]
  cases same : map.keying.same mapping.key.target key with
  | false => cases mapping.key.expired right.key <;> simp [same]
  | true =>
      rw [hashes same]
      cases mapping.key.expired right.key <;> simp [same]

end Fits

/-! ## Edits -/

/-- The map with a new mapping. -/
def inserted (map : RefMap κ ν) (key : κ) (value : ν) : RefMap κ ν :=
  map.withSegment (map.home key)
    ((map.segments.get (map.home key)).insert (map.mapping key value))

/-- The map with another value in the mapping at a position in the segment of a key. -/
def revalued (map : RefMap κ ν) (key : κ) (position : Nat) (mapping : Mapping κ ν) (value : ν) :
    RefMap κ ν :=
  map.withSegment (map.home key)
    ((map.segments.get (map.home key)).setAt position (mapping.withValue value))

/-- The map without the mapping at a position in the segment of a key. -/
def erased (map : RefMap κ ν) (key : κ) (position : Nat) : RefMap κ ν :=
  map.withSegment (map.home key) ((map.segments.get (map.home key)).eraseAt position)

theorem stored_inserted (map : RefMap κ ν) (key : κ) (value : ν) :
    (map.inserted key value).stored.Perm (map.mapping key value :: map.stored) := by
  obtain ⟨others, before, after⟩ := map.exists_others (map.home key)
  exact (after _).trans (before.symm.cons _)

/-- A mapping can be given another value or be erased, and the rest stays. -/
theorem exists_rest {key : κ} {position : Nat}
    (there : (map.segments.get (map.home key)).slots[position]? = some mapping) :
    ∃ rest, map.stored.Perm (mapping :: rest) ∧
      (∀ value, (map.revalued key position mapping value).stored.Perm
        (mapping.withValue value :: rest)) ∧
      (map.erased key position).stored.Perm rest := by
  obtain ⟨others, before, after⟩ := map.exists_others (map.home key)
  obtain ⟨rest, parts, overwritten, erased⟩ := SlotTable.exists_rest there
  refine ⟨rest ++ others, before.trans (parts.append_right others), fun value => ?_, ?_⟩
  · exact (after _).trans ((overwritten _).append_right others)
  · exact (after _).trans (erased.append_right others)

theorem Placed.inserted (placed : map.Placed) (key : κ) (value : ν) :
    (map.inserted key value).Placed := by
  refine placed.withSegment fun mapping member => ?_
  rcases List.mem_cons.mp member with rfl | inSegment
  · exact ⟨rfl, rfl, rfl, rfl⟩
  · exact placed _ mapping inSegment

theorem Placed.revalued (placed : map.Placed) {key : κ} {position : Nat}
    (there : (map.segments.get (map.home key)).slots[position]? = some mapping) (value : ν) :
    (map.revalued key position mapping value).Placed := by
  refine placed.withSegment fun other member => ?_
  rcases List.mem_or_eq_of_mem_set member with inSegment | rfl
  · exact placed _ other inSegment
  · have fits := placed _ mapping (List.mem_of_getElem? there)
    exact ⟨fits.hash, fits.home, fits.keyKind, fits.valueKind⟩

theorem Placed.erased (placed : map.Placed) (key : κ) (position : Nat) :
    (map.erased key position).Placed :=
  placed.withSegment fun other member => placed _ other (List.mem_of_mem_eraseIdx member)

end RefMap

end Weak

end Collections
