import Collections.Weak.PurgeSchedule

/-!
# Tables of slots that become stale

The slots of a table become stale on their own, when objects they refer to are reclaimed. Stale
slots stay until a sweep throws them out, and every look at the table passes them over. Sweeps
are made on request, and on their own when the schedule says so. The newest slot comes first.

A sweep or a search takes time, and slots may become stale meanwhile. A sweep may even be the cause,
when a slot that it throws out was all that kept an object alive. Each of the two has a form that
asks at every position anew (`sweepDuring`, `findDuring?`). When nothing becomes stale meanwhile,
these are the plain forms (`sweepDuring_const`, `findDuring?_const`).
-/

set_option autoImplicit false

namespace Collections.Weak

/-- Slots and the schedule of sweeps. -/
structure SlotTable (σ : Type) where
  slots : List σ := []
  schedule : PurgeSchedule := {}

namespace SlotTable

variable {σ : Type}

instance : Inhabited (SlotTable σ) := ⟨{}⟩

/-- The number of slots, stale ones included, as a word. -/
def size (table : SlotTable σ) : UInt64 := table.slots.length.toUInt64

/-- The number of live slots. -/
def liveCount (live : σ → Bool) (table : SlotTable σ) : Nat := table.slots.countP live

/-- Throw out the stale slots, and tell how many there were. -/
def sweep (live : σ → Bool) (table : SlotTable σ) : Nat × SlotTable σ :=
  let kept := table.slots.filter live
  (table.slots.length - kept.length,
    { slots := kept, schedule := table.schedule.swept kept.length.toUInt64 })

/-- Whether it is time for a sweep. -/
def isDue (table : SlotTable σ) : Bool := table.schedule.due table.size

/-- Sweep the table if it is time. -/
def sweepIfDue (live : σ → Bool) (table : SlotTable σ) : Nat × SlotTable σ :=
  if table.isDue then table.sweep live else (0, table)

/-- The position of the first slot that is wanted. -/
def position? (wanted : σ → Bool) (table : SlotTable σ) : Option Nat :=
  table.slots.findIdx? wanted

/-- The first slot that is wanted, with its position. -/
def find? (wanted : σ → Bool) (table : SlotTable σ) : Option (Nat × σ) := do
  let position ← table.position? wanted
  let slot ← table.slots[position]?
  return (position, slot)

def insert (table : SlotTable σ) (slot : σ) : SlotTable σ :=
  { table with slots := slot :: table.slots }

def eraseAt (table : SlotTable σ) (position : Nat) : SlotTable σ :=
  { table with slots := table.slots.eraseIdx position }

def setAt (table : SlotTable σ) (position : Nat) (slot : σ) : SlotTable σ :=
  { table with slots := table.slots.set position slot }

/-- Throw out all slots. This counts as a sweep that left none. -/
def clear (table : SlotTable σ) : SlotTable σ :=
  { slots := [], schedule := table.schedule.swept 0 }

/-! ## Taking time -/

/-- The slots that are live when a sweep reaches them, from a position on. Whether a slot is live
may depend on the position, and on the slots that are there at that moment: those that were kept
before, and all that the sweep has yet to reach. -/
def keptFrom (live : Nat → List σ → σ → Bool) (position : Nat) (kept : List σ) : List σ → List σ
  | [] => []
  | slot :: rest =>
      if live position (kept ++ slot :: rest) slot then
        slot :: keptFrom live (position + 1) (kept ++ [slot]) rest
      else keptFrom live (position + 1) kept rest

/-- Throw out the slots that are stale when the sweep reaches them, and tell how many there
were. -/
def sweepDuring (live : Nat → List σ → σ → Bool) (table : SlotTable σ) : Nat × SlotTable σ :=
  let kept := keptFrom live 0 [] table.slots
  (table.slots.length - kept.length,
    { slots := kept, schedule := table.schedule.swept kept.length.toUInt64 })

/-- The first slot that is wanted when the search reaches it, with its position. -/
def findDuring? (wanted : Nat → σ → Bool) (table : SlotTable σ) : Option (Nat × σ) :=
  (table.slots.zipIdx.find? fun (slot, position) => wanted position slot).map
    fun (slot, position) => (position, slot)

theorem keptFrom_const (live : σ → Bool) (position : Nat) (kept slots : List σ) :
    keptFrom (fun _ _ => live) position kept slots = slots.filter live := by
  induction slots generalizing position kept with
  | nil => rfl
  | cons slot rest hypothesis => by_cases here : live slot <;> simp [keptFrom, here, hypothesis]

theorem find?_zipIdx (wanted : σ → Bool) (slots : List σ) (start : Nat) :
    ((slots.zipIdx start).find? fun (slot, _) => wanted slot) =
      (slots.findIdx? wanted).bind fun position =>
        slots[position]?.map fun slot => (slot, start + position) := by
  induction slots generalizing start with
  | nil => rfl
  | cons slot rest hypothesis =>
      by_cases here : wanted slot = true
      · simp [List.findIdx?_cons, here]
      · simp only [List.zipIdx_cons, List.find?_cons, List.findIdx?_cons, here, hypothesis]
        cases List.findIdx? wanted rest <;> simp [Nat.add_comm, Nat.add_left_comm]

theorem sweepDuring_const (live : σ → Bool) (table : SlotTable σ) :
    table.sweepDuring (fun _ _ => live) = table.sweep live := by
  simp only [sweepDuring, sweep, keptFrom_const]

theorem findDuring?_const (wanted : σ → Bool) (table : SlotTable σ) :
    table.findDuring? (fun _ => wanted) = table.find? wanted := by
  simp only [findDuring?, find?, position?, find?_zipIdx]
  cases table.slots.findIdx? wanted with
  | none => rfl
  | some position => cases found : table.slots[position]? <;> simp [found]

theorem mem_sweep {live : σ → Bool} {table : SlotTable σ} {slot : σ} :
    slot ∈ (table.sweep live).2.slots ↔ slot ∈ table.slots ∧ live slot = true := by
  simp [sweep]

end SlotTable

end Collections.Weak
