import Collections.Proofs.Runs
import Collections.Weak.SlotTable
import Mathlib.Algebra.Ring.Nat

/-!
# The upkeep of a table

A table in use is swept on its own, swept on request, cleared and edited (`SlotTable.Edit`). Beside
it runs a tally: how many slots the last sweep or clearing left, how many slots the table has come
upon in the sweeps that it made on its own, and how many were ever inserted (`SlotTable.Tally`).

A sweep is due at twice the size that the last one left, and not before sixteen. So a table that is
tended before every insertion never grows beyond that size (`SlotTable.Kept.size`). At the moment
when a sweep is due, half of the slots have been inserted since the last one, and each of them pays
for two of the slots that the sweep comes upon. What erasures take away has been paid for as well,
so it suffices to count how far the size is above what the last sweep left
(`SlotTable.Kept.credit`). A sweep on request and a clearing cost nothing, and the account starts
anew there.

Each edit keeps the account (`SlotTable.Kept.edit`), and so does every system whose requests come
down to edits of a table in which an insertion comes last and after an upkeep
(`SlotTable.Tends.kept`).
-/

set_option autoImplicit false

namespace Collections.Weak

/-- A sweep that left fewer than 2^63 entries makes the next one due at twice as many, or at
sixteen. -/
theorem PurgeSchedule.toNat_sweepAt_swept (schedule : PurgeSchedule) {left : Nat}
    (small : left < 2 ^ 63) :
    (schedule.swept left.toUInt64).sweepAt.toNat = max 16 (2 * left) := by
  have word : (left.toUInt64).toNat = left := by
    rw [Nat.toUInt64_eq, UInt64.toNat_ofNat']
    exact Nat.mod_eq_of_lt (by omega)
  have twice : (2 * left.toUInt64).toNat = 2 * left := by
    rw [UInt64.toNat_mul, word]
    exact Nat.mod_eq_of_lt (by change 2 * left < _; omega)
  show (if least ≤ 2 * left.toUInt64 then 2 * left.toUInt64 else least).toNat = _
  split
  next enough =>
    have bounded : 16 ≤ 2 * left := by
      rw [← twice]
      exact UInt64.le_iff_toNat_le.mp enough
    rw [twice, Nat.max_eq_right bounded]
  next short =>
    have bounded : 2 * left ≤ 16 := by
      rw [← twice]
      exact Nat.le_of_not_le fun more => short (UInt64.le_iff_toNat_le.mpr more)
    rw [Nat.max_eq_left bounded]
    rfl

namespace SlotTable

variable {σ : Type}

/-! ## Edits -/

/-- What can be done to a table. -/
inductive Edit (σ : Type) where
  /-- Sweep the table if it is time. -/
  | tend (live : Nat → List σ → σ → Bool)
  /-- Sweep the table on request. -/
  | sweep (live : Nat → List σ → σ → Bool)
  | clear
  | insert (slot : σ)
  | eraseAt (position : Nat)
  /-- Erase the slots that fail a test. -/
  | retain (stays : σ → Bool)
  | setAt (position : Nat) (slot : σ)
  /-- Overwrite every slot. -/
  | renew (change : σ → σ)

/-- The table after an edit. -/
def edited (table : SlotTable σ) : Edit σ → SlotTable σ
  | .tend live => if table.isDue then (table.sweepDuring live).2 else table
  | .sweep live => (table.sweepDuring live).2
  | .clear => table.clear
  | .insert slot => table.insert slot
  | .eraseAt position => table.eraseAt position
  | .retain stays => { table with slots := table.slots.filter stays }
  | .setAt position slot => table.setAt position slot
  | .renew change => { table with slots := table.slots.map change }

/-- The table after several edits. -/
def played (table : SlotTable σ) : List (Edit σ) → SlotTable σ
  | [] => table
  | edit :: rest => (table.edited edit).played rest

/-- A sweep that is made when it is time is an upkeep. -/
theorem edited_tend (table : SlotTable σ) (live : σ → Bool) :
    table.edited (.tend fun _ _ => live) = (table.sweepIfDue live).2 := by
  rw [edited, sweepDuring_const, sweepIfDue]
  split <;> rfl

theorem edited_sweep (table : SlotTable σ) (live : σ → Bool) :
    table.edited (.sweep fun _ _ => live) = (table.sweep live).2 := by
  rw [edited, sweepDuring_const]

/-- What has been counted of a table in use. -/
structure Tally where
  /-- The number of slots that the last sweep or clearing left. -/
  left : Nat := 0
  /-- The number of slots that the table has come upon in sweeps of its own. -/
  scanned : Nat := 0
  inserted : Nat := 0
  deriving DecidableEq, Repr

namespace Tally

/-- The tally after an edit of a table. -/
def edited (tally : Tally) (table : SlotTable σ) : Edit σ → Tally
  | .tend live =>
      if table.isDue then
        { tally with left := (table.sweepDuring live).2.slots.length
                     scanned := tally.scanned + table.slots.length }
      else tally
  | .sweep live => { tally with left := (table.sweepDuring live).2.slots.length }
  | .clear => { tally with left := 0 }
  | .insert _ => { tally with inserted := tally.inserted + 1 }
  | _ => tally

/-- The tally after several edits of a table. -/
def played (tally : Tally) (table : SlotTable σ) : List (Edit σ) → Tally
  | [] => tally
  | edit :: rest => (tally.edited table edit).played (table.edited edit) rest

end Tally

namespace Edit

/-- Whether an edit adds a slot. -/
def adds : Edit σ → Bool
  | insert _ => true
  | _ => false

/-- Whether an edit leaves a table for which no sweep is due. -/
def settles : Edit σ → Bool
  | tend _ | sweep _ | clear => true
  | _ => false

end Edit

/-- An insertion is the last edit, and the table has been settled before it. -/
def Tended (settled : Bool) : List (Edit σ) → Prop
  | [] => True
  | edit :: rest =>
      (edit.adds = true → settled = true ∧ rest = []) ∧ Tended (settled || edit.settles) rest

/-- Behind an upkeep, any edits fit that are tended in a settled table. -/
theorem tended_tend {live : Nat → List σ → σ → Bool} {rest : List (Edit σ)}
    (tended : Tended true rest) : Tended false (.tend live :: rest) :=
  ⟨fun adds => (Bool.false_ne_true adds).elim, tended⟩

/-- One edit that does not add is always tended. -/
theorem tended_of_adds_eq_false {settled : Bool} {edit : Edit σ} (adds : edit.adds = false) :
    Tended settled [edit] :=
  ⟨fun does => (Bool.false_ne_true (adds.symm.trans does)).elim, trivial⟩

theorem tended_insert (slot : σ) : Tended true [Edit.insert slot] :=
  ⟨fun _ => ⟨rfl, rfl⟩, trivial⟩

/-! ## Sizes -/

theorem length_keptFrom_le (live : Nat → List σ → σ → Bool) (position : Nat) (kept slots : List σ) :
    (keptFrom live position kept slots).length ≤ slots.length := by
  induction slots generalizing position kept with
  | nil => exact Nat.le_refl 0
  | cons slot rest hypothesis =>
      rw [keptFrom]
      split
      · exact Nat.succ_le_succ (hypothesis _ _)
      · exact Nat.le_succ_of_le (hypothesis _ _)

theorem length_sweepDuring_le (table : SlotTable σ) (live : Nat → List σ → σ → Bool) :
    (table.sweepDuring live).2.slots.length ≤ table.slots.length :=
  length_keptFrom_le live 0 [] table.slots

/-- Only an insertion makes a table longer. -/
theorem length_edited_le (table : SlotTable σ) (edit : Edit σ) (adds : edit.adds = false) :
    (table.edited edit).slots.length ≤ table.slots.length := by
  cases edit with
  | tend live =>
      rw [edited]
      split
      · exact table.length_sweepDuring_le live
      · exact Nat.le_refl _
  | sweep live => exact table.length_sweepDuring_le live
  | clear => exact Nat.zero_le _
  | insert slot => cases adds
  | eraseAt position => exact List.length_eraseIdx_le _ _
  | retain stays => exact List.length_filter_le _ _
  | setAt position slot => exact Nat.le_of_eq List.length_set
  | renew change => exact Nat.le_of_eq (List.length_map _)

/-- In words, a table of fewer than 2^64 slots is due when it is as long as the schedule says. -/
theorem isDue_iff {table : SlotTable σ} (small : table.slots.length < 2 ^ 63) :
    table.isDue = true ↔ table.schedule.sweepAt.toNat ≤ table.slots.length := by
  have word : table.size.toNat = table.slots.length := by
    rw [size, Nat.toUInt64_eq, UInt64.toNat_ofNat']
    exact Nat.mod_eq_of_lt (by omega)
  rw [isDue, PurgeSchedule.due, decide_eq_true_iff, UInt64.le_iff_toNat_le, word]

/-! ## The account -/

/-- What a table is worth that has been kept up. If it is settled, a slot may be inserted. -/
structure Kept (settled : Bool) (table : SlotTable σ) (tally : Tally) : Prop where
  schedule : table.schedule.sweepAt.toNat = max 16 (2 * tally.left)
  /-- The table is not larger than the size at which a sweep is due. -/
  size : table.slots.length + settled.toNat ≤ max 16 (2 * tally.left)
  /-- What has been inserted pays for the sweeps so far. -/
  paid : tally.scanned ≤ 2 * tally.inserted
  /-- Beyond that it pays twice for each slot that the table is larger than the last sweep left
  it. -/
  credit : tally.scanned + 2 * table.slots.length ≤ 2 * (tally.inserted + tally.left)

namespace Kept

variable {settled : Bool} {table : SlotTable σ} {tally : Tally}

/-- A table that is fresh has been kept up. -/
theorem start : Kept false ({} : SlotTable σ) {} :=
  ⟨rfl, Nat.zero_le _, Nat.le_refl _, Nat.le_refl _⟩

theorem unsettled (kept : Kept settled table tally) : Kept false table tally :=
  { kept with size := Nat.le_trans (Nat.le_add_right _ _) kept.size }

/-- What has been paid for a sweep is at least what it comes upon. -/
theorem sweep_paid (kept : Kept settled table tally) (small : table.slots.length < 2 ^ 63)
    (due : table.isDue = true) : tally.scanned + table.slots.length ≤ 2 * tally.inserted := by
  have long : max 16 (2 * tally.left) ≤ table.slots.length := by
    rw [← kept.schedule]
    exact (isDue_iff small).mp due
  -- At least half of the slots came after the last sweep.
  have half : 2 * tally.left ≤ table.slots.length :=
    Nat.le_trans (Nat.le_max_right _ _) long
  have credit := kept.credit
  omega

/-- After a sweep no other one is due, and whatever it cost, if only that is paid. -/
theorem swept (small : table.slots.length < 2 ^ 63) (live : Nat → List σ → σ → Bool)
    {scanned inserted : Nat} (paid : scanned ≤ 2 * inserted) :
    Kept true (table.sweepDuring live).2
      ⟨(table.sweepDuring live).2.slots.length, scanned, inserted⟩ := by
  have fewer : (table.sweepDuring live).2.slots.length < 2 ^ 63 :=
    Nat.lt_of_le_of_lt (table.length_sweepDuring_le live) small
  refine ⟨table.schedule.toNat_sweepAt_swept fewer, ?_, paid, ?_⟩
  · show (table.sweepDuring live).2.slots.length + 1 ≤
      max 16 (2 * (table.sweepDuring live).2.slots.length)
    omega
  · dsimp only
    omega

/-- Of an edit that neither adds nor settles nothing is counted, and the table grows no longer. -/
theorem trimmed (kept : Kept settled table tally) {edit : Edit σ} (adds : edit.adds = false)
    (settles : edit.settles = false) :
    Kept settled (table.edited edit) (tally.edited table edit) := by
  have fewer : (table.edited edit).slots.length ≤ table.slots.length :=
    table.length_edited_le edit adds
  have same : (table.edited edit).schedule = table.schedule ∧ tally.edited table edit = tally := by
    cases edit with
    | tend live | sweep live | clear => cases settles
    | insert slot => cases adds
    | eraseAt | retain | setAt | renew => exact ⟨rfl, rfl⟩
  obtain ⟨schedule, counted⟩ := same
  have credit := kept.credit
  rw [counted]
  refine ⟨?_, Nat.le_trans (Nat.add_le_add_right fewer _) kept.size, kept.paid, ?_⟩
  · rw [schedule]
    exact kept.schedule
  · omega

/-- After an upkeep no sweep is due. -/
theorem tended (kept : Kept settled table tally) (small : table.slots.length < 2 ^ 63)
    (live : Nat → List σ → σ → Bool) :
    Kept true (table.edited (.tend live)) (tally.edited table (.tend live)) := by
  rw [SlotTable.edited, Tally.edited]
  cases due : table.isDue with
  | true => exact swept small live (kept.sweep_paid small due)
  | false =>
      refine { kept with size := ?_ }
      have short : ¬ table.schedule.sweepAt.toNat ≤ table.slots.length := by
        rw [← isDue_iff small, due]
        exact Bool.false_ne_true
      rw [kept.schedule] at short
      exact Nat.lt_of_not_le short

/-- An insertion into a settled table pays for two slots. -/
theorem insert (kept : Kept true table tally) (slot : σ) :
    Kept false (table.insert slot) { tally with inserted := tally.inserted + 1 } := by
  have credit := kept.credit
  have paid := kept.paid
  refine ⟨kept.schedule, kept.size, ?_, ?_⟩
  · show tally.scanned ≤ 2 * (tally.inserted + 1)
    omega
  · show tally.scanned + 2 * (table.slots.length + 1) ≤ 2 * (tally.inserted + 1 + tally.left)
    omega

theorem clear (kept : Kept settled table tally) :
    Kept true table.clear { tally with left := 0 } := by
  refine ⟨rfl, ?_, kept.paid, kept.paid⟩
  show 0 + 1 ≤ 16
  exact Nat.le_of_ble_eq_true rfl

/-- **Every edit keeps the account**, if a slot is inserted only into a settled table. -/
theorem edit (kept : Kept settled table tally) (small : table.slots.length < 2 ^ 63) (edit : Edit σ)
    (fits : edit.adds = true → settled = true) :
    Kept ((settled || edit.settles) && !edit.adds) (table.edited edit)
      (tally.edited table edit) := by
  cases edit with
  | tend live =>
      rw [Edit.settles, Bool.or_true]
      exact kept.tended small live
  | sweep live =>
      rw [Edit.settles, Bool.or_true]
      exact swept small live kept.paid
  | clear =>
      rw [Edit.settles, Bool.or_true]
      exact kept.clear
  | insert slot =>
      obtain rfl : settled = true := fits rfl
      exact kept.insert slot
  | eraseAt | retain | setAt | renew =>
      simp only [Edit.settles, Edit.adds, Bool.or_false, Bool.not_false, Bool.and_true]
      exact kept.trimmed rfl rfl

/-- Edits that are tended keep the account. -/
theorem play (kept : Kept settled table tally) (small : table.slots.length < 2 ^ 63)
    {edits : List (Edit σ)} (tended : Tended settled edits) :
    Kept false (table.played edits) (tally.played table edits) := by
  induction edits generalizing settled table tally with
  | nil => exact kept.unsettled
  | cons edit rest ih =>
      obtain ⟨fits, later⟩ := tended
      have next := kept.edit small edit fun adds => (fits adds).1
      cases adds : edit.adds with
      | true =>
          obtain ⟨-, rfl⟩ := fits adds
          exact next.unsettled
      | false =>
          rw [adds, Bool.not_false, Bool.and_true] at next
          exact ih next (Nat.lt_of_le_of_lt (table.length_edited_le edit adds) small) later

end Kept

/-! ## Systems with a table -/

section Systems

variable {α ρ ε : Type}

/-- A system with a tally beside it, which counts the edits that each request comes down to. -/
def audit (step : α → ε → ρ × α) (table : α → SlotTable σ) (edits : α → ε → List (Edit σ))
    (audited : α × Tally) (request : ε) : ρ × α × Tally :=
  let (reply, next) := step audited.1 request
  (reply, next, audited.2.played (table audited.1) (edits audited.1 request))

/-- The requests of a system come down to edits of its table, and it is tended. -/
structure Tends (step : α → ε → ρ × α) (table : α → SlotTable σ)
    (edits : α → ε → List (Edit σ)) : Prop where
  plays : ∀ state request, table (step state request).2 = (table state).played (edits state request)
  tended : ∀ state request, Tended false (edits state request)

/-- What can be relied on of a table in use: it is small, and its upkeep has been cheap. -/
structure Thrifty (table : SlotTable σ) (tally : Tally) : Prop where
  /-- The table has at most twice the slots that the last sweep or clearing left, or sixteen. -/
  small : table.slots.length ≤ max 16 (2 * tally.left)
  /-- Its own sweeps have come upon at most two slots for each one that was inserted. -/
  cheap : tally.scanned ≤ 2 * tally.inserted

theorem Kept.thrifty {table : SlotTable σ} {tally : Tally} (kept : Kept false table tally) :
    Thrifty table tally :=
  ⟨kept.size, kept.paid⟩

variable {step : α → ε → ρ × α} {table : α → SlotTable σ} {edits : α → ε → List (Edit σ)}

/-- **A tended table is kept up over whole runs**, as long as its size is a word to spare. -/
theorem Tends.kept (tends : Tends step table edits) {state : α} {tally : Tally}
    (start : Kept false (table state) tally) {requests : List ε}
    (small : Admits step (fun state _ => (table state).slots.length < 2 ^ 63) state requests) :
    let run := serve (audit step table edits) (state, tally) requests
    Kept false (table run.2.1) run.2.2 := by
  induction requests generalizing state tally with
  | nil => exact start
  | cons request rest ih =>
      obtain ⟨here, later⟩ := small
      have next := start.play here (tends.tended state request)
      rw [← tends.plays] at next
      exact ih next later

end Systems

end SlotTable

end Collections.Weak
