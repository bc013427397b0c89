import Collections.Proofs.Weak.RefMap.PlainMap

/-!
# Tables that a list of pairs mirrors

Weak maps and weak sets keep their slots alike: each slot bears the hash of its key, and it is live
while its key is (`Filing`). A plain map that refers to its keys weakly mirrors such a table
(`Filing.Mirrors`) if, up to order, its pairs are those of the slots and of the slots that were
thrown out on the way, none of which is present any more, and if no two present pairs are of the
same key.

Every change of a table keeps to that: sweeps (`Mirrors.sweep`, `Mirrors.sweepIfDue`), changes at
the slot that a search has found (`Mirrors.setAt`, `Mirrors.eraseAt`), and the reclamation of keys
(`Mirrors.reclaim`). A search finds the present pair of its key (`Mirrors.find?_of_hit`), and a
live slot is found where it is (`Mirrors.find?_of_live`).
-/

set_option autoImplicit false

namespace Collections.Weak

variable {σ κ ν : Type}

/-! ## Lists of pairs -/

namespace PlainMap

/-- A plain map that refers to its keys weakly and does not compare its values. -/
def ofKeys (keying : Keying κ) : PlainMap κ ν where
  same := keying.same
  sameValue _ _ := false
  keyKind := .weak
  valueKind := .strong

/-- The plain map when of the keys only those are left that are to be kept. -/
def reclaim (plain : PlainMap κ ν) (keep : κ → Bool) : PlainMap κ ν :=
  { plain with owned := { plain.owned with key := fun key => keep key && plain.owned.key key } }

/-- A pair with its value changed, if it is present. -/
def changed (plain : PlainMap κ ν) (change : κ → ν → ν) (pair : κ × ν) : κ × ν :=
  (pair.1, if plain.present pair then change pair.1 pair.2 else pair.2)

/-- Change the value of every present pair. -/
def changeValues (plain : PlainMap κ ν) (change : κ → ν → ν) : PlainMap κ ν :=
  { plain with pairs := plain.pairs.map (plain.changed change) }

/-- Leave out the present pairs whose keys satisfy a test. -/
def removeKeys (plain : PlainMap κ ν) (drop : κ → Bool) : PlainMap κ ν :=
  { plain with pairs := plain.pairs.filter fun pair => !(plain.present pair && drop pair.1) }

end PlainMap

/-! ## Tables -/

/-- How the slots of a table are filed: which keys are the same, the hash that a slot bears, and
the key and the value that it holds. -/
structure Filing (σ κ ν : Type) where
  keying : Keying κ
  hash : σ → UInt64
  pair : σ → κ × ν

namespace Filing

/-- A slot is live while its key is. -/
def live (filing : Filing σ κ ν) (alive : κ → Bool) (slot : σ) : Bool :=
  alive (filing.pair slot).1

/-- Whether a slot is the live one of a key. -/
def wanted (filing : Filing σ κ ν) (alive : κ → Bool) (key : κ) (slot : σ) : Bool :=
  filing.hash slot == filing.keying.hash key && filing.keying.same (filing.pair slot).1 key &&
    alive (filing.pair slot).1

/-- What the live slots hold. -/
def entries (filing : Filing σ κ ν) (alive : κ → Bool) (table : SlotTable σ) : List (κ × ν) :=
  (table.slots.filter (filing.live alive)).map filing.pair

/-- Every slot bears the hash of its key. -/
def Placed (filing : Filing σ κ ν) (slots : List σ) : Prop :=
  ∀ slot ∈ slots, filing.hash slot = filing.keying.hash (filing.pair slot).1

/-- A plain map mirrors a table from which some slots were thrown out on the way. -/
structure Mirrors (filing : Filing σ κ ν) (table : SlotTable σ) (alive : κ → Bool) (swept : Nat)
    (plain : PlainMap κ ν) : Prop where
  same : plain.same = filing.keying.same
  keyKind : plain.keyKind = .weak
  valueKind : plain.valueKind = .strong
  owned : plain.owned.key = alive
  placed : filing.Placed table.slots
  pairs : ∃ thrown, plain.pairs.Perm (table.slots.map filing.pair ++ thrown) ∧
    (∀ pair ∈ thrown, plain.present pair = false) ∧ thrown.length = swept
  unique : plain.Unique

namespace Mirrors

variable {filing : Filing σ κ ν} {table : SlotTable σ} {alive : κ → Bool} {swept : Nat}
  {plain : PlainMap κ ν} {key : κ} {position : Nat} {slot : σ}

theorem present_eq (mirrors : Mirrors filing table alive swept plain) (pair : κ × ν) :
    plain.present pair = alive pair.1 := by
  simp [PlainMap.present, mirrors.keyKind, mirrors.valueKind, mirrors.owned, RefType.isWeak]

/-- A slot is wanted exactly when its pair is. The hash decides nothing, as the slot bears the right
one. -/
theorem wanted_eq (mirrors : Mirrors filing table alive swept plain) (member : slot ∈ table.slots)
    (key : κ) : filing.wanted alive key slot = plain.isOf key (filing.pair slot) := by
  rw [wanted, PlainMap.isOf, mirrors.present_eq, mirrors.same, mirrors.placed slot member]
  cases same : filing.keying.same (filing.pair slot).1 key with
  | false => simp
  | true => simp [filing.keying.hash_eq _ _ same]

/-- A new table is mirrored by a list without pairs. -/
theorem start (filing : Filing σ κ ν) :
    Mirrors filing {} (fun _ => true) 0 (.ofKeys filing.keying) where
  same := rfl
  keyKind := rfl
  valueKind := rfl
  owned := rfl
  placed _ none := absurd none List.not_mem_nil
  pairs := ⟨[], List.Perm.refl _, fun _ none => absurd none List.not_mem_nil, rfl⟩
  unique := List.Pairwise.nil

/-! ### Sweeps -/

/-- The table may be replaced by one without some stale slots. -/
theorem of_gone (mirrors : Mirrors filing table alive swept plain) {left : SlotTable σ}
    {gone : List σ} (parts : table.slots.Perm (left.slots ++ gone))
    (stale : ∀ slot ∈ gone, filing.live alive slot = false) :
    Mirrors filing left alive (swept + gone.length) plain := by
  obtain ⟨thrown, pairs, absent, counted⟩ := mirrors.pairs
  refine { mirrors with
    placed := fun slot member =>
      mirrors.placed slot (parts.mem_iff.mpr (List.mem_append_left _ member))
    pairs := ⟨gone.map filing.pair ++ thrown, ?_, fun pair member => ?_, ?_⟩ }
  · refine pairs.trans ?_
    rw [← List.append_assoc, ← List.map_append]
    exact (parts.map _).append_right thrown
  · rcases List.mem_append.mp member with inGone | inThrown
    · obtain ⟨slot, isGone, rfl⟩ := List.mem_map.mp inGone
      rw [mirrors.present_eq]
      exact stale slot isGone
    · exact absent pair inThrown
  · rw [List.length_append, List.length_map, counted, Nat.add_comm]

/-- A sweep goes unnoticed. -/
theorem sweep (mirrors : Mirrors filing table alive swept plain) :
    Mirrors filing (table.sweep (filing.live alive)).2 alive
      (swept + (table.sweep (filing.live alive)).1) plain := by
  obtain ⟨gone, parts, stale, counted⟩ := table.exists_gone (filing.live alive)
  rw [← counted]
  exact mirrors.of_gone parts stale

theorem sweepIfDue (mirrors : Mirrors filing table alive swept plain) :
    Mirrors filing (table.sweepIfDue (filing.live alive)).2 alive
      (swept + (table.sweepIfDue (filing.live alive)).1) plain := by
  rw [SlotTable.sweepIfDue]
  split
  · exact mirrors.sweep
  · exact mirrors

/-! ### The live slots -/

/-- The live slots are the present pairs. -/
theorem entries_perm (mirrors : Mirrors filing table alive swept plain) :
    (filing.entries alive table).Perm plain.entries := by
  obtain ⟨thrown, parts, absent, -⟩ := mirrors.pairs
  have none : thrown.filter plain.present = [] :=
    List.filter_eq_nil_iff.mpr fun pair member => by simp [absent pair member]
  have visible : (table.slots.map filing.pair).filter plain.present =
      filing.entries alive table := by
    rw [entries, List.filter_map]
    exact congrArg _ (List.filter_congr fun slot _ => mirrors.present_eq _)
  have both := parts.filter plain.present
  rw [List.filter_append, none, List.append_nil, visible] at both
  exact both.symm

theorem liveCount_eq (mirrors : Mirrors filing table alive swept plain) :
    table.liveCount (filing.live alive) = plain.entries.length := by
  rw [← mirrors.entries_perm.length_eq, entries, List.length_map, SlotTable.liveCount,
    List.countP_eq_length_filter]

/-- No two live slots are of the same key. -/
theorem apart (mirrors : Mirrors filing table alive swept plain) :
    (table.slots.filter (filing.live alive)).Pairwise fun left right =>
      filing.keying.same (filing.pair left).1 (filing.pair right).1 = false := by
  rw [← List.pairwise_map (f := filing.pair)
    (R := fun left right => filing.keying.same left.1 right.1 = false)]
  refine (List.Perm.pairwise_iff ?_ mirrors.entries_perm).mpr ?_
  · exact fun differ => Bool.eq_false_iff.mpr fun equal =>
      Bool.eq_false_iff.mp differ (filing.keying.symm _ _ equal)
  · rw [← mirrors.same]
    exact mirrors.unique

/-! ### Reclamation -/

/-- Keys may be reclaimed. -/
theorem reclaim (mirrors : Mirrors filing table alive swept plain) (keep : κ → Bool) :
    Mirrors filing table (fun key => keep key && alive key) swept (plain.reclaim keep) := by
  have fewer : ∀ pair, (plain.reclaim keep).present pair = true → plain.present pair = true := by
    intro pair
    simp only [PlainMap.present, PlainMap.reclaim, mirrors.keyKind, mirrors.valueKind]
    cases plain.owned.key pair.1 <;> simp [RefType.isWeak]
  obtain ⟨thrown, parts, absent, counted⟩ := mirrors.pairs
  refine { mirrors with
    owned := by
      rw [← mirrors.owned]
      rfl
    pairs := ⟨thrown, parts, fun pair member => ?_, counted⟩
    unique := List.Pairwise.sublist (List.monotone_filter_right _ fewer) mirrors.unique }
  exact Bool.eq_false_iff.mpr fun present =>
    absurd (fewer pair present) (by simp [absent pair member])

/-! ### One key -/

/-- Where the table has nothing, neither has the plain map. -/
theorem find?_of_miss (mirrors : Mirrors filing table alive swept plain)
    (missed : table.find? (filing.wanted alive key) = none) : plain.find? key = none := by
  obtain ⟨thrown, parts, absent, -⟩ := mirrors.pairs
  refine List.find?_eq_none.mpr fun pair member => ?_
  rcases List.mem_append.mp (parts.mem_iff.mp member) with stored | inThrown
  · obtain ⟨slot, inTable, rfl⟩ := List.mem_map.mp stored
    rw [← mirrors.wanted_eq inTable, SlotTable.of_find?_eq_none missed inTable]
    exact Bool.false_ne_true
  · rw [PlainMap.isOf, absent pair inThrown]
    exact Bool.false_ne_true

/-- What is found in the table is a present pair of the plain map, and beside it stands the rest. -/
theorem exists_rest (mirrors : Mirrors filing table alive swept plain)
    (found : table.find? (filing.wanted alive key) = some (position, slot)) :
    plain.isOf key (filing.pair slot) = true ∧
      ∃ rest thrown, table.slots.Perm (slot :: rest) ∧
        (∀ other, (table.setAt position other).slots.Perm (other :: rest)) ∧
        (table.eraseAt position).slots.Perm rest ∧
        plain.pairs.Perm (filing.pair slot :: (rest.map filing.pair ++ thrown)) ∧
        (∀ pair ∈ thrown, plain.present pair = false) ∧ thrown.length = swept := by
  obtain ⟨there, isWanted⟩ := SlotTable.of_find?_eq_some found
  obtain ⟨thrown, parts, absent, counted⟩ := mirrors.pairs
  obtain ⟨rest, before, overwritten, erased⟩ := SlotTable.exists_rest there
  refine ⟨?_, rest, thrown, before, overwritten, erased, ?_, absent, counted⟩
  · rw [← mirrors.wanted_eq (List.mem_of_getElem? there), isWanted]
  · exact parts.trans ((before.map filing.pair).append_right thrown)

theorem find?_of_hit (mirrors : Mirrors filing table alive swept plain)
    (found : table.find? (filing.wanted alive key) = some (position, slot)) :
    plain.find? key = some (filing.pair slot) := by
  obtain ⟨isOf, rest, thrown, -, -, -, parts, -⟩ := mirrors.exists_rest found
  exact mirrors.unique.find?_eq_some mirrors.same parts isOf

/-- What the plain map finds is what the table finds, without its position. -/
theorem find?_eq (mirrors : Mirrors filing table alive swept plain) (key : κ) :
    plain.find? key =
      (table.find? (filing.wanted alive key)).map fun (_, slot) => filing.pair slot := by
  cases hit : table.find? (filing.wanted alive key) with
  | none => exact mirrors.find?_of_miss hit
  | some found => exact mirrors.find?_of_hit hit

/-- A live slot is found where it is. -/
theorem find?_of_live (mirrors : Mirrors filing table alive swept plain)
    (there : table.slots[position]? = some slot) (live : filing.live alive slot = true)
    (same : filing.keying.same (filing.pair slot).1 key = true) :
    table.find? (filing.wanted alive key) = some (position, slot) := by
  have inTable : slot ∈ table.slots := List.mem_of_getElem? there
  refine SlotTable.find?_eq_some there ?_ fun other earlier before isThere => ?_
  · rw [mirrors.wanted_eq inTable, PlainMap.isOf, mirrors.present_eq, mirrors.same, same,
      Bool.and_true]
    exact live
  · -- An earlier slot that is wanted would be a second live one of the key.
    refine Bool.eq_false_iff.mpr fun alsoWanted => ?_
    rw [wanted, Bool.and_eq_true, Bool.and_eq_true] at alsoWanted
    obtain ⟨⟨-, alsoSame⟩, alsoLive⟩ := alsoWanted
    have pairwise := List.pairwise_filter.mp mirrors.apart
    obtain ⟨inRange, rfl⟩ := List.getElem?_eq_some_iff.mp there
    obtain ⟨inRangeToo, rfl⟩ := List.getElem?_eq_some_iff.mp isThere
    have differ := List.pairwise_iff_getElem.mp pairwise other position inRangeToo inRange earlier
      alsoLive live
    rw [filing.keying.trans _ _ _ alsoSame (filing.keying.symm _ _ same)] at differ
    cases differ

/-- A live slot is found under every key that is the same as its own. -/
theorem find?_of_mem (mirrors : Mirrors filing table alive swept plain) {entry : κ × ν}
    (member : entry ∈ filing.entries alive table) (same : filing.keying.same entry.1 key = true) :
    plain.find? key = some entry :=
  mirrors.unique.find?_of_mem mirrors.same (mirrors.entries_perm.mem_iff.mp member) same

/-- What live slots hold under the same key is the same. -/
theorem entry_eq (mirrors : Mirrors filing table alive swept plain) {entry other : κ × ν}
    (member : entry ∈ filing.entries alive table) (alsoMember : other ∈ filing.entries alive table)
    (same : filing.keying.same entry.1 other.1 = true) : entry = other :=
  Option.some.inj ((mirrors.find?_of_mem member same).symm.trans
    (mirrors.find?_of_mem alsoMember (filing.keying.refl _)))

/-- When the key of a live slot is reclaimed, nothing is left under that key. -/
theorem find?_of_reclaimed (mirrors : Mirrors filing table alive swept plain) {entry : κ × ν}
    (member : entry ∈ filing.entries alive table) (same : filing.keying.same entry.1 key = true)
    {keep : κ → Bool} (gone : keep entry.1 = false) : (plain.reclaim keep).find? key = none := by
  have after := mirrors.reclaim keep
  refine List.find?_eq_none.mpr fun pair inPairs isOf => ?_
  rw [PlainMap.isOf, after.present_eq, Bool.and_eq_true, Bool.and_eq_true] at isOf
  obtain ⟨⟨kept, present⟩, sameKey⟩ := isOf
  rw [after.same] at sameKey
  have inEntries : pair ∈ plain.entries :=
    List.mem_filter.mpr ⟨inPairs, (mirrors.present_eq pair).trans present⟩
  have found := mirrors.unique.find?_of_mem mirrors.same inEntries sameKey
  rw [mirrors.find?_of_mem member same] at found
  obtain rfl := Option.some.inj found
  rw [gone] at kept
  cases kept

theorem insert (mirrors : Mirrors filing table alive swept plain) {value : ν}
    (missed : table.find? (filing.wanted alive key) = none) (pair : filing.pair slot = (key, value))
    (placed : filing.hash slot = filing.keying.hash key) :
    Mirrors filing (table.insert slot) alive swept (plain.insert key value) := by
  obtain ⟨thrown, parts, absent, counted⟩ := mirrors.pairs
  refine { mirrors with
    placed := fun other member => ?_
    pairs := ⟨thrown, ?_, absent, counted⟩
    unique := mirrors.unique.insert mirrors.same (mirrors.find?_of_miss missed) value }
  · rcases List.mem_cons.mp member with rfl | inTable
    · rw [placed, pair]
    · exact mirrors.placed other inTable
  · rw [SlotTable.insert, List.map_cons, pair]
    exact parts.cons (key, value)

/-- A slot that was found may be overwritten by one of the same key. -/
theorem setAt (mirrors : Mirrors filing table alive swept plain)
    (found : table.find? (filing.wanted alive key) = some (position, slot)) {other : σ} {value : ν}
    (pair : filing.pair other = ((filing.pair slot).1, value))
    (placed : filing.hash other = filing.hash slot) :
    Mirrors filing (table.setAt position other) alive swept (plain.setValue key value) := by
  obtain ⟨isOf, rest, thrown, before, overwritten, -, parts, absent, counted⟩ :=
    mirrors.exists_rest found
  refine { mirrors with
    placed := fun third member => ?_
    pairs := ⟨thrown, ?_, absent, counted⟩
    unique := mirrors.unique.setValue mirrors.same parts isOf value }
  · rcases List.mem_cons.mp ((overwritten other).mem_iff.mp member) with rfl | inRest
    · rw [placed, pair]
      exact mirrors.placed slot (before.mem_iff.mpr List.mem_cons_self)
    · exact mirrors.placed third (before.mem_iff.mpr (List.mem_cons_of_mem _ inRest))
  · have stored := ((overwritten other).map filing.pair).append_right thrown
    rw [List.map_cons, pair] at stored
    exact (mirrors.unique.setValue_perm mirrors.same parts isOf value).trans stored.symm

/-- A slot that was found may be erased. -/
theorem eraseAt (mirrors : Mirrors filing table alive swept plain)
    (found : table.find? (filing.wanted alive key) = some (position, slot)) :
    Mirrors filing (table.eraseAt position) alive swept (plain.remove key) := by
  obtain ⟨isOf, rest, thrown, before, -, erased, parts, absent, counted⟩ :=
    mirrors.exists_rest found
  refine { mirrors with
    placed := fun other member =>
      mirrors.placed other (before.mem_iff.mpr (List.mem_cons_of_mem _ (erased.mem_iff.mp member)))
    pairs := ⟨thrown, ?_, absent, counted⟩
    unique := mirrors.unique.of_sublist List.filter_sublist }
  have stored := (erased.map filing.pair).append_right thrown
  exact (mirrors.unique.remove_perm mirrors.same parts isOf).trans stored.symm

/-! ### The whole table -/

theorem clear (mirrors : Mirrors filing table alive swept plain) :
    Mirrors filing table.clear alive 0 { plain with pairs := [] } :=
  { mirrors with
    placed := fun _ none => absurd none List.not_mem_nil
    pairs := ⟨[], List.Perm.refl _, fun _ none => absurd none List.not_mem_nil, rfl⟩
    unique := List.Pairwise.nil }

/-- A requested sweep finds what is stale, except what was thrown out before. -/
theorem sweep_add (mirrors : Mirrors filing table alive swept plain) :
    (table.sweep (filing.live alive)).1 + swept =
      plain.pairs.countP fun pair => !plain.present pair := by
  obtain ⟨thrown, parts, absent, counted⟩ := mirrors.pairs
  have all : thrown.countP (fun pair => !plain.present pair) = thrown.length :=
    List.countP_eq_length.mpr fun pair member => by simp [absent pair member]
  have stale : (table.slots.map filing.pair).countP (fun pair => !plain.present pair) =
      table.slots.countP fun slot => !filing.live alive slot := by
    rw [List.countP_map]
    exact List.countP_congr fun slot _ => by simp [mirrors.present_eq, live]
  have both := List.length_eq_countP_add_countP (filing.live alive) (l := table.slots)
  rw [parts.countP_eq, List.countP_append, all, stale, counted, SlotTable.sweep,
    ← List.countP_eq_length_filter]
  simp only [Bool.not_eq_true, Bool.decide_eq_false] at both
  omega

/-- A sweep leaves live slots only, which a list of present pairs mirrors. -/
theorem swept_entries (mirrors : Mirrors filing table alive swept plain) :
    Mirrors filing (table.sweep (filing.live alive)).2 alive 0
      { plain with pairs := plain.entries } :=
  { mirrors with
    placed := fun slot member => mirrors.placed slot (SlotTable.mem_sweep.mp member).1
    pairs := by
      refine ⟨[], ?_, fun _ none => absurd none List.not_mem_nil, rfl⟩
      rw [List.append_nil]
      exact mirrors.entries_perm.symm
    unique := mirrors.unique.of_sublist List.filter_sublist }

/-- The slots may be replaced by those of other values, if all of them are live. -/
theorem changeValues (mirrors : Mirrors filing table alive swept plain) (renew : σ → σ)
    {change : κ → ν → ν} (live : ∀ slot ∈ table.slots, filing.live alive slot = true)
    (hash : ∀ slot, filing.hash (renew slot) = filing.hash slot)
    (pair : ∀ slot, filing.pair (renew slot) =
      ((filing.pair slot).1, change (filing.pair slot).1 (filing.pair slot).2)) :
    Mirrors filing { table with slots := table.slots.map renew } alive swept
      (plain.changeValues change) := by
  obtain ⟨thrown, parts, absent, counted⟩ := mirrors.pairs
  refine { mirrors with
    placed := fun slot member => ?_
    pairs := ⟨thrown, ?_, absent, counted⟩
    unique := ?_ }
  · obtain ⟨former, inTable, rfl⟩ := List.mem_map.mp member
    rw [hash, pair]
    exact mirrors.placed former inTable
  · refine (parts.map _).trans (List.Perm.of_eq ?_)
    rw [List.map_append, List.map_map, List.map_map]
    congr 1
    · refine List.map_congr_left fun slot member => ?_
      have present : plain.present (filing.pair slot) = true :=
        (mirrors.present_eq _).trans (live slot member)
      rw [Function.comp_apply, Function.comp_apply, PlainMap.changed, if_pos present, pair]
    · conv_rhs => rw [← List.map_id thrown]
      refine List.map_congr_left fun other member => ?_
      simp [PlainMap.changed, absent other member]
  · have visible : plain.present ∘ plain.changed change = plain.present := by
      funext pair
      rw [Function.comp_apply, mirrors.present_eq, mirrors.present_eq]
      rfl
    show (List.filter plain.present (plain.pairs.map (plain.changed change))).Pairwise _
    rw [List.filter_map, visible, List.pairwise_map]
    exact mirrors.unique

/-- Live slots may be left out. -/
theorem removeKeys (mirrors : Mirrors filing table alive swept plain) (drop : κ → Bool) :
    Mirrors filing { table with slots := table.slots.filter fun slot =>
        !(filing.live alive slot && drop (filing.pair slot).1) } alive swept
      (plain.removeKeys drop) := by
  obtain ⟨thrown, parts, absent, counted⟩ := mirrors.pairs
  refine { mirrors with
    placed := fun slot member => mirrors.placed slot (List.mem_filter.mp member).1
    pairs := ⟨thrown, ?_, absent, counted⟩
    unique := mirrors.unique.of_sublist List.filter_sublist }
  have untouched : thrown.filter (fun pair => !(plain.present pair && drop pair.1)) = thrown :=
    List.filter_eq_self.mpr fun pair member => by simp [absent pair member]
  have stored : (table.slots.map filing.pair).filter (fun pair =>
        !(plain.present pair && drop pair.1)) =
      (table.slots.filter fun slot =>
        !(filing.live alive slot && drop (filing.pair slot).1)).map filing.pair := by
    rw [List.filter_map]
    refine congrArg _ (List.filter_congr fun slot _ => ?_)
    rw [Function.comp_apply, mirrors.present_eq]
    rfl
  have both := parts.filter fun pair => !(plain.present pair && drop pair.1)
  rw [List.filter_append, untouched, stored] at both
  exact both

end Mirrors

end Filing

/-! ## Containers in use -/

/-- What happens to a container in use: it is asked something, or objects are reclaimed. -/
inductive Occasion (ρ κ : Type) where
  | call (call : ρ)
  /-- Callers let go of the objects that they do not keep, and these are reclaimed. -/
  | reclaim (keep : κ → Bool)

/-- A container in use, the objects that are alive, and how many slots the container has thrown out
on its own since it was last rid of stale ones. Objects that are not made yet count as alive. -/
structure InUse (γ κ : Type) where
  container : γ
  alive : κ → Bool := fun _ => true
  swept : Nat := 0

/-- Only those objects stay alive that are to be kept. -/
def InUse.reclaim {γ : Type} (use : InUse γ κ) (keep : κ → Bool) : InUse γ κ :=
  { use with alive := fun key => keep key && use.alive key }

end Collections.Weak
