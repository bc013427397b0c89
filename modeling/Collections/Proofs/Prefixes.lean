import Collections.Proofs.Cursor.Looping
import Collections.StartsWith

/-!
# The order of prefixes

To find out whether an array starts with another one always gives an answer, so nothing is read that
is not there: no element behind the end of an array, no value of an absent element, and no byte behind
the end of a text (`Decides.startsWith?`). The answer is whether the other array is at most as long
and agrees at each of its positions (`Leads`). Elements that may be absent agree if both are, or if
both are there and equal (`Decides.pointeesAgree?`), and texts in memory if their bytes up to the first
zero are the same (`TerminatedText.decides_equals?`).

If values are compared by an equivalence, agreement is one for every kind of elements
(`ElementKind.equivalence_agree`). So the arrays are in a preorder, in which two arrays lead each
other exactly if they agree everywhere (`Leads.refl`, `Leads.trans`, `leads_both_iff`).

To agree should mean to be absent together, or to be there together with equal values
(`ElementKind.NullAware`). It does for all kinds but pointers that are compared by address, which
agree only if they also are the same (`ElementKind.agree_iff`).

A combination of cursors delivers first what its first part would have delivered alone
(`Cursor.Drains.front_append`), whatever the parts share. So what is read from it starts with what is
read from the part (`startsWith_is_preorder`).
-/

set_option autoImplicit false

namespace Collections

variable {α β ε δ : Type}

/-! ## Comparisons that always answer -/

/-- A comparison always answers, and tells whether a relation holds. -/
def Decides (compare? : ε → δ → Option Bool) (related : ε → δ → Prop) : Prop :=
  ∀ left right, ∃ answer, compare? left right = some answer ∧ (answer = true ↔ related left right)

theorem Decides.eq_true_iff {compare? : ε → δ → Option Bool} {related : ε → δ → Prop}
    (decides : Decides compare? related) {left : ε} {right : δ} :
    compare? left right = some true ↔ related left right := by
  obtain ⟨answer, compared, tells⟩ := decides left right
  rw [compared, Option.some.injEq, tells]

/-- What elements point to is compared only if both point to something. -/
theorem Decides.pointeesAgree? {same? : α → β → Option Bool} {same : α → β → Prop}
    (decides : Decides same? same) :
    Decides (ElementKind.pointeesAgree? same?) (Option.Rel same) := by
  rintro (_ | left) (_ | right)
  · exact ⟨true, rfl, fun _ => .none, fun _ => rfl⟩
  · exact ⟨false, rfl, nofun, nofun⟩
  · exact ⟨false, rfl, nofun, nofun⟩
  · obtain ⟨answer, compared, tells⟩ := decides left right
    refine ⟨answer, compared, fun yes => .some (tells.mp yes), ?_⟩
    rintro (related | _)
    exact tells.mpr related

/-! ## Texts in memory -/

namespace Bytes

theorem terminated_zero (rest : Bytes) : terminated (0 :: rest) = [] := rfl

theorem terminated_cons {byte : UInt8} (nonzero : byte ≠ 0) (rest : Bytes) :
    terminated (byte :: rest) = byte :: terminated rest := by
  rw [terminated, List.takeWhile_cons, if_pos (bne_iff_ne.mpr nonzero), terminated]

/-- Bytes that differ make what stands before the end differ. -/
theorem terminated_ne {byte other : UInt8} (differ : byte ≠ other) (lefts rights : Bytes) :
    terminated (byte :: lefts) ≠ terminated (other :: rights) := by
  intro equal
  by_cases zero : byte = 0
  · subst zero
    rw [terminated_zero, terminated_cons differ.symm] at equal
    cases equal
  · rw [terminated_cons zero] at equal
    by_cases zeroToo : other = 0
    · subst zeroToo
      cases equal
    · rw [terminated_cons zeroToo] at equal
      exact differ (List.cons.inj equal).1

end Bytes

namespace TerminatedText

/-- Two memories that have an end each are compared up to there. -/
theorem compareMemory?_eq {left right : Bytes} (endsLeft : 0 ∈ left) (endsRight : 0 ∈ right) :
    ∃ order, compareMemory? left right = some order ∧
      (order = .eq ↔ left.terminated = right.terminated) := by
  induction left generalizing right with
  | nil => cases endsLeft
  | cons byte lefts ih =>
      cases right with
      | nil => cases endsRight
      | cons other rights =>
          rw [compareMemory?]
          by_cases same : byte = other
          · subst same
            rw [if_pos rfl]
            by_cases zero : byte = 0
            · subst zero
              exact ⟨.eq, rfl, fun _ => rfl, fun _ => rfl⟩
            · have inLeft := List.mem_of_ne_of_mem (Ne.symm zero) endsLeft
              have inRight := List.mem_of_ne_of_mem (Ne.symm zero) endsRight
              obtain ⟨order, compared, tells⟩ := ih inLeft inRight
              refine ⟨order, ?_, ?_⟩
              · rw [if_neg zero, compared]
              · rw [tells, Bytes.terminated_cons zero, Bytes.terminated_cons zero, List.cons.injEq,
                  and_iff_right rfl]
          · refine ⟨compare byte other, if_neg same, ?_⟩
            rw [Std.compare_eq_iff_eq]
            exact ⟨fun equal => absurd equal same,
              fun equal => absurd equal (Bytes.terminated_ne same lefts rights)⟩

/-- **Texts are equal if they say the same.** -/
theorem decides_equals? : Decides equals? fun left right => left.content = right.content := by
  intro left right
  obtain ⟨order, compared, tells⟩ := compareMemory?_eq left.ends right.ends
  refine ⟨order == .eq, ?_, ?_⟩
  · rw [equals?, compared, Option.map_some]
  · rw [beq_iff_eq, tells]
    rfl

end TerminatedText

/-! ## Elements -/

namespace ElementKind

/-- Elements of a kind agree: values if they are found equal, what may be absent if both are or if
both are there and found equal, texts if they say the same, and pointers that are compared by
address if they are the same. -/
def Agree (same : α → β → Bool) : (kind : ElementKind) → kind.Element α → kind.Element β → Prop
  | plain => fun left right => same left right = true
  | optional => Option.Rel fun left right => same left right = true
  | shared => Option.Rel fun left right => same left right = true
  | bare => Option.Rel fun left right => same left right = true
  | text => Option.Rel fun left right => left.content = right.content
  | unique => fun left right : Option Address => left = right

/-- Elements are absent together, or there together with what is found equal, given what stands in
memory. -/
def NullAware (memory : Address → α) (same : α → α → Bool) :
    (kind : ElementKind) → kind.Element α → kind.Element α → Prop
  | unique => Option.Rel fun left right => same (memory left) (memory right) = true
  | kind => kind.Agree same

theorem decides_agree? (same : α → β → Bool) (kind : ElementKind) :
    Decides (kind.agree? same) (kind.Agree same) := by
  have values : Decides (fun left right => some (same left right)) fun left right =>
      same left right = true :=
    fun left right => ⟨same left right, rfl, Iff.rfl⟩
  cases kind with
  | plain => exact values
  | optional | shared | bare => exact values.pointeesAgree?
  | text => exact TerminatedText.decides_equals?.pointeesAgree?
  | unique => exact fun left right : Option Address => ⟨left == right, rfl, beq_iff_eq⟩

/-- Values that may be absent are equivalent if both are, or if both are there and equivalent. -/
theorem equivalence_rel {same : α → α → Prop} (equivalence : Equivalence same) :
    Equivalence (Option.Rel same) where
  refl
    | none => .none
    | some value => .some (equivalence.refl value)
  symm
    | .none => .none
    | .some related => .some (equivalence.symm related)
  trans
    | .none, .none => .none
    | .some first, .some second => .some (equivalence.trans first second)

theorem equivalence_agree {same : α → α → Bool}
    (equivalence : Equivalence fun left right => same left right = true) (kind : ElementKind) :
    Equivalence (kind.Agree same) := by
  cases kind with
  | plain => exact equivalence
  | optional | shared | bare => exact equivalence_rel equivalence
  | text => exact equivalence_rel ⟨fun _ => rfl, Eq.symm, Eq.trans⟩
  | unique => exact eq_equivalence

/-- **Pointers that are compared by address must be the same to agree**, not only point to what is
equal. -/
theorem agree_iff {same : α → α → Bool}
    (equivalence : Equivalence fun left right => same left right = true) (memory : Address → α)
    (kind : ElementKind) {left right : kind.Element α} :
    kind.Agree same left right ↔
      kind.NullAware memory same left right ∧ (kind = unique → left = right) := by
  cases kind with
  | plain | optional | shared | bare | text => exact (and_iff_left nofun).symm
  | unique =>
      constructor
      · rintro rfl
        cases left with
        | none => exact ⟨.none, fun _ => rfl⟩
        | some place => exact ⟨.some (equivalence.refl (memory place)), fun _ => rfl⟩
      · exact fun both => both.2 rfl

end ElementKind

/-! ## Arrays -/

/-- An array leads to another one: it is at least as long, and agrees with it at all its positions. -/
def Leads (agree : ε → δ → Prop) (array : List ε) (start : List δ) : Prop :=
  start.length ≤ array.length ∧
    ∀ (index : Nat) (inside : index < start.length) (there : index < array.length),
      agree array[index] start[index]

section Pairs

variable {agree : ε → δ → Prop}

theorem leads_nil (array : List ε) : Leads agree array [] :=
  ⟨Nat.zero_le _, fun _ inside => absurd inside (Nat.not_lt_zero _)⟩

theorem leads_cons_iff {left : ε} {right : δ} {lefts : List ε} {rights : List δ} :
    Leads agree (left :: lefts) (right :: rights) ↔ agree left right ∧ Leads agree lefts rights := by
  constructor
  · rintro ⟨long, agrees⟩
    refine ⟨agrees 0 (Nat.succ_pos _) (Nat.succ_pos _), Nat.le_of_succ_le_succ long, ?_⟩
    intro index inside there
    exact agrees (index + 1) (Nat.succ_lt_succ inside) (Nat.succ_lt_succ there)
  · rintro ⟨first, long, agrees⟩
    refine ⟨Nat.succ_le_succ long, fun index inside there => ?_⟩
    cases index with
    | zero => exact first
    | succ index =>
        exact agrees index (Nat.lt_of_succ_lt_succ inside) (Nat.lt_of_succ_lt_succ there)

/-- The walk along the second array never comes to the end of a first one that is long enough. -/
theorem Decides.agreeAlong? {agree? : ε → δ → Option Bool} (decides : Decides agree? agree)
    {array : List ε} {start : List δ} (long : start.length ≤ array.length) :
    ∃ answer, Collections.agreeAlong? agree? array start = some answer ∧
      (answer = true ↔ Leads agree array start) := by
  induction start generalizing array with
  | nil => exact ⟨true, by rw [Collections.agreeAlong?], fun _ => leads_nil array, fun _ => rfl⟩
  | cons right rights ih =>
      cases array with
      | nil => cases long
      | cons left lefts =>
          obtain ⟨first, compared, tells⟩ := decides left right
          rw [Collections.agreeAlong?, compared, leads_cons_iff, ← tells]
          cases first with
          | false => exact ⟨false, rfl, nofun, fun both => both.1⟩
          | true =>
              obtain ⟨answer, walked, later⟩ := ih (Nat.le_of_succ_le_succ long)
              exact ⟨answer, walked, later.trans (and_iff_right rfl).symm⟩

/-- **Whether an array starts with another one is always answered.** -/
theorem Decides.startsWith? {agree? : ε → δ → Option Bool} (decides : Decides agree? agree) :
    Decides (Collections.startsWith? agree?) (Leads agree) := by
  intro array start
  rw [Collections.startsWith?]
  split
  next short => exact ⟨false, rfl, nofun, fun leads => absurd leads.1 (Nat.not_le_of_lt short)⟩
  next long => exact decides.agreeAlong? (Nat.le_of_not_lt long)

/-- What every pair has to satisfy besides can be told apart. -/
theorem leads_and_iff {both less : ε → δ → Prop} {more : ε → δ → Prop} {needed : Prop}
    (splits : ∀ left right, both left right ↔ less left right ∧ (needed → more left right))
    {array : List ε} {start : List δ} :
    Leads both array start ↔ Leads less array start ∧
      (needed → ∀ (index : Nat) (inside : index < start.length) (there : index < array.length),
        more array[index] start[index]) := by
  constructor
  · rintro ⟨long, agrees⟩
    refine ⟨⟨long, fun index inside there => ?_⟩, fun need index inside there => ?_⟩
    · exact ((splits _ _).mp (agrees index inside there)).1
    · exact ((splits _ _).mp (agrees index inside there)).2 need
  · rintro ⟨⟨long, agrees⟩, besides⟩
    refine ⟨long, fun index inside there => (splits _ _).mpr ⟨agrees index inside there, ?_⟩⟩
    exact fun need => besides need index inside there

end Pairs

section Order

variable {agree : ε → ε → Prop} {array middle start : List ε}

theorem Leads.refl (equivalence : Equivalence agree) (array : List ε) : Leads agree array array :=
  ⟨Nat.le_refl _, fun index _ _ => equivalence.refl array[index]⟩

theorem Leads.trans (equivalence : Equivalence agree) (first : Leads agree array middle)
    (second : Leads agree middle start) : Leads agree array start := by
  refine ⟨Nat.le_trans second.1 first.1, fun index inside there => ?_⟩
  have between : index < middle.length := Nat.lt_of_lt_of_le inside second.1
  exact equivalence.trans (first.2 index between there) (second.2 index inside between)

/-- Arrays lead each other if they agree everywhere. -/
theorem leads_both_iff (equivalence : Equivalence agree) :
    Leads agree array start ∧ Leads agree start array ↔
      array.length = start.length ∧
        ∀ (index : Nat) (inside : index < start.length) (there : index < array.length),
          agree array[index] start[index] := by
  constructor
  · rintro ⟨there, back⟩
    exact ⟨Nat.le_antisymm back.1 there.1, there.2⟩
  · rintro ⟨same, agrees⟩
    refine ⟨⟨Nat.le_of_eq same.symm, agrees⟩, Nat.le_of_eq same, fun index inside there => ?_⟩
    exact equivalence.symm (agrees index there inside)

/-- An array leads to its own beginning. -/
theorem Leads.append (equivalence : Equivalence agree) (front back : List ε) :
    Leads agree (front ++ back) front := by
  refine ⟨?_, fun index inside there => ?_⟩
  · rw [List.length_append]
    exact Nat.le_add_right _ _
  · rw [List.getElem_append_left inside]
    exact equivalence.refl _

end Order

/-! ## Combinations -/

namespace Cursor

variable {first second : Cursor ε} {switch bound : Handle} {store between after : Store ε}
  {front items : List ε}

/-- **A combination delivers first what its first part has left.** The second part may share
whatever it likes with the first. -/
theorem Drains.front_append (inFront : first.Drains store front between)
    (whole : (combined switch first second).Drains store items after)
    (made : (combined switch first second).MadeBefore bound)
    (uncrossed : store.hasCrossed switch = false) : ∃ back, items = front ++ back := by
  induction inFront generalizing items with
  | exhausted => exact ⟨items, rfl⟩
  | @delivers store asked next between item front more taken rest ih =>
      have still : asked.hasCrossed switch = false :=
        ((confined_hasNext made.2.1).keeps_of_eq more (Nat.le_refl switch)).trans uncrossed
      have again : (combined switch first second).hasNext asked = (true, asked) := by
        rw [hasNext, if_neg (by simp [still]), hasNext_again made.2.1 more]
      have later : next.hasCrossed switch = false :=
        ((confined_next made.2.1).keeps_of_eq taken (Nat.le_refl switch)).trans still
      have there : (combined switch first second).hasNext store = (true, asked) := by
        rw [hasNext, if_neg (by simp [uncrossed]), more]
      have delivered : (combined switch first second).next asked = (.ok item, next) := by
        rw [next_combined again, if_neg (by simp [still]), taken]
      cases whole with
      | exhausted nothing => cases nothing.symm.trans there
      | delivers moreToo takenToo others =>
          obtain ⟨-, rfl⟩ := Prod.mk.inj (moreToo.symm.trans there)
          obtain ⟨same, rfl⟩ := Prod.mk.inj (takenToo.symm.trans delivered)
          obtain ⟨back, rfl⟩ := ih others later
          exact ⟨back, by rw [Except.ok.inj same]; rfl⟩

/-- The combination of usable cursors is usable. -/
theorem Usable.combine (usableFirst : first.Usable store) (usableSecond : second.Usable store) :
    (Cursor.combine first second store).1.Usable (Cursor.combine first second store).2 := by
  have grown := Store.Grown.combine first second store
  have inFront := usableFirst.of_grown grown
  have inBack := usableSecond.of_grown grown
  refine ⟨⟨Nat.lt_succ_self _, usableFirst.made, usableSecond.made⟩, ?_, ?_⟩
  · intro handle known
    obtain rfl | inside := List.mem_cons.mp known
    · exact Nat.lt_succ_self _
    · exact (List.mem_append.mp inside).elim (inFront.older handle) (inBack.older handle)
  · intro seat member
    exact (List.mem_append.mp member).elim (inFront.shown seat) (inBack.shown seat)

/-- What is read from a combination begins with what would have been read from its first part. -/
theorem toArray_combine (usableFirst : first.Usable store) (usableSecond : second.Usable store) :
    ∃ alone back, (first.toArray store).1 = .ok alone ∧
      ((Cursor.combine first second store).1.toArray
        (Cursor.combine first second store).2).1 = .ok (alone ++ back) := by
  have joined := usableFirst.combine usableSecond
  obtain ⟨alone, between, drains, bounded⟩ := usableFirst.shown.exists_drains usableFirst.made
  obtain ⟨all, after, whole, within⟩ := joined.shown.exists_drains joined.made
  obtain ⟨last, again⟩ :=
    drains.of_sameAt ((Store.Grown.combine first second store).sameAt usableFirst.older)
  have uncrossed :
      (Cursor.combine first second store).2.hasCrossed store.fresh = false := by
    rw [Cursor.combine, Store.allocate, Store.hasCrossed_uncross, if_pos rfl]
  obtain ⟨back, rfl⟩ := again.front_append whole joined.made uncrossed
  exact ⟨alone, back, by rw [drains.toArray bounded], by rw [whole.toArray within]⟩

end Cursor

/-! ## The order -/

/-- An array of elements of a kind is found to start with another one. -/
def StartsWith (kind : ElementKind) (same : α → β → Bool) (array : List (kind.Element α))
    (start : List (kind.Element β)) : Prop :=
  startsWith? (kind.agree? same) array start = some true

theorem startsWith_iff {kind : ElementKind} {same : α → β → Bool} {array : List (kind.Element α)}
    {start : List (kind.Element β)} :
    StartsWith kind same array start ↔ Leads (kind.Agree same) array start :=
  (ElementKind.decides_agree? same kind).startsWith?.eq_true_iff

/-- **To start with an array is a preorder that knows absent elements.** For every kind of elements:
it is always answered whether an array starts with another one, without reading what is not there,
and the answer is yes exactly if the other one is at most as long and agrees at each of its positions.

So if values are compared by an equivalence, every array starts with itself, and with what the arrays
start with that it starts with. Two arrays start with each other exactly if they are of equal length
and agree everywhere. And what is read from the combination of two cursors starts with what would
have been read from the first of them.

To agree is to be absent together, or there together with equal values, except for pointers that are
compared by address: an array of these starts with another one exactly if it does so by what they
point to and has the same pointers at all positions of the other. -/
theorem startsWith_is_preorder (kind : ElementKind) :
    (∀ {α β : Type} (same : α → β → Bool) (array : List (kind.Element α))
        (start : List (kind.Element β)),
        ∃ answer, startsWith? (kind.agree? same) array start = some answer ∧
          (answer = true ↔ start.length ≤ array.length ∧
            ∀ (index : Nat) (inside : index < start.length) (there : index < array.length),
              kind.Agree same array[index] start[index])) ∧
      ∀ {α : Type} (same : α → α → Bool), Equivalence (fun left right => same left right = true) →
        (∀ array, StartsWith kind same array array) ∧
        (∀ array middle start, StartsWith kind same array middle → StartsWith kind same middle start →
          StartsWith kind same array start) ∧
        (∀ array start, StartsWith kind same array start ∧ StartsWith kind same start array ↔
          array.length = start.length ∧
            ∀ (index : Nat) (inside : index < start.length) (there : index < array.length),
              kind.Agree same array[index] start[index]) ∧
        (∀ (store : Store (kind.Element α)) (first second : Cursor (kind.Element α)),
          first.Usable store → second.Usable store →
          ∃ alone whole, (first.toArray store).1 = .ok alone ∧
            (let (combination, joined) := Cursor.combine first second store
            (combination.toArray joined).1 = .ok whole) ∧
            StartsWith kind same whole alone) ∧
        ∀ (memory : Address → α) (array start : List (kind.Element α)),
          StartsWith kind same array start ↔
            (start.length ≤ array.length ∧
              ∀ (index : Nat) (inside : index < start.length) (there : index < array.length),
                kind.NullAware memory same array[index] start[index]) ∧
            (kind = .unique →
              ∀ (index : Nat) (inside : index < start.length) (there : index < array.length),
                array[index] = start[index]) := by
  refine ⟨fun same => (ElementKind.decides_agree? same kind).startsWith?, ?_⟩
  intro α same equivalence
  have agrees := ElementKind.equivalence_agree equivalence kind
  refine ⟨?_, ?_, ?_, ?_, ?_⟩
  · intro array
    exact startsWith_iff.mpr (.refl agrees array)
  · intro array middle start first second
    exact startsWith_iff.mpr ((startsWith_iff.mp first).trans agrees (startsWith_iff.mp second))
  · intro array start
    rw [startsWith_iff, startsWith_iff, leads_both_iff agrees]
  · intro store first second usableFirst usableSecond
    obtain ⟨alone, back, read, joined⟩ := Cursor.toArray_combine usableFirst usableSecond
    exact ⟨alone, alone ++ back, read, joined, startsWith_iff.mpr (.append agrees alone back)⟩
  · intro memory array start
    rw [startsWith_iff, leads_and_iff fun _ _ => ElementKind.agree_iff equivalence memory kind]
    rfl

/-- A list cursor that stands behind the first element of a list with a gap, and the combination of
this cursor with one over the whole list. -/
def tailAndAll : Cursor (Option Nat) × Cursor (Option Nat) × Store (Option Nat) :=
  let gappy : Store (Option Nat) :=
    { containers := ⟨[{ items := [some 1, none, some 3] }]⟩, fresh := 1 }
  let (tail, store) := gappy.listCursorOver 0 1
  let (all, store) := store.cursorOver 0
  let (both, store) := (Cursor.ofList tail).combine all store
  (.ofList tail, both, store)

/-- The cursor is combined with a combination that it is part of. It is read once, in front. -/
theorem startsWith_is_preorder_of_tailAndAll :
    let (tail, both, store) := tailAndAll
    tail.Usable store ∧ both.Usable store ∧ (tail.toArray store).1 = .ok [none, some 3] ∧
      (let (combination, joined) := tail.combine both store
      (combination.toArray joined).1 = .ok [none, some 3, some 1, none, some 3]) ∧
      StartsWith .optional (fun left right : Nat => left == right)
        [none, some 3, some 1, none, some 3] [none, some 3] := by
  have assembled : Assembled [tailAndAll.2.1, .direct 0 2, tailAndAll.1] tailAndAll.2.2 :=
    (((Assembled.start _).listCursor 0 (by decide)).cursor (.forward 1 0)
      fun _ none => absurd none List.not_mem_nil).combine (.tail _ (.head _)) (.head _)
  have usable : tailAndAll.1.Usable tailAndAll.2.2 := assembled.usable (.tail _ (.tail _ (.head _)))
  have usableToo : tailAndAll.2.1.Usable tailAndAll.2.2 := assembled.usable (.head _)
  have equivalence : Equivalence fun left right : Nat => (left == right) = true := by
    simpa only [beq_iff_eq] using eq_equivalence
  obtain ⟨-, laws⟩ := startsWith_is_preorder .optional
  obtain ⟨-, -, -, combinations, -⟩ := laws (fun left right : Nat => left == right) equivalence
  obtain ⟨alone, whole, read, joined, starts⟩ := combinations _ _ _ usable usableToo
  obtain rfl : [none, some 3] = alone := Except.ok.inj read
  obtain rfl : [none, some 3, some 1, none, some 3] = whole := Except.ok.inj joined
  exact ⟨usable, usableToo, rfl, rfl, starts⟩

/-- Two pointers to the same number at different places are compared by address. So arrays of them do
not start with each other, though they do by what is pointed to. -/
theorem unique_pointers_are_told_apart :
    Leads (ElementKind.unique.NullAware (fun _ => 5) fun left right : Nat => left == right)
        [some 1] [some 2] ∧
      startsWith? (ElementKind.unique.agree? fun left right : Nat => left == right)
        [some 1] [some 2] = some false :=
  ⟨leads_cons_iff.mpr ⟨.some rfl, leads_nil []⟩, rfl⟩

/-- What lies behind the end of a text does not count. -/
example : startsWith? (ElementKind.text.agree? fun (_ _ : Unit) => true)
    [some (.ofBytes [97, 0, 98]), none] [some (.ofBytes [97])] = some true := rfl

end Collections
