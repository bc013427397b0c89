import Collections.Proofs.Cursor.Remaining
import Collections.Proofs.Cursor.Restarting
import Mathlib.Data.List.ReduceOption

/-!
# Looped cursors

The sequence that is made of one cursor hands out that cursor every time. So its consumers share
what the cursor has left: the cursor itself, combinations in which it occurs, once or more often,
and views of these that only read (`Consumer`).

What a consumer delivers comes from the looped cursor if each combination on the way is at the part
that leads there (`Consumer.atLooped`). To ask a consumer leaves to the looped cursor what it has
left (`Consumer.Apart.hasNext`). A delivery takes away the first element if it comes from there, and
leaves everything otherwise (`Consumer.Apart.next`). So does every request of consumers
(`Consumers.Keeps.respond`), and what comes from the looped cursor over a whole run is the beginning
of what it had (`Consumers.Keeps.run`).

A combination drains as its first part and then as its second (`Cursor.Drains.append`). So a
consumer that is opened from parts that start anew and places of the looped cursor delivers the
parts in order, at the first of the places what the looped cursor has left, and at the others
nothing (`Consumer.Opened.drains`).
-/

set_option autoImplicit false

namespace Collections

variable {α : Type}

/-! ## One cursor after another -/

namespace Cursor.Drains

variable {cursor first second : Cursor α} {switch bound : Handle} {store between after : Store α}
  {front back items : List α}

/-- A cursor that is asked alike in two stores drains alike from both. -/
theorem of_hasNext_eq {other : Store α} (drains : cursor.Drains other items after)
    (same : cursor.hasNext store = cursor.hasNext other) : cursor.Drains store items after := by
  cases drains with
  | exhausted asked => exact .exhausted (same.trans asked)
  | delivers more taken rest => exact .delivers (same.trans more) taken rest

/-- A combination that has gone over drains as its second part. -/
theorem inBack (drains : second.Drains store items after)
    (made : (combined switch first second).MadeBefore bound)
    (crossed : store.hasCrossed switch = true) :
    (combined switch first second).Drains store items after := by
  have unmoved := confined_hasNext made.2.2
  induction drains with
  | exhausted asked => exact .exhausted (by rw [hasNext, if_pos crossed, asked])
  | @delivers store asked next after item items more taken rest ih =>
      have still : asked.hasCrossed switch = true :=
        (unmoved.keeps_of_eq more (Nat.le_refl switch)).trans crossed
      have again : (combined switch first second).hasNext asked = (true, asked) := by
        rw [hasNext, if_pos still, hasNext_again made.2.2 more]
      have later : next.hasCrossed switch = true :=
        ((confined_next made.2.2).keeps_of_eq taken (Nat.le_refl switch)).trans still
      have whole : (combined switch first second).hasNext store = (true, asked) := by
        rw [hasNext, if_pos crossed, more]
      refine .delivers whole ?_ (ih later)
      rw [next_combined again, if_pos still, taken]

/-- **A combination drains as its first part, and then as its second.** -/
theorem append (inFront : first.Drains store front between)
    (inBack : second.Drains (between.cross switch) back after)
    (made : (combined switch first second).MadeBefore bound)
    (uncrossed : store.hasCrossed switch = false) :
    (combined switch first second).Drains store (front ++ back) after := by
  induction inFront with
  | @exhausted store between asked =>
      have crossed : (between.cross switch).hasCrossed switch = true := by
        rw [Store.hasCrossed_cross, if_pos rfl]
      refine (inBack.inBack made crossed).of_hasNext_eq ?_
      rw [hasNext, if_neg (by simp [uncrossed]), asked, hasNext, if_pos crossed]
  | @delivers store asked next between item items more taken rest ih =>
      have still : asked.hasCrossed switch = false :=
        ((confined_hasNext made.2.1).keeps_of_eq more (Nat.le_refl switch)).trans uncrossed
      have again : (combined switch first second).hasNext asked = (true, asked) := by
        rw [hasNext, if_neg (by simp [still]), hasNext_again made.2.1 more]
      have later : next.hasCrossed switch = false :=
        ((confined_next made.2.1).keeps_of_eq taken (Nat.le_refl switch)).trans still
      have whole : (combined switch first second).hasNext store = (true, asked) := by
        rw [hasNext, if_neg (by simp [uncrossed]), more]
      refine .delivers whole ?_ (ih inBack later)
      rw [next_combined again, if_neg (by simp [still]), taken]

end Cursor.Drains

/-! ## Consumers -/

/-- A cursor that is built around a looped one. -/
inductive Consumer (α : Type) where
  /-- The looped cursor itself. -/
  | looped
  /-- A cursor that was made in another way. -/
  | other (cursor : Cursor α)
  | combined (switch : Handle) (first second : Consumer α)
  | readOnly (view : Handle) (source : Consumer α)

namespace Consumer

/-- The cursor that a consumer is, around a looped one. -/
def cursor (looped : Cursor α) : Consumer α → Cursor α
  | .looped => looped
  | other cursor => cursor
  | combined switch first second => .combined switch (first.cursor looped) (second.cursor looped)
  | readOnly view source => .readOnly view (source.cursor looped)

/-- Whether what is delivered next comes from the looped cursor. A combination is asked first, and
then delivers from the part that it is at. -/
def atLooped (looped : Cursor α) : Consumer α → Store α → Bool
  | .looped, _ => true
  | other _, _ => false
  | combined switch first second, store =>
      let (_, store) := ((combined switch first second).cursor looped).hasNext store
      if store.hasCrossed switch then second.atLooped looped store else first.atLooped looped store
  | readOnly _ source, store => source.atLooped looped store

/-- The state of the looped cursor is not that of anything around it. -/
def Apart (looped : Cursor α) : Consumer α → Prop
  | .looped => True
  | other cursor => looped.handles.Disjoint cursor.handles
  | combined switch first second =>
      looped.handles.Disjoint [switch] ∧ first.Apart looped ∧ second.Apart looped
  | readOnly _ source => source.Apart looped

/-- The part of a delivery that comes from the looped cursor. -/
def taken (fromLooped : Bool) : Except CursorError α → List α
  | .ok item => if fromLooped then [item] else []
  | .error _ => []

theorem taken_false (result : Except CursorError α) : taken false result = [] := by
  cases result <;> rfl

namespace Apart

variable {looped : Cursor α} {consumer : Consumer α} {store : Store α} {items : List α}

/-- **A question leaves to the looped cursor what it has left.** -/
theorem hasNext (apart : consumer.Apart looped) (provides : looped.Provides store items) :
    looped.Provides ((consumer.cursor looped).hasNext store).2 items := by
  induction consumer generalizing store with
  | looped => exact provides.hasNext.2
  | other cursor => exact provides.of_touches (cursor.touches_hasNext store) apart
  | readOnly view source ih => exact ih apart provides
  | combined switch first second front back =>
      obtain ⟨alone, inFront, inBack⟩ := apart
      rw [Consumer.cursor, Cursor.hasNext]
      split
      · exact back inBack provides
      · have asked := front inFront provides
        rcases answered : (first.cursor looped).hasNext store with ⟨_ | _, between⟩
        · rw [answered] at asked
          exact back inBack (asked.of_touches (.cross between switch) alone)
        · rwa [answered] at asked

/-- **A delivery takes the first element that the looped cursor has left, if it comes from there**,
and nothing otherwise. -/
theorem next (apart : consumer.Apart looped) (provides : looped.Provides store items) :
    ∃ rest, looped.Provides ((consumer.cursor looped).next store).2 rest ∧
      items = taken (consumer.atLooped looped store) ((consumer.cursor looped).next store).1 ++
        rest := by
  induction consumer generalizing store with
  | looped =>
      cases items with
      | nil =>
          obtain ⟨after, failed, nothing⟩ := provides.next_nil
          rw [Consumer.cursor, failed]
          exact ⟨[], nothing, rfl⟩
      | cons item rest =>
          obtain ⟨after, delivered, others⟩ := provides.next_cons
          rw [Consumer.cursor, delivered]
          exact ⟨rest, others, rfl⟩
  | other cursor =>
      refine ⟨items, provides.of_touches (cursor.touches_next store) apart, ?_⟩
      rw [atLooped, taken_false, List.nil_append]
  | readOnly view source ih => exact ih apart provides
  | combined switch first second front back =>
      have asked := hasNext apart provides
      obtain ⟨-, inFront, inBack⟩ := apart
      rw [atLooped]
      rcases answered : ((combined switch first second).cursor looped).hasNext store with
        ⟨_ | _, middle⟩
      · rw [answered] at asked
        rw [Cursor.next_of_hasNext_eq_false answered]
        exact ⟨items, asked, rfl⟩
      · rw [answered] at asked
        have delivered := Cursor.next_combined answered
        rw [Consumer.cursor, delivered]
        dsimp only
        split
        · exact back inBack asked
        · exact front inFront asked

end Apart

end Consumer

/-! ## Sequences around a looped cursor -/

/-- A sequence that is built around the sequence of a looped cursor. -/
inductive Supply (α : Type) where
  /-- The sequence of the looped cursor. -/
  | loop (view : Handle)
  /-- A sequence that was made in another way. -/
  | other (sequence : Sequence α)
  | combined (view : Handle) (first second : Supply α)
  | guarded (view : Handle) (source : Supply α)

namespace Supply

/-- The sequence that a supply is, around a looped cursor. -/
def sequence (looped : Cursor α) : Supply α → Sequence α
  | loop view => .loop view looped
  | other sequence => sequence
  | combined view first second =>
      .combined view (first.sequence looped) (second.sequence looped)
  | guarded view source => .guarded view (source.sequence looped)

/-- The consumer that a cursor of the sequence is. -/
def consumer : Supply α → Store α → Consumer α × Store α
  | loop _, store => (.looped, store)
  | other sequence, store => (sequence.cursor store).map .other id
  | combined _ first second, store =>
      let (front, store) := first.consumer store
      let (back, store) := second.consumer store
      let (switch, store) := store.allocate
      (.combined switch front back, store.uncross switch)
  | guarded _ source, store => source.consumer store

/-- The parts of a supply in order. A part that is missing is a place of the looped cursor. -/
def parts : Supply α → List (Option (Sequence α))
  | loop _ => [none]
  | other sequence => [some sequence]
  | combined _ first second => first.parts ++ second.parts
  | guarded _ source => source.parts

/-- The cursors of other parts were made in another way than the looped one. -/
def Apart (looped : Cursor α) (supply : Supply α) : Prop :=
  ∀ sequence, some sequence ∈ supply.parts →
    ∀ cursor ∈ sequence.looped, looped.handles.Disjoint cursor.handles

variable {looped : Cursor α} {store : Store α}

theorem cursor_sequence (looped : Cursor α) (supply : Supply α) (store : Store α) :
    (supply.sequence looped).cursor store =
      (supply.consumer store).map (Consumer.cursor looped) id := by
  induction supply generalizing store with
  | loop | other => rfl
  | guarded view source ih => exact ih store
  | combined view first second front back =>
      simp only [sequence, Sequence.cursor, front, back]
      rfl

theorem grown_consumer (supply : Supply α) (store : Store α) :
    Store.Grown store (supply.consumer store).2 := by
  induction supply generalizing store with
  | loop => exact .refl store
  | other sequence => exact sequence.grown_cursor store
  | guarded view source ih => exact ih store
  | combined view first second front back =>
      have opened := (front store).trans (back (first.consumer store).2)
      exact opened.trans (.combine .empty .empty _)

/-- A consumer that is opened has handles of its own. -/
theorem apart_consumer {supply : Supply α} (apart : supply.Apart looped)
    (older : ∀ handle ∈ looped.handles, handle < store.fresh) :
    (supply.consumer store).1.Apart looped := by
  induction supply generalizing store with
  | loop => trivial
  | other sequence =>
      intro handle known inside
      obtain ⟨beyond, -⟩ | ⟨cursor, member, within⟩ := sequence.handles_cursor store handle inside
      · exact Nat.lt_irrefl _ (Nat.lt_of_lt_of_le (older handle known) beyond)
      · exact apart sequence (List.mem_singleton_self _) cursor member known within
  | guarded view source ih => exact ih apart older
  | combined view first second front back =>
      have earlier := (first.grown_consumer store).fresh
      have later := (second.grown_consumer (first.consumer store).2).fresh
      refine ⟨?_, front (fun sequence part => apart sequence (List.mem_append_left _ part)) older,
        back (fun sequence part => apart sequence (List.mem_append_right _ part)) ?_⟩
      · exact disjoint_of_taken older (List.forall_mem_singleton.mpr (Nat.le_trans earlier later))
      · exact fun handle known => Nat.lt_of_lt_of_le (older handle known) earlier

end Supply

/-! ## Consumers that have just been opened -/

/-- Put lists in a row, of which some are missing. The first that is missing is replaced by a given
list, and the others by nothing. The second component is what has not been used. -/
def inRow (items : List α) : List (Option (List α)) → List α × List α
  | [] => ([], items)
  | some part :: rest => (part ++ (inRow items rest).1, (inRow items rest).2)
  | none :: rest => (items ++ (inRow [] rest).1, (inRow [] rest).2)

theorem inRow_append (items : List α) (front back : List (Option (List α))) :
    inRow items (front ++ back) =
      ((inRow items front).1 ++ (inRow (inRow items front).2 back).1,
        (inRow (inRow items front).2 back).2) := by
  induction front generalizing items with
  | nil => rfl
  | cons part rest ih =>
      cases part <;> simp [inRow, ih]

theorem inRow_nil (parts : List (Option (List α))) :
    (inRow [] parts).1 = parts.reduceOption.flatten := by
  induction parts with
  | nil => rfl
  | cons part rest ih =>
      cases part with
      | none => rw [List.reduceOption_cons_of_none, inRow, ih, List.nil_append]
      | some part => rw [List.reduceOption_cons_of_some, inRow, ih, List.flatten_cons]

/-- What is missing first is replaced, and nothing else. -/
theorem inRow_first (items : List α) (before : List (List α)) (after : List (Option (List α))) :
    (inRow items (before.map some ++ none :: after)).1 =
      before.flatten ++ items ++ after.reduceOption.flatten := by
  induction before with
  | nil => simp [inRow, inRow_nil]
  | cons part rest ih => simp [inRow, ih]

namespace Consumer

/-- The handles that a consumer adds to those of the looped cursor. -/
def own : Consumer α → List Handle
  | looped => []
  | other cursor => cursor.handles
  | combined switch first second => switch :: (first.own ++ second.own)
  | readOnly _ source => source.own

/-- A consumer has just been opened. Its parts offer some lists, and where a list is missing it has
a place of the looped cursor. -/
inductive Opened (looped : Cursor α) (store : Store α) :
    Handle → Consumer α → List (Option (List α)) → Prop where
  | looped {bound : Handle} (made : looped.MadeBefore bound) :
      Opened looped store bound .looped [none]
  | other {bound : Handle} {cursor : Cursor α} {items : List α}
      (offers : cursor.Offers bound store items) (apart : looped.handles.Disjoint cursor.handles) :
      Opened looped store bound (.other cursor) [some items]
  | combined {bound switch : Handle} {first second : Consumer α} {front back : List (Option (List α))}
      (inFront : Opened looped store switch first front)
      (inBack : Opened looped store switch second back) (older : switch < bound)
      (beyond : looped.handles.Disjoint [switch]) (distinct : (switch :: (first.own ++ second.own)).Nodup)
      (uncrossed : store.hasCrossed switch = false) :
      Opened looped store bound (.combined switch first second) (front ++ back)

namespace Opened

variable {looped : Cursor α} {store after : Store α} {bound : Handle} {consumer : Consumer α}
  {parts : List (Option (List α))} {items : List α}

theorem made (opened : Opened looped store bound consumer parts) :
    (consumer.cursor looped).MadeBefore bound := by
  induction opened with
  | looped made => exact made
  | other offers apart => exact offers.made
  | combined _ _ older _ _ _ front back => exact ⟨older, front, back⟩

theorem mono {larger : Handle} (opened : Opened looped store bound consumer parts)
    (smaller : bound ≤ larger) : Opened looped store larger consumer parts := by
  cases opened with
  | looped made => exact .looped (made.mono smaller)
  | other offers apart => exact .other (offers.mono smaller) apart
  | combined inFront inBack older beyond distinct uncrossed =>
      exact .combined inFront inBack (Nat.lt_of_lt_of_le older smaller) beyond distinct uncrossed

theorem distinct (opened : Opened looped store bound consumer parts) : consumer.own.Nodup := by
  cases opened with
  | looped => exact List.nodup_nil
  | other offers apart => exact offers.distinct
  | combined inFront inBack older beyond distinct uncrossed => exact distinct

theorem apart (opened : Opened looped store bound consumer parts) :
    looped.handles.Disjoint consumer.own := by
  induction opened with
  | looped => exact List.disjoint_nil_right _
  | other offers apart => exact apart
  | combined _ _ _ beyond _ _ front back =>
      refine List.disjoint_cons_right.mpr ⟨?_, List.disjoint_append_right.mpr ⟨front, back⟩⟩
      exact fun known => beyond known (List.mem_singleton_self _)

/-- What happens elsewhere does not concern a consumer. -/
theorem of_sameAt (opened : Opened looped store bound consumer parts)
    (same : Store.SameAt consumer.own store after) : Opened looped after bound consumer parts := by
  induction opened with
  | looped made => exact .looped made
  | other offers apart => exact .other (offers.of_sameAt same) apart
  | combined _ _ older beyond distinct uncrossed front back =>
      refine .combined (front (same.mono ?_)) (back (same.mono ?_)) older beyond distinct ?_
      · exact List.subset_cons_of_subset _ (List.subset_append_left _ _)
      · exact List.subset_cons_of_subset _ (List.subset_append_right _ _)
      · rw [same.crossed _ List.mem_cons_self, uncrossed]

theorem shown (opened : Opened looped store bound consumer parts)
    (shown : Seat.Shown looped.seats store) : Seat.Shown (consumer.cursor looped).seats store := by
  induction opened with
  | looped => exact shown
  | other offers apart => exact offers.shown
  | combined _ _ _ _ _ _ front back =>
      exact fun seat member => (List.mem_append.mp member).elim (front seat) (back seat)

/-- **A consumer that has just been opened drains into the lists of its parts**, and what the looped
cursor has left at the first place of that one. -/
theorem drains (opened : Opened looped store bound consumer parts)
    (provides : looped.Provides store items) :
    ∃ after, (consumer.cursor looped).Drains store (inRow items parts).1 after ∧
      looped.Provides after (inRow items parts).2 ∧
      Store.Touches (looped.handles ++ consumer.own) store after := by
  induction consumer generalizing store bound parts items with
  | looped =>
      cases opened with
      | looped made =>
          obtain ⟨after, drains, nothing⟩ := provides.drains
          refine ⟨after, ?_, nothing, drains.touches.mono (List.subset_append_left _ _)⟩
          rw [inRow, inRow, List.append_nil]
          exact drains
  | other cursor =>
      cases opened with
      | other offers apart =>
          obtain ⟨after, drains, -, touches⟩ := offers.drains
          refine ⟨after, ?_, provides.of_touches touches apart,
            touches.mono (List.subset_append_right _ _)⟩
          rw [inRow, inRow, List.append_nil]
          exact drains
  | readOnly => cases opened
  | combined switch first second front back =>
      have made := opened.made
      cases opened with
      | combined inFront inBack older beyond distinct uncrossed =>
          obtain ⟨alone, own⟩ := List.nodup_cons.mp distinct
          obtain ⟨between, drainsFront, left, touchesFront⟩ := front inFront provides
          -- What the first part does, and to go over, does not concern the second part.
          have apartFront : second.own.Disjoint (looped.handles ++ first.own) :=
            List.disjoint_append_right.mpr
              ⟨List.disjoint_symm inBack.apart,
                List.disjoint_symm (List.disjoint_of_nodup_append own)⟩
          have apartSwitch : second.own.Disjoint [switch] := fun handle known here =>
            alone (List.mem_append_right _ (List.mem_singleton.mp here ▸ known))
          have crossing := Store.Touches.cross between switch
          have waiting := (inBack.of_sameAt (touchesFront.elsewhere apartFront)).of_sameAt
            (crossing.elsewhere apartSwitch)
          obtain ⟨after, drainsBack, last, touchesBack⟩ :=
            back waiting (left.of_touches crossing beyond)
          rw [inRow_append]
          refine ⟨after, drainsFront.append drainsBack made uncrossed, last, ?_⟩
          have within : ∀ {handles : List Handle}, handles ⊆ switch :: (first.own ++ second.own) →
              looped.handles ++ handles ⊆
                looped.handles ++ (Consumer.combined switch first second).own :=
            fun inside => List.append_subset.mpr ⟨List.subset_append_left _ _,
              List.Subset.trans inside (List.subset_append_right _ _)⟩
          refine ((touchesFront.mono (within ?_)).trans (crossing.mono ?_)).trans
            (touchesBack.mono (within ?_))
          · exact List.subset_cons_of_subset _ (List.subset_append_left _ _)
          · exact List.cons_subset.mpr
              ⟨List.mem_append_right _ List.mem_cons_self, List.nil_subset _⟩
          · exact List.subset_cons_of_subset _ (List.subset_append_right _ _)

end Opened

end Consumer

/-- A supply of parts that start anew opens a consumer that offers what its parts mean, under
handles of its own. -/
theorem Supply.opened_consumer {supply : Supply α}
    (restarts : ∀ sequence, some sequence ∈ supply.parts → sequence.looped = [])
    {looped : Cursor α} {store : Store α} (made : looped.MadeBefore store.fresh)
    (older : ∀ handle ∈ looped.handles, handle < store.fresh) :
    (supply.consumer store).1.Opened looped (supply.consumer store).2 (supply.consumer store).2.fresh
        (supply.parts.map (Option.map (·.meaning store))) ∧
      ∀ handle ∈ (supply.consumer store).1.own,
        store.fresh ≤ handle ∧ handle < (supply.consumer store).2.fresh := by
  induction supply generalizing store with
  | loop view => exact ⟨.looped made, fun _ none => absurd none List.not_mem_nil⟩
  | other sequence =>
      obtain ⟨offers, within⟩ :=
        sequence.offers_cursor (restarts sequence (List.mem_singleton_self _)) store
      have apart := disjoint_of_taken older fun handle inside => (within handle inside).1
      exact ⟨.other offers apart, within⟩
  | guarded view source ih => exact ih restarts made older
  | combined view first second front back =>
      have earlier := first.grown_consumer store
      have later := second.grown_consumer (first.consumer store).2
      obtain ⟨openedFront, withinFront⟩ := front
        (fun sequence part => restarts sequence (List.mem_append_left _ part)) made older
      obtain ⟨openedBack, withinBack⟩ := back
        (fun sequence part => restarts sequence (List.mem_append_right _ part))
        (made.mono earlier.fresh)
        fun handle known => Nat.lt_of_lt_of_le (older handle known) earlier.fresh
      have same : (fun sequence : Sequence α => sequence.meaning (first.consumer store).2) =
          fun sequence => sequence.meaning store :=
        funext fun sequence => sequence.meaning_congr earlier.items
      rw [same] at openedBack
      have combining := Store.Grown.combine .empty .empty (second.consumer (first.consumer store).2).2
      have still := (openedFront.of_sameAt ((later.trans combining).sameAt fun handle known =>
        (withinFront handle known).2)).mono later.fresh
      have ready := openedBack.of_sameAt (combining.sameAt fun handle known =>
        (withinBack handle known).2)
      rw [parts, List.map_append]
      refine ⟨.combined still ready (Nat.lt_succ_self _) ?_ ?_ ?_,
        between_of_taken withinFront withinBack earlier.fresh later.fresh⟩
      · exact disjoint_of_taken older
          (List.forall_mem_singleton.mpr (Nat.le_trans earlier.fresh later.fresh))
      · exact nodup_of_taken openedFront.distinct openedBack.distinct
          (fun handle known => (withinFront handle known).2) withinBack later.fresh
      · exact (Store.hasCrossed_uncross _ _ _).trans (if_pos rfl)

/-! ## Runs -/

/-- The consumers of a looped cursor, and the store. -/
structure Consumers (α : Type) where
  store : Store α
  opened : List (Consumer α) := []

namespace Consumers

/-- A consumer is opened or built from others, or one of them is asked for something. -/
inductive Request (α : Type) where
  | openCursor (supply : Supply α)
  | combine (first second : Nat)
  | readOnly (index : Nat)
  | hasNext (index : Nat)
  | next (index : Nat)

inductive Reply (α : Type) where
  | opened
  | more (value : Bool)
  /-- What was delivered, and whether it comes from the looped cursor. -/
  | delivered (result : Except CursorError α) (fromLooped : Bool)
  | missing

/-- What of a reply comes from the looped cursor. -/
def Reply.taken : Reply α → List α
  | delivered result fromLooped => Consumer.taken fromLooped result
  | _ => []

/-- Answer a request. -/
def respond (looped : Cursor α) (consumers : Consumers α) : Request α → Reply α × Consumers α
  | .openCursor supply =>
      let (consumer, store) := supply.consumer consumers.store
      (.opened, ⟨store, consumers.opened ++ [consumer]⟩)
  | .combine first second =>
      match consumers.opened[first]?, consumers.opened[second]? with
      | some front, some back =>
          let (switch, store) := consumers.store.allocate
          (.opened, ⟨store.uncross switch, consumers.opened ++ [.combined switch front back]⟩)
      | _, _ => (.missing, consumers)
  | .readOnly index =>
      match consumers.opened[index]? with
      | none => (.missing, consumers)
      | some source =>
          let (view, store) := consumers.store.allocate
          (.opened, ⟨store, consumers.opened ++ [.readOnly view source]⟩)
  | .hasNext index =>
      match consumers.opened[index]? with
      | none => (.missing, consumers)
      | some consumer =>
          let (more, store) := (consumer.cursor looped).hasNext consumers.store
          (.more more, { consumers with store })
  | .next index =>
      match consumers.opened[index]? with
      | none => (.missing, consumers)
      | some consumer =>
          let (result, store) := (consumer.cursor looped).next consumers.store
          (.delivered result (consumer.atLooped looped consumers.store), { consumers with store })

/-- What is opened does not use the looped cursor in another way. -/
def Request.Apart (looped : Cursor α) : Request α → Prop
  | openCursor supply => supply.Apart looped
  | _ => True

/-- The looped cursor has some elements left, nothing around it shares its state, and the containers
have the elements that they had at the start. -/
structure Keeps (looped : Cursor α) (start : Store α) (consumers : Consumers α) (items : List α) :
    Prop where
  provides : looped.Provides consumers.store items
  apart : ∀ consumer ∈ consumers.opened, consumer.Apart looped
  items : ∀ source, consumers.store.items source = start.items source

namespace Keeps

variable {looped : Cursor α} {start : Store α} {consumers : Consumers α} {items : List α}

theorem opened (keeps : Keeps looped start consumers items) {consumer : Consumer α} {store : Store α}
    (grown : Store.Grown consumers.store store) (apart : consumer.Apart looped) :
    Keeps looped start ⟨store, consumers.opened ++ [consumer]⟩ items where
  provides := keeps.provides.of_grown grown
  apart other member := by
    obtain there | here := List.mem_append.mp member
    · exact keeps.apart other there
    · exact List.mem_singleton.mp here ▸ apart
  items source := (grown.items source).trans (keeps.items source)

/-- **What a request takes from the looped cursor is the beginning of what that has left.** -/
theorem respond (keeps : Keeps looped start consumers items) {request : Request α}
    (apart : request.Apart looped) :
    ∃ rest, Keeps looped start (consumers.respond looped request).2 rest ∧
      items = (consumers.respond looped request).1.taken ++ rest := by
  have fresh : looped.handles.Disjoint [consumers.store.fresh] :=
    disjoint_of_taken keeps.provides.usable.older (List.forall_mem_singleton.mpr (Nat.le_refl _))
  have present : ∀ {index : Nat} {consumer : Consumer α},
      consumers.opened[index]? = some consumer → consumer.Apart looped := fun found =>
    keeps.apart _ (List.mem_of_getElem? found)
  cases request with
  | openCursor supply =>
      exact ⟨items, keeps.opened (supply.grown_consumer consumers.store)
        (supply.apart_consumer apart keeps.provides.usable.older), rfl⟩
  | combine first second =>
      rw [Consumers.respond]
      split
      next front back inFront inBack =>
        have grown := Store.Grown.combine .empty .empty consumers.store
        exact ⟨items, keeps.opened grown ⟨fresh, present inFront, present inBack⟩, rfl⟩
      next => exact ⟨items, keeps, rfl⟩
  | readOnly index =>
      rw [Consumers.respond]
      split
      next => exact ⟨items, keeps, rfl⟩
      next source found =>
        have inside : source.Apart looped := present found
        exact ⟨items, keeps.opened (.allocate consumers.store) inside, rfl⟩
  | hasNext index =>
      rw [Consumers.respond]
      split
      next => exact ⟨items, keeps, rfl⟩
      next consumer found =>
        have touches := (consumer.cursor looped).touches_hasNext consumers.store
        refine ⟨items, ⟨(present found).hasNext keeps.provides, keeps.apart, ?_⟩, rfl⟩
        exact fun source => (touches.items source).trans (keeps.items source)
  | next index =>
      rw [Consumers.respond]
      split
      next => exact ⟨items, keeps, rfl⟩
      next consumer found =>
        obtain ⟨rest, provides, split⟩ := (present found).next keeps.provides
        have touches := (consumer.cursor looped).touches_next consumers.store
        refine ⟨rest, ⟨provides, keeps.apart, ?_⟩, split⟩
        exact fun source => (touches.items source).trans (keeps.items source)

/-- **What a run takes from the looped cursor is the beginning of what that has left.** -/
theorem run (keeps : Keeps looped start consumers items) {requests : List (Request α)}
    (apart : ∀ request ∈ requests, request.Apart looped) :
    ∃ rest, Keeps looped start (serve (Consumers.respond looped) consumers requests).2 rest ∧
      items = (serve (Consumers.respond looped) consumers requests).1.flatMap Reply.taken ++ rest := by
  induction requests generalizing consumers items with
  | nil => exact ⟨items, keeps, rfl⟩
  | cons request others ih =>
      obtain ⟨here, there⟩ := List.forall_mem_cons.mp apart
      obtain ⟨middle, answered, rfl⟩ := keeps.respond here
      obtain ⟨rest, last, rfl⟩ := ih answered there
      refine ⟨rest, last, ?_⟩
      rw [serve, List.flatMap_cons, List.append_assoc]

end Keeps

end Consumers

/-- **A looped cursor delivers each of its elements once.** Take a cursor with some elements left,
and any requests of consumers of the sequence that is made of it: cursors that this hands out,
protected or not, and combinations and views of them and of cursors of other sequences. In whatever
order the consumers ask and take, what comes from the cursor to all of them together is the
beginning of what it had left, and it still has the rest.

A consumer that is opened then, from the looped cursor at several places among sequences that start
anew, delivers those in order, the rest at the first of these places, and nothing at the others. -/
theorem looped_delivers_once {looped : Cursor α} {store : Store α} (usable : looped.Usable store)
    {items : List α} (left : (looped.toArray store).1 = .ok items)
    {requests : List (Consumers.Request α)} (apart : ∀ request ∈ requests, request.Apart looped) :
    let (replies, consumers) := serve (Consumers.respond looped) ⟨store, []⟩ requests
    ∃ rest, items = replies.flatMap Consumers.Reply.taken ++ rest ∧
      (looped.toArray consumers.store).1 = .ok rest ∧
      ∀ (supply : Supply α) (before : List (Sequence α)) (after : List (Option (Sequence α))),
        supply.parts = before.map some ++ none :: after →
        (∀ sequence, some sequence ∈ supply.parts → sequence.looped = []) →
        let (cursor, opened) := (supply.sequence looped).cursor consumers.store
        (cursor.toArray opened).1 =
          .ok (before.flatMap (·.meaning store) ++ rest ++
            after.reduceOption.flatMap (·.meaning store)) := by
  have start : Consumers.Keeps looped store ⟨store, []⟩ items :=
    ⟨usable.provides left, fun _ none => absurd none List.not_mem_nil, fun _ => rfl⟩
  obtain ⟨rest, keeps, split⟩ := start.run apart
  rcases served : serve (Consumers.respond looped) ⟨store, []⟩ requests with ⟨replies, consumers⟩
  rw [served] at split keeps
  refine ⟨rest, split, keeps.provides.toArray, ?_⟩
  intro supply before after shape restarts
  obtain ⟨⟨made, older, shown⟩, -⟩ := keeps.provides
  obtain ⟨opened, -⟩ := supply.opened_consumer restarts made older
  have provides := keeps.provides.of_grown (supply.grown_consumer consumers.store)
  obtain ⟨last, drains, -⟩ := opened.drains provides
  have reads := Cursor.HasLeft.toArray ⟨last, drains⟩ (opened.shown provides.usable.shown) opened.made
  have same : (fun sequence : Sequence α => sequence.meaning consumers.store) =
      fun sequence => sequence.meaning store :=
    funext fun sequence => sequence.meaning_congr keeps.items
  have meant : (inRow rest (supply.parts.map (Option.map (·.meaning consumers.store)))).1 =
      before.flatMap (·.meaning store) ++ rest ++ after.reduceOption.flatMap (·.meaning store) := by
    have row := inRow_first rest (before.map (·.meaning store))
      (after.map (Option.map (·.meaning store)))
    rw [List.reduceOption_map] at row
    rw [shape, same, List.flatMap_def, List.flatMap_def, ← row, List.map_append, List.map_map,
      List.map_cons, List.map_map]
    rfl
  rw [supply.cursor_sequence, ← meant]
  exact reads

/-- A cursor over a list of three elements. -/
def loopedThree : Cursor Nat × Store Nat :=
  Store.cursorOver { containers := ⟨[{ items := [1, 2, 3] }]⟩, fresh := 1 } 0

/-- The looped cursor, then the list, and then the looped cursor again, protected. -/
def tangled : Supply Nat :=
  .combined 10 (.loop 11) (.combined 12 (.other (.forward 13 0)) (.guarded 14 (.loop 11)))

/-- The looped cursor itself and two combinations take two elements. Whoever reads the combination
then finds the third one, the list, and nothing more. -/
theorem looped_delivers_once_tangled :
    let (looped, store) := loopedThree
    let requests := [.openCursor tangled, .openCursor (.loop 11), .combine 1 0, .next 2, .hasNext 1,
      .next 0]
    let (replies, consumers) := serve (Consumers.respond looped) ⟨store, []⟩ requests
    let (cursor, opened) := (tangled.sequence looped).cursor consumers.store
    looped.Usable store ∧ (looped.toArray store).1 = .ok [1, 2, 3] ∧
      (∀ request ∈ requests, request.Apart looped) ∧
      replies.flatMap Consumers.Reply.taken = [1, 2] ∧
      (looped.toArray consumers.store).1 = .ok [3] ∧
      (cursor.toArray opened).1 = .ok [3, 1, 2, 3] := by
  have usable : loopedThree.1.Usable loopedThree.2 :=
    ((Assembled.start _).cursor (.forward 0 0) fun _ none => absurd none List.not_mem_nil).usable
      List.mem_cons_self
  have restarts : ∀ sequence, some sequence ∈ tangled.parts → sequence.looped = [] := by
    intro sequence part
    simp only [tangled, Supply.parts, List.cons_append, List.nil_append, List.mem_cons,
      Option.some.injEq, reduceCtorEq, List.not_mem_nil, or_false, false_or] at part
    subst part
    rfl
  have apart : ∀ request ∈ [Consumers.Request.openCursor tangled, .openCursor (.loop 11),
      .combine 1 0, .next 2, .hasNext 1, .next 0], request.Apart loopedThree.1 := by
    have first : tangled.Apart loopedThree.1 := by
      intro sequence part cursor member
      rw [restarts sequence part] at member
      cases member
    have second : (Supply.loop 11).Apart loopedThree.1 := by
      intro sequence part
      cases List.mem_singleton.mp part
    simpa [Consumers.Request.Apart] using ⟨first, second⟩
  obtain ⟨rest, split, left, drained⟩ := looped_delivers_once usable rfl apart
  have third : [1, 2] ++ [3] = [1, 2] ++ rest := split
  obtain rfl := List.append_cancel_left third
  exact ⟨usable, rfl, apart, rfl, left, drained tangled [] [some (.forward 13 0), none] rfl restarts⟩

end Collections
