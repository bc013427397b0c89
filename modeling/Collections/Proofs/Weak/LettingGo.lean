import Collections.Proofs.Runs
import Collections.Proofs.Weak.BulkInsertion
import Collections.Proofs.Weak.Walking

/-!
# Walks through a weak set while owners let go of its elements

An element lives as long as it has an owner or a walk pins it. Owners may let go of elements at any
moment, also between two slots that a search comes to, and nobody comes to own an element but those to
whom the walk delivers it (`Ownership`). What is dead stays so, whatever the walk is asked
(`SetWalk.Stroll.alive_of_step`).

The slots of a set that is walked through are those that the walk has behind it and those that are left
(`SetWalk.Underway`). Behind it, every element has been delivered or is dead. Of those that are left, the
first that is alive is pinned, and those in front of it are dead (`SetWalk.Upcoming`). A delivery takes the
walk past the pinned element (`SetWalk.Underway.next`). A removal takes away the slot in front of the gap,
and a new search comes to the same pinned element, as what was dead has stayed so
(`SetWalk.Underway.remove`). So all requests keep to that (`SetWalk.Underway.step`).
-/

set_option autoImplicit false

namespace Collections.Weak

variable {κ : Type}

/-! ## Owners -/

/-- What holds of an element at a moment has held of it all the time before. A moment is told by the
number of the request under way, the opening of the walk being number 0, and by the number of the slot
that it has come to, counted as the slots were in the beginning. -/
def Fading (holds : Nat → Nat → κ → Bool) : Prop :=
  ∀ {turn slot later further : Nat} (element : κ), turn < later ∨ turn = later ∧ slot ≤ further →
    holds later further element = true → holds turn slot element = true

/-- When owners let go of elements that are walked through. -/
structure Ownership (κ : Type) where
  /-- Whether an element has an owner who did not get it from the walk. -/
  owned : Nat → Nat → κ → Bool
  /-- Whether those to whom the walk has delivered an element keep it. -/
  kept : Nat → Nat → κ → Bool
  owned_fades : Fading owned
  kept_fades : Fading kept

/-- Whether the moment of an element has not come yet. -/
def before (latest : κ → Nat × Nat) (turn slot : Nat) (element : κ) : Bool :=
  turn < (latest element).1 || turn = (latest element).1 && slot < (latest element).2

theorem fading_before (latest : κ → Nat × Nat) : Fading (before latest) := by
  intro turn slot later further element order
  simp only [before, Bool.or_eq_true, Bool.and_eq_true, decide_eq_true_eq]
  omega

/-- Every element has owners until a moment of its own, and is kept until another one by those who get
it. -/
def Ownership.lasting (owned kept : κ → Nat × Nat) : Ownership κ where
  owned := before owned
  kept := before kept
  owned_fades := fading_before owned
  kept_fades := fading_before kept

namespace SetWalk

/-! ## Requests -/

/-- What a walk is asked. -/
inductive Request where
  | hasNext
  | next
  | remove
  deriving DecidableEq, Repr

/-- The request that asks for no removal. -/
def Request.spared : Request → Request
  | remove => hasNext
  | request => request

/-- What a walk answers. -/
inductive Response (κ : Type) where
  | flag (value : Bool)
  | delivered (result : Except CursorError κ)
  | removed (result : Except CursorError Unit)

namespace Response

/-- The element that was delivered. -/
def element? : Response κ → Option κ
  | delivered (.ok element) => some element
  | _ => none

/-- Whether it is the answer to a removal. -/
def isRemoval : Response κ → Bool
  | removed _ => true
  | _ => false

/-- Whether there is an element to be removed after a response, if it is known whether there was
one before. -/
def leavesPlace (there : Bool) : Response κ → Bool
  | delivered (.ok _) => true
  | removed (.ok ()) => false
  | _ => there

end Response

/-- A walk under way, the number of the request to come, and what has been delivered. -/
structure Stroll (κ : Type) where
  walk : SetWalk κ
  turn : Nat
  delivered : List κ

namespace Stroll

variable [DecidableEq κ]

/-- Whether an element has an owner besides the walk when the request to come has come to a slot. -/
def owned (owners : Ownership κ) (stroll : Stroll κ) (slot : Nat) (element : κ) : Bool :=
  owners.owned stroll.turn slot element ||
    element ∈ stroll.delivered && owners.kept stroll.turn slot element

/-- Whether an element is alive when the request comes. -/
def alive (owners : Ownership κ) (stroll : Stroll κ) (element : κ) : Bool :=
  stroll.owned owners 0 element || stroll.walk.pins element

/-- Answer a request. The slots that have been removed were in front of all that it comes to. -/
def answer (owners : Ownership κ) (stroll : Stroll κ) : Request → Response κ × SetWalk κ
  | .hasNext => (.flag stroll.walk.hasNext, stroll.walk)
  | .next =>
      (stroll.walk.nextDuring fun place =>
        stroll.owned owners (place + stroll.walk.removed)).map .delivered id
  | .remove =>
      (stroll.walk.removeDuring fun place =>
        stroll.owned owners (place + (stroll.walk.removed + 1))).map .removed id

def step (owners : Ownership κ) (stroll : Stroll κ) (request : Request) : Response κ × Stroll κ :=
  let (response, walk) := stroll.answer owners request
  (response, ⟨walk, stroll.turn + 1, stroll.delivered ++ response.element?.toList⟩)

/-- Time goes by. -/
def waited (stroll : Stroll κ) : Stroll κ := { stroll with turn := stroll.turn + 1 }

end Stroll

end SetWalk

namespace Ownership

open SetWalk (Request Response Stroll)

variable [DecidableEq κ]

/-- A walk through a set that has just been opened. -/
def opened (owners : Ownership κ) (set : WeakSet κ) : Stroll κ :=
  ⟨SetWalk.startDuring set (owners.owned 0), 1, []⟩

/-- Open a walk through a set and ask requests. -/
def run (owners : Ownership κ) (set : WeakSet κ) (requests : List Request) :
    List (Response κ) × Stroll κ :=
  serve (Stroll.step owners) (owners.opened set) requests

/-- The walk when the requests have been answered. -/
def reached (owners : Ownership κ) (set : WeakSet κ) (requests : List Request) : Stroll κ :=
  (owners.run set requests).2

/-- The elements that are delivered. -/
def deliveries (owners : Ownership κ) (set : WeakSet κ) (requests : List Request) : List κ :=
  (owners.run set requests).1.filterMap Response.element?

/-- Whether an element has been delivered last, and not been removed since. -/
def leavesPlace (owners : Ownership κ) (set : WeakSet κ) (requests : List Request) : Bool :=
  (owners.run set requests).1.foldl Response.leavesPlace false

end Ownership

/-! ## What a walk has come to -/

namespace SetWalk

theorem alive_of_seekDuring {alive : Nat → κ → Bool} {start position : Nat}
    {rest : List (SetSlot κ)} {element : κ}
    (found : seekDuring alive start rest = some (position, element)) :
    alive position element = true := by
  rcases seekDuring_cases alive start rest with ⟨nothing, -⟩ | ⟨stale, slot, behind, -, hit, live, -⟩
  · cases nothing.symm.trans found
  · obtain ⟨rfl, rfl⟩ := Prod.mk.inj (Option.some.inj (hit.symm.trans found))
    exact live

/-- What is found is the first slot behind those that are stale all along, if it is live all along. -/
theorem seekDuring_of_stale {alive : Nat → κ → Bool} {stale behind : List (SetSlot κ)}
    {slot : SetSlot κ} (allStale : ∀ other ∈ stale, ∀ place, alive place other.element = false)
    (live : ∀ place, alive place slot.element = true) (start : Nat) :
    seekDuring alive start (stale ++ slot :: behind) = some (start + stale.length, slot.element) := by
  induction stale generalizing start with
  | nil => exact if_pos (live start)
  | cons other stale hypothesis =>
      obtain ⟨dead, later⟩ := List.forall_mem_cons.mp allStale
      rw [List.cons_append, seekDuring, WeakSet.live, dead start, if_neg Bool.false_ne_true,
        hypothesis later, List.length_cons, Nat.add_right_comm, Nat.add_assoc]

theorem seekDuring_eq_none {alive : Nat → κ → Bool} {rest : List (SetSlot κ)}
    (allStale : ∀ other ∈ rest, ∀ place, alive place other.element = false) (start : Nat) :
    seekDuring alive start rest = none := by
  induction rest generalizing start with
  | nil => rfl
  | cons other rest hypothesis =>
      obtain ⟨dead, later⟩ := List.forall_mem_cons.mp allStale
      rw [seekDuring, WeakSet.live, dead start, if_neg Bool.false_ne_true, hypothesis later]

/-- A walk has come to a slot behind some that are dead, or all that are left are dead. -/
def Upcoming (alive : κ → Bool) (start : Nat) (left : List (SetSlot κ)) : Option (Nat × κ) → Prop
  | none => ∀ slot ∈ left, alive slot.element = false
  | some (position, element) => ∃ stale slot behind, left = stale ++ slot :: behind ∧
      position = start + stale.length ∧ slot.element = element ∧
      ∀ other ∈ stale, alive other.element = false

namespace Upcoming

variable {alive later : κ → Bool} {start : Nat} {left : List (SetSlot κ)}
  {ahead : Option (Nat × κ)}

/-- What is dead stays so. -/
theorem mono (upcoming : Upcoming alive start left ahead)
    (fades : ∀ element, later element = true → alive element = true) :
    Upcoming later start left ahead := by
  have dead : ∀ element, alive element = false → later element = false := fun element dead =>
    Bool.eq_false_iff.mpr fun lives => Bool.eq_false_iff.mp dead (fades element lives)
  rcases ahead with _ | ⟨position, element⟩
  · exact fun slot member => dead _ (upcoming slot member)
  · obtain ⟨stale, slot, behind, whole, place, found, allStale⟩ := upcoming
    exact ⟨stale, slot, behind, whole, place, found, fun other member => dead _ (allStale other member)⟩

/-- A search comes to the first slot that is alive when it is over. Whatever else is alive then was
alive all along. -/
theorem of_seekDuring {seen : Nat → κ → Bool}
    (fades : ∀ {place further : Nat} (element : κ), place ≤ further →
      seen further element = true → seen place element = true)
    (only : ∀ element, alive element = true → (∀ place, seen place element = true) ∨
      ∃ position, seekDuring seen start left = some (position, element)) :
    Upcoming alive start left (seekDuring seen start left) := by
  rcases seekDuring_cases seen start left with ⟨nothing, allStale⟩ |
    ⟨stale, slot, behind, rfl, found, live, allStale⟩
  · rw [nothing] at only ⊢
    intro slot member
    obtain ⟨place, dead⟩ := allStale slot member
    refine Bool.eq_false_iff.mpr fun lives => ?_
    rcases only _ lives with always | ⟨_, found⟩
    · exact Bool.eq_false_iff.mp dead (always place)
    · cases found
  · rw [found] at only ⊢
    refine ⟨stale, slot, behind, rfl, rfl, rfl, fun other member => ?_⟩
    obtain ⟨place, before, dead⟩ := allStale other member
    refine Bool.eq_false_iff.mpr fun lives => Bool.eq_false_iff.mp dead ?_
    rcases only _ lives with always | ⟨_, same⟩
    · exact always place
    · obtain ⟨-, same⟩ := Prod.mk.inj (Option.some.inj same)
      exact fades _ before (same ▸ live)

/-- When the slot in front has been removed, a search comes to the same slot again, if it takes what
is dead for dead and the one in question for live. -/
theorem seekDuring_eq (upcoming : Upcoming alive (start + 1) left ahead) {seen : Nat → κ → Bool}
    (dead : ∀ element, alive element = false → ∀ place, seen place element = false)
    (held : ∀ position element, ahead = some (position, element) → ∀ place,
      seen place element = true) :
    seekDuring seen start left = ahead.map (fun found => (found.1 - 1, found.2)) ∧
      Upcoming alive start left (seekDuring seen start left) := by
  rcases ahead with _ | ⟨position, element⟩
  · have nothing := seekDuring_eq_none (fun slot member => dead _ (upcoming slot member)) start
    rw [nothing]
    exact ⟨rfl, upcoming⟩
  · obtain ⟨stale, slot, behind, rfl, rfl, rfl, allStale⟩ := upcoming
    have found : seekDuring seen start (stale ++ slot :: behind) =
        some (start + stale.length, slot.element) :=
      seekDuring_of_stale (fun other member => dead _ (allStale other member)) (held _ _ rfl) start
    rw [found]
    refine ⟨?_, stale, slot, behind, rfl, rfl, rfl, allStale⟩
    rw [Option.map_some, Nat.add_right_comm, Nat.add_sub_cancel]

end Upcoming

/-! ## What a request does -/

variable [DecidableEq κ] {owners : Ownership κ}

theorem pins_iff {walk : SetWalk κ} {element : κ} :
    walk.pins element = true ↔
      (∃ position, walk.ahead = some (position, element)) ∨ walk.last = some element := by
  simp [pins, Option.any_eq_true]

namespace Stroll

variable {stroll : Stroll κ} {position : Nat} {element : κ}

theorem alive_iff : stroll.alive owners element = true ↔
    stroll.owned owners 0 element = true ∨ stroll.walk.pins element = true := by
  rw [alive, Bool.or_eq_true]

theorem step_hasNext (stroll : Stroll κ) :
    stroll.step owners .hasNext = (.flag stroll.walk.hasNext, stroll.waited) :=
  congrArg (_, Stroll.mk _ _ ·) (List.append_nil _)

theorem step_next_of_none (ahead : stroll.walk.ahead = none) :
    stroll.step owners .next = (.delivered (.error .pastEnd), stroll.waited) := by
  simp only [step, answer, nextDuring, ahead]
  exact congrArg (_, Stroll.mk _ _ ·) (List.append_nil _)

theorem step_next (ahead : stroll.walk.ahead = some (position, element)) :
    stroll.step owners .next = (.delivered (.ok element),
      { walk := { stroll.walk with
          ahead := seekDuring (fun place other =>
              stroll.owned owners (place + stroll.walk.removed) other || other = element)
            (position + 1) (stroll.walk.set.table.slots.drop (position + 1))
          last := some element, place := some position }
        turn := stroll.turn + 1, delivered := stroll.delivered ++ [element] }) := by
  simp only [step, answer, nextDuring, ahead]
  rfl

theorem step_remove_of_none (place : stroll.walk.place = none) :
    stroll.step owners .remove = (.removed (.error .noCurrent), stroll.waited) := by
  simp only [step, answer, removeDuring, place]
  exact congrArg (_, Stroll.mk _ _ ·) (List.append_nil _)

theorem step_remove (place : stroll.walk.place = some position) :
    stroll.step owners .remove = (.removed (.ok ()),
      { walk := { stroll.walk with
          set := { stroll.walk.set with table := stroll.walk.set.table.eraseAt position }
          ahead := seekDuring (fun place element =>
              stroll.owned owners (place + (stroll.walk.removed + 1)) element ||
                stroll.walk.pins element)
            position ((stroll.walk.set.table.slots.eraseIdx position).drop position)
          place := none, removed := stroll.walk.removed + 1 }
        turn := stroll.turn + 1, delivered := stroll.delivered }) := by
  simp only [step, answer, removeDuring, place]
  exact congrArg (_, Stroll.mk _ _ ·) (List.append_nil _)

/-! ### What stays dead -/

theorem owned_of_le {slot further : Nat} (order : slot ≤ further)
    (owned : stroll.owned owners further element = true) :
    stroll.owned owners slot element = true := by
  rw [Stroll.owned, Bool.or_eq_true, Bool.and_eq_true] at owned ⊢
  exact owned.imp (owners.owned_fades element (.inr ⟨rfl, order⟩))
    (And.imp_right (owners.kept_fades element (.inr ⟨rfl, order⟩)))

/-- Who owns an element after a request owned it all the time before, or has got it by the request. -/
theorem owned_of_step {request : Request} {later : Nat}
    (owned : (stroll.step owners request).2.owned owners later element = true) :
    (∀ slot, stroll.owned owners slot element = true) ∨
      (stroll.step owners request).1.element? = some element := by
  have turn : (stroll.step owners request).2.turn = stroll.turn + 1 := rfl
  have delivered : (stroll.step owners request).2.delivered =
      stroll.delivered ++ (stroll.step owners request).1.element?.toList := rfl
  rw [Stroll.owned, turn, delivered, Bool.or_eq_true, Bool.and_eq_true, decide_eq_true_eq,
    List.mem_append] at owned
  have sooner {slot : Nat} : stroll.turn < stroll.turn + 1 ∨
      stroll.turn = stroll.turn + 1 ∧ slot ≤ later := .inl (Nat.lt_succ_self _)
  rcases owned with owned | ⟨earlier | now, kept⟩
  · refine .inl fun slot => ?_
    rw [Stroll.owned, owners.owned_fades element sooner owned, Bool.true_or]
  · refine .inl fun slot => ?_
    rw [Stroll.owned, decide_eq_true earlier, owners.kept_fades element sooner kept, Bool.true_and,
      Bool.or_true]
  · exact .inr (Option.mem_toList.mp now)

/-- What is delivered has been pinned ahead. -/
theorem ahead_of_element? {request : Request}
    (told : (stroll.step owners request).1.element? = some element) :
    ∃ position, stroll.walk.ahead = some (position, element) := by
  cases request with
  | hasNext => cases told
  | next =>
      rcases ahead : stroll.walk.ahead with _ | ⟨position, held⟩
      · rw [step_next_of_none ahead] at told
        cases told
      · rw [step_next ahead] at told
        obtain rfl := Option.some.inj told
        exact ⟨position, rfl⟩
  | remove =>
      rcases place : stroll.walk.place with _ | position
      · rw [step_remove_of_none place] at told
        cases told
      · rw [step_remove place] at told
        cases told

/-- **No request brings back to life what is dead.** -/
theorem alive_of_step (request : Request)
    (alive : (stroll.step owners request).2.alive owners element = true) :
    stroll.alive owners element = true := by
  have stays {walk : SetWalk κ} (same : stroll.walk = walk) (pinned : walk.pins element = true) :
      stroll.alive owners element = true := alive_iff.mpr (.inr (same ▸ pinned))
  have owns {slot : Nat} (owned : stroll.owned owners slot element = true) :
      stroll.alive owners element = true := alive_iff.mpr (.inl (owned_of_le (Nat.zero_le _) owned))
  rcases alive_iff.mp alive with owned | pinned
  · rcases owned_of_step owned with owned | told
    · exact owns (owned 0)
    · exact stays rfl (pins_iff.mpr (.inl (ahead_of_element? told)))
  cases request with
  | hasNext => exact stays rfl pinned
  | next =>
      rcases ahead : stroll.walk.ahead with _ | ⟨position, held⟩
      · rw [step_next_of_none ahead] at pinned
        exact stays rfl pinned
      · have pins : stroll.walk.pins held = true := pins_iff.mpr (.inl ⟨position, ahead⟩)
        rw [step_next ahead, pins_iff] at pinned
        rcases pinned with ⟨place, found⟩ | last
        · have found := alive_of_seekDuring found
          rw [Bool.or_eq_true, decide_eq_true_eq] at found
          rcases found with owned | rfl
          · exact owns owned
          · exact stays rfl pins
        · obtain rfl := Option.some.inj last
          exact stays rfl pins
  | remove =>
      rcases place : stroll.walk.place with _ | position
      · rw [step_remove_of_none place] at pinned
        exact stays rfl pinned
      · rw [step_remove place, pins_iff] at pinned
        rcases pinned with ⟨place, found⟩ | last
        · have found := alive_of_seekDuring found
          rw [Bool.or_eq_true] at found
          rcases found with owned | pins
          · exact owns owned
          · exact stays rfl pins
        · exact stays rfl (pins_iff.mpr (.inr last))

theorem alive_of_waited (alive : stroll.waited.alive owners element = true) :
    stroll.alive owners element = true := by
  refine alive_of_step .hasNext ?_
  rw [step_hasNext]
  exact alive

/-- After a delivery the walk has come to the first slot behind it that is alive then. -/
theorem upcoming_next {passed rest : List (SetSlot κ)}
    (ahead : stroll.walk.ahead = some (position, element))
    (slots : stroll.walk.set.table.slots = passed ++ rest) (further : passed.length = position + 1) :
    Upcoming ((stroll.step owners .next).2.alive owners) passed.length rest
      (stroll.step owners .next).2.walk.ahead := by
  have stepped : stroll.step owners .next = _ := step_next ahead
  rw [slots, ← further, List.drop_left] at stepped
  have found : (stroll.step owners .next).2.walk.ahead = _ := congrArg (·.2.walk.ahead) stepped
  have last : (stroll.step owners .next).2.walk.last = _ := congrArg (·.2.walk.last) stepped
  rw [found]
  refine .of_seekDuring (fun {place further} other order lives => ?_) (fun other alive => ?_)
  · rw [Bool.or_eq_true] at lives ⊢
    exact lives.imp_left (owned_of_le (Nat.add_le_add_right order _))
  -- Whatever has an owner in the end had one all along, and the delivered element was pinned.
  · rcases alive_iff.mp alive with owned | pins
    · refine .inl fun place => ?_
      rcases owned_of_step owned with always | told
      · rw [always, Bool.true_or]
      · obtain ⟨_, same⟩ := ahead_of_element? told
        obtain ⟨-, rfl⟩ := Prod.mk.inj (Option.some.inj (ahead.symm.trans same))
        rw [decide_eq_true rfl, Bool.or_true]
    · rcases pins_iff.mp pins with ⟨position, isAhead⟩ | isLast
      · exact .inr ⟨position, found.symm.trans isAhead⟩
      · obtain rfl := Option.some.inj (last.symm.trans isLast)
        exact .inl fun place => by rw [decide_eq_true rfl, Bool.or_true]

/-- After a removal the walk has come to the same slot as before. Its element was pinned, and what was
dead has stayed so. -/
theorem upcoming_remove {front left : List (SetSlot κ)} {slot : SetSlot κ}
    (place : stroll.walk.place = some front.length)
    (slots : stroll.walk.set.table.slots = front ++ slot :: left)
    (upcoming : Upcoming (stroll.alive owners) (front.length + 1) left stroll.walk.ahead) :
    (stroll.step owners .remove).2.walk.set.table.slots = front ++ left ∧
      (stroll.step owners .remove).2.walk.ahead =
        stroll.walk.ahead.map (fun found => (found.1 - 1, found.2)) ∧
      Upcoming ((stroll.step owners .remove).2.alive owners) front.length left
        (stroll.step owners .remove).2.walk.ahead := by
  have erased : stroll.walk.set.table.slots.eraseIdx front.length = front ++ left := by
    rw [slots, List.eraseIdx_append_of_length_le (Nat.le_refl _), Nat.sub_self, List.eraseIdx_cons_zero]
  have stepped : stroll.step owners .remove = _ := step_remove place
  rw [erased, List.drop_left] at stepped
  have found : (stroll.step owners .remove).2.walk.ahead = _ := congrArg (·.2.walk.ahead) stepped
  have dead : ∀ element, stroll.alive owners element = false → ∀ place,
      (stroll.owned owners (place + (stroll.walk.removed + 1)) element ||
        stroll.walk.pins element) = false := by
    intro element dead place
    rw [alive, Bool.or_eq_false_iff] at dead
    refine Bool.or_eq_false_iff.mpr ⟨Bool.eq_false_iff.mpr fun owned => ?_, dead.2⟩
    exact Bool.eq_false_iff.mp dead.1 (owned_of_le (Nat.zero_le _) owned)
  have held : ∀ position element, stroll.walk.ahead = some (position, element) → ∀ place,
      (stroll.owned owners (place + (stroll.walk.removed + 1)) element ||
        stroll.walk.pins element) = true := by
    intro position element ahead place
    rw [pins_iff.mpr (.inl ⟨position, ahead⟩), Bool.or_true]
  obtain ⟨moved, come⟩ := upcoming.seekDuring_eq dead held
  refine ⟨?_, found.trans moved, ?_⟩
  · rw [stepped]
    exact erased
  · rw [found]
    exact come.mono fun element => alive_of_step .remove

end Stroll

/-! ## Walks under way -/

/-- A walk that was opened over a set has some slots of the set behind it, of which some have been passed
and stay, and the others are left. -/
structure Underway (owners : Ownership κ) (set : WeakSet κ) (stroll : Stroll κ)
    (behind passed left : List (SetSlot κ)) : Prop where
  begun : set.table.slots = behind ++ left
  keying : stroll.walk.set.keying = set.keying
  slots : stroll.walk.set.table.slots = passed ++ left
  kept : passed.Sublist behind
  counted : behind.length = passed.length + stroll.walk.removed
  upcoming : Upcoming (stroll.alive owners) passed.length left stroll.walk.ahead
  /-- What may be removed is the last slot that has been passed, with the element delivered last. -/
  place : ∀ position, stroll.walk.place = some position → ∃ front slot,
    passed = front ++ [slot] ∧ position = front.length ∧ stroll.walk.last = some slot.element
  last : stroll.walk.last = stroll.delivered.getLast?
  since : ∀ element, stroll.alive owners element = true → owners.owned 0 0 element = true
  inOrder : stroll.delivered.Sublist
    ((behind.filter (WeakSet.live (owners.owned 0 0))).map SetSlot.element)
  /-- What is behind has been delivered or is dead. -/
  complete : ∀ slot ∈ behind, stroll.alive owners slot.element = true →
    slot.element ∈ stroll.delivered

namespace Underway

variable {set : WeakSet κ} {stroll : Stroll κ} {behind passed left : List (SetSlot κ)} {position : Nat}
  {element : κ}

theorem opened (owners : Ownership κ) (set : WeakSet κ) :
    Underway owners set (owners.opened set) [] [] set.table.slots := by
  have fades : ∀ {place further : Nat} (element : κ), place ≤ further →
      owners.owned 0 further element = true → owners.owned 0 place element = true :=
    fun element order => owners.owned_fades element (.inr ⟨rfl, order⟩)
  -- Nothing has been delivered, so what is pinned is what the search has found.
  have lives : ∀ element, (owners.opened set).alive owners element = true →
        (∀ place, owners.owned 0 place element = true) ∨
          ∃ position, seekDuring (owners.owned 0) 0 set.table.slots = some (position, element) := by
    intro element alive
    rcases Stroll.alive_iff.mp alive with owned | pinned
    · have owned : owners.owned 1 0 element = true := by
        simpa [Stroll.owned, Ownership.opened] using owned
      exact .inl fun place => owners.owned_fades element (.inl Nat.one_pos) owned
    · rcases pins_iff.mp pinned with found | last
      · exact .inr found
      · cases last
  refine ⟨rfl, rfl, rfl, .refl _, rfl, .of_seekDuring fades lives, nofun, rfl, ?_, .slnil, nofun⟩
  intro element alive
  rcases lives element alive with owned | ⟨position, found⟩
  · exact owned 0
  · exact fades element (Nat.zero_le _) (alive_of_seekDuring found)

/-- Nothing changes but that time goes by. -/
theorem waits (underway : Underway owners set stroll behind passed left) :
    Underway owners set stroll.waited behind passed left := by
  have fades : ∀ element, stroll.waited.alive owners element = true →
      stroll.alive owners element = true :=
    fun element alive => Stroll.alive_of_waited alive
  exact { underway with
    upcoming := underway.upcoming.mono fades
    since := fun element alive => underway.since element (fades element alive)
    complete := fun slot member alive => underway.complete slot member (fades _ alive) }

/-- **A walk delivers the element that it has pinned, and goes past its slot.** -/
theorem next (underway : Underway owners set stroll behind passed left)
    (ahead : stroll.walk.ahead = some (position, element)) :
    ∃ stale slot rest, left = stale ++ slot :: rest ∧ position = (passed ++ stale).length ∧
      slot.element = element ∧
      Underway owners set (stroll.step owners .next).2
        (behind ++ (stale ++ [slot])) (passed ++ (stale ++ [slot])) rest := by
  have upcoming := underway.upcoming
  rw [ahead] at upcoming
  obtain ⟨stale, slot, rest, rfl, rfl, rfl, allStale⟩ := upcoming
  have slots : stroll.walk.set.table.slots = (passed ++ (stale ++ [slot])) ++ rest := by
    rw [underway.slots]
    simp
  have further : (passed ++ (stale ++ [slot])).length = passed.length + stale.length + 1 := by
    simp [Nat.add_assoc]
  have stepped : stroll.step owners .next = _ := Stroll.step_next ahead
  rw [slots, ← further, List.drop_left] at stepped
  have fades : ∀ element, (stroll.step owners .next).2.alive owners element = true →
      stroll.alive owners element = true := fun element => Stroll.alive_of_step .next
  have delivered : (stroll.step owners .next).2.delivered = stroll.delivered ++ [slot.element] :=
    congrArg (·.2.delivered) stepped
  have pinned : stroll.alive owners slot.element = true :=
    Stroll.alive_iff.mpr (.inr (pins_iff.mpr (.inl ⟨_, ahead⟩)))
  refine ⟨stale, slot, rest, rfl, List.length_append.symm, rfl, ?_⟩
  refine
    { begun := ?_, keying := ?_, slots := ?_, kept := underway.kept.append (.refl _), counted := ?_
      upcoming := ?_, place := ?_, last := ?_
      since := fun element alive => underway.since element (fades element alive)
      inOrder := ?_, complete := ?_ }
  · rw [underway.begun]
    simp
  · rw [stepped]
    exact underway.keying
  · rw [stepped]
    exact slots
  · have counted := underway.counted
    rw [stepped]
    simp only [List.length_append, counted]
    omega
  · exact Stroll.upcoming_next ahead slots further
  · rw [stepped]
    rintro _ ⟨⟩
    exact ⟨passed ++ stale, slot, (List.append_assoc _ _ _).symm, List.length_append.symm, rfl⟩
  · rw [stepped, List.getLast?_concat]
  · rw [delivered, List.filter_append, List.map_append]
    refine underway.inOrder.append (List.singleton_sublist.mpr ?_)
    exact List.mem_map_of_mem (List.mem_filter.mpr ⟨by simp, underway.since _ pinned⟩)
  · intro other member alive
    rw [delivered]
    rcases List.mem_append.mp member with earlier | member
    · exact List.mem_append_left _ (underway.complete other earlier (fades _ alive))
    · rcases List.mem_append.mp member with inStale | same
      · cases (allStale other inStale).symm.trans (fades _ alive)
      · obtain rfl := List.mem_singleton.mp same
        exact List.mem_append_right _ (List.mem_singleton_self _)

/-- **The element delivered last is removed from its slot**, and the walk has the same element pinned
ahead as before. -/
theorem remove (underway : Underway owners set stroll behind passed left)
    (place : stroll.walk.place = some position) :
    ∃ front slot, passed = front ++ [slot] ∧ stroll.walk.last = some slot.element ∧
      (stroll.step owners .remove).2.walk.ahead =
        stroll.walk.ahead.map (fun found => (found.1 - 1, found.2)) ∧
      Underway owners set (stroll.step owners .remove).2 behind front left := by
  obtain ⟨front, slot, rfl, rfl, last⟩ := underway.place _ place
  have slots : stroll.walk.set.table.slots = front ++ slot :: left := by
    rw [underway.slots]
    simp
  have length : (front ++ [slot]).length = front.length + 1 := List.length_append
  have upcoming := underway.upcoming
  rw [length] at upcoming
  obtain ⟨erased, moved, upcoming⟩ := Stroll.upcoming_remove place slots upcoming
  have stepped : stroll.step owners .remove = _ := Stroll.step_remove place
  have fades : ∀ element, (stroll.step owners .remove).2.alive owners element = true →
      stroll.alive owners element = true := fun element => Stroll.alive_of_step .remove
  refine ⟨front, slot, rfl, last, moved, ?_⟩
  exact
    { begun := underway.begun
      keying := by
        rw [stepped]
        exact underway.keying
      slots := erased
      kept := (List.sublist_append_left front [slot]).trans underway.kept
      counted := by
        rw [stepped, underway.counted, length]
        exact Nat.add_right_comm _ _ _
      upcoming
      place := fun position isThere => by
        rw [stepped] at isThere
        cases isThere
      last := by
        rw [stepped]
        exact underway.last
      since := fun element alive => underway.since element (fades element alive)
      inOrder := by
        rw [stepped]
        exact underway.inOrder
      complete := fun slot member alive => by
        have known := underway.complete slot member (fades _ alive)
        rwa [stepped] }

/-- **Every request keeps a walk under way.** -/
theorem step (underway : Underway owners set stroll behind passed left) (request : Request) :
    ∃ behind passed left, Underway owners set (stroll.step owners request).2 behind passed left := by
  have unchanged {response : Response κ} (told : stroll.step owners request = (response, stroll.waited)) :
      Underway owners set (stroll.step owners request).2 behind passed left := by
    rw [told]
    exact underway.waits
  cases request with
  | hasNext => exact ⟨_, _, _, unchanged stroll.step_hasNext⟩
  | next =>
      rcases ahead : stroll.walk.ahead with _ | ⟨position, element⟩
      · exact ⟨_, _, _, unchanged (Stroll.step_next_of_none ahead)⟩
      · obtain ⟨stale, slot, rest, -, -, -, further⟩ := underway.next ahead
        exact ⟨_, _, _, further⟩
  | remove =>
      rcases place : stroll.walk.place with _ | position
      · exact ⟨_, _, _, unchanged (Stroll.step_remove_of_none place)⟩
      · obtain ⟨front, slot, -, -, -, further⟩ := underway.remove place
        exact ⟨_, _, _, further⟩

end Underway

end SetWalk

end Collections.Weak
