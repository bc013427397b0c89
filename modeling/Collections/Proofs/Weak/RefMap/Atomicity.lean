import Collections.Proofs.Weak.RefMap.Interruption

/-!
# Calls that are as good as undivided

Objects may be reclaimed between the search of a call and the use of what was found. If the value of
what was found is still there when it is used, the call does what it would have done at the instant at
which the mapping was live. If nothing was found, or the value is gone, it does what it would have done
at the end, when the key has no live mapping (`RefMap.Orderly.atomic`).

There is one exception. Who puts a key over a mapping that has just lost its value is answered as if
there had been none, yet the key object of that mapping stays (`RefMap.Overtaken`). No undivided call
does that (`RefMap.Orderly.not_atomic`). To put a key unless it has a value is not so: it throws such a
mapping out and inserts a new one.
-/

set_option autoImplicit false

namespace Collections.Weak

variable {κ ν : Type}

/-- The objects that a call is given to refer to are held while it lasts. -/
def Call.Held (alive : Liveness κ ν) : Call κ ν → Prop
  | .put (some key) (some value) | .putIfAbsent (some key) (some value) =>
      alive.key key = true ∧ alive.value value = true
  | .replace _ (some value) | .replaceIf _ _ (some value) => alive.value value = true
  | _ => True

theorem Mapping.live_of_alive {alive : Liveness κ ν} {mapping : Mapping κ ν}
    (key : alive.key mapping.key.target = true) (value : alive.value mapping.value.target = true) :
    mapping.live alive = true := by
  simp [live, Slot.expired, key, value]

theorem Slot.eq_of_get? {α : Type} {slot : Slot α} {alive : α → Bool} {object : α}
    (left : slot.get? alive = some object) : object = slot.target := by
  rw [get?] at left
  split at left
  · cases left
  · exact (Option.some.inj left).symm

namespace RefMap

variable {map : RefMap κ ν} {later : Liveness κ ν} {course : Course κ ν} {call : Call κ ν} {key : κ}
  {mapping : Mapping κ ν} {rest : List (Mapping κ ν)}

/-- A call that has been interrupted answers and leaves what the same call does at once, at some
instant before it is over, however the objects fade that it leaves. -/
def Atomic (map : RefMap κ ν) (course : Course κ ν) (call : Call κ ν) : Prop :=
  ∃ instant ≤ course.use,
    let whole := map.respond (fun _ => course.alive instant) call
    (map.answer course.moments call).1 = whole.1 ∧
      ∀ later : Liveness κ ν, later.Within course.last →
        ((map.answer course.moments call).2.entries later).Perm (whole.2.entries later)

/-- A call puts a key over a mapping with another key object, which has lost its value since it was
found. -/
def Overtaken (map : RefMap κ ν) (course : Course κ ν) : Call κ ν → Prop
  | .put (some key) (some _) =>
      ∃ mapping, map.caught course key = some (mapping, none) ∧ mapping.key.target ≠ key
  | _ => False

theorem Overtaken.exists_put (overtaken : map.Overtaken course call) :
    ∃ key value mapping, call = .put (some key) (some value) ∧
      map.caught course key = some (mapping, none) ∧ mapping.key.target ≠ key := by
  unfold Overtaken at overtaken
  split at overtaken
  next key value =>
    obtain ⟨mapping, caught, other⟩ := overtaken
    exact ⟨key, value, mapping, rfl, caught, other⟩
  next => exact overtaken.elim

theorem respond_eq (map : RefMap κ ν) (alive : Liveness κ ν) (call : Call κ ν) :
    map.respond (fun _ => alive) call = map.answer (Course.still alive).moments call := by
  rw [Course.moments_still]
  exact (map.answer_following _ call).symm

/-- A mapping of the same key object that is given a value is as good as a new one. -/
theorem Fits.withValue_eq {index : Nat} (fits : map.Fits index mapping) (value : ν) :
    mapping.withValue value = map.mapping mapping.key.target value := by
  simp only [Mapping.withValue, RefMap.mapping, Slot.reset, fits.hash, fits.valueKind,
    ← fits.keyKind]

/-- A call that has found a mapping without its value does as if it had found nothing. -/
theorem settle_of_lost {index : Nat} (fits : map.Fits index mapping)
    (stale : mapping.live later = false) (sought : call.sought? = some key)
    (spared : ∀ value, call = .put (some key) (some value) → mapping.key.target = key) :
    (map.settle call (some (mapping, none))).1 = (map.settle call none).1 ∧
      (map.settle call (some (mapping, none))).2.bind (Mapping.pair? later) =
        (map.settle call none).2.bind (Mapping.pair? later) := by
  have unseen : mapping.pair? later = none := by
    rw [Mapping.pair?_eq, stale]
    rfl
  obtain ⟨value, rfl⟩ | ⟨value, rfl⟩ | ⟨value, rfl⟩ | ⟨old, new, rfl⟩ | rfl | ⟨value, rfl⟩ :=
    Call.cases_of_sought? sought
  · refine ⟨rfl, ?_⟩
    simp only [settle]
    rw [fits.withValue_eq, spared value rfl]
  · exact ⟨rfl, rfl⟩
  · exact ⟨rfl, unseen⟩
  · exact ⟨rfl, unseen⟩
  · exact ⟨rfl, rfl⟩
  · exact ⟨rfl, unseen⟩

namespace Orderly

/-- What was found with its value is what the same call finds at once, at some instant. -/
theorem exists_caught (orderly : map.Orderly (course.alive 0)) (sought : call.sought? = some key)
    (settled : Settled map course call key rest) {value : ν}
    (caught : map.caught course key = some (mapping, some value)) :
    ∃ instant ≤ course.use,
      map.caught (.still (course.alive instant)) key = some (mapping, some value) := by
  obtain ⟨left, -, same, instant, inTime, live⟩ := settled.hit _ _ caught
  obtain ⟨others, whole⟩ := (orderly.still instant).exists_settled sought
  refine ⟨instant, inTime, ?_⟩
  rw [whole.caught_of_live (settled.mem_of_caught caught) same live,
    Slot.eq_of_get? left.symm]

/-- What was found without its value, or not found, is not there at the end. -/
theorem caught_at_last (orderly : map.Orderly (course.alive 0)) (sought : call.sought? = some key)
    (settled : Settled map course call key rest)
    (lost : ∀ mapping value, map.caught course key ≠ some (mapping, some value)) :
    map.caught (.still (course.alive course.use)) key = none := by
  obtain ⟨others, whole⟩ := (orderly.still course.use).exists_settled sought
  exact whole.caught_eq_none (settled.gone lost)

/-- A call is as good as one that is made at once at some instant, if what that one finds looks the
same, and so does what takes its place. -/
theorem atomic_at (orderly : map.Orderly (course.alive 0)) (sought : call.sought? = some key)
    {instant : Nat} (inTime : instant ≤ course.use) {found whole : Option (Mapping κ ν × Option ν)}
    (caught : map.caught course key = found)
    (caughtThen : map.caught (.still (course.alive instant)) key = whole)
    (reply : (map.settle call found).1 = (map.settle call whole).1)
    (before : ∀ later : Liveness κ ν, later.Within course.last →
      (found.map (·.1)).bind (Mapping.pair? later) = (whole.map (·.1)).bind (Mapping.pair? later))
    (after : ∀ later : Liveness κ ν, later.Within course.last →
      (map.settle call found).2.bind (Mapping.pair? later) =
        (map.settle call whole).2.bind (Mapping.pair? later)) :
    map.Atomic course call := by
  subst found whole
  obtain ⟨rest, torn⟩ := orderly.exists_settled sought
  obtain ⟨others, undivided⟩ := (orderly.still instant).exists_settled sought
  refine ⟨instant, inTime, ?_, fun later within => ?_⟩
  · rw [respond_eq, torn.reply, undivided.reply, reply]
  · rw [respond_eq]
    exact torn.alike undivided within (within.trans (course.last_within inTime))
      (before later within) (after later within)

/-- **A call on a key is as good as undivided, unless it is overtaken.** -/
theorem atomic (orderly : map.Orderly (course.alive 0)) (sought : call.sought? = some key)
    (spared : ¬ map.Overtaken course call) : map.Atomic course call := by
  obtain ⟨rest, torn⟩ := orderly.exists_settled sought
  rcases caught : map.caught course key with _ | ⟨mapping, _ | value⟩
  · have missed := orderly.caught_at_last sought torn (by simp [caught])
    exact orderly.atomic_at sought (Nat.le_refl _) caught missed rfl (fun _ _ => rfl)
      fun _ _ => rfl
  · -- Its value is gone, so at the end the key has no live mapping.
    have missed := orderly.caught_at_last sought torn (by simp [caught])
    obtain ⟨left, ⟨index, fits⟩, -, -⟩ := torn.hit _ _ caught
    have stale := Mapping.stale_of_lost left.symm
    have sameObject : ∀ value, call = .put (some key) (some value) → mapping.key.target = key := by
      rintro value rfl
      exact Classical.byContradiction fun other => spared ⟨mapping, caught, other⟩
    refine orderly.atomic_at sought (Nat.le_refl _) caught missed ?_ ?_ ?_
    · exact (settle_of_lost fits stale sought sameObject).1
    · intro later within
      show mapping.pair? later = none
      rw [Mapping.pair?_eq, Mapping.stale_of_within within stale]
      rfl
    · intro later within
      exact (settle_of_lost fits (Mapping.stale_of_within within stale) sought sameObject).2
  · -- Its value is still there, so it was found at an instant at which it was live.
    obtain ⟨instant, inTime, found⟩ := orderly.exists_caught sought torn caught
    exact orderly.atomic_at sought inTime caught found rfl (fun _ _ => rfl) fun _ _ => rfl

/-- **A call that is overtaken is none that could have been made at once.** -/
theorem not_atomic (orderly : map.Orderly (course.alive 0)) (held : call.Held course.last)
    (overtaken : map.Overtaken course call) : ¬ map.Atomic course call := by
  rintro ⟨instant, inTime, reply, entries⟩
  obtain ⟨key, value, mapping, rfl, caught, otherKey⟩ := overtaken.exists_put
  have sought : (Call.put (some key) (some value)).sought? = some key := rfl
  obtain ⟨rest, torn⟩ := orderly.exists_settled sought
  obtain ⟨others, whole⟩ := (orderly.still instant).exists_settled sought
  rw [respond_eq] at reply entries
  -- Nobody answers that there was no value who has found one.
  have missed : map.caught (.still (course.alive instant)) key = none := by
    rcases found : map.caught (.still (course.alive instant)) key with _ | ⟨hit, left⟩
    · rfl
    · obtain ⟨rfl, -, -, moment, -, live⟩ := whole.hit _ _ found
      have valued : hit.value.get? (Course.still (course.alive instant)).last.value =
          some hit.value.target := Mapping.value_of_live live
      rw [torn.reply, whole.reply, caught, found, valued] at reply
      cases reply
  -- So the key was inserted, and its mapping is live. But it is not what the overtaken call leaves.
  have inserted : (key, value) ∈
      (map.answer (Course.still (course.alive instant)).moments
        (.put (some key) (some value))).2.entries course.last := by
    refine mem_entries.mpr ⟨map.mapping key value, whole.after.mem_iff.mpr ?_, ?_, rfl⟩
    · rw [missed]
      exact List.mem_cons_self
    · exact Mapping.live_of_alive held.1 held.2
  obtain ⟨kept, member, live, pair⟩ :=
    mem_entries.mp ((entries course.last (.refl _)).mem_iff.mpr inserted)
  have target : kept.key.target = key := congrArg Prod.fst pair
  rw [torn.after.mem_iff, caught] at member
  rcases List.mem_cons.mp member with rfl | inRest
  · exact otherKey target
  · rw [torn.stale kept inRest (target ▸ map.keying.refl _)] at live
    cases live

/-- A call that answers that its key had no value leaves no live mapping of the key but one with the
key object that was passed, unless it is overtaken. -/
theorem key_of_unmapped (orderly : map.Orderly (course.alive 0))
    (spared : ¬ map.Overtaken course call) {value : ν}
    (maps : call = .put (some key) (some value) ∨ call = .putIfAbsent (some key) (some value))
    (unmapped : (map.answer course.moments call).1 = .value none) {entry : κ × ν}
    (within : later.Within course.last)
    (member : entry ∈ (map.answer course.moments call).2.entries later)
    (same : map.keying.same entry.1 key = true) : entry.1 = key := by
  have sought : call.sought? = some key := by
    rcases maps with rfl | rfl <;> rfl
  obtain ⟨rest, settled⟩ := orderly.exists_settled sought
  obtain ⟨mapping, stored, live, rfl⟩ := mem_entries.mp member
  rw [settled.after.mem_iff] at stored
  rcases List.mem_append.mp stored with kept | inRest
  · rw [Option.mem_toList] at kept
    rcases key_of_settle sought kept with passed | ⟨hit, left, caught, equal⟩
    · exact passed
    · rw [settled.reply, caught] at unmapped
      rw [caught] at kept
      rcases maps with rfl | rfl
      · -- It was put over a mapping without a value, so over one of the same key object.
        have lost : left = none := Reply.value.inj unmapped
        subst lost
        show mapping.key.target = key
        rw [equal]
        exact Classical.byContradiction fun other => spared ⟨hit, caught, other⟩
      · cases left with
        | none =>
            obtain rfl := Option.some.inj kept
            rfl
        | some existing => cases unmapped
  · rw [Mapping.stale_of_within within (settled.stale mapping inRest same)] at live
    cases live

end Orderly

end RefMap

/-! ## The theorem -/

/-- **A call in the midst of which objects are reclaimed is as good as one that is made at once,
unless it is overtaken.** Whatever state a map is in, and whichever objects are reclaimed between any
two looks that a call takes at them, the call answers and leaves what the same call would at some
instant. The one exception is a call that puts a key over a mapping with another key object, whose
value is reclaimed after it was found and before it is used. No two live mappings of the map are of
the same key in any case. And if a call that maps a key answers that the key had no value, the map has
no live mapping of the key but one with the key object that was passed, with the same exception. -/
theorem edits_are_atomic_iff {map : RefMap κ ν} {course : Course κ ν} {call : Call κ ν}
    (reached : map.Reached (course.alive 0)) (edits : call.edits = true)
    (held : call.Held course.last) :
    let (reply, after) := map.answer course.moments call
    (map.Atomic course call ↔ ¬ map.Overtaken course call) ∧
      (∀ later : Liveness κ ν, later.Within course.last →
        (after.entries later).Pairwise fun left right => map.keying.same left.1 right.1 = false) ∧
      (¬ map.Overtaken course call → ∀ key value,
        call = .put (some key) (some value) ∨ call = .putIfAbsent (some key) (some value) →
          reply = .value none → ∀ later : Liveness κ ν, later.Within course.last →
            ∀ entry ∈ after.entries later,
              map.keying.same entry.1 key = true → entry.1 = key) := by
  have orderly := reached.orderly
  refine ⟨⟨?_, ?_⟩, ?_, ?_⟩
  · intro atomic overtaken
    exact orderly.not_atomic held overtaken atomic
  · intro spared
    cases sought : call.sought? with
    | some key => exact orderly.atomic sought spared
    | none =>
        -- A call that fails at once finds nothing to be reclaimed.
        obtain ⟨cause, failed⟩ := map.answer_of_sought?_eq_none edits sought
        refine ⟨0, Nat.zero_le _, ?_, fun later _ => ?_⟩
        · rw [RefMap.respond_eq, failed, failed]
        · rw [RefMap.respond_eq, failed, failed]
  · intro later within
    have apart := ((orderly.answer edits).fade within).entries_apart
    rw [RefMap.keying_of_settings (orderly.settings_answer edits)] at apart
    exact apart
  · intro spared key value maps unmapped later within entry member same
    exact orderly.key_of_unmapped spared maps unmapped within member same

/-- All objects are alive. -/
def everything : Liveness Object Object := ⟨fun _ => true, fun _ => true⟩

/-- A key is mapped to a value that the map refers to weakly. -/
def borrowing : RefMap Object Object :=
  (({ keying := .plain, sameValue := fun left right => left.value == right.value
      keyKind := .strong, valueKind := .weak, segmentCount := 1 } : RefMap Object Object).answer
    (Course.still everything).moments (.put (some ⟨1, [], 5⟩) (some ⟨2, [], 0⟩))).2

/-- The value is reclaimed after the mapping was found and before it is used. -/
def callingIn : Course Object Object :=
  .losing everything ⟨fun _ => true, (· ≠ ⟨2, [], 0⟩)⟩ ⟨fun _ _ => rfl, fun _ _ => rfl⟩

theorem reached_borrowing : borrowing.Reached (callingIn.alive 0) :=
  .edit (.still everything) (.put (some ⟨1, [], 5⟩) (some ⟨2, [], 0⟩)) rfl (.unused rfl)

/-- Who maps an equal key unless it has a value takes the place of a mapping that has just lost its
value, key object and all. -/
theorem edits_are_atomic_iff_for_callingIn :
    let call : Call Object Object := .putIfAbsent (some ⟨3, [], 5⟩) (some ⟨4, [], 1⟩)
    let told := borrowing.answer callingIn.moments call
    told.1 = .value none ∧ told.2.entries callingIn.last = [(⟨3, [], 5⟩, ⟨4, [], 1⟩)] ∧
      borrowing.Atomic callingIn call := by
  intro call told
  obtain ⟨atomic, -, -⟩ := edits_are_atomic_iff reached_borrowing
    (show call.edits = true from rfl) ⟨rfl, rfl⟩
  exact ⟨rfl, rfl, atomic.mpr fun overtaken => overtaken⟩

/-- Who puts an equal key there is told that it had no value, and the former key object stays. No
call at once does that. -/
theorem put_over_lost_keeps_key :
    let call : Call Object Object := .put (some ⟨3, [], 5⟩) (some ⟨4, [], 1⟩)
    let told := borrowing.answer callingIn.moments call
    borrowing.Reached (callingIn.alive 0) ∧ call.Held callingIn.last ∧ told.1 = .value none ∧
      told.2.entries callingIn.last = [(⟨1, [], 5⟩, ⟨4, [], 1⟩)] ∧
      ¬ borrowing.Atomic callingIn call := by
  intro call told
  refine ⟨reached_borrowing, ⟨rfl, rfl⟩, rfl, rfl, ?_⟩
  exact reached_borrowing.orderly.not_atomic ⟨rfl, rfl⟩ ⟨_, rfl, by decide⟩

end Collections.Weak
