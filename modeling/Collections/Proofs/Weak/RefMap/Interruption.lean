import Collections.Proofs.Weak.RefMap.Settling

/-!
# Maps whose calls are interrupted

Objects may be reclaimed in the middle of each call on a reference map. Still no two live mappings of
the map are of the same key (`RefMap.Reached.orderly`). So a call that edits a key finds the one live
mapping of that key, or else the key has none when the call is over. Whatever other mappings of the
key the map stores are stale by then (`RefMap.Orderly.exists_settled`).
-/

set_option autoImplicit false

namespace Collections.Weak

variable {κ ν : Type}

theorem Mapping.stale_of_lost {alive : Liveness κ ν} {mapping : Mapping κ ν}
    (lost : mapping.value.get? alive.value = none) : mapping.live alive = false := by
  cases live : mapping.live alive with
  | false => rfl
  | true =>
      rw [value_of_live live] at lost
      cases lost

namespace RefMap

variable {map after : RefMap κ ν} {alive later : Liveness κ ν} {course : Course κ ν}
  {call : Call κ ν} {key : κ} {mapping : Mapping κ ν} {rest : List (Mapping κ ν)}

/-! ## Live mappings of a key -/

/-- Two mappings are not both live, or else of different keys. -/
def Apart (keying : Keying κ) (alive : Liveness κ ν) (left right : Mapping κ ν) : Prop :=
  left.live alive = true → right.live alive = true →
    keying.same left.key.target right.key.target = false

theorem Apart.symm {keying : Keying κ} {left right : Mapping κ ν}
    (apart : Apart keying alive left right) : Apart keying alive right left := by
  intro liveRight liveLeft
  refine Bool.eq_false_iff.mpr fun same => ?_
  exact Bool.eq_false_iff.mp (apart liveLeft liveRight) (keying.symm _ _ same)

/-- All mappings stand where they belong, and no two live ones are of the same key. -/
structure Orderly (map : RefMap κ ν) (alive : Liveness κ ν) : Prop where
  placed : map.Placed
  apart : map.stored.Pairwise (Apart map.keying alive)

/-- All mappings of a key are stale. -/
def Gone (map : RefMap κ ν) (alive : Liveness κ ν) (key : κ) : Prop :=
  ∀ mapping ∈ map.stored, map.keying.same mapping.key.target key = true →
    mapping.live alive = false

theorem mem_entries {entry : κ × ν} :
    entry ∈ map.entries alive ↔
      ∃ mapping ∈ map.stored, mapping.live alive = true ∧ mapping.pair = entry := by
  simp [entries_eq_seen, List.mem_filterMap, Mapping.pair?_eq]

/-- Up to order, the entries are what is seen of the stored mappings. -/
theorem entries_perm (alive : Liveness κ ν) {mappings : List (Mapping κ ν)}
    (parts : map.stored.Perm mappings) :
    (map.entries alive).Perm (mappings.filterMap (Mapping.pair? alive)) := by
  rw [entries_eq_seen]
  exact parts.filterMap _

theorem seen_of_stale {mappings : List (Mapping κ ν)}
    (stale : ∀ mapping ∈ mappings, mapping.live alive = false) :
    mappings.filterMap (Mapping.pair? alive) = [] := by
  refine List.filterMap_eq_nil_iff.mpr fun mapping member => ?_
  rw [Mapping.pair?_eq, stale mapping member]
  rfl

namespace Orderly

theorem fade (orderly : map.Orderly alive) (within : later.Within alive) : map.Orderly later := by
  refine ⟨orderly.placed, orderly.apart.imp fun apart => ?_⟩
  intro liveLeft liveRight
  exact apart (Mapping.live_of_within within liveLeft) (Mapping.live_of_within within liveRight)

/-- At every instant of its course a call could start over. -/
theorem still (orderly : map.Orderly (course.alive 0)) (instant : Nat) :
    map.Orderly ((Course.still (course.alive instant)).alive 0) :=
  orderly.fade (course.within_first instant)

theorem say (orderly : map.Orderly alive) (notice : Log.Notice) : (map.say notice).Orderly alive :=
  ⟨orderly.placed.say notice, orderly.apart⟩

theorem of_unused (unused : map.stored = []) : map.Orderly alive := by
  refine ⟨placed_of_stored_eq_nil unused, ?_⟩
  rw [unused]
  exact .nil

/-- Mappings may be thrown out. -/
theorem of_swept (orderly : map.Orderly alive) (settings : after.settings = map.settings)
    (placed : after.Placed) {gone : List (Mapping κ ν)}
    (parts : map.stored.Perm (after.stored ++ gone)) : after.Orderly alive := by
  refine ⟨placed, ?_⟩
  rw [keying_of_settings settings]
  exact (List.pairwise_append.mp ((parts.pairwise_iff Apart.symm).mp orderly.apart)).1

theorem sweepSegments (orderly : map.Orderly alive) (seen : RefMap κ ν → Liveness κ ν)
    (indices : List Nat) : (map.sweepSegments seen indices).2.Orderly alive := by
  induction indices generalizing map with
  | nil => exact orderly
  | cons index rest ih =>
      obtain ⟨settings, placed, gone, parts, -⟩ := orderly.placed.swept (fun _ => seen) index
      exact ih (orderly.of_swept settings placed parts)

theorem purge (orderly : map.Orderly alive) (seen : RefMap κ ν → Liveness κ ν) :
    (map.purge seen).2.Orderly alive := by
  have swept := orderly.sweepSegments seen (List.range map.used.length)
  unfold RefMap.purge
  dsimp only
  split
  · exact swept
  · exact swept.say _

/-- No two entries are of the same key. -/
theorem entries_apart (orderly : map.Orderly alive) :
    (map.entries alive).Pairwise fun left right => map.keying.same left.1 right.1 = false := by
  rw [entries_eq_seen, List.pairwise_filterMap]
  refine orderly.apart.imp fun apart first seenFirst second seenSecond => ?_
  rw [Mapping.pair?_eq, Option.ite_none_right_eq_some] at seenFirst seenSecond
  obtain ⟨liveFirst, seenFirst⟩ := seenFirst
  obtain ⟨liveSecond, seenSecond⟩ := seenSecond
  rw [← Option.some.inj seenFirst, ← Option.some.inj seenSecond]
  exact apart liveFirst liveSecond

end Orderly

/-! ## A call in its course -/

/-- What a call on a key has found and done, with the mappings that it has left alone. -/
structure Settled (map : RefMap κ ν) (course : Course κ ν) (call : Call κ ν) (key : κ)
    (rest : List (Mapping κ ν)) : Prop where
  reply : (map.answer course.moments call).1 = (map.settle call (map.caught course key)).1
  settings : (map.answer course.moments call).2.settings = map.settings
  placed : (map.answer course.moments call).2.Placed
  before : ∃ gone,
    map.stored.Perm (((map.caught course key).map (·.1)).toList ++ rest ++ gone) ∧
      ∀ mapping ∈ gone, mapping.live course.last = false
  after : (map.answer course.moments call).2.stored.Perm
    ((map.settle call (map.caught course key)).2.toList ++ rest)
  /-- Beside what was found, all mappings of the key are stale in the end. -/
  stale : ∀ mapping ∈ rest, map.keying.same mapping.key.target key = true →
    mapping.live course.last = false
  /-- What was found is a mapping of the key, and was live at some instant. -/
  hit : ∀ mapping left, map.caught course key = some (mapping, left) →
    left = mapping.value.get? course.last.value ∧ (∃ index, map.Fits index mapping) ∧
      map.keying.same mapping.key.target key = true ∧
      ∃ instant ≤ course.use, mapping.live (course.alive instant) = true

theorem Orderly.exists_settled (orderly : map.Orderly (course.alive 0))
    (sought : call.sought? = some key) : ∃ rest, Settled map course call key rest := by
  have searched := orderly.placed.searched course key
  obtain ⟨reply, settings, placed, rest, before, after⟩ := orderly.placed.settles course sought
  obtain ⟨gone, parts, goneStale⟩ := searched.swept
  have found : ((map.caught course key).map (·.1)) =
      (map.lookup course.moments key).found.map (·.2) := by
    rw [caught, Option.map_map]
    rfl
  have whole := parts.trans (before.append_right gone)
  refine ⟨rest, reply, settings.trans searched.settings, placed,
    ⟨gone, by rw [found]; exact whole, goneStale⟩, after, fun other member same => ?_,
    fun mapping left caught => ?_⟩
  · cases hit : (map.lookup course.moments key).found with
    | none =>
        refine searched.missed hit other (before.mem_iff.mpr ?_) same
        exact List.mem_append_right _ member
    | some found =>
        -- Two live mappings of one key would have been there at the beginning.
        obtain ⟨-, sameFound, instant, -, live⟩ := searched.hit _ _ hit
        have apart := (whole.pairwise_iff Apart.symm).mp orderly.apart
        rw [hit] at apart
        have differ := (List.pairwise_cons.mp (List.pairwise_append.mp apart).1).1 other member
        refine Bool.eq_false_iff.mpr fun liveOther => ?_
        have apartNow := differ (Mapping.live_of_within (course.within_first instant) live)
          (Mapping.live_of_within (course.within_first course.use) liveOther)
        rw [map.keying.trans _ _ _ sameFound (map.keying.symm _ _ same)] at apartNow
        cases apartNow
  · rw [RefMap.caught, Option.map_eq_some_iff] at caught
    obtain ⟨⟨position, other⟩, hit, equal⟩ := caught
    obtain ⟨rfl, rfl⟩ := Prod.mk.inj equal
    obtain ⟨-, same, live⟩ := searched.hit _ _ hit
    exact ⟨rfl, ⟨_, (searched.fits_of_hit hit).of_settings searched.settings.symm⟩, same, live⟩

namespace Settled

variable {other : Course κ ν} {others : List (Mapping κ ν)}

theorem mem_of_caught (settled : Settled map course call key rest) {left : Option ν}
    (caught : map.caught course key = some (mapping, left)) : mapping ∈ map.stored := by
  obtain ⟨gone, parts, -⟩ := settled.before
  refine parts.mem_iff.mpr ?_
  rw [caught]
  exact List.mem_cons_self

/-- A mapping of the key that is live in the end is what was found, and still has its value. -/
theorem caught_of_live (settled : Settled map course call key rest) (member : mapping ∈ map.stored)
    (same : map.keying.same mapping.key.target key = true)
    (live : mapping.live course.last = true) :
    map.caught course key = some (mapping, some mapping.value.target) := by
  obtain ⟨gone, parts, stale⟩ := settled.before
  rcases List.mem_append.mp (parts.mem_iff.mp member) with inFront | inGone
  · rcases List.mem_append.mp inFront with found | inRest
    · rw [Option.mem_toList, Option.map_eq_some_iff] at found
      obtain ⟨⟨found, left⟩, caught, rfl⟩ := found
      rw [caught, (settled.hit _ _ caught).1, Mapping.value_of_live live]
    · rw [settled.stale mapping inRest same] at live
      cases live
  · rw [stale mapping inGone] at live
    cases live

/-- If nothing was found that still has its value, the key has no live mapping in the end. -/
theorem gone (settled : Settled map course call key rest)
    (lost : ∀ mapping value, map.caught course key ≠ some (mapping, some value)) :
    map.Gone course.last key := by
  intro mapping member same
  refine Bool.eq_false_iff.mpr fun live => ?_
  exact lost _ _ (settled.caught_of_live member same live)

/-- If the key has no live mapping in the beginning, nothing is found. -/
theorem caught_eq_none (settled : Settled map course call key rest)
    (gone : map.Gone (course.alive 0) key) : map.caught course key = none := by
  cases caught : map.caught course key with
  | none => rfl
  | some found =>
      obtain ⟨mapping, left⟩ := found
      obtain ⟨-, -, same, instant, -, live⟩ := settled.hit _ _ caught
      have stale := gone mapping (settled.mem_of_caught caught) same
      rw [Mapping.live_of_within (course.within_first instant) live] at stale
      cases stale

theorem seen_toList (found : Option (Mapping κ ν)) (alive : Liveness κ ν) :
    found.toList.filterMap (Mapping.pair? alive) = (found.bind (Mapping.pair? alive)).toList := by
  cases found with
  | none => rfl
  | some mapping => cases seen : mapping.pair? alive <;> simp [seen]

theorem entries_before (settled : Settled map course call key rest)
    (within : later.Within course.last) :
    (map.entries later).Perm
      ((((map.caught course key).map (·.1)).bind (Mapping.pair? later)).toList ++
        rest.filterMap (Mapping.pair? later)) := by
  obtain ⟨gone, parts, stale⟩ := settled.before
  refine (entries_perm later parts).trans (.of_eq ?_)
  rw [List.filterMap_append, List.filterMap_append, seen_toList,
    seen_of_stale fun mapping member => Mapping.stale_of_within within (stale mapping member),
    List.append_nil]

theorem entries_after (settled : Settled map course call key rest) (later : Liveness κ ν) :
    ((map.answer course.moments call).2.entries later).Perm
      (((map.settle call (map.caught course key)).2.bind (Mapping.pair? later)).toList ++
        rest.filterMap (Mapping.pair? later)) := by
  refine (entries_perm later settled.after).trans (.of_eq ?_)
  rw [List.filterMap_append, seen_toList]

/-- Two courses of a call leave the same entries, if what was found and what has taken its place look
the same. -/
theorem alike (settled : Settled map course call key rest)
    (settledOther : Settled map other call key others)
    (within : later.Within course.last) (withinOther : later.Within other.last)
    (before : ((map.caught course key).map (·.1)).bind (Mapping.pair? later) =
      ((map.caught other key).map (·.1)).bind (Mapping.pair? later))
    (after : (map.settle call (map.caught course key)).2.bind (Mapping.pair? later) =
      (map.settle call (map.caught other key)).2.bind (Mapping.pair? later)) :
    ((map.answer course.moments call).2.entries later).Perm
      ((map.answer other.moments call).2.entries later) := by
  have seen := (settled.entries_before within).symm.trans (settledOther.entries_before withinOther)
  rw [before, List.perm_append_left_iff] at seen
  refine (settled.entries_after later).trans (.trans ?_ (settledOther.entries_after later).symm)
  rw [after]
  exact seen.append_left _

end Settled

/-! ## What a call leaves -/

/-- What takes the place of what was found refers to the key object that was passed, or to that of
what was found. -/
theorem key_of_settle (sought : call.sought? = some key)
    {found : Option (Mapping κ ν × Option ν)} {kept : Mapping κ ν}
    (settled : (map.settle call found).2 = some kept) :
    kept.key.target = key ∨ ∃ hit left, found = some (hit, left) ∧ kept.key = hit.key := by
  obtain ⟨value, rfl⟩ | ⟨value, rfl⟩ | ⟨value, rfl⟩ | ⟨old, new, rfl⟩ | rfl | ⟨value, rfl⟩ :=
    Call.cases_of_sought? sought
  · rcases found with _ | ⟨hit, left⟩ <;> obtain rfl := Option.some.inj settled
    · exact .inl rfl
    · exact .inr ⟨hit, left, rfl, rfl⟩
  · rcases found with _ | ⟨hit, _ | left⟩ <;> obtain rfl := Option.some.inj settled
    · exact .inl rfl
    · exact .inl rfl
    · exact .inr ⟨hit, some left, rfl, rfl⟩
  · rcases found with _ | ⟨hit, _ | left⟩
    · cases settled
    all_goals
      obtain rfl := Option.some.inj settled
      exact .inr ⟨hit, _, rfl, rfl⟩
  · rcases found with _ | ⟨hit, left⟩
    · cases settled
    · simp only [settle] at settled
      split at settled
      all_goals
        obtain rfl := Option.some.inj settled
        exact .inr ⟨hit, left, rfl, rfl⟩
  · cases settled
  · rcases found with _ | ⟨hit, left⟩
    · cases settled
    · simp only [settle] at settled
      split at settled
      · cases settled
      · obtain rfl := Option.some.inj settled
        exact .inr ⟨hit, left, rfl, rfl⟩

namespace Orderly

theorem settings_answer (orderly : map.Orderly (course.alive 0)) (edits : call.edits = true) :
    (map.answer course.moments call).2.settings = map.settings := by
  cases sought : call.sought? with
  | none =>
      obtain ⟨cause, failed⟩ := map.answer_of_sought?_eq_none edits sought
      rw [failed]
      rfl
  | some key =>
      obtain ⟨rest, settled⟩ := orderly.exists_settled sought
      exact settled.settings

/-- A call leaves its map orderly, wherever it is interrupted. -/
theorem answer (orderly : map.Orderly (course.alive 0)) (edits : call.edits = true) :
    (map.answer course.moments call).2.Orderly course.last := by
  have faded := orderly.fade (course.within_first course.use)
  cases sought : call.sought? with
  | none =>
      obtain ⟨cause, failed⟩ := map.answer_of_sought?_eq_none edits sought
      rw [failed]
      exact faded.say _
  | some key =>
      obtain ⟨rest, settled⟩ := orderly.exists_settled sought
      refine ⟨settled.placed, ?_⟩
      rw [keying_of_settings settled.settings, settled.after.pairwise_iff Apart.symm]
      have restApart : rest.Pairwise (Apart map.keying course.last) := by
        obtain ⟨gone, parts, -⟩ := settled.before
        have apart := (parts.pairwise_iff Apart.symm).mp faded.apart
        exact (List.pairwise_append.mp (List.pairwise_append.mp apart).1).2.1
      cases kept : (map.settle call (map.caught course key)).2 with
      | none => exact restApart
      | some mapping =>
          have same : map.keying.same mapping.key.target key = true := by
            rcases key_of_settle sought kept with passed | ⟨hit, left, caught, equal⟩
            · rw [passed]
              exact map.keying.refl key
            · rw [equal]
              exact (settled.hit _ _ caught).2.2.1
          -- Whatever else is of the key is stale.
          refine List.pairwise_cons.mpr ⟨fun other member _ liveOther => ?_, restApart⟩
          refine Bool.eq_false_iff.mpr fun alike => ?_
          have sameOther := map.keying.trans _ _ _ (map.keying.symm _ _ alike) same
          rw [settled.stale other member sameOther] at liveOther
          cases liveOther

end Orderly

/-! ## Maps in use -/

/-- A map can be in some state, and these objects alive, after calls of any number of callers. Each
call on a key has the segment of the key for itself. Objects may be reclaimed in the course of each
call, and in between. -/
inductive Reached : RefMap κ ν → Liveness κ ν → Prop
  | unused {map : RefMap κ ν} {alive : Liveness κ ν} (empty : map.stored = []) : Reached map alive
  | fade {map : RefMap κ ν} {alive later : Liveness κ ν} (reached : Reached map alive)
      (within : later.Within alive) : Reached map later
  | edit {map : RefMap κ ν} (course : Course κ ν) (call : Call κ ν) (edits : call.edits = true)
      (reached : Reached map (course.alive 0)) :
      Reached (map.answer course.moments call).2 course.last
  | purge {map : RefMap κ ν} {alive : Liveness κ ν} (seen : RefMap κ ν → Liveness κ ν)
      (reached : Reached map alive) : Reached (map.purge seen).2 alive
  | clear {map : RefMap κ ν} {alive : Liveness κ ν} (reached : Reached map alive) :
      Reached map.clear alive

/-- **However calls are interrupted, a map stays orderly.** -/
theorem Reached.orderly (reached : map.Reached alive) : map.Orderly alive := by
  induction reached with
  | unused empty => exact .of_unused empty
  | fade _ within ih => exact ih.fade within
  | edit course call edits _ ih => exact ih.answer edits
  | purge seen _ ih => exact ih.purge seen
  | clear => exact .of_unused (stored_clear _)

end RefMap

end Collections.Weak
