import Collections.Proofs.Weak.RefMap.PlainMap
import Collections.Proofs.Weak.Upkeep

/-!
# The upkeep of a segment

A call on a reference map comes with an account of what is alive at each of its moments, so objects
may be reclaimed in its midst. It leaves the map `RefMap.after`, which is the one that an answer
leaves if nothing is reclaimed but what the map lets go of (`RefMap.after_following`).

A call on a key looks the key up, which tends the segment of the key and leaves the others alone
(`RefMap.get_lookup`), and then edits that segment (`RefMap.get_after`). A requested sweep goes
through all segments, one after the other, and sweeps each of them once
(`RefMap.get_sweepSegments`). Hence what a call does to one segment is a list of edits
(`RefMap.editsAt`), in which an insertion comes last and after an upkeep (`RefMap.tends`).
-/

set_option autoImplicit false

namespace Collections.Weak.RefMap

open SlotTable (Edit Tended Tends)

variable {κ ν : Type}

/-! ## Calls and edits -/

/-- The map after a call, with an account of what is alive at each of its moments. -/
def after (map : RefMap κ ν) (moments : Moments κ ν) : Call κ ν → RefMap κ ν
  | .put key value => (map.put moments key value).2
  | .putIfAbsent key value => (map.putIfAbsent moments key value).2
  | .replace key value => (map.replace moments key value).2
  | .replaceIf key old new => (map.replaceIf moments key old new).2
  | .erase key => (map.erase moments key).2
  | .removeIf key value => (map.removeIf moments key value).2
  | .clear => map.clear
  | .purge => (map.purge moments.use).2
  | .get _ | .containsKey _ | .size | .isEmpty | .forEach => map

theorem after_following (map : RefMap κ ν) (alive : RefMap κ ν → Liveness κ ν) (call : Call κ ν) :
    map.after (.following alive) call = (map.respond alive call).2 := by
  cases call <;> rfl

/-- The mappings that a sweep of a segment finds alive. -/
def liveIn (map : RefMap κ ν) (alive : Nat → RefMap κ ν → Liveness κ ν) (index : Nat)
    (position : Nat) (there : List (Mapping κ ν)) : Mapping κ ν → Bool :=
  Mapping.live (alive position (map.withSlots index there))

/-- What a call does to the segment of its key, once the key has been looked up there. -/
def changes (map : RefMap κ ν) (moments : Moments κ ν) (lookup : Lookup κ ν) :
    Call κ ν → List (Edit (Mapping κ ν))
  | .put (some key) (some value) =>
      match lookup.found with
      | none => [.insert (map.mapping key value)]
      | some (position, mapping) => [.setAt position (mapping.withValue value)]
  | .putIfAbsent (some key) (some value) =>
      match lookup.found with
      | none => [.insert (map.mapping key value)]
      | some (position, mapping) =>
          match lookup.value? moments mapping with
          | some _ => []
          | none => [.eraseAt position, .insert (map.mapping key value)]
  | .replace _ (some value) =>
      match lookup.found with
      | none => []
      | some (position, mapping) =>
          match lookup.value? moments mapping with
          | none => []
          | some _ => [.setAt position (mapping.withValue value)]
  | .replaceIf _ old (some new) =>
      match lookup.found with
      | none => []
      | some (position, mapping) =>
          if map.agree (lookup.value? moments mapping) old then
            [.setAt position (mapping.withValue new)]
          else []
  | .erase _ =>
      match lookup.found with
      | none => []
      | some (position, _) => [.eraseAt position]
  | .removeIf _ value =>
      match lookup.found with
      | none => []
      | some (position, mapping) =>
          if map.agree (lookup.value? moments mapping) value then [.eraseAt position] else []
  | _ => []

/-- What a sweep of several segments does to one. -/
def sweepEdits (map : RefMap κ ν) (alive : RefMap κ ν → Liveness κ ν) (index : Nat) :
    List Nat → List (Edit (Mapping κ ν))
  | [] => []
  | first :: rest =>
      let later := sweepEdits (map.sweepSegment (fun _ => alive) first).2 alive index rest
      if first = index then .sweep (map.liveIn (fun _ => alive) index) :: later else later

/-- What a call does to a segment. -/
def editsAt (index : Nat) (map : RefMap κ ν) (request : Moments κ ν × Call κ ν) :
    List (Edit (Mapping κ ν)) :=
  let (moments, call) := request
  match call.sought? with
  | some key =>
      if map.home key = index then
        .tend (map.liveIn moments.sweep index) :: map.changes moments (map.lookup moments key) call
      else []
  | none =>
      match call with
      | .clear => if index < map.used.length then [.clear] else []
      | .purge => map.sweepEdits moments.use index (List.range map.used.length)
      | _ => []

/-! ## What becomes of a segment -/

theorem get_edit (lookup : Lookup κ ν)
    (change : SlotTable (Mapping κ ν) → SlotTable (Mapping κ ν)) (index : Nat) :
    (lookup.edit change).segments.get index =
      if index = lookup.index then change (lookup.map.segments.get lookup.index)
      else lookup.map.segments.get index :=
  Table.get_set ..

theorem get_sweepSegment (map : RefMap κ ν) (alive : Nat → RefMap κ ν → Liveness κ ν)
    (swept index : Nat) :
    (map.sweepSegment alive swept).2.segments.get index =
      if index = swept then (map.segments.get swept).edited (.sweep (map.liveIn alive swept))
      else map.segments.get index :=
  Table.get_set ..

/-- To look a key up is an upkeep of its segment, and the other segments stay as they are. -/
theorem get_lookup (map : RefMap κ ν) (moments : Moments κ ν) (key : κ) (index : Nat) :
    (map.lookup moments key).map.segments.get index =
      if index = map.home key then
        (map.segments.get index).edited (.tend (map.liveIn moments.sweep index))
      else map.segments.get index := by
  rw [lookup]
  dsimp only
  by_cases due : (map.segments.get (map.home key)).isDue = true
  · rw [if_pos due, get_sweepSegment]
    by_cases here : index = map.home key
    · subst here
      rw [if_pos rfl, if_pos rfl, SlotTable.edited, if_pos due]
      rfl
    · rw [if_neg here, if_neg here]
  · rw [if_neg due]
    by_cases here : index = map.home key
    · subst here
      rw [if_pos rfl, SlotTable.edited, if_neg due]
    · rw [if_neg here]

theorem get_edit_nothing (lookup : Lookup κ ν) (index : Nat) :
    (lookup.edit (·.played [])).segments.get index = lookup.map.segments.get index := by
  rw [get_edit]
  split
  next here =>
    rw [here]
    rfl
  next => rfl

/-- A call on a key looks the key up, and changes nothing but the segment of the key. -/
theorem get_after (map : RefMap κ ν) (moments : Moments κ ν) {call : Call κ ν} {key : κ}
    (sought : call.sought? = some key) (index : Nat) :
    (map.after moments call).segments.get index =
      ((map.lookup moments key).edit
        (·.played (map.changes moments (map.lookup moments key) call))).segments.get index := by
  cases call with
  | put first value =>
      cases first with
      | none => cases sought
      | some first =>
          cases value with
          | none => cases sought
          | some value =>
              obtain rfl := Option.some.inj sought
              simp only [after, put, changes]
              cases (map.lookup moments first).found <;> rfl
  | putIfAbsent first value =>
      cases first with
      | none => cases sought
      | some first =>
          cases value with
          | none => cases sought
          | some value =>
              obtain rfl := Option.some.inj sought
              simp only [after, putIfAbsent, changes]
              cases (map.lookup moments first).found with
              | none => rfl
              | some found =>
                  dsimp only
                  cases (map.lookup moments first).value? moments found.2 with
                  | none => rfl
                  | some existing => exact (get_edit_nothing _ index).symm
  | replace first value =>
      cases value with
      | none => cases sought
      | some value =>
          obtain rfl := Option.some.inj sought
          simp only [after, replace, changes]
          cases (map.lookup moments first).found with
          | none => exact (get_edit_nothing _ index).symm
          | some found =>
              dsimp only
              cases (map.lookup moments first).value? moments found.2 with
              | none => exact (get_edit_nothing _ index).symm
              | some previous => rfl
  | replaceIf first old new =>
      cases new with
      | none => cases sought
      | some new =>
          obtain rfl := Option.some.inj sought
          simp only [after, replaceIf, changes]
          cases (map.lookup moments first).found with
          | none => exact (get_edit_nothing _ index).symm
          | some found =>
              dsimp only
              cases map.agree ((map.lookup moments first).value? moments found.2) old with
              | false => exact (get_edit_nothing _ index).symm
              | true => rfl
  | erase first =>
      obtain rfl := Option.some.inj sought
      simp only [after, erase, changes]
      cases (map.lookup moments first).found with
      | none => exact (get_edit_nothing _ index).symm
      | some found => rfl
  | removeIf first value =>
      obtain rfl := Option.some.inj sought
      simp only [after, removeIf, changes]
      cases (map.lookup moments first).found with
      | none => exact (get_edit_nothing _ index).symm
      | some found =>
          dsimp only
          cases map.agree ((map.lookup moments first).value? moments found.2) value with
          | false => exact (get_edit_nothing _ index).symm
          | true => rfl
  | get | containsKey | size | isEmpty | clear | purge | forEach => cases sought

/-- A call without a key, or without a value where it needs one, changes no segment, unless it is
for the whole map. -/
theorem get_after_of_sought?_eq_none (map : RefMap κ ν) (moments : Moments κ ν) {call : Call κ ν}
    (nothing : call.sought? = none) (whole : call.settles = false) (index : Nat) :
    (map.after moments call).segments.get index = map.segments.get index := by
  cases call with
  | put first value =>
      cases first with
      | none => rfl
      | some first =>
          cases value with
          | none => rfl
          | some value => cases nothing
  | putIfAbsent first value =>
      cases first with
      | none => rfl
      | some first =>
          cases value with
          | none => rfl
          | some value => cases nothing
  | replace first value | replaceIf first old value =>
      cases value with
      | none => rfl
      | some value => cases nothing
  | erase | removeIf => cases nothing
  | clear | purge => cases whole
  | get | containsKey | size | isEmpty | forEach => rfl

theorem get_sweepSegments (map : RefMap κ ν) (alive : RefMap κ ν → Liveness κ ν) (index : Nat)
    (indices : List Nat) :
    (map.sweepSegments alive indices).2.segments.get index =
      (map.segments.get index).played (map.sweepEdits alive index indices) := by
  induction indices generalizing map with
  | nil => rfl
  | cons first rest ih =>
      rw [sweepSegments, sweepEdits]
      refine (ih (map.sweepSegment (fun _ => alive) first).2).trans ?_
      rw [get_sweepSegment]
      by_cases here : first = index
      · subst here
        rw [if_pos rfl, if_pos rfl, SlotTable.played]
      · rw [if_neg here, if_neg (Ne.symm here)]

theorem segments_purge (map : RefMap κ ν) (alive : RefMap κ ν → Liveness κ ν) :
    (map.purge alive).2.segments =
      (map.sweepSegments alive (List.range map.used.length)).2.segments := by
  unfold purge
  dsimp only
  split <;> rfl

/-- To clear a map is to clear the segments that have been used. The others are blank. -/
theorem get_clear (map : RefMap κ ν) (index : Nat) :
    map.clear.segments.get index =
      if index < map.used.length then (map.segments.get index).clear
      else map.segments.get index := by
  show ((map.segments.written.map SlotTable.clear)[index]?).getD default = _
  rw [List.getElem?_map]
  split
  next inside =>
    have inside : index < map.segments.written.length := inside
    rw [Table.get, List.getElem?_eq_getElem inside]
    rfl
  next outside =>
    have outside : map.segments.written.length ≤ index := Nat.le_of_not_lt outside
    rw [Table.get, List.getElem?_eq_none outside]
    rfl

/-! ## Tended segments -/

/-- Go through a call. What it answers makes no difference to the segments. -/
def attended (map : RefMap κ ν) (request : Moments κ ν × Call κ ν) : Unit × RefMap κ ν :=
  ((), map.after request.1 request.2)

theorem tended_changes (map : RefMap κ ν) (moments : Moments κ ν) (lookup : Lookup κ ν)
    (call : Call κ ν) : Tended true (map.changes moments lookup call) := by
  unfold changes
  repeat' split
  all_goals first
    | exact trivial
    | exact SlotTable.tended_insert _
    | exact SlotTable.tended_of_adds_eq_false rfl
    | exact ⟨nofun, SlotTable.tended_insert _⟩

theorem tended_sweepEdits (map : RefMap κ ν) (alive : RefMap κ ν → Liveness κ ν) (index : Nat)
    (indices : List Nat) (settled : Bool) :
    Tended settled (map.sweepEdits alive index indices) := by
  induction indices generalizing map settled with
  | nil => trivial
  | cons first rest ih =>
      rw [sweepEdits]
      split
      · exact ⟨nofun, ih _ _⟩
      · exact ih _ _

/-- **Each segment of a reference map is tended.** -/
theorem tends (index : Nat) :
    Tends (attended (κ := κ) (ν := ν)) (fun map => map.segments.get index) (editsAt index) where
  plays map request := by
    obtain ⟨moments, call⟩ := request
    show (map.after moments call).segments.get index = _
    cases sought : call.sought? with
    | some key =>
        rw [map.get_after moments sought, get_edit, get_lookup, get_lookup]
        simp only [editsAt, sought]
        by_cases here : map.home key = index
        · subst here
          have home : (map.lookup moments key).index = map.home key := rfl
          rw [if_pos home.symm, if_pos rfl, if_pos home, home, SlotTable.played]
        · have home : index ≠ (map.lookup moments key).index := Ne.symm here
          rw [if_neg home, if_neg here, if_neg (Ne.symm here)]
          rfl
    | none =>
        simp only [editsAt, sought]
        cases whole : call.settles with
        | false =>
            rw [map.get_after_of_sought?_eq_none moments sought whole]
            cases call <;> first | rfl | cases whole
        | true =>
            cases call with
            | clear =>
                refine (map.get_clear index).trans ?_
                split <;> rfl
            | purge =>
                show (map.purge moments.use).2.segments.get index = _
                rw [segments_purge, get_sweepSegments]
            | _ => cases whole
  tended map request := by
    obtain ⟨moments, call⟩ := request
    simp only [editsAt]
    cases call.sought? with
    | some key =>
        dsimp only
        split
        · exact SlotTable.tended_tend (map.tended_changes moments _ call)
        · trivial
    | none =>
        cases call with
        | clear =>
            dsimp only
            split
            · exact SlotTable.tended_of_adds_eq_false rfl
            · trivial
        | purge => exact map.tended_sweepEdits _ _ _ _
        | _ => trivial

/-- A map that has been made has no mappings yet. -/
theorem segments_of_make? {keying : Keying κ} {sameValue : ν → ν → Bool} {options : RefMapOptions}
    {map : RefMap κ ν} (made : make? keying sameValue options = some (.ok map)) :
    map.segments = {} := by
  unfold make? at made
  split at made
  · obtain ⟨count, -, same⟩ := Option.map_eq_some_iff.mp made
    obtain rfl := Except.ok.inj same
    rfl
  · cases made

end Collections.Weak.RefMap
