import Collections.Proofs.Weak.RefMap.Course
import Collections.Proofs.Weak.RefMap.PlainMap

/-!
# What a call settles about its key

A call that edits one key looks the key up, and then does something about the mapping that it has
found and about no other. Which mapping of the key is there afterwards, and what the call answers,
depends on the mapping that was found and on the value that it had left when it was used
(`RefMap.settle`). That value is missing if it was reclaimed after the search.

The calls differ in this alone (`RefMap.Placed.settles`).
-/

set_option autoImplicit false

namespace Collections.Weak

variable {κ ν : Type}

namespace Call

/-- Whether a call is one of those that edit one key. -/
def edits : Call κ ν → Bool
  | .put _ _ | .putIfAbsent _ _ | .replace _ _ | .replaceIf _ _ _ | .erase _ | .removeIf _ _ => true
  | _ => false

/-- The calls that look a key up. -/
theorem cases_of_sought? {call : Call κ ν} {key : κ} (sought : call.sought? = some key) :
    (∃ value, call = .put (some key) (some value)) ∨
      (∃ value, call = .putIfAbsent (some key) (some value)) ∨
      (∃ value, call = .replace key (some value)) ∨
      (∃ old new, call = .replaceIf key old (some new)) ∨
      call = .erase key ∨ ∃ value, call = .removeIf key value := by
  unfold sought? at sought
  split at sought <;> cases sought <;> simp

end Call

namespace RefMap

/-! ## Answers -/

/-- Answer a call, with an account of what is alive at each of its moments. -/
def answer (map : RefMap κ ν) (moments : Moments κ ν) : Call κ ν → Reply κ ν × RefMap κ ν
  | .put key value => (map.put moments key value).map (.ofExcept .value) id
  | .putIfAbsent key value => (map.putIfAbsent moments key value).map (.ofExcept .value) id
  | .replace key value => (map.replace moments key value).map (.ofExcept .value) id
  | .replaceIf key old new => (map.replaceIf moments key old new).map (.ofExcept .flag) id
  | .erase key => (map.erase moments key).map .value id
  | .removeIf key value => (map.removeIf moments key value).map .flag id
  | call => map.respond moments.use call

/-- A call during which nothing is reclaimed but what the map lets go of is answered as ever. -/
theorem answer_following (map : RefMap κ ν) (alive : RefMap κ ν → Liveness κ ν)
    (call : Call κ ν) : map.answer (.following alive) call = map.respond alive call := by
  cases call <;> rfl

/-- A call without a key, or without a value where it needs one, fails, and looks nothing up. -/
theorem answer_of_sought?_eq_none (map : RefMap κ ν) {call : Call κ ν} (edits : call.edits = true)
    (nothing : call.sought? = none) :
    ∃ cause, ∀ moments, map.answer moments call = (.failed cause, map.say (.emitted cause)) := by
  cases call with
  | put key value | putIfAbsent key value =>
      cases key with
      | none => exact ⟨_, fun _ => rfl⟩
      | some key =>
          cases value with
          | none => exact ⟨_, fun _ => rfl⟩
          | some value => cases nothing
  | replace key value | replaceIf key old value =>
      cases value with
      | none => exact ⟨_, fun _ => rfl⟩
      | some value => cases nothing
  | erase | removeIf => cases nothing
  | get | containsKey | size | isEmpty | clear | purge | forEach => cases edits

/-! ## Settling -/

/-- What a call answers that has found a mapping with what was left of its value, and which mapping
takes the place of that one. -/
def settle (map : RefMap κ ν) (call : Call κ ν) (found : Option (Mapping κ ν × Option ν)) :
    Reply κ ν × Option (Mapping κ ν) :=
  match call with
  | .put (some key) (some value) =>
      match found with
      | none => (.value none, some (map.mapping key value))
      | some (mapping, previous) => (.value previous, some (mapping.withValue value))
  | .putIfAbsent (some key) (some value) =>
      match found with
      | some (mapping, some existing) => (.value (some existing), some mapping)
      | _ => (.value none, some (map.mapping key value))
  | .replace _ (some value) =>
      match found with
      | some (mapping, some previous) => (.value (some previous), some (mapping.withValue value))
      | _ => (.value none, found.map (·.1))
  | .replaceIf _ old (some new) =>
      match found with
      | none => (.flag false, none)
      | some (mapping, value) =>
          if map.agree value old then (.flag true, some (mapping.withValue new))
          else (.flag false, some mapping)
  | .erase _ => (.value (found.bind (·.2)), none)
  | .removeIf _ wish =>
      match found with
      | none => (.flag false, none)
      | some (mapping, value) =>
          if map.agree value wish then (.flag true, none) else (.flag false, some mapping)
  | _ => (.done, found.map (·.1))

/-- The mapping that a call finds in its course, and what is left of its value when it is used. -/
def caught (map : RefMap κ ν) (course : Course κ ν) (key : κ) : Option (Mapping κ ν × Option ν) :=
  (map.lookup course.moments key).found.map fun (_, mapping) =>
    (mapping, mapping.value.get? course.last.value)

/-- After a look-up a map has some mapping in the place of the one that was found, and the rest as it
was. -/
structure Lookup.Leaves (lookup : Lookup κ ν) (kept : Option (Mapping κ ν)) (after : RefMap κ ν) :
    Prop where
  settings : after.settings = lookup.map.settings
  placed : after.Placed
  stored : ∃ rest,
    lookup.map.stored.Perm ((lookup.found.map (·.2)).toList ++ rest) ∧
      after.stored.Perm (kept.toList ++ rest)

namespace Searched

variable {map : RefMap κ ν} {course : Course κ ν} {key : κ} {lookup : Lookup κ ν} {position : Nat}
  {mapping other : Mapping κ ν}

/-- Beside the mapping that was found there is the rest, whatever becomes of that one. -/
theorem exists_rest (searched : Searched map course key lookup)
    (found : lookup.found = some (position, mapping)) :
    ∃ rest, lookup.map.stored.Perm ((lookup.found.map (·.2)).toList ++ rest) ∧
      (∀ other, (lookup.edit (·.setAt position other)).stored.Perm (other :: rest)) ∧
      (lookup.edit (·.eraseAt position)).stored.Perm rest ∧
      ∀ other, (lookup.edit fun table => (table.eraseAt position).insert other).stored.Perm
        (other :: rest) := by
  obtain ⟨others, before, after⟩ := lookup.map.exists_others lookup.index
  obtain ⟨rest, parts, overwritten, erased⟩ :=
    SlotTable.exists_rest (searched.hit _ _ found).1
  rw [found]
  refine ⟨rest ++ others, before.trans (parts.append_right others), fun other => ?_, ?_,
    fun other => ?_⟩
  · exact (after _).trans ((overwritten other).append_right others)
  · exact (after _).trans (erased.append_right others)
  · exact (after _).trans ((erased.cons other).append_right others)

theorem fits_of_hit (searched : Searched map course key lookup)
    (found : lookup.found = some (position, mapping)) :
    lookup.map.Fits lookup.index mapping :=
  searched.placed _ mapping (List.mem_of_getElem? (searched.hit _ _ found).1)

theorem fits_mapping (searched : Searched map course key lookup) (value : ν) :
    lookup.map.Fits lookup.index (map.mapping key value) := by
  have fits : map.Fits (map.home key) (map.mapping key value) := ⟨rfl, rfl, rfl, rfl⟩
  rw [searched.index, home_of_settings searched.settings]
  exact fits.of_settings searched.settings

theorem leaves_all (searched : Searched map course key lookup) :
    lookup.Leaves (lookup.found.map (·.2)) lookup.map := by
  refine ⟨rfl, searched.placed, ?_⟩
  cases found : lookup.found with
  | none => exact ⟨lookup.map.stored, .refl _, .refl _⟩
  | some hit =>
      obtain ⟨rest, parts, -⟩ := searched.exists_rest found
      rw [found] at parts
      exact ⟨rest, parts, parts⟩

theorem leaves_inserted (searched : Searched map course key lookup) (nothing : lookup.found = none)
    (value : ν) :
    lookup.Leaves (some (map.mapping key value))
      (lookup.edit (·.insert (map.mapping key value))) := by
  refine ⟨rfl, searched.placed.withSegment fun other member => ?_, lookup.map.stored, ?_, ?_⟩
  · rcases List.mem_cons.mp member with rfl | inSegment
    · exact searched.fits_mapping value
    · exact searched.placed _ other inSegment
  · rw [nothing]
    exact .refl _
  · obtain ⟨others, before, after⟩ := lookup.map.exists_others lookup.index
    exact (after _).trans (before.symm.cons _)

theorem leaves_revalued (searched : Searched map course key lookup)
    (found : lookup.found = some (position, mapping)) (value : ν) :
    lookup.Leaves (some (mapping.withValue value))
      (lookup.edit (·.setAt position (mapping.withValue value))) := by
  obtain ⟨rest, parts, revalued, -, -⟩ := searched.exists_rest found
  refine ⟨rfl, searched.placed.withSegment fun other member => ?_, rest, parts, revalued _⟩
  rcases List.mem_or_eq_of_mem_set member with inSegment | rfl
  · exact searched.placed _ other inSegment
  · have fits := searched.fits_of_hit found
    exact ⟨fits.hash, fits.home, fits.keyKind, fits.valueKind⟩

theorem leaves_erased (searched : Searched map course key lookup)
    (found : lookup.found = some (position, mapping)) :
    lookup.Leaves none (lookup.edit (·.eraseAt position)) := by
  obtain ⟨rest, parts, -, erased, -⟩ := searched.exists_rest found
  refine ⟨rfl, searched.placed.withSegment fun other member => ?_, rest, parts, erased⟩
  exact searched.placed _ other (List.mem_of_mem_eraseIdx member)

theorem leaves_renewed (searched : Searched map course key lookup)
    (found : lookup.found = some (position, mapping)) (value : ν) :
    lookup.Leaves (some (map.mapping key value))
      (lookup.edit fun table =>
        (table.eraseAt position).insert (map.mapping key value)) := by
  obtain ⟨rest, parts, -, -, renewed⟩ := searched.exists_rest found
  refine ⟨rfl, searched.placed.withSegment fun other member => ?_, rest, parts, renewed _⟩
  rcases List.mem_cons.mp member with rfl | inSegment
  · exact searched.fits_mapping value
  · exact searched.placed _ other (List.mem_of_mem_eraseIdx inSegment)

end Searched

/-! ## The calls -/

/-- A call answers, and leaves in its map, what is settled by what it has found. -/
structure Settles (map : RefMap κ ν) (course : Course κ ν) (call : Call κ ν) (key : κ) : Prop where
  reply : (map.answer course.moments call).1 =
    (map.settle call (map.caught course key)).1
  leaves : (map.lookup course.moments key).Leaves
    (map.settle call (map.caught course key)).2
    (map.answer course.moments call).2

section Calls

variable {map : RefMap κ ν} {course : Course κ ν} {call : Call κ ν} {key : κ}

theorem Settles.intro (reply : Reply κ ν) {kept : Option (Mapping κ ν)} {after : RefMap κ ν}
    (answered : map.answer course.moments call = (reply, after))
    (settled : map.settle call (map.caught course key) =
      (reply, kept))
    (leaves : (map.lookup course.moments key).Leaves kept after) :
    Settles map course call key := by
  constructor
  · rw [answered, settled]
  · rw [answered, settled]
    exact leaves

theorem caught_eq (map : RefMap κ ν) (course : Course κ ν) (key : κ) :
    map.caught course key =
      (map.lookup course.moments key).found.map fun (_, mapping) =>
        (mapping, (map.lookup course.moments key).value? course.moments mapping) :=
  rfl

theorem Placed.settles_put (placed : map.Placed) (value : ν) :
    Settles map course (.put (some key) (some value)) key := by
  have searched := placed.searched course key
  rcases found : (map.lookup course.moments key).found with _ | ⟨position, mapping⟩
  · refine .intro (.value none) ?_ ?_ (searched.leaves_inserted found value)
    · simp only [answer, put, found]
      rfl
    · simp only [settle, caught_eq, found, Option.map_none]
  · refine .intro (.value (mapping.value.get? course.last.value)) ?_ ?_
      (searched.leaves_revalued found value)
    · simp only [answer, put, found]
      rfl
    · simp only [settle, caught, found, Option.map_some]

theorem Placed.settles_putIfAbsent (placed : map.Placed) (value : ν) :
    Settles map course (.putIfAbsent (some key) (some value)) key := by
  have searched := placed.searched course key
  rcases found : (map.lookup course.moments key).found with _ | ⟨position, mapping⟩
  · refine .intro (.value none) ?_ ?_ (searched.leaves_inserted found value)
    · simp only [answer, putIfAbsent, found]
      rfl
    · simp only [settle, caught_eq, found, Option.map_none]
  · cases left : (map.lookup course.moments key).value? course.moments mapping with
    | none =>
        refine .intro (.value none) ?_ ?_ (searched.leaves_renewed found value)
        · simp only [answer, putIfAbsent, found, left]
          rfl
        · simp only [settle, caught_eq, found, left, Option.map_some]
    | some existing =>
        refine .intro (.value (some existing)) ?_ ?_ searched.leaves_all
        · simp only [answer, putIfAbsent, found, left]
          rfl
        · simp only [settle, caught_eq, found, left, Option.map_some]

theorem Placed.settles_replace (placed : map.Placed) (value : ν) :
    Settles map course (.replace key (some value)) key := by
  have searched := placed.searched course key
  rcases found : (map.lookup course.moments key).found with _ | ⟨position, mapping⟩
  · refine .intro (.value none) ?_ ?_ searched.leaves_all
    · simp only [answer, replace, found]
      rfl
    · simp only [settle, caught_eq, found, Option.map_none]
  · cases left : (map.lookup course.moments key).value? course.moments mapping with
    | none =>
        refine .intro (.value none) ?_ ?_ searched.leaves_all
        · simp only [answer, replace, found, left]
          rfl
        · simp only [settle, caught_eq, found, left, Option.map_some]
    | some previous =>
        refine .intro (.value (some previous)) ?_ ?_ (searched.leaves_revalued found value)
        · simp only [answer, replace, found, left]
          rfl
        · simp only [settle, caught_eq, found, left, Option.map_some]

theorem Placed.settles_replaceIf (placed : map.Placed) (old : Option ν) (new : ν) :
    Settles map course (.replaceIf key old (some new)) key := by
  have searched := placed.searched course key
  rcases found : (map.lookup course.moments key).found with _ | ⟨position, mapping⟩
  · refine .intro (.flag false) ?_ ?_ searched.leaves_all
    · simp only [answer, replaceIf, found]
      rfl
    · simp only [settle, caught_eq, found, Option.map_none]
  · cases equal : map.agree ((map.lookup course.moments key).value? course.moments mapping) old with
    | false =>
        refine .intro (.flag false) ?_ ?_ searched.leaves_all
        · simp only [answer, replaceIf, found, equal]
          rfl
        · simp only [settle, caught_eq, found, equal, Option.map_some]
          rfl
    | true =>
        refine .intro (.flag true) ?_ ?_ (searched.leaves_revalued found new)
        · simp only [answer, replaceIf, found, equal]
          rfl
        · simp only [settle, caught_eq, found, equal, Option.map_some]
          rfl

theorem Placed.settles_erase (placed : map.Placed) : Settles map course (.erase key) key := by
  have searched := placed.searched course key
  rcases found : (map.lookup course.moments key).found with _ | ⟨position, mapping⟩
  · have leaves := searched.leaves_all
    rw [found] at leaves
    refine .intro (.value none) ?_ ?_ leaves
    · simp only [answer, erase, found]
      rfl
    · simp only [settle, caught_eq, found, Option.map_none]
      rfl
  · refine .intro (.value (mapping.value.get? course.last.value)) ?_ ?_
      (searched.leaves_erased found)
    · simp only [answer, erase, found]
      rfl
    · simp only [settle, caught_eq, found, Option.map_some]
      rfl

theorem Placed.settles_removeIf (placed : map.Placed) (value : Option ν) :
    Settles map course (.removeIf key value) key := by
  have searched := placed.searched course key
  rcases found : (map.lookup course.moments key).found with _ | ⟨position, mapping⟩
  · refine .intro (.flag false) ?_ ?_ searched.leaves_all
    · simp only [answer, removeIf, found]
      rfl
    · simp only [settle, caught_eq, found, Option.map_none]
  · cases equal :
        map.agree ((map.lookup course.moments key).value? course.moments mapping) value with
    | false =>
        refine .intro (.flag false) ?_ ?_ searched.leaves_all
        · simp only [answer, removeIf, found, equal]
          rfl
        · simp only [settle, caught_eq, found, equal, Option.map_some]
          rfl
    | true =>
        refine .intro (.flag true) ?_ ?_ (searched.leaves_erased found)
        · simp only [answer, removeIf, found, equal]
          rfl
        · simp only [settle, caught_eq, found, equal, Option.map_some]
          rfl

/-- **A call on a key is settled by the mapping that it finds.** -/
theorem Placed.settles (placed : map.Placed) (course : Course κ ν)
    (sought : call.sought? = some key) : Settles map course call key := by
  obtain ⟨value, rfl⟩ | ⟨value, rfl⟩ | ⟨value, rfl⟩ | ⟨old, new, rfl⟩ | rfl | ⟨value, rfl⟩ :=
    Call.cases_of_sought? sought
  · exact placed.settles_put value
  · exact placed.settles_putIfAbsent value
  · exact placed.settles_replace value
  · exact placed.settles_replaceIf old new
  · exact placed.settles_erase
  · exact placed.settles_removeIf value

end Calls

end RefMap

end Collections.Weak
