import Collections.Proofs.Weak.RefMap.PlainMap
import Collections.Proofs.Weak.RefMap.SegmentCount

/-!
# A reference map answers as a plain map

A plain map mirrors a reference map in use (`Mirrors`) if, up to order, its pairs are those of the
stored mappings and of the mappings that were thrown out on the way, none of which is present any
more, and if no two present pairs are of the same key. The sweep at the beginning of a call keeps
to that, and so does everything that happens afterwards (`Mirrors.step`). Hence a reference map
answers every run as a plain map does (`refMap_refines_plainMap`), whatever its segments, its
kinds of references and its hashes are.

The count of a requested sweep is the one answer in which segments show, since it leaves out what
the map has thrown out on its own (`requested_sweep_misses_crowded`).
-/

set_option autoImplicit false

namespace Collections.Weak

variable {κ ν : Type}

/-- A plain map compares and refers as a reference map does. -/
structure PlainMap.Suits (plain : PlainMap κ ν) (map : RefMap κ ν) : Prop where
  same : plain.same = map.keying.same
  sameValue : plain.sameValue = map.sameValue
  keyKind : plain.keyKind = map.keyKind
  valueKind : plain.valueKind = map.valueKind

theorem PlainMap.Suits.of_settings {plain : PlainMap κ ν} {map other : RefMap κ ν}
    (suits : plain.Suits map) (same : other.settings = map.settings) : plain.Suits other := by
  have transferred : plain.Suits map.settings :=
    ⟨suits.same, suits.sameValue, suits.keyKind, suits.valueKind⟩
  rw [← same] at transferred
  exact ⟨transferred.same, transferred.sameValue, transferred.keyKind, transferred.valueKind⟩

/-- The pairs of a plain map play no part in how it compares and refers. -/
theorem PlainMap.Suits.withPairs {plain : PlainMap κ ν} {map : RefMap κ ν} (suits : plain.Suits map)
    (pairs : List (κ × ν)) : ({ plain with pairs } : PlainMap κ ν).Suits map :=
  ⟨suits.same, suits.sameValue, suits.keyKind, suits.valueKind⟩

/-- A plain map mirrors a reference map in use. -/
structure Mirrors (usage : Usage κ ν) (plain : PlainMap κ ν) : Prop where
  suits : plain.Suits usage.map
  owned : Liveness.Alike plain.keyKind plain.valueKind usage.owned plain.owned
  placed : usage.map.Placed
  pairs : ∃ thrown, plain.pairs.Perm (usage.map.stored.map Mapping.pair ++ thrown) ∧
    (∀ pair ∈ thrown, plain.present pair = false) ∧ thrown.length = usage.swept
  unique : plain.Unique

namespace Mirrors

variable {usage : Usage κ ν} {plain : PlainMap κ ν} {mapping : Mapping κ ν}

theorem present_eq (mirrors : Mirrors usage plain) {index : Nat}
    (fits : usage.map.Fits index mapping) :
    plain.present mapping.pair = mapping.live usage.owned := by
  have alike := mirrors.owned
  rw [mirrors.suits.keyKind, mirrors.suits.valueKind] at alike
  rw [fits.live_congr alike, PlainMap.present, Mapping.live, Slot.expired, Slot.expired,
    mirrors.suits.keyKind, mirrors.suits.valueKind, fits.keyKind, fits.valueKind]
  rfl

theorem present_of_stored (mirrors : Mirrors usage plain) (member : mapping ∈ usage.map.stored) :
    plain.present mapping.pair = mapping.live usage.owned := by
  obtain ⟨index, fits⟩ := mirrors.placed.exists_fits member
  exact mirrors.present_eq fits

/-- The map may be replaced by one that stores fewer stale mappings. -/
theorem of_gone (mirrors : Mirrors usage plain) {map : RefMap κ ν} {more : Nat}
    (settings : map.settings = usage.map.settings) (placed : map.Placed)
    (gone : ∃ gone, usage.map.stored.Perm (map.stored ++ gone) ∧
      (∀ mapping ∈ gone, mapping.live usage.owned = false) ∧ gone.length = more) :
    Mirrors { usage with map, swept := usage.swept + more } plain := by
  obtain ⟨thrown, parts, absent, counted⟩ := mirrors.pairs
  obtain ⟨gone, stored, stale, goneCounted⟩ := gone
  refine ⟨mirrors.suits.of_settings settings, mirrors.owned, placed,
    ⟨gone.map Mapping.pair ++ thrown, ?_, ?_, ?_⟩, mirrors.unique⟩
  · refine parts.trans ?_
    rw [← List.append_assoc, ← List.map_append]
    exact (stored.map _).append_right thrown
  · intro pair member
    rcases List.mem_append.mp member with inGone | inThrown
    · obtain ⟨mapping, isGone, rfl⟩ := List.mem_map.mp inGone
      have inStored : mapping ∈ usage.map.stored :=
        stored.mem_iff.mpr (List.mem_append_right _ isGone)
      rw [mirrors.present_of_stored inStored, stale mapping isGone]
    · exact absent pair inThrown
  · rw [List.length_append, List.length_map, goneCounted, counted, Nat.add_comm]

/-- A notice changes nothing. -/
theorem say (mirrors : Mirrors usage plain) (notice : Log.Notice) :
    Mirrors { usage with map := usage.map.say notice } plain :=
  ⟨mirrors.suits.of_settings rfl, mirrors.owned, mirrors.placed.say notice, mirrors.pairs,
    mirrors.unique⟩

/-- A new map is mirrored by a list without pairs. -/
theorem start (map : RefMap κ ν) (unused : map.segments = {}) :
    Mirrors { map } { same := map.keying.same, sameValue := map.sameValue,
                      keyKind := map.keyKind, valueKind := map.valueKind } := by
  have nothing : map.stored = [] := by
    rw [RefMap.stored, RefMap.used, unused]
    rfl
  refine ⟨⟨rfl, rfl, rfl, rfl⟩, .refl _, RefMap.placed_of_stored_eq_nil nothing,
    ⟨[], ?_, fun _ none => absurd none List.not_mem_nil, rfl⟩, List.Pairwise.nil⟩
  show List.Perm [] (map.stored.map Mapping.pair ++ [])
  rw [nothing]
  exact List.Perm.refl _

/-- The sweep at the beginning of a call goes unnoticed. -/
theorem freshened (mirrors : Mirrors usage plain) (key : κ) :
    Mirrors { usage with
      map := usage.map.freshened usage.owned key
      swept := usage.swept + usage.map.sweptFor usage.owned key } plain :=
  mirrors.of_gone (usage.map.settings_freshened usage.owned key)
    (mirrors.placed.freshened usage.owned key)
    (usage.map.exists_gone_freshened usage.owned key)

/-! ## One key -/

section OneKey

variable [DecidableEq κ] [DecidableEq ν] {key : κ} {position : Nat}

/-- Where the map finds nothing, neither does the plain map. -/
theorem find?_of_miss (mirrors : Mirrors usage plain)
    (missed : usage.map.hit usage.owned key = none) : plain.find? key = none := by
  obtain ⟨thrown, parts, absent, -⟩ := mirrors.pairs
  refine List.find?_eq_none.mpr fun pair member => ?_
  rw [PlainMap.isOf]
  rcases List.mem_append.mp (parts.mem_iff.mp member) with inStored | inThrown
  · obtain ⟨mapping, stored, rfl⟩ := List.mem_map.mp inStored
    rw [mirrors.present_of_stored stored, mirrors.suits.same]
    cases live : mapping.live usage.owned with
    | false => exact Bool.false_ne_true
    | true =>
        have differ := mirrors.placed.of_hit_eq_none missed stored live
        rw [Mapping.pair, differ]
        exact Bool.false_ne_true
  · rw [absent pair inThrown]
    exact Bool.false_ne_true

/-- What the map finds is a present pair of the plain map, and beside it stands the rest. -/
theorem exists_others (mirrors : Mirrors usage plain)
    (found : usage.map.hit usage.owned key = some (position, mapping)) :
    plain.isOf key mapping.pair = true ∧
      ∃ rest thrown, usage.map.stored.Perm (mapping :: rest) ∧
        (∀ value, (usage.map.revalued key position mapping value).stored.Perm
          (mapping.withValue value :: rest)) ∧
        (usage.map.erased key position).stored.Perm rest ∧
        plain.pairs.Perm (mapping.pair :: (rest.map Mapping.pair ++ thrown)) ∧
        (∀ pair ∈ thrown, plain.present pair = false) ∧ thrown.length = usage.swept := by
  obtain ⟨there, live, same⟩ := mirrors.placed.of_hit_eq_some found
  obtain ⟨thrown, parts, absent, counted⟩ := mirrors.pairs
  obtain ⟨rest, before, revalued, erased⟩ := RefMap.exists_rest there
  have inStored : mapping ∈ usage.map.stored := before.mem_iff.mpr List.mem_cons_self
  refine ⟨?_, rest, thrown, before, revalued, erased, ?_, absent, counted⟩
  · rw [PlainMap.isOf, mirrors.present_of_stored inStored, live, Bool.true_and,
      mirrors.suits.same]
    exact same
  · exact parts.trans ((before.map Mapping.pair).append_right thrown)

theorem find?_of_hit (mirrors : Mirrors usage plain)
    (found : usage.map.hit usage.owned key = some (position, mapping)) :
    plain.find? key = some mapping.pair := by
  obtain ⟨isOf, rest, thrown, -, -, -, parts, -⟩ := mirrors.exists_others found
  exact mirrors.unique.find?_eq_some mirrors.suits.same parts isOf

theorem hasValue_of_miss (mirrors : Mirrors usage plain)
    (missed : usage.map.hit usage.owned key = none) (value : Option ν) :
    plain.hasValue key value = false := by
  rw [PlainMap.hasValue, mirrors.find?_of_miss missed]
  rfl

theorem hasValue_of_hit (mirrors : Mirrors usage plain)
    (found : usage.map.hit usage.owned key = some (position, mapping)) (value : Option ν) :
    plain.hasValue key value = value.any (plain.sameValue mapping.value.target) := by
  rw [PlainMap.hasValue, mirrors.find?_of_hit found]
  rfl

theorem inserted (mirrors : Mirrors usage plain)
    (missed : usage.map.hit usage.owned key = none) (value : ν) :
    Mirrors { usage with map := usage.map.inserted key value } (plain.insert key value) := by
  obtain ⟨thrown, parts, absent, counted⟩ := mirrors.pairs
  refine ⟨(mirrors.suits.withPairs _).of_settings rfl, mirrors.owned,
    mirrors.placed.inserted key value, ⟨thrown, ?_, absent, counted⟩,
    mirrors.unique.insert mirrors.suits.same (mirrors.find?_of_miss missed) value⟩
  have stored := ((usage.map.stored_inserted key value).map Mapping.pair).append_right thrown
  exact (parts.cons (key, value)).trans stored.symm

theorem revalued (mirrors : Mirrors usage plain)
    (found : usage.map.hit usage.owned key = some (position, mapping)) (value : ν) :
    Mirrors { usage with map := usage.map.revalued key position mapping value }
      (plain.setValue key value) := by
  obtain ⟨isOf, rest, thrown, -, revalued, -, parts, absent, counted⟩ :=
    mirrors.exists_others found
  obtain ⟨there, -, -⟩ := mirrors.placed.of_hit_eq_some found
  refine ⟨(mirrors.suits.withPairs _).of_settings rfl, mirrors.owned,
    mirrors.placed.revalued there value, ⟨thrown, ?_, absent, counted⟩,
    mirrors.unique.setValue mirrors.suits.same parts isOf value⟩
  have stored := ((revalued value).map Mapping.pair).append_right thrown
  exact (mirrors.unique.setValue_perm mirrors.suits.same parts isOf value).trans stored.symm

theorem erased (mirrors : Mirrors usage plain)
    (found : usage.map.hit usage.owned key = some (position, mapping)) :
    Mirrors { usage with map := usage.map.erased key position } (plain.remove key) := by
  obtain ⟨isOf, rest, thrown, -, -, erased, parts, absent, counted⟩ := mirrors.exists_others found
  refine ⟨(mirrors.suits.withPairs _).of_settings rfl, mirrors.owned,
    mirrors.placed.erased key position, ⟨thrown, ?_, absent, counted⟩,
    mirrors.unique.of_sublist List.filter_sublist⟩
  have stored := (erased.map Mapping.pair).append_right thrown
  exact (mirrors.unique.remove_perm mirrors.suits.same parts isOf).trans stored.symm

/-- Without a present pair of a key there is nothing to remove. -/
theorem remove_of_miss (mirrors : Mirrors usage plain)
    (missed : usage.map.hit usage.owned key = none) : plain.remove key = plain :=
  PlainMap.remove_of_find?_eq_none (mirrors.find?_of_miss missed)

end OneKey

/-! ## Calls -/

section Calls

variable [DecidableEq κ] [DecidableEq ν]

/-- A map and a plain map answer alike, and the plain one mirrors the other one afterwards. -/
structure Matches (swept : Nat) (answer : Reply κ ν × Usage κ ν)
    (other : Reply κ ν × PlainMap κ ν) : Prop where
  agrees : Reply.Agrees swept answer.1 other.1
  mirrors : Mirrors answer.2 other.2

theorem put (mirrors : Mirrors usage plain) (key : κ) (value : ν) :
    Matches usage.swept (usage.step (.call (.put (some key) (some value))))
      (plain.respond (.put (some key) (some value))) := by
  have fresh := mirrors.freshened key
  simp only [Usage.step, RefMap.respond, mirrors.placed.put_eq, PlainMap.respond]
  cases hit : (usage.map.freshened usage.owned key).hit usage.owned key with
  | none =>
      rw [fresh.find?_of_miss hit]
      exact ⟨rfl, fresh.inserted hit value⟩
  | some found =>
      rw [fresh.find?_of_hit hit]
      exact ⟨rfl, fresh.revalued hit value⟩

theorem putIfAbsent (mirrors : Mirrors usage plain) (key : κ) (value : ν) :
    Matches usage.swept (usage.step (.call (.putIfAbsent (some key) (some value))))
      (plain.respond (.putIfAbsent (some key) (some value))) := by
  have fresh := mirrors.freshened key
  simp only [Usage.step, RefMap.respond, mirrors.placed.putIfAbsent_eq, PlainMap.respond]
  cases hit : (usage.map.freshened usage.owned key).hit usage.owned key with
  | none =>
      rw [fresh.find?_of_miss hit]
      exact ⟨rfl, fresh.inserted hit value⟩
  | some found =>
      rw [fresh.find?_of_hit hit]
      exact ⟨rfl, fresh⟩

theorem replace (mirrors : Mirrors usage plain) (key : κ) (value : ν) :
    Matches usage.swept (usage.step (.call (.replace key (some value))))
      (plain.respond (.replace key (some value))) := by
  have fresh := mirrors.freshened key
  simp only [Usage.step, RefMap.respond, mirrors.placed.replace_eq, PlainMap.respond]
  cases hit : (usage.map.freshened usage.owned key).hit usage.owned key with
  | none =>
      rw [fresh.find?_of_miss hit]
      exact ⟨rfl, fresh⟩
  | some found =>
      rw [fresh.find?_of_hit hit]
      exact ⟨rfl, fresh.revalued hit value⟩

theorem replaceIf (mirrors : Mirrors usage plain) (key : κ) (old : Option ν) (new : ν) :
    Matches usage.swept (usage.step (.call (.replaceIf key old (some new))))
      (plain.respond (.replaceIf key old (some new))) := by
  have fresh := mirrors.freshened key
  simp only [Usage.step, RefMap.respond, mirrors.placed.replaceIf_eq, PlainMap.respond]
  cases hit : (usage.map.freshened usage.owned key).hit usage.owned key with
  | none =>
      rw [fresh.hasValue_of_miss hit]
      exact ⟨rfl, fresh⟩
  | some found =>
      rw [fresh.hasValue_of_hit hit, mirrors.suits.sameValue]
      by_cases equal : old.any (usage.map.sameValue found.2.value.target) = true
      · simp only [equal, if_true]
        exact ⟨rfl, fresh.revalued hit new⟩
      · simp only [equal]
        exact ⟨rfl, fresh⟩

theorem erase (mirrors : Mirrors usage plain) (key : κ) :
    Matches usage.swept (usage.step (.call (.erase key))) (plain.respond (.erase key)) := by
  have fresh := mirrors.freshened key
  simp only [Usage.step, RefMap.respond, mirrors.placed.erase_eq, PlainMap.respond]
  cases hit : (usage.map.freshened usage.owned key).hit usage.owned key with
  | none =>
      rw [fresh.find?_of_miss hit, fresh.remove_of_miss hit]
      exact ⟨rfl, fresh⟩
  | some found =>
      rw [fresh.find?_of_hit hit]
      exact ⟨rfl, fresh.erased hit⟩

theorem removeIf (mirrors : Mirrors usage plain) (key : κ) (value : Option ν) :
    Matches usage.swept (usage.step (.call (.removeIf key value)))
      (plain.respond (.removeIf key value)) := by
  have fresh := mirrors.freshened key
  simp only [Usage.step, RefMap.respond, mirrors.placed.removeIf_eq, PlainMap.respond]
  cases hit : (usage.map.freshened usage.owned key).hit usage.owned key with
  | none =>
      rw [fresh.hasValue_of_miss hit]
      exact ⟨rfl, fresh⟩
  | some found =>
      rw [fresh.hasValue_of_hit hit, mirrors.suits.sameValue]
      by_cases equal : value.any (usage.map.sameValue found.2.value.target) = true
      · simp only [equal, if_true]
        exact ⟨rfl, fresh.erased hit⟩
      · simp only [equal]
        exact ⟨rfl, fresh⟩

theorem get?_eq (mirrors : Mirrors usage plain) (key : κ) :
    usage.map.get? usage.alive key = (plain.find? key).map (·.2) := by
  rw [Usage.alive, mirrors.placed.get?_eq]
  cases hit : usage.map.hit usage.owned key with
  | none =>
      rw [mirrors.find?_of_miss hit]
      rfl
  | some found =>
      rw [mirrors.find?_of_hit hit]
      rfl

/-- The live mappings are the present pairs. -/
theorem entries_perm (mirrors : Mirrors usage plain) : usage.entries.Perm plain.entries := by
  obtain ⟨thrown, parts, absent, -⟩ := mirrors.pairs
  have none : thrown.filter plain.present = [] :=
    List.filter_eq_nil_iff.mpr fun pair member => by simp [absent pair member]
  have visible : (usage.map.stored.map Mapping.pair).filter plain.present =
      (usage.map.stored.filter (Mapping.live usage.owned)).map Mapping.pair := by
    rw [List.filter_map]
    refine congrArg _ (List.filter_congr fun mapping member => ?_)
    exact mirrors.present_of_stored member
  rw [Usage.entries, Usage.alive, mirrors.placed.entries_eq, ← visible]
  have both := parts.filter plain.present
  rw [List.filter_append, none, List.append_nil] at both
  exact both.symm

theorem size_eq (mirrors : Mirrors usage plain) :
    usage.map.size usage.alive = usage.entries.length := by
  rw [Usage.entries, Usage.alive, mirrors.placed.size_eq, mirrors.placed.entries_eq,
    List.length_map, List.countP_eq_length_filter]

theorem clear (mirrors : Mirrors usage plain) :
    Matches usage.swept (usage.step (.call .clear)) (plain.respond .clear) := by
  have nothing := usage.map.stored_clear
  refine ⟨rfl, (mirrors.suits.withPairs _).of_settings rfl, mirrors.owned,
    RefMap.placed_of_stored_eq_nil nothing, ⟨[], ?_, ?_, rfl⟩, List.Pairwise.nil⟩
  · show List.Perm [] (usage.map.clear.stored.map Mapping.pair ++ [])
    rw [nothing]
    exact List.Perm.refl _
  · exact fun _ none => absurd none List.not_mem_nil

/-- A requested sweep finds what is stale, except what was thrown out before. -/
theorem purge (mirrors : Mirrors usage plain) :
    Matches usage.swept (usage.step (.call .purge)) (plain.respond .purge) := by
  obtain ⟨settings, placed, gone, clean⟩ := mirrors.placed.purge usage.owned
  have after := mirrors.of_gone settings placed gone
  obtain ⟨thrown, parts, absent, counted⟩ := after.pairs
  have visible : ∀ pair ∈ (usage.map.purge (RefMap.aliveWith usage.owned)).2.stored.map
      Mapping.pair, plain.present pair = true := by
    intro pair member
    obtain ⟨mapping, stored, rfl⟩ := List.mem_map.mp member
    rw [after.present_of_stored stored]
    exact clean mapping stored
  constructor
  · show (usage.map.purge (RefMap.aliveWith usage.owned)).1 + usage.swept =
      plain.pairs.countP fun pair => !plain.present pair
    have none : ((usage.map.purge (RefMap.aliveWith usage.owned)).2.stored.map
        Mapping.pair).countP (fun pair => !plain.present pair) = 0 :=
      List.countP_eq_zero.mpr fun pair member => by simp [visible pair member]
    have all : thrown.countP (fun pair => !plain.present pair) = thrown.length :=
      List.countP_eq_length.mpr fun pair member => by simp [absent pair member]
    have total : thrown.length =
      usage.swept + (usage.map.purge (RefMap.aliveWith usage.owned)).1 := counted
    rw [parts.countP_eq, List.countP_append, none, all, total]
    omega
  · refine ⟨after.suits.withPairs _, mirrors.owned, placed,
      ⟨[], ?_, fun _ none => absurd none List.not_mem_nil, rfl⟩,
      mirrors.unique.of_sublist List.filter_sublist⟩
    have left := parts.filter plain.present
    have none : thrown.filter plain.present = [] :=
      List.filter_eq_nil_iff.mpr fun pair member => by simp [absent pair member]
    rw [List.filter_append, List.filter_eq_self.mpr visible, none] at left
    exact left

/-- **Every call is answered as by the plain map.** -/
theorem respond (mirrors : Mirrors usage plain) (call : Call κ ν) :
    Matches usage.swept (usage.step (.call call)) (plain.respond call) := by
  cases call with
  | put key value =>
      rcases key with _ | key
      · exact ⟨rfl, mirrors.say _⟩
      · rcases value with _ | value
        · exact ⟨rfl, mirrors.say _⟩
        · exact mirrors.put key value
  | putIfAbsent key value =>
      rcases key with _ | key
      · exact ⟨rfl, mirrors.say _⟩
      · rcases value with _ | value
        · exact ⟨rfl, mirrors.say _⟩
        · exact mirrors.putIfAbsent key value
  | replace key value =>
      rcases value with _ | value
      · exact ⟨rfl, mirrors.say _⟩
      · exact mirrors.replace key value
  | replaceIf key old new =>
      rcases new with _ | new
      · exact ⟨rfl, mirrors.say _⟩
      · exact mirrors.replaceIf key old new
  | get key => exact ⟨congrArg Reply.value (mirrors.get?_eq key), mirrors⟩
  | containsKey key =>
      refine ⟨?_, mirrors⟩
      show Reply.flag (usage.map.get? usage.alive key).isSome =
        Reply.flag (plain.find? key).isSome
      rw [mirrors.get?_eq, Option.isSome_map]
  | erase key => exact mirrors.erase key
  | removeIf key value => exact mirrors.removeIf key value
  | size =>
      refine ⟨?_, mirrors⟩
      show Reply.count (usage.map.size usage.alive) = Reply.count plain.entries.length
      rw [mirrors.size_eq, mirrors.entries_perm.length_eq]
  | isEmpty =>
      refine ⟨?_, mirrors⟩
      show Reply.flag (usage.map.size usage.alive == 0) = Reply.flag plain.entries.isEmpty
      rw [mirrors.size_eq, mirrors.entries_perm.length_eq]
      cases plain.entries <;> rfl
  | clear => exact mirrors.clear
  | purge => exact mirrors.purge
  | forEach => exact ⟨mirrors.entries_perm, mirrors⟩

end Calls

/-- Objects may be reclaimed between calls. -/
theorem hold [DecidableEq κ] [DecidableEq ν] (mirrors : Mirrors usage plain)
    (wish : Liveness κ ν) :
    Matches usage.swept (usage.step (.hold wish)) (plain.step (.hold wish)) := by
  have suits := mirrors.suits
  obtain ⟨thrown, parts, absent, counted⟩ := mirrors.pairs
  refine ⟨rfl, ⟨suits.same, suits.sameValue, suits.keyKind, suits.valueKind⟩, ?_, mirrors.placed,
    ⟨thrown, parts, fun pair member => ?_, counted⟩, ?_⟩
  · have alike := mirrors.placed.alike usage.owned
    rw [← suits.keyKind, ← suits.valueKind] at alike
    exact ((alike.trans mirrors.owned).trans plain.alive_alike.symm).inter wish
  · refine Bool.eq_false_iff.mpr fun present => ?_
    have before := plain.present_of_present_inter wish present
    rw [absent pair member] at before
    cases before
  · exact List.Pairwise.sublist
      (List.monotone_filter_right _ fun pair => plain.present_of_present_inter wish)
      mirrors.unique

/-! ## Runs -/

section Runs

variable [DecidableEq κ] [DecidableEq ν]

/-- **Whatever happens, both maps answer alike, and the plain one mirrors the other one still.** -/
theorem step (mirrors : Mirrors usage plain) (event : Event κ ν) :
    Matches usage.swept (usage.step event) (plain.step event) := by
  cases event with
  | call call => exact mirrors.respond call
  | hold wish => exact mirrors.hold wish

theorem run (mirrors : Mirrors usage plain) (events : List (Event κ ν)) :
    List.Forall₂ (fun told other => Reply.Agrees told.1 told.2 other) (usage.run events).1
        (plain.run events).1 ∧
      Mirrors (usage.run events).2 (plain.run events).2 := by
  induction events generalizing usage plain with
  | nil => exact ⟨.nil, mirrors⟩
  | cons event rest ih =>
      obtain ⟨agrees, next⟩ := mirrors.step event
      obtain ⟨agree, last⟩ := ih next
      exact ⟨.cons agrees agree, last⟩

/-! ## What follows -/

/-- No two live mappings are of the same key. -/
theorem entries_apart (mirrors : Mirrors usage plain) :
    usage.entries.Pairwise fun left right => usage.map.keying.same left.1 right.1 = false := by
  have symmetric : ∀ {left right : κ × ν}, usage.map.keying.same left.1 right.1 = false →
      usage.map.keying.same right.1 left.1 = false := fun differ =>
    Bool.eq_false_iff.mpr fun equal =>
      Bool.eq_false_iff.mp differ (usage.map.keying.symm _ _ equal)
  refine (List.Perm.pairwise_iff symmetric mirrors.entries_perm).mpr ?_
  rw [← mirrors.suits.same]
  exact mirrors.unique

/-- A live mapping that is given another value keeps its key object. -/
theorem put_keeps (mirrors : Mirrors usage plain) {entry : κ × ν} {key : κ}
    (member : entry ∈ usage.entries) (same : usage.map.keying.same entry.1 key = true)
    (value : ν) :
    let next := usage.step (.call (.put (some key) (some value)))
    next.1 = .value (some entry.2) ∧
      (∀ other ∈ next.2.entries, usage.map.keying.same other.1 key = true →
        other = (entry.1, value)) ∧
      (usage.alive.value value = true → (entry.1, value) ∈ next.2.entries) := by
  obtain ⟨inPairs, present⟩ := List.mem_filter.mp (mirrors.entries_perm.mem_iff.mp member)
  obtain ⟨front, back, pairs⟩ := List.append_of_mem inPairs
  have parts : plain.pairs.Perm (entry :: (front ++ back)) := by
    rw [pairs]
    exact List.perm_middle
  have isOf : plain.isOf key entry = true := by
    rw [PlainMap.isOf, present, mirrors.suits.same, same]
    rfl
  have found := mirrors.unique.find?_eq_some mirrors.suits.same parts isOf
  obtain ⟨agrees, next⟩ := mirrors.put key value
  simp only [PlainMap.respond, found] at agrees next
  have pairsThen := mirrors.unique.setValue_perm mirrors.suits.same parts isOf value
  refine ⟨agrees.eq_value, fun other inEntries sameOther => ?_, fun alive => ?_⟩
  · obtain ⟨inPairsThen, presentThen⟩ :=
      List.mem_filter.mp (next.entries_perm.mem_iff.mp inEntries)
    rcases List.mem_cons.mp (pairsThen.mem_iff.mp inPairsThen) with rfl | inRest
    · rfl
    · have notOf := mirrors.unique.not_isOf mirrors.suits.same parts isOf other inRest
      have presentOther : plain.present other = true := presentThen
      rw [PlainMap.isOf, presentOther, mirrors.suits.same, Bool.true_and] at notOf
      rw [notOf] at sameOther
      cases sameOther
  · refine next.entries_perm.mem_iff.mpr (List.mem_filter.mpr
      ⟨pairsThen.mem_iff.mpr List.mem_cons_self, ?_⟩)
    show plain.present (entry.1, value) = true
    refine PlainMap.present_setValue present fun weak => ?_
    have owned := (mirrors.placed.alike usage.owned).value (mirrors.suits.valueKind ▸ weak)
    rw [← mirrors.owned.value weak, ← owned]
    exact alive

end Runs

end Mirrors

/-- A call that is given nothing where it needs something fails, and changes no segment. -/
theorem RefMap.respond_of_lack (map : RefMap κ ν) (alive : RefMap κ ν → Liveness κ ν)
    {call : Call κ ν} {cause : WeakError} (lack : call.lack? = some cause) :
    (map.respond alive call).1 = .failed cause ∧
      (map.respond alive call).2.segments = map.segments := by
  unfold Call.lack? at lack
  split at lack <;> cases lack <;> exact ⟨rfl, rfl⟩

/-- A map is made for any number of segments up to 2^63. -/
theorem RefMap.exists_make? (keying : Keying κ) (sameValue : ν → ν → Bool)
    {options : RefMapOptions} {keyKind valueKind : RefType}
    (keys : options.keyKind = some keyKind) (values : options.valueKind = some valueKind)
    (positive : 0 < options.segmentCount) (bounded : options.segmentCount.toNat ≤ 2 ^ 63) :
    ∃ map : RefMap κ ν, RefMap.make? keying sameValue options = some (.ok map) ∧
      map.segments = {} ∧ map.keying = keying ∧ map.sameValue = sameValue ∧
      map.keyKind = keyKind ∧ map.valueKind = valueKind := by
  obtain ⟨segments, last, counted, -⟩ := RefMapOptions.segments?_eq bounded
  have nonzero : (options.segmentCount == 0) = false := by
    refine beq_false_of_ne fun zero => ?_
    rw [zero] at positive
    exact absurd positive (by decide)
  rw [RefMap.make?, nonzero, keys, values, counted]
  exact ⟨_, rfl, rfl, rfl, rfl, rfl, rfl⟩

/-! ## The theorem -/

section Main

variable [DecidableEq κ] [DecidableEq ν]

/-- What a map in use can be relied on for. -/
structure Usage.Orderly (usage : Usage κ ν) : Prop where
  /-- No two live mappings are of the same key. -/
  apart : usage.entries.Pairwise fun left right =>
    usage.map.keying.same left.1 right.1 = false
  /-- The size is the number of live mappings. -/
  size : usage.map.size usage.alive = usage.entries.length
  /-- A visit goes to each live mapping once. -/
  visits : (usage.step (.call .forEach)).1 = .visited usage.entries ∧ usage.entries.Nodup
  /-- A live mapping that is given another value keeps its key object. -/
  keeps : ∀ (entry : κ × ν) (key : κ) (value : ν), entry ∈ usage.entries →
    usage.map.keying.same entry.1 key = true →
      let next := usage.step (.call (.put (some key) (some value)))
      next.1 = .value (some entry.2) ∧
        (∀ other ∈ next.2.entries, usage.map.keying.same other.1 key = true →
          other = (entry.1, value)) ∧
        (usage.alive.value value = true → (entry.1, value) ∈ next.2.entries)
  /-- A call that is given nothing where it needs something fails, and changes no segment. -/
  lacks : ∀ (call : Call κ ν) (cause : WeakError), call.lack? = some cause →
    (usage.step (.call call)).1 = .failed cause ∧
      (usage.step (.call call)).2.map.segments = usage.map.segments

theorem Mirrors.orderly {usage : Usage κ ν} {plain : PlainMap κ ν}
    (mirrors : Mirrors usage plain) : usage.Orderly where
  apart := mirrors.entries_apart
  size := mirrors.size_eq
  visits := by
    refine ⟨rfl, mirrors.entries_apart.imp fun differ equal => ?_⟩
    rw [equal, usage.map.keying.refl] at differ
    cases differ
  keeps _ _ value member same := mirrors.put_keeps member same value
  lacks _ _ lack := usage.map.respond_of_lack _ lack

/-- **A reference map answers as a list of pairs does.** For any number of segments up to 2^63,
any capacity, any kinds of references, any equivalence of keys and any hash that respects it: the
map is made, and in every run it answers what the list answers that has no segments, hashes or
sweeps and in which a pair counts exactly while its weakly held halves are alive. What the map
throws out on its own shows only in the count of a requested sweep. -/
theorem refMap_refines_plainMap (keying : Keying κ) (sameValue : ν → ν → Bool)
    (options : RefMapOptions) (keyKind valueKind : RefType)
    (keys : options.keyKind = some keyKind) (values : options.valueKind = some valueKind)
    (positive : 0 < options.segmentCount) (bounded : options.segmentCount.toNat ≤ 2 ^ 63) :
    ∃ map, RefMap.make? keying sameValue options = some (.ok map) ∧
      ∀ events : List (Event κ ν),
        let usage := Usage.run { map } events
        let plain := PlainMap.run { same := keying.same, sameValue, keyKind, valueKind } events
        List.Forall₂ (fun told other => Reply.Agrees told.1 told.2 other) usage.1 plain.1 ∧
          usage.2.entries.Perm plain.2.entries ∧ usage.2.Orderly := by
  obtain ⟨map, made, unused, rfl, rfl, rfl, rfl⟩ :=
    RefMap.exists_make? keying sameValue keys values positive bounded
  refine ⟨map, made, fun events => ?_⟩
  obtain ⟨agree, mirrors⟩ := (Mirrors.start map unused).run events
  exact ⟨agree, mirrors.entries_perm, mirrors.orderly⟩

end Main

/-- A key is mapped, an equal one is mapped over it, and the first is let go. -/
def outlived (first second value : Object) : List (Event Object Object) :=
  [.call (.put (some first) (some value)), .call (.put (some second) (some value)),
    .hold ⟨(· ≠ first), fun _ => true⟩, .call (.get second), .call .purge]

/-- The mapping vanishes with the key object that came first. -/
theorem refMap_refines_plainMap_on_outlived :
    let sameValue (left right : Object) : Bool := left.value == right.value
    let value : Object := ⟨3, [], 0⟩
    ∃ map, RefMap.make? Keying.plain sameValue { segmentCount := 3, keyKind := some .weak } =
        some (.ok map) ∧
      List.Forall₂ (fun told other => Reply.Agrees told.1 told.2 other)
        (Usage.run { map } (outlived ⟨1, [], 7⟩ ⟨2, [], 7⟩ value)).1
        [.value none, .value (some value), .done, .value none, .purged 1] := by
  intro sameValue value
  obtain ⟨map, made, runs⟩ := refMap_refines_plainMap Keying.plain sameValue
    { segmentCount := 3, keyKind := some .weak } .weak .strong rfl rfl (by decide) (by decide)
  have agree := (runs (outlived ⟨1, [], 7⟩ ⟨2, [], 7⟩ value)).1
  have replies : (PlainMap.run
      { same := Keying.plain.same, sameValue, keyKind := .weak, valueKind := .strong }
      (outlived ⟨1, [], 7⟩ ⟨2, [], 7⟩ value)).1 =
      [.value none, .value (some value), .done, .value none, .purged 1] := rfl
  rw [replies] at agree
  exact ⟨map, made, agree⟩

/-- Sixteen keys are mapped and let go. Then one more is mapped, and a sweep is requested. -/
def crowded : List (Event Object Object) :=
  (List.range 16).map (fun number =>
      .call (.put (some ⟨number, [], number⟩) (some ⟨99, [], 0⟩))) ++
    [.hold ⟨fun key => key.id = 16, fun _ => true⟩,
      .call (.put (some ⟨16, [], 16⟩) (some ⟨99, [], 0⟩)), .call .purge]

/-- A single segment is due when the last key comes, so the map has thrown out the other mappings
before the sweep is requested. Of sixteen segments none is due, and a plain map has none. -/
theorem requested_sweep_misses_crowded :
    let sameValue (left right : Object) : Bool := left.value == right.value
    ∃ single many,
      RefMap.make? Keying.plain sameValue { segmentCount := 1, keyKind := some .weak } =
          some (.ok single) ∧
        RefMap.make? Keying.plain sameValue { segmentCount := 16, keyKind := some .weak } =
          some (.ok many) ∧
        (Usage.run { map := single } crowded).1.getLast? = some (16, .purged 0) ∧
        (Usage.run { map := many } crowded).1.getLast? = some (0, .purged 16) ∧
        (PlainMap.run { same := Keying.plain.same, sameValue, keyKind := .weak,
                        valueKind := .strong } crowded).1.getLast? = some (.purged 16) :=
  ⟨_, _, rfl, rfl, rfl, rfl, rfl⟩

end Collections.Weak
