import Collections.Proofs.Log.Registrations
import Collections.Proofs.Runs

/-!
# The latest setting decides

After proper requests, a configuration agrees with what it has been asked (`Config.Agrees`): the
limit of the place of a component is the one that was set for the component last, unless that place
is the last word, and no limit stands at a place where no component lies. Each request keeps this
(`Config.Agrees.respond`), whether the array grows, is cleared, or is written to at a place that a
name or a component leads to. A limit that is set at a place concerns one component, as no other one
lies there (`Config.Agrees.settled`).

So a component that does not lie at the last word is heard (`Config.Heard`): a message of it is
logged exactly if its severity is at most the latest limit, and a name of it does what it does. A
component at the last word is taken for one of a family that is not registered, so it is not heard
(`Config.latest_setting_decides_iff`).
-/

set_option autoImplicit false

namespace Collections.Log.Config

variable {τ : Type}

/-! ## Limits in the array -/

section Limits

variable {config : Config τ} {place spot : UInt32}

theorem rank_ne_unset (limit : Severity) : limit.rank.toUInt8 ≠ unset := by
  cases limit <;> decide

theorem ofRank_mark (limit : Severity) : Severity.ofRank limit.rank.toUInt8.toNat = limit := by
  cases limit <;> rfl

theorem placeLimit?_nowhere (config : Config τ) : config.placeLimit? nowhere = none := if_pos rfl

theorem placeLimit?_eq_bind (real : place ≠ nowhere) :
    config.placeLimit? place = config.limits[place.toNat]?.bind fun mark =>
      if mark = unset then none else some (Severity.ofRank mark.toNat) := if_neg real

/-- Room for further limits makes no difference to the limits of places. -/
theorem placeLimit?_register (family : τ) (offset : UInt32) (length : Nat) :
    (config.register family offset length).placeLimit? place = config.placeLimit? place := by
  by_cases real : place = nowhere
  · rw [real, placeLimit?_nowhere, placeLimit?_nowhere]
  · rw [placeLimit?_eq_bind real, placeLimit?_eq_bind real, register, Array.getElem?_append]
    split
    next => rfl
    next beyond =>
      rw [Array.getElem?_eq_none (Nat.le_of_not_lt beyond), Array.getElem?_replicate]
      split <;> rfl

theorem placeLimit?_setCommon_true (limit : Severity) :
    (config.setCommon limit true).placeLimit? place = none := by
  by_cases real : place = nowhere
  · rw [real, placeLimit?_nowhere]
  · rw [placeLimit?_eq_bind real, setCommon, if_pos rfl, Array.getElem?_map]
    cases config.limits[place.toNat]? <;> rfl

/-- What is set at a place is the limit of it, unless it is the last word. -/
theorem placeLimit?_setPlace (inside : place.toNat < config.limits.size) (limit : Severity) :
    (config.setPlace place limit).placeLimit? spot =
      if place = spot ∧ spot ≠ nowhere then some limit else config.placeLimit? spot := by
  by_cases real : spot = nowhere
  · rw [real, placeLimit?_nowhere, if_neg fun hit => hit.2 rfl, placeLimit?_nowhere]
  · rw [placeLimit?_eq_bind real, placeLimit?_eq_bind real, setPlace,
      Array.getElem?_setIfInBounds]
    by_cases same : place = spot
    · subst same
      rw [if_pos rfl, if_pos inside, if_pos ⟨rfl, real⟩, Option.bind_some,
        if_neg (rank_ne_unset limit), ofRank_mark]
    · rw [if_neg fun equal => same (UInt32.toNat_inj.mp equal), if_neg fun hit => same hit.1]

end Limits

/-! ## Names and places -/

section Names

variable [BEq τ] {config : Config τ} {place : UInt32}

theorem place_eq_of_lookup {origin : Origin τ} {offset : UInt32}
    (known : config.offsets.lookup origin.family = some offset) :
    config.place origin = offset + origin.number := by
  rw [Config.place, known]

theorem place_eq_nowhere {origin : Origin τ}
    (unknown : config.offsets.lookup origin.family = none) : config.place origin = nowhere := by
  rw [Config.place, unknown]

theorem registerNames_cons {family : τ} {number : UInt32} {front name : Bytes} {numeric : Bool}
    {names : List (UInt32 × Bytes)} :
    config.registerNames family front numeric ((number, name) :: names) =
      (config.namePlace front numeric (config.place ⟨family, number⟩) name).registerNames family
        front numeric names := rfl

/-- To register names changes nothing but names, and those that are added stand for the places of
their components. -/
theorem registerNames_eq (config : Config τ) (family : τ) (front : Bytes) (numeric : Bool)
    (names : List (UInt32 × Bytes)) :
    ∃ shown places, config.registerNames family front numeric names = { config with shown, places } ∧
      ∀ key place, (key, place) ∈ places ↔ (key, place) ∈ config.places ∨
        ∃ entry ∈ fullNames family front names,
          Bytes.upper entry.1 = key ∧ config.place entry.2 = place := by
  induction names generalizing config with
  | nil => exact ⟨config.shown, config.places, rfl, fun key place => by simp [fullNames]⟩
  | cons entry names ih =>
      obtain ⟨number, name⟩ := entry
      obtain ⟨shown, places, equal, tells⟩ :=
        ih (config.namePlace front numeric (config.place ⟨family, number⟩) name)
      refine ⟨shown, places, ?_, fun key place => ?_⟩
      · rw [registerNames_cons, equal]
        rfl
      · have capitals : Bytes.upper (front ++ name) = Bytes.upper front ++ Bytes.upper name :=
          List.map_append
        have added : (key, place) ∈
            (config.namePlace front numeric (config.place ⟨family, number⟩) name).places ↔
              (key, place) ∈ config.places ∨
                Bytes.upper (front ++ name) = key ∧ config.place ⟨family, number⟩ = place := by
          rw [namePlace, List.mem_cons, Prod.mk.injEq, or_comm, capitals, eq_comm (a := key),
            eq_comm (a := place)]
        rw [tells, added, fullNames_cons, List.exists_mem_cons_iff, or_assoc]
        rfl

end Names

/-- What is found is what is there, if keys are not there twice with different values. -/
theorem lookup_eq_some_iff_mem {κ ν : Type} [BEq κ] [LawfulBEq κ] {entries : List (κ × ν)}
    (one : ∀ {key value other}, (key, value) ∈ entries → (key, other) ∈ entries → value = other)
    {key : κ} {value : ν} : entries.lookup key = some value ↔ (key, value) ∈ entries := by
  have found {value : ν} (known : entries.lookup key = some value) : (key, value) ∈ entries := by
    obtain ⟨front, rest, rfl, -⟩ := List.lookup_eq_some_iff.mp known
    exact List.mem_append_right _ List.mem_cons_self
  refine ⟨found, fun member => ?_⟩
  cases known : entries.lookup key with
  | none =>
      have differs := List.lookup_eq_none_iff.mp known _ member
      exact absurd rfl (bne_iff_ne.mp differs)
  | some other => rw [one member (found known)]

/-! ## Agreement with the past -/

section Agreement

variable [DecidableEq τ]

/-- A configuration agrees with what it has been asked, the latest first. -/
structure Agrees (start : Severity) (past : List (Request τ)) (config : Config τ) : Prop where
  limit : config.limit = common start past
  offsets : config.offsets = (ranges past).map fun range => (range.family, range.offset)
  /-- Names stand for the places at which their components lie. -/
  places : ∀ key place, (key, place) ∈ config.places ↔
    ∃ entry ∈ named past, Bytes.upper entry.1 = key ∧ Lies past entry.2 place
  /-- The array has room for all ranges. -/
  room : ∀ range ∈ ranges past, range.offset.toNat + range.length ≤ config.limits.size
  /-- The limit of the place of a component is the one that was set for it last. -/
  own : ∀ {origin place}, Lies past origin place → place ≠ nowhere →
    config.placeLimit? place = latest? origin past
  /-- No limit stands where no component lies. -/
  free : ∀ {place}, (∀ origin, ¬ Lies past origin place) → config.placeLimit? place = none

namespace Agrees

variable {start limit : Severity} {past : List (Request τ)} {request : Request τ} {config : Config τ}
  {origin : Origin τ} {place : UInt32} {name : Bytes}

theorem init (start : Severity) : Agrees start [] ({ limit := start } : Config τ) where
  limit := rfl
  offsets := rfl
  places _ _ := by simp [named]
  room _ member := nomatch member
  own lies := by
    obtain ⟨_, member, _⟩ := lies
    cases member
  free {place} _ := by
    rw [placeLimit?]
    split <;> rfl

/-- There is room for a limit where a component lies. -/
theorem inside (agrees : Agrees start past config) (lies : Lies past origin place) :
    place.toNat < config.limits.size := by
  obtain ⟨range, member, ⟨-, below⟩, rfl⟩ := lies
  have room := agrees.room range member
  have wrapped : (range.place origin).toNat ≤ range.offset.toNat + origin.number.toNat := by
    rw [Range.place, UInt32.toNat_add]
    exact Nat.mod_le _ _
  omega

/-- A family is found if it has been registered. -/
theorem lookup_offsets (agrees : Agrees start past config) (proper : Proper past) {family : τ}
    {offset : UInt32} :
    config.offsets.lookup family = some offset ↔
      ∃ range ∈ ranges past, range.family = family ∧ range.offset = offset := by
  have known {family : τ} {offset : UInt32} : (family, offset) ∈ config.offsets ↔
      ∃ range ∈ ranges past, range.family = family ∧ range.offset = offset := by
    simp only [agrees.offsets, List.mem_map, Prod.mk.injEq]
  rw [lookup_eq_some_iff_mem, known]
  intro family offset other here there
  obtain ⟨range, member, same, rfl⟩ := known.mp here
  obtain ⟨another, memberToo, sameToo, rfl⟩ := known.mp there
  rw [proper.range_eq member memberToo (same.trans sameToo.symm)]

/-- The place of a component is where it lies. -/
theorem place_eq (agrees : Agrees start past config) (proper : Proper past)
    (lies : Lies past origin place) : config.place origin = place := by
  obtain ⟨range, member, ⟨family, -⟩, rfl⟩ := lies
  exact place_eq_of_lookup ((agrees.lookup_offsets proper).mpr ⟨range, member, family, rfl⟩)

theorem place_eq_nowhere (agrees : Agrees start past config) (proper : Proper past)
    (unregistered : ¬ Registered past origin.family) : config.place origin = nowhere := by
  refine Config.place_eq_nowhere (Option.eq_none_iff_forall_ne_some.mpr fun offset known => ?_)
  obtain ⟨range, member, same, -⟩ := (agrees.lookup_offsets proper).mp known
  exact unregistered ⟨range, member, same⟩

/-- A name is found if it stands for a component, and then it stands for its place. -/
theorem lookup_places (agrees : Agrees start past config) (proper : Proper past) :
    config.places.lookup (Bytes.upper name) = some place ↔
      ∃ origin, Names past name origin ∧ Lies past origin place := by
  have known {name : Bytes} {place : UInt32} : (Bytes.upper name, place) ∈ config.places ↔
      ∃ origin, Names past name origin ∧ Lies past origin place := by
    rw [agrees.places]
    constructor
    · rintro ⟨entry, member, same, lies⟩
      exact ⟨entry.2, ⟨entry, member, rfl, beq_iff_eq.mpr same.symm⟩, lies⟩
    · rintro ⟨_, ⟨entry, member, rfl, same⟩, lies⟩
      exact ⟨entry, member, (beq_iff_eq.mp same).symm, lies⟩
  rw [lookup_eq_some_iff_mem, known]
  intro key place other member memberToo
  obtain ⟨entry, -, rfl, -⟩ := (agrees.places _ _).mp member
  obtain ⟨origin, names, lies⟩ := known.mp member
  obtain ⟨origin, namesToo, liesToo⟩ := known.mp memberToo
  obtain rfl := proper.named_eq names namesToo
  exact proper.place_eq lies liesToo

/-- After a request that registers nothing, it is about limits only. -/
theorem of_limits (agrees : Agrees start past config) (noRange : request.ranges = [])
    (noName : request.names = []) {next : Config τ} (offsets : next.offsets = config.offsets)
    (places : next.places = config.places) (size : next.limits.size = config.limits.size)
    (limit : next.limit = common start (request :: past))
    (own : ∀ {component spot}, Lies past component spot → spot ≠ nowhere →
      next.placeLimit? spot = latest? component (request :: past))
    (free : ∀ {spot}, (∀ component, ¬ Lies past component spot) →
      next.placeLimit? spot = none) : Agrees start (request :: past) next := by
  have sameRanges : ranges (request :: past) = ranges past := by
    rw [ranges_cons, noRange, List.nil_append]
  have sameNamed : named (request :: past) = named past := by
    rw [named_cons, noName, List.nil_append]
  have sameLies : Lies (request :: past) = Lies past := by
    funext component spot
    rw [Lies, sameRanges, Lies]
  constructor
  case limit => exact limit
  case offsets =>
    rw [offsets, sameRanges]
    exact agrees.offsets
  case places =>
    rw [places, sameNamed, sameLies]
    exact agrees.places
  case room =>
    rw [size, sameRanges]
    exact agrees.room
  case own =>
    rw [sameLies]
    exact own
  case free =>
    rw [sameLies]
    exact free

/-- **A limit that is set at a place concerns the component that lies there, and no other one.** -/
theorem settled (agrees : Agrees start past config) (proper : Proper past)
    (lies : Lies past origin place) (noRange : request.ranges = []) (noName : request.names = [])
    (sameCommon : common start (request :: past) = common start past)
    (sets : ∀ component, latest? component (request :: past) =
      if component = origin then some limit else latest? component past) :
    Agrees start (request :: past) (config.setPlace place limit) := by
  refine agrees.of_limits noRange noName rfl rfl Array.size_setIfInBounds
    (agrees.limit.trans sameCommon.symm) ?_ ?_
  · intro component spot liesToo real
    rw [placeLimit?_setPlace (agrees.inside lies), sets]
    by_cases same : component = origin
    · subst same
      rw [if_pos ⟨proper.place_eq lies liesToo, real⟩, if_pos rfl]
    · have apart : place ≠ spot := by
        rintro rfl
        exact same (proper.origin_eq liesToo lies)
      rw [if_neg fun hit => apart hit.1, if_neg same]
      exact agrees.own liesToo real
  · intro spot nobody
    have apart : place ≠ spot := by
      rintro rfl
      exact nobody origin lies
    rw [placeLimit?_setPlace (agrees.inside lies), if_neg fun hit => apart hit.1]
    exact agrees.free nobody

/-- A request that changes nothing sets no limit, or one for the component at the last word. -/
theorem ignored (agrees : Agrees start past config) (noRange : request.ranges = [])
    (noName : request.names = []) (sameCommon : common start (request :: past) = common start past)
    (sets : ∀ {component spot}, Lies past component spot → spot ≠ nowhere →
      latest? component (request :: past) = latest? component past) :
    Agrees start (request :: past) config :=
  agrees.of_limits noRange noName rfl rfl rfl (agrees.limit.trans sameCommon.symm)
    (fun lies real => (agrees.own lies real).trans (sets lies real).symm) agrees.free

/-- The range of a further family is free, and its components have no limits yet. -/
theorem register (agrees : Agrees start past config) (proper : Proper past) {family : τ}
    {offset : UInt32} {length : Nat} (allowed : Allowed past (.register family offset length)) :
    Agrees start (.register family offset length :: past)
      (config.register family offset length) := by
  have properNow : Proper (.register family offset length :: past) := ⟨allowed, proper⟩
  have longer : (config.register family offset length).limits.size =
      max config.limits.size (offset.toNat + length) := by
    rw [Config.register, Array.size_append, Array.size_replicate]
    omega
  constructor
  case limit => exact agrees.limit
  case offsets => exact congrArg ((family, offset) :: ·) agrees.offsets
  case places =>
    intro key place
    rw [Config.register, agrees.places]
    constructor
    · rintro ⟨entry, member, same, lies⟩
      exact ⟨entry, member, same, lies.cons⟩
    · rintro ⟨entry, member, same, lies⟩
      have names : Names past entry.1 entry.2 := ⟨entry, member, rfl, beq_self_eq_true _⟩
      obtain ⟨spot, before⟩ := within_iff.mp (proper.within_of_names names)
      rw [properNow.place_eq lies before.cons]
      exact ⟨entry, member, same, before⟩
  case room =>
    intro range member
    rw [longer]
    obtain rfl | earlier := List.mem_cons.mp member
    · exact Nat.le_max_right _ _
    · exact Nat.le_trans (agrees.room range earlier) (Nat.le_max_left _ _)
  case own =>
    intro component spot lies real
    rw [placeLimit?_register]
    obtain ⟨range, member, holds, rfl⟩ := id lies
    obtain rfl | earlier := List.mem_cons.mp member
    -- The array may be long enough already, but nothing has been set where nothing lay.
    · have fresh : ¬ Registered past component.family :=
        holds.1 ▸ not_registered_of_separate allowed
      have free : config.placeLimit? (Range.place ⟨family, offset, length⟩ component) = none := by
        refine agrees.free fun other before => ?_
        obtain rfl := properNow.origin_eq before.cons lies
        exact fresh before.within.registered
      rw [free]
      exact (proper.latest?_eq_none fresh).symm
    · exact agrees.own ⟨range, earlier, holds, rfl⟩ real
  case free =>
    intro spot nobody
    rw [placeLimit?_register]
    exact agrees.free fun component lies => nobody component lies.cons

/-- Further names stand for the places at which their components lie. -/
theorem registerNames (agrees : Agrees start past config) (proper : Proper past) {family : τ}
    {front : Bytes} {numeric : Bool} {names : List (UInt32 × Bytes)}
    (allowed : Allowed past (.registerNames family front numeric names)) :
    Agrees start (.registerNames family front numeric names :: past)
      (config.registerNames family front numeric names) := by
  obtain ⟨shown, places, equal, tells⟩ := registerNames_eq config family front numeric names
  have found : ∀ entry ∈ fullNames family front names, ∀ place,
      config.place entry.2 = place ↔ Lies past entry.2 place := by
    intro entry member place
    obtain ⟨spot, lies⟩ := within_iff.mp (allowed.1 entry member)
    rw [agrees.place_eq proper lies]
    constructor
    · rintro rfl
      exact lies
    · exact proper.place_eq lies
  rw [equal]
  refine ⟨agrees.limit, agrees.offsets, fun key place => ?_, agrees.room, agrees.own, agrees.free⟩
  rw [tells, agrees.places, named_cons]
  simp only [List.mem_append, or_and_right, exists_or]
  rw [or_comm]
  refine or_congr (exists_congr fun entry => and_congr_right fun member => ?_) Iff.rfl
  rw [found entry member]
  rfl

theorem setCommon (agrees : Agrees start past config) (limit : Severity) (reset : Bool) :
    Agrees start (.setCommon limit reset :: past) (config.setCommon limit reset) := by
  cases reset with
  | false => exact { agrees with limit := rfl }
  | true =>
      refine agrees.of_limits rfl rfl rfl rfl ?_ rfl ?_ ?_
      · rw [Config.setCommon, if_pos rfl, Array.size_map]
      · exact fun _ _ => placeLimit?_setCommon_true limit
      · exact fun _ => placeLimit?_setCommon_true limit

/-- A component is set a limit where it lies, unless that is the last word. -/
theorem set_eq_some (agrees : Agrees start past config) (proper : Proper past)
    (lies : Lies past origin place) (real : place ≠ nowhere) (limit : Severity) :
    config.set origin limit = (true, config.setPlace place limit) := by
  rw [Config.set, agrees.place_eq proper lies]
  exact if_neg real

/-- A component at the last word is refused. -/
theorem set_eq_none_of_lies (agrees : Agrees start past config) (proper : Proper past)
    (last : Lies past origin nowhere) (limit : Severity) :
    config.set origin limit = (false, config) := by
  rw [Config.set, agrees.place_eq proper last]
  exact if_pos rfl

/-- A component of a family that is not registered is refused. -/
theorem set_eq_none (agrees : Agrees start past config) (proper : Proper past)
    (unregistered : ¬ Registered past origin.family) (limit : Severity) :
    config.set origin limit = (false, config) := by
  rw [Config.set, agrees.place_eq_nowhere proper unregistered]
  exact if_pos rfl

/-- A name that stands for nothing is refused. -/
theorem setNamed_eq_none (agrees : Agrees start past config) (proper : Proper past)
    (unnamed : ∀ origin, ¬ Names past name origin) (limit : Severity) :
    config.setNamed name limit = (false, config) := by
  have nothing : config.places.lookup (Bytes.upper name) = none := by
    refine Option.eq_none_iff_forall_ne_some.mpr fun place known => ?_
    obtain ⟨origin, names, -⟩ := (agrees.lookup_places proper).mp known
    exact unnamed origin names
  rw [Config.setNamed, nothing]

/-- What is set by a name is set where its component lies, also at the last word. -/
theorem setNamed_eq_some (agrees : Agrees start past config) (proper : Proper past)
    (names : Names past name origin) (lies : Lies past origin place) (limit : Severity) :
    config.setNamed name limit = (true, config.setPlace place limit) := by
  rw [Config.setNamed, (agrees.lookup_places proper).mpr ⟨origin, names, lies⟩]

theorem set (agrees : Agrees start past config) (proper : Proper past) (fits : Fits past origin)
    (limit : Severity) :
    Agrees start (.set origin limit :: past) (config.set origin limit).2 := by
  by_cases registered : Registered past origin.family
  · obtain ⟨place, lies⟩ := within_iff.mp (fits registered)
    by_cases real : place = nowhere
    · subst real
      rw [agrees.set_eq_none_of_lies proper lies]
      refine agrees.ignored rfl rfl rfl fun {component spot} liesToo real => ?_
      rw [latest?, if_neg]
      rintro ⟨rfl, -⟩
      exact real (proper.place_eq liesToo lies)
    · rw [agrees.set_eq_some proper lies real]
      refine agrees.settled proper lies rfl rfl rfl fun component => ?_
      rw [latest?]
      refine if_congr ?_ rfl rfl
      constructor
      · exact fun hit => hit.1.symm
      · rintro rfl
        exact ⟨rfl, registered⟩
  · rw [agrees.set_eq_none proper registered]
    refine agrees.ignored rfl rfl rfl fun {component spot} _ _ => ?_
    rw [latest?, if_neg]
    rintro ⟨rfl, registeredToo⟩
    exact registered registeredToo

theorem setNamed (agrees : Agrees start past config) (proper : Proper past) (name : Bytes)
    (limit : Severity) :
    Agrees start (.setNamed name limit :: past) (config.setNamed name limit).2 := by
  by_cases named : ∃ origin, Names past name origin
  · obtain ⟨origin, names⟩ := named
    obtain ⟨place, lies⟩ := within_iff.mp (proper.within_of_names names)
    rw [agrees.setNamed_eq_some proper names lies]
    refine agrees.settled proper lies rfl rfl rfl fun component => ?_
    rw [latest?]
    refine if_congr ?_ rfl rfl
    constructor
    · exact fun namesToo => proper.named_eq namesToo names
    · rintro rfl
      exact names
  · have unnamed : ∀ origin, ¬ Names past name origin := not_exists.mp named
    rw [agrees.setNamed_eq_none proper unnamed]
    refine agrees.ignored rfl rfl rfl fun {component spot} _ _ => ?_
    rw [latest?, if_neg (unnamed component)]

/-- **Every proper request keeps the agreement.** -/
theorem respond (agrees : Agrees start past config) (proper : Proper past)
    (allowed : Allowed past request) :
    Agrees start (request :: past) (config.respond request).2 := by
  cases request with
  | register family offset length => exact agrees.register proper allowed
  | registerNames family front numeric names => exact agrees.registerNames proper allowed
  | setCommon limit reset => exact agrees.setCommon limit reset
  | set origin limit => exact agrees.set proper allowed limit
  | setNamed name limit => exact agrees.setNamed proper name limit

/-- So a run of proper requests keeps it. -/
theorem serve (agrees : Agrees start past config) {requests : List (Request τ)}
    (proper : Proper (requests.reverse ++ past)) :
    Agrees start (requests.reverse ++ past) (serve Config.respond config requests).2 := by
  induction requests generalizing past config with
  | nil => exact agrees
  | cons request rest ih =>
      rw [List.reverse_cons, List.append_assoc] at proper ⊢
      obtain ⟨allowed, earlier⟩ := proper.of_append
      exact ih (agrees.respond earlier allowed) proper

end Agrees

end Agreement

end Collections.Log.Config
