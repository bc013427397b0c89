import Collections.Proofs.Bidding
import Collections.Proofs.Weak.RefMap.Refinement

/-!
# Bids on a reference map

A map that refers to its keys and values strongly or softly never loses a mapping to a sweep, so its
plain mirror counts every pair (`PlainMap.Lasting`). Calls that leave a key to those who bid for it
(`Call.Spares`) change its value in the mirror only by a bid for a key without one, and tell it as
it is (`PlainMap.Lasting.sees_respond`). They do so in the map, since both answer alike
(`Usage.Backed.sees_watch`, `Usage.honest_watch`).

Between the calls any segments of the map may be swept, as they are while one caller sweeps the whole
map segment by segment and others come in between (`Occurrence.sweep`).
-/

set_option autoImplicit false

namespace Collections.Weak

variable {κ ν : Type}

/-! ## One key -/

namespace Call

/-- What a call lets its caller see of the value of a key. -/
def sight (same : κ → κ → Bool) (key : κ) : Call κ ν → Reply κ ν → Option (Sight ν)
  | .putIfAbsent (some other) (some value), .value answer =>
      if same other key then some (.bid value answer) else none
  | .get other, .value answer => if same other key then some (.look answer) else none
  | _, _ => none

/-- What a call asks about a key: the value that it bids, or nothing if it looks. -/
def asks (same : κ → κ → Bool) (key : κ) : Call κ ν → Option (Option ν)
  | .putIfAbsent (some other) (some value) => if same other key then some (some value) else none
  | .get other => if same other key then some none else none
  | _ => none

/-- A call does not touch a key, unless it asks about it or bids for it. -/
def Spares (same : κ → κ → Bool) (key : κ) : Call κ ν → Prop
  | .put (some other) (some _) | .replace other _ | .replaceIf other _ _ | .erase other
  | .removeIf other _ => same other key = false
  | .clear => False
  | _ => True

end Call

namespace PlainMap

variable {plain : PlainMap κ ν} {keying : Keying κ} {key other : κ}

/-- The value of a key. -/
def value? (plain : PlainMap κ ν) (key : κ) : Option ν := (plain.find? key).map (·.2)

/-- A plain map whose pairs are all present, whatever is reclaimed. -/
structure Lasting (keying : Keying κ) (plain : PlainMap κ ν) : Prop where
  same : plain.same = keying.same
  key : plain.keyKind.isWeak = false
  value : plain.valueKind.isWeak = false

namespace Lasting

theorem present (lasting : plain.Lasting keying) (pair : κ × ν) : plain.present pair = true := by
  simp [PlainMap.present, lasting.key, lasting.value]

theorem isOf_eq (lasting : plain.Lasting keying) (key : κ) (pair : κ × ν) :
    plain.isOf key pair = keying.same pair.1 key := by
  rw [PlainMap.isOf, lasting.present, Bool.true_and, lasting.same]

theorem find?_eq (lasting : plain.Lasting keying) (key : κ) :
    plain.find? key = plain.pairs.find? fun pair => keying.same pair.1 key := by
  rw [PlainMap.find?, funext (lasting.isOf_eq key)]

theorem withPairs (lasting : plain.Lasting keying) (pairs : List (κ × ν)) :
    ({ plain with pairs } : PlainMap κ ν).Lasting keying :=
  ⟨lasting.same, lasting.key, lasting.value⟩

/-- A pair of a key is none of another one. -/
theorem not_isOf (lasting : plain.Lasting keying) (differ : keying.same other key = false)
    {pair : κ × ν} (found : keying.same pair.1 key = true) : plain.isOf other pair = false := by
  rw [lasting.isOf_eq]
  refine Bool.eq_false_iff.mpr fun alsoOther => ?_
  rw [keying.trans _ _ _ (keying.symm _ _ alsoOther) found] at differ
  cases differ

/-- A pair of another key may be inserted. -/
theorem find?_insert_of_ne (lasting : plain.Lasting keying) (differ : keying.same other key = false)
    (value : ν) : (plain.insert other value).find? key = plain.find? key := by
  have after : (plain.insert other value).Lasting keying := lasting.withPairs _
  rw [after.find?_eq, lasting.find?_eq]
  exact List.find?_cons_of_neg (by simp [differ])

/-- A pair of another key may take another value. -/
theorem find?_setValue_of_ne (lasting : plain.Lasting keying)
    (differ : keying.same other key = false) (value : ν) :
    (plain.setValue other value).find? key = plain.find? key := by
  have after : (plain.setValue other value).Lasting keying := lasting.withPairs _
  have keys : ((fun pair : κ × ν => keying.same pair.1 key) ∘ fun pair =>
      if plain.isOf other pair then (pair.1, value) else pair) =
        fun pair => keying.same pair.1 key := by
    funext pair
    simp only [Function.comp]
    split <;> rfl
  rw [after.find?_eq, lasting.find?_eq, PlainMap.setValue, List.find?_map, keys]
  cases found : plain.pairs.find? fun pair => keying.same pair.1 key with
  | none => rfl
  | some pair =>
      have located := List.find?_some found
      have isKey : keying.same pair.1 key = true := located
      rw [Option.map_some, lasting.not_isOf differ isKey]
      rfl

/-- A pair of another key may be removed. -/
theorem find?_remove_of_ne (lasting : plain.Lasting keying)
    (differ : keying.same other key = false) :
    (plain.remove other).find? key = plain.find? key := by
  have after : (plain.remove other).Lasting keying := lasting.withPairs _
  rw [after.find?_eq, lasting.find?_eq, PlainMap.remove, List.find?_filter]
  refine congrArg (plain.pairs.find? ·) (funext fun pair => ?_)
  cases found : keying.same pair.1 key with
  | false => simp
  | true => simp [lasting.not_isOf differ found]

/-- A requested sweep finds nothing. -/
theorem entries_eq (lasting : plain.Lasting keying) : plain.entries = plain.pairs :=
  List.filter_eq_self.mpr fun pair _ => lasting.present pair

theorem find?_congr (lasting : plain.Lasting keying) (same : keying.same other key = true) :
    plain.find? other = plain.find? key := by
  have alike : (fun pair : κ × ν => keying.same pair.1 other) =
      fun pair => keying.same pair.1 key := by
    funext pair
    refine Bool.eq_iff_iff.mpr ⟨fun found => ?_, fun found => ?_⟩
    · exact keying.trans _ _ _ found same
    · exact keying.trans _ _ _ found (keying.symm _ _ same)
  rw [lasting.find?_eq, lasting.find?_eq, alike]

/-! ### Calls -/

/-- A call changes nothing but the pairs of a plain map. -/
theorem respond (lasting : plain.Lasting keying) (call : Call κ ν) :
    (plain.respond call).2.Lasting keying := by
  have kept : ∃ pairs, (plain.respond call).2 = { plain with pairs } := by
    unfold PlainMap.respond
    split
    all_goals first
      | exact ⟨_, rfl⟩
      | split <;> exact ⟨_, rfl⟩
  obtain ⟨pairs, same⟩ := kept
  rw [same]
  exact lasting.withPairs pairs

theorem step [DecidableEq κ] [DecidableEq ν] (lasting : plain.Lasting keying)
    (event : Event κ ν) : (plain.step event).2.Lasting keying := by
  cases event with
  | call call => exact lasting.respond call
  | hold wish => exact ⟨lasting.same, lasting.key, lasting.value⟩

theorem value?_put_of_ne (lasting : plain.Lasting keying) (differ : keying.same other key = false)
    (value : ν) :
    (plain.respond (.put (some other) (some value))).2.value? key = plain.value? key := by
  simp only [PlainMap.respond]
  split
  · exact congrArg _ (lasting.find?_insert_of_ne differ value)
  · exact congrArg _ (lasting.find?_setValue_of_ne differ value)

theorem value?_replace_of_ne (lasting : plain.Lasting keying)
    (differ : keying.same other key = false) (value : Option ν) :
    (plain.respond (.replace other value)).2.value? key = plain.value? key := by
  cases value with
  | none => rfl
  | some value =>
      simp only [PlainMap.respond]
      split
      · rfl
      · exact congrArg _ (lasting.find?_setValue_of_ne differ value)

theorem value?_replaceIf_of_ne (lasting : plain.Lasting keying)
    (differ : keying.same other key = false) (old new : Option ν) :
    (plain.respond (.replaceIf other old new)).2.value? key = plain.value? key := by
  cases new with
  | none => rfl
  | some new =>
      simp only [PlainMap.respond]
      split
      · exact congrArg _ (lasting.find?_setValue_of_ne differ new)
      · rfl

theorem value?_remove_of_ne (lasting : plain.Lasting keying)
    (differ : keying.same other key = false) :
    (plain.remove other).value? key = plain.value? key :=
  congrArg _ (lasting.find?_remove_of_ne differ)

theorem value?_removeIf_of_ne (lasting : plain.Lasting keying)
    (differ : keying.same other key = false) (value : Option ν) :
    (plain.respond (.removeIf other value)).2.value? key = plain.value? key := by
  simp only [PlainMap.respond]
  split
  · exact lasting.value?_remove_of_ne differ
  · rfl

/-- A bid is told the value of its key, and puts another one if there is none. -/
theorem sees_putIfAbsent (lasting : plain.Lasting keying) (other : κ) (value : ν) :
    let call := Call.putIfAbsent (some other) (some value)
    Sees (plain.value? key) ((plain.respond call).2.value? key)
      (call.sight keying.same key (plain.respond call).1) := by
  intro call
  have told : ∀ answer, call.sight keying.same key (.value answer) =
      if keying.same other key then some (.bid value answer) else none := fun _ => rfl
  simp only [call, PlainMap.respond]
  cases same : keying.same other key with
  | false =>
      split
      · rw [told, same]
        exact congrArg _ (lasting.find?_insert_of_ne same value)
      · rw [told, same]
        exact rfl
  | true =>
      rw [lasting.find?_congr same]
      cases found : plain.find? key with
      | none =>
          have after : (plain.insert other value).Lasting keying := lasting.withPairs _
          have first : (plain.insert other value).find? key = some (other, value) := by
            rw [after.find?_eq]
            exact List.find?_cons_of_pos same
          rw [told, same, value?, value?, found, first]
          exact ⟨rfl, rfl⟩
      | some pair =>
          rw [told, same, value?, found]
          exact ⟨rfl, rfl⟩

/-- Who asks for a key is told its value. -/
theorem sees_get (lasting : plain.Lasting keying) (other : κ) :
    Sees (plain.value? key) (plain.value? key)
      ((.get other : Call κ ν).sight keying.same key (.value (plain.value? other))) := by
  rw [Call.sight]
  cases same : keying.same other key with
  | false => exact rfl
  | true =>
      refine ⟨?_, rfl⟩
      rw [value?, lasting.find?_congr same]
      rfl

/-- **Whatever spares a key leaves its value to those who bid for it, and shows it as it is.** -/
theorem sees_respond (lasting : plain.Lasting keying) {call : Call κ ν}
    (spares : call.Spares keying.same key) :
    Sees (plain.value? key) ((plain.respond call).2.value? key)
      (call.sight keying.same key (plain.respond call).1) := by
  cases call with
  | put other value =>
      rcases other with _ | other
      · exact rfl
      · rcases value with _ | value
        · exact rfl
        · exact lasting.value?_put_of_ne spares value
  | putIfAbsent other value =>
      rcases other with _ | other
      · exact rfl
      · rcases value with _ | value
        · exact rfl
        · exact lasting.sees_putIfAbsent other value
  | replace other value => exact lasting.value?_replace_of_ne spares value
  | replaceIf other old new => exact lasting.value?_replaceIf_of_ne spares old new
  | get other => exact lasting.sees_get other
  | erase other => exact lasting.value?_remove_of_ne spares
  | removeIf other value => exact lasting.value?_removeIf_of_ne spares value
  | clear => cases spares
  | purge =>
      show (plain.respond .purge).2.value? key = plain.value? key
      rw [PlainMap.respond, lasting.entries_eq]
  | containsKey | size | isEmpty | forEach => exact rfl

/-- What is reclaimed makes no difference. -/
theorem value?_hold [DecidableEq κ] [DecidableEq ν] (lasting : plain.Lasting keying)
    (wish : Liveness κ ν) : (plain.step (.hold wish)).2.value? key = plain.value? key := by
  have after := lasting.step (.hold wish)
  rw [value?, value?, after.find?_eq, lasting.find?_eq]
  rfl

end Lasting

end PlainMap

/-! ## The map -/

/-- Whoever brings a key and a value is told of a value, or of none. -/
theorem RefMap.putIfAbsent_answers (map : RefMap κ ν) (moments : Moments κ ν) (key : κ) (value : ν) :
    ∃ answer, (map.putIfAbsent moments (some key) (some value)).1 = .ok answer := by
  unfold RefMap.putIfAbsent
  dsimp only
  split
  · exact ⟨_, rfl⟩
  · split <;> exact ⟨_, rfl⟩

theorem Call.sight_of_agrees {call : Call κ ν} {same : κ → κ → Bool} {key : κ} {swept : Nat}
    {reply other : Reply κ ν} (agrees : Reply.Agrees swept reply other) :
    call.sight same key reply = call.sight same key other := by
  have silent : ∀ reply : Reply κ ν, (∀ answer, reply ≠ .value answer) →
      call.sight same key reply = none := by
    intro reply other
    unfold Call.sight
    split
    · exact absurd rfl (other _)
    · exact absurd rfl (other _)
    · rfl
  unfold Reply.Agrees at agrees
  split at agrees
  next entries others => rw [silent (.visited entries) nofun, silent (.visited others) nofun]
  next thrown total => rw [silent (.purged thrown) nofun, silent (.purged total) nofun]
  next => rw [agrees]

/-- What happens to a map that several callers use: an event, or a sweep of some segments by a caller
that sweeps the whole map one segment after the other. -/
inductive Occurrence (κ ν : Type) where
  | event (event : Event κ ν)
  | sweep (indices : List Nat)

namespace Occurrence

/-- What a caller sees of the value of a key. -/
def sight (same : κ → κ → Bool) (key : κ) : Occurrence κ ν → Reply κ ν → Option (Sight ν)
  | event (.call call), reply => call.sight same key reply
  | _, _ => none

/-- What somebody asks about a key. -/
def asks (same : κ → κ → Bool) (key : κ) : Occurrence κ ν → Option (Option ν)
  | event (.call call) => call.asks same key
  | _ => none

/-- A key is not touched but by those who ask about it or bid for it. -/
def Spares (same : κ → κ → Bool) (key : κ) : Occurrence κ ν → Prop
  | event (.call call) => call.Spares same key
  | _ => True

end Occurrence

namespace Usage

variable [DecidableEq κ] [DecidableEq ν]

def occur (usage : Usage κ ν) : Occurrence κ ν → Reply κ ν × Usage κ ν
  | .event event => usage.step event
  | .sweep indices =>
      let (purged, map) := usage.map.sweepSegments (RefMap.aliveWith usage.owned) indices
      (.purged purged, { usage with map, swept := usage.swept + purged })

/-- Something happens, and what is seen of the value of a key is noted. -/
def watch (keying : Keying κ) (key : κ) (usage : Usage κ ν) (occurrence : Occurrence κ ν) :
    Option (Sight ν) × Usage κ ν :=
  let (reply, after) := usage.occur occurrence
  (occurrence.sight keying.same key reply, after)

/-- Whoever asks about a key is answered. -/
theorem wanted_watch (keying : Keying κ) (key : κ) (usage : Usage κ ν)
    (occurrence : Occurrence κ ν) :
    (usage.watch keying key occurrence).1.map Sight.wanted = occurrence.asks keying.same key := by
  rcases occurrence with (call | wish) | indices
  · show (call.sight keying.same key (usage.step (.call call)).1).map Sight.wanted =
      call.asks keying.same key
    cases call with
    | putIfAbsent other value =>
        rcases other with _ | other
        · rfl
        · rcases value with _ | value
          · rfl
          · obtain ⟨answer, answered⟩ :=
              usage.map.putIfAbsent_answers (.following (RefMap.aliveWith usage.owned)) other value
            have told : (usage.step (.call (.putIfAbsent (some other) (some value)))).1 =
                .value answer := congrArg (Reply.ofExcept .value) answered
            rw [told, Call.sight, Call.asks]
            split <;> rfl
    | get other =>
        show (if keying.same other key then some (Sight.look _) else none).map Sight.wanted = _
        rw [Call.asks]
        split <;> rfl
    | _ => rfl
  · rfl
  · rfl

def value? (usage : Usage κ ν) (key : κ) : Option ν := usage.map.get? usage.alive key

/-- Some plain map whose pairs are all present mirrors a map in use. -/
def Backed (keying : Keying κ) (usage : Usage κ ν) : Prop :=
  ∃ plain : PlainMap κ ν, Mirrors usage plain ∧ plain.Lasting keying

variable {usage : Usage κ ν} {keying : Keying κ} {key : κ}

/-- A sweep of segments goes unnoticed. -/
theorem mirrors_sweep {plain : PlainMap κ ν} (mirrors : Mirrors usage plain) (indices : List Nat) :
    Mirrors (usage.occur (.sweep indices)).2 plain := by
  obtain ⟨settings, placed, gone, -⟩ := mirrors.placed.sweepSegments usage.owned indices
  exact mirrors.of_gone settings placed gone

theorem Backed.occur (backed : usage.Backed keying) (occurrence : Occurrence κ ν) :
    (usage.occur occurrence).2.Backed keying := by
  obtain ⟨plain, mirrors, lasting⟩ := backed
  cases occurrence with
  | event event => exact ⟨_, (mirrors.step event).mirrors, lasting.step event⟩
  | sweep indices => exact ⟨plain, mirrors_sweep mirrors indices, lasting⟩

/-- **Whatever spares a key of a map leaves its value to those who bid for it, and shows it as it
is.** -/
theorem Backed.sees_watch (backed : usage.Backed keying) {occurrence : Occurrence κ ν}
    (spares : occurrence.Spares keying.same key) :
    Sees (usage.value? key) ((usage.watch keying key occurrence).2.value? key)
      (usage.watch keying key occurrence).1 := by
  obtain ⟨plain, mirrors, lasting⟩ := backed
  have before : usage.value? key = plain.value? key := mirrors.get?_eq key
  cases occurrence with
  | event event =>
      obtain ⟨agrees, after⟩ := mirrors.step event
      have later : (usage.step event).2.value? key = (plain.step event).2.value? key :=
        after.get?_eq key
      cases event with
      | call call =>
          show Sees _ ((usage.step (.call call)).2.value? key)
            (call.sight keying.same key (usage.step (.call call)).1)
          rw [before, later, Call.sight_of_agrees agrees]
          exact lasting.sees_respond spares
      | hold wish =>
          show (usage.step (.hold wish)).2.value? key = usage.value? key
          rw [before, later]
          exact lasting.value?_hold wish
  | sweep indices =>
      have after : (usage.occur (.sweep indices)).2.value? key = plain.value? key :=
        (mirrors_sweep mirrors indices).get?_eq key
      show (usage.occur (.sweep indices)).2.value? key = usage.value? key
      rw [after, before]

theorem honest_watch (keying : Keying κ) (key : κ) :
    Honest (watch keying key) (fun usage : Usage κ ν => usage.value? key)
      (fun _ => Occurrence.Spares keying.same key) (Backed keying) where
  sees backed spares := backed.sees_watch spares
  keeps occurrence backed := backed.occur occurrence

end Usage

end Collections.Weak
