import Mathlib.Data.List.Pairwise
import Collections.Log.Config
import Collections.Proofs.Runs

/-!
# What has been asked of a configuration

A configuration is asked to register families and names, and to set limits (`Config.Request`). Its
runs are made of such requests (`Config.run_eq_serve`). What it is to do follows from what it has
been asked before, the latest first.

The families that have been registered occupy ranges of places, so a component has a place if its
number is within the range of its family (`Within`, `Lies`). The names that have been registered
stand for components, in any case of letters (`Names`).

Requests are proper if ranges are separate, names differ by more than case, only components of
registered families are named, and numbers are within the ranges of their families (`Proper`). Then
a component lies at one place, and a place belongs to one component (`Proper.place_eq`,
`Proper.origin_eq`), and a name stands for one component (`Proper.named_eq`).

The common limit is the one that was set last (`common`), and the limit of a component the one that
was set for it since the limits of components were forgotten, while its family was registered
(`latest?`).
-/

set_option autoImplicit false

namespace Collections.Log.Config

variable {τ : Type}

/-! ## Requests -/

/-- What can be asked of a configuration. -/
inductive Request (τ : Type) where
  | register (family : τ) (offset : UInt32) (length : Nat)
  | registerNames (family : τ) (front : Bytes) (numeric : Bool) (names : List (UInt32 × Bytes))
  | setCommon (limit : Severity) (reset : Bool)
  | set (origin : Origin τ) (limit : Severity)
  | setNamed (name : Bytes) (limit : Severity)

/-- What a configuration answers to a request, and what becomes of it. -/
def respond [BEq τ] (config : Config τ) : Request τ → Bool × Config τ
  | .register family offset length => (true, config.register family offset length)
  | .registerNames family front numeric names =>
      (true, config.registerNames family front numeric names)
  | .setCommon limit reset => (true, config.setCommon limit reset)
  | .set origin limit => config.set origin limit
  | .setNamed name limit => config.setNamed name limit

/-- The requests that a step of a run comes down to. -/
def Step.requests : Step τ → List (Request τ)
  | .register family offset length front numeric names =>
      [.register family offset length, .registerNames family front numeric names]
  | .setCommon limit reset => [.setCommon limit reset]
  | .set limit origin => [.set origin limit]
  | .setNamed limit text => [.setNamed text limit]
  | .shouldLog _ _ | .levels _ | .name _ => []

/-- Runs do what their requests do. -/
theorem run_eq_serve [BEq τ] (config : Config τ) (steps : List (Step τ)) :
    (config.run steps).2 = (serve respond config (steps.flatMap Step.requests)).2 := by
  induction steps generalizing config with
  | nil => rfl
  | cons step steps ih => cases step <;> exact ih _

/-! ## Ranges -/

/-- The places of a family. -/
structure Range (τ : Type) where
  family : τ
  offset : UInt32
  length : Nat

namespace Range

/-- A component is within the range of its family. -/
def Holds (range : Range τ) (origin : Origin τ) : Prop :=
  range.family = origin.family ∧ origin.number.toNat < range.length

def place (range : Range τ) (origin : Origin τ) : UInt32 := range.offset + origin.number

/-- Ranges have no place in common. -/
def Apart (range other : Range τ) : Prop :=
  ∀ here there : UInt32, here.toNat < range.length → there.toNat < other.length →
    range.offset + here ≠ other.offset + there

/-- Ranges are apart, and those of different families. -/
def Separate (range other : Range τ) : Prop := range.family ≠ other.family ∧ range.Apart other

/-- Ranges that are not empty are apart if neither starts within the other one, also where words
wrap around. -/
theorem apart_iff {range other : Range τ} :
    range.Apart other ↔ range.length = 0 ∨ other.length = 0 ∨
      range.length ≤ (other.offset - range.offset).toNat ∧
        other.length ≤ (range.offset - other.offset).toNat := by
  constructor
  · intro apart
    by_cases empty : range.length = 0
    · exact .inl empty
    · by_cases emptyToo : other.length = 0
      · exact .inr (.inl emptyToo)
      · refine .inr (.inr ⟨?_, ?_⟩)
        · refine Nat.le_of_not_lt fun inside => ?_
          refine apart (other.offset - range.offset) 0 inside (Nat.pos_of_ne_zero emptyToo) ?_
          rw [UInt32.add_comm, UInt32.sub_add_cancel, UInt32.add_zero]
        · refine Nat.le_of_not_lt fun inside => ?_
          refine apart 0 (range.offset - other.offset) (Nat.pos_of_ne_zero empty) inside ?_
          rw [UInt32.add_comm other.offset, UInt32.sub_add_cancel, UInt32.add_zero]
  · rintro (empty | empty | ⟨behind, before⟩) here there inside insideToo same
    · omega
    · omega
    -- Of two numbers with the same place, the larger one tells where the other range starts.
    · have sum := congrArg UInt32.toNat same
      have bound := here.toNat_lt
      have boundToo := there.toNat_lt
      have start := range.offset.toNat_lt
      have startToo := other.offset.toNat_lt
      rw [UInt32.toNat_add, UInt32.toNat_add] at sum
      rw [UInt32.toNat_sub] at behind before
      omega

instance (range other : Range τ) : Decidable (range.Apart other) :=
  decidable_of_iff _ apart_iff.symm

instance [DecidableEq τ] (range : Range τ) (origin : Origin τ) : Decidable (range.Holds origin) :=
  inferInstanceAs (Decidable (_ ∧ _))

instance [DecidableEq τ] (range other : Range τ) : Decidable (range.Separate other) :=
  inferInstanceAs (Decidable (_ ∧ _))

theorem Apart.symm {range other : Range τ} (apart : range.Apart other) : other.Apart range :=
  fun here there inside insideToo same => apart there here insideToo inside same.symm

instance separate_symm : Std.Symm (Separate (τ := τ)) where
  symm _ _ separate := ⟨separate.1.symm, separate.2.symm⟩

end Range

/-! ## What has been registered -/

/-- The names of components of a family, with what stands in front of them. -/
def fullNames (family : τ) (front : Bytes) (names : List (UInt32 × Bytes)) :
    List (Bytes × Origin τ) :=
  names.map fun entry => (front ++ entry.2, ⟨family, entry.1⟩)

def Request.ranges : Request τ → List (Range τ)
  | .register family offset length => [⟨family, offset, length⟩]
  | _ => []

def Request.names : Request τ → List (Bytes × Origin τ)
  | .registerNames family front _ names => fullNames family front names
  | _ => []

/-- The ranges that have been registered. -/
def ranges (past : List (Request τ)) : List (Range τ) := past.flatMap Request.ranges

/-- The names that have been registered. -/
def named (past : List (Request τ)) : List (Bytes × Origin τ) := past.flatMap Request.names

/-- The family has been registered. -/
def Registered (past : List (Request τ)) (family : τ) : Prop :=
  ∃ range ∈ ranges past, range.family = family

/-- The component is within the range of its family, and lies at a place there. -/
def Lies (past : List (Request τ)) (origin : Origin τ) (place : UInt32) : Prop :=
  ∃ range ∈ ranges past, range.Holds origin ∧ range.place origin = place

/-- The component is within the range of its family. -/
def Within (past : List (Request τ)) (origin : Origin τ) : Prop :=
  ∃ range ∈ ranges past, range.Holds origin

/-- If the family of the component has been registered, the component is within its range. -/
def Fits (past : List (Request τ)) (origin : Origin τ) : Prop :=
  Registered past origin.family → Within past origin

/-- A name stands for a component, in some case of letters. -/
def Names (past : List (Request τ)) (name : Bytes) (origin : Origin τ) : Prop :=
  ∃ entry ∈ named past, entry.2 = origin ∧ Bytes.equalsIgnoringCase name entry.1 = true

/-- Names differ by more than case. -/
def Differ (entry other : Bytes × Origin τ) : Prop :=
  Bytes.equalsIgnoringCase entry.1 other.1 = false

instance differ_symm : Std.Symm (Differ (τ := τ)) where
  symm entry other differ := by
    rw [Differ, Bytes.equalsIgnoringCase, beq_eq_false_iff_ne] at differ ⊢
    exact differ.symm

/-- The request is proper after what has been asked before. -/
def Allowed (past : List (Request τ)) : Request τ → Prop
  | .register family offset length =>
      ∀ range ∈ ranges past, Range.Separate ⟨family, offset, length⟩ range
  | .registerNames family front _ names =>
      (∀ entry ∈ fullNames family front names, Within past entry.2) ∧
        (fullNames family front names ++ named past).Pairwise Differ
  | .setCommon _ _ => True
  | .set origin _ => Fits past origin
  | .setNamed _ _ => True

/-- Every request was proper when it came. -/
def Proper : List (Request τ) → Prop
  | [] => True
  | request :: past => Allowed past request ∧ Proper past

/-! ## What has been set -/

/-- The common limit that was set last. -/
def common (start : Severity) : List (Request τ) → Severity
  | [] => start
  | .setCommon limit _ :: _ => limit
  | _ :: past => common start past

section Decisions

variable [DecidableEq τ]

instance (past : List (Request τ)) (family : τ) : Decidable (Registered past family) :=
  inferInstanceAs (Decidable (∃ range ∈ ranges past, _))

instance (past : List (Request τ)) (origin : Origin τ) : Decidable (Within past origin) :=
  inferInstanceAs (Decidable (∃ range ∈ ranges past, _))

instance (past : List (Request τ)) (origin : Origin τ) : Decidable (Fits past origin) :=
  inferInstanceAs (Decidable (_ → Within past origin))

instance (past : List (Request τ)) (name : Bytes) (origin : Origin τ) :
    Decidable (Names past name origin) :=
  inferInstanceAs (Decidable (∃ entry ∈ named past, _))

instance : DecidableRel (Differ (τ := τ)) :=
  fun _ _ => inferInstanceAs (Decidable (_ = _))

instance decidableAllowed (past : List (Request τ)) :
    (request : Request τ) → Decidable (Allowed past request)
  | .register _ _ _ => inferInstanceAs (Decidable (∀ range ∈ ranges past, _))
  | .registerNames _ _ _ _ => inferInstanceAs (Decidable (_ ∧ List.Pairwise _ _))
  | .setCommon _ _ | .setNamed _ _ => isTrue trivial
  | .set origin _ => inferInstanceAs (Decidable (Fits past origin))

instance decidableProper : (past : List (Request τ)) → Decidable (Proper past)
  | [] => isTrue trivial
  | request :: past =>
      have := decidableProper past
      inferInstanceAs (Decidable (Allowed past request ∧ _))

/-- The limit that was set last for a component, by value or by a name of it, since the limits of
components were forgotten. What is set before its family is registered does not count. -/
def latest? (origin : Origin τ) : List (Request τ) → Option Severity
  | [] => none
  | .setCommon _ true :: _ => none
  | .set other limit :: past =>
      if other = origin ∧ Registered past origin.family then some limit else latest? origin past
  | .setNamed name limit :: past =>
      if Names past name origin then some limit else latest? origin past
  | _ :: past => latest? origin past

/-- The limit that applies to a component, or to messages without one. -/
def latest (start : Severity) (past : List (Request τ)) (origin : Option (Origin τ)) : Severity :=
  (origin.bind fun component => latest? component past).getD (common start past)

end Decisions

/-! ## Proper pasts -/

section Proper

variable {past : List (Request τ)} {request : Request τ} {origin other : Origin τ}
  {place spot : UInt32} {name : Bytes} {family : τ}

theorem fullNames_cons (family : τ) (front : Bytes) (number : UInt32) (name : Bytes)
    (names : List (UInt32 × Bytes)) :
    fullNames family front ((number, name) :: names) =
      (front ++ name, ⟨family, number⟩) :: fullNames family front names := rfl

theorem ranges_cons : ranges (request :: past) = request.ranges ++ ranges past := rfl

theorem named_cons : named (request :: past) = request.names ++ named past := rfl

theorem within_iff : Within past origin ↔ ∃ place, Lies past origin place := by
  constructor
  · rintro ⟨range, member, holds⟩
    exact ⟨_, range, member, holds, rfl⟩
  · rintro ⟨_, range, member, holds, -⟩
    exact ⟨range, member, holds⟩

theorem Lies.within (lies : Lies past origin place) : Within past origin :=
  within_iff.mpr ⟨place, lies⟩

theorem Within.registered (within : Within past origin) : Registered past origin.family := by
  obtain ⟨range, member, family, -⟩ := within
  exact ⟨range, member, family⟩

theorem Within.fits (within : Within past origin) : Fits past origin := fun _ => within

/-- What has been registered stays registered. -/
theorem Lies.cons (lies : Lies past origin place) : Lies (request :: past) origin place := by
  obtain ⟨range, member, known⟩ := lies
  exact ⟨range, List.mem_append_right _ member, known⟩

theorem Within.cons (within : Within past origin) : Within (request :: past) origin := by
  obtain ⟨range, member, known⟩ := within
  exact ⟨range, List.mem_append_right _ member, known⟩

theorem Registered.cons (registered : Registered past family) :
    Registered (request :: past) family := by
  obtain ⟨range, member, known⟩ := registered
  exact ⟨range, List.mem_append_right _ member, known⟩

/-- A family whose range is separate was not registered before. -/
theorem not_registered_of_separate {range : Range τ}
    (separate : ∀ other ∈ ranges past, range.Separate other) : ¬ Registered past range.family := by
  rintro ⟨other, member, same⟩
  exact (separate other member).1 same.symm

namespace Proper

/-- What came before proper requests were proper requests. -/
theorem of_append {front : List (Request τ)} (proper : Proper (front ++ past)) : Proper past := by
  induction front with
  | nil => exact proper
  | cons request front ih => exact ih proper.2

/-- Different ranges are separate. -/
theorem separate (proper : Proper past) : (ranges past).Pairwise Range.Separate := by
  induction past with
  | nil => exact .nil
  | cons request past ih =>
      obtain ⟨allowed, earlier⟩ := proper
      cases request with
      | register family offset length => exact .cons allowed (ih earlier)
      | registerNames | setCommon | set | setNamed => exact ih earlier

/-- Different names differ by more than case. -/
theorem differ (proper : Proper past) : (named past).Pairwise Differ := by
  induction past with
  | nil => exact .nil
  | cons request past ih =>
      obtain ⟨allowed, earlier⟩ := proper
      cases request with
      | registerNames family front numeric names => exact allowed.2
      | register | setCommon | set | setNamed => exact ih earlier

/-- What has a name is within the range of its family. -/
theorem within_of_names (proper : Proper past) (names : Names past name origin) :
    Within past origin := by
  induction past with
  | nil =>
      obtain ⟨entry, member, -⟩ := names
      cases member
  | cons request past ih =>
      obtain ⟨allowed, earlier⟩ := proper
      obtain ⟨entry, member, rfl, same⟩ := names
      rw [named_cons, List.mem_append] at member
      obtain fresh | known := member
      · cases request with
        | registerNames family front numeric names => exact (allowed.1 entry fresh).cons
        | register | setCommon | set | setNamed => cases fresh
      · exact (ih earlier ⟨entry, known, rfl, same⟩).cons

/-- A family has one range. -/
theorem range_eq (proper : Proper past) {range another : Range τ} (member : range ∈ ranges past)
    (memberToo : another ∈ ranges past) (same : range.family = another.family) :
    range = another := by
  by_contra different
  exact (proper.separate.forall member memberToo different).1 same

/-- A component lies at one place. -/
theorem place_eq (proper : Proper past) (lies : Lies past origin place)
    (liesToo : Lies past origin spot) : place = spot := by
  obtain ⟨range, member, ⟨family, -⟩, rfl⟩ := lies
  obtain ⟨another, memberToo, ⟨familyToo, -⟩, rfl⟩ := liesToo
  rw [proper.range_eq member memberToo (family.trans familyToo.symm)]

/-- **Components do not share places.** -/
theorem origin_eq (proper : Proper past) (lies : Lies past origin place)
    (liesToo : Lies past other place) : origin = other := by
  obtain ⟨range, member, ⟨family, inside⟩, rfl⟩ := lies
  obtain ⟨another, memberToo, ⟨familyToo, insideToo⟩, same⟩ := liesToo
  by_cases one : range = another
  · subst one
    have number : other.number = origin.number := (UInt32.add_right_inj _).mp same
    obtain ⟨_, _⟩ := origin
    obtain ⟨_, _⟩ := other
    cases number
    cases family
    cases familyToo
    rfl
  · have apart := (proper.separate.forall member memberToo one).2
    exact (apart _ _ inside insideToo same.symm).elim

/-- **A name stands for one component.** -/
theorem named_eq (proper : Proper past) (names : Names past name origin)
    (namesToo : Names past name other) : origin = other := by
  obtain ⟨entry, member, rfl, same⟩ := names
  obtain ⟨another, memberToo, rfl, sameToo⟩ := namesToo
  by_contra different
  have differ : Differ entry another :=
    proper.differ.forall member memberToo fun equal => different (congrArg Prod.snd equal)
  rw [Bytes.equalsIgnoringCase, beq_iff_eq] at same sameToo
  rw [Differ, Bytes.equalsIgnoringCase, beq_eq_false_iff_ne] at differ
  exact differ (same.symm.trans sameToo)

/-- Only components of registered families have limits. -/
theorem registered_of_latest? [DecidableEq τ] (proper : Proper past) {limit : Severity}
    (set : latest? origin past = some limit) : Registered past origin.family := by
  induction past with
  | nil => cases set
  | cons request past ih =>
      obtain ⟨-, earlier⟩ := proper
      cases request with
      | register | registerNames => exact (ih earlier set).cons
      | setCommon limit reset =>
          cases reset with
          | true => cases set
          | false => exact (ih earlier set).cons
      | set other limit =>
          rw [latest?] at set
          split at set
          next hit => exact hit.2.cons
          next => exact (ih earlier set).cons
      | setNamed name limit =>
          rw [latest?] at set
          split at set
          next hit => exact (earlier.within_of_names hit).registered.cons
          next => exact (ih earlier set).cons

theorem latest?_eq_none [DecidableEq τ] (proper : Proper past)
    (unregistered : ¬ Registered past origin.family) : latest? origin past = none :=
  Option.eq_none_iff_forall_ne_some.mpr fun _ set =>
    unregistered (proper.registered_of_latest? set)

end Proper

end Proper

end Collections.Log.Config
