import Mathlib.Algebra.Order.Floor.Div
import Collections.Proofs.Weak.RefMap.SegmentCount
import Collections.Weak.RefMap.Basic

/-!
# The sizes that a reference map is made with

A map is asked for a number of segments and for a capacity. Its number of segments is a power of
two, so the words below it are those that a mask leaves, and every hash has its segment
(`RefMapOptions.toNat_segmentIndex`). The capacity is spread over the segments, rounded up: each of
them reserves the quotient of capacity and segments (`RefMapOptions.toNat_perSegment`).

The arithmetic is that of 64-bit words, and has two limits. Beyond 2^63 segments doubling never ends,
so no map is made. And the sum of capacity and segments, from which the quotient is computed, wraps
around when it is beyond 2^64. What is left of it is less than one segment, so that nothing is
reserved (`RefMapOptions.perSegment_of_wraps`). Up to the limits all sizes are right, and beyond them
they are not (`sizes_are_right_iff`).
-/

set_option autoImplicit false

namespace Collections.Weak

namespace RefMapOptions

variable {capacity segments hash : UInt64}

/-! ## Segments of hashes -/

/-- The mask of a power of two leaves the remainder. -/
theorem toNat_segmentIndex {exponent : Nat} (power : segments.toNat = 2 ^ exponent) :
    (segmentIndex segments hash).toNat = (hash ^^^ (hash >>> 16)).toNat % segments.toNat := by
  have one : (1 : UInt64) ≤ segments := by
    rw [UInt64.le_iff_toNat_le, power]
    exact Nat.two_pow_pos exponent
  have mask : (segments - 1).toNat = 2 ^ exponent - 1 := by
    rw [UInt64.toNat_sub_of_le _ _ one, power]
    rfl
  rw [segmentIndex, UInt64.toNat_and, mask, Nat.and_two_pow_sub_one_eq_mod, power]

/-! ## Room in segments -/

/-- The dividend that rounds the quotient up, as a word. -/
theorem toNat_dividend (positive : 0 < segments.toNat) :
    (capacity + segments - 1).toNat = (capacity.toNat + segments.toNat - 1) % 2 ^ 64 := by
  have bounded := capacity.toNat_lt
  have count := segments.toNat_lt
  rw [UInt64.toNat_sub, UInt64.toNat_add]
  show (2 ^ 64 - 1 + (capacity.toNat + segments.toNat) % 2 ^ 64) % 2 ^ 64 = _
  omega

/-- Each segment reserves the quotient of capacity and segments, rounded up. -/
theorem toNat_perSegment (positive : 0 < segments.toNat)
    (fits : capacity.toNat + segments.toNat ≤ 2 ^ 64) :
    (perSegment capacity segments).toNat = capacity.toNat ⌈/⌉ segments.toNat := by
  have small : capacity.toNat + segments.toNat - 1 < 2 ^ 64 := by omega
  rw [perSegment, UInt64.toNat_div, toNat_dividend positive, Nat.mod_eq_of_lt small,
    Nat.ceilDiv_eq_add_pred_div]

/-- Once the sum wraps around, nothing is reserved. -/
theorem perSegment_of_wraps (wraps : 2 ^ 64 < capacity.toNat + segments.toNat) :
    (perSegment capacity segments).toNat = 0 := by
  have bounded := capacity.toNat_lt
  have count := segments.toNat_lt
  have left : (capacity.toNat + segments.toNat - 1) % 2 ^ 64 =
      capacity.toNat + segments.toNat - 1 - 2 ^ 64 := by omega
  rw [perSegment, UInt64.toNat_div, toNat_dividend (by omega), left]
  exact Nat.div_eq_of_lt (by omega)

/-- **The segments have room for the capacity together exactly if the sum does not wrap around.** -/
theorem le_perSegment_mul_iff (positive : 0 < segments.toNat) :
    capacity.toNat ≤ (perSegment capacity segments).toNat * segments.toNat ↔
      capacity.toNat + segments.toNat ≤ 2 ^ 64 := by
  constructor
  · intro room
    refine Nat.le_of_not_lt fun wraps => ?_
    have count := segments.toNat_lt
    rw [perSegment_of_wraps wraps] at room
    omega
  · intro fits
    rw [toNat_perSegment positive fits, Nat.mul_comm]
    exact le_smul_ceilDiv positive

end RefMapOptions

/-! ## Making maps -/

namespace RefMap

variable {κ ν : Type} {keying : Keying κ} {sameValue : ν → ν → Bool} {options : RefMapOptions}

/-- What the sizes of a map that has been made are computed from. -/
theorem sizes_of_make? {map : RefMap κ ν} (made : make? keying sameValue options = some (.ok map)) :
    RefMapOptions.segments? options.segmentCount = some map.segmentCount ∧
      map.reserved = RefMapOptions.perSegment options.initialCapacity map.segmentCount ∧
      map.keying = keying := by
  unfold make? at made
  split at made
  · obtain ⟨count, counted, same⟩ := Option.map_eq_some_iff.mp made
    obtain rfl := Except.ok.inj same
    exact ⟨counted, rfl, rfl⟩
  · cases made

/-- A map is made exactly if doubling reaches the number of segments. -/
theorem exists_make?_iff {keyKind valueKind : RefType} (keys : options.keyKind = some keyKind)
    (values : options.valueKind = some valueKind) (positive : 0 < options.segmentCount) :
    (∃ map : RefMap κ ν, make? keying sameValue options = some (.ok map)) ↔
      options.segmentCount.toNat ≤ 2 ^ 63 := by
  have nonzero : (options.segmentCount == 0) = false := by
    refine beq_false_of_ne fun zero => ?_
    rw [zero] at positive
    exact absurd positive (by decide)
  constructor
  · rintro ⟨map, made⟩
    exact (RefMapOptions.exists_doubled?_iff _).mp ⟨65, _, (sizes_of_make? made).1⟩
  · intro bounded
    obtain ⟨segments, counted, -⟩ := RefMapOptions.segments?_eq_clog bounded
    rw [make?, nonzero, keys, values, counted]
    exact ⟨_, rfl⟩

end RefMap

/-- **When the sizes of a map are right.** For every number of segments but zero and every capacity:
to double one ends exactly if the number is at most 2^63, and exactly then a map is made. Its number of
segments is the least power of two that is not below what was asked for, and every hash has a segment
below that number, in which all keys of the hash are. The segments have room for the capacity
exactly if the sum of both is at most 2^64. -/
theorem sizes_are_right_iff {κ ν : Type} (keying : Keying κ) (sameValue : ν → ν → Bool)
    (options : RefMapOptions) (keyKind valueKind : RefType) (keys : options.keyKind = some keyKind)
    (values : options.valueKind = some valueKind) (positive : 0 < options.segmentCount) :
    ((∃ rounds segments, RefMapOptions.doubled? options.segmentCount rounds 1 = some segments) ↔
        options.segmentCount.toNat ≤ 2 ^ 63) ∧
      ((∃ map : RefMap κ ν, RefMap.make? keying sameValue options = some (.ok map)) ↔
        options.segmentCount.toNat ≤ 2 ^ 63) ∧
      ∀ map : RefMap κ ν, RefMap.make? keying sameValue options = some (.ok map) →
        map.segmentCount.toNat = 2 ^ Nat.clog 2 options.segmentCount.toNat ∧
        (∀ hash, (RefMapOptions.segmentIndex map.segmentCount hash).toNat < map.segmentCount.toNat ∧
          ∀ key, keying.hash key = hash →
            map.home key = (RefMapOptions.segmentIndex map.segmentCount hash).toNat) ∧
        (options.initialCapacity.toNat ≤ map.reserved.toNat * map.segmentCount.toNat ↔
          options.initialCapacity.toNat + map.segmentCount.toNat ≤ 2 ^ 64) := by
  refine ⟨RefMapOptions.exists_doubled?_iff _, RefMap.exists_make?_iff keys values positive, ?_⟩
  intro map made
  obtain ⟨counted, reserved, known⟩ := RefMap.sizes_of_make? made
  have bounded := (RefMap.exists_make?_iff keys values positive).mp ⟨map, made⟩
  obtain ⟨segments, again, power, -⟩ := RefMapOptions.segments?_eq_clog bounded
  obtain rfl := Option.some.inj (counted.symm.trans again)
  have some_segment : 0 < map.segmentCount.toNat := power ▸ Nat.two_pow_pos _
  refine ⟨power, fun hash => ⟨?_, ?_⟩, ?_⟩
  · rw [RefMapOptions.toNat_segmentIndex power]
    exact Nat.mod_lt _ some_segment
  · rintro key rfl
    rw [RefMap.home, known]
  · rw [reserved]
    exact RefMapOptions.le_perSegment_mul_iff some_segment

/-- Three segments are asked for, with room for a thousand. There are four, with room for 250 each. -/
theorem sizes_are_right_iff_of_thousand :
    let options : RefMapOptions := { segmentCount := 3, initialCapacity := 1000 }
    ∃ map : RefMap Object Object, RefMap.make? Keying.plain (· == ·) options = some (.ok map) ∧
      map.segmentCount = 4 ∧
      options.initialCapacity.toNat ≤ map.reserved.toNat * map.segmentCount.toNat := by
  intro options
  obtain ⟨-, ⟨-, exists_map⟩, right⟩ := sizes_are_right_iff Keying.plain
    (fun left right : Object => left == right) options .strong .strong rfl rfl (by decide)
  obtain ⟨map, made⟩ := exists_map (by decide)
  obtain ⟨power, -, roomy⟩ := right map made
  have four : map.segmentCount.toNat = 4 := by
    rw [power]
    decide
  exact ⟨map, made, UInt64.toNat_inj.mp four, roomy.mpr (by rw [four]; decide)⟩

/-- With one segment more than 2^63, doubling never ends and no map is made. -/
theorem doubling_never_ends_beyond_limit :
    (∀ rounds, RefMapOptions.doubled? 9223372036854775809 rounds 1 = none) ∧
      (RefMap.make? Keying.plain (fun left right : Object => left == right)
        { segmentCount := 9223372036854775809 }).isNone :=
  ⟨fun rounds => RefMapOptions.doubled?_eq_none (by decide) rounds (.inr ⟨0, by decide, rfl⟩), rfl⟩

end Collections.Weak
