import Mathlib.Algebra.Ring.Nat
import Mathlib.Data.Nat.Log
import Collections.Weak.RefMap.Options

/-!
# The number of segments

One is doubled until it reaches the number of segments that was asked for. Up to 2^63 that works
out: the result is the least power of two that is not below the number
(`RefMapOptions.segments?_eq`). Beyond, doubling goes from 2^63 to zero and stays there, so no number
of rounds is enough (`RefMapOptions.doubled?_eq_none`).
-/

set_option autoImplicit false

namespace Collections.Weak.RefMapOptions

theorem toNat_two_mul {count : UInt64} {exponent : Nat} (power : count.toNat = 2 ^ exponent)
    (room : exponent < 63) : (2 * count).toNat = 2 ^ (exponent + 1) := by
  have below : 2 ^ (exponent + 1) < 2 ^ 64 := Nat.pow_lt_pow_right (by decide) (by omega)
  have doubled : UInt64.toNat 2 * 2 ^ exponent = 2 ^ (exponent + 1) := (Nat.pow_succ' ..).symm
  rw [UInt64.toNat_mul, power, doubled]
  exact Nat.mod_eq_of_lt below

/-- Doubling reaches a bound that is not beyond the largest power of two, and stops at the first
power that does. -/
theorem doubled?_eq {bound : UInt64} (bounded : bound.toNat ≤ 2 ^ 63) (rounds : Nat)
    {count : UInt64} {exponent : Nat} (power : count.toNat = 2 ^ exponent) (small : exponent ≤ 63)
    (enough : 63 < exponent + rounds)
    (below : ∀ smaller, smaller < exponent → 2 ^ smaller < bound.toNat) :
    ∃ segments last, doubled? bound rounds count = some segments ∧ last ≤ 63 ∧
      segments.toNat = 2 ^ last ∧ bound.toNat ≤ 2 ^ last ∧
      ∀ smaller, smaller < last → 2 ^ smaller < bound.toNat := by
  induction rounds generalizing count exponent with
  | zero => omega
  | succ rounds ih =>
      rw [doubled?]
      by_cases short : count < bound
      · rw [if_pos short]
        have shorter : 2 ^ exponent < bound.toNat := by
          rw [← power]
          exact UInt64.lt_iff_toNat_lt.mp short
        have room : exponent < 63 :=
          (Nat.pow_lt_pow_iff_right (by decide)).mp (Nat.lt_of_lt_of_le shorter bounded)
        refine ih (toNat_two_mul power room) room (by omega) fun smaller less => ?_
        rcases Nat.lt_or_eq_of_le (Nat.lt_succ_iff.mp less) with earlier | rfl
        · exact below smaller earlier
        · exact shorter
      · rw [if_neg short]
        refine ⟨count, exponent, rfl, small, power, ?_, below⟩
        rw [← power]
        exact Nat.le_of_not_lt fun less => short (UInt64.lt_iff_toNat_lt.mpr less)

/-- **The number of segments is the least power of two that is not below the number that was asked
for.** -/
theorem segments?_eq {count : UInt64} (bounded : count.toNat ≤ 2 ^ 63) :
    ∃ segments last, segments? count = some segments ∧ last ≤ 63 ∧ segments.toNat = 2 ^ last ∧
      count.toNat ≤ 2 ^ last ∧ ∀ smaller, smaller < last → 2 ^ smaller < count.toNat :=
  doubled?_eq bounded 65 rfl (by omega) (by omega)
    fun _ none => absurd none (Nat.not_lt_zero _)

/-- The same, told by the upper logarithm. -/
theorem segments?_eq_clog {count : UInt64} (bounded : count.toNat ≤ 2 ^ 63) :
    ∃ segments, segments? count = some segments ∧
      segments.toNat = 2 ^ Nat.clog 2 count.toNat ∧ Nat.clog 2 count.toNat ≤ 63 := by
  obtain ⟨segments, last, counted, small, power, reached, below⟩ := segments?_eq bounded
  have least : last = Nat.clog 2 count.toNat := by
    refine Nat.le_antisymm (Nat.le_of_not_lt fun shorter => ?_) (Nat.clog_le_of_le_pow reached)
    exact Nat.not_le_of_lt (below _ shorter) (Nat.le_pow_clog (by decide) _)
  exact ⟨segments, counted, least ▸ power, least ▸ small⟩

/-- A number that doubling one can come to: a power of two, or zero once all bits are shifted
out. -/
def Doubling (count : UInt64) : Prop :=
  count.toNat = 0 ∨ ∃ exponent ≤ 63, count.toNat = 2 ^ exponent

namespace Doubling

variable {count : UInt64}

theorem le (doubling : Doubling count) : count.toNat ≤ 2 ^ 63 := by
  obtain zero | ⟨exponent, small, power⟩ := doubling
  · exact zero ▸ Nat.zero_le _
  · exact power ▸ Nat.pow_le_pow_right (by decide) small

theorem double (doubling : Doubling count) : Doubling (2 * count) := by
  obtain zero | ⟨exponent, small, power⟩ := doubling
  · refine .inl ?_
    rw [UInt64.toNat_mul, zero]
    rfl
  · rcases Nat.lt_or_eq_of_le small with room | rfl
    · exact .inr ⟨exponent + 1, room, toNat_two_mul power room⟩
    · refine .inl ?_
      rw [UInt64.toNat_mul, power]
      rfl

end Doubling

/-- **Beyond the largest power of two doubling never ends.** -/
theorem doubled?_eq_none {bound : UInt64} (beyond : 2 ^ 63 < bound.toNat) (rounds : Nat)
    {count : UInt64} (doubling : Doubling count) : doubled? bound rounds count = none := by
  induction rounds generalizing count with
  | zero => rfl
  | succ rounds ih =>
      have short : count < bound :=
        UInt64.lt_iff_toNat_lt.mpr (Nat.lt_of_le_of_lt doubling.le beyond)
      rw [doubled?, if_pos short]
      exact ih doubling.double

/-- Doubling one reaches a number exactly if the number is not beyond the largest power of two. -/
theorem exists_doubled?_iff (count : UInt64) :
    (∃ rounds segments, doubled? count rounds 1 = some segments) ↔ count.toNat ≤ 2 ^ 63 := by
  constructor
  · rintro ⟨rounds, segments, counted⟩
    refine Nat.le_of_not_lt fun beyond => ?_
    rw [doubled?_eq_none beyond rounds (.inr ⟨0, Nat.zero_le _, rfl⟩)] at counted
    cases counted
  · intro bounded
    obtain ⟨segments, -, counted, -⟩ := segments?_eq bounded
    exact ⟨65, segments, counted⟩

end Collections.Weak.RefMapOptions
