import Mathlib.Data.BitVec
import Mathlib.Tactic.Ring
import ArchCompSystems.Library.BinaryPower

namespace ArchCompSystems.OsHw2

open Library

theorem toInt_half (p : BitVec 64) : (p.sdiv 2).toInt = p.toInt.tdiv 2 :=
  BitVec.toInt_sdiv_of_ne_or_ne p 2 (Or.inr (by decide))

/-- The `while true` loop; its result is the `res` that it prints. -/
def binPowLoop (n p res : BitVec 64) : BitVec 64 :=
  let res := if p &&& 1 ≠ 0 then res * n else res
  if p.sdiv 2 = 0 then res else binPowLoop (n * n) (p.sdiv 2) res
termination_by p.toInt.natAbs
decreasing_by
  rename_i goesOn
  have half := toInt_half p
  have positive : (p.sdiv 2).toInt ≠ 0 := fun zero => goesOn (BitVec.eq_of_toInt_eq zero)
  rw [half] at positive ⊢
  rw [Int.natAbs_tdiv]
  have nonzero : p.toInt ≠ 0 := fun zero => positive (by rw [zero]; rfl)
  exact Nat.div_lt_self (Int.natAbs_pos.mpr nonzero) (by decide)

/-- What `bin_pow` prints: a number, or what it says instead. -/
def binPow (n p : BitVec 64) : Except String Int :=
  if p.slt 0 then .error "exponent should be non-negative integer" else .ok (binPowLoop n p 1).toInt

theorem toInt_eq_toNat {p : BitVec 64} (nonnegative : 0 ≤ p.toInt) : p.toInt = p.toNat := by
  have value := BitVec.toInt_eq_toNat_cond p
  have bound := p.isLt
  split at value <;> omega

theorem half_of_nonnegative {p : BitVec 64} (nonnegative : 0 ≤ p.toInt) :
    0 ≤ (p.sdiv 2).toInt ∧ (p.sdiv 2).toNat = p.toNat / 2 := by
  have half := toInt_half p
  rw [toInt_eq_toNat nonnegative, Int.tdiv_eq_ediv_of_nonneg (Int.natCast_nonneg _)] at half
  have remains : 0 ≤ (p.sdiv 2).toInt := by omega
  refine ⟨remains, ?_⟩
  rw [toInt_eq_toNat remains] at half
  omega

theorem odd_iff (p : BitVec 64) : p &&& 1 ≠ 0 ↔ p.toNat % 2 ≠ 0 := by
  have last : (p &&& 1).toNat = p.toNat % 2 := by
    rw [BitVec.toNat_and]
    exact Nat.and_one_is_mod _
  rw [not_iff_not, ← BitVec.toNat_inj, last]
  rfl

theorem binPowLoop_eq (n p res : BitVec 64) (nonnegative : 0 ≤ p.toInt) :
    binPowLoop n p res = binaryPower p.toNat n res := by
  induction n, p, res using binPowLoop.induct with
  | case1 n p res ends =>
    have last : p.toNat / 2 = 0 := by
      rw [← (half_of_nonnegative nonnegative).2, ends]
      rfl
    rw [binPowLoop, binaryPower, if_pos ends, if_pos last]
    simp only [odd_iff]
  | case2 n p res res' goesOn ih =>
    obtain ⟨remains, half⟩ := half_of_nonnegative nonnegative
    have continues : p.toNat / 2 ≠ 0 := by
      rw [← half]
      exact fun zero => goesOn (BitVec.eq_of_toNat_eq zero)
    rw [binPowLoop, binaryPower, if_neg goesOn, if_neg continues, ← half]
    simp only [odd_iff, res'] at ih ⊢
    exact ih remains

theorem toInt_pow (n : BitVec 64) (p : Nat) : (n ^ p).toInt = (n.toInt ^ p).bmod (2 ^ 64) := by
  induction p with
  | zero =>
    rw [pow_zero, pow_zero]
    rfl
  | succ p ih =>
    rw [pow_succ, pow_succ, BitVec.toInt_mul, ih, Int.bmod_mul_bmod]

/-- For every exponent that is not negative the loop ends, and the printed number is the power
modulo 2^64 in the signed range. -/
theorem bin_pow_exact (n p : BitVec 64) (nonnegative : 0 ≤ p.toInt) :
    binPow n p = .ok ((n.toInt ^ p.toInt.toNat).bmod (2 ^ 64)) := by
  have accepted : p.slt 0 = false := by
    rw [BitVec.slt_eq_decide]
    exact decide_eq_false (not_lt.mpr nonnegative)
  have exponent : p.toInt.toNat = p.toNat := by
    rw [toInt_eq_toNat nonnegative, Int.toNat_natCast]
  rw [binPow, accepted, if_neg Bool.false_ne_true, binPowLoop_eq n p 1 nonnegative, binaryPower_eq,
    exponent, ← toInt_pow]
  congr 2
  exact one_mul _

theorem bin_pow_negative_base :
    0 ≤ (5 : BitVec 64).toInt ∧ binPow (-10) 5 = .ok (((-10 : BitVec 64).toInt ^ 5).bmod (2 ^ 64)) :=
  ⟨by decide, bin_pow_exact (-10) 5 (by decide)⟩

end ArchCompSystems.OsHw2
