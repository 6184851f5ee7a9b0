import Mathlib.Data.BitVec
import ArchCompSystems.Library.Memory

namespace ArchCompSystems.Library

def signMask (negative : Bool) : Word := if negative then BitVec.allOnes 32 else 0

def negateIf (negative : Bool) (x : Word) : Word := if negative then -x else x

def isNegative (x : Word) : Bool := x.slt 0

section

variable {x a b : Word} {negative : Bool}

theorem isNegative_eq : isNegative x = decide (x.toInt < 0) := by
  rw [isNegative, BitVec.slt_eq_decide]
  rfl

theorem sshiftRight_sign : x.sshiftRight 31 = signMask (isNegative x) := by
  have sign : isNegative x = x.msb := BitVec.slt_zero_eq_msb
  apply BitVec.eq_of_getLsbD_eq
  intro i bound
  rw [sign, BitVec.getLsbD_sshiftRight, decide_eq_false (not_le.mpr bound), Bool.not_false, Bool.true_and]
  have bit : (if 31 + i < 32 then x.getLsbD (31 + i) else x.msb) = x.msb := by
    split
    · rw [show 31 + i = 31 by omega, BitVec.msb_eq_getLsbD_last]
    · rfl
  rw [bit]
  cases x.msb with
  | true => rw [signMask, if_pos rfl, BitVec.getLsbD_allOnes, decide_eq_true bound]
  | false => rw [signMask, if_neg Bool.false_ne_true]; exact BitVec.getLsbD_zero.symm

theorem xor_sub_signMask : (x ^^^ signMask negative) - signMask negative = negateIf negative x := by
  cases negative with
  | true =>
    rw [signMask, if_pos rfl, BitVec.xor_allOnes, negateIf, if_pos rfl, BitVec.neg_eq_not_add,
      ← BitVec.neg_one_eq_allOnes, sub_neg_eq_add]
  | false =>
    rw [signMask, if_neg Bool.false_ne_true, negateIf, if_neg Bool.false_ne_true]
    exact (BitVec.sub_zero _).trans BitVec.xor_zero

theorem shift_flag : ((if negative then 1 else 0 : Word) <<< (31 : Word)).sshiftRight 31 = signMask negative := by
  cases negative <;> decide

theorem natAbs_toInt_le : x.toInt.natAbs ≤ 2 ^ 31 := by
  have lower := BitVec.le_toInt x
  have upper := BitVec.toInt_lt (x := x)
  omega

theorem toNat_magnitude : (negateIf (isNegative x) x).toNat = x.toInt.natAbs := by
  have value := BitVec.toInt_eq_toNat_cond x
  have bound := x.isLt
  rw [isNegative_eq, negateIf]
  by_cases below : x.toInt < 0
  · rw [decide_eq_true below, if_pos rfl, BitVec.toNat_neg]
    split at value <;> omega
  · rw [decide_eq_false below, if_neg Bool.false_ne_true]
    split at value <;> omega

theorem natAbs_toInt_lt (above : x ≠ BitVec.intMin 32) : x.toInt.natAbs < 2 ^ 31 := by
  have lower := BitVec.le_toInt x
  have upper := BitVec.toInt_lt (x := x)
  have least : (BitVec.intMin 32).toInt = -2 ^ 31 := BitVec.toInt_intMin_of_pos (by decide)
  have different : x.toInt ≠ -2 ^ 31 := fun same => above (BitVec.eq_of_toInt_eq (same.trans least.symm))
  omega

theorem toInt_ofNat {n : Nat} (bound : n < 2 ^ 31) : (BitVec.ofNat 32 n).toInt = n := by
  have small : (BitVec.ofNat 32 n).toNat = n := by
    rw [BitVec.toNat_ofNat]
    omega
  rw [BitVec.toInt_eq_toNat_of_lt (by omega), small]

theorem slt_ofNat {m n : Nat} (bound : m < 2 ^ 31) (bound' : n < 2 ^ 31) :
    (BitVec.ofNat 32 m).slt (BitVec.ofNat 32 n) = decide (m < n) := by
  rw [BitVec.slt_eq_decide, toInt_ofNat bound, toInt_ofNat bound']
  exact decide_eq_decide.mpr Int.ofNat_lt

theorem ofNat_not_negative {n : Nat} (bound : n < 2 ^ 31) : (BitVec.ofNat 32 n).slt 0 = false :=
  (slt_ofNat (n := 0) bound (by decide)).trans (decide_eq_false (Nat.not_lt_zero n))

theorem ofNat_inj {m n : Nat} (bound : m < 2 ^ 32) (bound' : n < 2 ^ 32) :
    BitVec.ofNat 32 m = BitVec.ofNat 32 n ↔ m = n := by
  refine ⟨fun same => ?_, fun same => by rw [same]⟩
  have values := congrArg BitVec.toNat same
  rwa [BitVec.toNat_ofNat, BitVec.toNat_ofNat, Nat.mod_eq_of_lt bound, Nat.mod_eq_of_lt bound'] at values

theorem ofNat_sub_ofNat {m n : Nat} (le : n ≤ m) : BitVec.ofNat 32 m - BitVec.ofNat 32 n = BitVec.ofNat 32 (m - n) := by
  conv_lhs => rw [← Nat.sub_add_cancel le, BitVec.ofNat_add]
  exact add_sub_cancel_right _ _

theorem magnitude_eq_ofNat : negateIf (isNegative x) x = BitVec.ofNat 32 x.toInt.natAbs := by
  rw [← toNat_magnitude, BitVec.ofNat_toNat, BitVec.setWidth_eq]

theorem xor_flags {p q : Bool} : ((if p then 1 else 0 : Word) ^^^ if q then 1 else 0) = if p ^^ q then 1 else 0 := by
  cases p <;> cases q <;> rfl

theorem negateIf_ofNat {n : Nat} :
    negateIf negative (BitVec.ofNat 32 n) = BitVec.ofInt 32 (if negative then -(n : Int) else n) := by
  cases negative with
  | true => rw [negateIf, if_pos rfl, if_pos rfl, BitVec.ofInt_neg, BitVec.ofInt_natCast]
  | false => rw [negateIf, if_neg Bool.false_ne_true, if_neg Bool.false_ne_true, BitVec.ofInt_natCast]

def Fits (value : Int) : Prop := -2 ^ 31 ≤ value ∧ value < 2 ^ 31

instance {value : Int} : Decidable (Fits value) := inferInstanceAs (Decidable (_ ∧ _))

def carries (sum summand : Word) : Bool :=
  (0 : Word).slt summand && (sum + summand).slt sum || summand.slt 0 && sum.slt (sum + summand)

theorem fits_toInt : Fits x.toInt := by
  have lower := BitVec.le_toInt x
  have upper := BitVec.toInt_lt (x := x)
  exact ⟨lower, upper⟩

theorem toInt_add_of_fits (fits : Fits (a.toInt + b.toInt)) : (a + b).toInt = a.toInt + b.toInt := by
  obtain ⟨lower, upper⟩ := fits
  rw [BitVec.toInt_add]
  apply Int.bmod_eq_of_le <;> omega

theorem carries_iff : carries a b = true ↔ ¬ Fits (a.toInt + b.toInt) := by
  obtain ⟨lower, upper⟩ := @fits_toInt a
  obtain ⟨lower', upper'⟩ := @fits_toInt b
  obtain ⟨lower'', upper''⟩ := @fits_toInt (a + b)
  have zero : (0 : Word).toInt = 0 := rfl
  simp only [carries, BitVec.slt_eq_decide, zero, Bool.or_eq_true, Bool.and_eq_true, decide_eq_true_eq]
  by_cases fits : Fits (a.toInt + b.toInt)
  · rw [toInt_add_of_fits fits]
    refine iff_of_false ?_ (not_not.mpr fits)
    omega
  · refine iff_of_true ?_ fits
    have wrapped : (a + b).toInt = a.toInt + b.toInt - 2 ^ 32 ∨ (a + b).toInt = a.toInt + b.toInt + 2 ^ 32 := by
      have value := BitVec.toInt_add a b
      rw [Int.bmod_def] at value
      simp only [Fits] at fits
      split at value <;> omega
    simp only [Fits] at fits
    omega

theorem eq_neg_natAbs {x : Int} (negative : x < 0) : x = -(x.natAbs : Int) := by omega

theorem eq_natAbs {x : Int} (nonnegative : ¬ x < 0) : x = x.natAbs := by omega

theorem tdiv_magnitudes (x y : Int) :
    x.tdiv y = if (decide (x < 0) ^^ decide (y < 0)) = true then -((x.natAbs / y.natAbs : Nat) : Int)
      else (x.natAbs / y.natAbs : Nat) := by
  rw [Int.ofNat_tdiv]
  by_cases negative : x < 0
  · by_cases negative' : y < 0
    · rw [decide_eq_true negative, decide_eq_true negative', Bool.xor_self, if_neg Bool.false_ne_true]
      conv_lhs => rw [eq_neg_natAbs negative, eq_neg_natAbs negative']
      exact Int.neg_tdiv_neg _ _
    · rw [decide_eq_true negative, decide_eq_false negative', Bool.xor_false, if_pos rfl]
      conv_lhs => rw [eq_neg_natAbs negative, eq_natAbs negative']
      exact Int.neg_tdiv _ _
  · by_cases negative' : y < 0
    · rw [decide_eq_false negative, decide_eq_true negative', Bool.false_xor, if_pos rfl]
      conv_lhs => rw [eq_natAbs negative, eq_neg_natAbs negative']
      exact Int.tdiv_neg _ _
    · rw [decide_eq_false negative, decide_eq_false negative', Bool.xor_self, if_neg Bool.false_ne_true]
      conv_lhs => rw [eq_natAbs negative, eq_natAbs negative']

theorem tmod_magnitudes (x y : Int) :
    x.tmod y = if x < 0 then -((x.natAbs % y.natAbs : Nat) : Int) else (x.natAbs % y.natAbs : Nat) := by
  have size := Int.natAbs_tmod x y
  by_cases negative : x < 0
  · have sign : 0 ≤ (-x).tmod y := Int.tmod_nonneg y (by omega)
    rw [Int.neg_tmod] at sign
    rw [if_pos negative, ← size]
    omega
  · have sign : 0 ≤ x.tmod y := Int.tmod_nonneg y (by omega)
    rw [if_neg negative, ← size]
    omega

/-- The quotient `q` and the remainder `r` of signed division, truncated toward zero. -/
structure DividesInto (a b q r : Word) : Prop where
  quotient : q = BitVec.ofInt 32 (a.toInt.tdiv b.toInt)
  remainder : r = a - b * q
  smaller : r.toInt.natAbs < b.toInt.natAbs
  sign : r = 0 ∨ (r.toInt < 0 ↔ a.toInt < 0)

theorem dividesInto_magnitudes (nonzero : b ≠ 0) :
    DividesInto a b
      (negateIf (isNegative a ^^ isNegative b) (BitVec.ofNat 32 (a.toInt.natAbs / b.toInt.natAbs)))
      (negateIf (isNegative a) (BitVec.ofNat 32 (a.toInt.natAbs % b.toInt.natAbs))) := by
  have positive : 0 < b.toInt.natAbs := by
    refine Int.natAbs_pos.mpr fun zero => nonzero (BitVec.eq_of_toInt_eq zero)
  have bound := @natAbs_toInt_le b
  have smaller := Nat.mod_lt a.toInt.natAbs positive
  have quotient : negateIf (isNegative a ^^ isNegative b) (BitVec.ofNat 32 (a.toInt.natAbs / b.toInt.natAbs)) =
      BitVec.ofInt 32 (a.toInt.tdiv b.toInt) := by
    rw [negateIf_ofNat, tdiv_magnitudes, isNegative_eq, isNegative_eq]
  have remainder : negateIf (isNegative a) (BitVec.ofNat 32 (a.toInt.natAbs % b.toInt.natAbs)) =
      BitVec.ofInt 32 (a.toInt.tmod b.toInt) := by
    rw [negateIf_ofNat, tmod_magnitudes, isNegative_eq]
    simp only [decide_eq_true_eq]
  have value : (BitVec.ofInt 32 (a.toInt.tmod b.toInt)).toInt = a.toInt.tmod b.toInt := by
    have size := Int.natAbs_tmod a.toInt b.toInt
    rw [BitVec.toInt_ofInt]
    refine Int.bmod_eq_of_le ?_ ?_ <;> omega
  rw [quotient, remainder]
  refine ⟨rfl, ?_, ?_, ?_⟩
  · rw [Int.tmod_def, Int.sub_eq_add_neg, BitVec.ofInt_add, BitVec.ofInt_neg, BitVec.ofInt_mul,
      BitVec.ofInt_toInt, BitVec.ofInt_toInt, BitVec.sub_eq_add_neg]
  · rw [value, Int.natAbs_tmod]
    exact smaller
  · rw [value]
    by_cases zero : a.toInt.tmod b.toInt = 0
    · left
      rw [zero]
      rfl
    · right
      have size := tmod_magnitudes a.toInt b.toInt
      split at size <;> omega

end

end ArchCompSystems.Library
