import Mathlib.Data.BitVec
import Mathlib.Data.Nat.Factorial.Basic

namespace ArchCompSystems.OsHw3

open scoped Nat

theorem toNat_next {n : BitVec 32} {i : BitVec 64} (goesOn : i ≤ n.setWidth 64) :
    i.toNat ≤ n.toNat ∧ (i + 1).toNat = i.toNat + 1 := by
  have le : i.toNat ≤ n.toNat := by
    rw [BitVec.le_def, BitVec.toNat_setWidth_of_le (by decide)] at goesOn
    exact goesOn
  have bound := n.isLt
  refine ⟨le, ?_⟩
  rw [BitVec.toNat_add]
  exact Nat.mod_eq_of_lt (by change i.toNat + 1 < 2 ^ 64; omega)

/-- The `for` loop: the flag and `ans`. -/
def factorialLoop (n : BitVec 32) (i : BitVec 64) (overflowOccured : Bool) (ans : BitVec 64) :
    Bool × BitVec 64 :=
  if i ≤ n.setWidth 64 then
    factorialLoop n (i + 1) (overflowOccured || ans.umulOverflow i) (ans * i)
  else (overflowOccured, ans)
termination_by n.toNat + 1 - i.toNat
decreasing_by
  rename_i goesOn
  obtain ⟨le, next⟩ := toNat_next goesOn
  rw [next]
  omega

/-- The returned flag and `*factorial`. -/
def calculateFactorial (n : BitVec 32) : Bool × BitVec 64 :=
  factorialLoop n 2 false 1

def Represents (result : Bool × BitVec 64) (number : Nat) : Prop :=
  result.2.toNat = number % 2 ^ 64 ∧ (result.1 = true ↔ 2 ^ 64 ≤ number)

theorem Represents.times {overflowOccured : Bool} {ans : BitVec 64} {number : Nat}
    (represents : Represents (overflowOccured, ans) number) {i : BitVec 64} (positive : 0 < i.toNat) :
    Represents (overflowOccured || ans.umulOverflow i, ans * i) (number * i.toNat) := by
  obtain ⟨word, flag⟩ := represents
  dsimp only at word flag
  refine ⟨?_, ?_⟩
  · rw [BitVec.toNat_mul, word, Nat.mod_mul_mod]
  · have overflow : ans.umulOverflow i = true ↔ 2 ^ 64 ≤ ans.toNat * i.toNat := decide_eq_true_iff
    rw [Bool.or_eq_true, overflow, flag]
    by_cases large : 2 ^ 64 ≤ number
    · have grows : number ≤ number * i.toNat := Nat.le_mul_of_pos_right number positive
      exact iff_of_true (Or.inl large) (Nat.le_trans large grows)
    · rw [word, Nat.mod_eq_of_lt (not_le.mp large), or_iff_right large]

theorem factorialLoop_represents (n : BitVec 32) (i : BitVec 64) (overflowOccured : Bool)
    (ans : BitVec 64) (k : Nat) (reached : i.toNat = k + 1) (inside : k ≤ n.toNat)
    (represents : Represents (overflowOccured, ans) k !) :
    Represents (factorialLoop n i overflowOccured ans) n.toNat ! := by
  induction i, overflowOccured, ans using factorialLoop.induct n generalizing k with
  | case1 i overflowOccured ans goesOn ih =>
    obtain ⟨le, next⟩ := toNat_next goesOn
    rw [factorialLoop, if_pos goesOn]
    refine ih (k + 1) (by omega) (by omega) ?_
    rw [Nat.factorial_succ, Nat.mul_comm, ← reached]
    exact represents.times (by omega)
  | case2 i overflowOccured ans ends =>
    have last : k = n.toNat := by
      rw [BitVec.le_def, BitVec.toNat_setWidth_of_le (by decide)] at ends
      omega
    rw [factorialLoop, if_neg ends, ← last]
    exact represents

/-- The loop ends for every number, the word is exact modulo 2^64 and the flag says whether the
factorial fits. -/
theorem calculate_factorial_exact (n : BitVec 32) :
    (calculateFactorial n).2.toNat = n.toNat ! % 2 ^ 64 ∧
      ((calculateFactorial n).1 = true ↔ 2 ^ 64 ≤ n.toNat !) := by
  rcases Nat.eq_zero_or_pos n.toNat with zero | positive
  · obtain rfl : n = 0 := BitVec.eq_of_toNat_eq zero
    have last : ¬ (2 : BitVec 64) ≤ (0 : BitVec 32).setWidth 64 := by decide
    rw [calculateFactorial, factorialLoop, if_neg last]
    decide
  · exact factorialLoop_represents n 2 false 1 1 rfl positive ⟨rfl, by decide⟩

end ArchCompSystems.OsHw3
