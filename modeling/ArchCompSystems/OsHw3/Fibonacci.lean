import Mathlib.Data.BitVec
import Mathlib.Data.Nat.Fib.Basic
import Mathlib.LinearAlgebra.Matrix.Notation
import Mathlib.Tactic.LinearCombination
import Mathlib.Tactic.Ring
import ArchCompSystems.Library.BinaryPower

namespace ArchCompSystems.OsHw3

open Library Matrix

abbrev UInt64Matrix := Matrix (Fin 2) (Fin 2) (BitVec 64)

/-- The `tmp` of both assignments. -/
def product (a b : UInt64Matrix) : UInt64Matrix :=
  !![a 0 0 * b 0 0 + a 0 1 * b 1 0, a 0 0 * b 0 1 + a 0 1 * b 1 1;
     a 1 0 * b 0 0 + a 1 1 * b 1 0, a 1 0 * b 0 1 + a 1 1 * b 1 1]

/-- The `while (true)` loop; its result is the last `fibmatrix`. -/
def fibonacciLoop (n : BitVec 32) (powMatrix fibMatrix : UInt64Matrix) : UInt64Matrix :=
  let fibMatrix := if n % 2 ≠ 0 then product fibMatrix powMatrix else fibMatrix
  if n / 2 = 0 then fibMatrix else fibonacciLoop (n / 2) (product powMatrix powMatrix) fibMatrix
termination_by n.toNat
decreasing_by
  rename_i goesOn
  have half : (n / 2).toNat = n.toNat / 2 := rfl
  have positive : (n / 2).toNat ≠ 0 := fun zero => goesOn (BitVec.eq_of_toNat_eq zero)
  omega

/-- The returned flag and `*fib_num`. -/
def calculateFibonacciNum (n : BitVec 32) : Bool × BitVec 64 :=
  let overflowOccured := decide (93 ≤ n)
  let fibMatrix := fibonacciLoop n !![0, 1; 1, 1] !![1, 0; 0, 1]
  (overflowOccured, fibMatrix 0 0 + fibMatrix 1 0)

/-- The numbers that the comment of `calculate_fibonacci_num` means. -/
def fibonacci : Nat → Nat
  | 0 => 1
  | 1 => 1
  | k + 2 => fibonacci (k + 1) + fibonacci k

theorem fibonacci_eq_fib (n : Nat) : fibonacci n = Nat.fib (n + 1) := by
  induction n using fibonacci.induct with
  | case1 => rfl
  | case2 => rfl
  | case3 k ih ih' =>
    rw [fibonacci, ih, ih', Nat.add_comm]
    exact Nat.fib_add_two.symm

theorem fibonacci_mono : Monotone fibonacci := by
  intro m n le
  rw [fibonacci_eq_fib, fibonacci_eq_fib]
  exact Nat.fib_mono (Nat.succ_le_succ le)

theorem pow_fibonacci (n : Nat) : (!![0, 1; 1, 1] : UInt64Matrix) ^ n =
    !![(fibonacci n : BitVec 64) - Nat.fib n, Nat.fib n; Nat.fib n, fibonacci n] := by
  induction n with
  | zero =>
    rw [pow_zero]
    ext i j
    fin_cases i <;> fin_cases j <;> rfl
  | succ n ih =>
    have next : (fibonacci (n + 1) : BitVec 64) = fibonacci n + Nat.fib n := by
      rw [fibonacci_eq_fib, fibonacci_eq_fib, Nat.fib_add_two]
      push_cast
      ring
    rw [pow_succ, ih, Matrix.mul_fin_two, next, ← fibonacci_eq_fib]
    ring_nf

theorem product_eq (a b : UInt64Matrix) : product a b = a * b := by
  rw [eta_fin_two a, eta_fin_two b, Matrix.mul_fin_two]
  rfl

theorem fibonacciLoop_eq (n : BitVec 32) (powMatrix fibMatrix : UInt64Matrix) :
    fibonacciLoop n powMatrix fibMatrix = binaryPower n.toNat powMatrix fibMatrix := by
  have last : ∀ m : BitVec 32, (m / 2 = 0 ↔ m.toNat / 2 = 0) ∧ (m % 2 ≠ 0 ↔ m.toNat % 2 ≠ 0) := by
    intro m
    constructor
    · rw [← BitVec.toNat_inj]
      rfl
    · rw [not_iff_not, ← BitVec.toNat_inj]
      rfl
  induction n, powMatrix, fibMatrix using fibonacciLoop.induct with
  | case1 n powMatrix fibMatrix ends =>
    rw [fibonacciLoop, binaryPower, if_pos ends, if_pos ((last n).1.mp ends)]
    simp only [product_eq, (last n).2]
  | case2 n powMatrix fibMatrix fibMatrix' goesOn ih =>
    have continues : n.toNat / 2 ≠ 0 := fun zero => goesOn ((last n).1.mpr zero)
    rw [fibonacciLoop, binaryPower, if_neg goesOn, if_neg continues]
    simp only [product_eq, (last n).2, fibMatrix'] at ih ⊢
    exact ih

/-- For every index the number is exact modulo 2^64 and the flag says whether it fits. -/
theorem calculate_fibonacci_num_exact (n : BitVec 32) :
    (calculateFibonacciNum n).2.toNat = fibonacci n.toNat % 2 ^ 64 ∧
      ((calculateFibonacciNum n).1 = true ↔ 2 ^ 64 ≤ fibonacci n.toNat) := by
  constructor
  · have identity : (!![1, 0; 0, 1] : UInt64Matrix) = 1 := Matrix.one_fin_two.symm
    have number : (calculateFibonacciNum n).2 = (fibonacci n.toNat : BitVec 64) := by
      simp only [calculateFibonacciNum, fibonacciLoop_eq, binaryPower_eq, identity, one_mul, pow_fibonacci]
      exact sub_add_cancel _ _
    rw [number]
    exact BitVec.toNat_ofNat ..
  · have flag : (calculateFibonacciNum n).1 = true ↔ 93 ≤ n.toNat := decide_eq_true_iff
    rw [flag]
    constructor
    · intro large
      exact Nat.le_trans (by decide) (fibonacci_mono large)
    · intro overflows
      by_contra small
      have bound : fibonacci n.toNat ≤ fibonacci 92 := fibonacci_mono (by omega)
      exact absurd (Nat.le_trans overflows bound) (by decide)

end ArchCompSystems.OsHw3
