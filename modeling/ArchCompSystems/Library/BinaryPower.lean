import Mathlib.Algebra.Group.Defs
import Mathlib.Algebra.Group.Basic

namespace ArchCompSystems.Library

variable {M : Type}

/-- Binary exponentiation: `acc` collects the powers of two that make up the exponent. -/
def binaryPower [Mul M] (n : Nat) (base acc : M) : M :=
  let acc' := if n % 2 ≠ 0 then acc * base else acc
  if n / 2 = 0 then acc' else binaryPower (n / 2) (base * base) acc'
termination_by n

theorem pow_half [Monoid M] (base : M) (n : Nat) : (base * base) ^ (n / 2) = base ^ (n - n % 2) := by
  rw [← pow_two, ← pow_mul]
  congr 1
  omega

/-- The invariant of the loop is the product of `acc` and the power that is still to come. -/
theorem binaryPower_eq [Monoid M] (n : Nat) (base acc : M) : binaryPower n base acc = acc * base ^ n := by
  induction n using Nat.strongRecOn generalizing base acc with
  | ind n ih =>
    rw [binaryPower]
    by_cases odd : n % 2 ≠ 0
    · have next : base * base ^ (n - n % 2) = base ^ n := by
        rw [← pow_succ']
        congr 1
        omega
      rw [if_pos odd]
      split
      · rw [show n = 1 by omega, pow_one]
      · rw [ih (n / 2) (by omega), pow_half, mul_assoc, next]
    · rw [if_neg odd]
      split
      · rw [show n = 0 by omega, pow_zero, mul_one]
      · rw [ih (n / 2) (by omega), pow_half]
        congr 2
        omega

end ArchCompSystems.Library
