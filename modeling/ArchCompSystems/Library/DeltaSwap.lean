import Mathlib.Data.BitVec

namespace ArchCompSystems.Library

variable {w : Nat}

/-- Exchanges bit `i` with bit `i + shift` for every bit `i` of the mask. The right shift is
the arithmetic one. -/
def deltaSwap (n : BitVec w) (shift : Nat) (mask : BitVec w) : BitVec w :=
  let t := (n ^^^ n.sshiftRight shift) &&& mask
  (t ||| t <<< shift) ^^^ n

/-- The bit that comes to place `i`. -/
def partner (shift : Nat) (mask : BitVec w) (i : Nat) : Nat :=
  if mask.getLsbD i then i + shift
  else if shift ≤ i ∧ mask.getLsbD (i - shift) then i - shift
  else i

def Exchanges (shift : Nat) (mask : BitVec w) : Prop :=
  ∀ i < w, mask.getLsbD i = true → i + shift < w ∧ mask.getLsbD (i + shift) = false

instance (shift : Nat) (mask : BitVec w) : Decidable (Exchanges shift mask) :=
  inferInstanceAs (Decidable (∀ i < w, mask.getLsbD i = true → _))

theorem partner_lt {shift : Nat} {mask : BitVec w} (exchanges : Exchanges shift mask) {i : Nat}
    (bound : i < w) : partner shift mask i < w := by
  unfold partner
  split
  · rename_i masked
    exact (exchanges i bound masked).1
  · split <;> omega

theorem getLsbD_difference {shift : Nat} {mask : BitVec w} (exchanges : Exchanges shift mask)
    (n : BitVec w) {i : Nat} (bound : i < w) :
    ((n ^^^ n.sshiftRight shift) &&& mask).getLsbD i =
      (mask.getLsbD i && (n.getLsbD i ^^ n.getLsbD (i + shift))) := by
  rw [BitVec.getLsbD_and, BitVec.getLsbD_xor, BitVec.getLsbD_sshiftRight, Bool.and_comm]
  by_cases masked : mask.getLsbD i = true
  · obtain ⟨fits, -⟩ := exchanges i bound masked
    rw [Nat.add_comm shift i, if_pos fits, decide_eq_false (not_le.mpr bound), Bool.not_false,
      Bool.true_and]
  · rw [Bool.not_eq_true] at masked
    rw [masked, Bool.false_and, Bool.false_and]

theorem getLsbD_deltaSwap {shift : Nat} {mask : BitVec w} (exchanges : Exchanges shift mask)
    (n : BitVec w) {i : Nat} (bound : i < w) :
    (deltaSwap n shift mask).getLsbD i = n.getLsbD (partner shift mask i) := by
  have below : i - shift < w := by omega
  rw [deltaSwap, BitVec.getLsbD_xor, BitVec.getLsbD_or, BitVec.getLsbD_shiftLeft,
    getLsbD_difference exchanges n bound, getLsbD_difference exchanges n below,
    decide_eq_true bound, Bool.true_and, partner]
  by_cases masked : mask.getLsbD i = true
  · have alone : (!decide (i < shift) && mask.getLsbD (i - shift)) = false := by
      by_cases low : i < shift
      · rw [decide_eq_true low, Bool.not_true, Bool.false_and]
      · by_contra both
        rw [decide_eq_false low, Bool.not_false, Bool.true_and, Bool.not_eq_false] at both
        have disjoint := (exchanges (i - shift) below both).2
        rw [Nat.sub_add_cancel (not_lt.mp low), masked] at disjoint
        contradiction
    rw [if_pos masked, masked, ← Bool.and_assoc, alone, Bool.true_and, Bool.false_and,
      Bool.or_false, Bool.xor_comm, ← Bool.xor_assoc, Bool.xor_self, Bool.false_xor]
  · rw [if_neg masked, Bool.not_eq_true] at *
    rw [masked, Bool.false_and, Bool.false_or]
    by_cases upper : shift ≤ i ∧ mask.getLsbD (i - shift) = true
    · obtain ⟨low, upper⟩ := upper
      rw [if_pos ⟨low, upper⟩, upper, Nat.sub_add_cancel low, decide_eq_false (not_lt.mpr low),
        Bool.not_false, Bool.true_and, Bool.true_and, Bool.xor_assoc, Bool.xor_self, Bool.xor_false]
    · rw [if_neg upper]
      have unmasked : (!decide (i < shift) && mask.getLsbD (i - shift)) = false := by
        by_contra both
        rw [Bool.not_eq_false, Bool.and_eq_true, Bool.not_eq_true', decide_eq_false_iff_not] at both
        exact upper ⟨not_lt.mp both.1, both.2⟩
      rw [← Bool.and_assoc, unmasked, Bool.false_and, Bool.false_xor]

end ArchCompSystems.Library
