import Mathlib.Data.Nat.Count
import Mathlib.Logic.Function.Basic

namespace ArchCompSystems.Library

/-- How many of the first `n` slots hold a value that satisfies `p`. -/
def slotsWith {α : Type} (p : α → Prop) [DecidablePred p] (slots : Nat → α) (n : Nat) : Nat :=
  Nat.count (fun i => p (slots i)) n

variable {α : Type} {p : α → Prop} [DecidablePred p] {slots : Nat → α} {n i : Nat}

theorem slotsWith_succ : slotsWith p slots (n + 1) =
    slotsWith p slots n + if p (slots n) then 1 else 0 := Nat.count_succ _ _

theorem slotsWith_le : slotsWith p slots n ≤ n := Nat.count_le _

theorem slotsWith_eq_iff : slotsWith p slots n = n ↔ ∀ i < n, p (slots i) := Nat.count_iff_forall

theorem slotsWith_eq_zero_iff : slotsWith p slots n = 0 ↔ ∀ i < n, ¬ p (slots i) :=
  Nat.count_iff_forall_not

theorem slotsWith_lt (inside : i < n) (free : ¬ p (slots i)) : slotsWith p slots n < n := by
  have bound : slotsWith p slots n ≤ n := slotsWith_le
  have notFull : slotsWith p slots n ≠ n := fun full => free (slotsWith_eq_iff.mp full i inside)
  omega

theorem slotsWith_pos (inside : i < n) (taken : p (slots i)) : 0 < slotsWith p slots n := by
  have nonzero : slotsWith p slots n ≠ 0 := fun none =>
    slotsWith_eq_zero_iff.mp none i inside taken
  omega

theorem slotsWith_update_of_le (outside : n ≤ i) (value : α) :
    slotsWith p (Function.update slots i value) n = slotsWith p slots n := by
  induction n with
  | zero => rfl
  | succ n ih =>
    rw [slotsWith_succ, slotsWith_succ, ih (by omega), Function.update_of_ne (by omega)]

theorem slotsWith_update (inside : i < n) (value : α) :
    slotsWith p (Function.update slots i value) n + (if p (slots i) then 1 else 0) =
      slotsWith p slots n + if p value then 1 else 0 := by
  induction n with
  | zero => omega
  | succ n ih =>
    rw [slotsWith_succ, slotsWith_succ]
    by_cases last : i = n
    · subst last
      rw [slotsWith_update_of_le (Nat.le_refl _), Function.update_self]
      omega
    · rw [Function.update_of_ne (Ne.symm last)]
      have earlier := ih (by omega)
      omega

end ArchCompSystems.Library
