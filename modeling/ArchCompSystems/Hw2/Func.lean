import ArchCompSystems.Hw2.DivFunc

namespace ArchCompSystems.Hw2

open Library Library.RiscV

def sameSign (a b : Word) : Bool := !a.slt 0 ^^ b.slt 0

/-- The `while` loop for at most `turns` turns: `a` and `q` behind it. -/
def whileLoop (b : Word) : Nat → Word → Word → Option (Word × Word)
  | 0, _, _ => none
  | turns + 1, a, q => if !a.slt b then whileLoop b turns (a - b) (q + 1) else some (a, q)

/-- `q_ans` and `r_ans`, when the loop ends within so many turns. -/
def func (turns : Nat) (a b : Word) : Option (Word × Word) :=
  if b = 0 then some (0, 0)
  else
    let qSignCarry := !sameSign a b
    let rSignCarry := a.slt 0
    let a := if a.slt 0 then -a else a
    let b := if b.slt 0 then -b else b
    (whileLoop b turns a 0).map fun (r, q) => (if qSignCarry then -q else q, if rSignCarry then -r else r)

/-- `Func` ends with these answers. -/
def FuncReturns (a b q r : Word) : Prop := ∃ turns, func turns a b = some (q, r)

/-- `div_func` returns these answers, wherever it is called. -/
def DivFuncReturns (a b q r : Word) : Prop :=
  ∀ (ω : Type) (P : Platform Label Empty ω) (s : State ω), s.get .a0 = a → s.get .a1 = b →
    Eventually P noAccess program
      (fun place s' => place = P.place (s.get .ra) ∧ s'.get .a1 = q ∧ s'.get .a2 = r) (.label .divFunc) s

section

variable {a b q r : Word}

theorem divFuncReturns_iff : DivFuncReturns a b q r ↔ (b ≠ 0 → DividesInto a b q r) ∧ (b = 0 → q = 0 ∧ r = 0) := by
  constructor
  · intro returns
    let P : Platform Label Empty Unit := ⟨fun _ => 0, fun _ => none, fun label => label.elim, fun _ => none⟩
    let s : State Unit := (State.mk (fun _ => 0) (fun _ => 0) ()).setAll [(.a0, a), (.a1, b)]
    have a0 : s.get .a0 = a := rfl
    have a1 : s.get .a1 = b := rfl
    have stops : ∀ place (s' : State Unit), place = P.place (s.get .ra) → step P noAccess program place s' = none := by
      rintro place s' rfl
      rfl
    obtain ⟨place, s', ⟨-, rfl, rfl⟩, -, divided⟩ := (returns Unit P s a0 a1).meet (divFunc_divides P s)
      (fun place s' ends => stops place s' ends.1) (fun place s' ends => stops place s' ends.1)
    rw [a0, a1] at divided
    exact ⟨fun nonzero => (divided.nonzero nonzero).2, fun zero => (divided.zero zero).2⟩
  · rintro ⟨nonzero, zero⟩ ω P s rfl rfl
    refine (divFunc_divides P s).mono ?_
    rintro place s' ⟨returned, divided⟩
    refine ⟨returned, ?_⟩
    by_cases is_zero : s.get .a1 = 0
    · obtain ⟨-, a1, a2⟩ := divided.zero is_zero
      obtain ⟨rfl, rfl⟩ := zero is_zero
      exact ⟨a1, a2⟩
    · obtain ⟨-, divides⟩ := divided.nonzero is_zero
      have a1 : s'.get .a1 = q := divides.quotient.trans (nonzero is_zero).quotient.symm
      refine ⟨a1, ?_⟩
      rw [divides.remainder, (nonzero is_zero).remainder, a1]

theorem whileLoop_magnitudes {m n k : Nat} (positive : 0 < n) (bound : m < 2 ^ 31) (bound' : n < 2 ^ 31) :
    ∃ turns, whileLoop (BitVec.ofNat 32 n) turns (BitVec.ofNat 32 m) (BitVec.ofNat 32 k) =
      some (BitVec.ofNat 32 (m % n), BitVec.ofNat 32 (k + m / n)) := by
  induction m using Nat.strong_induction_on generalizing k with
  | _ m ih =>
    have compared := slt_ofNat bound bound'
    by_cases less : m < n
    · refine ⟨1, ?_⟩
      rw [whileLoop, compared, decide_eq_true less, Bool.not_true, if_neg Bool.false_ne_true, Nat.mod_eq_of_lt less,
        Nat.div_eq_of_lt less, Nat.add_zero]
    · obtain ⟨turns, ends⟩ := @ih (m - n) (by omega) (k + 1) (by omega)
      refine ⟨turns + 1, ?_⟩
      have left := ofNat_sub_ofNat (not_lt.mp less)
      have counted : BitVec.ofNat 32 k + 1 = BitVec.ofNat 32 (k + 1) := (BitVec.ofNat_add k 1).symm
      rw [whileLoop, compared, decide_eq_false less, Bool.not_false, if_pos rfl, left, counted, ends,
        Nat.mod_eq_sub_mod (not_lt.mp less), Nat.div_eq_sub_div positive (not_lt.mp less)]
      congr 3
      omega

theorem not_slt_smallest {x : Word} : x.slt (BitVec.intMin 32) = false := by
  have lower := BitVec.le_toInt x
  rw [BitVec.slt_eq_decide, BitVec.toInt_intMin_of_pos (by decide)]
  exact decide_eq_false (by omega)

theorem whileLoop_smallest {turns : Nat} : whileLoop (BitVec.intMin 32) turns a q = none := by
  induction turns generalizing a q with
  | zero => rfl
  | succ turns ih => rw [whileLoop, not_slt_smallest, Bool.not_false, if_pos rfl, ih]

theorem not_funcReturns_smallest : ¬ FuncReturns a (BitVec.intMin 32) q r := by
  rintro ⟨turns, returns⟩
  have nonzero : BitVec.intMin 32 ≠ 0 := by decide
  have negative : (BitVec.intMin 32).slt 0 = true := by decide
  have kept : -BitVec.intMin 32 = BitVec.intMin 32 := by decide
  simp only [func, if_neg nonzero, negative, if_true, kept, whileLoop_smallest, Option.map_none, reduceCtorEq] at returns

theorem quotient_of_smallest (nonzero : b ≠ 0) (large : b ≠ BitVec.intMin 32)
    (returns : FuncReturns (BitVec.intMin 32) b q r) : q = 0 := by
  obtain ⟨turns, returns⟩ := returns
  have negative : (BitVec.intMin 32).slt 0 = true := by decide
  have kept : -BitVec.intMin 32 = BitVec.intMin 32 := by decide
  have positive : (BitVec.intMin 32).slt (negateIf (isNegative b) b) = true := by
    rw [magnitude_eq_ofNat, BitVec.slt_eq_decide, toInt_ofNat (natAbs_toInt_lt large),
      BitVec.toInt_intMin_of_pos (by decide)]
    exact decide_eq_true (by omega)
  change (BitVec.intMin 32).slt (if b.slt 0 then -b else b) = true at positive
  cases turns with
  | zero => simp only [func, if_neg nonzero, whileLoop, Option.map_none, reduceCtorEq] at returns
  | succ turns =>
    simp only [func, if_neg nonzero, negative, if_true, kept, whileLoop, positive, Bool.not_true, Bool.false_eq_true,
      if_false, Option.map_some, Option.some.injEq, Prod.mk.injEq] at returns
    rw [← returns.1]
    split <;> rfl

theorem quotient_ne_zero (nonzero : b ≠ 0) : BitVec.ofInt 32 ((BitVec.intMin 32).toInt.tdiv b.toInt) ≠ 0 := by
  intro zero
  have least : (BitVec.intMin 32).toInt = -2 ^ 31 := BitVec.toInt_intMin_of_pos (by decide)
  have size := Int.natAbs_tdiv (BitVec.intMin 32).toInt b.toInt
  have positive : 0 < b.toInt.natAbs := Int.natAbs_pos.mpr fun zero => nonzero (BitVec.eq_of_toInt_eq zero)
  have bounds : 0 < 2 ^ 31 / b.toInt.natAbs ∧ 2 ^ 31 / b.toInt.natAbs ≤ 2 ^ 31 :=
    ⟨Nat.div_pos natAbs_toInt_le positive, Nat.div_le_self _ _⟩
  have wrapped := congrArg BitVec.toInt zero
  rw [BitVec.toInt_ofInt] at wrapped
  have divides := Int.dvd_of_bmod_eq_zero wrapped
  rw [least] at size divides
  change _ = 2 ^ 31 / b.toInt.natAbs at size
  omega

theorem func_magnitudes (nonzero : b ≠ 0) (above : a ≠ BitVec.intMin 32) (above' : b ≠ BitVec.intMin 32) :
    FuncReturns a b
      (negateIf (isNegative a ^^ isNegative b) (BitVec.ofNat 32 (a.toInt.natAbs / b.toInt.natAbs)))
      (negateIf (isNegative a) (BitVec.ofNat 32 (a.toInt.natAbs % b.toInt.natAbs))) := by
  have positive : 0 < b.toInt.natAbs := Int.natAbs_pos.mpr fun zero => nonzero (BitVec.eq_of_toInt_eq zero)
  obtain ⟨turns, ends⟩ := whileLoop_magnitudes (k := 0) positive (natAbs_toInt_lt above) (natAbs_toInt_lt above')
  have signs : (!sameSign a b) = (isNegative a ^^ isNegative b) := by
    rw [sameSign, Bool.not_xor, Bool.not_not]
    rfl
  refine ⟨turns, ?_⟩
  rw [← magnitude_eq_ofNat, ← magnitude_eq_ofNat, Nat.zero_add] at ends
  have ends' : whileLoop (if b.slt 0 then -b else b) turns (if a.slt 0 then -a else a) 0 = _ := ends
  simp only [func, if_neg nonzero, ends', Option.map_some, signs]
  rfl

/-- The two programs agree exactly when there is no division or no operand is the smallest number. -/
theorem func_agrees_iff (a b : Word) : (∃ q r, FuncReturns a b q r ∧ DivFuncReturns a b q r) ↔
    b = 0 ∨ a ≠ BitVec.intMin 32 ∧ b ≠ BitVec.intMin 32 := by
  constructor
  · rintro ⟨q, r, returns, divided⟩
    by_cases zero : b = 0
    · exact Or.inl zero
    · have above : b ≠ BitVec.intMin 32 := by
        rintro rfl
        exact not_funcReturns_smallest returns
      refine Or.inr ⟨?_, above⟩
      rintro rfl
      have quotient := ((divFuncReturns_iff.mp divided).1 zero).quotient
      rw [quotient_of_smallest zero above returns] at quotient
      exact quotient_ne_zero zero quotient.symm
  · intro regular
    by_cases zero : b = 0
    · subst zero
      exact ⟨0, 0, ⟨0, rfl⟩, divFuncReturns_iff.mpr ⟨fun nonzero => absurd rfl nonzero, fun _ => ⟨rfl, rfl⟩⟩⟩
    · obtain ⟨above, above'⟩ := regular.resolve_left zero
      exact ⟨_, _, func_magnitudes zero above above',
        divFuncReturns_iff.mpr ⟨fun _ => dividesInto_magnitudes zero, fun is_zero => absurd is_zero zero⟩⟩

/-- `Func` does not return for the smallest number as divisor. -/
theorem func_differs : ¬ ∀ a b : Word, ∃ q r, FuncReturns a b q r ∧ DivFuncReturns a b q r := by
  intro agrees
  obtain ⟨q, r, returns, -⟩ := agrees 5 (BitVec.intMin 32)
  exact not_funcReturns_smallest returns

end

end ArchCompSystems.Hw2
