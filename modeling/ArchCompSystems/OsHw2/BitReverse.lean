import ArchCompSystems.Library.DeltaSwap

namespace ArchCompSystems.OsHw2

open Library

/-- What `bit_reverse` prints: the integers of bash are signed words, `>>` extends the sign. -/
def bitReverse (n : BitVec 64) : BitVec 64 :=
  let n := n <<< 31 ||| n.sshiftRight 33
  let t := (n ^^^ n.sshiftRight 20) &&& 0x00000FFF800007FF#64
  let n := (t ||| t <<< 20) ^^^ n
  let t := (n ^^^ n.sshiftRight 8) &&& 0x00F8000F80700807#64
  let n := (t ||| t <<< 8) ^^^ n
  let t := (n ^^^ n.sshiftRight 4) &&& 0x0808708080807008#64
  let n := (t ||| t <<< 4) ^^^ n
  let t := (n ^^^ n.sshiftRight 2) &&& 0x1111111111111111#64
  (t ||| t <<< 2) ^^^ n

theorem bitReverse_eq_deltaSwap (n : BitVec 64) :
    bitReverse n =
      deltaSwap (deltaSwap (deltaSwap (deltaSwap (n <<< 31 ||| n.sshiftRight 33)
        20 0x00000FFF800007FF#64) 8 0x00F8000F80700807#64) 4 0x0808708080807008#64)
        2 0x1111111111111111#64 := rfl

/-- The place from which the four exchanges together take bit `i`. -/
def source (i : Nat) : Nat :=
  partner 20 0x00000FFF800007FF#64 (partner 8 0x00F8000F80700807#64
    (partner 4 0x0808708080807008#64 (partner 2 0x1111111111111111#64 i)))

theorem source_eq : ∀ i < 64, source i = (94 - i) % 64 := by
  decide +kernel

theorem masks_exchange : Exchanges 20 0x00000FFF800007FF#64 ∧ Exchanges 8 0x00F8000F80700807#64 ∧
    Exchanges 4 0x0808708080807008#64 ∧ Exchanges 2 0x1111111111111111#64 := by
  decide +kernel

theorem getLsbD_bitReverse_eq_source (n : BitVec 64) {i : Nat} (bound : i < 64) :
    (bitReverse n).getLsbD i = (n <<< 31 ||| n.sshiftRight 33).getLsbD (source i) := by
  obtain ⟨first, second, third, fourth⟩ := masks_exchange
  have bound₄ := partner_lt fourth bound
  have bound₃ := partner_lt third bound₄
  have bound₂ := partner_lt second bound₃
  rw [bitReverse_eq_deltaSwap, getLsbD_deltaSwap fourth _ bound, getLsbD_deltaSwap third _ bound₄,
    getLsbD_deltaSwap second _ bound₃, getLsbD_deltaSwap first _ bound₂]
  rfl

theorem getLsbD_bitReverse (n : BitVec 64) {i : Nat} (bound : i < 64) :
    (bitReverse n).getLsbD i = (n.getLsbD (63 - i) || decide (31 ≤ i) && n.getLsbD 63) := by
  rw [getLsbD_bitReverse_eq_source n bound, source_eq i bound, BitVec.getLsbD_or,
    BitVec.getLsbD_shiftLeft, BitVec.getLsbD_sshiftRight]
  have inside : (94 - i) % 64 < 64 := Nat.mod_lt _ (by decide)
  by_cases high : 31 ≤ i
  · have place : (94 - i) % 64 = 94 - i := by omega
    have index : 94 - i - 31 = 63 - i := by omega
    have shifted : ¬ 94 - i < 31 := by omega
    have beyond : ¬ 33 + (94 - i) < 64 := by omega
    rw [place, index, if_neg beyond, decide_eq_true (place ▸ inside), decide_eq_false shifted,
      decide_eq_false (not_le.mpr (place ▸ inside)), decide_eq_true high, BitVec.msb_eq_getLsbD_last]
    rfl
  · have place : (94 - i) % 64 = 30 - i := by omega
    have index : 33 + (30 - i) = 63 - i := by omega
    have shifted : 30 - i < 31 := by omega
    have low : 63 - i < 64 := by omega
    rw [place, index, if_pos low, decide_eq_true (place ▸ inside), decide_eq_true shifted,
      decide_eq_false (not_le.mpr (place ▸ inside)), decide_eq_false high]
    simp only [Bool.not_true, Bool.not_false, Bool.and_false, Bool.false_and, Bool.true_and,
      Bool.false_or, Bool.or_false]

/-- Bit `i` of `m` is bit `63 - i` of `n`. -/
def Reverses (n m : BitVec 64) : Prop := ∀ i < 64, m.getLsbD i = n.getLsbD (63 - i)

theorem reverses_iff_low (n : BitVec 64) :
    Reverses n (bitReverse n) ↔ n.getLsbD 63 = false ∨ ∀ i < 33, n.getLsbD i = true := by
  constructor
  · intro reverses
    rcases Bool.eq_false_or_eq_true (n.getLsbD 63) with negative | nonnegative
    · right
      intro i low
      have high : 31 ≤ 63 - i := by omega
      have back : 63 - (63 - i) = i := by omega
      have bit := reverses (63 - i) (by omega)
      rw [getLsbD_bitReverse n (by omega), back, negative, decide_eq_true high, Bool.and_self,
        Bool.or_true] at bit
      exact bit.symm
    · exact Or.inl nonnegative
  · rintro exact i bound
    rw [getLsbD_bitReverse n bound]
    rcases exact with nonnegative | ones
    · rw [nonnegative, Bool.and_false, Bool.or_false]
    · by_cases high : 31 ≤ i
      · rw [ones (63 - i) (by omega), Bool.true_or]
      · rw [decide_eq_false high, Bool.false_and, Bool.or_false]

theorem Reverses.symm {n m : BitVec 64} (reverses : Reverses n m) : Reverses m n := by
  intro i bound
  rw [reverses (63 - i) (by omega)]
  congr 1
  omega

theorem Reverses.unique {n m m' : BitVec 64} (reverses : Reverses n m) (reverses' : Reverses n m') :
    m = m' := by
  apply BitVec.eq_of_getLsbD_eq
  intro i bound
  rw [reverses i bound, reverses' i bound]

theorem twice_iff {n : BitVec 64} (reverses : Reverses n (bitReverse n)) :
    bitReverse (bitReverse n) = n ↔ Reverses (bitReverse n) (bitReverse (bitReverse n)) := by
  constructor
  · intro same
    rw [same]
    exact reverses.symm
  · intro again
    exact again.unique reverses.symm

theorem nonnegative_iff (n : BitVec 64) : n.getLsbD 63 = false ↔ 0 ≤ n.toInt := by
  have sign : n.getLsbD 63 = n.msb := (BitVec.msb_eq_getLsbD_last n).symm
  rw [sign, BitVec.msb_eq_toInt, decide_eq_false_iff_not, not_lt]

theorem even_iff (n : BitVec 64) : n.getLsbD 0 = false ↔ n.toInt % 2 = 0 := by
  have lowest : n.getLsbD 0 = decide (n.toNat % 2 = 1) := by
    rw [← BitVec.testBit_toNat, Nat.testBit_zero]
  have value := BitVec.toInt_eq_toNat_cond n
  rw [lowest, decide_eq_false_iff_not, value]
  split <;> omega

theorem reverses_iff (n : BitVec 64) :
    Reverses n (bitReverse n) ↔ 0 ≤ n.toInt ∨ ∀ i < 33, n.getLsbD i = true := by
  rw [reverses_iff_low, nonnegative_iff]

theorem reverses_twice_iff (n : BitVec 64) :
    Reverses n (bitReverse n) ∧ bitReverse (bitReverse n) = n ↔
      0 ≤ n.toInt ∧ n.toInt % 2 = 0 ∨ n = BitVec.allOnes 64 := by
  rw [← nonnegative_iff, ← even_iff]
  constructor
  · rintro ⟨reverses, twice⟩
    have again := (reverses_iff_low _).mp ((twice_iff reverses).mp twice)
    have first : (bitReverse n).getLsbD 63 = n.getLsbD 0 := reverses 63 (by decide)
    rw [first] at again
    rcases (reverses_iff_low n).mp reverses with nonnegative | low
    · rcases again with even | high
      · exact Or.inl ⟨nonnegative, even⟩
      · have sign := high 0 (by decide)
        rw [reverses 0 (by decide), nonnegative] at sign
        contradiction
    · rcases again with even | high
      · have odd := low 0 (by decide)
        rw [even] at odd
        contradiction
      · right
        apply BitVec.eq_of_getLsbD_eq
        intro i bound
        rw [BitVec.getLsbD_allOnes, decide_eq_true bound]
        by_cases lower : i < 33
        · exact low i lower
        · have bit := high (63 - i) (by omega)
          have back : 63 - (63 - i) = i := by omega
          rw [reverses (63 - i) (by omega), back] at bit
          exact bit
  · rintro (⟨nonnegative, even⟩ | rfl)
    · have reverses := (reverses_iff_low n).mpr (Or.inl nonnegative)
      have first : (bitReverse n).getLsbD 63 = n.getLsbD 0 := reverses 63 (by decide)
      exact ⟨reverses, (twice_iff reverses).mpr
        ((reverses_iff_low _).mpr (Or.inl (first.trans even)))⟩
    · have kept : bitReverse (BitVec.allOnes 64) = BitVec.allOnes 64 := by decide
      refine ⟨?_, by rw [kept, kept]⟩
      rw [kept]
      intro i bound
      rw [BitVec.getLsbD_allOnes, BitVec.getLsbD_allOnes, decide_eq_true bound,
        decide_eq_true (by omega : 63 - i < 64)]

/-- The bits are reversed exactly for the numbers that the shifted copies of the sign do not
change, and a second call gives the number back exactly for those whose reversal is one as well. -/
theorem bit_reverse_exact (n : BitVec 64) :
    (Reverses n (bitReverse n) ↔ 0 ≤ n.toInt ∨ ∀ i < 33, n.getLsbD i = true) ∧
      (Reverses n (bitReverse n) ∧ bitReverse (bitReverse n) = n ↔
        0 ≤ n.toInt ∧ n.toInt % 2 = 0 ∨ n = BitVec.allOnes 64) :=
  ⟨reverses_iff n, reverses_twice_iff n⟩

/-- The reversal of the smallest number is 1. -/
theorem smallest_is_not_reversed :
    ¬ ∀ n : BitVec 64, Reverses n (bitReverse n) ∧ bitReverse (bitReverse n) = n := by
  intro all
  have bit := (all (BitVec.intMin 64)).1 31 (by decide)
  revert bit
  decide

end ArchCompSystems.OsHw2
