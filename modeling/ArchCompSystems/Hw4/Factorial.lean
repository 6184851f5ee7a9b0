import ArchCompSystems.Library.RiscV
import Mathlib.Data.Nat.Factorial.Basic
import Mathlib.Order.Bounds.Basic

namespace ArchCompSystems.Hw4

open Library Library.RiscV Library.RiscV.Instr

/-- The source has no labels behind the two calls. -/
inductive FactLabel where
  | maxNFactNonRec
  | factLoopStart
  | factLoopEnd
  | maxNFactRec
  | afterImpl
  | maxNFactRecImpl
  | noOverflow
  | afterRecursion
  deriving DecidableEq

def push (reg : Reg) : List (Instr FactLabel Empty) := [addi .sp .sp (-4), .sw reg 0 .sp]

def pop (reg : Reg) : List (Instr FactLabel Empty) := [.lw reg 0 .sp, addi .sp .sp 4]

def factCode : Code FactLabel Empty where
  block
    | .maxNFactNonRec => [li .t0 1, addi .t1 .t0 1]
    | .factLoopStart => [mul .t0 .t0 .t1, addi .t1 .t1 1, mulhu .t2 .t0 .t1, beqz .t2 .factLoopStart]
    | .factLoopEnd => [addi .a0 .t1 (-1), .ret]
    | .maxNFactRec => [li .a0 1, li .a1 1] ++ push .ra ++ [.jal .maxNFactRecImpl]
    | .afterImpl => pop .ra ++ [.ret]
    | .maxNFactRecImpl => [mulhu .t0 .a0 .a1, beqz .t0 .noOverflow, addi .a0 .a1 (-1), .ret]
    | .noOverflow => [mul .a0 .a0 .a1] ++ push .ra ++ [addi .a1 .a1 1, .jal .maxNFactRecImpl]
    | .afterRecursion => pop .ra ++ [.ret]
  next
    | .maxNFactNonRec => some .factLoopStart
    | .factLoopStart => some .factLoopEnd
    | .factLoopEnd => some .maxNFactRec
    | .maxNFactRec => some .afterImpl
    | .afterImpl => some .maxNFactRecImpl
    | .maxNFactRecImpl => some .noOverflow
    | .noOverflow => some .afterRecursion
    | .afterRecursion => none

/-- `n` factorial fits into a word, and no later one does. -/
structure IsLast (n : Nat) : Prop where
  fits : n.factorial < 2 ^ 32
  overflows : 2 ^ 32 ≤ (n + 1).factorial

theorem isLast_twelve : IsLast 12 := ⟨by decide, by decide⟩

section

variable {n k : Nat}

theorem IsLast.fits_iff (last : IsLast n) : k.factorial < 2 ^ 32 ↔ k ≤ n := by
  constructor
  · intro fits
    by_contra above
    have later : (n + 1).factorial ≤ k.factorial := Nat.factorial_le (Nat.not_le.mp above)
    have overflows := last.overflows
    omega
  · intro below
    exact Nat.lt_of_le_of_lt (Nat.factorial_le below) last.fits

theorem IsLast.isGreatest (last : IsLast n) : IsGreatest {k : Nat | k.factorial < 2 ^ 32} n :=
  ⟨last.fits, fun _ fits => last.fits_iff.mp fits⟩

theorem IsLast.lt (last : IsLast n) : n + 1 < 2 ^ 32 := by
  have below := Nat.self_le_factorial 13
  have small : n < 13 := by
    by_contra above
    have thirteen : Nat.factorial 13 < 2 ^ 32 := last.fits_iff.mpr (Nat.not_lt.mp above)
    revert thirteen
    decide
  omega

theorem mul_factorial (k : Nat) :
    BitVec.ofNat 32 k.factorial * BitVec.ofNat 32 (k + 1) = BitVec.ofNat 32 (k + 1).factorial := by
  rw [Nat.factorial_succ, Nat.mul_comm, BitVec.ofNat_mul]

theorem mulhu_eq_zero_iff (last : IsLast n) (inside : k ≤ n) :
    BitVec.ofNat 32 ((BitVec.ofNat 32 k.factorial).toNat * (BitVec.ofNat 32 (k + 1)).toNat / 2 ^ 32) = 0 ↔ k + 1 ≤ n := by
  have fits := last.fits_iff.mpr inside
  have small := last.lt
  have product : k.factorial * (k + 1) = (k + 1).factorial := by rw [Nat.factorial_succ, Nat.mul_comm]
  have bound : k.factorial * (k + 1) / 2 ^ 32 < 2 ^ 32 := by
    apply Nat.div_lt_of_lt_mul
    exact Nat.mul_lt_mul'' fits (by omega)
  rw [BitVec.toNat_ofNat, BitVec.toNat_ofNat, Nat.mod_eq_of_lt fits, Nat.mod_eq_of_lt (by omega), ← last.fits_iff,
    ← product, ← BitVec.toNat_inj, BitVec.toNat_ofNat, Nat.mod_eq_of_lt bound]
  change _ = 0 ↔ _
  rw [Nat.div_eq_zero_iff]
  omega

end

section

variable {ω : Type} {P : Platform FactLabel Empty ω} {access : Access} {s s₀ : State ω} {n k : Nat}

/-- After the return from a call in `s₀` with `n`. -/
structure ReturnsNumber (P : Platform FactLabel Empty ω) (n : Nat) (clobbered : List Reg) (s₀ : State ω)
    (place : Place FactLabel) (s : State ω) : Prop where
  place : place = P.place (s₀.get .ra)
  a0 : s.get .a0 = BitVec.ofNat 32 n
  kept : SameBut clobbered s₀ s

/-- Before the multiplication by `k + 1`. -/
structure Multiplying (k : Nat) (s₀ s : State ω) : Prop where
  t0 : s.get .t0 = BitVec.ofNat 32 k.factorial
  t1 : s.get .t1 = BitVec.ofNat 32 (k + 1)
  mem : s.mem = s₀.mem
  kept : SameBut [.t0, .t1, .t2, .a0] s₀ s

theorem factLoop_ends (last : IsLast n) (inside : k + 1 ≤ n) (multiplying : Multiplying k s₀ s) :
    Eventually P access factCode (fun place s => ReturnsNumber P n [.t0, .t1, .t2, .a0] s₀ place s ∧ s.mem = s₀.mem)
      (.label .factLoopStart) s := by
  induction left : n - k generalizing k s with
  | zero => omega
  | succ left ih =>
    apply eventually_block
    apply wp_mul
    apply wp_addi
    apply wp_mulhu
    simp only [get_set_self, get_set_of_ne, ne_eq, reduceCtorEq, not_false_eq_true, multiplying.t0, multiplying.t1,
      mul_factorial]
    have next : BitVec.ofNat 32 (k + 1) + 1 = BitVec.ofNat 32 (k + 1 + 1) := (BitVec.ofNat_add (k + 1) 1).symm
    simp only [next]
    apply wp_beqz
    · intro zero
      rw [get_set_self (by decide)] at zero
      have again := (mulhu_eq_zero_iff last inside).mp zero
      apply @ih _ (k + 1) again _ (by omega)
      refine ⟨?_, ?_, multiplying.mem, ?_⟩
      · simp only [get_set_self, get_set_of_ne, ne_eq, reduceCtorEq, not_false_eq_true]
      · simp only [get_set_self, get_set_of_ne, ne_eq, reduceCtorEq, not_false_eq_true]
      · exact SameBut.set (SameBut.set (multiplying.kept.set (by decide)) (by decide)) (by decide)
    · intro nonzero
      rw [get_set_self (by decide)] at nonzero
      have ended := mt (mulhu_eq_zero_iff last inside).mpr nonzero
      obtain rfl : n = k + 1 := by omega
      refine wp_nil ⟨.factLoopEnd, rfl, eventually_block (wp_addi (wp_ret (.here ⟨⟨?_, ?_, ?_⟩, multiplying.mem⟩)))⟩
      · simp only [get_set_of_ne, ne_eq, reduceCtorEq, not_false_eq_true, multiplying.kept .ra (by decide)]
      · simp only [get_set_self, get_set_of_ne, ne_eq, reduceCtorEq, not_false_eq_true]
        exact ofNat_succ_sub_one
      · exact SameBut.set (SameBut.set (SameBut.set (multiplying.kept.set (by decide)) (by decide)) (by decide)) (by decide)

theorem max_n_fact_non_rec_ends (last : IsLast n) (positive : 2 ≤ n) :
    Eventually P access factCode (fun place s => ReturnsNumber P n [.t0, .t1, .t2, .a0] s₀ place s ∧ s.mem = s₀.mem)
      (.label .maxNFactNonRec) s₀ := by
  apply eventually_block
  apply wp_li
  apply wp_addi
  refine wp_nil ⟨.factLoopStart, rfl, factLoop_ends (k := 1) last positive ⟨?_, ?_, rfl, ?_⟩⟩
  · simp only [get_set_self, get_set_of_ne, ne_eq, reduceCtorEq, not_false_eq_true]
    rfl
  · simp only [get_set_self, ne_eq, reduceCtorEq, not_false_eq_true]
    rfl
  · exact (SameBut.refl.set (by decide)).set (by decide)

def Linked (P : Platform FactLabel Empty ω) : Prop := ∀ label, P.labelAt (P.address label) = some label

/-- The stack below `top` that the calls may use. -/
structure Stack (access : Access) (top : Word) (size : Nat) : Prop where
  loads : access.loads (below top size) size = true
  stores : access.stores (below top size) size = true
  aligned : isAligned top = true
  bound : size ≤ 2 ^ 32

def recursionClobbered : List Reg := [.t0, .a0, .a1, .ra, .sp]

theorem return_ends {top w : Word} {size : Nat} {words : List Word} {label : FactLabel}
    {post : Place FactLabel → State ω → Prop} (code : factCode.block label = pop .ra ++ [.ret])
    (stack : Stack access top size) (sp : s.get .sp = below top (4 * words.length + 4))
    (pushed : Pushed s.mem top (w :: words)) (room : 4 * words.length + 4 ≤ size)
    (done : Eventually P access factCode post (P.place w) ((s.set .ra w).set .sp (below top (4 * words.length)))) :
    Eventually P access factCode post (.label label) s := by
  apply eventually_block
  rw [code]
  apply wp_pop (by decide) sp (Access.loads_below stack.loads room) _ pushed.last
  · apply wp_ret
    rw [get_set_of_ne (by decide), get_set_self (by decide)]
    exact done
  · have multiple : isAligned (below top (4 * (words.length + 1))) = isAligned top := isAligned_below (by omega)
    exact multiple.trans stack.aligned

theorem maxNFactRecImpl_ends {top : Word} {size : Nat} {words : List Word} {post : Place FactLabel → State ω → Prop}
    (last : IsLast n) (linked : Linked P) (stack : Stack access top size) (inside : k ≤ n)
    (a0 : s.get .a0 = BitVec.ofNat 32 k.factorial) (a1 : s.get .a1 = BitVec.ofNat 32 (k + 1))
    (sp : s.get .sp = below top (4 * words.length)) (pushed : Pushed s.mem top words)
    (room : 4 * (words.length + (n - k)) ≤ size)
    (done : ∀ s', s'.get .a0 = BitVec.ofNat 32 n → s'.get .sp = s.get .sp → Pushed s'.mem top words →
      SameBut recursionClobbered s s' → Eventually P access factCode post (P.place (s.get .ra)) s') :
    Eventually P access factCode post (.label .maxNFactRecImpl) s := by
  induction left : n - k generalizing k s words with
  | zero =>
    obtain rfl : n = k := by omega
    apply eventually_block
    apply wp_mulhu
    simp only [a0, a1]
    apply wp_beqz
    · intro zero
      rw [get_set_self (by decide)] at zero
      have again := (mulhu_eq_zero_iff last inside).mp zero
      omega
    · intro _
      apply wp_addi
      apply wp_ret
      apply done
      · simp only [get_set_self, get_set_of_ne, ne_eq, reduceCtorEq, not_false_eq_true, a1]
        exact ofNat_succ_sub_one
      · simp only [get_set_of_ne, ne_eq, reduceCtorEq, not_false_eq_true]
      · exact pushed
      · exact (SameBut.refl.set (by decide)).set (by decide)
  | succ left ih =>
    apply eventually_block
    apply wp_mulhu
    simp only [a0, a1]
    apply wp_beqz
    · intro _
      apply eventually_block
      apply wp_mul
      simp only [get_set_of_ne, ne_eq, reduceCtorEq, not_false_eq_true, a0, a1, mul_factorial]
      have at_top : ((s.set .t0 (BitVec.ofNat 32 ((BitVec.ofNat 32 k.factorial).toNat * (BitVec.ofNat 32 (k + 1)).toNat /
          2 ^ 32))).set .a0 (BitVec.ofNat 32 (k + 1).factorial)).get .sp = below top (4 * words.length) := by
        simp only [get_set_of_ne, ne_eq, reduceCtorEq, not_false_eq_true, sp]
      apply wp_push (by decide) at_top
      · exact Access.stores_below stack.stores (by omega)
      · exact (isAligned_below (by omega)).trans stack.aligned
      apply wp_addi
      refine wp_jal ⟨.afterRecursion, rfl, ?_⟩
      apply @ih _ (k + 1) (s.get .ra :: words) (by omega)
      · simp only [get_set_self, get_set_of_ne, get_store, ne_eq, reduceCtorEq, not_false_eq_true]
      · simp only [get_set_self, get_set_of_ne, get_store, ne_eq, reduceCtorEq, not_false_eq_true, a1]
        exact (BitVec.ofNat_add (k + 1) 1).symm
      · simp only [get_set_self, get_set_of_ne, get_store, ne_eq, reduceCtorEq, not_false_eq_true, List.length_cons,
          Nat.mul_add_one]
      · exact pushed.push (by have := stack.bound; omega)
      · rw [List.length_cons]
        omega
      · intro s' a0' sp' pushed' kept
        have returns : (P.place (P.address .afterRecursion)) = .label .afterRecursion := by
          rw [Platform.place, linked]
        simp only [get_set_self, get_set_of_ne, get_store, ne_eq, reduceCtorEq, not_false_eq_true] at sp'
        rw [get_set_self (by decide), returns]
        apply return_ends rfl stack sp' pushed' (by omega)
        apply done
        · simp only [get_set_of_ne, ne_eq, reduceCtorEq, not_false_eq_true, a0']
        · rw [get_set_self (by decide), sp]
        · exact pushed'.pop
        · apply SameBut.set (SameBut.set _ (by decide)) (by decide)
          intro r outside
          have different : r ≠ .t0 ∧ r ≠ .a0 ∧ r ≠ .a1 ∧ r ≠ .ra ∧ r ≠ .sp := by
            simpa only [recursionClobbered, List.mem_cons, List.not_mem_nil, or_false, not_or] using outside
          obtain ⟨t0, a0, a1, ra, sp⟩ := different
          rw [kept r outside, get_set_of_ne ra, get_set_of_ne a1, get_store, get_set_of_ne sp, get_set_of_ne a0,
            get_set_of_ne t0]
      · omega
    · intro nonzero
      rw [get_set_self (by decide)] at nonzero
      exact absurd ((mulhu_eq_zero_iff last inside).mpr (by omega)) nonzero

theorem max_n_fact_rec_ends (last : IsLast n) (linked : Linked P) (stack : Stack access (s.get .sp) (4 * (n + 1))) :
    Eventually P access factCode (ReturnsNumber P n [.t0, .a0, .a1] s) (.label .maxNFactRec) s := by
  apply eventually_block
  apply wp_li
  apply wp_li
  have at_top : ((s.set .a0 1).set .a1 1).get .sp = below (s.get .sp) 0 := by
    rw [get_set_of_ne (by decide), get_set_of_ne (by decide), below_zero]
  apply wp_push (by decide) at_top
  · exact Access.stores_below stack.stores (by omega)
  · exact (isAligned_below (by omega)).trans stack.aligned
  refine wp_jal ⟨.afterImpl, rfl, ?_⟩
  have nothing : Pushed s.mem (s.get .sp) [] := Memory.Holds.nil
  apply @maxNFactRecImpl_ends _ _ _ _ _ 0 _ _ [s.get .ra] _ last linked stack (Nat.zero_le n)
  · simp only [get_set_self, get_set_of_ne, get_store, ne_eq, reduceCtorEq, not_false_eq_true]
    rfl
  · simp only [get_set_self, get_set_of_ne, get_store, ne_eq, reduceCtorEq, not_false_eq_true]
    rfl
  · simp only [get_set_self, get_set_of_ne, get_store, ne_eq, reduceCtorEq, not_false_eq_true, List.length_singleton]
  · exact nothing.push (by decide)
  · rw [List.length_singleton]
    omega
  · intro s' a0 sp pushed kept
    have returns : P.place (P.address .afterImpl) = .label .afterImpl := by
      rw [Platform.place, linked]
    simp only [get_set_self, get_set_of_ne, get_store, ne_eq, reduceCtorEq, not_false_eq_true] at sp
    rw [get_set_self (by decide), returns]
    apply @return_ends _ _ _ _ _ _ _ [] _ _ rfl stack sp pushed (by rw [List.length_nil]; omega)
    refine .here ⟨rfl, ?_, ?_⟩
    · simp only [get_set_of_ne, ne_eq, reduceCtorEq, not_false_eq_true, a0]
    · intro r outside
      obtain ⟨t0, a0, a1⟩ : r ≠ .t0 ∧ r ≠ .a0 ∧ r ≠ .a1 := by
        simpa only [List.mem_cons, List.not_mem_nil, or_false, not_or] using outside
      by_cases is_sp : r = .sp
      · rw [is_sp, get_set_self (by decide), List.length_nil, Nat.mul_zero, below_zero]
      by_cases is_ra : r = .ra
      · rw [is_ra, get_set_of_ne (by decide), get_set_self (by decide)]
      · have fresh : r ∉ recursionClobbered := by
          simp only [recursionClobbered, List.mem_cons, List.not_mem_nil, or_false, not_or]
          exact ⟨t0, a0, a1, is_ra, is_sp⟩
        rw [get_set_of_ne is_sp, get_set_of_ne is_ra, kept r fresh, get_set_of_ne is_ra, get_store, get_set_of_ne is_sp,
          get_set_of_ne a1, get_set_of_ne a0]

/-- Both functions return the largest number whose factorial fits into a word; the recursion needs 52 bytes of stack. -/
theorem max_n_fact_correct (linked : Linked P) (stack : Stack access (s.get .sp) 52) :
    IsGreatest {k : Nat | k.factorial < 2 ^ 32} 12 ∧
      Eventually P access factCode (fun place s' => ReturnsNumber P 12 [.t0, .t1, .t2, .a0] s place s' ∧ s'.mem = s.mem)
        (.label .maxNFactNonRec) s ∧
      Eventually P access factCode (ReturnsNumber P 12 [.t0, .a0, .a1] s) (.label .maxNFactRec) s :=
  ⟨isLast_twelve.isGreatest, max_n_fact_non_rec_ends isLast_twelve (by decide),
    max_n_fact_rec_ends isLast_twelve linked stack⟩

end

def factLabels : List FactLabel :=
  [.maxNFactNonRec, .factLoopStart, .factLoopEnd, .maxNFactRec, .afterImpl, .maxNFactRecImpl, .noOverflow, .afterRecursion]

def factAddress (label : FactLabel) : Word := BitVec.ofNat 32 (0x400000 + 64 * factLabels.idxOf label)

def factCaller : Platform FactLabel Empty Unit :=
  ⟨factAddress, fun address => factLabels.find? (factAddress · = address), nofun, fun _ => none⟩

/-- A call from address 4. -/
def factStart : State Unit where
  regs
    | .ra => 4
    | .sp => 0x7fffeff0
    | _ => 0
  mem _ := 0
  world := ()

def factAccess : Access := ⟨inRange (below 0x7fffeff0 52) 52, inRange (below 0x7fffeff0 52) 52⟩

theorem max_n_fact_returns_twelve :
    IsGreatest {k : Nat | k.factorial < 2 ^ 32} 12 ∧
      Eventually factCaller factAccess factCode
        (fun place s' => ReturnsNumber factCaller 12 [.t0, .t1, .t2, .a0] factStart place s' ∧ s'.mem = factStart.mem)
        (.label .maxNFactNonRec) factStart ∧
      Eventually factCaller factAccess factCode (ReturnsNumber factCaller 12 [.t0, .a0, .a1] factStart)
        (.label .maxNFactRec) factStart := by
  have linked : Linked factCaller := fun label => by cases label <;> decide
  have stack : Stack factAccess (factStart.get .sp) 52 :=
    ⟨Access.loads_of_range (fun _ inside => inside) (by decide), Access.stores_of_range (fun _ inside => inside) (by decide),
      by decide, by decide⟩
  exact max_n_fact_correct linked stack

end ArchCompSystems.Hw4
