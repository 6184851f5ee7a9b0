import ArchCompSystems.Library.RiscV
import ArchCompSystems.Library.SignedWords

namespace ArchCompSystems.Hw2

open Library Library.RiscV Library.RiscV.Instr

inductive Label where
  | divFunc
  | whileLoopLabel
  | whileLoopEnd
  | divFuncEnd

/-- `div_func` reads no data. -/
abbrev Line := Instr Label Empty

def Label.block : Label → List Line
  | divFunc => [
      mv .t0 .a0,
      mv .t1 .a1,
      mv .a0 .zero,
      mv .a1 .zero,
      mv .a2 .zero,
      beqz .t1 divFuncEnd,
      li .a0 1,
      sltz .t3 .t0,
      sltz .t4 .t1,
      xor .t2 .t3 .t4,
      srai .t5 .t0 31,
      xor .t0 .t0 .t5,
      sub .t0 .t0 .t5,
      srai .t5 .t1 31,
      xor .t1 .t1 .t5,
      sub .t1 .t1 .t5]
  | whileLoopLabel => [
      bltu .t0 .t1 whileLoopEnd,
      sub .t0 .t0 .t1,
      addi .a1 .a1 1,
      .j whileLoopLabel]
  | whileLoopEnd => [
      mv .a2 .t0,
      slli .t2 .t2 31,
      srai .t2 .t2 31,
      xor .a1 .a1 .t2,
      sub .a1 .a1 .t2,
      slli .t3 .t3 31,
      srai .t3 .t3 31,
      xor .a2 .a2 .t3,
      sub .a2 .a2 .t3]
  | divFuncEnd => [.ret]

def Label.next : Label → Option Label
  | divFunc => some whileLoopLabel
  | whileLoopLabel => some whileLoopEnd
  | whileLoopEnd => some divFuncEnd
  | divFuncEnd => none

def program : Code Label Empty := ⟨Label.block, Label.next⟩

def clobbered : List Reg := [.t0, .t1, .t2, .t3, .t4, .t5, .a0, .a1, .a2]

/-- No access to the memory. -/
def noAccess : Access := ⟨fun _ => false, fun _ => false⟩

section

variable {ω : Type} {P : Platform Label Empty ω} {s₀ s : State ω} {a b : Word}
  {post : Place Label → State ω → Prop}

/-- Only these registers have changed. -/
structure Inside (s₀ s : State ω) : Prop where
  kept : SameBut clobbered s₀ s
  mem : s.mem = s₀.mem
  world : s.world = s₀.world

theorem Inside.set (inside : Inside s₀ s) {r : Reg} {w : Word} (allowed : r ∈ clobbered) : Inside s₀ (s.set r w) :=
  ⟨inside.kept.set allowed, inside.mem, inside.world⟩

/-- What a call leaves in `a0`, `a1` and `a2`. -/
structure Divided (a b : Word) (s₀ s : State ω) : Prop extends Inside s₀ s where
  nonzero : b ≠ 0 → s.get .a0 = 1 ∧ DividesInto a b (s.get .a1) (s.get .a2)
  zero : b = 0 → s.get .a0 = 0 ∧ s.get .a1 = 0 ∧ s.get .a2 = 0

/-- The magnitude of `a` is what is left of it and `q` times the magnitude of `b`. -/
structure Subtracting (a b : Word) (rest q : Nat) (s₀ s : State ω) : Prop extends Inside s₀ s where
  a0 : s.get .a0 = 1
  a1 : s.get .a1 = BitVec.ofNat 32 q
  t0 : s.get .t0 = BitVec.ofNat 32 rest
  t1 : s.get .t1 = negateIf (isNegative b) b
  t2 : s.get .t2 = if isNegative a ^^ isNegative b then 1 else 0
  t3 : s.get .t3 = if isNegative a then 1 else 0
  total : rest + q * b.toInt.natAbs = a.toInt.natAbs

theorem Subtracting.divided {rest q : Nat} (subtracting : Subtracting a b rest q s₀ s)
    (last : rest < b.toInt.natAbs) :
    q = a.toInt.natAbs / b.toInt.natAbs ∧ rest = a.toInt.natAbs % b.toInt.natAbs := by
  have positive : 0 < b.toInt.natAbs := by omega
  rw [← subtracting.total, Nat.mul_comm]
  constructor
  · rw [Nat.add_mul_div_left _ _ positive, Nat.div_eq_of_lt last, Nat.zero_add]
  · rw [Nat.add_mul_mod_self_left, Nat.mod_eq_of_lt last]

theorem whileLoopEnd_ends {rest q : Nat} (nonzero : b ≠ 0) (subtracting : Subtracting a b rest q s₀ s)
    (last : rest < b.toInt.natAbs)
    (done : ∀ s', Divided a b s₀ s' → Eventually P noAccess program post (.label .divFuncEnd) s') :
    Eventually P noAccess program post (.label .whileLoopEnd) s := by
  obtain ⟨quotient, remainder⟩ := subtracting.divided last
  have divides := @dividesInto_magnitudes a b nonzero
  rw [← quotient, ← remainder] at divides
  refine eventually_block (wp_mv (wp_slli (wp_srai (wp_xor (wp_sub (wp_slli (wp_srai (wp_xor (wp_sub
    (wp_nil ⟨_, rfl, done _ ⟨⟨?_, subtracting.mem, subtracting.world⟩, fun _ => ?_, fun zero => absurd zero nonzero⟩⟩))))))))))
  · refine fun r outside => Eq.trans ?_ (subtracting.kept r outside)
    simp only [clobbered, List.mem_cons, List.not_mem_nil, or_false, not_or] at outside
    simp [outside]
  · simp only [get_set_self, get_set_of_ne, ne_eq, reduceCtorEq, not_false_eq_true, subtracting.a0, subtracting.a1,
      subtracting.t0, subtracting.t2, subtracting.t3, show (31 : Word).toNat = 31 from rfl, shift_flag, xor_sub_signMask,
      true_and]
    exact divides

theorem whileLoop_ends {rest q : Nat} (nonzero : b ≠ 0) (subtracting : Subtracting a b rest q s₀ s)
    (done : ∀ s', Divided a b s₀ s' → Eventually P noAccess program post (.label .divFuncEnd) s') :
    Eventually P noAccess program post (.label .whileLoopLabel) s := by
  induction rest using Nat.strong_induction_on generalizing q s with
  | _ rest ih =>
    have positive : 0 < b.toInt.natAbs := Int.natAbs_pos.mpr fun zero => nonzero (BitVec.eq_of_toInt_eq zero)
    have bound := @natAbs_toInt_le a
    have total := subtracting.total
    have small : (BitVec.ofNat 32 rest).toNat = rest := by
      rw [BitVec.toNat_ofNat]
      omega
    have compared : (s.get .t0).ult (s.get .t1) = decide (rest < b.toInt.natAbs) := by
      rw [subtracting.t0, subtracting.t1, BitVec.ult, small, toNat_magnitude]
    refine eventually_block (wp_bltu (fun less => ?_) fun more => ?_)
    · rw [compared] at less
      exact whileLoopEnd_ends nonzero subtracting (of_decide_eq_true less) done
    · rw [compared] at more
      have le : b.toInt.natAbs ≤ rest := not_lt.mp (of_decide_eq_false more)
      refine wp_sub (wp_addi (wp_j (ih (rest - b.toInt.natAbs) (by omega) (q := q + 1) ⟨?_, ?_, ?_, ?_, ?_, ?_, ?_, ?_⟩)))
      · exact (subtracting.toInside.set (by decide)).set (by decide)
      · simp [subtracting.a0]
      · simp [subtracting.a1, BitVec.ofNat_add]
      · simp only [get_set_self, get_set_of_ne, ne_eq, reduceCtorEq, not_false_eq_true]
        rw [subtracting.t0, subtracting.t1]
        refine BitVec.eq_of_toNat_eq ?_
        rw [BitVec.toNat_sub_of_le (by rw [BitVec.le_def, small, toNat_magnitude]; exact le), small, toNat_magnitude,
          BitVec.toNat_ofNat]
        omega
      · simp [subtracting.t1]
      · simp [subtracting.t2]
      · simp [subtracting.t3]
      · rw [Nat.add_mul]
        omega

/-- `div_func` returns for all words with the quotient and the remainder of signed division. -/
theorem divFunc_divides (P : Platform Label Empty ω) (s : State ω) :
    Eventually P noAccess program
      (fun place s' => place = P.place (s.get .ra) ∧ Divided (s.get .a0) (s.get .a1) s s') (.label .divFunc) s := by
  have returns : ∀ s', Divided (s.get .a0) (s.get .a1) s s' →
      Eventually P noAccess program
        (fun place s' => place = P.place (s.get .ra) ∧ Divided (s.get .a0) (s.get .a1) s s') (.label .divFuncEnd) s' := by
    intro s' divided
    refine eventually_block (wp_ret (.here ⟨?_, divided⟩))
    rw [divided.kept .ra (by decide)]
  refine eventually_block (wp_mv (wp_mv (wp_mv (wp_mv (wp_mv ?_)))))
  refine wp_beqz (fun zero => returns _ ⟨?_, fun nonzero => absurd ?_ nonzero, fun _ => ?_⟩) fun nonzero => ?_
  · refine ⟨fun r outside => ?_, rfl, rfl⟩
    simp only [clobbered, List.mem_cons, List.not_mem_nil, or_false, not_or] at outside
    simp [outside]
  · simpa using zero
  · simp
  · refine wp_li (wp_sltz (wp_sltz (wp_xor (wp_srai (wp_xor (wp_sub (wp_srai (wp_xor (wp_sub (wp_nil ⟨_, rfl, ?_⟩))))))))))
    refine @whileLoop_ends _ P s _ (s.get .a0) (s.get .a1) _ (s.get .a0).toInt.natAbs 0 ?_ ⟨?_, ?_, ?_, ?_, ?_, ?_, ?_, ?_⟩
      returns
    · simpa using nonzero
    · refine ⟨fun r outside => ?_, rfl, rfl⟩
      simp only [clobbered, List.mem_cons, List.not_mem_nil, or_false, not_or] at outside
      simp [outside]
    · simp
    · simp
    · simp only [get_set_self, get_set_of_ne, ne_eq, reduceCtorEq, not_false_eq_true, show (31 : Word).toNat = 31 from rfl,
        sshiftRight_sign, xor_sub_signMask, magnitude_eq_ofNat]
    · simp only [get_set_self, get_set_of_ne, ne_eq, reduceCtorEq, not_false_eq_true, show (31 : Word).toNat = 31 from rfl,
        sshiftRight_sign, xor_sub_signMask]
    · simp only [get_set_self, get_set_of_ne, ne_eq, reduceCtorEq, not_false_eq_true, xor_flags, isNegative]
      rfl
    · simp only [get_set_self, get_set_of_ne, ne_eq, reduceCtorEq, not_false_eq_true, isNegative]
      rfl
    · rw [Nat.zero_mul, Nat.add_zero]

/-- A call returns for all words. `a1` and `a2` are the quotient and the remainder of `a0` and `a1`, and `a0`
tells whether there are any; no memory and no register but the temporaries and these changes. -/
theorem divFunc_correct (P : Platform Label Empty ω) (s : State ω) :
    Eventually P noAccess program
      (fun place s' => place = P.place (s.get .ra) ∧
        (s.get .a1 ≠ 0 → s'.get .a0 = 1 ∧ DividesInto (s.get .a0) (s.get .a1) (s'.get .a1) (s'.get .a2)) ∧
        (s.get .a1 = 0 → s'.get .a0 = 0 ∧ s'.get .a1 = 0 ∧ s'.get .a2 = 0) ∧
        SameBut clobbered s s' ∧ s'.mem = s.mem) (.label .divFunc) s := by
  refine (divFunc_divides P s).mono ?_
  rintro place s' ⟨returned, divided⟩
  exact ⟨returned, divided.nonzero, divided.zero, divided.kept, divided.mem⟩

end

end ArchCompSystems.Hw2
