import ArchCompSystems.Hw5.ArraySum

namespace ArchCompSystems.Hw3

open Library Library.RiscV Library.RiscV.Instr

open Hw5 (prefixSum prefixSum_zero prefixSum_succ flag_eq shift_length)

/-- Where the array is processed, up to the two places behind the loop. -/
inductive ProcArrayLabel where
  | procArray
  | procArrayLoop
  | printData
  | overflowError
  deriving DecidableEq

def procArrayCode : Code ProcArrayLabel Empty where
  block
    | .procArray => [slli .t0 .s1 2, sub .s2 .s3 .t0, mv .s4 .zero, mv .s5 .zero, mv .s6 .zero]
    | .procArrayLoop => [.lw .t0 0 .s2, add .t5 .s4 .t0, sgtz .t1 .t0, sgt .t2 .s4 .t5, and .t3 .t1 .t2, sltz .t1 .t0,
        slt .t2 .s4 .t5, and .t4 .t1 .t2, or .t3 .t3 .t4, bnez .t3 .overflowError, andi .t1 .t0 1, seqz .t1 .t1,
        add .s5 .s5 .t1, xori .t1 .t1 1, add .s6 .s6 .t1, mv .s4 .t5, addi .s2 .s2 4, bltu .s2 .s3 .procArrayLoop]
    | .printData | .overflowError => []
  next
    | .procArray => some .procArrayLoop
    | .procArrayLoop => some .printData
    | .printData | .overflowError => none

def isEven (x : Word) : Bool := x &&& 1 = 0

def countEven (xs : List Word) : Nat := xs.countP isEven

def countOdd (xs : List Word) : Nat := xs.countP fun x => !isEven x

/-- The array may be read, and nothing written. -/
def arrayAccess (base : Word) (length : Nat) : Access where
  mayLoad address := inRange base (4 * length) address
  mayStore _ := false

section

variable {ω : Type} {P : Platform ProcArrayLabel Empty ω} {base : Word} {xs : List Word} {s : State ω} {k : Nat}

/-- What the registers say of the first `k` elements. -/
structure Tallied (base : Word) (xs : List Word) (k : Nat) (s : State ω) : Prop where
  s2 : s.get .s2 = offset base (4 * k)
  s4 : (s.get .s4).toInt = prefixSum xs k
  s5 : s.get .s5 = BitVec.ofNat 32 (countEven (xs.take k))
  s6 : s.get .s6 = BitVec.ofNat 32 (countOdd (xs.take k))
  fits : ∀ j ≤ k, Fits (prefixSum xs j)

/-- The whole array is processed, or the part before the first element with which the sum does not fit. -/
inductive Processed (base : Word) (xs : List Word) : Place ProcArrayLabel → State ω → Prop where
  | whole {s : State ω} (tallied : Tallied base xs xs.length s) : Processed base xs (.label .printData) s
  | overflow {s : State ω} (k : Nat) (inside : k < xs.length) (tallied : Tallied base xs k s)
      (tooMuch : ¬ Fits (prefixSum xs (k + 1))) (t0 : s.get .t0 = xs[k]) : Processed base xs (.label .overflowError) s

/-- Before the array is processed. -/
structure ArrayRead (base : Word) (xs : List Word) (s : State ω) : Prop where
  nonempty : xs ≠ []
  s1 : s.get .s1 = BitVec.ofNat 32 xs.length
  s3 : s.get .s3 = offset base (4 * xs.length)
  holds : s.mem.Holds base (xs.flatMap wordBytes)
  bound : base.toNat + 4 * xs.length < 2 ^ 32
  aligned : isAligned base = true

structure Processing (base : Word) (xs : List Word) (k : Nat) (s : State ω) : Prop extends Tallied base xs k s where
  s3 : s.get .s3 = offset base (4 * xs.length)
  holds : s.mem.Holds base (xs.flatMap wordBytes)

theorem even_flag {x : Word} : (if x &&& 1 = 0 then 1 else 0 : Word) = BitVec.ofNat 32 (if isEven x then 1 else 0) := by
  rw [isEven]
  by_cases even : x &&& 1 = 0
  · rw [if_pos even, if_pos (decide_eq_true even)]
    rfl
  · rw [if_neg even, decide_eq_false even]
    rfl

theorem odd_flag {x : Word} :
    BitVec.ofNat 32 (if isEven x then 1 else 0) ^^^ 1 = BitVec.ofNat 32 (if !isEven x then 1 else 0) := by
  cases isEven x <;> rfl

theorem countP_take_succ (p : Word → Bool) (inside : k < xs.length) :
    (xs.take (k + 1)).countP p = (xs.take k).countP p + if p xs[k] then 1 else 0 := by
  rw [List.take_succ_eq_append_getElem inside, List.countP_append, List.countP_singleton]

theorem bltu_goesOn (bound : base.toNat + 4 * xs.length < 2 ^ 32) (inside : k < xs.length)
    (processing : Processing base xs (k + 1) s)
    (again : k + 1 < xs.length → Processing base xs (k + 1) s →
      Eventually P (arrayAccess base xs.length) procArrayCode (Processed base xs) (.label .procArrayLoop) s) :
    wp P (arrayAccess base xs.length) [bltu .s2 .s3 .procArrayLoop] s
      (GoesOn P (arrayAccess base xs.length) procArrayCode (Processed base xs) .procArrayLoop) := by
  have compared : (s.get .s2).ult (s.get .s3) = decide (k + 1 < xs.length) := by
    rw [processing.s2, processing.s3, BitVec.ult_eq_decide, toNat_offset (by omega), toNat_offset (by omega)]
    exact decide_eq_decide.mpr (by omega)
  apply wp_bltu
  · intro more
    exact again (of_decide_eq_true (compared.symm.trans more)) processing
  · intro last
    have behind := of_decide_eq_false (compared.symm.trans last)
    have ended : k + 1 = xs.length := by omega
    exact wp_nil ⟨.printData, rfl, .here (.whole (ended ▸ processing.toTallied))⟩

theorem procArrayLoop_ends (bound : base.toNat + 4 * xs.length < 2 ^ 32) (aligned : isAligned base = true)
    (inside : k < xs.length) (processing : Processing base xs k s) :
    Eventually P (arrayAccess base xs.length) procArrayCode (Processed base xs) (.label .procArrayLoop) s := by
  induction left : xs.length - k generalizing k s with
  | zero => omega
  | succ left ih =>
    have there : s.get .s2 + 0 = offset base (4 * k) := by rw [add_zero, processing.s2]
    have element : s.mem.loadWord (s.get .s2 + 0) = xs[k] := by
      rw [there]
      exact loadWord_of_holds_words processing.holds inside
    have array : (arrayAccess base xs.length).loads base (4 * xs.length) = true :=
      Access.loads_of_range (fun _ within => within) (by omega)
    apply eventually_block
    apply wp_lw
    · rw [there]
      exact Access.loads_part array (by omega)
    · rw [there, isAligned_offset (by omega)]
      exact aligned
    rw [element]
    apply wp_add
    apply wp_sgtz
    apply wp_sgt
    apply wp_and
    apply wp_sltz
    apply wp_slt
    apply wp_and
    apply wp_or
    simp only [get_set_self, get_set_of_ne, ne_eq, reduceCtorEq, not_false_eq_true]
    rw [flag_eq]
    have next : prefixSum xs (k + 1) = (s.get .s4).toInt + xs[k].toInt := by rw [prefixSum_succ inside, processing.s4]
    cases carry : carries (s.get .s4) xs[k] with
    | true =>
      have tooMuch : ¬ Fits (prefixSum xs (k + 1)) := next ▸ carries_iff.mp carry
      refine wp_bnez (fun _ => .here (.overflow k inside ?_ tooMuch ?_)) (fun none => ?_)
      · exact {
          s2 := by simpa only [get_set_of_ne, ne_eq, reduceCtorEq, not_false_eq_true] using processing.s2
          s4 := by simpa only [get_set_of_ne, ne_eq, reduceCtorEq, not_false_eq_true] using processing.s4
          s5 := by simpa only [get_set_of_ne, ne_eq, reduceCtorEq, not_false_eq_true] using processing.s5
          s6 := by simpa only [get_set_of_ne, ne_eq, reduceCtorEq, not_false_eq_true] using processing.s6
          fits := processing.fits }
      · simp only [get_set_self, get_set_of_ne, ne_eq, reduceCtorEq, not_false_eq_true]
      · simp at none
    | false =>
      have fit : Fits (prefixSum xs (k + 1)) := by
        rw [next]
        by_contra overflow
        rw [carries_iff.mpr overflow] at carry
        cases carry
      have fits : ∀ j ≤ k + 1, Fits (prefixSum xs j) := by
        intro j below_next
        rcases Nat.le_succ_iff.mp below_next with earlier | rfl
        · exact processing.fits j earlier
        · exact fit
      have value : (s.get .s4 + xs[k]).toInt = prefixSum xs (k + 1) := by
        rw [next]
        exact toInt_add_of_fits (next ▸ fit)
      have moved : s.get .s2 + 4 = offset base (4 * (k + 1)) := by
        rw [processing.s2, Nat.mul_add_one, ← offset_offset]
        rfl
      have even : BitVec.ofNat 32 (countEven (xs.take k)) + BitVec.ofNat 32 (if isEven xs[k] then 1 else 0) =
          BitVec.ofNat 32 (countEven (xs.take (k + 1))) := by
        rw [countEven, countEven, countP_take_succ isEven inside, BitVec.ofNat_add]
      have odd : BitVec.ofNat 32 (countOdd (xs.take k)) + BitVec.ofNat 32 (if !isEven xs[k] then 1 else 0) =
          BitVec.ofNat 32 (countOdd (xs.take (k + 1))) := by
        rw [countOdd, countOdd, countP_take_succ (fun x => !isEven x) inside, BitVec.ofNat_add]
      refine wp_bnez (fun some_flag => ?_) (fun _ => ?_)
      · simp at some_flag
      apply wp_andi
      apply wp_seqz
      apply wp_add
      apply wp_xori
      apply wp_add
      apply wp_mv
      apply wp_addi
      simp only [get_set_self, get_set_of_ne, ne_eq, reduceCtorEq, not_false_eq_true, moved, even_flag, odd_flag,
        processing.s5, processing.s6, even, odd]
      apply bltu_goesOn bound inside
      · exact {
          s2 := get_set_self (by decide)
          s4 := by simpa only [get_set_self, get_set_of_ne, ne_eq, reduceCtorEq, not_false_eq_true] using value
          s5 := by simp only [get_set_self, get_set_of_ne, ne_eq, reduceCtorEq, not_false_eq_true]
          s6 := by simp only [get_set_self, get_set_of_ne, ne_eq, reduceCtorEq, not_false_eq_true]
          fits := fits
          s3 := by simpa only [get_set_of_ne, ne_eq, reduceCtorEq, not_false_eq_true] using processing.s3
          holds := processing.holds }
      · intro more processing'
        exact ih more processing' (by omega)

/-- Every element is processed, up to one with which the sum does not fit into a word. -/
theorem procArray_ends (read : ArrayRead base xs s) :
    Eventually P (arrayAccess base xs.length) procArrayCode (Processed base xs) (.label .procArray) s := by
  have bound := read.bound
  have size : s.get .s1 <<< (2 : Word) = BitVec.ofNat 32 (4 * xs.length) := by rw [read.s1, shift_length]
  have first : s.get .s3 - BitVec.ofNat 32 (4 * xs.length) = base := by
    rw [read.s3, offset]
    exact add_sub_cancel_right base _
  apply eventually_block
  apply wp_slli
  apply wp_sub
  apply wp_mv
  apply wp_mv
  apply wp_mv
  simp only [get_set_self, get_set_of_ne, ne_eq, reduceCtorEq, not_false_eq_true, get_zero, size, first]
  refine wp_nil ⟨.procArrayLoop, rfl, procArrayLoop_ends bound read.aligned (List.length_pos_of_ne_nil read.nonempty) ?_⟩
  exact {
    s2 := by simp only [get_set_self, get_set_of_ne, ne_eq, reduceCtorEq, not_false_eq_true, Nat.mul_zero, offset_zero]
    s4 := by
      simp only [get_set_self, get_set_of_ne, ne_eq, reduceCtorEq, not_false_eq_true]
      rfl
    s5 := by
      simp only [get_set_self, get_set_of_ne, ne_eq, reduceCtorEq, not_false_eq_true]
      rfl
    s6 := by
      rw [get_set_self (by decide)]
      rfl
    fits := by
      intro j zero
      obtain rfl := Nat.le_zero.mp zero
      rw [prefixSum_zero]
      decide
    s3 := by simpa only [get_set_of_ne, ne_eq, reduceCtorEq, not_false_eq_true] using read.s3
    holds := read.holds }

end

/-- An array at the start of the data segment, behind its reading. -/
def procArrayStart (xs : List Word) : State Unit where
  regs
    | .s1 => BitVec.ofNat 32 xs.length
    | .s3 => offset 0x10010000 (4 * xs.length)
    | _ => 0
  mem := Memory.store (fun _ => 0) 0x10010000 (xs.flatMap wordBytes)
  world := ()

def procArrayPlatform : Platform ProcArrayLabel Empty Unit := ⟨fun _ => 0, fun _ => none, nofun, fun _ => none⟩

theorem two_elements_are_processed : Eventually procArrayPlatform (arrayAccess 0x10010000 2) procArrayCode
    (Processed 0x10010000 [0x7fffffff, 1]) (.label .procArray) (procArrayStart [0x7fffffff, 1]) := by
  have read : ArrayRead 0x10010000 [0x7fffffff, 1] (procArrayStart [0x7fffffff, 1]) :=
    ⟨List.cons_ne_nil _ _, rfl, rfl, Memory.holds_store (by rw [length_flatMap_wordBytes]; decide), by decide, by decide⟩
  exact procArray_ends read

end ArchCompSystems.Hw3
