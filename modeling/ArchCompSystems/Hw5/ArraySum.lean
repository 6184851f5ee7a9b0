import ArchCompSystems.Library.RiscV
import ArchCompSystems.Library.SignedWords

namespace ArchCompSystems.Hw5

open Library Library.RiscV Library.RiscV.Instr

/-- The labels of an expansion of `array_sum`, and what stands behind it. -/
inductive ArraySumLabel where
  | prologue
  | procArrayLoop
  | epilogue
  | after
  deriving DecidableEq

inductive DataLabel where
  | arrayBegin
  deriving DecidableEq

abbrev Line := Instr ArraySumLabel DataLabel

def push (reg : Reg) : List Line := [addi .sp .sp (-4), .sw reg 0 .sp]

def pop (reg : Reg) : List Line := [.lw reg 0 .sp, addi .sp .sp 4]

def arraySum (arrLabel : DataLabel) (regArrLength regSum regOverflowFlag : Reg) : ArraySumLabel → List Line
  | .prologue => push regArrLength ++ push .s2 ++ push .s3 ++ push .s4 ++
      [.la .s2 arrLabel, slli .t0 regArrLength 2, add .s3 .s2 .t0, mv .s4 .zero]
  | .procArrayLoop => [.lw .t0 0 .s2, add .t5 .s4 .t0, sgtz .t1 .t0, sgt .t2 .s4 .t5, and .t3 .t1 .t2, sltz .t1 .t0,
      slt .t2 .s4 .t5, and .t4 .t1 .t2, or regOverflowFlag .t3 .t4, bnez regOverflowFlag .epilogue, mv .s4 .t5,
      addi .s2 .s2 4, bne .s2 .s3 .procArrayLoop]
  | .epilogue => mv regSum .s4 :: (pop .s4 ++ pop .s3 ++ pop .s2 ++ pop regArrLength)
  | .after => []

def ArraySumLabel.next : ArraySumLabel → Option ArraySumLabel
  | .prologue => some .procArrayLoop
  | .procArrayLoop => some .epilogue
  | .epilogue => some .after
  | .after => none

/-- The expansion in `main`. -/
def mainArraySum : Code ArraySumLabel DataLabel := ⟨arraySum .arrayBegin .a0 .s1 .t1, ArraySumLabel.next⟩

def prefixSum (xs : List Word) (count : Nat) : Int := ((xs.take count).map BitVec.toInt).sum

/-- The sum of the longest prefix of which all prefixes fit, and whether that is not the whole array. -/
structure SumOf (xs : List Word) (flag sum : Word) : Prop where
  flag_cases : flag = 0 ∨ flag = 1
  flag_iff : flag = 1 ↔ ∃ count ≤ xs.length, ¬ Fits (prefixSum xs count)
  sum : ∃ count ≤ xs.length, (∀ j ≤ count, Fits (prefixSum xs j)) ∧
    (count < xs.length → ¬ Fits (prefixSum xs (count + 1))) ∧ sum.toInt = prefixSum xs count

section

variable {xs : List Word} {k : Nat}

@[simp] theorem prefixSum_zero : prefixSum xs 0 = 0 := rfl

theorem prefixSum_succ (inside : k < xs.length) : prefixSum xs (k + 1) = prefixSum xs k + xs[k].toInt := by
  rw [prefixSum, List.take_succ_eq_append_getElem inside, List.map_append, List.sum_append, List.map_singleton,
    List.sum_singleton]
  rfl

theorem sumOf_overflow {sum : Word} (inside : k < xs.length) (fits : ∀ j ≤ k, Fits (prefixSum xs j))
    (overflow : ¬ Fits (prefixSum xs (k + 1))) (value : sum.toInt = prefixSum xs k) : SumOf xs 1 sum where
  flag_cases := .inr rfl
  flag_iff := iff_of_true rfl ⟨k + 1, inside, overflow⟩
  sum := ⟨k, Nat.le_of_lt inside, fits, fun _ => overflow, value⟩

theorem sumOf_whole {sum : Word} (fits : ∀ j ≤ xs.length, Fits (prefixSum xs j))
    (value : sum.toInt = prefixSum xs xs.length) : SumOf xs 0 sum where
  flag_cases := .inl rfl
  flag_iff := by
    refine iff_of_false (by decide) ?_
    rintro ⟨count, inside, overflow⟩
    exact overflow (fits count inside)
  sum := ⟨xs.length, Nat.le_refl _, fits, fun less => absurd less (Nat.lt_irrefl _), value⟩

end

/-- The elements may be read, and the four words below the stack pointer read and written. -/
def sumAccess (base top : Word) (length : Nat) : Access where
  mayLoad address := inRange base (4 * length) address || inRange (below top 16) 16 address
  mayStore address := inRange (below top 16) 16 address

section

variable {ω : Type} {P : Platform ArraySumLabel DataLabel ω} {top : Word} {xs : List Word} {s₀ s : State ω} {k : Nat}

/-- An array at `array_begin`, apart from the words that the macro pushes. -/
structure ArraySumCall (P : Platform ArraySumLabel DataLabel ω) (xs : List Word) (s : State ω) : Prop where
  a0 : s.get .a0 = BitVec.ofNat 32 xs.length
  holds : s.mem.Holds (P.data .arrayBegin) (xs.flatMap wordBytes)
  bound : 4 * xs.length < 2 ^ 32
  alignedArray : isAligned (P.data .arrayBegin) = true
  aligned : isAligned (s.get .sp) = true
  apart : Apart (P.data .arrayBegin) (4 * xs.length) (below (s.get .sp) 16) 16
  outside : inRange (below (s.get .sp) 16) 16 (P.data .arrayBegin) = false

/-- Behind the macro, with the result in its registers. -/
structure Summed (xs : List Word) (place : Place ArraySumLabel) (s : State ω) : Prop where
  place : place = .label .after
  sum : SumOf xs (s.get .t1) (s.get .s1)

def saved : List Reg := [.s4, .s3, .s2, .a0]

/-- In the loop, before element `k`. -/
structure Summing (P : Platform ArraySumLabel DataLabel ω) (top : Word) (xs : List Word) (k : Nat) (s₀ s : State ω) :
    Prop where
  sp : s.get .sp = below top 16
  pushed : Pushed s.mem top (saved.map s₀.get)
  holds : s.mem.Holds (P.data .arrayBegin) (xs.flatMap wordBytes)
  s2 : s.get .s2 = offset (P.data .arrayBegin) (4 * k)
  s3 : s.get .s3 = offset (P.data .arrayBegin) (4 * xs.length)
  s4 : (s.get .s4).toInt = prefixSum xs k
  fits : ∀ j ≤ k, Fits (prefixSum xs j)

theorem sumAccess_stack {base : Word} {length : Nat} : (sumAccess base top length).loads (below top 16) 16 = true ∧
    (sumAccess base top length).stores (below top 16) 16 = true := by
  constructor
  · apply Access.loads_of_range _ (by decide)
    intro address inside
    exact Bool.or_eq_true_iff.mpr (.inr inside)
  · apply Access.stores_of_range _ (by decide)
    intro address inside
    exact inside

theorem sumAccess_element {base : Word} {length : Nat} (inside : k < length) (bound : 4 * length < 2 ^ 32) :
    (sumAccess base top length).loads (offset base (4 * k)) 4 = true := by
  have array : (sumAccess base top length).loads base (4 * length) = true := by
    apply Access.loads_of_range _ (Nat.le_of_lt bound)
    intro address within
    exact Bool.or_eq_true_iff.mpr (.inl within)
  exact Access.loads_part array (by omega)

theorem epilogue_ends (aligned : isAligned top = true) (sp : s.get .sp = below top 16)
    (pushed : Pushed s.mem top (saved.map s₀.get)) (sum : SumOf xs (s.get .t1) (s.get .s4)) :
    Eventually P (sumAccess (P.data .arrayBegin) top xs.length) mainArraySum (Summed xs) (.label .epilogue) s := by
  apply eventually_block
  have code : mainArraySum.block .epilogue =
      mv .s1 .s4 :: (saved.flatMap (fun reg => [.lw reg 0 .sp, addi .sp .sp 4]) ++ []) := rfl
  rw [code]
  apply wp_mv
  apply wp_popAll saved 16 (saved.map s₀.get) [] (by decide) (by decide) (by decide)
  · rw [get_set_of_ne (by decide)]
    exact sp
  · rw [List.append_nil]
    exact pushed
  · rfl
  · exact sumAccess_stack.1
  · exact Nat.le_refl 16
  · exact aligned
  · intro s' _ _ kept _ _
    apply wp_nil
    refine ⟨.after, rfl, .here ⟨rfl, ?_⟩⟩
    rw [kept .t1 (by decide) (by decide), kept .s1 (by decide) (by decide), get_set_self (by decide),
      get_set_of_ne (by decide)]
    exact sum

theorem flag_eq {sum summand : Word} :
    ((if (0 : Word).slt summand then 1 else 0) &&& (if (sum + summand).slt sum then 1 else 0) |||
      (if summand.slt 0 then 1 else 0) &&& (if sum.slt (sum + summand) then 1 else 0) : Word) =
        if carries sum summand then 1 else 0 := by
  rw [carries]
  cases (0 : Word).slt summand <;> cases (sum + summand).slt sum <;> cases summand.slt 0 <;>
    cases sum.slt (sum + summand) <;> rfl

theorem procArrayLoop_ends (bound : 4 * xs.length < 2 ^ 32) (alignedArray : isAligned (P.data .arrayBegin) = true)
    (aligned : isAligned top = true) (inside : k < xs.length) (summing : Summing P top xs k s₀ s) :
    Eventually P (sumAccess (P.data .arrayBegin) top xs.length) mainArraySum (Summed xs) (.label .procArrayLoop) s := by
  induction left : xs.length - k generalizing k s with
  | zero => omega
  | succ left ih =>
    have there : s.get .s2 + 0 = offset (P.data .arrayBegin) (4 * k) := by rw [add_zero, summing.s2]
    have element : s.mem.loadWord (s.get .s2 + 0) = xs[k] := by
      rw [there]
      exact loadWord_of_holds_words summing.holds inside
    apply eventually_block
    apply wp_lw
    · rw [there]
      exact sumAccess_element inside bound
    · rw [there, isAligned_offset (by omega)]
      exact alignedArray
    rw [element]
    apply wp_add
    apply wp_sgtz
    apply wp_sgt
    apply wp_and
    apply wp_sltz
    apply wp_slt
    apply wp_and
    apply wp_or
    simp only [get_set_self, get_set_of_ne, ne_eq, reduceCtorEq, not_false_eq_true]
    rw [flag_eq]
    have next : prefixSum xs (k + 1) = (s.get .s4).toInt + xs[k].toInt := by rw [prefixSum_succ inside, summing.s4]
    cases carry : carries (s.get .s4) xs[k] with
    | true =>
      have overflow : ¬ Fits (prefixSum xs (k + 1)) := next ▸ carries_iff.mp carry
      refine wp_bnez (fun _ => ?_) (fun none => ?_)
      · apply epilogue_ends aligned
        · simpa only [get_set_of_ne, ne_eq, reduceCtorEq, not_false_eq_true] using summing.sp
        · exact summing.pushed
        · simp only [get_set_self, get_set_of_ne, ne_eq, reduceCtorEq, not_false_eq_true, if_true]
          exact sumOf_overflow inside summing.fits overflow summing.s4
      · simp at none
    | false =>
      have fit : Fits (prefixSum xs (k + 1)) := by
        rw [next]
        by_contra overflow
        rw [carries_iff.mpr overflow] at carry
        cases carry
      have fits : ∀ j ≤ k + 1, Fits (prefixSum xs j) := by
        intro j below_next
        rcases Nat.le_succ_iff.mp below_next with earlier | rfl
        · exact summing.fits j earlier
        · exact fit
      have value : (s.get .s4 + xs[k]).toInt = prefixSum xs (k + 1) := by
        rw [next]
        exact toInt_add_of_fits (next ▸ fit)
      refine wp_bnez (fun some_flag => ?_) (fun _ => ?_)
      · simp at some_flag
      apply wp_mv
      apply wp_addi
      have moved : s.get .s2 + 4 = offset (P.data .arrayBegin) (4 * (k + 1)) := by
        rw [summing.s2, Nat.mul_add_one, ← offset_offset]
        rfl
      simp only [get_set_self, get_set_of_ne, ne_eq, reduceCtorEq, not_false_eq_true, moved]
      apply wp_bne
      · intro more
        simp only [get_set_self, get_set_of_ne, ne_eq, reduceCtorEq, not_false_eq_true, summing.s3] at more
        have before : k + 1 < xs.length := by
          have different : k + 1 ≠ xs.length := fun same => more (by rw [same])
          omega
        apply ih before _ (by omega)
        exact {
          sp := by simpa only [get_set_of_ne, ne_eq, reduceCtorEq, not_false_eq_true] using summing.sp
          pushed := summing.pushed
          holds := summing.holds
          s2 := get_set_self (by decide)
          s3 := by simpa only [get_set_of_ne, ne_eq, reduceCtorEq, not_false_eq_true] using summing.s3
          s4 := by simpa only [get_set_self, get_set_of_ne, ne_eq, reduceCtorEq, not_false_eq_true] using value
          fits := fits }
      · intro last
        simp only [get_set_self, get_set_of_ne, ne_eq, reduceCtorEq, not_false_eq_true, summing.s3] at last
        have ended : k + 1 = xs.length := by
          have same := (offset_inj (by omega) (by omega)).mp last
          omega
        refine wp_nil ⟨.epilogue, rfl, epilogue_ends aligned ?_ summing.pushed ?_⟩
        · simpa only [get_set_of_ne, ne_eq, reduceCtorEq, not_false_eq_true] using summing.sp
        · simp only [get_set_self, get_set_of_ne, ne_eq, reduceCtorEq, not_false_eq_true, if_false]
          exact sumOf_whole (ended ▸ fits) (ended ▸ value)

theorem shift_length {n : Nat} :
    (BitVec.ofNat 32 n <<< (2 : Word)) = BitVec.ofNat 32 (4 * n) := by
  apply BitVec.eq_of_toNat_eq
  have two : (2 : Word).toNat = 2 := rfl
  rw [BitVec.shiftLeft_eq', BitVec.toNat_shiftLeft, BitVec.toNat_ofNat, BitVec.toNat_ofNat, two, Nat.shiftLeft_eq]
  omega

theorem prologue_ends {post : Place ArraySumLabel → State ω → Prop} (call : ArraySumCall P xs s)
    (loop : ∀ s', Summing P (s.get .sp) xs 0 s s' →
      Eventually P (sumAccess (P.data .arrayBegin) (s.get .sp) xs.length) mainArraySum post (.label .procArrayLoop) s') :
    Eventually P (sumAccess (P.data .arrayBegin) (s.get .sp) xs.length) mainArraySum post (.label .prologue) s := by
  apply eventually_block
  have code : mainArraySum.block .prologue =
      saved.reverse.flatMap (fun reg => [addi .sp .sp (-4), .sw reg 0 .sp]) ++
        [.la .s2 .arrayBegin, slli .t0 .a0 2, add .s3 .s2 .t0, mv .s4 .zero] := rfl
  rw [code]
  apply wp_pushAll saved.reverse (s.get .sp) 16 [] (by decide) below_zero.symm .nil sumAccess_stack.2 (by decide)
    (by decide) call.aligned
  intro s' sp kept pushed outside _
  apply wp_la
  apply wp_slli
  apply wp_add
  apply wp_mv
  refine wp_nil ⟨.procArrayLoop, rfl, loop _ ?_⟩
  have array : s'.mem.Holds (P.data .arrayBegin) (xs.flatMap wordBytes) := by
    apply call.holds.congr
    · rw [length_flatMap_wordBytes]
      exact Nat.le_of_lt call.bound
    · intro address at_array
      rw [length_flatMap_wordBytes] at at_array
      exact outside address (call.apart address at_array)
  exact {
    sp := by
      simp only [get_set_of_ne, ne_eq, reduceCtorEq, not_false_eq_true]
      exact sp
    pushed := by
      rwa [← List.map_reverse, List.reverse_reverse, List.append_nil] at pushed
    holds := array
    s2 := by simp only [get_set_self, get_set_of_ne, ne_eq, reduceCtorEq, not_false_eq_true, Nat.mul_zero, offset_zero]
    s3 := by
      simp only [get_set_self, get_set_of_ne, ne_eq, reduceCtorEq, not_false_eq_true, kept, call.a0, shift_length]
      rfl
    s4 := by
      rw [get_set_self (by decide), get_zero]
      rfl
    fits := by
      intro j zero
      obtain rfl := Nat.le_zero.mp zero
      rw [prefixSum_zero]
      decide }

theorem procArrayLoop_faults (summing : Summing P top [] 0 s₀ s)
    (outside : inRange (below top 16) 16 (P.data .arrayBegin) = false) :
    run P (sumAccess (P.data .arrayBegin) top 0) (mainArraySum.block .procArrayLoop) s = none := by
  have first : s.get .s2 + 0 = P.data .arrayBegin := by
    rw [add_zero, summing.s2]
    exact offset_zero
  have unreadable : (sumAccess (P.data .arrayBegin) top 0).loads (P.data .arrayBegin) 4 = false := by
    by_contra readable
    have byte := Access.loads_iff.mp (Bool.of_not_eq_false readable) 0 (by decide)
    rw [offset_zero] at byte
    have covered : (inRange (P.data .arrayBegin) (4 * 0) (P.data .arrayBegin) ||
        inRange (below top 16) 16 (P.data .arrayBegin)) = true := byte
    rw [outside, Bool.or_false] at covered
    simp [inRange] at covered
  show run P _ (.lw .t0 0 .s2 :: _) s = none
  rw [run, Instr.exec, first, unreadable]
  rfl

theorem summed_stops {place : Place ArraySumLabel} {access : Access} (summed : Summed xs place s) :
    step P access mainArraySum place s = none := by
  rw [summed.place]
  rfl

theorem empty_not_summed (call : ArraySumCall P [] s) :
    ¬ Eventually P (sumAccess (P.data .arrayBegin) (s.get .sp) 0) mainArraySum (Summed []) (.label .prologue) s := by
  intro ends
  have looping : Eventually P (sumAccess (P.data .arrayBegin) (s.get .sp) 0) mainArraySum
      (fun place s' => place = .label .procArrayLoop ∧
        run P (sumAccess (P.data .arrayBegin) (s.get .sp) 0) (mainArraySum.block .procArrayLoop) s' = none)
      (.label .prologue) s :=
    prologue_ends call fun s' summing => .here ⟨rfl, procArrayLoop_faults summing call.outside⟩
  obtain ⟨place, s', ⟨rfl, faults⟩, rest⟩ := looping.through ends fun place s => summed_stops
  apply not_eventually faults _ rest
  intro summed
  cases summed.place

/-- The macro is exact if and only if the array is not empty. -/
theorem arraySum_exact_iff (call : ArraySumCall P xs s) :
    Eventually P (sumAccess (P.data .arrayBegin) (s.get .sp) xs.length) mainArraySum (Summed xs) (.label .prologue) s ↔
      xs ≠ [] := by
  constructor
  · rintro ends rfl
    exact empty_not_summed call ends
  · intro nonempty
    exact prologue_ends call fun s' => procArrayLoop_ends call.bound call.alignedArray call.aligned
      (List.length_pos_of_ne_nil nonempty)

end

/-- The array at the start of the data segment, the stack where the simulator starts it. -/
def mainPlatform : Platform ArraySumLabel DataLabel Unit := ⟨fun _ => 0, fun _ => none, fun _ => 0x10010000, fun _ => none⟩

def mainStart (xs : List Word) : State Unit where
  regs
    | .sp => 0x7fffeffc
    | .a0 => BitVec.ofNat 32 xs.length
    | _ => 0
  mem := Memory.store (fun _ => 0) 0x10010000 (xs.flatMap wordBytes)
  world := ()

theorem mainStart_stack {xs : List Word} : below ((mainStart xs).get .sp) 16 = 0x7fffefec := by
  have sp : (mainStart xs).get .sp = 0x7fffeffc := rfl
  rw [sp]
  decide

theorem mainStart_call {xs : List Word} (short : xs.length ≤ 10) : ArraySumCall mainPlatform xs (mainStart xs) where
  a0 := rfl
  holds := Memory.holds_store (by rw [length_flatMap_wordBytes]; omega)
  bound := by omega
  alignedArray := by decide
  aligned := by
    have sp : (mainStart xs).get .sp = 0x7fffeffc := rfl
    rw [sp]
    decide
  apart := by
    have array : mainPlatform.data .arrayBegin = 0x10010000 := rfl
    have lower : (0x10010000 : Word).toNat = 0x10010000 := rfl
    have upper : (0x7fffefec : Word).toNat = 0x7fffefec := rfl
    rw [mainStart_stack, array]
    apply apart_of_le <;> omega
  outside := by
    rw [mainStart_stack]
    decide

theorem arraySum_exact_two : Eventually mainPlatform (sumAccess 0x10010000 0x7fffeffc 2) mainArraySum
    (Summed [0x7fffffff, 1]) (.label .prologue) (mainStart [0x7fffffff, 1]) :=
  (arraySum_exact_iff (@mainStart_call [0x7fffffff, 1] (by decide))).mpr (List.cons_ne_nil _ _)

/-- `main` admits the length 0. -/
theorem empty_array_is_not_exact : ¬ ∀ xs : List Word, xs.length ≤ 10 →
    Eventually mainPlatform (sumAccess 0x10010000 0x7fffeffc xs.length) mainArraySum (Summed xs) (.label .prologue)
      (mainStart xs) := by
  intro exact
  exact empty_not_summed (mainStart_call (Nat.zero_le _)) (exact [] (Nat.zero_le _))

end ArchCompSystems.Hw5
