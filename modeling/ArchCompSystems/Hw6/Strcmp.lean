import ArchCompSystems.Library.RiscV
import ArchCompSystems.Library.SignedWords

namespace ArchCompSystems.Hw6

open Library Library.RiscV Library.RiscV.Instr

/-- `strcmpEnd` is the label `end`. -/
inductive StrcmpLabel where
  | strcmp
  | loop
  | strcmpEnd
  deriving DecidableEq

def strcmpCode : Code StrcmpLabel Empty where
  block
    | .strcmp => []
    | .loop => [.lb .t0 0 .a0, .lb .t1 0 .a1, beqz .t0 .strcmpEnd, beqz .t1 .strcmpEnd, bne .t0 .t1 .strcmpEnd,
        addi .a0 .a0 1, addi .a1 .a1 1, b .loop]
    | .strcmpEnd => [sub .a0 .t0 .t1, .ret]
  next
    | .strcmp => some .loop
    | .loop => some .strcmpEnd
    | .strcmpEnd => none

/-- The number of bytes before the first difference. -/
def commonLength : List UInt8 → List UInt8 → Nat
  | x :: xs, y :: ys => if x = y then commonLength xs ys + 1 else 0
  | _, _ => 0

/-- The bytes at the first difference; a string that has ended has its terminator there. -/
def firstDifference : List UInt8 → List UInt8 → Option (UInt8 × UInt8)
  | [], [] => none
  | [], y :: _ => some (0, y)
  | x :: _, [] => some (x, 0)
  | x :: xs, y :: ys => if x = y then firstDifference xs ys else some (x, y)

section

variable {xs ys : List UInt8} {x y : UInt8}

theorem firstDifference_eq_none (none : firstDifference xs ys = none) : xs = ys := by
  fun_induction firstDifference xs ys with
  | case1 => rfl
  | case2 => cases none
  | case3 => cases none
  | case4 xs y ys ih => rw [ih none]
  | case5 => cases none

theorem firstDifference_self : firstDifference xs xs = none := by
  induction xs with
  | nil => rfl
  | cons x xs ih => rw [firstDifference, if_pos rfl, ih]

theorem pos_of_ne_zero (nonzero : x ≠ 0) : 0 < x := UInt8.pos_iff_ne_zero.mpr nonzero

theorem order_of_firstDifference (noZero : 0 ∉ xs) (noZero' : 0 ∉ ys) (differ : firstDifference xs ys = some (x, y)) :
    x ≠ y ∧ (xs < ys ↔ x < y) ∧ (ys < xs ↔ y < x) := by
  fun_induction firstDifference xs ys with
  | case1 => cases differ
  | case2 y' ys =>
    obtain ⟨rfl, rfl⟩ := Prod.mk.inj (Option.some.inj differ)
    have nonzero : y' ≠ 0 := fun zero => noZero' (zero ▸ List.mem_cons_self)
    have positive := pos_of_ne_zero nonzero
    exact ⟨nonzero.symm, iff_of_true (List.nil_lt_cons _ _) positive,
      iff_of_false (List.not_lt_nil _) (UInt8.lt_asymm positive)⟩
  | case3 x' xs =>
    obtain ⟨rfl, rfl⟩ := Prod.mk.inj (Option.some.inj differ)
    have nonzero : x' ≠ 0 := fun zero => noZero (zero ▸ List.mem_cons_self)
    have positive := pos_of_ne_zero nonzero
    exact ⟨nonzero, iff_of_false (List.not_lt_nil _) (UInt8.lt_asymm positive),
      iff_of_true (List.nil_lt_cons _ _) positive⟩
  | case4 xs z ys ih =>
    obtain ⟨different, less, greater⟩ := ih (fun mem => noZero (List.mem_cons_of_mem _ mem))
      (fun mem => noZero' (List.mem_cons_of_mem _ mem)) differ
    have irreflexive : ¬ z < z := UInt8.lt_irrefl z
    refine ⟨different, ?_, ?_⟩
    · rw [← less, List.cons_lt_cons_iff]
      tauto
    · rw [← greater, List.cons_lt_cons_iff]
      tauto
  | case5 x' xs y' ys different =>
    cases differ
    refine ⟨different, ?_, ?_⟩
    · rw [List.cons_lt_cons_iff]
      tauto
    · rw [List.cons_lt_cons_iff]
      exact ⟨fun less => less.resolve_right fun same => different same.1.symm, .inl⟩

end

def signedByte (c : UInt8) : Word := c.toBitVec.signExtend 32

def difference (xs ys : List UInt8) : Word :=
  match firstDifference xs ys with
  | none => 0
  | some (x, y) => signedByte x - signedByte y

section

variable {x y : UInt8}

theorem toInt_signedByte : (signedByte x).toInt = if x.toNat < 128 then (x.toNat : Int) else x.toNat - 256 := by
  have bound := x.toNat_lt
  have value : (signedByte x).toInt = x.toBitVec.toInt := BitVec.toInt_signExtend_of_le (by decide)
  rw [value, BitVec.toInt_eq_toNat_cond, UInt8.toNat_toBitVec]
  by_cases small : x.toNat < 128
  · rw [if_pos (by omega), if_pos small]
  · rw [if_neg (by omega), if_neg small]
    rfl

theorem toInt_signedByte_sub : (signedByte x - signedByte y).toInt = (signedByte x).toInt - (signedByte y).toInt := by
  have bound := x.toNat_lt
  have bound' := y.toNat_lt
  have first := @toInt_signedByte x
  have second := @toInt_signedByte y
  rw [BitVec.toInt_sub]
  apply Int.bmod_eq_of_le
  · split at first <;> split at second <;> omega
  · split at first <;> split at second <;> omega

theorem signedByte_inj : signedByte x = signedByte y ↔ x = y := by
  refine ⟨fun same => ?_, fun same => by rw [same]⟩
  have bound := x.toNat_lt
  have bound' := y.toNat_lt
  have values := congrArg BitVec.toInt same
  rw [toInt_signedByte, toInt_signedByte] at values
  apply UInt8.toNat_inj.mp
  split at values <;> split at values <;> omega

theorem signedByte_eq_zero : signedByte x = 0 ↔ x = 0 := @signedByte_inj x 0

theorem sign_iff (different : x ≠ y) :
    ((signedByte x - signedByte y).toInt < 0 ↔ x < y) ∧ (0 < (signedByte x - signedByte y).toInt ↔ y < x) ↔
      (x < 128 ↔ y < 128) := by
  have bound := x.toNat_lt
  have bound' := y.toNat_lt
  have unequal : x.toNat ≠ y.toNat := fun same => different (UInt8.toNat_inj.mp same)
  have small : x < 128 ↔ x.toNat < 128 := UInt8.lt_iff_toNat_lt
  have small' : y < 128 ↔ y.toNat < 128 := UInt8.lt_iff_toNat_lt
  have less : x < y ↔ x.toNat < y.toNat := UInt8.lt_iff_toNat_lt
  have greater : y < x ↔ y.toNat < x.toNat := UInt8.lt_iff_toNat_lt
  rw [toInt_signedByte_sub, toInt_signedByte, toInt_signedByte, less, greater, small, small']
  split <;> split <;> omega

end

/-- Only `size` bytes of each string may be read. -/
def compareAccess (first second : Word) (size : Nat) : Access where
  mayLoad address := inRange first size address || inRange second size address
  mayStore _ := false

section

variable {ω : Type} {P : Platform StrcmpLabel Empty ω} {access : Access} {s : State ω} {xs ys : List UInt8}

/-- Zero-terminated strings at `a0` and `a1`; the call returns to the caller. -/
structure Comparable (P : Platform StrcmpLabel Empty ω) (xs ys : List UInt8) (s : State ω) : Prop where
  noZero : 0 ∉ xs
  noZero' : 0 ∉ ys
  first : s.mem.Holds (s.get .a0) (xs ++ [0])
  second : s.mem.Holds (s.get .a1) (ys ++ [0])
  outside : P.labelAt (s.get .ra) = none

/-- After the return from a call in `s₀`, `a0` says how the strings are ordered, by unsigned bytes. -/
structure Ordered (P : Platform StrcmpLabel Empty ω) (xs ys : List UInt8) (s₀ : State ω) (place : Place StrcmpLabel)
    (s : State ω) : Prop where
  place : place = P.place (s₀.get .ra)
  equal : s.get .a0 = 0 ↔ xs = ys
  less : (s.get .a0).toInt < 0 ↔ xs < ys
  greater : 0 < (s.get .a0).toInt ↔ ys < xs

/-- What a call in `s₀` leaves. -/
structure ReturnsDifference (P : Platform StrcmpLabel Empty ω) (xs ys : List UInt8) (s₀ : State ω)
    (place : Place StrcmpLabel) (s : State ω) : Prop where
  place : place = P.place (s₀.get .ra)
  a0 : s.get .a0 = difference xs ys

theorem strcmpEnd_ends :
    Eventually P access strcmpCode (fun place s' => place = P.place (s.get .ra) ∧ s'.get .a0 = s.get .t0 - s.get .t1)
      (.label .strcmpEnd) s := by
  apply eventually_block
  apply wp_sub
  apply wp_ret
  refine .here ⟨?_, get_set_self (by decide)⟩
  rw [get_set_of_ne (by decide)]

theorem strcmp_pass {post : Place StrcmpLabel → State ω → Prop} {x y : UInt8}
    (loads : access.loads (s.get .a0) 1 = true) (loads' : access.loads (s.get .a1) 1 = true)
    (at_first : s.mem (s.get .a0) = x) (at_second : s.mem (s.get .a1) = y)
    (leaves : x = 0 ∨ y = 0 ∨ x ≠ y → Eventually P access strcmpCode post (.label .strcmpEnd)
      ((s.set .t0 (signedByte x)).set .t1 (signedByte y)))
    (again : x ≠ 0 → x = y → Eventually P access strcmpCode post (.label .loop)
      ((((s.set .t0 (signedByte x)).set .t1 (signedByte y)).set .a0 (s.get .a0 + 1)).set .a1 (s.get .a1 + 1))) :
    Eventually P access strcmpCode post (.label .loop) s := by
  apply eventually_block
  apply wp_lb
  · rw [add_zero]
    exact loads
  apply wp_lb
  · rw [add_zero, get_set_of_ne (by decide)]
    exact loads'
  simp only [get_set_of_ne, ne_eq, reduceCtorEq, not_false_eq_true, add_zero, mem_set, at_first, at_second]
  apply wp_beqz
  · intro zero
    simp only [get_set_self, get_set_of_ne, ne_eq, reduceCtorEq, not_false_eq_true] at zero
    exact leaves (.inl (signedByte_eq_zero.mp zero))
  intro nonzero
  simp only [get_set_self, get_set_of_ne, ne_eq, reduceCtorEq, not_false_eq_true] at nonzero
  apply wp_beqz
  · intro zero
    rw [get_set_self (by decide)] at zero
    exact leaves (.inr (.inl (signedByte_eq_zero.mp zero)))
  intro _
  apply wp_bne
  · intro different
    simp only [get_set_self, get_set_of_ne, ne_eq, reduceCtorEq, not_false_eq_true] at different
    exact leaves (.inr (.inr fun same => different (signedByte_inj.mpr same)))
  intro same
  simp only [get_set_self, get_set_of_ne, ne_eq, reduceCtorEq, not_false_eq_true] at same
  apply wp_addi
  apply wp_addi
  apply wp_j
  simp only [get_set_of_ne, ne_eq, reduceCtorEq, not_false_eq_true]
  exact again (fun zero => nonzero (signedByte_eq_zero.mpr zero)) (signedByte_inj.mp same)

theorem strcmpEnd_returns {x y : UInt8} (value : difference xs ys = signedByte x - signedByte y) :
    Eventually P access strcmpCode (ReturnsDifference P xs ys s) (.label .strcmpEnd)
      ((s.set .t0 (signedByte x)).set .t1 (signedByte y)) := by
  apply strcmpEnd_ends.mono
  rintro place s' ⟨there, a0⟩
  simp only [get_set_self, get_set_of_ne, ne_eq, reduceCtorEq, not_false_eq_true] at there a0
  exact ⟨there, a0.trans value.symm⟩

theorem loads_first {base : Word} {size : Nat} (loads : access.loads base (size + 1) = true) :
    access.loads base 1 = true := by
  have part : access.loads (offset base 0) 1 = true := Access.loads_part loads (by omega)
  rwa [offset_zero] at part

theorem strcmp_loop_ends (noZero : 0 ∉ xs) (noZero' : 0 ∉ ys) (first : s.mem.Holds (s.get .a0) (xs ++ [0]))
    (second : s.mem.Holds (s.get .a1) (ys ++ [0])) (loads : access.loads (s.get .a0) (commonLength xs ys + 1) = true)
    (loads' : access.loads (s.get .a1) (commonLength xs ys + 1) = true) :
    Eventually P access strcmpCode (ReturnsDifference P xs ys s) (.label .loop) s := by
  induction xs generalizing ys s with
  | nil =>
    cases ys with
    | nil =>
      apply strcmp_pass (loads_first loads) (loads_first loads') (Memory.holds_cons.mp first).1
        (Memory.holds_cons.mp second).1
      · intro _
        exact strcmpEnd_returns rfl
      · intro nonzero
        exact absurd rfl nonzero
    | cons y ys =>
      apply strcmp_pass (loads_first loads) (loads_first loads') (Memory.holds_cons.mp first).1
        (Memory.holds_cons.mp second).1
      · intro _
        exact strcmpEnd_returns rfl
      · intro nonzero
        exact absurd rfl nonzero
  | cons x xs ih =>
    obtain ⟨at_first, first'⟩ := Memory.holds_cons.mp first
    cases ys with
    | nil =>
      apply strcmp_pass (loads_first loads) (loads_first loads') at_first (Memory.holds_cons.mp second).1
      · intro _
        exact strcmpEnd_returns rfl
      · rintro nonzero rfl
        exact absurd rfl nonzero
    | cons y ys =>
      obtain ⟨at_second, second'⟩ := Memory.holds_cons.mp second
      apply strcmp_pass (loads_first loads) (loads_first loads') at_first at_second
      · intro stops
        have different : x ≠ y := by
          rcases stops with rfl | rfl | different
          · exact absurd List.mem_cons_self noZero
          · exact absurd List.mem_cons_self noZero'
          · exact different
        apply strcmpEnd_returns
        rw [difference, firstDifference, if_neg different]
      · rintro - rfl
        rw [commonLength, if_pos rfl] at loads loads'
        have rest := @ih ((((s.set .t0 (signedByte x)).set .t1 (signedByte x)).set .a0 (s.get .a0 + 1)).set .a1
          (s.get .a1 + 1)) ys (fun mem => noZero (List.mem_cons_of_mem _ mem)) (fun mem => noZero' (List.mem_cons_of_mem _ mem))
        simp only [get_set_self, get_set_of_ne, ne_eq, reduceCtorEq, not_false_eq_true, mem_set] at rest
        apply (rest first' second' (Access.loads_part (i := 1) loads (by omega))
          (Access.loads_part (i := 1) loads' (by omega))).mono
        rintro place s' ⟨there, a0⟩
        simp only [get_set_of_ne, ne_eq, reduceCtorEq, not_false_eq_true] at there
        refine ⟨there, a0.trans ?_⟩
        rw [difference, difference, firstDifference, if_pos rfl]

theorem commonLength_le : commonLength xs ys ≤ xs.length := by
  fun_induction commonLength xs ys with
  | case1 xs y ys ih => exact Nat.succ_le_succ ih
  | case2 => exact Nat.zero_le _
  | case3 => exact Nat.zero_le _

theorem strcmp_ends (strings : Comparable P xs ys s) :
    Eventually P (compareAccess (s.get .a0) (s.get .a1) (commonLength xs ys + 1)) strcmpCode (ReturnsDifference P xs ys s)
      (.label .strcmp) s := by
  have bound : commonLength xs ys + 1 ≤ 2 ^ 32 := by
    have length := strings.first.length_lt strings.noZero
    have shorter := @commonLength_le xs ys
    omega
  refine eventually_block (wp_nil ⟨.loop, rfl, ?_⟩)
  apply strcmp_loop_ends strings.noZero strings.noZero' strings.first strings.second
  · exact Access.loads_of_range (fun _ inside => Bool.or_eq_true_iff.mpr (.inl inside)) bound
  · exact Access.loads_of_range (fun _ inside => Bool.or_eq_true_iff.mpr (.inr inside)) bound

theorem ordered_iff {place : Place StrcmpLabel} {s' : State ω} (strings : Comparable P xs ys s)
    (returns : ReturnsDifference P xs ys s place s') :
    Ordered P xs ys s place s' ↔ ∀ x y, firstDifference xs ys = some (x, y) → (x < 128 ↔ y < 128) := by
  have value := returns.a0
  rw [difference] at value
  cases differ : firstDifference xs ys with
  | none =>
    obtain rfl := firstDifference_eq_none differ
    rw [differ] at value
    have irreflexive : ¬ xs < xs := List.lt_irrefl xs
    refine iff_of_true ⟨returns.place, ?_, ?_, ?_⟩ (by rintro _ _ ⟨⟩)
    · exact iff_of_true value rfl
    · rw [value]
      exact iff_of_false (by decide) irreflexive
    · rw [value]
      exact iff_of_false (by decide) irreflexive
  | some bytes =>
    obtain ⟨x, y⟩ := bytes
    rw [differ] at value
    simp only at value
    obtain ⟨different, less, greater⟩ := order_of_firstDifference strings.noZero strings.noZero' differ
    have sign := sign_iff different
    rw [← value, ← less, ← greater] at sign
    constructor
    · rintro ordered _ _ ⟨⟩
      exact sign.mp ⟨ordered.less, ordered.greater⟩
    · intro same_side
      obtain ⟨less', greater'⟩ := sign.mpr (same_side x y rfl)
      refine ⟨returns.place, iff_of_false ?_ ?_, less', greater'⟩
      · rw [value]
        exact fun zero => different (signedByte_inj.mp (sub_eq_zero.mp zero))
      · rintro rfl
        rw [firstDifference_self] at differ
        cases differ

theorem same_side_of_ordered (strings : Comparable P xs ys s)
    (ordered : Eventually P (compareAccess (s.get .a0) (s.get .a1) (commonLength xs ys + 1)) strcmpCode
      (Ordered P xs ys s) (.label .strcmp) s) : ∀ x y, firstDifference xs ys = some (x, y) → (x < 128 ↔ y < 128) := by
  have stops : ∀ place (s' : State ω), place = P.place (s.get .ra) →
      step P (compareAccess (s.get .a0) (s.get .a1) (commonLength xs ys + 1)) strcmpCode place s' = none := by
    rintro _ _ rfl
    rw [Platform.place, strings.outside]
    rfl
  obtain ⟨place, s', returned, orders⟩ := (strcmp_ends strings).meet ordered
    (fun place s' returned => stops place s' returned.place) fun place s' orders => stops place s' orders.place
  exact (ordered_iff strings returned).mp orders

/-- `strcmp` orders two strings as C does if and only if their bytes at the first difference are both below 128, or
    neither is. -/
theorem strcmp_ordered_iff (strings : Comparable P xs ys s) :
    Eventually P (compareAccess (s.get .a0) (s.get .a1) (commonLength xs ys + 1)) strcmpCode (Ordered P xs ys s)
        (.label .strcmp) s ↔
      ∀ x y, firstDifference xs ys = some (x, y) → (x < 128 ↔ y < 128) := by
  constructor
  · exact same_side_of_ordered strings
  · intro same_side
    exact (strcmp_ends strings).mono fun place s' returned => (ordered_iff strings returned).mpr same_side

end

/-- Strings at two addresses, and a call from address 4. -/
def strcmpStart (xs ys : List UInt8) : State Unit where
  regs
    | .ra => 4
    | .a0 => 0x10010000
    | .a1 => 0x10010100
    | _ => 0
  mem := (Memory.store (fun _ => 0) 0x10010000 (xs ++ [0])).store 0x10010100 (ys ++ [0])
  world := ()

def strcmpCaller : Platform StrcmpLabel Empty Unit := ⟨fun _ => 0, fun _ => none, nofun, fun _ => none⟩

theorem strcmpStart_comparable {xs ys : List UInt8} (noZero : 0 ∉ xs) (noZero' : 0 ∉ ys) (short : xs.length < 256)
    (short' : ys.length < 256) : Comparable strcmpCaller xs ys (strcmpStart xs ys) where
  noZero := noZero
  noZero' := noZero'
  first := by
    have length : (xs ++ [0]).length = xs.length + 1 := by rw [List.length_append, List.length_singleton]
    have length' : (ys ++ [0]).length = ys.length + 1 := by rw [List.length_append, List.length_singleton]
    have lower : (0x10010000 : Word).toNat = 0x10010000 := rfl
    have upper : (0x10010100 : Word).toNat = 0x10010100 := rfl
    apply (Memory.holds_store (by omega)).store (by omega)
    apply apart_of_le <;> omega
  second := by
    have length' : (ys ++ [0]).length = ys.length + 1 := by rw [List.length_append, List.length_singleton]
    exact Memory.holds_store (by omega)
  outside := rfl

theorem strcmp_orders_ab : Eventually strcmpCaller (compareAccess 0x10010000 0x10010100 2) strcmpCode
    (Ordered strcmpCaller [97, 98] [97, 99] (strcmpStart [97, 98] [97, 99])) (.label .strcmp)
    (strcmpStart [97, 98] [97, 99]) := by
  apply (strcmp_ordered_iff (@strcmpStart_comparable [97, 98] [97, 99] (by simp) (by simp) (by decide) (by decide))).mpr
  intro x y differ
  have bytes : firstDifference [97, 98] [97, 99] = some (98, 99) := rfl
  obtain ⟨rfl, rfl⟩ := Prod.mk.inj (Option.some.inj (bytes.symm.trans differ))
  decide

/-- The byte 128 is taken for less than the byte 127. -/
theorem byte_128_is_not_ordered : ¬ ∀ xs ys : List UInt8, 0 ∉ xs → 0 ∉ ys → xs.length < 256 → ys.length < 256 →
    Eventually strcmpCaller (compareAccess 0x10010000 0x10010100 (commonLength xs ys + 1)) strcmpCode
      (Ordered strcmpCaller xs ys (strcmpStart xs ys)) (.label .strcmp) (strcmpStart xs ys) := by
  intro ordered
  have call := @strcmpStart_comparable [127] [128] (by simp) (by simp) (by decide) (by decide)
  have same_side := same_side_of_ordered call (ordered [127] [128] (by simp) (by simp) (by decide) (by decide)) 127 128 rfl
  have above : ¬ (128 : UInt8) < 128 := UInt8.lt_irrefl 128
  exact above (same_side.mp (by decide))

end ArchCompSystems.Hw6
