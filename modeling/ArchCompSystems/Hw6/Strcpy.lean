import ArchCompSystems.Library.RiscV

namespace ArchCompSystems.Hw6

open Library Library.RiscV Library.RiscV.Instr

inductive StrcpyLabel where
  | strcpy
  | loop
  | strcpyRet
  deriving DecidableEq

def strcpyCode : Code StrcpyLabel Empty where
  block
    | .strcpy => [or .t0 .a0 .a1, beqz .t0 .strcpyRet, mv .t0 .a0]
    | .loop => [.lbu .t1 0 .a1, .sb .t1 0 .t0, addi .t0 .t0 1, addi .a1 .a1 1, bnez .t1 .loop]
    | .strcpyRet => [.ret]
  next
    | .strcpy => some .loop
    | .loop => some .strcpyRet
    | .strcpyRet => none

/-- `size` bytes may be read at `source` and written at `destination`. -/
def copyAccess (destination source : Word) (size : Nat) : Access where
  mayLoad address := inRange source size address
  mayStore address := inRange destination size address

def noAccess : Access := ⟨fun _ => false, fun _ => false⟩

section

variable {ω : Type} {P : Platform StrcpyLabel Empty ω} {s₀ s : State ω} {text : List UInt8} {k : Nat}

/-- A string for which there is room at `a0`. -/
structure Copyable (text : List UInt8) (s : State ω) : Prop where
  noZero : 0 ∉ text
  holds : s.mem.Holds (s.get .a1) (text ++ [0])
  apart : Apart (s.get .a1) (text.length + 1) (s.get .a0) (text.length + 1)

/-- After the return from a call in `s₀`, the string is at `a0` and nothing else has changed. -/
structure Copied (P : Platform StrcpyLabel Empty ω) (text : List UInt8) (s₀ : State ω) (place : Place StrcpyLabel)
    (s : State ω) : Prop where
  place : place = P.place (s₀.get .ra)
  mem : s.mem = s₀.mem.store (s₀.get .a0) (text ++ [0])
  kept : SameBut [.t0, .t1, .a1] s₀ s

/-- After the return from a call in `s₀` that did nothing. -/
structure Returned (P : Platform StrcpyLabel Empty ω) (s₀ : State ω) (place : Place StrcpyLabel) (s : State ω) : Prop where
  place : place = P.place (s₀.get .ra)
  mem : s.mem = s₀.mem
  kept : SameBut [.t0] s₀ s

/-- Strings are copied, and with a null pointer no memory is accessed. -/
structure KeepsPromise (P : Platform StrcpyLabel Empty ω) (s : State ω) : Prop where
  copies : s.get .a0 ≠ 0 → s.get .a1 ≠ 0 → ∀ text, Copyable text s →
    Eventually P (copyAccess (s.get .a0) (s.get .a1) (text.length + 1)) strcpyCode (Copied P text s) (.label .strcpy) s
  nullSafe : s.get .a0 = 0 ∨ s.get .a1 = 0 →
    Eventually P noAccess strcpyCode (Returned P s) (.label .strcpy) s

/-- Before byte `k` of the string. -/
structure Copying (text : List UInt8) (k : Nat) (s₀ s : State ω) : Prop where
  t0 : s.get .t0 = offset (s₀.get .a0) k
  a1 : s.get .a1 = offset (s₀.get .a1) k
  mem : s.mem = s₀.mem.store (s₀.get .a0) ((text ++ [0]).take k)
  kept : SameBut [.t0, .t1, .a1] s₀ s

theorem loop_ends (copyable : Copyable text s₀) (inside : k < text.length + 1) (copying : Copying text k s₀ s) :
    Eventually P (copyAccess (s₀.get .a0) (s₀.get .a1) (text.length + 1)) strcpyCode (Copied P text s₀) (.label .loop) s := by
  have bound := copyable.holds.length_lt copyable.noZero
  induction left : text.length + 1 - k generalizing k s with
  | zero => omega
  | succ left ih =>
    have length : (text ++ [0]).length = text.length + 1 := by rw [List.length_append, List.length_singleton]
    have lower : k < (text ++ [0]).length := by omega
    have taken : ((text ++ [0]).take k).length = k := by rw [List.length_take, Nat.min_eq_left (Nat.le_of_lt lower)]
    have byte : s.mem (s.get .a1 + 0) = (text ++ [0])[k] := by
      rw [add_zero, copying.mem, copying.a1, Memory.store_of_not_inRange]
      · exact copyable.holds k lower
      · by_contra within
        have written : inRange (s₀.get .a0) (text.length + 1) (offset (s₀.get .a1) k) = true := by
          rw [taken] at within
          have part : inRange (offset (s₀.get .a0) 0) k (offset (s₀.get .a1) k) = true := by
            rw [offset_zero]
            exact Bool.of_not_eq_false within
          exact inRange_of_part part (by omega) bound
        rw [copyable.apart _ (inRange_offset inside bound)] at written
        cases written
    have stored : s.mem.store (offset (s₀.get .a0) k) [(text ++ [0])[k]] =
        s₀.mem.store (s₀.get .a0) ((text ++ [0]).take (k + 1)) := by
      have one_more := @Memory.store_concat (s₀.get .a0) s₀.mem ((text ++ [0]).take k) (text ++ [0])[k] (by omega)
      rw [taken, ← List.take_succ_eq_append_getElem lower] at one_more
      rw [copying.mem, one_more]
    apply eventually_block
    apply wp_lbu
    · rw [add_zero, copying.a1]
      exact Access.loads_part (Access.loads_of_range (fun _ inside => inside) bound) (by omega)
    rw [byte]
    apply wp_sb
    · simp only [get_set_of_ne, ne_eq, reduceCtorEq, not_false_eq_true, add_zero, copying.t0]
      exact Access.stores_part (Access.stores_of_range (fun _ inside => inside) bound) (by omega)
    simp only [get_set_self, get_set_of_ne, ne_eq, reduceCtorEq, not_false_eq_true, add_zero, copying.t0, byte_of_word]
    apply wp_addi
    apply wp_addi
    apply wp_bnez
    · intro nonzero
      simp only [get_set_self, get_set_of_ne, get_store, ne_eq, reduceCtorEq, not_false_eq_true] at nonzero
      have before : k < text.length := by
        by_contra behind
        obtain rfl : k = text.length := by omega
        rw [List.getElem_concat_length rfl] at nonzero
        exact nonzero rfl
      apply @ih _ (k + 1) (by omega) _ (by omega)
      refine ⟨?_, ?_, stored, ?_⟩
      · simp only [get_set_self, get_set_of_ne, get_store, ne_eq, reduceCtorEq, not_false_eq_true, copying.t0, offset_add_one]
      · simp only [get_set_self, get_set_of_ne, get_store, ne_eq, reduceCtorEq, not_false_eq_true, copying.a1, offset_add_one]
      · exact SameBut.set (SameBut.set (copying.kept.set (by decide)) (by decide)) (by decide)
    · intro zero
      simp only [get_set_self, get_set_of_ne, get_store, ne_eq, reduceCtorEq, not_false_eq_true] at zero
      have last : k = text.length := by
        by_contra different
        have within : k < text.length := by omega
        rw [List.getElem_append_left within] at zero
        have value : text[k].toNat = 0 := by
          have word := congrArg BitVec.toNat zero
          rw [BitVec.toNat_ofNat, Nat.mod_eq_of_lt (by have := text[k].toNat_lt; omega)] at word
          exact word
        have is_zero : text[k] = 0 := UInt8.toNat_inj.mp (value.trans rfl)
        exact copyable.noZero (is_zero ▸ List.getElem_mem within)
      subst last
      refine wp_nil ⟨.strcpyRet, rfl, eventually_block (wp_ret (.here ⟨?_, ?_, ?_⟩))⟩
      · simp only [get_set_of_ne, get_store, ne_eq, reduceCtorEq, not_false_eq_true, copying.kept .ra (by decide)]
      · rw [List.take_of_length_le (by omega)] at stored
        exact stored
      · exact SameBut.set (SameBut.set (copying.kept.set (by decide)) (by decide)) (by decide)

theorem strcpy_copies (copyable : Copyable text s) (pointers : s.get .a0 ||| s.get .a1 ≠ 0) :
    Eventually P (copyAccess (s.get .a0) (s.get .a1) (text.length + 1)) strcpyCode (Copied P text s) (.label .strcpy) s := by
  apply eventually_block
  apply wp_or
  apply wp_beqz
  · intro zero
    rw [get_set_self (by decide)] at zero
    exact absurd zero pointers
  · intro _
    apply wp_mv
    refine wp_nil ⟨.loop, rfl, loop_ends copyable (Nat.succ_pos _) ⟨?_, ?_, ?_, ?_⟩⟩
    · simp only [get_set_self, get_set_of_ne, ne_eq, reduceCtorEq, not_false_eq_true, offset_zero]
    · simp only [get_set_of_ne, ne_eq, reduceCtorEq, not_false_eq_true, offset_zero]
    · rfl
    · exact (SameBut.refl.set (by decide)).set (by decide)

theorem or_eq_zero {x y : Word} : x ||| y = 0 ↔ x = 0 ∧ y = 0 := by
  constructor
  · intro zero
    constructor <;> apply BitVec.eq_of_getLsbD_eq <;> intro i _ <;>
      have bit := congrArg (BitVec.getLsbD · i) zero <;> simp_all
  · rintro ⟨rfl, rfl⟩
    rfl

theorem strcpy_returns {access : Access} (pointers : s.get .a0 ||| s.get .a1 = 0) :
    Eventually P access strcpyCode (Returned P s) (.label .strcpy) s := by
  apply eventually_block
  apply wp_or
  apply wp_beqz
  · intro _
    apply eventually_block
    apply wp_ret
    refine .here ⟨?_, rfl, SameBut.refl.set (by decide)⟩
    rw [get_set_of_ne (by decide)]
  · intro nonzero
    rw [get_set_self (by decide)] at nonzero
    exact absurd pointers nonzero

theorem strcpy_faults (outside : P.labelAt (s.get .ra) = none) (pointers : s.get .a0 ||| s.get .a1 ≠ 0) :
    ¬ Eventually P noAccess strcpyCode (Returned P s) (.label .strcpy) s := by
  have elsewhere : P.place (s.get .ra) = .outside (s.get .ra) := by rw [Platform.place, outside]
  intro ends
  have looping : Eventually P noAccess strcpyCode (fun place _ => place = .label .loop) (.label .strcpy) s := by
    apply eventually_block
    apply wp_or
    apply wp_beqz
    · intro zero
      rw [get_set_self (by decide)] at zero
      exact absurd zero pointers
    · intro _
      apply wp_mv
      exact wp_nil ⟨.loop, rfl, .here rfl⟩
  obtain ⟨place, s', rfl, rest⟩ := looping.through ends fun place s' returned => by rw [returned.place, elsewhere]; rfl
  apply not_eventually _ _ rest
  · rfl
  · intro returned
    have there := returned.place
    rw [elsewhere] at there
    cases there

/-- `strcpy` keeps its promise if and only if both pointers are null or none is. -/
theorem strcpy_keeps_promise_iff (outside : P.labelAt (s.get .ra) = none) :
    KeepsPromise P s ↔ (s.get .a0 = 0 ↔ s.get .a1 = 0) := by
  constructor
  · intro keeps
    by_contra one
    have some_null : s.get .a0 = 0 ∨ s.get .a1 = 0 := by tauto
    apply strcpy_faults outside _ (keeps.nullSafe some_null)
    intro both
    obtain ⟨first, second⟩ := or_eq_zero.mp both
    exact one (iff_of_true first second)
  · intro both_or_none
    constructor
    · intro nonzero _ text copyable
      apply strcpy_copies copyable
      intro zero
      exact nonzero (or_eq_zero.mp zero).1
    · intro some_null
      apply strcpy_returns
      apply or_eq_zero.mpr
      tauto

end

/-- A call with these arguments, from address 4, where the string "Hi" is in memory. -/
def strcpyStart (a0 a1 : Word) : State Unit where
  regs
    | .ra => 4
    | .a0 => a0
    | .a1 => a1
    | _ => 0
  mem := Memory.store (fun _ => 0) 0x10010000 [72, 105, 0]
  world := ()

def callerPlatform : Platform StrcpyLabel Empty Unit := ⟨fun _ => 0, fun _ => none, nofun, fun _ => none⟩

theorem strcpy_keeps_promise_buffers : Copyable [72, 105] (strcpyStart 0x10010100 0x10010000) ∧
    KeepsPromise callerPlatform (strcpyStart 0x10010100 0x10010000) := by
  refine ⟨⟨by decide, Memory.holds_store (by decide), apart_of_le (by decide) (by decide)⟩, ?_⟩
  exact (strcpy_keeps_promise_iff rfl).mpr (iff_of_false (by decide) (by decide))

theorem one_null_pointer_is_not_safe : ¬ ∀ a0 a1 : Word, KeepsPromise callerPlatform (strcpyStart a0 a1) := by
  intro keeps
  exact strcpy_faults rfl (by decide) ((keeps 0 4).nullSafe (.inl rfl))

end ArchCompSystems.Hw6
