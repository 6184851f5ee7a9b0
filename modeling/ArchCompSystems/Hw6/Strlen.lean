import ArchCompSystems.Hw6.Strcmp

namespace ArchCompSystems.Hw6

open Library Library.RiscV Library.RiscV.Instr

/-- The labels of strlen.s and of strnlen.s; `entry` is the function's name. -/
inductive StrlenLabel where
  | entry
  | loop
  | strlenEnd
  | fatal
  deriving DecidableEq

def lengthCode (check : List (Instr StrlenLabel Empty)) : Code StrlenLabel Empty where
  block
    | .entry => [li .t0 0]
    | .loop => [.lb .t1 0 .a0, beqz .t1 .strlenEnd, addi .t0 .t0 1, addi .a0 .a0 1] ++ (check ++ [b .loop])
    | .strlenEnd => [mv .a0 .t0, .ret]
    | .fatal => [li .a0 (-1), .ret]
  next
    | .entry => some .loop
    | .loop => some .strlenEnd
    | .strlenEnd => some .fatal
    | .fatal => none

def strlenCode : Code StrlenLabel Empty := lengthCode []

def strnlenCode : Code StrlenLabel Empty := lengthCode [bge .t0 .a1 .fatal]

/-- The bytes of a buffer that a call may read. -/
def readAccess (buffer : Word) (size : Nat) : Access where
  mayLoad address := inRange buffer size address
  mayStore _ := false

/-- The length of the string in a buffer, or -1 where it does not end in there; `count` bytes came before. -/
def lengthWithin (count : Word) (buffer : List UInt8) : Word :=
  if 0 ∈ buffer then offset count (buffer.idxOf 0) else -1

section

variable {ω : Type} {P : Platform StrlenLabel Empty ω} {access : Access} {s s' : State ω}
  {check : List (Instr StrlenLabel Empty)} {buffer text : List UInt8} {value : Word} {x : UInt8}

/-- After the return from a call in `s₀`, with nothing else changed. -/
structure ReturnsLength (P : Platform StrlenLabel Empty ω) (value : Word) (s₀ : State ω) (place : Place StrlenLabel)
    (s : State ω) : Prop where
  place : place = P.place (s₀.get .ra)
  a0 : s.get .a0 = value
  mem : s.mem = s₀.mem
  kept : SameBut [.t0, .t1, .a0] s₀ s

theorem ReturnsLength.earlier {place : Place StrlenLabel} {s₀ : State ω} (returned : ReturnsLength P value s place s')
    (mem : s.mem = s₀.mem) (kept : SameBut [.t0, .t1, .a0] s₀ s) : ReturnsLength P value s₀ place s' where
  place := by rw [returned.place, kept .ra (by decide)]
  a0 := returned.a0
  mem := returned.mem.trans mem
  kept := fun r outside => (returned.kept r outside).trans (kept r outside)

theorem strlenEnd_returns :
    Eventually P access (lengthCode check) (ReturnsLength P (s.get .t0) s) (.label .strlenEnd) s := by
  apply eventually_block
  apply wp_mv
  apply wp_ret
  refine .here ⟨?_, get_set_self (by decide), rfl, SameBut.refl.set (by decide)⟩
  rw [get_set_of_ne (by decide)]

theorem fatal_returns : Eventually P access (lengthCode check) (ReturnsLength P (-1) s) (.label .fatal) s := by
  apply eventually_block
  apply wp_li
  apply wp_ret
  refine .here ⟨?_, get_set_self (by decide), rfl, SameBut.refl.set (by decide)⟩
  rw [get_set_of_ne (by decide)]

def countByte (s : State ω) (x : UInt8) : State ω :=
  ((s.set .t1 (signedByte x)).set .t0 (s.get .t0 + 1)).set .a0 (s.get .a0 + 1)

theorem countByte_kept : SameBut [.t0, .t1, .a0] s (countByte s x) :=
  SameBut.set (SameBut.set (SameBut.refl.set (by decide)) (by decide)) (by decide)

theorem length_pass {post : Place StrlenLabel → State ω → Prop} (loads : access.loads (s.get .a0) 1 = true)
    (byte : s.mem (s.get .a0) = x)
    (ends : x = 0 → Eventually P access (lengthCode check) post (.label .strlenEnd) (s.set .t1 (signedByte x)))
    (again : x ≠ 0 → wp P access (check ++ [b .loop]) (countByte s x) (GoesOn P access (lengthCode check) post .loop)) :
    Eventually P access (lengthCode check) post (.label .loop) s := by
  apply eventually_block
  apply wp_lb
  · rw [add_zero]
    exact loads
  rw [add_zero, byte]
  apply wp_beqz
  · intro zero
    rw [get_set_self (by decide)] at zero
    exact ends (signedByte_eq_zero.mp zero)
  intro nonzero
  rw [get_set_self (by decide)] at nonzero
  apply wp_addi
  apply wp_addi
  simp only [get_set_of_ne, ne_eq, reduceCtorEq, not_false_eq_true]
  exact again fun zero => nonzero (signedByte_eq_zero.mpr zero)

theorem strlen_loop_ends (noZero : 0 ∉ text) (holds : s.mem.Holds (s.get .a0) (text ++ [0]))
    (loads : access.loads (s.get .a0) (text.length + 1) = true) :
    Eventually P access strlenCode (ReturnsLength P (offset (s.get .t0) text.length) s) (.label .loop) s := by
  induction text generalizing s with
  | nil =>
    apply length_pass (loads_first loads) (Memory.holds_cons.mp holds).1
    · intro _
      apply strlenEnd_returns.mono
      intro place s' returned
      rw [get_set_of_ne (by decide)] at returned
      rw [List.length_nil, offset_zero]
      exact returned.earlier rfl (SameBut.refl.set (by decide))
    · intro nonzero
      exact absurd rfl nonzero
  | cons x text ih =>
    obtain ⟨byte, rest⟩ := Memory.holds_cons.mp holds
    apply length_pass (loads_first loads) byte
    · rintro rfl
      exact absurd List.mem_cons_self noZero
    · intro _
      apply wp_j
      apply (@ih (countByte s x) (fun mem => noZero (List.mem_cons_of_mem _ mem)) rest
        (Access.loads_part (i := 1) loads (by rw [List.length_cons]; omega))).mono
      intro place s' returned
      have counted : offset ((countByte s x).get .t0) text.length = offset (s.get .t0) (x :: text).length := by
        have next : (countByte s x).get .t0 = offset (s.get .t0) 1 := rfl
        rw [next, offset_offset, List.length_cons, Nat.add_comm]
      rw [counted] at returned
      exact returned.earlier rfl countByte_kept

/-- `strlen` returns the length of a string and reads nothing behind its terminator. -/
theorem strlen_returns (noZero : 0 ∉ text) (holds : s.mem.Holds (s.get .a0) (text ++ [0])) :
    Eventually P (readAccess (s.get .a0) (text.length + 1)) strlenCode
      (ReturnsLength P (BitVec.ofNat 32 text.length) s) (.label .entry) s := by
  have bound := holds.length_lt noZero
  apply eventually_block
  apply wp_li
  refine wp_nil ⟨.loop, rfl, ?_⟩
  apply (@strlen_loop_ends _ _ _ (s.set .t0 0) _ noZero holds
    (Access.loads_of_range (fun _ inside => inside) bound)).mono
  intro place s' returned
  rw [get_set_self (by decide)] at returned
  have counted : offset 0 text.length = BitVec.ofNat 32 text.length := zero_add _
  rw [counted] at returned
  exact returned.earlier rfl (SameBut.refl.set (by decide))

theorem lengthWithin_cons_zero {count : Word} : lengthWithin count (0 :: buffer) = count := by
  rw [lengthWithin, if_pos List.mem_cons_self, List.idxOf_cons_self, offset_zero]

theorem lengthWithin_cons {count : Word} (nonzero : x ≠ 0) :
    lengthWithin count (x :: buffer) = lengthWithin (count + 1) buffer := by
  have same : 0 ∈ x :: buffer ↔ 0 ∈ buffer := by
    rw [List.mem_cons]
    exact or_iff_right nonzero.symm
  have next : count + 1 = offset count 1 := rfl
  rw [lengthWithin, lengthWithin]
  by_cases ends : 0 ∈ buffer
  · rw [if_pos ends, if_pos (same.mpr ends), List.idxOf_cons_ne _ nonzero, next, offset_offset, Nat.add_comm]
  · rw [if_neg ends, if_neg fun mem => ends (same.mp mem)]

theorem strnlen_loop_ends {count : Nat} (counted : s.get .t0 = BitVec.ofNat 32 count)
    (holds : s.mem.Holds (s.get .a0) buffer) (loads : access.loads (s.get .a0) buffer.length = true)
    (small : count + 1 < 2 ^ 31) (size : (count + buffer.length : Int) = max (count + 1 : Int) (s.get .a1).toInt) :
    Eventually P access strnlenCode (ReturnsLength P (lengthWithin (s.get .t0) buffer) s) (.label .loop) s := by
  induction buffer generalizing s count with
  | nil =>
    rw [List.length_nil] at size
    omega
  | cons x buffer ih =>
    obtain ⟨byte, rest⟩ := Memory.holds_cons.mp holds
    rw [List.length_cons] at size loads
    have upper := BitVec.toInt_lt (x := s.get .a1)
    apply length_pass (loads_first loads) byte
    · rintro rfl
      rw [lengthWithin_cons_zero]
      apply strlenEnd_returns.mono
      intro place s' returned
      rw [get_set_of_ne (by decide)] at returned
      exact returned.earlier rfl (SameBut.refl.set (by decide))
    · intro nonzero
      have next : (countByte s x).get .t0 = BitVec.ofNat 32 (count + 1) := by
        have step : (countByte s x).get .t0 = s.get .t0 + 1 := rfl
        rw [step, counted, BitVec.ofNat_add]
        rfl
      have below : ((countByte s x).get .t0).slt ((countByte s x).get .a1) = decide ((count + 1 : Int) < (s.get .a1).toInt) := by
        have kept : (countByte s x).get .a1 = s.get .a1 := rfl
        rw [BitVec.slt_eq_decide, next, toInt_ofNat small, kept]
        rfl
      rw [lengthWithin_cons nonzero]
      apply wp_bge
      · intro stops
        have behind := of_decide_eq_false (below.symm.trans stops)
        obtain rfl : buffer = [] := List.eq_nil_of_length_eq_zero (by omega)
        rw [lengthWithin, if_neg List.not_mem_nil]
        exact fatal_returns.mono fun place s' returned => returned.earlier rfl countByte_kept
      · intro goesOn
        have before := of_decide_eq_true (below.symm.trans goesOn)
        apply wp_j
        apply (@ih (countByte s x) (count + 1) next rest (Access.loads_part (i := 1) loads (by omega)) (by omega) _).mono
        · intro place s' returned
          exact returned.earlier rfl countByte_kept
        · show ((count + 1 : Nat) + buffer.length : Int) = max ((count + 1 : Nat) + 1 : Int) (s.get .a1).toInt
          omega

/-- `strnlen` looks for the end of the string in the first `a1` bytes, or in the first one if there are none, and
    reads nothing behind them. -/
theorem strnlen_returns (holds : s.mem.Holds (s.get .a0) buffer) (size : (buffer.length : Int) = max 1 (s.get .a1).toInt) :
    Eventually P (readAccess (s.get .a0) buffer.length) strnlenCode (ReturnsLength P (lengthWithin 0 buffer) s)
      (.label .entry) s := by
  have upper := BitVec.toInt_lt (x := s.get .a1)
  apply eventually_block
  apply wp_li
  refine wp_nil ⟨.loop, rfl, ?_⟩
  apply (@strnlen_loop_ends _ _ _ (s.set .t0 0) _ 0 (get_set_self (by decide)) holds
    (Access.loads_of_range (fun _ inside => inside) (by omega)) (by decide) _).mono
  · intro place s' returned
    rw [get_set_self (by decide)] at returned
    exact returned.earlier rfl (SameBut.refl.set (by decide))
  · show ((0 : Nat) + buffer.length : Int) = max ((0 : Nat) + 1 : Int) (s.get .a1).toInt
    omega

end

/-- Bytes at an address, and a call from address 4. -/
def strlenStart (bytes : List UInt8) (size : Word) : State Unit where
  regs
    | .ra => 4
    | .a0 => 0x10010000
    | .a1 => size
    | _ => 0
  mem := Memory.store (fun _ => 0) 0x10010000 bytes
  world := ()

def strlenCaller : Platform StrlenLabel Empty Unit := ⟨fun _ => 0, fun _ => none, nofun, fun _ => none⟩

theorem strlen_returns_two : Eventually strlenCaller (readAccess 0x10010000 3) strlenCode
    (ReturnsLength strlenCaller 2 (strlenStart [97, 98, 0] 0)) (.label .entry) (strlenStart [97, 98, 0] 0) :=
  @strlen_returns _ strlenCaller (strlenStart [97, 98, 0] 0) [97, 98] (by decide) (Memory.holds_store (by decide))

/-- No terminator in a buffer of two bytes. -/
theorem strnlen_returns_failure : Eventually strlenCaller (readAccess 0x10010000 2) strnlenCode
    (ReturnsLength strlenCaller (-1) (strlenStart [97, 98] 2)) (.label .entry) (strlenStart [97, 98] 2) :=
  @strnlen_returns _ strlenCaller (strlenStart [97, 98] 2) [97, 98] (Memory.holds_store (by decide)) (by decide)

end ArchCompSystems.Hw6
