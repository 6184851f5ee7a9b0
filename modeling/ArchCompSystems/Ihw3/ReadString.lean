import ArchCompSystems.Ihw3.Simulator
import ArchCompSystems.Library.SignedWords

namespace ArchCompSystems.Ihw3

open Library Library.RiscV Library.RiscV.Instr

/-- The code has an expansion of `read_string_rwnd` with `t0` and `t1`; what stands behind `pop(ra)` is left open. -/
structure ReadsString {L : Type} (C : Code L DataLabel) (promptString : String) (expansion : ReadStringLabel → L) : Prop where
  block : ∀ l, l ≠ .rsRwndMacroEnd → C.block (expansion l) = l.block promptString .t0 .t1 expansion
  next : ∀ l l', l.next = some l' → C.next (expansion l) = some (expansion l')

/-- What is left of the buffer when the last newline is replaced by a zero. -/
inductive Stripped (m : Memory) (base : Word) : Memory → Prop where
  | clean (none : ∀ i < fileNameSize, m (offset base i) ≠ 10) : Stripped m base m
  | newline {j : Nat} (inside : j < fileNameSize) (newline : m (offset base j) = 10)
      (last : ∀ i, j < i → i < fileNameSize → m (offset base i) ≠ 10) : Stripped m base (m.store (offset base j) [0])

/-- The buffer for a name and the stack below `top`, no address negative. -/
structure NameBuffer (access : Access) (base top : Word) : Prop where
  bound : base.toNat + fileNameSize < 2 ^ 31
  aligned : isAligned top = true
  apart : Apart (below top 12) 12 base fileNameSize
  loadsStack : access.loads (below top 12) 12 = true
  storesStack : access.stores (below top 12) 12 = true
  loadsBuffer : access.loads base fileNameSize = true
  storesBuffer : access.stores base fileNameSize = true

section

variable {L : Type} {address : L → Word} {labelAt : Word → Option L} {data : DataLabel → Word} {access : Access}
  {C : Code L DataLabel} {promptString : String} {expansion : ReadStringLabel → L} {post : Place L → State World → Prop}
  {s₀ s : State World} {base top : Word}

structure Arguments (base top : Word) (s : State World) : Prop where
  sp : s.get .sp = top
  t0 : s.get .t0 = base
  t1 : s.get .t1 = BitVec.ofNat 32 fileNameSize

structure Asking (base top : Word) (s₀ s : State World) : Prop where
  sp : s.get .sp = below top 12
  pushed : Pushed s.mem top [BitVec.ofNat 32 fileNameSize, base, s₀.get .ra]
  kept : SameBut [.sp, .t0, .a0, .a1, .a2, .a7] s₀ s

structure Restored (top : Word) (s₀ s : State World) : Prop where
  sp : s.get .sp = below top 4
  pushed : Pushed s.mem top [s₀.get .ra]
  kept : SameBut [.sp, .a0, .a1, .a2, .a7] s₀ s

theorem NameBuffer.apart_part (buffer : NameBuffer access base top) {i count : Nat} (fits : i + count ≤ fileNameSize) :
    Apart (below top 12) 12 (offset base i) count := by
  have part := buffer.apart.part 0 12 i count (by decide) (by decide) fits (by decide)
  rwa [offset_zero] at part

theorem NameBuffer.apart_ra (buffer : NameBuffer access base top) {i count : Nat} (fits : i + count ≤ fileNameSize) :
    Apart (below top 4) 4 (offset base i) count :=
  (apart_below (n := 0) (buffer.apart_part fits).symm (by decide) (by decide)).symm

theorem Asking.trans (asking : Asking base top s₀ s) {s' : State World} {regs : List Reg} (same : SameBut regs s s')
    (allowed : regs ⊆ [Reg.t0, .a0, .a1, .a2, .a7]) (mem : s'.mem = s.mem) : Asking base top s₀ s' := by
  have sp : s'.get .sp = s.get .sp := same .sp fun is_sp => by
    have := allowed is_sp
    revert this
    decide
  refine ⟨sp.trans asking.sp, mem ▸ asking.pushed, fun r outside => ?_⟩
  rw [same r fun changed => outside (List.mem_cons_of_mem _ (allowed changed))]
  exact asking.kept r outside

theorem Asking.set (asking : Asking base top s₀ s) {r : Reg} {w : Word} (allowed : r ∈ [Reg.t0, .a0, .a1, .a2, .a7]) :
    Asking base top s₀ (s.set r w) :=
  asking.trans (SameBut.refl.set (List.mem_singleton.mpr rfl)) (fun _ mem => List.mem_singleton.mp mem ▸ allowed) rfl

theorem Restored.set (restored : Restored top s₀ s) {r : Reg} {w : Word} (allowed : r ∈ [Reg.a0, .a1, .a2, .a7]) :
    Restored top s₀ (s.set r w) := by
  have different : Reg.sp ≠ r := by
    rintro rfl
    revert allowed
    decide
  refine ⟨?_, restored.pushed, restored.kept.set (List.mem_cons_of_mem _ allowed)⟩
  rw [get_set_of_ne different]
  exact restored.sp

theorem readLoop_asks (code : ReadsString C promptString expansion) (asking : Asking base top s₀ s)
    (size : s₀.get .t1 = BitVec.ofNat 32 fileNameSize) {v b : Word} {bytes : List UInt8} {world' : World}
    (answered : inputDialogString (s.get .t0) (BitVec.ofNat 32 fileNameSize) s.world = some ⟨[(.a1, v)], b, bytes, world'⟩)
    (stores : access.stores b bytes.length = true) (apart : Apart (below top 12) 12 b bytes.length)
    (accepted : v ≠ -4 → ∀ s', Asking base top s₀ s' → s'.get .a1 = v → s'.mem = s.mem.store b bytes →
      s'.world = world' → Eventually (simulator address labelAt data) access C post (.label (expansion .noError)) s')
    (tooLong : v = -4 → ∀ s', Asking base top s₀ s' → s'.get .t0 = -4 → s'.mem = s.mem.store b bytes →
      s'.world = world' → Eventually (simulator address labelAt data) access C post (.label (expansion .readLoop)) s') :
    Eventually (simulator address labelAt data) access C post (.label (expansion .readLoop)) s := by
  refine eventually_block ?_
  rw [code.block _ (by simp)]
  refine wp_mv (wp_mv (wp_la (wp_li ?_)))
  refine wp_service v b bytes world' (show Reg.a1 ≠ .zero by decide) ?_ stores fun s₁ same₁ a1 mem₁ world₁ => ?_
  · rw [systemCall_inputDialog (get_set_self (by decide))]
    simp only [get_set_self, get_set_of_ne, ne_eq, reduceCtorEq, not_false_eq_true, world_set]
    rw [asking.kept .t1 (by decide), size]
    exact answered
  have asking₁ : Asking base top s₀ s₁ := by
    have stored : Asking base top s₀ ((((s.set .a1 (s.get .t0)).set .a2 (s.get .t1)).set .a0
        (data (.literal promptString))).set .a7 54) :=
      (((asking.set (by decide)).set (by decide)).set (by decide)).set (by decide)
    refine ⟨(same₁ .sp (by decide)).trans stored.sp, ?_, fun r outside => ?_⟩
    · rw [mem₁]
      exact stored.pushed.store (show 12 ≤ 2 ^ 32 by decide) apart
    · have other : r ∉ [Reg.a1] := fun mem => outside (by simp only [List.mem_singleton] at mem; simp [mem])
      rw [same₁ r other]
      exact stored.kept r outside
  refine wp_li (wp_bne (fun differ => ?_) fun same => ?_)
  · simp only [get_set_self, get_set_of_ne, ne_eq, reduceCtorEq, not_false_eq_true, a1] at differ
    refine accepted differ _ (asking₁.set (by decide)) ?_ mem₁ world₁
    rw [get_set_of_ne (by decide), a1]
  · simp only [get_set_self, get_set_of_ne, ne_eq, reduceCtorEq, not_false_eq_true, a1] at same
    refine wp_la (wp_li (wp_li (wp_message (get_set_self (by decide)) fun s₂ same₂ mem₂ world₂ => wp_j ?_)))
    refine tooLong same s₂ (Asking.trans ((((asking₁.set ?_).set ?_).set ?_).set ?_) same₂ (List.nil_subset _) mem₂) ?_
      (mem₂.trans mem₁) (world₂.trans world₁)
    all_goals first
      | decide
      | rw [same₂ .t0 List.not_mem_nil]; simp

theorem noError_ends (code : ReadsString C promptString expansion) (buffer : NameBuffer access base top)
    (arguments : Arguments base top s₀) (asking : Asking base top s₀ s)
    (stored : s.get .a1 ≠ 0 → ∀ s', Restored top s₀ s' →
      s'.mem = s.mem.store base [UInt8.ofNat (s.get .a1).toNat] → s'.world = s.world →
      Eventually (simulator address labelAt data) access C post (.label (expansion .rsRwndMacroEnd)) s')
    (accepted : s.get .a1 = 0 → ∀ s', Restored top s₀ s' → s'.mem = s.mem → s'.world = s.world →
      Eventually (simulator address labelAt data) access C post (.label (expansion .notEmptyInput)) s') :
    Eventually (simulator address labelAt data) access C post (.label (expansion .noError)) s := by
  have shape : ReadStringLabel.block promptString .t0 .t1 expansion .noError =
      [Reg.t1, .t0].flatMap (fun reg => [.lw reg 0 .sp, addi .sp .sp 4]) ++
        [beqz .a1 (expansion .notEmptyInput), .sb .a1 0 .t0, b (expansion .rsRwndMacroEnd)] := rfl
  refine eventually_block ?_
  rw [code.block _ (by simp), shape]
  refine wp_popAll [.t1, .t0] 12 [BitVec.ofNat 32 fileNameSize, base] [s₀.get .ra] (by decide) (by decide) (by decide)
    asking.sp asking.pushed rfl buffer.loadsStack (Nat.le_refl 12) buffer.aligned ?_
  intro s' sp popped kept mem world
  have values : s'.get .t1 = BitVec.ofNat 32 fileNameSize ∧ s'.get .t0 = base := by
    simpa using popped
  have restored : Restored top s₀ s' := by
    refine ⟨sp, ?_, fun r outside => ?_⟩
    · rw [mem]
      exact Pushed.pop (Pushed.pop asking.pushed)
    · by_cases is_t0 : r = .t0
      · rw [is_t0, values.2, arguments.t0]
      · by_cases is_t1 : r = .t1
        · rw [is_t1, values.1, arguments.t1]
        · simp only [List.mem_cons, List.not_mem_nil, or_false, not_or] at outside
          rw [kept r outside.1 (by simp [is_t0, is_t1])]
          exact asking.kept r (by simp [outside, is_t0])
  have a1 : s'.get .a1 = s.get .a1 := kept .a1 (by decide) (by decide)
  refine wp_beqz (fun zero => accepted (a1 ▸ zero) s' restored mem world) fun nonzero => ?_
  have there : s'.get .t0 + 0 = base := by rw [add_zero, values.2]
  have first : access.stores base 1 = true := by
    have part : access.stores (offset base 0) 1 = true := Access.stores_part buffer.storesBuffer (by decide)
    rwa [offset_zero] at part
  refine wp_sb (there.symm ▸ first) (wp_j (stored (a1 ▸ nonzero) _ ⟨restored.sp, ?_, restored.kept⟩ ?_ world))
  · have apart : Apart (below top 4) 4 (offset base 0) 1 := buffer.apart_ra (by decide)
    rw [offset_zero] at apart
    rw [there]
    exact restored.pushed.store (show 4 ≤ 2 ^ 32 by decide) apart
  · rw [there, mem_store, mem, a1]

theorem newline_word {c : UInt8} : BitVec.ofNat 32 c.toNat = 10 ↔ c = 10 := by
  have small := c.toNat_lt
  rw [show (10 : Word) = BitVec.ofNat 32 10 from rfl, ofNat_inj (by omega) (by decide)]
  exact UInt8.toNat_inj (b := 10)

theorem rstripNewlineLoop_tests (code : ReadsString C promptString expansion) (buffer : NameBuffer access base top)
    {i : Nat} (inside : i < fileNameSize) (restored : Restored top s₀ s) (a0 : s.get .a0 = offset base (i + 1))
    (a2 : s.get .a2 = 10)
    (found : s.mem (offset base i) = 10 → ∀ s', Restored top s₀ s' → s'.mem = s.mem.store (offset base i) [0] →
      s'.world = s.world → Eventually (simulator address labelAt data) access C post (.label (expansion .rsRwndMacroEnd)) s')
    (other : s.mem (offset base i) ≠ 10 → ∀ s', Restored top s₀ s' → s'.get .a0 = offset base i → s'.get .a2 = 10 →
      s'.mem = s.mem → s'.world = s.world →
      Eventually (simulator address labelAt data) access C post (.label (expansion .notNewline)) s') :
    Eventually (simulator address labelAt data) access C post (.label (expansion .rstripNewlineLoop)) s := by
  have moved : s.get .a0 + -1 = offset base i := by rw [a0, offset_succ_sub_one]
  have one : i + 1 ≤ fileNameSize := inside
  refine eventually_block ?_
  rw [code.block _ (by simp)]
  refine wp_addi ?_
  rw [moved]
  refine wp_lbu ?_ ?_
  · rw [get_set_self (by decide), add_zero]
    exact Access.loads_part buffer.loadsBuffer one
  rw [get_set_self (by decide), add_zero, mem_set]
  have restored' : ∀ w, Restored top s₀ ((s.set .a0 (offset base i)).set .a1 w) :=
    fun w => (restored.set (by decide)).set (by decide)
  refine wp_bne (fun differ => ?_) fun same => ?_
  · simp only [get_set_self, get_set_of_ne, ne_eq, reduceCtorEq, not_false_eq_true, a2, newline_word] at differ
    exact other differ _ (restored' _) (by simp) (by simpa using a2) rfl rfl
  · simp only [get_set_self, get_set_of_ne, ne_eq, reduceCtorEq, not_false_eq_true, a2, newline_word] at same
    have there : ((s.set .a0 (offset base i)).set .a1 (BitVec.ofNat 32 (s.mem (offset base i)).toNat)).get .a0 + 0 =
        offset base i := by
      rw [get_set_of_ne (by decide), get_set_self (by decide), add_zero]
    refine wp_sb (there.symm ▸ Access.stores_part buffer.storesBuffer one) (wp_j ?_)
    rw [there]
    have now := restored' (BitVec.ofNat 32 (s.mem (offset base i)).toNat)
    exact found same _ ⟨now.sp, now.pushed.store (show 4 ≤ 2 ^ 32 by decide) (buffer.apart_ra one), now.kept⟩ rfl rfl

theorem rstripNewlineLoop_ends (code : ReadsString C promptString expansion) (buffer : NameBuffer access base top)
    (arguments : Arguments base top s₀) {i : Nat} (inside : i < fileNameSize) (restored : Restored top s₀ s)
    (a0 : s.get .a0 = offset base (i + 1)) (a2 : s.get .a2 = 10)
    (last : ∀ j, i < j → j < fileNameSize → s.mem (offset base j) ≠ 10)
    (done : ∀ s', Restored top s₀ s' → Stripped s.mem base s'.mem → s'.world = s.world →
      Eventually (simulator address labelAt data) access C post (.label (expansion .rsRwndMacroEnd)) s') :
    Eventually (simulator address labelAt data) access C post (.label (expansion .rstripNewlineLoop)) s := by
  have bound := buffer.bound
  have ordered : ∀ {j} {s' : State World}, j < fileNameSize → Restored top s₀ s' → s'.get .a0 = offset base j →
      (s'.get .t0).slt (s'.get .a0) = decide (0 < j) := by
    intro j s' lower restored' a0'
    have compared : (offset base 0).slt (offset base j) = decide (0 < j) := slt_offset_offset (by omega) (by omega)
    rwa [offset_zero, ← a0', ← arguments.t0, ← restored'.kept .t0 (by decide)] at compared
  induction i generalizing s with
  | zero =>
    refine rstripNewlineLoop_tests code buffer inside restored a0 a2 (fun newline s' restored' mem world => ?_)
      fun other s' restored' a0' a2' mem world => ?_
    · exact done s' restored' (mem ▸ .newline inside newline last) world
    · refine eventually_block ?_
      rw [code.block _ (by simp)]
      refine wp_blt (fun more => ?_) fun _ => wp_nil ⟨_, code.next _ _ rfl, done s' restored' ?_ world⟩
      · rw [ordered inside restored' a0'] at more
        exact absurd (of_decide_eq_true more) (Nat.lt_irrefl 0)
      · rw [mem]
        refine .clean fun j lower => ?_
        rcases Nat.eq_zero_or_pos j with rfl | behind
        · exact other
        · exact last j behind lower
  | succ i ih =>
    refine rstripNewlineLoop_tests code buffer inside restored a0 a2 (fun newline s' restored' mem world => ?_)
      fun other s' restored' a0' a2' mem world => ?_
    · exact done s' restored' (mem ▸ .newline inside newline last) world
    · refine eventually_block ?_
      rw [code.block _ (by simp)]
      refine wp_blt (fun _ => ?_) fun finished => ?_
      · refine ih (by omega) restored' a0' a2' (fun j behind lower => ?_) fun s'' restored'' stripped world' =>
          done s'' restored'' (mem ▸ stripped) (world'.trans world)
        rw [mem]
        rcases Nat.lt_or_eq_of_le behind with above | rfl
        · exact last j above lower
        · exact other
      · rw [ordered inside restored' a0'] at finished
        exact absurd (Nat.succ_pos i) (of_decide_eq_false finished)

theorem notEmptyInput_ends (code : ReadsString C promptString expansion) (buffer : NameBuffer access base top)
    (arguments : Arguments base top s₀) (restored : Restored top s₀ s)
    (done : ∀ s', Restored top s₀ s' → Stripped s.mem base s'.mem → s'.world = s.world →
      Eventually (simulator address labelAt data) access C post (.label (expansion .rsRwndMacroEnd)) s') :
    Eventually (simulator address labelAt data) access C post (.label (expansion .notEmptyInput)) s := by
  refine eventually_block ?_
  rw [code.block _ (by simp)]
  refine wp_add (wp_li (wp_nil ⟨_, code.next _ _ rfl, ?_⟩))
  refine rstripNewlineLoop_ends (i := 259) code buffer arguments (by decide)
    ((restored.set (by decide)).set (by decide)) ?_ ?_ (fun j behind lower => ?_) done
  · simp only [get_set_self, get_set_of_ne, ne_eq, reduceCtorEq, not_false_eq_true]
    rw [restored.kept .t0 (by decide), restored.kept .t1 (by decide), arguments.t0, arguments.t1]
    rfl
  · rw [get_set_self (by decide)]
  · unfold fileNameSize at lower
    omega

/-- `start` is before the first label, `after` behind the macro. -/
inductive MacroLabel where
  | start
  | body (label : ReadStringLabel)
  | after

namespace MacroLabel

def block (promptString : String) : MacroLabel → List (Instr MacroLabel DataLabel)
  | start => readStringRwnd .t0 .t1
  | body label => label.block promptString .t0 .t1 .body
  | after => []

def next : MacroLabel → Option MacroLabel
  | start => some (body .readLoop)
  | body label => some ((label.next.map .body).getD after)
  | after => none

end MacroLabel

def readStringCode (promptString : String) : Code MacroLabel DataLabel :=
  ⟨MacroLabel.block promptString, MacroLabel.next⟩

theorem readStringCode_readsString : ReadsString (readStringCode promptString) promptString .body := by
  refine ⟨fun _ _ => rfl, fun l l' follows => ?_⟩
  simp only [readStringCode, MacroLabel.next, follows, Option.map_some, Option.getD_some]

/-- Nothing but the buffer and the stack may be accessed. -/
def macroAccess (base top : Word) : Access where
  mayLoad address := inRange base fileNameSize address || inRange (below top 12) 12 address
  mayStore address := inRange base fileNameSize address || inRange (below top 12) 12 address

/-- Where the macro starts; no address of the buffer or the stack is negative. -/
structure MacroFrame (base : Word) (s : State World) : Prop where
  t0 : s.get .t0 = base
  t1 : s.get .t1 = BitVec.ofNat 32 fileNameSize
  bound : base.toNat + fileNameSize < 2 ^ 31
  room : 12 ≤ (s.get .sp).toNat
  stackBound : (s.get .sp).toNat < 2 ^ 31
  aligned : isAligned (s.get .sp) = true
  apart : Apart (below (s.get .sp) 12) 12 base fileNameSize

def Usable (base : Word) (text : List UInt8) (place : Place MacroLabel) (s : State World) : Prop :=
  place = .label .after ∧ s.mem.Holds base (text ++ [0])

theorem MacroFrame.buffer (frame : MacroFrame base s) : NameBuffer (macroAccess base (s.get .sp)) base (s.get .sp) := by
  refine ⟨frame.bound, frame.aligned, frame.apart, ?_, ?_, ?_, ?_⟩
  · refine Access.loads_of_range (fun address inside => ?_) (by decide)
    exact Bool.or_eq_true_iff.mpr (.inr inside)
  · refine Access.stores_of_range (fun address inside => ?_) (by decide)
    exact Bool.or_eq_true_iff.mpr (.inr inside)
  · refine Access.loads_of_range (fun address inside => ?_) (by decide)
    exact Bool.or_eq_true_iff.mpr (.inl inside)
  · refine Access.stores_of_range (fun address inside => ?_) (by decide)
    exact Bool.or_eq_true_iff.mpr (.inl inside)

theorem MacroFrame.not_stores (frame : MacroFrame base s) {size : Nat} (positive : 0 < size) :
    (macroAccess base (s.get .sp)).stores (-4) size = false := by
  by_contra stores
  have first := Access.stores_iff.mp (Bool.of_not_eq_false stores) 0 positive
  simp only [offset_zero, macroAccess, Bool.or_eq_true] at first
  have high : (-4 : Word).toNat = 4294967292 := by decide
  have bound := frame.bound
  have room := frame.room
  have stackBound := frame.stackBound
  rcases first with inside | inside
  · obtain ⟨i, lower, same⟩ := exists_offset inside
    have value := congrArg BitVec.toNat same
    rw [high, toNat_offset (by omega)] at value
    omega
  · have low : (below (s.get .sp) 12).toNat = (s.get .sp).toNat - 12 := BitVec.toNat_sub_of_le (y := 12#32) room
    obtain ⟨i, lower, same⟩ := exists_offset inside
    have value := congrArg BitVec.toNat same
    rw [high, toNat_offset (by omega), low] at value
    omega

section

variable {addressHere : MacroLabel → Word} {labelAtHere : Word → Option MacroLabel}
  {postHere : Place MacroLabel → State World → Prop}

theorem start_ends (frame : MacroFrame base s)
    (asks : ∀ s', Asking base (s.get .sp) s s' → s'.get .t0 = base →
      (∀ i < fileNameSize, s'.mem (offset base i) = s.mem (offset base i)) → s'.world = s.world →
      Eventually (simulator addressHere labelAtHere data) (macroAccess base (s.get .sp)) (readStringCode promptString) postHere
        (.label (.body .readLoop)) s') :
    Eventually (simulator addressHere labelAtHere data) (macroAccess base (s.get .sp)) (readStringCode promptString) postHere
      (.label .start) s := by
  have buffer := frame.buffer
  have shape : (readStringCode promptString).block .start =
      [Reg.ra, .t0, .t1].flatMap (fun reg => [addi .sp .sp (-4), .sw reg 0 .sp]) ++ [] := rfl
  refine eventually_block ?_
  rw [shape]
  refine wp_pushAll [.ra, .t0, .t1] (s.get .sp) 12 [] (by decide) below_zero.symm .nil buffer.storesStack (Nat.le_refl 12)
    (by decide) buffer.aligned ?_
  intro s' sp kept pushed outside world
  refine wp_nil ⟨_, rfl, asks s' ⟨sp, ?_, fun r other => kept r ?_⟩ ?_ (fun i lower => outside _ ?_) world⟩
  · rw [← frame.t0, ← frame.t1]
    exact pushed
  · rintro rfl
    exact other List.mem_cons_self
  · rw [kept .t0 (by decide), frame.t0]
  · exact buffer.apart.symm _ (inRange_offset lower (by decide))

theorem rsRwndMacroEnd_ends (buffer : NameBuffer access base top) (restored : Restored top s₀ s)
    (done : ∀ s', s'.mem = s.mem → postHere (.label .after) s') :
    Eventually (simulator addressHere labelAtHere data) access (readStringCode promptString) postHere
      (.label (.body .rsRwndMacroEnd)) s := by
  have shape : (readStringCode promptString).block (.body .rsRwndMacroEnd) =
      [Reg.ra].flatMap (fun reg => [.lw reg 0 .sp, addi .sp .sp 4]) ++ [] := rfl
  refine eventually_block ?_
  rw [shape]
  refine wp_popAll [.ra] 12 [s₀.get .ra] [] (by decide) (by decide) (by decide) restored.sp restored.pushed rfl
    buffer.loadsStack (show 4 ≤ 12 by decide) buffer.aligned ?_
  exact fun s' _ _ _ mem _ => wp_nil ⟨_, rfl, .here (done s' mem)⟩

theorem inputDialog_refused {world : World} {final : Option (List UInt8)} {rest : List (Option (List UInt8))}
    (nothing : final.getD [] = []) (dialogs : world.dialogs = final :: rest) :
    ∃ v : Word, v ≠ 0 ∧ v ≠ -4 ∧ UInt8.ofNat v.toNat ≠ 0 ∧
      ∀ b size, inputDialogString b size world = some (answer .a1 v { world with dialogs := rest }) := by
  cases final with
  | none => exact ⟨-2, by decide, by decide, by decide, fun b size => by simp only [inputDialogString, dialogs]⟩
  | some text =>
    obtain rfl : text = [] := nothing
    exact ⟨-3, by decide, by decide, by decide, fun b size => by simp only [inputDialogString, dialogs]⟩

theorem refused_ends (buffer : NameBuffer access base top) (arguments : Arguments base top s₀) (asking : Asking base top s₀ s)
    {final : Option (List UInt8)} {rest : List (Option (List UInt8))} (nothing : final.getD [] = [])
    (dialogs : s.world.dialogs = final :: rest) (done : ∀ s', s'.mem base ≠ 0 → postHere (.label .after) s') :
    Eventually (simulator addressHere labelAtHere data) access (readStringCode promptString) postHere
      (.label (.body .readLoop)) s := by
  obtain ⟨v, nonzero, other, byte, answered⟩ := inputDialog_refused nothing dialogs
  have code : ReadsString (readStringCode promptString) promptString .body := readStringCode_readsString
  refine readLoop_asks code asking arguments.t1 (answered _ _) rfl (fun _ _ => rfl) (fun _ s₁ asking₁ a1 mem₁ _ => ?_)
    fun same => absurd same other
  refine noError_ends code buffer arguments asking₁ (fun _ s₂ restored mem₂ _ => ?_) fun zero => absurd (a1 ▸ zero) nonzero
  refine rsRwndMacroEnd_ends buffer restored fun s₃ mem₃ => done s₃ ?_
  have first : (s₁.mem.store base [UInt8.ofNat v.toNat]).Holds base [UInt8.ofNat v.toNat] :=
    Memory.holds_store (show 1 ≤ 2 ^ 32 by decide)
  rw [mem₃, mem₂, a1, (Memory.holds_cons.mp first).1]
  exact byte

theorem inputDialog_text {world : World} {text : List UInt8} {rest : List (Option (List UInt8))} (some_text : text ≠ [])
    (dialogs : world.dialogs = some text :: rest) {b : Word} :
    inputDialogString b (BitVec.ofNat 32 fileNameSize) world = some ⟨[(.a1, if text.length ≤ 259 then 0 else -4)], b,
      dialogBytes text fileNameSize, { world with dialogs := rest }⟩ := by
  obtain ⟨c, text, rfl⟩ := List.exists_cons_of_ne_nil some_text
  simp only [inputDialogString, dialogs]
  rfl

theorem length_dialogBytes {text : List UInt8} : (dialogBytes text fileNameSize).length ≤ fileNameSize := by
  unfold dialogBytes fileNameSize
  split <;> simp only [List.length_append, List.length_cons, List.length_nil, List.length_take] <;> omega

theorem accepted_ends (buffer : NameBuffer access base top) (arguments : Arguments base top s₀) (asking : Asking base top s₀ s)
    (t0 : s.get .t0 = base) {text : List UInt8} {rest : List (Option (List UInt8))} (some_text : text ≠ [])
    (dialogs : s.world.dialogs = some text :: rest) (short : text.length ≤ 259)
    (done : ∀ s', Stripped (s.mem.store base (dialogBytes text fileNameSize)) base s'.mem → postHere (.label .after) s') :
    Eventually (simulator addressHere labelAtHere data) access (readStringCode promptString) postHere
      (.label (.body .readLoop)) s := by
  have code : ReadsString (readStringCode promptString) promptString .body := readStringCode_readsString
  have answered := inputDialog_text some_text dialogs (b := base)
  rw [if_pos short, ← t0] at answered
  have stores : access.stores (offset base 0) (dialogBytes text fileNameSize).length = true :=
    Access.stores_part buffer.storesBuffer (by rw [Nat.zero_add]; exact length_dialogBytes)
  have apart : Apart (below top 12) 12 (offset base 0) (dialogBytes text fileNameSize).length :=
    buffer.apart_part (by rw [Nat.zero_add]; exact length_dialogBytes)
  rw [offset_zero, ← t0] at stores apart
  refine readLoop_asks code asking arguments.t1 answered stores apart (fun _ s₁ asking₁ a1 mem₁ _ => ?_)
    fun same => absurd same (by decide)
  refine noError_ends code buffer arguments asking₁ (fun nonzero => absurd a1 nonzero) fun _ s₂ restored₂ mem₂ _ => ?_
  refine notEmptyInput_ends code buffer arguments restored₂ fun s₃ restored₃ stripped _ => ?_
  refine rsRwndMacroEnd_ends buffer restored₃ fun s₄ mem₄ => done s₄ ?_
  rwa [mem₂, mem₁, t0, ← mem₄] at stripped

theorem tooLong_ends (buffer : NameBuffer access base top) (arguments : Arguments base top s₀) (asking : Asking base top s₀ s)
    (t0 : s.get .t0 = base) {text : List UInt8} {rest : List (Option (List UInt8))} (long : fileNameSize ≤ text.length)
    (dialogs : s.world.dialogs = some text :: rest)
    (again : ∀ s', Asking base top s₀ s' → s'.get .t0 = -4 → s'.world.dialogs = rest →
      Eventually (simulator addressHere labelAtHere data) access (readStringCode promptString) postHere
        (.label (.body .readLoop)) s') :
    Eventually (simulator addressHere labelAtHere data) access (readStringCode promptString) postHere
      (.label (.body .readLoop)) s := by
  have code : ReadsString (readStringCode promptString) promptString .body := readStringCode_readsString
  have some_text : text ≠ [] := List.ne_nil_of_length_pos (Nat.lt_of_lt_of_le (by decide) long)
  have answered := inputDialog_text some_text dialogs (b := base)
  rw [if_neg (Nat.not_le.mpr long), ← t0] at answered
  have stores : access.stores (offset base 0) (dialogBytes text fileNameSize).length = true :=
    Access.stores_part buffer.storesBuffer (by rw [Nat.zero_add]; exact length_dialogBytes)
  have apart : Apart (below top 12) 12 (offset base 0) (dialogBytes text fileNameSize).length :=
    buffer.apart_part (by rw [Nat.zero_add]; exact length_dialogBytes)
  rw [offset_zero, ← t0] at stores apart
  refine readLoop_asks code asking arguments.t1 answered stores apart (fun different => absurd rfl different)
    fun _ s₁ asking₁ t0₁ _ world₁ => again s₁ asking₁ t0₁ ?_
  rw [world₁]

theorem text_faults (asking : Asking base top s₀ s) (size : s₀.get .t1 = BitVec.ofNat 32 fileNameSize) (t0 : s.get .t0 = -4)
    (nowhere : ∀ count, 0 < count → access.stores (-4) count = false) {text : List UInt8} {rest : List (Option (List UInt8))}
    (some_text : text ≠ []) (dialogs : s.world.dialogs = some text :: rest) :
    run (simulator addressHere labelAtHere data) access ((readStringCode promptString).block (.body .readLoop)) s = none := by
  have positive : 0 < (dialogBytes text fileNameSize).length := by
    unfold dialogBytes
    split <;> simp
  obtain ⟨t, asks, a1, a2, a7, world⟩ : ∃ t : State World,
      run (simulator addressHere labelAtHere data) access ((readStringCode promptString).block (.body .readLoop)) s =
        run (simulator addressHere labelAtHere data) access (.ecall :: li .t0 (-4) :: bne .a1 .t0 (.body .noError) ::
          (writeLiteralErrorRwnd "Input was too long" ++ [b (.body .readLoop)])) t ∧
      t.get .a1 = -4 ∧ t.get .a2 = BitVec.ofNat 32 fileNameSize ∧ t.get .a7 = 54 ∧ t.world = s.world := by
    refine ⟨_, rfl, ?_, ?_, get_set_self (by decide), rfl⟩
    · simp [t0]
    · simp only [get_set_self, get_set_of_ne, ne_eq, reduceCtorEq, not_false_eq_true, add_zero]
      rw [asking.kept .t1 (by decide), size]
  have answered := systemCall_inputDialog a7
  rw [a1, a2, inputDialog_text some_text (world ▸ dialogs)] at answered
  rw [asks]
  exact run_ecall_faults answered (nowhere _ positive)

end

end

section

variable {m m' : Memory} {base : Word} {text : List UInt8} {i : Nat}

theorem holds_dialogBytes (short : text.length < 259) :
    (m.store base (dialogBytes text fileNameSize)).Holds base (text ++ [10, 0]) := by
  have bytes : dialogBytes text fileNameSize = text ++ [10, 0] := if_pos short
  have length : (text ++ [10, 0]).length = text.length + 2 := by simp
  rw [bytes]
  exact Memory.holds_store (by omega)

theorem newline_stored (short : text.length < 259) :
    m.store base (dialogBytes text fileNameSize) (offset base text.length) = 10 := by
  have stored : (m.store base (dialogBytes text fileNameSize)).Holds base (text ++ [10, 0]) := holds_dialogBytes short
  exact (Memory.holds_cons.mp (Memory.holds_append.mp stored).2).1

theorem holds_dialogBytes_full (full : text.length = 259) :
    (m.store base (dialogBytes text fileNameSize)).Holds base (text ++ [0]) := by
  have bytes : dialogBytes text fileNameSize = text ++ [0] := by
    unfold dialogBytes fileNameSize
    rw [if_neg (by omega), List.take_of_length_le (by omega)]
  have length : (text ++ [0]).length = text.length + 1 := by simp
  rw [bytes]
  exact Memory.holds_store (by omega)

theorem dialogBytes_behind (behind : text.length + 2 ≤ i) (inside : i < fileNameSize) :
    m.store base (dialogBytes text fileNameSize) (offset base i) = m (offset base i) := by
  have bound : fileNameSize ≤ 2 ^ 32 := by decide
  have length : (dialogBytes text fileNameSize).length ≤ text.length + 2 := by
    unfold dialogBytes
    split <;> simp only [List.length_append, List.length_cons, List.length_nil, List.length_take] <;> omega
  exact Memory.store_offset_of_le (by omega) (by omega)

theorem dialogBytes_newline (line : 10 ∉ text) (short : text.length ≤ 259) (inside : i < fileNameSize)
    (newline : m.store base (dialogBytes text fileNameSize) (offset base i) = 10) :
    i = text.length ∧ text.length < 259 ∨ text.length + 2 ≤ i := by
  rcases Nat.lt_or_eq_of_le short with room | full
  · have stored : (m.store base (dialogBytes text fileNameSize)).Holds base (text ++ [10, 0]) := holds_dialogBytes room
    obtain ⟨holds, behind⟩ := Memory.holds_append.mp stored
    obtain ⟨-, zero⟩ := Memory.holds_cons.mp behind
    obtain ⟨is_zero, -⟩ := Memory.holds_cons.mp zero
    rcases Nat.lt_trichotomy i text.length with lower | rfl | above
    · rw [holds i lower] at newline
      exact absurd (newline ▸ List.getElem_mem lower) line
    · exact .inl ⟨rfl, room⟩
    · rcases Nat.lt_or_eq_of_le above with above | rfl
      · exact .inr above
      · rw [offset_offset] at is_zero
        rw [is_zero] at newline
        cases newline
  · have stored : (m.store base (dialogBytes text fileNameSize)).Holds base (text ++ [0]) := holds_dialogBytes_full full
    obtain ⟨holds, behind⟩ := Memory.holds_append.mp stored
    obtain ⟨is_zero, -⟩ := Memory.holds_cons.mp behind
    have at_most : i ≤ text.length := full ▸ Nat.le_of_lt_succ inside
    rcases Nat.lt_or_eq_of_le at_most with lower | rfl
    · rw [holds i lower] at newline
      exact absurd (newline ▸ List.getElem_mem lower) line
    · rw [is_zero] at newline
      cases newline

theorem stripped_holds_iff (line : 10 ∉ text) (short : text.length ≤ 259)
    (stripped : Stripped (m.store base (dialogBytes text fileNameSize)) base m') :
    m'.Holds base (text ++ [0]) ↔ ∀ i, text.length + 2 ≤ i → i < fileNameSize → m (offset base i) ≠ 10 := by
  constructor
  · intro holds i behind inside newline
    have room : text.length < 259 := by unfold fileNameSize at inside; omega
    have at_length : m.store base (dialogBytes text fileNameSize) (offset base text.length) = 10 := newline_stored room
    replace newline := (dialogBytes_behind behind inside).trans newline
    cases stripped with
    | clean none => exact none i inside newline
    | @newline j lower _ last =>
      have later : i ≤ j := by
        by_contra before
        exact last i (Nat.lt_of_not_le before) inside newline
      have bound : fileNameSize ≤ 2 ^ 32 := by decide
      have kept := (Memory.holds_cons.mp (Memory.holds_append.mp holds).2).1
      rw [Memory.store_of_not_inRange, at_length] at kept
      · cases kept
      · have apart : Apart (offset base text.length) 1 (offset base j) 1 := apart_parts (by omega) (by omega)
        have first : inRange (offset base text.length) 1 (offset (offset base text.length) 0) = true :=
          inRange_offset Nat.one_pos (by decide)
        rw [offset_zero] at first
        exact apart _ first
  · intro clear
    cases stripped with
    | clean none =>
      rcases Nat.lt_or_eq_of_le short with room | full
      · exact absurd (newline_stored room) (none _ (Nat.lt_trans room (by decide)))
      · exact holds_dialogBytes_full full
    | @newline j lower newline last =>
      rcases dialogBytes_newline line short lower newline with ⟨rfl, room⟩ | behind
      · have stored : (m.store base (dialogBytes text fileNameSize)).Holds base (text ++ [10, 0]) := holds_dialogBytes room
        refine Memory.holds_append.mpr ⟨(Memory.holds_append.mp stored).1.store (by omega) ?_, Memory.holds_store (by decide)⟩
        have apart : Apart (offset base 0) text.length (offset base text.length) 1 := apart_parts (by omega) (by omega)
        rwa [offset_zero] at apart
      · rw [dialogBytes_behind behind lower] at newline
        exact absurd newline (clear j behind lower)

end

/-- Any number of too long texts, then cancel, an empty text or a text of one line that fits. -/
structure Outcomes where
  tooLong : List (List UInt8)
  final : Option (List UInt8)
  long : ∀ text ∈ tooLong, fileNameSize ≤ text.length
  short : ∀ text, final = some text → text.length < fileNameSize
  line : ∀ text, final = some text → 10 ∉ text

namespace Outcomes

def dialogs (outcomes : Outcomes) : List (Option (List UInt8)) := outcomes.tooLong.map some ++ [outcomes.final]

def result (outcomes : Outcomes) : List UInt8 := outcomes.final.getD []

end Outcomes

section

variable {address : MacroLabel → Word} {labelAt : Word → Option MacroLabel} {data : DataLabel → Word} {promptString : String}
  {base : Word} {s : State World} {rest : List (Option (List UInt8))}

theorem usable_stops {access : Access} {text : List UInt8} {place : Place MacroLabel} {s : State World}
    (usable : Usable base text place s) :
    step (simulator address labelAt data) access (readStringCode promptString) place s = none := by
  rw [usable.1]
  rfl

theorem arguments_of_frame (frame : MacroFrame base s) : Arguments base (s.get .sp) s := ⟨rfl, frame.t0, frame.t1⟩

theorem refused_not_usable (frame : MacroFrame base s) {final : Option (List UInt8)} (nothing : final.getD [] = [])
    (dialogs : s.world.dialogs = final :: rest) :
    ¬ Eventually (simulator address labelAt data) (macroAccess base (s.get .sp)) (readStringCode promptString)
      (Usable base []) (.label .start) s := by
  intro ends
  have status : Eventually (simulator address labelAt data) (macroAccess base (s.get .sp)) (readStringCode promptString)
      (fun place s => place = .label .after ∧ s.mem base ≠ 0) (.label .start) s :=
    start_ends frame fun s₁ asking _ _ world => refused_ends frame.buffer (arguments_of_frame frame) asking nothing
      (world ▸ dialogs) fun s₂ nonzero => ⟨rfl, nonzero⟩
  obtain ⟨place, s', ⟨-, nonzero⟩, usable⟩ := status.meet ends
    (fun place s here => by rw [here.1]; rfl) fun place s => usable_stops
  exact nonzero (Memory.holds_cons.mp usable.2).1

theorem tooLong_not_usable (frame : MacroFrame base s) {text : List UInt8} {next : Option (List UInt8)}
    (long : fileNameSize ≤ text.length) (dialogs : s.world.dialogs = some text :: next :: rest) {result : List UInt8}
    (expected : next.getD [] = [] → result = []) :
    ¬ Eventually (simulator address labelAt data) (macroAccess base (s.get .sp)) (readStringCode promptString)
      (Usable base result) (.label .start) s := by
  intro ends
  by_cases nothing : next.getD [] = []
  · have status : Eventually (simulator address labelAt data) (macroAccess base (s.get .sp)) (readStringCode promptString)
        (fun place s => place = .label .after ∧ s.mem base ≠ 0) (.label .start) s :=
      start_ends frame fun s₁ asking t0 _ world => tooLong_ends frame.buffer (arguments_of_frame frame) asking t0 long
        (world ▸ dialogs) fun s₂ asking₂ _ dialogs₂ => refused_ends frame.buffer (arguments_of_frame frame) asking₂ nothing
          dialogs₂ fun s₃ nonzero => ⟨rfl, nonzero⟩
    obtain ⟨place, s', ⟨-, nonzero⟩, usable⟩ := status.meet ends
      (fun place s here => by rw [here.1]; rfl) fun place s => usable_stops
    rw [expected nothing] at usable
    exact nonzero (Memory.holds_cons.mp usable.2).1
  · obtain ⟨text', rfl⟩ : ∃ text', next = some text' := by
      cases next with
      | none => exact absurd rfl nothing
      | some text' => exact ⟨text', rfl⟩
    have again : Eventually (simulator address labelAt data) (macroAccess base (s.get .sp)) (readStringCode promptString)
        (fun place s' => place = .label (.body .readLoop) ∧ run (simulator address labelAt data)
          (macroAccess base (s.get .sp)) ((readStringCode promptString).block (.body .readLoop)) s' = none) (.label .start) s :=
      start_ends frame fun s₁ asking t0 _ world => tooLong_ends frame.buffer (arguments_of_frame frame) asking t0 long
        (world ▸ dialogs) fun s₂ asking₂ t0₂ dialogs₂ => .here ⟨rfl, text_faults asking₂ frame.t1 t0₂
          (fun count positive => frame.not_stores positive) nothing dialogs₂⟩
    obtain ⟨place, s', ⟨rfl, faults⟩, continues⟩ := again.through ends fun place s => usable_stops
    refine not_eventually faults (fun usable => ?_) continues
    cases usable.1

/-- The macro leaves a usable string if and only if its first dialog is answered with a text that fits and no newline
    is in the buffer behind the newline of the dialog. -/
theorem readString_usable_iff (outcomes : Outcomes) (frame : MacroFrame base s)
    (dialogs : s.world.dialogs = outcomes.dialogs ++ rest) :
    Eventually (simulator address labelAt data) (macroAccess base (s.get .sp)) (readStringCode promptString)
        (Usable base outcomes.result) (.label .start) s ↔
      outcomes.tooLong = [] ∧ outcomes.result ≠ [] ∧
        ∀ i, outcomes.result.length + 2 ≤ i → i < fileNameSize → s.mem (offset base i) ≠ 10 := by
  obtain ⟨tooLong, final, long, short, line⟩ := outcomes
  simp only [Outcomes.dialogs, List.append_assoc, List.singleton_append] at dialogs
  cases tooLong with
  | cons text more =>
    refine iff_of_false ?_ fun condition => List.cons_ne_nil _ _ condition.1
    cases more with
    | nil => exact tooLong_not_usable frame (long text List.mem_cons_self) dialogs id
    | cons next more =>
      have some_next : next ≠ [] := List.ne_nil_of_length_pos
        (Nat.lt_of_lt_of_le (by decide) (long next (List.mem_cons_of_mem _ List.mem_cons_self)))
      exact tooLong_not_usable frame (long text List.mem_cons_self) dialogs fun nothing => absurd nothing some_next
  | nil =>
    by_cases nothing : final.getD [] = []
    · refine iff_of_false ?_ fun condition => condition.2.1 nothing
      rw [Outcomes.result, nothing]
      exact refused_not_usable frame nothing dialogs
    obtain ⟨text, rfl⟩ : ∃ text, final = some text := by
      cases final with
      | none => exact absurd rfl nothing
      | some text => exact ⟨text, rfl⟩
    have fits : text.length ≤ 259 := Nat.le_of_lt_succ (short text rfl)
    have ends : Eventually (simulator address labelAt data) (macroAccess base (s.get .sp)) (readStringCode promptString)
        (fun place s' => place = .label .after ∧ (s'.mem.Holds base (text ++ [0]) ↔
          ∀ i, text.length + 2 ≤ i → i < fileNameSize → s.mem (offset base i) ≠ 10)) (.label .start) s := by
      refine start_ends frame fun s₁ asking t0 kept world => ?_
      refine accepted_ends frame.buffer (arguments_of_frame frame) asking t0 nothing (world ▸ dialogs) fits fun s₂ stripped => ?_
      refine ⟨rfl, (stripped_holds_iff (line text rfl) fits stripped).trans ?_⟩
      refine forall_congr' fun i => forall_congr' fun _ => forall_congr' fun inside => ?_
      rw [kept i inside]
    constructor
    · intro usable
      obtain ⟨place, s', ⟨-, holds_iff⟩, -, holds⟩ := ends.meet usable
        (fun place s here => by rw [here.1]; rfl) fun place s => usable_stops
      exact ⟨rfl, nothing, holds_iff.mp holds⟩
    · rintro ⟨-, -, clear⟩
      exact ends.mono fun place s' here => ⟨here.1, here.2.mpr clear⟩

end

/-- The buffer at the start of the data segment, the stack where the simulator starts it, and these answers. -/
def macroStart (dialogs : List (Option (List UInt8))) : State World where
  regs
    | .sp => 0x7fffeffc
    | .t0 => 0x10010000
    | .t1 => 260
    | _ => 0
  mem _ := 0
  world := ⟨fun _ => none, fun _ => false, [], [], [], dialogs, []⟩

theorem macroStart_frame {dialogs : List (Option (List UInt8))} : MacroFrame 0x10010000 (macroStart dialogs) := by
  have sp : (macroStart dialogs).get .sp = 0x7fffeffc := rfl
  refine ⟨rfl, rfl, by decide, ?_, ?_, ?_, ?_⟩ <;> rw [sp]
  · decide
  · decide
  · decide
  · exact (apart_of_le (by decide) (by decide)).symm

def acceptedName : Outcomes := ⟨[], some [97], nofun, by simp [fileNameSize], by simp⟩

/-- The name `a` is usable. -/
theorem readString_usable_one : Eventually (simulator (fun _ => 0) (fun _ => none) fun _ => 0)
    (macroAccess 0x10010000 0x7fffeffc) (readStringCode "Input file name:") (Usable 0x10010000 [97]) (.label .start)
    (macroStart [some [97]]) := by
  have asked : (macroStart [some [97]]).world.dialogs = acceptedName.dialogs ++ [] := rfl
  refine (readString_usable_iff acceptedName macroStart_frame asked).mpr ⟨rfl, ?_, fun _ _ _ => ?_⟩
  · exact List.cons_ne_nil _ _
  · exact show (0 : UInt8) ≠ 10 by decide

/-- After cancel the buffer does not hold the empty string. -/
theorem cancel_is_not_usable : ¬ ∀ (outcomes : Outcomes) (s : State World) (base : Word), MacroFrame base s →
    s.world.dialogs = outcomes.dialogs →
    Eventually (simulator (fun _ => 0) (fun _ => none) fun _ => 0) (macroAccess base (s.get .sp))
      (readStringCode "Input file name:") (Usable base outcomes.result) (.label .start) s := by
  intro usable
  have cancelled := usable ⟨[], none, nofun, nofun, nofun⟩ (macroStart [none]) 0x10010000 macroStart_frame rfl
  exact refused_not_usable macroStart_frame rfl rfl cancelled

end ArchCompSystems.Ihw3
