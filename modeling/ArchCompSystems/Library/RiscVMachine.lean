import ArchCompSystems.Library.Memory

namespace ArchCompSystems.Library.RiscV

inductive Reg where
  | zero | ra | sp | gp | tp
  | t0 | t1 | t2 | t3 | t4 | t5 | t6
  | s0 | s1 | s2 | s3 | s4 | s5 | s6 | s7 | s8 | s9 | s10 | s11
  | a0 | a1 | a2 | a3 | a4 | a5 | a6 | a7
  deriving DecidableEq

inductive Instr (L D : Type) where
  | op (f : Word → Word → Word) (rd rs1 rs2 : Reg)
  | opImm (f : Word → Word → Word) (rd rs : Reg) (imm : Word)
  | la (rd : Reg) (label : D)
  | lb (rd : Reg) (imm : Word) (rs : Reg)
  | lbu (rd : Reg) (imm : Word) (rs : Reg)
  | lw (rd : Reg) (imm : Word) (rs : Reg)
  | sb (value : Reg) (imm : Word) (rs : Reg)
  | sw (value : Reg) (imm : Word) (rs : Reg)
  | branch (holds : Word → Word → Bool) (rs1 rs2 : Reg) (target : L)
  | j (target : L)
  | jal (target : L)
  | ret
  | ecall

namespace Instr

variable {L D : Type}

def add (rd rs1 rs2 : Reg) : Instr L D := .op (· + ·) rd rs1 rs2

def sub (rd rs1 rs2 : Reg) : Instr L D := .op (· - ·) rd rs1 rs2

def and (rd rs1 rs2 : Reg) : Instr L D := .op (· &&& ·) rd rs1 rs2

def or (rd rs1 rs2 : Reg) : Instr L D := .op (· ||| ·) rd rs1 rs2

def xor (rd rs1 rs2 : Reg) : Instr L D := .op (· ^^^ ·) rd rs1 rs2

def mul (rd rs1 rs2 : Reg) : Instr L D := .op (· * ·) rd rs1 rs2

def mulhu (rd rs1 rs2 : Reg) : Instr L D := .op (fun x y => BitVec.ofNat 32 (x.toNat * y.toNat / 2 ^ 32)) rd rs1 rs2

def slt (rd rs1 rs2 : Reg) : Instr L D := .op (fun x y => if x.slt y then 1 else 0) rd rs1 rs2

def sgt (rd rs1 rs2 : Reg) : Instr L D := .slt rd rs2 rs1

def sltz (rd rs : Reg) : Instr L D := .slt rd rs .zero

def sgtz (rd rs : Reg) : Instr L D := .slt rd .zero rs

def addi (rd rs : Reg) (imm : Word) : Instr L D := .opImm (· + ·) rd rs imm

def andi (rd rs : Reg) (imm : Word) : Instr L D := .opImm (· &&& ·) rd rs imm

def ori (rd rs : Reg) (imm : Word) : Instr L D := .opImm (· ||| ·) rd rs imm

def xori (rd rs : Reg) (imm : Word) : Instr L D := .opImm (· ^^^ ·) rd rs imm

def slli (rd rs : Reg) (shift : Word) : Instr L D := .opImm (· <<< ·) rd rs shift

def srli (rd rs : Reg) (shift : Word) : Instr L D := .opImm (· >>> ·) rd rs shift

def srai (rd rs : Reg) (shift : Word) : Instr L D := .opImm (fun x y => x.sshiftRight y.toNat) rd rs shift

def sltiu (rd rs : Reg) (imm : Word) : Instr L D := .opImm (fun x y => if x.ult y then 1 else 0) rd rs imm

def seqz (rd rs : Reg) : Instr L D := .sltiu rd rs 1

def mv (rd rs : Reg) : Instr L D := .addi rd rs 0

def li (rd : Reg) (imm : Word) : Instr L D := .addi rd .zero imm

def beq (rs1 rs2 : Reg) (target : L) : Instr L D := .branch (· = ·) rs1 rs2 target

def bne (rs1 rs2 : Reg) (target : L) : Instr L D := .branch (· ≠ ·) rs1 rs2 target

def blt (rs1 rs2 : Reg) (target : L) : Instr L D := .branch BitVec.slt rs1 rs2 target

def bge (rs1 rs2 : Reg) (target : L) : Instr L D := .branch (fun x y => !x.slt y) rs1 rs2 target

def bltu (rs1 rs2 : Reg) (target : L) : Instr L D := .branch BitVec.ult rs1 rs2 target

def bgeu (rs1 rs2 : Reg) (target : L) : Instr L D := .branch (fun x y => !x.ult y) rs1 rs2 target

def bgt (rs1 rs2 : Reg) (target : L) : Instr L D := .blt rs2 rs1 target

def ble (rs1 rs2 : Reg) (target : L) : Instr L D := .bge rs2 rs1 target

def bleu (rs1 rs2 : Reg) (target : L) : Instr L D := .bgeu rs2 rs1 target

def beqz (rs : Reg) (target : L) : Instr L D := .beq rs .zero target

def bnez (rs : Reg) (target : L) : Instr L D := .bne rs .zero target

def bltz (rs : Reg) (target : L) : Instr L D := .blt rs .zero target

def bgez (rs : Reg) (target : L) : Instr L D := .bge rs .zero target

def b (target : L) : Instr L D := .j target

end Instr

/-- The text behind each label up to the next one, where it goes on. -/
structure Code (L D : Type) where
  block : L → List (Instr L D)
  next : L → Option L

def Code.upTo {L D : Type} [DecidableEq L] (C : Code L D) (l : L) : Code L D where
  block l' := if l' = l then [] else C.block l'
  next l' := if l' = l then none else C.next l'

structure State (ω : Type) where
  regs : Reg → Word
  mem : Memory
  world : ω

/-- What a call of the environment does: results in registers, bytes that it stores, and its own state. -/
structure Service (ω : Type) where
  results : List (Reg × Word)
  base : Word
  bytes : List UInt8
  world : ω

/-- Where labels are, and the environment. -/
structure Platform (L D ω : Type) where
  address : L → Word
  labelAt : Word → Option L
  data : D → Word
  ecall : State ω → Option (Service ω)

/-- The addresses that may be accessed; any other access faults. -/
structure Access where
  mayLoad : Word → Bool
  mayStore : Word → Bool

inductive Next (L : Type) where
  | fall
  | jump (target : L)
  | link (target : L)
  | back (address : Word)

inductive Place (L : Type) where
  | label (l : L)
  | outside (address : Word)

variable {L D ω : Type}

namespace State

def get (s : State ω) (r : Reg) : Word := if r = .zero then 0 else s.regs r

def set (s : State ω) (rd : Reg) (w : Word) : State ω := { s with regs := Function.update s.regs rd w }

def store (s : State ω) (base : Word) (bytes : List UInt8) : State ω := { s with mem := s.mem.store base bytes }

def setAll (s : State ω) (results : List (Reg × Word)) : State ω :=
  results.foldl (fun s (rd, w) => s.set rd w) s

end State

namespace Access

def loads (access : Access) (base : Word) (size : Nat) : Bool := (List.range size).all fun i => access.mayLoad (offset base i)

def stores (access : Access) (base : Word) (size : Nat) : Bool := (List.range size).all fun i => access.mayStore (offset base i)

end Access

def isAligned (address : Word) : Bool := address.toNat % 4 = 0

def Platform.place (P : Platform L D ω) (address : Word) : Place L :=
  match P.labelAt address with
  | none => .outside address
  | some l => .label l

section

variable (P : Platform L D ω) (access : Access)

def Instr.exec (s : State ω) : Instr L D → Option (Next L × State ω)
  | .op f rd rs1 rs2 => some (.fall, s.set rd (f (s.get rs1) (s.get rs2)))
  | .opImm f rd rs imm => some (.fall, s.set rd (f (s.get rs) imm))
  | .la rd label => some (.fall, s.set rd (P.data label))
  | .lb rd imm rs =>
    if access.loads (s.get rs + imm) 1 then
      some (.fall, s.set rd ((s.mem (s.get rs + imm)).toBitVec.signExtend 32))
    else none
  | .lbu rd imm rs =>
    if access.loads (s.get rs + imm) 1 then
      some (.fall, s.set rd (BitVec.ofNat 32 (s.mem (s.get rs + imm)).toNat))
    else none
  | .lw rd imm rs =>
    if access.loads (s.get rs + imm) 4 && isAligned (s.get rs + imm) then
      some (.fall, s.set rd (s.mem.loadWord (s.get rs + imm)))
    else none
  | .sb value imm rs =>
    if access.stores (s.get rs + imm) 1 then
      some (.fall, s.store (s.get rs + imm) [UInt8.ofNat (s.get value).toNat])
    else none
  | .sw value imm rs =>
    if access.stores (s.get rs + imm) 4 && isAligned (s.get rs + imm) then
      some (.fall, s.store (s.get rs + imm) (wordBytes (s.get value)))
    else none
  | .branch holds rs1 rs2 target => some (if holds (s.get rs1) (s.get rs2) then .jump target else .fall, s)
  | .j target => some (.jump target, s)
  | .jal target => some (.link target, s)
  | .ret => some (.back (s.get .ra), s)
  | .ecall => match P.ecall s with
    | none => none
    | some service =>
      if access.stores service.base service.bytes.length then
        some (.fall, { (s.store service.base service.bytes).setAll service.results with world := service.world })
      else none

def run : List (Instr L D) → State ω → Option (Next L × State ω)
  | [], s => some (.fall, s)
  | i :: rest, s => match i.exec P access s with
    | none => none
    | some (.fall, s') => run rest s'
    | some (.link target, s') => if rest.isEmpty then some (.link target, s') else none
    | some (.jump target, s') => some (.jump target, s')
    | some (.back address, s') => some (.back address, s')

variable (C : Code L D)

def step : Place L → State ω → Option (Place L × State ω)
  | .outside _, _ => none
  | .label l, s => match run P access (C.block l) s with
    | none => none
    | some (.fall, s') => (C.next l).map fun l' => (.label l', s')
    | some (.jump target, s') => some (.label target, s')
    | some (.link target, s') => (C.next l).map fun back => (.label target, s'.set .ra (P.address back))
    | some (.back address, s') => some (P.place address, s')

/-- The machine comes to a place and a state that satisfy `post`, without a fault on the way. -/
inductive Eventually (post : Place L → State ω → Prop) : Place L → State ω → Prop where
  | here {place : Place L} {s : State ω} (holds : post place s) : Eventually post place s
  | step {place place' : Place L} {s s' : State ω} (stepped : step P access C place s = some (place', s'))
      (rest : Eventually post place' s') : Eventually post place s

/-- The code runs without a fault up to where it is left, and then `post` holds. -/
def wp (code : List (Instr L D)) (s : State ω) (post : Next L → State ω → Prop) : Prop :=
  ∃ next s', run P access code s = some (next, s') ∧ post next s'

end

section

variable {s : State ω} {r rd : Reg} {w base : Word} {bytes : List UInt8}

@[simp] theorem get_zero : s.get .zero = 0 := rfl

@[simp] theorem get_set_self (nonzero : rd ≠ .zero) : (s.set rd w).get rd = w := by
  simp only [State.get, if_neg nonzero, State.set, Function.update_self]

@[simp] theorem get_set_of_ne (different : r ≠ rd) : (s.set rd w).get r = s.get r := by
  simp only [State.get, State.set, Function.update_of_ne different]

/-- All registers but these are as they were. -/
def SameBut (regs : List Reg) (s₀ s : State ω) : Prop := ∀ r ∉ regs, s.get r = s₀.get r

theorem SameBut.refl {regs : List Reg} : SameBut regs s s := fun _ _ => rfl

theorem SameBut.set {regs : List Reg} {s₀ : State ω} (same : SameBut regs s₀ s) (mem : rd ∈ regs) :
    SameBut regs s₀ (s.set rd w) := by
  intro r outside
  have different : r ≠ rd := fun is_rd => outside (is_rd ▸ mem)
  rw [get_set_of_ne different]
  exact same r outside

@[simp] theorem get_store : (s.store base bytes).get r = s.get r := rfl

@[simp] theorem mem_set : (s.set rd w).mem = s.mem := rfl

@[simp] theorem mem_store : (s.store base bytes).mem = s.mem.store base bytes := rfl

@[simp] theorem world_set : (s.set rd w).world = s.world := rfl

@[simp] theorem setAll_nil : s.setAll [] = s := rfl

@[simp] theorem setAll_cons {results : List (Reg × Word)} : s.setAll ((rd, w) :: results) = (s.set rd w).setAll results := rfl

@[simp] theorem mem_setAll {results : List (Reg × Word)} : (s.setAll results).mem = s.mem := by
  induction results generalizing s with
  | nil => rfl
  | cons result rest ih => exact ih

end

section

variable {access access' : Access} {base : Word} {size i count : Nat}

theorem Access.loads_iff : access.loads base size = true ↔ ∀ i < size, access.mayLoad (offset base i) = true := by
  simp only [Access.loads, List.all_eq_true, List.mem_range]

theorem Access.stores_iff : access.stores base size = true ↔ ∀ i < size, access.mayStore (offset base i) = true := by
  simp only [Access.stores, List.all_eq_true, List.mem_range]

theorem Access.loads_of_range (allowed : ∀ address, inRange base size address = true → access.mayLoad address = true)
    (bound : size ≤ 2 ^ 32) : access.loads base size = true :=
  loads_iff.mpr fun _ lower => allowed _ (inRange_offset lower bound)

theorem Access.stores_of_range (allowed : ∀ address, inRange base size address = true → access.mayStore address = true)
    (bound : size ≤ 2 ^ 32) : access.stores base size = true :=
  stores_iff.mpr fun _ lower => allowed _ (inRange_offset lower bound)

theorem Access.stores_part (stores : access.stores base size = true) (fits : i + count ≤ size) :
    access.stores (offset base i) count = true := by
  refine stores_iff.mpr fun j lower => ?_
  rw [offset_offset]
  exact stores_iff.mp stores _ (by omega)

theorem Access.loads_part (loads : access.loads base size = true) (fits : i + count ≤ size) :
    access.loads (offset base i) count = true := by
  refine loads_iff.mpr fun j lower => ?_
  rw [offset_offset]
  exact loads_iff.mp loads _ (by omega)

theorem Access.store_outside {bytes : List UInt8} {m : Memory} {address : Word}
    (stores : access.stores base bytes.length = true) (outside : access.mayStore address = false) :
    m.store base bytes address = m address := by
  refine Memory.store_of_not_inRange ?_
  by_contra inside
  obtain ⟨i, lower, rfl⟩ := exists_offset (Bool.of_not_eq_false inside)
  rw [stores_iff.mp stores i lower] at outside
  cases outside

end

end ArchCompSystems.Library.RiscV
