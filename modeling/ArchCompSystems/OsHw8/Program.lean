import ArchCompSystems.Library.Pool
import Mathlib.Data.Fintype.Sum

namespace ArchCompSystems.OsHw8

open Library Library.Program

def bufSize : Nat := 10

def maxReaders : Nat := 2

/-- The named semaphores of common.c, writer.c and reader.c. -/
inductive Semaphore where
  | admin
  | readMutex
  | writeMutex
  | empty
  | full
  | writer
  | firstWriter
  | reader
  deriving DecidableEq

def Semaphore.initialValue : Semaphore → Nat
  | .admin | .full => 0
  | .readMutex | .writeMutex | .writer | .firstWriter | .reader => 1
  | .empty => bufSize

/-- The calls and memory accesses of the processes. `openMemory` stands for `shm_open`, `ftruncate` and
    `mmap`, `clearCell` for a store of -1, and `storeCell` for one of a written number. -/
inductive Call where
  | semOpen (semaphore : Semaphore)
  | semWait (semaphore : Semaphore)
  | semPost (semaphore : Semaphore)
  | semGetvalue (semaphore : Semaphore)
  | openMemory
  | memset
  | loadReaders
  | storeReaders (count : Nat)
  | loadWriteIndex
  | storeWriteIndex (index : Nat)
  | storeCell (i : Nat) (number : Int)
  | loadReadIndex
  | storeReadIndex (index : Nat)
  | loadCell (i : Nat)
  | clearCell (i : Nat)
  | rand
  | printProduced (number : Int) (i : Nat)
  | printConsumed (number : Int) (i : Nat) (factorial : Int)
  | sleep
  | goesOn

/-- A loop cut off at a finite number of rounds (`goesOn`) has no answer. -/
@[reducible] def Call.Answer : Call → Type
  | .semGetvalue _ | .loadReaders | .loadWriteIndex | .loadReadIndex | .rand => Nat
  | .loadCell _ => Int
  | .goesOn => Empty
  | .semOpen _ | .semWait _ | .semPost _ | .openMemory | .memset | .storeReaders _ | .storeWriteIndex _
  | .storeCell _ _ | .storeReadIndex _ | .clearCell _ | .printProduced _ _ | .printConsumed _ _ _ | .sleep => Unit

abbrev HwProgram := Program Call Call.Answer

def Call.make (call : Call) : HwProgram call.Answer := request call

instance : IsEmpty (Call.Answer .goesOn) := inferInstanceAs (IsEmpty Empty)

/-- `while (1)`, cut off at a finite number of rounds. -/
def forever (rounds : Nat) (round : HwProgram Unit) : HwProgram Unit :=
  Program.loop .goesOn rounds () fun () => do
    round
    return .next ()

/-- The fields of `shared_memory` that the loops and the admission use. -/
structure Memory where
  store : Nat → Int
  writeIndex : Nat
  readIndex : Nat
  sizeOfReaderPids : Nat

def Memory.zero : Memory := ⟨fun _ => 0, 0, 0, 0⟩

/-- A semaphore that nobody has opened has no value. `written` and `obtained` record what was ever
    stored with `storeCell` and loaded with `loadCell`, oldest first. -/
structure State where
  semaphores : Semaphore → Option Nat
  memory : Memory
  written : List Int
  obtained : List Int

/-- `none` where the call has to wait, and for answers that cannot come. -/
def perform (call : Call) (answer : call.Answer) (s : State) : Option State :=
  match call, answer with
  | .semOpen semaphore, _ =>
    let value := (s.semaphores semaphore).getD semaphore.initialValue
    some { s with semaphores := Function.update s.semaphores semaphore (some value) }
  | .semWait semaphore, _ =>
    match s.semaphores semaphore with
    | some (value + 1) => some { s with semaphores := Function.update s.semaphores semaphore (some value) }
    | _ => none
  | .semPost semaphore, _ =>
    (s.semaphores semaphore).map fun value =>
      { s with semaphores := Function.update s.semaphores semaphore (some (value + 1)) }
  | .semGetvalue semaphore, answer => if s.semaphores semaphore = some answer then some s else none
  | .memset, _ => some { s with memory := .zero }
  | .loadReaders, answer => if answer = s.memory.sizeOfReaderPids then some s else none
  | .storeReaders count, _ => some { s with memory := { s.memory with sizeOfReaderPids := count } }
  | .loadWriteIndex, answer => if answer = s.memory.writeIndex then some s else none
  | .storeWriteIndex index, _ => some { s with memory := { s.memory with writeIndex := index } }
  | .storeCell i number, _ =>
    some { s with
      memory := { s.memory with store := Function.update s.memory.store i number }
      written := s.written ++ [number] }
  | .loadReadIndex, answer => if answer = s.memory.readIndex then some s else none
  | .storeReadIndex index, _ => some { s with memory := { s.memory with readIndex := index } }
  | .loadCell i, answer =>
    if answer = s.memory.store i then some { s with obtained := s.obtained ++ [answer] } else none
  | .clearCell i, _ => some { s with memory := { s.memory with store := Function.update s.memory.store i (-1) } }
  | .openMemory, _ | .rand, _ | .printProduced _ _, _ | .printConsumed _ _ _, _ | .sleep, _ => some s
  | .goesOn, answer => isEmptyElim answer

def init : HwProgram Unit := do
  Call.make (.semOpen .admin)
  Call.make (.semOpen .readMutex)
  Call.make (.semOpen .writeMutex)
  Call.make (.semOpen .empty)
  Call.make (.semOpen .full)

def admitWriter : HwProgram Bool := do
  Call.make (.semOpen .writer)
  Call.make (.semOpen .firstWriter)
  Call.make (.semWait .writer)
  let writerNumber ← Call.make (.semGetvalue .firstWriter)
  if writerNumber = 0 then
    Call.make (.semPost .writer)
    return false
  Call.make (.semWait .firstWriter)
  Call.make (.semPost .writer)
  return true

def initBuffer : HwProgram Unit := do
  Call.memset.make
  let _ ← forFrom (fun i (_ : Unit) => do
    Call.make (.clearCell i)
    return (.next () : LoopFlow Unit Empty)) bufSize 0 ()
  let isWriters ← Call.make (.semGetvalue .admin)
  if isWriters = 0 then Call.make (.semPost .admin)

def writeRound : HwProgram Unit := do
  Call.make (.semWait .empty)
  Call.make (.semWait .writeMutex)
  let writeIndex ← Call.loadWriteIndex.make
  let generatedNum : Int := ((← Call.rand.make) % 11 : Nat)
  Call.make (.storeCell writeIndex generatedNum)
  Call.make (.storeWriteIndex ((writeIndex + 1) % bufSize))
  Call.make (.semPost .full)
  Call.make (.printProduced generatedNum writeIndex)
  Call.make (.semPost .writeMutex)
  Call.sleep.make

def writer (rounds : Nat) : HwProgram Unit := do
  init
  Call.openMemory.make
  if !(← admitWriter) then return
  initBuffer
  forever rounds writeRound

def factorial (n : Int) : Int := (List.range n.toNat).foldl (fun (p : Int) i => p * (i + 1)) 1

def admitReader : HwProgram Bool := do
  Call.make (.semOpen .reader)
  Call.make (.semWait .reader)
  if (← Call.loadReaders.make) ≥ maxReaders then
    Call.make (.semPost .reader)
    return false
  Call.make (.storeReaders ((← Call.loadReaders.make) + 1))
  Call.make (.semPost .reader)
  return true

def readRound : HwProgram Unit := do
  Call.sleep.make
  Call.make (.semWait .full)
  Call.make (.semWait .readMutex)
  let readIndex ← Call.loadReadIndex.make
  let result ← Call.make (.loadCell readIndex)
  Call.make (.clearCell readIndex)
  Call.make (.storeReadIndex ((readIndex + 1) % bufSize))
  Call.make (.semPost .empty)
  Call.make (.printConsumed result readIndex (factorial result))
  Call.make (.semPost .readMutex)

def reader (rounds : Nat) : HwProgram Unit := do
  init
  Call.make (.semWait .admin)
  Call.make (.semPost .admin)
  Call.openMemory.make
  if !(← admitReader) then return
  forever rounds readRound

abbrev Process (writers readers : Nat) := Fin writers ⊕ Fin readers

def processProgram {writers readers : Nat} (rounds : Nat) : Process writers readers → HwProgram Unit
  | .inl _ => writer rounds
  | .inr _ => reader rounds

def machine (writers readers : Nat) : Machine (Process writers readers) Call Call.Answer State :=
  ⟨fun _ => perform, fun _ _ _ => none⟩

def start (writers readers rounds : Nat) (memory : Memory) : Pool (Process writers readers) Call Call.Answer State where
  programs := processProgram rounds
  state := ⟨fun _ => none, memory, [], []⟩
  history _ := []

abbrev Reach (writers readers rounds : Nat) (memory : Memory) :
    Pool (Process writers readers) Call Call.Answer State → Prop :=
  Pool.Reach (machine writers readers) (fun _ _ => True) (start writers readers rounds memory)

end ArchCompSystems.OsHw8
