import ArchCompSystems.Library.Pool
import ArchCompSystems.Library.SharedRing
import Mathlib.Data.Fintype.Sigma
import Mathlib.Data.Fintype.Sum
import Mathlib.Tactic.DeriveFintype

namespace ArchCompSystems.Hw9

open Library Library.Program

abbrev kNumGenThreadsCount : Nat := 20

abbrev kAddingThreadsCount : Nat := kNumGenThreadsCount - 1

instance : NeZero kAddingThreadsCount := ⟨by decide⟩

def kMaxSize : Nat := 64

/-- The threads of the program; `main` is the only caller of `PopPair`. -/
inductive Thread where
  | generator (i : Fin kNumGenThreadsCount)
  | adder (i : Fin kAddingThreadsCount)
  | main
  deriving DecidableEq, Fintype

/-- The calls of the threads: the lock, the semaphore and the memory of the queue, and the start,
    end and join of threads. A started thread gets two numbers; a generator uses the first. -/
inductive Call where
  | lock
  | unlock
  | post
  | wait
  | loadWriteIndex
  | storeWriteIndex (index : Nat)
  | storeCell (i : Nat) (num : BitVec 32)
  | loadReadIndex
  | storeReadIndex (index : Nat)
  | popCell (i : Nat)
  | frontCell (i : Nat)
  | create (thread : Thread) (first second : BitVec 32)
  | begin
  | exit
  | join (thread : Thread)
  | print (result : BitVec 32)

@[reducible] def Call.Answer : Call → Type
  | .loadWriteIndex | .loadReadIndex => Nat
  | .popCell _ | .frontCell _ => BitVec 32
  | .begin => BitVec 32 × BitVec 32
  | .lock | .unlock | .post | .wait | .storeWriteIndex _ | .storeCell _ _ | .storeReadIndex _
  | .create _ _ _ | .exit | .join _ | .print _ => Unit

/-- `posted` is the value of `read_semaphore_`, and `guard` is 1 while `queue_lock_` is free. -/
structure State where
  ring : SharedRing (BitVec 32)
  guard : Nat
  posted : Nat
  args : Thread → Option (BitVec 32 × BitVec 32)
  exited : Thread → Bool
  printed : List (BitVec 32)

/-- `none` where the call has to wait, and for answers that cannot come. -/
def perform (t : Thread) (call : Call) (answer : call.Answer) (s : State) : Option State :=
  match call, answer with
  | .lock, _ => if 0 < s.guard then some { s with guard := s.guard - 1 } else none
  | .unlock, _ => some { s with guard := s.guard + 1 }
  | .post, _ => some { s with posted := s.posted + 1 }
  | .wait, _ => if 0 < s.posted then some { s with posted := s.posted - 1 } else none
  | .loadWriteIndex, answer => if answer = s.ring.writeIndex then some s else none
  | .storeWriteIndex index, _ => some { s with ring := { s.ring with writeIndex := index } }
  | .storeCell i num, _ => some { s with ring := s.ring.storeCell i num }
  | .loadReadIndex, answer => if answer = s.ring.readIndex then some s else none
  | .storeReadIndex index, _ => some { s with ring := { s.ring with readIndex := index } }
  | .popCell i, answer =>
    if answer = s.ring.cells i then some { s with ring := s.ring.loadCell i } else none
  | .frontCell i, answer => if answer = s.ring.cells i then some s else none
  | .create thread first second, _ =>
    some { s with args := Function.update s.args thread (some (first, second)) }
  | .begin, answer => if s.args t = some answer then some s else none
  | .exit, _ => some { s with exited := Function.update s.exited t true }
  | .join thread, _ => if s.exited thread then some s else none
  | .print result, _ => some { s with printed := s.printed ++ [result] }

abbrev ThreadProgram := Program Call Call.Answer

def Call.make (call : Call) : ThreadProgram call.Answer := Program.request call

def machine : Machine Thread Call Call.Answer State := ⟨perform, fun _ _ _ => none⟩

def push (num : BitVec 32) : ThreadProgram Unit := do
  Call.lock.make
  let writeIndex ← Call.loadWriteIndex.make
  Call.make (.storeCell writeIndex num)
  let writeIndex ← Call.loadWriteIndex.make
  Call.make (.storeWriteIndex ((writeIndex + 1) % kMaxSize))
  Call.unlock.make
  Call.post.make

def popPair : ThreadProgram (BitVec 32 × BitVec 32) := do
  Call.wait.make
  Call.wait.make
  let readIndex ← Call.loadReadIndex.make
  let first ← Call.make (.popCell readIndex)
  let readIndex ← Call.loadReadIndex.make
  Call.make (.storeReadIndex ((readIndex + 1) % kMaxSize))
  let readIndex ← Call.loadReadIndex.make
  let second ← Call.make (.popCell readIndex)
  let readIndex ← Call.loadReadIndex.make
  Call.make (.storeReadIndex ((readIndex + 1) % kMaxSize))
  return (first, second)

def front : ThreadProgram (BitVec 32) := do
  let readIndex ← Call.loadReadIndex.make
  Call.make (.frontCell readIndex)

def numberGenerator : ThreadProgram Unit := do
  let (threadNum, _) ← Call.begin.make
  push threadNum
  Call.exit.make

def adder : ThreadProgram Unit := do
  let (num1, num2) ← Call.begin.make
  push (num1 + num2)
  Call.exit.make

def generatorAt (i : Nat) : Thread := .generator (Fin.ofNat kNumGenThreadsCount i)

def adderAt (i : Nat) : Thread := .adder (Fin.ofNat kAddingThreadsCount i)

/-- The generator of index `i` gets the number `numbers i`; in the source that is `i + 1`. -/
def startNumGenThreads (numbers : Fin kNumGenThreadsCount → BitVec 32) : ThreadProgram Unit := do
  let _ ← forFrom (fun i (_ : Unit) => do
    Call.make (.create (generatorAt i) (numbers (Fin.ofNat kNumGenThreadsCount i)) 0)
    return (.next () : LoopFlow Unit Empty)) kNumGenThreadsCount 0 ()

def joinThreads (threads : Nat → Thread) (count : Nat) : ThreadProgram Unit := do
  let _ ← forFrom (fun i (_ : Unit) => do
    Call.make (.join (threads i))
    return (.next () : LoopFlow Unit Empty)) count 0 ()

def accumulateResults : ThreadProgram Unit := do
  let _ ← forFrom (fun iter (_ : Unit) => do
    let (num1, num2) ← popPair
    Call.make (.create (adderAt iter) num1 num2)
    return (.next () : LoopFlow Unit Empty)) kAddingThreadsCount 0 ()
  joinThreads adderAt kAddingThreadsCount
  let result ← front
  Call.make (.print result)

def main (numbers : Fin kNumGenThreadsCount → BitVec 32) : ThreadProgram Unit := do
  startNumGenThreads numbers
  accumulateResults
  joinThreads generatorAt kNumGenThreadsCount

def start (numbers : Fin kNumGenThreadsCount → BitVec 32) : Pool Thread Call Call.Answer State where
  programs
    | .generator _ => numberGenerator
    | .adder _ => adder
    | .main => main numbers
  state := ⟨⟨fun _ => 0, 0, 0, 0, [], []⟩, 1, 0, fun _ => none, fun _ => false, []⟩
  history _ := []

abbrev Reach (numbers : Fin kNumGenThreadsCount → BitVec 32) :
    Pool Thread Call Call.Answer State → Prop :=
  Pool.Reach machine (fun _ _ => True) (start numbers)

end ArchCompSystems.Hw9
