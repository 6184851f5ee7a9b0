import ArchCompSystems.Library.LinkedList
import ArchCompSystems.Library.Pool

namespace ArchCompSystems.Ihw4

open Library Library.Program

abbrev Code := UInt8

def encodeChunkSize : Nat := 128

def noCode : Code := 0

def codingTable : List Code := [40, 35, 164, 65, 88, 95, 26, 3, 159, 190, 25, 19, 53, 184, 211, 157, 121, 163,
  168, 137, 42, 17, 93, 145, 242, 36, noCode, noCode, noCode, noCode, noCode, noCode, 158, 128, 148, 155,
  102, 210, 100, 68, 71, 207, 175, 122, 60, 198, 9, 139, 108, 81, 1, 169, 195, 194, 193, 61, 185, 140]

def encodeChar (c : UInt8) : Code :=
  let index := (c.toUInt32 - 65).toNat
  if codingTable.length ≤ index then noCode else codingTable.getD index noCode

inductive Thread (n : Nat) where
  | encoder (i : Fin n)
  | main
  deriving DecidableEq

inductive Mutex where
  | get
  | store
  | write
  deriving DecidableEq

inductive OutFile where
  | stdout
  | outputFile
  deriving DecidableEq

/-- The calls of the threads; nodes are addresses. `newNode` is the allocation of a zeroed node with
    its chunk number, `log` what is printed while threads encode, `print` a code of the result. -/
inductive Call (n : Nat) where
  | lock (mutex : Mutex)
  | unlock (mutex : Mutex)
  | loadCurrentChunkNo
  | storeCurrentChunkNo (chunkNo : Nat)
  | newNode (chunkNo : Nat)
  | loadChunkNo (node : Nat)
  | storeCode (node i : Nat) (code : Code)
  | loadCode (node i : Nat)
  | loadNext (node : Nat)
  | storeNext (node : Nat) (target : Option Nat)
  | loadPrev (node : Nat)
  | storePrev (node : Nat) (target : Option Nat)
  | loadHead
  | storeHead (target : Option Nat)
  | loadTail
  | storeTail (target : Option Nat)
  | log (value : Nat)
  | print (file : OutFile) (code : Code)
  | exit
  | join (i : Fin n)
  | goesOn

@[reducible] def Call.Answer {n : Nat} : Call n → Type
  | .loadCurrentChunkNo | .newNode _ | .loadChunkNo _ => Nat
  | .loadCode _ _ => Code
  | .loadNext _ | .loadPrev _ | .loadHead | .loadTail => Option Nat
  | .goesOn => Empty
  | .lock _ | .unlock _ | .storeCurrentChunkNo _ | .storeCode _ _ _ | .storeNext _ _ | .storePrev _ _
  | .storeHead _ | .storeTail _ | .log _ | .print _ _ | .exit | .join _ => Unit

structure State (n : Nat) where
  owner : Mutex → Option (Thread n)
  currentChunkNo : Nat
  links : Links
  chunkNo : Nat → Nat
  encodedString : Nat → Nat → Code
  allocated : Nat
  exited : Fin n → Bool
  written : OutFile → List Code

/-- `none` where the call has to wait, and for answers that cannot come. -/
def perform {n : Nat} (t : Thread n) (call : Call n) (answer : call.Answer) (s : State n) : Option (State n) :=
  match call, answer with
  | .lock mutex, _ =>
    if s.owner mutex = none then some { s with owner := Function.update s.owner mutex (some t) } else none
  | .unlock mutex, _ => some { s with owner := Function.update s.owner mutex none }
  | .loadCurrentChunkNo, answer => if answer = s.currentChunkNo then some s else none
  | .storeCurrentChunkNo chunkNo, _ => some { s with currentChunkNo := chunkNo }
  | .newNode chunkNo, answer =>
    if answer = s.allocated then some { s with
      links := { s.links with
        next := Function.update s.links.next answer none
        prev := Function.update s.links.prev answer none }
      chunkNo := Function.update s.chunkNo answer chunkNo
      encodedString := Function.update s.encodedString answer fun _ => 0
      allocated := s.allocated + 1 }
    else none
  | .loadChunkNo node, answer => if answer = s.chunkNo node then some s else none
  | .storeCode node i code, _ => some { s with
      encodedString := Function.update s.encodedString node (Function.update (s.encodedString node) i code) }
  | .loadCode node i, answer => if answer = s.encodedString node i then some s else none
  | .loadNext node, answer => if answer = s.links.next node then some s else none
  | .storeNext node target, _ =>
    some { s with links := { s.links with next := Function.update s.links.next node target } }
  | .loadPrev node, answer => if answer = s.links.prev node then some s else none
  | .storePrev node target, _ =>
    some { s with links := { s.links with prev := Function.update s.links.prev node target } }
  | .loadHead, answer => if answer = s.links.head then some s else none
  | .storeHead target, _ => some { s with links := { s.links with head := target } }
  | .loadTail, answer => if answer = s.links.tail then some s else none
  | .storeTail target, _ => some { s with links := { s.links with tail := target } }
  | .log _, _ => some s
  | .print file code, _ =>
    some { s with written := Function.update s.written file (s.written file ++ [code]) }
  | .exit, _ =>
    match t with
    | .encoder i => some { s with exited := Function.update s.exited i true }
    | .main => some s
  | .join i, _ => if s.exited i then some s else none
  | .goesOn, answer => answer.elim

abbrev EncoderProgram (n : Nat) := Program (Call n) Call.Answer

def Call.make {n : Nat} (call : Call n) : EncoderProgram n call.Answer := Program.request call

def machine (n : Nat) : Machine (Thread n) (Call n) Call.Answer (State n) := ⟨perform, fun _ _ _ => none⟩

section

variable {n : Nat}

def goesOn {α : Type} : EncoderProgram n α := .call .goesOn fun answer => nomatch answer

def charAt (string : List UInt8) (position : Nat) : UInt8 := string[position]?.getD 0

def maxChunkNo (string : List UInt8) : Nat := (string.length + encodeChunkSize - 1) / encodeChunkSize

def rounds (string : List UInt8) : Nat := maxChunkNo string + 1

def writeNewChunkLog (chunkNo : Nat) : EncoderProgram n Unit := do
  Call.make (.lock .write)
  let firstPos := chunkNo * encodeChunkSize
  Call.make (.log firstPos)
  Call.make (.log (firstPos + encodeChunkSize - 1))
  Call.make (.unlock .write)

def writeResultLog (result encodedSize : Nat) : EncoderProgram n Unit := do
  Call.make (.lock .write)
  let _ ← forFrom (fun i (_ : Unit) => do
    let code ← Call.make (.loadCode result i)
    Call.make (.log (UInt8.toNat code))
    return (.next () : LoopFlow Unit Empty)) encodedSize 0 ()
  Call.make (.unlock .write)

def getNextChunkNo : EncoderProgram n Nat := do
  Call.make (.lock .get)
  let chunkNo ← Call.loadCurrentChunkNo.make
  Call.make (.storeCurrentChunkNo (chunkNo + 1))
  Call.make (.unlock .get)
  return chunkNo

/-- The loop of `store_result` that looks for the node behind which the result belongs. -/
def findPlace (rounds result : Nat) : EncoderProgram n (Option Nat) := do
  let storeListTail ← Call.loadTail.make
  match ← forFrom (fun _ (currentNode : Option Nat) => do
      match currentNode with
      | none => return .exit none
      | some node =>
        let chunkNo ← Call.make (.loadChunkNo node)
        let resultNo ← Call.make (.loadChunkNo result)
        if chunkNo < resultNo then return .exit (some node)
        else return .next (← Call.make (.loadPrev node))) rounds 0 storeListTail with
  | .next _ => goesOn
  | .exit place => return place

/-- The branch of `store_result` for a node found. -/
def insertBehind (currentNode result : Nat) : EncoderProgram n Unit := do
  let tmpNode ← Call.make (.loadNext currentNode)
  Call.make (.storeNext currentNode (some result))
  Call.make (.storePrev result (some currentNode))
  Call.make (.storeNext result tmpNode)
  match tmpNode with
  | some node => Call.make (.storePrev node (some result))
  | none => Call.make (.storeTail (some result))

/-- The branch of `store_result` for an empty list or the lowest chunk number. -/
def insertAtHead (result : Nat) : EncoderProgram n Unit := do
  let tmpNode ← Call.loadHead.make
  Call.make (.storeHead (some result))
  Call.make (.storeNext result tmpNode)
  match tmpNode with
  | none => Call.make (.storeTail (some result))
  | some node => Call.make (.storePrev node (some result))

def insertAt (place : Option Nat) (result : Nat) : EncoderProgram n Unit :=
  match place with
  | some currentNode => insertBehind currentNode result
  | none => insertAtHead result

def storeResult (rounds result : Nat) : EncoderProgram n Unit := do
  Call.make (.lock .store)
  let place ← findPlace rounds result
  insertAt place result
  Call.make (.unlock .store)

/-- The loop of `encoder` over the characters of a chunk, with the number of characters encoded. -/
def encodeChunk (string : List UInt8) (chunkNo result : Nat) : EncoderProgram n Nat := do
  match ← forFrom (fun i (_ : Unit) => do
      let c := charAt string (chunkNo * encodeChunkSize + i)
      if c = 0 then return .exit i
      else
        Call.make (.storeCode result i (encodeChar c))
        return .next ()) encodeChunkSize 0 () with
  | .next () => return encodeChunkSize
  | .exit encodedSize => return encodedSize

def encoderRound (string : List UInt8) : EncoderProgram n (LoopFlow Unit Unit) := do
  let chunkNo ← getNextChunkNo
  if ¬ chunkNo < maxChunkNo string then return .exit ()
  writeNewChunkLog chunkNo
  let result ← Call.make (.newNode chunkNo)
  let encodedSize ← encodeChunk string chunkNo result
  storeResult (rounds string) result
  writeResultLog result encodedSize
  return .next ()

def encoder (string : List UInt8) : EncoderProgram n Unit := do
  match ← forFrom (fun _ (_ : Unit) => encoderRound string) (rounds string) 0 () with
  | .next () => goesOn
  | .exit () => Call.exit.make

/-- The codes of a node up to the first that is `NO_CODE`. -/
def printChunk (file : OutFile) (node : Nat) : EncoderProgram n Unit := do
  let _ ← forFrom (fun i (_ : Unit) => do
    let code ← Call.make (.loadCode node i)
    if code = noCode then return .exit ()
    else
      let code ← Call.make (.loadCode node i)
      Call.make (.print file code)
      return .next ()) encodeChunkSize 0 ()

def printTo (rounds : Nat) (file : OutFile) : EncoderProgram n Unit := do
  let storeListHead ← Call.loadHead.make
  match ← forFrom (fun _ (node : Option Nat) => do
      match node with
      | none => return .exit ()
      | some node =>
        printChunk file node
        return .next (← Call.make (.loadNext node))) rounds 0 storeListHead with
  | .next _ => goesOn
  | .exit () => return ()

def printEncodingResults (rounds : Nat) : List OutFile → EncoderProgram n Unit
  | [] => return ()
  | file :: files => do
    printTo rounds file
    printEncodingResults rounds files

def joinThreads (n : Nat) : Nat → EncoderProgram n Unit
  | 0 => return ()
  | count + 1 => do
    joinThreads n count
    if h : count < n then Call.make (.join ⟨count, h⟩)

/-- `files` of `print_encoding_results`: the output file is optional. -/
def filesOf (outputFile : Bool) : List OutFile := if outputFile then [.stdout, .outputFile] else [.stdout]

/-- From the first `pthread_join` on. -/
def main (string : List UInt8) (outputFile : Bool) : EncoderProgram n Unit := do
  joinThreads n n
  printEncodingResults (rounds string) (filesOf outputFile)

def start (n : Nat) (string : List UInt8) (outputFile : Bool) :
    Pool (Thread n) (Call n) Call.Answer (State n) where
  programs
    | .encoder _ => encoder string
    | .main => main string outputFile
  state := ⟨fun _ => none, 0, .empty, fun _ => 0, fun _ _ => 0, 0, fun _ => false, fun _ => []⟩
  history _ := []

abbrev Reach (n : Nat) (string : List UInt8) (outputFile : Bool) :
    Pool (Thread n) (Call n) Call.Answer (State n) → Prop :=
  Pool.Reach (machine n) (fun _ _ => True) (start n string outputFile)

end

end ArchCompSystems.Ihw4
