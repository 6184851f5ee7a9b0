import ArchCompSystems.Ihw4.Program

namespace ArchCompSystems.Ihw4.Versions

open Library Library.Program

/-- The directories version_1 (mutexes and a list), version_2 (atomics and an array) and version_3
    (critical sections and an array). -/
inductive Version where
  | version1
  | version2
  | version3
  deriving DecidableEq

def text (s : String) : List UInt8 := s.toList.map fun c => UInt8.ofNat c.toNat

def decimal (value : Nat) : List UInt8 := (Nat.toDigits 10 value).map fun c => UInt8.ofNat c.toNat

def codeText (code : Code) : List UInt8 := decimal code.toNat ++ text " "

def newChunkLog (firstPos lastPos : Nat) : List UInt8 :=
  text "> Starting encoding new chunk of the string (substr[" ++ decimal firstPos ++ text "; " ++
    decimal lastPos ++ text "])\n"

def resultHeader (quote : List UInt8) : List UInt8 :=
  text "\n> Result of encoding substring " ++ quote ++ text ":\n> "

def wholeHeader (string : List UInt8) : List UInt8 :=
  text "\n> Result of encoding whole string " ++ string ++ text ":\n> "

/-- `original_string` in the header of a result: `"%.*s"` is cut off, `"%s"` goes on to the end of
    the string. -/
def quote (version : Version) (file : OutFile) (string : List UInt8) (chunkNo encodedSize : Nat) : List UInt8 :=
  let originalString := string.drop (chunkNo * encodeChunkSize)
  match version, file with
  | .version3, _ | _, .stdout => originalString.take encodedSize
  | _, .outputFile => originalString

/-- Those of the first version, in which `print` is `fprintf(outfile, "%u ", code)`, and those of the
    other two. The chunk counter has one name in all of them. -/
inductive Call (n : Nat) where
  | shared (call : Ihw4.Call n)
  | printText (file : OutFile) (bytes : List UInt8)
  | fetchAddChunkNo
  | fetchAddArraySize
  | enterCritical
  | leaveCritical
  | loadArraySize
  | storeArraySize (size : Nat)
  | storeResult (index node : Nat)
  | loadResult (index : Nat)
  | qsort (size : Nat)

@[reducible] def Call.Answer {n : Nat} : Call n → Type
  | .shared c => c.Answer
  | .fetchAddChunkNo | .fetchAddArraySize | .loadArraySize => Nat
  | .loadResult _ => Option Nat
  | .qsort _ => List (Option Nat)
  | .printText _ _ | .enterCritical | .leaveCritical | .storeArraySize _ | .storeResult _ _ => Unit

structure State (n : Nat) where
  shared : Ihw4.State n
  critical : Option (Thread n)
  currentArraySize : Nat
  resultsArray : Nat → Option Nat
  output : OutFile → List UInt8

/-- `(int)(int64_t)(first_result->chunk_no - second_result->chunk_no)` -/
def resultsComparer (chunkNo : Nat → Nat) (first second : Option Nat) : Int :=
  let number := fun result : Option Nat => BitVec.ofNat 64 ((result.map chunkNo).getD 0)
  ((number first - number second).setWidth 32).toInt

/-- What `qsort` relies on: a strict weak order with one sign for each direction. -/
def Consistent {α : Type} (compare : α → α → Int) (elements : List α) : Prop :=
  ∀ a ∈ elements, ∀ b ∈ elements, (compare a b < 0 ↔ 0 < compare b a) ∧
    ∀ c ∈ elements, ¬ compare a b < 0 → ¬ compare b c < 0 → ¬ compare a c < 0

instance {α : Type} (compare : α → α → Int) (elements : List α) : Decidable (Consistent compare elements) :=
  inferInstanceAs (Decidable (∀ a ∈ elements, ∀ b ∈ elements, (compare a b < 0 ↔ 0 < compare b a) ∧
    ∀ c ∈ elements, ¬ compare a b < 0 → ¬ compare b c < 0 → ¬ compare a c < 0))

def Sorts {α : Type} (compare : α → α → Int) (elements sorted : List α) : Prop :=
  sorted.Perm elements ∧ (Consistent compare elements → sorted.Pairwise fun a b => compare a b ≤ 0)

instance {α : Type} [DecidableEq α] (compare : α → α → Int) (elements sorted : List α) :
    Decidable (Sorts compare elements sorted) :=
  inferInstanceAs (Decidable (_ ∧ (_ → _)))

def State.results {n : Nat} (s : State n) (size : Nat) : List (Option Nat) := (List.range size).map s.resultsArray

def perform {n : Nat} (t : Thread n) (call : Call n) (answer : call.Answer) (s : State n) : Option (State n) :=
  match call, answer with
  | .shared c, answer => (Ihw4.perform t c answer s.shared).map fun shared => { s with
      shared := shared
      output := match c with
        | .print file code => Function.update s.output file (s.output file ++ codeText code)
        | _ => s.output }
  | .printText file bytes, _ => some { s with output := Function.update s.output file (s.output file ++ bytes) }
  | .fetchAddChunkNo, answer =>
    if answer = s.shared.currentChunkNo then some { s with
      shared := { s.shared with currentChunkNo := answer + 1 } }
    else none
  | .fetchAddArraySize, answer =>
    if answer = s.currentArraySize then some { s with currentArraySize := answer + 1 } else none
  | .enterCritical, _ => if s.critical = none then some { s with critical := some t } else none
  | .leaveCritical, _ => some { s with critical := none }
  | .loadArraySize, answer => if answer = s.currentArraySize then some s else none
  | .storeArraySize size, _ => some { s with currentArraySize := size }
  | .storeResult index node, _ => some { s with resultsArray := Function.update s.resultsArray index (some node) }
  | .loadResult index, answer => if answer = s.resultsArray index then some s else none
  | .qsort size, sorted =>
    if Sorts (resultsComparer s.shared.chunkNo) (s.results size) sorted then some { s with
      resultsArray := fun i => if i < size then sorted[i]?.getD none else s.resultsArray i }
    else none

abbrev EncoderProgram (n : Nat) := Program (Call n) Call.Answer

def Call.make {n : Nat} (call : Call n) : EncoderProgram n call.Answer := Program.request call

def common {n : Nat} {α : Type} (program : Ihw4.EncoderProgram n α) : EncoderProgram n α :=
  program.lift Call.shared fun _ answer => answer

def machine (n : Nat) : Machine (Thread n) (Call n) Call.Answer (State n) := ⟨perform, fun _ _ _ => none⟩

section

variable {n : Nat}

def locked {α : Type} (mutex : Mutex) (body : EncoderProgram n α) : EncoderProgram n α := do
  Call.make (.shared (.lock mutex))
  let value ← body
  Call.make (.shared (.unlock mutex))
  return value

/-- `#pragma omp critical`; the sections have no names, so they exclude each other. -/
def critical {α : Type} (body : EncoderProgram n α) : EncoderProgram n α := do
  Call.enterCritical.make
  let value ← body
  Call.leaveCritical.make
  return value

/-- In the first two versions the functions lock `write_lock`, in the third the callers are in a
    critical section. -/
def writing (version : Version) (body : EncoderProgram n Unit) : EncoderProgram n Unit :=
  match version with
  | .version1 | .version2 => locked .write body
  | .version3 => critical body

def writeNewChunkLog (version : Version) (outputFile : Bool) (chunkNo : Nat) : EncoderProgram n Unit :=
  writing version do
    let firstPos := chunkNo * encodeChunkSize
    let lastPos := firstPos + encodeChunkSize - 1
    Call.make (.printText .stdout (newChunkLog firstPos lastPos))
    if outputFile then Call.make (.printText .outputFile (newChunkLog firstPos lastPos))

def writeResult (version : Version) (file : OutFile) (string : List UInt8) (chunkNo result encodedSize : Nat) :
    EncoderProgram n Unit := do
  Call.make (.printText file (resultHeader (quote version file string chunkNo encodedSize)))
  let _ ← forFrom (fun i (_ : Unit) => do
    let code ← Call.make (.shared (.loadCode result i))
    Call.make (.printText file (codeText code))
    return (.next () : LoopFlow Unit Empty)) encodedSize 0 ()
  Call.make (.printText file (text "\n"))

def writeResultLog (version : Version) (outputFile : Bool) (string : List UInt8)
    (chunkNo result encodedSize : Nat) : EncoderProgram n Unit :=
  writing version do
    writeResult version .stdout string chunkNo result encodedSize
    if outputFile then writeResult version .outputFile string chunkNo result encodedSize

def getNextChunkNo : Version → EncoderProgram n Nat
  | .version1 => common Ihw4.getNextChunkNo
  | .version2 => Call.fetchAddChunkNo.make
  | .version3 => critical do
    let chunkNo ← Call.make (.shared .loadCurrentChunkNo)
    Call.make (.shared (.storeCurrentChunkNo (chunkNo + 1)))
    return chunkNo

def storeResult (version : Version) (rounds result : Nat) : EncoderProgram n Unit :=
  match version with
  | .version1 => common (Ihw4.storeResult rounds result)
  | .version2 => do
    let index ← Call.fetchAddArraySize.make
    Call.make (.storeResult index result)
  | .version3 => do
    let index ← critical do
      let index ← Call.loadArraySize.make
      Call.make (.storeArraySize (index + 1))
      return index
    Call.make (.storeResult index result)

def encoderRound (version : Version) (string : List UInt8) (outputFile : Bool) :
    EncoderProgram n (LoopFlow Unit Unit) := do
  let chunkNo ← getNextChunkNo version
  if ¬ chunkNo < maxChunkNo string then return .exit ()
  writeNewChunkLog version outputFile chunkNo
  let result ← Call.make (.shared (.newNode chunkNo))
  let encodedSize ← common (encodeChunk string chunkNo result)
  storeResult version (rounds string) result
  writeResultLog version outputFile string chunkNo result encodedSize
  return .next ()

def encoder (version : Version) (string : List UInt8) (outputFile : Bool) : EncoderProgram n Unit := do
  match ← forFrom (fun _ (_ : Unit) => encoderRound version string outputFile) (rounds string) 0 () with
  | .next () => common goesOn
  | .exit () => Call.make (.shared .exit)

/-- The loop of `print_encoding_results` over the array. -/
def printResults (arraySize : Nat) (file : OutFile) : EncoderProgram n Unit := do
  let _ ← forFrom (fun i (_ : Unit) => do
    match ← Call.make (.loadResult i) with
    | none => return (.next () : LoopFlow Unit Empty)
    | some result =>
      common (printChunk file result)
      return .next ()) arraySize 0 ()

def printEncodingResults (string : List UInt8) (printCodes : OutFile → EncoderProgram n Unit) :
    List OutFile → EncoderProgram n Unit
  | [] => return ()
  | file :: files => do
    Call.make (.printText file (wholeHeader string))
    printCodes file
    Call.make (.printText file (text "\n"))
    printEncodingResults string printCodes files

def sortResults : EncoderProgram n Unit := do
  let size ← Call.loadArraySize.make
  let _ ← Call.make (.qsort size)

def printAll (version : Version) (string : List UInt8) (outputFile : Bool) : EncoderProgram n Unit :=
  match version with
  | .version1 => printEncodingResults string (fun file => common (printTo (rounds string) file)) (filesOf outputFile)
  | .version2 => do
    sortResults
    printEncodingResults string (fun file => do
      let arraySize ← Call.loadArraySize.make
      printResults arraySize file) (filesOf outputFile)
  | .version3 => do
    sortResults
    let arraySize ← Call.loadArraySize.make
    printEncodingResults string (printResults arraySize) (filesOf outputFile)

/-- From the first `pthread_join` or the end of the parallel region on. -/
def main (version : Version) (string : List UInt8) (outputFile : Bool) : EncoderProgram n Unit := do
  common (joinThreads n n)
  printAll version string outputFile

def start (n : Nat) (version : Version) (string : List UInt8) (outputFile : Bool) :
    Pool (Thread n) (Call n) Call.Answer (State n) where
  programs
    | .encoder _ => encoder version string outputFile
    | .main => main version string outputFile
  state := ⟨(Ihw4.start n string outputFile).state, none, 0, fun _ => none, fun _ => []⟩
  history _ := []

abbrev Reach (n : Nat) (version : Version) (string : List UInt8) (outputFile : Bool) :
    Pool (Thread n) (Call n) Call.Answer (State n) → Prop :=
  Pool.Reach (machine n) (fun _ _ => True) (start n version string outputFile)

end

end ArchCompSystems.Ihw4.Versions
