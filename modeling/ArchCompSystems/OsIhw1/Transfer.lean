import ArchCompSystems.Library.Files
import ArchCompSystems.Library.Machine
import ArchCompSystems.OsIhw1.Reversal

namespace ArchCompSystems.OsIhw1

open Library Library.Program Machine

inductive Side where
  | reading
  | writing
  deriving DecidableEq

/-- The files and the two channels: pipes in mark4, named ones in mark9, queues in mark10. -/
inductive Descriptor where
  | inputFile
  | outputFile
  | readerToProcessor (side : Side)
  | processorToWriter (side : Side)
  deriving DecidableEq

/-- The calls of the processes. `crash` stands for a failed assertion or an access outside of an
    array, `goesOn` for a loop that does not end within its rounds. -/
inductive Call where
  | open (d : Descriptor)
  | read (d : Descriptor) (size : Nat)
  | write (d : Descriptor) (bytes : List UInt8)
  | close (d : Descriptor)
  | mqUnlink (d : Descriptor)
  | printFailureMessage (failureMessage : String)
  | crash
  | goesOn

/-- `false` and `none` are negative results. -/
@[reducible] def Call.Answer : Call → Type
  | .open _ | .close _ => Bool
  | .read _ _ => Option (List UInt8)
  | .write _ _ => Option Nat
  | .mqUnlink _ | .printFailureMessage _ => Unit
  | .crash | .goesOn => Empty

abbrev TransferProgram := Program Call Call.Answer

def Call.make (call : Call) : TransferProgram call.Answer := request call

instance : IsEmpty (Call.Answer .crash) := inferInstanceAs (IsEmpty Empty)

instance : IsEmpty (Call.Answer .goesOn) := inferInstanceAs (IsEmpty Empty)

def printFailureMessage (failureMessage : String) : TransferProgram Unit :=
  Call.make (.printFailureMessage failureMessage)

def closeAll : List Descriptor → TransferProgram Unit
  | [] => return ()
  | d :: ds => do
    let _ ← Call.make (.close d)
    closeAll ds

namespace Mark4

def createDataProcessorImpl (startN endN : Nat) (stale : Chars) : TransferProgram (Bool × List Descriptor) := do
  if !(← Call.make (.close (.readerToProcessor .writing))) then
    printFailureMessage ("Data processor child: can't close writing side of the pipe [file reader] -> " ++
      "[text processor]")
    return (false, [.readerToProcessor .reading, .readerToProcessor .writing, .processorToWriter .reading,
      .processorToWriter .writing])
  if !(← Call.make (.close (.processorToWriter .reading))) then
    printFailureMessage ("Data processor child: can't close reading side of the pipe [text processor] " ++
      "-> [file writer]")
    return (false, [.readerToProcessor .reading, .processorToWriter .reading, .processorToWriter .writing])
  match ← Call.make (.read (.readerToProcessor .reading) (bufferSize - 1)) with
  | none =>
    printFailureMessage "Data processor child: can't read from pipe [file reader] -> [text processor]"
    return (false, [.readerToProcessor .reading, .processorToWriter .writing])
  | some bytes =>
    if bytes.length = 0 then
      printFailureMessage "Data processor child: empty input from pipe [file reader] -> [text processor]"
      return (false, [.readerToProcessor .reading, .processorToWriter .writing])
    let stringLength := bytes.length
    if endN ≥ stringLength then
      printFailureMessage "Data processor child: overflow: end index >= string length"
      return (false, [.readerToProcessor .reading, .processorToWriter .writing])
    match reverseSubstring bufferSize (readInto stale bytes) startN endN with
    | none => unanswered .crash
    | some readBuffer =>
      match ← Call.make (.write (.processorToWriter .writing) (written readBuffer stringLength)) with
      | none =>
        printFailureMessage ("Data processor child: can't send data to another process using pipe [text " ++
          "processor] -> [file writer]")
        return (false, [.readerToProcessor .reading, .processorToWriter .writing])
      | some _ =>
        if !(← Call.make (.close (.readerToProcessor .reading))) then
          printFailureMessage ("Data processor child: can't close reading side of the pipe [file reader] -> " ++
            "[text processor]")
          return (false, [.readerToProcessor .reading, .processorToWriter .writing])
        if !(← Call.make (.close (.processorToWriter .writing))) then
          printFailureMessage ("Data processor child: can't close writing side of the pipe [text processor] " ++
            "-> [file writer]")
          return (false, [.processorToWriter .writing])
        return (true, [])

/-- The child that `create_data_processor` forks; `true` is `EXIT_SUCCESS`. -/
def createDataProcessor (startN endN : Nat) (stale : Chars) : TransferProgram Bool := do
  let (result, descriptors) ← createDataProcessorImpl startN endN stale
  closeAll descriptors
  return result

def createFileWriterImpl (opened : Bool) : TransferProgram (Bool × List Descriptor) := do
  let writeFile := if opened then [Descriptor.outputFile] else []
  if !(← Call.make (.close (.processorToWriter .writing))) then
    printFailureMessage ("File writer child: can't close writing side of the pipe [text processor] -> " ++
      "[file writer]")
    return (false, writeFile ++ [.processorToWriter .reading, .processorToWriter .writing])
  if !opened then
    printFailureMessage "File writer child: can't open output file"
    return (false, [.processorToWriter .reading])
  match ← Call.make (.read (.processorToWriter .reading) (bufferSize - 1)) with
  | none =>
    printFailureMessage ("File writer child: can't read from the pipe [text processor] -> [file " ++
      "writer]")
    return (false, [.outputFile, .processorToWriter .reading])
  | some readBuffer =>
    match ← Call.make (.write .outputFile readBuffer) with
    | none =>
      printFailureMessage "File writer child: can't write to output file"
      return (false, [.outputFile, .processorToWriter .reading])
    | some _ =>
      if !(← Call.make (.close .outputFile)) then
        printFailureMessage "File writer child: can't close opened output file"
        return (false, [.outputFile, .processorToWriter .reading])
      if !(← Call.make (.close (.processorToWriter .reading))) then
        printFailureMessage ("File writer child: can't close reading side of the pipe [text processor] -> " ++
          "[file writer]")
        return (false, [.processorToWriter .reading])
      return (true, [])

/-- The child that `create_file_writer` forks. -/
def createFileWriter : TransferProgram Bool := do
  let opened ← Call.make (.open .outputFile)
  let (result, descriptors) ← createFileWriterImpl opened
  closeAll descriptors
  return result

end Mark4

namespace IoHandler

inductive Version where
  | mark9
  | mark10
  deriving DecidableEq

def Version.channel : Version → String
  | .mark9 => "fifo"
  | .mark10 => "queue"

structure Opened where
  readFile : Bool
  readerToProc : Bool
  writeFile : Bool
  processorToWriter : Bool

/-- A round of the loop of `run_impl`. -/
def runRound (version : Version) : TransferProgram (LoopFlow Unit Bool) := do
  match ← Call.make (.read .inputFile (transferBufferSize - 1)) with
  | none =>
    printFailureMessage "File reader: can't read from the input file"
    return .exit false
  | some readBuffer =>
    if readBuffer.length = 0 then return .exit true
    match ← Call.make (.write (.readerToProcessor .writing) readBuffer) with
    | none =>
      printFailureMessage ("File reader: can't send data to another process using " ++ version.channel ++
        " [file reader] -> [text processor]")
      return .exit false
    | some _ =>
      match ← Call.make (.read (.processorToWriter .reading) (transferBufferSize - 1)) with
      | none =>
        printFailureMessage ("File writer: can't read from the " ++ version.channel ++
          " [text processor] -> [file writer]")
        return .exit false
      | some readBuffer =>
        match ← Call.make (.write .outputFile readBuffer) with
        | none =>
          printFailureMessage "File writer: can't write to output file"
          return .exit false
        | some _ => return .next ()

def runLoop (version : Version) (rounds : Nat) : TransferProgram Bool :=
  Program.loop .goesOn rounds () fun () => runRound version

def runImpl (version : Version) (rounds : Nat) (opened : Opened) : TransferProgram Bool := do
  if !opened.readFile then
    printFailureMessage "File reader: can't open input file"
    return false
  if !opened.readerToProc then
    printFailureMessage ("File reader: can't open " ++ version.channel ++ " [file reader] -> [text processor]")
    return false
  if !opened.writeFile then
    printFailureMessage "File writer: can't open output file"
    return false
  if !opened.processorToWriter then
    printFailureMessage ("File writer: can't open " ++ version.channel ++ " [text processor] -> [file writer]")
    return false
  runLoop version rounds

def notifyEndOfCommunication (readerToProc : Bool) : TransferProgram Unit := do
  if readerToProc then
    let _ ← Call.make (.write (.readerToProcessor .writing) [endOfCommunicationChar])

/-- The calls of `open` and `mq_open` at the start of `run`, in the order of the version. -/
def openDescriptors : Version → TransferProgram Opened
  | .mark9 => do
    let readFile ← Call.make (.open .inputFile)
    let readerToProc ← Call.make (.open (.readerToProcessor .writing))
    let writeFile ← Call.make (.open .outputFile)
    let processorToWriter ← Call.make (.open (.processorToWriter .reading))
    return { readFile, readerToProc, writeFile, processorToWriter }
  | .mark10 => do
    let readFile ← Call.make (.open .inputFile)
    let writeFile ← Call.make (.open .outputFile)
    let readerToProc ← Call.make (.open (.readerToProcessor .writing))
    let processorToWriter ← Call.make (.open (.processorToWriter .reading))
    return { readFile, readerToProc, writeFile, processorToWriter }

def Version.closeReaderToProcMessage : Version → String
  | .mark9 => "File reader: can't close writing side of the fifo [file reader] -> [text processor]"
  | .mark10 => "File reader: can't close queue [file reader] -> [text processor]"

def Version.closeProcessorToWriterMessage : Version → String
  | .mark9 => "File writer: can't close opened fifo [text processor] -> [file writer]"
  | .mark10 => "File reader: can't close queue text processor] -> [file writer]"

/-- Closing at the end of `run`: a failure makes the result `false`. -/
def closeOpened (opened : Bool) (d : Descriptor) (failureMessage : String) (result : Bool) :
    TransferProgram Bool := do
  if opened then
    if !(← Call.make (.close d)) then
      printFailureMessage failureMessage
      return false
  return result

/-- `mq_unlink`, in mark10 only. -/
def unlinkOpened (version : Version) (opened : Bool) (d : Descriptor) : TransferProgram Unit := do
  if version = .mark10 ∧ opened then
    Call.make (.mqUnlink d)

def closeDescriptors (version : Version) (opened : Opened) (result : Bool) : TransferProgram Bool := do
  let result ← closeOpened opened.readFile .inputFile "File reader: can't close opened input file" result
  let result ← closeOpened opened.readerToProc (.readerToProcessor .writing) version.closeReaderToProcMessage result
  unlinkOpened version opened.readerToProc (.readerToProcessor .writing)
  let result ← closeOpened opened.writeFile .outputFile "File writer: can't close opened output file" result
  let result ← closeOpened opened.processorToWriter (.processorToWriter .reading)
    version.closeProcessorToWriterMessage result
  unlinkOpened version opened.processorToWriter (.processorToWriter .reading)
  return result

def run (version : Version) (rounds : Nat) : TransferProgram Bool := do
  let opened ← openDescriptors version
  let result ← runImpl version rounds opened
  notifyEndOfCommunication opened.readerToProc
  closeDescriptors version opened result

end IoHandler

/-- What a process sees and leaves: what its reads return, the messages it sent into its channel, its
    output file, how often it wrote to it, and the errors it reported. -/
structure Transfer where
  arriving : Descriptor → List (List UInt8)
  sent : List (List UInt8)
  output : Option (OpenFile UInt8)
  writes : Nat
  failures : List String

/-- A read returns the next piece that arrives, as far as it is asked for. At its end the input file
    gives nothing, while a read from a channel waits. -/
def Transfer.read (transfer : Transfer) (d : Descriptor) (size : Nat) (bytes : List UInt8) : Option Transfer :=
  match transfer.arriving d with
  | [] => if d = .inputFile ∧ bytes = [] then some transfer else none
  | piece :: pieces =>
    if bytes = piece.take size then
      some { transfer with
        arriving := Function.update transfer.arriving d
          (if piece.length ≤ size then pieces else piece.drop size :: pieces) }
    else none

def Transfer.write (portions : Portions) (transfer : Transfer) (d : Descriptor) (bytes : List UInt8)
    (count : Nat) : Option Transfer :=
  if d = .outputFile then
    if count = min bytes.length (portions.most transfer.writes) then
      transfer.output.map fun file =>
        { transfer with output := some (file.write (bytes.take count)), writes := transfer.writes + 1 }
    else none
  else if count = bytes.length then some { transfer with sent := transfer.sent ++ [bytes] } else none

def perform (portions : Portions) : (c : Call) → c.Answer → Transfer → Option Transfer
  | .open d, opened, transfer =>
    if d = .outputFile ∧ opened then
      some { transfer with output := some (.create (transfer.output.map OpenFile.content)) }
    else some transfer
  | .read _ _, none, transfer => some transfer
  | .read d size, some bytes, transfer => transfer.read d size bytes
  | .write _ _, none, transfer => some transfer
  | .write d bytes, some count, transfer => transfer.write portions d bytes count
  | .close _, _, transfer => some transfer
  | .mqUnlink _, _, transfer => some transfer
  | .printFailureMessage failureMessage, _, transfer =>
    some { transfer with failures := transfer.failures ++ [failureMessage] }

def transferring (portions : Portions) : Machine Unit Call Call.Answer Transfer where
  perform _ := perform portions
  cut _ _ := some

def Call.Fails : (c : Call) → c.Answer → Prop
  | .open _, opened => opened = false
  | .close _, closed => closed = false
  | .read _ _, answer => answer = none
  | .write _ _, answer => answer = none
  | _, _ => False

instance (c : Call) (answer : c.Answer) : Decidable (c.Fails answer) :=
  match c, answer with
  | .open _, opened => inferInstanceAs (Decidable (opened = false))
  | .close _, closed => inferInstanceAs (Decidable (closed = false))
  | .read _ _, bytes => inferInstanceAs (Decidable (bytes = none))
  | .write _ _, count => inferInstanceAs (Decidable (count = none))
  | .mqUnlink _, _ => isFalse id
  | .printFailureMessage _, _ => isFalse id
  | .crash, _ => isFalse id
  | .goesOn, _ => isFalse id

def unfailing (portions : Portions) : Machine Unit Call Call.Answer Transfer :=
  (transferring portions).restrict fun _ c answer => ¬ c.Fails answer

section

variable {portions : Portions} {transfer : Transfer} {d : Descriptor}

theorem surely_close {post : Bool → Transfer → Prop} (holds : post true transfer) :
    (unfailing portions).Surely () (Call.make (.close d)) post transfer := by
  refine ⟨true, transfer, rfl, ?_, holds⟩
  rintro (_ | _) after performed
  · cases performed
  · rfl

theorem surely_printFailureMessage {failureMessage : String} {post : Unit → Transfer → Prop}
    (holds : post () { transfer with failures := transfer.failures ++ [failureMessage] }) :
    (unfailing portions).Surely () (printFailureMessage failureMessage) post transfer :=
  ⟨(), _, rfl, fun _ _ _ => rfl, holds⟩

theorem surely_read {size : Nat} {piece : List UInt8} {pieces : List (List UInt8)}
    {post : Option (List UInt8) → Transfer → Prop} (arriving : transfer.arriving d = piece :: pieces)
    (small : piece.length ≤ size)
    (holds : post (some piece) { transfer with arriving := Function.update transfer.arriving d pieces }) :
    (unfailing portions).Surely () (Call.make (.read d size)) post transfer := by
  have answer : ∀ bytes, transfer.read d size bytes = if bytes = piece then
      some { transfer with arriving := Function.update transfer.arriving d pieces } else none := by
    intro bytes
    rw [Transfer.read, arriving]
    simp only [List.take_of_length_le small, if_pos small]
  refine ⟨some piece, _, (answer piece).trans (if_pos rfl), ?_, holds⟩
  rintro (_ | bytes) after performed
  · cases performed
  · have same : transfer.read d size bytes = some after := performed
    rw [answer] at same
    rw [(Option.ite_none_right_eq_some.mp same).1]

theorem surely_send {bytes : List UInt8} {post : Option Nat → Transfer → Prop} (other : d ≠ .outputFile)
    (holds : post (some bytes.length) { transfer with sent := transfer.sent ++ [bytes] }) :
    (unfailing portions).Surely () (Call.make (.write d bytes)) post transfer := by
  have answer : ∀ count, transfer.write portions d bytes count = if count = bytes.length then
      some { transfer with sent := transfer.sent ++ [bytes] } else none := by
    intro count
    rw [Transfer.write, if_neg other]
  refine ⟨some bytes.length, _, (answer _).trans (if_pos rfl), ?_, holds⟩
  rintro (_ | count) after performed
  · cases performed
  · have same : transfer.write portions d bytes count = some after := performed
    rw [answer] at same
    rw [(Option.ite_none_right_eq_some.mp same).1]

theorem surely_openOutput {post : Bool → Transfer → Prop}
    (holds : post true { transfer with output := some (.create (transfer.output.map OpenFile.content)) }) :
    (unfailing portions).Surely () (Call.make (.open .outputFile)) post transfer := by
  refine ⟨true, _, rfl, ?_, holds⟩
  rintro (_ | _) after performed
  · cases performed
  · rfl

theorem surely_open {post : Bool → Transfer → Prop} (other : d ≠ .outputFile) (holds : post true transfer) :
    (unfailing portions).Surely () (Call.make (.open d)) post transfer := by
  refine ⟨true, transfer, if_neg fun output => other output.1, ?_, holds⟩
  rintro (_ | _) after performed
  · cases performed
  · rfl

theorem surely_readEnd {size : Nat} {post : Option (List UInt8) → Transfer → Prop}
    (arriving : transfer.arriving .inputFile = []) (holds : post (some []) transfer) :
    (unfailing portions).Surely () (Call.make (.read .inputFile size)) post transfer := by
  have answer : ∀ bytes, transfer.read .inputFile size bytes = if bytes = [] then some transfer else none := by
    intro bytes
    rw [Transfer.read, arriving]
    simp only [true_and]
  refine ⟨some [], _, (answer []).trans (if_pos rfl), ?_, holds⟩
  rintro (_ | bytes) after performed
  · cases performed
  · have same : transfer.read .inputFile size bytes = some after := performed
    rw [answer] at same
    rw [(Option.ite_none_right_eq_some.mp same).1]

/-- The output file after its next write. -/
def Transfer.written (portions : Portions) (transfer : Transfer) (file : OpenFile UInt8) (bytes : List UInt8) :
    Transfer :=
  { transfer with
    output := some (file.write (bytes.take (portions.most transfer.writes)))
    writes := transfer.writes + 1 }

theorem perform_writeOutput {file : OpenFile UInt8} {bytes : List UInt8} {count : Nat}
    (opened : transfer.output = some file) : transfer.write portions .outputFile bytes count =
      if count = min bytes.length (portions.most transfer.writes) then
        some (transfer.written portions file bytes) else none := by
  rw [Transfer.write, if_pos rfl, opened, Option.map_some]
  split_ifs with accepted
  · rw [accepted, Nat.min_comm, ← List.take_eq_take_min]
    rfl
  · rfl

theorem surely_writeOutput {file : OpenFile UInt8} {bytes : List UInt8} {post : Option Nat → Transfer → Prop}
    (opened : transfer.output = some file)
    (holds : ∀ count, post (some count) (transfer.written portions file bytes)) :
    (unfailing portions).Surely () (Call.make (.write .outputFile bytes)) post transfer := by
  refine ⟨some _, _, (perform_writeOutput opened).trans (if_pos rfl), ?_, holds _⟩
  rintro (_ | count) after performed
  · cases performed
  · have same : transfer.write portions .outputFile bytes count = some after := performed
    rw [perform_writeOutput opened] at same
    rw [(Option.ite_none_right_eq_some.mp same).1]

theorem surely_closeAll {ds : List Descriptor} {post : Unit → Transfer → Prop} (holds : post () transfer) :
    (unfailing portions).Surely () (closeAll ds) post transfer := by
  induction ds with
  | nil => exact holds
  | cons d ds ih => exact surely_bind.mpr (surely_close ih)

end

end ArchCompSystems.OsIhw1
