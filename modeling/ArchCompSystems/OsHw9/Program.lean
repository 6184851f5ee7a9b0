import ArchCompSystems.Library.Pool

namespace ArchCompSystems.OsHw9

open Library Library.Program

inductive Process where
  | parent
  | child
  deriving DecidableEq

def Process.other : Process → Process
  | .parent => .child
  | .child => .parent

def Process.name : Process → String
  | .parent => "parent"
  | .child => "child"

def maxMessageSize : Nat := 128

/-- `crash` stands for the failed assertion, `goesOn` for a loop that is cut off after a finite number of
    rounds. -/
inductive Call where
  | isRunning
  | semop (semOp : Int)
  | read (size : Nat)
  | printMessage (sender : Process) (string : List Char)
  | write (bytes : List Char)
  | perror (call : String)
  | sleep
  | crash
  | goesOn

/-- `false` and `none` stand for the result -1. -/
@[reducible] def Call.Answer : Call → Type
  | .isRunning | .semop _ => Bool
  | .read _ => Option (List Char)
  | .write _ => Option Nat
  | .printMessage _ _ | .perror _ | .sleep => Unit
  | .crash | .goesOn => Empty

abbrev HwProgram := Program Call Call.Answer

def Call.make (call : Call) : HwProgram call.Answer := request call

instance : IsEmpty (Call.Answer .crash) := inferInstanceAs (IsEmpty Empty)

instance : IsEmpty (Call.Answer .goesOn) := inferInstanceAs (IsEmpty Empty)

def unsignedDecimal (number : BitVec 32) : List Char := Nat.toDigits 10 number.toNat

def signedDecimal (number : BitVec 32) : List Char :=
  (if number.toInt < 0 then ['-'] else []) ++ Nat.toDigits 10 number.toInt.natAbs

def cString (buffer : List Char) : List Char := buffer.takeWhile (· ≠ '\x00')

-- irreducible, lest the texts are evaluated whenever two programs are compared
/-- What `sprintf` writes, with the null terminator. -/
@[irreducible] def someMessage (pid : Process → BitVec 32) (sender : Process) (messageCounter : BitVec 32) : List Char :=
  "Some message ".toList ++ unsignedDecimal messageCounter ++ " from ".toList ++ sender.name.toList ++
    "[pid=".toList ++ signedDecimal (pid sender) ++ "] to ".toList ++ sender.other.name.toList ++
    "[pid=".toList ++ signedDecimal (pid sender.other) ++ "]".toList ++ ['\x00']

structure Locals where
  readMessageBuffer : List Char
  messageCounter : BitVec 32

def printReceived (sender : Process) (bytes readMessageBuffer : List Char) : HwProgram Unit :=
  if bytes.length ≠ 1 then Call.make (.printMessage sender (cString readMessageBuffer)) else return ()

def sendNext (pid : Process → BitVec 32) (this : Process) (locals : Locals) : HwProgram (LoopFlow Locals Bool) :=
  let messageCounter := locals.messageCounter + 1
  let sendMessage := someMessage pid this messageCounter
  if maxMessageSize < sendMessage.length then unanswered .crash
  else do
    match ← Call.make (.write sendMessage) with
    | none =>
      Call.make (.perror "write")
      return .exit false
    | some _ =>
      if !(← Call.make (.semop 1)) then
        Call.make (.perror "semop")
        return .exit false
      Call.sleep.make
      return .next { locals with messageCounter }

/-- A round of `while (is_running)`; `true` is `EXIT_SUCCESS`. -/
def runRound (pid : Process → BitVec 32) (this : Process) (locals : Locals) :
    HwProgram (LoopFlow Locals Bool) := do
  if !(← Call.isRunning.make) then return .exit true
  if !(← Call.make (.semop (-1))) then
    Call.make (.perror "semop")
    return .exit false
  match ← Call.make (.read maxMessageSize) with
  | none =>
    Call.make (.perror "read")
    return .exit false
  | some bytes =>
    let readMessageBuffer := bytes ++ locals.readMessageBuffer.drop bytes.length
    printReceived this.other bytes readMessageBuffer
    sendNext pid this { locals with readMessageBuffer }

def runProcessImpl (pid : Process → BitVec 32) (this : Process) (rounds : Nat) : HwProgram Bool :=
  Program.loop .goesOn rounds ⟨List.replicate maxMessageSize '\x00', 0⟩ (runRound pid this)

def runChildProcessImpl (pid : Process → BitVec 32) : Nat → HwProgram Bool := runProcessImpl pid .child

def runMainProcessImpl (pid : Process → BitVec 32) : Nat → HwProgram Bool := runProcessImpl pid .parent

/-- What a process runs after `fork`, cut off after `rounds` rounds. -/
def processProgram (pid : Process → BitVec 32) (rounds : Nat) (this : Process) : HwProgram Unit := do
  let _ ← match this with
    | .parent => runMainProcessImpl pid rounds
    | .child => runChildProcessImpl pid rounds

structure Message where
  sender : Process
  bytes : List Char
  deriving DecidableEq

structure Receipt where
  reader : Process
  bytes : List Char
  deriving DecidableEq

/-- `written` and `received` record the messages of the processes and what their reads returned, oldest
    first. -/
structure State where
  semaphore : Nat
  pipe : List Char
  written : List Message
  received : List Receipt

/-- What `main` writes to the pipe at first. -/
def initialContent : List Char := ['\x00']

/-- After `main` has written the initial content and set the semaphore to 1. -/
def State.start : State := ⟨1, initialContent, [], []⟩

/-- No call fails, and `is_running` stays true. `semop` waits while the semaphore would become negative,
    and a read while the pipe is empty. -/
def perform (this : Process) (call : Call) (answer : call.Answer) (s : State) : Option State :=
  match call, answer with
  | .isRunning, answer => if answer then some s else none
  | .semop semOp, answer =>
    if answer ∧ 0 ≤ s.semaphore + semOp then some { s with semaphore := (s.semaphore + semOp).toNat } else none
  | .read size, answer =>
    if s.pipe ≠ [] ∧ answer = some (s.pipe.take size) then
      some { s with pipe := s.pipe.drop size, received := s.received ++ [⟨this, s.pipe.take size⟩] }
    else none
  | .write bytes, answer =>
    if answer = some bytes.length then
      some { s with pipe := s.pipe ++ bytes, written := s.written ++ [⟨this, bytes⟩] }
    else none
  | .printMessage _ _, _ | .perror _, _ | .sleep, _ => some s

def relay : Machine Process Call Call.Answer State := ⟨perform, fun _ _ _ => none⟩

abbrev Processes := Pool Process Call Call.Answer State

def processes (pid : Process → BitVec 32) (rounds : Nat) : Processes where
  programs := processProgram pid rounds
  state := .start
  history _ := []

end ArchCompSystems.OsHw9
