import ArchCompSystems.Library.Pool
import ArchCompSystems.Library.Signals

namespace ArchCompSystems.OsHw5

open Library Library.Program

inductive Signal where
  | sigusr1
  | sigusr2
  deriving DecidableEq

abbrev receivedApproveSignal : Signal := .sigusr1

abbrev readySignal : Signal := .sigusr2

abbrev zeroBitSignal : Signal := .sigusr1

abbrev oneBitSignal : Signal := .sigusr2

/-- The two processes; each stands for its process id too. -/
inductive Process where
  | sender
  | receiver
  deriving DecidableEq

abbrev Thread := Process × Context Signal

/-- The calls and memory accesses of the processes. A user types an id into `readPid` that a process
    has printed. `suspend` and `resume` are the two halves of `pause`; `enterHandler` and
    `leaveHandler` begin and end the handling of one signal. -/
inductive Call where
  | setupSignalHandlers
  | printPid
  | readPid
  | getpid
  | getpgid (pid : Process)
  | kill (pid : Process) (signal : Signal)
  | enterHandler
  | leaveHandler
  | suspend
  | resume
  | semInit (value : Nat)
  | semPost
  | semWait
  | semDestroy
  | sleep
  | loadReady
  | storeReady
  | loadOtherPid
  | storeOtherPid (pid : Process)
  | loadReadNumber
  | storeReadNumber (number : BitVec 32)
  | loadWriteBit
  | storeWriteBit (bit : BitVec 32)
  | printBit (bit : BitVec 32)
  | printResult (number : BitVec 32)
  | abort
  | exit
  | goesOn

/-- A loop cut off at a finite number of rounds (`goesOn`) has no answer. -/
@[reducible] def Call.Answer : Call → Type
  | .readPid | .getpid => Process
  | .getpgid _ | .loadReady => Bool
  | .loadOtherPid => Option Process
  | .loadReadNumber | .loadWriteBit => BitVec 32
  | .goesOn => Empty
  | .setupSignalHandlers | .printPid | .kill _ _ | .enterHandler | .leaveHandler | .suspend | .resume
  | .semInit _ | .semPost | .semWait | .semDestroy | .sleep | .storeReady | .storeOtherPid _
  | .storeReadNumber _ | .storeWriteBit _ | .printBit _ | .printResult _ | .abort | .exit => Unit

abbrev HwProgram := Program Call Call.Answer

def Call.make (call : Call) : HwProgram call.Answer := request call

instance : IsEmpty (Call.Answer .goesOn) := inferInstanceAs (IsEmpty Empty)

def loop {γ : Type} (rounds : Nat) (round : HwProgram (LoopFlow Unit γ)) : HwProgram γ :=
  Program.loop .goesOn rounds () fun () => round

def checkProcessId : Option Process → HwProgram Bool
  | none => return false
  | some pid => do
    if !(← Call.make (.getpgid pid)) then return false
    return pid ≠ (← Call.getpid.make)

def sendReadySignal (otherPid : Process) : HwProgram Unit := Call.make (.kill otherPid readySignal)

def pause : HwProgram Unit := do
  Call.suspend.make
  Call.resume.make

/-- `while (!other_process_ready) pause()`. -/
def waitUntilReady (rounds : Nat) : HwProgram Unit :=
  loop rounds do
    if ← Call.loadReady.make then return .exit ()
    pause
    return .next ()

/-- `sizeof(int32_t) * CHAR_BIT`. -/
def bitsOfNumber : Nat := 32

namespace Sender

def approveSignalHandler (signal : Signal) : HwProgram Unit := do
  if signal = receivedApproveSignal then Call.semPost.make

def readySignalHandler (signal : Signal) : HwProgram Unit := do
  if signal = readySignal then Call.storeReady.make

def handler : Signal → HwProgram Unit
  | .sigusr1 => approveSignalHandler .sigusr1
  | .sigusr2 => readySignalHandler .sigusr2

def initProgramState : HwProgram Unit := Call.make (.semInit 1)

def deinitProgramState : HwProgram Unit := Call.semDestroy.make

def bitToSignal (bit : BitVec 32) : Signal := if bit = 0 then zeroBitSignal else oneBitSignal

def sendLastBit (otherPid : Process) (number : BitVec 32) : HwProgram Unit :=
  Call.make (.kill otherPid (bitToSignal (number &&& 1)))

def waitForApproval : HwProgram Unit := do
  Call.semWait.make
  Call.sleep.make

def readOtherPid (rounds : Nat) : HwProgram Process :=
  loop rounds do
    let otherPid ← Call.readPid.make
    if ← checkProcessId (some otherPid) then return .exit otherPid
    return .next ()

def sendNumber (otherPid : Process) (number : BitVec 32) : HwProgram Unit := do
  let _ ← forFrom (fun _ numberToSend => do
    sendLastBit otherPid numberToSend
    waitForApproval
    return (.next (numberToSend >>> 1) : LoopFlow (BitVec 32) Empty)) bitsOfNumber 0 number

/-- `main` of the sender, to which the user gives `number`. -/
def main (rounds : Nat) (number : BitVec 32) : HwProgram Unit := do
  Call.setupSignalHandlers.make
  initProgramState
  Call.printPid.make
  let otherPid ← readOtherPid rounds
  sendReadySignal otherPid
  waitUntilReady rounds
  sendNumber otherPid number
  deinitProgramState
  Call.exit.make

end Sender

namespace Receiver

/-- `assert(check_process_id(program_state.other_pid))`. -/
def assertOtherPid : HwProgram Unit := do
  if !(← checkProcessId (← Call.loadOtherPid.make)) then
    Call.abort.make
    unanswered .goesOn

def receiveBit (signal : Signal) : HwProgram Unit := do
  let bit : BitVec 32 := if signal = oneBitSignal then 1 else 0
  let readNumber ← Call.loadReadNumber.make
  let writeBit ← Call.loadWriteBit.make
  Call.make (.storeReadNumber (readNumber ||| bit <<< writeBit))
  let writeBit ← Call.loadWriteBit.make
  Call.make (.storeWriteBit (writeBit + 1))
  Call.make (.printBit bit)
  assertOtherPid
  match ← Call.loadOtherPid.make with
  | none => return
  | some otherPid => Call.make (.kill otherPid receivedApproveSignal)

def signalHandler (signal : Signal) : HwProgram Unit := do
  if signal ≠ zeroBitSignal ∧ signal ≠ oneBitSignal then return
  if signal = readySignal then
    if !(← Call.loadReady.make) then
      Call.storeReady.make
      return
  receiveBit signal

def readOtherPid (rounds : Nat) : HwProgram Unit :=
  loop rounds do
    Call.make (.storeOtherPid (← Call.readPid.make))
    if ← checkProcessId (← Call.loadOtherPid.make) then return .exit ()
    return .next ()

/-- `while (write_bit < sizeof(int32_t) * CHAR_BIT) pause()`. -/
def waitForBits (rounds : Nat) : HwProgram Unit :=
  loop rounds do
    let writeBit ← Call.loadWriteBit.make
    if writeBit.toNat ≥ bitsOfNumber then return .exit ()
    pause
    return .next ()

def main (rounds : Nat) : HwProgram Unit := do
  Call.setupSignalHandlers.make
  Call.printPid.make
  readOtherPid rounds
  match ← Call.loadOtherPid.make with
  | none => return
  | some otherPid =>
    sendReadySignal otherPid
    waitUntilReady rounds
    waitForBits rounds
    Call.make (.printResult (← Call.loadReadNumber.make))
    Call.exit.make

end Receiver

/-- What each process has; `sent` are the signals that it has sent so far. -/
structure ProcessState where
  signals : Signals Signal
  installed : Bool
  shown : Bool
  ended : Bool
  suspended : Bool
  otherProcessReady : Bool
  sent : List Signal

def ProcessState.initial : ProcessState := ⟨.initial, false, false, false, false, false, []⟩

/-- `sem` is of the sender, `otherPid`, `readNumber` and `writeBit` of the receiver, which has
    `printed` its result. -/
structure State where
  sender : ProcessState
  receiver : ProcessState
  sem : Nat
  otherPid : Option Process
  readNumber : BitVec 32
  writeBit : BitVec 32
  printed : Option (BitVec 32)

namespace State

def initial : State := ⟨.initial, .initial, 0, none, 0, 0, none⟩

def of (s : State) : Process → ProcessState
  | .sender => s.sender
  | .receiver => s.receiver

def modify (s : State) (p : Process) (change : ProcessState → ProcessState) : State :=
  match p with
  | .sender => { s with sender := change s.sender }
  | .receiver => { s with receiver := change s.receiver }

end State

def ProcessState.raise (p : ProcessState) (signal : Signal) : ProcessState :=
  if p.installed then { p with signals := p.signals.raise signal } else { p with ended := true }

def ProcessState.leave (p : ProcessState) : ProcessState :=
  { p with signals := p.signals.leave, suspended := false }

/-- `none` where the call has to wait, and for answers that cannot come. -/
def performRunning (p : Process) (call : Call) (answer : call.Answer) (s : State) : Option State :=
  match call, answer with
  | .setupSignalHandlers, _ => some (s.modify p fun q => { q with installed := true })
  | .printPid, _ => some (s.modify p fun q => { q with shown := true })
  | .readPid, pid => if (s.of pid).shown then some s else none
  | .getpid, pid => if pid = p then some s else none
  | .getpgid pid, exists' => if exists' = !(s.of pid).ended then some s else none
  | .kill pid signal, _ =>
    some ((s.modify pid fun q => q.raise signal).modify p fun q => { q with sent := q.sent ++ [signal] })
  | .leaveHandler, _ => some (s.modify p .leave)
  | .suspend, _ => some (s.modify p fun q => { q with suspended := true })
  | .resume, _ => if (s.of p).suspended then none else some s
  | .semInit value, _ => some { s with sem := value }
  | .semPost, _ => some { s with sem := s.sem + 1 }
  | .semWait, _ => if 0 < s.sem then some { s with sem := s.sem - 1 } else none
  | .loadReady, ready => if ready = (s.of p).otherProcessReady then some s else none
  | .storeReady, _ => some (s.modify p fun q => { q with otherProcessReady := true })
  | .loadOtherPid, pid => if pid = s.otherPid then some s else none
  | .storeOtherPid pid, _ => some { s with otherPid := some pid }
  | .loadReadNumber, number => if number = s.readNumber then some s else none
  | .storeReadNumber number, _ => some { s with readNumber := number }
  | .loadWriteBit, bit => if bit = s.writeBit then some s else none
  | .storeWriteBit bit, _ => some { s with writeBit := bit }
  | .printResult number, _ => some { s with printed := some number }
  | .abort, _ | .exit, _ => some (s.modify p fun q => { q with ended := true })
  | .semDestroy, _ | .sleep, _ | .printBit _, _ => some s
  | .enterHandler, _ => none
  | .goesOn, answer => nomatch answer

/-- The innermost handler of a process runs, or its program; a pending signal may interrupt it at any
    point. -/
def perform (t : Thread) (call : Call) (answer : call.Answer) (s : State) : Option State :=
  if (s.of t.1).ended then none
  else match t.2, call, answer with
  | .handler signal, .enterHandler, _ =>
    ((s.of t.1).signals.enter signal).map fun signals => s.modify t.1 fun q => { q with signals }
  | context, call, answer => if (s.of t.1).signals.runs context then performRunning t.1 call answer s else none

def machine : Machine Thread Call Call.Answer State := ⟨perform, fun _ _ _ => none⟩

/-- A handler runs each time that its signal is caught, here at most `rounds` times. -/
def handlerProgram (rounds : Nat) (handler : Signal → HwProgram Unit) (signal : Signal) : HwProgram Unit :=
  loop rounds do
    Call.enterHandler.make
    handler signal
    Call.leaveHandler.make
    return .next ()

def threadProgram (rounds : Nat) (number : BitVec 32) : Thread → HwProgram Unit
  | (.sender, .main) => Sender.main rounds number
  | (.sender, .handler signal) => handlerProgram rounds Sender.handler signal
  | (.receiver, .main) => Receiver.main rounds
  | (.receiver, .handler signal) => handlerProgram rounds Receiver.signalHandler signal

/-- Both programs at their start; the user of the sender gives it `number`. -/
def start (rounds : Nat) (number : BitVec 32) : Pool Thread Call Call.Answer State where
  programs := threadProgram rounds number
  state := .initial
  history _ := []

end ArchCompSystems.OsHw5
