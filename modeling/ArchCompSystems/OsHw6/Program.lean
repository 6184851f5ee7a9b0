import ArchCompSystems.Library.Pool

namespace ArchCompSystems.OsHw6

open Library Library.Program

inductive MessageType where
  | emptyMessage
  | newNumber
  | serverShutdown
  | clientShutdown
  | readyToRemoveSegment
  | serverSentProcessId
  | clientSentProcessId
  | serverGotProcessId
  deriving DecidableEq

structure Message where
  type : MessageType
  randNum : Int64
  deriving DecidableEq

inductive Party where
  | server
  | client
  deriving DecidableEq

def Party.sent : Party → MessageType
  | .server => .serverSentProcessId
  | .client => .clientSentProcessId

/-- `user` is whoever sends `SIGINT`. -/
inductive Agent where
  | party (p : Party)
  | user
  deriving DecidableEq

/-- `goesOn` stands for a loop that is cut off after a finite number of rounds. -/
inductive Call where
  | isRunning
  | stopRunning
  | loadType
  | storeType (type : MessageType)
  | loadRandNum
  | storeRandNum (randNum : Int64)
  | getpid
  | kill (pid : Int32)
  | time
  | random
  | printNumber (randNum : Int64)
  | sleepNanos
  | interrupt (p : Party)
  | goesOn

structure Receivers where
  server : Bool
  client : Bool
  deriving DecidableEq

def Receivers.has (receivers : Receivers) : Party → Bool
  | .server => receivers.server
  | .client => receivers.client

@[reducible] def Call.Answer : Call → Type
  | .isRunning => Bool
  | .loadType => MessageType
  | .loadRandNum | .random => Int64
  | .getpid => Int32
  | .kill _ => Receivers
  | .time => Int
  | .stopRunning | .storeType _ | .storeRandNum _ | .printNumber _ | .sleepNanos | .interrupt _ => Unit
  | .goesOn => Empty

abbrev HwProgram := Program Call Call.Answer

def Call.make (call : Call) : HwProgram call.Answer := request call

instance : IsEmpty (Call.Answer .goesOn) := inferInstanceAs (IsEmpty Empty)

/-- A round of `while (is_running && message_ptr->type != expected)`. -/
def awaitRound (expected : MessageType) : HwProgram (LoopFlow Unit Unit) := do
  if !(← Call.isRunning.make) then return .exit ()
  if (← Call.loadType.make) = expected then return .exit ()
  Call.sleepNanos.make
  return .next ()

def awaitType (rounds : Nat) (expected : MessageType) : HwProgram Unit :=
  Program.loop .goesOn rounds () fun _ => awaitRound expected

def sendProcessId (p : Party) : HwProgram Unit := do
  let pid ← Call.getpid.make
  Call.make (.storeRandNum pid.toInt64)
  Call.make (.storeType p.sent)

def exchangeProcessIdsWithClient (rounds : Nat) : HwProgram Int32 := do
  sendProcessId .server
  awaitType rounds .clientSentProcessId
  let clientId ← Call.loadRandNum.make
  Call.make (.storeType .serverGotProcessId)
  return clientId.toInt32

def exchangeProcessIdsWithServer (rounds : Nat) : HwProgram Int32 := do
  awaitType rounds .serverSentProcessId
  let serverPid ← Call.loadRandNum.make
  sendProcessId .client
  awaitType rounds .serverGotProcessId
  return serverPid.toInt32

def otherProcessId (terminateUsingSignal : Bool) (exchanged : HwProgram Int32) : HwProgram Int32 :=
  if terminateUsingSignal then exchanged else pure (-1)

def maxRetries : Nat := 64

/-- The case `NEW_NUMBER`, which falls through to `EMPTY_MESSAGE`. -/
def takeNumber : HwProgram Unit := do
  let randNum ← Call.loadRandNum.make
  Call.make (.printNumber randNum)
  Call.make (.storeType .emptyMessage)
  Call.sleepNanos.make

/-- A round of `while (is_running)`; the loop carries `client_shutdowned_first`. -/
def serverRound (clientShutdownedFirst : Bool) : HwProgram (LoopFlow Bool Bool) := do
  if !(← Call.isRunning.make) then return .exit clientShutdownedFirst
  match ← Call.loadType.make with
  | .newNumber =>
    takeNumber
    return .next clientShutdownedFirst
  | .emptyMessage =>
    Call.sleepNanos.make
    return .next clientShutdownedFirst
  | .clientShutdown =>
    Call.stopRunning.make
    return .next true
  | _ => return .next clientShutdownedFirst

def removalRound : HwProgram (LoopFlow Unit Unit) := do
  if (← Call.loadType.make) = .readyToRemoveSegment then return .exit ()
  Call.sleepNanos.make
  return .next ()

/-- `while (message_ptr->type != READY_TO_REMOVE_SEGMENT && ++retries <= MAX_RETRIES)`; the type is
    looked at once more when the retries are used up. -/
def awaitRemoval : HwProgram Unit := do
  match ← forFrom (fun _ _ => removalRound) maxRetries 0 () with
  | .exit _ => return ()
  | .next _ =>
    let _ ← Call.loadType.make

def shutClientDown (terminateUsingSignal : Bool) (clientId : Int32) : HwProgram Unit :=
  if terminateUsingSignal then do
    let _ ← Call.make (.kill clientId)
  else do
    Call.make (.storeType .serverShutdown)
    awaitRemoval

def runServer (terminateUsingSignal : Bool) (rounds : Nat) : HwProgram Unit := do
  Call.make (.storeType .emptyMessage)
  let clientId ← otherProcessId terminateUsingSignal (exchangeProcessIdsWithClient rounds)
  let clientShutdownedFirst ← Program.loop .goesOn rounds false serverRound
  if !clientShutdownedFirst then shutClientDown terminateUsingSignal clientId

def numberGenerationDelaySeconds : Int := 2

def sendNumber : HwProgram Unit := do
  let randNum ← Call.random.make
  Call.make (.storeRandNum randNum)
  Call.make (.storeType .newNumber)
  Call.make (.printNumber randNum)

/-- A round of `while (is_running)`; the loop carries `last_number_send_time` and leaves with
    `server_shutdowned_first`. -/
def clientRound (lastNumberSendTime : Int) : HwProgram (LoopFlow Int Bool) := do
  if !(← Call.isRunning.make) then return .exit false
  if (← Call.loadType.make) = .serverShutdown then return .exit true
  let timeNow ← Call.time.make
  if numberGenerationDelaySeconds ≤ timeNow - lastNumberSendTime then
    sendNumber
    Call.sleepNanos.make
    return .next timeNow
  else
    Call.sleepNanos.make
    return .next lastNumberSendTime

def shutServerDown (terminateUsingSignal : Bool) (serverPid : Int32) : HwProgram Unit :=
  if terminateUsingSignal then do
    let _ ← Call.make (.kill serverPid)
  else Call.make (.storeType .clientShutdown)

def runClient (terminateUsingSignal : Bool) (rounds : Nat) : HwProgram Unit := do
  let serverPid ← otherProcessId terminateUsingSignal (exchangeProcessIdsWithServer rounds)
  let serverShutdownedFirst ← Program.loop .goesOn rounds 0 clientRound
  if !serverShutdownedFirst then shutServerDown terminateUsingSignal serverPid
  else Call.make (.storeType .readyToRemoveSegment)

/-- `drawn` records what `random` returned to the client, oldest first. -/
structure State where
  message : Message
  isRunning : Party → Bool
  printed : Party → List Int64
  drawn : List Int64

def State.setType (s : State) (type : MessageType) : State := { s with message := { s.message with type } }

def State.setRandNum (s : State) (randNum : Int64) : State := { s with message := { s.message with randNum } }

def State.stop (s : State) (p : Party) : State := { s with isRunning := Function.update s.isRunning p false }

def State.signal (s : State) (receivers : Receivers) : State :=
  { s with isRunning := fun p => s.isRunning p && !receivers.has p }

def State.draw (s : State) (randNum : Int64) : State := { s with drawn := s.drawn ++ [randNum] }

def State.print (s : State) (p : Party) (randNum : Int64) : State :=
  { s with printed := Function.update s.printed p (s.printed p ++ [randNum]) }

def Reaches (pids : Party → Int32) (pid : Int32) (receivers : Receivers) : Prop :=
  0 < pid → receivers = ⟨pids .server = pid, pids .client = pid⟩

instance (pids : Party → Int32) (pid : Int32) (receivers : Receivers) : Decidable (Reaches pids pid receivers) :=
  inferInstanceAs (Decidable (_ → _))

def performParty (pids : Party → Int32) (p : Party) (call : Call) (answer : call.Answer) (s : State) : Option State :=
  match call, answer with
  | .isRunning, answer => if answer = s.isRunning p then some s else none
  | .stopRunning, _ => some (s.stop p)
  | .loadType, answer => if answer = s.message.type then some s else none
  | .storeType type, _ => some (s.setType type)
  | .loadRandNum, answer => if answer = s.message.randNum then some s else none
  | .storeRandNum randNum, _ => some (s.setRandNum randNum)
  | .getpid, answer => if answer = pids p then some s else none
  | .kill pid, receivers => if Reaches pids pid receivers then some (s.signal receivers) else none
  | .time, _ | .sleepNanos, _ => some s
  | .random, randNum => some (s.draw randNum)
  | .printNumber randNum, _ => some (s.print p randNum)
  | .interrupt _, _ => none

def performUser (call : Call) (s : State) : Option State :=
  match call with
  | .interrupt p => some (s.stop p)
  | _ => none

def perform (pids : Party → Int32) (agent : Agent) (call : Call) (answer : call.Answer) (s : State) : Option State :=
  match agent with
  | .party p => performParty pids p call answer s
  | .user => performUser call s

def exchange (pids : Party → Int32) : Machine Agent Call Call.Answer State := ⟨perform pids, fun _ _ _ => none⟩

abbrev Processes := Pool Agent Call Call.Answer State

/-- The user sends `SIGINT` to these processes, one after another. -/
def interruptAll : List Party → HwProgram Unit
  | [] => return ()
  | p :: later => do
    Call.make (.interrupt p)
    interruptAll later

def agentProgram (terminateUsingSignal : Bool) (rounds : Nat) (interrupts : List Party) : Agent → HwProgram Unit
  | .party .server => runServer terminateUsingSignal rounds
  | .party .client => runClient terminateUsingSignal rounds
  | .user => interruptAll interrupts

/-- The memory may hold what an earlier run has left. -/
def processes (terminateUsingSignal : Bool) (rounds : Nat) (interrupts : List Party) (message : Message) :
    Processes where
  programs := agentProgram terminateUsingSignal rounds interrupts
  state := ⟨message, fun _ => true, fun _ => [], []⟩
  history _ := []

end ArchCompSystems.OsHw6
