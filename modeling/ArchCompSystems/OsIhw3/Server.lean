import ArchCompSystems.Library.Pool
import ArchCompSystems.OsIhw3.ServerTools
import Mathlib.Data.Int.Bitwise

namespace ArchCompSystems.OsIhw3

open Library Library.Program

def mainThread : ThreadId := 0
def pollThread : ThreadId := 1
def logsThread : ThreadId := 2
def managersThread : ThreadId := 3
def signalThread : ThreadId := 4

/-- `app_threads` once `start_runtime_loop` has created the threads; `none` is `(pthread_t)-1`. -/
def appThreads : Nat → Option ThreadId
  | 0 => some pollThread
  | 1 => some logsThread
  | 2 => some managersThread
  | _ => none

def appThreadsCapacity : Nat := 4

def loadRunning (loop : Loop) : ServerProgram Bool := Call.make (.loadRunning loop)
def storeRunning (loop : Loop) (running : Bool) : ServerProgram Unit :=
  Call.make (.storeRunning loop running)
def nanosleep : ServerProgram (Option Errno) := Call.make .nanosleep
def dequeueLog : ServerProgram DequeueAnswer := Call.make .dequeueLog
def threadExit (status : Int) : ServerProgram Unit := Call.make (.threadExit status)

def goesOn {α : Type} : ServerProgram α := .call .goesOn fun answer => nomatch answer

/-- The loop body of `stop_all_threads`. -/
def cancelThread (i : Nat) : ServerProgram (LoopFlow Unit Empty) := do
  match appThreads i with
  | none => return .next ()
  | some thread => do
    let errCode : Option Errno ← Call.make (.pthreadCancel thread)
    match errCode with
    | none => return .next ()
    | some error => do
      storeErrno error
      perror "stop_all_threads(pthread_cancel)"
      return .next ()

def stopAllThreads : ServerProgram Unit := do
  let disposed : Bool ← Call.make .loadDisposed
  if disposed then return ()
  let _ : Unit ← Call.make (.storeDisposed true)
  storeRunning .acceptor false
  storeRunning .poller false
  storeRunning .logger false
  storeRunning .managersHandler false
  let _ ← forFrom (fun i _ => cancelThread i) appThreadsCapacity 0 ()

def signalHandler (sig : Nat) : ServerProgram Unit := do
  print s!"> Received signal {sig}\n"
  stopAllThreads

def printAndEnqueueLog (message : String) : ServerProgram Unit := do
  print message
  if !(← nonblockingEnqueueLog message) then
    print "> Logs queue if full. Can't add new log to the queue\n\n"

def finishLoop (loop : Loop) : ServerProgram Int := do
  let ret := if ← loadRunning loop then 1 else 0
  if ← loadRunning loop then stopAllThreads
  return ret

/-- `nanosleep` at the end or start of a round; `false` leaves the loop. -/
def sleepBetweenRounds : ServerProgram Bool := do
  match ← nanosleep with
  | none => return true
  | some error => do
    if error ≠ .eintr then perror "nanosleep"
    return false

/-- A round of `workers_poller` with the local queues `pins_1_to_2` and `pins_2_to_3`. -/
def workersPollerRound (pins : PinsQueue × PinsQueue) :
    ServerProgram (LoopFlow (PinsQueue × PinsQueue) (PinsQueue × PinsQueue)) := do
  if !(← loadRunning .poller) then return .exit pins
  let (polled, pins1To2) ← nonblockingPollWorkersOnTheFirstStage pins.1
  if !polled then
    print "> Could not poll workers on the first stage\n"
    return .exit (pins1To2, pins.2)
  let (polled, pins1To2, pins2To3) ←
    nonblockingPollWorkersOnTheSecondStage pins1To2 pins.2
  if !polled then
    print "> Could not poll workers on the second stage\n"
    return .exit (pins1To2, pins2To3)
  let (polled, pins2To3) ← nonblockingPollWorkersOnTheThirdStage pins2To3
  if !polled then
    print "> Could not poll workers on the third stage\n"
    return .exit (pins1To2, pins2To3)
  if ← sleepBetweenRounds then return .next (pins1To2, pins2To3)
  return .exit (pins1To2, pins2To3)

def workersPollerRounds (rounds : Nat) :
    ServerProgram (LoopFlow (PinsQueue × PinsQueue) (PinsQueue × PinsQueue)) :=
  forFrom (fun _ pins => workersPollerRound pins) rounds 0 (.zero, .zero)

def workersPoller (rounds : Nat) : ServerProgram Unit := do
  match ← workersPollerRounds rounds with
  | .next _ => goesOn
  | .exit _ => threadExit (← finishLoop .poller)

def logsSenderRound : ServerProgram (LoopFlow Unit Unit) := do
  if !(← loadRunning .logger) then return .exit ()
  match ← dequeueLog with
  | .failed _ => do
    print "> Could not get next log\n"
    return .exit ()
  | .dequeued log => do
    sendServerLog log
    if ← sleepBetweenRounds then return .next ()
    return .exit ()

def logsSender (rounds : Nat) : ServerProgram Unit := do
  match ← forFrom (fun _ _ => logsSenderRound) rounds 0 () with
  | .next () => goesOn
  | .exit () => threadExit (← finishLoop .logger)

/-- What `managers_handler` does with a command: it is executed and its result sent to the slot
    that it came from. -/
def answerCommand (cmd : ServerCommand) (managerIndex : Nat) : ServerProgram (LoopFlow Unit Unit) := do
  let info ← loadInfo .managerClient managerIndex
  printAndEnqueueLog s!"> Received command to shutdown client[address={String.ofList cmd.ipAddress}:{cmd.port}]\n  from manager[address={info.address}]\n"
  let res ← executeCommand cmd
  printAndEnqueueLog s!"> Executed shutdown command on client at address {String.ofList cmd.ipAddress}:{cmd.port}\n  Server result: {serverCommandResultToString res}\n"
  if !(← sendCommandResultToManager res managerIndex) then
    print "> Could not send command result to manger\n"
    return .exit ()
  let info ← loadInfo .managerClient managerIndex
  printAndEnqueueLog s!"> Send command result back to manager[address={info.address}]\n"
  return .next ()

def managersHandlerRound : ServerProgram (LoopFlow Unit Unit) := do
  if !(← loadRunning .managersHandler) then return .exit ()
  if !(← sleepBetweenRounds) then return .exit ()
  match ← nonblockingPollManagers with
  | (false, _) => do
    print "> Could not get next command\n"
    return .exit ()
  | (true, none) => return .next ()
  | (true, some (cmd, managerIndex)) => answerCommand cmd managerIndex

def managersHandler (rounds : Nat) : ServerProgram Unit := do
  match ← forFrom (fun _ _ => managersHandlerRound) rounds 0 () with
  | .next () => goesOn
  | .exit () => threadExit (← finishLoop .managersHandler)

def acceptRound : ServerProgram (LoopFlow Unit Unit) := do
  if !(← loadRunning .acceptor) then return .exit ()
  if !(← serverAcceptClient) then return .exit ()
  return .next ()

/-- `join_thread`; a `pthread_join` that fails is not modelled. -/
def joinThread (thread : ThreadId) : ServerProgram Int := Call.make (.pthreadJoin thread)

def maxSleepTime : Nat := 9

/-- `start_runtime_loop` from the point where the three threads have been created. -/
def startRuntimeLoop (rounds : Nat) : ServerProgram Int := do
  match ← forFrom (fun _ _ => acceptRound) rounds 0 () with
  | .next () => goesOn
  | .exit () => do
    let ret ← finishLoop .acceptor
    let ret1 ← joinThread logsThread
    print "Joined logging thread\n"
    let ret2 ← joinThread pollThread
    print "Joined polling thread\n"
    let ret3 ← joinThread managersThread
    print "Joined managers thread\n"
    print "> Started sending shutdown signals to all clients\n"
    sendShutdownSignalToAll
    print s!"> Sent shutdown signals to all clients\n> Started waiting for {maxSleepTime} seconds before closing the sockets\n"
    -- `sleep` differs from `nanosleep` in nothing that the model keeps.
    let _ ← nanosleep
    return ((ret.lor ret1).lor ret2).lor ret3

/-- `run_server`, with whose result `main` ends the process. -/
def runServer (rounds : Nat) : ServerProgram Unit := do
  let ret ← startRuntimeLoop rounds
  deinitServer
  print "> Deinitialized server resources\n"
  threadExit ret

abbrev ServerPool := Pool ThreadId Call Call.Answer ServerState

/-- The process when `main` has created its threads: at most one signal is delivered, at any point, and no loop goes
    beyond `rounds` rounds. -/
def serverPool (rounds : Nat) : ServerPool where
  programs
    | 0 => runServer rounds
    | 1 => workersPoller rounds
    | 2 => logsSender rounds
    | 3 => managersHandler rounds
    | 4 => signalHandler 2
    | _ => pure ()
  state := initServer
  history _ := []

end ArchCompSystems.OsIhw3
