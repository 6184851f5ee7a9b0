import ArchCompSystems.Library.Pool
import ArchCompSystems.OsIhw3.Calls

namespace ArchCompSystems.OsIhw3

open Library Library.Program

/-- The calls of a client: its socket, and the user of a manager. What clients print is left out. -/
inductive ClientCall where
  | peek (size : Nat)
  | recv (size : Nat)
  | sendto (bytes : List UInt8)
  | nextUserCommand
  | getCommandArgs
  | goesOn

/-- A command is the bytes of its object; a loop cut off at a finite number of rounds has no
    answer. -/
@[reducible] def ClientCall.Answer : ClientCall → Type
  | .peek _ | .recv _ => RecvAnswer
  | .sendto _ => SendAnswer
  | .nextUserCommand => Bool
  | .getCommandArgs => List UInt8
  | .goesOn => Empty

abbrev ClientProgram := Program ClientCall ClientCall.Answer

abbrev ClientEvent := Event ClientCall.Answer

def ClientCall.make (call : ClientCall) : ClientProgram call.Answer := Program.request call

/-- The bytes that the server has sent or will send on the connection and that were not read. -/
structure Socket where
  unread : List UInt8

/-- What `recv` can answer: a failure, also because nothing has arrived yet, or as many of the next
    bytes as have arrived and were asked for; nothing only at the end. -/
def Socket.Delivers (socket : Socket) (size : Nat) : RecvAnswer → Prop
  | .failed _ => True
  | .received bytes => bytes <+: socket.unread ∧ bytes.length ≤ size ∧
      (bytes = [] → socket.unread = [])

instance (socket : Socket) (size : Nat) (answer : RecvAnswer) :
    Decidable (socket.Delivers size answer) := by
  cases answer <;> unfold Socket.Delivers <;> infer_instance

def Socket.perform (call : ClientCall) (answer : call.Answer) (socket : Socket) : Option Socket :=
  match call, answer with
  | .peek size, answer => if socket.Delivers size answer then some socket else none
  | .recv size, answer =>
    if socket.Delivers size answer then some ⟨socket.unread.drop answer.length⟩ else none
  | .sendto _, _ | .nextUserCommand, _ | .getCommandArgs, _ => some socket
  | .goesOn, answer => answer.elim

def socketMachine : Machine Unit ClientCall ClientCall.Answer Socket :=
  ⟨fun _ => Socket.perform, fun _ _ _ => none⟩

/-- `SHUTDOWN_MESSAGE`: an asterisk and the terminator. -/
def shutdownMessage : List UInt8 := [42, 0]

def isShutdownMessage (bytes : List UInt8) : Bool :=
  bytes.length == shutdownMessageSize && bytes == shutdownMessage

def netBufferSize : Nat := if shutdownMessageSize < sizeofPin then sizeofPin else shutdownMessageSize

def clientGoesOn {α : Type} : ClientProgram α := .call .goesOn fun answer => nomatch answer

/-- What `client_should_stop` makes of the answer of its `recv`. -/
def stopsOn : RecvAnswer → Bool
  | .failed error => error ≠ .eagain
  | .received bytes => isShutdownMessage bytes

def clientShouldStop : ClientProgram Bool := do
  let bytesRead : RecvAnswer ← ClientCall.make (.peek netBufferSize)
  return stopsOn bytesRead

/-- `none` when it returns false, else the bytes in the buffer. -/
def receiveData (rounds bufferSize : Nat) : ClientProgram (Option (List UInt8)) := do
  match ← forFrom (fun _ (_ : Unit) => do
      let readBytes : RecvAnswer ← ClientCall.make (.recv bufferSize)
      match readBytes with
      | .failed _ => return .exit none
      | .received bytes =>
        if bytes.length ≠ bufferSize ∧ bytes.length ≠ 0 then return .exit none
        else if bytes.length = 0 then return .next () else return .exit (some bytes)) rounds 0 () with
  | .next () => clientGoesOn
  | .exit received => return received

def clientSendPin (pin : Pin) : ClientProgram Bool := do
  let sent : SendAnswer ← ClientCall.make (.sendto pin.bytes)
  return sent = .sent sizeofPin

def clientReceivePin (rounds : Nat) : ClientProgram (Option Pin) := do
  return (← receiveData rounds sizeofPin).map Pin.ofBytes

def clientNoConnection : Nat := 3

def resultOfBytes (bytes : List UInt8) : Nat :=
  bytes.foldr (fun byte rest => byte.toNat + 256 * rest) 0

def sendCommandToServer (rounds : Nat) (cmd : List UInt8) : ClientProgram Nat := do
  let bytesSent : SendAnswer ← ClientCall.make (.sendto cmd)
  if bytesSent ≠ .sent sizeofServerCommand then return clientNoConnection
  match ← receiveData rounds sizeofServerCommandResult with
  | none => return clientNoConnection
  | some bytes => return resultOfBytes bytes

/-- The clients that receive records. -/
inductive RecordClient where
  | secondWorker
  | thirdWorker
  | logsCollector
  | manager
  deriving DecidableEq

/-- The records that the server sends to a client: pins, logs or command results. -/
def RecordClient.recordSize : RecordClient → Nat
  | .secondWorker | .thirdWorker => sizeofPin
  | .logsCollector => maxServerLogSize
  | .manager => sizeofServerCommandResult

/-- `while (round())`: the loop goes on while a round returns true. -/
def clientLoop (rounds : Nat) (round : ClientProgram Bool) : ClientProgram Unit := do
  match ← forFrom (fun _ (_ : Unit) => do
      if ← round then return .next () else return .exit ()) rounds 0 () with
  | .next () => clientGoesOn
  | .exit () => return ()

def secondWorkerRound (rounds : Nat) : ClientProgram Bool := do
  if ← clientShouldStop then return false
  match ← clientReceivePin rounds with
  | none => return false
  | some pin =>
    if ← clientShouldStop then return false
    clientSendPin pin

def thirdWorkerRound (rounds : Nat) : ClientProgram Bool := do
  if ← clientShouldStop then return false
  match ← clientReceivePin rounds with
  | none => return false
  | some _ => return true

def logsCollectorRound (rounds : Nat) : ClientProgram Bool := do
  if ← clientShouldStop then return false
  match ← receiveData rounds maxServerLogSize with
  | none => return false
  | some _ => return true

/-- `handle_server_response` lets the loop go on after the three results that the server sends. -/
def handleServerResponse (res : Nat) : Bool := res < clientNoConnection

def managerRound (rounds : Nat) : ClientProgram Bool := do
  if ← clientShouldStop then return false
  let wanted : Bool ← ClientCall.nextUserCommand.make
  if !wanted then return false
  let cmd : List UInt8 ← ClientCall.getCommandArgs.make
  let resp ← sendCommandToServer rounds cmd
  return handleServerResponse resp

/-- `start_runtime_loop` of each client. -/
def RecordClient.startRuntimeLoop (rounds : Nat) : RecordClient → ClientProgram Unit
  | .secondWorker => clientLoop rounds (secondWorkerRound rounds)
  | .thirdWorker => clientLoop rounds (thirdWorkerRound rounds)
  | .logsCollector => clientLoop rounds (logsCollectorRound rounds)
  | .manager => clientLoop rounds (managerRound rounds)

def clientPool (client : RecordClient) (rounds : Nat) (stream : List UInt8) :
    Pool Unit ClientCall ClientCall.Answer Socket :=
  ⟨fun _ => client.startRuntimeLoop rounds, ⟨stream⟩, fun _ => []⟩

/-- What a client can come to, however the stream is cut over its `recv` calls. -/
abbrev ClientReach (client : RecordClient) (rounds : Nat) (stream : List UInt8) :
    Pool Unit ClientCall ClientCall.Answer Socket → Prop :=
  Pool.Reach socketMachine (fun _ _ => True) (clientPool client rounds stream)

end ArchCompSystems.OsIhw3
