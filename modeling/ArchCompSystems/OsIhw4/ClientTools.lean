import ArchCompSystems.OsIhw4.ServerTools

namespace ArchCompSystems.OsIhw4

open Library Library.Program

def loop {β γ : Type} (rounds : Nat) (start : β) (round : β → NetProgram (LoopFlow β γ)) : NetProgram γ := do
  match ← forFrom (fun _ => round) rounds 0 start with
  | .next _ => goesOn
  | .exit result => return result

/-- `UDPMessage message = {0}`. -/
def emptyMessage : List UInt8 := List.replicate udpMessageSize 0

def isWorker (type : ComponentType) : Bool :=
  [componentTypeFirstStageWorker, componentTypeSecondStageWorker, componentTypeThirdStageWorker].contains type

def newClientMessage (type : ComponentType) : UDPMessage := ⟨type, componentTypeServer, messageTypeNewClient, []⟩

def sendClientTypeInfo (type : ComponentType) : NetProgram Bool := sendMessage (newClientMessage type)

def initClient (type : ComponentType) : NetProgram Bool := do
  if !(← Call.bindSocket.make) then return false
  sendClientTypeInfo type

def clientHandleErrno : NetProgram Bool := do
  match ← Call.errno.make with
  | .other _ => return false
  | _ => return true

/-- `recv` into a message: what it returned, and the bytes of the message after it. -/
def recvMessage (dontWait peek : Bool) (message : List UInt8) : NetProgram (Int × List UInt8) := do
  match ← Call.make (.recv dontWait peek) with
  | .failed _ => return (-1, message)
  | .received bytes => return (bytes.length, bytes ++ message.drop bytes.length)

inductive MessageSkipResult where
  | receivedMessageFromServer
  | noMessagesInSocket
  | socketError
  deriving DecidableEq

def includesClient (message : UDPMessage) (type : ComponentType) : Bool := message.receiverType &&& type ≠ 0

/-- A round of `skip_messages_not_from_the_server`. -/
def skipRound (type : ComponentType) (message : List UInt8) :
    NetProgram (LoopFlow (List UInt8) (MessageSkipResult × List UInt8)) := do
  let (bytesRead, message) ← recvMessage true true message
  if bytesRead ≠ udpMessageSize then
    let errnoVal ← Call.errno.make
    if errnoVal = .eagain then return .exit (.noMessagesInSocket, message)
    let _ ← clientHandleErrno
    return .exit (.socketError, message)
  if (UDPMessage.ofBytes message).senderType = componentTypeServer ∧ includesClient (.ofBytes message) type then
    return .exit (.receivedMessageFromServer, message)
  let (bytesRead, message) ← recvMessage true false message
  if bytesRead ≠ udpMessageSize then
    let _ ← clientHandleErrno
    return .exit (.socketError, message)
  return .next message

def skipMessagesNotFromTheServer (rounds : Nat) (type : ComponentType) (message : List UInt8) :
    NetProgram (MessageSkipResult × List UInt8) := loop rounds message (skipRound type)

def isSocketAlive : NetProgram Bool := do
  match ← Call.getsockopt.make with
  | none => return false
  | some error => return error = 0

def clientShouldStop (rounds : Nat) (type : ComponentType) : NetProgram Bool := do
  if !(← isSocketAlive) then return true
  match ← skipMessagesNotFromTheServer rounds type emptyMessage with
  | (.receivedMessageFromServer, message) =>
    assert ((UDPMessage.ofBytes message).senderType = componentTypeServer) "message.sender_type == COMPONENT_TYPE_SERVER"
    assert (includesClient (.ofBytes message) type) "message.receiver_type & client->type"
    return (UDPMessage.ofBytes message).messageType = messageTypeShutdownMessage
  | (.noMessagesInSocket, _) => return false
  | (.socketError, _) =>
    assert false "false && \"invalid return from skip_messages_not_from_the_server\""
    return true

/-- The condition of the loop of `receive_data`, over whatever the message holds. -/
def untilExpected (type : ComponentType) (expectedMessageType : MessageType) (message : List UInt8) :
    LoopFlow (List UInt8) (Bool × List UInt8) :=
  if (UDPMessage.ofBytes message).messageType ≠ expectedMessageType ∨ includesClient (.ofBytes message) type = false then
    .next message
  else .exit (true, message)

/-- A round of `receive_data`. -/
def receiveRound (type : ComponentType) (expectedMessageType : MessageType) (message : List UInt8) :
    NetProgram (LoopFlow (List UInt8) (Bool × List UInt8)) := do
  let (readBytes, message) ← recvMessage false false message
  if readBytes = 0 then return untilExpected type expectedMessageType message
  if readBytes ≠ udpMessageSize then
    let _ ← clientHandleErrno
    return .exit (false, message)
  if (UDPMessage.ofBytes message).senderType ≠ componentTypeServer then
    return untilExpected type expectedMessageType message
  if (UDPMessage.ofBytes message).messageType = messageTypeShutdownMessage ∧ includesClient (.ofBytes message) type then
    return .exit (false, message)
  return untilExpected type expectedMessageType message

def receiveData (rounds : Nat) (type : ComponentType) (message : List UInt8) (expectedMessageType : MessageType) :
    NetProgram (Bool × List UInt8) := loop rounds message (receiveRound type expectedMessageType)

/-- `__builtin_parity`: whether an odd number of bits is set. -/
def checkPinCrookness (pin : Pin) : Bool := (List.range 32).foldl (fun odd i => odd ^^ pin.pinId.getLsbD i) false

def sendPin (worker : ComponentType) (pin : Pin) : NetProgram Bool :=
  sendMessage (pinMessage worker componentTypeServer pin)

def sendNotCroockedPin (worker : ComponentType) (pin : Pin) : NetProgram Bool := do
  assert (isWorker worker) "is_worker(worker)"
  sendPin worker pin

def receivePin (rounds : Nat) (worker : ComponentType) : NetProgram (Bool × Pin) := do
  let (res, message) ← receiveData rounds worker emptyMessage messageTypePinTransferring
  return (res, (UDPMessage.ofBytes message).pin)

def receiveNotCrookedPin (rounds : Nat) (worker : ComponentType) : NetProgram (Bool × Pin) := do
  assert (isWorker worker) "is_worker(worker)"
  receivePin rounds worker

def sendSharpenedPin (worker : ComponentType) (pin : Pin) : NetProgram Bool := do
  assert (isWorker worker) "is_worker(worker)"
  sendPin worker pin

def receiveSharpenedPin (rounds : Nat) (worker : ComponentType) : NetProgram (Bool × Pin) := do
  assert (isWorker worker) "is_worker(worker)"
  receivePin rounds worker

def receiveServerLog (rounds : Nat) (logsCollector : ComponentType) : NetProgram (Bool × List UInt8) := do
  assert (logsCollector = componentTypeLogsCollector) "logs_collector->type == COMPONENT_TYPE_LOGS_COLLECTOR"
  let (res, message) ← receiveData rounds logsCollector emptyMessage messageTypeLog
  return (res, (UDPMessage.ofBytes message).messageContent)

def commandMessage (command : ServerCommand) : UDPMessage :=
  ⟨componentTypeManager, componentTypeServer, messageTypeManagerCommand, wordBytes command.clientType⟩

def sendManagerCommandToServer (rounds : Nat) (manager : ComponentType) (command : ServerCommand) :
    NetProgram ServerCommandResult := do
  assert (manager = componentTypeManager) "manager->type == COMPONENT_TYPE_MANAGER"
  if !(← sendMessage (commandMessage command)) then return noConnection
  let (res, message) ← receiveData rounds manager emptyMessage messageTypeManagerCommandResult
  if !res then return noConnection
  assert ((UDPMessage.ofBytes message).receiverType = componentTypeManager) "message.receiver_type == COMPONENT_TYPE_MANAGER"
  return (UDPMessage.ofBytes message).commandResult

inductive ExitCode where
  | exitSuccess
  | exitFailure
  deriving DecidableEq

/-- `while (!client_should_stop(client))` over rounds that may break out of the loop. -/
def untilClientShouldStop (rounds : Nat) (type : ComponentType) (round : NetProgram (LoopFlow Unit ExitCode)) :
    NetProgram ExitCode :=
  loop rounds () fun _ => do
    if ← clientShouldStop rounds type then return .exit .exitSuccess
    round

def runClient (type : ComponentType) (startRuntimeLoop : NetProgram ExitCode) : NetProgram ExitCode := do
  if !(← initClient type) then return .exitFailure
  startRuntimeLoop

namespace FirstWorker

def round (rounds : Nat) : NetProgram (LoopFlow Unit ExitCode) := do
  let pin ← Call.receiveNewPin.make
  let isOk ← Call.make (.checkPinCrookness pin)
  if !isOk then return .next ()
  if ← clientShouldStop rounds componentTypeFirstStageWorker then return .exit .exitSuccess
  if !(← sendNotCroockedPin componentTypeFirstStageWorker pin) then return .exit .exitFailure
  return .next ()

def startRuntimeLoop (rounds : Nat) : NetProgram ExitCode :=
  untilClientShouldStop rounds componentTypeFirstStageWorker (round rounds)

def runWorker (rounds : Nat) : NetProgram ExitCode :=
  runClient componentTypeFirstStageWorker (startRuntimeLoop rounds)

end FirstWorker

namespace SecondWorker

def round (rounds : Nat) : NetProgram (LoopFlow Unit ExitCode) := do
  let (received, pin) ← receiveNotCrookedPin rounds componentTypeSecondStageWorker
  if !received then return .exit .exitFailure
  Call.make (.sharpenPin pin)
  if ← clientShouldStop rounds componentTypeSecondStageWorker then return .exit .exitSuccess
  if !(← sendSharpenedPin componentTypeSecondStageWorker pin) then return .exit .exitFailure
  return .next ()

def startRuntimeLoop (rounds : Nat) : NetProgram ExitCode :=
  untilClientShouldStop rounds componentTypeSecondStageWorker (round rounds)

def runWorker (rounds : Nat) : NetProgram ExitCode :=
  runClient componentTypeSecondStageWorker (startRuntimeLoop rounds)

end SecondWorker

namespace ThirdWorker

def round (rounds : Nat) : NetProgram (LoopFlow Unit ExitCode) := do
  let (received, pin) ← receiveSharpenedPin rounds componentTypeThirdStageWorker
  if !received then return .exit .exitFailure
  let _ ← Call.make (.checkSharpenedPinQuality pin)
  return .next ()

def startRuntimeLoop (rounds : Nat) : NetProgram ExitCode :=
  untilClientShouldStop rounds componentTypeThirdStageWorker (round rounds)

def runWorker (rounds : Nat) : NetProgram ExitCode :=
  runClient componentTypeThirdStageWorker (startRuntimeLoop rounds)

end ThirdWorker

namespace LogsCollector

def round (rounds : Nat) : NetProgram (LoopFlow Unit ExitCode) := do
  let (received, _) ← receiveServerLog rounds componentTypeLogsCollector
  if !received then return .exit .exitFailure
  return .next ()

def startRuntimeLoop (rounds : Nat) : NetProgram ExitCode :=
  untilClientShouldStop rounds componentTypeLogsCollector (round rounds)

def runLogsCollector (rounds : Nat) : NetProgram ExitCode :=
  runClient componentTypeLogsCollector (startRuntimeLoop rounds)

end LogsCollector

namespace Manager

def handleServerResponse (res : ServerCommandResult) : NetProgram Bool := do
  Call.make (.handleServerResponse res)
  return res = serverCommandSuccess || res = invalidServerCommandArgs || res = serverInternalError

def nextUserCommand : NetProgram Bool := do
  let command ← Call.make (.nextUint 1 2)
  return command = 1

def round (rounds : Nat) : NetProgram (LoopFlow Unit ExitCode) := do
  if !(← nextUserCommand) then return .exit .exitSuccess
  let bit ← Call.make (.nextUint 1 5)
  let resp ← sendManagerCommandToServer rounds componentTypeManager ⟨1#32 <<< bit⟩
  if !(← handleServerResponse resp) then return .exit .exitFailure
  return .next ()

def startRuntimeLoop (rounds : Nat) : NetProgram ExitCode :=
  untilClientShouldStop rounds componentTypeManager (round rounds)

def runManager (rounds : Nat) : NetProgram ExitCode := runClient componentTypeManager (startRuntimeLoop rounds)

end Manager

end ArchCompSystems.OsIhw4
