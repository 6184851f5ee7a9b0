import ArchCompSystems.OsIhw4.Calls

namespace ArchCompSystems.OsIhw4

open Library Library.Program
open OsIhw3 (ServerLog LogsServer)

/-- `snprintf` into an array of this size. -/
def snprintf (size : Nat) (text : String) : String := String.ofList (text.toList.take (size - 1))

def maxServerLogSize : Nat := udpMessageBufferSize

def sendMessage (message : UDPMessage) : NetProgram Bool := Call.make (.sendto message.bytes)

def shutdownMessage (client : ComponentType) : UDPMessage :=
  ⟨componentTypeServer, client, messageTypeShutdownMessage, []⟩

def sendShutdownSignalToAll : NetProgram Unit := do
  let _ ← sendMessage (shutdownMessage componentTypeAnyClient)

def sendShutdownSignalToClient (client : ComponentType) : NetProgram Bool :=
  sendMessage (shutdownMessage client)

structure ClientMetaInfo where
  host : String
  port : String
  numericHost : String
  numericPort : String

/-- The texts `host:port | numeric_host:numeric_port` that the logs about a client hold. -/
def ClientMetaInfo.address (info : ClientMetaInfo) : String :=
  s!"[address={info.host}:{info.port} | {info.numericHost}:{info.numericPort}]"

def clientNames (clientAddr : SockaddrIn) (numeric : Bool) : NetProgram (String × String) := do
  match ← Call.make (.getnameinfo clientAddr numeric) with
  | some names => return names
  | none => return ("unknown host", "unknown port")

def fillClientMetainfo (clientAddr : SockaddrIn) : NetProgram ClientMetaInfo := do
  let (host, port) ← clientNames clientAddr false
  let (numericHost, numericPort) ← clientNames clientAddr true
  return ⟨host, port, numericHost, numericPort⟩

def castToSockaddrIn (address : SockaddrIn) (addressSize : Nat) : Option SockaddrIn :=
  if addressSize = sizeofSockaddrIn then some address else none

def nonblockingEnqueueLog (log : ServerLog) : NetProgram Bool := do
  assert (log ≠ "") "log && log->message[0] != 0"
  onQueue (OsIhw3.serverLogsQueueNonblockingEnqueue .osIhw4 log)

-- irreducible, lest the texts are evaluated whenever two programs are compared
@[irreducible] def handleLog (text : String) : NetProgram Bool := do
  let log := snprintf maxServerLogSize text
  assert (log ≠ "") "log && log->message[0] != 0"
  nonblockingEnqueueLog log

def pinMessage (sender receiver : ComponentType) (pin : Pin) : UDPMessage :=
  ⟨sender, receiver, messageTypePinTransferring, wordBytes pin.pinId⟩

def serverHandlePinFromFirstStageWorker (pin : Pin) : NetProgram Bool := do
  let _ ← handleLog s!"> Transferring pin[pin_id={pin.pinId.toInt}] to the second stage workers\n"
  sendMessage (pinMessage componentTypeServer componentTypeSecondStageWorker pin)

def serverHandlePinFromSecondStageWorker (pin : Pin) : NetProgram Bool := do
  let _ ← handleLog s!"> Transferring pin[pin_id={pin.pinId.toInt}] to the third stage workers\n"
  sendMessage (pinMessage componentTypeServer componentTypeThirdStageWorker pin)

def serverHandleInvalidPinSource (pinSource : ComponentType) (pin : Pin) (info : ClientMetaInfo) :
    NetProgram Unit := do
  let _ ← handleLog (s!"> Error: invalid source {componentTypeToString pinSource}{info.address} " ++
    s!"of the pin[pin_id={pin.pinId.toInt}]\n")

def serverHandlePinTransferring (message : UDPMessage) (info : ClientMetaInfo) : NetProgram Bool := do
  if message.receiverType ≠ componentTypeServer then return true
  let pin := message.pin
  let _ ← handleLog (s!"> Received pin[pin_id={pin.pinId.toInt}] from the\n" ++
    s!"> {componentTypeToString message.senderType}{info.address}\n")
  if message.senderType = componentTypeFirstStageWorker then serverHandlePinFromFirstStageWorker pin
  else if message.senderType = componentTypeSecondStageWorker then serverHandlePinFromSecondStageWorker pin
  else
    serverHandleInvalidPinSource message.senderType pin info
    return true

def serverHandleNewClient (message : UDPMessage) (info : ClientMetaInfo) : NetProgram Bool :=
  handleLog (s!"> New client with type \"{componentTypeToString message.senderType}\"" ++
    s!"{info.address} sent signal of presence\n")

def serverHandleInvalidMessageType (message : UDPMessage) (info : ClientMetaInfo) : NetProgram Bool :=
  handleLog (s!"> Error: invalid message type {messageTypeToString message.messageType}" ++
    s!"[value={message.messageType.toNat}] from the\n" ++
    s!"> {componentTypeToString message.senderType}{info.address}\n")

def isShutdownClient (client : ComponentType) : Bool :=
  client ∈ [componentTypeFirstStageWorker, componentTypeSecondStageWorker, componentTypeThirdStageWorker,
    componentTypeLogsCollector, componentTypeManager]

def executeCommand (cmd : ServerCommand) : NetProgram ServerCommandResult := do
  if cmd.clientType = componentTypeServer then
    Call.make (.alarm 1)
    return serverCommandSuccess
  else if isShutdownClient cmd.clientType then
    return if ← sendShutdownSignalToClient cmd.clientType then serverCommandSuccess else serverInternalError
  else return invalidServerCommandArgs

def commandResultMessage (res : ServerCommandResult) : UDPMessage :=
  ⟨componentTypeServer, componentTypeManager, messageTypeManagerCommandResult, wordBytes res⟩

def sendCommandResultToManagers (res : ServerCommandResult) : NetProgram Bool :=
  sendMessage (commandResultMessage res)

def serverHandlerManagerCommand (message : UDPMessage) (info : ClientMetaInfo) : NetProgram Bool := do
  let cmd := message.command
  let received ← handleLog (s!"> Received command to shutdown clients of type " ++
    s!"\"{componentTypeToString cmd.clientType}\"\n> from manager{info.address}\n")
  let res ← executeCommand cmd
  let executed ← handleLog (s!"> Executed command to shutdownn clients of type " ++
    s!"\"{componentTypeToString cmd.clientType}\"\n> Server result: {serverCommandResultToString res}\n")
  let sent ← sendCommandResultToManagers res
  let reported ← handleLog "> Sent command result to managers\n"
  return received && executed && sent && reported

def handleMessage (message : UDPMessage) (info : ClientMetaInfo) : NetProgram Bool :=
  if message.messageType = messageTypePinTransferring then serverHandlePinTransferring message info
  else if message.messageType = messageTypeNewClient then serverHandleNewClient message info
  else if message.messageType = messageTypeManagerCommand then serverHandlerManagerCommand message info
  else serverHandleInvalidMessageType message info

/-- A short datagram leaves zeros behind it. -/
def nonblockingPoll : NetProgram Bool := do
  match ← Call.recvfrom.make with
  | .failed => return false
  | .received bytes addressSize address =>
    let message := UDPMessage.ofBytes bytes
    match castToSockaddrIn address addressSize with
    | none => return true
    | some sockAddr =>
      if message.senderType = componentTypeServer then return true
      let info ← fillClientMetainfo sockAddr
      handleMessage message info

def dequeueLog : NetProgram ServerLog := onQueue (OsIhw3.serverLogsQueueDequeue .osIhw4)

def logBytes (log : ServerLog) : List UInt8 := log.toUTF8.toList

def sendServerLog (log : ServerLog) : NetProgram Bool :=
  sendMessage ⟨componentTypeServer, componentTypeLogsCollector, messageTypeLog, logBytes log⟩

/-- `while (is_…_running)` over rounds that may break out of the loop. -/
def whileRunning (thread : ServerThread) (rounds : Nat) (round : NetProgram Bool) : NetProgram Unit := do
  match ← forFrom (fun _ (_ : Unit) => do
      if !(← Call.make (.isRunning thread)) then return .exit ()
      if !(← round) then return .exit ()
      if !(← Call.nanosleep.make) then return .exit ()
      return .next ()) rounds 0 () with
  | .next () => goesOn
  | .exit () => Call.stopAllThreads.make

def workersPoller (rounds : Nat) : NetProgram Unit := whileRunning .workersPoller rounds nonblockingPoll

def logsSender (rounds : Nat) : NetProgram Unit :=
  whileRunning .logsSender rounds do
    let log ← dequeueLog
    sendServerLog log

/-- `start_runtime_loop` when its threads have been created. -/
def serverMain : NetProgram Unit := do
  Call.make (.pthreadJoin .workersPoller)
  Call.make (.pthreadJoin .logsSender)
  sendShutdownSignalToAll

def serverProgram (rounds : Nat) : ServerThread → NetProgram Unit
  | .workersPoller => workersPoller rounds
  | .logsSender => logsSender rounds
  | .main => serverMain

end ArchCompSystems.OsIhw4
