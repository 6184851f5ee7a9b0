import ArchCompSystems.Library.Words

namespace ArchCompSystems.OsIhw4

open Library

/-- A set of component types, one bit for each; any value may come from the network. -/
abbrev ComponentType := BitVec 32

def componentTypeServer : ComponentType := 1

def componentTypeFirstStageWorker : ComponentType := 2

def componentTypeSecondStageWorker : ComponentType := 4

def componentTypeThirdStageWorker : ComponentType := 8

def componentTypeLogsCollector : ComponentType := 16

def componentTypeManager : ComponentType := 32

def componentTypeAnyWorker : ComponentType :=
  componentTypeFirstStageWorker ||| componentTypeSecondStageWorker ||| componentTypeThirdStageWorker

def componentTypeAnyClient : ComponentType :=
  componentTypeAnyWorker ||| componentTypeLogsCollector ||| componentTypeManager

def componentTypeToString (type : ComponentType) : String :=
  if type = componentTypeServer then "server"
  else if type = componentTypeFirstStageWorker then "first stage worker"
  else if type = componentTypeSecondStageWorker then "second stage worker"
  else if type = componentTypeThirdStageWorker then "third stage worker"
  else if type = componentTypeLogsCollector then "logs collector"
  else if type = componentTypeManager then "manager"
  else "unknown client"

/-- Pin that workers pass to each other; `pin_id` is a C `int`. -/
structure Pin where
  pinId : BitVec 32
  deriving DecidableEq

structure ServerCommand where
  clientType : ComponentType
  deriving DecidableEq

abbrev ServerCommandResult := BitVec 32

def serverCommandSuccess : ServerCommandResult := 0

def invalidServerCommandArgs : ServerCommandResult := 1

def serverInternalError : ServerCommandResult := 2

def noConnection : ServerCommandResult := 3

def serverCommandResultToString (res : ServerCommandResult) : String :=
  if res = serverCommandSuccess then "SERVER_COMMAND_SUCCESS"
  else if res = invalidServerCommandArgs then "INVALID_SERVER_COMMAND_ARGS"
  else if res = serverInternalError then "SERVER_INTERNAL_ERROR"
  else if res = noConnection then "NO_CONNECTION"
  else "unknown command result"

abbrev MessageType := BitVec 32

def messageTypePinTransferring : MessageType := 0

def messageTypeNewClient : MessageType := 1

def messageTypeManagerCommand : MessageType := 2

def messageTypeManagerCommandResult : MessageType := 3

def messageTypeShutdownMessage : MessageType := 4

def messageTypeLog : MessageType := 5

def messageTypeToString (type : MessageType) : String :=
  if type = messageTypePinTransferring then "pin transferring message"
  else if type = messageTypeShutdownMessage then "shutdown message"
  else if type = messageTypeNewClient then "new client message"
  else if type = messageTypeLog then "log message"
  else if type = messageTypeManagerCommand then "manager command"
  else if type = messageTypeManagerCommandResult then "manager command result"
  else "unknown message"

def udpMessageSize : Nat := 512

def udpMessageMetainfoSize : Nat := 12

def udpMessageBufferSize : Nat := udpMessageSize - udpMessageMetainfoSize

/-- The bytes of `message_content`, which is a union. -/
structure UDPMessage where
  senderType : ComponentType
  receiverType : ComponentType
  messageType : MessageType
  messageContent : List UInt8
  deriving DecidableEq

namespace UDPMessage

def bytes (message : UDPMessage) : List UInt8 :=
  wordBytes message.senderType ++ (wordBytes message.receiverType ++ (wordBytes message.messageType ++
    (message.messageContent ++ List.replicate udpMessageBufferSize 0).take udpMessageBufferSize))

def ofBytes (bytes : List UInt8) : UDPMessage :=
  ⟨wordAt bytes 0, wordAt bytes 4, wordAt bytes 8, bytes.drop udpMessageMetainfoSize⟩

def pin (message : UDPMessage) : Pin := ⟨wordAt message.messageContent 0⟩

def command (message : UDPMessage) : ServerCommand := ⟨wordAt message.messageContent 0⟩

def commandResult (message : UDPMessage) : ServerCommandResult := wordAt message.messageContent 0

variable (message : UDPMessage)

@[simp] theorem length_bytes : message.bytes.length = udpMessageSize := by
  have padded : udpMessageBufferSize ≤ (message.messageContent ++ List.replicate udpMessageBufferSize 0).length := by
    rw [List.length_append, List.length_replicate]
    exact Nat.le_add_left ..
  simp only [bytes, List.length_append, length_wordBytes, List.length_take_of_le padded]
  rfl

@[simp] theorem senderType_ofBytes_bytes : (ofBytes message.bytes).senderType = message.senderType :=
  wordAt_wordBytes ..

@[simp] theorem receiverType_ofBytes_bytes : (ofBytes message.bytes).receiverType = message.receiverType :=
  (wordAt_append (wordBytes _) _ 0).trans (wordAt_wordBytes ..)

@[simp] theorem messageType_ofBytes_bytes : (ofBytes message.bytes).messageType = message.messageType :=
  (wordAt_append (wordBytes _) _ 4).trans ((wordAt_append (wordBytes _) _ 0).trans (wordAt_wordBytes ..))

theorem messageContent_ofBytes_bytes : (ofBytes message.bytes).messageContent =
    (message.messageContent ++ List.replicate udpMessageBufferSize 0).take udpMessageBufferSize := rfl

theorem wordAt_content {sender receiver : ComponentType} {type : MessageType} (w : BitVec 32) :
    wordAt (ofBytes (⟨sender, receiver, type, wordBytes w⟩ : UDPMessage).bytes).messageContent 0 = w := by
  have fits : (wordBytes w).length ≤ udpMessageBufferSize := by
    rw [length_wordBytes]
    decide
  rw [messageContent_ofBytes_bytes, List.take_append, List.take_of_length_le fits]
  exact wordAt_wordBytes w _

end UDPMessage

end ArchCompSystems.OsIhw4
