import ArchCompSystems.OsIhw3.Calls

namespace ArchCompSystems.OsIhw3

open Library Library.Program

def Call.make (call : Call) : ServerProgram call.Answer := request call

def loadFd (c : ClientType) (i : Nat) : ServerProgram Int := Call.make (.loadFd c i)
def storeFd (c : ClientType) (i : Nat) (fd : Int) : ServerProgram Unit :=
  Call.make (.storeFd c i fd)
def loadArrSize (c : ClientType) : ServerProgram Nat := Call.make (.loadArrSize c)
def storeArrSize (c : ClientType) (size : Nat) : ServerProgram Unit :=
  Call.make (.storeArrSize c size)
def loadInfo (c : ClientType) (i : Nat) : ServerProgram ClientMetaInfo := Call.make (.loadInfo c i)
def storeInfo (c : ClientType) (i : Nat) (info : ClientMetaInfo) : ServerProgram Unit :=
  Call.make (.storeInfo c i info)
def storeAddr (c : ClientType) (i : Nat) (addr : SockaddrIn) : ServerProgram Unit :=
  Call.make (.storeAddr c i addr)
def loadErrno : ServerProgram Errno := Call.make .loadErrno
def storeErrno (error : Errno) : ServerProgram Unit := Call.make (.storeErrno error)
def accept : ServerProgram AcceptAnswer := Call.make .accept
def recv (fd : Int) (size : Nat) : ServerProgram RecvAnswer := Call.make (.recv fd size)
def send (fd : Int) (payload : Payload) : ServerProgram SendAnswer := Call.make (.send fd payload)
def setsockopt (fd : Int) (option : SocketOption) : ServerProgram (Option Errno) :=
  Call.make (.setsockopt fd option)
def getsockoptError (fd : Int) : ServerProgram SocketErrorAnswer := Call.make (.getsockoptError fd)
def shutdown (fd : Int) : ServerProgram (Option Errno) := Call.make (.shutdown fd)
def close (fd : Int) : ServerProgram (Option Errno) := Call.make (.close fd)
def getnameinfo (addr : SockaddrIn) (numeric : Bool) : ServerProgram (Option (CString × CString)) :=
  Call.make (.getnameinfo addr numeric)
def print (text : String) : ServerProgram Unit := Call.make (.print text)
def perror (cause : String) : ServerProgram Unit := Call.make (.perror cause)
def enqueueLog (message : String) : ServerProgram EnqueueAnswer := Call.make (.enqueueLog message)

/-- `assert`: the program goes on only if the assertion holds. -/
def assert (holds : Bool) (assertion : String) : ServerProgram Unit :=
  if holds then pure () else .call (.abort assertion) fun answer => nomatch answer

def orAbort {α : Type} (value : Option α) (assertion : String) : ServerProgram α :=
  match value with
  | some value => pure value
  | none => .call (.abort assertion) fun answer => nomatch answer

/-- `(*array_size)++` on a `size_t`. -/
def incrementArrSize (c : ClientType) : ServerProgram Unit := do
  let size ← loadArrSize c
  storeArrSize c ((size + 1) % 2 ^ 64)

/-- `(*array_size)--` on a `size_t`. -/
def decrementArrSize (c : ClientType) : ServerProgram Unit := do
  let size ← loadArrSize c
  storeArrSize c ((size + 2 ^ 64 - 1) % 2 ^ 64)

def serverLockMutex (c : ClientType) : ServerProgram Bool := do
  let err : Option Errno ← Call.make (.mutexLock c)
  match err with
  | none => return true
  | some error => do
    storeErrno error
    perror "pthread_mutex_lock"
    return false

def serverUnlockMutex (c : ClientType) : ServerProgram Bool := do
  let err : Option Errno ← Call.make (.mutexUnlock c)
  match err with
  | none => return true
  | some error => do
    storeErrno error
    perror "pthread_mutex_unlock"
    return false

def serverLockFirstMutex : ServerProgram Bool := serverLockMutex .firstStageWorkerClient
def serverUnlockFirstMutex : ServerProgram Bool := serverUnlockMutex .firstStageWorkerClient
def serverLockSecondMutex : ServerProgram Bool := serverLockMutex .secondStageWorkerClient
def serverUnlockSecondMutex : ServerProgram Bool := serverUnlockMutex .secondStageWorkerClient
def serverLockThirdMutex : ServerProgram Bool := serverLockMutex .thirdStageWorkerClient
def serverUnlockThirdMutex : ServerProgram Bool := serverUnlockMutex .thirdStageWorkerClient
def serverLockLogsCollectorsMutex : ServerProgram Bool := serverLockMutex .logsCollectorClient
def serverUnlockLogsCollectorsMutex : ServerProgram Bool := serverUnlockMutex .logsCollectorClient
-- The source's wrapper calls `server_unlock_mutex` here, unlike its four siblings.
def serverLockManagersMutex : ServerProgram Bool := serverUnlockMutex .managerClient
def serverUnlockManagersMutex : ServerProgram Bool := serverUnlockMutex .managerClient

/-- The `server_lock_…_mutex` wrapper of a type. -/
def serverLockMutexOf : ClientType → ServerProgram Bool
  | .firstStageWorkerClient => serverLockFirstMutex
  | .secondStageWorkerClient => serverLockSecondMutex
  | .thirdStageWorkerClient => serverLockThirdMutex
  | .logsCollectorClient => serverLockLogsCollectorsMutex
  | .managerClient => serverLockManagersMutex

/-- The `server_unlock_…_mutex` wrapper of a type. -/
def serverUnlockMutexOf : ClientType → ServerProgram Bool
  | .firstStageWorkerClient => serverUnlockFirstMutex
  | .secondStageWorkerClient => serverUnlockSecondMutex
  | .thirdStageWorkerClient => serverUnlockThirdMutex
  | .logsCollectorClient => serverUnlockLogsCollectorsMutex
  | .managerClient => serverUnlockManagersMutex

def handleSocketOpError (cause : String) : ServerProgram HandleResult := do
  let error ← loadErrno
  if error.handleResult = .unknownSocketError then perror cause
  return error.handleResult

def isSocketAlive (sockFd : Int) : ServerProgram Bool := do
  match ← getsockoptError sockFd with
  | .failed _ => do
    print "> Error getting socket error code"
    return false
  | .pending (some error) => do
    storeErrno error
    let _ ← handleSocketOpError "is_socket_alive"
    return false
  | .pending none => return true

def nonblockingEnqueueLog (message : String) : ServerProgram Bool := do
  return (← enqueueLog message) = .enqueued

def handleLog (message : String) : ServerProgram Unit := do
  print message
  if !(← nonblockingEnqueueLog message) then
    print "> Logs queue if full. Can't add new log to the queue\n\n"

/-- The client type among the bytes of a `recv` that filled it, least significant first. -/
def clientTypeOfBytes (bytes : List UInt8) : Nat :=
  bytes.foldr (fun byte rest => byte.toNat + 256 * rest) 0

def receiveClientType (clientSockFd : Int) : ServerProgram (Option Nat) := do
  let received ← forFrom (fun _ (_ : Unit) => do
    match ← recv clientSockFd sizeofClientType with
    | .received bytes =>
      if bytes.length = sizeofClientType then return .exit bytes else return .next ()
    | .failed _ => return .next ()) 16 0 ()
  match received with
  | .exit bytes => return some (clientTypeOfBytes bytes)
  | .next () => do
    print "TOO BAD\n"
    return none

/-- One `getnameinfo` of `fill_client_metainfo` with its fallback. -/
def clientNames (addr : SockaddrIn) (numeric : Bool) : ServerProgram (CString × CString) := do
  match ← getnameinfo addr numeric with
  | some names => return names
  | none => do
    print "> Could not fetch info about socket address\n"
    return ("unknown host".toList, "unknown port".toList)

def fillClientMetainfo (c : ClientType) (i : Nat) (clientAddr : SockaddrIn) :
    ServerProgram Unit := do
  let (host, port) ← clientNames clientAddr false
  let info ← loadInfo c i
  storeInfo c i { info with host := host, port := port }
  let (numericHost, numericPort) ← clientNames clientAddr true
  let info ← loadInfo c i
  storeInfo c i { info with numericHost := numericHost, numericPort := numericPort }

/-- The loop body of `insert_new_client_into_arrays`. -/
def insertIntoSlot (c : ClientType) (clientAddr : SockaddrIn) (clientSockFd : Int) (i : Nat) :
    ServerProgram (LoopFlow Unit Nat) := do
  let fd ← loadFd c i
  if fd ≠ -1 then return .next ()
  let arraySize ← loadArrSize c
  assert (arraySize < maxNumberOf c) "*array_size < max_array_size"
  storeAddr c i clientAddr
  incrementArrSize c
  fillClientMetainfo c i clientAddr
  storeFd c i clientSockFd
  return .exit i

/-- `none` stands for the returned `(size_t)-1`. -/
def insertNewClientIntoArrays (c : ClientType) (clientAddr : SockaddrIn) (clientSockFd : Int) :
    ServerProgram (Option Nat) := do
  let arraySize ← loadArrSize c
  assert (arraySize ≤ maxNumberOf c) "*array_size <= max_array_size"
  match ← forFrom (fun i _ => insertIntoSlot c clientAddr clientSockFd i) (maxNumberOf c) 0 () with
  | .exit i => return some i
  | .next () => return none

/-- A case of the `switch` of `handle_new_client`; `none` is its `return false`. -/
def registerClient (c : ClientType) (clientAddr : SockaddrIn) (clientSockFd : Int) :
    ServerProgram (Option (Option Nat)) := do
  if !(← serverLockMutexOf c) then return none
  let insertIndex ← insertNewClientIntoArrays c clientAddr clientSockFd
  if !(← serverUnlockMutexOf c) then return none
  return some insertIndex

/-- What `handle_new_client` does once the type is known. -/
def handleClientOfType (c : ClientType) (clientAddr : SockaddrIn) (clientSockFd : Int) :
    ServerProgram Bool := do
  match ← registerClient c clientAddr clientSockFd with
  | none => return false
  | some none => do
    print s!"> Can't accept new client: limit for client of type \"{clientTypeToString c}\" has been reached\n"
    return false
  | some (some insertIndex) => do
    let info ← loadInfo c insertIndex
    let message :=
      s!"> Accepted new client with type \"{clientTypeToString c}\"[address={info.address}]\n"
    let _ ← nonblockingEnqueueLog message
    print message
    return true

def handleNewClient (clientAddr : SockaddrIn) (clientAddrlen : Nat) (clientSockFd : Int) :
    ServerProgram Bool := do
  if clientAddrlen ≠ sizeofSockaddrIn then
    print s!"> Unknown client of size {clientAddrlen}\n"
    return false
  if (← setsockopt clientSockFd .keepAlive).isSome then
    perror "setsockopt"
    return false
  if (← setsockopt clientSockFd .keepIdle).isSome then
    perror "setsockopt"
    return false
  match ← receiveClientType clientSockFd with
  | none => do
    print s!"> Could not get client type at port {clientAddr.sinPort}\n"
    return false
  | some type =>
    match ClientType.ofRaw type with
    | none => do
      print s!"> Unknown client type: {type}\n"
      return false
    | some c => handleClientOfType c clientAddr clientSockFd

/-- The text in which the two messages of `send_shutdown_signal_to_one_impl` name the client. -/
def describeClient : Option ClientMetaInfo → String
  | some info => info.address
  | none => "unknown host:unknown port | unknown host:unknown port"

def sendShutdownSignalToOneImpl (sockFd : Int) (info : Option ClientMetaInfo) :
    ServerProgram Unit := do
  match ← send sockFd .shutdownMessage with
  | .sent size =>
    if size = shutdownMessageSize then do
      print s!"> Sent shutdown signal to the client[address={describeClient info}]\n\n"
      if (← shutdown sockFd).isSome then
        let _ ← handleSocketOpError "shutdown[send_shutdown_signal_to_one_impl]"
    else do
      perror "send"
      print s!"> Could not send shutdown signal to the client[address={describeClient info}]\n"
  | .failed _ => do
    perror "send"
    print s!"> Could not send shutdown signal to the client[address={describeClient info}]\n"

def serverAcceptClient : ServerProgram Bool := do
  match ← accept with
  | .failed error => do
    if error ≠ .eintr then perror "accept"
    return false
  | .connected clientSockFd clientAddr clientAddrlen => do
    if !(← handleNewClient clientAddr clientAddrlen clientSockFd) then
      sendShutdownSignalToOneImpl clientSockFd none
      let _ ← close clientSockFd
    return true

def sendShutdownSignalToSlot (c : ClientType) (i : Nat) : ServerProgram (LoopFlow Unit Empty) := do
  let sockFd ← loadFd c i
  if sockFd ≠ -1 then
    let info ← loadInfo c i
    sendShutdownSignalToOneImpl sockFd (some info)
  return .next ()

def sendShutdownSignalToAllInArrImpl (c : ClientType) : ServerProgram Unit := do
  let _ ← forFrom (fun i _ => sendShutdownSignalToSlot c i) (maxNumberOf c) 0 ()

/-- The body that the five `send_shutdown_signal_to_<type>` functions share. -/
def sendShutdownSignalToClients (c : ClientType) : ServerProgram Unit := do
  if ← serverLockMutexOf c then
    sendShutdownSignalToAllInArrImpl c
    storeArrSize c 0
    let _ ← serverUnlockMutexOf c

def sendShutdownSignalToFirstWorkers : ServerProgram Unit :=
  sendShutdownSignalToClients .firstStageWorkerClient
def sendShutdownSignalToSecondWorkers : ServerProgram Unit :=
  sendShutdownSignalToClients .secondStageWorkerClient
def sendShutdownSignalToThirdWorkers : ServerProgram Unit :=
  sendShutdownSignalToClients .thirdStageWorkerClient
def sendShutdownSignalToLogsCollectors : ServerProgram Unit :=
  sendShutdownSignalToClients .logsCollectorClient
def sendShutdownSignalToManagers : ServerProgram Unit :=
  sendShutdownSignalToClients .managerClient

def sendShutdownSignalToAll : ServerProgram Unit := do
  sendShutdownSignalToFirstWorkers
  sendShutdownSignalToSecondWorkers
  sendShutdownSignalToThirdWorkers
  sendShutdownSignalToLogsCollectors
  sendShutdownSignalToManagers
  if (← Call.make .shutdownListening : Option Errno).isSome then
    perror "shutdown[send_shutdown_signal_to_all]"

def dropWorker (c : ClientType) (i : Nat) (workerFd : Int) : ServerProgram Unit := do
  storeFd c i (-1)
  let _ ← close workerFd
  decrementArrSize c

/-- The `switch` over `handle_socket_op_error` after a failed transfer, in both loops. -/
def handleFailedTransfer (cause : String) (c : ClientType) (i : Nat) (workerFd : Int)
    (pinsQ : PinsQueue) : ServerProgram (LoopFlow PinsQueue (Bool × PinsQueue)) := do
  match ← handleSocketOpError cause with
  | .emptyClientSocket => return .next pinsQ
  | .deadClientSocket => do
    dropWorker c i workerFd
    return .next pinsQ
  | .unknownSocketError => return .exit (false, pinsQ)

/-- The loop body of `poll_workers` after a `recv` that filled the pin. -/
def storeReceivedPin (c : ClientType) (i : Nat) (pin : Pin) (pinsQ : PinsQueue) :
    ServerProgram (LoopFlow PinsQueue (Bool × PinsQueue)) := do
  let info ← loadInfo c i
  handleLog s!"> Received pin[pin_id={pin.pinId.toInt}] from the worker[address={info.address}]\n"
  let (res, pinsQ) ← orAbort (pinsQueueTryPut pinsQ pin) "queue->write_pos < PINS_QUEUE_MAX_SIZE"
  assert res "res"
  return .next pinsQ

/-- The loop of `poll_workers`, its conditions first. -/
def pollWorker (c : ClientType) (i : Nat) (pinsQ : PinsQueue) :
    ServerProgram (LoopFlow PinsQueue (Bool × PinsQueue)) := do
  let currentWorkersOnline ← loadArrSize c
  if currentWorkersOnline = 0 ∨ pinsQueueFull pinsQ then return .exit (true, pinsQ)
  let workerFd ← loadFd c i
  if workerFd = -1 then return .next pinsQ
  if !(← isSocketAlive workerFd) then
    dropWorker c i workerFd
    return .next pinsQ
  match ← recv workerFd sizeofPin with
  | .received bytes =>
    if bytes.length = sizeofPin then storeReceivedPin c i (Pin.ofBytes bytes) pinsQ
    else handleFailedTransfer "recv" c i workerFd pinsQ
  | .failed _ => handleFailedTransfer "recv" c i workerFd pinsQ

def pollWorkers (c : ClientType) (pinsQ : PinsQueue) : ServerProgram (Bool × PinsQueue) := do
  match ← forFrom (pollWorker c) (maxNumberOf c) 0 pinsQ with
  | .exit result => return result
  | .next pinsQ => return (true, pinsQ)

/-- The loop of `send_pins_to_workers`, its conditions first. -/
def sendPinToWorker (c : ClientType) (i : Nat) (pinsQ : PinsQueue) :
    ServerProgram (LoopFlow PinsQueue (Bool × PinsQueue)) := do
  let currentWorkersOnline ← loadArrSize c
  if currentWorkersOnline = 0 ∨ pinsQueueEmpty pinsQ then return .exit (true, pinsQ)
  let workerFd ← loadFd c i
  if workerFd = -1 then return .next pinsQ
  if !(← isSocketAlive workerFd) then
    dropWorker c i workerFd
    return .next pinsQ
  let (res, pinsQ, pin) ←
    orAbort (pinsQueueTryPop pinsQ ⟨0⟩) "queue->read_pos < PINS_QUEUE_MAX_SIZE"
  assert res "res"
  match ← send workerFd (.pin pin) with
  | .sent size =>
    if size = sizeofPin then do
      let info ← loadInfo c i
      handleLog s!"> Send pin[pid_id={pin.pinId.toInt}] to the worker[address={info.address}]\n"
      return .next pinsQ
    else handleFailedTransfer "send" c i workerFd pinsQ
  | .failed _ => handleFailedTransfer "send" c i workerFd pinsQ

def sendPinsToWorkers (c : ClientType) (pinsQ : PinsQueue) : ServerProgram (Bool × PinsQueue) := do
  match ← forFrom (sendPinToWorker c) (maxNumberOf c) 0 pinsQ with
  | .exit result => return result
  | .next pinsQ => return (true, pinsQ)

def nonblockingPollWorkersOnTheFirstStage (pins1To2 : PinsQueue) :
    ServerProgram (Bool × PinsQueue) := do
  if (← loadArrSize .firstStageWorkerClient) = 0 ∨ pinsQueueFull pins1To2 then
    return (true, pins1To2)
  if !(← serverLockFirstMutex) then return (false, pins1To2)
  let (res, pins1To2) ← pollWorkers .firstStageWorkerClient pins1To2
  if !(← serverUnlockFirstMutex) then return (false, pins1To2)
  return (res, pins1To2)

def nonblockingPollWorkersOnTheSecondStage (pins1To2 pins2To3 : PinsQueue) :
    ServerProgram (Bool × PinsQueue × PinsQueue) := do
  if (← loadArrSize .secondStageWorkerClient) = 0 ∨
      (pinsQueueFull pins1To2 ∧ pinsQueueEmpty pins2To3) then
    return (true, pins1To2, pins2To3)
  if !(← serverLockSecondMutex) then return (false, pins1To2, pins2To3)
  let (res, pins1To2) ← sendPinsToWorkers .secondStageWorkerClient pins1To2
  let pins2To3 ←
    if res then do
      let (_, pins2To3) ← pollWorkers .secondStageWorkerClient pins2To3
      pure pins2To3
    else pure pins2To3
  if !(← serverUnlockSecondMutex) then return (false, pins1To2, pins2To3)
  return (res, pins1To2, pins2To3)

def nonblockingPollWorkersOnTheThirdStage (pins2To3 : PinsQueue) :
    ServerProgram (Bool × PinsQueue) := do
  if (← loadArrSize .thirdStageWorkerClient) = 0 ∨ pinsQueueEmpty pins2To3 then
    return (true, pins2To3)
  if !(← serverLockThirdMutex) then return (false, pins2To3)
  let (res, pins2To3) ← sendPinsToWorkers .thirdStageWorkerClient pins2To3
  if !(← serverUnlockThirdMutex) then return (false, pins2To3)
  return (res, pins2To3)

def closeManager (managerIndex : Nat) : ServerProgram Unit := do
  let fd ← loadFd .managerClient managerIndex
  storeFd .managerClient managerIndex (-1)
  decrementArrSize .managerClient
  let _ ← close fd
  let info ← loadInfo .managerClient managerIndex
  handleLog s!"> Manager [address={info.addressWithPortTwice}] closed connection\n"

/-- The loop body of `nonblocking_poll_managers`; it leaves the loop with `false`, or with the
    command and the index of the manager that sent it. -/
def pollManager (i : Nat) :
    ServerProgram (LoopFlow Unit (Bool × Option (ServerCommand × Nat))) := do
  let managersArrSize ← loadArrSize .managerClient
  if managersArrSize = 0 then return .exit (true, none)
  let workerFd ← loadFd .managerClient i
  if workerFd = -1 then return .next ()
  if !(← isSocketAlive workerFd) then
    closeManager i
    return .next ()
  match ← recv workerFd sizeofServerCommand with
  | .received bytes =>
    if bytes.length = sizeofServerCommand then
      return .exit (true, some (ServerCommand.ofBytes bytes, i))
    else failed i
  | .failed _ => failed i
where
  failed (i : Nat) : ServerProgram (LoopFlow Unit (Bool × Option (ServerCommand × Nat))) := do
    match ← handleSocketOpError "recv" with
    | .emptyClientSocket => return .next ()
    | .deadClientSocket => do
      closeManager i
      return .next ()
    | .unknownSocketError => return .exit (false, none)

/-- The command and `*manager_index` are returned together; `none` is `*manager_index` = -1. -/
def nonblockingPollManagers : ServerProgram (Bool × Option (ServerCommand × Nat)) := do
  match ← forFrom (fun i _ => pollManager i) (maxNumberOf .managerClient) 0 () with
  | .exit result => return result
  | .next () => return (true, none)

/-- The condition of `find_and_shutdown` on a client's info. -/
def ClientMetaInfo.hasAddress (info : ClientMetaInfo) (idAddress portStr : CString) : Bool :=
  (info.host == idAddress && info.port == portStr) ||
    (info.numericHost == idAddress && info.numericPort == portStr)

/-- The loop body of `find_and_shutdown`. -/
def shutdownIfFound (c : ClientType) (idAddress portStr : CString) (i : Nat) :
    ServerProgram (LoopFlow Unit Unit) := do
  if (← loadFd c i) = -1 then return .next ()
  let info ← loadInfo c i
  if info.hasAddress idAddress portStr then
    sendShutdownSignalToOneImpl (← loadFd c i) (some info)
    let _ ← close (← loadFd c i)
    storeFd c i (-1)
    return .exit ()
  return .next ()

def findAndShutdown (c : ClientType) (idAddress : CString) (port : Nat) : ServerProgram Bool := do
  let portStr := Nat.toDigits 10 port
  match ← forFrom (fun i _ => shutdownIfFound c idAddress portStr i) (maxNumberOf c) 0 () with
  | .exit () => return true
  | .next () => return false

def executeCommand (cmd : ServerCommand) : ServerProgram ServerCommandResult := do
  if ← findAndShutdown .firstStageWorkerClient cmd.ipAddress cmd.port then
    return .serverCommandSuccess
  if ← findAndShutdown .secondStageWorkerClient cmd.ipAddress cmd.port then
    return .serverCommandSuccess
  if ← findAndShutdown .thirdStageWorkerClient cmd.ipAddress cmd.port then
    return .serverCommandSuccess
  if ← findAndShutdown .logsCollectorClient cmd.ipAddress cmd.port then
    return .serverCommandSuccess
  if ← findAndShutdown .managerClient cmd.ipAddress cmd.port then
    return .serverCommandSuccess
  return .invalidServerCommandArgs

def sendCommandResultToManager (res : ServerCommandResult) (managerIndex : Nat) :
    ServerProgram Bool := do
  assert (managerIndex < maxNumberOf .managerClient) "manager_index < MAX_NUMBER_OF_MANAGERS"
  let sockFd ← loadFd .managerClient managerIndex
  if sockFd = -1 then
    print "> Manager sent shutdown signal to itself\n\n"
    return true
  if (← send sockFd (.commandResult res)) ≠ .sent sizeofServerCommandResult then
    let info ← loadInfo .managerClient managerIndex
    print s!"> Could not command execution result server log to the logs collector[address={info.addressWithPortTwice}]\n"
    if (← handleSocketOpError "send[send_command_result_to_manager]") = .deadClientSocket then
      closeManager managerIndex
    else return false
  return true

/-- The loop body of `send_server_log`. -/
def sendLogToCollector (message : String) (i : Nat) : ServerProgram (LoopFlow Unit Empty) := do
  let logsCollFd ← loadFd .logsCollectorClient i
  if logsCollFd = -1 then return .next ()
  if (← send logsCollFd (.serverLog message)) ≠ .sent maxServerLogSize then
    let info ← loadInfo .logsCollectorClient i
    print s!"> Could not send server log to the logs collector[address={info.addressWithPortTwice}]\n"
    if (← handleSocketOpError "send[send_server_log]") = .deadClientSocket then
      let fd ← loadFd .logsCollectorClient i
      storeFd .logsCollectorClient i (-1)
      let _ ← close fd
      print s!"> Logs collector [address={info.addressWithPortTwice}] closed connection\n"
  return .next ()

def sendServerLog (message : String) : ServerProgram Unit := do
  let _ ← forFrom (fun i _ => sendLogToCollector message i) (maxNumberOf .logsCollectorClient) 0 ()

/-- What a successful `init_server` leaves: zeroed memory with -1 in the slots that are used. -/
def initServer : ServerState where
  groups c :=
    { addrs := fun _ => ⟨0, 0⟩
      fds := fun i => if i < maxNumberOf c then -1 else 0
      info := fun _ => ⟨[], [], [], []⟩
      arrSize := 0 }
  mutexOwner _ := none
  errno _ := .other 0
  accepted := []
  running _ := true
  disposed := false
  cancelled _ := false
  exitStatus _ := none

def closeSlot (c : ClientType) (i : Nat) : ServerProgram (LoopFlow Unit Empty) := do
  let fd ← loadFd c i
  if fd ≠ -1 then
    let _ ← close (← loadFd c i)
  return .next ()

def closeFds (c : ClientType) : ServerProgram Unit := do
  let _ ← forFrom (fun i _ => closeSlot c i) (maxNumberOf c) 0 ()

/-- The descriptors that `deinit_server` closes; it then destroys the logs queue and mutexes. -/
def deinitServer : ServerProgram Unit := do
  closeFds .logsCollectorClient
  closeFds .thirdStageWorkerClient
  closeFds .secondStageWorkerClient
  closeFds .firstStageWorkerClient
  let _ : Option Errno ← Call.make .closeListening

end ArchCompSystems.OsIhw3
