import ArchCompSystems.OsIhw3.Pin

namespace ArchCompSystems.OsIhw3

/-- The enumerators of `ClientType` that name a type; any other value a client may send is
    `ENUM_TYPE_SENTINEL` or beyond. -/
inductive ClientType where
  | logsCollectorClient
  | firstStageWorkerClient
  | secondStageWorkerClient
  | thirdStageWorkerClient
  | managerClient
  deriving DecidableEq

def ClientType.toRaw : ClientType → Nat
  | .logsCollectorClient => 0
  | .firstStageWorkerClient => 1
  | .secondStageWorkerClient => 2
  | .thirdStageWorkerClient => 3
  | .managerClient => 4

/-- The `switch` over a received type; `none` is its `default`. -/
def ClientType.ofRaw : Nat → Option ClientType
  | 0 => some .logsCollectorClient
  | 1 => some .firstStageWorkerClient
  | 2 => some .secondStageWorkerClient
  | 3 => some .thirdStageWorkerClient
  | 4 => some .managerClient
  | _ => none

theorem ClientType.ofRaw_toRaw (c : ClientType) : ClientType.ofRaw c.toRaw = some c := by
  cases c <;> rfl

def sizeofClientType : Nat := 4

def clientTypeToString : ClientType → String
  | .logsCollectorClient => "logs collector"
  | .firstStageWorkerClient => "first stage worker"
  | .secondStageWorkerClient => "second stage worker"
  | .thirdStageWorkerClient => "third stage worker"
  | .managerClient => "manager"

/-- `MAX_NUMBER_OF_…`: how many slots of the type's arrays the server's loops visit. -/
def maxNumberOf : ClientType → Nat
  | .logsCollectorClient => 6
  | .firstStageWorkerClient => 3
  | .secondStageWorkerClient => 5
  | .thirdStageWorkerClient => 2
  | .managerClient => 4

theorem maxNumberOf_lt (c : ClientType) : maxNumberOf c < 2 ^ 64 := by
  cases c <;> decide

abbrev CString := List Char

def shutdownMessageSize : Nat := 2

structure ServerCommand where
  ipAddress : CString
  port : Nat

def serverCommandMaxAddressSize : Nat := 40

def sizeofServerCommand : Nat := 64

/-- The fields of a received `ServerCommand`: the address up to its terminator and the
    little-endian port behind the address array. -/
def ServerCommand.ofBytes (bytes : List UInt8) : ServerCommand where
  ipAddress := ((bytes.take serverCommandMaxAddressSize).takeWhile (· ≠ 0)).map
    fun byte => Char.ofNat byte.toNat
  port := (bytes.getD 40 0).toNat + 256 * (bytes.getD 41 0).toNat

inductive ServerCommandResult where
  | serverCommandSuccess
  | invalidServerCommandArgs
  | serverInternalError
  | noConnection
  deriving DecidableEq

def sizeofServerCommandResult : Nat := 4

def serverCommandResultToString : ServerCommandResult → String
  | .serverCommandSuccess => "SERVER_COMMAND_SUCCESS"
  | .invalidServerCommandArgs => "INVALID_SERVER_COMMAND_ARGS"
  | .serverInternalError => "SERVER_INTERNAL_ERROR"
  | .noConnection => "NO_CONNECTION"

def maxServerLogSize : Nat := 512

structure SockaddrIn where
  sinPort : Nat
  sinAddr : Nat
  deriving DecidableEq

def sizeofSockaddrIn : Nat := 16

structure ClientMetaInfo where
  host : CString
  port : CString
  numericHost : CString
  numericPort : CString
  deriving DecidableEq

/-- The texts `host:port | numeric_host:numeric_port` that the messages about a client hold. -/
def ClientMetaInfo.address (info : ClientMetaInfo) : String :=
  s!"{String.ofList info.host}:{String.ofList info.port} | {String.ofList info.numericHost}:{String.ofList info.numericPort}"

/-- The same with `info->port` in the place of the numeric port, as some messages print it. -/
def ClientMetaInfo.addressWithPortTwice (info : ClientMetaInfo) : String :=
  s!"{String.ofList info.host}:{String.ofList info.port} | {String.ofList info.numericHost}:{String.ofList info.port}"

/-- The values of `errno` that the server tells apart. -/
inductive Errno where
  | eagain
  | epipe
  | enetdown
  | enetunreach
  | enetreset
  | econnaborted
  | econnreset
  | enotconn
  | econnrefused
  | ehostdown
  | ehostunreach
  | eintr
  | other (code : Nat)
  deriving DecidableEq

inductive HandleResult where
  | emptyClientSocket
  | deadClientSocket
  | unknownSocketError
  deriving DecidableEq

/-- How `handle_socket_op_error` sorts the values of `errno`. -/
def Errno.handleResult : Errno → HandleResult
  | .eagain => .emptyClientSocket
  | .epipe | .enetdown | .enetunreach | .enetreset | .econnaborted | .econnreset | .enotconn
  | .econnrefused | .ehostdown | .ehostunreach => .deadClientSocket
  | .eintr | .other _ => .unknownSocketError

end ArchCompSystems.OsIhw3
