import ArchCompSystems.OsIhw3.ServerLogsQueue
import ArchCompSystems.OsIhw4.NetConfig

namespace ArchCompSystems.OsIhw4

open Library Library.Program
open OsIhw3 (ServerLog)

inductive ServerThread where
  | workersPoller
  | logsSender
  | main
  deriving DecidableEq

structure SockaddrIn where
  sinPort : Nat
  sinAddr : Nat
  deriving DecidableEq

def sizeofSockaddrIn : Nat := 16

/-- The errors that the clients know by name; `EWOULDBLOCK` is `EAGAIN`. -/
inductive Errno where
  | eagain
  | enetdown
  | epipe
  | enetunreach
  | enetreset
  | econnaborted
  | econnreset
  | econnrefused
  | ehostdown
  | ehostunreach
  | other (code : Nat)
  deriving DecidableEq

inductive RecvfromAnswer where
  | failed
  | received (bytes : List UInt8) (addressSize : Nat) (address : SockaddrIn)
  deriving DecidableEq

inductive RecvAnswer where
  | failed (error : Errno)
  | received (bytes : List UInt8)
  deriving DecidableEq

/-- The calls of the server and of its clients: sockets, the queue of logs, threads, and what the
    clients do with pins and with their user. `bindSocket` opens a client's socket; diagnostic output
    is left out. -/
inductive Call where
  | recvfrom
  | getnameinfo (address : SockaddrIn) (numeric : Bool)
  | queue (call : BufferCall ServerLog)
  | sendto (bytes : List UInt8)
  | alarm (seconds : Nat)
  | nanosleep
  | isRunning (thread : ServerThread)
  | stopAllThreads
  | pthreadJoin (thread : ServerThread)
  | bindSocket
  | getsockopt
  | recv (dontWait peek : Bool)
  | errno
  | receiveNewPin
  | checkPinCrookness (pin : Pin)
  | sharpenPin (pin : Pin)
  | checkSharpenedPinQuality (pin : Pin)
  | nextUint (minValue maxValue : Nat)
  | handleServerResponse (res : ServerCommandResult)
  | abort (assertion : String)
  | goesOn

/-- `sendto` answers whether it sent the whole message, and `getsockopt` the socket's error if it
    does not fail. A failed assertion and a loop cut off at a finite number of rounds have no answer. -/
@[reducible] def Call.Answer : Call → Type
  | .recvfrom => RecvfromAnswer
  | .getnameinfo _ _ => Option (String × String)
  | .queue c => c.Answer
  | .sendto _ | .nanosleep | .isRunning _ | .bindSocket | .checkPinCrookness _
  | .checkSharpenedPinQuality _ => Bool
  | .alarm _ | .stopAllThreads | .pthreadJoin _ | .sharpenPin _ | .handleServerResponse _ => Unit
  | .getsockopt => Option Nat
  | .recv _ _ => RecvAnswer
  | .errno => Errno
  | .receiveNewPin => Pin
  | .nextUint _ _ => Nat
  | .abort _ | .goesOn => Empty

abbrev NetProgram := Program Call Call.Answer

abbrev NetEvent := Event Call.Answer

def Call.make (call : Call) : NetProgram call.Answer := Program.request call

def goesOn {α : Type} : NetProgram α := .call .goesOn fun answer => nomatch answer

def assert (holds : Bool) (assertion : String) : NetProgram Unit :=
  if holds then pure () else .call (.abort assertion) fun answer => nomatch answer

def onQueue {α : Type} : BufferProgram ServerLog α → NetProgram α
  | .done value => .done value
  | .call c next => .call (.queue c) fun answer => onQueue (next answer)

end ArchCompSystems.OsIhw4
