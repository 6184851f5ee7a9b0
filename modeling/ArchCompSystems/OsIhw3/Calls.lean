import ArchCompSystems.Library.Machine
import ArchCompSystems.OsIhw3.NetConfig
import Mathlib.Logic.Function.Basic

namespace ArchCompSystems.OsIhw3

open Library

abbrev ThreadId := Nat

/-- The loops whose `is_…_running` flag the server keeps. -/
inductive Loop where
  | acceptor
  | poller
  | logger
  | managersHandler
  deriving DecidableEq

/-- What the server sends on a client's connection. -/
inductive Payload where
  | shutdownMessage
  | pin (pin : Pin)
  | commandResult (result : ServerCommandResult)
  | serverLog (message : String)
  deriving DecidableEq

def Payload.size : Payload → Nat
  | .shutdownMessage => shutdownMessageSize
  | .pin _ => sizeofPin
  | .commandResult _ => sizeofServerCommandResult
  | .serverLog _ => maxServerLogSize

inductive AcceptAnswer where
  | failed (error : Errno)
  | connected (fd : Int) (addr : SockaddrIn) (addrlen : Nat)

inductive RecvAnswer where
  | failed (error : Errno)
  | received (bytes : List UInt8)
  deriving DecidableEq

def RecvAnswer.length : RecvAnswer → Nat
  | .failed _ => 0
  | .received bytes => bytes.length

def RecvAnswer.error : RecvAnswer → Option Errno
  | .failed error => some error
  | .received _ => none

inductive SendAnswer where
  | failed (error : Errno)
  | sent (size : Nat)
  deriving DecidableEq

def SendAnswer.size : SendAnswer → Nat
  | .failed _ => 0
  | .sent size => size

def SendAnswer.error : SendAnswer → Option Errno
  | .failed error => some error
  | .sent _ => none

/-- Answer of `getsockopt(SO_ERROR)`: it fails, or it reports the pending error, if any. -/
inductive SocketErrorAnswer where
  | failed (error : Errno)
  | pending (error : Option Errno)
  deriving DecidableEq

/-- The errno that `getsockopt` itself sets. -/
def SocketErrorAnswer.error : SocketErrorAnswer → Option Errno
  | .failed error => some error
  | .pending _ => none

/-- A log is refused by `sem_trywait`, which sets `errno`, or by `pthread_mutex_trylock`, which does not. -/
inductive EnqueueAnswer where
  | enqueued
  | refused (error : Option Errno)
  deriving DecidableEq

def EnqueueAnswer.error : EnqueueAnswer → Option Errno
  | .enqueued => none
  | .refused error => error

/-- The next log, or a failed `sem_wait` or `pthread_mutex_lock`. -/
inductive DequeueAnswer where
  | failed (error : Option Errno)
  | dequeued (message : String)
  deriving DecidableEq

def DequeueAnswer.error : DequeueAnswer → Option Errno
  | .failed error => error
  | .dequeued _ => none

inductive SocketOption where
  | keepAlive
  | keepIdle
  deriving DecidableEq

/-- The calls of the server: accesses to variables that several threads see, `errno`, and the
    operating system's and the threading library's functions. -/
inductive Call where
  | loadFd (c : ClientType) (i : Nat)
  | storeFd (c : ClientType) (i : Nat) (fd : Int)
  | loadArrSize (c : ClientType)
  | storeArrSize (c : ClientType) (size : Nat)
  | storeAddr (c : ClientType) (i : Nat) (addr : SockaddrIn)
  | loadInfo (c : ClientType) (i : Nat)
  | storeInfo (c : ClientType) (i : Nat) (info : ClientMetaInfo)
  | loadErrno
  | storeErrno (error : Errno)
  | mutexLock (c : ClientType)
  | mutexUnlock (c : ClientType)
  | accept
  | setsockopt (fd : Int) (option : SocketOption)
  | getsockoptError (fd : Int)
  | recv (fd : Int) (size : Nat)
  | send (fd : Int) (payload : Payload)
  | shutdown (fd : Int)
  | close (fd : Int)
  | shutdownListening
  | closeListening
  | getnameinfo (addr : SockaddrIn) (numeric : Bool)
  | enqueueLog (message : String)
  | dequeueLog
  | print (text : String)
  | perror (cause : String)
  | abort (assertion : String)
  | nanosleep
  | loadRunning (loop : Loop)
  | storeRunning (loop : Loop) (running : Bool)
  | loadDisposed
  | storeDisposed (disposed : Bool)
  | pthreadCancel (thread : ThreadId)
  | pthreadJoin (thread : ThreadId)
  | threadExit (status : Int)
  | goesOn

/-- `Option Errno` is the answer of the calls that only succeed (`none`) or fail; output to the
    console does not fail. A failed assertion and a loop cut off at a finite number of rounds
    (`goesOn`) have no answer. -/
@[reducible] def Call.Answer : Call → Type
  | .loadFd _ _ => Int
  | .loadArrSize _ => Nat
  | .loadInfo _ _ => ClientMetaInfo
  | .loadErrno => Errno
  | .accept => AcceptAnswer
  | .getsockoptError _ => SocketErrorAnswer
  | .recv _ _ => RecvAnswer
  | .send _ _ => SendAnswer
  | .mutexLock _ | .mutexUnlock _ | .setsockopt _ _ | .shutdown _ | .close _
  | .shutdownListening | .closeListening | .nanosleep | .pthreadCancel _ => Option Errno
  | .getnameinfo _ _ => Option (CString × CString)
  | .enqueueLog _ => EnqueueAnswer
  | .dequeueLog => DequeueAnswer
  | .loadRunning _ | .loadDisposed => Bool
  | .pthreadJoin _ => Int
  | .storeFd _ _ _ | .storeArrSize _ _ | .storeAddr _ _ _ | .storeInfo _ _ _ | .storeErrno _
  | .print _ | .perror _ | .storeRunning _ _ | .storeDisposed _ | .threadExit _ => Unit
  | .abort _ | .goesOn => Empty

def Call.isCancellationPoint : Call → Bool
  | .accept | .recv _ _ | .send _ _ | .close _ | .closeListening | .getnameinfo _ _
  | .dequeueLog | .print _ | .perror _ | .nanosleep | .pthreadJoin _ => true
  | _ => false

abbrev ServerProgram := Program Call Call.Answer

abbrev ServerEvent := Event Call.Answer

/-- The fields of `struct Server` for one client type. -/
structure ClientGroup where
  addrs : Nat → SockaddrIn
  fds : Nat → Int
  info : Nat → ClientMetaInfo
  arrSize : Nat

/-- What the threads of the server share, with each thread's `errno`. A descriptor stands for
    the connection behind it, so `accept` never answers the same one twice. -/
structure ServerState where
  groups : ClientType → ClientGroup
  mutexOwner : ClientType → Option ThreadId
  errno : ThreadId → Errno
  accepted : List Int
  running : Loop → Bool
  disposed : Bool
  cancelled : ThreadId → Bool
  exitStatus : ThreadId → Option Int

namespace ServerState

def setGroup (s : ServerState) (c : ClientType) (group : ClientGroup) : ServerState :=
  { s with groups := Function.update s.groups c group }

def setFd (s : ServerState) (c : ClientType) (i : Nat) (fd : Int) : ServerState :=
  s.setGroup c { s.groups c with fds := Function.update (s.groups c).fds i fd }

def setArrSize (s : ServerState) (c : ClientType) (size : Nat) : ServerState :=
  s.setGroup c { s.groups c with arrSize := size }

def setAddr (s : ServerState) (c : ClientType) (i : Nat) (addr : SockaddrIn) : ServerState :=
  s.setGroup c { s.groups c with addrs := Function.update (s.groups c).addrs i addr }

def setInfo (s : ServerState) (c : ClientType) (i : Nat) (info : ClientMetaInfo) : ServerState :=
  s.setGroup c { s.groups c with info := Function.update (s.groups c).info i info }

def setErrno (s : ServerState) (t : ThreadId) (error : Errno) : ServerState :=
  { s with errno := Function.update s.errno t error }

def setOwner (s : ServerState) (c : ClientType) (owner : Option ThreadId) : ServerState :=
  { s with mutexOwner := Function.update s.mutexOwner c owner }

end ServerState

/-- PTHREAD_CANCELED seen through `join_thread`'s conversion to `int`. -/
def pthreadCanceled : Int := -1

/-- A call that failed has set `errno`. -/
def ServerState.afterError (s : ServerState) (t : ThreadId) : Option Errno → ServerState
  | none => s
  | some error => s.setErrno t error

/-- A descriptor that `accept` answers is one it has not answered before. -/
def ServerState.afterAccept (s : ServerState) (t : ThreadId) : AcceptAnswer → Option ServerState
  | .failed error => some (s.setErrno t error)
  | .connected fd _ _ =>
    if fd ≠ -1 ∧ fd ∉ s.accepted then some { s with accepted := fd :: s.accepted } else none

/-- The effect of an answered call. Loads answer the stored value; the other answers are the
    environment's choice, within what the call can answer in the state. -/
def perform (t : ThreadId) (call : Call) (answer : call.Answer) (s : ServerState) :
    Option ServerState :=
  match call, answer with
  | .loadFd c i, answer => if answer = (s.groups c).fds i then some s else none
  | .storeFd c i fd, _ => some (s.setFd c i fd)
  | .loadArrSize c, answer => if answer = (s.groups c).arrSize then some s else none
  | .storeArrSize c size, _ => some (s.setArrSize c size)
  | .storeAddr c i addr, _ => some (s.setAddr c i addr)
  | .loadInfo c i, answer => if answer = (s.groups c).info i then some s else none
  | .storeInfo c i info, _ => some (s.setInfo c i info)
  | .loadErrno, answer => if answer = s.errno t then some s else none
  | .storeErrno error, _ => some (s.setErrno t error)
  | .mutexLock c, answer =>
    if answer.isSome then some s
    else if s.mutexOwner c = none then some (s.setOwner c (some t)) else none
  | .mutexUnlock c, answer => if answer.isSome then some s else some (s.setOwner c none)
  | .accept, answer => s.afterAccept t answer
  | .setsockopt _ _, answer => some (s.afterError t answer)
  | .getsockoptError _, answer => some (s.afterError t answer.error)
  | .recv _ size, answer => if answer.length ≤ size then some (s.afterError t answer.error) else none
  | .send _ payload, answer =>
    if answer.size ≤ payload.size then some (s.afterError t answer.error) else none
  | .shutdown _, answer => some (s.afterError t answer)
  | .close _, answer => some (s.afterError t answer)
  | .shutdownListening, answer => some (s.afterError t answer)
  | .closeListening, answer => some (s.afterError t answer)
  | .getnameinfo _ _, _ => some s
  | .enqueueLog _, answer => some (s.afterError t answer.error)
  | .dequeueLog, answer => some (s.afterError t answer.error)
  | .print _, _ => some s
  | .perror _, _ => some s
  | .abort _, answer => answer.elim
  | .nanosleep, answer => some (s.afterError t answer)
  | .loadRunning loop, answer => if answer = s.running loop then some s else none
  | .storeRunning loop running, _ =>
    some { s with running := Function.update s.running loop running }
  | .loadDisposed, answer => if answer = s.disposed then some s else none
  | .storeDisposed disposed, _ => some { s with disposed := disposed }
  | .pthreadCancel thread, answer =>
    if answer.isSome then some s
    else some { s with cancelled := Function.update s.cancelled thread true }
  | .pthreadJoin thread, answer => if s.exitStatus thread = some answer then some s else none
  | .threadExit status, _ =>
    some { s with exitStatus := Function.update s.exitStatus t (some status) }
  | .goesOn, answer => answer.elim

def cut (t : ThreadId) (call : Call) (s : ServerState) : Option ServerState :=
  if s.cancelled t ∧ call.isCancellationPoint then
    some { s with exitStatus := Function.update s.exitStatus t (some pthreadCanceled) }
  else none

def machine : Machine ThreadId Call Call.Answer ServerState := ⟨perform, cut⟩

end ArchCompSystems.OsIhw3
