import ArchCompSystems.Library.Pool
import ArchCompSystems.OsIhw4.ClientTools

namespace ArchCompSystems.OsIhw4

open Library Library.Program
open OsIhw3 (ServerLog)

inductive ClientKind where
  | firstWorker
  | secondWorker
  | thirdWorker
  | logsCollector
  | manager
  deriving DecidableEq

/-- The threads of one server, and any number of clients of each kind. A client that never makes its
    first call has not been started. -/
inductive Process where
  | server (thread : ServerThread)
  | client (kind : ClientKind) (i : Nat)
  deriving DecidableEq

def clientProgram (rounds : Nat) : ClientKind → NetProgram ExitCode
  | .firstWorker => FirstWorker.runWorker rounds
  | .secondWorker => SecondWorker.runWorker rounds
  | .thirdWorker => ThirdWorker.runWorker rounds
  | .logsCollector => LogsCollector.runLogsCollector rounds
  | .manager => Manager.runManager rounds

def processProgram (rounds : Nat) : Process → NetProgram Unit
  | .server thread => serverProgram rounds thread
  | .client kind _ => do let _ ← clientProgram rounds kind

/-- How datagrams come from one process to the others: what opening a socket and sending do, and
    which datagrams a process may receive then. -/
structure Network (ν : Type) where
  bindSocket : Process → ν → ν
  send : Process → List UInt8 → ν → ν
  receive : Process → (peek : Bool) → List UInt8 → ν → Option ν

def Network.perform {ν : Type} (N : Network ν) (p : Process) (call : Call) (answer : call.Answer) (network : ν) :
    Option ν :=
  match call, answer with
  | .recvfrom, .received bytes _ _ => N.receive p false bytes network
  | .recv _ peek, .received bytes => N.receive p peek bytes network
  | .sendto bytes, true => some (N.send p bytes network)
  | .bindSocket, true => some (N.bindSocket p network)
  | _, _ => some network

/-- What the processes have beside the network: the server its queue of logs and the threads that
    have stopped, and everyone the last error. -/
structure Hosts where
  logs : BufferState ServerLog
  stopped : List ServerThread
  errno : Process → Errno

namespace Hosts

def initial : Hosts := ⟨.empty (OsIhw3.serverLogsQueueMaxSize .osIhw4) "", [], fun _ => .other 0⟩

def perform (p : Process) (call : Call) (answer : call.Answer) (s : Hosts) : Option Hosts :=
  match call, answer with
  | .recv _ _, .failed error => some { s with errno := Function.update s.errno p error }
  | .errno, error => if error = s.errno p then some s else none
  | .queue c, answer => (s.logs.perform c answer).map fun logs => { s with logs }
  | .stopAllThreads, _ =>
    match p with
    | .server thread => some { s with stopped := thread :: s.stopped }
    | .client _ _ => none
  | .pthreadJoin thread, _ => if thread ∈ s.stopped then some s else none
  | .checkPinCrookness pin, isOk => if isOk = OsIhw4.checkPinCrookness pin then some s else none
  | .nextUint minValue maxValue, value => if minValue ≤ value ∧ value ≤ maxValue then some s else none
  | _, _ => some s

def isCancellationPoint : Call → Bool
  | .recvfrom | .getnameinfo _ _ | .sendto _ | .nanosleep | .queue .waitAdded => true
  | _ => false

def cut (p : Process) (call : Call) (s : Hosts) : Option Hosts :=
  match p with
  | .server .main | .client _ _ => none
  | .server thread => if isCancellationPoint call then some { s with stopped := thread :: s.stopped } else none

end Hosts

structure SystemState (ν : Type) where
  network : ν
  hosts : Hosts

def systemMachine {ν : Type} (N : Network ν) : Machine Process Call Call.Answer (SystemState ν) where
  perform p call answer s := do
    let network ← N.perform p call answer s.network
    let hosts ← s.hosts.perform p call answer
    return ⟨network, hosts⟩
  cut p call s := do
    let hosts ← s.hosts.cut p call
    return ⟨s.network, hosts⟩

/-- The server has been initialised, and nothing has been sent. -/
def systemPool {ν : Type} (rounds : Nat) (network : ν) : Pool Process Call Call.Answer (SystemState ν) where
  programs := processProgram rounds
  state := ⟨network, .initial⟩
  history _ := []

section

variable {ν : Type} {N : Network ν} {p : Process} {call : Call} {s s' : SystemState ν}

theorem network_of_perform {answer : call.Answer} (performed : (systemMachine N).perform p call answer s = some s') :
    N.perform p call answer s.network = some s'.network := by
  obtain ⟨network, transported, rest⟩ := Option.bind_eq_some_iff.mp performed
  obtain ⟨hosts, -, same⟩ := Option.bind_eq_some_iff.mp rest
  cases same
  exact transported

theorem hosts_of_perform {answer : call.Answer} (performed : (systemMachine N).perform p call answer s = some s') :
    s.hosts.perform p call answer = some s'.hosts := by
  obtain ⟨network, -, rest⟩ := Option.bind_eq_some_iff.mp performed
  obtain ⟨hosts, done, same⟩ := Option.bind_eq_some_iff.mp rest
  cases same
  exact done

theorem network_of_cut (taken : (systemMachine N).cut p call s = some s') : s'.network = s.network := by
  obtain ⟨hosts, -, same⟩ := Option.bind_eq_some_iff.mp taken
  cases same
  rfl

end

end ArchCompSystems.OsIhw4
