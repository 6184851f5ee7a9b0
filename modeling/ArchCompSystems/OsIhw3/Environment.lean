import ArchCompSystems.OsIhw3.Server

namespace ArchCompSystems.OsIhw3

open Library

/-- One way in which clients and the system answer, from which single runs are computed. -/
structure Environment where
  accepts : AcceptAnswer
  socketError : Int → SocketErrorAnswer
  receives : Int → Nat → RecvAnswer
  sends : Int → Payload → SendAnswer
  names : SockaddrIn → CString × CString

def Environment.calm : Environment where
  accepts := .failed .eintr
  socketError _ := .pending none
  receives _ _ := .failed .eagain
  sends _ payload := .sent payload.size
  names addr := (['h'], Nat.toDigits 10 addr.sinPort)

/-- The answers that thread `t` gets. Loads answer what is stored, the logs queue has room and
    no log, and every other call succeeds. -/
def Environment.policy (env : Environment) (t : ThreadId) (c : Call) (s : ServerState) :
    Option c.Answer :=
  match c with
  | .loadFd c i => some ((s.groups c).fds i)
  | .loadArrSize c => some (s.groups c).arrSize
  | .loadInfo c i => some ((s.groups c).info i)
  | .loadErrno => some (s.errno t)
  | .accept => some env.accepts
  | .getsockoptError fd => some (env.socketError fd)
  | .recv fd size => some (env.receives fd size)
  | .send fd payload => some (env.sends fd payload)
  | .mutexLock _ | .mutexUnlock _ | .setsockopt _ _ | .shutdown _ | .close _
  | .shutdownListening | .closeListening | .nanosleep | .pthreadCancel _ => some none
  | .getnameinfo addr _ => some (some (env.names addr))
  | .enqueueLog _ => some .enqueued
  | .dequeueLog => some (.failed none)
  | .loadRunning loop => some (s.running loop)
  | .loadDisposed => some s.disposed
  | .pthreadJoin thread => s.exitStatus thread
  | .storeFd _ _ _ | .storeArrSize _ _ | .storeAddr _ _ _ | .storeInfo _ _ _ | .storeErrno _
  | .print _ | .perror _ | .storeRunning _ _ | .storeDisposed _ | .threadExit _ => some ()
  | .abort _ | .goesOn => none

/-- The run of a program by the main thread in which everything is answered by `env`. -/
def Environment.runs {α : Type} (env : Environment) (p : ServerProgram α) (s : ServerState) :
    Option (List ServerEvent × α × ServerState) :=
  machine.exec mainThread (env.policy mainThread) p s

theorem Environment.runs_of_eq_some {α : Type} {env : Environment} {p : ServerProgram α}
    {s s' : ServerState} {history : List ServerEvent} {value : α}
    (executed : env.runs p s = some (history, value, s')) :
    machine.Runs mainThread p s history value s' := Machine.runs_of_exec executed

/-- Operations one after the other, each with its environment, as long as `ok` permits them. -/
def replayOperations {ω : Type} (program : ω → ServerProgram Unit)
    (ok : ω → ServerState → List ServerEvent → Bool) :
    List (Environment × ω) → List ServerEvent × ServerState → Option (List ServerEvent × ServerState)
  | [], reached => some reached
  | (env, operation) :: rest, (history, s) =>
    match env.runs (program operation) s with
    | none => none
    | some (later, _, s') =>
      if ok operation s later then replayOperations program ok rest (history ++ later, s') else none

theorem operationRun_of_replay {ω : Type} {program : ω → ServerProgram Unit}
    {ok : ω → ServerState → List ServerEvent → Bool}
    {allowed : ω → ServerState → List ServerEvent → Prop}
    (implies : ∀ operation s history, ok operation s history = true → allowed operation s history)
    {operations : List (Environment × ω)} {start : ServerState}
    {before reached : List ServerEvent × ServerState}
    (run : machine.OperationRun program allowed start before.1 before.2)
    (replayed : replayOperations program ok operations before = some reached) :
    machine.OperationRun program allowed start reached.1 reached.2 := by
  induction operations generalizing before with
  | nil =>
    cases replayed
    exact run
  | cons first rest ih =>
    obtain ⟨env, operation⟩ := first
    simp only [replayOperations] at replayed
    split at replayed
    · cases replayed
    · rename_i later _ middle executed
      split at replayed
      · rename_i permitted
        have step := Environment.runs_of_eq_some executed
        exact ih (.snoc run step (implies _ _ _ permitted)) replayed
      · cases replayed

theorem exists_operationRun {ω : Type} {program : ω → ServerProgram Unit}
    {ok : ω → ServerState → List ServerEvent → Bool}
    {allowed : ω → ServerState → List ServerEvent → Prop}
    (implies : ∀ operation s history, ok operation s history = true → allowed operation s history)
    {operations : List (Environment × ω)} {start : ServerState}
    {check : List ServerEvent × ServerState → Bool}
    (replayed : (replayOperations program ok operations ([], start)).any check = true) :
    ∃ history s, machine.OperationRun program allowed start history s ∧ check (history, s) = true := by
  obtain ⟨⟨history, s⟩, reached, holds⟩ := (Option.any_eq_true ..).mp replayed
  have run := @operationRun_of_replay _ _ _ _ implies _ _ ([], start) _ (.nil start) reached
  exact ⟨history, s, run, holds⟩

abbrev ServerTurn := Pool.Turn ThreadId Call Call.Answer ServerState

/-- `steps` calls of thread `t`, answered by `env`. -/
def Environment.turn (env : Environment) (t : ThreadId) (steps : Nat) : ServerTurn :=
  .go t steps (env.policy t)

def Environment.connecting (fd : Int) (port : Nat) (type : ClientType) : Environment :=
  { Environment.calm with
    accepts := .connected fd ⟨port, 0⟩ sizeofSockaddrIn
    receives := fun _ _ => .received [UInt8.ofNat type.toRaw, 0, 0, 0] }

/-- Managers send this command: shut down the client at host `h` and this port. -/
def Environment.commanding (port : UInt8) : Environment :=
  { Environment.calm with
    receives := fun _ _ => .received (104 :: List.replicate 39 0 ++ port :: List.replicate 23 0) }

def registrationCalls : Nat := 23

end ArchCompSystems.OsIhw3
