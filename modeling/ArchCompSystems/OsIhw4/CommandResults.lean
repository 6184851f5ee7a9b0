import ArchCompSystems.OsIhw4.CommandMonitor

namespace ArchCompSystems.OsIhw4

open Library Library.Program

/-- Every result that a manager was given is that of the command it has sent last. A manager that got no
    result has `noConnection`. -/
def ResultsAttributed (pool : BroadcastPool) : Prop :=
  ∀ i res next, pool.programs (.client .manager i) = .call (.handleServerResponse res) next → res ≠ noConnection →
    ∃ k d, pool.state.network.lastSent (.client .manager i) = some k ∧
      pool.state.network.lastReceived (.client .manager i) = some d ∧
      d.isResult = true ∧ d.message.commandResult = res ∧ d.cause = some k

/-- A manager sends a command only when every command has its result and no result waits at its socket. -/
def Orderly (pool : BroadcastPool) : Action Process Call Call.Answer → Prop
  | .call (.client .manager i) ⟨.sendto bytes, true⟩ =>
    (UDPMessage.ofBytes bytes).messageType = messageTypeManagerCommand →
      pool.state.network.unanswered = [] ∧ ∀ d ∈ pool.state.network.sockets (.client .manager i), d.isResult = false
  | _ => True

theorem quiet_of_orderly {pool : BroadcastPool} {i : Nat} {c : Call} {answer : c.Answer}
    (orderly : Orderly pool (.call (.client .manager i) ⟨c, answer⟩)) :
    Quiet pool.state.network (.client .manager i) c answer := by
  cases c with
  | sendto bytes =>
    cases answer with
    | false => exact True.intro
    | true => exact orderly
  | _ => exact True.intro

theorem commandsOrdered_start (order : Nat → Nat) : CommandsOrdered (.start order) fun _ => .idle where
  single := Nat.zero_le 1
  outstanding := Nat.le_refl 0
  inbox := nofun
  commanded := nofun
  results := nofun
  awaiting := nofun
  got := nofun

theorem commands_disciplined {rounds : Nat} {order : Nat → Nat} {pool : BroadcastPool}
    (reach : Pool.Reach (systemMachine broadcast) Orderly (systemPool rounds (.start order)) pool) :
    pool.Disciplined resultMonitor (fun _ => .idle) (fun _ _ => True) fun s => CommandsOrdered s.network := by
  refine Pool.Reach.disciplined ?_ ?_ ⟨fun _ => ?_, fun p => processProgram_obeys rounds p, ?_⟩ reach
  · intro pool p c answer s ordered orderly allowed performed
    refine ordered.perform allowed (fun i same => ?_) (network_of_perform performed)
    subst same
    exact quiet_of_orderly orderly
  · intro pool p c s ordered _ taken
    rw [network_of_cut taken]
    exact ⟨True.intro, ordered⟩
  · exact True.intro
  · exact commandsOrdered_start order

/-- In every run in which managers send commands one at a time, each when no result waits for it, every
    result is that of the manager's own last command. -/
theorem results_attributed_of_orderly {rounds : Nat} {order : Nat → Nat} {pool : BroadcastPool}
    (reach : Pool.Reach (systemMachine broadcast) Orderly (systemPool rounds (.start order)) pool) :
    ResultsAttributed pool := by
  intro i res next current received
  have kept := commands_disciplined reach
  have obeys := kept.obeys (.client .manager i)
  rw [current] at obeys
  have phase := obeys.1.2.resolve_right received
  exact kept.agrees.got i res phase

/-- Answers in a run where the user disables clients of the first kind, and the server's first shutdown
    message cannot be sent. -/
def oneFailedShutdown : (c : Call) → SystemState Broadcast → Option c.Answer
  | .recvfrom, s => (s.network.inbox[s.network.order s.network.received]?).map fun d => .received d.bytes sizeofSockaddrIn ⟨0, 0⟩
  | .recv true _, _ => some (.failed .eagain)
  | .recv false _, _ => some (.received (commandResultMessage serverInternalError).bytes)
  | .queue .tryWaitFree, _ => some false
  | .getnameinfo _ _, _ => some none
  | .getsockopt, _ => some (some 0)
  | .errno, _ => some .eagain
  | .nextUint minValue _, _ => some minValue
  | .sendto bytes, _ => some ((UDPMessage.ofBytes bytes).messageType ≠ messageTypeShutdownMessage)
  | .nanosleep, _ | .isRunning _, _ | .bindSocket, _ => some true
  | .handleServerResponse _, _ => some ()
  | _, _ => none

def handlesResponse (pool : BroadcastPool) (i : Nat) (res : ServerCommandResult) : Bool :=
  match pool.programs (.client .manager i) with
  | .call (.handleServerResponse current) _ => current = res
  | _ => false

theorem programs_of_handlesResponse {pool : BroadcastPool} {i : Nat} {res : ServerCommandResult}
    (handles : handlesResponse pool i res = true) :
    ∃ next, pool.programs (.client .manager i) = .call (.handleServerResponse res) next := by
  unfold handlesResponse at handles
  split at handles
  · rename_i current next program
    exact ⟨next, by rw [program, of_decide_eq_true handles]⟩
  · cases handles

/-- The second manager opens its socket, and the first sends a command; the server answers it; then the
    second sends its command and receives the first one's result. -/
def secondReadsFirst : List (Pool.Turn Process Call Call.Answer (SystemState Broadcast)) :=
  [.go (.client .manager 1) 5 oneFailedShutdown, .go (.client .manager 0) 8 oneFailedShutdown,
    .go (.server .workersPoller) 8 oneFailedShutdown, .go (.client .manager 1) 4 oneFailedShutdown]

def misattributed (pool : BroadcastPool) (i : Nat) : Bool :=
  (pool.state.network.lastReceived (.client .manager i)).bind Datagram.cause ≠ pool.state.network.lastSent (.client .manager i)

/-- A manager takes another one's result for its own. -/
theorem manager_reads_anothers_result : ¬ ∀ (rounds : Nat) (order : Nat → Nat) (pool : BroadcastPool),
    Pool.Reach (systemMachine broadcast) (fun _ _ => True) (systemPool rounds (.start order)) pool →
      ResultsAttributed pool := by
  intro all
  obtain ⟨pool, reach, checks⟩ := @Pool.exists_reach_of_replay _ _ _ _ _ (systemMachine broadcast) (fun _ _ => True)
    (systemPool 2 (.start fun _ => 2)) (fun _ _ => true) secondReadsFirst
    (fun pool => handlesResponse pool 1 serverInternalError && misattributed pool 1) (fun _ _ _ => True.intro)
    (by decide +kernel)
  obtain ⟨handles, wrong⟩ := Bool.and_eq_true_iff.mp checks
  obtain ⟨next, current⟩ := programs_of_handlesResponse handles
  obtain ⟨k, d, sent, received, -, -, cause⟩ := all _ _ pool reach 1 _ next current (by decide)
  refine of_decide_eq_true wrong ?_
  rw [received, Option.bind_some, cause, sent]

def isOrderly (pool : BroadcastPool) : Action Process Call Call.Answer → Bool
  | .call (.client .manager i) ⟨.sendto bytes, true⟩ =>
    (UDPMessage.ofBytes bytes).messageType ≠ messageTypeManagerCommand ||
      pool.state.network.unanswered.isEmpty && (pool.state.network.sockets (.client .manager i)).all (!·.isResult)
  | _ => true

theorem orderly_of_isOrderly (pool : BroadcastPool) (action : Action Process Call Call.Answer)
    (isOrderly : isOrderly pool action = true) : Orderly pool action := by
  unfold Orderly
  split
  · intro command
    simp only [OsIhw4.isOrderly, command, ne_eq, not_true_eq_false, decide_false, Bool.false_or, Bool.and_eq_true,
      List.isEmpty_iff, List.all_eq_true, Bool.not_eq_true'] at isOrderly
    exact isOrderly
  · exact True.intro

def managerReadsOwn : List (Pool.Turn Process Call Call.Answer (SystemState Broadcast)) :=
  [.go (.client .manager 0) 8 oneFailedShutdown, .go (.server .workersPoller) 8 oneFailedShutdown,
    .go (.client .manager 0) 1 oneFailedShutdown]

theorem manager_reads_own_result : ∃ pool : BroadcastPool,
    Pool.Reach (systemMachine broadcast) Orderly (systemPool 2 (.start fun _ => 1)) pool ∧
      handlesResponse pool 0 serverInternalError = true ∧ ResultsAttributed pool := by
  obtain ⟨pool, reach, checks⟩ := @Pool.exists_reach_of_replay _ _ _ _ _ (systemMachine broadcast) Orderly
    (systemPool 2 (.start fun _ => 1)) isOrderly managerReadsOwn (handlesResponse · 0 serverInternalError)
    orderly_of_isOrderly (by decide +kernel)
  exact ⟨pool, reach, checks, results_attributed_of_orderly reach⟩

end ArchCompSystems.OsIhw4
