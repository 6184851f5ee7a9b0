import ArchCompSystems.OsIhw3.Environment
import ArchCompSystems.OsIhw3.Mutexes

namespace ArchCompSystems.OsIhw3

open Library Library.Program

/-- The results of commands that a history sends: the connection on which the last command was
    received, which is `issuer` at its start, and the connection that the result was sent on. -/
def replies (issuer : Option Int) : List ServerEvent → List (Option Int × Int)
  | [] => []
  | ⟨.recv fd size, .received bytes⟩ :: rest =>
    replies (if size = sizeofServerCommand ∧ bytes.length = sizeofServerCommand then some fd
      else issuer) rest
  | ⟨.send fd (.commandResult _), _⟩ :: rest => (issuer, fd) :: replies issuer rest
  | _ :: rest => replies issuer rest

/-- Every result goes to the connection on which its command was received. -/
def AnswersIssuer (issuer : Option Int) (history : List ServerEvent) : Prop :=
  ∀ reply ∈ replies issuer history, reply.1 = some reply.2

instance (issuer : Option Int) (history : List ServerEvent) :
    Decidable (AnswersIssuer issuer history) := List.decidableBAll ..

/-- How far `managers_handler` is with a command: the slot and connection that it came from, or,
    while it polls, the slot looked at last. `answering` has the descriptor found in the slot. -/
inductive CommandPhase where
  | polling (last : Option (Nat × Int))
  | received (i : Nat) (issuer : Int)
  | executing (i : Nat) (issuer : Int)
  | replying (i : Nat) (issuer : Int)
  | answering (issuer target : Int)

namespace CommandPhase

def after (phase : CommandPhase) (call : Call) (answer : call.Answer) : CommandPhase :=
  match phase, call, answer with
  | .polling _, .loadFd .managerClient i, fd => .polling (some (i, fd))
  | .polling _, .storeFd .managerClient _ _, _ => .polling none
  | .polling (some (i, fd)), .recv _ size, .received bytes =>
    if size = sizeofServerCommand ∧ bytes.length = sizeofServerCommand then .received i fd
    else .polling (some (i, fd))
  | .received i issuer, .enqueueLog _, _ => .executing i issuer
  | .executing i issuer, .enqueueLog _, _ => .replying i issuer
  | .replying i issuer, .loadFd .managerClient j, target =>
    if j = i then .answering issuer target else .replying i issuer
  | .answering _ _, .nanosleep, _ => .polling none
  | phase, _, _ => phase

/-- The slot whose descriptor the handler relies on, and that descriptor. -/
def pending : CommandPhase → Option (Nat × Int)
  | .polling (some (i, fd)) => if fd = -1 then none else some (i, fd)
  | .received i issuer | .executing i issuer | .replying i issuer => some (i, issuer)
  | _ => none

end CommandPhase

/-- The handler sends a result only to the issuer, receives commands only from the slot it looked
    at last, and writes no descriptor but -1; it relies on the slot of a command keeping the
    issuer's descriptor until it is cleared. -/
def commandMonitor : Monitor Call Call.Answer CommandPhase where
  allowed phase
    | .send fd (.commandResult _) => phase = .answering fd fd
    | .recv fd size => size = sizeofServerCommand → fd ≠ -1 ∧ ∃ i, phase = .polling (some (i, fd))
    | .storeFd _ _ fd => fd = -1
    | _ => True
  possible phase call answer := match phase, call, answer with
    | .replying i issuer, .loadFd .managerClient j, fd => j = i → fd = issuer ∨ fd = -1
    | _, _, _ => True
  after := CommandPhase.after

def CommandPhase.Issued : CommandPhase → Option Int → Prop
  | .polling _, _ => True
  | .received _ fd, issuer | .executing _ fd, issuer | .replying _ fd, issuer
  | .answering fd _, issuer => issuer = some fd

def Call.isRecv : Call → Bool
  | .recv _ _ => true
  | _ => false

theorem CommandPhase.issued_after {phase : CommandPhase} {issuer : Option Int} {call : Call}
    {answer : call.Answer} (issued : phase.Issued issuer) (other : call.isRecv = false) :
    (phase.after call answer).Issued issuer := by
  cases phase with
  | polling last =>
    cases call with
    | recv fd size => cases other
    | loadFd c i => cases c <;> exact True.intro
    | storeFd c i fd => cases c <;> exact True.intro
    | _ => rcases last with _ | ⟨i, fd⟩ <;> exact True.intro
  | replying i fd =>
    cases call with
    | loadFd c j =>
      cases c with
      | managerClient =>
        simp only [after]
        split <;> exact issued
      | _ => exact issued
    | _ => exact issued
  | _ => cases call <;> first | exact issued | exact True.intro

theorem answersIssuer_of_accepts {phase : CommandPhase} {issuer : Option Int}
    {history : List ServerEvent} (accepts : commandMonitor.Accepts phase history)
    (issued : phase.Issued issuer) : AnswersIssuer issuer history := by
  induction history generalizing phase issuer with
  | nil => simp [AnswersIssuer, replies]
  | cons event rest ih =>
    obtain ⟨allowed, possible, accepts⟩ := accepts
    obtain ⟨call, answer⟩ := event
    cases call with
    | recv fd size =>
      cases answer with
      | failed error =>
        refine ih accepts ?_
        cases phase with
        | polling last => rcases last with _ | ⟨i, fd⟩ <;> exact True.intro
        | _ => exact issued
      | received bytes =>
        simp only [AnswersIssuer, replies]
        by_cases full : size = sizeofServerCommand ∧ bytes.length = sizeofServerCommand
        · obtain ⟨-, i, rfl⟩ := allowed full.1
          rw [if_pos full]
          refine ih accepts ?_
          simp only [commandMonitor, CommandPhase.after, if_pos full]
          exact rfl
        · rw [if_neg full]
          refine ih accepts ?_
          cases phase with
          | polling last =>
            rcases last with _ | ⟨i, fd⟩
            · exact True.intro
            · simp only [commandMonitor, CommandPhase.after, if_neg full]
              exact True.intro
          | _ => exact issued
    | send fd payload =>
      have rest := ih accepts (CommandPhase.issued_after issued rfl)
      cases payload with
      | commandResult result =>
        subst allowed
        exact List.forall_mem_cons.mpr ⟨issued, rest⟩
      | _ => exact rest
    | _ => exact ih accepts (CommandPhase.issued_after issued rfl)

def Steady (phase : CommandPhase) (call : Call) : Prop :=
  commandMonitor.allowed phase call ∧ ∀ answer, commandMonitor.after phase call answer = phase

section

variable {phase : CommandPhase} {last : Option (Nat × Int)} {i : Nat} {issuer target : Int} {α : Type}

theorem obeys_of_steady {p : ServerProgram α} (calls : p.Calls (Steady phase)) :
    commandMonitor.Obeys (fun _ phase' => phase' = phase) p phase :=
  Monitor.obeys_of_calls (fun _ steady => steady) calls

theorem steady_polling {call : Call} (logging : call.Logging) : Steady (.polling last) call := by
  cases call <;> first | exact logging.elim | (rcases last with _ | last <;> exact ⟨True.intro, fun _ => rfl⟩)

theorem steady_executing {call : Call} (plain : call.Plain) : Steady (.executing i issuer) call := by
  cases call <;> first | exact plain.elim | exact ⟨True.intro, fun _ => rfl⟩

theorem steady_answering {call : Call} (logging : call.Logging) :
    Steady (.answering issuer target) call := by
  cases call <;> first | exact logging.elim | exact ⟨True.intro, fun _ => rfl⟩

theorem obeys_loadFd_polling : commandMonitor.Obeys (fun fd phase => phase = .polling (some (i, fd)))
    (loadFd .managerClient i) (.polling last) := ⟨True.intro, fun _ _ => rfl⟩

theorem obeys_storeFd_polling : commandMonitor.Obeys (fun _ phase => phase = .polling none)
    (storeFd .managerClient i (-1)) (.polling last) := ⟨rfl, fun _ _ => rfl⟩

theorem closeManager_polling : commandMonitor.Obeys (fun _ phase => ∃ last, phase = .polling last)
    (closeManager i) (.polling last) := by
  unfold closeManager
  refine Monitor.obeys_bind.mpr (Monitor.obeys_mono ?_ obeys_loadFd_polling)
  rintro fd _ rfl
  refine Monitor.obeys_bind.mpr (Monitor.obeys_mono ?_ obeys_storeFd_polling)
  rintro _ _ rfl
  refine Monitor.obeys_mono (fun _ _ same => ⟨none, same⟩) (obeys_of_steady ?_)
  unfold decrementArrSize
  repeat' first
    | exact calls_make ⟨True.intro, fun _ => rfl⟩
    | exact (handleLog_calls _).mono fun _ => steady_polling
    | refine calls_bind ?_ fun _ => ?_

def Polled : Bool × Option (ServerCommand × Nat) → CommandPhase → Prop
  | (_, none), phase => ∃ last, phase = .polling last
  | (true, some (_, i)), phase => ∃ issuer, phase = .received i issuer
  | (false, some _), _ => False

def PolledFlow : LoopFlow Unit (Bool × Option (ServerCommand × Nat)) → CommandPhase → Prop
  | .next (), phase => ∃ last, phase = .polling last
  | .exit result, phase => Polled result phase

theorem pollManagerFailed_polling : commandMonitor.Obeys PolledFlow (pollManager.failed i)
    (.polling last) := by
  unfold pollManager.failed
  refine Monitor.obeys_bind.mpr (Monitor.obeys_mono ?_
    (obeys_of_steady ((handleSocketOpError_calls _).mono fun _ plain => steady_polling plain.logging)))
  rintro result _ rfl
  cases result with
  | emptyClientSocket => exact ⟨last, rfl⟩
  | deadClientSocket =>
    exact Monitor.obeys_bind.mpr (Monitor.obeys_mono (fun _ _ polling => polling) closeManager_polling)
  | unknownSocketError => exact ⟨last, rfl⟩

theorem pollManager_polling : commandMonitor.Obeys PolledFlow (pollManager i) (.polling last) := by
  unfold pollManager
  refine Monitor.obeys_bind.mpr (Monitor.obeys_mono ?_
    (obeys_of_steady (calls_make ⟨True.intro, fun _ => ?_⟩)))
  · rintro managersArrSize _ rfl
    split
    · exact ⟨last, rfl⟩
    refine Monitor.obeys_bind.mpr (Monitor.obeys_mono ?_ obeys_loadFd_polling)
    rintro workerFd _ rfl
    split
    · exact ⟨_, rfl⟩
    rename_i connected
    refine Monitor.obeys_bind.mpr (Monitor.obeys_mono ?_
      (obeys_of_steady ((isSocketAlive_calls _).mono fun _ plain => steady_polling plain.logging)))
    rintro alive _ rfl
    cases alive with
    | false =>
      exact Monitor.obeys_bind.mpr (Monitor.obeys_mono (fun _ _ polling => polling) closeManager_polling)
    | true =>
      refine ⟨fun _ => ⟨connected, i, rfl⟩, fun answer _ => ?_⟩
      cases answer with
      | failed error => exact pollManagerFailed_polling
      | received bytes =>
        have moved : commandMonitor.after (.polling (some (i, workerFd)))
            (.recv workerFd sizeofServerCommand) (.received bytes) =
              if bytes.length = sizeofServerCommand then .received i workerFd
              else .polling (some (i, workerFd)) := by
          simp [commandMonitor, CommandPhase.after]
        rw [moved]
        change commandMonitor.Obeys PolledFlow (if bytes.length = sizeofServerCommand then
          pure (.exit (true, some (ServerCommand.ofBytes bytes, i))) else pollManager.failed i) _
        split
        · exact ⟨workerFd, rfl⟩
        · exact pollManagerFailed_polling
  · rcases last with _ | last <;> rfl

theorem nonblockingPollManagers_polling :
    commandMonitor.Obeys Polled nonblockingPollManagers (.polling last) := by
  unfold nonblockingPollManagers
  refine Monitor.obeys_bind.mpr (Monitor.obeys_mono ?_ (@Monitor.obeys_forFrom _ _ _ _ _ commandMonitor
    (.polling last) (fun i _ => pollManager i) (fun _ _ phase => ∃ last, phase = .polling last)
    Polled (maxNumberOf .managerClient) 0 () ?_ ⟨last, rfl⟩))
  · rintro flow phase after
    cases flow <;> exact after
  · rintro i _ _ ⟨last, rfl⟩
    exact Monitor.obeys_mono (fun flow _ after => by cases flow <;> exact after) pollManager_polling

theorem executeCommand_executing (cmd : ServerCommand) :
    (executeCommand cmd).Calls (Steady (.executing i issuer)) := by
  unfold executeCommand findAndShutdown shutdownIfFound
  repeat' first
    | exact True.intro
    | exact calls_make ⟨True.intro, fun _ => rfl⟩
    | exact calls_make ⟨rfl, fun _ => rfl⟩
    | exact sendShutdownSignalToOneImpl_calls (fun _ => steady_executing)
        (fun _ => ⟨True.intro, fun _ => rfl⟩) _ _
    | refine calls_forFrom (fun _ _ => ?_) _ _ _
    | refine calls_bind ?_ fun _ => ?_
    | split

theorem printAndEnqueueLog_moves {moved : CommandPhase} (message : String)
    (print : ∀ text, Steady phase (.print text))
    (enqueue : ∀ answer, commandMonitor.after phase (.enqueueLog message) answer = moved)
    (warn : ∀ text, Steady moved (.print text)) :
    commandMonitor.Obeys (fun _ phase' => phase' = moved) (printAndEnqueueLog message) phase := by
  unfold printAndEnqueueLog
  refine Monitor.obeys_bind.mpr (Monitor.obeys_mono ?_ (obeys_of_steady (calls_make (print _))))
  rintro _ _ rfl
  refine ⟨True.intro, fun answer _ => ?_⟩
  rw [enqueue answer]
  cases answer with
  | enqueued => exact rfl
  | refused error => exact obeys_of_steady (calls_make (warn _))

theorem closeManager_answering : (closeManager i).Calls (Steady (.answering issuer target)) := by
  unfold closeManager decrementArrSize
  repeat' first
    | exact calls_make ⟨True.intro, fun _ => rfl⟩
    | exact calls_make ⟨rfl, fun _ => rfl⟩
    | exact (handleLog_calls _).mono fun _ => steady_answering
    | refine calls_bind ?_ fun _ => ?_

theorem obeys_loadFd_replying : commandMonitor.Obeys
    (fun fd phase => (fd = issuer ∨ fd = -1) ∧ phase = .answering issuer fd)
    (loadFd .managerClient i) (.replying i issuer) :=
  ⟨True.intro, fun _ found => ⟨found rfl, if_pos rfl⟩⟩

theorem sendCommandResultToManager_replying (res : ServerCommandResult) :
    commandMonitor.Obeys (fun _ phase => ∃ target, phase = .answering issuer target)
      (sendCommandResultToManager res i) (.replying i issuer) := by
  unfold sendCommandResultToManager
  refine Monitor.obeys_bind.mpr (Monitor.obeys_mono ?_
    (obeys_of_steady (assert_calls (fun _ => ⟨True.intro, fun _ => rfl⟩) _ _)))
  rintro _ _ rfl
  refine Monitor.obeys_bind.mpr (Monitor.obeys_mono ?_ obeys_loadFd_replying)
  rintro target _ ⟨found, rfl⟩
  refine Monitor.obeys_mono (fun _ _ same => ⟨target, same⟩) (obeys_of_steady ?_)
  split
  · exact calls_bind (calls_make ⟨True.intro, fun _ => rfl⟩) fun _ => True.intro
  · -- The slot has not been cleared, so it still has the issuer's descriptor.
    rename_i connected
    obtain rfl := found.resolve_right connected
    repeat' first
      | exact True.intro
      | exact calls_make ⟨True.intro, fun _ => rfl⟩
      | exact calls_make ⟨rfl, fun _ => rfl⟩
      | exact (handleSocketOpError_calls _).mono fun _ plain => steady_answering plain.logging
      | exact closeManager_answering
      | refine calls_bind ?_ fun _ => ?_
      | split

def CommandPhase.Resting (phase : CommandPhase) : Prop :=
  (∃ last, phase = .polling last) ∨ ∃ issuer target, phase = .answering issuer target

theorem answerCommand_received (cmd : ServerCommand) :
    commandMonitor.Obeys (fun _ phase => phase.Resting) (answerCommand cmd i) (.received i issuer) := by
  unfold answerCommand
  refine Monitor.obeys_bind.mpr (Monitor.obeys_mono ?_
    (obeys_of_steady (calls_make ⟨True.intro, fun _ => rfl⟩)))
  rintro _ _ rfl
  refine Monitor.obeys_bind.mpr (Monitor.obeys_mono ?_ (@printAndEnqueueLog_moves _
    (.executing i issuer) _ (fun _ => ⟨True.intro, fun _ => rfl⟩) (fun _ => rfl)
    (fun _ => ⟨True.intro, fun _ => rfl⟩)))
  rintro _ _ rfl
  refine Monitor.obeys_bind.mpr (Monitor.obeys_mono ?_ (obeys_of_steady (executeCommand_executing cmd)))
  rintro res _ rfl
  refine Monitor.obeys_bind.mpr (Monitor.obeys_mono ?_ (@printAndEnqueueLog_moves _
    (.replying i issuer) _ (fun _ => ⟨True.intro, fun _ => rfl⟩) (fun _ => rfl)
    (fun _ => ⟨True.intro, fun _ => rfl⟩)))
  rintro _ _ rfl
  refine Monitor.obeys_bind.mpr (Monitor.obeys_mono ?_ (sendCommandResultToManager_replying res))
  rintro sent _ ⟨target, rfl⟩
  refine Monitor.obeys_mono (fun _ _ same => .inr ⟨issuer, target, same⟩) (obeys_of_steady ?_)
  repeat' first
    | exact True.intro
    | exact calls_make ⟨True.intro, fun _ => rfl⟩
    | exact (printAndEnqueueLog_calls _).mono fun _ => steady_answering
    | refine calls_bind ?_ fun _ => ?_
    | split

theorem stopAllThreads_resting (resting : phase.Resting) :
    stopAllThreads.Calls (Steady phase) := by
  rcases resting with ⟨_ | last, rfl⟩ | ⟨issuer, target, rfl⟩ <;>
    unfold stopAllThreads cancelThread <;>
    repeat' first
      | exact True.intro
      | exact calls_make ⟨True.intro, fun _ => rfl⟩
      | refine calls_forFrom (fun _ _ => ?_) _ _ _
      | refine calls_bind ?_ fun _ => ?_
      | split

theorem loadRunning_resting (resting : phase.Resting) (loop : Loop) :
    (loadRunning loop).Calls (Steady phase) := by
  rcases resting with ⟨_ | last, rfl⟩ | ⟨issuer, target, rfl⟩ <;>
    exact calls_make ⟨True.intro, fun _ => rfl⟩

theorem sleepBetweenRounds_resting (resting : phase.Resting) : commandMonitor.Obeys
    (fun _ phase => ∃ last, phase = .polling last) sleepBetweenRounds phase := by
  have slept : commandMonitor.Obeys (fun _ phase => ∃ last, phase = .polling last) nanosleep phase := by
    refine ⟨True.intro, fun answer _ => ?_⟩
    rcases resting with ⟨_ | last, rfl⟩ | ⟨issuer, target, rfl⟩ <;> exact ⟨_, rfl⟩
  unfold sleepBetweenRounds
  refine Monitor.obeys_bind.mpr (Monitor.obeys_mono ?_ slept)
  rintro answer _ ⟨last, rfl⟩
  refine Monitor.obeys_mono (fun _ _ same => ⟨last, same⟩) (obeys_of_steady ?_)
  repeat' first
    | exact True.intro
    | exact calls_make (steady_polling True.intro)
    | refine calls_bind ?_ fun _ => ?_
    | split

theorem managersHandlerRound_resting (resting : phase.Resting) :
    commandMonitor.Obeys (fun _ phase => phase.Resting) managersHandlerRound phase := by
  unfold managersHandlerRound
  refine Monitor.obeys_bind.mpr (Monitor.obeys_mono ?_ (obeys_of_steady (loadRunning_resting resting _)))
  rintro running _ rfl
  split
  · exact resting
  refine Monitor.obeys_bind.mpr (Monitor.obeys_mono ?_ (sleepBetweenRounds_resting resting))
  rintro slept _ ⟨last, rfl⟩
  split
  · exact .inl ⟨last, rfl⟩
  refine Monitor.obeys_bind.mpr (Monitor.obeys_mono ?_ nonblockingPollManagers_polling)
  rintro ⟨_ | _, _ | ⟨cmd, i⟩⟩ phase after
  · obtain ⟨last, rfl⟩ := after
    refine Monitor.obeys_mono (fun _ _ same => Or.inl ⟨last, same⟩) (obeys_of_steady ?_)
    exact calls_bind (calls_make (steady_polling True.intro)) fun _ => True.intro
  · exact after.elim
  · exact .inl after
  · obtain ⟨issuer, rfl⟩ := after
    exact answerCommand_received cmd

theorem managersHandler_obeys (rounds : Nat) :
    commandMonitor.Obeys (fun _ _ => True) (managersHandler rounds) (.polling none) := by
  unfold managersHandler
  refine Monitor.obeys_bind.mpr (Monitor.obeys_mono ?_ (@Monitor.obeys_forFrom _ _ _ _ _ commandMonitor
    (.polling none) (fun _ _ => managersHandlerRound) (fun _ _ phase => phase.Resting)
    (fun _ phase => phase.Resting) rounds 0 () ?_ (.inl ⟨none, rfl⟩)))
  · rintro flow phase after
    cases flow with
    | next carried => exact ⟨True.intro, fun answer => nomatch answer⟩
    | exit result =>
      have resting : phase.Resting := after
      refine Monitor.obeys_bind.mpr (Monitor.obeys_mono ?_ (obeys_of_steady ?_))
      · rintro status _ rfl
        exact ⟨True.intro, fun _ _ => True.intro⟩
      · unfold finishLoop
        refine calls_bind (loadRunning_resting resting _) fun _ => ?_
        refine calls_bind (loadRunning_resting resting _) fun _ => ?_
        dsimp only
        split
        · exact calls_bind (stopAllThreads_resting resting) fun _ => True.intro
        · exact True.intro
  · intro i _ phase resting
    exact Monitor.obeys_mono (fun flow _ after => by cases flow <;> exact after)
      (managersHandlerRound_resting resting)

end

def Call.SendsNoResult : Call → Prop
  | .send _ (.commandResult _) => False
  | _ => True

theorem Call.Ordinary.sendsNoResult {call : Call} (ordinary : call.Ordinary) :
    call.SendsNoResult := by
  cases call with
  | send fd payload => cases payload <;> first | exact ordinary.elim | exact True.intro
  | _ => exact True.intro

section

variable {α : Type} {c : ClientType} {p : ServerProgram α}

theorem sendsNoResult_of_ordinary (ordinary : p.Calls Call.Ordinary) : p.Calls Call.SendsNoResult :=
  ordinary.mono fun _ => Call.Ordinary.sendsNoResult

theorem mutexWrappers_sendNoResult (c : ClientType) :
    (serverLockMutexOf c).Calls Call.SendsNoResult ∧ (serverUnlockMutexOf c).Calls Call.SendsNoResult :=
  mutexWrappers_calls (fun _ => True.intro) (fun _ => True.intro)
    (fun _ plain => plain.ordinary.sendsNoResult) c

theorem Unlocking.sendsNoResult (unlocks : Unlocking c p) : p.Calls Call.SendsNoResult := by
  induction unlocks with
  | work working _ ih => exact calls_bind (sendsNoResult_of_ordinary working) ih
  | unlock ending =>
    exact calls_bind (mutexWrappers_sendNoResult c).2 fun ok => sendsNoResult_of_ordinary (ending ok)

theorem Locking.sendsNoResult (locks : Locking c p) : p.Calls Call.SendsNoResult := by
  obtain ⟨refused, entered⟩ := locks
  refine calls_bind (mutexWrappers_sendNoResult c).1 fun ok => ?_
  cases ok with
  | false => exact sendsNoResult_of_ordinary refused
  | true => exact entered.sendsNoResult

theorem PollLocking.sendsNoResult (locks : PollLocking c p) : p.Calls Call.SendsNoResult := by
  obtain ⟨next, rfl, cases⟩ := locks
  refine calls_bind (calls_make True.intro) fun size => ?_
  rcases cases size with ⟨result, returned⟩ | locking
  · rw [returned]
    exact True.intro
  · exact locking.sendsNoResult

end

theorem workersPoller_sendsNoResult (rounds : Nat) :
    (workersPoller rounds).Calls Call.SendsNoResult := by
  unfold workersPoller workersPollerRounds workersPollerRound
  repeat' first
    | exact True.intro
    | exact calls_make True.intro
    | exact sendsNoResult_of_ordinary goesOn_ordinary
    | exact sendsNoResult_of_ordinary (finishLoop_ordinary _)
    | exact sendsNoResult_of_ordinary sleepBetweenRounds_ordinary
    | exact (pollFirstStage_locking _).sendsNoResult
    | exact (pollSecondStage_locking _ _).sendsNoResult
    | exact (pollThirdStage_locking _).sendsNoResult
    | refine calls_forFrom (fun _ _ => ?_) _ _ _
    | refine calls_bind ?_ fun _ => ?_
    | split

theorem serverAcceptClient_sendsNoResult : serverAcceptClient.Calls Call.SendsNoResult := by
  unfold serverAcceptClient handleNewClient handleClientOfType
  repeat' first
    | exact True.intro
    | exact calls_make True.intro
    | exact sendsNoResult_of_ordinary (ordinary_of_inner (receiveClientType_inner _))
    | exact sendsNoResult_of_ordinary (ordinary_of_inner (sendShutdownSignalToOneImpl_inner _ _))
    | exact (registerClient_locking _ _ _).sendsNoResult
    | refine calls_bind ?_ fun _ => ?_
    | split

theorem runServer_sendsNoResult (rounds : Nat) : (runServer rounds).Calls Call.SendsNoResult := by
  unfold runServer startRuntimeLoop acceptRound sendShutdownSignalToAll
  repeat' first
    | exact True.intro
    | exact calls_make True.intro
    | exact sendsNoResult_of_ordinary goesOn_ordinary
    | exact sendsNoResult_of_ordinary (finishLoop_ordinary _)
    | exact sendsNoResult_of_ordinary (ordinary_of_inner deinitServer_inner)
    | exact serverAcceptClient_sendsNoResult
    | exact (sendShutdownSignalToClients_locking _).sendsNoResult
    | refine calls_forFrom (fun _ _ => ?_) _ _ _
    | refine calls_bind ?_ fun _ => ?_
    | split

def silentMonitor : Monitor Call Call.Answer CommandPhase where
  allowed _ call := call.SendsNoResult
  possible _ _ _ := True
  after phase _ _ := phase

def commandMonitors (t : ThreadId) : Monitor Call Call.Answer CommandPhase :=
  if t = managersThread then commandMonitor else silentMonitor

def phaseOf (history : List ServerEvent) : CommandPhase := commandMonitor.run (.polling none) history

/-- No other thread writes the slot of a command that is being handled. -/
def keepsIssuersSlot (pool : ServerPool) : Action ThreadId Call Call.Answer → Prop
  | .call t ⟨.storeFd .managerClient i _, _⟩ => t ≠ managersThread →
    ∀ issuer, (phaseOf (pool.history managersThread)).pending ≠ some (i, issuer)
  | _ => True

def SlotKept (s : ServerState) (phase : CommandPhase) : Prop :=
  ∀ i issuer, phase.pending = some (i, issuer) →
    (s.groups .managerClient).fds i = issuer ∨ (s.groups .managerClient).fds i = -1

theorem CommandPhase.pending_after {phase : CommandPhase} {call : Call} {answer : call.Answer}
    (looks : ∀ i, call ≠ .loadFd .managerClient i) (receives : ∀ fd, call ≠ .recv fd sizeofServerCommand) :
    (phase.after call answer).pending = phase.pending ∨ (phase.after call answer).pending = none := by
  cases phase with
  | polling last =>
    cases call with
    | loadFd c i =>
      cases c with
      | managerClient => exact absurd rfl (looks i)
      | _ => exact .inl rfl
    | storeFd c i fd => cases c <;> first | exact .inl rfl | exact .inr rfl
    | recv fd size =>
      rcases last with _ | ⟨i, found⟩
      · exact .inl rfl
      · cases answer with
        | failed error => exact .inl rfl
        | received bytes =>
          have shorter : ¬ (size = sizeofServerCommand ∧ bytes.length = sizeofServerCommand) := by
            rintro ⟨rfl, -⟩
            exact receives fd rfl
          exact .inl (congrArg pending (if_neg shorter))
    | _ => rcases last with _ | last <;> exact .inl rfl
  | replying i issuer =>
    cases call with
    | loadFd c j =>
      cases c with
      | managerClient => exact absurd rfl (looks j)
      | _ => exact .inl rfl
    | _ => exact .inl rfl
  | _ => cases call <;> exact .inl rfl

section

variable {s s' : ServerState} {phase : CommandPhase} {t : ThreadId} {call : Call} {answer : call.Answer}

theorem SlotKept.of_pending {later : CommandPhase} (kept : SlotKept s phase)
    (fds : (s'.groups .managerClient).fds = (s.groups .managerClient).fds)
    (pending : later.pending = phase.pending ∨ later.pending = none) : SlotKept s' later := by
  intro i issuer relied
  rw [fds]
  rcases pending with same | none
  · exact kept i issuer (same ▸ relied)
  · rw [none] at relied
    cases relied

theorem slotKept_clear {later : CommandPhase} {i : Nat} (kept : SlotKept s phase)
    (pending : later.pending = phase.pending ∨ later.pending = none) :
    SlotKept (s.setFd .managerClient i (-1)) later := by
  intro j issuer relied
  rw [ServerState.setFd_fds_self]
  by_cases cleared : j = i
  · subst cleared
    exact .inr (Function.update_self ..)
  · rw [Function.update_of_ne cleared]
    exact (kept.of_pending rfl pending) j issuer relied

theorem slotKept_look {i : Nat} {fd : Int} (kept : SlotKept s phase)
    (performed : machine.perform t (.loadFd .managerClient i) fd s = some s') :
    commandMonitor.possible phase (.loadFd .managerClient i) fd ∧
      SlotKept s' (phase.after (.loadFd .managerClient i) fd) := by
  obtain ⟨stored, same⟩ := Option.ite_none_right_eq_some.mp performed
  cases same
  cases phase with
  | polling last =>
    refine ⟨True.intro, fun j issuer relied => ?_⟩
    simp only [CommandPhase.after, CommandPhase.pending] at relied
    split at relied
    · cases relied
    · cases relied
      exact .inl stored.symm
  | replying j issuer =>
    refine ⟨fun looked => ?_, fun k relied found => ?_⟩
    · subst looked
      rw [stored]
      exact kept i issuer rfl
    · simp only [CommandPhase.after] at found
      split at found
      · cases found
      · exact kept k relied found
  | _ => exact ⟨True.intro, kept⟩

theorem slotKept_receive {fd : Int} {received : RecvAnswer} (kept : SlotKept s phase)
    (allowed : commandMonitor.allowed phase (.recv fd sizeofServerCommand))
    (fds : (s'.groups .managerClient).fds = (s.groups .managerClient).fds) :
    SlotKept s' (phase.after (.recv fd sizeofServerCommand) received) := by
  obtain ⟨connected, i, rfl⟩ := allowed rfl
  cases received with
  | failed error => exact kept.of_pending fds (.inl rfl)
  | received bytes =>
    simp only [CommandPhase.after]
    split
    · exact kept.of_pending fds (.inl (if_neg connected).symm)
    · exact kept.of_pending fds (.inl rfl)

theorem slotKept_handler (kept : SlotKept s phase) (allowed : commandMonitor.allowed phase call)
    (performed : machine.perform t call answer s = some s') :
    commandMonitor.possible phase call answer ∧ SlotKept s' (phase.after call answer) := by
  by_cases looks : ∃ i, call = .loadFd .managerClient i
  · obtain ⟨i, rfl⟩ := looks
    exact slotKept_look kept performed
  have possible : commandMonitor.possible phase call answer := by
    cases phase with
    | replying i issuer =>
      cases call with
      | loadFd c j => cases c <;> first | exact True.intro | exact absurd ⟨j, rfl⟩ looks
      | _ => exact True.intro
    | _ => exact True.intro
  refine ⟨possible, ?_⟩
  by_cases receives : ∃ fd, call = .recv fd sizeofServerCommand
  · obtain ⟨fd, rfl⟩ := receives
    exact slotKept_receive kept allowed (perform_fds (by simp) performed _)
  have pending := @CommandPhase.pending_after phase call answer (fun i same => looks ⟨i, same⟩)
    (fun fd same => receives ⟨fd, same⟩)
  by_cases stores : ∃ c i fd, call = .storeFd c i fd
  · obtain ⟨c, i, fd, rfl⟩ := stores
    have cleared : fd = -1 := allowed
    subst cleared
    cases performed
    by_cases manager : c = .managerClient
    · subst manager
      exact slotKept_clear kept pending
    · exact kept.of_pending (ServerState.setFd_fds_of_ne (Ne.symm manager) i (-1)) pending
  · exact kept.of_pending
      (perform_fds (fun c i fd same => stores ⟨c, i, fd, same⟩) performed _) pending

theorem slotKept_other {pool : ServerPool} (kept : SlotKept s (phaseOf (pool.history managersThread)))
    (other : t ≠ managersThread) (ok : keepsIssuersSlot pool (.call t ⟨call, answer⟩))
    (performed : machine.perform t call answer s = some s') :
    SlotKept s' (phaseOf (pool.history managersThread)) := by
  by_cases stores : ∃ c i fd, call = .storeFd c i fd
  · obtain ⟨c, i, fd, rfl⟩ := stores
    cases performed
    by_cases manager : c = .managerClient
    · subst manager
      intro j issuer relied
      have elsewhere : j ≠ i := by
        rintro rfl
        exact ok other issuer relied
      rw [ServerState.setFd_fds_self, Function.update_of_ne elsewhere]
      exact kept j issuer relied
    · exact kept.of_pending (ServerState.setFd_fds_of_ne (Ne.symm manager) i fd) (.inl rfl)
  · exact kept.of_pending
      (perform_fds (fun c i fd same => stores ⟨c, i, fd, same⟩) performed _) (.inl rfl)

end

theorem answersIssuer_of_silent {phase : CommandPhase} {issuer : Option Int}
    {history : List ServerEvent} (accepts : silentMonitor.Accepts phase history) :
    AnswersIssuer issuer history := by
  induction history generalizing issuer with
  | nil => simp [AnswersIssuer, replies]
  | cons event rest ih =>
    obtain ⟨silent, -, accepts⟩ := accepts
    obtain ⟨call, answer⟩ := event
    cases call with
    | recv fd size => cases answer <;> exact ih accepts
    | send fd payload => cases payload <;> first | exact silent.elim | exact ih accepts
    | _ => exact ih accepts

theorem serverPool_silent (rounds : Nat) (t : ThreadId) :
    (commandMonitors t).Obeys (fun _ _ => True) ((serverPool rounds).programs t) (.polling none) := by
  have silent : ∀ {p : ServerProgram Unit}, p.Calls Call.SendsNoResult →
      silentMonitor.Obeys (fun _ _ => True) p (.polling none) := fun calls =>
    Monitor.obeys_mono (fun _ _ _ => True.intro)
      (Monitor.obeys_of_calls (fun _ none => ⟨none, fun _ => rfl⟩) calls)
  match t with
  | 0 => exact silent (runServer_sendsNoResult rounds)
  | 1 => exact silent (workersPoller_sendsNoResult rounds)
  | 2 => exact silent (sendsNoResult_of_ordinary (logsSender_ordinary rounds))
  | 3 => exact managersHandler_obeys rounds
  | 4 => exact silent (sendsNoResult_of_ordinary (signalHandler_ordinary 2))
  | t + 5 =>
    have other : commandMonitors (t + 5) = silentMonitor := by
      refine if_neg fun same => ?_
      cases same
    rw [other]
    exact silent True.intro

theorem serverPool_commands {rounds : Nat} {pool : ServerPool}
    (reach : Pool.Reach machine keepsIssuersSlot (serverPool rounds) pool) :
    pool.Disciplined commandMonitors (fun _ => .polling none) (fun _ _ => True)
      fun s phases => SlotKept s (phases managersThread) := by
  refine Pool.Reach.disciplined ?_ ?_ ⟨fun _ => ?_, serverPool_silent rounds, ?_⟩ reach
  · intro pool t call answer s' kept ok allowed performed
    by_cases handler : t = managersThread
    · subst handler
      rw [Function.update_self]
      exact slotKept_handler kept allowed performed
    · rw [Function.update_of_ne (Ne.symm handler)]
      refine ⟨?_, slotKept_other kept handler ok performed⟩
      rw [commandMonitors, if_neg handler]
      exact True.intro
  · intro pool t call s' kept _ taken
    obtain ⟨-, same⟩ := Option.ite_none_right_eq_some.mp taken
    cases same
    exact ⟨True.intro, kept⟩
  · exact True.intro
  · intro i issuer relied
    cases relied

/-- In every run in which no other thread writes the slot of a command while it is handled, every
    result of a command goes to the manager that issued it. -/
theorem results_answer_issuers (rounds : Nat) (pool : ServerPool)
    (reach : Pool.Reach machine keepsIssuersSlot (serverPool rounds) pool) (t : ThreadId) :
    AnswersIssuer none (pool.history t) := by
  have accepts := (serverPool_commands reach).accepts t
  by_cases handler : t = managersThread
  · subst handler
    exact answersIssuer_of_accepts accepts True.intro
  · rw [commandMonitors, if_neg handler] at accepts
    exact answersIssuer_of_silent accepts

def keepsIssuersSlotBool (pool : ServerPool) : Action ThreadId Call Call.Answer → Bool
  | .call t ⟨.storeFd .managerClient i _, _⟩ => t == managersThread ||
    !((phaseOf (pool.history managersThread)).pending.any fun slot => slot.1 == i)
  | _ => true

/-- The calls of the handler until it has received a command from the first slot, and until it has
    disconnected the manager in that slot. -/
def receivingCalls : Nat := 6
def executingCalls : Nat := 28

theorem keepsIssuersSlot_of_bool (pool : ServerPool) (action : Action ThreadId Call Call.Answer)
    (permitted : keepsIssuersSlotBool pool action = true) : keepsIssuersSlot pool action := by
  cases action with
  | cut t call => exact True.intro
  | call t event =>
    obtain ⟨call, answer⟩ := event
    cases call with
    | storeFd c i fd =>
      cases c with
      | managerClient =>
        intro other issuer relied
        simp [keepsIssuersSlotBool, other, relied] at permitted
      | _ => exact True.intro
    | _ => exact True.intro

/-- A manager whose command finds no client gets its result. -/
theorem result_answers_issuer : ∃ pool, Pool.Reach machine keepsIssuersSlot (serverPool 2) pool ∧
    replies none (pool.history managersThread) = [(some 5, 5)] ∧
    AnswersIssuer none (pool.history managersThread) := by
  have replayed : ((serverPool 2).replay machine keepsIssuersSlotBool
      [(Environment.connecting 5 7 .managerClient).turn mainThread registrationCalls,
        (Environment.commanding 9).turn managersThread 34]).any
      (fun pool => replies none (pool.history managersThread) == [(some 5, 5)]) = true := by decide
  obtain ⟨pool, reach, replied⟩ := Pool.exists_reach_of_replay keepsIssuersSlot_of_bool replayed
  exact ⟨pool, reach, eq_of_beq replied, results_answer_issuers 2 pool reach managersThread⟩

/-- A manager disconnects itself, its slot is given to another one, and this one gets the result. -/
theorem result_answers_other_manager : ¬ ∀ (rounds : Nat) (pool : ServerPool),
    Pool.Reach machine (fun _ _ => True) (serverPool rounds) pool →
      AnswersIssuer none (pool.history managersThread) := by
  intro answers
  have replayed : ((serverPool 2).replay machine (fun _ _ => true)
      [(Environment.connecting 5 7 .managerClient).turn mainThread registrationCalls,
        (Environment.commanding 7).turn managersThread (receivingCalls + executingCalls),
        (Environment.connecting 6 8 .managerClient).turn mainThread registrationCalls,
        Environment.calm.turn managersThread 4]).any
      (fun pool => !decide (AnswersIssuer none (pool.history managersThread))) = true := by decide
  obtain ⟨pool, reach, fails⟩ := Pool.exists_reach_of_replay (fun _ _ _ => True.intro) replayed
  simp only [Bool.not_eq_true', decide_eq_false_iff_not] at fails
  exact fails (answers 2 pool reach)

end ArchCompSystems.OsIhw3
