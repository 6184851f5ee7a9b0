import ArchCompSystems.OsIhw3.Server
import ArchCompSystems.OsIhw3.Rules

namespace ArchCompSystems.OsIhw3

open Library Library.Program

/-- The call touches no slot, counter or mutex, moves no data over a connection, neither opens
    nor closes one, and controls no thread. -/
def Call.Plain : Call → Prop
  | .storeAddr _ _ _ | .loadInfo _ _ | .storeInfo _ _ _ | .loadErrno | .storeErrno _
  | .setsockopt _ _ | .getsockoptError _ | .shutdown _ | .getnameinfo _ _ | .print _ | .perror _ =>
    True
  | _ => False

def Call.Logging : Call → Prop
  | .enqueueLog _ => True
  | other => other.Plain

theorem Call.Plain.quiet {call : Call} (plain : call.Plain) : call.Quiet := by
  cases call <;> first | exact True.intro | exact plain.elim

theorem Call.Plain.logging {call : Call} (plain : call.Plain) : call.Logging := by
  cases call <;> first | exact True.intro | exact plain.elim

theorem Call.Logging.quiet {call : Call} (logging : call.Logging) : call.Quiet := by
  cases call <;> first | exact True.intro | exact logging.elim

section

variable {allowed : Call → Prop}

theorem calls_make {call : Call} (ok : allowed call) : (Call.make call).Calls allowed :=
  ⟨ok, fun _ => True.intro⟩

theorem assert_calls (mayAbort : ∀ assertion, allowed (.abort assertion)) (holds : Bool)
    (assertion : String) : (assert holds assertion).Calls allowed := by
  cases holds with
  | true => exact True.intro
  | false => exact ⟨mayAbort assertion, fun answer => nomatch answer⟩

theorem orAbort_calls {α : Type} (mayAbort : ∀ assertion, allowed (.abort assertion))
    (value : Option α) (assertion : String) : (orAbort value assertion).Calls allowed := by
  cases value with
  | some value => exact True.intro
  | none => exact ⟨mayAbort assertion, fun answer => nomatch answer⟩

end

theorem handleSocketOpError_calls (cause : String) : (handleSocketOpError cause).Calls Call.Plain := by
  unfold handleSocketOpError
  refine calls_bind (calls_make True.intro) fun error => ?_
  dsimp only
  split
  · exact calls_bind (calls_make True.intro) fun _ => True.intro
  · exact True.intro

theorem isSocketAlive_calls (sockFd : Int) : (isSocketAlive sockFd).Calls Call.Plain := by
  unfold isSocketAlive
  refine calls_bind (calls_make True.intro) fun answer => ?_
  split
  · exact calls_bind (calls_make True.intro) fun _ => True.intro
  · exact calls_bind (calls_make True.intro) fun _ =>
      calls_bind (handleSocketOpError_calls _) fun _ => True.intro
  · exact True.intro

theorem handleLog_calls (message : String) : (handleLog message).Calls Call.Logging := by
  unfold handleLog
  refine calls_bind (calls_make True.intro) fun _ => calls_bind (calls_make True.intro) fun _ => ?_
  split
  · exact calls_make True.intro
  · exact True.intro

theorem clientNames_calls (addr : SockaddrIn) (numeric : Bool) :
    (clientNames addr numeric).Calls Call.Plain := by
  unfold clientNames
  refine calls_bind (calls_make True.intro) fun names => ?_
  split
  · exact True.intro
  · exact calls_bind (calls_make True.intro) fun _ => True.intro

theorem fillClientMetainfo_calls (c : ClientType) (i : Nat) (clientAddr : SockaddrIn) :
    (fillClientMetainfo c i clientAddr).Calls Call.Plain := by
  unfold fillClientMetainfo
  refine calls_bind (clientNames_calls _ _) fun names => ?_
  refine calls_bind (calls_make True.intro) fun _ => calls_bind (calls_make True.intro) fun _ => ?_
  refine calls_bind (clientNames_calls _ _) fun numericNames => ?_
  exact calls_bind (calls_make True.intro) fun _ => calls_make True.intro

theorem sendShutdownSignalToOneImpl_calls {allowed : Call → Prop}
    (plain : ∀ call : Call, call.Plain → allowed call)
    (mayWarn : ∀ fd, allowed (.send fd .shutdownMessage)) (sockFd : Int)
    (info : Option ClientMetaInfo) : (sendShutdownSignalToOneImpl sockFd info).Calls allowed := by
  unfold sendShutdownSignalToOneImpl
  refine calls_bind (calls_make (mayWarn sockFd)) fun answer => ?_
  repeat' first
    | exact calls_pure _ _
    | exact calls_make (plain _ True.intro)
    | exact (handleSocketOpError_calls _).mono plain
    | refine calls_bind ?_ fun _ => ?_
    | split

theorem mutexWrappers_calls {allowed : Call → Prop} (locks : ∀ d, allowed (.mutexLock d))
    (unlocks : ∀ d, allowed (.mutexUnlock d)) (plain : ∀ call : Call, call.Plain → allowed call) (c : ClientType) :
    (serverLockMutexOf c).Calls allowed ∧ (serverUnlockMutexOf c).Calls allowed := by
  have reports : ∀ error cause, (do
      storeErrno error
      perror cause
      return false : ServerProgram Bool).Calls allowed := fun _ _ =>
    calls_bind (calls_make (plain _ True.intro)) fun _ => calls_bind (calls_make (plain _ True.intro)) fun _ => True.intro
  have lock : ∀ d, (serverLockMutex d).Calls allowed := by
    refine fun d => calls_bind (calls_make (locks d)) fun answer => ?_
    cases answer with
    | none => exact True.intro
    | some error => exact reports error _
  have unlock : ∀ d, (serverUnlockMutex d).Calls allowed := by
    refine fun d => calls_bind (calls_make (unlocks d)) fun answer => ?_
    cases answer with
    | none => exact True.intro
    | some error => exact reports error _
  cases c with
  | managerClient => exact ⟨unlock _, unlock _⟩
  | _ => exact ⟨lock _, unlock _⟩

theorem mutexWrappers_quiet (c : ClientType) :
    (serverLockMutexOf c).Calls Call.Quiet ∧ (serverUnlockMutexOf c).Calls Call.Quiet :=
  mutexWrappers_calls (fun _ => True.intro) (fun _ => True.intro) (fun _ => Call.Plain.quiet) c

theorem sendShutdownSignalToOneImpl_quiet (sockFd : Int) (info : Option ClientMetaInfo) :
    (sendShutdownSignalToOneImpl sockFd info).Calls Call.Quiet :=
  sendShutdownSignalToOneImpl_calls (fun _ => Call.Plain.quiet) (fun _ => True.intro) _ _

def Call.LeavesMutexes : Call → Prop
  | .mutexLock _ | .mutexUnlock _ => False
  | .pthreadCancel thread => thread ≠ mainThread
  | _ => True

def Call.Ordinary : Call → Prop
  | .send _ (.commandResult _) => False
  | other => other.LeavesMutexes

theorem Call.Ordinary.leavesMutexes {call : Call} (ordinary : call.Ordinary) :
    call.LeavesMutexes := by
  cases call with
  | send fd payload => exact True.intro
  | _ => exact ordinary

def Call.Steers : Call → Bool
  | .storeRunning _ _ | .loadDisposed | .storeDisposed _ | .pthreadCancel _ | .pthreadJoin _ | .threadExit _
  | .goesOn => true
  | _ => false

def Call.Inner (call : Call) : Prop := call.Ordinary ∧ call.Steers = false

theorem Call.Plain.inner {call : Call} (plain : call.Plain) : call.Inner := by
  cases call <;> first | exact ⟨True.intro, rfl⟩ | exact plain.elim

theorem Call.Logging.inner {call : Call} (logging : call.Logging) : call.Inner := by
  cases call <;> first | exact ⟨True.intro, rfl⟩ | exact logging.elim

theorem ordinary_of_inner {α : Type} {p : ServerProgram α} (inner : p.Calls Call.Inner) :
    p.Calls Call.Ordinary := inner.mono fun _ => And.left

theorem Call.Plain.ordinary {call : Call} (plain : call.Plain) : call.Ordinary := plain.inner.1

theorem receiveClientType_inner (clientSockFd : Int) :
    (receiveClientType clientSockFd).Calls Call.Inner := by
  unfold receiveClientType
  refine calls_bind (calls_forFrom (fun _ _ => ?_) _ _ _) fun received => ?_
  · refine calls_bind (calls_make ⟨True.intro, rfl⟩) fun answer => ?_
    split
    · split <;> exact True.intro
    · exact True.intro
  · split
    · exact True.intro
    · exact calls_bind (calls_make ⟨True.intro, rfl⟩) fun _ => True.intro

theorem insertNewClientIntoArrays_inner (c : ClientType) (clientAddr : SockaddrIn)
    (clientSockFd : Int) :
    (insertNewClientIntoArrays c clientAddr clientSockFd).Calls Call.Inner := by
  unfold insertNewClientIntoArrays insertIntoSlot storeAddr incrementArrSize
  repeat' first
    | exact True.intro
    | exact calls_make ⟨True.intro, rfl⟩
    | exact assert_calls (fun _ => ⟨True.intro, rfl⟩) _ _
    | exact (fillClientMetainfo_calls _ _ _).mono fun _ => Call.Plain.inner
    | refine calls_forFrom (fun _ _ => ?_) _ _ _
    | refine calls_bind ?_ fun _ => ?_
    | split

theorem sendShutdownSignalToOneImpl_inner (sockFd : Int) (info : Option ClientMetaInfo) :
    (sendShutdownSignalToOneImpl sockFd info).Calls Call.Inner :=
  sendShutdownSignalToOneImpl_calls (fun _ => Call.Plain.inner) (fun _ => ⟨True.intro, rfl⟩) _ _

theorem sendShutdownSignalToAllInArrImpl_inner (c : ClientType) :
    (sendShutdownSignalToAllInArrImpl c).Calls Call.Inner := by
  unfold sendShutdownSignalToAllInArrImpl sendShutdownSignalToSlot
  repeat' first
    | exact True.intro
    | exact calls_make ⟨True.intro, rfl⟩
    | exact sendShutdownSignalToOneImpl_inner _ _
    | refine calls_forFrom (fun _ _ => ?_) _ _ _
    | refine calls_bind ?_ fun _ => ?_
    | split

theorem handleFailedTransfer_inner (cause : String) (c : ClientType) (i : Nat)
    (workerFd : Int) (pinsQ : PinsQueue) :
    (handleFailedTransfer cause c i workerFd pinsQ).Calls Call.Inner := by
  unfold handleFailedTransfer dropWorker decrementArrSize
  repeat' first
    | exact True.intro
    | exact calls_make ⟨True.intro, rfl⟩
    | exact (handleSocketOpError_calls _).mono fun _ => Call.Plain.inner
    | refine calls_bind ?_ fun _ => ?_
    | split

theorem pollWorkers_inner (c : ClientType) (pinsQ : PinsQueue) :
    (pollWorkers c pinsQ).Calls Call.Inner := by
  unfold pollWorkers pollWorker storeReceivedPin dropWorker decrementArrSize
  repeat' first
    | exact True.intro
    | exact calls_make ⟨True.intro, rfl⟩
    | exact assert_calls (fun _ => ⟨True.intro, rfl⟩) _ _
    | exact orAbort_calls (fun _ => ⟨True.intro, rfl⟩) _ _
    | exact (isSocketAlive_calls _).mono fun _ => Call.Plain.inner
    | exact handleFailedTransfer_inner _ _ _ _ _
    | exact (handleLog_calls _).mono fun _ => Call.Logging.inner
    | refine calls_forFrom (fun _ _ => ?_) _ _ _
    | refine calls_bind ?_ fun _ => ?_
    | split

theorem sendPinsToWorkers_inner (c : ClientType) (pinsQ : PinsQueue) :
    (sendPinsToWorkers c pinsQ).Calls Call.Inner := by
  unfold sendPinsToWorkers sendPinToWorker dropWorker decrementArrSize
  repeat' first
    | exact True.intro
    | exact calls_make ⟨True.intro, rfl⟩
    | exact assert_calls (fun _ => ⟨True.intro, rfl⟩) _ _
    | exact orAbort_calls (fun _ => ⟨True.intro, rfl⟩) _ _
    | exact (isSocketAlive_calls _).mono fun _ => Call.Plain.inner
    | exact handleFailedTransfer_inner _ _ _ _ _
    | exact (handleLog_calls _).mono fun _ => Call.Logging.inner
    | refine calls_forFrom (fun _ _ => ?_) _ _ _
    | refine calls_bind ?_ fun _ => ?_
    | split

theorem closeManager_inner (managerIndex : Nat) :
    (closeManager managerIndex).Calls Call.Inner := by
  unfold closeManager decrementArrSize
  repeat' first
    | exact calls_make ⟨True.intro, rfl⟩
    | exact (handleLog_calls _).mono fun _ => Call.Logging.inner
    | refine calls_bind ?_ fun _ => ?_

theorem nonblockingPollManagers_inner :
    nonblockingPollManagers.Calls Call.Inner := by
  unfold nonblockingPollManagers pollManager pollManager.failed
  repeat' first
    | exact True.intro
    | exact calls_make ⟨True.intro, rfl⟩
    | exact closeManager_inner _
    | exact (isSocketAlive_calls _).mono fun _ => Call.Plain.inner
    | exact (handleSocketOpError_calls _).mono fun _ => Call.Plain.inner
    | refine calls_forFrom (fun _ _ => ?_) _ _ _
    | refine calls_bind ?_ fun _ => ?_
    | split

theorem findAndShutdown_inner (c : ClientType) (idAddress : CString) (port : Nat) :
    (findAndShutdown c idAddress port).Calls Call.Inner := by
  unfold findAndShutdown shutdownIfFound
  repeat' first
    | exact True.intro
    | exact calls_make ⟨True.intro, rfl⟩
    | exact sendShutdownSignalToOneImpl_inner _ _
    | refine calls_forFrom (fun _ _ => ?_) _ _ _
    | refine calls_bind ?_ fun _ => ?_
    | split

theorem executeCommand_inner (cmd : ServerCommand) :
    (executeCommand cmd).Calls Call.Inner := by
  unfold executeCommand
  repeat' first
    | exact True.intro
    | exact findAndShutdown_inner _ _ _
    | refine calls_bind ?_ fun _ => ?_
    | split

theorem sendCommandResultToManager_calls {allowed : Call → Prop} (inner : ∀ call : Call, call.Inner → allowed call)
    (mayAnswer : ∀ fd res, allowed (.send fd (.commandResult res))) (res : ServerCommandResult)
    (managerIndex : Nat) : (sendCommandResultToManager res managerIndex).Calls allowed := by
  unfold sendCommandResultToManager
  repeat' first
    | exact calls_pure _ _
    | exact calls_make (mayAnswer _ _)
    | exact calls_make (inner _ ⟨True.intro, rfl⟩)
    | exact assert_calls (fun _ => inner _ ⟨True.intro, rfl⟩) _ _
    | exact (closeManager_inner _).mono inner
    | exact (handleSocketOpError_calls _).mono fun _ plain => inner _ plain.inner
    | refine calls_bind ?_ fun _ => ?_
    | split

theorem sendServerLog_inner (message : String) :
    (sendServerLog message).Calls Call.Inner := by
  unfold sendServerLog sendLogToCollector
  repeat' first
    | exact True.intro
    | exact calls_make ⟨True.intro, rfl⟩
    | exact (handleSocketOpError_calls _).mono fun _ => Call.Plain.inner
    | refine calls_forFrom (fun _ _ => ?_) _ _ _
    | refine calls_bind ?_ fun _ => ?_
    | split

theorem appThreads_ne_mainThread {i : Nat} {thread : ThreadId} (listed : appThreads i = some thread) :
    thread ≠ mainThread := by
  unfold appThreads at listed
  split at listed <;> cases listed <;> decide

theorem stopAllThreads_ordinary : stopAllThreads.Calls Call.Ordinary := by
  unfold stopAllThreads cancelThread
  repeat' first
    | exact True.intro
    | exact calls_make True.intro
    | exact calls_make (appThreads_ne_mainThread ‹_›)
    | refine calls_forFrom (fun _ _ => ?_) _ _ _
    | refine calls_bind ?_ fun _ => ?_
    | split

theorem signalHandler_ordinary (sig : Nat) : (signalHandler sig).Calls Call.Ordinary :=
  calls_bind (calls_make True.intro) fun _ => stopAllThreads_ordinary

theorem finishLoop_ordinary (loop : Loop) : (finishLoop loop).Calls Call.Ordinary := by
  unfold finishLoop
  refine calls_bind (calls_make True.intro) fun _ => calls_bind (calls_make True.intro) fun _ => ?_
  dsimp only
  split
  · exact calls_bind stopAllThreads_ordinary fun _ => True.intro
  · exact True.intro

theorem printAndEnqueueLog_calls (message : String) :
    (printAndEnqueueLog message).Calls Call.Logging := handleLog_calls message

theorem sleepBetweenRounds_inner : sleepBetweenRounds.Calls Call.Inner := by
  unfold sleepBetweenRounds
  repeat' first
    | exact True.intro
    | exact calls_make ⟨True.intro, rfl⟩
    | refine calls_bind ?_ fun _ => ?_
    | split

theorem sleepBetweenRounds_ordinary : sleepBetweenRounds.Calls Call.Ordinary :=
  ordinary_of_inner sleepBetweenRounds_inner

theorem goesOn_ordinary {α : Type} : (goesOn : ServerProgram α).Calls Call.Ordinary :=
  ⟨True.intro, fun answer => nomatch answer⟩

theorem logsSender_ordinary (rounds : Nat) : (logsSender rounds).Calls Call.Ordinary := by
  unfold logsSender logsSenderRound
  repeat' first
    | exact True.intro
    | exact calls_make True.intro
    | exact goesOn_ordinary
    | exact finishLoop_ordinary _
    | exact sleepBetweenRounds_ordinary
    | exact ordinary_of_inner (sendServerLog_inner _)
    | refine calls_forFrom (fun _ _ => ?_) _ _ _
    | refine calls_bind ?_ fun _ => ?_
    | split

theorem answerCommand_calls {allowed : Call → Prop} (inner : ∀ call : Call, call.Inner → allowed call)
    (mayAnswer : ∀ fd res, allowed (.send fd (.commandResult res))) (cmd : ServerCommand) (managerIndex : Nat) :
    (answerCommand cmd managerIndex).Calls allowed := by
  unfold answerCommand
  repeat' first
    | exact calls_pure _ _
    | exact calls_make (inner _ ⟨True.intro, rfl⟩)
    | exact (executeCommand_inner _).mono inner
    | exact sendCommandResultToManager_calls inner mayAnswer _ _
    | exact (printAndEnqueueLog_calls _).mono fun _ logging => inner _ logging.inner
    | refine calls_bind ?_ fun _ => ?_
    | split

theorem managersHandler_leavesMutexes (rounds : Nat) :
    (managersHandler rounds).Calls Call.LeavesMutexes := by
  unfold managersHandler managersHandlerRound
  repeat' first
    | exact True.intro
    | exact calls_make True.intro
    | exact goesOn_ordinary.mono fun _ => Call.Ordinary.leavesMutexes
    | exact (finishLoop_ordinary _).mono fun _ => Call.Ordinary.leavesMutexes
    | exact sleepBetweenRounds_inner.mono fun _ inner => inner.1.leavesMutexes
    | exact nonblockingPollManagers_inner.mono fun _ inner => inner.1.leavesMutexes
    | exact answerCommand_calls (fun _ inner => inner.1.leavesMutexes) (fun _ _ => True.intro) _ _
    | refine calls_forFrom (fun _ _ => ?_) _ _ _
    | refine calls_bind ?_ fun _ => ?_
    | split

theorem deinitServer_inner : deinitServer.Calls Call.Inner := by
  unfold deinitServer closeFds closeSlot
  repeat' first
    | exact True.intro
    | exact calls_make ⟨True.intro, rfl⟩
    | refine calls_forFrom (fun _ _ => ?_) _ _ _
    | refine calls_bind ?_ fun _ => ?_
    | split

end ArchCompSystems.OsIhw3
