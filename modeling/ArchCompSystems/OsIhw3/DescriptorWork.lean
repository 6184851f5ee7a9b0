import ArchCompSystems.OsIhw3.ThreadExits

namespace ArchCompSystems.OsIhw3

open Library Library.Program

/-- How far a thread is with a connection, by its own calls. -/
inductive Work where
  | idle
  /-- It has accepted the connection. -/
  | accepted (fd : Int)
  /-- It has found this slot free for the connection that it has accepted. -/
  | registering (c : ClientType) (i : Nat) (fd : Int)
  /-- It has put the connection into its slot and not yet unlocked the mutex. -/
  | registered
  /-- It has read the descriptor from the slot. -/
  | looking (c : ClientType) (i : Nat) (fd : Int)
  /-- It has taken the connection out of its slot and not yet closed it. -/
  | cleared (fd : Int)
  /-- It has closed the connection and not yet taken it out of its slot. -/
  | closed (c : ClientType) (i : Nat) (fd : Int)
  /-- It has joined these threads. -/
  | joining (threads : List ThreadId)
  /-- `deinit_server` has been through so many slots of each type. -/
  | sweeping (swept : ClientType → Nat)
  /-- Besides, it has read this descriptor from the next slot of the type. -/
  | sweepingAt (swept : ClientType → Nat) (c : ClientType) (fd : Int)

namespace Work

/-- `deinit_server` is through with the next slot of the type. -/
def sweep (swept : ClientType → Nat) (c : ClientType) : Work := .sweeping (Function.update swept c (swept c + 1))

def afterLook (c : ClientType) (i : Nat) (fd : Int) : Work → Work
  | .accepted new => if fd = -1 then .registering c i new else .accepted new
  | .joining threads => .joining threads
  | .sweeping swept | .sweepingAt swept _ _ => if fd = -1 then sweep swept c else .sweepingAt swept c fd
  | _ => .looking c i fd

def afterStore : Work → Work
  | .registering _ _ _ => .registered
  | .looking _ _ fd => .cleared fd
  | _ => .idle

def afterClose : Work → Work
  | .looking c i fd => .closed c i fd
  | .sweepingAt swept c _ => sweep swept c
  | _ => .idle

def afterUnlock : Work → Work
  | .registered => .idle
  | other => other

def afterJoin (thread : ThreadId) : Work → Work
  | .joining threads => .joining (thread :: threads)
  | _ => .joining [thread]

/-- The main thread sleeps once, before `deinit_server`. -/
def afterSleep : Work → Work
  | .joining _ => .sweeping fun _ => 0
  | other => other

def after (work : Work) (call : Call) (answer : call.Answer) : Work :=
  match call, answer with
  | .accept, .connected fd _ _ => .accepted fd
  | .loadFd c i, fd => work.afterLook c i fd
  | .storeFd _ _ _, _ => work.afterStore
  | .close _, _ => work.afterClose
  | .mutexUnlock _, _ => work.afterUnlock
  | .pthreadJoin thread, _ => work.afterJoin thread
  | .nanosleep, _ => work.afterSleep
  | _, _ => work

/-- The slots are looked at in their order by `deinit_server`, and otherwise by whoever has nothing to finish. -/
def MayLook (c : ClientType) (i : Nat) : Work → Prop
  | .idle | .looking _ _ _ | .accepted _ | .joining _ => True
  | .sweeping swept => i = swept c
  | .sweepingAt swept d _ => d = c ∧ i = swept c
  | _ => False

def MayStore (c : ClientType) (i : Nat) (fd : Int) : Work → Prop
  | .registering d j new => c = d ∧ i = j ∧ fd = new
  | .looking d j _ | .closed d j _ => c = d ∧ i = j ∧ fd = -1
  | _ => False

/-- Only `managers_handler` closes a connection that is in its slot while the server runs. -/
def MayClose (t : ThreadId) (fd : Int) : Work → Prop
  | .accepted held | .cleared held | .sweepingAt _ _ held => fd = held
  | .looking _ _ held => t = managersThread ∧ fd = held
  | _ => False

def MayJoin : Work → Prop
  | .idle | .joining _ => True
  | _ => False

def MaySleep : Work → Prop
  | .joining threads => pollThread ∈ threads ∧ logsThread ∈ threads ∧ managersThread ∈ threads
  | _ => True

def Dropping : Work → Prop
  | .cleared _ | .closed _ _ _ => True
  | _ => False

def Resting : Work → Prop
  | .idle | .looking _ _ _ => True
  | _ => False

end Work

/-- Each thread is with one connection at a time; the main thread accepts, and only the first four threads have
    to do with connections. -/
def descriptorMonitor (t : ThreadId) : Monitor Call Call.Answer Work where
  allowed work
    | .accept => t = mainThread ∧ work = .idle
    | .loadFd c i => t ≤ managersThread ∧ i < maxNumberOf c ∧ work.MayLook c i
    | .storeFd c i fd => t ≤ managersThread ∧ work.MayStore c i fd
    | .close fd => t ≤ managersThread ∧ work.MayClose t fd
    | .pthreadJoin _ => t = mainThread ∧ work.MayJoin
    | .nanosleep => work.MaySleep
    | _ => True
  possible work call answer := match work, call, answer with
    | .registered, .mutexUnlock _, answer => answer = none
    | .sweepingAt _ _ held, .loadFd _ _, fd => fd = held
    | _, _, _ => True
  after := Work.after

def workOf (history : List ServerEvent) : Work :=
  history.foldl (fun work event => work.after event.1 event.2) .idle

theorem workOf_concat (history : List ServerEvent) (call : Call) (answer : call.Answer) :
    workOf (history ++ [⟨call, answer⟩]) = (workOf history).after call answer := List.foldl_append ..

def Call.LeavesWork : Call → Prop
  | .accept | .loadFd _ _ | .storeFd _ _ _ | .close _ | .mutexUnlock _ | .pthreadJoin _ | .nanosleep => False
  | _ => True

theorem Call.Plain.leavesWork {call : Call} (plain : call.Plain) : call.LeavesWork := by
  cases call <;> first | exact True.intro | exact plain.elim

theorem Call.Logging.leavesWork {call : Call} (logging : call.Logging) : call.LeavesWork := by
  cases call <;> first | exact True.intro | exact logging.elim

def Call.KeepsWork (t : ThreadId) (work : Work) (call : Call) : Prop :=
  (descriptorMonitor t).allowed work call ∧ ∀ answer, work.after call answer = work

section

variable {t : ThreadId} {work : Work} {α β γ : Type} {c : ClientType} {i : Nat} {fd : Int}

theorem Call.LeavesWork.keepsWork {call : Call} (leaves : call.LeavesWork) : call.KeepsWork t work := by
  cases call <;> first | exact leaves.elim | exact ⟨True.intro, fun _ => rfl⟩

theorem obeys_keeps_bind {p : ServerProgram α} {f : α → ServerProgram β} {post : β → Work → Prop}
    (keeps : p.Calls (Call.KeepsWork t work)) (rest : ∀ value, (descriptorMonitor t).Obeys post (f value) work) :
    (descriptorMonitor t).Obeys post (p >>= f) work := by
  refine Monitor.obeys_bind.mpr (Monitor.obeys_mono ?_ (Monitor.obeys_of_calls (fun _ keeps => keeps) keeps))
  rintro value _ rfl
  exact rest value

theorem obeys_keeps {p : ServerProgram α} {post : α → Work → Prop} (keeps : p.Calls (Call.KeepsWork t work))
    (holds : ∀ value, post value work) : (descriptorMonitor t).Obeys post p work := by
  refine Monitor.obeys_mono ?_ (Monitor.obeys_of_calls (fun _ keeps => keeps) keeps)
  rintro value _ rfl
  exact holds value

theorem keepsWork_of_leaves {p : ServerProgram α} (leaves : p.Calls Call.LeavesWork) :
    p.Calls (Call.KeepsWork t work) := leaves.mono fun _ => Call.LeavesWork.keepsWork

theorem obeys_assert_bind {holds : Bool} {assertion : String} {f : Unit → ServerProgram β} {post : β → Work → Prop}
    (rest : holds = true → (descriptorMonitor t).Obeys post (f ()) work) :
    (descriptorMonitor t).Obeys post (assert holds assertion >>= f) work := by
  cases holds with
  | true => exact rest rfl
  | false => exact ⟨True.intro, fun answer => nomatch answer⟩

theorem mutexWrappers_keepWork (settled : work ≠ .registered) :
    (serverLockMutexOf c).Calls (Call.KeepsWork t work) ∧ (serverUnlockMutexOf c).Calls (Call.KeepsWork t work) := by
  refine mutexWrappers_calls (fun _ => ⟨True.intro, fun _ => rfl⟩) (fun d => ⟨True.intro, fun answer => ?_⟩)
    (fun _ plain => plain.leavesWork.keepsWork) c
  cases work <;> first | rfl | exact absurd rfl settled

def Rests (t : ThreadId) (p : ServerProgram α) : Prop :=
  ∀ work : Work, work.Resting → (descriptorMonitor t).Obeys (fun _ work' => work'.Resting) p work

theorem rests_pure (value : α) : Rests t (pure value : ServerProgram α) := fun _ resting => resting

theorem rests_bind {p : ServerProgram α} {f : α → ServerProgram β} (first : Rests t p)
    (rest : ∀ value, Rests t (f value)) : Rests t (p >>= f) := by
  intro work resting
  exact Monitor.obeys_bind.mpr (Monitor.obeys_mono (fun value work' => rest value work') (first work resting))

theorem rests_of_leaves {p : ServerProgram α} (leaves : p.Calls Call.LeavesWork) : Rests t p :=
  fun _ resting => obeys_keeps (keepsWork_of_leaves leaves) fun _ => resting

theorem rests_make {call : Call} (leaves : call.LeavesWork) : Rests t (Call.make call) :=
  rests_of_leaves (calls_make leaves)

theorem rests_forFrom {body : Nat → β → ServerProgram (LoopFlow β γ)} {count : Nat} {carried : β}
    (each : ∀ i carried, i < count → Rests t (body i carried)) : Rests t (forFrom body count 0 carried) := by
  intro work resting
  refine Monitor.obeys_mono (fun flow work' kept => ?_) (@Monitor.obeys_forFrom_within _ _ _ _ _ (descriptorMonitor t)
    work body (fun _ _ work => work.Resting) (fun _ work => work.Resting) count 0 carried
    (fun i carried work' _ upper kept => Monitor.obeys_mono (fun flow _ after => ?_)
      (each i carried (by omega) work' kept)) resting)
  · cases flow <;> exact kept
  · cases flow <;> exact after

theorem rests_loadFd_bind {f : Int → ServerProgram β} (handles : t ≤ managersThread) (inside : i < maxNumberOf c)
    (rest : ∀ fd, (descriptorMonitor t).Obeys (fun _ work' => work'.Resting) (f fd) (.looking c i fd)) :
    Rests t (loadFd c i >>= f) := by
  intro work resting
  cases work with
  | idle | looking => exact ⟨⟨handles, inside, True.intro⟩, fun fd _ => rest fd⟩
  | _ => exact resting.elim

theorem rests_mutexWrappers : Rests t (serverLockMutexOf c) ∧ Rests t (serverUnlockMutexOf c) := by
  have settled : ∀ work : Work, work.Resting → work ≠ .registered := by
    rintro _ resting rfl
    exact resting
  exact ⟨fun work resting => obeys_keeps (mutexWrappers_keepWork (settled work resting)).1 fun _ => resting,
    fun work resting => obeys_keeps (mutexWrappers_keepWork (settled work resting)).2 fun _ => resting⟩

theorem rests_sleepBetweenRounds : Rests t sleepBetweenRounds := by
  have sleeps : Rests t nanosleep := by
    intro work resting
    refine obeys_keeps (calls_make ?_) fun _ => resting
    cases work <;> first | exact ⟨True.intro, fun _ => rfl⟩ | exact resting.elim
  refine rests_bind sleeps fun answer => ?_
  cases answer with
  | none => exact rests_pure true
  | some error =>
    dsimp only
    split
    · exact rests_bind (rests_make True.intro) fun _ => rests_pure false
    · exact rests_pure false

theorem stopAllThreads_leavesWork : stopAllThreads.Calls Call.LeavesWork := by
  unfold stopAllThreads cancelThread
  repeat' first
    | exact True.intro
    | exact calls_make True.intro
    | refine calls_forFrom (fun _ _ => ?_) _ _ _
    | refine calls_bind ?_ fun _ => ?_
    | split

theorem finishLoop_leavesWork (loop : Loop) : (finishLoop loop).Calls Call.LeavesWork := by
  unfold finishLoop
  refine calls_bind (calls_make True.intro) fun _ => calls_bind (calls_make True.intro) fun _ => ?_
  dsimp only
  split
  · exact calls_bind stopAllThreads_leavesWork fun _ => True.intro
  · exact True.intro

theorem goesOn_leavesWork : (goesOn : ServerProgram α).Calls Call.LeavesWork :=
  ⟨True.intro, fun answer => nomatch answer⟩

theorem decrementArrSize_leavesWork (c : ClientType) : (decrementArrSize c).Calls Call.LeavesWork :=
  calls_bind (calls_make True.intro) fun _ => calls_make True.intro

theorem obeys_dropWorker (handles : t ≤ managersThread) : (descriptorMonitor t).Obeys
    (fun _ work' => work'.Resting) (dropWorker c i fd) (.looking c i fd) := by
  refine ⟨⟨handles, rfl, rfl, rfl⟩, fun _ _ => ⟨⟨handles, rfl⟩, fun _ _ => ?_⟩⟩
  exact rests_of_leaves (decrementArrSize_leavesWork c) _ True.intro

theorem obeys_handleFailedTransfer (handles : t ≤ managersThread) (cause : String) (pinsQ : PinsQueue) :
    (descriptorMonitor t).Obeys (fun _ work' => work'.Resting) (handleFailedTransfer cause c i fd pinsQ)
      (.looking c i fd) := by
  refine obeys_keeps_bind (keepsWork_of_leaves ((handleSocketOpError_calls _).mono fun _ => Call.Plain.leavesWork))
    fun result => ?_
  cases result with
  | deadClientSocket =>
    refine Monitor.obeys_bind.mpr (Monitor.obeys_mono ?_ (obeys_dropWorker handles))
    exact fun _ _ resting => resting
  | _ => exact True.intro

theorem obeys_unless_dead {rest : ServerProgram β} (handles : t ≤ managersThread) {value : β}
    (alive : (descriptorMonitor t).Obeys (fun _ work' => work'.Resting) rest (.looking c i fd)) :
    (descriptorMonitor t).Obeys (fun _ work' => work'.Resting) (isSocketAlive fd >>= fun alive =>
      if !alive then (do
        dropWorker c i fd
        return value)
      else rest) (.looking c i fd) := by
  refine obeys_keeps_bind (keepsWork_of_leaves ((isSocketAlive_calls _).mono fun _ => Call.Plain.leavesWork))
    fun alive' => ?_
  cases alive' with
  | true => exact alive
  | false =>
    refine Monitor.obeys_bind.mpr (Monitor.obeys_mono ?_ (obeys_dropWorker handles))
    exact fun _ _ resting => resting

theorem rests_pollWorker (handles : t ≤ managersThread) (inside : i < maxNumberOf c) (pinsQ : PinsQueue) :
    Rests t (pollWorker c i pinsQ) := by
  refine rests_bind (rests_make True.intro) fun _ => ?_
  split
  · exact rests_pure _
  refine rests_loadFd_bind handles inside fun fd => ?_
  split
  · exact True.intro
  refine obeys_unless_dead handles (obeys_keeps_bind
    (@calls_make _ (.recv fd sizeofPin) ⟨True.intro, fun _ => rfl⟩) fun answer => ?_)
  cases answer with
  | failed error => exact obeys_handleFailedTransfer handles _ _
  | received bytes =>
    dsimp only
    split
    · refine rests_of_leaves ?_ _ True.intro
      unfold storeReceivedPin
      refine calls_bind (calls_make True.intro) fun _ => ?_
      refine calls_bind ((handleLog_calls _).mono fun _ => Call.Logging.leavesWork) fun _ => ?_
      refine calls_bind (orAbort_calls (fun _ => True.intro) _ _) fun _ => ?_
      exact calls_bind (assert_calls (fun _ => True.intro) _ _) fun _ => True.intro
    · exact obeys_handleFailedTransfer handles _ _

theorem rests_pollWorkers (handles : t ≤ managersThread) (pinsQ : PinsQueue) : Rests t (pollWorkers c pinsQ) := by
  refine rests_bind (rests_forFrom fun i pinsQ inside => rests_pollWorker handles inside pinsQ) fun flow => ?_
  cases flow <;> exact rests_pure _

theorem rests_sendPinToWorker (handles : t ≤ managersThread) (inside : i < maxNumberOf c) (pinsQ : PinsQueue) :
    Rests t (sendPinToWorker c i pinsQ) := by
  refine rests_bind (rests_make True.intro) fun _ => ?_
  split
  · exact rests_pure _
  refine rests_loadFd_bind handles inside fun fd => ?_
  split
  · exact True.intro
  refine obeys_unless_dead handles ?_
  refine obeys_keeps_bind (keepsWork_of_leaves (orAbort_calls (fun _ => True.intro) _ _)) fun _ => ?_
  refine obeys_assert_bind fun _ => ?_
  refine obeys_keeps_bind (@calls_make _ (.send fd _) ⟨True.intro, fun _ => rfl⟩) fun answer => ?_
  cases answer with
  | failed error => exact obeys_handleFailedTransfer handles _ _
  | sent size =>
    dsimp only
    split
    · refine rests_of_leaves ?_ _ True.intro
      refine calls_bind (calls_make True.intro) fun _ => ?_
      exact calls_bind ((handleLog_calls _).mono fun _ => Call.Logging.leavesWork) fun _ => True.intro
    · exact obeys_handleFailedTransfer handles _ _

theorem rests_sendPinsToWorkers (handles : t ≤ managersThread) (pinsQ : PinsQueue) :
    Rests t (sendPinsToWorkers c pinsQ) := by
  refine rests_bind (rests_forFrom fun i pinsQ inside => rests_sendPinToWorker handles inside pinsQ) fun flow => ?_
  cases flow <;> exact rests_pure _

theorem rests_workersPollerRound (handles : t ≤ managersThread) (pins : PinsQueue × PinsQueue) :
    Rests t (workersPollerRound pins) := by
  unfold workersPollerRound nonblockingPollWorkersOnTheFirstStage nonblockingPollWorkersOnTheSecondStage
    nonblockingPollWorkersOnTheThirdStage
  repeat' first
    | exact rests_pure _
    | exact rests_make True.intro
    | exact (@rests_mutexWrappers t .firstStageWorkerClient).1
    | exact (@rests_mutexWrappers t .firstStageWorkerClient).2
    | exact (@rests_mutexWrappers t .secondStageWorkerClient).1
    | exact (@rests_mutexWrappers t .secondStageWorkerClient).2
    | exact (@rests_mutexWrappers t .thirdStageWorkerClient).1
    | exact (@rests_mutexWrappers t .thirdStageWorkerClient).2
    | exact rests_pollWorkers handles _
    | exact rests_sendPinsToWorkers handles _
    | exact rests_sleepBetweenRounds
    | refine rests_bind ?_ fun _ => ?_
    | split

theorem rests_sendLogToCollector (handles : t ≤ managersThread) (inside : i < maxNumberOf .logsCollectorClient)
    (message : String) : Rests t (sendLogToCollector message i) := by
  refine rests_loadFd_bind handles inside fun fd => ?_
  split
  · exact True.intro
  refine obeys_keeps_bind (@calls_make _ (.send fd _) ⟨True.intro, fun _ => rfl⟩) fun answer => ?_
  split
  · refine obeys_keeps_bind (@calls_make _ (.loadInfo _ i) ⟨True.intro, fun _ => rfl⟩) fun info => ?_
    refine obeys_keeps_bind (@calls_make _ (.print _) ⟨True.intro, fun _ => rfl⟩) fun _ => ?_
    refine obeys_keeps_bind (keepsWork_of_leaves ((handleSocketOpError_calls _).mono fun _ => Call.Plain.leavesWork))
      fun result => ?_
    split
    · refine Monitor.obeys_call ⟨handles, inside, True.intro⟩ fun again _ => ?_
      refine Monitor.obeys_call ⟨handles, rfl, rfl, rfl⟩ fun _ _ => ?_
      refine Monitor.obeys_call ⟨handles, rfl⟩ fun _ _ => ?_
      exact Monitor.obeys_call True.intro fun _ _ => True.intro
    · exact True.intro
  · exact True.intro

theorem rests_logsSenderRound (handles : t ≤ managersThread) : Rests t logsSenderRound := by
  unfold logsSenderRound sendServerLog
  repeat' first
    | exact rests_pure _
    | exact rests_make True.intro
    | exact rests_forFrom fun _ _ inside => rests_sendLogToCollector handles inside _
    | exact rests_sleepBetweenRounds
    | refine rests_bind ?_ fun _ => ?_
    | split

theorem rests_closeManager (inside : i < maxNumberOf .managerClient) (handles : t ≤ managersThread) :
    Rests t (closeManager i) := by
  refine rests_loadFd_bind handles inside fun fd => ?_
  refine Monitor.obeys_call ⟨handles, rfl, rfl, rfl⟩ fun _ _ => ?_
  refine obeys_keeps_bind (keepsWork_of_leaves (decrementArrSize_leavesWork _)) fun _ => ?_
  refine Monitor.obeys_call ⟨handles, rfl⟩ fun _ _ => ?_
  refine obeys_keeps_bind (@calls_make _ (.loadInfo _ i) ⟨True.intro, fun _ => rfl⟩) fun info => ?_
  exact rests_of_leaves ((handleLog_calls _).mono fun _ => Call.Logging.leavesWork) _ True.intro

theorem rests_failed (inside : i < maxNumberOf .managerClient) (handles : t ≤ managersThread) :
    Rests t (pollManager.failed i) := by
  refine rests_bind (rests_of_leaves ((handleSocketOpError_calls _).mono fun _ => Call.Plain.leavesWork)) fun result => ?_
  cases result with
  | deadClientSocket => exact rests_bind (rests_closeManager inside handles) fun _ => rests_pure _
  | _ => exact rests_pure _

theorem rests_pollManager (inside : i < maxNumberOf .managerClient) (handles : t ≤ managersThread) :
    Rests t (pollManager i) := by
  refine rests_bind (rests_make True.intro) fun _ => ?_
  split
  · exact rests_pure _
  refine rests_loadFd_bind handles inside fun fd => ?_
  split
  · exact True.intro
  refine obeys_keeps_bind (keepsWork_of_leaves ((isSocketAlive_calls _).mono fun _ => Call.Plain.leavesWork))
    fun alive => ?_
  cases alive with
  | false => exact rests_bind (rests_closeManager inside handles) (fun _ => rests_pure _) _ True.intro
  | true =>
    refine obeys_keeps_bind (@calls_make _ (.recv fd sizeofServerCommand) ⟨True.intro, fun _ => rfl⟩) fun answer => ?_
    cases answer with
    | failed error => exact rests_failed inside handles _ True.intro
    | received bytes =>
      dsimp only
      split
      · exact True.intro
      · exact rests_failed inside handles _ True.intro

theorem rests_nonblockingPollManagers (handles : t ≤ managersThread) : Rests t nonblockingPollManagers := by
  refine rests_bind (rests_forFrom fun i _ inside => rests_pollManager inside handles) fun flow => ?_
  cases flow <;> exact rests_pure _

theorem rests_shutdownIfFound (inside : i < maxNumberOf c) (idAddress portStr : CString) :
    Rests managersThread (shutdownIfFound c idAddress portStr i) := by
  have handles : managersThread ≤ managersThread := Nat.le_refl _
  refine rests_loadFd_bind handles inside fun fd => ?_
  split
  · exact True.intro
  refine obeys_keeps_bind (@calls_make _ (.loadInfo c i) ⟨True.intro, fun _ => rfl⟩) fun info => ?_
  split
  · refine Monitor.obeys_call ⟨handles, inside, True.intro⟩ fun again _ => ?_
    refine obeys_keeps_bind (keepsWork_of_leaves (sendShutdownSignalToOneImpl_calls
      (fun _ => Call.Plain.leavesWork) (fun _ => True.intro) _ _)) fun _ => ?_
    refine Monitor.obeys_call ⟨handles, inside, True.intro⟩ fun last _ => ?_
    refine Monitor.obeys_call ⟨handles, rfl, rfl⟩ fun _ _ => ?_
    exact Monitor.obeys_call ⟨handles, rfl, rfl, rfl⟩ fun _ _ => True.intro
  · exact True.intro

theorem rests_findAndShutdown (c : ClientType) (idAddress : CString) (port : Nat) :
    Rests managersThread (findAndShutdown c idAddress port) := by
  refine rests_bind (rests_forFrom fun i _ inside => rests_shutdownIfFound inside _ _) fun flow => ?_
  cases flow <;> exact rests_pure _

theorem rests_executeCommand (cmd : ServerCommand) : Rests managersThread (executeCommand cmd) := by
  unfold executeCommand
  repeat' first
    | exact rests_pure _
    | exact rests_findAndShutdown _ _ _
    | refine rests_bind ?_ fun _ => ?_
    | split

theorem rests_sendCommandResultToManager (handles : t ≤ managersThread) (res : ServerCommandResult) :
    Rests t (sendCommandResultToManager res i) := by
  intro work resting
  refine obeys_assert_bind fun asserted => ?_
  have inside : i < maxNumberOf .managerClient := of_decide_eq_true asserted
  refine rests_loadFd_bind handles inside (fun fd => ?_) work resting
  split
  · exact ⟨True.intro, fun _ _ => True.intro⟩
  refine obeys_keeps_bind (@calls_make _ (.send fd _) ⟨True.intro, fun _ => rfl⟩) fun answer => ?_
  split
  · refine obeys_keeps_bind (@calls_make _ (.loadInfo _ i) ⟨True.intro, fun _ => rfl⟩) fun info => ?_
    refine obeys_keeps_bind (@calls_make _ (.print _) ⟨True.intro, fun _ => rfl⟩) fun _ => ?_
    refine obeys_keeps_bind (keepsWork_of_leaves ((handleSocketOpError_calls _).mono fun _ => Call.Plain.leavesWork))
      fun result => ?_
    split
    · exact rests_bind (rests_closeManager inside handles) (fun _ => rests_pure _) _ True.intro
    · exact True.intro
  · exact True.intro

theorem rests_answerCommand (cmd : ServerCommand) : Rests managersThread (answerCommand cmd i) := by
  unfold answerCommand
  repeat' first
    | exact rests_pure _
    | exact rests_make True.intro
    | exact rests_executeCommand cmd
    | exact rests_sendCommandResultToManager (Nat.le_refl _) _
    | exact rests_of_leaves ((printAndEnqueueLog_calls _).mono fun _ => Call.Logging.leavesWork)
    | refine rests_bind ?_ fun _ => ?_
    | split

theorem rests_managersHandlerRound : Rests managersThread managersHandlerRound := by
  unfold managersHandlerRound
  repeat' first
    | exact rests_pure _
    | exact rests_make True.intro
    | exact rests_sleepBetweenRounds
    | exact rests_nonblockingPollManagers (Nat.le_refl _)
    | exact rests_answerCommand _
    | refine rests_bind ?_ fun _ => ?_
    | split

theorem rests_afterLoop {p : ServerProgram (LoopFlow β γ)} {loop : Loop} (rests : Rests t p) :
    Rests t (p >>= afterLoop loop threadExit) := by
  refine rests_bind rests fun flow => ?_
  cases flow with
  | next _ => exact rests_of_leaves goesOn_leavesWork
  | exit _ => exact rests_bind (rests_of_leaves (finishLoop_leavesWork loop)) fun _ => rests_make True.intro

/-- What the registration of an accepted connection leaves to be done: nothing, or the connection is still held. -/
def Work.Settled (registered : Prop) (fd : Int) (work : Work) : Prop :=
  registered ∧ work = .idle ∨ ¬ registered ∧ work = .accepted fd

theorem obeys_insertIntoSlot (inside : i < maxNumberOf c) (clientAddr : SockaddrIn) :
    (descriptorMonitor mainThread).Obeys
      (LoopFlow.Keeps (fun _ work => work = .accepted fd) (fun _ work => work = .registered))
      (insertIntoSlot c clientAddr fd i) (.accepted fd) := by
  refine Monitor.obeys_call ⟨Nat.zero_le _, inside, True.intro⟩ fun found _ => ?_
  by_cases free : found = -1
  · subst free
    show (descriptorMonitor mainThread).Obeys _ _ (.registering c i fd)
    refine obeys_keeps_bind (@calls_make _ (.loadArrSize c) ⟨True.intro, fun _ => rfl⟩) fun arraySize => ?_
    refine obeys_assert_bind fun _ => ?_
    refine obeys_keeps_bind (@calls_make _ (.storeAddr c i clientAddr) ⟨True.intro, fun _ => rfl⟩) fun _ => ?_
    refine obeys_keeps_bind (keepsWork_of_leaves (calls_bind (calls_make True.intro) fun _ => calls_make True.intro))
      fun _ => ?_
    refine obeys_keeps_bind (keepsWork_of_leaves ((fillClientMetainfo_calls _ _ _).mono fun _ => Call.Plain.leavesWork))
      fun _ => ?_
    exact Monitor.obeys_call ⟨Nat.zero_le _, rfl, rfl, rfl⟩ fun _ _ => rfl
  · rw [if_pos free]
    exact if_neg free

theorem obeys_insertNewClientIntoArrays (clientAddr : SockaddrIn) : (descriptorMonitor mainThread).Obeys
    (fun index work => work = if index.isSome then .registered else .accepted fd)
    (insertNewClientIntoArrays c clientAddr fd) (.accepted fd) := by
  refine obeys_keeps_bind (@calls_make _ (.loadArrSize c) ⟨True.intro, fun _ => rfl⟩) fun arraySize => ?_
  refine obeys_assert_bind fun _ => Monitor.obeys_bind.mpr (Monitor.obeys_mono ?_
    (@Monitor.obeys_forFrom_within _ _ _ _ _ (descriptorMonitor mainThread) (.accepted fd)
      (fun i _ => insertIntoSlot c clientAddr fd i) (fun _ _ work => work = .accepted fd)
      (fun _ work => work = .registered) (maxNumberOf c) 0 () ?_ rfl))
  · intro flow work kept
    cases flow <;> exact kept
  · rintro i _ _ _ upper rfl
    exact obeys_insertIntoSlot (by omega) clientAddr

theorem obeys_serverUnlockMutexOf : (descriptorMonitor mainThread).Obeys
    (fun ok work => ok = true ∧ work = .idle) (serverUnlockMutexOf c) .registered := by
  cases c <;>
    exact Monitor.obeys_call True.intro fun answer succeeds => by
      obtain rfl : answer = none := succeeds
      exact ⟨rfl, rfl⟩

theorem obeys_registerClient (clientAddr : SockaddrIn) : (descriptorMonitor mainThread).Obeys
    (fun index work => work.Settled (∃ i, index = some (some i)) fd) (registerClient c clientAddr fd)
    (.accepted fd) := by
  have accepted : Work.accepted fd ≠ .registered := nofun
  have refused : ∀ index : Option (Option Nat), (¬ ∃ i, index = some (some i)) →
      (Work.accepted fd).Settled (∃ i, index = some (some i)) fd := fun _ none => .inr ⟨none, rfl⟩
  refine obeys_keeps_bind (mutexWrappers_keepWork accepted).1 fun locked => ?_
  cases locked with
  | false => exact refused none nofun
  | true =>
    refine Monitor.obeys_bind.mpr (Monitor.obeys_mono ?_ (obeys_insertNewClientIntoArrays clientAddr))
    rintro index _ rfl
    cases index with
    | none =>
      refine obeys_keeps_bind (mutexWrappers_keepWork accepted).2 fun unlocked => ?_
      cases unlocked with
      | false => exact refused none nofun
      | true => exact refused (some none) nofun
    | some i =>
      refine Monitor.obeys_bind.mpr (Monitor.obeys_mono ?_ obeys_serverUnlockMutexOf)
      rintro _ _ ⟨rfl, rfl⟩
      exact .inl ⟨⟨i, rfl⟩, rfl⟩

theorem obeys_handleClientOfType (clientAddr : SockaddrIn) : (descriptorMonitor mainThread).Obeys
    (fun ok work => work.Settled (ok = true) fd) (handleClientOfType c clientAddr fd) (.accepted fd) := by
  refine Monitor.obeys_bind.mpr (Monitor.obeys_mono ?_ (obeys_registerClient clientAddr))
  rintro index _ (⟨⟨i, rfl⟩, rfl⟩ | ⟨turnedAway, rfl⟩)
  · refine obeys_keeps_bind (@calls_make _ (.loadInfo c i) ⟨True.intro, fun _ => rfl⟩) fun info => ?_
    refine obeys_keeps_bind (keepsWork_of_leaves ?_) fun _ => ?_
    · exact calls_bind (calls_make True.intro) fun _ => True.intro
    · exact Monitor.obeys_call True.intro fun _ _ => .inl ⟨rfl, rfl⟩
  · match index with
    | none => exact .inr ⟨Bool.false_ne_true, rfl⟩
    | some none => exact Monitor.obeys_call True.intro fun _ _ => .inr ⟨Bool.false_ne_true, rfl⟩
    | some (some i) => exact absurd ⟨i, rfl⟩ turnedAway

theorem obeys_handleNewClient (clientAddr : SockaddrIn) (clientAddrlen : Nat) : (descriptorMonitor mainThread).Obeys
    (fun ok work => work.Settled (ok = true) fd) (handleNewClient clientAddr clientAddrlen fd) (.accepted fd) := by
  have turnedAway : ∀ {p : ServerProgram Unit}, p.Calls Call.LeavesWork → (descriptorMonitor mainThread).Obeys
      (fun ok work => work.Settled (ok = true) fd) (p >>= fun _ => return false) (.accepted fd) :=
    fun leaves => obeys_keeps_bind (keepsWork_of_leaves leaves) fun _ => .inr ⟨Bool.false_ne_true, rfl⟩
  unfold handleNewClient
  split
  · exact turnedAway (calls_make True.intro)
  refine obeys_keeps_bind (@calls_make _ (.setsockopt fd _) ⟨True.intro, fun _ => rfl⟩) fun alive => ?_
  split
  · exact turnedAway (calls_make True.intro)
  refine obeys_keeps_bind (@calls_make _ (.setsockopt fd _) ⟨True.intro, fun _ => rfl⟩) fun idle => ?_
  split
  · exact turnedAway (calls_make True.intro)
  refine obeys_keeps_bind (keepsWork_of_leaves ?_) fun received => ?_
  · unfold receiveClientType
    repeat' first
      | exact True.intro
      | exact calls_make True.intro
      | refine calls_forFrom (fun _ _ => ?_) _ _ _
      | refine calls_bind ?_ fun _ => ?_
      | split
  split
  · exact turnedAway (calls_make True.intro)
  split
  · exact turnedAway (calls_make True.intro)
  · exact obeys_handleClientOfType clientAddr

theorem obeys_serverAcceptClient : (descriptorMonitor mainThread).Obeys (fun _ work => work = .idle)
    serverAcceptClient .idle := by
  refine Monitor.obeys_call ⟨rfl, rfl⟩ fun answer _ => ?_
  cases answer with
  | failed error =>
    dsimp only
    split
    · exact ⟨True.intro, fun _ _ => rfl⟩
    · exact rfl
  | connected fd clientAddr clientAddrlen =>
    refine Monitor.obeys_bind.mpr (Monitor.obeys_mono ?_ (obeys_handleNewClient clientAddr clientAddrlen))
    rintro ok _ (⟨rfl, rfl⟩ | ⟨turnedAway, rfl⟩)
    · exact rfl
    · obtain rfl := Bool.eq_false_iff.mpr turnedAway
      refine obeys_keeps_bind (keepsWork_of_leaves (sendShutdownSignalToOneImpl_calls
        (fun _ => Call.Plain.leavesWork) (fun _ => True.intro) _ _)) fun _ => ?_
      exact Monitor.obeys_call ⟨Nat.zero_le _, rfl⟩ fun _ _ => rfl

theorem obeys_acceptRound : (descriptorMonitor mainThread).Obeys (fun _ work => work = .idle) acceptRound .idle := by
  refine obeys_keeps_bind (@calls_make _ (.loadRunning .acceptor) ⟨True.intro, fun _ => rfl⟩) fun running => ?_
  cases running with
  | false => exact rfl
  | true =>
    refine Monitor.obeys_bind.mpr (Monitor.obeys_mono ?_ obeys_serverAcceptClient)
    rintro accepted _ rfl
    cases accepted <;> exact rfl

theorem obeys_sendShutdownSignalToAllInArrImpl {threads : List ThreadId} : (descriptorMonitor mainThread).Obeys
    (fun _ work => work = .joining threads) (sendShutdownSignalToAllInArrImpl c) (.joining threads) := by
  refine Monitor.obeys_bind.mpr (Monitor.obeys_mono ?_
    (@Monitor.obeys_forFrom_within _ _ _ _ _ (descriptorMonitor mainThread) (.joining threads)
      (fun i _ => sendShutdownSignalToSlot c i) (fun _ _ work => work = .joining threads) (fun _ _ => False)
      (maxNumberOf c) 0 () ?_ rfl))
  · intro flow work kept
    cases flow with
    | next _ => exact kept
    | exit never => exact never.elim
  · rintro i _ _ _ upper rfl
    refine Monitor.obeys_call ⟨Nat.zero_le _, by omega, True.intro⟩ fun fd _ => ?_
    split
    · refine obeys_keeps_bind (@calls_make _ (.loadInfo c i) ⟨True.intro, fun _ => rfl⟩) fun info => ?_
      exact obeys_keeps_bind (keepsWork_of_leaves (sendShutdownSignalToOneImpl_calls
        (fun _ => Call.Plain.leavesWork) (fun _ => True.intro) _ _)) fun _ => rfl
    · exact rfl

theorem obeys_sendShutdownSignalToClients {threads : List ThreadId} (c : ClientType) :
    (descriptorMonitor mainThread).Obeys (fun _ work => work = .joining threads) (sendShutdownSignalToClients c)
      (.joining threads) := by
  have joining : Work.joining threads ≠ .registered := nofun
  refine obeys_keeps_bind (mutexWrappers_keepWork joining).1 fun locked => ?_
  cases locked with
  | false => exact rfl
  | true =>
    refine Monitor.obeys_bind.mpr (Monitor.obeys_mono ?_ obeys_sendShutdownSignalToAllInArrImpl)
    rintro _ _ rfl
    refine obeys_keeps_bind (@calls_make _ (.storeArrSize c 0) ⟨True.intro, fun _ => rfl⟩) fun _ => ?_
    exact obeys_keeps_bind (mutexWrappers_keepWork joining).2 fun _ => rfl

theorem obeys_sendShutdownSignalToAll {threads : List ThreadId} : (descriptorMonitor mainThread).Obeys
    (fun _ work => work = .joining threads) sendShutdownSignalToAll (.joining threads) := by
  have each : ∀ {rest : Unit → ServerProgram Unit} c, (descriptorMonitor mainThread).Obeys
      (fun _ work => work = .joining threads) (rest ()) (.joining threads) → (descriptorMonitor mainThread).Obeys
      (fun _ work => work = .joining threads) (sendShutdownSignalToClients c >>= rest) (.joining threads) := by
    intro rest c after
    refine Monitor.obeys_bind.mpr (Monitor.obeys_mono ?_ (obeys_sendShutdownSignalToClients c))
    rintro _ _ rfl
    exact after
  refine each _ (each _ (each _ (each _ (each _ ?_))))
  refine obeys_keeps_bind (@calls_make _ .shutdownListening ⟨True.intro, fun _ => rfl⟩) fun answer => ?_
  split
  · exact Monitor.obeys_call True.intro fun _ _ => rfl
  · exact rfl

theorem sweep_update {swept : ClientType → Nat} {n : Nat} :
    Work.sweep (Function.update swept c n) c = .sweeping (Function.update swept c (n + 1)) := by
  rw [Work.sweep, Function.update_self, Function.update_idem]

theorem obeys_closeFds {swept : ClientType → Nat} (fresh : swept c = 0) : (descriptorMonitor mainThread).Obeys
    (fun _ work => work = .sweeping (Function.update swept c (maxNumberOf c))) (closeFds c) (.sweeping swept) := by
  refine Monitor.obeys_bind.mpr (Monitor.obeys_mono ?_ (@Monitor.obeys_forFrom_within _ _ _ _ _
    (descriptorMonitor mainThread) (.sweeping swept) (fun i _ => closeSlot c i)
    (fun i _ work => work = .sweeping (Function.update swept c i)) (fun _ _ => False) (maxNumberOf c) 0 () ?_ ?_))
  · intro flow work kept
    cases flow with
    | next _ => exact Nat.zero_add (maxNumberOf c) ▸ kept
    | exit never => exact never.elim
  · rintro i _ _ _ upper rfl
    have next : i = Function.update swept c i c := by rw [Function.update_self]
    refine Monitor.obeys_call ⟨Nat.zero_le _, by omega, next⟩ fun fd _ => ?_
    by_cases free : fd = -1
    · rw [if_neg (not_not_intro free)]
      show (Work.sweeping (Function.update swept c i)).afterLook c i fd = _
      rw [Work.afterLook, if_pos free, sweep_update]
    · rw [if_pos free]
      show (descriptorMonitor mainThread).Obeys _ _ ((Work.sweeping (Function.update swept c i)).afterLook c i fd)
      rw [Work.afterLook, if_neg free]
      refine Monitor.obeys_call ⟨Nat.zero_le _, by omega, rfl, next⟩ fun again same => ?_
      obtain rfl : again = fd := same
      show (descriptorMonitor mainThread).Obeys _ _ ((Work.sweepingAt (Function.update swept c i) c again).afterLook c i again)
      rw [Work.afterLook, if_neg free]
      exact Monitor.obeys_call ⟨Nat.zero_le _, rfl⟩ fun _ _ => sweep_update
  · rw [← fresh, Function.update_eq_self]

/-- What `deinit_server` has been through at its end: all clients but the managers. -/
def allSwept (c : ClientType) : Nat := if c = .managerClient then 0 else maxNumberOf c

theorem obeys_deinitServer : (descriptorMonitor mainThread).Obeys (fun _ work => work = .sweeping allSwept)
    deinitServer (.sweeping fun _ => 0) := by
  refine Monitor.obeys_bind.mpr (Monitor.obeys_mono ?_ (obeys_closeFds rfl))
  rintro _ _ rfl
  refine Monitor.obeys_bind.mpr (Monitor.obeys_mono ?_ (obeys_closeFds rfl))
  rintro _ _ rfl
  refine Monitor.obeys_bind.mpr (Monitor.obeys_mono ?_ (obeys_closeFds rfl))
  rintro _ _ rfl
  refine Monitor.obeys_bind.mpr (Monitor.obeys_mono ?_ (obeys_closeFds rfl))
  rintro _ _ rfl
  refine Monitor.obeys_call True.intro fun _ _ => congrArg Work.sweeping (funext fun c => ?_)
  cases c <;> rfl

theorem obeys_joinAndExit (ret : Int) : (descriptorMonitor mainThread).Obeys
    (fun _ work => work = .sweeping allSwept) (joinAndExit ret) .idle := by
  refine Monitor.obeys_call ⟨rfl, True.intro⟩ fun _ _ => Monitor.obeys_call True.intro fun _ _ => ?_
  refine Monitor.obeys_call ⟨rfl, True.intro⟩ fun _ _ => Monitor.obeys_call True.intro fun _ _ => ?_
  refine Monitor.obeys_call ⟨rfl, True.intro⟩ fun _ _ => Monitor.obeys_call True.intro fun _ _ => ?_
  refine Monitor.obeys_call True.intro fun _ _ => ?_
  refine Monitor.obeys_bind.mpr (Monitor.obeys_mono ?_
    (@obeys_sendShutdownSignalToAll [managersThread, pollThread, logsThread]))
  rintro _ _ rfl
  refine Monitor.obeys_call True.intro fun _ _ => Monitor.obeys_call ?_ fun _ _ => ?_
  · exact ⟨by decide, by decide, by decide⟩
  refine Monitor.obeys_bind.mpr (Monitor.obeys_mono ?_ obeys_deinitServer)
  rintro _ _ rfl
  exact Monitor.obeys_call True.intro fun _ _ => Monitor.obeys_call True.intro fun _ _ => rfl

def finalWork (t : ThreadId) (work : Work) : Prop := if t = mainThread then work = .sweeping allSwept else work.Resting

theorem obeys_runServer (rounds : Nat) : (descriptorMonitor mainThread).Obeys
    (fun _ work => work = .sweeping allSwept) (runServer rounds) .idle := by
  rw [runServer_eq]
  refine Monitor.obeys_bind.mpr (Monitor.obeys_mono ?_ (@Monitor.obeys_forFrom_within _ _ _ _ _
    (descriptorMonitor mainThread) .idle (fun _ _ => acceptRound) (fun _ _ work => work = .idle)
    (fun _ work => work = .idle) rounds 0 () (fun _ _ _ _ _ idle => ?_) rfl))
  · intro flow work idle
    cases flow with
    | next _ => exact ⟨True.intro, fun answer => nomatch answer⟩
    | exit _ =>
      obtain rfl : work = .idle := idle
      exact obeys_keeps_bind (keepsWork_of_leaves (finishLoop_leavesWork _)) obeys_joinAndExit
  · subst idle
    refine Monitor.obeys_mono (fun flow _ after => ?_) obeys_acceptRound
    cases flow <;> exact after

theorem Rests.obeys {p : ServerProgram Unit} (rests : Rests t p) (other : t ≠ mainThread) :
    (descriptorMonitor t).Obeys (fun _ => finalWork t) p .idle :=
  Monitor.obeys_mono (fun _ work resting => by rwa [finalWork, if_neg other]) (rests .idle True.intro)

theorem serverPool_obeysDescriptors (rounds : Nat) (t : ThreadId) :
    (descriptorMonitor t).Obeys (fun _ => finalWork t) ((serverPool rounds).programs t) .idle := by
  match t with
  | 0 => exact obeys_runServer rounds
  | 1 =>
    have rests : Rests pollThread (workersPoller rounds) := by
      rw [workersPoller_eq]
      exact rests_afterLoop (rests_forFrom fun _ pins _ => rests_workersPollerRound (by decide) pins)
    exact rests.obeys (by decide)
  | 2 =>
    have rests : Rests logsThread (logsSender rounds) := by
      rw [logsSender_eq]
      exact rests_afterLoop (rests_forFrom fun _ _ _ => rests_logsSenderRound (by decide))
    exact rests.obeys (by decide)
  | 3 =>
    have rests : Rests managersThread (managersHandler rounds) := by
      rw [managersHandler_eq]
      exact rests_afterLoop (rests_forFrom fun _ _ _ => rests_managersHandlerRound)
    exact rests.obeys (by decide)
  | 4 =>
    have rests : Rests signalThread (signalHandler 2) :=
      rests_bind (rests_make True.intro) fun _ => rests_of_leaves stopAllThreads_leavesWork
    exact rests.obeys (by decide)
  | t + 5 => exact (rests_pure ()).obeys (by simp [mainThread])

end

end ArchCompSystems.OsIhw3
