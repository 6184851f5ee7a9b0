import ArchCompSystems.OsIhw3.Mutexes
import ArchCompSystems.OsIhw3.Registry

namespace ArchCompSystems.OsIhw3

open Library Library.Program Library.Machine

section

variable {t : ThreadId} {s : ServerState} {c : ClientType} {i : Nat} {allowed : Change → Prop}

theorem registry_afterError (s : ServerState) (t : ThreadId) (error : Option Errno) :
    (s.afterError t error).registry = s.registry := (SameSlots.afterError s t error).registry

theorem registry_arrSize (s : ServerState) (c : ClientType) :
    (s.groups c).arrSize = s.registry.arrSize c := rfl

theorem changed_drop {fd : Int} {s' : ServerState} {history : List ServerEvent}
    (inside : i < maxNumberOf c) (taken : (s.groups c).fds i = fd) (connected : fd ≠ -1)
    (ok : allowed (.drop c i fd)) (registry : s'.registry =
      (s.registry.setFd c i (-1)).setArrSize c ((s.registry.arrSize c + 2 ^ 64 - 1) % 2 ^ 64))
    (closed : closedIn history = [fd]) (opened : acceptedIn history = []) :
    (changesAccount allowed).holds s history s' := by
  refine ⟨[.drop c i fd], ?_, by simpa using ok, closed, opened⟩
  rw [registry]
  exact .cons (.drop ⟨inside, taken, connected, rfl⟩) (.nil _)

theorem makes_dropWorker {workerFd : Int} (inside : i < maxNumberOf c)
    (taken : (s.groups c).fds i = workerFd) (connected : workerFd ≠ -1)
    (ok : allowed (.drop c i workerFd)) : Makes t allowed (dropWorker c i workerFd) s := by
  unfold dropWorker decrementArrSize
  refine wp_bind.mpr (wp_storeFd.mpr (wp_bind.mpr (wp_close.mpr fun answer => ?_)))
  refine wp_bind.mpr (wp_loadArrSize.mpr (wp_storeArrSize.mpr ⟨?_, True.intro⟩))
  refine changed_drop inside taken connected ok ?_ rfl rfl
  rw [registry_setArrSize, registry_arrSize, registry_afterError, registry_setFd]
  rfl

theorem makes_closeManager (inside : i < maxNumberOf .managerClient)
    (connected : (s.groups .managerClient).fds i ≠ -1)
    (ok : ∀ fd, allowed (.drop .managerClient i fd)) : Makes t allowed (closeManager i) s := by
  unfold closeManager decrementArrSize
  refine wp_bind.mpr (wp_loadFd.mpr (wp_bind.mpr (wp_storeFd.mpr (wp_bind.mpr ?_))))
  refine wp_bind.mpr (wp_loadArrSize.mpr (wp_storeArrSize.mpr ?_))
  refine wp_bind.mpr (wp_close.mpr fun answer => wp_bind.mpr (wp_loadInfo.mpr ?_))
  refine wp_mono ?_ (wp_quiet ((handleLog_calls _).mono fun _ => Call.Logging.quiet))
  rintro history _ s' ⟨same, closed, opened⟩
  refine ⟨changed_drop inside rfl connected (ok _) ?_ ?_ ?_, True.intro⟩
  · rw [same.registry, registry_afterError, registry_setArrSize, registry_arrSize, registry_setFd]
    rfl
  · simp only [closedIn_append, closed]
    rfl
  · simp only [acceptedIn_append, opened]
    rfl

theorem makes_handleFailedTransfer {cause : String} {workerFd : Int} {pinsQ : PinsQueue}
    (inside : i < maxNumberOf c) (taken : (s.groups c).fds i = workerFd) (connected : workerFd ≠ -1)
    (ok : ∀ i fd, allowed (.drop c i fd)) :
    Makes t allowed (handleFailedTransfer cause c i workerFd pinsQ) s := by
  unfold handleFailedTransfer
  refine makes_quiet_bind ((handleSocketOpError_calls _).mono fun _ => Call.Plain.quiet)
    fun result s' same => ?_
  cases result with
  | emptyClientSocket => exact makes_pure
  | deadClientSocket =>
    rw [← same.fds c] at taken
    exact makes_bind (makes_dropWorker inside taken connected (ok _ _)) fun _ _ => makes_pure
  | unknownSocketError => exact makes_pure

theorem storeReceivedPin_quiet (pin : Pin) (pinsQ : PinsQueue) :
    (storeReceivedPin c i pin pinsQ).Calls Call.Quiet := by
  unfold storeReceivedPin
  repeat' first
    | exact True.intro
    | exact calls_make True.intro
    | exact assert_calls (fun _ => True.intro) _ _
    | exact orAbort_calls (fun _ => True.intro) _ _
    | exact (handleLog_calls _).mono fun _ => Call.Logging.quiet
    | refine calls_bind ?_ fun _ => ?_

theorem makes_pollWorker {pinsQ : PinsQueue} (inside : i < maxNumberOf c)
    (ok : ∀ i fd, allowed (.drop c i fd)) : Makes t allowed (pollWorker c i pinsQ) s := by
  unfold pollWorker
  refine makes_quiet_bind (calls_make True.intro) fun size s _ => ?_
  split
  · exact makes_pure
  refine makes_loadFd_bind ?_
  split
  · exact makes_pure
  rename_i connected
  refine makes_quiet_bind ((isSocketAlive_calls _).mono fun _ => Call.Plain.quiet)
    fun alive s' same => ?_
  rw [← same.fds c] at connected ⊢
  cases alive with
  | false =>
    exact makes_bind (makes_dropWorker inside rfl connected (ok _ _)) fun _ _ => makes_pure
  | true =>
    refine makes_quiet_bind (calls_make True.intro) fun received s'' same => ?_
    rw [← same.fds c] at connected ⊢
    cases received with
    | failed error => exact makes_handleFailedTransfer inside rfl connected ok
    | received bytes =>
      dsimp only
      split
      · exact makes_of_quiet (storeReceivedPin_quiet _ _)
      · exact makes_handleFailedTransfer inside rfl connected ok

theorem makes_pollWorkers {pinsQ : PinsQueue} (ok : ∀ i fd, allowed (.drop c i fd)) :
    Makes t allowed (pollWorkers c pinsQ) s := by
  unfold pollWorkers
  refine makes_bind (makes_forFrom fun i _ _ inside => makes_pollWorker inside ok) fun flow _ => ?_
  cases flow <;> exact makes_pure

theorem makes_sendPinToWorker {pinsQ : PinsQueue} (inside : i < maxNumberOf c)
    (ok : ∀ i fd, allowed (.drop c i fd)) : Makes t allowed (sendPinToWorker c i pinsQ) s := by
  unfold sendPinToWorker
  refine makes_quiet_bind (calls_make True.intro) fun size s _ => ?_
  split
  · exact makes_pure
  refine makes_loadFd_bind ?_
  split
  · exact makes_pure
  rename_i connected
  refine makes_quiet_bind ((isSocketAlive_calls _).mono fun _ => Call.Plain.quiet)
    fun alive s' same => ?_
  rw [← same.fds c] at connected ⊢
  cases alive with
  | false =>
    exact makes_bind (makes_dropWorker inside rfl connected (ok _ _)) fun _ _ => makes_pure
  | true =>
    refine makes_quiet_bind (orAbort_calls (fun _ => True.intro) _ _) fun (res, pinsQ, pin) s'' same => ?_
    rw [← same.fds c] at connected ⊢
    refine makes_quiet_bind (assert_calls (fun _ => True.intro) _ _) fun _ s'' same => ?_
    rw [← same.fds c] at connected ⊢
    refine makes_quiet_bind (calls_make True.intro) fun sent s'' same => ?_
    rw [← same.fds c] at connected ⊢
    cases sent with
    | failed error => exact makes_handleFailedTransfer inside rfl connected ok
    | sent size =>
      dsimp only
      split
      · refine makes_of_quiet (calls_bind (calls_make True.intro) fun _ => ?_)
        exact calls_bind ((handleLog_calls _).mono fun _ => Call.Logging.quiet) fun _ => True.intro
      · exact makes_handleFailedTransfer inside rfl connected ok

theorem makes_sendPinsToWorkers {pinsQ : PinsQueue} (ok : ∀ i fd, allowed (.drop c i fd)) :
    Makes t allowed (sendPinsToWorkers c pinsQ) s := by
  unfold sendPinsToWorkers
  refine makes_bind (makes_forFrom fun i _ _ inside => makes_sendPinToWorker inside ok) fun flow _ => ?_
  cases flow <;> exact makes_pure

theorem makes_pollManagerFailed (inside : i < maxNumberOf .managerClient)
    (connected : (s.groups .managerClient).fds i ≠ -1)
    (ok : ∀ i fd, allowed (.drop .managerClient i fd)) :
    Makes t allowed (pollManager.failed i) s := by
  unfold pollManager.failed
  refine makes_quiet_bind ((handleSocketOpError_calls _).mono fun _ => Call.Plain.quiet)
    fun result s' same => ?_
  cases result with
  | emptyClientSocket => exact makes_pure
  | deadClientSocket =>
    rw [← same.fds .managerClient] at connected
    exact makes_bind (makes_closeManager inside connected (ok i)) fun _ _ => makes_pure
  | unknownSocketError => exact makes_pure

theorem makes_pollManager (inside : i < maxNumberOf .managerClient)
    (ok : ∀ i fd, allowed (.drop .managerClient i fd)) : Makes t allowed (pollManager i) s := by
  unfold pollManager
  refine makes_quiet_bind (calls_make True.intro) fun size s _ => ?_
  split
  · exact makes_pure
  refine makes_loadFd_bind ?_
  split
  · exact makes_pure
  rename_i connected
  refine makes_quiet_bind ((isSocketAlive_calls _).mono fun _ => Call.Plain.quiet)
    fun alive s' same => ?_
  rw [← same.fds .managerClient] at connected ⊢
  cases alive with
  | false => exact makes_bind (makes_closeManager inside connected (ok i)) fun _ _ => makes_pure
  | true =>
    refine makes_quiet_bind (calls_make True.intro) fun received s'' same => ?_
    rw [← same.fds .managerClient] at connected
    cases received with
    | failed error => exact makes_pollManagerFailed inside connected ok
    | received bytes =>
      dsimp only
      split
      · exact makes_pure
      · exact makes_pollManagerFailed inside connected ok

theorem makes_nonblockingPollManagers (ok : ∀ i fd, allowed (.drop .managerClient i fd)) :
    Makes t allowed nonblockingPollManagers s := by
  unfold nonblockingPollManagers
  refine makes_bind (makes_forFrom fun i _ _ inside => makes_pollManager inside ok) fun flow _ => ?_
  cases flow <;> exact makes_pure

theorem makes_sendCommandResultToManager {res : ServerCommandResult}
    (ok : ∀ i fd, allowed (.drop .managerClient i fd)) :
    Makes t allowed (sendCommandResultToManager res i) s := by
  unfold sendCommandResultToManager
  refine wp_bind.mpr (wp_assert.mpr fun bound => ?_)
  have inside : i < maxNumberOf .managerClient := of_decide_eq_true bound
  refine makes_loadFd_bind ?_
  split
  · exact makes_of_quiet (calls_bind (calls_make True.intro) fun _ => True.intro)
  rename_i connected
  refine makes_quiet_bind (calls_make True.intro) fun sent s' same => ?_
  rw [← same.fds .managerClient] at connected
  dsimp only
  split
  · refine makes_quiet_bind (calls_make True.intro) fun info s'' same => ?_
    rw [← same.fds .managerClient] at connected
    refine makes_quiet_bind (calls_make True.intro) fun _ s'' same => ?_
    rw [← same.fds .managerClient] at connected
    refine makes_quiet_bind ((handleSocketOpError_calls _).mono fun _ => Call.Plain.quiet)
      fun result s'' same => ?_
    rw [← same.fds .managerClient] at connected
    split
    · exact makes_bind (makes_closeManager inside connected (ok i)) fun _ _ => makes_pure
    · exact makes_pure
  · exact makes_pure

/-- The registered client in slot `i` of a type has the address of the command. -/
def HasAddress (s : ServerState) (cmd : ServerCommand) (c : ClientType) (i : Nat) : Prop :=
  (s.groups c).fds i ≠ -1 ∧
    ((s.groups c).info i).hasAddress cmd.ipAddress (Nat.toDigits 10 cmd.port) = true

/-- A pass of `find_and_shutdown` leaves everything as it is unless the client has the address. -/
theorem ensures_shutdownIfFound {cmd : ServerCommand} (inside : i < maxNumberOf c)
    (ok : ∀ fd, HasAddress s cmd c i → allowed (.forget c i fd)) :
    machine.Ensures t (changesAccount allowed)
      (shutdownIfFound c cmd.ipAddress (Nat.toDigits 10 cmd.port) i)
      (fun flow s' => flow = .next () → s' = s) s := by
  unfold shutdownIfFound
  refine wp_bind.mpr (wp_loadFd.mpr ?_)
  split
  · exact ⟨⟨[], .nil _, by simp, rfl, rfl⟩, fun _ => rfl⟩
  rename_i connected
  refine wp_bind.mpr (wp_loadInfo.mpr ?_)
  split
  · rename_i found
    refine wp_bind.mpr (wp_loadFd.mpr (wp_bind.mpr ?_))
    refine wp_mono ?_ (wp_quiet (sendShutdownSignalToOneImpl_quiet _ _))
    rintro sending _ s' ⟨same, closed, opened⟩
    refine wp_bind.mpr (wp_loadFd.mpr (wp_bind.mpr (wp_close.mpr fun answer => ?_)))
    refine wp_bind.mpr (wp_storeFd.mpr ⟨?_, fun never => by cases never⟩)
    have fd := congrFun (same.fds c) i
    refine ⟨[.forget c i ((s.groups c).fds i)], ?_, by simpa using ok _ ⟨connected, found⟩, ?_, ?_⟩
    · refine .cons (.forget ⟨inside, rfl, connected, rfl⟩) ?_
      rw [registry_setFd, registry_afterError, same.registry]
      exact .nil _
    · simp only [closedIn_append, closed]
      exact congrArg (fun fd => [fd]) fd
    · simp only [acceptedIn_append, opened]
      rfl
  · exact ⟨⟨[], .nil _, by simp, rfl, rfl⟩, fun _ => rfl⟩

theorem ensures_findAndShutdown {cmd : ServerCommand}
    (ok : ∀ i fd, i < maxNumberOf c → HasAddress s cmd c i → allowed (.forget c i fd)) :
    machine.Ensures t (changesAccount allowed) (findAndShutdown c cmd.ipAddress cmd.port)
      (fun found s' => found = false → s' = s) s := by
  unfold findAndShutdown
  dsimp only
  refine ensures_bind (@ensures_forFrom _ _ _ _ _ _ machine t _
    (fun i _ => shutdownIfFound c cmd.ipAddress (Nat.toDigits 10 cmd.port) i)
    (fun _ _ s' => s' = s) (fun _ _ => True) (maxNumberOf c) 0 () s ?_ rfl) ?_
  · rintro i _ _ - upper rfl
    refine ensures_mono (fun flow s' same => ?_)
      (ensures_shutdownIfFound (by omega) fun fd => ok i fd (by omega))
    cases flow with
    | next carried => exact same rfl
    | exit result => exact True.intro
  · rintro flow s' after
    cases flow with
    | next carried => exact ensures_pure fun _ => after
    | exit result => exact ensures_pure fun never => by cases never

theorem ensures_executeCommand {cmd : ServerCommand}
    (ok : ∀ c i fd, i < maxNumberOf c → HasAddress s cmd c i → allowed (.forget c i fd)) :
    machine.Ensures t (changesAccount allowed) (executeCommand cmd)
      (fun result s' => result = .invalidServerCommandArgs → s' = s) s := by
  have search : ∀ c (rest : Bool → ServerProgram ServerCommandResult),
      rest true = pure .serverCommandSuccess →
      machine.Ensures t (changesAccount allowed) (rest false)
        (fun result s' => result = .invalidServerCommandArgs → s' = s) s →
      machine.Ensures t (changesAccount allowed) (findAndShutdown c cmd.ipAddress cmd.port >>= rest)
        (fun result s' => result = .invalidServerCommandArgs → s' = s) s := by
    intro c rest success others
    refine ensures_bind (ensures_findAndShutdown (ok c)) fun found s' same => ?_
    cases found with
    | false => exact same rfl ▸ others
    | true =>
      rw [success]
      exact ensures_pure fun never => by cases never
  unfold executeCommand
  refine search _ _ rfl (search _ _ rfl (search _ _ rfl (search _ _ rfl (search _ _ rfl ?_))))
  exact ensures_pure fun _ => rfl

/-- No load of `errno` finds a value that stands for a dead client. -/
def NoDeadClient (history : List ServerEvent) : Prop :=
  ∀ error : Errno, ⟨.loadErrno, error⟩ ∈ history → error.handleResult ≠ .deadClientSocket

theorem handleSocketOpError_result {cause : String} {history : List ServerEvent}
    {result : HandleResult} (completes : (handleSocketOpError cause).Completes history result) :
    ∃ error : Errno, ⟨.loadErrno, error⟩ ∈ history ∧ error.handleResult = result := by
  obtain ⟨loading, error, rest, rfl, loaded, tail⟩ := completes_bind.mp completes
  obtain rfl := completes_request.mp loaded
  refine ⟨error, List.mem_append_left _ (List.mem_singleton_self _), ?_⟩
  dsimp only at tail
  split at tail
  · obtain ⟨printing, _, rest, rfl, printed, ending⟩ := completes_bind.mp tail
    exact (completes_pure.mp ending).2
  · exact (completes_pure.mp tail).2

theorem noDeadClient_append {history later : List ServerEvent} :
    NoDeadClient (history ++ later) ↔ NoDeadClient history ∧ NoDeadClient later := by
  simp only [NoDeadClient, List.mem_append, or_imp, forall_and]

theorem wp_handleSocketOpError {cause : String} : machine.wp t (handleSocketOpError cause)
    (fun history result s' => (SameSlots s s' ∧ closedIn history = [] ∧ acceptedIn history = []) ∧
      (result = .deadClientSocket → ¬ NoDeadClient history)) s := by
  refine wp_and (wp_quiet ((handleSocketOpError_calls _).mono fun _ => Call.Plain.quiet))
    (wp_iff_runs.mpr fun history result _ run dead none => ?_)
  obtain ⟨error, loaded, sorted⟩ := handleSocketOpError_result run.completes
  exact none error loaded (sorted.trans dead)

def LogChange (history : List ServerEvent) (change : Change) : Prop :=
  (∃ i fd, change = .forget .logsCollectorClient i fd) ∧ ¬ NoDeadClient history

def logAccount : Account ServerState ServerEvent where
  holds s history s' := (changesAccount (LogChange history)).holds s history s'
  nil s := (changesAccount _).nil s
  append := by
    rintro s middle s' history later first second
    refine (changesAccount _).append (changesAccount_mono (fun change ok => ⟨ok.1, fun none => ?_⟩) first)
      (changesAccount_mono (fun change ok => ⟨ok.1, fun none => ?_⟩) second)
    · exact ok.2 (noDeadClient_append.mp none).1
    · exact ok.2 (noDeadClient_append.mp none).2

theorem changes_sendLogToCollector {message : String} (inside : i < maxNumberOf .logsCollectorClient) :
    machine.wp t (sendLogToCollector message i) (fun history _ s' => logAccount.holds s history s') s := by
  have unchanged : ∀ history s', SameSlots s s' → closedIn history = [] → acceptedIn history = [] →
      logAccount.holds s history s' := fun history s' same closed opened =>
    ⟨[], same.registry ▸ .nil _, by simp, closed, opened⟩
  unfold sendLogToCollector
  rw [wp_bind, wp_loadFd]
  split
  · exact unchanged _ _ (.refl s) rfl rfl
  rename_i connected
  refine wp_bind.mpr (wp_mono ?_ (wp_quiet (calls_make True.intro)))
  rintro sending sent s₁ ⟨same₁, closed₁, opened₁⟩
  dsimp only
  split
  · refine wp_bind.mpr (wp_mono ?_ (wp_quiet (calls_make True.intro)))
    rintro loading info s₂ ⟨same₂, closed₂, opened₂⟩
    refine wp_bind.mpr (wp_mono ?_ (wp_quiet (calls_make True.intro)))
    rintro printing _ s₃ ⟨same₃, closed₃, opened₃⟩
    refine wp_bind.mpr (wp_mono ?_ wp_handleSocketOpError)
    rintro handling result s₄ ⟨⟨same₄, closed₄, opened₄⟩, dead⟩
    have same := ((same₁.trans same₂).trans same₃).trans same₄
    split
    · rename_i isDead
      rw [wp_bind, wp_loadFd, wp_bind, wp_storeFd, wp_bind, wp_close]
      intro answer
      refine wp_bind.mpr (wp_mono ?_ (wp_quiet (calls_make True.intro)))
      rintro reporting _ s₅ ⟨same₅, closed₅, opened₅⟩
      have fd := congrFun (same.fds .logsCollectorClient) i
      refine ⟨[.forget .logsCollectorClient i ((s.groups .logsCollectorClient).fds i)], ?_, ?_, ?_, ?_⟩
      · refine .cons (.forget ⟨inside, rfl, connected, rfl⟩) ?_
        rw [same₅.registry, registry_afterError, registry_setFd, same.registry]
        exact .nil _
      · simp only [List.mem_singleton, forall_eq]
        refine ⟨⟨i, _, rfl⟩, fun none => dead isDead ?_⟩
        simp only [noDeadClient_append] at none
        exact none.2.2.2.2.1
      · simp only [closedIn_append, closed₁, closed₂, closed₃, closed₄, closed₅]
        exact congrArg (fun fd => [fd]) fd
      · simp only [acceptedIn_append, opened₁, opened₂, opened₃, opened₄, opened₅]
        rfl
    · refine unchanged _ _ same ?_ ?_
      · simp only [closedIn_append, closed₁, closed₂, closed₃, closed₄]
        rfl
      · simp only [acceptedIn_append, opened₁, opened₂, opened₃, opened₄]
        rfl
  · refine unchanged _ _ same₁ ?_ ?_
    · simp only [closedIn_append, closed₁]
      rfl
    · simp only [acceptedIn_append, opened₁]
      rfl

theorem changes_sendServerLog {message : String} : machine.wp t (sendServerLog message)
    (fun history _ s' => logAccount.holds s history s') s := by
  unfold sendServerLog
  refine wp_mono (fun _ _ _ both => both.1) (@ensures_bind _ _ _ _ _ _ machine t logAccount _ _
    (fun _ _ => True) (fun _ _ => True) s ?_ fun _ _ _ => ensures_pure True.intro)
  refine ensures_mono (fun _ _ _ => True.intro) (@ensures_forFrom _ _ _ _ _ _ machine t _
    (fun i _ => sendLogToCollector message i) (fun _ _ _ => True) (fun _ _ => True)
    (maxNumberOf .logsCollectorClient) 0 () s (fun i _ s _ upper _ => ?_) True.intro)
  refine wp_mono (fun _ flow _ holds => ⟨holds, ?_⟩) (changes_sendLogToCollector (by omega))
  cases flow <;> exact True.intro

theorem sendShutdownSignalToAllInArrImpl_quiet (c : ClientType) :
    (sendShutdownSignalToAllInArrImpl c).Calls Call.Quiet := by
  unfold sendShutdownSignalToAllInArrImpl sendShutdownSignalToSlot
  repeat' first
    | exact True.intro
    | exact calls_make True.intro
    | exact sendShutdownSignalToOneImpl_quiet _ _
    | refine calls_forFrom (fun _ _ => ?_) _ _ _
    | refine calls_bind ?_ fun _ => ?_
    | split

def LockRefused (c : ClientType) (history : List ServerEvent) : Prop :=
  ∃ error, mutexCalls history = [lockEvent (some error) c]

def Resets (c : ClientType) (history : List ServerEvent) (change : Change) : Prop :=
  change = .reset c ∧ ¬ LockRefused c history

theorem changes_sendShutdownSignalToClients : machine.wp t (sendShutdownSignalToClients c)
    (fun history _ s' => (changesAccount (Resets c history)).holds s history s') s := by
  unfold sendShutdownSignalToClients
  refine wp_bind.mpr (wp_mono ?_ (wp_and (wp_quiet (mutexWrappers_quiet c).1)
    (wp_iff_runs.mpr fun _ _ _ run => mutexCalls_serverLockMutexOf run.completes)))
  rintro locking _ s₁ ⟨⟨same₁, closed₁, opened₁⟩, answer, lockCalls, rfl⟩
  cases answer with
  | some error =>
    refine ⟨[], same₁.registry ▸ .nil _, by simp, ?_, ?_⟩
    · rwa [List.append_nil]
    · rwa [List.append_nil]
  | none =>
    refine wp_bind.mpr (wp_mono ?_ (wp_quiet (sendShutdownSignalToAllInArrImpl_quiet c)))
    rintro sending _ s₂ ⟨same₂, closed₂, opened₂⟩
    rw [wp_bind, wp_storeArrSize]
    refine wp_bind.mpr (wp_mono ?_ (wp_quiet (mutexWrappers_quiet c).2))
    rintro unlocking _ s₃ ⟨same₃, closed₃, opened₃⟩
    refine ⟨[.reset c], ?_, ?_, ?_, ?_⟩
    · rw [same₃.registry, registry_setArrSize, same₂.registry, same₁.registry]
      exact .cons .reset (.nil _)
    · simp only [List.mem_singleton, forall_eq, Resets, true_and]
      rintro ⟨error, calls⟩
      rw [mutexCalls_append, lockCalls] at calls
      cases c <;> simp [lockEvent] at calls
    · simp only [closedIn_append, closed₁, closed₂, closed₃]
      rfl
    · simp only [acceptedIn_append, opened₁, opened₂, opened₃]
      rfl

def UnlockFailsAfterInsert (history : List ServerEvent) : Prop :=
  ∃ (before after : List ServerEvent) (c : ClientType) (i : Nat) (fd : Int) (error : Errno),
    history = before ++ ⟨.storeFd c i fd, ()⟩ :: ⟨.mutexUnlock c, some error⟩ :: after

/-- What `handle_new_client` does with a connection, next to its result. -/
inductive Admission (s : ServerState) (fd : Int) (history : List ServerEvent) (s' : ServerState) :
    Bool → Prop where
  | refused (same : SameSlots s s') : Admission s fd history s' false
  | registered (c : ClientType) (i : Nat) (registers : s.registry.Registers c i fd s'.registry) :
      Admission s fd history s' true
  | botched (c : ClientType) (i : Nat) (registers : s.registry.Registers c i fd s'.registry)
      (unlockFails : UnlockFailsAfterInsert history) : Admission s fd history s' false

theorem Admission.append {fd : Int} {s₀ s s' : ServerState} {history later : List ServerEvent}
    {admitted : Bool} (same : SameSlots s₀ s) (admission : Admission s fd later s' admitted) :
    Admission s₀ fd (history ++ later) s' admitted := by
  cases admission with
  | refused after => exact .refused (same.trans after)
  | registered c i registers => exact .registered c i (same.registry ▸ registers)
  | botched c i registers unlockFails =>
    obtain ⟨before, after, c', i', fd, error, rfl⟩ := unlockFails
    exact .botched c i (same.registry ▸ registers)
      ⟨history ++ before, after, c', i', fd, error, by rw [List.append_assoc]⟩

theorem wp_admission_bind {α : Type} {p : ServerProgram α} {f : α → ServerProgram Bool} {fd : Int}
    (quiet : p.Calls Call.Quiet) (rest : ∀ value s', SameSlots s s' → machine.wp t (f value)
      (fun history admitted s'' => Admission s' fd history s'' admitted) s') :
    machine.wp t (p >>= f) (fun history admitted s' => Admission s fd history s' admitted) s :=
  wp_quiet_bind quiet fun _ value s' same =>
    wp_mono (fun _ _ _ admission => admission.append same) (rest value s' same)

theorem wp_refuse {p : ServerProgram Unit} {fd : Int} (quiet : p.Calls Call.Quiet) :
    machine.wp t (p >>= fun _ => pure false)
      (fun history admitted s' => Admission s fd history s' admitted) s :=
  wp_admission_bind quiet fun _ s' _ => .refused (.refl s')

theorem wp_insertIntoSlot {clientAddr : SockaddrIn} {clientSockFd : Int} (inside : i < maxNumberOf c) :
    machine.wp t (insertIntoSlot c clientAddr clientSockFd i) (fun history flow s' => match flow with
      | .next () => s' = s ∧ (s.groups c).fds i ≠ -1
      | .exit j => s.registry.Registers c j clientSockFd s'.registry ∧
          ∃ before, history = before ++ [⟨.storeFd c j clientSockFd, ()⟩]) s := by
  unfold insertIntoSlot incrementArrSize
  rw [wp_bind, wp_loadFd]
  split
  · rename_i taken
    exact ⟨rfl, taken⟩
  rename_i free
  rw [wp_bind, wp_loadArrSize, wp_bind, wp_assert]
  intro room
  refine wp_quiet_bind (calls_make True.intro) fun addressing _ s₁ same₁ => ?_
  rw [wp_bind, wp_bind, wp_loadArrSize, wp_storeArrSize]
  refine wp_quiet_bind ((fillClientMetainfo_calls _ _ _).mono fun _ => Call.Plain.quiet)
    fun filling _ s₂ same₂ => ?_
  rw [wp_bind, wp_storeFd]
  refine ⟨⟨inside, not_not.mp free, of_decide_eq_true room, ?_⟩, ?_⟩
  · rw [registry_setFd, same₂.registry, registry_setArrSize, registry_arrSize, same₁.registry]
  · exact ⟨_, by simp only [List.append_nil, ← List.append_assoc]; rfl⟩

theorem wp_insertNewClientIntoArrays {clientAddr : SockaddrIn} {clientSockFd : Int} :
    machine.wp t (insertNewClientIntoArrays c clientAddr clientSockFd)
      (fun history index s' => match index with
        | none => s' = s ∧ ∀ i < maxNumberOf c, (s.groups c).fds i ≠ -1
        | some i => s.registry.Registers c i clientSockFd s'.registry ∧
            ∃ before, history = before ++ [⟨.storeFd c i clientSockFd, ()⟩]) s := by
  unfold insertNewClientIntoArrays
  rw [wp_bind, wp_loadArrSize, wp_bind, wp_assert]
  intro _
  refine wp_bind.mpr (wp_mono ?_ (@wp_forFrom _ _ _ _ _ _ machine t
    (fun i _ => insertIntoSlot c clientAddr clientSockFd i)
    (fun i _ _ s' => s' = s ∧ ∀ j < i, (s.groups c).fds j ≠ -1)
    (fun history i s' => s.registry.Registers c i clientSockFd s'.registry ∧
      ∃ before, history = before ++ [⟨.storeFd c i clientSockFd, ()⟩])
    (maxNumberOf c) 0 () [] s ?_ ⟨rfl, fun j never => absurd never (Nat.not_lt_zero j)⟩))
  · intro history flow s' after
    cases flow with
    | next carried => rwa [Nat.zero_add] at after
    | exit j =>
      obtain ⟨registers, before, stored⟩ := after
      exact ⟨registers, ⟨.loadArrSize c, (s.groups c).arrSize⟩ :: before, by simp [stored]⟩
  · rintro i history _ _ - upper ⟨rfl, taken⟩
    refine wp_mono (fun later flow s' after => ?_) (wp_insertIntoSlot (by omega))
    cases flow with
    | next carried =>
      obtain ⟨rfl, takenToo⟩ := after
      refine ⟨rfl, fun j below => ?_⟩
      rcases Nat.lt_succ_iff_lt_or_eq.mp below with earlier | rfl
      · exact taken j earlier
      · exact takenToo
    | exit j =>
      obtain ⟨registers, before, rfl⟩ := after
      exact ⟨registers, history ++ before, by rw [List.append_assoc]⟩

theorem wp_serverUnlockMutexOf : machine.wp t (serverUnlockMutexOf c) (fun history ok s' =>
    SameSlots s s' ∧ (ok = false → ∃ error after,
      history = ⟨.mutexUnlock c, some error⟩ :: after)) s := by
  refine wp_and (wp_of_quiet (mutexWrappers_quiet c).2 s) ?_
  have unlocks : machine.wp t (serverUnlockMutex c) (fun history ok _ => ok = false →
      ∃ error after, history = ⟨.mutexUnlock c, some error⟩ :: after) s := by
    intro answer _ _
    cases answer with
    | none => exact fun never => by cases never
    | some error => exact wp_iff_runs.mpr fun after _ _ _ _ => ⟨error, after, rfl⟩
  cases c <;> exact unlocks

theorem wp_registerClient {clientAddr : SockaddrIn} {clientSockFd : Int} :
    machine.wp t (registerClient c clientAddr clientSockFd) (fun history result s' => match result with
      | none => SameSlots s s' ∨ ∃ i, s.registry.Registers c i clientSockFd s'.registry ∧
          UnlockFailsAfterInsert history
      | some none => SameSlots s s'
      | some (some i) => s.registry.Registers c i clientSockFd s'.registry) s := by
  unfold registerClient
  refine wp_quiet_bind (mutexWrappers_quiet c).1 fun locking ok s₁ same₁ => ?_
  cases ok with
  | false => exact .inl same₁
  | true =>
    refine wp_bind.mpr (wp_mono ?_ wp_insertNewClientIntoArrays)
    rintro inserting index s₂ inserted
    refine wp_bind.mpr (wp_mono ?_ wp_serverUnlockMutexOf)
    rintro unlocking ok s₃ ⟨same₃, failed⟩
    cases index with
    | none =>
      obtain ⟨rfl, -⟩ := inserted
      cases ok with
      | false => exact .inl (same₁.trans same₃)
      | true => exact same₁.trans same₃
    | some i =>
      obtain ⟨registers, before, rfl⟩ := inserted
      rw [same₁.registry, ← same₃.registry] at registers
      cases ok with
      | false =>
        obtain ⟨error, after, rfl⟩ := failed rfl
        exact .inr ⟨i, registers, locking ++ before, after, c, i, clientSockFd, error, by simp⟩
      | true => exact registers

theorem wp_handleClientOfType {clientAddr : SockaddrIn} {clientSockFd : Int} :
    machine.wp t (handleClientOfType c clientAddr clientSockFd)
      (fun history admitted s' => Admission s clientSockFd history s' admitted) s := by
  unfold handleClientOfType
  refine wp_bind.mpr (wp_mono ?_ wp_registerClient)
  rintro history result s₁ registered
  match result, registered with
  | none, .inl same => exact .refused same
  | none, .inr ⟨i, registers, unlockFails⟩ =>
    exact .botched c i registers (by rwa [List.append_nil])
  | some none, same =>
    exact wp_mono (fun _ _ _ admission => admission.append same) (wp_refuse (calls_make True.intro))
  | some (some i), registers =>
    refine wp_quiet_bind (calls_make True.intro) fun _ info s₂ same₂ => ?_
    refine wp_quiet_bind (calls_make True.intro) fun _ _ s₃ same₃ => ?_
    refine wp_quiet_bind (calls_make True.intro) fun _ _ s₄ same₄ => ?_
    exact .registered c i (((same₂.trans same₃).trans same₄).registry ▸ registers)

theorem receiveClientType_quiet (clientSockFd : Int) :
    (receiveClientType clientSockFd).Calls Call.Quiet := by
  unfold receiveClientType
  refine calls_bind (calls_forFrom (fun _ _ => ?_) _ _ _) fun received => ?_
  · refine calls_bind (calls_make True.intro) fun answer => ?_
    split
    · split <;> exact True.intro
    · exact True.intro
  · split
    · exact True.intro
    · exact calls_bind (calls_make True.intro) fun _ => True.intro

theorem wp_handleNewClient {clientAddr : SockaddrIn} {clientAddrlen : Nat} {clientSockFd : Int} :
    machine.wp t (handleNewClient clientAddr clientAddrlen clientSockFd)
      (fun history admitted s' => Admission s clientSockFd history s' admitted) s := by
  unfold handleNewClient
  split
  · exact wp_refuse (calls_make True.intro)
  refine wp_admission_bind (calls_make True.intro) fun keepAlive s₁ _ => ?_
  split
  · exact wp_refuse (calls_make True.intro)
  refine wp_admission_bind (calls_make True.intro) fun keepIdle s₂ _ => ?_
  split
  · exact wp_refuse (calls_make True.intro)
  refine wp_admission_bind (receiveClientType_quiet _) fun type s₃ _ => ?_
  cases type with
  | none => exact wp_refuse (calls_make True.intro)
  | some raw =>
    dsimp only
    split
    · exact wp_refuse (calls_make True.intro)
    · exact wp_handleClientOfType

theorem insertNewClientIntoArrays_keepsConnections (c : ClientType) (clientAddr : SockaddrIn)
    (clientSockFd : Int) :
    (insertNewClientIntoArrays c clientAddr clientSockFd).Calls Call.KeepsConnections := by
  unfold insertNewClientIntoArrays insertIntoSlot storeAddr incrementArrSize
  repeat' first
    | exact True.intro
    | exact calls_make True.intro
    | exact assert_calls (fun _ => True.intro) _ _
    | exact (fillClientMetainfo_calls _ _ _).mono fun _ plain => plain.quiet.keepsConnections
    | refine calls_forFrom (fun _ _ => ?_) _ _ _
    | refine calls_bind ?_ fun _ => ?_
    | split

theorem handleNewClient_keepsConnections (clientAddr : SockaddrIn) (clientAddrlen : Nat)
    (clientSockFd : Int) :
    (handleNewClient clientAddr clientAddrlen clientSockFd).Calls Call.KeepsConnections := by
  unfold handleNewClient handleClientOfType registerClient
  repeat' first
    | exact True.intro
    | exact calls_make True.intro
    | exact insertNewClientIntoArrays_keepsConnections _ _ _
    | exact (receiveClientType_quiet _).mono fun _ => Call.Quiet.keepsConnections
    | exact (mutexWrappers_quiet _).1.mono fun _ => Call.Quiet.keepsConnections
    | exact (mutexWrappers_quiet _).2.mono fun _ => Call.Quiet.keepsConnections
    | refine calls_bind ?_ fun _ => ?_
    | split

def AcceptChange (history : List ServerEvent) : Change → Prop
  | .admitted _ _ _ | .turnAway _ => True
  | .botch _ _ _ => UnlockFailsAfterInsert history
  | _ => False

theorem UnlockFailsAfterInsert.append {history : List ServerEvent}
    (fails : UnlockFailsAfterInsert history) (first later : List ServerEvent) :
    UnlockFailsAfterInsert (first ++ (history ++ later)) := by
  obtain ⟨before, after, c, i, fd, error, rfl⟩ := fails
  exact ⟨first ++ before, after ++ later, c, i, fd, error, by simp⟩

theorem wp_turnAway {fd : Int} : machine.wp t (do
      sendShutdownSignalToOneImpl fd none
      let _ ← close fd
      return true)
    (fun history _ s' => SameSlots s s' ∧ closedIn history = [fd] ∧ acceptedIn history = []) s := by
  refine wp_bind.mpr (wp_mono ?_ (wp_quiet (sendShutdownSignalToOneImpl_quiet _ _)))
  rintro sending _ s₁ ⟨same, closed, opened⟩
  rw [wp_bind, wp_close]
  refine fun answer => ⟨same.trans (.afterError s₁ t answer), ?_, ?_⟩
  · rw [closedIn_append, closed]
    rfl
  · rw [acceptedIn_append, opened]
    rfl

theorem changes_serverAcceptClient : machine.wp t serverAcceptClient
    (fun history _ s' => (changesAccount (AcceptChange history)).holds s history s') s := by
  unfold serverAcceptClient
  refine wp_bind.mpr fun answer s₁ accepted => ?_
  rw [wp_done]
  cases answer with
  | failed error =>
    cases accepted
    have warns : Program.Calls Call.Quiet (if error ≠ .eintr then do perror "accept"; pure false
        else pure false) := by
      split
      · exact calls_bind (calls_make True.intro) fun _ => True.intro
      · exact True.intro
    refine wp_mono ?_ (wp_quiet warns)
    rintro history _ s' ⟨same, closed, opened⟩
    have unchanged := (SameSlots.setErrno s t error).trans same
    exact ⟨[], unchanged.registry ▸ .nil _, by simp, closed, opened⟩
  | connected fd addr addrlen =>
    obtain ⟨⟨valid, new⟩, accepted⟩ := Option.ite_none_right_eq_some.mp accepted
    cases accepted
    refine wp_bind.mpr (wp_mono ?_ (wp_and wp_handleNewClient
      (wp_keepsConnections (handleNewClient_keepsConnections addr addrlen fd))))
    rintro handling admitted s₂ ⟨admission, noneClosed, noneOpened⟩
    cases admission with
    | registered c i registers =>
      refine ⟨[.admitted c i fd], .cons (.admitted valid new registers) (.nil _), by simp [AcceptChange], ?_, ?_⟩
      · simp only [List.append_nil]
        exact noneClosed
      · simp only [List.append_nil]
        exact congrArg (fd :: ·) noneOpened
    | refused same =>
      refine wp_mono ?_ wp_turnAway
      rintro later _ s₃ ⟨after, closed, opened⟩
      refine ⟨[.turnAway fd], ?_, by simp [AcceptChange], ?_, ?_⟩
      · rw [after.registry, same.registry]
        exact .cons (.turnAway valid new) (.nil _)
      · simp only [closedIn_append, closed, noneClosed]
        rfl
      · simp only [acceptedIn_append, opened, noneOpened]
        rfl
    | botched c i registers unlockFails =>
      refine wp_mono ?_ wp_turnAway
      rintro later _ s₃ ⟨after, closed, opened⟩
      refine ⟨[.botch c i fd], ?_, ?_, ?_, ?_⟩
      · rw [after.registry]
        exact .cons (.botch valid new registers) (.nil _)
      · simpa [AcceptChange] using unlockFails.append [⟨.accept, .connected fd addr addrlen⟩] later
      · simp only [closedIn_append, closed, noneClosed]
        rfl
      · simp only [acceptedIn_append, opened, noneOpened]
        rfl

end

inductive RegistryOperation where
  | acceptClient
  | pollWorkers (c : ClientType) (pinsQ : PinsQueue)
  | sendPinsToWorkers (c : ClientType) (pinsQ : PinsQueue)
  | pollManagers
  | executeCommand (cmd : ServerCommand)
  | sendCommandResult (res : ServerCommandResult) (managerIndex : Nat)
  | sendServerLog (message : String)
  | sendShutdownSignal (c : ClientType)

namespace RegistryOperation

def program : RegistryOperation → ServerProgram Unit
  | .acceptClient => do let _ ← serverAcceptClient
  | .pollWorkers c pinsQ => do let _ ← OsIhw3.pollWorkers c pinsQ
  | .sendPinsToWorkers c pinsQ => do let _ ← OsIhw3.sendPinsToWorkers c pinsQ
  | .pollManagers => do let _ ← nonblockingPollManagers
  | .executeCommand cmd => do let _ ← OsIhw3.executeCommand cmd
  | .sendCommandResult res managerIndex => do let _ ← sendCommandResultToManager res managerIndex
  | .sendServerLog message => OsIhw3.sendServerLog message
  | .sendShutdownSignal c => sendShutdownSignalToClients c

def Drops (c : ClientType) (change : Change) : Prop := ∃ i fd, change = .drop c i fd

def Forgets (cmd : ServerCommand) (s : ServerState) (change : Change) : Prop :=
  ∃ c i fd, change = .forget c i fd ∧ i < maxNumberOf c ∧ HasAddress s cmd c i

def MayMake (operation : RegistryOperation) (s : ServerState) (history : List ServerEvent) :
    Change → Prop :=
  match operation with
  | .acceptClient => AcceptChange history
  | .pollWorkers c _ | .sendPinsToWorkers c _ => Drops c
  | .pollManagers | .sendCommandResult _ _ => Drops .managerClient
  | .executeCommand cmd => Forgets cmd s
  | .sendServerLog _ => LogChange history
  | .sendShutdownSignal c => Resets c history

theorem wp_discard {α : Type} {p : ServerProgram α} {t : ThreadId} {s : ServerState}
    {post : List ServerEvent → ServerState → Prop}
    (holds : machine.wp t p (fun history _ s' => post history s') s) :
    machine.wp t (p >>= fun _ => pure ()) (fun history _ s' => post history s') s :=
  wp_bind.mpr (wp_mono (fun history _ _ after => by rwa [wp_pure, List.append_nil]) holds)

theorem changes (operation : RegistryOperation) (t : ThreadId) (s : ServerState) :
    machine.wp t operation.program (fun history _ s' =>
      (changesAccount (operation.MayMake s history)).holds s history s') s := by
  have makes : ∀ {α : Type} {p : ServerProgram α} {allowed : Change → Prop}, Makes t allowed p s →
      machine.wp t (p >>= fun _ => pure ()) (fun history _ s' =>
        (changesAccount allowed).holds s history s') s :=
    fun made => wp_discard (wp_mono (fun _ _ _ both => both.1) made)
  cases operation with
  | acceptClient => exact wp_discard changes_serverAcceptClient
  | pollWorkers c pinsQ =>
    have made : Makes t (Drops c) (OsIhw3.pollWorkers c pinsQ) s :=
      makes_pollWorkers fun i fd => ⟨i, fd, rfl⟩
    exact makes made
  | sendPinsToWorkers c pinsQ =>
    have made : Makes t (Drops c) (OsIhw3.sendPinsToWorkers c pinsQ) s :=
      makes_sendPinsToWorkers fun i fd => ⟨i, fd, rfl⟩
    exact makes made
  | pollManagers =>
    have made : Makes t (Drops .managerClient) nonblockingPollManagers s :=
      makes_nonblockingPollManagers fun i fd => ⟨i, fd, rfl⟩
    exact makes made
  | sendCommandResult res managerIndex =>
    have made : Makes t (Drops .managerClient) (sendCommandResultToManager res managerIndex) s :=
      makes_sendCommandResultToManager fun i fd => ⟨i, fd, rfl⟩
    exact makes made
  | executeCommand cmd =>
    have made : machine.Ensures t (changesAccount (Forgets cmd s)) (OsIhw3.executeCommand cmd) _ s :=
      ensures_executeCommand fun c i fd inside found => ⟨c, i, fd, rfl, inside, found⟩
    exact makes (ensures_mono (fun _ _ _ => True.intro) made)
  | sendServerLog message => exact changes_sendServerLog
  | sendShutdownSignal c => exact changes_sendShutdownSignalToClients

end RegistryOperation

end ArchCompSystems.OsIhw3
