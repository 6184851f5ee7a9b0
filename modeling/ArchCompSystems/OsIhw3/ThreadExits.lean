import ArchCompSystems.OsIhw3.Stopping

namespace ArchCompSystems.OsIhw3

open Library Library.Program

def Call.Within (call : Call) : Prop := call.Steers = false

theorem Call.Inner.within {call : Call} (inner : call.Inner) : call.Within := inner.2

theorem within_of_inner {α : Type} {p : ServerProgram α} (inner : p.Calls Call.Inner) : p.Calls Call.Within :=
  inner.mono fun _ => Call.Inner.within

theorem mutexWrappers_within (c : ClientType) :
    (serverLockMutexOf c).Calls Call.Within ∧ (serverUnlockMutexOf c).Calls Call.Within :=
  mutexWrappers_calls (fun _ => rfl) (fun _ => rfl) (fun _ plain => plain.inner.within) c

theorem workersPollerRounds_within (rounds : Nat) : (workersPollerRounds rounds).Calls Call.Within := by
  unfold workersPollerRounds workersPollerRound nonblockingPollWorkersOnTheFirstStage
    nonblockingPollWorkersOnTheSecondStage nonblockingPollWorkersOnTheThirdStage
  repeat' first
    | exact calls_pure _ _
    | exact calls_make rfl
    | exact (mutexWrappers_within .firstStageWorkerClient).1
    | exact (mutexWrappers_within .secondStageWorkerClient).1
    | exact (mutexWrappers_within .thirdStageWorkerClient).1
    | exact (mutexWrappers_within .firstStageWorkerClient).2
    | exact (mutexWrappers_within .secondStageWorkerClient).2
    | exact (mutexWrappers_within .thirdStageWorkerClient).2
    | exact within_of_inner (pollWorkers_inner _ _)
    | exact within_of_inner (sendPinsToWorkers_inner _ _)
    | exact within_of_inner sleepBetweenRounds_inner
    | refine calls_forFrom (fun _ _ => ?_) _ _ _
    | refine calls_bind ?_ fun _ => ?_
    | split

theorem logsSenderRounds_within (rounds : Nat) :
    (forFrom (fun _ _ => logsSenderRound) rounds 0 ()).Calls Call.Within := by
  unfold logsSenderRound
  repeat' first
    | exact calls_pure _ _
    | exact calls_make rfl
    | exact within_of_inner (sendServerLog_inner _)
    | exact within_of_inner sleepBetweenRounds_inner
    | refine calls_forFrom (fun _ _ => ?_) _ _ _
    | refine calls_bind ?_ fun _ => ?_
    | split

theorem managersHandlerRounds_within (rounds : Nat) :
    (forFrom (fun _ _ => managersHandlerRound) rounds 0 ()).Calls Call.Within := by
  unfold managersHandlerRound
  repeat' first
    | exact calls_pure _ _
    | exact calls_make rfl
    | exact within_of_inner nonblockingPollManagers_inner
    | exact within_of_inner sleepBetweenRounds_inner
    | exact answerCommand_calls (fun _ => Call.Inner.within) (fun _ _ => rfl) _ _
    | refine calls_forFrom (fun _ _ => ?_) _ _ _
    | refine calls_bind ?_ fun _ => ?_
    | split

theorem acceptRounds_within (rounds : Nat) :
    (forFrom (fun _ _ => acceptRound) rounds 0 ()).Calls Call.Within := by
  unfold acceptRound serverAcceptClient handleNewClient handleClientOfType registerClient
  repeat' first
    | exact calls_pure _ _
    | exact calls_make rfl
    | exact (mutexWrappers_within _).1
    | exact (mutexWrappers_within _).2
    | exact within_of_inner (receiveClientType_inner _)
    | exact within_of_inner (insertNewClientIntoArrays_inner _ _ _)
    | exact within_of_inner (sendShutdownSignalToOneImpl_inner _ _)
    | refine calls_forFrom (fun _ _ => ?_) _ _ _
    | refine calls_bind ?_ fun _ => ?_
    | split

theorem sendShutdownSignalToAll_within : sendShutdownSignalToAll.Calls Call.Within := by
  unfold sendShutdownSignalToAll
  have each : ∀ c, (sendShutdownSignalToClients c).Calls Call.Within := by
    intro c
    unfold sendShutdownSignalToClients
    refine calls_bind (mutexWrappers_within c).1 fun ok => ?_
    split
    · exact calls_bind (within_of_inner (sendShutdownSignalToAllInArrImpl_inner c)) fun _ =>
        calls_bind (calls_make rfl) fun _ => calls_bind (mutexWrappers_within c).2 fun _ => True.intro
    · exact True.intro
  refine calls_bind (each _) fun _ => calls_bind (each _) fun _ => calls_bind (each _) fun _ =>
    calls_bind (each _) fun _ => calls_bind (each _) fun _ => calls_bind (calls_make rfl) fun _ => ?_
  split
  · exact calls_make rfl
  · exact True.intro

def Call.Confined : Call → Prop
  | .storeRunning _ running => running = false
  | .pthreadCancel thread => thread ≠ mainThread
  | _ => True

theorem Call.Within.confined {call : Call} (within : call.Within) : call.Confined := by
  cases call <;> first | exact True.intro | cases within

theorem stopAllThreads_confined : stopAllThreads.Calls Call.Confined := by
  unfold stopAllThreads cancelThread
  repeat' first
    | exact calls_pure _ _
    | exact calls_make True.intro
    | exact calls_make rfl
    | exact calls_make (appThreads_ne_mainThread ‹_›)
    | refine calls_forFrom (fun _ _ => ?_) _ _ _
    | refine calls_bind ?_ fun _ => ?_
    | split

theorem finishLoop_eq (loop : Loop) : finishLoop loop = (do
    let running ← loadRunning loop
    let still ← loadRunning loop
    if still then stopAllThreads
    return if running then 1 else 0) := by
  refine congrArg (loadRunning loop >>= ·) (funext fun running => ?_)
  refine congrArg (loadRunning loop >>= ·) (funext fun still => ?_)
  cases still <;> rfl

theorem finishLoop_confined (loop : Loop) : (finishLoop loop).Calls Call.Confined := by
  rw [finishLoop_eq]
  refine calls_bind (calls_make True.intro) fun _ => calls_bind (calls_make True.intro) fun still => ?_
  cases still with
  | false => exact True.intro
  | true => exact calls_bind stopAllThreads_confined fun _ => True.intro

/-- After its `threadExit` a thread does nothing. -/
def ExitsLast : ServerProgram Unit → Prop
  | .done _ => True
  | .call c next => (∀ status, c = .threadExit status → ∀ answer, next answer = .done ()) ∧
      ∀ answer, ExitsLast (next answer)

def Call.StaysAlive : Call → Prop
  | .threadExit _ => False
  | _ => True

theorem exitsLast_bind {α : Type} {p : ServerProgram α} {f : α → ServerProgram Unit}
    (alive : p.Calls Call.StaysAlive) (rest : ∀ value, ExitsLast (f value)) : ExitsLast (p >>= f) := by
  induction p with
  | done value => exact rest value
  | call c next ih =>
    refine ⟨?_, fun answer => ih answer (alive.2 answer)⟩
    rintro status rfl
    exact alive.1.elim

theorem exitsLast_of_alive {p : ServerProgram Unit} (alive : p.Calls Call.StaysAlive) : ExitsLast p := by
  induction p with
  | done value => exact True.intro
  | call c next ih =>
    refine ⟨?_, fun answer => ih answer (alive.2 answer)⟩
    rintro status rfl
    exact alive.1.elim

theorem exitsLast_threadExit (status : Int) : ExitsLast (threadExit status) :=
  ⟨fun _ _ _ => rfl, fun _ => True.intro⟩

theorem ExitsLast.ends {p q : ServerProgram Unit} {history : List ServerEvent} {status : Int}
    (last : ExitsLast p) (path : p.Path history q) (exits : ⟨.threadExit status, ()⟩ ∈ history) : q = .done () := by
  induction path with
  | here p => cases exits
  | @step c next answer history q rest ih =>
    rcases List.mem_cons.mp exits with same | later
    · cases same
      rw [last.1 status rfl ()] at rest
      cases rest
      rfl
    · exact ih (last.2 answer) later

theorem Call.Within.staysAlive {call : Call} (within : call.Within) : call.StaysAlive := by
  cases call <;> first | exact True.intro | cases within

theorem stopAllThreads_staysAlive : stopAllThreads.Calls Call.StaysAlive := by
  unfold stopAllThreads cancelThread
  repeat' first
    | exact calls_pure _ _
    | exact calls_make True.intro
    | refine calls_forFrom (fun _ _ => ?_) _ _ _
    | refine calls_bind ?_ fun _ => ?_
    | split

theorem finishLoop_staysAlive (loop : Loop) : (finishLoop loop).Calls Call.StaysAlive := by
  rw [finishLoop_eq]
  refine calls_bind (calls_make True.intro) fun _ => calls_bind (calls_make True.intro) fun still => ?_
  cases still with
  | false => exact True.intro
  | true => exact calls_bind stopAllThreads_staysAlive fun _ => True.intro

def afterLoop {β γ : Type} (loop : Loop) (last : Int → ServerProgram Unit) : LoopFlow β γ → ServerProgram Unit
  | .next _ => goesOn
  | .exit _ => finishLoop loop >>= last

/-- What the main thread does after `stop_all_threads`. -/
def joinAndExit (ret : Int) : ServerProgram Unit := do
  let ret1 ← joinThread logsThread
  print "Joined logging thread\n"
  let ret2 ← joinThread pollThread
  print "Joined polling thread\n"
  let ret3 ← joinThread managersThread
  print "Joined managers thread\n"
  print "> Started sending shutdown signals to all clients\n"
  sendShutdownSignalToAll
  print s!"> Sent shutdown signals to all clients\n> Started waiting for {maxSleepTime} seconds before closing the sockets\n"
  let _ ← nanosleep
  deinitServer
  print "> Deinitialized server resources\n"
  threadExit (((ret.lor ret1).lor ret2).lor ret3)

theorem runServer_eq (rounds : Nat) : runServer rounds =
    forFrom (fun _ _ => acceptRound) rounds 0 () >>= afterLoop .acceptor joinAndExit := by
  unfold runServer startRuntimeLoop
  rw [bind_assoc]
  refine congrArg (_ >>= ·) (funext fun flow => ?_)
  cases flow with
  | next _ => exact congrArg (Program.call Call.goesOn) (funext fun answer => nomatch answer)
  | exit _ => simp only [afterLoop, bind_assoc]; rfl

theorem workersPoller_eq (rounds : Nat) : workersPoller rounds =
    workersPollerRounds rounds >>= afterLoop .poller threadExit :=
  congrArg (_ >>= ·) (funext fun flow => by cases flow <;> rfl)

theorem logsSender_eq (rounds : Nat) : logsSender rounds =
    forFrom (fun _ _ => logsSenderRound) rounds 0 () >>= afterLoop .logger threadExit :=
  congrArg (_ >>= ·) (funext fun flow => by cases flow <;> rfl)

theorem managersHandler_eq (rounds : Nat) : managersHandler rounds =
    forFrom (fun _ _ => managersHandlerRound) rounds 0 () >>= afterLoop .managersHandler threadExit :=
  congrArg (_ >>= ·) (funext fun flow => by cases flow <;> rfl)

section

variable {β γ : Type} {p : ServerProgram (LoopFlow β γ)} {loop : Loop} {last : Int → ServerProgram Unit}

theorem afterLoop_confined (within : p.Calls Call.Within) (rest : ∀ ret, (last ret).Calls Call.Confined) :
    (p >>= afterLoop loop last).Calls Call.Confined := by
  refine calls_bind (within.mono fun _ => Call.Within.confined) fun flow => ?_
  cases flow with
  | next _ => exact ⟨True.intro, fun answer => nomatch answer⟩
  | exit _ => exact calls_bind (finishLoop_confined loop) rest

theorem afterLoop_exitsLast (within : p.Calls Call.Within) (rest : ∀ ret, ExitsLast (last ret)) :
    ExitsLast (p >>= afterLoop loop last) := by
  refine exitsLast_bind (within.mono fun _ => Call.Within.staysAlive) fun flow => ?_
  cases flow with
  | next _ => exact exitsLast_of_alive ⟨True.intro, fun answer => nomatch answer⟩
  | exit _ => exact exitsLast_bind (finishLoop_staysAlive loop) rest

end

theorem threadExit_confined (status : Int) : (threadExit status).Calls Call.Confined := calls_make True.intro

theorem joinAndExit_confined (ret : Int) : (joinAndExit ret).Calls Call.Confined := by
  unfold joinAndExit
  repeat' first
    | exact calls_make True.intro
    | exact sendShutdownSignalToAll_within.mono fun _ => Call.Within.confined
    | exact (within_of_inner deinitServer_inner).mono fun _ => Call.Within.confined
    | refine calls_bind ?_ fun _ => ?_

theorem joinAndExit_exitsLast (ret : Int) : ExitsLast (joinAndExit ret) := by
  unfold joinAndExit
  repeat' first
    | exact exitsLast_threadExit _
    | exact calls_make True.intro
    | exact sendShutdownSignalToAll_within.mono fun _ => Call.Within.staysAlive
    | exact (within_of_inner deinitServer_inner).mono fun _ => Call.Within.staysAlive
    | refine exitsLast_bind ?_ fun _ => ?_

theorem signalHandler_confined (sig : Nat) : (signalHandler sig).Calls Call.Confined :=
  calls_bind (calls_make True.intro) fun _ => stopAllThreads_confined

theorem serverPool_confined (rounds : Nat) (t : ThreadId) :
    ((serverPool rounds).programs t).Calls Call.Confined := by
  match t with
  | 0 =>
    show (runServer rounds).Calls Call.Confined
    rw [runServer_eq]
    exact afterLoop_confined (acceptRounds_within rounds) joinAndExit_confined
  | 1 =>
    show (workersPoller rounds).Calls Call.Confined
    rw [workersPoller_eq]
    exact afterLoop_confined (workersPollerRounds_within rounds) threadExit_confined
  | 2 =>
    show (logsSender rounds).Calls Call.Confined
    rw [logsSender_eq]
    exact afterLoop_confined (logsSenderRounds_within rounds) threadExit_confined
  | 3 =>
    show (managersHandler rounds).Calls Call.Confined
    rw [managersHandler_eq]
    exact afterLoop_confined (managersHandlerRounds_within rounds) threadExit_confined
  | 4 => exact signalHandler_confined 2
  | t + 5 => exact True.intro

theorem serverPool_exitsLast (rounds : Nat) (t : ThreadId) : ExitsLast ((serverPool rounds).programs t) := by
  match t with
  | 0 =>
    show ExitsLast (runServer rounds)
    rw [runServer_eq]
    exact afterLoop_exitsLast (acceptRounds_within rounds) joinAndExit_exitsLast
  | 1 =>
    show ExitsLast (workersPoller rounds)
    rw [workersPoller_eq]
    exact afterLoop_exitsLast (workersPollerRounds_within rounds) exitsLast_threadExit
  | 2 =>
    show ExitsLast (logsSender rounds)
    rw [logsSender_eq]
    exact afterLoop_exitsLast (logsSenderRounds_within rounds) exitsLast_threadExit
  | 3 =>
    show ExitsLast (managersHandler rounds)
    rw [managersHandler_eq]
    exact afterLoop_exitsLast (managersHandlerRounds_within rounds) exitsLast_threadExit
  | 4 => exact exitsLast_of_alive (calls_bind (calls_make True.intro) fun _ => stopAllThreads_staysAlive)
  | t + 5 => exact True.intro

section

variable {t : ThreadId} {call : Call} {answer : call.Answer} {s s' : ServerState}

structure SameSteering (s s' : ServerState) : Prop where
  exitStatus : s'.exitStatus = s.exitStatus
  cancelled : s'.cancelled = s.cancelled
  running : s'.running = s.running

theorem sameSteering_afterError (s : ServerState) (t : ThreadId) (error : Option Errno) :
    SameSteering s (s.afterError t error) := by
  cases error <;> exact ⟨rfl, rfl, rfl⟩

theorem perform_within (within : call.Within) (performed : machine.perform t call answer s = some s') :
    SameSteering s s' := by
  cases call with
  | storeRunning | loadDisposed | storeDisposed | pthreadCancel | pthreadJoin | threadExit | goesOn => cases within
  | abort => exact answer.elim
  | accept =>
    cases answer with
    | failed error =>
      cases performed
      exact ⟨rfl, rfl, rfl⟩
    | connected fd addr addrlen =>
      obtain ⟨-, accepted⟩ := Option.ite_none_right_eq_some.mp performed
      cases accepted
      exact ⟨rfl, rfl, rfl⟩
  | recv | send =>
    obtain ⟨-, same⟩ := Option.ite_none_right_eq_some.mp performed
    cases same
    exact sameSteering_afterError _ _ _
  | setsockopt | getsockoptError | shutdown | close | shutdownListening | closeListening | enqueueLog
  | dequeueLog | nanosleep =>
    cases performed
    exact sameSteering_afterError _ _ _
  | mutexLock c =>
    rcases perform_mutexLock performed with ⟨-, rfl⟩ | ⟨-, -, rfl⟩ <;> exact ⟨rfl, rfl, rfl⟩
  | mutexUnlock c =>
    rcases perform_mutexUnlock performed with ⟨-, rfl⟩ | ⟨-, rfl⟩ <;> exact ⟨rfl, rfl, rfl⟩
  | loadFd | loadArrSize | loadInfo | loadErrno | loadRunning =>
    obtain ⟨-, same⟩ := Option.ite_none_right_eq_some.mp performed
    cases same
    exact ⟨rfl, rfl, rfl⟩
  | _ =>
    cases performed
    exact ⟨rfl, rfl, rfl⟩

theorem perform_exitStatus (performed : machine.perform t call answer s = some s') :
    s'.exitStatus = s.exitStatus ∨
      ∃ status, call = .threadExit status ∧ s'.exitStatus = Function.update s.exitStatus t (some status) := by
  cases call with
  | threadExit status =>
    cases performed
    exact .inr ⟨status, rfl, rfl⟩
  | storeRunning | storeDisposed =>
    cases performed
    exact .inl rfl
  | loadDisposed | pthreadJoin =>
    obtain ⟨-, same⟩ := Option.ite_none_right_eq_some.mp performed
    cases same
    exact .inl rfl
  | pthreadCancel thread =>
    simp only [machine, perform] at performed
    split at performed <;> cases performed <;> exact .inl rfl
  | goesOn => exact answer.elim
  | _ =>
    refine .inl (perform_within ?_ performed).exitStatus
    exact rfl

theorem perform_cancelled (performed : machine.perform t call answer s = some s') (u : ThreadId) :
    s'.cancelled u = s.cancelled u ∨ call = .pthreadCancel u ∧ s'.cancelled u = true := by
  cases call with
  | threadExit | storeRunning | storeDisposed =>
    cases performed
    exact .inl rfl
  | loadDisposed | pthreadJoin =>
    obtain ⟨-, same⟩ := Option.ite_none_right_eq_some.mp performed
    cases same
    exact .inl rfl
  | pthreadCancel thread =>
    simp only [machine, perform] at performed
    split at performed <;> cases performed
    · exact .inl rfl
    · by_cases same : u = thread
      · subst same
        exact .inr ⟨rfl, Function.update_self ..⟩
      · exact .inl (Function.update_of_ne same ..)
  | goesOn => exact answer.elim
  | _ =>
    refine .inl (congrFun (perform_within ?_ performed).cancelled u)
    exact rfl

theorem perform_running (confined : call.Confined) (performed : machine.perform t call answer s = some s')
    {loop : Loop} (cleared : s.running loop = false) : s'.running loop = false := by
  cases call with
  | storeRunning other running =>
    cases performed
    cases confined
    by_cases same : loop = other
    · subst same
      exact Function.update_self ..
    · exact (Function.update_of_ne same ..).trans cleared
  | threadExit | storeDisposed =>
    cases performed
    exact cleared
  | loadDisposed | pthreadJoin =>
    obtain ⟨-, same⟩ := Option.ite_none_right_eq_some.mp performed
    cases same
    exact cleared
  | pthreadCancel thread =>
    simp only [machine, perform] at performed
    split at performed <;> cases performed <;> exact cleared
  | goesOn => exact answer.elim
  | _ =>
    refine (congrFun (perform_within ?_ performed).running loop).trans cleared
    exact rfl

end

/-- What the histories of the threads say about exit statuses and flags. -/
structure ExitsTold (pool : ServerPool) : Prop where
  confined : ∀ t, (pool.programs t).Calls Call.Confined
  last : ∀ t, ExitsLast (pool.programs t)
  ended : ∀ t, pool.state.exitStatus t ≠ none → pool.programs t = .done ()
  told : ∀ t status, pool.state.exitStatus t = some status →
    status = pthreadCanceled ∧ pool.state.cancelled t = true ∨ ⟨.threadExit status, ()⟩ ∈ pool.history t
  exited : ∀ t status, ⟨.threadExit status, ()⟩ ∈ pool.history t → pool.state.exitStatus t = some status
  joined : ∀ t u status, ⟨.pthreadJoin u, status⟩ ∈ pool.history t → pool.state.exitStatus u = some status
  uncancelled : pool.state.cancelled mainThread = false
  cleared : ∀ t loop, ⟨.loadRunning loop, false⟩ ∈ pool.history t → pool.state.running loop = false
  once : ∀ t before loop after, pool.history t = before ++ ⟨.loadRunning loop, true⟩ :: after →
    ⟨.loadRunning loop, false⟩ ∉ before

theorem serverPool_exitsTold (rounds : Nat) : ExitsTold (serverPool rounds) where
  confined := serverPool_confined rounds
  last := serverPool_exitsLast rounds
  ended _ ended := absurd rfl ended
  told _ _ told := nomatch told
  exited _ _ member := nomatch member
  joined _ _ _ member := nomatch member
  uncancelled := rfl
  cleared _ _ member := nomatch member
  once _ before _ _ split := by cases before <;> cases split

section

variable {pool : ServerPool} {t : ThreadId} {call : Call} {next : call.Answer → ServerProgram Unit}
  {answer : call.Answer} {s : ServerState}

theorem ExitsTold.running (told : ExitsTold pool) (current : pool.programs t = .call call next) :
    pool.state.exitStatus t = none := by
  by_contra ended
  rw [told.ended t ended] at current
  cases current

theorem ExitsTold.status_kept (told : ExitsTold pool) (current : pool.programs t = .call call next)
    (performed : machine.perform t call answer pool.state = some s) {u : ThreadId} {status : Int}
    (exited : pool.state.exitStatus u = some status) : s.exitStatus u = some status := by
  have other : u ≠ t := by
    rintro rfl
    rw [told.running current] at exited
    cases exited
  rcases perform_exitStatus performed with same | ⟨_, -, same⟩ <;> rw [same]
  · exact exited
  · rw [Function.update_of_ne other]
    exact exited

theorem mem_advance {u : ThreadId} {event event' : ServerEvent} {rest : ServerProgram Unit}
    (member : event' ∈ (pool.advance t event rest s).history u) : event' ∈ pool.history u ∨ u = t ∧ event' = event := by
  by_cases same : u = t
  · subst same
    simp only [Pool.advance, Function.update_self, List.mem_append, List.mem_singleton] at member
    exact member.imp id fun new => ⟨rfl, new⟩
  · simp only [Pool.advance, Function.update_of_ne same] at member
    exact .inl member

theorem history_advance_self {event : ServerEvent} {rest : ServerProgram Unit} :
    (pool.advance t event rest s).history t = pool.history t ++ [event] := Function.update_self ..

theorem mem_advance_of_mem {u : ThreadId} {event event' : ServerEvent} {rest : ServerProgram Unit}
    (member : event' ∈ pool.history u) : event' ∈ (pool.advance t event rest s).history u := by
  by_cases same : u = t
  · subst same
    rw [history_advance_self]
    exact List.mem_append_left _ member
  · simpa only [Pool.advance, Function.update_of_ne same] using member

theorem ExitsTold.ended_advance (told : ExitsTold pool) (current : pool.programs t = .call call next)
    (performed : machine.perform t call answer pool.state = some s) (u : ThreadId)
    (ended : s.exitStatus u ≠ none) :
    (pool.advance t ⟨call, answer⟩ (next answer) s).programs u = .done () := by
  have last := told.last t
  rw [current] at last
  by_cases same : u = t
  · subst same
    simp only [Pool.advance, Function.update_self]
    rcases perform_exitStatus performed with kept | ⟨status, rfl, -⟩
    · rw [kept, told.running current] at ended
      exact absurd rfl ended
    · exact last.1 status rfl answer
  · simp only [Pool.advance, Function.update_of_ne same]
    refine told.ended u ?_
    rcases perform_exitStatus performed with kept | ⟨status, -, kept⟩ <;> rw [kept] at ended
    · exact ended
    · rwa [Function.update_of_ne same] at ended

theorem ExitsTold.told_advance (told : ExitsTold pool)
    (performed : machine.perform t call answer pool.state = some s) {u : ThreadId} {status : Int}
    (exited : s.exitStatus u = some status) : status = pthreadCanceled ∧ s.cancelled u = true ∨
      ⟨.threadExit status, ()⟩ ∈ (pool.advance t ⟨call, answer⟩ (next answer) s).history u := by
  have before : pool.state.exitStatus u = some status → status = pthreadCanceled ∧ s.cancelled u = true ∨
      ⟨.threadExit status, ()⟩ ∈ (pool.advance t ⟨call, answer⟩ (next answer) s).history u := by
    intro exited
    rcases told.told u status exited with ⟨cut, cancelled⟩ | exits
    · refine .inl ⟨cut, ?_⟩
      rcases perform_cancelled performed u with kept | ⟨-, now⟩
      · exact kept.trans cancelled
      · exact now
    · exact .inr (mem_advance_of_mem exits)
  rcases perform_exitStatus performed with kept | ⟨status', rfl, kept⟩ <;> rw [kept] at exited
  · exact before exited
  · by_cases same : u = t
    · subst same
      rw [Function.update_self] at exited
      cases exited
      rw [history_advance_self]
      exact .inr (List.mem_append_right _ (List.mem_singleton_self _))
    · rw [Function.update_of_ne same] at exited
      exact before exited

theorem ExitsTold.once_advance (told : ExitsTold pool)
    (performed : machine.perform t call answer pool.state = some s) {u : ThreadId} {loop : Loop}
    {before after : List ServerEvent}
    (split : (pool.advance t ⟨call, answer⟩ (next answer) s).history u = before ++ ⟨.loadRunning loop, true⟩ :: after) :
    ⟨.loadRunning loop, false⟩ ∉ before := by
  by_cases same : u = t
  · subst same
    rw [history_advance_self] at split
    rcases List.eq_nil_or_concat after with rfl | ⟨after, final, rfl⟩
    · obtain ⟨rfl, loaded⟩ := List.append_inj' split rfl
      cases loaded
      intro cleared
      obtain ⟨stored, -⟩ := Option.ite_none_right_eq_some.mp performed
      rw [told.cleared u loop cleared] at stored
      cases stored
    · rw [List.concat_eq_append, ← List.cons_append, ← List.append_assoc] at split
      exact told.once u before loop after (List.append_inj' split rfl).1
  · simp only [Pool.advance, Function.update_of_ne same] at split
    exact told.once u before loop after split

theorem ExitsTold.advance (told : ExitsTold pool) (current : pool.programs t = .call call next)
    (performed : machine.perform t call answer pool.state = some s) :
    ExitsTold (pool.advance t ⟨call, answer⟩ (next answer) s) := by
  have confined := told.confined t
  have last := told.last t
  rw [current] at confined last
  refine ⟨fun u => ?_, fun u => ?_, told.ended_advance current performed,
    fun u status => told.told_advance performed, fun u status member => ?_, fun u v status member => ?_, ?_,
    fun u loop member => ?_, fun u before loop after => told.once_advance performed⟩
  · by_cases same : u = t
    · subst same
      simp only [Pool.advance, Function.update_self]
      exact confined.2 answer
    · simp only [Pool.advance, Function.update_of_ne same]
      exact told.confined u
  · by_cases same : u = t
    · subst same
      simp only [Pool.advance, Function.update_self]
      exact last.2 answer
    · simp only [Pool.advance, Function.update_of_ne same]
      exact told.last u
  · rcases mem_advance member with old | ⟨rfl, new⟩
    · exact told.status_kept current performed (told.exited u status old)
    · cases new
      cases performed
      exact Function.update_self ..
  · rcases mem_advance member with old | ⟨rfl, new⟩
    · exact told.status_kept current performed (told.joined u v status old)
    · cases new
      obtain ⟨exited, same⟩ := Option.ite_none_right_eq_some.mp performed
      cases same
      exact exited
  · rcases perform_cancelled performed mainThread with kept | ⟨rfl, -⟩
    · exact kept.trans told.uncancelled
    · exact absurd rfl confined.1
  · rcases mem_advance member with old | ⟨rfl, new⟩
    · exact perform_running confined.1 performed (told.cleared u loop old)
    · cases new
      obtain ⟨stored, same⟩ := Option.ite_none_right_eq_some.mp performed
      cases same
      exact stored.symm

theorem ExitsTold.finish (told : ExitsTold pool) (current : pool.programs t = .call call next)
    (taken : machine.cut t call pool.state = some s) : ExitsTold (pool.finish t s) := by
  obtain ⟨cancelled, same⟩ := Option.ite_none_right_eq_some.mp taken
  cases same
  have running := told.running current
  have kept : ∀ {u status}, pool.state.exitStatus u = some status →
      Function.update pool.state.exitStatus t (some pthreadCanceled) u = some status := by
    intro u status exited
    rw [Function.update_of_ne]
    · exact exited
    · rintro rfl
      rw [running] at exited
      cases exited
  refine ⟨fun u => ?_, fun u => ?_, fun u ended => ?_, fun u status exited => ?_,
    fun u status member => kept (told.exited u status member),
    fun u v status member => kept (told.joined u v status member), told.uncancelled, told.cleared, told.once⟩
  · rw [Pool.finish_programs]
    by_cases same : u = t
    · subst same
      rw [Function.update_self]
      exact True.intro
    · rw [Function.update_of_ne same]
      exact told.confined u
  · rw [Pool.finish_programs]
    by_cases same : u = t
    · subst same
      rw [Function.update_self]
      exact True.intro
    · rw [Function.update_of_ne same]
      exact told.last u
  · rw [Pool.finish_programs]
    by_cases same : u = t
    · subst same
      rw [Function.update_self]
    · rw [Function.update_of_ne same]
      refine told.ended u ?_
      have unchanged : Function.update pool.state.exitStatus t (some pthreadCanceled) u =
          pool.state.exitStatus u := Function.update_of_ne same ..
      exact fun nothing => ended (unchanged.trans nothing)
  · replace exited : Function.update pool.state.exitStatus t (some pthreadCanceled) u = some status := exited
    by_cases same : u = t
    · subst same
      rw [Function.update_self] at exited
      cases exited
      exact .inl ⟨rfl, cancelled.1⟩
    · rw [Function.update_of_ne same] at exited
      exact told.told u status exited

end

theorem exitsTold_of_reach {rounds : Nat} {pool : ServerPool}
    (reach : Pool.Reach machine (fun _ _ => True) (serverPool rounds) pool) : ExitsTold pool := by
  induction reach with
  | start => exact serverPool_exitsTold rounds
  | step _ _ taken ih =>
    cases taken with
    | call current performed => exact ih.advance current performed
    | cut current taken => exact ih.finish current taken

end ArchCompSystems.OsIhw3
