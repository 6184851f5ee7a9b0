import ArchCompSystems.OsIhw3.Environment
import ArchCompSystems.OsIhw3.ThreadExits

namespace ArchCompSystems.OsIhw3

open Library Library.Program

def exitSuccess : Int := 0
def exitFailure : Int := 1

/-- The history leaves the loop `p` and then finds its flag still set. -/
def ReportsFailure {β γ : Type} (p : ServerProgram (LoopFlow β γ)) (loop : Loop) (history : List ServerEvent) : Prop :=
  ∃ first result later, p.Completes first (.exit result) ∧
    history = first ++ ⟨.loadRunning loop, true⟩ :: later

def reportsFailure (rounds : Nat) (t : ThreadId) (history : List ServerEvent) : Prop :=
  match t with
  | 0 => ReportsFailure (forFrom (fun _ _ => acceptRound) rounds 0 ()) .acceptor history
  | 1 => ReportsFailure (workersPollerRounds rounds) .poller history
  | 2 => ReportsFailure (forFrom (fun _ _ => logsSenderRound) rounds 0 ()) .logger history
  | 3 => ReportsFailure (forFrom (fun _ _ => managersHandlerRound) rounds 0 ()) .managersHandler history
  | _ => False

/-- Any order of the steps of the server's threads. -/
abbrev ServerReach (start : ServerPool) : ServerPool → Prop := Pool.Reach machine (fun _ _ => True) start

/-- The signal handler has initiated the shutdown, before any thread reported a failure. -/
def SignalInitiated (rounds : Nat) (pool : ServerPool) : Prop :=
  ∃ before after, ServerReach (serverPool rounds) before ∧
    Pool.Step machine before (.call signalThread ⟨.storeDisposed true, ()⟩) after ∧
    (∀ t, ¬ reportsFailure rounds t (before.history t)) ∧ ServerReach after pool

def ThreadInitiated (pool : ServerPool) : Prop :=
  ∃ t, t ≠ signalThread ∧ ⟨.storeDisposed true, ()⟩ ∈ pool.history t

/-- The exit status tells why the server stopped. -/
structure TellsCause (rounds : Nat) (pool : ServerPool) (status : Int) : Prop where
  signal : SignalInitiated rounds pool → status = exitSuccess
  failure : ThreadInitiated pool → status ≠ exitSuccess

/-- No thread was cancelled, and none has reported a failure. -/
structure EndedByThemselves (rounds : Nat) (pool : ServerPool) : Prop where
  uncancelled : ∀ i t, appThreads i = some t → pool.state.exitStatus t ≠ some pthreadCanceled
  quiet : ∀ t, ¬ reportsFailure rounds t (pool.history t)

/-- A thread that makes this call as its `threadExit` ends with this status. -/
def Call.ExitsWith (ret : Int) (call : Call) : Prop := ∀ status, call = .threadExit status → status = ret

theorem Call.StaysAlive.exitsWith {ret : Int} {call : Call} (alive : call.StaysAlive) : call.ExitsWith ret := by
  rintro status rfl
  exact alive.elim

theorem threadExit_exitsWith (status : Int) : (threadExit status).Calls (Call.ExitsWith status) :=
  calls_make fun _ same => by cases same; rfl

section

variable {β γ : Type} {p : ServerProgram (LoopFlow β γ)} {loop : Loop} {last : Int → ServerProgram Unit}
  {history later : List ServerEvent} {q : ServerProgram Unit} {event : ServerEvent}

theorem not_reportsFailure {first : List ServerEvent} {result : γ} (completes : p.Completes first (.exit result)) :
    ¬ ReportsFailure p loop (first ++ ⟨.loadRunning loop, false⟩ :: later) := by
  rintro ⟨first', result', later', completes', same⟩
  obtain ⟨-, -, differs⟩ := completes.unique completes' same
  cases differs

theorem afterLoop_steers (within : p.Calls Call.Within) (path : (p >>= afterLoop loop last).Path history q)
    (steers : event.1.Steers = true) (member : event ∈ history) : ∃ first result running still rest,
      p.Completes first (.exit result) ∧
      history = first ++ ⟨.loadRunning loop, running⟩ :: ⟨.loadRunning loop, still⟩ :: rest ∧ event ∈ rest ∧
      ((if still then stopAllThreads else pure ()) >>= fun _ => last (if running then 1 else 0)).Path rest q := by
  have not_within : ∀ {first : List ServerEvent} {q' : ServerProgram (LoopFlow β γ)}, p.Path first q' →
      event ∉ first := by
    intro first q' path' inside
    have kept : event.1.Steers = false := Path.calls path' within event inside
    rw [kept] at steers
    cases steers
  rcases path.bind_cases with ⟨q', path', -⟩ | ⟨first, flow, later, rfl, completes, rest⟩
  · exact absurd member (not_within path')
  have after := (List.mem_append.mp member).resolve_left (not_within completes)
  cases flow with
  | next carried =>
    cases rest with
    | here => cases after
    | @step _ _ answer => exact nomatch answer
  | exit result =>
    rw [afterLoop, finishLoop_eq] at rest
    cases rest with
    | here => cases after
    | @step _ _ running later _ rest =>
      cases rest with
      | here =>
        obtain rfl := List.mem_singleton.mp after
        cases steers
      | @step _ _ still rest _ tail =>
        refine ⟨first, result, running, still, rest, completes, rfl, ?_, ?_⟩
        · rcases List.mem_cons.mp after with rfl | after
          · cases steers
          · rcases List.mem_cons.mp after with rfl | after
            · cases steers
            · exact after
        · cases still with
          | false => exact tail
          | true =>
            replace tail : ((stopAllThreads >>= fun _ => pure (if running then 1 else 0)) >>= last).Path rest q :=
              tail
            rw [bind_assoc] at tail
            exact tail

theorem reportsFailure_of_running {first rest : List ServerEvent} {result : γ} {running : Bool}
    (completes : p.Completes first (.exit result))
    (same : history = first ++ ⟨.loadRunning loop, running⟩ :: rest) :
    running = true ∧ ReportsFailure p loop history ∨ running = false ∧ ¬ ReportsFailure p loop history := by
  subst same
  cases running with
  | true => exact .inl ⟨rfl, first, result, rest, completes, rfl⟩
  | false => exact .inr ⟨rfl, not_reportsFailure completes⟩

theorem threadExit_tells {status : Int} (within : p.Calls Call.Within)
    (path : (p >>= afterLoop loop threadExit).Path history q) (exits : ⟨.threadExit status, ()⟩ ∈ history) :
    status = exitFailure ∧ ReportsFailure p loop history ∨
      status = exitSuccess ∧ ¬ ReportsFailure p loop history := by
  obtain ⟨first, result, running, still, rest, completes, same, after, tail⟩ :=
    afterLoop_steers within path rfl exits
  have told : status = if running then 1 else 0 := by
    have stops : (if still then stopAllThreads else pure ()).Calls Call.StaysAlive := by
      cases still with
      | false => exact True.intro
      | true => exact stopAllThreads_staysAlive
    exact Path.calls tail (calls_bind (stops.mono fun _ => Call.StaysAlive.exitsWith)
      fun _ => threadExit_exitsWith _) _ after status rfl
  rcases reportsFailure_of_running completes same with ⟨rfl, reports⟩ | ⟨rfl, quiet⟩
  · exact .inl ⟨told, reports⟩
  · exact .inr ⟨told, quiet⟩

theorem storeDisposed_tells (within : p.Calls Call.Within) (path : (p >>= afterLoop loop last).Path history q)
    (leaves : ∀ ret, (last ret).Calls (· ≠ .storeDisposed true))
    (once : ∀ before after, history = before ++ ⟨.loadRunning loop, true⟩ :: after →
      ⟨.loadRunning loop, false⟩ ∉ before)
    (initiates : ⟨.storeDisposed true, ()⟩ ∈ history) : ReportsFailure p loop history := by
  obtain ⟨first, result, running, still, rest, completes, same, after, tail⟩ :=
    afterLoop_steers within path rfl initiates
  have still_set : still = true := by
    cases still with
    | true => rfl
    | false => exact absurd rfl (Path.calls tail (leaves _) _ after)
  subst still_set
  rcases reportsFailure_of_running completes same with ⟨rfl, reports⟩ | ⟨rfl, -⟩
  · exact reports
  · refine absurd (List.mem_append_right first (List.mem_singleton_self _)) (once _ rest ?_)
    rw [same, List.append_assoc]
    rfl

end

def exitAfterJoins (ret : Int) : ServerProgram Unit := do
  print "Joined managers thread\n"
  print "> Started sending shutdown signals to all clients\n"
  sendShutdownSignalToAll
  print s!"> Sent shutdown signals to all clients\n> Started waiting for {maxSleepTime} seconds before closing the sockets\n"
  let _ ← nanosleep
  deinitServer
  print "> Deinitialized server resources\n"
  threadExit ret

theorem exitAfterJoins_exitsWith (ret : Int) : (exitAfterJoins ret).Calls (Call.ExitsWith ret) := by
  unfold exitAfterJoins
  repeat' first
    | exact threadExit_exitsWith _
    | exact calls_make nofun
    | exact sendShutdownSignalToAll_within.mono fun _ within => within.staysAlive.exitsWith
    | exact (within_of_inner deinitServer_inner).mono fun _ within => within.staysAlive.exitsWith
    | refine calls_bind ?_ fun _ => ?_

theorem joinAndExit_completes {ret : Int} {history : List ServerEvent} (completes : (joinAndExit ret).Completes history ()) :
    ∃ ret1 ret2 ret3, ⟨.pthreadJoin logsThread, ret1⟩ ∈ history ∧ ⟨.pthreadJoin pollThread, ret2⟩ ∈ history ∧
      ⟨.pthreadJoin managersThread, ret3⟩ ∈ history ∧ ∀ status, ⟨.threadExit status, ()⟩ ∈ history →
        status = ((ret.lor ret1).lor ret2).lor ret3 := by
  unfold joinAndExit at completes
  obtain ⟨ret1, _, rfl, joined1⟩ := completes_call.mp completes
  obtain ⟨_, _, rfl, printed1⟩ := completes_call.mp joined1
  obtain ⟨ret2, _, rfl, joined2⟩ := completes_call.mp printed1
  obtain ⟨_, _, rfl, printed2⟩ := completes_call.mp joined2
  obtain ⟨ret3, rest, rfl, joined3⟩ := completes_call.mp printed2
  replace joined3 : (exitAfterJoins (((ret.lor ret1).lor ret2).lor ret3)).Completes rest () := joined3
  refine ⟨ret1, ret2, ret3, by simp, by simp, by simp, fun status exits => ?_⟩
  simp only [List.mem_cons, Sigma.mk.injEq, reduceCtorEq, false_and, false_or] at exits
  exact Path.calls joined3 (exitAfterJoins_exitsWith _) _ exits status rfl

theorem joinAndExit_leavesDisposed (ret : Int) : (joinAndExit ret).Calls (· ≠ .storeDisposed true) := by
  have leaves : ∀ call : Call, call.Within → call ≠ .storeDisposed true := by
    rintro call within rfl
    cases within
  unfold joinAndExit
  repeat' first
    | exact calls_make nofun
    | exact sendShutdownSignalToAll_within.mono leaves
    | exact (within_of_inner deinitServer_inner).mono leaves
    | refine calls_bind ?_ fun _ => ?_

def ResultTells (cancelled reports : Prop) (status : Int) : Prop :=
  status = pthreadCanceled ∧ cancelled ∨ status = exitFailure ∧ reports ∨ status = exitSuccess ∧ ¬ reports

theorem ResultTells.success_iff {cancelled reports : Prop} {status : Int}
    (tells : ResultTells cancelled reports status) (only : cancelled → status = pthreadCanceled) :
    status = exitSuccess ↔ ¬ cancelled ∧ ¬ reports := by
  constructor
  · rintro rfl
    rcases tells with ⟨cut, -⟩ | ⟨failed, -⟩ | ⟨-, quiet⟩
    · exact absurd cut (by decide)
    · exact absurd failed (by decide)
    · exact ⟨fun cut => absurd (only cut) (by decide), quiet⟩
  · rintro ⟨uncut, quiet⟩
    rcases tells with ⟨-, cut⟩ | ⟨-, reports⟩ | ⟨success, -⟩
    · exact absurd cut uncut
    · exact absurd reports quiet
    · exact success

theorem lor_eq_zero_iff {a b : Int} (first : a = -1 ∨ a = 1 ∨ a = 0) (second : b = -1 ∨ b = 1 ∨ b = 0) :
    (a.lor b = 0 ↔ a = 0 ∧ b = 0) ∧ (a.lor b = -1 ∨ a.lor b = 1 ∨ a.lor b = 0) := by
  rcases first with rfl | rfl | rfl <;> rcases second with rfl | rfl | rfl <;> decide +kernel

section

variable {rounds : Nat} {pool : ServerPool} {t : ThreadId} {status : Int}

theorem path_of_reach (reach : ServerReach (serverPool rounds) pool) (t : ThreadId) :
    ∃ q, ((serverPool rounds).programs t).Path (pool.history t) q := by
  obtain ⟨q, path, -⟩ := reach.path (fun _ => rfl) t
  exact ⟨q, path⟩

theorem thread_tells (reach : ServerReach (serverPool rounds) pool) {i : Nat} (listed : appThreads i = some t)
    (exited : pool.state.exitStatus t = some status) : ResultTells
      (pool.state.exitStatus t = some pthreadCanceled) (reportsFailure rounds t (pool.history t)) status := by
  rcases (exitsTold_of_reach reach).told t status exited with ⟨rfl, -⟩ | exits
  · exact .inl ⟨rfl, exited⟩
  obtain ⟨q, path⟩ := path_of_reach reach t
  refine .inr ?_
  match i with
  | 0 =>
    cases listed
    replace path : (workersPoller rounds).Path (pool.history pollThread) q := path
    rw [workersPoller_eq] at path
    exact threadExit_tells (workersPollerRounds_within rounds) path exits
  | 1 =>
    cases listed
    replace path : (logsSender rounds).Path (pool.history logsThread) q := path
    rw [logsSender_eq] at path
    exact threadExit_tells (logsSenderRounds_within rounds) path exits
  | 2 =>
    cases listed
    replace path : (managersHandler rounds).Path (pool.history managersThread) q := path
    rw [managersHandler_eq] at path
    exact threadExit_tells (managersHandlerRounds_within rounds) path exits
  | i + 3 => cases listed

theorem main_tells (reach : ServerReach (serverPool rounds) pool)
    (exited : pool.state.exitStatus mainThread = some status) : ∃ ret ret1 ret2 ret3,
      (ret = exitFailure ∧ reportsFailure rounds mainThread (pool.history mainThread) ∨
        ret = exitSuccess ∧ ¬ reportsFailure rounds mainThread (pool.history mainThread)) ∧
      pool.state.exitStatus logsThread = some ret1 ∧ pool.state.exitStatus pollThread = some ret2 ∧
      pool.state.exitStatus managersThread = some ret3 ∧ status = ((ret.lor ret1).lor ret2).lor ret3 := by
  have told := exitsTold_of_reach reach
  have exits : ⟨.threadExit status, ()⟩ ∈ pool.history mainThread := by
    rcases told.told mainThread status exited with ⟨-, cancelled⟩ | exits
    · rw [told.uncancelled] at cancelled
      cases cancelled
    · exact exits
  obtain ⟨q, path⟩ := path_of_reach reach mainThread
  obtain rfl := (serverPool_exitsLast rounds mainThread).ends path exits
  replace path : (runServer rounds).Path (pool.history mainThread) (.done ()) := path
  rw [runServer_eq] at path
  obtain ⟨first, result, running, still, rest, completes, same, after, tail⟩ :=
    afterLoop_steers (acceptRounds_within rounds) path rfl exits
  obtain ⟨stops, _, joins, rfl, stopped, joined⟩ := completes_bind.mp tail
  obtain ⟨ret1, ret2, ret3, joined1, joined2, joined3, only⟩ := joinAndExit_completes joined
  have in_history : ∀ {event}, event ∈ joins → event ∈ pool.history mainThread := by
    intro event member
    rw [same]
    simp [member]
  refine ⟨if running then 1 else 0, ret1, ret2, ret3, ?_, told.joined _ _ _ (in_history joined1),
    told.joined _ _ _ (in_history joined2), told.joined _ _ _ (in_history joined3), ?_⟩
  · rcases reportsFailure_of_running completes same with ⟨rfl, reports⟩ | ⟨rfl, quiet⟩
    · exact .inl ⟨rfl, reports⟩
    · exact .inr ⟨rfl, quiet⟩
  · refine only status ((List.mem_append.mp after).resolve_left fun early => ?_)
    have alive : (if still then stopAllThreads else pure ()).Calls Call.StaysAlive := by
      cases still with
      | false => exact True.intro
      | true => exact stopAllThreads_staysAlive
    exact Path.calls stopped alive _ early

theorem success_iff (reach : ServerReach (serverPool rounds) pool)
    (exited : pool.state.exitStatus mainThread = some status) :
    status = exitSuccess ↔ EndedByThemselves rounds pool := by
  obtain ⟨ret, ret1, ret2, ret3, main, logs, poll, managers, rfl⟩ := main_tells reach exited
  have range : ∀ {t status} {i : Nat}, appThreads i = some t → pool.state.exitStatus t = some status →
      status = -1 ∨ status = 1 ∨ status = 0 := fun listed exited =>
    (thread_tells reach listed exited).imp And.left fun uncut => uncut.imp And.left And.left
  have success : ∀ {t status} {i : Nat}, appThreads i = some t → pool.state.exitStatus t = some status →
      (status = exitSuccess ↔ pool.state.exitStatus t ≠ some pthreadCanceled ∧
        ¬ reportsFailure rounds t (pool.history t)) := fun listed exited =>
    (thread_tells reach listed exited).success_iff fun cut => Option.some.inj (exited.symm.trans cut)
  have main_success : ret = exitSuccess ↔ ¬ reportsFailure rounds mainThread (pool.history mainThread) := by
    rcases main with ⟨rfl, reports⟩ | ⟨rfl, quiet⟩
    · exact ⟨fun failed => absurd failed (by decide), fun quiet => absurd reports quiet⟩
    · exact ⟨fun _ => quiet, fun _ => rfl⟩
  have main_range : ret = -1 ∨ ret = 1 ∨ ret = 0 := .inr (main.imp And.left And.left)
  have logs_listed : appThreads 1 = some logsThread := rfl
  have poll_listed : appThreads 0 = some pollThread := rfl
  have managers_listed : appThreads 2 = some managersThread := rfl
  obtain ⟨zero1, range1⟩ := lor_eq_zero_iff main_range (range logs_listed logs)
  obtain ⟨zero2, range2⟩ := lor_eq_zero_iff range1 (range poll_listed poll)
  obtain ⟨zero3, -⟩ := lor_eq_zero_iff range2 (range managers_listed managers)
  have all_zero : ((ret.lor ret1).lor ret2).lor ret3 = exitSuccess ↔
      ((ret = exitSuccess ∧ ret1 = exitSuccess) ∧ ret2 = exitSuccess) ∧ ret3 = exitSuccess :=
    zero3.trans (and_congr_left' (zero2.trans (and_congr_left' zero1)))
  rw [all_zero, main_success, success logs_listed logs, success poll_listed poll,
    success managers_listed managers]
  constructor
  · rintro ⟨⟨⟨mainQuiet, logsUncut, logsQuiet⟩, pollUncut, pollQuiet⟩, managersUncut, managersQuiet⟩
    refine ⟨fun i t listed => ?_, fun t => ?_⟩
    · match i with
      | 0 => cases listed; exact pollUncut
      | 1 => cases listed; exact logsUncut
      | 2 => cases listed; exact managersUncut
      | i + 3 => cases listed
    · match t with
      | 0 => exact mainQuiet
      | 1 => exact pollQuiet
      | 2 => exact logsQuiet
      | 3 => exact managersQuiet
      | t + 4 => exact id
  · rintro ⟨uncancelled, quiet⟩
    exact ⟨⟨⟨quiet _, uncancelled _ _ logs_listed, quiet _⟩, uncancelled _ _ poll_listed, quiet _⟩,
      uncancelled _ _ managers_listed, quiet _⟩

theorem reports_of_initiates (reach : ServerReach (serverPool rounds) pool) (thread : t ≠ signalThread)
    (initiates : ⟨.storeDisposed true, ()⟩ ∈ pool.history t) : reportsFailure rounds t (pool.history t) := by
  have once := fun loop before after => (exitsTold_of_reach reach).once t before loop after
  have exits : ∀ ret, (threadExit ret).Calls (· ≠ .storeDisposed true) := fun ret => calls_make nofun
  obtain ⟨q, path⟩ := path_of_reach reach t
  match t with
  | 0 =>
    replace path : (runServer rounds).Path (pool.history mainThread) q := path
    rw [runServer_eq] at path
    exact storeDisposed_tells (acceptRounds_within rounds) path joinAndExit_leavesDisposed (once _) initiates
  | 1 =>
    replace path : (workersPoller rounds).Path (pool.history pollThread) q := path
    rw [workersPoller_eq] at path
    exact storeDisposed_tells (workersPollerRounds_within rounds) path exits (once _) initiates
  | 2 =>
    replace path : (logsSender rounds).Path (pool.history logsThread) q := path
    rw [logsSender_eq] at path
    exact storeDisposed_tells (logsSenderRounds_within rounds) path exits (once _) initiates
  | 3 =>
    replace path : (managersHandler rounds).Path (pool.history managersThread) q := path
    rw [managersHandler_eq] at path
    exact storeDisposed_tells (managersHandlerRounds_within rounds) path exits (once _) initiates
  | 4 => exact absurd rfl thread
  | t + 5 =>
    replace path : (pure () : ServerProgram Unit).Path (pool.history (t + 5)) q := path
    generalize pool.history (t + 5) = history at path initiates
    cases path
    cases initiates

end

/-- The exit status of a server that has stopped tells the cause of the stop exactly if, after the
    signal handler has initiated it, no thread is cancelled and none reports a failure. -/
theorem tellsCause_iff {rounds : Nat} {pool : ServerPool} {status : Int}
    (reach : ServerReach (serverPool rounds) pool) (exited : pool.state.exitStatus mainThread = some status) :
    TellsCause rounds pool status ↔ (SignalInitiated rounds pool → EndedByThemselves rounds pool) := by
  constructor
  · intro tells initiated
    exact (success_iff reach exited).mp (tells.signal initiated)
  · intro themselves
    refine ⟨fun initiated => (success_iff reach exited).mpr (themselves initiated), ?_⟩
    rintro ⟨t, thread, initiates⟩ success
    exact ((success_iff reach exited).mp success).quiet t (reports_of_initiates reach thread initiates)

/-- The signal comes first, and every thread finds its flag cleared. -/
theorem uncancelled_server_tells_cause : ∃ pool, ServerReach (serverPool 1) pool ∧
    pool.state.exitStatus mainThread = some exitSuccess ∧ TellsCause 1 pool exitSuccess := by
  have replayed : ((serverPool 1).replay machine (fun _ _ => true) [Environment.calm.turn signalThread 10,
      Environment.calm.turn pollThread 4, Environment.calm.turn logsThread 4,
      Environment.calm.turn managersThread 4, Environment.calm.turn mainThread 67]).any
      (fun pool => pool.state.exitStatus mainThread == some exitSuccess) = true := by decide +kernel
  obtain ⟨pool, reach, exited⟩ := Pool.exists_reach_of_replay (fun _ _ _ => True.intro) replayed
  have succeeded := eq_of_beq exited
  exact ⟨pool, reach, succeeded, (tellsCause_iff reach succeeded).mpr fun _ =>
    (success_iff reach succeeded).mp rfl⟩

def storesDisposed : ServerEvent → Bool
  | ⟨.storeDisposed true, _⟩ => true
  | _ => false

theorem eq_of_storesDisposed {event : ServerEvent} (stores : storesDisposed event = true) :
    event = ⟨.storeDisposed true, ()⟩ := by
  unfold storesDisposed at stores
  split at stores
  · rfl
  · cases stores

theorem reportsFailure_nil (rounds : Nat) (t : ThreadId) : ¬ reportsFailure rounds t [] := by
  have nothing : ∀ {β γ : Type} {p : ServerProgram (LoopFlow β γ)} {loop : Loop}, ¬ ReportsFailure p loop [] := by
    rintro β γ p loop ⟨first, result, later, -, split⟩
    cases first <;> cases split
  match t with
  | 0 => exact nothing
  | 1 => exact nothing
  | 2 => exact nothing
  | 3 => exact nothing
  | t + 4 => exact id

theorem cancelled_server_fails : ∃ pool, ServerReach (serverPool 1) pool ∧ SignalInitiated 1 pool ∧
    pool.state.exitStatus mainThread = some pthreadCanceled := by
  let checks (before after : ServerPool) : Bool :=
    [mainThread, pollThread, logsThread, managersThread].all (fun t => (before.history t).isEmpty) &&
    (after.history signalThread).getLast?.any storesDisposed &&
    (after.replay machine (fun _ _ => true) [Environment.calm.turn logsThread 1,
      Environment.calm.turn signalThread 7, Environment.calm.turn pollThread 4, .cancel logsThread,
      Environment.calm.turn managersThread 4, Environment.calm.turn mainThread 67]).any
      fun pool => pool.state.exitStatus mainThread == some pthreadCanceled
  have replayed : ((serverPool 1).replay machine (fun _ _ => true) [Environment.calm.turn signalThread 2]).any
      (fun before => (before.go machine (fun _ _ => true) signalThread
        (Environment.calm.policy signalThread) 1).any (checks before)) = true := by decide +kernel
  obtain ⟨before, started, checked⟩ : ∃ before, ServerReach (serverPool 1) before ∧ _ :=
    Pool.exists_reach_of_replay (fun _ _ _ => True.intro) replayed
  obtain ⟨after, gone, checked⟩ := (Option.any_eq_true ..).mp checked
  simp only [checks, Bool.and_eq_true, List.all_cons, List.all_nil, List.isEmpty_iff, and_true] at checked
  obtain ⟨⟨⟨main, poll, logs, managers⟩, stores⟩, rest⟩ := checked
  obtain ⟨event, step, history⟩ := Pool.step_of_go gone
  rw [history, List.getLast?_concat] at stores
  obtain rfl := eq_of_storesDisposed stores
  obtain ⟨pool, stopped, exited⟩ : ∃ pool, ServerReach after pool ∧ _ :=
    Pool.exists_reach_of_replay (fun _ _ _ => True.intro) rest
  refine ⟨pool, (Pool.Reach.step started True.intro step).trans stopped,
    ⟨before, after, started, step, fun t => ?_, stopped⟩, eq_of_beq exited⟩
  match t with
  | 0 => exact main ▸ reportsFailure_nil 1 mainThread
  | 1 => exact poll ▸ reportsFailure_nil 1 pollThread
  | 2 => exact logs ▸ reportsFailure_nil 1 logsThread
  | 3 => exact managers ▸ reportsFailure_nil 1 managersThread
  | t + 4 => exact id

/-- A server that is stopped by a signal can fail. -/
theorem signalled_server_fails : ¬ ∀ (rounds : Nat) (pool : ServerPool) (status : Int),
    ServerReach (serverPool rounds) pool → pool.state.exitStatus mainThread = some status →
      TellsCause rounds pool status := by
  intro tells
  obtain ⟨pool, reach, initiated, exited⟩ := cancelled_server_fails
  exact absurd ((tells 1 pool _ reach exited).signal initiated) (by decide)

end ArchCompSystems.OsIhw3
