import ArchCompSystems.OsIhw3.Sections

namespace ArchCompSystems.OsIhw3

open Library Library.Program Library.Machine

theorem workersPoller_keepsSections (rounds : Nat) : KeepsSections (workersPoller rounds) := by
  unfold workersPoller workersPollerRounds workersPollerRound
  repeat' first
    | exact rfl
    | exact keepsSections_of_ordinary (calls_make True.intro)
    | exact keepsSections_of_ordinary goesOn_ordinary
    | exact keepsSections_of_ordinary (finishLoop_ordinary _)
    | exact keepsSections_of_ordinary sleepBetweenRounds_ordinary
    | exact (pollFirstStage_locking _).keepsSections
    | exact (pollSecondStage_locking _ _).keepsSections
    | exact (pollThirdStage_locking _).keepsSections
    | refine keepsSections_forFrom (fun _ _ => ?_) _ _ _
    | refine keepsSections_bind ?_ fun _ => ?_
    | split

theorem serverAcceptClient_keepsSections : KeepsSections serverAcceptClient := by
  unfold serverAcceptClient
  repeat' first
    | exact rfl
    | exact keepsSections_of_ordinary (calls_make True.intro)
    | exact keepsSections_of_ordinary (ordinary_of_inner (sendShutdownSignalToOneImpl_inner _ _))
    | exact handleNewClient_keepsSections _ _ _
    | refine keepsSections_bind ?_ fun _ => ?_
    | split

theorem sendShutdownSignalToAll_keepsSections : KeepsSections sendShutdownSignalToAll := by
  unfold sendShutdownSignalToAll
  refine keepsSections_bind (sendShutdownSignalToClients_locking _).keepsSections fun _ => ?_
  refine keepsSections_bind (sendShutdownSignalToClients_locking _).keepsSections fun _ => ?_
  refine keepsSections_bind (sendShutdownSignalToClients_locking _).keepsSections fun _ => ?_
  refine keepsSections_bind (sendShutdownSignalToClients_locking _).keepsSections fun _ => ?_
  refine keepsSections_bind (sendShutdownSignalToClients_locking _).keepsSections fun _ => ?_
  refine keepsSections_of_ordinary (calls_bind (calls_make True.intro) fun _ => ?_)
  split
  · exact calls_make True.intro
  · exact True.intro

theorem runServer_keepsSections (rounds : Nat) : KeepsSections (runServer rounds) := by
  unfold runServer startRuntimeLoop acceptRound
  repeat' first
    | exact rfl
    | exact keepsSections_of_ordinary (calls_make True.intro)
    | exact keepsSections_of_ordinary goesOn_ordinary
    | exact keepsSections_of_ordinary (finishLoop_ordinary _)
    | exact keepsSections_of_ordinary (ordinary_of_inner deinitServer_inner)
    | exact serverAcceptClient_keepsSections
    | exact sendShutdownSignalToAll_keepsSections
    | refine keepsSections_forFrom (fun _ _ => ?_) _ _ _
    | refine keepsSections_bind ?_ fun _ => ?_
    | split

def bystanderMonitor : Monitor Call Call.Answer (Option ClientType) where
  allowed _ call := call.LeavesMutexes
  possible _ _ _ := True
  after := sectionAfter

def serverMonitors (t : ThreadId) : Monitor Call Call.Answer (Option ClientType) :=
  if t = mainThread ∨ t = pollThread then sectionMonitor else bystanderMonitor

theorem bystander_obeys {p : ServerProgram Unit} (leaves : p.Calls Call.LeavesMutexes) :
    bystanderMonitor.Obeys (fun _ inside => inside = none) p none :=
  Monitor.obeys_of_calls (fun _ harmless => ⟨harmless, (leavesMutexes_steady harmless).2⟩) leaves

theorem serverPool_obeys (rounds : Nat) (t : ThreadId) :
    (serverMonitors t).Obeys (fun _ inside => inside = none) ((serverPool rounds).programs t) none := by
  match t with
  | 0 => exact runServer_keepsSections rounds
  | 1 => exact workersPoller_keepsSections rounds
  | 2 => exact bystander_obeys ((logsSender_ordinary rounds).mono fun _ => Call.Ordinary.leavesMutexes)
  | 3 => exact bystander_obeys (managersHandler_leavesMutexes rounds)
  | 4 => exact bystander_obeys ((signalHandler_ordinary 2).mono fun _ => Call.Ordinary.leavesMutexes)
  | t + 5 =>
    have other : serverMonitors (t + 5) = bystanderMonitor := by
      refine if_neg ?_
      rintro (same | same) <;> cases same
    rw [other]
    exact bystander_obeys True.intro

def UnlockSucceeds : ServerEvent → Prop
  | ⟨.mutexUnlock _, answer⟩ => answer = none
  | _ => True

/-- No unlock fails, and no thread takes its cancellation inside of a section. -/
def stopsOutsideSections (pool : ServerPool) : Action ThreadId Call Call.Answer → Prop
  | .call _ event => UnlockSucceeds event
  | .cut t _ => sectionOf (pool.history t) = none

/-- Every mutex that is locked at all belongs to whoever is in its section, and only the acceptor
    and the poller are ever in one. -/
structure SectionsHold (s : ServerState) (inside : ThreadId → Option ClientType) : Prop where
  owns : OwnsSections s inside
  entered : ∀ t c, s.mutexOwner c = some t → c ≠ .managerClient → inside t = some c
  bystanders : ∀ t, t ≠ mainThread → t ≠ pollThread → inside t = none

section

variable {t u : ThreadId} {s s' : ServerState} {c d : ClientType}
  {inside : ThreadId → Option ClientType}

theorem entered_lock {answer : Option Errno}
    (entered : ∀ t c, s.mutexOwner c = some t → c ≠ .managerClient → inside t = some c)
    (outside : inside t = none) (performed : machine.perform t (.mutexLock d) answer s = some s')
    (owned : s'.mutexOwner c = some u) (worker : c ≠ .managerClient) :
    Function.update inside t (sectionAfter (inside t) (.mutexLock d) answer) u = some c := by
  rcases perform_mutexLock performed with ⟨⟨error, rfl⟩, rfl⟩ | ⟨rfl, -, rfl⟩
  · simp only [sectionAfter, Option.isSome_some, if_true, Function.update_eq_self]
    exact entered u c owned worker
  · simp only [sectionAfter, Option.isSome_none, Bool.false_eq_true, if_false]
    by_cases locked : c = d
    · subst locked
      rw [setOwner_mutexOwner_self] at owned
      cases owned
      rw [Function.update_self]
    · rw [setOwner_mutexOwner_of_ne locked] at owned
      have inSection := entered u c owned worker
      have other : u ≠ t := by
        rintro rfl
        rw [outside] at inSection
        cases inSection
      rw [Function.update_of_ne other]
      exact inSection

theorem entered_unlock
    (entered : ∀ t c, s.mutexOwner c = some t → c ≠ .managerClient → inside t = some c)
    (allowed : d = .managerClient ∨ inside t = some d)
    (performed : machine.perform t (.mutexUnlock d) (none : Option Errno) s = some s')
    (owned : s'.mutexOwner c = some u) (worker : c ≠ .managerClient) :
    Function.update inside t (sectionAfter (inside t) (.mutexUnlock d) none) u = some c := by
  rcases perform_mutexUnlock performed with ⟨⟨error, failed⟩, -⟩ | ⟨-, rfl⟩
  · cases failed
  have different : c ≠ d := by
    rintro rfl
    rw [setOwner_mutexOwner_self] at owned
    cases owned
  rw [setOwner_mutexOwner_of_ne different] at owned
  have inSection := entered u c owned worker
  by_cases same : u = t
  · subst same
    rcases allowed with manager | mine
    · simp only [sectionAfter, if_pos manager, Function.update_eq_self]
      exact inSection
    · rw [inSection] at mine
      exact absurd (Option.some.inj mine) different
  · rw [Function.update_of_ne same]
    exact inSection

theorem sectionsHold_call {call : Call} {answer : call.Answer} (holds : SectionsHold s inside)
    (unlocks : UnlockSucceeds ⟨call, answer⟩)
    (allowed : (serverMonitors t).allowed (inside t) call)
    (performed : machine.perform t call answer s = some s') :
    SectionsHold s' (Function.update inside t (sectionAfter (inside t) call answer)) := by
  cases isMutex : call.isMutexCall with
  | false =>
    rw [sectionAfter_of_not_mutex isMutex, Function.update_eq_self]
    have sameOwners := perform_mutexOwner isMutex performed
    exact ⟨fun u d => sameOwners ▸ holds.owns u d, fun u d => sameOwners ▸ holds.entered u d,
      holds.bystanders⟩
  | true =>
    by_cases worker : t = mainThread ∨ t = pollThread
    · rw [serverMonitors, if_pos worker] at allowed
      refine ⟨ownsSections_call holds.owns allowed performed, fun u d owned locked => ?_,
        fun u notMain notPoll => ?_⟩
      · cases call with
        | mutexLock e => exact entered_lock holds.entered allowed.2 performed owned locked
        | mutexUnlock e =>
          cases unlocks
          exact entered_unlock holds.entered allowed performed owned locked
        | _ => cases isMutex
      · have other : u ≠ t := by
          rintro rfl
          exact worker.elim notMain notPoll
        rw [Function.update_of_ne other]
        exact holds.bystanders u notMain notPoll
    · rw [serverMonitors, if_neg worker] at allowed
      cases call <;> first | exact allowed.elim | cases isMutex

end

theorem serverMonitors_after (t : ThreadId) : (serverMonitors t).after = sectionAfter := by
  unfold serverMonitors
  split <;> rfl

theorem serverMonitors_run (t : ThreadId) (history : List ServerEvent) :
    (serverMonitors t).run none history = sectionOf history := by
  unfold sectionOf Monitor.run
  rw [serverMonitors_after]
  rfl

theorem serverPool_disciplined {rounds : Nat} {pool : ServerPool}
    (reach : Pool.Reach machine stopsOutsideSections (serverPool rounds) pool) :
    pool.Disciplined serverMonitors (fun _ => none) (fun _ inside => inside = none) SectionsHold := by
  refine Pool.Reach.disciplined ?_ ?_ ⟨fun _ => ?_, serverPool_obeys rounds, ?_⟩ reach
  · intro pool t call answer s' holds unlocks allowed performed
    rw [serverMonitors_after]
    refine ⟨?_, sectionsHold_call holds unlocks allowed performed⟩
    unfold serverMonitors
    split <;> exact True.intro
  · intro pool t call s' holds outside taken
    have sameOwners := cut_mutexOwner taken
    exact ⟨(serverMonitors_run _ _).trans outside, fun u d => sameOwners ▸ holds.owns u d,
      fun u d => sameOwners ▸ holds.entered u d, holds.bystanders⟩
  · exact True.intro
  · constructor
    · intro t c inSection
      cases inSection
    · intro t c owned
      cases owned
    · exact fun _ _ _ => rfl

theorem free_of_poller_ended {rounds : Nat} {pool : ServerPool} {c : ClientType}
    (reach : Pool.Reach machine stopsOutsideSections (serverPool rounds) pool)
    (ended : pool.programs pollThread = pure ()) (worker : c ≠ .managerClient) :
    pool.state.mutexOwner c = none ∨
      (pool.state.mutexOwner c = some mainThread ∧ sectionOf (pool.history mainThread) = some c) := by
  have disciplined := serverPool_disciplined reach
  cases owner : pool.state.mutexOwner c with
  | none => exact .inl rfl
  | some t =>
    have inSection := disciplined.agrees.entered t c owner worker
    by_cases main : t = mainThread
    · subst main
      exact .inr ⟨rfl, (serverMonitors_run _ _).symm.trans inSection⟩
    · by_cases poll : t = pollThread
      · subst poll
        have left := disciplined.obeys pollThread
        rw [ended] at left
        rw [show pool.monitored serverMonitors (fun _ => none) pollThread = none from left] at inSection
        cases inSection
      · rw [disciplined.agrees.bystanders t main poll] at inSection
        cases inSection

theorem lock_free_of_poller_ended {rounds : Nat} {pool : ServerPool} {c : ClientType}
    {next : Option Errno → ServerProgram Unit}
    (reach : Pool.Reach machine stopsOutsideSections (serverPool rounds) pool)
    (ended : pool.programs pollThread = pure ())
    (locking : pool.programs mainThread = .call (.mutexLock c) next) :
    pool.state.mutexOwner c = none := by
  have obeying := (serverPool_disciplined reach).obeys mainThread
  rw [locking] at obeying
  obtain ⟨worker, outside⟩ := obeying.1
  rcases free_of_poller_ended reach ended worker with free | ⟨-, inSection⟩
  · exact free
  · have inside := (serverMonitors_run mainThread (pool.history mainThread)).trans inSection
    rw [show (serverMonitors mainThread).run none (pool.history mainThread) = none from outside]
      at inside
    cases inside

def Warned (s : ServerState) (c : ClientType) (history : List ServerEvent) : Prop :=
  ∀ i < maxNumberOf c, (s.groups c).fds i ≠ -1 →
    ∃ answer, ⟨.send ((s.groups c).fds i) .shutdownMessage, answer⟩ ∈ history

section

variable {t : ThreadId} {s s' : ServerState} {c : ClientType} {history later : List ServerEvent}

theorem Warned.append_left (warned : Warned s c later) : Warned s c (history ++ later) :=
  fun i inside connected =>
    (warned i inside connected).imp fun _ member => List.mem_append_right history member

theorem Warned.append_right (warned : Warned s c history) : Warned s c (history ++ later) :=
  fun i inside connected =>
    (warned i inside connected).imp fun _ member => List.mem_append_left later member

theorem Warned.congr (same : ∀ c, (s'.groups c).fds = (s.groups c).fds) (warned : Warned s' c history) :
    Warned s c history := by
  unfold Warned at warned
  rwa [same c] at warned

theorem sendShutdownSignalToOneImpl_sends {sockFd : Int} {info : Option ClientMetaInfo}
    (completes : (sendShutdownSignalToOneImpl sockFd info).Completes history ()) :
    ∃ answer, ⟨.send sockFd .shutdownMessage, answer⟩ ∈ history := by
  obtain ⟨sending, answer, rest, rfl, sent, -⟩ := completes_bind.mp completes
  obtain rfl := completes_request.mp sent
  exact ⟨answer, List.mem_append_left _ (List.mem_singleton_self _)⟩

theorem wp_sendShutdownSignalToSlot {i : Nat} : machine.wp t (sendShutdownSignalToSlot c i)
    (fun history _ s' => SameSlots s s' ∧ ((s.groups c).fds i ≠ -1 →
      ∃ answer, ⟨.send ((s.groups c).fds i) .shutdownMessage, answer⟩ ∈ history)) s := by
  unfold sendShutdownSignalToSlot
  rw [wp_bind, wp_loadFd]
  dsimp only
  split
  · rename_i connected
    rw [wp_bind, wp_loadInfo, wp_bind]
    refine wp_mono ?_ (wp_and (wp_of_quiet (sendShutdownSignalToOneImpl_quiet _ _) s)
      (wp_iff_runs.mpr fun _ _ _ run => sendShutdownSignalToOneImpl_sends run.completes))
    rintro sending _ s' ⟨same, answer, sent⟩
    refine ⟨same, fun _ => ⟨answer, ?_⟩⟩
    simp [sent]
  · rename_i free
    exact ⟨.refl s, fun connected => absurd connected free⟩

theorem wp_sendShutdownSignalToAllInArrImpl : machine.wp t (sendShutdownSignalToAllInArrImpl c)
    (fun history _ s' => SameSlots s s' ∧ Warned s c history) s := by
  unfold sendShutdownSignalToAllInArrImpl
  rw [wp_bind]
  refine wp_mono ?_ (@wp_forFrom _ _ _ _ _ _ machine t (fun i _ => sendShutdownSignalToSlot c i)
    (fun i history _ s' => SameSlots s s' ∧ ∀ j < i, (s.groups c).fds j ≠ -1 →
      ∃ answer, ⟨.send ((s.groups c).fds j) .shutdownMessage, answer⟩ ∈ history)
    (fun _ never _ => never.elim) (maxNumberOf c) 0 () [] s ?_ ⟨.refl s, by simp⟩)
  · rintro history flow s' reached
    cases flow with
    | exit never => exact never.elim
    | next carried => simpa [Warned] using reached
  · rintro i history _ middle - - ⟨same, warned⟩
    refine wp_mono ?_ wp_sendShutdownSignalToSlot
    rintro later flow s' ⟨passed, sent⟩
    cases flow with
    | exit never => exact never.elim
    | next carried =>
      refine ⟨same.trans passed, fun j inside connected => ?_⟩
      by_cases last : j = i
      · subst last
        rw [same.fds c] at sent
        exact (sent connected).imp fun _ member => List.mem_append_right _ member
      · exact (warned j (by omega) connected).imp fun _ member => List.mem_append_left _ member

theorem wp_sendShutdownSignalToClients : machine.wp t (sendShutdownSignalToClients c)
    (fun history _ s' => (∀ d, (s'.groups d).fds = (s.groups d).fds) ∧
      ((∀ event ∈ history, MutexSucceeds event) → Warned s c history)) s := by
  unfold sendShutdownSignalToClients
  refine wp_bind.mpr (wp_mono ?_ wp_serverLockMutexOf)
  rintro locking ok locked ⟨sameLocked, lockOk⟩
  cases ok with
  | false =>
    refine ⟨sameLocked.fds, fun succeeds => ?_⟩
    rw [List.append_nil] at succeeds
    cases lockOk succeeds
  | true =>
    refine wp_bind.mpr (wp_mono ?_ wp_sendShutdownSignalToAllInArrImpl)
    rintro sending _ sent ⟨sameSent, warned⟩
    have warnedBefore : Warned s c sending := warned.congr sameLocked.fds
    rw [wp_bind, wp_storeArrSize]
    refine wp_bind.mpr (wp_mono ?_ (wp_of_quiet (mutexWrappers_quiet c).2 _))
    rintro unlocking _ s' sameUnlocked
    refine ⟨fun d => ?_, fun _ => (warnedBefore.append_right).append_left⟩
    rw [sameUnlocked.fds d, ServerState.setArrSize_fds, sameSent.fds d, sameLocked.fds d]

theorem wp_warn_bind {α : Type} {types : List ClientType} {rest : Unit → ServerProgram α}
    (others : ∀ s, machine.wp t (rest ()) (fun history _ _ =>
      (∀ event ∈ history, MutexSucceeds event) → ∀ d ∈ types, Warned s d history) s) :
    machine.wp t (sendShutdownSignalToClients c >>= rest) (fun history _ _ =>
      (∀ event ∈ history, MutexSucceeds event) → ∀ d ∈ c :: types, Warned s d history) s := by
  refine wp_bind.mpr (wp_mono ?_ wp_sendShutdownSignalToClients)
  rintro first _ middle ⟨same, warned⟩
  refine wp_mono (fun later _ s' warnedLater succeeds d member => ?_) (others middle)
  rcases List.mem_cons.mp member with rfl | member
  · exact (warned fun event recorded =>
      succeeds event (List.mem_append_left _ recorded)).append_right
  · exact ((warnedLater (fun event recorded =>
      succeeds event (List.mem_append_right _ recorded)) d member).congr same).append_left

theorem wp_sendShutdownSignalToAll : machine.wp t sendShutdownSignalToAll (fun history _ _ =>
    (∀ event ∈ history, MutexSucceeds event) → ∀ c, Warned s c history) s := by
  have chain : machine.wp t sendShutdownSignalToAll (fun history _ _ =>
      (∀ event ∈ history, MutexSucceeds event) → ∀ c ∈ [ClientType.firstStageWorkerClient,
        .secondStageWorkerClient, .thirdStageWorkerClient, .logsCollectorClient, .managerClient],
        Warned s c history) s := by
    unfold sendShutdownSignalToAll
    refine wp_warn_bind fun _ => wp_warn_bind fun _ => wp_warn_bind fun _ => ?_
    refine wp_warn_bind fun _ => wp_warn_bind fun _ => wp_iff_runs.mpr ?_
    exact fun _ _ _ _ _ _ never => absurd never List.not_mem_nil
  refine wp_mono (fun history _ s' warned succeeds c => warned succeeds c ?_) chain
  cases c <;> decide

end

/-- In every run in which no unlock fails and no thread is cancelled inside of a section, after the
    poller has ended: the mutexes of the workers are free but for what the main thread is working
    on itself, its locks do not block, and every connected client is sent the shutdown message,
    unless a mutex call of `send_shutdown_signal_to_all` fails. -/
theorem stopping_clean (rounds : Nat) (pool : ServerPool)
    (reach : Pool.Reach machine stopsOutsideSections (serverPool rounds) pool)
    (ended : pool.programs pollThread = pure ()) :
    (∀ c ≠ .managerClient, pool.state.mutexOwner c = none ∨
      (pool.state.mutexOwner c = some mainThread ∧
        sectionOf (pool.history mainThread) = some c)) ∧
    (∀ c next, pool.programs mainThread = .call (.mutexLock c) next →
      pool.state.mutexOwner c = none) ∧
    ∀ history s', machine.Runs mainThread sendShutdownSignalToAll pool.state history () s' →
      (∀ event ∈ history, MutexSucceeds event) → ∀ c, Warned pool.state c history :=
  ⟨fun _ worker => free_of_poller_ended reach ended worker,
    fun _ _ locking => lock_free_of_poller_ended reach ended locking,
    fun history s' run => wp_iff_runs.mp wp_sendShutdownSignalToAll history () s' run⟩

def stopsOutsideSectionsBool (pool : ServerPool) : Action ThreadId Call Call.Answer → Bool
  | .call _ ⟨.mutexUnlock _, answer⟩ => answer.isNone
  | .call _ _ => true
  | .cut t _ => (sectionOf (pool.history t)).isNone

theorem stopsOutsideSections_of_bool (pool : ServerPool) (action : Action ThreadId Call Call.Answer)
    (permitted : stopsOutsideSectionsBool pool action = true) : stopsOutsideSections pool action := by
  cases action with
  | cut t call => exact Option.isNone_iff_eq_none.mp permitted
  | call t event =>
    obtain ⟨call, answer⟩ := event
    cases call <;> first | exact True.intro | exact Option.isNone_iff_eq_none.mp permitted

/-- A worker is registered, the signal arrives and the poller ends by itself. -/
theorem stopping_clean_after_signal : ∃ pool,
    Pool.Reach machine stopsOutsideSections (serverPool 2) pool ∧
      pool.programs pollThread = pure () ∧
      ∀ c ≠ .managerClient, pool.state.mutexOwner c = none ∨
        (pool.state.mutexOwner c = some mainThread ∧
          sectionOf (pool.history mainThread) = some c) := by
  have replayed : ((serverPool 2).replay machine stopsOutsideSectionsBool
      [(Environment.connecting 5 7 .firstStageWorkerClient).turn mainThread registrationCalls,
        Environment.calm.turn signalThread 10, Environment.calm.turn pollThread 4]).any
      (fun pool => pool.ended pollThread) = true := by decide
  obtain ⟨pool, reach, isEnded⟩ := Pool.exists_reach_of_replay stopsOutsideSections_of_bool replayed
  have ended := Pool.programs_of_ended isEnded
  exact ⟨pool, reach, ended, (stopping_clean 2 pool reach ended).1⟩

/-- The poller is cancelled where it receives from a worker: it ends with the mutex locked. -/
theorem stopping_not_clean : ¬ ∀ (rounds : Nat) (pool : ServerPool),
    Pool.Reach machine (fun _ _ => True) (serverPool rounds) pool →
    pool.programs pollThread = pure () → ∀ c ≠ .managerClient,
      pool.state.mutexOwner c = none ∨ pool.state.mutexOwner c = some mainThread := by
  intro clean
  have replayed : ((serverPool 2).replay machine (fun _ _ => true)
      [(Environment.connecting 5 7 .firstStageWorkerClient).turn mainThread registrationCalls,
        Environment.calm.turn pollThread 6, Environment.calm.turn signalThread 10,
        .cancel pollThread]).any (fun pool => pool.ended pollThread &&
          pool.state.mutexOwner .firstStageWorkerClient == some pollThread) = true := by decide
  obtain ⟨pool, reach, holds⟩ := Pool.exists_reach_of_replay (fun _ _ _ => True.intro) replayed
  obtain ⟨isEnded, owned⟩ := (Bool.and_eq_true _ _).mp holds
  have owner : pool.state.mutexOwner .firstStageWorkerClient = some pollThread := eq_of_beq owned
  have free := clean 2 pool reach (Pool.programs_of_ended isEnded) .firstStageWorkerClient (by decide)
  rw [owner] at free
  rcases free with free | free <;> cases free

end ArchCompSystems.OsIhw3
