import ArchCompSystems.OsIhw3.Environment
import ArchCompSystems.OsIhw3.Mutexes

namespace ArchCompSystems.OsIhw3

open Library Library.Program

/-- The type whose section a thread is in, after one more event: from a lock that succeeded to the
    call of the unlock. The managers' mutex is left out, since it is never locked. -/
def sectionAfter (inside : Option ClientType) (call : Call) (answer : call.Answer) :
    Option ClientType :=
  match call, answer with
  | .mutexLock c, answer => if answer.isSome then inside else some c
  | .mutexUnlock c, _ => if c = .managerClient then inside else none
  | _, _ => inside

def sectionMonitor : Monitor Call Call.Answer (Option ClientType) where
  allowed inside
    | .mutexLock c => c ≠ .managerClient ∧ inside = none
    | .mutexUnlock c => c = .managerClient ∨ inside = some c
    | .pthreadCancel thread => thread ≠ mainThread
    | _ => True
  possible _ _ _ := True
  after := sectionAfter

/-- The section that the last of these events leaves a thread in. -/
def sectionOf (history : List ServerEvent) : Option ClientType := sectionMonitor.run none history

def KeepsSections {α : Type} (p : ServerProgram α) : Prop :=
  sectionMonitor.Obeys (fun _ inside => inside = none) p none

def sectionFor (c : ClientType) : Option ClientType := if c = .managerClient then none else some c

section

variable {α β : Type} {c : ClientType} {inside : Option ClientType}

theorem leavesMutexes_steady {call : Call} (leaves : call.LeavesMutexes) :
    sectionMonitor.allowed inside call ∧
      ∀ answer, sectionMonitor.after inside call answer = inside := by
  cases call <;> first | exact leaves.elim | exact ⟨True.intro, fun _ => rfl⟩ | exact ⟨leaves, fun _ => rfl⟩

theorem obeys_of_ordinary {p : ServerProgram α} (ordinary : p.Calls Call.Ordinary) :
    sectionMonitor.Obeys (fun _ inside' => inside' = inside) p inside :=
  Monitor.obeys_of_calls (fun _ => leavesMutexes_steady)
    (ordinary.mono fun _ => Call.Ordinary.leavesMutexes)

theorem keepsSections_of_ordinary {p : ServerProgram α} (ordinary : p.Calls Call.Ordinary) :
    KeepsSections p := obeys_of_ordinary ordinary

theorem keepsSections_bind {p : ServerProgram α} {f : α → ServerProgram β} (first : KeepsSections p)
    (rest : ∀ value, KeepsSections (f value)) : KeepsSections (p >>= f) := by
  refine Monitor.obeys_bind.mpr (Monitor.obeys_mono ?_ first)
  rintro value _ rfl
  exact rest value

theorem keepsSections_forFrom {γ : Type} {body : Nat → β → ServerProgram (LoopFlow β γ)}
    (each : ∀ i carried, KeepsSections (body i carried)) (count start : Nat) (carried : β) :
    KeepsSections (forFrom body count start carried) := by
  have invariant := @Monitor.obeys_forFrom _ _ _ _ _ sectionMonitor none body
    (fun _ _ inside => inside = none) (fun _ inside => inside = none) count start carried
    (fun i carried inside outside => by
      subst outside
      exact Monitor.obeys_mono (fun flow _ outside => by cases flow <;> exact outside) (each i carried))
    rfl
  exact Monitor.obeys_mono (fun flow _ outside => by cases flow <;> exact outside) invariant

theorem serverLockMutexOf_obeys : sectionMonitor.Obeys
    (fun ok inside => inside = if ok then sectionFor c else none) (serverLockMutexOf c) none := by
  cases c <;>
    refine ⟨by simp [sectionMonitor], fun answer _ => ?_⟩ <;>
    rcases answer with _ | error <;>
    first
      | exact rfl
      | exact ⟨True.intro, fun _ _ => ⟨True.intro, fun _ _ => rfl⟩⟩

theorem serverUnlockMutexOf_obeys : sectionMonitor.Obeys (fun _ inside => inside = none)
    (serverUnlockMutexOf c) (sectionFor c) := by
  cases c <;>
    refine ⟨by simp [sectionMonitor, sectionFor], fun answer _ => ?_⟩ <;>
    rcases answer with _ | error <;>
    first
      | exact rfl
      | exact ⟨True.intro, fun _ _ => ⟨True.intro, fun _ _ => rfl⟩⟩

theorem Unlocking.obeys {p : ServerProgram α} (unlocks : Unlocking c p) :
    sectionMonitor.Obeys (fun _ inside => inside = none) p (sectionFor c) := by
  induction unlocks with
  | work working _ ih =>
    refine Monitor.obeys_bind.mpr (Monitor.obeys_mono ?_ (obeys_of_ordinary working))
    rintro result _ rfl
    exact ih result
  | unlock ending =>
    refine Monitor.obeys_bind.mpr (Monitor.obeys_mono ?_ serverUnlockMutexOf_obeys)
    rintro ok _ rfl
    exact keepsSections_of_ordinary (ending ok)

theorem Locking.keepsSections {p : ServerProgram α} (locks : Locking c p) : KeepsSections p := by
  obtain ⟨refused, entered⟩ := locks
  refine Monitor.obeys_bind.mpr (Monitor.obeys_mono ?_ serverLockMutexOf_obeys)
  rintro ok _ rfl
  cases ok with
  | false => exact keepsSections_of_ordinary refused
  | true => exact entered.obeys

theorem PollLocking.keepsSections {p : ServerProgram α} (locks : PollLocking c p) :
    KeepsSections p := by
  obtain ⟨next, rfl, cases⟩ := locks
  refine keepsSections_bind (keepsSections_of_ordinary (calls_make True.intro)) fun size => ?_
  rcases cases size with ⟨result, returned⟩ | locking
  · rw [returned]
    exact rfl
  · exact locking.keepsSections

end

theorem handleNewClient_keepsSections (clientAddr : SockaddrIn) (clientAddrlen : Nat)
    (clientSockFd : Int) : KeepsSections (handleNewClient clientAddr clientAddrlen clientSockFd) := by
  unfold handleNewClient handleClientOfType
  repeat' first
    | exact rfl
    | exact keepsSections_of_ordinary (calls_make True.intro)
    | exact keepsSections_of_ordinary (ordinary_of_inner (receiveClientType_inner _))
    | exact (registerClient_locking _ _ _).keepsSections
    | refine keepsSections_bind ?_ fun _ => ?_
    | split

theorem MutexOperation.keepsSections (operation : MutexOperation) :
    KeepsSections operation.program := by
  cases operation with
  | handleNewClient clientAddr clientAddrlen clientSockFd =>
    exact keepsSections_bind (handleNewClient_keepsSections _ _ _) fun _ => rfl
  | pollFirstStage pins1To2 =>
    exact keepsSections_bind (pollFirstStage_locking _).keepsSections fun _ => rfl
  | pollSecondStage pins1To2 pins2To3 =>
    exact keepsSections_bind (pollSecondStage_locking _ _).keepsSections fun _ => rfl
  | pollThirdStage pins2To3 =>
    exact keepsSections_bind (pollThirdStage_locking _).keepsSections fun _ => rfl
  | sendShutdownSignal c => exact (sendShutdownSignalToClients_locking c).keepsSections

theorem mutexOwner_afterError (s : ServerState) (t : ThreadId) (error : Option Errno) :
    (s.afterError t error).mutexOwner = s.mutexOwner := by
  cases error <;> rfl

theorem perform_mutexOwner {t : ThreadId} {call : Call} {answer : call.Answer} {s s' : ServerState}
    (leaves : call.isMutexCall = false) (performed : machine.perform t call answer s = some s') :
    s'.mutexOwner = s.mutexOwner := by
  cases call <;> simp only [Call.isMutexCall, Bool.true_eq_false] at leaves <;>
    simp only [machine, perform, Option.ite_none_right_eq_some, Option.some.injEq] at performed
  case accept =>
    cases answer with
    | failed error =>
      cases performed
      rfl
    | connected fd addr addrlen =>
      simp only [ServerState.afterAccept, Option.ite_none_right_eq_some] at performed
      obtain ⟨-, accepted⟩ := performed
      cases accepted
      rfl
  case pthreadCancel => split at performed <;> cases performed <;> rfl
  case recv | send =>
    obtain ⟨-, rfl⟩ := performed
    exact mutexOwner_afterError _ _ _
  case setsockopt | getsockoptError | shutdown | close | shutdownListening | closeListening |
      enqueueLog | dequeueLog | nanosleep =>
    subst performed
    exact mutexOwner_afterError _ _ _
  case abort | goesOn => exact answer.elim
  case loadFd | loadArrSize | loadInfo | loadErrno | loadRunning | loadDisposed | pthreadJoin =>
    obtain ⟨-, rfl⟩ := performed
    rfl
  all_goals
    subst performed
    rfl

theorem cut_mutexOwner {t : ThreadId} {call : Call} {s s' : ServerState}
    (taken : machine.cut t call s = some s') : s'.mutexOwner = s.mutexOwner := by
  obtain ⟨-, same⟩ := Option.ite_none_right_eq_some.mp taken
  cases same
  rfl

def OwnsSections (s : ServerState) (inside : ThreadId → Option ClientType) : Prop :=
  ∀ t c, inside t = some c → c ≠ .managerClient ∧ s.mutexOwner c = some t

@[simp] theorem setOwner_mutexOwner_self (s : ServerState) (c : ClientType)
    (owner : Option ThreadId) : (s.setOwner c owner).mutexOwner c = owner :=
  Function.update_self ..

theorem setOwner_mutexOwner_of_ne {s : ServerState} {c d : ClientType} (other : d ≠ c)
    (owner : Option ThreadId) : (s.setOwner c owner).mutexOwner d = s.mutexOwner d :=
  Function.update_of_ne other ..

section

variable {t : ThreadId} {s s' : ServerState} {c : ClientType} {inside : ThreadId → Option ClientType}

theorem perform_mutexLock {answer : Option Errno}
    (performed : machine.perform t (.mutexLock c) answer s = some s') :
    ((∃ error, answer = some error) ∧ s' = s) ∨
      (answer = none ∧ s.mutexOwner c = none ∧ s' = s.setOwner c (some t)) := by
  cases answer with
  | some error =>
    cases performed
    exact .inl ⟨⟨error, rfl⟩, rfl⟩
  | none =>
    simp only [machine, perform, Option.isSome_none, Bool.false_eq_true, if_false] at performed
    split at performed
    · rename_i free
      cases performed
      exact .inr ⟨rfl, free, rfl⟩
    · cases performed

theorem perform_mutexUnlock {answer : Option Errno}
    (performed : machine.perform t (.mutexUnlock c) answer s = some s') :
    ((∃ error, answer = some error) ∧ s' = s) ∨ (answer = none ∧ s' = s.setOwner c none) := by
  cases answer with
  | some error =>
    cases performed
    exact .inl ⟨⟨error, rfl⟩, rfl⟩
  | none =>
    cases performed
    exact .inr ⟨rfl, rfl⟩

theorem ownsSections_lock {answer : Option Errno} (owns : OwnsSections s inside)
    (worker : c ≠ .managerClient) (performed : machine.perform t (.mutexLock c) answer s = some s') :
    OwnsSections s' (Function.update inside t (sectionAfter (inside t) (.mutexLock c) answer)) := by
  intro u d inSection
  rcases perform_mutexLock performed with ⟨⟨error, rfl⟩, rfl⟩ | ⟨rfl, free, rfl⟩
  · simp only [sectionAfter, Option.isSome_some, if_true, Function.update_eq_self] at inSection
    exact owns u d inSection
  · simp only [sectionAfter, Option.isSome_none, Bool.false_eq_true, if_false] at inSection
    by_cases same : u = t
    · subst same
      rw [Function.update_self] at inSection
      cases inSection
      exact ⟨worker, setOwner_mutexOwner_self s c _⟩
    · rw [Function.update_of_ne same] at inSection
      obtain ⟨other, owned⟩ := owns u d inSection
      have different : d ≠ c := by
        rintro rfl
        rw [owned] at free
        cases free
      exact ⟨other, (setOwner_mutexOwner_of_ne different _).trans owned⟩

theorem ownsSections_unlock {answer : Option Errno} (owns : OwnsSections s inside)
    (allowed : c = .managerClient ∨ inside t = some c)
    (performed : machine.perform t (.mutexUnlock c) answer s = some s') :
    OwnsSections s' (Function.update inside t (sectionAfter (inside t) (.mutexUnlock c) answer)) := by
  intro u d inSection
  -- Whoever is still in a section is in that of another mutex.
  have remaining : inside u = some d ∧ d ≠ c := by
    by_cases manager : c = .managerClient
    · simp only [sectionAfter, if_pos manager, Function.update_eq_self] at inSection
      exact ⟨inSection, fun same => (owns u d inSection).1 (same.trans manager)⟩
    · simp only [sectionAfter, if_neg manager] at inSection
      by_cases same : u = t
      · subst same
        rw [Function.update_self] at inSection
        cases inSection
      · rw [Function.update_of_ne same] at inSection
        refine ⟨inSection, ?_⟩
        rintro rfl
        have mine := (owns t d (allowed.resolve_left manager)).2
        rw [(owns u d inSection).2] at mine
        exact same (Option.some.inj mine)
  obtain ⟨other, owned⟩ := owns u d remaining.1
  rcases perform_mutexUnlock performed with ⟨-, rfl⟩ | ⟨-, rfl⟩
  · exact ⟨other, owned⟩
  · exact ⟨other, (setOwner_mutexOwner_of_ne remaining.2 _).trans owned⟩

theorem sectionAfter_of_not_mutex {call : Call} {answer : call.Answer} {here : Option ClientType}
    (isMutex : call.isMutexCall = false) : sectionAfter here call answer = here := by
  cases call <;> first | rfl | cases isMutex

theorem ownsSections_call {call : Call} {answer : call.Answer} (owns : OwnsSections s inside)
    (allowed : sectionMonitor.allowed (inside t) call)
    (performed : machine.perform t call answer s = some s') :
    OwnsSections s' (Function.update inside t (sectionAfter (inside t) call answer)) := by
  cases isMutex : call.isMutexCall with
  | false =>
    rw [sectionAfter_of_not_mutex isMutex, Function.update_eq_self]
    intro u d inSection
    rw [perform_mutexOwner isMutex performed]
    exact owns u d inSection
  | true =>
    cases call with
    | mutexLock d => exact ownsSections_lock owns allowed.1 performed
    | mutexUnlock d => exact ownsSections_unlock owns allowed performed
    | _ => cases isMutex

end

def runOperations : List MutexOperation → ServerProgram Unit
  | [] => pure ()
  | operation :: rest => do
    operation.program
    runOperations rest

def operationsPool (s : ServerState) (operations : ThreadId → List MutexOperation) : ServerPool :=
  ⟨fun t => runOperations (operations t), s, fun _ => []⟩

theorem runOperations_keepsSections (operations : List MutexOperation) :
    KeepsSections (runOperations operations) := by
  induction operations with
  | nil => exact rfl
  | cons operation rest ih => exact keepsSections_bind operation.keepsSections fun _ => ih

abbrev sectionMonitors : ThreadId → Monitor Call Call.Answer (Option ClientType) :=
  fun _ => sectionMonitor

theorem operationsPool_disciplined {s : ServerState} {operations : ThreadId → List MutexOperation}
    {pool : ServerPool}
    (reach : Pool.Reach machine (fun _ _ => True) (operationsPool s operations) pool) :
    pool.Disciplined sectionMonitors (fun _ => none) (fun _ _ => True) OwnsSections := by
  refine Pool.Reach.disciplined ?_ ?_ ⟨fun _ => ?_, fun t => ?_, ?_⟩ reach
  · intro pool t call answer s' owns _ allowed performed
    exact ⟨True.intro, ownsSections_call owns allowed performed⟩
  · intro pool t call s' owns _ taken
    exact ⟨True.intro, fun u c inSection => (cut_mutexOwner taken).symm ▸ owns u c inSection⟩
  · exact True.intro
  · exact Monitor.obeys_mono (fun _ _ _ => True.intro) (runOperations_keepsSections (operations t))
  · intro t c inSection
    cases inSection

/-- The mutex calls of every operation are bracketed on every path exactly when it is not about
    managers. In every interleaving, at most one thread is in the section of a type, and its mutex
    is only unlocked by its owner, exactly when the type is not that of the managers. -/
theorem mutex_discipline (c : ClientType) :
    (∀ (operation : MutexOperation) (history : List ServerEvent),
      operation.program.Completes history () →
      (Bracketed (mutexCalls history) ↔ ¬ operation.ConcernsManagers history)) ∧
      ((∀ (s : ServerState) (operations : ThreadId → List MutexOperation) (pool : ServerPool),
        Pool.Reach machine (fun _ _ => True) (operationsPool s operations) pool →
        (∀ t u, sectionOf (pool.history t) = some c → sectionOf (pool.history u) = some c → t = u) ∧
        ∀ t next, pool.programs t = .call (.mutexUnlock c) next →
          pool.state.mutexOwner c = some t) ↔ c ≠ .managerClient) := by
  refine ⟨fun operation history completes => mutexCalls_bracketed_iff completes, ?_, ?_⟩
  · rintro holds rfl
    have owned := (holds initServer (fun _ => [.sendShutdownSignal .managerClient]) _ .start).2
      mainThread _ rfl
    cases owned
  · intro worker s operations pool reach
    have disciplined := operationsPool_disciplined reach
    refine ⟨fun t u first second => ?_, fun t next unlocking => ?_⟩
    · have owned := (disciplined.agrees t c first).2
      rw [(disciplined.agrees u c second).2] at owned
      exact (Option.some.inj owned).symm
    · have obeying := disciplined.obeys t
      rw [unlocking] at obeying
      exact (disciplined.agrees t c (obeying.1.resolve_left worker)).2

/-- The shutdown messages to managers, with no manager connected, unlock a mutex twice. -/
theorem mutex_discipline_broken_for_managers :
    ¬ ∀ (operation : MutexOperation) (history : List ServerEvent),
      operation.program.Completes history () → Bracketed (mutexCalls history) := by
  intro disciplined
  have executed : (Environment.calm.runs (sendShutdownSignalToClients .managerClient)
      initServer).isSome = true := by decide
  obtain ⟨⟨history, ⟨⟩, s'⟩, run⟩ := Option.isSome_iff_exists.mp executed
  have completes := (Environment.runs_of_eq_some run).completes
  have bracketed := disciplined (.sendShutdownSignal .managerClient) history completes
  exact (sendShutdownSignalToClients_locking _).sectioned completes |>.bracketed_iff.mp bracketed rfl

end ArchCompSystems.OsIhw3
