import ArchCompSystems.OsIhw3.Environment
import ArchCompSystems.OsIhw3.Pipeline

namespace ArchCompSystems.OsIhw3

open Library Library.Program Library.Machine

/-- Every socket is alive, every pin is sent whole, and the mutex calls succeed. -/
def Healthy (history : List ServerEvent) : Prop :=
  (∀ fd, ∀ answer : SocketErrorAnswer, ⟨.getsockoptError fd, answer⟩ ∈ history → answer = .pending none) ∧
    SendsWhole history ∧ ∀ event ∈ history, MutexSucceeds event

def SendsPin (history : List ServerEvent) : Prop :=
  ∃ fd pin, ⟨.send fd (.pin pin), SendAnswer.sent sizeofPin⟩ ∈ history

section

variable {history later : List ServerEvent}

theorem Healthy.of_subset (healthy : Healthy later) (sub : ∀ event ∈ history, event ∈ later) :
    Healthy history :=
  ⟨fun fd answer member => healthy.1 fd answer (sub _ member),
    fun fd pin answer member => healthy.2.1 fd pin answer (sub _ member),
    fun event member => healthy.2.2 event (sub _ member)⟩

theorem Healthy.left (healthy : Healthy (history ++ later)) : Healthy history :=
  healthy.of_subset fun _ member => List.mem_append_left _ member

theorem Healthy.right (healthy : Healthy (history ++ later)) : Healthy later :=
  healthy.of_subset fun _ member => List.mem_append_right _ member

theorem SendsPin.left (sends : SendsPin history) : SendsPin (history ++ later) := by
  obtain ⟨fd, pin, member⟩ := sends
  exact ⟨fd, pin, List.mem_append_left _ member⟩

theorem SendsPin.right (sends : SendsPin later) : SendsPin (history ++ later) := by
  obtain ⟨fd, pin, member⟩ := sends
  exact ⟨fd, pin, List.mem_append_right _ member⟩

end

section

variable {t : ThreadId} {s s' : ServerState} {c : ClientType} {i : Nat} {pinsQ : PinsQueue}

/-- Some worker of the type is registered, and its counter says so. -/
structure HasWorker (s : ServerState) (c : ClientType) : Prop where
  worker : ∃ i < maxNumberOf c, (s.groups c).fds i ≠ -1
  counted : (s.groups c).arrSize ≠ 0

theorem wp_isSocketAlive {sockFd : Int} : machine.wp t (isSocketAlive sockFd) (fun history alive s' =>
    SameSlots s s' ∧ (Healthy history → alive = true)) s := by
  refine wp_and (wp_of_quiet ((isSocketAlive_calls _).mono fun _ => Call.Plain.quiet) s) ?_
  refine wp_of_always (always_bind.mpr (always_make.mpr fun answer => ?_))
  refine always_iff.mpr fun rest alive completes healthy => ?_
  have answered := healthy.1 sockFd answer (List.mem_append_left _ (List.mem_singleton_self _))
  subst answered
  exact (completes_pure.mp completes).2.symm

theorem wp_sendPinToWorker (wf : pinsQ.WellFormed) (some : pinsQueueEmpty pinsQ = false)
    (counted : (s.groups c).arrSize ≠ 0) : machine.wp t (sendPinToWorker c i pinsQ)
      (fun history flow s' => ((s.groups c).fds i = -1 ∧ SameSlots s s' ∧ flow = .next pinsQ) ∨
        (Healthy history → SendsPin history)) s := by
  unfold sendPinToWorker
  rw [wp_bind, wp_loadArrSize]
  have goesOn : ¬ ((s.groups c).arrSize = 0 ∨ pinsQueueEmpty pinsQ = true) := by
    simp [counted, some]
  rw [if_neg goesOn, wp_bind, wp_loadFd]
  split
  · rename_i free
    exact .inl ⟨free, .refl s, rfl⟩
  refine wp_bind.mpr (wp_mono ?_ wp_isSocketAlive)
  rintro checking alive s₁ ⟨-, isAlive⟩
  cases alive with
  | false =>
    refine wp_iff_runs.mpr fun rest _ _ _ => .inr fun healthy => ?_
    have never := isAlive healthy.right.right.left
    cases never
  | true =>
    obtain ⟨empty, -⟩ | ⟨-, rest, front, popped, restWf, contents⟩ := pinsQueueTryPop_spec wf ⟨0⟩
    · rw [some] at empty
      cases empty
    rw [popped]
    refine wp_bind.mpr (wp_orAbort.mpr ?_)
    rintro _ ⟨⟩
    refine wp_bind.mpr (wp_assert.mpr fun _ => wp_bind.mpr fun answer s₂ sent => ?_)
    rw [wp_done]
    refine wp_iff_runs.mpr fun later _ _ _ => .inr fun healthy => ?_
    have member : (⟨.send ((s.groups c).fds i) (.pin front), answer⟩ : ServerEvent) ∈
        [⟨.send ((s.groups c).fds i) (.pin front), answer⟩] ++ later := List.mem_cons_self ..
    have whole := healthy.right.right.right.right.right.2.1 _ front answer member
    subst whole
    exact (SendsPin.right (SendsPin.right (SendsPin.right ⟨_, front, member⟩)))

theorem wp_sendPinsToWorkers (wf : pinsQ.WellFormed) (some : pinsQueueEmpty pinsQ = false)
    (hasWorker : HasWorker s c) : machine.wp t (sendPinsToWorkers c pinsQ)
      (fun history _ _ => Healthy history → SendsPin history) s := by
  unfold sendPinsToWorkers
  refine wp_bind.mpr (wp_mono ?_ (@wp_forFrom _ _ _ _ _ _ machine t (sendPinToWorker c)
    (fun i history carried s' => ((∀ j < i, (s.groups c).fds j = -1) ∧ SameSlots s s' ∧ carried = pinsQ) ∨
      (Healthy history → SendsPin history))
    (fun history _ _ => Healthy history → SendsPin history) (maxNumberOf c) 0 pinsQ [] s ?_
    (.inl ⟨fun j never => absurd never (Nat.not_lt_zero j), .refl s, rfl⟩)))
  · intro history flow s' after
    cases flow with
    | exit result =>
      rw [← List.append_nil history] at after
      exact after
    | next carried =>
      rcases after with ⟨free, -⟩ | sends
      · obtain ⟨i, inside, taken⟩ := hasWorker.worker
        exact absurd (free i (by omega)) taken
      · rw [← List.append_nil history] at sends
        exact sends
  · intro i history carried middle _ _ kept
    rcases kept with ⟨free, same, rfl⟩ | sends
    · have counted : (middle.groups c).arrSize ≠ 0 := (same.arrSize c).symm ▸ hasWorker.counted
      refine wp_mono ?_ (wp_sendPinToWorker wf some counted)
      rintro later flow s' (⟨freeToo, sameToo, rfl⟩ | sends)
      · refine .inl ⟨fun j below => ?_, same.trans sameToo, rfl⟩
        rcases Nat.lt_succ_iff_lt_or_eq.mp below with earlier | rfl
        · exact free j earlier
        · rwa [same.fds c] at freeToo
      · cases flow with
        | next carried' => exact .inr fun healthy => (sends healthy.right).right
        | exit result => exact fun healthy => (sends healthy.right).right
    · refine wp_iff_runs.mpr fun later flow _ _ => ?_
      cases flow with
      | next carried' => exact .inr fun healthy => (sends healthy.left).left
      | exit result => exact fun healthy => (sends healthy.left).left

variable {pins1To2 pins2To3 : PinsQueue}

theorem wp_lockAndSend {α : Type} {rest : Bool → ServerProgram α}
    {next : Bool × PinsQueue → ServerProgram α} (wf : pinsQ.WellFormed)
    (some : pinsQueueEmpty pinsQ = false) (hasWorker : HasWorker s c)
    (entered : rest true = sendPinsToWorkers c pinsQ >>= next) :
    machine.wp t (serverLockMutexOf c >>= rest)
      (fun history _ _ => Healthy history → SendsPin history) s := by
  refine wp_bind.mpr (wp_mono ?_ wp_serverLockMutexOf)
  rintro locking ok s₁ ⟨same, locked⟩
  cases ok with
  | false =>
    refine wp_iff_runs.mpr fun later _ _ _ healthy => ?_
    have never := locked healthy.left.2.2
    cases never
  | true =>
    have hasWorkerToo : HasWorker s₁ c :=
      ⟨by rw [same.fds]; exact hasWorker.worker, by rw [same.arrSize]; exact hasWorker.counted⟩
    rw [entered]
    refine wp_bind.mpr (wp_mono ?_ (wp_sendPinsToWorkers wf some hasWorkerToo))
    exact fun sending _ s₂ sends =>
      wp_iff_runs.mpr fun later _ _ _ healthy => (sends healthy.right.left).left.right

theorem wp_secondStage_sends (wf : pins1To2.WellFormed) (some : pinsQueueEmpty pins1To2 = false)
    (opened : ¬ (pinsQueueFull pins1To2 = true ∧ pinsQueueEmpty pins2To3 = true))
    (hasWorker : HasWorker s .secondStageWorkerClient) :
    machine.wp t (nonblockingPollWorkersOnTheSecondStage pins1To2 pins2To3)
      (fun history _ _ => Healthy history → SendsPin history) s := by
  unfold nonblockingPollWorkersOnTheSecondStage
  rw [wp_bind, wp_loadArrSize, if_neg (not_or.mpr ⟨hasWorker.counted, opened⟩)]
  refine wp_mono ?_ (wp_lockAndSend wf some hasWorker rfl)
  exact fun _ _ _ sends healthy => (sends healthy.right).right

theorem wp_thirdStage_sends (wf : pins2To3.WellFormed) (some : pinsQueueEmpty pins2To3 = false)
    (hasWorker : HasWorker s .thirdStageWorkerClient) :
    machine.wp t (nonblockingPollWorkersOnTheThirdStage pins2To3)
      (fun history _ _ => Healthy history → SendsPin history) s := by
  unfold nonblockingPollWorkersOnTheThirdStage
  have goesOn : ¬ ((s.groups .thirdStageWorkerClient).arrSize = 0 ∨ pinsQueueEmpty pins2To3 = true) := by
    simp [hasWorker.counted, some]
  rw [wp_bind, wp_loadArrSize, if_neg goesOn]
  refine wp_mono ?_ (wp_lockAndSend wf some hasWorker rfl)
  exact fun _ _ _ sends healthy => (sends healthy.right).right

/-- No value of `errno` is read that `handle_socket_op_error` does not know. -/
def NoUnknownError (history : List ServerEvent) : Prop :=
  ∀ error : Errno, ⟨.loadErrno, error⟩ ∈ history → error.handleResult ≠ .unknownSocketError

theorem noUnknownError_append {history later : List ServerEvent} :
    NoUnknownError (history ++ later) ↔ NoUnknownError history ∧ NoUnknownError later := by
  simp only [NoUnknownError, List.mem_append, or_imp, forall_and]

def GoesOn : LoopFlow PinsQueue (Bool × PinsQueue) → Prop
  | .next _ => True
  | .exit (res, _) => res = true

def EndsKnown (p : ServerProgram (LoopFlow PinsQueue (Bool × PinsQueue))) : Prop :=
  p.Always fun history flow => NoUnknownError history → GoesOn flow

theorem endsKnown_pure {flow : LoopFlow PinsQueue (Bool × PinsQueue)} (goesOn : GoesOn flow) :
    EndsKnown (pure flow) := fun _ => goesOn

theorem endsKnown_bind {α : Type} {p : ServerProgram α}
    {f : α → ServerProgram (LoopFlow PinsQueue (Bool × PinsQueue))} (rest : ∀ value, EndsKnown (f value)) :
    EndsKnown (p >>= f) :=
  always_bind.mpr (always_iff.mpr fun _ value _ =>
    always_mono (fun _ _ goesOn known => goesOn (noUnknownError_append.mp known).2) (rest value))

theorem handleFailedTransfer_endsKnown {cause : String} {workerFd : Int} :
    EndsKnown (handleFailedTransfer cause c i workerFd pinsQ) := by
  unfold handleFailedTransfer
  refine always_bind.mpr (always_iff.mpr fun handling result completes => ?_)
  obtain ⟨error, loaded, sorted⟩ := handleSocketOpError_result completes
  cases result with
  | emptyClientSocket => exact fun _ => True.intro
  | deadClientSocket =>
    have ends : EndsKnown (do
        dropWorker c i workerFd
        return .next pinsQ) := endsKnown_bind fun _ => endsKnown_pure True.intro
    exact always_mono (fun _ _ goesOn known => goesOn (noUnknownError_append.mp known).2) ends
  | unknownSocketError => exact fun known => absurd sorted ((noUnknownError_append.mp known).1 error loaded)

theorem pollWorker_endsKnown : EndsKnown (pollWorker c i pinsQ) := by
  unfold pollWorker storeReceivedPin
  repeat' first
    | exact endsKnown_pure True.intro
    | exact endsKnown_pure rfl
    | exact handleFailedTransfer_endsKnown
    | refine endsKnown_bind fun _ => ?_
    | split

theorem pollWorkers_succeeds : (pollWorkers c pinsQ).Always fun history result =>
    NoUnknownError history → result.1 = true := by
  unfold pollWorkers
  refine always_bind.mpr (always_mono (fun history flow after => ?_) (@always_forFrom _ _ _ _
    (pollWorker c) (fun _ _ => True) (fun history result => NoUnknownError history → result.1 = true)
    (maxNumberOf c) 0 pinsQ ?_ True.intro))
  · rw [← List.append_nil history] at after
    cases flow with
    | next carried => exact fun _ => rfl
    | exit result => exact after
  · intro i history carried _
    refine always_mono (fun later flow pass => ?_) pollWorker_endsKnown
    cases flow with
    | next carried => exact True.intro
    | exit result => exact fun known => pass (noUnknownError_append.mp known).2

theorem wp_unlockAndReturn {α : Type} {rest : Bool → ServerProgram α} {value : α}
    (unlocked : rest true = pure value) : machine.wp t (serverUnlockMutexOf c >>= rest)
      (fun history result _ => Healthy history → result = value) s := by
  refine wp_bind.mpr (wp_mono ?_ wp_serverUnlockMutexOf)
  rintro unlocking ok s₁ ⟨-, failed⟩
  cases ok with
  | false =>
    obtain ⟨error, after, rfl⟩ := failed rfl
    refine wp_iff_runs.mpr fun later _ _ _ healthy => ?_
    have never := healthy.left.2.2 _ (List.mem_cons_self ..)
    cases never
  | true =>
    rw [unlocked]
    exact fun _ => rfl

theorem wp_firstStage_succeeds : machine.wp t (nonblockingPollWorkersOnTheFirstStage pins1To2)
    (fun history result _ => Healthy history → NoUnknownError history → result.1 = true) s := by
  unfold nonblockingPollWorkersOnTheFirstStage
  rw [wp_bind, wp_loadArrSize]
  split
  · exact fun _ _ => rfl
  refine wp_bind.mpr (wp_mono ?_ (@wp_serverLockMutexOf .firstStageWorkerClient t s))
  rintro locking ok s₁ ⟨-, locked⟩
  cases ok with
  | false =>
    refine wp_iff_runs.mpr fun later _ _ _ healthy => ?_
    have never := locked healthy.right.left.2.2
    cases never
  | true =>
    refine wp_bind.mpr (wp_mono ?_ (wp_of_always pollWorkers_succeeds))
    rintro polling ⟨res, pins1To2'⟩ s₂ succeeds
    refine wp_mono ?_ (@wp_unlockAndReturn t s₂ .firstStageWorkerClient _ _ (res, pins1To2') rfl)
    rintro unlocking result s₃ returned healthy known
    rw [returned healthy.right.right.right]
    simp only [noUnknownError_append] at known
    exact succeeds known.2.2.1

theorem sendPinsToWorkers_of_empty (empty : pinsQueueEmpty pinsQ = true) :
    (sendPinsToWorkers c pinsQ).Always fun _ result => result = (true, pinsQ) := by
  unfold sendPinsToWorkers
  refine always_bind.mpr (always_mono (fun _ flow after => ?_) (@always_forFrom _ _ _ _
    (sendPinToWorker c) (fun _ pinsQ' => pinsQ' = pinsQ) (fun _ result => result = (true, pinsQ))
    (maxNumberOf c) 0 pinsQ ?_ rfl))
  · cases flow with
    | next carried => exact congrArg (true, ·) after
    | exit result => exact after
  · rintro i _ _ rfl
    refine always_bind.mpr (always_make.mpr fun size => ?_)
    rw [if_pos (.inr empty)]
    rfl

theorem wp_secondStage_succeeds (empty : pinsQueueEmpty pins1To2 = true) :
    machine.wp t (nonblockingPollWorkersOnTheSecondStage pins1To2 pins2To3)
      (fun history result _ => Healthy history → result.1 = true) s := by
  unfold nonblockingPollWorkersOnTheSecondStage
  rw [wp_bind, wp_loadArrSize]
  split
  · exact fun _ => rfl
  refine wp_bind.mpr (wp_mono ?_ (@wp_serverLockMutexOf .secondStageWorkerClient t s))
  rintro locking ok s₁ ⟨-, locked⟩
  cases ok with
  | false =>
    refine wp_iff_runs.mpr fun later _ _ _ healthy => ?_
    have never := locked healthy.right.left.2.2
    cases never
  | true =>
    refine wp_bind.mpr (wp_mono ?_ (wp_of_always (sendPinsToWorkers_of_empty empty)))
    rintro sending _ s₂ rfl
    refine wp_bind.mpr (wp_iff_runs.mpr fun polling result s₃ _ => ?_)
    refine wp_mono ?_ (@wp_unlockAndReturn t s₃ .secondStageWorkerClient _ _
      (true, pins1To2, result.2) rfl)
    rintro unlocking _ s₄ returned healthy
    rw [returned healthy.right.right.right.right]

theorem secondStage_wedged (full : pinsQueueFull pins1To2 = true) (empty : pinsQueueEmpty pins2To3 = true) :
    Moves (nonblockingPollWorkersOnTheSecondStage pins1To2 pins2To3)
      fun moved result => moved = [] ∧ result = (true, pins1To2, pins2To3) := by
  unfold nonblockingPollWorkersOnTheSecondStage
  refine moves_quiet_bind (calls_make True.intro) fun size => ?_
  rw [if_pos (.inr ⟨full, empty⟩)]
  exact moves_pure ⟨rfl, rfl⟩

theorem thirdStage_wedged (empty : pinsQueueEmpty pins2To3 = true) :
    Moves (nonblockingPollWorkersOnTheThirdStage pins2To3)
      fun moved result => moved = [] ∧ result = (true, pins2To3) := by
  unfold nonblockingPollWorkersOnTheThirdStage
  refine moves_quiet_bind (calls_make True.intro) fun size => ?_
  rw [if_pos (.inr empty)]
  exact moves_pure ⟨rfl, rfl⟩

theorem firstStage_wedged (full : pinsQueueFull pins1To2 = true) :
    Moves (nonblockingPollWorkersOnTheFirstStage pins1To2)
      fun moved result => moved = [] ∧ result = (true, pins1To2) := by
  unfold nonblockingPollWorkersOnTheFirstStage
  refine moves_quiet_bind (calls_make True.intro) fun size => ?_
  rw [if_pos (.inr full)]
  exact moves_pure ⟨rfl, rfl⟩

end

/-- The three polls of a round from a state and queues, with their histories: each follows one that
    succeeded. -/
inductive PollingRound (t : ThreadId) (s : ServerState) (pins : PinsQueue × PinsQueue) :
    List ServerEvent → List ServerEvent → List ServerEvent → Prop where
  | endsFirst {first : List ServerEvent} {pins1To2 : PinsQueue} {s₁ : ServerState}
      (polled : machine.Runs t (nonblockingPollWorkersOnTheFirstStage pins.1) s first
        (false, pins1To2) s₁) : PollingRound t s pins first [] []
  | endsSecond {first second : List ServerEvent} {pins1To2 : PinsQueue} {pins' : PinsQueue × PinsQueue}
      {s₁ s₂ : ServerState}
      (polled : machine.Runs t (nonblockingPollWorkersOnTheFirstStage pins.1) s first
        (true, pins1To2) s₁)
      (polledToo : machine.Runs t (nonblockingPollWorkersOnTheSecondStage pins1To2 pins.2) s₁ second
        (false, pins') s₂) : PollingRound t s pins first second []
  | endsThird {first second third : List ServerEvent} {pins1To2 : PinsQueue}
      {pins' : PinsQueue × PinsQueue} {result : Bool × PinsQueue} {s₁ s₂ s₃ : ServerState}
      (polled : machine.Runs t (nonblockingPollWorkersOnTheFirstStage pins.1) s first
        (true, pins1To2) s₁)
      (polledToo : machine.Runs t (nonblockingPollWorkersOnTheSecondStage pins1To2 pins.2) s₁ second
        (true, pins') s₂)
      (polledLast : machine.Runs t (nonblockingPollWorkersOnTheThirdStage pins'.2) s₂ third result s₃) :
      PollingRound t s pins first second third

/-- A queued pin is sent whole to a worker of the next stage. -/
def HandsPinOver (history : List ServerEvent) : Prop :=
  ∃ fd pin, .handed .secondStageWorkerClient fd pin true ∈ transfers none history ∨
    .handed .thirdStageWorkerClient fd pin true ∈ transfers none history

def Wedged (pins : PinsQueue × PinsQueue) (first : List ServerEvent) : Prop :=
  pins.1.contents.length + (receivedFrom .firstStageWorkerClient (transfers none first)).length =
    pinsQueueMaxSize ∧ pins.2.contents = []

section

variable {t : ThreadId} {s s' : ServerState} {c d : ClientType} {pins : PinsQueue × PinsQueue}
  {history first second third : List ServerEvent}

theorem Registry.Steps.fds_of_drops {r r' : Registry} {changes : List Change} (other : c ≠ d)
    (steps : r.Steps changes r') (drops : ∀ change ∈ changes, RegistryOperation.Drops d change) :
    r'.fds c = r.fds c ∧ r'.arrSize c = r.arrSize c := by
  refine @Registry.Steps.invariant (RegistryOperation.Drops d)
    (fun last => last.fds c = r.fds c ∧ last.arrSize c = r.arrSize c) r r' changes ?_ steps drops ⟨rfl, rfl⟩
  rintro before _ after ⟨i, fd, rfl⟩ ⟨fds, arrSize⟩ step
  cases step with
  | drop clears =>
    rw [clears.result, Registry.arrSize_setArrSize_of_ne other, ← fds, ← arrSize]
    exact ⟨Function.update_of_ne other _ _, rfl⟩

theorem HasWorker.of_drops {α : Type} {p : ServerProgram α} {value : α} (hasWorker : HasWorker s c)
    (other : c ≠ d) (makes : Makes t (RegistryOperation.Drops d) p s)
    (run : machine.Runs t p s history value s') : HasWorker s' c := by
  obtain ⟨⟨changes, changed⟩, -⟩ := Ensures.of_run makes run
  obtain ⟨fds, arrSize⟩ := changed.steps.fds_of_drops other changed.allowed
  obtain ⟨worker, counted⟩ := hasWorker
  exact ⟨by rwa [← show (s'.groups c).fds = (s.groups c).fds from fds] at worker,
    by rwa [← show (s'.groups c).arrSize = (s.groups c).arrSize from arrSize] at counted⟩

theorem PollerInvariant.hasWorker (invariant : PollerInvariant s pins)
    (worker : ∃ i < maxNumberOf c, (s.groups c).fds i ≠ -1) : HasWorker s c := by
  refine ⟨worker, ?_⟩
  obtain ⟨i, inside, taken⟩ := worker
  have least : s.registry.connected c ≤ (s.groups c).arrSize := (invariant.covered c).1
  have some := @Registry.connected_pos s.registry c i inside taken
  omega

theorem pinsQueueEmpty_iff {queue : PinsQueue} : pinsQueueEmpty queue = true ↔ queue.contents = [] := by
  rw [← List.length_eq_zero_iff, PinsQueue.length_contents]
  simp [pinsQueueEmpty]

theorem pinsQueueFull_iff {queue : PinsQueue} :
    pinsQueueFull queue = true ↔ queue.contents.length = pinsQueueMaxSize := by
  rw [PinsQueue.length_contents]
  simp [pinsQueueFull]

theorem SendsPin.handed {moved : List Transfer} (sends : SendsPin history) (all : Transfers history moved) :
    ∃ d fd pin, .handed d fd pin true ∈ moved := by
  obtain ⟨fd, pin, sent⟩ := sends
  obtain ⟨d, handed⟩ := handed_of_send sent .firstStageWorkerClient
  rw [all] at handed
  exact ⟨d, fd, pin, by simpa using handed⟩

theorem wedged_iff_of_firstStage {pins1To2 : PinsQueue} {res : Bool} {s₁ : ServerState}
    (wf : pins.1.WellFormed) (polled : machine.Runs t (nonblockingPollWorkersOnTheFirstStage pins.1) s
      first (res, pins1To2) s₁) : ∃ received, Transfers first received ∧ pins1To2.WellFormed ∧
      (∀ d fd pin whole, .handed d fd pin whole ∉ received) ∧
      (pins.1.contents ≠ [] → pins1To2.contents ≠ []) ∧
      (Wedged pins first ↔ pinsQueueFull pins1To2 = true ∧ pinsQueueEmpty pins.2 = true) := by
  obtain ⟨moved, all, received, rfl, wf', contents⟩ :=
    always_iff.mp (firstStage_polls wf) _ _ polled.completes
  refine ⟨_, all, wf', fun d fd pin whole member => ?_, fun some none => some ?_, ?_⟩
  · obtain ⟨_, -, never⟩ := List.mem_map.mp member
    cases never
  · rw [contents] at none
    exact (List.append_eq_nil_iff.mp none).1
  · rw [Wedged, all none, receivedFrom_received, if_pos rfl, pinsQueueFull_iff, pinsQueueEmpty_iff,
      contents, List.length_append, List.length_map]

theorem secondStage_hands {pins1To2 pins2To3 : PinsQueue} {result : Bool × PinsQueue × PinsQueue}
    (wf : pins1To2.WellFormed) (wf' : pins2To3.WellFormed) (some : pins1To2.contents ≠ [])
    (opened : ¬ (pinsQueueFull pins1To2 = true ∧ pinsQueueEmpty pins2To3 = true))
    (hasWorker : HasWorker s .secondStageWorkerClient) (healthy : Healthy second)
    (polled : machine.Runs t (nonblockingPollWorkersOnTheSecondStage pins1To2 pins2To3) s second
      result s') : ∃ moved, Transfers second moved ∧
        ∃ fd pin, .handed .secondStageWorkerClient fd pin true ∈ moved := by
  have notEmpty : pinsQueueEmpty pins1To2 = false :=
    Bool.eq_false_iff.mpr fun empty => some (pinsQueueEmpty_iff.mp empty)
  have sends := wp_iff_runs.mp (wp_secondStage_sends wf notEmpty opened hasWorker) _ _ _ polled healthy
  obtain ⟨_, all, handed, received, rfl, hands, polls⟩ :=
    always_iff.mp (secondStage_hands_polls wf wf') _ _ polled.completes
  obtain ⟨d, fd, pin, member⟩ := sends.handed all
  refine ⟨_, all, fd, pin, ?_⟩
  obtain ⟨pinsHanded, rfl, -⟩ := hands
  obtain ⟨pinsReceived, rfl, -⟩ := polls
  rcases List.mem_append.mp member with inHanded | inReceived
  · obtain ⟨_, -, same⟩ := List.mem_map.mp inHanded
    obtain rfl := (Transfer.handed.inj same).1
    exact member
  · obtain ⟨_, -, never⟩ := List.mem_map.mp inReceived
    cases never

theorem thirdStage_hands_pin {pins2To3 : PinsQueue} {result : Bool × PinsQueue}
    (wf : pins2To3.WellFormed) (some : pins2To3.contents ≠ [])
    (hasWorker : HasWorker s .thirdStageWorkerClient) (healthy : Healthy third)
    (polled : machine.Runs t (nonblockingPollWorkersOnTheThirdStage pins2To3) s third result s') :
    ∃ moved, Transfers third moved ∧ ∃ fd pin, .handed .thirdStageWorkerClient fd pin true ∈ moved := by
  have notEmpty : pinsQueueEmpty pins2To3 = false :=
    Bool.eq_false_iff.mpr fun empty => some (pinsQueueEmpty_iff.mp empty)
  have sends := wp_iff_runs.mp (wp_thirdStage_sends wf notEmpty hasWorker) _ _ _ polled healthy
  obtain ⟨_, all, hands⟩ := always_iff.mp (thirdStage_hands wf) _ _ polled.completes
  obtain ⟨d, fd, pin, member⟩ := sends.handed all
  refine ⟨_, all, fd, pin, ?_⟩
  obtain ⟨pinsHanded, rfl, -⟩ := hands
  obtain ⟨_, -, same⟩ := List.mem_map.mp member
  obtain rfl := (Transfer.handed.inj same).1
  exact member

/-- In every state of the poller with workers of the second and third stage and a queued pin, a round
    in which every socket is alive, every pin is sent whole, the mutex calls succeed and the first
    stage meets no unknown error hands a pin over exactly when it is not wedged. -/
theorem round_hands_pin_over (reach : PollerReach s pins)
    (workers : ∀ c, c = .secondStageWorkerClient ∨ c = .thirdStageWorkerClient →
      ∃ i < maxNumberOf c, (s.groups c).fds i ≠ -1)
    (queued : pins.1.contents ≠ [] ∨ pins.2.contents ≠ [])
    (round : PollingRound t s pins first second third) (healthy : Healthy (first ++ (second ++ third)))
    (known : NoUnknownError first) :
    HandsPinOver (first ++ (second ++ third)) ↔ ¬ Wedged pins first := by
  have invariant := pollerInvariant_of_reach reach
  have hasSecond := invariant.hasWorker (workers .secondStageWorkerClient (.inl rfl))
  have hasThird := invariant.hasWorker (workers .thirdStageWorkerClient (.inr rfl))
  cases round with
  | endsFirst polled =>
    have succeeds := wp_iff_runs.mp wp_firstStage_succeeds _ _ _ polled healthy.left known
    cases succeeds
  | @endsSecond _ pins1To2 pins' s₁ s₂ polled polledToo =>
    obtain ⟨received, all₁, wf, -, -, wedged⟩ := wedged_iff_of_firstStage invariant.wellFormed.1 polled
    rw [wedged]
    have opened : ¬ (pinsQueueFull pins1To2 = true ∧ pinsQueueEmpty pins.2 = true) := by
      rintro ⟨full, empty⟩
      obtain ⟨_, -, -, returned⟩ :=
        always_iff.mp (secondStage_wedged full empty) _ _ polledToo.completes
      cases returned
    have some : pins1To2.contents ≠ [] := by
      intro none
      have succeeds := wp_iff_runs.mp (wp_secondStage_succeeds (pinsQueueEmpty_iff.mpr none)) _ _ _
        polledToo healthy.right.left
      cases succeeds
    have hasSecond₁ := hasSecond.of_drops (by decide) makes_firstStage polled
    obtain ⟨moved, all₂, fd, pin, handed⟩ := secondStage_hands wf invariant.wellFormed.2 some opened
      hasSecond₁ healthy.right.left polledToo
    refine iff_of_true ⟨fd, pin, .inl ?_⟩ opened
    rw [all₁.append (all₂.append .nil) none]
    simp [handed]
  | @endsThird _ _ pins1To2 pins' result s₁ s₂ s₃ polled polledToo polledLast =>
    obtain ⟨received, all₁, wf, noneHanded, some, wedged⟩ :=
      wedged_iff_of_firstStage invariant.wellFormed.1 polled
    rw [wedged]
    have hasSecond₁ := hasSecond.of_drops (by decide) makes_firstStage polled
    have hasThird₂ := (hasThird.of_drops (by decide) makes_firstStage polled).of_drops (by decide)
      makes_secondStage polledToo
    obtain ⟨moved₂, all₂, handed₂, received₂, rfl, hands₂, polls₂⟩ :=
      always_iff.mp (secondStage_hands_polls wf invariant.wellFormed.2) _ _ polledToo.completes
    have wf₂ : pins'.2.WellFormed := polls₂.wellFormed
    obtain ⟨moved₃, all₃, hands₃⟩ := always_iff.mp (thirdStage_hands wf₂) _ _ polledLast.completes
    have all := all₁.append (all₂.append all₃)
    by_cases opened : ¬ (pinsQueueFull pins1To2 = true ∧ pinsQueueEmpty pins.2 = true)
    · refine iff_of_true ?_ opened
      by_cases none : pins1To2.contents = []
      · have queuedThird : pins'.2.contents ≠ [] := by
          obtain ⟨_, -, -, contents⟩ := polls₂
          rw [contents]
          exact List.append_ne_nil_of_left_ne_nil
            (queued.resolve_left fun queuedFirst => some queuedFirst none) _
        obtain ⟨moved, allToo, fd, pin, handed⟩ := thirdStage_hands_pin wf₂ queuedThird hasThird₂
          healthy.right.right polledLast
        refine ⟨fd, pin, .inr ?_⟩
        rw [all, ← all₃ Option.none, allToo]
        simp [handed]
      · obtain ⟨moved, allToo, fd, pin, handed⟩ := secondStage_hands wf invariant.wellFormed.2 none opened
          hasSecond₁ healthy.right.left polledToo
        refine ⟨fd, pin, .inl ?_⟩
        rw [all, ← all₂ Option.none, allToo]
        simp [handed]
    · -- Neither stage does anything: the second returns at once and leaves the third no pin.
      refine iff_of_false ?_ opened
      obtain ⟨full, empty⟩ := not_not.mp opened
      obtain ⟨_, none₂, rfl, returned⟩ :=
        always_iff.mp (secondStage_wedged full empty) _ _ polledToo.completes
      cases returned
      obtain ⟨_, none₃, rfl, -⟩ := always_iff.mp (thirdStage_wedged empty) _ _ polledLast.completes
      rintro ⟨fd, pin, handed⟩
      rw [(all₁.append (none₂.append none₃)) none, List.append_nil, List.append_nil] at handed
      exact handed.elim (noneHanded _ _ _ _) (noneHanded _ _ _ _)

/-- The polls that a round of `workers_poller` makes while the poller is not told to stop. -/
theorem pollingRound_of_run {flow : LoopFlow (PinsQueue × PinsQueue) (PinsQueue × PinsQueue)}
    (running : s.running .poller = true)
    (run : machine.Runs t (workersPollerRound pins) s history flow s') :
    ∃ first second third rest, history =
      ⟨.loadRunning .poller, true⟩ :: (first ++ (second ++ (third ++ rest))) ∧
        PollingRound t s pins first second third := by
  unfold workersPollerRound at run
  obtain ⟨loading, isRunning, s₀, rest₀, rfl, loaded, run₀⟩ := runs_bind run
  have load : machine.wp t (loadRunning .poller) (fun history value s' =>
      history = [⟨.loadRunning .poller, true⟩] ∧ value = true ∧ s' = s) s := by
    intro answer s' performed
    obtain ⟨answered, same⟩ := Option.ite_none_right_eq_some.mp performed
    rw [running] at answered
    subst answered
    exact ⟨rfl, rfl, (Option.some.inj same).symm⟩
  obtain ⟨rfl, rfl, rfl⟩ := wp_iff_runs.mp load _ _ _ loaded
  obtain ⟨first, ⟨polled, pins1To2⟩, s₁, rest₁, rfl, firstRun, run₁⟩ := runs_bind run₀
  cases polled with
  | false => exact ⟨first, [], [], rest₁, rfl, .endsFirst firstRun⟩
  | true =>
    obtain ⟨second, ⟨polled, pins'⟩, s₂, rest₂, rfl, secondRun, run₂⟩ := runs_bind run₁
    cases polled with
    | false => exact ⟨first, second, [], rest₂, rfl, .endsSecond firstRun secondRun⟩
    | true =>
      obtain ⟨third, result, s₃, rest₃, rfl, thirdRun, -⟩ := runs_bind run₂
      exact ⟨first, second, third, rest₃, rfl, .endsThird firstRun secondRun thirdRun⟩

theorem wedged_for_ever (rounds : Nat) (full : pinsQueueFull pins.1 = true)
    (empty : pinsQueueEmpty pins.2 = true) :
    Moves (forFrom (fun _ pins => workersPollerRound pins) rounds 0 pins)
      fun moved flow => moved = [] ∧ roundPins flow = pins := by
  have round : Moves (workersPollerRound pins) fun moved flow => moved = [] ∧ roundPins flow = pins := by
    unfold workersPollerRound
    refine moves_quiet_bind (calls_make True.intro) fun running => ?_
    cases running with
    | false => exact moves_pure ⟨rfl, rfl⟩
    | true =>
      refine moves_bind (firstStage_wedged full) ?_
      rintro _ _ ⟨rfl, rfl⟩
      refine moves_bind (secondStage_wedged full empty) ?_
      rintro _ _ ⟨rfl, rfl⟩
      refine moves_bind (thirdStage_wedged empty) ?_
      rintro _ _ ⟨rfl, rfl⟩
      refine moves_quiet_bind sleepBetweenRounds_movesNothing fun goesOn => ?_
      cases goesOn <;> exact moves_pure ⟨rfl, rfl⟩
  refine moves_mono ?_ (@moves_forFrom _ _ (fun _ => workersPollerRound)
    (fun moved pins' => moved = [] ∧ pins' = pins) (fun moved pins' => moved = [] ∧ pins' = pins)
    rounds pins ?_ ⟨rfl, rfl⟩)
  · rintro moved (pins' | pins') after <;> exact after
  · rintro i _ _ ⟨rfl, rfl⟩
    refine moves_mono ?_ round
    rintro others (pins' | pins') ⟨rfl, same⟩ <;> exact ⟨rfl, same⟩

end

instance (operation : PollerOperation) : Decidable operation.WhilePolling := by
  unfold PollerOperation.WhilePolling
  split <;> infer_instance

def replayPoller : List (Environment × PollerOperation) → ServerState × PinsQueue × PinsQueue →
    Option (ServerState × PinsQueue × PinsQueue)
  | [], reached => some reached
  | (env, operation) :: rest, (s, pins) =>
    match env.runs (operation.program pins) s with
    | none => none
    | some (_, pins', s') => if operation.WhilePolling then replayPoller rest (s', pins') else none

theorem pollerReach_of_replay {operations : List (Environment × PollerOperation)}
    {before reached : ServerState × PinsQueue × PinsQueue} (reach : PollerReach before.1 before.2)
    (replayed : replayPoller operations before = some reached) : PollerReach reached.1 reached.2 := by
  induction operations generalizing before with
  | nil =>
    cases replayed
    exact reach
  | cons first rest ih =>
    obtain ⟨env, operation⟩ := first
    simp only [replayPoller] at replayed
    split at replayed
    · cases replayed
    · rename_i history pins' s' executed
      split at replayed
      · rename_i whilePolling
        exact ih (.step reach whilePolling (Environment.runs_of_eq_some executed)) replayed
      · cases replayed

def Environment.round (env : Environment) (s : ServerState) (pins : PinsQueue × PinsQueue) :
    Option (List ServerEvent × List ServerEvent × List ServerEvent) :=
  match env.runs (nonblockingPollWorkersOnTheFirstStage pins.1) s with
  | some (first, (true, pins1To2), s₁) =>
    match env.runs (nonblockingPollWorkersOnTheSecondStage pins1To2 pins.2) s₁ with
    | some (second, (true, pins'), s₂) =>
      (env.runs (nonblockingPollWorkersOnTheThirdStage pins'.2) s₂).map fun (third, _) =>
        (first, second, third)
    | _ => none
  | _ => none

theorem pollingRound_of_round {env : Environment} {s : ServerState} {pins : PinsQueue × PinsQueue}
    {first second third : List ServerEvent} (executed : env.round s pins = some (first, second, third)) :
    PollingRound mainThread s pins first second third := by
  unfold Environment.round at executed
  split at executed
  · rename_i firstRun
    split at executed
    · rename_i secondRun
      obtain ⟨⟨_, result, s₃⟩, thirdRun, same⟩ := Option.map_eq_some_iff.mp executed
      cases same
      exact .endsThird (Environment.runs_of_eq_some firstRun) (Environment.runs_of_eq_some secondRun)
        (Environment.runs_of_eq_some thirdRun)
    · cases executed
  · cases executed

def isHealthy (history : List ServerEvent) : Bool :=
  history.all fun
    | ⟨.getsockoptError _, answer⟩ => answer == SocketErrorAnswer.pending none
    | ⟨.send _ (.pin _), answer⟩ => answer == SendAnswer.sent sizeofPin
    | ⟨.mutexLock _, answer⟩ => answer.isNone
    | ⟨.mutexUnlock _, answer⟩ => answer.isNone
    | _ => true

theorem healthy_of_isHealthy {history : List ServerEvent} (checked : isHealthy history = true) :
    Healthy history := by
  have each := List.all_eq_true.mp checked
  refine ⟨fun fd answer member => eq_of_beq (each _ member),
    fun fd pin answer member => eq_of_beq (each _ member), fun event member => ?_⟩
  obtain ⟨call, answer⟩ := event
  cases call <;> first | exact True.intro | exact Option.isNone_iff_eq_none.mp (each _ member)

def meetsNoUnknownError (history : List ServerEvent) : Bool :=
  history.all fun
    | ⟨.loadErrno, error⟩ => error.handleResult != HandleResult.unknownSocketError
    | _ => true

theorem noUnknownError_of_check {history : List ServerEvent} (checked : meetsNoUnknownError history = true) :
    NoUnknownError history := fun error member => by
  simpa using List.all_eq_true.mp checked _ member

def isWorker (s : ServerState) (c : ClientType) : Bool :=
  (List.range (maxNumberOf c)).any fun i => (s.groups c).fds i != -1

theorem exists_worker_of_check {s : ServerState} {c : ClientType} (checked : isWorker s c = true) :
    ∃ i < maxNumberOf c, (s.groups c).fds i ≠ -1 := by
  obtain ⟨i, member, taken⟩ := List.any_eq_true.mp checked
  exact ⟨i, List.mem_range.mp member, by simpa using taken⟩

def workerConnects (fd : Int) (c : ClientType) : Environment × PollerOperation :=
  (Environment.connecting fd 7 c, .registry .acceptClient)

def slowPipeline : List (Environment × PollerOperation) :=
  [workerConnects 5 .firstStageWorkerClient, workerConnects 6 .secondStageWorkerClient,
    workerConnects 7 .thirdStageWorkerClient, (Environment.working 9, .firstStage)]

/-- A round in which the pin of the worker of the first stage goes to the one of the second. -/
theorem round_hands_pin_to_second : ∃ s pins first second third, PollerReach s pins ∧
    PollingRound mainThread s pins first second third ∧
      HandsPinOver (first ++ (second ++ third)) := by
  have replayed : (replayPoller slowPipeline (initServer, .zero, .zero)).any (fun (s, pins) =>
      isWorker s .secondStageWorkerClient && isWorker s .thirdStageWorkerClient &&
        !pins.1.contents.isEmpty && ((Environment.working 9).round s pins).any
          fun (first, second, third) => isHealthy (first ++ (second ++ third)) &&
            meetsNoUnknownError first && pins.1.contents.length + (receivedFrom .firstStageWorkerClient
              (transfers none first)).length != pinsQueueMaxSize) = true := by decide
  obtain ⟨⟨s, pins⟩, reached, holds⟩ := (Option.any_eq_true ..).mp replayed
  simp only [Bool.and_eq_true, Bool.not_eq_true', bne_iff_ne, Option.any_eq_true] at holds
  obtain ⟨⟨⟨second, third⟩, queued⟩, ⟨h₁, h₂, h₃⟩, executed, ⟨healthy, known⟩, opened⟩ := holds
  have reach := pollerReach_of_replay .start reached
  have round := pollingRound_of_round executed
  refine ⟨s, pins, h₁, h₂, h₃, reach, round, ?_⟩
  refine (round_hands_pin_over reach ?_ ?_ round (healthy_of_isHealthy healthy)
    (noUnknownError_of_check known)).mpr fun wedged => opened wedged.1
  · rintro c (rfl | rfl)
    · exact exists_worker_of_check second
    · exact exists_worker_of_check third
  · exact .inl fun none => by simp [none] at queued

def stuckPipeline : List (Environment × PollerOperation) :=
  [workerConnects 5 .firstStageWorkerClient, workerConnects 6 .firstStageWorkerClient,
    workerConnects 7 .firstStageWorkerClient] ++
    List.replicate 6 (Environment.working 9, .firstStage) ++
    [workerConnects 8 .secondStageWorkerClient, workerConnects 9 .thirdStageWorkerClient]

/-- A round in which no stage does anything, although pins are queued and all workers are there. -/
theorem round_hands_nothing : ¬ ∀ (t : ThreadId) (s : ServerState) (pins : PinsQueue × PinsQueue)
    (first second third : List ServerEvent), PollerReach s pins →
    (∀ c, c = .firstStageWorkerClient ∨ c = .secondStageWorkerClient ∨ c = .thirdStageWorkerClient →
      ∃ i < maxNumberOf c, (s.groups c).fds i ≠ -1) →
    pins.1.contents ≠ [] ∨ pins.2.contents ≠ [] → PollingRound t s pins first second third →
    Healthy (first ++ (second ++ third)) → NoUnknownError first →
    HandsPinOver (first ++ (second ++ third)) := by
  intro hands
  have replayed : (replayPoller stuckPipeline (initServer, .zero, .zero)).any (fun (s, pins) =>
      isWorker s .firstStageWorkerClient && isWorker s .secondStageWorkerClient &&
        isWorker s .thirdStageWorkerClient && !pins.1.contents.isEmpty &&
          (Environment.calm.round s pins).any fun (first, second, third) =>
            isHealthy (first ++ (second ++ third)) && meetsNoUnknownError first &&
              transfers none (first ++ (second ++ third)) == []) = true := by decide
  obtain ⟨⟨s, pins⟩, reached, holds⟩ := (Option.any_eq_true ..).mp replayed
  simp only [Bool.and_eq_true, Bool.not_eq_true', beq_iff_eq, Option.any_eq_true] at holds
  obtain ⟨⟨⟨⟨atFirst, atSecond⟩, atThird⟩, queued⟩, ⟨h₁, h₂, h₃⟩, executed, ⟨healthy, known⟩, nothing⟩ :=
    holds
  obtain ⟨fd, pin, handed⟩ := hands mainThread s pins h₁ h₂ h₃ (pollerReach_of_replay .start reached)
    (by
      rintro c (rfl | rfl | rfl)
      · exact exists_worker_of_check atFirst
      · exact exists_worker_of_check atSecond
      · exact exists_worker_of_check atThird)
    (.inl fun none => by simp [none] at queued) (pollingRound_of_round executed)
    (healthy_of_isHealthy healthy) (noUnknownError_of_check known)
  rw [nothing] at handed
  rcases handed with never | never <;> cases never

end ArchCompSystems.OsIhw3
