import ArchCompSystems.Library.Protocol
import ArchCompSystems.OsIhw2.Resources

namespace ArchCompSystems.OsIhw2

open Library Library.Program

/-- What a worker's calls so far say about it, with the generations of its queue and semaphore;
    in the end only which queue it has worked with. -/
inductive Stage where
  | outside
  | opened (q : Nat)
  | existing (q : Nat)
  | joining (q s : Nat)
  | creating (q s : Nat)
  | undoing
  | working (q s : Nat)
  | closing (q s : Nat)
  | left (q s : Nat)
  | condemning (q s : Nat)
  | deleting (q : Nat)
  | finished (q : Option Nat)
  deriving DecidableEq

namespace Stage

def allowed (tieType : TieType) : Stage → ResourceCall → Prop
  | .outside, .msgget key => key = queueKey tieType
  | .opened _, .semget key .newSemaphore => key = refCntSemKey tieType
  | .existing _, .semget key .existingSemaphore => key = refCntSemKey tieType
  | .joining _ s, .semop semId semOp noWait =>
    semId = ⟨refCntSemKey tieType, s⟩ ∧ semOp = 1 ∧ noWait = false
  | .creating _ s, .setval semId value => semId = ⟨refCntSemKey tieType, s⟩ ∧ value = refCntSemDefaultValue
  | .working q _, .run queueId => queueId = ⟨queueKey tieType, q⟩
  | .closing _ s, .semop semId semOp noWait =>
    semId = ⟨refCntSemKey tieType, s⟩ ∧ semOp = -1 ∧ noWait = true
  | .left _ s, .getval semId => semId = ⟨refCntSemKey tieType, s⟩
  | .condemning _ s, .removeSemaphore semId => semId = ⟨refCntSemKey tieType, s⟩
  | .deleting q, .removeQueue queueId => queueId = ⟨queueKey tieType, q⟩
  | _, _ => False

def possible (tieType : TieType) : Stage → (call : ResourceCall) → call.Answer → Prop
  | .outside, .msgget _, answer => ∃ q, answer = .ok ⟨queueKey tieType, q⟩
  | .opened _, .semget _ _, answer =>
    (∃ s, answer = .ok ⟨refCntSemKey tieType, s⟩) ∨ answer = .failed .eexist
  | .existing _, .semget _ _, answer =>
    (∃ s, answer = .ok ⟨refCntSemKey tieType, s⟩) ∨ answer = .failed .enoent
  | .creating _ _, .setval _ _, answer => answer = .ok ()
  | .closing _ _, .semop _ _ _, answer => answer = .ok ()
  | _, _, _ => True

def after : Stage → (call : ResourceCall) → call.Answer → Stage
  | .outside, .msgget _, .ok queueId => .opened queueId.generation
  | .opened q, .semget _ _, .ok semId => .creating q semId.generation
  | .opened q, .semget _ _, .failed .eexist => .existing q
  | .existing q, .semget _ _, .ok semId => .joining q semId.generation
  | .joining q s, .semop _ _ _, .ok _ => .working q s
  | .creating q s, .setval _ _, .ok _ => .working q s
  | .creating _ _, .setval _ _, .failed _ => .undoing
  | .working q s, .run _, _ => .closing q s
  | .closing q _, .semop _ _ _, .failed .eagain => .finished (some q)
  | .closing q s, .semop _ _ _, _ => .left q s
  | .left q s, .getval _, .ok 0 => .condemning q s
  | .left q _, .getval _, _ => .finished (some q)
  | .condemning q _, .removeSemaphore _, _ => .deleting q
  | .deleting q, .removeQueue _, _ => .finished (some q)
  | _, _, _ => .finished none

def monitor (tieType : TieType) : Monitor ResourceCall ResourceCall.Answer Stage :=
  ⟨allowed tieType, possible tieType, after⟩

/-- The queue and semaphore of a worker that has created the semaphore or added to it, and has not
    removed it. -/
def bound : Stage → Option (Nat × Nat)
  | .creating q s | .working q s | .closing q s | .left q s | .condemning q s => some (q, s)
  | _ => none

def removing : Stage → Option Nat
  | .condemning q _ | .deleting q => some q
  | _ => none

def initialising : Stage → Option Nat
  | .creating _ s => some s
  | _ => none

/-- The queue that a worker has completed `init_queue` with. -/
def used : Stage → Option Nat
  | .working q _ | .closing q _ | .left q _ | .condemning q _ | .deleting q => some q
  | .finished q => q
  | _ => none

def users (s : Nat) : Stage → Nat
  | .working _ s' | .closing _ s' => if s' = s then 1 else 0
  | _ => 0

end Stage

variable {tieType : TieType}

theorem deleteIfUnused_obeys {q s : Nat} :
    (Stage.monitor tieType).Obeys (fun _ stage => ∃ q, stage = .finished q)
      (deleteIfUnused ⟨refCntSemKey tieType, s⟩ ⟨queueKey tieType, q⟩) (.left q s) := by
  refine Monitor.obeys_call rfl fun answer _ => ?_
  match answer with
  | .failed _ => exact ⟨_, rfl⟩
  | .ok 0 => exact ⟨rfl, fun _ _ => ⟨rfl, fun _ _ => ⟨_, rfl⟩⟩⟩
  | .ok (_ + 1) => exact ⟨_, rfl⟩

theorem deinitQueue_obeys {q s : Nat} :
    (Stage.monitor tieType).Obeys (fun _ stage => ∃ q, stage = .finished q)
      (deinitQueue ⟨some ⟨queueKey tieType, q⟩, some ⟨refCntSemKey tieType, s⟩, tieType⟩) (.closing q s) := by
  refine Monitor.obeys_call ⟨rfl, rfl, rfl⟩ fun answer succeeds => ?_
  obtain rfl : answer = .ok () := succeeds
  exact deleteIfUnused_obeys

theorem createSemaphoreOrIncrease_obeys {q : Nat} :
    (Stage.monitor tieType).Obeys
      (fun semId stage => match semId with
        | some semId => ∃ s, semId = ⟨refCntSemKey tieType, s⟩ ∧ stage = .working q s
        | none => stage = .finished none)
      (createSemaphoreOrIncrease (refCntSemKey tieType) refCntSemDefaultValue) (.opened q) := by
  refine Monitor.obeys_call rfl fun answer given => ?_
  rcases given with ⟨s, rfl⟩ | rfl
  · refine Monitor.obeys_call ⟨rfl, rfl⟩ fun answer succeeds => ?_
    obtain rfl : answer = .ok () := succeeds
    exact ⟨s, rfl, rfl⟩
  · refine Monitor.obeys_call rfl fun answer given => ?_
    rcases given with ⟨s, rfl⟩ | rfl
    · refine Monitor.obeys_call ⟨rfl, rfl, rfl⟩ fun answer _ => ?_
      cases answer with
      | ok value => exact ⟨s, rfl, rfl⟩
      | failed errno => exact rfl
    · exact rfl

/-- What `init_queue` has done when it returns. -/
def Initialised (tieType : TieType) (result : QueueInfo × InitStatus) (stage : Stage) : Prop :=
  (∃ q s, result = (⟨some ⟨queueKey tieType, q⟩, some ⟨refCntSemKey tieType, s⟩, tieType⟩,
    .queueInitSuccess) ∧ stage = .working q s) ∨
  (∃ q, result = (⟨some ⟨queueKey tieType, q⟩, none, tieType⟩, .queueInitFailure) ∧ stage = .finished none)

theorem initQueueImpl_obeys :
    (Stage.monitor tieType).Obeys (Initialised tieType) (initQueueImpl ⟨none, none, tieType⟩) .outside := by
  refine Monitor.obeys_call rfl fun answer given => ?_
  obtain ⟨q, rfl⟩ := given
  refine Monitor.obeys_bind.mpr (Monitor.obeys_mono (fun semId stage after => ?_)
    (@createSemaphoreOrIncrease_obeys tieType q))
  cases semId with
  | none =>
    obtain rfl : stage = .finished none := after
    exact .inr ⟨q, rfl, rfl⟩
  | some semId =>
    obtain ⟨s, rfl, rfl⟩ := after
    exact .inl ⟨q, s, rfl, rfl⟩

theorem initQueue_obeys :
    (Stage.monitor tieType).Obeys (Initialised tieType) (initQueue tieType) .outside := by
  refine Monitor.obeys_bind.mpr (Monitor.obeys_mono ?_ initQueueImpl_obeys)
  rintro ⟨queueInfo, res⟩ stage (⟨q, s, same, rfl⟩ | ⟨q, same, rfl⟩)
  · cases same
    exact .inl ⟨q, s, rfl, rfl⟩
  · cases same
    exact .inr ⟨q, rfl, rfl⟩

theorem worker_obeys :
    (Stage.monitor tieType).Obeys (fun _ stage => ∃ q, stage = .finished q) (worker tieType) .outside := by
  refine Monitor.obeys_bind.mpr (Monitor.obeys_mono ?_ initQueue_obeys)
  rintro ⟨queueInfo, res⟩ stage (⟨q, s, same, rfl⟩ | ⟨q, same, rfl⟩)
  · cases same
    exact ⟨rfl, fun _ _ => deinitQueue_obeys⟩
  · cases same
    exact ⟨none, rfl⟩

end ArchCompSystems.OsIhw2
