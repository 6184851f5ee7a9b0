import ArchCompSystems.OsIhw3.Conservation
import ArchCompSystems.OsIhw3.Counters

namespace ArchCompSystems.OsIhw3

open Library Library.Program Library.Machine

namespace Registry

def Covered (r : Registry) : Prop := ∀ c, r.connected c ≤ r.arrSize c ∧ r.arrSize c ≤ maxNumberOf c

variable {r r' : Registry} {c d : ClientType} {i : Nat} {fd : Int}

theorem Registers.covered (registers : r.Registers c i fd r') (valid : fd ≠ -1) (covered : r.Covered) :
    r'.Covered := by
  obtain ⟨inside, free, room, rfl⟩ := registers
  intro d
  have bound := maxNumberOf_lt c
  by_cases same : d = c
  · subst same
    have one := @connected_setFd_self (r.setArrSize d ((r.arrSize d + 1) % 2 ^ 64)) d i fd inside
    have before : (r.setArrSize d ((r.arrSize d + 1) % 2 ^ 64)).fds d i = -1 := free
    rw [if_neg (not_not.mpr before), if_pos valid, connected_setArrSize, Nat.add_zero] at one
    have least := (covered d).1
    rw [arrSize_setFd, arrSize_setArrSize_self, one]
    omega
  · rw [arrSize_setFd, arrSize_setArrSize_of_ne same, connected_setFd_of_ne same, connected_setArrSize]
    exact covered d

theorem Step.covered {change : Change} (step : Step r change r') (noReset : ∀ c, change ≠ .reset c)
    (covered : r.Covered) : r'.Covered := by
  cases step with
  | admitted valid new registers => exact registers.covered valid covered
  | botch valid new registers => exact registers.covered valid covered
  | turnAway valid new => exact covered
  | @drop cleared c i fd clears =>
    intro d
    have one := clears.connected_self
    have bound := maxNumberOf_lt c
    have least := covered c
    by_cases same : d = c
    · subst same
      rw [arrSize_setArrSize_self, connected_setArrSize]
      omega
    · rw [arrSize_setArrSize_of_ne same, connected_setArrSize, clears.connected_of_ne same,
        clears.arrSize_eq]
      exact covered d
  | @forget _ c i fd clears =>
    intro d
    have one := clears.connected_self
    have least := covered d
    rw [clears.arrSize_eq]
    by_cases same : d = c
    · subst same
      omega
    · rwa [clears.connected_of_ne same]
  | @reset c => exact absurd rfl (noReset c)

theorem Steps.covered {changes : List Change} (steps : Steps r changes r')
    (noReset : ∀ change ∈ changes, ∀ c, change ≠ .reset c) (covered : r.Covered) : r'.Covered :=
  steps.invariant (fun _ _ _ allowed kept step => step.covered allowed kept) noReset covered

end Registry

/-- What happens between the stages of the poller's rounds, and the stages themselves. -/
inductive PollerOperation where
  | registry (operation : RegistryOperation)
  | firstStage
  | secondStage
  | thirdStage

/-- An operation with the poller's queues before and after it. -/
def PollerOperation.program (pins : PinsQueue × PinsQueue) :
    PollerOperation → ServerProgram (PinsQueue × PinsQueue)
  | .registry operation => do
    operation.program
    return pins
  | .firstStage => do
    let (_, pins1To2) ← nonblockingPollWorkersOnTheFirstStage pins.1
    return (pins1To2, pins.2)
  | .secondStage => do
    let (_, pins) ← nonblockingPollWorkersOnTheSecondStage pins.1 pins.2
    return pins
  | .thirdStage => do
    let (_, pins2To3) ← nonblockingPollWorkersOnTheThirdStage pins.2
    return (pins.1, pins2To3)

def PollerOperation.WhilePolling : PollerOperation → Prop
  | .registry (.sendShutdownSignal _) => False
  | _ => True

/-- A state of the server and of the poller's queues that is reached while the poller runs. -/
inductive PollerReach : ServerState → PinsQueue × PinsQueue → Prop where
  | start : PollerReach initServer (.zero, .zero)
  | step {s s' : ServerState} {pins pins' : PinsQueue × PinsQueue} {t : ThreadId}
      {history : List ServerEvent} {operation : PollerOperation} (before : PollerReach s pins)
      (whilePolling : operation.WhilePolling)
      (run : machine.Runs t (operation.program pins) s history pins' s') : PollerReach s' pins'

section

variable {t : ThreadId} {s s' : ServerState} {c : ClientType} {pins pins' : PinsQueue × PinsQueue}
  {history : List ServerEvent}

theorem makes_firstStage {pins1To2 : PinsQueue} : Makes t (RegistryOperation.Drops .firstStageWorkerClient)
    (nonblockingPollWorkersOnTheFirstStage pins1To2) s := by
  unfold nonblockingPollWorkersOnTheFirstStage
  refine makes_quiet_bind (calls_make True.intro) fun size _ _ => ?_
  split
  · exact makes_pure
  refine makes_quiet_bind (mutexWrappers_quiet .firstStageWorkerClient).1 fun locked _ _ => ?_
  cases locked with
  | false => exact makes_pure
  | true =>
    refine makes_bind (makes_pollWorkers fun i fd => ⟨i, fd, rfl⟩) fun (res, pins1To2) _ => ?_
    refine makes_quiet_bind (mutexWrappers_quiet .firstStageWorkerClient).2 fun unlocked _ _ => ?_
    cases unlocked <;> exact makes_pure

theorem makes_secondStage {pins1To2 pins2To3 : PinsQueue} :
    Makes t (RegistryOperation.Drops .secondStageWorkerClient)
      (nonblockingPollWorkersOnTheSecondStage pins1To2 pins2To3) s := by
  unfold nonblockingPollWorkersOnTheSecondStage
  refine makes_quiet_bind (calls_make True.intro) fun size _ _ => ?_
  split
  · exact makes_pure
  refine makes_quiet_bind (mutexWrappers_quiet .secondStageWorkerClient).1 fun locked _ _ => ?_
  cases locked with
  | false => exact makes_pure
  | true =>
    refine makes_bind (makes_sendPinsToWorkers fun i fd => ⟨i, fd, rfl⟩) fun (res, pins1To2) _ => ?_
    have ending : ∀ (pins2To3 : PinsQueue) (s : ServerState), Makes t (RegistryOperation.Drops .secondStageWorkerClient) (do
        if !(← serverUnlockSecondMutex) then return (false, pins1To2, pins2To3)
        return (res, pins1To2, pins2To3)) s := by
      intro pins2To3 s
      refine makes_quiet_bind (mutexWrappers_quiet .secondStageWorkerClient).2 fun unlocked _ _ => ?_
      cases unlocked <;> exact makes_pure
    cases res with
    | false => exact ending pins2To3 _
    | true => exact makes_bind (makes_pollWorkers fun i fd => ⟨i, fd, rfl⟩) fun (_, pins2To3) s =>
        ending pins2To3 s

theorem makes_thirdStage {pins2To3 : PinsQueue} : Makes t (RegistryOperation.Drops .thirdStageWorkerClient)
    (nonblockingPollWorkersOnTheThirdStage pins2To3) s := by
  unfold nonblockingPollWorkersOnTheThirdStage
  refine makes_quiet_bind (calls_make True.intro) fun size _ _ => ?_
  split
  · exact makes_pure
  refine makes_quiet_bind (mutexWrappers_quiet .thirdStageWorkerClient).1 fun locked _ _ => ?_
  cases locked with
  | false => exact makes_pure
  | true =>
    refine makes_bind (makes_sendPinsToWorkers fun i fd => ⟨i, fd, rfl⟩) fun (res, pins2To3) _ => ?_
    refine makes_quiet_bind (mutexWrappers_quiet .thirdStageWorkerClient).2 fun unlocked _ _ => ?_
    cases unlocked <;> exact makes_pure

structure PollerInvariant (s : ServerState) (pins : PinsQueue × PinsQueue) : Prop where
  covered : s.registry.Covered
  wellFormed : pins.1.WellFormed ∧ pins.2.WellFormed

theorem RegistryOperation.MayMake.ne_reset {operation : RegistryOperation} {change : Change}
    (may : operation.MayMake s history change)
    (whilePolling : (PollerOperation.registry operation).WhilePolling) (c : ClientType) :
    change ≠ .reset c := by
  cases operation with
  | acceptClient =>
    rintro rfl
    exact may
  | pollWorkers d pinsQ | sendPinsToWorkers d pinsQ | pollManagers | sendCommandResult res i =>
    obtain ⟨i, fd, rfl⟩ := may
    exact nofun
  | executeCommand cmd =>
    obtain ⟨d, i, fd, rfl, -⟩ := may
    exact nofun
  | sendServerLog message =>
    obtain ⟨⟨i, fd, rfl⟩, -⟩ := may
    exact nofun
  | sendShutdownSignal d => exact whilePolling.elim

theorem covered_of_drops (holds : (changesAccount (RegistryOperation.Drops c)).holds s history s')
    (covered : s.registry.Covered) : s'.registry.Covered := by
  obtain ⟨changes, changed⟩ := holds
  refine changed.steps.covered (fun change member d => ?_) covered
  obtain ⟨i, fd, rfl⟩ := changed.allowed change member
  exact nofun

theorem wp_stage_invariant {α : Type} {p : ServerProgram α} {result : α → PinsQueue × PinsQueue}
    (makes : Makes t (RegistryOperation.Drops c) p s) (carries : CarriesPins p pins result)
    (covered : s.registry.Covered) :
    machine.wp t p (fun _ value s' => PollerInvariant s' (result value)) s := by
  refine wp_mono ?_ (wp_and makes (wp_of_always carries))
  rintro later value s' ⟨⟨drops, -⟩, moved, -, carried⟩
  exact ⟨covered_of_drops drops covered, carried.wellFormed⟩

theorem PollerInvariant.step {operation : PollerOperation} (invariant : PollerInvariant s pins)
    (whilePolling : operation.WhilePolling) : machine.wp t (operation.program pins)
      (fun _ pins' s' => PollerInvariant s' pins') s := by
  obtain ⟨covered, wf⟩ := invariant
  cases operation with
  | registry operation =>
    refine wp_bind.mpr (wp_mono ?_ (operation.changes t s))
    rintro later _ s' ⟨changes, changed⟩
    refine ⟨changed.steps.covered (fun change member c => ?_) covered, wf⟩
    exact (changed.allowed change member).ne_reset whilePolling c
  | firstStage => exact wp_bind.mpr (wp_stage_invariant makes_firstStage (firstStage_carries wf) covered)
  | secondStage => exact wp_bind.mpr (wp_stage_invariant makes_secondStage (secondStage_carries wf) covered)
  | thirdStage => exact wp_bind.mpr (wp_stage_invariant makes_thirdStage (thirdStage_carries wf) covered)

theorem initServer_covered : initServer.registry.Covered := by
  intro c
  have none : initServer.registry.connected c = 0 := (initServer_counted c).symm
  rw [none]
  exact ⟨Nat.zero_le _, Nat.zero_le _⟩

theorem pollerInvariant_of_reach (reach : PollerReach s pins) : PollerInvariant s pins := by
  induction reach with
  | start => exact ⟨initServer_covered, PinsQueue.zero_wellFormed, PinsQueue.zero_wellFormed⟩
  | step _ whilePolling run ih => exact wp_iff_runs.mp (ih.step whilePolling) _ _ _ run

end

end ArchCompSystems.OsIhw3
