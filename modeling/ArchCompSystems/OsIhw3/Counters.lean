import ArchCompSystems.OsIhw3.Environment
import ArchCompSystems.OsIhw3.RegistryOperations

namespace ArchCompSystems.OsIhw3

open Library Library.Program Library.Machine

namespace Registry

/-- How many clients of a type are connected: the slots that are not -1. -/
def connected (r : Registry) (c : ClientType) : Nat := slotsWith (· ≠ -1) (r.fds c) (maxNumberOf c)

def Counted (r : Registry) : Prop := ∀ c, r.arrSize c = r.connected c

variable {r r' : Registry} {c d : ClientType} {i : Nat} {fd : Int}

theorem connected_le (r : Registry) (c : ClientType) : r.connected c ≤ maxNumberOf c := slotsWith_le

theorem connected_pos (inside : i < maxNumberOf c) (taken : r.fds c i ≠ -1) : 0 < r.connected c :=
  slotsWith_pos inside taken

@[simp] theorem connected_setArrSize {size : Nat} :
    (r.setArrSize d size).connected c = r.connected c := rfl

theorem connected_setFd_of_ne (other : c ≠ d) : (r.setFd d i fd).connected c = r.connected c := by
  simp only [connected, setFd, Function.update_of_ne other]

theorem arrSize_setArrSize_self {size : Nat} : (r.setArrSize c size).arrSize c = size :=
  Function.update_self ..

theorem arrSize_setArrSize_of_ne {size : Nat} (other : c ≠ d) :
    (r.setArrSize d size).arrSize c = r.arrSize c := Function.update_of_ne other _ _

@[simp] theorem arrSize_setFd : (r.setFd d i fd).arrSize c = r.arrSize c := rfl

theorem connected_setFd_self (inside : i < maxNumberOf c) :
    (r.setFd c i fd).connected c + (if r.fds c i ≠ -1 then 1 else 0) =
      r.connected c + if fd ≠ -1 then 1 else 0 := by
  have overwritten := @slotsWith_update _ (· ≠ -1) _ (r.fds c) _ _ inside fd
  simpa only [connected, setFd, Function.update_self] using overwritten

theorem Registers.counted (registers : r.Registers c i fd r') (valid : fd ≠ -1)
    (counted : r.Counted) : r'.Counted := by
  obtain ⟨inside, free, room, rfl⟩ := registers
  intro d
  have bound := maxNumberOf_lt c
  by_cases same : d = c
  · subst same
    have one := @connected_setFd_self (r.setArrSize d ((r.arrSize d + 1) % 2 ^ 64)) d i fd inside
    have before : (r.setArrSize d ((r.arrSize d + 1) % 2 ^ 64)).fds d i = -1 := free
    rw [if_neg (not_not.mpr before), if_pos valid, connected_setArrSize,
      Nat.add_zero] at one
    rw [arrSize_setFd, arrSize_setArrSize_self, one, counted d]
    rw [counted d] at room
    omega
  · rw [arrSize_setFd, arrSize_setArrSize_of_ne same, connected_setFd_of_ne same, connected_setArrSize]
    exact counted d

theorem Clears.connected_self (clears : r.Clears c i fd r') :
    r'.connected c + 1 = r.connected c := by
  obtain ⟨inside, rfl, connected, rfl⟩ := clears
  have one := @connected_setFd_self r c i (-1) inside
  rwa [if_pos connected, if_neg (not_not.mpr rfl), Nat.add_zero] at one

theorem Clears.connected_of_ne (clears : r.Clears c i fd r') (other : d ≠ c) :
    r'.connected d = r.connected d := by
  rw [clears.result, connected_setFd_of_ne other]

theorem Clears.arrSize_eq (clears : r.Clears c i fd r') : r'.arrSize = r.arrSize := by
  rw [clears.result]
  rfl

/-- The changes that leave the counters equal to the numbers of clients. -/
def KeepsCounters (r : Registry) : Change → Prop
  | .forget _ _ _ => False
  | .reset c => r.connected c = 0
  | _ => True

/-- From equal counters and numbers of clients, a change keeps them equal exactly when it is no
    forgotten client and no reset of a type with clients. -/
theorem Step.counted_iff {change : Change} (step : Step r change r') (counted : r.Counted) :
    r'.Counted ↔ r.KeepsCounters change := by
  cases step with
  | admitted valid new registers => exact iff_of_true (registers.counted valid counted) True.intro
  | botch valid new registers => exact iff_of_true (registers.counted valid counted) True.intro
  | turnAway valid new => exact iff_of_true counted True.intro
  | @drop cleared c i fd clears =>
    refine iff_of_true (fun d => ?_) True.intro
    have one := clears.connected_self
    have bound := maxNumberOf_lt c
    have most := r.connected_le c
    by_cases same : d = c
    · subst same
      rw [arrSize_setArrSize_self, connected_setArrSize, counted d]
      omega
    · rw [arrSize_setArrSize_of_ne same, connected_setArrSize, clears.connected_of_ne same,
        clears.arrSize_eq, counted d]
  | @forget _ c i fd clears =>
    refine iff_of_false (fun after => ?_) id
    have one := clears.connected_self
    have size := after c
    rw [clears.arrSize_eq, counted c] at size
    omega
  | @reset c =>
    constructor
    · intro after
      have size := after c
      rw [arrSize_setArrSize_self, connected_setArrSize] at size
      exact size.symm
    · intro none d
      by_cases same : d = c
      · subst same
        rw [arrSize_setArrSize_self]
        exact none.symm
      · rw [arrSize_setArrSize_of_ne same, connected_setArrSize]
        exact counted d

theorem Steps.counted {changes : List Change} (steps : Steps r changes r')
    (keeps : ∀ r : Registry, ∀ change ∈ changes, r.KeepsCounters change) (counted : r.Counted) :
    r'.Counted := by
  induction steps with
  | nil r => exact counted
  | cons first _ ih =>
    exact ih (fun r change member => keeps r change (List.mem_cons_of_mem _ member))
      ((first.counted_iff counted).mpr (keeps _ _ (List.mem_cons_self ..)))

theorem Steps.counted_of_resets {changes : List Change} (steps : Steps r changes r')
    (resets : ∀ change ∈ changes, change = .reset c) (none : r.connected c = 0)
    (counted : r.Counted) : r'.Counted := by
  have kept := @Steps.invariant (· = .reset c) (fun r => r.Counted ∧ r.connected c = 0) r r' changes
    (fun r change r' reset holds step => by
      subst reset
      refine ⟨(step.counted_iff holds.1).mpr holds.2, ?_⟩
      cases step
      exact holds.2) steps resets ⟨counted, none⟩
  exact kept.1

end Registry

/-- How many clients of a type are connected. -/
def connected (s : ServerState) (c : ClientType) : Nat :=
  slotsWith (· ≠ -1) (s.groups c).fds (maxNumberOf c)

def CountersCountSlots (s : ServerState) : Prop := ∀ c, (s.groups c).arrSize = connected s c

/-- The operation, from this state and with this history, does not come to a branch that forgets a
    counter: no client has the address of the command, no collector turns out to be gone while a
    log is sent, and shutdown messages are sent when no client is there to be told. -/
def KeepsCounters (operation : RegistryOperation) (s : ServerState) (history : List ServerEvent) :
    Prop :=
  match operation with
  | .executeCommand cmd => ∀ c i, i < maxNumberOf c → ¬ HasAddress s cmd c i
  | .sendServerLog _ => NoDeadClient history
  | .sendShutdownSignal c => connected s c = 0 ∨ LockRefused c history
  | _ => True

section

variable {t : ThreadId} {s s' : ServerState} {c : ClientType} {history : List ServerEvent}

theorem CountersCountSlots.step {operation : RegistryOperation} (counted : CountersCountSlots s)
    (keeps : KeepsCounters operation s history)
    (run : machine.Runs t operation.program s history () s') : CountersCountSlots s' := by
  obtain ⟨changes, changed⟩ := wp_iff_runs.mp (operation.changes t s) _ _ _ run
  have allowed := changed.allowed
  have steps := changed.steps
  cases operation with
  | acceptClient =>
    refine steps.counted (fun r change member => ?_) counted
    have accepting := allowed change member
    cases change <;> first | exact True.intro | exact accepting.elim
  | pollWorkers c pinsQ | sendPinsToWorkers c pinsQ | pollManagers | sendCommandResult res i =>
    refine steps.counted (fun r change member => ?_) counted
    obtain ⟨i, fd, rfl⟩ := allowed change member
    exact True.intro
  | executeCommand cmd =>
    refine steps.counted (fun r change member => ?_) counted
    obtain ⟨c, i, fd, rfl, inside, found⟩ := allowed change member
    exact absurd found (keeps c i inside)
  | sendServerLog message =>
    refine steps.counted (fun r change member => ?_) counted
    exact absurd keeps (allowed change member).2
  | sendShutdownSignal c =>
    rcases keeps with none | refused
    · exact steps.counted_of_resets (fun change member => (allowed change member).1) none counted
    · exact steps.counted (fun r change member => absurd refused (allowed change member).2) counted

theorem initServer_counted : CountersCountSlots initServer := by
  intro c
  refine (slotsWith_eq_zero_iff.mpr fun i inside => ?_).symm
  simp [initServer, inside]

theorem countersCountSlots_of_run
    (run : machine.OperationRun RegistryOperation.program KeepsCounters initServer history s) :
    CountersCountSlots s := by
  refine run.invariant ?_ initServer_counted
  exact fun _ _ _ _ _ counted keeps step => counted.step keeps step

/-- The call is a failed assertion. -/
def Call.IsAbort : Call → Prop
  | .abort _ => True
  | _ => False

theorem avoids_assert {holds : Bool} {assertion : String} (true : holds = true) :
    machine.Avoids t Call.IsAbort (assert holds assertion) s := by
  subst true
  exact True.intro

theorem avoids_insertIntoSlot {clientAddr : SockaddrIn} {clientSockFd : Int} {i : Nat}
    (inside : i < maxNumberOf c) (counted : CountersCountSlots s) :
    machine.Avoids t Call.IsAbort (insertIntoSlot c clientAddr clientSockFd i) s := by
  unfold insertIntoSlot
  refine avoids_bind (avoids_of_calls (calls_make id) s) (wp_loadFd.mpr ?_)
  split
  · exact True.intro
  rename_i free
  refine avoids_bind (avoids_of_calls (calls_make id) s) (wp_loadArrSize.mpr ?_)
  have room : (s.groups c).arrSize < maxNumberOf c := by
    rw [counted c]
    exact slotsWith_lt inside free
  refine avoids_bind (avoids_assert (decide_eq_true room)) (wp_assert.mpr fun _ => ?_)
  refine avoids_of_calls ?_ s
  refine calls_bind (calls_make id) fun _ => calls_bind ?_ fun _ => calls_bind ?_ fun _ => ?_
  · exact calls_bind (calls_make id) fun _ => calls_make id
  · refine (fillClientMetainfo_calls _ _ _).mono fun call plain => ?_
    cases call <;> first | exact id | exact plain.elim
  · exact calls_bind (calls_make id) fun _ => True.intro

theorem avoids_insertNewClientIntoArrays {clientAddr : SockaddrIn} {clientSockFd : Int}
    (counted : CountersCountSlots s) :
    machine.Avoids t Call.IsAbort (insertNewClientIntoArrays c clientAddr clientSockFd) s := by
  unfold insertNewClientIntoArrays
  refine avoids_bind (avoids_of_calls (calls_make id) s) (wp_loadArrSize.mpr ?_)
  have most : (s.groups c).arrSize ≤ maxNumberOf c := by
    rw [counted c]
    exact slotsWith_le
  refine avoids_bind (avoids_assert (decide_eq_true most)) (wp_assert.mpr fun _ => ?_)
  refine avoids_bind (@avoids_forFrom _ _ _ _ _ _ machine t Call.IsAbort
    (fun i _ => insertIntoSlot c clientAddr clientSockFd i) (fun _ _ s' => CountersCountSlots s')
    (maxNumberOf c) 0 () s ?_ counted) (wp_iff_runs.mpr fun _ flow _ _ => ?_)
  · intro i _ middle _ upper counted
    refine ⟨avoids_insertIntoSlot (by omega) counted, ?_⟩
    refine wp_mono (fun _ flow _ after => ?_) (wp_insertIntoSlot (by omega))
    cases flow with
    | next carried => exact after.1 ▸ counted
    | exit j => exact True.intro
  · cases flow <;> exact True.intro

theorem inserts_iff_connected_lt {clientAddr : SockaddrIn} {clientSockFd : Int} {index : Option Nat}
    (run : machine.Runs t (insertNewClientIntoArrays c clientAddr clientSockFd) s history index s') :
    index.isSome ↔ connected s c < maxNumberOf c := by
  have inserted := wp_iff_runs.mp wp_insertNewClientIntoArrays _ _ _ run
  cases index with
  | none =>
    have full : connected s c = maxNumberOf c := slotsWith_eq_iff.mpr inserted.2
    exact iff_of_false (by simp) (by omega)
  | some i =>
    obtain ⟨⟨inside, free, _, _⟩, _⟩ := inserted
    exact iff_of_true rfl (slotsWith_lt inside (not_not.mpr free))

/-- After every run of operations of which none comes to a branch that forgets a counter: the
    counters are the numbers of connected clients, the assertions of
    `insert_new_client_into_arrays` hold, and it registers a client exactly when there is room. -/
theorem counters_count_slots
    (run : machine.OperationRun RegistryOperation.program KeepsCounters initServer history s)
    (c : ClientType) : (s.groups c).arrSize = connected s c ∧
      ∀ (t : ThreadId) (clientAddr : SockaddrIn) (clientSockFd : Int),
        machine.Avoids t Call.IsAbort (insertNewClientIntoArrays c clientAddr clientSockFd) s ∧
        ∀ inserting index s', machine.Runs t (insertNewClientIntoArrays c clientAddr clientSockFd) s
          inserting index s' → (index.isSome ↔ connected s c < maxNumberOf c) := by
  have counted := countersCountSlots_of_run run
  refine ⟨counted c, fun t clientAddr clientSockFd => ⟨avoids_insertNewClientIntoArrays counted, ?_⟩⟩
  exact fun _ _ _ inserting => inserts_iff_connected_lt inserting

def RegistryOperation.isAcceptClient : RegistryOperation → Bool
  | .acceptClient => true
  | _ => false

/-- A worker connects. -/
theorem counters_count_slots_after_accept : ∃ history s,
    machine.OperationRun RegistryOperation.program KeepsCounters initServer history s ∧
      connected s .firstStageWorkerClient = 1 ∧
      (s.groups .firstStageWorkerClient).arrSize = connected s .firstStageWorkerClient := by
  have accepts : ∀ operation s history, RegistryOperation.isAcceptClient operation = true →
      KeepsCounters operation s history := fun operation _ _ accepts => by
    cases operation <;> first | exact True.intro | cases accepts
  have replayed : (replayOperations RegistryOperation.program
      (fun operation _ _ => operation.isAcceptClient)
      [(Environment.connecting 5 7 .firstStageWorkerClient, .acceptClient)] ([], initServer)).any
      (fun (_, s) => connected s .firstStageWorkerClient == 1) = true := by decide
  obtain ⟨history, s, run, one⟩ := exists_operationRun accepts replayed
  exact ⟨history, s, run, eq_of_beq one, (counters_count_slots run .firstStageWorkerClient).1⟩

/-- A command that disconnects a worker leaves its counter as it was. -/
theorem counters_miscount_after_command : ¬ ∀ (history : List ServerEvent) (s : ServerState),
    machine.OperationRun RegistryOperation.program (fun _ _ _ => True) initServer history s →
    CountersCountSlots s := by
  intro counted
  have replayed : (replayOperations RegistryOperation.program (fun _ _ _ => true)
      [(Environment.connecting 5 7 .firstStageWorkerClient, .acceptClient),
        (Environment.calm, .executeCommand ⟨['h'], 7⟩)] ([], initServer)).any
      (fun (_, s) => (s.groups .firstStageWorkerClient).arrSize == 1 &&
        connected s .firstStageWorkerClient == 0) = true := by decide
  obtain ⟨history, s, run, holds⟩ := exists_operationRun (fun _ _ _ _ => True.intro) replayed
  obtain ⟨size, none⟩ := (Bool.and_eq_true _ _).mp holds
  have equal := counted history s run .firstStageWorkerClient
  rw [eq_of_beq size, eq_of_beq none] at equal
  exact absurd equal (by decide)

end

end ArchCompSystems.OsIhw3
