import ArchCompSystems.OsIhw4.Handling

namespace ArchCompSystems.OsIhw4

open Library Library.Program
open OsIhw3 (ServerLog)

/-- The calls of a poll, each with the queue as it was before the call; the other threads may have
    used the queue in between. -/
abbrev PollRun := List (BufferState ServerLog × NetEvent)

def PollRun.history (run : PollRun) : List NetEvent := run.map Prod.snd

/-- The queue answers the poll's attempts as its semaphores and its mutex stand. -/
def Answered : BufferState ServerLog × NetEvent → Prop
  | (s, ⟨.queue c, answer⟩) => s.answer c = some answer
  | _ => True

/-- The poll logs only while there is a free element and the mutex is not locked. -/
def HasRoom : BufferState ServerLog × NetEvent → Prop
  | (s, ⟨.queue .tryWaitFree, _⟩) => 0 < s.free
  | (s, ⟨.queue .tryLock, _⟩) => 0 < s.guard
  | _ => True

def ReceiveFailed (history : List NetEvent) : Prop := ⟨.recvfrom, .failed⟩ ∈ history

/-- The poll stops the server only because it could not receive or send. -/
def StopsOnlyOnFailure (history : List NetEvent) (ok : Bool) : Prop :=
  ok = false → ReceiveFailed history ∨ SendFailed history

/-- The datagram is handled without regard to the logs. -/
def IgnoresLogs (history : List NetEvent) : Prop :=
  ∀ bytes addressSize address later, history = ⟨.recvfrom, .received bytes addressSize address⟩ :: later →
    ¬ ReturnsLogs (.ofBytes bytes) addressSize

section

variable {run : PollRun} {ok : Bool}

theorem refusal_iff {step : BufferState ServerLog × NetEvent} (answered : Answered step) :
    refusal step.2 = true ↔ ¬ HasRoom step := by
  obtain ⟨s, call, answer⟩ := step
  cases call with
  | queue c =>
    cases c with
    | tryWaitFree | tryLock =>
      have same := Option.some.inj answered
      subst same
      simp [refusal, HasRoom]
    | _ => simp [refusal, HasRoom]
  | _ => simp [refusal, HasRoom]

theorem refused_iff (answered : ∀ step ∈ run, Answered step) :
    Refused run.history ↔ ¬ ∀ step ∈ run, HasRoom step := by
  constructor
  · rintro ⟨event, member, isRefusal⟩ room
    obtain ⟨step, there, rfl⟩ := List.mem_map.mp member
    exact (refusal_iff (answered step there)).mp isRefusal (room step there)
  · intro noRoom
    by_contra accepted
    refine noRoom fun step there => ?_
    by_contra full
    exact accepted ⟨step.2, List.mem_map_of_mem there, (refusal_iff (answered step there)).mpr full⟩

/-- A poll stops the server only on a failure exactly if there is one, or its datagram is handled
    without regard to the logs, or the queue has room whenever the poll logs. -/
theorem stops_only_on_failure_iff (completes : nonblockingPoll.Completes run.history ok)
    (answered : ∀ step ∈ run, Answered step) :
    StopsOnlyOnFailure run.history ok ↔
      ReceiveFailed run.history ∨ SendFailed run.history ∨ IgnoresLogs run.history ∨
        ∀ step ∈ run, HasRoom step := by
  rcases always_iff.mp nonblockingPoll_always _ ok completes with ⟨same, -⟩ | ⟨bytes, addressSize, address, later, same, polled⟩
  · have failed : ReceiveFailed run.history := by simp [ReceiveFailed, same]
    exact iff_of_true (fun _ => .inl failed) (.inl failed)
  · have refusedLater : Refused run.history ↔ Refused later := by
      simp [same, Refused, refusal]
    have failedLater : SendFailed run.history ↔ SendFailed later := by
      simp [same, SendFailed]
    constructor
    · intro stops
      by_contra none
      simp only [not_or] at none
      obtain ⟨received, sent, returned, noRoom⟩ := none
      have returns : ReturnsLogs (.ofBytes bytes) addressSize := by
        by_contra ignores
        refine returned fun bytes' addressSize' address' later' first => ?_
        cases same.symm.trans first
        exact ignores
      have refused := (polled.1 returns).refused (refusedLater.mp ((refused_iff answered).mpr noRoom))
      exact (stops refused).elim received sent
    · rintro (received | sent | ignores | room) failed
      · exact .inl received
      · exact .inr sent
      · have ignored := ignores bytes addressSize address later same
        exact .inr (failedLater.mpr ((polled.2 ignored).failed failed))
      · by_cases returns : ReturnsLogs (.ofBytes bytes) addressSize
        · rcases (polled.1 returns).failed failed with refused | sent
          · exact absurd room ((refused_iff answered).mp (refusedLater.mpr refused))
          · exact .inr (failedLater.mpr sent)
        · exact .inr (failedLater.mpr ((polled.2 returns).failed failed))

end

def fullQueue : BufferState ServerLog :=
  ⟨⟨fun _ => "> log", 0, 0, 16, List.replicate 16 "> log", []⟩, 0, 16, 1⟩

def whileFull (history : List NetEvent) : PollRun := history.map fun event => (fullQueue, event)

theorem history_whileFull (history : List NetEvent) : (whileFull history).history = history := by
  simp [whileFull, PollRun.history, Function.comp_def]

def newManager : List UInt8 := (⟨componentTypeManager, componentTypeServer, messageTypeNewClient, []⟩ : UDPMessage).bytes

/-- A new manager stops the server whose queue is full. -/
theorem new_client_stops_server : ¬ ∀ (run : PollRun) (ok : Bool), nonblockingPoll.Completes run.history ok →
    (∀ step ∈ run, Answered step) → StopsOnlyOnFailure run.history ok := by
  intro all
  have isNew : (UDPMessage.ofBytes newManager).messageType = messageTypeNewClient := UDPMessage.messageType_ofBytes_bytes _
  have handled : (handleMessage (.ofBytes newManager) unknownClient).Completes [⟨.queue .tryWaitFree, false⟩] false := by
    rw [handleMessage, if_neg (by rw [isNew]; decide), if_pos isNew]
    refine handleLog_full ?_
    repeat refine append_ne_empty ?_
    decide
  have heeded : Heeded (.ofBytes newManager) sizeofSockaddrIn := by decide +kernel
  have completes := @nonblockingPoll_completes _ newManager sizeofSockaddrIn ⟨0, 0⟩ _ heeded handled
  rw [← history_whileFull (_ :: _)] at completes
  have stops := all _ false completes (by simp [whileFull, Answered, fullQueue, BufferState.answer])
  rw [history_whileFull] at stops
  simpa [ReceiveFailed, SendFailed] using stops rfl

def pinFromFirstStage : List UInt8 := (pinMessage componentTypeFirstStageWorker componentTypeServer ⟨7⟩).bytes

/-- A pin passes although the queue is full. -/
theorem pin_passes_full_queue : ∃ run : PollRun, nonblockingPoll.Completes run.history true ∧
    (∀ step ∈ run, Answered step) ∧ StopsOnlyOnFailure run.history true := by
  have isPin : (UDPMessage.ofBytes pinFromFirstStage).messageType = messageTypePinTransferring :=
    UDPMessage.messageType_ofBytes_bytes _
  have fromFirst : (UDPMessage.ofBytes pinFromFirstStage).senderType = componentTypeFirstStageWorker :=
    UDPMessage.senderType_ofBytes_bytes _
  have toServer : (UDPMessage.ofBytes pinFromFirstStage).receiverType = componentTypeServer :=
    UDPMessage.receiverType_ofBytes_bytes _
  have pin : (UDPMessage.ofBytes pinFromFirstStage).pin = ⟨7⟩ := by decide +kernel
  have forwarded : (serverHandlePinFromFirstStageWorker ⟨7⟩).Completes [⟨.queue .tryWaitFree, false⟩,
      ⟨.sendto (pinMessage componentTypeServer componentTypeSecondStageWorker ⟨7⟩).bytes, true⟩] true := by
    refine completes_bind.mpr ⟨_, false, _, rfl, handleLog_full ?_, .step (.here _)⟩
    repeat refine append_ne_empty ?_
    decide
  have handled : (handleMessage (.ofBytes pinFromFirstStage) unknownClient).Completes
      [⟨.queue .tryWaitFree, false⟩, ⟨.queue .tryWaitFree, false⟩,
        ⟨.sendto (pinMessage componentTypeServer componentTypeSecondStageWorker ⟨7⟩).bytes, true⟩] true := by
    rw [handleMessage, if_pos isPin, serverHandlePinTransferring, if_neg (not_not_intro toServer)]
    refine completes_bind.mpr ⟨_, false, _, rfl, handleLog_full ?_, ?_⟩
    · repeat refine append_ne_empty ?_
      decide
    · rw [if_pos fromFirst, pin]
      exact forwarded
  have heeded : Heeded (.ofBytes pinFromFirstStage) sizeofSockaddrIn := by decide +kernel
  have completes := @nonblockingPoll_completes _ pinFromFirstStage sizeofSockaddrIn ⟨0, 0⟩ _ heeded handled
  rw [← history_whileFull (_ :: _)] at completes
  refine ⟨_, completes, ?answered, (stops_only_on_failure_iff completes ?answered).mpr (.inr (.inr (.inl ?_)))⟩
  case answered => simp [whileFull, Answered, fullQueue, BufferState.answer]
  rw [history_whileFull]
  rintro bytes addressSize address later first ⟨-, notPin⟩
  cases first
  exact notPin isPin

end ArchCompSystems.OsIhw4
