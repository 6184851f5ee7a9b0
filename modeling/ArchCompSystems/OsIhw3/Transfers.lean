import ArchCompSystems.OsIhw3.Footprints

namespace ArchCompSystems.OsIhw3

open Library Library.Program

/-- A pin that a worker of a type sent, or that a worker of a type was sent, the whole of it or not. -/
inductive Transfer where
  | received (c : ClientType) (fd : Int) (pin : Pin)
  | handed (c : ClientType) (fd : Int) (pin : Pin) (whole : Bool)
  deriving DecidableEq

def polledAfter (polled : Option ClientType) : ServerEvent → Option ClientType
  | ⟨.loadFd c _, _⟩ => some c
  | _ => polled

def transferIn (polled : Option ClientType) : ServerEvent → Option Transfer
  | ⟨.recv fd _, .received bytes⟩ =>
    if bytes.length = sizeofPin then polled.map (.received · fd (Pin.ofBytes bytes)) else none
  | ⟨.send fd (.pin pin), answer⟩ =>
    polled.map (.handed · fd pin (decide (answer = .sent sizeofPin)))
  | _ => none

def transfers : Option ClientType → List ServerEvent → List Transfer
  | _, [] => []
  | polled, event :: rest => (transferIn polled event).toList ++ transfers (polledAfter polled event) rest

theorem transfers_append (polled : Option ClientType) (history later : List ServerEvent) :
    transfers polled (history ++ later) =
      transfers polled history ++ transfers (history.foldl polledAfter polled) later := by
  induction history generalizing polled with
  | nil => rfl
  | cons event rest ih => simp only [List.cons_append, transfers, ih, List.append_assoc, List.foldl_cons]

def Transfers (history : List ServerEvent) (moved : List Transfer) : Prop :=
  ∀ polled, transfers polled history = moved

theorem Transfers.nil : Transfers [] [] := fun _ => rfl

theorem Transfers.append {history later : List ServerEvent} {moved others : List Transfer}
    (first : Transfers history moved) (second : Transfers later others) :
    Transfers (history ++ later) (moved ++ others) := fun polled => by
  rw [transfers_append, first, second]

def Call.MovesNothing : Call → Prop
  | .loadFd _ _ | .recv _ _ | .send _ _ => False
  | _ => True

theorem Call.Plain.movesNothing {call : Call} (plain : call.Plain) : call.MovesNothing := by
  cases call <;> first | exact True.intro | exact plain.elim

theorem Call.Logging.movesNothing {call : Call} (logging : call.Logging) : call.MovesNothing := by
  cases call <;> first | exact True.intro | exact logging.elim

section

variable {α β : Type}

theorem always_movesNothing {p : ServerProgram α} (calls : p.Calls Call.MovesNothing) :
    p.Always fun history _ =>
      ∀ polled, transfers polled history = [] ∧ history.foldl polledAfter polled = polled := by
  refine always_of_calls (fun polled => ⟨rfl, rfl⟩) (fun event history harmless ih polled => ?_) calls
  obtain ⟨call, answer⟩ := event
  cases call <;> first | exact ih polled | exact harmless.elim

theorem always_transfers_nil {p : ServerProgram α} (calls : p.Calls Call.MovesNothing) :
    p.Always fun history _ => Transfers history [] :=
  always_mono (fun _ _ quiet polled => (quiet polled).1) (always_movesNothing calls)

/-- The work on a slot of type `c`, by the pins that it moves. -/
def SlotMoves (c : ClientType) (p : ServerProgram α) (post : List Transfer → α → Prop) : Prop :=
  p.Always fun history result => post (transfers (some c) history) result

theorem slotMoves_mono {c : ClientType} {p : ServerProgram α} {post weaker : List Transfer → α → Prop}
    (implies : ∀ moved result, post moved result → weaker moved result) (moves : SlotMoves c p post) :
    SlotMoves c p weaker := always_mono (fun _ => implies _) moves

theorem slotMoves_pure {c : ClientType} {value : α} {post : List Transfer → α → Prop}
    (holds : post [] value) : SlotMoves c (pure value) post := holds

theorem slotMoves_quiet_bind {c : ClientType} {p : ServerProgram α} {f : α → ServerProgram β}
    {post : List Transfer → β → Prop} (calls : p.Calls Call.MovesNothing)
    (rest : ∀ value, SlotMoves c (f value) post) : SlotMoves c (p >>= f) post := by
  refine always_bind.mpr (always_mono (fun first value quiet => ?_) (always_movesNothing calls))
  refine always_mono (fun later result holds => ?_) (rest value)
  rwa [transfers_append, (quiet _).1, (quiet _).2, List.nil_append]

theorem slotMoves_orAbort_bind {γ : Type} {c : ClientType} {value : Option γ} {result : γ}
    {assertion : String} {f : γ → ServerProgram β} {post : List Transfer → β → Prop}
    (known : value = some result) (rest : SlotMoves c (f result) post) :
    SlotMoves c (orAbort value assertion >>= f) post := by
  subst known
  exact rest

theorem slotMoves_assert_bind {c : ClientType} {holds : Bool} {assertion : String}
    {f : Unit → ServerProgram β} {post : List Transfer → β → Prop} (rest : SlotMoves c (f ()) post) :
    SlotMoves c (assert holds assertion >>= f) post :=
  slotMoves_quiet_bind (assert_calls (fun _ => True.intro) _ _) fun _ => rest

def Moves (p : ServerProgram α) (post : List Transfer → α → Prop) : Prop :=
  p.Always fun history result => ∃ moved, Transfers history moved ∧ post moved result

theorem moves_mono {p : ServerProgram α} {post weaker : List Transfer → α → Prop}
    (implies : ∀ moved result, post moved result → weaker moved result) (moves : Moves p post) :
    Moves p weaker :=
  always_mono (fun _ result ⟨moved, transfers, holds⟩ => ⟨moved, transfers, implies moved result holds⟩)
    moves

theorem moves_pure {value : α} {post : List Transfer → α → Prop} (holds : post [] value) :
    Moves (pure value) post := ⟨[], .nil, holds⟩

theorem moves_bind {p : ServerProgram α} {f : α → ServerProgram β} {first : List Transfer → α → Prop}
    {post : List Transfer → β → Prop} (moves : Moves p first) (rest : ∀ moved value, first moved value →
      Moves (f value) fun others result => post (moved ++ others) result) : Moves (p >>= f) post := by
  refine always_bind.mpr (always_mono (fun history value done => ?_) moves)
  obtain ⟨moved, transfers, holds⟩ := done
  refine always_mono (fun later result doneToo => ?_) (rest moved value holds)
  obtain ⟨others, transfersToo, holdsToo⟩ := doneToo
  exact ⟨moved ++ others, transfers.append transfersToo, holdsToo⟩

theorem moves_quiet_bind {p : ServerProgram α} {f : α → ServerProgram β}
    {post : List Transfer → β → Prop} (calls : p.Calls Call.MovesNothing)
    (rest : ∀ value, Moves (f value) post) : Moves (p >>= f) post := by
  have quiet : Moves p fun moved _ => moved = [] :=
    always_mono (fun _ _ none => ⟨[], none, rfl⟩) (always_transfers_nil calls)
  refine moves_bind quiet ?_
  rintro _ value rfl
  exact rest value

theorem moves_forFrom {γ : Type} {body : Nat → β → ServerProgram (LoopFlow β γ)}
    {invariant : List Transfer → β → Prop} {left : List Transfer → γ → Prop} {count : Nat} {carried : β}
    (each : ∀ i moved carried, invariant moved carried →
      Moves (body i carried) fun others flow => match flow with
        | .next carried' => invariant (moved ++ others) carried'
        | .exit result => left (moved ++ others) result)
    (holds : invariant [] carried) :
    Moves (forFrom body count 0 carried) fun moved flow => match flow with
      | .next carried' => invariant moved carried'
      | .exit result => left moved result := by
  refine always_mono (fun history flow after => ?_) (@always_forFrom _ _ _ _ body
    (fun history carried => ∃ moved, Transfers history moved ∧ invariant moved carried)
    (fun history result => ∃ moved, Transfers history moved ∧ left moved result)
    count 0 carried ?_ ⟨[], .nil, holds⟩)
  · cases flow <;> exact after
  · rintro i history carried ⟨moved, transfers, kept⟩
    refine always_mono (fun later flow pass => ?_) (each i moved carried kept)
    obtain ⟨others, transfersToo, after⟩ := pass
    cases flow <;> exact ⟨moved ++ others, transfers.append transfersToo, after⟩

/-- After the look at a slot of type `c`, what is moved is moved from or to a worker of that type. -/
theorem moves_of_slotMoves {c : ClientType} {i : Nat} {f : Int → ServerProgram β}
    {post : List Transfer → β → Prop} (rest : ∀ fd, SlotMoves c (f fd) post) :
    Moves (loadFd c i >>= f) post := by
  refine always_bind.mpr (always_request.mpr fun fd => ?_)
  exact always_mono (fun later result holds => ⟨transfers (some c) later, fun _ => rfl, holds⟩) (rest fd)

theorem always_make {call : Call} {post : List ServerEvent → call.Answer → Prop} :
    (Call.make call).Always post ↔ ∀ answer, post [⟨call, answer⟩] answer := always_request

end

def passPins : LoopFlow PinsQueue (Bool × PinsQueue) → PinsQueue
  | .next pinsQ => pinsQ
  | .exit (_, pinsQ) => pinsQ

def Polls (c : ClientType) (pinsQ : PinsQueue) (moved : List Transfer) (pinsQ' : PinsQueue) : Prop :=
  ∃ received : List (Int × Pin), moved = received.map (fun pin => .received c pin.1 pin.2) ∧
    pinsQ'.WellFormed ∧ pinsQ'.contents = pinsQ.contents ++ received.map Prod.snd

def Hands (c : ClientType) (pinsQ : PinsQueue) (moved : List Transfer) (pinsQ' : PinsQueue) : Prop :=
  ∃ handed : List ((Int × Bool) × Pin),
    moved = handed.map (fun pin => .handed c pin.1.1 pin.2 pin.1.2) ∧
      pinsQ'.WellFormed ∧ pinsQ.contents = handed.map Prod.snd ++ pinsQ'.contents

section

variable {c : ClientType} {i : Nat} {pinsQ middle pinsQ' : PinsQueue} {moved others : List Transfer}

theorem Polls.nil (wf : pinsQ.WellFormed) : Polls c pinsQ [] pinsQ := ⟨[], rfl, wf, by simp⟩

theorem Polls.append (first : Polls c pinsQ moved middle) (second : Polls c middle others pinsQ') :
    Polls c pinsQ (moved ++ others) pinsQ' := by
  obtain ⟨received, rfl, -, contents⟩ := first
  obtain ⟨receivedToo, rfl, wf, contentsToo⟩ := second
  exact ⟨received ++ receivedToo, by simp, wf, by simp [contents, contentsToo]⟩

theorem Hands.nil (wf : pinsQ.WellFormed) : Hands c pinsQ [] pinsQ := ⟨[], rfl, wf, by simp⟩

theorem Hands.append (first : Hands c pinsQ moved middle) (second : Hands c middle others pinsQ') :
    Hands c pinsQ (moved ++ others) pinsQ' := by
  obtain ⟨handed, rfl, -, contents⟩ := first
  obtain ⟨handedToo, rfl, wf, contentsToo⟩ := second
  exact ⟨handed ++ handedToo, by simp, wf, by simp [contents, contentsToo]⟩

theorem dropWorker_movesNothing (c : ClientType) (i : Nat) (workerFd : Int) :
    (dropWorker c i workerFd).Calls Call.MovesNothing := by
  refine calls_bind (calls_make True.intro) fun _ => calls_bind (calls_make True.intro) fun _ => ?_
  exact calls_bind (calls_make True.intro) fun _ => calls_make True.intro

theorem slotMoves_dropWorker {workerFd : Int} : SlotMoves c (do
      dropWorker c i workerFd
      return (.next pinsQ : LoopFlow PinsQueue (Bool × PinsQueue)))
    (fun moved flow => moved = [] ∧ passPins flow = pinsQ) :=
  slotMoves_quiet_bind (dropWorker_movesNothing c i workerFd) fun _ => slotMoves_pure ⟨rfl, rfl⟩

theorem slotMoves_handleFailedTransfer {cause : String} {workerFd : Int} :
    SlotMoves c (handleFailedTransfer cause c i workerFd pinsQ)
      (fun moved flow => moved = [] ∧ passPins flow = pinsQ) := by
  unfold handleFailedTransfer
  refine slotMoves_quiet_bind ((handleSocketOpError_calls _).mono fun _ => Call.Plain.movesNothing) ?_
  intro result
  cases result with
  | emptyClientSocket | unknownSocketError => exact slotMoves_pure ⟨rfl, rfl⟩
  | deadClientSocket => exact slotMoves_dropWorker

theorem slotMoves_storeReceivedPin {pin : Pin} (wf : pinsQ.WellFormed) (room : pinsQueueFull pinsQ = false) :
    SlotMoves c (storeReceivedPin c i pin pinsQ) (fun moved flow => moved = [] ∧
      (passPins flow).WellFormed ∧ (passPins flow).contents = pinsQ.contents ++ [pin]) := by
  obtain ⟨full, -⟩ | ⟨-, stored, put, storedWf, contents⟩ := pinsQueueTryPut_spec wf pin
  · rw [room] at full
    cases full
  unfold storeReceivedPin
  rw [put]
  refine slotMoves_quiet_bind (calls_make True.intro) fun info => ?_
  refine slotMoves_quiet_bind ((handleLog_calls _).mono fun _ => Call.Logging.movesNothing) fun _ => ?_
  exact slotMoves_pure ⟨rfl, storedWf, contents⟩

theorem transfers_recv {fd : Int} {size : Nat} {bytes : List UInt8} {later : List ServerEvent}
    (full : bytes.length = sizeofPin) : transfers (some c)
      (⟨.recv fd size, .received bytes⟩ :: later) =
        .received c fd (Pin.ofBytes bytes) :: transfers (some c) later := by
  simp [transfers, transferIn, full, polledAfter]

theorem transfers_shortRecv {fd : Int} {size : Nat} {bytes : List UInt8} {later : List ServerEvent}
    (short : bytes.length ≠ sizeofPin) : transfers (some c)
      (⟨.recv fd size, .received bytes⟩ :: later) = transfers (some c) later := by
  simp [transfers, transferIn, short, polledAfter]

theorem pollWorker_polls (wf : pinsQ.WellFormed) :
    Moves (pollWorker c i pinsQ) fun moved flow => Polls c pinsQ moved (passPins flow) := by
  have unchanged : ∀ moved flow, moved = [] ∧ passPins flow = pinsQ →
      Polls c pinsQ moved (passPins flow) := by
    rintro moved flow ⟨rfl, same⟩
    rw [same]
    exact .nil wf
  unfold pollWorker
  refine moves_quiet_bind (calls_make True.intro) fun size => ?_
  split
  · exact moves_pure (.nil wf)
  rename_i goesOn
  refine moves_of_slotMoves fun workerFd => ?_
  split
  · exact slotMoves_pure (.nil wf)
  refine slotMoves_quiet_bind ((isSocketAlive_calls _).mono fun _ => Call.Plain.movesNothing) fun alive => ?_
  cases alive with
  | false => exact slotMoves_mono unchanged slotMoves_dropWorker
  | true =>
    refine always_bind.mpr (always_make.mpr fun answer => ?_)
    cases answer with
    | failed error => exact slotMoves_mono unchanged slotMoves_handleFailedTransfer
    | received bytes =>
      dsimp only
      split
      · rename_i full
        have room : pinsQueueFull pinsQ = false := by simpa using (not_or.mp goesOn).2
        refine always_mono (fun later flow stored => ?_) (slotMoves_storeReceivedPin wf room)
        obtain ⟨none, storedWf, contents⟩ := stored
        rw [List.singleton_append, transfers_recv full, none]
        exact ⟨[(workerFd, Pin.ofBytes bytes)], rfl, storedWf, contents⟩
      · rename_i short
        refine always_mono (fun later flow same => ?_) slotMoves_handleFailedTransfer
        rw [List.singleton_append, transfers_shortRecv short]
        exact unchanged _ _ same

theorem sendPinToWorker_hands (wf : pinsQ.WellFormed) :
    Moves (sendPinToWorker c i pinsQ) fun moved flow => Hands c pinsQ moved (passPins flow) := by
  unfold sendPinToWorker
  refine moves_quiet_bind (calls_make True.intro) fun size => ?_
  split
  · exact moves_pure (.nil wf)
  rename_i goesOn
  refine moves_of_slotMoves fun workerFd => ?_
  split
  · exact slotMoves_pure (.nil wf)
  refine slotMoves_quiet_bind ((isSocketAlive_calls _).mono fun _ => Call.Plain.movesNothing) fun alive => ?_
  cases alive with
  | false =>
    refine slotMoves_mono ?_ slotMoves_dropWorker
    rintro moved flow ⟨rfl, same⟩
    rw [same]
    exact .nil wf
  | true =>
    obtain ⟨empty, -⟩ | ⟨-, rest, front, popped, restWf, contents⟩ := pinsQueueTryPop_spec wf ⟨0⟩
    · exact absurd (.inr empty) goesOn
    have handed : ∀ fd whole moved flow, moved = [] ∧ passPins flow = rest →
        Hands c pinsQ (.handed c fd front whole :: moved) (passPins flow) := by
      rintro fd whole moved flow ⟨rfl, same⟩
      rw [same]
      exact ⟨[((fd, whole), front)], rfl, restWf, contents⟩
    refine slotMoves_orAbort_bind popped (slotMoves_assert_bind ?_)
    refine always_bind.mpr (always_make.mpr fun answer => ?_)
    refine always_mono (fun later flow same => handed workerFd _ (transfers (some c) later) flow same) ?_
    change SlotMoves c _ fun moved flow => moved = [] ∧ passPins flow = rest
    cases answer with
    | failed error => exact slotMoves_handleFailedTransfer
    | sent size =>
      dsimp only
      split
      · refine slotMoves_quiet_bind (calls_make True.intro) fun info => ?_
        refine slotMoves_quiet_bind ((handleLog_calls _).mono fun _ => Call.Logging.movesNothing) fun _ => ?_
        exact slotMoves_pure ⟨rfl, rfl⟩
      · exact slotMoves_handleFailedTransfer

theorem Polls.wellFormed (polls : Polls c pinsQ moved pinsQ') : pinsQ'.WellFormed := by
  obtain ⟨_, _, wf, _⟩ := polls
  exact wf

theorem Hands.wellFormed (hands : Hands c pinsQ moved pinsQ') : pinsQ'.WellFormed := by
  obtain ⟨_, _, wf, _⟩ := hands
  exact wf

theorem pollWorkers_polls (wf : pinsQ.WellFormed) :
    Moves (pollWorkers c pinsQ) fun moved result => Polls c pinsQ moved result.2 := by
  unfold pollWorkers
  refine moves_bind (@moves_forFrom _ _ (pollWorker c) (fun moved pinsQ' => Polls c pinsQ moved pinsQ')
    (fun moved result => Polls c pinsQ moved result.2) (maxNumberOf c) pinsQ ?_ (.nil wf)) ?_
  · intro i moved carried polls
    refine moves_mono (fun others flow pollsToo => ?_) (pollWorker_polls polls.wellFormed)
    cases flow <;> exact polls.append pollsToo
  · intro moved flow after
    cases flow <;> exact moves_pure (by rwa [List.append_nil])

theorem sendPinsToWorkers_hands (wf : pinsQ.WellFormed) :
    Moves (sendPinsToWorkers c pinsQ) fun moved result => Hands c pinsQ moved result.2 := by
  unfold sendPinsToWorkers
  refine moves_bind (@moves_forFrom _ _ (sendPinToWorker c) (fun moved pinsQ' => Hands c pinsQ moved pinsQ')
    (fun moved result => Hands c pinsQ moved result.2) (maxNumberOf c) pinsQ ?_ (.nil wf)) ?_
  · intro i moved carried hands
    refine moves_mono (fun others flow handsToo => ?_) (sendPinToWorker_hands hands.wellFormed)
    cases flow <;> exact hands.append handsToo
  · intro moved flow after
    cases flow <;> exact moves_pure (by rwa [List.append_nil])

end

section

variable {pins1To2 pins2To3 : PinsQueue}

theorem mutexWrappers_movesNothing (c : ClientType) :
    (serverLockMutexOf c).Calls Call.MovesNothing ∧ (serverUnlockMutexOf c).Calls Call.MovesNothing :=
  mutexWrappers_calls (fun _ => True.intro) (fun _ => True.intro) (fun _ => Call.Plain.movesNothing) c

theorem firstStage_polls (wf : pins1To2.WellFormed) :
    Moves (nonblockingPollWorkersOnTheFirstStage pins1To2)
      fun moved result => Polls .firstStageWorkerClient pins1To2 moved result.2 := by
  unfold nonblockingPollWorkersOnTheFirstStage
  refine moves_quiet_bind (calls_make True.intro) fun size => ?_
  split
  · exact moves_pure (.nil wf)
  refine moves_quiet_bind (mutexWrappers_movesNothing .firstStageWorkerClient).1 fun locked => ?_
  cases locked with
  | false => exact moves_pure (.nil wf)
  | true =>
    refine moves_bind (pollWorkers_polls wf) fun moved (res, pins1To2) polls => ?_
    refine moves_quiet_bind (mutexWrappers_movesNothing .firstStageWorkerClient).2 fun unlocked => ?_
    cases unlocked <;> exact moves_pure (by rwa [List.append_nil])

theorem secondStage_hands_polls (wf : pins1To2.WellFormed) (wf' : pins2To3.WellFormed) :
    Moves (nonblockingPollWorkersOnTheSecondStage pins1To2 pins2To3) fun moved result =>
      ∃ handed received, moved = handed ++ received ∧
        Hands .secondStageWorkerClient pins1To2 handed result.2.1 ∧
        Polls .secondStageWorkerClient pins2To3 received result.2.2 := by
  unfold nonblockingPollWorkersOnTheSecondStage
  refine moves_quiet_bind (calls_make True.intro) fun size => ?_
  split
  · exact moves_pure ⟨[], [], rfl, .nil wf, .nil wf'⟩
  refine moves_quiet_bind (mutexWrappers_movesNothing .secondStageWorkerClient).1 fun locked => ?_
  cases locked with
  | false => exact moves_pure ⟨[], [], rfl, .nil wf, .nil wf'⟩
  | true =>
    refine moves_bind (sendPinsToWorkers_hands wf) fun handed (res, pins1To2') hands => ?_
    have ending : ∀ received pins2To3', Polls .secondStageWorkerClient pins2To3 received pins2To3' →
        Moves (do
          if !(← serverUnlockSecondMutex) then return (false, pins1To2', pins2To3')
          return (res, pins1To2', pins2To3')) (fun others result => ∃ handed' received',
            handed ++ (received ++ others) = handed' ++ received' ∧
            Hands .secondStageWorkerClient pins1To2 handed' result.2.1 ∧
            Polls .secondStageWorkerClient pins2To3 received' result.2.2) := by
      intro received pins2To3' polls
      refine moves_quiet_bind (mutexWrappers_movesNothing .secondStageWorkerClient).2
        fun unlocked => ?_
      cases unlocked <;> exact moves_pure ⟨handed, received, by rw [List.append_nil], hands, polls⟩
    cases res with
    | false => exact ending [] pins2To3 (.nil wf')
    | true => exact moves_bind (pollWorkers_polls wf') fun received (_, pins2To3') polls =>
        ending received pins2To3' polls

theorem thirdStage_hands (wf : pins2To3.WellFormed) :
    Moves (nonblockingPollWorkersOnTheThirdStage pins2To3)
      fun moved result => Hands .thirdStageWorkerClient pins2To3 moved result.2 := by
  unfold nonblockingPollWorkersOnTheThirdStage
  refine moves_quiet_bind (calls_make True.intro) fun size => ?_
  split
  · exact moves_pure (.nil wf)
  refine moves_quiet_bind (mutexWrappers_movesNothing .thirdStageWorkerClient).1 fun locked => ?_
  cases locked with
  | false => exact moves_pure (.nil wf)
  | true =>
    refine moves_bind (sendPinsToWorkers_hands wf) fun moved (res, pins2To3) hands => ?_
    refine moves_quiet_bind (mutexWrappers_movesNothing .thirdStageWorkerClient).2 fun unlocked => ?_
    cases unlocked <;> exact moves_pure (by rwa [List.append_nil])

end

end ArchCompSystems.OsIhw3
