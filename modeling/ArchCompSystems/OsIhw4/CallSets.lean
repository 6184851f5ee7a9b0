import ArchCompSystems.Library.Monitor
import ArchCompSystems.OsIhw4.ClientTools

namespace ArchCompSystems.OsIhw4

open Library Library.Program

namespace Call

def isLogging : Call → Prop
  | .queue _ | .abort _ => True
  | _ => False

def isAsking : Call → Prop
  | .getnameinfo _ _ => True
  | _ => False

def isStopCheck : Call → Prop
  | .getsockopt | .recv true _ | .errno | .abort _ | .goesOn => True
  | _ => False

def isReceiving : Call → Prop
  | .recv false false | .errno | .goesOn => True
  | _ => False

def isWorking : Call → Prop
  | .sendto bytes => bytes.length = udpMessageSize ∧ ((UDPMessage.ofBytes bytes).messageType = messageTypeNewClient ∨
      (UDPMessage.ofBytes bytes).messageType = messageTypePinTransferring)
  | .bindSocket | .getsockopt | .recv _ _ | .errno | .abort _ | .goesOn | .receiveNewPin | .checkPinCrookness _
  | .sharpenPin _ | .checkSharpenedPinQuality _ => True
  | _ => False

def isManaging : Call → Prop
  | .sendto _ | .nextUint _ _ | .handleServerResponse _ => True
  | c => c.isWorking

def isPausing : Call → Prop
  | .isRunning _ | .nanosleep | .stopAllThreads | .goesOn => True
  | _ => False

end Call

variable {allowed : Call → Prop}

theorem onQueue_calls {α : Type} {p : BufferProgram OsIhw3.ServerLog α} (calls : p.Calls fun c => allowed (.queue c)) :
    (onQueue p).Calls allowed := by
  induction p with
  | done value => exact True.intro
  | call c next ih => exact ⟨calls.1, fun answer => ih answer (calls.2 answer)⟩

theorem calls_onQueue {α : Type} (queue : ∀ c, allowed (.queue c)) (p : BufferProgram OsIhw3.ServerLog α) :
    (onQueue p).Calls allowed := by
  induction p with
  | done value => exact True.intro
  | call c next ih => exact ⟨queue c, ih⟩

theorem calls_assert (abort : ∀ assertion, allowed (.abort assertion)) (holds : Bool) (assertion : String) :
    (assert holds assertion).Calls allowed := by
  cases holds with
  | true => exact True.intro
  | false => exact ⟨abort assertion, fun answer => answer.elim⟩

theorem calls_loop {β γ : Type} (cutOff : allowed .goesOn) {round : β → NetProgram (LoopFlow β γ)}
    (each : ∀ carried, (round carried).Calls allowed) (rounds : Nat) (start : β) :
    (loop rounds start round).Calls allowed := by
  refine calls_bind (calls_forFrom (fun _ => each) rounds 0 start) fun flow => ?_
  cases flow with
  | next carried => exact ⟨cutOff, fun answer => answer.elim⟩
  | exit result => exact True.intro

theorem handleLog_calls (text : String) : (handleLog text).Calls Call.isLogging := by
  unfold handleLog nonblockingEnqueueLog
  refine calls_bind (calls_assert (fun _ => True.intro) _ _) fun _ => ?_
  exact calls_bind (calls_assert (fun _ => True.intro) _ _) fun _ => calls_onQueue (fun _ => True.intro) _

theorem dequeueLog_calls : dequeueLog.Calls Call.isLogging := calls_onQueue (fun _ => True.intro) _

theorem sendMessage_calls (message : UDPMessage) : (sendMessage message).Calls (· = .sendto message.bytes) :=
  (calls_request _ _).mpr rfl

theorem fillClientMetainfo_calls (clientAddr : SockaddrIn) : (fillClientMetainfo clientAddr).Calls Call.isAsking := by
  have names : ∀ numeric, (clientNames clientAddr numeric).Calls Call.isAsking := fun numeric =>
    calls_bind ((calls_request _ _).mpr True.intro) fun answer => by cases answer <;> exact True.intro
  exact calls_bind (names false) fun _ => calls_bind (names true) fun _ => True.intro

theorem clientHandleErrno_calls (errno : allowed .errno) : clientHandleErrno.Calls allowed :=
  calls_bind ((calls_request _ _).mpr errno) fun error => by cases error <;> exact True.intro

theorem recvMessage_calls {dontWait peek : Bool} (recv : allowed (.recv dontWait peek)) (message : List UInt8) :
    (recvMessage dontWait peek message).Calls allowed :=
  calls_bind ((calls_request _ _).mpr recv) fun answer => by cases answer <;> exact True.intro

theorem skipMessagesNotFromTheServer_calls (rounds : Nat) (type : ComponentType) (message : List UInt8) :
    (skipMessagesNotFromTheServer rounds type message).Calls Call.isStopCheck := by
  refine calls_loop True.intro (fun message => ?_) rounds message
  refine calls_bind (recvMessage_calls True.intro _) fun (bytesRead, message) => ?_
  dsimp only
  split
  · refine calls_bind ((calls_request _ _).mpr True.intro) fun errnoVal => ?_
    split
    · exact True.intro
    · exact calls_bind (clientHandleErrno_calls True.intro) fun _ => True.intro
  · split
    · exact True.intro
    · refine calls_bind (recvMessage_calls True.intro _) fun (bytesRead, message) => ?_
      dsimp only
      split
      · exact calls_bind (clientHandleErrno_calls True.intro) fun _ => True.intro
      · exact True.intro

theorem isSocketAlive_calls : isSocketAlive.Calls Call.isStopCheck :=
  calls_bind ((calls_request _ _).mpr True.intro) fun answer => by cases answer <;> exact True.intro

theorem clientShouldStop_calls (rounds : Nat) (type : ComponentType) :
    (clientShouldStop rounds type).Calls Call.isStopCheck := by
  refine calls_bind isSocketAlive_calls fun alive => ?_
  split
  · exact True.intro
  · refine calls_bind (skipMessagesNotFromTheServer_calls rounds type _) fun skipped => ?_
    split
    · refine calls_bind (calls_assert (fun _ => True.intro) _ _) fun _ => ?_
      exact calls_bind (calls_assert (fun _ => True.intro) _ _) fun _ => True.intro
    · exact True.intro
    · exact calls_bind (calls_assert (fun _ => True.intro) _ _) fun _ => True.intro

theorem receiveData_calls (rounds : Nat) (type : ComponentType) (message : List UInt8) (expected : MessageType) :
    (receiveData rounds type message expected).Calls Call.isReceiving := by
  refine calls_loop True.intro (fun message => ?_) rounds message
  refine calls_bind (recvMessage_calls True.intro _) fun (readBytes, message) => ?_
  dsimp only
  split
  · exact True.intro
  · split
    · exact calls_bind (clientHandleErrno_calls True.intro) fun _ => True.intro
    · split
      · exact True.intro
      · split <;> exact True.intro

theorem isWorking_of_isStopCheck (c : Call) (check : c.isStopCheck) : c.isWorking := by
  cases c <;> first | exact True.intro | exact check.elim

theorem isWorking_of_isReceiving (c : Call) (receiving : c.isReceiving) : c.isWorking := by
  cases c <;> first | exact True.intro | exact receiving.elim

theorem sendMessage_working {message : UDPMessage} (type : message.messageType = messageTypeNewClient ∨
    message.messageType = messageTypePinTransferring) : (sendMessage message).Calls Call.isWorking := by
  refine (sendMessage_calls message).mono ?_
  rintro _ rfl
  refine ⟨message.length_bytes, ?_⟩
  rwa [UDPMessage.messageType_ofBytes_bytes]

theorem initClient_working (type : ComponentType) : (initClient type).Calls Call.isWorking := by
  refine calls_bind ((calls_request _ _).mpr True.intro) fun bound => ?_
  cases bound with
  | false => exact True.intro
  | true => exact sendMessage_working (.inl rfl)

theorem clientShouldStop_working (rounds : Nat) (type : ComponentType) :
    (clientShouldStop rounds type).Calls Call.isWorking :=
  (clientShouldStop_calls rounds type).mono isWorking_of_isStopCheck

theorem receiveData_working (rounds : Nat) (type : ComponentType) (message : List UInt8) (expected : MessageType) :
    (receiveData rounds type message expected).Calls Call.isWorking :=
  (receiveData_calls rounds type message expected).mono isWorking_of_isReceiving

theorem receivePin_working (rounds : Nat) (worker : ComponentType) : (receivePin rounds worker).Calls Call.isWorking :=
  calls_bind (receiveData_working ..) fun _ => True.intro

theorem sendPin_working (worker : ComponentType) (pin : Pin) : (sendPin worker pin).Calls Call.isWorking :=
  sendMessage_working (.inr rfl)

theorem runClient_working {type : ComponentType} {round : NetProgram (LoopFlow Unit ExitCode)} (rounds : Nat)
    (each : round.Calls Call.isWorking) :
    (runClient type (untilClientShouldStop rounds type round)).Calls Call.isWorking := by
  refine calls_bind (initClient_working type) fun initialised => ?_
  cases initialised with
  | false => exact True.intro
  | true =>
    refine calls_loop True.intro (fun _ => calls_bind (clientShouldStop_working rounds type) fun stop => ?_) rounds ()
    cases stop with
    | true => exact True.intro
    | false => exact each

theorem firstWorker_working (rounds : Nat) : (FirstWorker.runWorker rounds).Calls Call.isWorking := by
  refine runClient_working rounds ?_
  refine calls_bind ((calls_request _ _).mpr True.intro) fun pin => calls_bind ((calls_request _ _).mpr True.intro) fun isOk => ?_
  cases isOk with
  | false => exact True.intro
  | true =>
    refine calls_bind (clientShouldStop_working rounds _) fun stop => ?_
    cases stop with
    | true => exact True.intro
    | false => exact calls_bind (sendPin_working _ pin) fun sent => by cases sent <;> exact True.intro

theorem secondWorker_working (rounds : Nat) : (SecondWorker.runWorker rounds).Calls Call.isWorking := by
  refine runClient_working rounds (calls_bind (receivePin_working rounds _) fun (received, pin) => ?_)
  cases received with
  | false => exact True.intro
  | true =>
    refine calls_bind ((calls_request _ _).mpr True.intro) fun _ => ?_
    refine calls_bind (clientShouldStop_working rounds _) fun stop => ?_
    cases stop with
    | true => exact True.intro
    | false => exact calls_bind (sendPin_working _ pin) fun sent => by cases sent <;> exact True.intro

theorem thirdWorker_working (rounds : Nat) : (ThirdWorker.runWorker rounds).Calls Call.isWorking := by
  refine runClient_working rounds (calls_bind (receivePin_working rounds _) fun (received, pin) => ?_)
  cases received with
  | false => exact True.intro
  | true => exact calls_bind ((calls_request _ _).mpr True.intro) fun _ => True.intro

theorem logsCollector_working (rounds : Nat) : (LogsCollector.runLogsCollector rounds).Calls Call.isWorking := by
  refine runClient_working rounds (calls_bind ?_ fun (received, _) => by cases received <;> exact True.intro)
  refine calls_bind (calls_assert (fun _ => True.intro) _ _) fun _ => ?_
  exact calls_bind (receiveData_working ..) fun _ => True.intro

theorem isManaging_of_isWorking (c : Call) (working : c.isWorking) : c.isManaging := by
  cases c <;> first | exact True.intro | exact working

theorem manager_managing (rounds : Nat) : (Manager.runManager rounds).Calls Call.isManaging := by
  refine calls_bind ((initClient_working _).mono isManaging_of_isWorking) fun initialised => ?_
  cases initialised with
  | false => exact True.intro
  | true =>
    refine calls_loop True.intro (fun _ => ?_) rounds ()
    refine calls_bind ((clientShouldStop_working rounds _).mono isManaging_of_isWorking) fun stop => ?_
    cases stop with
    | true => exact True.intro
    | false =>
      refine calls_bind (calls_bind ((calls_request _ _).mpr True.intro) fun _ => True.intro) fun goOn => ?_
      cases goOn with
      | false => exact True.intro
      | true =>
        refine calls_bind ((calls_request _ _).mpr True.intro) fun bit => calls_bind ?_ fun resp => ?_
        · refine calls_bind (calls_assert (fun _ => True.intro) _ _) fun _ => ?_
          refine calls_bind ((calls_request _ _).mpr True.intro) fun sent => ?_
          cases sent with
          | false => exact True.intro
          | true =>
            refine calls_bind ((receiveData_working ..).mono isManaging_of_isWorking) fun (res, message) => ?_
            cases res with
            | false => exact True.intro
            | true => exact calls_bind (calls_assert (fun _ => True.intro) _ _) fun _ => True.intro
        · refine calls_bind (calls_bind ((calls_request _ _).mpr True.intro) fun _ => True.intro) fun goOn => ?_
          cases goOn <;> exact True.intro

def FlowKeeps {β γ μ : Type} (invariant : β → μ → Prop) (left : γ → μ → Prop) : LoopFlow β γ → μ → Prop
  | .next carried, m => invariant carried m
  | .exit result, m => left result m

theorem obeys_loop {β γ μ : Type} {P : Monitor Call Call.Answer μ} {round : β → NetProgram (LoopFlow β γ)}
    {left : γ → μ → Prop} {rounds : Nat} {start : β} {m : μ} (invariant : β → μ → Prop)
    (cutOff : ∀ m, P.allowed m .goesOn) (holds : invariant start m)
    (each : ∀ carried m, invariant carried m → P.Obeys (FlowKeeps invariant left) (round carried) m) :
    P.Obeys left (loop rounds start round) m := by
  have looped := @Monitor.obeys_forFrom _ _ _ _ _ P m (fun _ => round) (fun _ => invariant) left rounds 0 start
    (fun _ carried m kept => Monitor.obeys_mono (fun flow _ after => by cases flow <;> exact after)
      (each carried m kept)) holds
  refine Monitor.obeys_bind.mpr (Monitor.obeys_mono (fun flow m' after => ?_) looped)
  cases flow with
  | next carried => exact ⟨cutOff m', fun answer => answer.elim⟩
  | exit result => exact after

theorem obeys_whileRunning {μ : Type} {P : Monitor Call Call.Answer μ} {thread : ServerThread} {round : NetProgram Bool}
    {m : μ} (rounds : Nat) (invariant : μ → Prop) (holds : invariant m)
    (pause : ∀ m c, c.isPausing → invariant m → P.allowed m c ∧ ∀ answer, P.possible m c answer → invariant (P.after m c answer))
    (each : ∀ m, invariant m → P.Obeys (fun _ => invariant) round m) :
    P.Obeys (fun _ => invariant) (whileRunning thread rounds round) m := by
  have looped := @Monitor.obeys_forFrom _ _ _ _ _ P m (fun _ (_ : Unit) => do
      if !(← Call.make (.isRunning thread)) then return .exit ()
      if !(← round) then return .exit ()
      if !(← Call.nanosleep.make) then return .exit ()
      return .next ()) (fun _ _ => invariant) (fun () => invariant) rounds 0 () (fun _ _ m kept => ?_) holds
  · refine Monitor.obeys_bind.mpr (Monitor.obeys_mono (fun flow m' after => ?_) looped)
    cases flow with
    | next carried => exact ⟨(pause m' .goesOn True.intro after).1, fun answer => answer.elim⟩
    | exit result => exact pause m' .stopAllThreads True.intro after
  · obtain ⟨asks, stays⟩ := pause m (.isRunning thread) True.intro kept
    refine Monitor.obeys_call asks fun isRunning possible => ?_
    cases isRunning with
    | false => exact stays false possible
    | true =>
      refine Monitor.obeys_bind.mpr (Monitor.obeys_mono (fun ok m' after => ?_) (each _ (stays true possible)))
      cases ok with
      | false => exact after
      | true =>
        obtain ⟨sleeps, stays⟩ := pause m' .nanosleep True.intro after
        refine Monitor.obeys_call sleeps fun slept possible => ?_
        cases slept <;> exact stays _ possible

end ArchCompSystems.OsIhw4
