import ArchCompSystems.OsIhw4.CallSets
import ArchCompSystems.OsIhw4.System

namespace ArchCompSystems.OsIhw4

open Library Library.Program

def anyDelivery : Network (List (List UInt8)) where
  bindSocket _ network := network
  send _ bytes network := network ++ [bytes]
  receive _ _ bytes network := if bytes ∈ network then some network else none

abbrev AnyDeliveryPool := Pool Process Call Call.Answer (SystemState (List (List UInt8)))

abbrev AnyDeliveryReach (rounds : Nat) : AnyDeliveryPool → Prop :=
  Pool.Reach (systemMachine anyDelivery) (fun _ _ => True) (systemPool rounds [])

def Approved (history : List NetEvent) (pin : Pin) : Prop :=
  [⟨.receiveNewPin, pin⟩, ⟨.checkPinCrookness pin, true⟩] <:+: history

def Sharpened (history : List NetEvent) (pin : Pin) : Prop := ⟨.sharpenPin pin, ()⟩ ∈ history

/-- No worker is about to work on a pin that has not passed the stages before. -/
structure StagesKept (pool : AnyDeliveryPool) : Prop where
  checked : ∀ i pin next, pool.programs (.client .thirdWorker i) = .call (.checkSharpenedPinQuality pin) next →
    ∃ j, Sharpened (pool.history (.client .secondWorker j)) pin
  sharpened : ∀ i pin next, pool.programs (.client .secondWorker i) = .call (.sharpenPin pin) next →
    ∃ j, Approved (pool.history (.client .firstWorker j)) pin

/-- The datagram that an event brings. -/
def datagram : NetEvent → Option (List UInt8)
  | ⟨.recvfrom, .received bytes _ _⟩ => some bytes
  | ⟨.recv _ _, .received bytes⟩ => some bytes
  | _ => none

def ReceivedIn (history : List NetEvent) (bytes : List UInt8) : Prop := ∃ event ∈ history, datagram event = some bytes

def ReceivedPin (history : List NetEvent) (type : ComponentType) (pin : Pin) : Prop :=
  ∃ bytes, ReceivedIn history bytes ∧ (UDPMessage.ofBytes bytes).messageType = messageTypePinTransferring ∧
    includesClient (.ofBytes bytes) type = true ∧ (UDPMessage.ofBytes bytes).pin = pin

def ReceivedPinFrom (history : List NetEvent) (sender : ComponentType) (pin : Pin) : Prop :=
  ∃ bytes, ReceivedIn history bytes ∧ (UDPMessage.ofBytes bytes).messageType = messageTypePinTransferring ∧
    (UDPMessage.ofBytes bytes).receiverType = componentTypeServer ∧ (UDPMessage.ofBytes bytes).senderType = sender ∧
    (UDPMessage.ofBytes bytes).pin = pin

def Backed (p : Process) (history : List NetEvent) (sender receiver : ComponentType) (pin : Pin) : Prop :=
  match p with
  | .client .firstWorker _ =>
    sender = componentTypeFirstStageWorker ∧ receiver = componentTypeServer ∧ Approved history pin
  | .client .secondWorker _ =>
    sender = componentTypeSecondStageWorker ∧ receiver = componentTypeServer ∧ Sharpened history pin
  | .server _ => sender = componentTypeServer ∧
    (receiver = componentTypeSecondStageWorker ∧ ReceivedPinFrom history componentTypeFirstStageWorker pin ∨
      receiver = componentTypeThirdStageWorker ∧ ReceivedPinFrom history componentTypeSecondStageWorker pin)
  | _ => False

def Call.isPinless : Call → Prop
  | .sendto bytes => bytes.length = udpMessageSize ∧ (UDPMessage.ofBytes bytes).messageType ≠ messageTypePinTransferring
  | .sharpenPin _ | .checkSharpenedPinQuality _ => False
  | _ => True

def PinAllowed (p : Process) (history : List NetEvent) : Call → Prop
  | .sendto bytes => bytes.length = udpMessageSize ∧
    ((UDPMessage.ofBytes bytes).messageType = messageTypePinTransferring → Backed p history
      (UDPMessage.ofBytes bytes).senderType (UDPMessage.ofBytes bytes).receiverType (UDPMessage.ofBytes bytes).pin)
  | .sharpenPin pin => ReceivedPin history componentTypeSecondStageWorker pin
  | .checkSharpenedPinQuality pin => ReceivedPin history componentTypeThirdStageWorker pin
  | _ => True

def WholeDatagram (c : Call) (answer : c.Answer) : Prop := ∀ bytes, datagram ⟨c, answer⟩ = some bytes → bytes.length = udpMessageSize

def pinMonitor (p : Process) : Monitor Call Call.Answer (List NetEvent) := .recording (PinAllowed p) WholeDatagram

section

variable {p : Process} {history later : List NetEvent} {pin : Pin}

theorem ReceivedIn.mono {bytes : List UInt8} (received : ReceivedIn history bytes) (longer : history <+: later) :
    ReceivedIn later bytes :=
  received.imp fun _ ⟨member, brings⟩ => ⟨longer.subset member, brings⟩

theorem Approved.mono (approved : Approved history pin) (longer : history <+: later) : Approved later pin :=
  approved.trans longer.isInfix

theorem Sharpened.mono (sharpened : Sharpened history pin) (longer : history <+: later) : Sharpened later pin :=
  longer.subset sharpened

theorem ReceivedPinFrom.mono {sender : ComponentType} (received : ReceivedPinFrom history sender pin)
    (longer : history <+: later) : ReceivedPinFrom later sender pin :=
  received.imp fun _ ⟨member, rest⟩ => ⟨member.mono longer, rest⟩

theorem pinAllowed_of_isPinless {c : Call} (pinless : c.isPinless) : PinAllowed p history c := by
  cases c with
  | sendto bytes => exact ⟨pinless.1, fun isPin => absurd isPin pinless.2⟩
  | sharpenPin pin | checkSharpenedPinQuality pin => exact pinless.elim
  | _ => exact True.intro

theorem obeys_of_isPinless {α : Type} {program : NetProgram α} (calls : program.Calls Call.isPinless) :
    (pinMonitor p).Obeys (fun _ after => history <+: after) program history :=
  Monitor.obeys_recording_of_calls (fun _ _ => pinAllowed_of_isPinless) calls

theorem Call.isPinless_of_isStopCheck (c : Call) (check : c.isStopCheck) : c.isPinless := by
  cases c <;> first | exact True.intro | exact check.elim

theorem Call.isPinless_of_isLogging (c : Call) (logging : c.isLogging) : c.isPinless := by
  cases c <;> first | exact True.intro | exact logging.elim

theorem Call.isPinless_of_isAsking (c : Call) (asking : c.isAsking) : c.isPinless := by
  cases c <;> first | exact True.intro | exact asking.elim

theorem Call.isPinless_of_isReceiving (c : Call) (receiving : c.isReceiving) : c.isPinless := by
  cases c <;> first | exact True.intro | exact receiving.elim

theorem sendMessage_pinless {message : UDPMessage} (other : message.messageType ≠ messageTypePinTransferring) :
    (sendMessage message).Calls Call.isPinless := by
  refine (sendMessage_calls message).mono ?_
  rintro _ rfl
  refine ⟨message.length_bytes, ?_⟩
  rwa [UDPMessage.messageType_ofBytes_bytes]

theorem clientShouldStop_pinless (rounds : Nat) (type : ComponentType) :
    (clientShouldStop rounds type).Calls Call.isPinless :=
  (clientShouldStop_calls rounds type).mono Call.isPinless_of_isStopCheck

theorem initClient_pinless (type : ComponentType) : (initClient type).Calls Call.isPinless := by
  refine calls_bind ((calls_request _ _).mpr True.intro) fun bound => ?_
  cases bound with
  | false => exact True.intro
  | true =>
    have other : messageTypeNewClient ≠ messageTypePinTransferring := by decide
    exact sendMessage_pinless other

def Fitting (before : List NetEvent) (message : List UInt8) (after : List NetEvent) : Prop :=
  before <+: after ∧ message.length ≤ udpMessageSize

/-- What a message holds after a call of `recv`: what it held before, or a whole datagram. -/
theorem recvMessage_obeys {message : List UInt8} (fits : message.length ≤ udpMessageSize) :
    (pinMonitor p).Obeys (fun (readBytes, message) after => Fitting history message after ∧
      (readBytes = -1 ∨ ReceivedIn after message)) (recvMessage false false message) history := by
  refine Monitor.obeys_call True.intro fun answer whole => ?_
  cases answer with
  | failed error => exact ⟨⟨List.prefix_append .., fits⟩, .inl rfl⟩
  | received bytes =>
    have size : bytes.length = udpMessageSize := whole bytes rfl
    have all : bytes ++ message.drop bytes.length = bytes := by
      rw [List.drop_of_length_le (by omega), List.append_nil]
    refine ⟨⟨List.prefix_append .., ?_⟩, .inr ?_⟩
    · rw [all]
      omega
    · rw [all]
      exact ⟨_, List.mem_append_right _ (List.mem_singleton_self _), rfl⟩

/-- What `receive_data` leaves when it was successful. -/
def Expected (before : List NetEvent) (type : ComponentType) (expectedMessageType : MessageType)
    (result : Bool × List UInt8) (after : List NetEvent) : Prop :=
  before <+: after ∧ (result.1 = true → ReceivedIn after result.2 ∧
    (UDPMessage.ofBytes result.2).messageType = expectedMessageType ∧ includesClient (.ofBytes result.2) type = true)

theorem untilExpected_keeps (type : ComponentType) (expected : MessageType) {message : List UInt8}
    (fitting : Fitting history message later) (received : ReceivedIn later message) :
    FlowKeeps (Fitting history) (Expected history type expected) (untilExpected type expected message) later := by
  unfold untilExpected
  split
  · exact fitting
  · rename_i taken
    obtain ⟨isExpected, included⟩ := not_or.mp taken
    exact ⟨fitting.1, fun _ => ⟨received, not_not.mp isExpected, eq_true_of_ne_false included⟩⟩

theorem receiveData_obeys (rounds : Nat) (type : ComponentType) {message : List UInt8} (expected : MessageType)
    (fits : message.length ≤ udpMessageSize) :
    (pinMonitor p).Obeys (Expected history type expected) (receiveData rounds type message expected) history := by
  refine obeys_loop (Fitting history) (fun _ => True.intro) ⟨List.prefix_rfl, fits⟩ fun message middle ⟨longer, fits⟩ => ?_
  refine Monitor.obeys_bind.mpr (Monitor.obeys_mono ?_ (recvMessage_obeys fits))
  rintro ⟨readBytes, message⟩ after ⟨⟨later, fits⟩, read⟩
  have kept : history <+: after := longer.trans later
  have failed : (pinMonitor p).Obeys (FlowKeeps (Fitting history) (Expected history type expected))
      (clientHandleErrno >>= fun _ => pure (.exit (false, message))) after := by
    have calls : clientHandleErrno.Calls Call.isPinless := clientHandleErrno_calls True.intro
    refine Monitor.obeys_bind.mpr (Monitor.obeys_mono ?_ (obeys_of_isPinless calls))
    exact fun _ last longest => ⟨kept.trans longest, nofun⟩
  rcases read with rfl | received
  · exact failed
  · have goesOn := untilExpected_keeps type expected ⟨kept, fits⟩ received
    dsimp only
    split
    · exact goesOn
    · split
      · exact failed
      · split
        · exact goesOn
        · split
          · exact ⟨kept, nofun⟩
          · exact goesOn

theorem receivePin_obeys (rounds : Nat) (worker : ComponentType) :
    (pinMonitor p).Obeys (fun (res, pin) after => history <+: after ∧ (res = true → ReceivedPin after worker pin))
      (receivePin rounds worker) history := by
  refine Monitor.obeys_bind.mpr (Monitor.obeys_mono ?_ (receiveData_obeys rounds worker _ (List.length_replicate ..).le))
  rintro ⟨res, message⟩ after ⟨longer, expected⟩
  refine ⟨longer, fun received => ?_⟩
  obtain ⟨there, isPin, included⟩ := expected received
  exact ⟨message, there, isPin, included, rfl⟩

theorem pin_ofBytes_pinMessage (sender receiver : ComponentType) (pin : Pin) :
    (UDPMessage.ofBytes (pinMessage sender receiver pin).bytes).pin = pin := by
  rw [UDPMessage.pin, pinMessage, UDPMessage.wordAt_content]

theorem sendPinMessage_obeys {sender receiver : ComponentType} (backed : Backed p history sender receiver pin) :
    (pinMonitor p).Obeys (fun _ after => history <+: after) (sendMessage (pinMessage sender receiver pin)) history := by
  refine ⟨⟨UDPMessage.length_bytes _, fun _ => ?_⟩, fun answer _ => List.prefix_append ..⟩
  rw [pin_ofBytes_pinMessage, UDPMessage.senderType_ofBytes_bytes, UDPMessage.receiverType_ofBytes_bytes]
  exact backed

def KeepsPins {α : Type} (p : Process) (program : NetProgram α) : Prop :=
  ∀ history, (pinMonitor p).Obeys (fun _ _ => True) program history

theorem keepsPins_of_isPinless {α : Type} {program : NetProgram α} (calls : program.Calls Call.isPinless) :
    KeepsPins p program := fun _ => Monitor.obeys_mono (fun _ _ _ => True.intro) (obeys_of_isPinless calls)

theorem KeepsPins.bind {α β : Type} {program : NetProgram α} {f : α → NetProgram β} (first : KeepsPins p program)
    (rest : ∀ value, KeepsPins p (f value)) : KeepsPins p (program >>= f) := fun history =>
  Monitor.obeys_bind.mpr (Monitor.obeys_mono (fun value after _ => rest value after) (first history))

theorem runClient_keepsPins {type : ComponentType} {round : NetProgram (LoopFlow Unit ExitCode)} (rounds : Nat)
    (each : KeepsPins p round) : KeepsPins p (runClient type (untilClientShouldStop rounds type round)) := by
  refine (keepsPins_of_isPinless (initClient_pinless type)).bind fun initialised => ?_
  cases initialised with
  | false => exact fun _ => True.intro
  | true =>
    refine fun history => obeys_loop (fun _ _ => True) (fun _ => True.intro) True.intro fun _ middle _ => ?_
    refine Monitor.obeys_bind.mpr (Monitor.obeys_mono ?_ (obeys_of_isPinless (clientShouldStop_pinless rounds type)))
    intro stop after _
    cases stop with
    | true => exact True.intro
    | false => exact Monitor.obeys_mono (fun flow _ _ => by cases flow <;> exact True.intro) (each after)

theorem firstWorker_keepsPins (rounds i : Nat) :
    KeepsPins (.client .firstWorker i) (FirstWorker.runWorker rounds) := by
  refine runClient_keepsPins rounds fun history => ?_
  refine Monitor.obeys_call True.intro fun pin _ => Monitor.obeys_call True.intro fun isOk _ => ?_
  cases isOk with
  | false => exact True.intro
  | true =>
    refine Monitor.obeys_bind.mpr (Monitor.obeys_mono ?_ (obeys_of_isPinless (clientShouldStop_pinless rounds _)))
    intro stop after longer
    cases stop with
    | true => exact True.intro
    | false =>
      have approved : Approved after pin := by
        refine List.IsInfix.trans ?_ longer.isInfix
        exact ⟨history, [], by simp [pinMonitor, Monitor.recording]⟩
      refine Monitor.obeys_bind.mpr (Monitor.obeys_mono ?_ (sendPinMessage_obeys ⟨rfl, rfl, approved⟩))
      intro sent last _
      cases sent <;> exact True.intro

theorem secondWorker_keepsPins (rounds i : Nat) :
    KeepsPins (.client .secondWorker i) (SecondWorker.runWorker rounds) := by
  refine runClient_keepsPins rounds fun history => ?_
  refine Monitor.obeys_bind.mpr (Monitor.obeys_mono ?_ (receivePin_obeys rounds componentTypeSecondStageWorker))
  rintro ⟨received, pin⟩ after ⟨-, known⟩
  cases received with
  | false => exact True.intro
  | true =>
    refine Monitor.obeys_call (known rfl) fun _ _ => ?_
    refine Monitor.obeys_bind.mpr (Monitor.obeys_mono ?_ (obeys_of_isPinless (clientShouldStop_pinless rounds _)))
    intro stop last longer
    cases stop with
    | true => exact True.intro
    | false =>
      have sharpened : Sharpened last pin := longer.subset (List.mem_append_right _ (List.mem_singleton_self _))
      refine Monitor.obeys_bind.mpr (Monitor.obeys_mono ?_ (sendPinMessage_obeys ⟨rfl, rfl, sharpened⟩))
      intro sent last _
      cases sent <;> exact True.intro

theorem thirdWorker_keepsPins (rounds i : Nat) :
    KeepsPins (.client .thirdWorker i) (ThirdWorker.runWorker rounds) := by
  refine runClient_keepsPins rounds fun history => ?_
  refine Monitor.obeys_bind.mpr (Monitor.obeys_mono ?_ (receivePin_obeys rounds componentTypeThirdStageWorker))
  rintro ⟨received, pin⟩ after ⟨-, known⟩
  cases received with
  | false => exact True.intro
  | true => exact Monitor.obeys_call (known rfl) fun _ _ => True.intro

theorem receiveData_pinless (rounds : Nat) (type : ComponentType) (message : List UInt8) (expected : MessageType) :
    (receiveData rounds type message expected).Calls Call.isPinless :=
  (receiveData_calls rounds type message expected).mono Call.isPinless_of_isReceiving

theorem logsCollector_keepsPins (rounds i : Nat) :
    KeepsPins (.client .logsCollector i) (LogsCollector.runLogsCollector rounds) := by
  refine runClient_keepsPins rounds (keepsPins_of_isPinless ?_)
  refine calls_bind (calls_bind (calls_assert (fun _ => True.intro) _ _) fun _ => ?_) fun (received, _) => ?_
  · exact calls_bind (receiveData_pinless ..) fun _ => True.intro
  · cases received <;> exact True.intro

theorem manager_keepsPins (rounds i : Nat) : KeepsPins (.client .manager i) (Manager.runManager rounds) := by
  refine runClient_keepsPins rounds (keepsPins_of_isPinless ?_)
  refine calls_bind (calls_bind ((calls_request _ _).mpr True.intro) fun _ => True.intro) fun goOn => ?_
  cases goOn with
  | false => exact True.intro
  | true =>
    refine calls_bind ((calls_request _ _).mpr True.intro) fun bit => calls_bind ?_ fun resp => ?_
    · have other : messageTypeManagerCommand ≠ messageTypePinTransferring := by decide
      refine calls_bind (calls_assert (fun _ => True.intro) _ _) fun _ => ?_
      refine calls_bind (sendMessage_pinless other) fun sent => ?_
      cases sent with
      | false => exact True.intro
      | true =>
        refine calls_bind (receiveData_pinless ..) fun (res, message) => ?_
        cases res with
        | false => exact True.intro
        | true => exact calls_bind (calls_assert (fun _ => True.intro) _ _) fun _ => True.intro
    · refine calls_bind (calls_bind ((calls_request _ _).mpr True.intro) fun _ => True.intro) fun goOn => ?_
      cases goOn <;> exact True.intro

theorem handleLog_pinless (text : String) : (handleLog text).Calls Call.isPinless :=
  (handleLog_calls text).mono Call.isPinless_of_isLogging

theorem forward_keepsPins (text : String) {receiver : ComponentType} {thread : ServerThread}
    (backed : Backed (.server thread) history componentTypeServer receiver pin) :
    (pinMonitor (.server thread)).Obeys (fun _ _ => True)
      (handleLog text >>= fun _ => sendMessage (pinMessage componentTypeServer receiver pin)) history := by
  refine Monitor.obeys_bind.mpr (Monitor.obeys_mono ?_ (obeys_of_isPinless (handleLog_pinless text)))
  intro _ after longer
  refine Monitor.obeys_mono (fun _ _ _ => True.intro) (sendPinMessage_obeys ⟨backed.1, ?_⟩)
  exact backed.2.imp (fun ⟨same, from'⟩ => ⟨same, from'.mono longer⟩) (fun ⟨same, from'⟩ => ⟨same, from'.mono longer⟩)

theorem serverHandlePinTransferring_keepsPins {thread : ServerThread} {bytes : List UInt8}
    (received : ReceivedIn history bytes) (isPin : (UDPMessage.ofBytes bytes).messageType = messageTypePinTransferring)
    (info : ClientMetaInfo) :
    (pinMonitor (.server thread)).Obeys (fun _ _ => True) (serverHandlePinTransferring (.ofBytes bytes) info) history := by
  unfold serverHandlePinTransferring
  split
  · exact True.intro
  · rename_i addressed
    refine Monitor.obeys_bind.mpr (Monitor.obeys_mono ?_ (obeys_of_isPinless (handleLog_pinless _)))
    intro _ after longer
    have known : ∀ sender, (UDPMessage.ofBytes bytes).senderType = sender →
        ReceivedPinFrom after sender (UDPMessage.ofBytes bytes).pin := fun sender same =>
      ⟨bytes, received.mono longer, isPin, not_not.mp addressed, same, rfl⟩
    split
    · rename_i isFirst
      exact forward_keepsPins _ ⟨rfl, .inl ⟨rfl, known _ isFirst⟩⟩
    · split
      · rename_i isSecond
        exact forward_keepsPins _ ⟨rfl, .inr ⟨rfl, known _ isSecond⟩⟩
      · have calls : (serverHandleInvalidPinSource (UDPMessage.ofBytes bytes).senderType (UDPMessage.ofBytes bytes).pin info
            >>= fun _ => pure true).Calls Call.isPinless :=
          calls_bind (calls_bind (handleLog_pinless _) fun _ => True.intro) fun _ => True.intro
        exact keepsPins_of_isPinless calls after

theorem executeCommand_pinless (cmd : ServerCommand) : (executeCommand cmd).Calls Call.isPinless := by
  have other : messageTypeShutdownMessage ≠ messageTypePinTransferring := by decide
  unfold executeCommand
  split
  · exact calls_bind ((calls_request _ _).mpr True.intro) fun _ => True.intro
  · split
    · exact calls_bind (sendMessage_pinless other) fun _ => True.intro
    · exact True.intro

theorem serverHandlerManagerCommand_pinless (message : UDPMessage) (info : ClientMetaInfo) :
    (serverHandlerManagerCommand message info).Calls Call.isPinless := by
  have other : messageTypeManagerCommandResult ≠ messageTypePinTransferring := by decide
  refine calls_bind (handleLog_pinless _) fun _ => calls_bind (executeCommand_pinless _) fun _ => ?_
  refine calls_bind (handleLog_pinless _) fun _ => calls_bind (sendMessage_pinless other) fun _ => ?_
  exact calls_bind (handleLog_pinless _) fun _ => True.intro

theorem handleMessage_keepsPins {thread : ServerThread} {bytes : List UInt8} (received : ReceivedIn history bytes)
    (info : ClientMetaInfo) :
    (pinMonitor (.server thread)).Obeys (fun _ _ => True) (handleMessage (.ofBytes bytes) info) history := by
  unfold handleMessage
  split
  · rename_i isPin
    exact serverHandlePinTransferring_keepsPins received isPin info
  · split
    · exact keepsPins_of_isPinless (handleLog_pinless _) history
    · split
      · exact keepsPins_of_isPinless (serverHandlerManagerCommand_pinless _ info) history
      · exact keepsPins_of_isPinless (handleLog_pinless _) history

theorem nonblockingPoll_keepsPins (thread : ServerThread) : KeepsPins (.server thread) nonblockingPoll := by
  refine fun history => Monitor.obeys_call True.intro fun answer _ => ?_
  cases answer with
  | failed => exact True.intro
  | received bytes addressSize address =>
    have received : ReceivedIn (history ++ [⟨.recvfrom, .received bytes addressSize address⟩]) bytes :=
      ⟨_, List.mem_append_right _ (List.mem_singleton_self _), rfl⟩
    dsimp only
    split
    · exact True.intro
    · split
      · exact True.intro
      · rename_i sockAddr _ _
        have asked := (fillClientMetainfo_calls sockAddr).mono Call.isPinless_of_isAsking
        refine Monitor.obeys_bind.mpr (Monitor.obeys_mono ?_ (obeys_of_isPinless asked))
        exact fun info after longer => handleMessage_keepsPins (received.mono longer) info

theorem sendServerLog_pinless (log : OsIhw3.ServerLog) : (sendServerLog log).Calls Call.isPinless := by
  have other : messageTypeLog ≠ messageTypePinTransferring := by decide
  exact sendMessage_pinless other

theorem whileRunning_keepsPins {thread : ServerThread} {round : NetProgram Bool} (rounds : Nat)
    (each : KeepsPins p round) : KeepsPins p (whileRunning thread rounds round) := by
  refine fun history => Monitor.obeys_mono (fun _ _ _ => True.intro) (obeys_whileRunning rounds (fun _ => True) True.intro ?_ ?_)
  · intro after c pausing _
    refine ⟨pinAllowed_of_isPinless ?_, fun _ _ => True.intro⟩
    cases c <;> first | exact True.intro | exact pausing.elim
  · exact fun after _ => each after

theorem serverProgram_keepsPins (rounds : Nat) (thread : ServerThread) :
    KeepsPins (.server thread) (serverProgram rounds thread) := by
  cases thread with
  | workersPoller => exact whileRunning_keepsPins rounds (nonblockingPoll_keepsPins _)
  | logsSender =>
    refine whileRunning_keepsPins rounds (keepsPins_of_isPinless ?_)
    exact calls_bind (dequeueLog_calls.mono Call.isPinless_of_isLogging) sendServerLog_pinless
  | main =>
    have other : messageTypeShutdownMessage ≠ messageTypePinTransferring := by decide
    refine keepsPins_of_isPinless ?_
    refine calls_bind ((calls_request _ _).mpr True.intro) fun _ => calls_bind ((calls_request _ _).mpr True.intro) fun _ => ?_
    exact calls_bind (sendMessage_pinless other) fun _ => True.intro

theorem processProgram_keepsPins (rounds : Nat) (p : Process) : KeepsPins p (processProgram rounds p) := by
  cases p with
  | server thread => exact serverProgram_keepsPins rounds thread
  | client kind i =>
    cases kind with
    | firstWorker => exact (firstWorker_keepsPins rounds i).bind fun _ _ => True.intro
    | secondWorker => exact (secondWorker_keepsPins rounds i).bind fun _ _ => True.intro
    | thirdWorker => exact (thirdWorker_keepsPins rounds i).bind fun _ _ => True.intro
    | logsCollector => exact (logsCollector_keepsPins rounds i).bind fun _ _ => True.intro
    | manager => exact (manager_keepsPins rounds i).bind fun _ _ => True.intro

end

section

variable {histories histories' : Process → List NetEvent} {message : UDPMessage} {pin : Pin}

def ApprovedBySome (histories : Process → List NetEvent) (pin : Pin) : Prop :=
  ∃ j, Approved (histories (.client .firstWorker j)) pin

def SharpenedBySome (histories : Process → List NetEvent) (pin : Pin) : Prop :=
  ∃ j, Sharpened (histories (.client .secondWorker j)) pin

/-- A pin on its way to the second stage has been approved, and one on its way to the third sharpened. -/
def Authentic (histories : Process → List NetEvent) (message : UDPMessage) : Prop :=
  (message.senderType = componentTypeFirstStageWorker ∧ message.receiverType = componentTypeServer ∨
      message.senderType = componentTypeServer ∧ message.receiverType = componentTypeSecondStageWorker) ∧
    ApprovedBySome histories message.pin ∨
  (message.senderType = componentTypeSecondStageWorker ∧ message.receiverType = componentTypeServer ∨
      message.senderType = componentTypeServer ∧ message.receiverType = componentTypeThirdStageWorker) ∧
    SharpenedBySome histories message.pin

theorem Authentic.mono (authentic : Authentic histories message) (longer : ∀ p, histories p <+: histories' p) :
    Authentic histories' message :=
  authentic.imp (fun ⟨route, j, approved⟩ => ⟨route, j, approved.mono (longer _)⟩)
    (fun ⟨route, j, sharpened⟩ => ⟨route, j, sharpened.mono (longer _)⟩)

theorem Authentic.approved (authentic : Authentic histories message)
    (included : includesClient message componentTypeSecondStageWorker = true) : ApprovedBySome histories message.pin := by
  rcases authentic with ⟨-, approved⟩ | ⟨⟨-, receiver⟩ | ⟨-, receiver⟩, -⟩
  · exact approved
  · rw [includesClient, receiver] at included
    exact absurd included (by decide)
  · rw [includesClient, receiver] at included
    exact absurd included (by decide)

theorem Authentic.sharpened (authentic : Authentic histories message)
    (included : includesClient message componentTypeThirdStageWorker = true) : SharpenedBySome histories message.pin := by
  rcases authentic with ⟨⟨-, receiver⟩ | ⟨-, receiver⟩, -⟩ | ⟨-, sharpened⟩
  · rw [includesClient, receiver] at included
    exact absurd included (by decide)
  · rw [includesClient, receiver] at included
    exact absurd included (by decide)
  · exact sharpened

theorem Authentic.of_sender (authentic : Authentic histories message) (addressed : message.receiverType = componentTypeServer) :
    (message.senderType = componentTypeFirstStageWorker → ApprovedBySome histories message.pin) ∧
      (message.senderType = componentTypeSecondStageWorker → SharpenedBySome histories message.pin) := by
  rcases authentic with ⟨⟨sender, -⟩ | ⟨-, receiver⟩, approved⟩ | ⟨⟨sender, -⟩ | ⟨-, receiver⟩, sharpened⟩
  · refine ⟨fun _ => approved, fun other => ?_⟩
    rw [sender] at other
    exact absurd other (by decide)
  · rw [addressed] at receiver
    exact absurd receiver (by decide)
  · refine ⟨fun other => ?_, fun _ => sharpened⟩
    rw [sender] at other
    exact absurd other (by decide)
  · rw [addressed] at receiver
    exact absurd receiver (by decide)

structure PinsAuthentic (s : SystemState (List (List UInt8))) (histories : Process → List NetEvent) : Prop where
  whole : ∀ bytes ∈ s.network, bytes.length = udpMessageSize
  authentic : ∀ bytes ∈ s.network, (UDPMessage.ofBytes bytes).messageType = messageTypePinTransferring →
    Authentic histories (.ofBytes bytes)
  received : ∀ p bytes, ReceivedIn (histories p) bytes → bytes ∈ s.network

variable {s s' : SystemState (List (List UInt8))}

theorem PinsAuthentic.authentic_of_backed {p : Process} {message : UDPMessage} (pins : PinsAuthentic s histories)
    (backed : Backed p (histories p) message.senderType message.receiverType message.pin) : Authentic histories message := by
  have known : ∀ sender, ReceivedPinFrom (histories p) sender message.pin → ∃ received, Authentic histories received ∧
      received.receiverType = componentTypeServer ∧ received.senderType = sender ∧ received.pin = message.pin :=
    fun sender ⟨bytes, there, isPin, addressed, same, pin⟩ =>
      ⟨.ofBytes bytes, pins.authentic bytes (pins.received p bytes there) isPin, addressed, same, pin⟩
  cases p with
  | server thread =>
    obtain ⟨sender, ⟨receiver, source⟩ | ⟨receiver, source⟩⟩ := backed
    · obtain ⟨received, authentic, addressed, same, pin⟩ := known _ source
      refine .inl ⟨.inr ⟨sender, receiver⟩, ?_⟩
      rw [← pin]
      exact (authentic.of_sender addressed).1 same
    · obtain ⟨received, authentic, addressed, same, pin⟩ := known _ source
      refine .inr ⟨.inr ⟨sender, receiver⟩, ?_⟩
      rw [← pin]
      exact (authentic.of_sender addressed).2 same
  | client kind i =>
    cases kind with
    | firstWorker => exact .inl ⟨.inl ⟨backed.1, backed.2.1⟩, i, backed.2.2⟩
    | secondWorker => exact .inr ⟨.inl ⟨backed.1, backed.2.1⟩, i, backed.2.2⟩
    | _ => exact backed.elim

theorem anyDelivery_perform {p : Process} {c : Call} {answer : c.Answer} {network network' : List (List UInt8)}
    (performed : anyDelivery.perform p c answer network = some network') :
    (network' = network ∨ ∃ bytes, c = .sendto bytes ∧ network' = network ++ [bytes]) ∧
      ∀ bytes, datagram ⟨c, answer⟩ = some bytes → bytes ∈ network := by
  have received : ∀ {bytes : List UInt8}, (if bytes ∈ network then some network else none) = some network' →
      network' = network ∧ bytes ∈ network := fun {bytes} taken => by
    split at taken
    · rename_i there
      exact ⟨(Option.some.inj taken).symm, there⟩
    · cases taken
  cases c with
  | recvfrom =>
    cases answer with
    | failed => exact ⟨.inl (Option.some.inj performed).symm, nofun⟩
    | received bytes addressSize address =>
      obtain ⟨same, there⟩ := received performed
      exact ⟨.inl same, fun _ brings => Option.some.inj brings ▸ there⟩
  | recv dontWait peek =>
    cases answer with
    | failed error => exact ⟨.inl (Option.some.inj performed).symm, nofun⟩
    | received bytes =>
      obtain ⟨same, there⟩ := received performed
      exact ⟨.inl same, fun _ brings => Option.some.inj brings ▸ there⟩
  | sendto bytes =>
    cases answer with
    | false => exact ⟨.inl (Option.some.inj performed).symm, nofun⟩
    | true => exact ⟨.inr ⟨bytes, rfl, (Option.some.inj performed).symm⟩, nofun⟩
  | bindSocket => cases answer <;> exact ⟨.inl (Option.some.inj performed).symm, nofun⟩
  | _ => exact ⟨.inl (Option.some.inj performed).symm, nofun⟩

theorem PinsAuthentic.perform {p : Process} {c : Call} {answer : c.Answer} (pins : PinsAuthentic s histories)
    (allowed : PinAllowed p (histories p) c) (performed : anyDelivery.perform p c answer s.network = some s'.network) :
    WholeDatagram c answer ∧ PinsAuthentic s' (Function.update histories p (histories p ++ [⟨c, answer⟩])) := by
  obtain ⟨grows, brought⟩ := anyDelivery_perform performed
  have longer : ∀ q, histories q <+: Function.update histories p (histories p ++ [⟨c, answer⟩]) q := fun q => by
    by_cases same : q = p
    · subst same
      rw [Function.update_self]
      exact List.prefix_append ..
    · rw [Function.update_of_ne same]
  have kept : ∀ bytes ∈ s.network, bytes ∈ s'.network := fun bytes there => by
    rcases grows with same | ⟨sent, -, more⟩
    · exact same ▸ there
    · exact more ▸ List.mem_append_left _ there
  have isNew : ∀ bytes ∈ s'.network, bytes ∈ s.network ∨ c = .sendto bytes := fun bytes there => by
    rcases grows with same | ⟨sent, sends, more⟩
    · exact .inl (same ▸ there)
    · rw [more] at there
      refine (List.mem_append.mp there).imp_right fun last => ?_
      rw [sends, List.mem_singleton.mp last]
  refine ⟨fun bytes brings => pins.whole bytes (brought bytes brings), fun bytes there => ?_, fun bytes there isPin => ?_,
    fun q bytes received => ?_⟩
  · rcases isNew bytes there with old | rfl
    · exact pins.whole bytes old
    · exact allowed.1
  · rcases isNew bytes there with old | rfl
    · exact (pins.authentic bytes old isPin).mono longer
    · exact (pins.authentic_of_backed (allowed.2 isPin)).mono longer
  · obtain ⟨event, member, brings⟩ := received
    by_cases same : q = p
    · subst same
      rw [Function.update_self] at member
      rcases List.mem_append.mp member with old | last
      · exact kept bytes (pins.received q bytes ⟨event, old, brings⟩)
      · rw [List.mem_singleton.mp last] at brings
        exact kept bytes (brought bytes brings)
    · rw [Function.update_of_ne same] at member
      exact kept bytes (pins.received q bytes ⟨event, member, brings⟩)

theorem pins_disciplined {rounds : Nat} {pool : AnyDeliveryPool} (reach : AnyDeliveryReach rounds pool) :
    pool.Disciplined pinMonitor (fun _ => []) (fun _ _ => True) PinsAuthentic := by
  refine Pool.Reach.disciplined ?_ ?_ ⟨fun _ => ?_, fun p => processProgram_keepsPins rounds p [], ?_⟩ reach
  · intro pool p c answer s pins _ allowed performed
    exact pins.perform allowed (network_of_perform performed)
  · intro pool p c s pins _ taken
    have same := network_of_cut taken
    exact ⟨True.intro, same ▸ pins.whole, same ▸ pins.authentic, same ▸ pins.received⟩
  · exact True.intro
  · exact ⟨nofun, nofun, fun _ _ ⟨_, member, _⟩ => by cases member⟩

/-- No stage can be skipped, however datagrams are delivered. -/
theorem no_stage_skipped {rounds : Nat} {pool : AnyDeliveryPool} (reach : AnyDeliveryReach rounds pool) :
    StagesKept pool := by
  have kept := pins_disciplined reach
  have histories : pool.monitored pinMonitor (fun _ => []) = pool.history := by
    funext p
    exact Monitor.run_recording _
  have known : ∀ p c next, pool.programs p = .call c next → PinAllowed p (pool.history p) c := fun p c next current => by
    have obeys := kept.obeys p
    rw [current, histories] at obeys
    exact obeys.1
  have authentic := kept.agrees
  rw [histories] at authentic
  refine ⟨fun i pin next current => ?_, fun i pin next current => ?_⟩
  · obtain ⟨bytes, received, isPin, included, rfl⟩ := known _ _ _ current
    exact (authentic.authentic bytes (authentic.received _ bytes received) isPin).sharpened included
  · obtain ⟨bytes, received, isPin, included, rfl⟩ := known _ _ _ current
    exact (authentic.authentic bytes (authentic.received _ bytes received) isPin).approved included

end

/-- Answers in a run where every new pin is pin 7, the newest datagram is received unless one need not
    wait, and the queue of logs is full. -/
def newestDatagram : (c : Call) → SystemState (List (List UInt8)) → Option c.Answer
  | .recvfrom, s => s.network.getLast?.map fun bytes => .received bytes sizeofSockaddrIn ⟨0, 0⟩
  | .recv true _, _ => some (.failed .eagain)
  | .recv false _, s => s.network.getLast?.map .received
  | .queue .tryWaitFree, _ => some false
  | .getnameinfo _ _, _ => some none
  | .getsockopt, _ => some (some 0)
  | .errno, _ => some .eagain
  | .receiveNewPin, _ => some ⟨7⟩
  | .checkPinCrookness pin, _ => some (checkPinCrookness pin)
  | .sendto _, _ | .nanosleep, _ | .isRunning _, _ | .bindSocket, _ => some true
  | .sharpenPin _, _ => some ()
  | _, _ => none

def threeStages : List (Pool.Turn Process Call Call.Answer (SystemState (List (List UInt8)))) :=
  [.go (.client .thirdWorker 0) 5 newestDatagram, .go (.client .secondWorker 0) 5 newestDatagram,
    .go (.client .firstWorker 0) 11 newestDatagram, .go (.server .workersPoller) 7 newestDatagram,
    .go (.client .secondWorker 0) 6 newestDatagram, .go (.server .workersPoller) 8 newestDatagram,
    .go (.client .thirdWorker 0) 1 newestDatagram]

def checksPin (pool : AnyDeliveryPool) (pin : Pin) : Bool :=
  match pool.programs (.client .thirdWorker 0) with
  | .call (.checkSharpenedPinQuality current) _ => current = pin
  | _ => false

theorem pin_passes_three_stages : ∃ pool, AnyDeliveryReach 4 pool ∧ checksPin pool ⟨7⟩ = true ∧ StagesKept pool := by
  obtain ⟨pool, reach, checks⟩ := @Pool.exists_reach_of_replay _ _ _ _ _ (systemMachine anyDelivery) (fun _ _ => True)
    (systemPool 4 []) (fun _ _ => true) threeStages (checksPin · ⟨7⟩) (fun _ _ _ => True.intro) (by decide +kernel)
  exact ⟨pool, reach, checks, no_stage_skipped reach⟩

end ArchCompSystems.OsIhw4
