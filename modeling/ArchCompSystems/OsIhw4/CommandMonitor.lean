import ArchCompSystems.OsIhw4.CallSets
import ArchCompSystems.OsIhw4.CommandOrder

namespace ArchCompSystems.OsIhw4

open Library Library.Program

def Call.isBystanding : Call → Prop
  | .sendto bytes => bytes.length = udpMessageSize ∧
    (UDPMessage.ofBytes bytes).messageType ≠ messageTypeManagerCommand ∧
    (UDPMessage.ofBytes bytes).messageType ≠ messageTypeManagerCommandResult
  | .recvfrom | .recv _ _ | .bindSocket | .handleServerResponse _ => False
  | _ => True

section

variable {p : Process} {m : ResultPhase}

theorem resultAllowed_of_isBystanding {c : Call} (bystanding : c.isBystanding)
    (idle : ∀ i, p = .client .manager i → m = .idle) : ResultAllowed p m c := by
  cases c with
  | sendto bytes =>
    exact ⟨bystanding.1, fun command => absurd command bystanding.2.1, fun result => absurd result bystanding.2.2, idle⟩
  | recvfrom | recv dontWait peek | bindSocket | handleServerResponse res => exact bystanding.elim
  | _ => exact True.intro

theorem after_of_isBystanding {c : Call} (bystanding : c.isBystanding) (answer : c.Answer) : m.after c answer = m := by
  cases c with
  | sendto bytes => rw [ResultPhase.after, if_neg bystanding.2.2, if_neg fun both => bystanding.2.1 both.1]
  | recvfrom | recv dontWait peek | bindSocket | handleServerResponse res => exact bystanding.elim
  | _ => rfl

theorem obeys_of_isBystanding {α : Type} {program : NetProgram α} (idle : ∀ i, p = .client .manager i → m = .idle)
    (calls : program.Calls Call.isBystanding) :
    (resultMonitor p).Obeys (fun _ m' => m' = m) program m :=
  Monitor.obeys_of_calls (fun _ bystanding =>
    ⟨resultAllowed_of_isBystanding bystanding idle, after_of_isBystanding bystanding⟩) calls

theorem obeys_of_isWorking {α : Type} {program : NetProgram α} {kind : ClientKind} {i : Nat}
    (calls : program.Calls Call.isWorking) :
    (resultMonitor (.client kind i)).Obeys (fun _ m' => m' = .idle) program .idle := by
  refine Monitor.obeys_of_calls (fun c working => ?_) calls
  cases c with
  | sendto bytes =>
    have bystanding : (Call.sendto bytes).isBystanding := by
      refine ⟨working.1, ?_, ?_⟩ <;> rcases working.2 with type | type <;> rw [type] <;> decide
    exact ⟨resultAllowed_of_isBystanding bystanding fun _ _ => rfl, after_of_isBystanding bystanding⟩
  | recv dontWait peek =>
    exact ⟨⟨rfl, nofun, nofun⟩, fun answer => by cases answer <;> rfl⟩
  | bindSocket => exact ⟨⟨rfl, rfl⟩, fun _ => rfl⟩
  | recvfrom | handleServerResponse res => exact working.elim
  | _ => exact ⟨True.intro, fun _ => rfl⟩

theorem sendMessage_bystanding {message : UDPMessage} (notCommand : message.messageType ≠ messageTypeManagerCommand)
    (notResult : message.messageType ≠ messageTypeManagerCommandResult) :
    (sendMessage message).Calls Call.isBystanding := by
  refine (sendMessage_calls message).mono ?_
  rintro _ rfl
  refine ⟨message.length_bytes, ?_⟩
  rw [UDPMessage.messageType_ofBytes_bytes]
  exact ⟨notCommand, notResult⟩

theorem Call.isBystanding_of_isLogging (c : Call) (logging : c.isLogging) : c.isBystanding := by
  cases c <;> first | exact True.intro | exact logging.elim

theorem Call.isBystanding_of_isAsking (c : Call) (asking : c.isAsking) : c.isBystanding := by
  cases c <;> first | exact True.intro | exact asking.elim

theorem Call.isBystanding_of_isPausing (c : Call) (pausing : c.isPausing) : c.isBystanding := by
  cases c <;> first | exact True.intro | exact pausing.elim

theorem handleLog_bystanding (text : String) : (handleLog text).Calls Call.isBystanding :=
  (handleLog_calls text).mono Call.isBystanding_of_isLogging

theorem sendPinMessage_bystanding (sender receiver : ComponentType) (pin : Pin) :
    (sendMessage (pinMessage sender receiver pin)).Calls Call.isBystanding :=
  sendMessage_bystanding (by simp [pinMessage]; decide) (by simp [pinMessage]; decide)

theorem serverHandlePinTransferring_bystanding (message : UDPMessage) (info : ClientMetaInfo) :
    (serverHandlePinTransferring message info).Calls Call.isBystanding := by
  unfold serverHandlePinTransferring
  split
  · exact True.intro
  · refine calls_bind (handleLog_bystanding _) fun _ => ?_
    split
    · exact calls_bind (handleLog_bystanding _) fun _ => sendPinMessage_bystanding ..
    · split
      · exact calls_bind (handleLog_bystanding _) fun _ => sendPinMessage_bystanding ..
      · exact calls_bind (calls_bind (handleLog_bystanding _) fun _ => True.intro) fun _ => True.intro

theorem sendShutdownMessage_bystanding (client : ComponentType) :
    (sendMessage (shutdownMessage client)).Calls Call.isBystanding :=
  sendMessage_bystanding (by simp [shutdownMessage]; decide) (by simp [shutdownMessage]; decide)

theorem executeCommand_bystanding (cmd : ServerCommand) : (executeCommand cmd).Calls Call.isBystanding := by
  unfold executeCommand
  split
  · exact calls_bind ((calls_request _ _).mpr True.intro) fun _ => True.intro
  · split
    · exact calls_bind (sendShutdownMessage_bystanding _) fun _ => True.intro
    · exact True.intro

theorem sendCommandResultToManagers_obeys (res : ServerCommandResult) :
    (resultMonitor (.server .workersPoller)).Obeys (fun _ m' => m' = .idle) (sendCommandResultToManagers res) .commanded := by
  have type : (UDPMessage.ofBytes (commandResultMessage res).bytes).messageType = messageTypeManagerCommandResult :=
    UDPMessage.messageType_ofBytes_bytes _
  refine ⟨⟨UDPMessage.length_bytes _, fun command => ?_, fun _ => ⟨rfl, rfl, fun _ => ⟨res, rfl⟩⟩, nofun⟩, fun answer _ => ?_⟩
  · rw [type] at command
    exact absurd command (by decide)
  · exact if_pos type

theorem serverHandlerManagerCommand_obeys (message : UDPMessage) (info : ClientMetaInfo) :
    (resultMonitor (.server .workersPoller)).Obeys (fun _ m' => m' = .idle) (serverHandlerManagerCommand message info)
      .commanded := by
  have logs : ∀ text m, (resultMonitor (.server .workersPoller)).Obeys (fun _ m' => m' = m) (handleLog text) m :=
    fun text m => obeys_of_isBystanding nofun (handleLog_bystanding text)
  refine Monitor.obeys_bind.mpr (Monitor.obeys_mono ?_ (logs _ _))
  rintro _ _ rfl
  refine Monitor.obeys_bind.mpr (Monitor.obeys_mono ?_ (obeys_of_isBystanding nofun (executeCommand_bystanding _)))
  rintro res _ rfl
  refine Monitor.obeys_bind.mpr (Monitor.obeys_mono ?_ (logs _ _))
  rintro _ _ rfl
  refine Monitor.obeys_bind.mpr (Monitor.obeys_mono ?_ (sendCommandResultToManagers_obeys res))
  rintro _ _ rfl
  refine Monitor.obeys_bind.mpr (Monitor.obeys_mono ?_ (logs _ _))
  rintro _ _ rfl
  exact rfl

theorem handleMessage_obeys (message : UDPMessage) (info : ClientMetaInfo) :
    (resultMonitor (.server .workersPoller)).Obeys (fun _ _ => True) (handleMessage message info)
      (if message.messageType = messageTypeManagerCommand then .commanded else .idle) := by
  have stays : ∀ {program : NetProgram Bool} {m : ResultPhase}, program.Calls Call.isBystanding →
      (resultMonitor (.server .workersPoller)).Obeys (fun _ _ => True) program m := fun calls =>
    Monitor.obeys_mono (fun _ _ _ => True.intro) (obeys_of_isBystanding nofun calls)
  unfold handleMessage
  split
  · exact stays (serverHandlePinTransferring_bystanding message info)
  · split
    · exact stays (handleLog_bystanding _)
    · split
      · rename_i command
        exact Monitor.obeys_mono (fun _ _ _ => True.intro) (serverHandlerManagerCommand_obeys message info)
      · exact stays (handleLog_bystanding _)

theorem nonblockingPoll_obeys (m : ResultPhase) :
    (resultMonitor (.server .workersPoller)).Obeys (fun _ _ => True) nonblockingPoll m := by
  refine Monitor.obeys_call rfl fun answer _ => ?_
  cases answer with
  | failed => exact True.intro
  | received bytes addressSize address =>
    dsimp only
    split
    · exact True.intro
    · split
      · exact True.intro
      · rename_i sockAddr _ _
        have asked := (fillClientMetainfo_calls sockAddr).mono Call.isBystanding_of_isAsking
        refine Monitor.obeys_bind.mpr (Monitor.obeys_mono ?_ (obeys_of_isBystanding nofun asked))
        rintro info _ rfl
        exact handleMessage_obeys _ info

theorem serverProgram_obeys (rounds : Nat) (thread : ServerThread) :
    (resultMonitor (.server thread)).Obeys (fun _ _ => True) (serverProgram rounds thread) .idle := by
  have pauses : ∀ m c, c.isPausing → True → (resultMonitor (.server thread)).allowed m c ∧
      ∀ answer, (resultMonitor (.server thread)).possible m c answer → True := fun m c pausing _ =>
    ⟨resultAllowed_of_isBystanding (Call.isBystanding_of_isPausing c pausing) nofun, fun _ _ => True.intro⟩
  cases thread with
  | workersPoller => exact obeys_whileRunning rounds (fun _ => True) True.intro pauses fun m _ => nonblockingPoll_obeys m
  | logsSender =>
    refine obeys_whileRunning rounds (fun _ => True) True.intro pauses fun m _ => ?_
    refine Monitor.obeys_mono (fun _ _ _ => True.intro) (obeys_of_isBystanding nofun ?_)
    refine calls_bind (dequeueLog_calls.mono Call.isBystanding_of_isLogging) fun log => ?_
    have notCommand : messageTypeLog ≠ messageTypeManagerCommand := by decide
    have notResult : messageTypeLog ≠ messageTypeManagerCommandResult := by decide
    exact sendMessage_bystanding notCommand notResult
  | main =>
    refine Monitor.obeys_mono (fun _ _ _ => True.intro) (obeys_of_isBystanding nofun ?_)
    refine calls_bind ((calls_request _ _).mpr True.intro) fun _ => calls_bind ((calls_request _ _).mpr True.intro) fun _ => ?_
    exact calls_bind (sendShutdownMessage_bystanding _) fun _ => True.intro

def Waiting (message : List UInt8) (m : ResultPhase) : Prop := message.length ≤ udpMessageSize ∧ m = .awaiting

def GotResult (result : Bool × List UInt8) (m : ResultPhase) : Prop :=
  result.1 = true → m = .got (UDPMessage.ofBytes result.2).commandResult ∧
    (UDPMessage.ofBytes result.2).receiverType = componentTypeManager

theorem messageType_commandResultMessage (res : ServerCommandResult) :
    (UDPMessage.ofBytes (commandResultMessage res).bytes).messageType = messageTypeManagerCommandResult :=
  UDPMessage.messageType_ofBytes_bytes _

theorem receiverType_commandResultMessage (res : ServerCommandResult) :
    (UDPMessage.ofBytes (commandResultMessage res).bytes).receiverType = componentTypeManager :=
  UDPMessage.receiverType_ofBytes_bytes _

theorem untilExpected_waits {message : List UInt8} (fits : message.length ≤ udpMessageSize)
    (noResult : (UDPMessage.ofBytes message).messageType ≠ messageTypeManagerCommandResult) :
    FlowKeeps Waiting GotResult (untilExpected componentTypeManager messageTypeManagerCommandResult message) .awaiting := by
  rw [untilExpected, if_pos (.inl noResult)]
  exact ⟨fits, rfl⟩

theorem untilExpected_got (res : ServerCommandResult) :
    untilExpected componentTypeManager messageTypeManagerCommandResult (commandResultMessage res).bytes =
      .exit (true, (commandResultMessage res).bytes) := by
  refine if_neg (not_or.mpr ⟨not_not.mpr (messageType_commandResultMessage res), ?_⟩)
  rw [includesClient, receiverType_commandResultMessage]
  decide

theorem receiveData_waits {i : Nat} (rounds : Nat) {message : List UInt8} (fits : message.length ≤ udpMessageSize) :
    (resultMonitor (.client .manager i)).Obeys GotResult
      (receiveData rounds componentTypeManager message messageTypeManagerCommandResult) .awaiting := by
  refine obeys_loop Waiting (fun _ => True.intro) ⟨fits, rfl⟩ ?_
  rintro message _ ⟨fits, rfl⟩
  refine Monitor.obeys_bind.mpr (Monitor.obeys_call ⟨rfl, nofun, fun _ => ⟨rfl, rfl⟩⟩ fun answer possible => ?_)
  have failed : ∀ message, (resultMonitor (.client .manager i)).Obeys (FlowKeeps Waiting GotResult)
      (clientHandleErrno >>= fun _ => pure (.exit (false, message))) .awaiting := fun message =>
    Monitor.obeys_call True.intro fun error _ => by cases error <;> exact nofun
  cases answer with
  | failed error => exact failed message
  | received bytes =>
    obtain ⟨whole, isResult⟩ := possible
    have all : bytes ++ message.drop bytes.length = bytes := by
      rw [List.drop_of_length_le (by omega), List.append_nil]
    have some' : (bytes.length : Int) ≠ 0 := by
      rw [whole]
      decide
    refine Monitor.obeys_pure.mpr ?_
    dsimp only
    rw [all, if_neg some', if_neg (not_not_intro (congrArg Nat.cast whole))]
    by_cases result : (UDPMessage.ofBytes bytes).messageType = messageTypeManagerCommandResult
    · obtain ⟨res, rfl⟩ := isResult result
      have sender : (UDPMessage.ofBytes (commandResultMessage res).bytes).senderType = componentTypeServer :=
        UDPMessage.senderType_ofBytes_bytes _
      have notShutdown : ¬ ((UDPMessage.ofBytes (commandResultMessage res).bytes).messageType = messageTypeShutdownMessage ∧
          includesClient (.ofBytes (commandResultMessage res).bytes) componentTypeManager = true) := fun both => by
        rw [result] at both
        exact absurd both.1 (by decide)
      rw [if_neg (not_not_intro sender), if_neg notShutdown, untilExpected_got]
      exact fun _ => ⟨if_pos result, receiverType_commandResultMessage res⟩
    · have stays : (resultMonitor (.client .manager i)).after .awaiting (.recv false false) (.received bytes) = .awaiting :=
        if_neg result
      rw [stays]
      split
      · exact untilExpected_waits whole.le result
      · split
        · exact nofun
        · exact untilExpected_waits whole.le result

theorem sendManagerCommandToServer_obeys {i : Nat} (rounds : Nat) (command : ServerCommand) :
    (resultMonitor (.client .manager i)).Obeys (fun res m => m = .got res ∨ res = noConnection)
      (sendManagerCommandToServer rounds componentTypeManager command) .idle := by
  have type : (UDPMessage.ofBytes (commandMessage command).bytes).messageType = messageTypeManagerCommand :=
    UDPMessage.messageType_ofBytes_bytes _
  have notResult : (UDPMessage.ofBytes (commandMessage command).bytes).messageType ≠ messageTypeManagerCommandResult := by
    rw [type]
    decide
  refine Monitor.obeys_call ⟨UDPMessage.length_bytes _, fun _ => ⟨i, rfl⟩, fun result => absurd result notResult, fun _ _ => rfl⟩
    fun sent _ => ?_
  cases sent with
  | false => exact .inr rfl
  | true =>
    have awaiting : (resultMonitor (.client .manager i)).after .idle (.sendto (commandMessage command).bytes) true = .awaiting :=
      (if_neg notResult).trans (if_pos ⟨type, rfl⟩)
    rw [awaiting]
    refine Monitor.obeys_bind.mpr (Monitor.obeys_mono ?_ (receiveData_waits rounds (List.length_replicate ..).le))
    rintro ⟨res, message⟩ m got
    cases res with
    | false => exact .inr rfl
    | true =>
      obtain ⟨rfl, receiver⟩ := got rfl
      have passes : decide ((UDPMessage.ofBytes message).receiverType = componentTypeManager) = true := decide_eq_true receiver
      dsimp only
      rw [if_neg (show ¬ (!true) = true by decide), passes]
      exact .inl rfl

theorem manager_obeys (rounds i : Nat) :
    (resultMonitor (.client .manager i)).Obeys (fun _ _ => True) (Manager.runManager rounds) .idle := by
  refine Monitor.obeys_bind.mpr (Monitor.obeys_mono ?_ (obeys_of_isWorking (initClient_working _)))
  rintro initialised _ rfl
  cases initialised with
  | false => exact True.intro
  | true =>
    refine obeys_loop (fun _ m => m = .idle) (fun _ => True.intro) rfl ?_
    rintro _ _ rfl
    refine Monitor.obeys_bind.mpr (Monitor.obeys_mono ?_ (obeys_of_isWorking (clientShouldStop_working rounds _)))
    rintro stop _ rfl
    cases stop with
    | true => exact True.intro
    | false =>
      refine Monitor.obeys_bind.mpr (Monitor.obeys_call True.intro fun command _ => ?_)
      refine Monitor.obeys_pure.mpr ?_
      cases decide (command = 1) with
      | false => exact True.intro
      | true =>
        refine Monitor.obeys_call True.intro fun bit _ => ?_
        refine Monitor.obeys_bind.mpr (Monitor.obeys_mono ?_ (sendManagerCommandToServer_obeys rounds _))
        intro resp m given
        refine Monitor.obeys_bind.mpr (Monitor.obeys_call ⟨rfl, given⟩ fun _ _ => ?_)
        refine Monitor.obeys_pure.mpr ?_
        split
        · exact True.intro
        · exact rfl

end

theorem processProgram_obeys (rounds : Nat) (p : Process) :
    (resultMonitor p).Obeys (fun _ _ => True) (processProgram rounds p) .idle := by
  have works : ∀ {program : NetProgram ExitCode} {kind : ClientKind} {i : Nat}, program.Calls Call.isWorking →
      (resultMonitor (.client kind i)).Obeys (fun _ _ => True) (program >>= fun _ => pure ()) .idle := fun calls =>
    Monitor.obeys_bind.mpr (Monitor.obeys_mono (fun _ _ _ => True.intro) (obeys_of_isWorking calls))
  cases p with
  | server thread => exact serverProgram_obeys rounds thread
  | client kind i =>
    cases kind with
    | firstWorker => exact works (firstWorker_working rounds)
    | secondWorker => exact works (secondWorker_working rounds)
    | thirdWorker => exact works (thirdWorker_working rounds)
    | logsCollector => exact works (logsCollector_working rounds)
    | manager => exact Monitor.obeys_bind.mpr (Monitor.obeys_mono (fun _ _ _ => True.intro) (manager_obeys rounds i))

end ArchCompSystems.OsIhw4
