import ArchCompSystems.Library.Machine
import ArchCompSystems.OsIhw4.ServerTools

namespace ArchCompSystems.OsIhw4

open Library Library.Program
open OsIhw3 (ServerLog)

/-- What the server sets going: its own end, that of its clients, or the next stage of a pin. -/
inductive Order where
  | alarm
  | shutdown (client : ComponentType)
  | forward (receiver : ComponentType) (pin : Pin)
  deriving DecidableEq

def messageOrder (message : UDPMessage) : Option Order :=
  if message.messageType = messageTypeShutdownMessage then some (.shutdown message.receiverType)
  else if message.messageType = messageTypePinTransferring then some (.forward message.receiverType message.pin)
  else none

def order : NetEvent → Option Order
  | ⟨.alarm _, _⟩ => some .alarm
  | ⟨.sendto bytes, _⟩ => messageOrder (.ofBytes bytes)
  | _ => none

def orders (history : List NetEvent) : List Order := history.filterMap order

def refusal : NetEvent → Bool
  | ⟨.queue .tryWaitFree, answer⟩ => !answer
  | ⟨.queue .tryLock, answer⟩ => !answer
  | _ => false

def Refused (history : List NetEvent) : Prop := ∃ event ∈ history, refusal event = true

def SendFailed (history : List NetEvent) : Prop := ∃ bytes, ⟨.sendto bytes, false⟩ ∈ history

def isQueueEvent : NetEvent → Bool
  | ⟨.queue _, _⟩ => true
  | _ => false

section

variable {first later history : List NetEvent}

@[simp] theorem orders_append : orders (first ++ later) = orders first ++ orders later := List.filterMap_append

@[simp] theorem refused_append : Refused (first ++ later) ↔ Refused first ∨ Refused later := by
  simp only [Refused, List.mem_append, or_and_right, exists_or]

@[simp] theorem sendFailed_append : SendFailed (first ++ later) ↔ SendFailed first ∨ SendFailed later := by
  simp only [SendFailed, List.mem_append, exists_or]

theorem orders_of_queue (queue : ∀ event ∈ history, isQueueEvent event = true) : orders history = [] := by
  refine List.filterMap_eq_nil_iff.mpr fun event member => ?_
  obtain ⟨call, answer⟩ := event
  have isQueue := queue _ member
  cases call <;> first | rfl | cases isQueue

def queueEvent (event : BufferEvent ServerLog) : NetEvent := ⟨.queue event.1, event.2⟩

theorem always_onQueue {α : Type} {p : BufferProgram ServerLog α} {post : List NetEvent → α → Prop}
    (always : p.Always fun history value => post (history.map queueEvent) value) : (onQueue p).Always post := by
  induction p generalizing post with
  | done value => exact always
  | call c next ih =>
    intro answer s' performed
    exact ih answer (always answer s' performed)

theorem enqueue_refused (server : OsIhw3.LogsServer) (log : ServerLog) :
    (OsIhw3.serverLogsQueueNonblockingEnqueue server log).Always fun history ok =>
      ok = false ↔ Refused (history.map queueEvent) := by
  refine always_bind.mpr (always_request.mpr fun reserved => ?_)
  cases reserved with
  | false => exact iff_of_true rfl ⟨_, List.mem_cons_self .., rfl⟩
  | true =>
    refine always_bind.mpr (always_request.mpr fun locked => ?_)
    cases locked with
    | false =>
      refine always_bind.mpr (always_request.mpr fun _ => ?_)
      exact iff_of_true rfl ⟨_, List.mem_cons_of_mem _ (List.mem_cons_self ..), rfl⟩
    | true =>
      refine always_bind.mpr (always_request.mpr fun writeIndex => ?_)
      refine always_bind.mpr (always_request.mpr fun _ => ?_)
      refine always_bind.mpr (always_request.mpr fun _ => ?_)
      refine always_bind.mpr (always_request.mpr fun size => ?_)
      refine always_bind.mpr ?_
      unfold OsIhw3.logsQueueAssert
      split
      · refine always_pure.mpr (always_bind.mpr (always_request.mpr fun size => ?_))
        refine always_bind.mpr (always_request.mpr fun _ => ?_)
        refine always_bind.mpr (always_request.mpr fun _ => ?_)
        refine always_bind.mpr (always_request.mpr fun _ => ?_)
        simp [Refused, refusal, queueEvent]
      · exact always_bind.mpr (always_request.mpr fun answer => answer.elim)

def Logs (history : List NetEvent) (ok : Bool) : Prop :=
  (∀ event ∈ history, isQueueEvent event = true) ∧ (ok = false ↔ Refused history)

theorem always_assert {holds : Bool} {assertion : String} {α : Type} {f : Unit → NetProgram α}
    {post : List NetEvent → α → Prop} (rest : (f ()).Always post) : (assert holds assertion >>= f).Always post := by
  cases holds with
  | true => exact rest
  | false => exact fun answer => answer.elim

theorem handleLog_always (text : String) : (handleLog text).Always Logs := by
  unfold handleLog
  refine always_assert (always_assert (always_onQueue ?_))
  refine always_mono (fun history ok refused => ⟨fun event member => ?_, refused⟩) (enqueue_refused .osIhw4 _)
  obtain ⟨queued, -, rfl⟩ := List.mem_map.mp member
  rfl

theorem always_handleLog {α : Type} {text : String} {f : Bool → NetProgram α} {post : List NetEvent → α → Prop}
    (rest : ∀ history ok, Logs history ok → (f ok).Always fun later => post (history ++ later)) :
    (handleLog text >>= f).Always post :=
  always_bind.mpr (always_mono rest (handleLog_always text))

theorem Logs.orders {ok : Bool} (logs : Logs history ok) : orders history = [] := orders_of_queue logs.1

theorem messageOrder_pinMessage (sender receiver : ComponentType) (pin : Pin) :
    messageOrder (.ofBytes (pinMessage sender receiver pin).bytes) = some (.forward receiver pin) := by
  have content := @UDPMessage.wordAt_content sender receiver messageTypePinTransferring pin.pinId
  have same : (UDPMessage.ofBytes (pinMessage sender receiver pin).bytes).pin = pin := by
    rw [UDPMessage.pin, pinMessage, content]
  rw [messageOrder, same]
  simp only [UDPMessage.messageType_ofBytes_bytes, UDPMessage.receiverType_ofBytes_bytes]
  rfl

theorem messageOrder_shutdownMessage (client : ComponentType) :
    messageOrder (.ofBytes (shutdownMessage client).bytes) = some (.shutdown client) := by
  simp only [messageOrder, UDPMessage.messageType_ofBytes_bytes, UDPMessage.receiverType_ofBytes_bytes]
  rfl

theorem messageOrder_commandResultMessage (res : ServerCommandResult) :
    messageOrder (.ofBytes (commandResultMessage res).bytes) = none := by
  simp only [messageOrder, UDPMessage.messageType_ofBytes_bytes]
  rfl

theorem sendMessage_always (message : UDPMessage) : (sendMessage message).Always fun history ok =>
    orders history = (messageOrder (.ofBytes message.bytes)).toList ∧ ¬ Refused history ∧
      (ok = false ↔ SendFailed history) := by
  refine always_request.mpr fun ok => ⟨?_, ?_, ?_⟩
  · have ordered : order ⟨.sendto message.bytes, ok⟩ = messageOrder (.ofBytes message.bytes) := rfl
    rw [orders, List.filterMap_cons, List.filterMap_nil, ordered]
    cases messageOrder (.ofBytes message.bytes) <;> rfl
  · simp [Refused, refusal]
  · cases ok <;> simp [SendFailed]

/-- A handler that returns whether it could send. -/
structure Sends (expected : List Order) (history : List NetEvent) (ok : Bool) : Prop where
  orders : orders history = expected
  failed : ok = false → SendFailed history

/-- A handler that returns also whether it could log. -/
structure Reports (expected : List Order) (history : List NetEvent) (ok : Bool) : Prop where
  orders : orders history = expected
  refused : Refused history → ok = false
  failed : ok = false → Refused history ∨ SendFailed history

theorem Logs.reports {ok : Bool} (logs : Logs history ok) : Reports [] history ok :=
  ⟨logs.orders, logs.2.mpr, fun failed => .inl (logs.2.mp failed)⟩

theorem forward_always (text : String) (receiver : ComponentType) (pin : Pin) :
    (handleLog text >>= fun _ => sendMessage (pinMessage componentTypeServer receiver pin)).Always
      (Sends [.forward receiver pin]) := by
  refine always_handleLog fun history _ logs => ?_
  refine always_mono (fun later ok sent => ?_) (sendMessage_always _)
  refine ⟨?_, fun failed => sendFailed_append.mpr (.inr (sent.2.2.mp failed))⟩
  rw [orders_append, logs.orders, sent.1, messageOrder_pinMessage]
  rfl

def pinOrders (sender : ComponentType) (pin : Pin) : List Order :=
  if sender = componentTypeFirstStageWorker then [.forward componentTypeSecondStageWorker pin]
  else if sender = componentTypeSecondStageWorker then [.forward componentTypeThirdStageWorker pin]
  else []

theorem serverHandlePinTransferring_always (message : UDPMessage) (info : ClientMetaInfo) :
    (serverHandlePinTransferring message info).Always (Sends
      (if message.receiverType = componentTypeServer then pinOrders message.senderType message.pin else [])) := by
  unfold serverHandlePinTransferring
  by_cases addressed : message.receiverType = componentTypeServer
  · rw [if_neg (not_not_intro addressed), if_pos addressed]
    refine always_handleLog fun history _ logs => ?_
    have before : ∀ expected later ok, Sends expected later ok → Sends expected (history ++ later) ok :=
      fun expected later ok sends =>
        ⟨by rw [orders_append, logs.orders, sends.orders]; rfl,
          fun failed => sendFailed_append.mpr (.inr (sends.failed failed))⟩
    unfold pinOrders
    split
    · exact always_mono (before _) (forward_always _ componentTypeSecondStageWorker message.pin)
    · split
      · exact always_mono (before _) (forward_always _ componentTypeThirdStageWorker message.pin)
      · refine always_bind.mpr (always_handleLog fun later _ logged => ?_)
        refine before [] _ true ⟨?_, nofun⟩
        rw [List.append_nil, List.append_nil, logged.orders]
  · rw [if_pos addressed, if_neg addressed]
    exact ⟨rfl, nofun⟩

def commandOrders (cmd : ServerCommand) : List Order :=
  if cmd.clientType = componentTypeServer then [.alarm]
  else if isShutdownClient cmd.clientType then [.shutdown cmd.clientType]
  else []

theorem executeCommand_always (cmd : ServerCommand) :
    (executeCommand cmd).Always fun history _ => orders history = commandOrders cmd ∧ ¬ Refused history := by
  unfold executeCommand commandOrders
  split
  · refine always_bind.mpr (always_request.mpr fun _ => ⟨rfl, ?_⟩)
    simp [Refused, refusal]
  · split
    · refine always_bind.mpr (always_mono (fun history ok sent => ?_) (sendMessage_always _))
      rw [messageOrder_shutdownMessage] at sent
      have kept : orders (history ++ []) = [.shutdown cmd.clientType] ∧ ¬ Refused (history ++ []) := by
        rw [List.append_nil]
        exact ⟨sent.1, sent.2.1⟩
      exact kept
    · exact ⟨rfl, by simp [Refused]⟩

theorem serverHandlerManagerCommand_always (message : UDPMessage) (info : ClientMetaInfo) :
    (serverHandlerManagerCommand message info).Always (Reports (commandOrders message.command)) := by
  unfold serverHandlerManagerCommand
  refine always_handleLog fun history₁ received logs₁ => ?_
  refine always_bind.mpr (always_mono (fun history₂ res executed => ?_) (executeCommand_always message.command))
  refine always_handleLog fun history₃ logged logs₂ => ?_
  refine always_bind.mpr (always_mono (fun history₄ sent result => ?_) (sendMessage_always _))
  refine always_handleLog fun history₅ reported logs₃ => ?_
  rw [messageOrder_commandResultMessage] at result
  refine ⟨?_, ?_, ?_⟩
  · simp only [orders_append, logs₁.orders, executed.1, logs₂.orders, result.1, logs₃.orders]
    simp [orders]
  · simp only [refused_append, ← logs₁.2, ← logs₂.2, ← logs₃.2]
    have nothing : ¬ Refused [] := by simp [Refused]
    rintro (rfl | refused | rfl | refused | rfl | refused)
    · rfl
    · exact absurd refused executed.2
    · cases received <;> rfl
    · exact absurd refused result.2.1
    · cases received <;> cases logged <;> cases sent <;> rfl
    · exact absurd refused nothing
  · intro failed
    simp only [refused_append, sendFailed_append, ← logs₁.2, ← logs₂.2, ← logs₃.2, ← result.2.2]
    cases received <;> cases logged <;> cases sent <;> cases reported <;> simp_all

def Heeded (message : UDPMessage) (addressSize : Nat) : Prop :=
  addressSize = sizeofSockaddrIn ∧ message.senderType ≠ componentTypeServer

instance (message : UDPMessage) (addressSize : Nat) : Decidable (Heeded message addressSize) :=
  inferInstanceAs (Decidable (_ ∧ _))

def pollOrders (message : UDPMessage) (addressSize : Nat) : List Order :=
  if Heeded message addressSize then
    if message.messageType = messageTypePinTransferring then
      if message.receiverType = componentTypeServer then pinOrders message.senderType message.pin else []
    else if message.messageType = messageTypeManagerCommand then commandOrders message.command
    else []
  else []

def ReturnsLogs (message : UDPMessage) (addressSize : Nat) : Prop :=
  Heeded message addressSize ∧ message.messageType ≠ messageTypePinTransferring

structure Silent (history : List NetEvent) : Prop where
  orders : orders history = []
  refused : ¬ Refused history
  sendFailed : ¬ SendFailed history

theorem fillClientMetainfo_always (clientAddr : SockaddrIn) :
    (fillClientMetainfo clientAddr).Always fun history _ => Silent history := by
  have names : ∀ numeric, (clientNames clientAddr numeric).Always fun history _ =>
      ∃ answer, history = [⟨.getnameinfo clientAddr numeric, answer⟩] := fun numeric => by
    refine always_bind.mpr (always_request.mpr fun answer => ?_)
    cases answer with
    | some names => exact ⟨some names, rfl⟩
    | none => exact ⟨none, rfl⟩
  refine always_bind.mpr (always_mono (fun history first asked => ?_) (names false))
  refine always_bind.mpr (always_mono (fun later second askedAgain => ?_) (names true))
  obtain ⟨answer, rfl⟩ := asked
  obtain ⟨answer', rfl⟩ := askedAgain
  refine ⟨rfl, ?_, ?_⟩
  · simp [Refused, refusal]
  · simp [SendFailed]

theorem Silent.sends {expected : List Order} {ok : Bool} (silent : Silent first) (sends : Sends expected later ok) :
    Sends expected (first ++ later) ok where
  orders := by rw [orders_append, silent.orders, sends.orders, List.nil_append]
  failed no := sendFailed_append.mpr (.inr (sends.failed no))

theorem Silent.reports {expected : List Order} {ok : Bool} (silent : Silent first)
    (reports : Reports expected later ok) : Reports expected (first ++ later) ok where
  orders := by rw [orders_append, silent.orders, reports.orders, List.nil_append]
  refused refused := reports.refused ((refused_append.mp refused).resolve_left silent.refused)
  failed no := by
    rw [refused_append, sendFailed_append]
    exact (reports.failed no).imp .inr .inr

def Polled (message : UDPMessage) (addressSize : Nat) (history : List NetEvent) (ok : Bool) : Prop :=
  (ReturnsLogs message addressSize → Reports (pollOrders message addressSize) history ok) ∧
    (¬ ReturnsLogs message addressSize → Sends (pollOrders message addressSize) history ok)

theorem handleMessage_always {message : UDPMessage} {addressSize : Nat} (heeded : Heeded message addressSize)
    (info : ClientMetaInfo) : (handleMessage message info).Always (Polled message addressSize) := by
  unfold handleMessage
  split
  · rename_i isPin
    refine always_mono (fun history ok sends => ⟨fun returns => absurd isPin returns.2, fun _ => ?_⟩)
      (serverHandlePinTransferring_always message info)
    rwa [pollOrders, if_pos heeded, if_pos isPin]
  · rename_i notPin
    have returns : ReturnsLogs message addressSize := ⟨heeded, notPin⟩
    have orders : pollOrders message addressSize =
        if message.messageType = messageTypeManagerCommand then commandOrders message.command else [] := by
      rw [pollOrders, if_pos heeded, if_neg notPin]
    split
    · rename_i isNew
      refine always_mono (fun history ok logs => ⟨fun _ => ?_, fun not => absurd returns not⟩) (handleLog_always _)
      rw [orders, if_neg (by rw [isNew]; decide)]
      exact logs.reports
    · split
      · rename_i isCommand
        refine always_mono (fun history ok reports => ⟨fun _ => ?_, fun not => absurd returns not⟩)
          (serverHandlerManagerCommand_always message info)
        rwa [orders, if_pos isCommand]
      · rename_i isOther
        refine always_mono (fun history ok logs => ⟨fun _ => ?_, fun not => absurd returns not⟩) (handleLog_always _)
        rw [orders, if_neg isOther]
        exact logs.reports

theorem nonblockingPoll_always : nonblockingPoll.Always fun history ok =>
    (history = [⟨.recvfrom, .failed⟩] ∧ ok = false) ∨
      ∃ bytes addressSize address later, history = ⟨.recvfrom, .received bytes addressSize address⟩ :: later ∧
        Polled (.ofBytes bytes) addressSize later ok := by
  refine always_bind.mpr (always_request.mpr fun answer => ?_)
  cases answer with
  | failed => exact .inl ⟨rfl, rfl⟩
  | received bytes addressSize address =>
    have ignored : ¬ Heeded (.ofBytes bytes) addressSize → Polled (.ofBytes bytes) addressSize [] true := fun not =>
      ⟨fun returns => absurd returns.1 not, fun _ => ⟨by rw [pollOrders, if_neg not]; rfl, nofun⟩⟩
    dsimp only [castToSockaddrIn]
    split
    · rename_i unknown
      have other : addressSize ≠ sizeofSockaddrIn := fun same => by rw [if_pos same] at unknown; cases unknown
      exact .inr ⟨bytes, addressSize, address, [], rfl, ignored fun heeded => other heeded.1⟩
    · rename_i sockAddr known
      obtain ⟨same, -⟩ := Option.ite_none_right_eq_some.mp known
      split
      · rename_i own
        exact .inr ⟨bytes, addressSize, address, [], rfl, ignored fun heeded => heeded.2 own⟩
      · rename_i other
        refine always_bind.mpr (always_mono (fun names info silent => ?_) (fillClientMetainfo_always sockAddr))
        refine always_mono (fun later ok polled => ?_) (handleMessage_always ⟨same, other⟩ info)
        exact .inr ⟨bytes, addressSize, address, names ++ later, rfl, fun returns => silent.reports (polled.1 returns),
          fun not => silent.sends (polled.2 not)⟩

theorem append_ne_empty {a b : String} (some : a ≠ "") : a ++ b ≠ "" := by
  simp [some]

theorem handleLog_full {text : String} (someText : text ≠ "") :
    (handleLog text).Completes [⟨.queue .tryWaitFree, false⟩] false := by
  have someLog : snprintf maxServerLogSize text ≠ "" := by
    simp [snprintf, maxServerLogSize, udpMessageBufferSize, udpMessageSize, udpMessageMetainfoSize, someText]
  simp only [handleLog, nonblockingEnqueueLog, assert, decide_eq_true someLog, if_true]
  exact .step (.here _)

theorem handleLog_canEnd {text : String} (someText : text ≠ "") : (handleLog text).CanEnd :=
  ⟨_, false, handleLog_full someText⟩

theorem make_canEnd (call : Call) (answer : call.Answer) : call.make.CanEnd :=
  ⟨_, answer, completes_request.mpr rfl⟩

theorem sendMessage_canEnd (message : UDPMessage) : (sendMessage message).CanEnd :=
  make_canEnd (.sendto message.bytes) true

theorem executeCommand_canEnd (cmd : ServerCommand) : (executeCommand cmd).CanEnd := by
  unfold executeCommand
  split
  · exact canEnd_bind (make_canEnd (.alarm 1) ()) fun _ => canEnd_pure _
  · split
    · exact canEnd_bind (sendMessage_canEnd _) fun _ => canEnd_pure _
    · exact canEnd_pure _

theorem forward_canEnd {text : String} (someText : text ≠ "") (message : UDPMessage) :
    (handleLog text >>= fun _ => sendMessage message).CanEnd :=
  canEnd_bind (handleLog_canEnd someText) fun _ => sendMessage_canEnd message

theorem serverHandlePinTransferring_canEnd (message : UDPMessage) (info : ClientMetaInfo) :
    (serverHandlePinTransferring message info).CanEnd := by
  unfold serverHandlePinTransferring
  split
  · exact canEnd_pure _
  · refine canEnd_bind (handleLog_canEnd ?_) fun _ => ?_
    · repeat refine append_ne_empty ?_
      decide
    · split
      · refine forward_canEnd ?_ _
        repeat refine append_ne_empty ?_
        decide
      · split
        · refine forward_canEnd ?_ _
          repeat refine append_ne_empty ?_
          decide
        · refine canEnd_bind (canEnd_bind (handleLog_canEnd ?_) fun _ => canEnd_pure _) fun _ => canEnd_pure _
          repeat refine append_ne_empty ?_
          decide

theorem serverHandlerManagerCommand_canEnd (message : UDPMessage) (info : ClientMetaInfo) :
    (serverHandlerManagerCommand message info).CanEnd := by
  unfold serverHandlerManagerCommand
  refine canEnd_bind (handleLog_canEnd ?_) fun _ => canEnd_bind (executeCommand_canEnd _) fun _ =>
    canEnd_bind (handleLog_canEnd ?_) fun _ => canEnd_bind (sendMessage_canEnd _) fun _ =>
      canEnd_bind (handleLog_canEnd ?_) fun _ => canEnd_pure _
  · repeat refine append_ne_empty ?_
    decide
  · repeat refine append_ne_empty ?_
    decide
  · decide

theorem handleMessage_canEnd (message : UDPMessage) (info : ClientMetaInfo) : (handleMessage message info).CanEnd := by
  unfold handleMessage
  split
  · exact serverHandlePinTransferring_canEnd message info
  · split
    · refine handleLog_canEnd ?_
      repeat refine append_ne_empty ?_
      decide
    · split
      · exact serverHandlerManagerCommand_canEnd message info
      · refine handleLog_canEnd ?_
        repeat refine append_ne_empty ?_
        decide

def unknownClient : ClientMetaInfo := ⟨"unknown host", "unknown port", "unknown host", "unknown port"⟩

def afterRecvfrom (bytes : List UInt8) (addressSize : Nat) (address : SockaddrIn) : NetProgram Bool :=
  match castToSockaddrIn address addressSize with
  | none => pure true
  | some sockAddr =>
    if (UDPMessage.ofBytes bytes).senderType = componentTypeServer then pure true
    else fillClientMetainfo sockAddr >>= handleMessage (UDPMessage.ofBytes bytes)

theorem nonblockingPoll_completes {bytes : List UInt8} {addressSize : Nat} {address : SockaddrIn} {ok : Bool}
    (heeded : Heeded (.ofBytes bytes) addressSize)
    (handled : (handleMessage (.ofBytes bytes) unknownClient).Completes later ok) :
    nonblockingPoll.Completes (⟨.recvfrom, .received bytes addressSize address⟩ ::
      ⟨.getnameinfo address false, none⟩ :: ⟨.getnameinfo address true, none⟩ :: later) ok := by
  have asked : (fillClientMetainfo address).Completes
      [⟨.getnameinfo address false, none⟩, ⟨.getnameinfo address true, none⟩] unknownClient := .step (.step (.here _))
  have cast : castToSockaddrIn address addressSize = some address := if_pos heeded.1
  have rest : (afterRecvfrom bytes addressSize address).Completes
      (⟨.getnameinfo address false, none⟩ :: ⟨.getnameinfo address true, none⟩ :: later) ok := by
    simp only [afterRecvfrom, cast, if_neg heeded.2]
    exact completes_bind.mpr ⟨_, unknownClient, later, rfl, asked, handled⟩
  exact .step rest

theorem fillClientMetainfo_canEnd (clientAddr : SockaddrIn) : (fillClientMetainfo clientAddr).CanEnd := by
  have names : ∀ numeric, (clientNames clientAddr numeric).CanEnd := fun numeric =>
    ⟨[⟨.getnameinfo clientAddr numeric, none⟩], _, .step (.here _)⟩
  exact canEnd_bind (names false) fun _ => canEnd_bind (names true) fun _ => canEnd_pure _

theorem nonblockingPoll_canEnd (bytes : List UInt8) (addressSize : Nat) (address : SockaddrIn) :
    ∃ later ok, nonblockingPoll.Completes (⟨.recvfrom, .received bytes addressSize address⟩ :: later) ok := by
  have rest : (afterRecvfrom bytes addressSize address).CanEnd := by
    unfold afterRecvfrom
    split
    · exact canEnd_pure _
    · split
      · exact canEnd_pure _
      · exact canEnd_bind (fillClientMetainfo_canEnd _) fun info => handleMessage_canEnd _ info
  obtain ⟨later, ok, completes⟩ := rest
  exact ⟨later, ok, .step completes⟩

end

end ArchCompSystems.OsIhw4
