import ArchCompSystems.OsIhw4.Handling

namespace ArchCompSystems.OsIhw4

open Library Library.Program

def ExecutesShutdown : NetEvent → Prop
  | ⟨.alarm _, _⟩ => True
  | ⟨.sendto bytes, _⟩ => (UDPMessage.ofBytes bytes).messageType = messageTypeShutdownMessage
  | _ => False

def ForwardsPin (receiver : ComponentType) : NetEvent → Prop
  | ⟨.sendto bytes, _⟩ => (UDPMessage.ofBytes bytes).messageType = messageTypePinTransferring ∧
      (UDPMessage.ofBytes bytes).receiverType = receiver
  | _ => False

/-- Shutdown commands are executed and pins forwarded only for complete datagrams from the right
    component. -/
structure Validated (bytes : List UInt8) (history : List NetEvent) : Prop where
  shutdown : ∀ event ∈ history, ExecutesShutdown event →
    bytes.length = udpMessageSize ∧ (UDPMessage.ofBytes bytes).senderType = componentTypeManager ∧
      (UDPMessage.ofBytes bytes).receiverType = componentTypeServer ∧
      (UDPMessage.ofBytes bytes).messageType = messageTypeManagerCommand
  forward : ∀ receiver, ∀ event ∈ history, ForwardsPin receiver event →
    bytes.length = udpMessageSize ∧ (UDPMessage.ofBytes bytes).receiverType = componentTypeServer ∧
      ((UDPMessage.ofBytes bytes).senderType = componentTypeFirstStageWorker ∧
          receiver = componentTypeSecondStageWorker ∨
        (UDPMessage.ofBytes bytes).senderType = componentTypeSecondStageWorker ∧
          receiver = componentTypeThirdStageWorker)

/-- What the server would act on is what it should. -/
structure Checked (bytes : List UInt8) (message : UDPMessage) : Prop where
  command : message.messageType = messageTypeManagerCommand →
    message.command.clientType = componentTypeServer ∨ isShutdownClient message.command.clientType = true →
    bytes.length = udpMessageSize ∧ message.senderType = componentTypeManager ∧
      message.receiverType = componentTypeServer
  pin : message.messageType = messageTypePinTransferring → message.receiverType = componentTypeServer →
    message.senderType = componentTypeFirstStageWorker ∨ message.senderType = componentTypeSecondStageWorker →
    bytes.length = udpMessageSize

section

variable {event : NetEvent} {history : List NetEvent} {bytes : List UInt8} {addressSize : Nat}

theorem executesShutdown_iff : ExecutesShutdown event ↔
    order event = some .alarm ∨ ∃ client, order event = some (.shutdown client) := by
  obtain ⟨call, answer⟩ := event
  cases call with
  | alarm seconds => simp [ExecutesShutdown, order]
  | sendto bytes =>
    simp only [ExecutesShutdown, order, messageOrder]
    split
    · rename_i isShutdown
      simp [isShutdown]
    · split <;> simp_all
  | _ => simp [ExecutesShutdown, order]

theorem forwardsPin_iff {receiver : ComponentType} : ForwardsPin receiver event ↔
    ∃ pin, order event = some (.forward receiver pin) := by
  obtain ⟨call, answer⟩ := event
  cases call with
  | sendto bytes =>
    simp only [ForwardsPin, order, messageOrder]
    split
    · rename_i isShutdown
      simp [isShutdown, messageTypeShutdownMessage, messageTypePinTransferring]
    · split <;> simp_all
  | _ => simp [ForwardsPin, order]

def OrderChecked (bytes : List UInt8) : Order → Prop
  | .alarm | .shutdown _ =>
    bytes.length = udpMessageSize ∧ (UDPMessage.ofBytes bytes).senderType = componentTypeManager ∧
      (UDPMessage.ofBytes bytes).receiverType = componentTypeServer ∧
      (UDPMessage.ofBytes bytes).messageType = messageTypeManagerCommand
  | .forward receiver _ =>
    bytes.length = udpMessageSize ∧ (UDPMessage.ofBytes bytes).receiverType = componentTypeServer ∧
      ((UDPMessage.ofBytes bytes).senderType = componentTypeFirstStageWorker ∧
          receiver = componentTypeSecondStageWorker ∨
        (UDPMessage.ofBytes bytes).senderType = componentTypeSecondStageWorker ∧
          receiver = componentTypeThirdStageWorker)

theorem mem_orders {o : Order} : o ∈ orders history ↔ ∃ event ∈ history, order event = some o := List.mem_filterMap

theorem validated_iff_orders : Validated bytes history ↔ ∀ o ∈ orders history, OrderChecked bytes o := by
  constructor
  · intro validated o member
    obtain ⟨event, there, ordered⟩ := mem_orders.mp member
    cases o with
    | alarm => exact validated.shutdown event there (executesShutdown_iff.mpr (.inl ordered))
    | shutdown client => exact validated.shutdown event there (executesShutdown_iff.mpr (.inr ⟨client, ordered⟩))
    | forward receiver pin => exact validated.forward receiver event there (forwardsPin_iff.mpr ⟨pin, ordered⟩)
  · intro checked
    refine ⟨fun event there executes => ?_, fun receiver event there forwards => ?_⟩
    · rcases executesShutdown_iff.mp executes with ordered | ⟨client, ordered⟩
      · exact checked .alarm (mem_orders.mpr ⟨event, there, ordered⟩)
      · exact checked (.shutdown client) (mem_orders.mpr ⟨event, there, ordered⟩)
    · obtain ⟨pin, ordered⟩ := forwardsPin_iff.mp forwards
      exact checked (.forward receiver pin) (mem_orders.mpr ⟨event, there, ordered⟩)

theorem commandOrders_checked_iff (isCommand : (UDPMessage.ofBytes bytes).messageType = messageTypeManagerCommand)
    (cmd : ServerCommand) : (∀ o ∈ commandOrders cmd, OrderChecked bytes o) ↔
      (cmd.clientType = componentTypeServer ∨ isShutdownClient cmd.clientType = true →
        bytes.length = udpMessageSize ∧ (UDPMessage.ofBytes bytes).senderType = componentTypeManager ∧
          (UDPMessage.ofBytes bytes).receiverType = componentTypeServer) := by
  unfold commandOrders
  split
  · rename_i isServer
    simp [OrderChecked, isServer, isCommand]
  · rename_i notServer
    split
    · rename_i isClient
      simp [OrderChecked, isClient, isCommand]
    · rename_i notClient
      simp [notServer, notClient]

theorem pinOrders_checked_iff (addressed : (UDPMessage.ofBytes bytes).receiverType = componentTypeServer) (pin : Pin) :
    (∀ o ∈ pinOrders (UDPMessage.ofBytes bytes).senderType pin, OrderChecked bytes o) ↔
      ((UDPMessage.ofBytes bytes).senderType = componentTypeFirstStageWorker ∨
        (UDPMessage.ofBytes bytes).senderType = componentTypeSecondStageWorker → bytes.length = udpMessageSize) := by
  unfold pinOrders
  split
  · rename_i isFirst
    simp [OrderChecked, isFirst, addressed]
  · rename_i notFirst
    split
    · rename_i isSecond
      simp [OrderChecked, isSecond, addressed]
    · rename_i notSecond
      simp [notFirst, notSecond]

theorem pollOrders_checked_iff : (∀ o ∈ pollOrders (.ofBytes bytes) addressSize, OrderChecked bytes o) ↔
    (Heeded (.ofBytes bytes) addressSize → Checked bytes (.ofBytes bytes)) := by
  unfold pollOrders
  split
  · rename_i heeded
    rw [imp_iff_right heeded]
    split
    · rename_i isPin
      have notCommand : (UDPMessage.ofBytes bytes).messageType ≠ messageTypeManagerCommand := by
        rw [isPin]
        decide
      split
      · rename_i addressed
        rw [pinOrders_checked_iff addressed]
        exact ⟨fun complete => ⟨fun isCommand => absurd isCommand notCommand, fun _ _ => complete⟩,
          fun checked => checked.pin isPin addressed⟩
      · rename_i elsewhere
        exact iff_of_true nofun ⟨fun isCommand => absurd isCommand notCommand,
          fun _ addressed => absurd addressed elsewhere⟩
    · rename_i notPin
      split
      · rename_i isCommand
        rw [commandOrders_checked_iff isCommand]
        exact ⟨fun complete => ⟨fun _ => complete, fun isPin => absurd isPin notPin⟩,
          fun checked => checked.command isCommand⟩
      · rename_i notCommand
        exact iff_of_true nofun ⟨fun isCommand => absurd isCommand notCommand, fun isPin => absurd isPin notPin⟩
  · rename_i unheeded
    exact iff_of_true nofun fun heeded => absurd heeded unheeded

theorem orders_of_poll {address : SockaddrIn} {later : List NetEvent} {ok : Bool}
    (completes : nonblockingPoll.Completes (⟨.recvfrom, .received bytes addressSize address⟩ :: later) ok) :
    orders (⟨.recvfrom, .received bytes addressSize address⟩ :: later) = pollOrders (.ofBytes bytes) addressSize := by
  rcases always_iff.mp nonblockingPoll_always _ ok completes with ⟨same, -⟩ | ⟨bytes', size', address', later', same, polled⟩
  · cases same
  · cases same
    by_cases returns : ReturnsLogs (.ofBytes bytes) addressSize
    · exact (polled.1 returns).orders
    · exact (polled.2 returns).orders

/-- A poll acts only on validated datagrams exactly if the datagram is not heeded, or is complete and
    from the right component wherever the server acts on it. -/
theorem poll_validated_iff {address : SockaddrIn} {later : List NetEvent} {ok : Bool}
    (completes : nonblockingPoll.Completes (⟨.recvfrom, .received bytes addressSize address⟩ :: later) ok) :
    Validated bytes (⟨.recvfrom, .received bytes addressSize address⟩ :: later) ↔
      (Heeded (.ofBytes bytes) addressSize → Checked bytes (.ofBytes bytes)) := by
  rw [validated_iff_orders, orders_of_poll completes, pollOrders_checked_iff]

end

/-- The command to stop the server, as a component of this type would send it. -/
def stopServer (sender : ComponentType) : List UInt8 :=
  (⟨sender, componentTypeServer, messageTypeManagerCommand, wordBytes componentTypeServer⟩ : UDPMessage).bytes

/-- Whoever sends the command stops the server. -/
theorem worker_arms_alarm : ¬ ∀ (bytes : List UInt8) (addressSize : Nat) (address : SockaddrIn)
    (later : List NetEvent) (ok : Bool), bytes.length ≤ udpMessageSize →
    nonblockingPoll.Completes (⟨.recvfrom, .received bytes addressSize address⟩ :: later) ok →
    Validated bytes (⟨.recvfrom, .received bytes addressSize address⟩ :: later) := by
  intro all
  obtain ⟨later, ok, completes⟩ := nonblockingPoll_canEnd (stopServer componentTypeSecondStageWorker) sizeofSockaddrIn ⟨0, 0⟩
  have validated := all _ _ _ later ok (by decide +kernel) completes
  have given : .alarm ∈ pollOrders (.ofBytes (stopServer componentTypeSecondStageWorker)) sizeofSockaddrIn := by
    decide +kernel
  rw [← orders_of_poll completes] at given
  have sender := (validated_iff_orders.mp validated .alarm given).2.1
  revert sender
  decide +kernel

/-- A manager's command is executed, as it should. -/
theorem manager_arms_alarm : ∃ later ok,
    nonblockingPoll.Completes
      (⟨.recvfrom, .received (stopServer componentTypeManager) sizeofSockaddrIn ⟨0, 0⟩⟩ :: later) ok ∧
    Validated (stopServer componentTypeManager)
      (⟨.recvfrom, .received (stopServer componentTypeManager) sizeofSockaddrIn ⟨0, 0⟩⟩ :: later) := by
  obtain ⟨later, ok, completes⟩ := nonblockingPoll_canEnd (stopServer componentTypeManager) sizeofSockaddrIn ⟨0, 0⟩
  refine ⟨later, ok, completes, (poll_validated_iff completes).mpr fun _ => ⟨fun _ _ => ?_, fun isPin => ?_⟩⟩
  · decide +kernel
  · revert isPin
    decide +kernel

end ArchCompSystems.OsIhw4
