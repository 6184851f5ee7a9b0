import ArchCompSystems.OsIhw4.ClientSocket

namespace ArchCompSystems.OsIhw4

open Library Library.Program Library.Machine

def Call.isAbort : Call → Bool
  | .abort _ => true
  | _ => false

/-- The program that ends with nothing where an assertion fails. -/
def outcome {α : Type} : NetProgram α → NetProgram (Option α)
  | .done value => .done (some value)
  | .call c next => if c.isAbort then .done none else .call c fun answer => outcome (next answer)

/-- However its calls are answered, the program ends in `post` or is cut off. -/
def Ends {α : Type} (p : NetProgram α) (post : List NetEvent → Option α → Prop) : Prop := (outcome p).Always post

section

variable {α β γ : Type} {p : NetProgram α} {f : α → NetProgram β} {post weaker : List NetEvent → Option α → Prop}

theorem ends_pure {value : α} (holds : post [] (some value)) : Ends (pure value) post := holds

theorem ends_mono (implies : ∀ history result, post history result → weaker history result) (ends : Ends p post) :
    Ends p weaker := always_mono implies ends

theorem ends_call {c : Call} {next : c.Answer → NetProgram α} (goes : c.isAbort = false)
    (ends : ∀ answer, Ends (next answer) fun later => post (⟨c, answer⟩ :: later)) :
    Ends (.call c next : NetProgram α) post := by
  unfold Ends outcome
  rw [goes]
  exact fun answer _ _ => ends answer

theorem ends_request {c : Call} {next : c.Answer → NetProgram α} (goes : c.isAbort = false)
    (ends : ∀ answer, Ends (next answer) fun later => post (⟨c, answer⟩ :: later)) : Ends (c.make >>= next) post :=
  ends_call goes ends

theorem outcome_bind : outcome (p >>= f) = outcome p >>= fun result =>
    match result with
    | none => pure none
    | some value => outcome (f value) := by
  induction p with
  | done value => rfl
  | call c next ih =>
    simp only [call_bind, outcome]
    split
    · rfl
    · simp only [call_bind, ih]

theorem ends_bind {post : List NetEvent → Option β → Prop} (ends : Ends p fun history result =>
      match result with
      | none => post history none
      | some value => Ends (f value) fun later => post (history ++ later)) : Ends (p >>= f) post := by
  unfold Ends at *
  rw [outcome_bind]
  refine always_bind.mpr (always_mono (fun history result after => ?_) ends)
  cases result with
  | none => rwa [always_pure, List.append_nil]
  | some value => exact after

theorem ends_assert {assertion : String} {post : List NetEvent → Option β → Prop} {holds : Bool} {rest : NetProgram β}
    (fails : holds = false → post [] none) (ends : holds = true → Ends rest post) :
    Ends (assert holds assertion >>= fun _ => rest) post := by
  cases holds with
  | false => exact fails rfl
  | true => exact ends rfl

end

def isErrno : NetEvent → Bool
  | ⟨.errno, _⟩ => true
  | _ => false

/-- The last call of a history but for looking at `errno`. -/
def lastOperation (history : List NetEvent) : Option NetEvent := (history.filter fun event => !isErrno event).getLast?

theorem lastOperation_append {history later : List NetEvent} :
    lastOperation (history ++ later) = (lastOperation later).or (lastOperation history) := by
  rw [lastOperation, List.filter_append, List.getLast?_append, lastOperation, lastOperation]

def LastTells {α : Type} (relation : NetEvent → Option α → Prop) (history : List NetEvent) (result : Option α) : Prop :=
  ∃ event ∈ lastOperation history, relation event result

theorem LastTells.prepend {α : Type} {relation : NetEvent → Option α → Prop} {later : List NetEvent} {result : Option α}
    (tells : LastTells relation later result) (history : List NetEvent) : LastTells relation (history ++ later) result := by
  obtain ⟨event, last, related⟩ := tells
  refine ⟨event, ?_, related⟩
  rw [lastOperation_append, Option.mem_def.mp last]
  rfl

def FlowTells {β γ : Type} (invariant : β → Prop) (relation : NetEvent → Option γ → Prop) (history : List NetEvent) :
    Option (LoopFlow β γ) → Prop
  | none => LastTells relation history none
  | some (.next carried) => invariant carried
  | some (.exit result) => LastTells relation history (some result)

theorem ends_loop {β γ : Type} {round : β → NetProgram (LoopFlow β γ)} {invariant : β → Prop}
    {relation : NetEvent → Option γ → Prop} {rounds : Nat} {start : β}
    (each : ∀ carried, invariant carried → Ends (round carried) (FlowTells invariant relation))
    (holds : invariant start) : Ends (loop rounds start round) (LastTells relation) := by
  induction rounds generalizing start with
  | zero => exact fun answer => answer.elim
  | succ rounds ih =>
    rw [loop_succ]
    refine ends_bind (ends_mono (fun history flow after => ?_) (each start holds))
    cases flow with
    | none => exact after
    | some flow =>
      cases flow with
      | next carried' => exact ends_mono (fun later result tells => tells.prepend history) (ih after)
      | exit result =>
        refine ends_pure ?_
        rw [List.append_nil]
        exact after

/-- `recv` has given a shutdown from the server for clients of this type. -/
def isShutdownAnswer (type : ComponentType) : RecvAnswer → Bool
  | .failed _ => false
  | .received bytes => bytes.length == udpMessageSize && isServerMessageFor type bytes && isShutdown bytes

/-- `recv` has failed or given less than a message. -/
def isFailedAnswer : RecvAnswer → Bool
  | .failed _ => true
  | .received bytes => bytes.length != udpMessageSize

/-- How `client_should_stop` ends a loop: with a shutdown, with an error of the socket, or with its assertion. -/
inductive StopTells (type : ComponentType) : NetEvent → Option Bool → Prop where
  | shutdown {peek : Bool} {answer : RecvAnswer} (told : isShutdownAnswer type answer = true) :
      StopTells type ⟨.recv true peek, answer⟩ (some true)
  | dead {answer : Option Nat} (error : answer ≠ some 0) : StopTells type ⟨.getsockopt, answer⟩ (some true)
  | failed {peek : Bool} {answer : RecvAnswer} (lost : isFailedAnswer answer = true) :
      StopTells type ⟨.recv true peek, answer⟩ none

def SkipTells (type : ComponentType) (event : NetEvent) : Option (MessageSkipResult × List UInt8) → Prop
  | none => False
  | some (.noMessagesInSocket, _) => True
  | some (.socketError, _) => StopTells type event none
  | some (.receivedMessageFromServer, bytes) => ∃ peek, event = ⟨.recv true peek, .received bytes⟩ ∧
      bytes.length = udpMessageSize ∧ (UDPMessage.ofBytes bytes).senderType = componentTypeServer ∧
      includesClient (.ofBytes bytes) type = true

inductive LoopTells (type : ComponentType) : NetEvent → Option ExitCode → Prop where
  | stopped {event : NetEvent} (tells : StopTells type event (some true)) : LoopTells type event (some .exitSuccess)
  | aborted {event : NetEvent} (tells : StopTells type event none) : LoopTells type event none
  | notReceived {peek : Bool} {answer : RecvAnswer}
      (lost : isShutdownAnswer type answer = true ∨ isFailedAnswer answer = true) :
      LoopTells type ⟨.recv false peek, answer⟩ (some .exitFailure)
  | notSent {bytes : List UInt8} : LoopTells type ⟨.sendto bytes, false⟩ (some .exitFailure)

/-- Without a message, `receive_data` has had a shutdown or an error. -/
def ReceiveTells (type : ComponentType) (event : NetEvent) : Option (Bool × List UInt8) → Prop
  | none => False
  | some (true, _) => True
  | some (false, _) => LoopTells type event (some .exitFailure)

section

variable {type : ComponentType} {expected : MessageType} {message bytes : List UInt8}

theorem ends_recv {α : Type} {dontWait peek : Bool} {f : Int × List UInt8 → NetProgram α}
    {post : List NetEvent → Option α → Prop} (full : message.length = udpMessageSize)
    (failed : ∀ answer n message', n ≠ (udpMessageSize : Int) → isFailedAnswer answer = true →
      (n = 0 → message'.length = udpMessageSize) →
      Ends (f (n, message')) fun later => post (⟨.recv dontWait peek, answer⟩ :: later))
    (received : ∀ bytes, bytes.length = udpMessageSize →
      Ends (f (udpMessageSize, bytes)) fun later => post (⟨.recv dontWait peek, .received bytes⟩ :: later)) :
    Ends (recvMessage dontWait peek message >>= f) post := by
  refine ends_call rfl fun answer => ?_
  cases answer with
  | failed error => exact failed (.failed error) (-1) message (by decide) rfl fun zero => absurd zero (by decide)
  | received bytes =>
    by_cases whole : bytes.length = udpMessageSize
    · have overwritten : bytes ++ message.drop bytes.length = bytes := by
        rw [whole, List.drop_of_length_le (Nat.le_of_eq full), List.append_nil]
      show Ends (f ((bytes.length : Int), bytes ++ message.drop bytes.length)) _
      rw [overwritten, whole]
      exact received bytes whole
    · refine failed (.received bytes) bytes.length _ (fun same => whole (Int.ofNat_inj.mp same)) (bne_iff_ne.mpr whole) ?_
      intro zero
      rw [Int.natCast_eq_zero] at zero
      rw [List.length_append, zero, List.drop_zero, full, Nat.zero_add]

theorem ends_clientHandleErrno {α : Type} {rest : NetProgram α} {post : List NetEvent → Option α → Prop}
    (ends : ∀ error, Ends rest fun later => post (⟨.errno, error⟩ :: later)) :
    Ends (clientHandleErrno >>= fun _ => rest) post := by
  refine ends_call rfl fun error => ?_
  cases error <;> exact ends _

theorem messageOf_of_length (whole : bytes.length = udpMessageSize) : UDPMessage.ofBytes bytes = messageOf bytes := by
  rw [messageOf, List.take_of_length_le (Nat.le_of_eq whole)]

theorem isShutdownAnswer_iff (whole : bytes.length = udpMessageSize) : isShutdownAnswer type (.received bytes) = true ↔
    ((UDPMessage.ofBytes bytes).senderType = componentTypeServer ∧ includesClient (.ofBytes bytes) type = true) ∧
      (UDPMessage.ofBytes bytes).messageType = messageTypeShutdownMessage := by
  have complete : isComplete bytes = true := decide_eq_true (Nat.le_of_eq whole.symm)
  simp only [isShutdownAnswer, isServerMessageFor, isShutdown, messageOf_of_length whole, whole, complete, beq_self_eq_true,
    Bool.true_and, Bool.and_eq_true, beq_iff_eq]

theorem ends_skipMessages (rounds : Nat) (full : message.length = udpMessageSize) :
    Ends (skipMessagesNotFromTheServer rounds type message) (LastTells (SkipTells type)) := by
  refine ends_loop (fun message (full : message.length = udpMessageSize) => ?_) full
  refine ends_recv full (fun answer n message' short failed _ => ?_) fun bytes whole => ?_
  · dsimp only
    rw [if_pos short]
    refine ends_request rfl fun errnoVal => ?_
    by_cases again : errnoVal = .eagain
    · rw [if_pos again]
      exact ends_pure ⟨_, rfl, True.intro⟩
    · rw [if_neg again]
      exact ends_clientHandleErrno fun error => ends_pure ⟨_, rfl, .failed failed⟩
  · dsimp only
    rw [if_neg fun other => other rfl]
    by_cases forClient : (UDPMessage.ofBytes bytes).senderType = componentTypeServer ∧ includesClient (.ofBytes bytes) type = true
    · rw [if_pos forClient]
      exact ends_pure ⟨_, rfl, true, rfl, whole, forClient⟩
    · rw [if_neg forClient]
      refine ends_recv whole (fun answer n message' short failed _ => ?_) fun bytes' whole' => ?_
      · dsimp only
        rw [if_pos short]
        exact ends_clientHandleErrno fun error => ends_pure ⟨_, rfl, .failed failed⟩
      · dsimp only
        rw [if_neg fun other => other rfl]
        exact ends_pure whole'

theorem ends_isSocketAlive {α : Type} {f : Bool → NetProgram α} {post : List NetEvent → Option α → Prop}
    (alive : Ends (f true) fun later => post (⟨.getsockopt, some 0⟩ :: later))
    (dead : ∀ answer, answer ≠ some 0 → Ends (f false) fun later => post (⟨.getsockopt, answer⟩ :: later)) :
    Ends (isSocketAlive >>= f) post := by
  refine ends_call rfl fun answer => ?_
  cases answer with
  | none => exact dead none nofun
  | some error =>
    show Ends (f (decide (error = 0))) _
    by_cases zero : error = 0
    · subst zero
      exact alive
    · rw [decide_eq_false zero]
      exact dead (some error) fun same => zero (Option.some.inj same)

theorem ends_clientShouldStop (rounds : Nat) : Ends (clientShouldStop rounds type) fun history stops =>
    match stops with
    | some false => True
    | stops => LastTells (StopTells type) history stops := by
  refine ends_isSocketAlive ?_ fun answer dead => ends_pure ⟨_, rfl, .dead dead⟩
  refine ends_bind (ends_mono (fun history result tells => ?_) (ends_skipMessages rounds length_emptyMessage))
  obtain ⟨event, last, related⟩ := tells
  rcases result with _ | ⟨result, message⟩
  · exact related.elim
  have last' : event ∈ lastOperation (⟨.getsockopt, some 0⟩ :: (history ++ [])) := by
    rw [List.append_nil, ← List.singleton_append, lastOperation_append, Option.mem_def.mp last]
    rfl
  cases result with
  | receivedMessageFromServer =>
    obtain ⟨peek, rfl, whole, sender, included⟩ := related
    refine ends_assert (fun fails => ?_) fun _ => ends_assert (fun fails => ?_) fun _ => ends_pure ?_
    · exact absurd sender (of_decide_eq_false fails)
    · rw [included] at fails
      cases fails
    · by_cases shutdown : (UDPMessage.ofBytes message).messageType = messageTypeShutdownMessage
      · rw [decide_eq_true shutdown]
        exact ⟨_, last', .shutdown ((isShutdownAnswer_iff whole).mpr ⟨⟨sender, included⟩, shutdown⟩)⟩
      · rw [decide_eq_false shutdown]
        exact True.intro
  | noMessagesInSocket => exact True.intro
  | socketError => exact ends_assert (fun _ => ⟨event, last', related⟩) nofun

theorem untilExpected_tells (full : message.length = udpMessageSize) {answer : RecvAnswer} :
    FlowTells (fun message => message.length = udpMessageSize) (ReceiveTells type) [⟨.recv false false, answer⟩]
      (some (untilExpected type expected message)) := by
  unfold untilExpected
  split
  · exact full
  · exact ⟨_, rfl, True.intro⟩

theorem ends_receiveData (rounds : Nat) (full : message.length = udpMessageSize) :
    Ends (receiveData rounds type message expected) (LastTells (ReceiveTells type)) := by
  refine ends_loop (fun message (full : message.length = udpMessageSize) => ?_) full
  refine ends_recv full (fun answer n message' short failed full' => ?_) fun bytes whole => ?_
  · dsimp only
    by_cases nothing : n = 0
    · rw [if_pos nothing]
      exact ends_pure (untilExpected_tells (full' nothing))
    · rw [if_neg nothing, if_pos short]
      exact ends_clientHandleErrno fun error => ends_pure ⟨_, rfl, .notReceived (.inr failed)⟩
  · dsimp only
    rw [if_neg (by decide), if_neg fun other => other rfl]
    by_cases sender : (UDPMessage.ofBytes bytes).senderType = componentTypeServer
    · rw [if_neg fun other => other sender]
      by_cases shutdown : (UDPMessage.ofBytes bytes).messageType = messageTypeShutdownMessage ∧
          includesClient (.ofBytes bytes) type = true
      · rw [if_pos shutdown]
        refine ends_pure ⟨_, rfl, .notReceived (.inl ?_)⟩
        exact (isShutdownAnswer_iff whole).mpr ⟨⟨sender, shutdown.2⟩, shutdown.1⟩
      · rw [if_neg shutdown]
        exact ends_pure (untilExpected_tells whole)
    · rw [if_pos sender]
      exact ends_pure (untilExpected_tells whole)

theorem FlowTells.prepend {β γ : Type} {invariant : β → Prop} {relation : NetEvent → Option γ → Prop}
    {later : List NetEvent} {flow : Option (LoopFlow β γ)} (tells : FlowTells invariant relation later flow)
    (history : List NetEvent) : FlowTells invariant relation (history ++ later) flow := by
  rcases flow with _ | carried | result
  · exact LastTells.prepend tells history
  · exact tells
  · exact LastTells.prepend tells history

abbrev RoundTells (type : ComponentType) : List NetEvent → Option (LoopFlow Unit ExitCode) → Prop :=
  FlowTells (fun _ => True) (LoopTells type)

theorem ends_untilShouldStop {rounds : Nat} {rest : NetProgram (LoopFlow Unit ExitCode)} (ends : Ends rest (RoundTells type)) :
    Ends (clientShouldStop rounds type >>= fun stops => if stops then pure (.exit .exitSuccess) else rest)
      (RoundTells type) := by
  refine ends_bind (ends_mono (fun history stops tells => ?_) (ends_clientShouldStop rounds))
  cases stops with
  | none =>
    obtain ⟨event, last, related⟩ := tells
    exact ⟨event, last, .aborted related⟩
  | some stops =>
    cases stops with
    | false => exact ends_mono (fun later flow after => after.prepend history) ends
    | true =>
      obtain ⟨event, last, related⟩ := tells
      have stopped : LastTells (LoopTells type) (history ++ []) (some .exitSuccess) :=
        ⟨event, by rwa [List.append_nil], .stopped related⟩
      exact ends_pure stopped

theorem ends_receiving {rounds : Nat} {f : Bool × List UInt8 → NetProgram (LoopFlow Unit ExitCode)}
    (lost : ∀ message, f (false, message) = pure (.exit .exitFailure))
    (received : ∀ message, Ends (f (true, message)) (RoundTells type)) :
    Ends (receiveData rounds type emptyMessage expected >>= f) (RoundTells type) := by
  refine ends_bind (ends_mono (fun history result tells => ?_) (ends_receiveData rounds length_emptyMessage))
  obtain ⟨event, last, related⟩ := tells
  rcases result with _ | ⟨res, message⟩
  · exact related.elim
  cases res with
  | false =>
    have failed : LastTells (LoopTells type) (history ++ []) (some .exitFailure) :=
      ⟨event, by rwa [List.append_nil], related⟩
    show Ends (f (false, message)) _
    rw [lost]
    exact ends_pure failed
  | true => exact ends_mono (fun later flow after => after.prepend history) (received message)

theorem secondWorker_round_ends (rounds : Nat) :
    Ends (SecondWorker.round rounds) (RoundTells componentTypeSecondStageWorker) := by
  have receives : receiveNotCrookedPin rounds componentTypeSecondStageWorker =
      receivePin rounds componentTypeSecondStageWorker := rfl
  have sends : ∀ pin, sendSharpenedPin componentTypeSecondStageWorker pin =
      sendPin componentTypeSecondStageWorker pin := fun _ => rfl
  rw [SecondWorker.round, receives, receivePin, bind_assoc]
  refine ends_receiving (fun message => rfl) fun message => ?_
  refine ends_request rfl fun _ => ?_
  refine ends_mono (fun later flow after => after.prepend [_]) (ends_untilShouldStop ?_)
  rw [sends]
  refine ends_request rfl fun sent => ?_
  cases sent with
  | false => exact ends_pure ⟨_, rfl, .notSent⟩
  | true => exact ends_pure True.intro

theorem thirdWorker_round_ends (rounds : Nat) :
    Ends (ThirdWorker.round rounds) (RoundTells componentTypeThirdStageWorker) := by
  have receives : receiveSharpenedPin rounds componentTypeThirdStageWorker =
      receivePin rounds componentTypeThirdStageWorker := rfl
  rw [ThirdWorker.round, receives, receivePin, bind_assoc]
  refine ends_receiving (fun message => rfl) fun message => ?_
  exact ends_request rfl fun _ => ends_pure True.intro

theorem receiveServerLog_eq (rounds : Nat) :
    receiveServerLog rounds componentTypeLogsCollector = (do
      let (res, message) ← receiveData rounds componentTypeLogsCollector emptyMessage messageTypeLog
      return (res, (UDPMessage.ofBytes message).messageContent)) := rfl

theorem logsCollector_round_ends (rounds : Nat) :
    Ends (LogsCollector.round rounds) (RoundTells componentTypeLogsCollector) := by
  rw [LogsCollector.round, receiveServerLog_eq, bind_assoc]
  exact ends_receiving (fun message => rfl) fun message => ends_pure True.intro

end

/-- The clients that only receive, or receive before they send. -/
inductive Receiver where
  | secondWorker
  | thirdWorker
  | logsCollector
  deriving DecidableEq

namespace Receiver

def type : Receiver → ComponentType
  | secondWorker => componentTypeSecondStageWorker
  | thirdWorker => componentTypeThirdStageWorker
  | logsCollector => componentTypeLogsCollector

def startRuntimeLoop (rounds : Nat) : Receiver → NetProgram ExitCode
  | secondWorker => SecondWorker.startRuntimeLoop rounds
  | thirdWorker => ThirdWorker.startRuntimeLoop rounds
  | logsCollector => LogsCollector.startRuntimeLoop rounds

theorem ends (receiver : Receiver) (rounds : Nat) :
    Ends (receiver.startRuntimeLoop rounds) (LastTells (LoopTells receiver.type)) := by
  cases receiver with
  | secondWorker => exact ends_loop (fun _ _ => ends_untilShouldStop (secondWorker_round_ends rounds)) True.intro
  | thirdWorker => exact ends_loop (fun _ _ => ends_untilShouldStop (thirdWorker_round_ends rounds)) True.intro
  | logsCollector => exact ends_loop (fun _ _ => ends_untilShouldStop (logsCollector_round_ends rounds)) True.intro

end Receiver

def isOrderedShutdown (type : ComponentType) : NetEvent → Bool
  | ⟨.recv _ _, answer⟩ => isShutdownAnswer type answer
  | _ => false

def isSocketError : NetEvent → Bool
  | ⟨.recv _ _, answer⟩ => isFailedAnswer answer
  | ⟨.getsockopt, answer⟩ => answer ≠ some 0
  | ⟨.sendto _, sent⟩ => !sent
  | _ => false

/-- A loop that ends with a shutdown returns `EXIT_SUCCESS`, and one that ends with an error `EXIT_FAILURE`. -/
structure RightStatus (type : ComponentType) (history : List NetEvent) (result : Option ExitCode) : Prop where
  shutdown : (lastOperation history).any (isOrderedShutdown type) = true → result = some .exitSuccess
  error : (lastOperation history).any isSocketError = true → result = some .exitFailure

/-- The shutdown came to `client_should_stop`, or the error to `receive_data` or `send_message`. -/
def isRightlyHandled (type : ComponentType) : NetEvent → Bool
  | ⟨.recv dontWait _, answer⟩ => dontWait == isShutdownAnswer type answer
  | ⟨.sendto _, _⟩ => true
  | _ => false

theorem not_failed_of_shutdown {type : ComponentType} {answer : RecvAnswer} (told : isShutdownAnswer type answer = true) :
    isFailedAnswer answer = false := by
  cases answer with
  | failed error => cases told
  | received bytes =>
    simp only [isShutdownAnswer, Bool.and_eq_true, beq_iff_eq] at told
    exact bne_eq_false_iff_eq.mpr told.1.1

theorem not_shutdown_of_failed {type : ComponentType} {answer : RecvAnswer} (lost : isFailedAnswer answer = true) :
    isShutdownAnswer type answer = false := by
  by_contra told
  rw [not_failed_of_shutdown (Bool.of_not_eq_false told)] at lost
  cases lost

/-- Whatever datagrams come and whatever fails, a loop that has ended has the right status if and only if it was
    ended where that is rightly handled. -/
theorem rightStatus_iff {receiver : Receiver} {rounds : Nat} {history : List NetEvent} {result : Option ExitCode}
    (ended : (outcome (receiver.startRuntimeLoop rounds)).Completes history result) :
    RightStatus receiver.type history result ↔ (lastOperation history).any (isRightlyHandled receiver.type) = true := by
  obtain ⟨event, found, tells⟩ := always_iff.mp (receiver.ends rounds) _ _ ended
  rw [Option.mem_def] at found
  have status : RightStatus receiver.type history result ↔
      (isOrderedShutdown receiver.type event = true → result = some .exitSuccess) ∧
        (isSocketError event = true → result = some .exitFailure) := by
    constructor
    · rintro ⟨shutdown, error⟩
      rw [found, Option.any_some] at shutdown error
      exact ⟨shutdown, error⟩
    · rintro ⟨shutdown, error⟩
      refine ⟨?_, ?_⟩ <;> rw [found, Option.any_some]
      · exact shutdown
      · exact error
  rw [status, found, Option.any_some]
  cases tells with
  | stopped tells =>
    cases tells with
    | shutdown told => simp [isOrderedShutdown, isSocketError, isRightlyHandled, told, not_failed_of_shutdown told]
    | dead error => simp [isOrderedShutdown, isSocketError, isRightlyHandled, error]
  | aborted tells =>
    cases tells with
    | failed lost =>
      simp [isOrderedShutdown, isSocketError, isRightlyHandled, lost,
        @not_shutdown_of_failed receiver.type _ lost]
  | notReceived lost =>
    rcases lost with told | lost
    · simp [isOrderedShutdown, isSocketError, isRightlyHandled, told, not_failed_of_shutdown told]
    · simp [isOrderedShutdown, isSocketError, isRightlyHandled, lost,
        @not_shutdown_of_failed receiver.type _ lost]
  | notSent => simp [isOrderedShutdown, isSocketError, isRightlyHandled]

def toldWhileWaiting (type : ComponentType) : (c : Call) → Unit → Option c.Answer
  | .getsockopt, _ => some (some 0)
  | .recv true _, _ => some (.failed .eagain)
  | .recv false _, _ => some (.received (shutdownMessage type).bytes)
  | .errno, _ => some .eagain
  | _, _ => none

def toldBefore (type : ComponentType) : (c : Call) → Unit → Option c.Answer
  | .getsockopt, _ => some (some 0)
  | .recv _ _, _ => some (.received (shutdownMessage type).bytes)
  | _, _ => none

theorem exists_ended {p : NetProgram ExitCode} {policy : (c : Call) → Unit → Option c.Answer}
    {check : List NetEvent → Option ExitCode → Bool}
    (checked : ((freeMachine Call Call.Answer).exec () policy (outcome p) ()).any
      (fun ended => check ended.1 ended.2.1) = true) :
    ∃ history result, (outcome p).Completes history result ∧ check history result = true := by
  obtain ⟨⟨history, result, _⟩, executed, holds⟩ := (Option.any_eq_true ..).mp checked
  exact ⟨history, result, completes_iff_runs.mpr (runs_of_exec executed), holds⟩

/-- A third worker for which the shutdown waits has the right status. -/
theorem waiting_shutdown_succeeds : ∃ history result,
    (outcome (Receiver.thirdWorker.startRuntimeLoop 1)).Completes history result ∧
      RightStatus componentTypeThirdStageWorker history result := by
  obtain ⟨history, result, ended, handled⟩ := @exists_ended (Receiver.thirdWorker.startRuntimeLoop 1)
    (toldBefore componentTypeThirdStageWorker)
    (fun history _ => (lastOperation history).any (isRightlyHandled componentTypeThirdStageWorker)) (by decide +kernel)
  exact ⟨history, result, ended, (rightStatus_iff ended).mpr handled⟩

/-- A third worker that is told to stop while it waits for a pin returns `EXIT_FAILURE`. -/
theorem waiting_worker_fails : ¬ ∀ (receiver : Receiver) (rounds : Nat) (history : List NetEvent) (result : Option ExitCode),
    (outcome (receiver.startRuntimeLoop rounds)).Completes history result → RightStatus receiver.type history result := by
  intro right
  obtain ⟨history, result, ended, told⟩ := @exists_ended (Receiver.thirdWorker.startRuntimeLoop 1)
    (toldWhileWaiting componentTypeThirdStageWorker)
    (fun history result => (lastOperation history).any (isOrderedShutdown componentTypeThirdStageWorker) &&
      result == some .exitFailure) (by decide +kernel)
  rw [Bool.and_eq_true, beq_iff_eq] at told
  rw [told.2] at ended
  cases (right _ _ _ _ ended).shutdown told.1

end ArchCompSystems.OsIhw4
