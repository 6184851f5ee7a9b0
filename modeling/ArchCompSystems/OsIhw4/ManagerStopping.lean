import ArchCompSystems.OsIhw4.CallSets
import ArchCompSystems.OsIhw4.ClientSocket
import Mathlib.Data.List.TakeWhile

namespace ArchCompSystems.OsIhw4

open Library Library.Program Library.Machine

/-- A socket, and the datagrams that arrive before each of the calls to come. -/
structure ArrivingSocket where
  socket : ClientSocket
  later : List (List (List UInt8))

namespace ArrivingSocket

def arrive (s : ArrivingSocket) : ClientSocket := { s.socket with queue := s.socket.queue ++ s.later.headD [] }

/-- Any call on the socket may fail, any user may answer, and a message may be sent or not. -/
def answered (call : Call) (answer : call.Answer) (socket : ClientSocket) : Option ClientSocket :=
  match call, answer with
  | .recv dontWait peek, .failed error =>
    if error = .eagain then ClientSocket.perform (.recv dontWait peek) (.failed error) socket
    else some { socket with errno := error }
  | .recv dontWait peek, .received bytes => ClientSocket.perform (.recv dontWait peek) (.received bytes) socket
  | .errno, error => ClientSocket.perform .errno error socket
  | .nextUint minValue maxValue, value => if minValue ≤ value ∧ value ≤ maxValue then some socket else none
  | .getsockopt, _ | .sendto _, _ | .handleServerResponse _, _ => some socket
  | _, _ => none

def perform (call : Call) (answer : call.Answer) (s : ArrivingSocket) : Option ArrivingSocket :=
  (answered call answer s.arrive).map fun socket => ⟨socket, s.later.tail⟩

end ArrivingSocket

def managerMachine : Machine Unit Call Call.Answer ArrivingSocket :=
  ⟨fun _ => ArrivingSocket.perform, fun _ _ _ => none⟩

def Call.isSendto : Call → Prop
  | .sendto _ => True
  | _ => False

/-- From its test whether to stop on, the manager sends nothing, whatever arrives and whatever its user wants. -/
def SendsNoCommand (s : ArrivingSocket) : Prop := ∀ rounds,
  managerMachine.Avoids () Call.isSendto (Manager.startRuntimeLoop rounds) s

/-- A shutdown from the server for managers waits at the socket. -/
def ToldToStop (socket : ClientSocket) : Prop :=
  ∃ datagram ∈ socket.queue, isServerMessageFor componentTypeManager datagram = true ∧ isShutdown datagram = true

/-- The first datagram that is not skipped is the shutdown, or a short one that fails an assertion. -/
def StopsAtFirst (socket : ClientSocket) : Prop :=
  ∃ first ∈ (socket.queue.dropWhile (isSkipped componentTypeManager)).head?,
    if isComplete first then isShutdown first = true else socket.errno ≠ .eagain

section

variable {type : ComponentType} {datagram message : List UInt8} {queue rest : List (List UInt8)} {e : Errno}
  {later : List (List (List UInt8))} {dontWait peek : Bool}

/-- What `recv` leaves when the oldest datagram is `datagram`. -/
def afterRecv (peek : Bool) (datagram : List UInt8) (queue : List (List UInt8)) (e : Errno)
    (later : List (List (List UInt8))) : ArrivingSocket :=
  ⟨⟨(if peek then datagram :: queue else queue) ++ later.headD [], e⟩, later.tail⟩

@[simp] theorem errno_afterRecv : (afterRecv peek datagram queue e later).socket.errno = e := rfl

theorem performed_recv : managerMachine.perform () (.recv dontWait peek) (.received (datagram.take udpMessageSize))
    ⟨⟨datagram :: queue, e⟩, later⟩ = some (afterRecv peek datagram queue e later) := by
  cases peek <;> simp [managerMachine, ArrivingSocket.perform, ArrivingSocket.answered, ArrivingSocket.arrive,
    ClientSocket.perform, ClientSocket.recv, afterRecv]

theorem wp_recv {post : List NetEvent → Int × List UInt8 → ArrivingSocket → Prop}
    (failed : ∀ history s', s'.socket.errno ≠ .eagain → post history (-1, message) s')
    (received : ∀ history, post history (recvResult datagram message) (afterRecv peek datagram queue e later)) :
    managerMachine.wp () (recvMessage dontWait peek message) post ⟨⟨datagram :: queue, e⟩, later⟩ := by
  intro answer s' performed
  cases answer with
  | failed error =>
    by_cases again : error = .eagain
    · subst again
      simp [managerMachine, ArrivingSocket.perform, ArrivingSocket.answered, ArrivingSocket.arrive,
        ClientSocket.perform, ClientSocket.recv] at performed
    · simp only [managerMachine, ArrivingSocket.perform, ArrivingSocket.answered, if_neg again, Option.map_some,
        Option.some.injEq] at performed
      subst performed
      exact failed _ _ again
  | received bytes =>
    have given : bytes = datagram.take udpMessageSize := by
      by_contra other
      simp [managerMachine, ArrivingSocket.perform, ArrivingSocket.answered, ArrivingSocket.arrive,
        ClientSocket.perform, ClientSocket.recv, other] at performed
    subst given
    obtain rfl := Option.some.inj (performed_recv.symm.trans performed)
    exact received _

theorem can_recv {post : Int × List UInt8 → ArrivingSocket → Prop}
    (received : post (recvResult datagram message) (afterRecv peek datagram queue e later)) :
    managerMachine.Can () (recvMessage dontWait peek message) post ⟨⟨datagram :: queue, e⟩, later⟩ :=
  ⟨.received (datagram.take udpMessageSize), _, performed_recv, received⟩

theorem wp_errno {post : List NetEvent → Errno → ArrivingSocket → Prop} {s : ArrivingSocket}
    (holds : ∀ history s', post history s.socket.errno s') : managerMachine.wp () Call.errno.make post s := by
  intro answer s' performed
  obtain ⟨socket, given, rfl⟩ := Option.map_eq_some_iff.mp performed
  obtain ⟨rfl, -⟩ := Option.ite_none_right_eq_some.mp given
  exact holds _ _

theorem can_errno {post : Errno → ArrivingSocket → Prop} {s : ArrivingSocket} (holds : ∀ s', post s.socket.errno s') :
    managerMachine.Can () Call.errno.make post s := by
  have performed : managerMachine.perform () .errno s.socket.errno s = some ⟨s.arrive, s.later.tail⟩ :=
    congrArg (Option.map _) (if_pos rfl)
  exact ⟨s.socket.errno, _, performed, holds _⟩

theorem wp_clientHandleErrno {post : List NetEvent → Bool → ArrivingSocket → Prop} {s : ArrivingSocket}
    (holds : ∀ history lost s', post history lost s') : managerMachine.wp () clientHandleErrno post s := by
  refine wp_bind.mpr (wp_errno fun history s' => ?_)
  cases s.socket.errno <;> exact holds _ _ _

/-- What skipping finds when `first` is the first datagram that is not skipped. -/
def skipResult (first : List UInt8) (e : Errno) : MessageSkipResult :=
  if isComplete first then .receivedMessageFromServer
  else if e = .eagain then .noMessagesInSocket
  else .socketError

def SkipRoundFinds (type : ComponentType) (datagram : List UInt8) (queue : List (List UInt8)) (e : Errno)
    (flow : LoopFlow (List UInt8) (MessageSkipResult × List UInt8)) (s' : ArrivingSocket) : Prop :=
  if isSkipped type datagram then ∃ message more later', message.length = udpMessageSize ∧ flow = .next message ∧
    s' = ⟨⟨queue ++ more, e⟩, later'⟩
  else ∃ message, flow = .exit (skipResult datagram e, message) ∧
    (isComplete datagram = true → message = datagram.take udpMessageSize)

theorem skipRoundFinds_short {s' : ArrivingSocket} (short : isComplete datagram = false) (again : e = .eagain) :
    SkipRoundFinds type datagram queue e (.exit (.noMessagesInSocket, message)) s' := by
  rw [SkipRoundFinds, isSkipped_of_short short, skipResult, short, if_pos again]
  exact ⟨_, rfl, nofun⟩

theorem skipRoundFinds_forClient {s' : ArrivingSocket} (complete : isComplete datagram = true)
    (forClient : isServerMessageFor type datagram = true) :
    SkipRoundFinds type datagram queue e (.exit (.receivedMessageFromServer, datagram.take udpMessageSize)) s' := by
  have stays : isSkipped type datagram = false := by rw [isSkipped, forClient, Bool.not_true, Bool.and_false]
  rw [SkipRoundFinds, stays, skipResult, complete]
  exact ⟨_, rfl, fun _ => rfl⟩

theorem skipRoundFinds_skipped (complete : isComplete datagram = true)
    (foreign : isServerMessageFor type datagram = false) :
    SkipRoundFinds type datagram queue e (.next (datagram.take udpMessageSize))
      (afterRecv false datagram (queue ++ later.headD []) e later.tail) := by
  have skips : isSkipped type datagram = true := by rw [isSkipped, foreign, complete]; rfl
  rw [SkipRoundFinds, if_pos skips]
  refine ⟨_, later.headD [] ++ later.tail.headD [], later.tail.tail, length_taken.mpr complete, rfl, ?_⟩
  rw [afterRecv, ← List.append_assoc]
  rfl

theorem wp_skipRound (full : message.length = udpMessageSize) :
    managerMachine.wp () (skipRound type message) (fun _ flow s' =>
      (∃ message, flow = .exit (.socketError, message)) ∨ SkipRoundFinds type datagram queue e flow s')
      ⟨⟨datagram :: queue, e⟩, later⟩ := by
  rw [skipRound_eq]
  refine wp_bind.mpr (wp_recv (fun history s' error => ?_) fun history => ?_)
  · rw [afterPeek_of_short (show (-1 : Int) ≠ udpMessageSize by decide)]
    refine wp_bind.mpr (wp_errno fun _ _ => ?_)
    rw [if_neg error]
    exact wp_bind.mpr (wp_clientHandleErrno fun _ _ _ => .inl ⟨_, rfl⟩)
  cases complete : isComplete datagram with
  | false =>
    rw [afterPeek_of_short (recvResult_of_short complete)]
    refine wp_bind.mpr (wp_errno fun _ _ => ?_)
    rw [errno_afterRecv]
    by_cases again : e = .eagain
    · rw [if_pos again]
      exact .inr (skipRoundFinds_short complete again)
    · rw [if_neg again]
      exact wp_bind.mpr (wp_clientHandleErrno fun _ _ _ => .inl ⟨_, rfl⟩)
  | true =>
    rw [recvResult_of_complete complete full]
    cases forClient : isServerMessageFor type datagram with
    | true =>
      rw [afterPeek_of_forClient forClient]
      exact .inr (skipRoundFinds_forClient complete forClient)
    | false =>
      rw [afterPeek_of_skipped complete forClient]
      refine wp_bind.mpr (wp_recv (fun history s' error => ?_) fun history => ?_)
      · exact wp_bind.mpr (wp_clientHandleErrno fun _ _ _ => .inl ⟨_, rfl⟩)
      · rw [recvResult_of_complete complete (length_taken.mpr complete)]
        exact .inr (skipRoundFinds_skipped complete forClient)

theorem can_skipRound (full : message.length = udpMessageSize) (clear : isComplete datagram = true ∨ e = .eagain) :
    managerMachine.Can () (skipRound type message) (SkipRoundFinds type datagram queue e) ⟨⟨datagram :: queue, e⟩, later⟩ := by
  rw [skipRound_eq]
  refine can_bind.mpr (can_recv ?_)
  cases complete : isComplete datagram with
  | false =>
    have again : e = .eagain := clear.resolve_left (by rw [complete]; decide)
    rw [afterPeek_of_short (recvResult_of_short complete)]
    refine can_bind.mpr (can_errno fun _ => ?_)
    rw [errno_afterRecv, if_pos again]
    exact skipRoundFinds_short complete again
  | true =>
    rw [recvResult_of_complete complete full]
    cases forClient : isServerMessageFor type datagram with
    | true =>
      rw [afterPeek_of_forClient forClient]
      exact skipRoundFinds_forClient complete forClient
    | false =>
      rw [afterPeek_of_skipped complete forClient]
      refine can_bind.mpr (can_recv ?_)
      rw [recvResult_of_complete complete (length_taken.mpr complete)]
      exact skipRoundFinds_skipped complete forClient

def SkipFinds (first : List UInt8) (e : Errno) (result : MessageSkipResult × List UInt8) : Prop :=
  result.1 = skipResult first e ∧ (isComplete first = true → result.2 = first.take udpMessageSize)

variable {first : List UInt8} {skipped : List (List UInt8)}

theorem wp_skip {rounds : Nat} (full : message.length = udpMessageSize)
    (skips : ∀ datagram ∈ skipped, isSkipped type datagram = true) (stays : isSkipped type first = false) :
    managerMachine.wp () (skipMessagesNotFromTheServer rounds type message)
      (fun _ result _ => result.1 = .socketError ∨ SkipFinds first e result) ⟨⟨skipped ++ first :: rest, e⟩, later⟩ := by
  induction rounds generalizing skipped rest message later with
  | zero => exact fun answer => answer.elim
  | succ rounds ih =>
    rw [skipMessagesNotFromTheServer, loop_succ]
    cases skipped with
    | nil =>
      refine wp_bind.mpr (wp_mono ?_ (wp_skipRound full))
      rintro history flow s' (⟨message', rfl⟩ | finds)
      · exact .inl rfl
      · rw [SkipRoundFinds, stays] at finds
        obtain ⟨message', rfl, whole⟩ := finds
        exact .inr ⟨rfl, whole⟩
    | cons datagram skipped =>
      rw [List.cons_append]
      refine wp_bind.mpr (wp_mono ?_ (wp_skipRound full))
      rintro history flow s' (⟨message', rfl⟩ | finds)
      · exact .inl rfl
      · rw [SkipRoundFinds, if_pos (skips datagram List.mem_cons_self)] at finds
        obtain ⟨message', more, later', full', rfl, rfl⟩ := finds
        rw [List.append_assoc, List.cons_append]
        exact ih full' fun other mem => skips other (List.mem_cons_of_mem _ mem)

theorem can_skip {rounds : Nat} (enough : skipped.length < rounds) (full : message.length = udpMessageSize)
    (skips : ∀ datagram ∈ skipped, isSkipped type datagram = true) (stays : isSkipped type first = false)
    (clear : isComplete first = true ∨ e = .eagain) :
    managerMachine.Can () (skipMessagesNotFromTheServer rounds type message) (fun result _ => SkipFinds first e result)
      ⟨⟨skipped ++ first :: rest, e⟩, later⟩ := by
  induction rounds generalizing skipped rest message later with
  | zero => exact absurd enough (Nat.not_lt_zero _)
  | succ rounds ih =>
    rw [skipMessagesNotFromTheServer, loop_succ]
    cases skipped with
    | nil =>
      refine can_bind.mpr (can_mono (fun flow s' finds => ?_) (can_skipRound full clear))
      rw [SkipRoundFinds, stays] at finds
      obtain ⟨message', rfl, whole⟩ := finds
      exact ⟨rfl, whole⟩
    | cons datagram skipped =>
      rw [List.cons_append]
      have isSkipped' := skips datagram List.mem_cons_self
      have complete : isComplete datagram = true := (Bool.and_eq_true_iff.mp isSkipped').1
      refine can_bind.mpr (can_mono (fun flow s' finds => ?_) (can_skipRound full (.inl complete)))
      rw [SkipRoundFinds, if_pos isSkipped'] at finds
      obtain ⟨message', more, later', full', rfl, rfl⟩ := finds
      rw [List.append_assoc, List.cons_append]
      exact ih (Nat.lt_of_succ_lt_succ enough) full' fun other mem => skips other (List.mem_cons_of_mem _ mem)

/-- The decision of `client_should_stop` behind its skipping. -/
def afterSkip (type : ComponentType) : MessageSkipResult × List UInt8 → NetProgram Bool
  | (.receivedMessageFromServer, message) => do
    assert ((UDPMessage.ofBytes message).senderType = componentTypeServer) "message.sender_type == COMPONENT_TYPE_SERVER"
    assert (includesClient (.ofBytes message) type) "message.receiver_type & client->type"
    return (UDPMessage.ofBytes message).messageType = messageTypeShutdownMessage
  | (.noMessagesInSocket, _) => return false
  | (.socketError, _) => do
    assert false "false && \"invalid return from skip_messages_not_from_the_server\""
    return true

theorem clientShouldStop_eq (rounds : Nat) : clientShouldStop rounds type = (do
    if !(← isSocketAlive) then return true
    skipMessagesNotFromTheServer rounds type emptyMessage >>= afterSkip type) := by
  refine congrArg (isSocketAlive >>= ·) (funext fun alive => ?_)
  cases alive with
  | false => rfl
  | true =>
    refine congrArg (skipMessagesNotFromTheServer rounds type emptyMessage >>= ·) (funext fun result => ?_)
    rcases result with ⟨result, message⟩
    cases result <;> rfl

theorem wp_isSocketAlive {post : List NetEvent → Bool → ArrivingSocket → Prop} {s : ArrivingSocket}
    (holds : ∀ history alive, post history alive ⟨s.arrive, s.later.tail⟩) :
    managerMachine.wp () isSocketAlive post s := by
  intro answer s' performed
  obtain rfl := Option.some.inj performed
  cases answer <;> exact holds _ _

theorem can_isSocketAlive {post : Bool → ArrivingSocket → Prop} {s : ArrivingSocket}
    (holds : post true ⟨s.arrive, s.later.tail⟩) : managerMachine.Can () isSocketAlive post s :=
  ⟨some 0, _, rfl, holds⟩

theorem afterSkip_complete {result : MessageSkipResult × List UInt8} (complete : isComplete first = true)
    (stays : isSkipped type first = false) (finds : SkipFinds first e result) :
    afterSkip type result = pure (isShutdown first) := by
  obtain ⟨found, message⟩ := result
  obtain ⟨same, whole⟩ := finds
  obtain rfl : message = first.take udpMessageSize := whole complete
  obtain rfl : found = .receivedMessageFromServer := same.trans (if_pos complete)
  have forClient : isServerMessageFor type first = true := by
    rw [isSkipped, complete, Bool.true_and, Bool.not_eq_false'] at stays
    exact stays
  simp only [isServerMessageFor, messageOf, Bool.and_eq_true, beq_iff_eq] at forClient
  show (do
    assert ((messageOf first).senderType = componentTypeServer) "message.sender_type == COMPONENT_TYPE_SERVER"
    assert (includesClient (messageOf first) type) "message.receiver_type & client->type"
    return decide ((messageOf first).messageType = messageTypeShutdownMessage)) = _
  rw [messageOf, forClient.1.2, forClient.2]
  rfl

theorem wp_clientShouldStop {rounds : Nat} (skips : ∀ datagram ∈ skipped, isSkipped type datagram = true)
    (stays : isSkipped type first = false)
    (stopping : if isComplete first then isShutdown first = true else e ≠ .eagain) :
    managerMachine.wp () (clientShouldStop rounds type) (fun _ stops _ => stops = true)
      ⟨⟨skipped ++ first :: rest, e⟩, later⟩ := by
  rw [clientShouldStop_eq]
  refine wp_bind.mpr (wp_isSocketAlive fun _ alive => ?_)
  cases alive with
  | false => rfl
  | true =>
    rw [ArrivingSocket.arrive, List.append_assoc, List.cons_append]
    refine wp_bind.mpr (wp_mono ?_ (wp_skip length_emptyMessage skips stays))
    rintro _ ⟨result, message⟩ s' (error | finds)
    · obtain rfl : result = .socketError := error
      exact fun answer => nomatch answer
    · cases complete : isComplete first with
      | true =>
        rw [complete, if_pos rfl] at stopping
        rw [afterSkip_complete complete stays finds]
        exact stopping
      | false =>
        rw [complete, if_neg Bool.false_ne_true] at stopping
        obtain rfl : result = .socketError := by
          refine finds.1.trans ?_
          rw [skipResult, complete, if_neg Bool.false_ne_true, if_neg stopping]
        exact fun answer => nomatch answer

theorem can_clientShouldStop {rounds : Nat} (enough : skipped.length < rounds)
    (skips : ∀ datagram ∈ skipped, isSkipped type datagram = true) (stays : isSkipped type first = false)
    (going : if isComplete first then isShutdown first = false else e = .eagain) :
    managerMachine.Can () (clientShouldStop rounds type) (fun stops _ => stops = false)
      ⟨⟨skipped ++ first :: rest, e⟩, later⟩ := by
  rw [clientShouldStop_eq]
  refine can_bind.mpr (can_isSocketAlive ?_)
  rw [ArrivingSocket.arrive, List.append_assoc, List.cons_append]
  cases complete : isComplete first with
  | true =>
    rw [complete, if_pos rfl] at going
    refine can_bind.mpr (can_mono (fun result s' finds => ?_) (can_skip enough length_emptyMessage skips stays (.inl complete)))
    rw [afterSkip_complete complete stays finds]
    exact going
  | false =>
    rw [complete, if_neg Bool.false_ne_true] at going
    refine can_bind.mpr (can_mono (fun result s' finds => ?_) (can_skip enough length_emptyMessage skips stays (.inr going)))
    obtain ⟨found, message⟩ := result
    obtain rfl : found = .noMessagesInSocket := by
      refine finds.1.trans ?_
      rw [skipResult, complete, if_neg Bool.false_ne_true, if_pos going]
    rfl

end

theorem clientShouldStop_quiet (rounds : Nat) (type : ComponentType) :
    (clientShouldStop rounds type).Calls fun c => ¬ c.isSendto := by
  refine (clientShouldStop_calls rounds type).mono fun c check => ?_
  cases c <;> first | exact id | exact check.elim

theorem managerLoop_succ (rounds : Nat) : untilClientShouldStop rounds componentTypeManager (Manager.round rounds) =
    loop rounds () (fun _ => do
      if ← clientShouldStop rounds componentTypeManager then return .exit .exitSuccess
      Manager.round rounds) := rfl

theorem round_sends (rounds : Nat) (s : ArrivingSocket) :
    ¬ managerMachine.Avoids () Call.isSendto (Manager.round rounds) s := by
  rintro ⟨-, rest⟩
  obtain ⟨-, rest⟩ := rest (1 : Nat) _ rfl
  exact (rest (1 : Nat) _ rfl).1 True.intro

section

variable {first : List UInt8} {skipped rest : List (List UInt8)} {e : Errno} {later : List (List (List UInt8))}

theorem sendsNoCommand_of_stopping (skips : ∀ datagram ∈ skipped, isSkipped componentTypeManager datagram = true)
    (stays : isSkipped componentTypeManager first = false)
    (stopping : if isComplete first then isShutdown first = true else e ≠ .eagain) :
    SendsNoCommand ⟨⟨skipped ++ first :: rest, e⟩, later⟩ := by
  intro rounds
  rw [Manager.startRuntimeLoop, managerLoop_succ]
  cases rounds with
  | zero => exact ⟨id, fun answer => answer.elim⟩
  | succ rounds =>
    rw [loop_succ]
    have stops := @wp_clientShouldStop _ rest e later _ _ (rounds + 1) skips stays stopping
    refine avoids_bind (avoids_bind (avoids_of_calls (clientShouldStop_quiet ..) _) (wp_mono ?_ stops))
      (wp_bind.mpr (wp_mono ?_ stops))
    · rintro _ _ s' rfl
      exact True.intro
    · rintro _ _ s' rfl
      exact True.intro

theorem not_sendsNoCommand_of_going (skips : ∀ datagram ∈ skipped, isSkipped componentTypeManager datagram = true)
    (stays : isSkipped componentTypeManager first = false)
    (going : if isComplete first then isShutdown first = false else e = .eagain) :
    ¬ SendsNoCommand ⟨⟨skipped ++ first :: rest, e⟩, later⟩ := by
  intro avoids
  have avoids := avoids (skipped.length + 1)
  rw [Manager.startRuntimeLoop, managerLoop_succ, loop_succ] at avoids
  refine not_avoids_bind_left (not_avoids_bind (can_mono ?_
    (can_clientShouldStop (Nat.lt_succ_self _) skips stays going))) avoids
  rintro _ s' rfl
  exact round_sends _ s'

end

/-- A manager that has been told to stop sends no further command if and only if the shutdown is the first datagram
    that it does not skip, or a short one makes it fail. -/
theorem told_manager_stops_iff {s : ArrivingSocket} (told : ToldToStop s.socket) :
    SendsNoCommand s ↔ StopsAtFirst s.socket := by
  obtain ⟨⟨queue, e⟩, later⟩ := s
  obtain ⟨shutdown, mem, forClient, -⟩ := told
  have split := List.takeWhile_append_dropWhile (p := isSkipped componentTypeManager) (l := queue)
  cases left : queue.dropWhile (isSkipped componentTypeManager) with
  | nil =>
    have skipped := List.dropWhile_eq_nil_iff.mp left shutdown mem
    rw [isSkipped, forClient, Bool.not_true, Bool.and_false] at skipped
    cases skipped
  | cons first rest =>
    have stays : isSkipped componentTypeManager first = false := by
      have not := List.head?_dropWhile_not (isSkipped componentTypeManager) queue
      rw [left] at not
      simpa using not
    have skips : ∀ datagram ∈ queue.takeWhile (isSkipped componentTypeManager), isSkipped componentTypeManager datagram = true :=
      fun datagram => List.mem_takeWhile_imp
    have decided : StopsAtFirst ⟨queue, e⟩ ↔ if isComplete first then isShutdown first = true else e ≠ .eagain := by
      unfold StopsAtFirst
      rw [left]
      simp
    rw [decided]
    rw [left] at split
    rw [← split]
    constructor
    · intro quiet
      by_contra going
      refine not_sendsNoCommand_of_going skips stays ?_ quiet
      cases complete : isComplete first <;> rw [complete] at going <;> simpa using going
    · exact sendsNoCommand_of_stopping skips stays

/-- What a worker has sent and a shutdown of the first workers, before the shutdown of the managers. -/
def shutdownBehindOthers : List (List UInt8) :=
  [(pinMessage componentTypeSecondStageWorker componentTypeServer ⟨7⟩).bytes,
    (shutdownMessage componentTypeFirstStageWorker).bytes, (shutdownMessage componentTypeManager).bytes]

/-- A manager skips what is for others and stops. -/
theorem shutdown_stops_manager : SendsNoCommand ⟨⟨shutdownBehindOthers, .other 0⟩, []⟩ := by
  have told : ToldToStop ⟨shutdownBehindOthers, .other 0⟩ :=
    ⟨(shutdownMessage componentTypeManager).bytes, by simp [shutdownBehindOthers], by decide +kernel, by decide +kernel⟩
  refine (told_manager_stops_iff told).mpr ⟨(shutdownMessage componentTypeManager).bytes, ?_, ?_⟩
  · decide +kernel
  · decide +kernel

/-- The result of another manager's command hides the shutdown. -/
theorem result_hides_shutdown : ¬ ∀ s : ArrivingSocket, ToldToStop s.socket → SendsNoCommand s := by
  intro all
  have told : ToldToStop ⟨[(commandResultMessage serverCommandSuccess).bytes, (shutdownMessage componentTypeManager).bytes],
      .other 0⟩ := ⟨_, List.mem_cons_of_mem _ (List.mem_singleton.mpr rfl), by decide +kernel, by decide +kernel⟩
  have none : ∀ datagram ∈ ([] : List (List UInt8)), isSkipped componentTypeManager datagram = true :=
    List.forall_mem_nil _
  refine not_sendsNoCommand_of_going none ?_ ?_ (all ⟨_, []⟩ told)
  · decide +kernel
  · decide +kernel

end ArchCompSystems.OsIhw4
