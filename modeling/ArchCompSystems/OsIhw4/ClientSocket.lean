import ArchCompSystems.OsIhw4.ClientTools

namespace ArchCompSystems.OsIhw4

open Library Library.Program Library.Machine

/-- The datagrams that wait at the socket, oldest first, and `errno`. -/
structure ClientSocket where
  queue : List (List UInt8)
  errno : Errno

namespace ClientSocket

/-- `recv` gives as much of the oldest datagram as a message has room for, and takes it unless it only
    peeks. Without a datagram it waits, or fails if it must not. -/
def recv (dontWait peek : Bool) (socket : ClientSocket) : Option (RecvAnswer × ClientSocket) :=
  match socket.queue with
  | [] => if dontWait then some (.failed .eagain, { socket with errno := .eagain }) else none
  | datagram :: rest => some (.received (datagram.take udpMessageSize),
      if peek then socket else { socket with queue := rest })

def perform (call : Call) (answer : call.Answer) (socket : ClientSocket) : Option ClientSocket :=
  match call, answer with
  | .recv dontWait peek, answer =>
    (socket.recv dontWait peek).bind fun (given, after) => if answer = given then some after else none
  | .errno, answer => if answer = socket.errno then some socket else none
  | .getsockopt, answer => if answer = some 0 then some socket else none
  | _, _ => none

end ClientSocket

def clientSocketMachine : Machine Unit Call Call.Answer ClientSocket := ⟨fun _ => ClientSocket.perform, fun _ _ _ => none⟩

/-- The message that `recv` makes of a datagram. -/
def messageOf (datagram : List UInt8) : UDPMessage := .ofBytes (datagram.take udpMessageSize)

/-- The datagram fills a message. -/
def isComplete (datagram : List UInt8) : Bool := udpMessageSize ≤ datagram.length

def isServerMessageFor (type : ComponentType) (datagram : List UInt8) : Bool :=
  isComplete datagram && (messageOf datagram).senderType == componentTypeServer &&
    includesClient (messageOf datagram) type

def isShutdown (datagram : List UInt8) : Bool := (messageOf datagram).messageType == messageTypeShutdownMessage

section

variable {type : ComponentType} {datagram message : List UInt8} {queue rest : List (List UInt8)} {e : Errno}

theorem length_taken : (datagram.take udpMessageSize).length = udpMessageSize ↔ isComplete datagram = true := by
  simp only [isComplete, List.length_take, decide_eq_true_eq]
  omega

theorem surely_recv {dontWait peek : Bool} {post : Int × List UInt8 → ClientSocket → Prop}
    (holds : post ((datagram.take udpMessageSize).length,
      datagram.take udpMessageSize ++ message.drop (datagram.take udpMessageSize).length)
      (if peek then ⟨datagram :: rest, e⟩ else ⟨rest, e⟩)) :
    clientSocketMachine.Surely () (recvMessage dontWait peek message) post ⟨datagram :: rest, e⟩ := by
  refine ⟨.received (datagram.take udpMessageSize), if peek then ⟨datagram :: rest, e⟩ else ⟨rest, e⟩, if_pos rfl, ?_, holds⟩
  intro other after performed
  obtain ⟨given, -⟩ := Option.ite_none_right_eq_some.mp performed
  exact given

theorem surely_recv_empty {peek : Bool} {post : Int × List UInt8 → ClientSocket → Prop}
    (holds : post (-1, message) ⟨[], .eagain⟩) :
    clientSocketMachine.Surely () (recvMessage true peek message) post ⟨[], e⟩ := by
  refine ⟨.failed .eagain, ⟨[], .eagain⟩, rfl, ?_, holds⟩
  intro other after performed
  obtain ⟨given, -⟩ := Option.ite_none_right_eq_some.mp performed
  exact given

theorem surely_errno {socket : ClientSocket} {post : Errno → ClientSocket → Prop} (holds : post socket.errno socket) :
    clientSocketMachine.Surely () Call.errno.make post socket := by
  refine ⟨socket.errno, socket, if_pos rfl, ?_, holds⟩
  intro other after performed
  exact (Option.ite_none_right_eq_some.mp performed).1

theorem surely_clientHandleErrno {socket : ClientSocket} {post : Bool → ClientSocket → Prop}
    (holds : ∀ lost, post lost socket) : clientSocketMachine.Surely () clientHandleErrno post socket := by
  refine surely_bind.mpr (surely_errno ?_)
  cases socket.errno <;> exact holds _

theorem surely_isSocketAlive {socket : ClientSocket} {post : Bool → ClientSocket → Prop} (holds : post true socket) :
    clientSocketMachine.Surely () isSocketAlive post socket := by
  refine surely_bind.mpr ⟨some 0, socket, rfl, ?_, holds⟩
  intro other after performed
  exact (Option.ite_none_right_eq_some.mp performed).1

end

section

variable {β γ : Type} {round : β → NetProgram (LoopFlow β γ)}

theorem loop_succ (rounds : Nat) (carried : β) : loop (rounds + 1) carried round = (round carried >>= fun flow =>
    match flow with
    | .next carried' => loop rounds carried' round
    | .exit result => pure result) := by
  unfold loop
  rw [forFrom, bind_assoc]
  refine congrArg (round carried >>= ·) (funext fun flow => ?_)
  cases flow with
  | next carried' => simp only [forFrom_start rounds (0 + 1) 0]
  | exit result => rfl

end

section

variable {type : ComponentType} {datagram message : List UInt8} {queue rest : List (List UInt8)} {e : Errno}

/-- The round behind its first `recv`. -/
def afterPeek (type : ComponentType) : Int × List UInt8 →
    NetProgram (LoopFlow (List UInt8) (MessageSkipResult × List UInt8)) := fun (bytesRead, message) => do
  if bytesRead ≠ udpMessageSize then
    let errnoVal ← Call.errno.make
    if errnoVal = .eagain then return .exit (.noMessagesInSocket, message)
    let _ ← clientHandleErrno
    return .exit (.socketError, message)
  if (UDPMessage.ofBytes message).senderType = componentTypeServer ∧ includesClient (.ofBytes message) type then
    return .exit (.receivedMessageFromServer, message)
  let (bytesRead, message) ← recvMessage true false message
  if bytesRead ≠ udpMessageSize then
    let _ ← clientHandleErrno
    return .exit (.socketError, message)
  return .next message

/-- The round behind its second `recv`. -/
def afterTake : Int × List UInt8 → NetProgram (LoopFlow (List UInt8) (MessageSkipResult × List UInt8)) :=
  fun (bytesRead, message) => do
    if bytesRead ≠ udpMessageSize then
      let _ ← clientHandleErrno
      return .exit (.socketError, message)
    return .next message

theorem skipRound_eq : skipRound type message = recvMessage true true message >>= afterPeek type := rfl

/-- What `recv` makes of a message when it gets this datagram. -/
def recvResult (datagram message : List UInt8) : Int × List UInt8 :=
  ((datagram.take udpMessageSize).length, datagram.take udpMessageSize ++ message.drop (datagram.take udpMessageSize).length)

theorem recvResult_of_complete (complete : isComplete datagram = true) (full : message.length = udpMessageSize) :
    recvResult datagram message = ((udpMessageSize : Int), datagram.take udpMessageSize) := by
  have whole : (datagram.take udpMessageSize).length = udpMessageSize := length_taken.mpr complete
  rw [recvResult, whole, List.drop_of_length_le (Nat.le_of_eq full), List.append_nil]

theorem recvResult_of_short (short : isComplete datagram = false) : (recvResult datagram message).1 ≠ udpMessageSize := by
  intro same
  rw [length_taken.mp (Int.ofNat_inj.mp same)] at short
  cases short

theorem afterPeek_of_short {peeked : Int × List UInt8} (short : peeked.1 ≠ udpMessageSize) :
    afterPeek type peeked = (do
      let errnoVal ← Call.errno.make
      if errnoVal = .eagain then return .exit (.noMessagesInSocket, peeked.2)
      let _ ← clientHandleErrno
      return .exit (.socketError, peeked.2)) := if_pos short

theorem afterPeek_of_forClient (forClient : isServerMessageFor type datagram = true) :
    afterPeek type ((udpMessageSize : Int), datagram.take udpMessageSize) =
      pure (.exit (.receivedMessageFromServer, datagram.take udpMessageSize)) := by
  simp only [isServerMessageFor, Bool.and_eq_true, beq_iff_eq] at forClient
  unfold afterPeek
  dsimp only
  rw [if_neg fun other => other rfl]
  exact if_pos ⟨forClient.1.2, forClient.2⟩

theorem afterPeek_of_skipped (complete : isComplete datagram = true) (foreign : isServerMessageFor type datagram = false) :
    afterPeek type ((udpMessageSize : Int), datagram.take udpMessageSize) =
      recvMessage true false (datagram.take udpMessageSize) >>= afterTake := by
  unfold afterPeek
  dsimp only
  rw [if_neg fun other => other rfl]
  refine if_neg ?_
  rintro ⟨sender, included⟩
  have forClient : isServerMessageFor type datagram = true := by
    simp only [isServerMessageFor, Bool.and_eq_true, beq_iff_eq]
    exact ⟨⟨complete, sender⟩, included⟩
  rw [foreign] at forClient
  cases forClient

def SkipRoundEnds (type : ComponentType) (socket : ClientSocket) (flow : LoopFlow (List UInt8) (MessageSkipResult × List UInt8))
    (after : ClientSocket) : Prop :=
  match socket.queue with
  | [] => ∃ message, flow = .exit (.noMessagesInSocket, message) ∧ after.queue = []
  | datagram :: rest =>
    if isComplete datagram then
      if isServerMessageFor type datagram then
        flow = .exit (.receivedMessageFromServer, datagram.take udpMessageSize) ∧ after = socket
      else ∃ message, message.length = udpMessageSize ∧ flow = .next message ∧ after = ⟨rest, socket.errno⟩
    else after = socket ∧ ∃ message, flow = .exit
      (if socket.errno = .eagain then .noMessagesInSocket else .socketError, message)

theorem skipRound_ends (full : message.length = udpMessageSize) (socket : ClientSocket) :
    clientSocketMachine.Surely () (skipRound type message) (SkipRoundEnds type socket) socket := by
  obtain ⟨queue, e⟩ := socket
  cases queue with
  | nil =>
    refine surely_bind.mpr (surely_recv_empty ?_)
    refine surely_bind.mpr (surely_errno ?_)
    exact ⟨message, rfl, rfl⟩
  | cons datagram rest =>
    refine surely_bind.mpr (surely_recv ?_)
    show clientSocketMachine.Surely () (afterPeek type (recvResult datagram message)) _ ⟨datagram :: rest, e⟩
    cases complete : isComplete datagram with
    | false =>
      rw [afterPeek_of_short (recvResult_of_short complete)]
      refine surely_bind.mpr (surely_errno ?_)
      by_cases again : e = .eagain
      · rw [if_pos again]
        exact Eq.mpr (if_neg (by rw [complete]; decide)) ⟨rfl, _, by rw [if_pos again]⟩
      · rw [if_neg again]
        refine surely_bind.mpr (surely_clientHandleErrno fun lost => ?_)
        exact Eq.mpr (if_neg (by rw [complete]; decide)) ⟨rfl, _, by rw [if_neg again]⟩
    | true =>
      rw [recvResult_of_complete complete full]
      have whole : (datagram.take udpMessageSize).length = udpMessageSize := length_taken.mpr complete
      cases forClient : isServerMessageFor type datagram with
      | true =>
        rw [afterPeek_of_forClient forClient]
        exact Eq.mpr (if_pos complete) (Eq.mpr (if_pos forClient) ⟨rfl, rfl⟩)
      | false =>
        rw [afterPeek_of_skipped complete forClient]
        refine surely_bind.mpr (surely_recv ?_)
        show clientSocketMachine.Surely () (afterTake (recvResult datagram (datagram.take udpMessageSize))) _ ⟨rest, e⟩
        rw [recvResult_of_complete complete whole]
        exact Eq.mpr (if_pos complete) (Eq.mpr (if_neg (by rw [forClient]; decide)) ⟨_, whole, rfl, rfl⟩)

def isSkipped (type : ComponentType) (datagram : List UInt8) : Bool :=
  isComplete datagram && !isServerMessageFor type datagram

def SkipEnds (type : ComponentType) (socket : ClientSocket) (skipped : MessageSkipResult × List UInt8)
    (after : ClientSocket) : Prop :=
  match socket.queue.dropWhile (isSkipped type) with
  | [] => skipped.1 = .noMessagesInSocket ∧ after.queue = []
  | datagram :: rest =>
    if isComplete datagram then
      skipped = (.receivedMessageFromServer, datagram.take udpMessageSize) ∧ after.queue = datagram :: rest
    else after.queue = datagram :: rest ∧
      skipped.1 = if socket.errno = .eagain then .noMessagesInSocket else .socketError

theorem skip_ends {rounds : Nat} (enough : queue.length < rounds) (full : message.length = udpMessageSize) :
    clientSocketMachine.Surely () (skipMessagesNotFromTheServer rounds type message)
      (SkipEnds type ⟨queue, e⟩) ⟨queue, e⟩ := by
  induction rounds generalizing queue message with
  | zero => exact absurd enough (Nat.not_lt_zero _)
  | succ rounds ih =>
    rw [skipMessagesNotFromTheServer, loop_succ]
    refine surely_bind.mpr (surely_mono ?_ (skipRound_ends full ⟨queue, e⟩))
    intro flow after ends
    cases queue with
    | nil =>
      obtain ⟨message, rfl, nothing⟩ := ends
      exact ⟨rfl, nothing⟩
    | cons datagram rest =>
      by_cases complete : isComplete datagram = true
      · replace ends := Eq.mp (if_pos complete) ends
        by_cases forClient : isServerMessageFor type datagram = true
        · obtain ⟨rfl, rfl⟩ := Eq.mp (if_pos forClient) ends
          have stays : (datagram :: rest).dropWhile (isSkipped type) = datagram :: rest := by
            simp [isSkipped, forClient]
          show SkipEnds type ⟨datagram :: rest, e⟩ _ _
          simp only [SkipEnds, stays, if_pos complete, and_self]
        · obtain ⟨message', full', rfl, rfl⟩ := Eq.mp (if_neg forClient) ends
          have skips : (datagram :: rest).dropWhile (isSkipped type) = rest.dropWhile (isSkipped type) := by
            simp [isSkipped, complete, forClient]
          have same : SkipEnds type ⟨datagram :: rest, e⟩ = SkipEnds type ⟨rest, e⟩ := by
            unfold SkipEnds
            rw [skips]
          rw [same]
          exact ih (Nat.lt_of_succ_lt_succ enough) full'
      · obtain ⟨rfl, message, rfl⟩ := Eq.mp (if_neg complete) ends
        have stays : (datagram :: rest).dropWhile (isSkipped type) = datagram :: rest := by
          simp [isSkipped, complete]
        show SkipEnds type ⟨datagram :: rest, e⟩ _ _
        simp only [SkipEnds, stays, if_neg complete, and_self]

/-- Anything but a complete server message for the client. -/
def isNotForClient (type : ComponentType) (datagram : List UInt8) : Bool := !isServerMessageFor type datagram

def Call.Fails : Call → Prop
  | .abort _ | .goesOn => True
  | _ => False

theorem Call.Fails.isEmpty (c : Call) (fails : c.Fails) : IsEmpty c.Answer := by
  cases c <;> first | exact fails.elim | exact inferInstanceAs (IsEmpty Empty)

theorem isSkipped_of_complete (complete : isComplete datagram = true) :
    isSkipped type datagram = isNotForClient type datagram := by
  rw [isSkipped, complete, Bool.true_and, isNotForClient]

theorem isSkipped_of_short (short : isComplete datagram = false) : isSkipped type datagram = false := by
  rw [isSkipped, short, Bool.false_and]

theorem notForClient_of_short (short : isComplete datagram = false) : isNotForClient type datagram = true := by
  rw [isNotForClient, isServerMessageFor, short, Bool.false_and, Bool.false_and, Bool.not_false]

theorem dropWhile_isSkipped (complete : ∀ datagram ∈ queue.takeWhile (isNotForClient type), isComplete datagram = true) :
    queue.dropWhile (isSkipped type) = queue.dropWhile (isNotForClient type) := by
  induction queue with
  | nil => rfl
  | cons datagram rest ih =>
    cases foreign : isNotForClient type datagram with
    | false =>
      have kept : isSkipped type datagram = false := by
        rw [isSkipped, show (!isServerMessageFor type datagram) = false from foreign, Bool.and_false]
      rw [List.dropWhile_cons_of_neg (by rw [kept]; decide), List.dropWhile_cons_of_neg (by rw [foreign]; decide)]
    | true =>
      rw [List.takeWhile_cons_of_pos foreign] at complete
      have skipped := (isSkipped_of_complete (complete datagram List.mem_cons_self)).trans foreign
      rw [List.dropWhile_cons_of_pos skipped, List.dropWhile_cons_of_pos foreign]
      exact ih fun other mem => complete other (List.mem_cons_of_mem _ mem)

theorem short_stays (mem : datagram ∈ queue.takeWhile (isNotForClient type)) (short : isComplete datagram = false) :
    ∃ first rest, queue.dropWhile (isSkipped type) = first :: rest ∧ isComplete first = false ∧
      (queue.dropWhile (isNotForClient type)).length ≤ rest.length := by
  induction queue with
  | nil => cases mem
  | cons head rest ih =>
    cases foreign : isNotForClient type head with
    | false =>
      rw [List.takeWhile_cons_of_neg (by rw [foreign]; decide)] at mem
      cases mem
    | true =>
      rw [List.dropWhile_cons_of_pos foreign]
      cases complete : isComplete head with
      | false =>
        rw [List.dropWhile_cons_of_neg (by rw [isSkipped_of_short complete]; decide)]
        exact ⟨head, rest, rfl, complete, (List.dropWhile_suffix _).length_le⟩
      | true =>
        rw [List.takeWhile_cons_of_pos foreign] at mem
        rw [List.dropWhile_cons_of_pos ((isSkipped_of_complete complete).trans foreign)]
        rcases List.mem_cons.mp mem with rfl | mem
        · cases short.symm.trans complete
        · exact ih mem

theorem length_emptyMessage : emptyMessage.length = udpMessageSize := List.length_replicate

/-- Without a short datagram, or with `EAGAIN` in `errno`, a client finds out whether to stop. -/
theorem clientShouldStop_ends {rounds : Nat} (enough : queue.length < rounds)
    (whole : ∀ first rest, queue.dropWhile (isSkipped type) = first :: rest → isComplete first = true ∨ e = .eagain) :
    clientSocketMachine.Surely () (clientShouldStop rounds type) (fun stops after =>
      after.queue = queue.dropWhile (isSkipped type) ∧
        (stops = true ↔ ∃ first ∈ after.queue.head?, isComplete first = true ∧ isShutdown first = true)) ⟨queue, e⟩ := by
  refine surely_bind.mpr (surely_isSocketAlive ?_)
  refine surely_bind.mpr (surely_mono ?_ (skip_ends enough length_emptyMessage))
  rintro ⟨result, message⟩ after ends
  unfold SkipEnds at ends
  cases left : queue.dropWhile (isSkipped type) with
  | nil =>
    rw [left] at ends
    obtain ⟨rfl, nothing⟩ := ends
    refine ⟨nothing, iff_of_false Bool.false_ne_true ?_⟩
    rw [nothing]
    rintro ⟨first, mem, -⟩
    cases mem
  | cons first rest =>
    rw [left] at ends
    cases complete : isComplete first with
    | true =>
      simp only [complete, if_true] at ends
      obtain ⟨same, kept⟩ := ends
      cases same
      have notSkipped : isSkipped type first = false := by
        have := List.head?_dropWhile_not (isSkipped type) queue
        rw [left] at this
        simpa using this
      have forClient : isServerMessageFor type first = true := by
        simpa [isSkipped, complete] using notSkipped
      simp only [isServerMessageFor, messageOf, Bool.and_eq_true, beq_iff_eq] at forClient
      show clientSocketMachine.Surely () (do
        assert ((messageOf first).senderType = componentTypeServer) "message.sender_type == COMPONENT_TYPE_SERVER"
        assert (includesClient (messageOf first) type) "message.receiver_type & client->type"
        return decide ((messageOf first).messageType = messageTypeShutdownMessage)) _ after
      rw [messageOf, forClient.1.2, forClient.2]
      refine ⟨kept, ?_⟩
      rw [kept]
      simp [complete, isShutdown, messageOf]
    | false =>
      simp only [complete, Bool.false_eq_true, if_false] at ends
      obtain rfl : e = .eagain := (whole first rest left).resolve_left (by rw [complete]; decide)
      obtain ⟨kept, rfl⟩ := ends
      refine ⟨kept, iff_of_false Bool.false_ne_true ?_⟩
      rw [kept]
      rintro ⟨other, mem, whole, -⟩
      cases mem
      rw [complete] at whole
      cases whole

theorem clientShouldStop_fails {rounds : Nat} (enough : queue.length < rounds) {first : List UInt8}
    (left : queue.dropWhile (isSkipped type) = first :: rest) (short : isComplete first = false) (error : e ≠ .eagain) :
    ¬ clientSocketMachine.Avoids () Call.Fails (clientShouldStop rounds type) ⟨queue, e⟩ := by
  refine not_avoids_bind (can_mono ?_ (can_of_surely (@surely_isSocketAlive _ (fun alive socket =>
    alive = true ∧ socket = ⟨queue, e⟩) ⟨rfl, rfl⟩)))
  rintro _ _ ⟨rfl, rfl⟩
  refine not_avoids_bind (can_mono ?_ (can_of_surely (skip_ends enough length_emptyMessage)))
  rintro ⟨result, message⟩ after ends
  unfold SkipEnds at ends
  rw [left] at ends
  simp only [short, Bool.false_eq_true, if_false, if_neg error] at ends
  obtain ⟨-, rfl⟩ := ends
  exact fun avoids => avoids.1 True.intro

end

/-- With enough rounds, a client whose socket is in this state finds out whether to stop: it fails no
    assertion, leaves exactly the queue from the first server message for it on, and stops exactly if
    that message is a shutdown. -/
def StopsExactly (type : ComponentType) (socket : ClientSocket) : Prop := ∀ rounds, socket.queue.length < rounds →
  clientSocketMachine.Avoids () Call.Fails (clientShouldStop rounds type) socket ∧
    clientSocketMachine.Can () (clientShouldStop rounds type) (fun _ _ => True) socket ∧
    ∀ history stops after, clientSocketMachine.Runs () (clientShouldStop rounds type) socket history stops after →
      after.queue = socket.queue.dropWhile (isNotForClient type) ∧
        (stops = true ↔ ∃ first ∈ after.queue.head?, isShutdown first = true)

/-- A client stops exactly if all datagrams before the first server message for it are complete. -/
theorem stopsExactly_iff {type : ComponentType} {socket : ClientSocket} : StopsExactly type socket ↔
    ∀ datagram ∈ socket.queue.takeWhile (isNotForClient type), isComplete datagram = true := by
  obtain ⟨queue, e⟩ := socket
  constructor
  · intro exact datagram mem
    by_contra incomplete
    obtain ⟨first, rest, left, short, fewer⟩ := short_stays mem (Bool.eq_false_iff.mpr incomplete)
    obtain ⟨avoids, -, leaves⟩ := exact (queue.length + 1) (Nat.lt_succ_self _)
    by_cases error : e = .eagain
    · have ends := can_of_surely (@clientShouldStop_ends type queue e _
        (Nat.lt_succ_self _) fun _ _ _ => .inr error)
      obtain ⟨history, stops, after, run, kept, -⟩ := exists_run_of_can ends
      have same := kept.symm.trans (leaves history stops after run).1
      rw [left] at same
      rw [← same, List.length_cons] at fewer
      omega
    · exact clientShouldStop_fails (Nat.lt_succ_self _) left short error avoids
  · intro complete rounds enough
    have same := dropWhile_isSkipped complete
    have serverMessage : ∀ first rest, queue.dropWhile (isNotForClient type) = first :: rest → isComplete first = true := by
      intro first rest left
      have notForeign : isNotForClient type first = false := by
        have := List.head?_dropWhile_not (isNotForClient type) queue
        rw [left] at this
        simpa using this
      by_contra incomplete
      rw [notForClient_of_short (Bool.eq_false_iff.mpr incomplete)] at notForeign
      cases notForeign
    have ends := clientShouldStop_ends (e := e) enough fun first rest left =>
      .inl (serverMessage first rest (same ▸ left))
    refine ⟨avoids_of_surely (fun c fails answer => ((Call.Fails.isEmpty c fails).false answer).elim) ends, can_mono (fun _ _ _ => True.intro) (can_of_surely ends), ?_⟩
    intro history stops after run
    obtain ⟨kept, stopping⟩ := wp_iff_runs.mp (wp_of_surely ends) _ _ _ run
    rw [same] at kept
    refine ⟨kept, stopping.trans (exists_congr fun first => and_congr_right fun mem => and_iff_right ?_)⟩
    obtain ⟨rest, left⟩ := List.head?_eq_some_iff.mp mem
    exact serverMessage first rest (kept.symm.trans left)

/-- An empty datagram fails an assertion. -/
theorem empty_datagram_fails : ¬ ∀ type socket, StopsExactly type socket := by
  intro all
  obtain ⟨avoids, -⟩ := all componentTypeManager ⟨[[]], .other 0⟩ 2 (by decide)
  exact clientShouldStop_fails (by decide) rfl rfl (by decide) avoids

/-- A complete datagram of the expected type whose receivers include the client, whoever sent it. -/
def isMatching (type : ComponentType) (expected : MessageType) (datagram : List UInt8) : Bool :=
  isComplete datagram && (messageOf datagram).messageType == expected && includesClient (messageOf datagram) type

def isFromServer (datagram : List UInt8) : Bool := (messageOf datagram).senderType == componentTypeServer

/-- A datagram with which the loop of `receive_data` is left: a short one that is not empty, the server's
    shutdown, or one that matches. -/
def endsReceiving (type : ComponentType) (expected : MessageType) (datagram : List UInt8) : Bool :=
  (!isComplete datagram && !datagram.isEmpty) || (isServerMessageFor type datagram && isShutdown datagram) ||
    isMatching type expected datagram

/-- What `receive_data` returns for such a datagram. -/
def isReceived (type : ComponentType) (datagram : List UInt8) : Bool :=
  isComplete datagram && !(isServerMessageFor type datagram && isShutdown datagram)

section

variable {type : ComponentType} {expected : MessageType} {datagram message : List UInt8}
  {queue rest : List (List UInt8)} {e : Errno}

def GoesOn (type : ComponentType) (expected : MessageType) (message : List UInt8) : Prop :=
  message.length = udpMessageSize ∧ untilExpected type expected message = .next message

theorem goesOn_emptyMessage : GoesOn type expected emptyMessage := by
  refine ⟨length_emptyMessage, if_pos (.inr ?_)⟩
  have nobody : (UDPMessage.ofBytes emptyMessage).receiverType = 0#32 := by decide
  rw [includesClient, nobody, BitVec.zero_and]
  rfl

theorem untilExpected_complete (complete : isComplete datagram = true) :
    untilExpected type expected (datagram.take udpMessageSize) = if isMatching type expected datagram then
      .exit (true, datagram.take udpMessageSize) else .next (datagram.take udpMessageSize) := by
  unfold untilExpected isMatching messageOf
  rw [complete, Bool.true_and]
  cases included : includesClient (.ofBytes (datagram.take udpMessageSize)) type with
  | false => rw [if_pos (.inr rfl), Bool.and_false, if_neg Bool.false_ne_true]
  | true =>
    by_cases same : (UDPMessage.ofBytes (datagram.take udpMessageSize)).messageType = expected
    · rw [if_neg (by rintro (other | other); exacts [other same, nomatch other]), same, beq_self_eq_true, Bool.and_true,
        if_pos rfl]
    · rw [if_pos (.inl same), beq_false_of_ne same, Bool.false_and, if_neg Bool.false_ne_true]

def ReceiveRoundEnds (type : ComponentType) (expected : MessageType) (datagram : List UInt8)
    (flow : LoopFlow (List UInt8) (Bool × List UInt8)) : Prop :=
  if endsReceiving type expected datagram then ∃ message, flow = .exit (isReceived type datagram, message) ∧
    (isReceived type datagram = true → message = datagram.take udpMessageSize)
  else ∃ message, flow = .next message ∧ GoesOn type expected message

theorem untilExpected_ends (complete : isComplete datagram = true)
    (stays : (isServerMessageFor type datagram && isShutdown datagram) = false) :
    ReceiveRoundEnds type expected datagram (untilExpected type expected (datagram.take udpMessageSize)) := by
  have decided : endsReceiving type expected datagram = isMatching type expected datagram := by
    rw [endsReceiving, complete, stays, Bool.not_true, Bool.false_and, Bool.false_or, Bool.false_or]
  have kept := @untilExpected_complete type expected _ complete
  unfold ReceiveRoundEnds
  rw [decided]
  cases matching : isMatching type expected datagram with
  | true =>
    rw [kept, matching, if_pos rfl, if_pos rfl, isReceived, complete, stays]
    exact ⟨_, rfl, fun _ => rfl⟩
  | false =>
    rw [matching, if_neg Bool.false_ne_true] at kept
    rw [kept, if_neg Bool.false_ne_true]
    exact ⟨_, rfl, length_taken.mpr complete, kept⟩

theorem receiveRound_ends (goes : GoesOn type expected message) :
    clientSocketMachine.Surely () (receiveRound type expected message) (fun flow after =>
      after = ⟨rest, e⟩ ∧ ReceiveRoundEnds type expected datagram flow) ⟨datagram :: rest, e⟩ := by
  refine surely_bind.mpr (surely_recv ?_)
  simp only [Bool.false_eq_true, if_false]
  by_cases nothing : datagram = []
  · subst nothing
    refine ⟨rfl, ?_⟩
    rw [List.take_nil, List.nil_append, List.length_nil, List.drop_zero, goes.2]
    exact ⟨message, rfl, goes⟩
  have nonempty : 0 < datagram.length := List.length_pos_iff.mpr nothing
  have something : ((datagram.take udpMessageSize).length : Int) ≠ 0 := by
    rw [List.length_take]
    have : 0 < udpMessageSize := by decide
    omega
  rw [if_neg something]
  cases complete : isComplete datagram with
  | false =>
    have short : ((datagram.take udpMessageSize).length : Int) ≠ udpMessageSize :=
      @recvResult_of_short datagram message complete
    have decided : endsReceiving type expected datagram = true := by
      rw [endsReceiving, complete, List.isEmpty_eq_false_iff.mpr nothing]
      rfl
    have lost : isReceived type datagram = false := by rw [isReceived, complete, Bool.false_and]
    rw [if_pos short]
    refine surely_bind.mpr (surely_clientHandleErrno fun _ => ⟨rfl, ?_⟩)
    refine Eq.mpr (if_pos decided) ⟨_, by rw [lost], fun received => ?_⟩
    rw [lost] at received
    cases received
  | true =>
    have whole : (datagram.take udpMessageSize).length = udpMessageSize := length_taken.mpr complete
    have overwritten : datagram.take udpMessageSize ++ message.drop (datagram.take udpMessageSize).length =
        datagram.take udpMessageSize := congrArg Prod.snd (recvResult_of_complete complete goes.1)
    rw [overwritten, if_neg (by rw [whole]; exact fun other => other rfl)]
    show clientSocketMachine.Surely () (if (messageOf datagram).senderType ≠ componentTypeServer then
        pure (untilExpected type expected (datagram.take udpMessageSize))
      else if (messageOf datagram).messageType = messageTypeShutdownMessage ∧ includesClient (messageOf datagram) type then
        pure (.exit (false, datagram.take udpMessageSize))
      else pure (untilExpected type expected (datagram.take udpMessageSize))) _ _
    by_cases sender : (messageOf datagram).senderType = componentTypeServer
    · rw [if_neg (fun other => other sender)]
      by_cases shutdown : (messageOf datagram).messageType = messageTypeShutdownMessage ∧
          includesClient (messageOf datagram) type = true
      · have told : (isServerMessageFor type datagram && isShutdown datagram) = true := by
          simp [isServerMessageFor, isShutdown, complete, sender, shutdown]
        have decided : endsReceiving type expected datagram = true := by rw [endsReceiving, told, Bool.or_true, Bool.true_or]
        have lost : isReceived type datagram = false := by rw [isReceived, told, Bool.not_true, Bool.and_false]
        rw [if_pos shutdown]
        refine ⟨rfl, Eq.mpr (if_pos decided) ⟨_, by rw [lost], fun received => ?_⟩⟩
        rw [lost] at received
      · have stays : (isServerMessageFor type datagram && isShutdown datagram) = false := by
          rcases not_and_or.mp shutdown with other | other <;> simp [isServerMessageFor, isShutdown, other]
        rw [if_neg shutdown]
        exact ⟨rfl, untilExpected_ends complete stays⟩
    · rw [if_pos sender]
      refine ⟨rfl, untilExpected_ends complete ?_⟩
      simp [isServerMessageFor, sender]

/-- What `receive_data` returns depends on the first datagram with which its loop is left. -/
def ReceiveEnds (type : ComponentType) (expected : MessageType) (queue : List (List UInt8)) (result : Bool × List UInt8) :
    Prop :=
  ∃ datagram, queue.find? (endsReceiving type expected) = some datagram ∧ result.1 = isReceived type datagram ∧
    (result.1 = true → result.2 = datagram.take udpMessageSize)

theorem receiveEnds_cons (goes : endsReceiving type expected datagram = false) :
    ReceiveEnds type expected (datagram :: queue) = ReceiveEnds type expected queue := by
  unfold ReceiveEnds
  rw [List.find?_cons_of_neg (by rw [goes]; decide)]

theorem receiveEnds_head (ends : endsReceiving type expected datagram = true) {result : Bool × List UInt8}
    (flow : ReceiveRoundEnds type expected datagram (.exit result)) :
    ReceiveEnds type expected (datagram :: queue) result := by
  obtain ⟨message, same, whole⟩ := Eq.mp (if_pos ends) flow
  cases same
  exact ⟨datagram, List.find?_cons_of_pos ends, rfl, whole⟩

theorem wp_receiveData (rounds : Nat) (goes : GoesOn type expected message) :
    clientSocketMachine.wp () (receiveData rounds type message expected)
      (fun _ result _ => ReceiveEnds type expected queue result) ⟨queue, e⟩ := by
  induction rounds generalizing queue message with
  | zero => exact fun answer => answer.elim
  | succ rounds ih =>
    rw [receiveData, loop_succ]
    cases queue with
    | nil =>
      intro answer after performed
      cases performed
    | cons datagram rest =>
      refine wp_bind.mpr (wp_mono ?_ (wp_of_surely (@receiveRound_ends _ _ datagram _ _ _ goes)))
      rintro history flow _ ⟨rfl, ends⟩
      cases decided : endsReceiving type expected datagram with
      | true =>
        obtain ⟨message', rfl, -⟩ := Eq.mp (if_pos decided) ends
        exact receiveEnds_head decided ends
      | false =>
        obtain ⟨message', rfl, goes'⟩ := Eq.mp (if_neg (by rw [decided]; decide)) ends
        rw [receiveEnds_cons decided]
        exact ih goes'

theorem can_receiveData {rounds : Nat} (enough : queue.length < rounds) (goes : GoesOn type expected message)
    (leaves : (queue.find? (endsReceiving type expected)).isSome) :
    clientSocketMachine.Can () (receiveData rounds type message expected) (fun _ _ => True) ⟨queue, e⟩ := by
  induction rounds generalizing queue message with
  | zero => exact absurd enough (Nat.not_lt_zero _)
  | succ rounds ih =>
    rw [receiveData, loop_succ]
    cases queue with
    | nil => cases leaves
    | cons datagram rest =>
      refine can_bind.mpr (can_mono ?_ (can_of_surely (@receiveRound_ends _ _ datagram _ _ _ goes)))
      rintro flow _ ⟨rfl, ends⟩
      cases decided : endsReceiving type expected datagram with
      | true =>
        obtain ⟨message', rfl, -⟩ := Eq.mp (if_pos decided) ends
        exact True.intro
      | false =>
        obtain ⟨message', rfl, goes'⟩ := Eq.mp (if_neg (by rw [decided]; decide)) ends
        rw [List.find?_cons_of_neg (by rw [decided]; decide)] at leaves
        exact ih (Nat.lt_of_succ_lt_succ enough) goes' leaves

end

def isExpected (type : ComponentType) (expected : MessageType) (datagram : List UInt8) : Bool :=
  isServerMessageFor type datagram && (messageOf datagram).messageType == expected

/-- Whenever `receive_data` returns true, it leaves the message of the first datagram that was asked
    for, with no shutdown for the client before it. -/
def ReceivesExpected (type : ComponentType) (expected : MessageType) (socket : ClientSocket) : Prop :=
  ∀ rounds history message after,
    clientSocketMachine.Runs () (receiveData rounds type emptyMessage expected) socket history (true, message) after →
      ∃ before datagram later, socket.queue = before ++ datagram :: later ∧
        message = datagram.take udpMessageSize ∧ isExpected type expected datagram = true ∧
        ∀ other ∈ before, isExpected type expected other = false ∧
          (isServerMessageFor type other && isShutdown other) = false

theorem fromServer_of_receivesExpected {type : ComponentType} {expected : MessageType} {socket : ClientSocket}
    (receives : ReceivesExpected type expected socket) {datagram : List UInt8}
    (found : socket.queue.find? (endsReceiving type expected) = some datagram)
    (matching : isMatching type expected datagram = true) : isFromServer datagram = true := by
  by_contra foreign
  have complete : isComplete datagram = true := by
    simp only [isMatching, Bool.and_eq_true] at matching
    exact matching.1.1
  have notServer : isServerMessageFor type datagram = false := by
    rw [isServerMessageFor, show ((messageOf datagram).senderType == componentTypeServer) = false from
      Bool.eq_false_iff.mpr foreign, Bool.and_false, Bool.false_and]
  obtain ⟨history, result, after, run, -⟩ := exists_run_of_can (can_receiveData (e := socket.errno)
    (Nat.lt_succ_self _) goesOn_emptyMessage (by rw [found]; rfl))
  obtain ⟨_, found', returned, whole⟩ := wp_iff_runs.mp (wp_receiveData _ goesOn_emptyMessage) _ _ _ run
  obtain rfl := Option.some.inj (found.symm.trans found')
  obtain ⟨received, message⟩ := result
  obtain rfl : received = true := returned.trans (by rw [isReceived, complete, notServer]; rfl)
  obtain ⟨before, other, later, -, same, expected', -⟩ := receives _ _ _ _ run
  have fromServer : isFromServer other = true := by
    simp only [isExpected, isServerMessageFor, Bool.and_eq_true] at expected'
    exact expected'.1.1.2
  rw [isFromServer, messageOf, ← same, show message = _ from whole rfl] at fromServer
  exact foreign fromServer

/-- A client receives what it asked for exactly if the first datagram with which its loop is left, when it
    matches, is from the server. -/
theorem receivesExpected_iff {type : ComponentType} {expected : MessageType} {socket : ClientSocket} :
    ReceivesExpected type expected socket ↔ ∀ datagram, socket.queue.find? (endsReceiving type expected) = some datagram →
      isMatching type expected datagram = true → isFromServer datagram = true := by
  constructor
  · exact fun receives _ found matching => fromServer_of_receivesExpected receives found matching
  · intro served rounds history message after run
    obtain ⟨datagram, found, returned, whole⟩ := wp_iff_runs.mp (wp_receiveData _ goesOn_emptyMessage) _ _ _ run
    obtain ⟨ends, before, later, split, none_before⟩ := List.find?_eq_some_iff_append.mp found
    have received := returned.symm
    simp only [isReceived, Bool.and_eq_true, Bool.not_eq_true'] at received
    have matching : isMatching type expected datagram = true := by
      rw [endsReceiving, received.1, received.2] at ends
      exact ends
    refine ⟨before, datagram, later, split, whole rfl, ?_, fun other mem => ?_⟩
    · have sender := served datagram found matching
      simp only [isMatching, Bool.and_eq_true] at matching
      simp only [isFromServer] at sender
      rw [isExpected, isServerMessageFor, matching.1.1, sender, matching.2, matching.1.2]
      rfl
    · have goes := none_before other mem
      simp only [endsReceiving, Bool.not_or, Bool.and_eq_true, Bool.not_eq_true'] at goes
      refine ⟨Bool.eq_false_iff.mpr fun isExpected' => ?_, goes.1.2⟩
      simp only [isExpected, isServerMessageFor, Bool.and_eq_true] at isExpected'
      rw [isMatching, isExpected'.1.1.1, isExpected'.2, isExpected'.1.2] at goes
      exact absurd goes.2 (by decide)

/-- A third worker takes another client's pin for one from the server. -/
theorem foreign_pin_is_received : ¬ ∀ type expected socket, ReceivesExpected type expected socket := by
  intro all
  let datagram := (pinMessage componentTypeSecondStageWorker componentTypeThirdStageWorker ⟨7⟩).bytes
  have matching : isMatching componentTypeThirdStageWorker messageTypePinTransferring datagram = true := by
    decide +kernel
  have found : [datagram].find? (endsReceiving componentTypeThirdStageWorker messageTypePinTransferring) = some datagram :=
    List.find?_cons_of_pos (by rw [endsReceiving, matching, Bool.or_true])
  have served := fromServer_of_receivesExpected (all _ _ ⟨[datagram], .other 0⟩) found matching
  exact absurd served (by decide +kernel)

end ArchCompSystems.OsIhw4
