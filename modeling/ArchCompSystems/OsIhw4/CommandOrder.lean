import ArchCompSystems.OsIhw4.Broadcast

namespace ArchCompSystems.OsIhw4

open Library Library.Program

/-- How far a manager is with its command, or the server with one. -/
inductive ResultPhase where
  | idle
  | commanded
  | awaiting
  | got (res : ServerCommandResult)
  deriving DecidableEq

def IsResultBytes (bytes : List UInt8) : Prop :=
  (UDPMessage.ofBytes bytes).messageType = messageTypeManagerCommandResult → ∃ res, bytes = (commandResultMessage res).bytes

def ResultAllowed (p : Process) (m : ResultPhase) : Call → Prop
  | .sendto bytes => bytes.length = udpMessageSize ∧
    ((UDPMessage.ofBytes bytes).messageType = messageTypeManagerCommand → ∃ i, p = .client .manager i) ∧
    ((UDPMessage.ofBytes bytes).messageType = messageTypeManagerCommandResult →
      p = .server .workersPoller ∧ m = .commanded ∧ IsResultBytes bytes) ∧
    ∀ i, p = .client .manager i → m = .idle
  | .recvfrom => p = .server .workersPoller
  | .recv dontWait peek => p.isServer = false ∧ (∀ res, m ≠ .got res) ∧ (m = .awaiting → dontWait = false ∧ peek = false)
  | .bindSocket => p.isServer = false ∧ m = .idle
  | .handleServerResponse res => p.isServer = false ∧ (m = .got res ∨ res = noConnection)
  | _ => True

def ResultPossible (c : Call) (answer : c.Answer) : Prop :=
  match c, answer with
  | .recv _ _, .received bytes => bytes.length = udpMessageSize ∧ IsResultBytes bytes
  | _, _ => True

def ResultPhase.after (m : ResultPhase) (c : Call) (answer : c.Answer) : ResultPhase :=
  match c, answer with
  | .recvfrom, .received bytes _ _ =>
    if (UDPMessage.ofBytes bytes).messageType = messageTypeManagerCommand then .commanded else .idle
  | .sendto bytes, ok =>
    if (UDPMessage.ofBytes bytes).messageType = messageTypeManagerCommandResult then .idle
    else if (UDPMessage.ofBytes bytes).messageType = messageTypeManagerCommand ∧ ok then .awaiting
    else m
  | .recv _ _, .received bytes =>
    match m with
    | .awaiting =>
      if (UDPMessage.ofBytes bytes).messageType = messageTypeManagerCommandResult then .got (UDPMessage.ofBytes bytes).commandResult
      else .awaiting
    | m => m
  | .handleServerResponse _, _ => .idle
  | _, _ => m

def resultMonitor (p : Process) : Monitor Call Call.Answer ResultPhase where
  allowed := ResultAllowed p
  possible _ := ResultPossible
  after := ResultPhase.after

def AwaitsOwn (s : Broadcast) (p : Process) : Prop :=
  ∃ k, s.lastSent p = some k ∧ match (s.sockets p).find? Datagram.isResult with
    | some d => d.cause = some k
    | none => k ∈ s.unanswered

def HasOwn (s : Broadcast) (p : Process) (res : ServerCommandResult) : Prop :=
  ∃ k d, s.lastSent p = some k ∧ s.lastReceived p = some d ∧ d.isResult = true ∧ d.message.commandResult = res ∧
    d.cause = some k

def handled (phases : Process → ResultPhase) : Nat :=
  if phases (.server .workersPoller) = .commanded then 1 else 0

/-- At most one command has no result; it is on its way to the server, or the server is handling it, or
    it is lost. -/
structure CommandsOrdered (s : Broadcast) (phases : Process → ResultPhase) : Prop where
  single : s.unanswered.length ≤ 1
  outstanding : s.inbox.countP Datagram.isCommand + handled phases ≤ s.unanswered.length
  inbox : ∀ d ∈ s.inbox, d.isCommand = true → d.number ∈ s.unanswered
  commanded : phases (.server .workersPoller) = .commanded → ∃ k, s.handling = some k ∧ k ∈ s.unanswered
  results : ∀ p, ∀ d ∈ s.sockets p, d.bytes.length = udpMessageSize ∧ IsResultBytes d.bytes
  awaiting : ∀ i, phases (.client .manager i) = .awaiting → AwaitsOwn s (.client .manager i)
  got : ∀ i res, phases (.client .manager i) = .got res → HasOwn s (.client .manager i) res

section

variable {s : Broadcast} {phases : Process → ResultPhase} {p : Process} {bytes : List UInt8}

theorem CommandsOrdered.quiet (ordered : CommandsOrdered s phases) (none : s.unanswered = []) :
    s.inbox.countP Datagram.isCommand = 0 ∧ phases (.server .workersPoller) ≠ .commanded := by
  have outstanding := ordered.outstanding
  rw [none, List.length_nil] at outstanding
  refine ⟨by omega, fun commanded => ?_⟩
  rw [handled, if_pos commanded] at outstanding
  omega

theorem AwaitsOwn.send_other {q : Process} (own : AwaitsOwn s q) (other : q ≠ p)
    (noResult : (s.datagram p bytes).isResult = false)
    (still : ∀ k ∈ s.unanswered, k ∈ s.unansweredAfter (s.datagram p bytes)) : AwaitsOwn (s.send p bytes) q := by
  obtain ⟨k, sent, first⟩ := own
  refine ⟨k, (Broadcast.lastSent_send_of_ne other).trans sent, ?_⟩
  have last : [s.datagram p bytes].find? Datagram.isResult = none := by
    rw [List.find?_cons_of_neg (by simp [noResult]), List.find?_nil]
  have same : ((s.send p bytes).sockets q).find? Datagram.isResult = (s.sockets q).find? Datagram.isResult := by
    rw [Broadcast.send, List.find?_append, last, Option.or_none]
  rw [same]
  split at first
  · exact first
  · exact still k first

theorem HasOwn.send {q : Process} {res : ServerCommandResult} (own : HasOwn s q res) (other : q ≠ p) :
    HasOwn (s.send p bytes) q res := by
  obtain ⟨k, d, sent, rest⟩ := own
  exact ⟨k, d, (Broadcast.lastSent_send_of_ne other).trans sent, rest⟩

theorem results_send (ordered : CommandsOrdered s phases) (whole : bytes.length = udpMessageSize)
    (isResult : IsResultBytes bytes) (q : Process) :
    ∀ d ∈ (s.send p bytes).sockets q, d.bytes.length = udpMessageSize ∧ IsResultBytes d.bytes := by
  intro d member
  rcases List.mem_append.mp member with old | new
  · exact ordered.results q d old
  · rw [List.mem_singleton.mp new]
    exact ⟨whole, isResult⟩

theorem countP_send (counted : Datagram → Bool) : (s.send p bytes).inbox.countP counted =
    s.inbox.countP counted + if counted (s.datagram p bytes) then 1 else 0 := by
  rw [Broadcast.send, List.countP_append, List.countP_singleton]

theorem phase_of_update {q : Process} {m m' : ResultPhase} (moved : Function.update phases p m q = m')
    (different : m ≠ m') : q ≠ p ∧ phases q = m' := by
  by_cases same : q = p
  · subst same
    rw [Function.update_self] at moved
    exact absurd moved different
  · rw [Function.update_of_ne same] at moved
    exact ⟨same, moved⟩

theorem CommandsOrdered.send_command {i : Nat} (ordered : CommandsOrdered s phases)
    (command : (UDPMessage.ofBytes bytes).messageType = messageTypeManagerCommand) (whole : bytes.length = udpMessageSize)
    (none : s.unanswered = []) (noResult : ∀ d ∈ s.sockets (.client .manager i), d.isResult = false) :
    CommandsOrdered (s.send (.client .manager i) bytes) (Function.update phases (.client .manager i) .awaiting) := by
  obtain ⟨empty, free⟩ := ordered.quiet none
  have isCommand : (s.datagram (.client .manager i) bytes).isCommand = true := decide_eq_true command
  have notResult : (s.datagram (.client .manager i) bytes).isResult = false := by
    refine decide_eq_false fun result => ?_
    rw [show (s.datagram (.client .manager i) bytes).message.messageType = messageTypeManagerCommand from command] at result
    exact absurd result (by decide)
  have unanswered : (s.send (.client .manager i) bytes).unanswered = [s.sent] := by
    rw [Broadcast.send, Broadcast.unansweredAfter, if_pos isCommand, none]
    rfl
  have poller : Function.update phases (.client .manager i) .awaiting (.server .workersPoller) = phases (.server .workersPoller) :=
    Function.update_of_ne (by simp) ..
  refine ⟨?_, ?_, ?_, ?_, ?_, ?_, ?_⟩
  · rw [unanswered]
    exact Nat.le_refl 1
  · rw [countP_send, empty, handled, poller, if_neg free, unanswered]
    split <;> simp
  · intro d member commands
    rcases List.mem_append.mp member with old | new
    · exact absurd (List.countP_pos_iff.mpr ⟨d, old, commands⟩) (by omega)
    · rw [unanswered, List.mem_singleton.mp new]
      exact List.mem_singleton_self _
  · intro commanded
    rw [poller] at commanded
    exact absurd commanded free
  · refine results_send ordered whole fun result => ?_
    rw [command] at result
    exact absurd result (by decide)
  · intro j awaiting
    by_cases same : j = i
    · subst same
      refine ⟨s.sent, Function.update_self .., ?_⟩
      have noOld : (s.sockets (.client .manager j)).find? Datagram.isResult = Option.none :=
        List.find?_eq_none.mpr fun d member => by simp [noResult d member]
      have noNew : ((s.send (.client .manager j) bytes).sockets (.client .manager j)).find? Datagram.isResult = Option.none := by
        rw [Broadcast.send, List.find?_append, noOld, Option.none_or, List.find?_cons_of_neg (by simp [notResult]), List.find?_nil]
      rw [noNew, unanswered]
      exact List.mem_singleton_self _
    · have other : (Process.client .manager j) ≠ .client .manager i := by simp [same]
      rw [Function.update_of_ne other] at awaiting
      refine (ordered.awaiting j awaiting).send_other other notResult fun k member => ?_
      rw [none] at member
      cases member
  · intro j res got
    obtain ⟨other, before⟩ := phase_of_update got (by simp)
    exact (ordered.got j res before).send other

theorem CommandsOrdered.only (ordered : CommandsOrdered s phases) (commanded : phases (.server .workersPoller) = .commanded) :
    ∃ k, s.handling = some k ∧ s.unanswered = [k] ∧ s.inbox.countP Datagram.isCommand = 0 := by
  obtain ⟨k, handling, member⟩ := ordered.commanded commanded
  have outstanding := ordered.outstanding
  have single := ordered.single
  rw [handled, if_pos commanded] at outstanding
  obtain ⟨k', same⟩ := List.length_eq_one_iff.mp (by omega : s.unanswered.length = 1)
  rw [same] at member
  rw [List.mem_singleton.mp member] at handling
  exact ⟨k', handling, same, by omega⟩

theorem CommandsOrdered.send_result (ordered : CommandsOrdered s phases)
    (result : (UDPMessage.ofBytes bytes).messageType = messageTypeManagerCommandResult)
    (whole : bytes.length = udpMessageSize) (isResult : IsResultBytes bytes)
    (commanded : phases (.server .workersPoller) = .commanded) :
    CommandsOrdered (s.send (.server .workersPoller) bytes) (Function.update phases (.server .workersPoller) .idle) := by
  obtain ⟨k, handling, only, empty⟩ := ordered.only commanded
  have yes : (s.datagram (.server .workersPoller) bytes).isResult = true := decide_eq_true result
  have cause : (s.datagram (.server .workersPoller) bytes).cause = some k := handling
  have notCommand := Datagram.isCommand_eq_false_of_isResult yes
  have unanswered : (s.send (.server .workersPoller) bytes).unanswered = [] := by
    rw [Broadcast.send, Broadcast.unansweredAfter, if_neg (by simp [notCommand]), if_pos yes, cause, only]
    simp
  have sends : ∀ i, (s.send (.server .workersPoller) bytes).lastSent (.client .manager i) = s.lastSent (.client .manager i) :=
    fun i => Broadcast.lastSent_send_of_ne nofun
  refine ⟨?_, ?_, ?_, ?_, ?_, ?_, ?_⟩
  · rw [unanswered]
    exact Nat.zero_le 1
  · rw [countP_send, empty, if_neg (by simp [notCommand]), handled, Function.update_self, if_neg (by simp)]
    exact Nat.zero_le _
  · intro d member commands
    rcases List.mem_append.mp member with old | new
    · exact absurd (List.countP_pos_iff.mpr ⟨d, old, commands⟩) (by omega)
    · rw [List.mem_singleton.mp new, notCommand] at commands
      cases commands
  · intro again
    rw [Function.update_self] at again
    cases again
  · exact results_send ordered whole isResult
  · intro i awaiting
    obtain ⟨other, before⟩ := phase_of_update awaiting (by simp)
    obtain ⟨k', sent, first⟩ := ordered.awaiting i before
    refine ⟨k', (sends i).trans sent, ?_⟩
    rw [Broadcast.send, List.find?_append]
    split at first
    · rename_i d found
      rw [found, Option.some_or]
      exact first
    · rename_i found
      rw [only] at first
      rw [found, Option.none_or, List.find?_cons_of_pos yes, List.mem_singleton.mp first]
      exact cause
  · intro i res got
    obtain ⟨other, before⟩ := phase_of_update got (by simp)
    exact (ordered.got i res before).send other

theorem CommandsOrdered.send_other (ordered : CommandsOrdered s phases)
    (notCommand : (UDPMessage.ofBytes bytes).messageType ≠ messageTypeManagerCommand)
    (notResult : (UDPMessage.ofBytes bytes).messageType ≠ messageTypeManagerCommandResult)
    (whole : bytes.length = udpMessageSize) (idle : ∀ i, p = .client .manager i → phases p = .idle) :
    CommandsOrdered (s.send p bytes) phases := by
  have noCommand : (s.datagram p bytes).isCommand = false := decide_eq_false notCommand
  have noResult : (s.datagram p bytes).isResult = false := decide_eq_false notResult
  have kept : s.unansweredAfter (s.datagram p bytes) = s.unanswered := by
    rw [Broadcast.unansweredAfter, if_neg (by simp [noCommand]), if_neg (by simp [noResult])]
  have unanswered : (s.send p bytes).unanswered = s.unanswered := kept
  have busy : ∀ i m, phases (.client .manager i) = m → m ≠ .idle → Process.client .manager i ≠ p := by
    rintro i m phase notIdle rfl
    exact notIdle (phase ▸ idle i rfl)
  refine ⟨?_, ?_, ?_, ?_, ?_, ?_, ?_⟩
  · rw [unanswered]
    exact ordered.single
  · rw [countP_send, if_neg (by simp [noCommand]), unanswered]
    exact ordered.outstanding
  · intro d member commands
    rw [unanswered]
    rcases List.mem_append.mp member with old | new
    · exact ordered.inbox d old commands
    · rw [List.mem_singleton.mp new, noCommand] at commands
      cases commands
  · intro commanded
    rw [unanswered]
    exact ordered.commanded commanded
  · exact results_send ordered whole fun result => absurd result notResult
  · intro i awaiting
    refine (ordered.awaiting i awaiting).send_other (busy i _ awaiting (by simp)) noResult fun k member => ?_
    exact kept.symm ▸ member
  · exact fun i res got => (ordered.got i res got).send (busy i _ got (by simp))

theorem CommandsOrdered.handle {d : Datagram} (ordered : CommandsOrdered s phases)
    (there : s.inbox[s.order s.received]? = some d) :
    CommandsOrdered (s.handle d) (Function.update phases (.server .workersPoller) (if d.isCommand then .commanded else .idle)) := by
  have counted := Broadcast.countP_handle there Datagram.isCommand
  have outstanding := ordered.outstanding
  have single := ordered.single
  refine ⟨single, ?_, ?_, ?_, ordered.results, ?_, ?_⟩
  · show (s.handle d).inbox.countP Datagram.isCommand + handled _ ≤ s.unanswered.length
    rw [handled, Function.update_self]
    cases commands : d.isCommand with
    | true =>
      rw [commands] at counted
      simp only [if_true] at counted ⊢
      omega
    | false =>
      rw [commands] at counted
      simp only [Bool.false_eq_true, if_false, reduceCtorEq] at counted ⊢
      omega
  · intro d' member commands
    exact ordered.inbox d' (List.mem_of_mem_eraseIdx member) commands
  · intro commanded
    rw [Function.update_self] at commanded
    split at commanded
    · rename_i commands
      exact ⟨d.number, rfl, ordered.inbox d (List.mem_of_getElem? there) commands⟩
    · cases commanded
  · intro i awaiting
    rw [Function.update_of_ne (by simp)] at awaiting
    exact ordered.awaiting i awaiting
  · intro i res got
    rw [Function.update_of_ne (by simp)] at got
    exact ordered.got i res got

theorem CommandsOrdered.of_client {s' : Broadcast} {m : ResultPhase} (ordered : CommandsOrdered s phases)
    (client : p.isServer = false) (inbox : s'.inbox = s.inbox) (handling : s'.handling = s.handling)
    (unanswered : s'.unanswered = s.unanswered) (sent : s'.lastSent = s.lastSent)
    (others : ∀ q, q ≠ p → s'.sockets q = s.sockets q ∧ s'.lastReceived q = s.lastReceived q)
    (queue : ∀ d ∈ s'.sockets p, d ∈ s.sockets p)
    (awaiting : ∀ i, p = .client .manager i → m = .awaiting → AwaitsOwn s' p)
    (got : ∀ i res, p = .client .manager i → m = .got res → HasOwn s' p res) : CommandsOrdered s' (Function.update phases p m) := by
  have poller : Function.update phases p m (.server .workersPoller) = phases (.server .workersPoller) := by
    refine Function.update_of_ne ?_ ..
    rintro rfl
    cases client
  refine ⟨?_, ?_, ?_, ?_, ?_, ?_, ?_⟩
  · rw [unanswered]
    exact ordered.single
  · rw [inbox, unanswered, handled, poller]
    exact ordered.outstanding
  · rw [inbox, unanswered]
    exact ordered.inbox
  · rw [poller, handling, unanswered]
    exact ordered.commanded
  · intro q d member
    by_cases same : q = p
    · subst same
      exact ordered.results q d (queue d member)
    · rw [(others q same).1] at member
      exact ordered.results q d member
  · intro i waits
    by_cases same : .client .manager i = p
    · subst same
      rw [Function.update_self] at waits
      exact awaiting i rfl waits
    · rw [Function.update_of_ne same] at waits
      have own := ordered.awaiting i waits
      rwa [AwaitsOwn, ← sent, ← (others _ same).1, ← unanswered] at own
  · intro i res has
    by_cases same : .client .manager i = p
    · subst same
      rw [Function.update_self] at has
      exact got i res rfl has
    · rw [Function.update_of_ne same] at has
      have own := ordered.got i res has
      rwa [HasOwn, ← sent, ← (others _ same).2] at own

theorem CommandsOrdered.taken {d : Datagram} {rest : List Datagram} (ordered : CommandsOrdered s phases) {i : Nat}
    (awaiting : phases (.client .manager i) = .awaiting) (arrives : s.arriving (.client .manager i) bytes = d :: rest) :
    (d.isResult = true → HasOwn (s.take (.client .manager i) d rest) (.client .manager i) d.message.commandResult) ∧
      (d.isResult = false → AwaitsOwn (s.take (.client .manager i) d rest) (.client .manager i)) := by
  obtain ⟨k, sent, first⟩ := ordered.awaiting i awaiting
  rw [← @Broadcast.find?_arriving _ bytes, arrives] at first
  refine ⟨fun result => ?_, fun noResult => ?_⟩
  · rw [List.find?_cons_of_pos result] at first
    exact ⟨k, d, sent, Broadcast.lastReceived_take_self, result, rfl, first⟩
  · rw [List.find?_cons_of_neg (by simp [noResult])] at first
    refine ⟨k, sent, ?_⟩
    rw [Broadcast.sockets_take_self]
    exact first

theorem CommandsOrdered.take {d : Datagram} {rest : List Datagram} {dontWait peek : Bool} (ordered : CommandsOrdered s phases)
    (client : p.isServer = false) (free : ∀ res, phases p ≠ .got res) (arrives : s.arriving p bytes = d :: rest) :
    CommandsOrdered (s.take p d rest)
      (Function.update phases p ((phases p).after (.recv dontWait peek) (.received d.bytes))) := by
  refine ordered.of_client client rfl rfl rfl rfl
    (fun q other => ⟨Function.update_of_ne other .., Function.update_of_ne other ..⟩) (fun d' member => ?_) ?_ ?_
  · rw [Broadcast.sockets_take_self] at member
    exact Broadcast.mem_of_mem_arriving (arrives ▸ List.mem_cons_of_mem d member)
  · rintro i rfl waits
    cases phase : phases (.client .manager i) with
    | awaiting =>
      rw [phase, ResultPhase.after] at waits
      split at waits
      · cases waits
      · rename_i noResult
        exact (ordered.taken phase arrives).2 (decide_eq_false noResult)
    | _ => simp [phase, ResultPhase.after] at waits
  · rintro i res rfl has
    cases phase : phases (.client .manager i) with
    | awaiting =>
      rw [phase, ResultPhase.after] at has
      split at has
      · rename_i result
        cases has
        exact (ordered.taken phase arrives).1 (decide_eq_true result)
      · cases has
    | got res' => exact absurd phase (free res')
    | _ => simp [phase, ResultPhase.after] at has

theorem CommandsOrdered.peekAt {d : Datagram} {rest : List Datagram} (ordered : CommandsOrdered s phases)
    (client : p.isServer = false) (free : ∀ res, phases p ≠ .got res) (notAwaiting : phases p ≠ .awaiting)
    (arrives : s.arriving p bytes = d :: rest) : CommandsOrdered (s.peekAt p (d :: rest)) phases := by
  have kept : CommandsOrdered (s.peekAt p (d :: rest)) (Function.update phases p (phases p)) := by
    refine ordered.of_client client rfl rfl rfl rfl (fun q other => ⟨Function.update_of_ne other .., rfl⟩)
      (fun d' member => ?_) (fun _ _ waits => absurd waits notAwaiting) (fun _ res _ has => absurd has (free res))
    rw [Broadcast.sockets_peekAt_self, ← arrives] at member
    exact Broadcast.mem_of_mem_arriving member
  rwa [Function.update_eq_self] at kept

theorem CommandsOrdered.bindSocket (ordered : CommandsOrdered s phases) (client : p.isServer = false)
    (idle : phases p = .idle) : CommandsOrdered (s.bindSocket p) phases := by
  have kept : CommandsOrdered (s.bindSocket p) (Function.update phases p .idle) := by
    refine ordered.of_client client rfl rfl rfl rfl (fun q other => ⟨Function.update_of_ne other .., rfl⟩)
      (fun d' member => ?_) (fun _ _ waits => by cases waits) (fun _ res _ has => by cases has)
    rw [Broadcast.sockets_bindSocket_self] at member
    cases member
  rwa [← idle, Function.update_eq_self] at kept

theorem CommandsOrdered.rest (ordered : CommandsOrdered s phases) : CommandsOrdered s (Function.update phases p .idle) := by
  refine ⟨ordered.single, ?_, ordered.inbox, ?_, ordered.results, ?_, ?_⟩
  · refine Nat.le_trans (Nat.add_le_add_left ?_ _) ordered.outstanding
    unfold handled
    by_cases same : Process.server .workersPoller = p
    · subst same
      rw [Function.update_self]
      exact Nat.zero_le _
    · rw [Function.update_of_ne same]
  · intro commanded
    exact ordered.commanded (phase_of_update commanded (by simp)).2
  · intro i awaiting
    exact ordered.awaiting i (phase_of_update awaiting (by simp)).2
  · intro i res got
    exact ordered.got i res (phase_of_update got (by simp)).2

def Quiet (s : Broadcast) (p : Process) (c : Call) (answer : c.Answer) : Prop :=
  match c, answer with
  | .sendto bytes, true => (UDPMessage.ofBytes bytes).messageType = messageTypeManagerCommand →
    s.unanswered = [] ∧ ∀ d ∈ s.sockets p, d.isResult = false
  | _, _ => True

theorem CommandsOrdered.sendto (ordered : CommandsOrdered s phases) (allowed : ResultAllowed p (phases p) (.sendto bytes))
    (quiet : ∀ i, p = .client .manager i → Quiet s p (.sendto bytes) true) :
    CommandsOrdered (s.send p bytes) (Function.update phases p ((phases p).after (.sendto bytes) true)) := by
  obtain ⟨whole, fromManager, fromServer, idle⟩ := allowed
  by_cases result : (UDPMessage.ofBytes bytes).messageType = messageTypeManagerCommandResult
  · obtain ⟨rfl, commanded, isResult⟩ := fromServer result
    rw [ResultPhase.after, if_pos result]
    exact ordered.send_result result whole isResult commanded
  · by_cases command : (UDPMessage.ofBytes bytes).messageType = messageTypeManagerCommand
    · obtain ⟨i, rfl⟩ := fromManager command
      obtain ⟨none, noResult⟩ := quiet i rfl command
      rw [ResultPhase.after, if_neg result, if_pos ⟨command, rfl⟩]
      exact ordered.send_command command whole none noResult
    · rw [ResultPhase.after, if_neg result, if_neg fun both => command both.1, Function.update_eq_self]
      exact ordered.send_other command result whole idle

theorem CommandsOrdered.not_sent (ordered : CommandsOrdered s phases) :
    CommandsOrdered s (Function.update phases p ((phases p).after (.sendto bytes) false)) := by
  by_cases result : (UDPMessage.ofBytes bytes).messageType = messageTypeManagerCommandResult
  · rw [ResultPhase.after, if_pos result]
    exact ordered.rest
  · rw [ResultPhase.after, if_neg result, if_neg (by simp), Function.update_eq_self]
    exact ordered

theorem CommandsOrdered.perform {s' : Broadcast} {c : Call} {answer : c.Answer} (ordered : CommandsOrdered s phases)
    (allowed : ResultAllowed p (phases p) c) (quiet : ∀ i, p = .client .manager i → Quiet s p c answer)
    (performed : broadcast.perform p c answer s = some s') :
    ResultPossible c answer ∧ CommandsOrdered s' (Function.update phases p ((phases p).after c answer)) := by
  have unmoved : s' = s → (phases p).after c answer = phases p →
      CommandsOrdered s' (Function.update phases p ((phases p).after c answer)) := by
    rintro rfl same
    rwa [same, Function.update_eq_self]
  cases c with
  | recvfrom =>
    cases answer with
    | failed => exact ⟨True.intro, unmoved (Option.some.inj performed).symm rfl⟩
    | received bytes addressSize address =>
      have server : p = .server .workersPoller := allowed
      subst server
      have receives : s.receive (.server .workersPoller) bytes false = some s' := performed
      obtain ⟨d, there, rfl, rfl⟩ := Broadcast.handle_of_receive rfl receives
      have moved := ordered.handle there
      refine ⟨True.intro, ?_⟩
      rw [ResultPhase.after]
      by_cases command : (UDPMessage.ofBytes d.bytes).messageType = messageTypeManagerCommand
      · rw [if_pos command]
        rwa [if_pos (show d.isCommand = true from decide_eq_true command)] at moved
      · rw [if_neg command]
        rwa [if_neg (show ¬ d.isCommand = true from fun isCommand => command (of_decide_eq_true isCommand))] at moved
  | recv dontWait peek =>
    cases answer with
    | failed error => exact ⟨True.intro, unmoved (Option.some.inj performed).symm rfl⟩
    | received bytes =>
      obtain ⟨client, free, waits⟩ := allowed
      obtain ⟨d, rest, arrives, rfl, rfl⟩ := Broadcast.take_of_receive client performed
      have member : d ∈ s.sockets p := Broadcast.mem_of_mem_arriving (arrives ▸ List.mem_cons_self ..)
      refine ⟨ordered.results p d member, ?_⟩
      cases peek with
      | false => exact ordered.take client free arrives
      | true =>
        have notAwaiting : phases p ≠ .awaiting := fun awaiting => by cases (waits awaiting).2
        have stays : (phases p).after (.recv dontWait true) (.received d.bytes) = phases p := by
          cases phase : phases p with
          | awaiting => exact absurd phase notAwaiting
          | _ => rfl
        rw [stays, Function.update_eq_self]
        exact ordered.peekAt client free notAwaiting arrives
  | sendto bytes =>
    cases answer with
    | false =>
      obtain rfl : s' = s := (Option.some.inj performed).symm
      exact ⟨True.intro, ordered.not_sent⟩
    | true =>
      obtain rfl : s' = s.send p bytes := (Option.some.inj performed).symm
      exact ⟨True.intro, ordered.sendto allowed quiet⟩
  | bindSocket =>
    cases answer with
    | false => exact ⟨True.intro, unmoved (Option.some.inj performed).symm rfl⟩
    | true =>
      obtain rfl : s' = s.bindSocket p := (Option.some.inj performed).symm
      have stays : (phases p).after .bindSocket true = phases p := rfl
      rw [stays, Function.update_eq_self]
      exact ⟨True.intro, ordered.bindSocket allowed.1 allowed.2⟩
  | handleServerResponse res =>
    obtain rfl : s' = s := (Option.some.inj performed).symm
    exact ⟨True.intro, ordered.rest⟩
  | _ => exact ⟨True.intro, unmoved (Option.some.inj performed).symm rfl⟩

end

end ArchCompSystems.OsIhw4
