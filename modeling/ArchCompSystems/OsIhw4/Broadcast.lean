import ArchCompSystems.OsIhw4.System

namespace ArchCompSystems.OsIhw4

open Library Library.Program

/-- A datagram: its number among all that were sent, its bytes, and the datagram that the server was
    handling when it sent this one. -/
structure Datagram where
  number : Nat
  bytes : List UInt8
  cause : Option Nat
  deriving DecidableEq

namespace Datagram

variable (d : Datagram)

def message : UDPMessage := .ofBytes d.bytes

def isCommand : Bool := d.message.messageType = messageTypeManagerCommand

def isResult : Bool := d.message.messageType = messageTypeManagerCommandResult

theorem isCommand_eq_false_of_isResult {d : Datagram} (result : d.isResult = true) : d.isCommand = false := by
  have type : d.message.messageType = messageTypeManagerCommandResult := of_decide_eq_true result
  simp only [isCommand, type]
  decide

end Datagram

def Process.isServer : Process → Bool
  | .server _ => true
  | .client _ _ => false

/-- Every datagram goes to the server and to all sockets. The server receives in the order that
    `order` gives, a position in the inbox for each receive, and need not receive everything; a client
    receives in the order of the sends, but may lose what is no result of a command. The other fields
    record which datagrams were sent and received last, and which commands have no result yet. -/
structure Broadcast where
  order : Nat → Nat
  sent : Nat
  inbox : List Datagram
  received : Nat
  handling : Option Nat
  unanswered : List Nat
  sockets : Process → List Datagram
  lastSent : Process → Option Nat
  lastReceived : Process → Option Datagram

namespace Broadcast

def start (order : Nat → Nat) : Broadcast :=
  ⟨order, 0, [], 0, none, [], fun _ => [], fun _ => none, fun _ => none⟩

variable (p : Process) (bytes : List UInt8) (s : Broadcast)

def bindSocket : Broadcast := { s with sockets := Function.update s.sockets p [] }

def datagram : Datagram := ⟨s.sent, bytes, if p.isServer then s.handling else none⟩

def unansweredAfter (d : Datagram) : List Nat :=
  if d.isCommand then d.number :: s.unanswered
  else if d.isResult then s.unanswered.filter (some · ≠ d.cause)
  else s.unanswered

def send : Broadcast :=
  { s with
    sent := s.sent + 1
    inbox := s.inbox ++ [s.datagram p bytes]
    unanswered := s.unansweredAfter (s.datagram p bytes)
    sockets := fun q => s.sockets q ++ [s.datagram p bytes]
    lastSent := Function.update s.lastSent p (some s.sent) }

def handle (d : Datagram) : Broadcast :=
  { s with inbox := s.inbox.eraseIdx (s.order s.received), received := s.received + 1, handling := some d.number }

def arriving : List Datagram := (s.sockets p).dropWhile fun d => !d.isResult && d.bytes ≠ bytes

def peekAt (queue : List Datagram) : Broadcast := { s with sockets := Function.update s.sockets p queue }

def take (d : Datagram) (queue : List Datagram) : Broadcast :=
  { s with sockets := Function.update s.sockets p queue, lastReceived := Function.update s.lastReceived p (some d) }

def receive (peek : Bool) : Option Broadcast :=
  if p.isServer then
    match s.inbox[s.order s.received]? with
    | some d => if d.bytes = bytes then some (s.handle d) else none
    | none => none
  else
    match s.arriving p bytes with
    | d :: rest => if d.bytes = bytes then some (if peek then s.peekAt p (d :: rest) else s.take p d rest) else none
    | [] => none

end Broadcast

def broadcast : Network Broadcast where
  bindSocket := Broadcast.bindSocket
  send := Broadcast.send
  receive p peek bytes s := s.receive p bytes peek

abbrev BroadcastPool := Pool Process Call Call.Answer (SystemState Broadcast)

namespace Broadcast

variable {p : Process} {bytes : List UInt8} {peek : Bool} {s s' : Broadcast}

@[simp] theorem sockets_bindSocket_self : (s.bindSocket p).sockets p = [] := Function.update_self ..

@[simp] theorem sockets_peekAt_self {queue : List Datagram} : (s.peekAt p queue).sockets p = queue :=
  Function.update_self ..

@[simp] theorem sockets_take_self {d : Datagram} {queue : List Datagram} : (s.take p d queue).sockets p = queue :=
  Function.update_self ..

@[simp] theorem lastReceived_take_self {d : Datagram} {queue : List Datagram} :
    (s.take p d queue).lastReceived p = some d := Function.update_self ..

theorem lastSent_send_of_ne {q : Process} (other : q ≠ p) : (s.send p bytes).lastSent q = s.lastSent q :=
  Function.update_of_ne other ..

theorem handle_of_receive (server : p.isServer = true) (received : s.receive p bytes peek = some s') :
    ∃ d, s.inbox[s.order s.received]? = some d ∧ d.bytes = bytes ∧ s' = s.handle d := by
  rw [receive, if_pos server] at received
  split at received
  · rename_i d there
    split at received
    · rename_i same
      exact ⟨d, there, same, (Option.some.inj received).symm⟩
    · cases received
  · cases received

theorem take_of_receive (client : p.isServer = false) (received : s.receive p bytes peek = some s') :
    ∃ d rest, s.arriving p bytes = d :: rest ∧ d.bytes = bytes ∧
      s' = if peek then s.peekAt p (d :: rest) else s.take p d rest := by
  rw [receive, if_neg (by simp [client])] at received
  split at received
  · rename_i d rest arrives
    split at received
    · rename_i same
      exact ⟨d, rest, arrives, same, (Option.some.inj received).symm⟩
    · cases received
  · cases received

theorem find?_dropWhile {α : Type} {found dropped : α → Bool} (apart : ∀ x, dropped x = true → found x = false)
    (l : List α) : (l.dropWhile dropped).find? found = l.find? found := by
  induction l with
  | nil => rfl
  | cons x rest ih =>
    rw [List.dropWhile_cons]
    split
    · rename_i drops
      rw [ih, List.find?_cons_of_neg]
      simp [apart x drops]
    · rfl

theorem find?_arriving : (s.arriving p bytes).find? Datagram.isResult = (s.sockets p).find? Datagram.isResult :=
  find?_dropWhile (fun d drops => by simpa using (Bool.and_eq_true_iff.mp drops).1) _

theorem mem_of_mem_arriving {d : Datagram} (member : d ∈ s.arriving p bytes) : d ∈ s.sockets p :=
  (List.dropWhile_sublist _).subset member

theorem countP_handle {d : Datagram} (there : s.inbox[s.order s.received]? = some d) (counted : Datagram → Bool) :
    (s.handle d).inbox.countP counted + (if counted d then 1 else 0) = s.inbox.countP counted := by
  obtain ⟨bound, same⟩ := List.getElem?_eq_some_iff.mp there
  have permuted := (List.getElem_cons_eraseIdx_perm bound).countP_eq counted
  rw [← permuted, List.countP_cons, same]
  rfl

end Broadcast

end ArchCompSystems.OsIhw4
