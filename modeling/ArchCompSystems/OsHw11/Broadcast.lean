import Mathlib.Algebra.Ring.Nat
import Mathlib.Data.List.TakeWhile
import Mathlib.Tactic.Common

namespace ArchCompSystems.OsHw11

def messageBufferSize : Nat := 256

/-- "The End" -/
def endMessage : List UInt8 := [84, 104, 101, 32, 69, 110, 100]

def endMessageLength : Nat := 7

def isEndMessage (message : List UInt8) (messageSize : Nat) : Bool :=
  messageSize = endMessageLength && message.take endMessageLength = endMessage

/-- A difference of `size_t` values wraps around. -/
def sizeSub (a b : Nat) : Nat := (a + 2 ^ 64 - b) % 2 ^ 64

def cString (buffer : List UInt8) : List UInt8 := buffer.takeWhile (· ≠ 0)

def newline : UInt8 := 10

/-- What `fgets` returns of its input: not nothing, at most what the buffer has room for, and no newline
    but at the end. -/
structure Line where
  bytes : List UInt8
  nonempty : bytes ≠ []
  short : bytes.length < messageBufferSize
  last : newline ∉ bytes.dropLast

def fgets (buffer : List UInt8) (line : Line) : List UInt8 := line.bytes ++ 0 :: buffer.drop (line.bytes.length + 1)

/-- What `recvfrom` leaves in the buffer; longer datagrams are cut off. -/
structure Datagram where
  bytes : List UInt8
  short : bytes.length ≤ messageBufferSize

def recvfrom (buffer : List UInt8) (datagram : Datagram) : List UInt8 :=
  datagram.bytes ++ buffer.drop datagram.bytes.length

structure ServerRound where
  buffer : List UInt8
  messageSize : Nat
  receivedEndMessage : Bool

/-- The loop's body up to `sendto`; `none` is an index that is not below `messageBufferSize`. -/
def serverRound (buffer : List UInt8) (line : Line) : Option ServerRound :=
  let buffer := fgets buffer line
  let messageSize := (cString buffer).length
  let last := sizeSub messageSize 1
  if last < messageBufferSize then
    if buffer[last]? = some newline then
      let buffer := buffer.set last 0
      let messageSize := messageSize - 1
      some { buffer, messageSize, receivedEndMessage := isEndMessage buffer messageSize }
    else some { buffer, messageSize, receivedEndMessage := isEndMessage buffer messageSize }
  else none

/-- A datagram of the server, and the string that its buffer then holds. -/
structure Sent where
  datagram : List UInt8
  string : List UInt8
  isEnd : Bool

def ServerRound.sent (round : ServerRound) : Sent where
  datagram := round.buffer.take (round.messageSize + 1)
  string := cString round.buffer
  isEnd := round.receivedEndMessage

/-- What the server has sent, and its `received_end_message` when it stops. -/
structure ServerRun where
  sent : List Sent
  receivedEndMessage : Bool

/-- Each line comes with whether `sendto` sends the whole message; behind the last line `fgets` returns
    `NULL`. -/
def runServerImpl (buffer : List UInt8) : List (Line × Bool) → Option ServerRun
  | [] => some { sent := [], receivedEndMessage := false }
  | (line, whole) :: lines => do
    let round ← serverRound buffer line
    if !whole then return { sent := [], receivedEndMessage := round.receivedEndMessage }
    if round.receivedEndMessage then return { sent := [round.sent], receivedEndMessage := true }
    let run ← runServerImpl round.buffer lines
    return { run with sent := round.sent :: run.sent }

structure ClientRound where
  buffer : List UInt8
  messageLength : Nat
  receivedEndMessage : Bool

/-- The string that is printed. -/
def ClientRound.message (round : ClientRound) : List UInt8 := cString round.buffer

def clientRound (buffer : List UInt8) (datagram : Datagram) : Option ClientRound :=
  let buffer := recvfrom buffer datagram
  let messageStringLength := sizeSub datagram.bytes.length 1
  if messageStringLength < messageBufferSize then
    let buffer := buffer.set messageStringLength 0
    some { buffer, messageLength := messageStringLength,
           receivedEndMessage := isEndMessage buffer messageStringLength }
  else none

/-- The messages that the client has printed with their lengths, and whether the last one ended it. -/
structure ClientRun where
  printed : List (List UInt8 × Nat)
  receivedEndMessage : Bool
  deriving DecidableEq

/-- Behind the last datagram the client waits, or `recvfrom` fails. -/
def runClientImpl (buffer : List UInt8) : List Datagram → Option ClientRun
  | [] => some { printed := [], receivedEndMessage := false }
  | datagram :: datagrams => do
    let round ← clientRound buffer datagram
    if round.receivedEndMessage then
      return { printed := [(round.message, round.messageLength)], receivedEndMessage := true }
    let run ← runClientImpl round.buffer datagrams
    return { run with printed := (round.message, round.messageLength) :: run.printed }

/-- `message_buffer` at the start of both programs. -/
def zeroBuffer : List UInt8 := List.replicate messageBufferSize 0

def Line.text (line : Line) : List UInt8 :=
  let string := cString line.bytes
  if string.getLast? = some newline then string.dropLast else string

theorem zero_notMem_cString (buffer : List UInt8) : 0 ∉ cString buffer := by
  intro member
  have nonzero := List.mem_takeWhile_imp member
  revert nonzero
  decide

theorem cString_append {string rest : List UInt8} (noZero : 0 ∉ string) : cString (string ++ 0 :: rest) = string := by
  unfold cString
  rw [List.takeWhile_append_of_pos, List.takeWhile_cons_of_neg (by decide), List.append_nil]
  intro c member
  refine decide_eq_true ?_
  rintro rfl
  exact noZero member

theorem isEndMessage_append (text rest : List UInt8) :
    isEndMessage (text ++ rest) text.length = decide (text = endMessage) := by
  unfold isEndMessage
  by_cases length : text.length = endMessageLength
  · rw [← length, List.take_left, length, decide_eq_true rfl, Bool.true_and]
  · rw [decide_eq_false length, Bool.false_and]
    refine (decide_eq_false ?_).symm
    rintro rfl
    exact length rfl

theorem fgets_eq (buffer : List UInt8) (line : Line) : ∃ rest, fgets buffer line = cString line.bytes ++ 0 :: rest := by
  unfold fgets
  have split := List.takeWhile_append_dropWhile (p := fun c : UInt8 => decide (c ≠ 0)) (l := line.bytes)
  cases behind : line.bytes.dropWhile fun c => decide (c ≠ 0) with
  | nil =>
    rw [behind, List.append_nil] at split
    exact ⟨buffer.drop (line.bytes.length + 1), by rw [cString, split]⟩
  | cons c rest =>
    have stop := List.head?_dropWhile_not (fun c : UInt8 => decide (c ≠ 0)) line.bytes
    rw [behind] at stop
    obtain rfl : c = 0 := by simpa using stop
    rw [behind] at split
    generalize buffer.drop (line.bytes.length + 1) = old
    exact ⟨rest ++ 0 :: old, by rw [cString, ← List.cons_append, ← List.append_assoc, split]⟩

theorem sizeSub_one {size : Nat} (pos : 0 < size) (small : size ≤ messageBufferSize) : sizeSub size 1 = size - 1 := by
  unfold sizeSub
  unfold messageBufferSize at small
  omega

theorem sizeSub_zero_one : ¬ sizeSub 0 1 < messageBufferSize := by decide

theorem length_cString_le (buffer : List UInt8) : (cString buffer).length ≤ buffer.length :=
  (List.takeWhile_prefix _).length_le

theorem cString_eq_nil_iff {line : Line} : cString line.bytes = [] ↔ line.bytes.head? = some 0 := by
  obtain ⟨c, bytes, same⟩ := List.exists_cons_of_ne_nil line.nonempty
  rw [same, cString, List.takeWhile_cons]
  by_cases zero : c = 0
  · simp [zero]
  · simp [zero]

theorem zero_notMem_text (line : Line) : 0 ∉ line.text := by
  have noZero := zero_notMem_cString line.bytes
  unfold Line.text
  simp only
  split_ifs with ended
  · exact fun member => noZero ((List.dropLast_prefix _).subset member)
  · exact noZero

theorem length_text_lt (line : Line) : line.text.length < messageBufferSize := by
  have short := Nat.lt_of_le_of_lt (length_cString_le line.bytes) line.short
  unfold Line.text
  simp only
  split_ifs with ended
  · rw [List.length_dropLast]
    exact Nat.lt_of_le_of_lt (Nat.sub_le _ _) short
  · exact short

theorem cString_fgets (buffer : List UInt8) (line : Line) : cString (fgets buffer line) = cString line.bytes := by
  obtain ⟨rest, filled⟩ := fgets_eq buffer line
  rw [filled, cString_append (zero_notMem_cString _)]

theorem serverRound_of_zero {buffer : List UInt8} {line : Line} (zero : line.bytes.head? = some 0) :
    serverRound buffer line = none := by
  have empty : (cString (fgets buffer line)).length = 0 := by
    rw [cString_fgets, cString_eq_nil_iff.mpr zero]
    rfl
  simp only [serverRound, empty, if_neg sizeSub_zero_one]

theorem trim_of_text {buffer : List UInt8} {line : Line} (visible : line.bytes.head? ≠ some 0) :
    ∃ rest, (if (fgets buffer line)[(cString line.bytes).length - 1]? = some newline then
        ((fgets buffer line).set ((cString line.bytes).length - 1) 0, (cString line.bytes).length - 1)
      else (fgets buffer line, (cString line.bytes).length)) = (line.text ++ 0 :: rest, line.text.length) := by
  obtain ⟨rest, filled⟩ := fgets_eq buffer line
  have nonempty : cString line.bytes ≠ [] := fun empty => visible (cString_eq_nil_iff.mp empty)
  have pos := List.length_pos_iff.mpr nonempty
  have lastChar : (fgets buffer line)[(cString line.bytes).length - 1]? = (cString line.bytes).getLast? := by
    rw [filled, List.getElem?_append_left (by omega), List.getLast?_eq_getElem?]
  rw [lastChar]
  unfold Line.text
  simp only
  split_ifs with ended
  · obtain ⟨text, same⟩ := List.getLast?_eq_some_iff.mp ended
    have set : (fgets buffer line).set text.length 0 = text ++ 0 :: 0 :: rest := by
      rw [filled, same, List.append_assoc, List.set_append_right _ _ (Nat.le_refl _), Nat.sub_self]
      rfl
    refine ⟨0 :: rest, ?_⟩
    simp only [same, List.length_append, List.length_singleton, Nat.add_sub_cancel, List.dropLast_concat, set]
  · exact ⟨rest, by rw [filled]⟩

theorem serverRound_of_text {buffer : List UInt8} {line : Line} (visible : line.bytes.head? ≠ some 0) :
    ∃ rest, serverRound buffer line = some {
      buffer := line.text ++ 0 :: rest
      messageSize := line.text.length
      receivedEndMessage := line.text = endMessage } := by
  have nonempty : cString line.bytes ≠ [] := fun empty => visible (cString_eq_nil_iff.mp empty)
  have pos := List.length_pos_iff.mpr nonempty
  have short := Nat.lt_of_le_of_lt (length_cString_le line.bytes) line.short
  have last := sizeSub_one pos (Nat.le_of_lt short)
  have inside : (cString line.bytes).length - 1 < messageBufferSize := by omega
  obtain ⟨rest, trimmed⟩ := @trim_of_text buffer line visible
  refine ⟨rest, ?_⟩
  simp only [serverRound, cString_fgets, last, if_pos inside]
  split_ifs at trimmed ⊢ with ended
  all_goals
    obtain ⟨buffer, size⟩ := Prod.mk.inj trimmed
    rw [buffer, size, isEndMessage_append]

def Sent.ofText (text : List UInt8) : Sent := ⟨text ++ [0], text, text = endMessage⟩

theorem sent_eq {text rest : List UInt8} (noZero : 0 ∉ text) (isEnd : Bool) :
    (⟨text ++ 0 :: rest, text.length, isEnd⟩ : ServerRound).sent = ⟨text ++ [0], text, isEnd⟩ := by
  have taken : (text ++ 0 :: rest).take (text.length + 1) = text ++ [0] := by
    rw [List.take_append, List.take_of_length_le (Nat.le_succ _), Nat.add_sub_cancel_left]
    rfl
  simp only [ServerRound.sent, cString_append noZero, taken]

theorem clientRound_of_empty {buffer : List UInt8} {datagram : Datagram} (empty : datagram.bytes = []) :
    clientRound buffer datagram = none := by
  simp only [clientRound, empty, List.length_nil, if_neg sizeSub_zero_one]

def Datagram.IsEnd (datagram : Datagram) : Prop :=
  datagram.bytes.length = endMessageLength + 1 ∧ datagram.bytes.take endMessageLength = endMessage

instance (datagram : Datagram) : Decidable datagram.IsEnd := inferInstanceAs (Decidable (_ ∧ _))

theorem clientRound_of_bytes {buffer : List UInt8} {datagram : Datagram} (nonempty : datagram.bytes ≠ []) :
    ∃ round, clientRound buffer datagram = some round ∧ round.receivedEndMessage = decide datagram.IsEnd := by
  have pos := List.length_pos_iff.mpr nonempty
  have short := datagram.short
  have last := sizeSub_one pos short
  have inside : datagram.bytes.length - 1 < messageBufferSize := by omega
  rw [clientRound]
  simp only [last, if_pos inside]
  refine ⟨_, rfl, ?_⟩
  rw [Bool.eq_iff_iff, decide_eq_true_iff, isEndMessage, Bool.and_eq_true, decide_eq_true_iff, decide_eq_true_iff]
  by_cases length : datagram.bytes.length - 1 = endMessageLength
  · have whole : datagram.bytes.length = endMessageLength + 1 := by omega
    rw [length, List.take_set_of_le (Nat.le_refl _), recvfrom, List.take_append_of_le_length (by omega)]
    exact and_congr (iff_of_true rfl whole) Iff.rfl
  · exact iff_of_false (fun both => length both.1) fun isEnd => length (by rw [isEnd.1, Nat.add_sub_cancel])

theorem clientRound_of_text {buffer text : List UInt8} {datagram : Datagram}
    (bytes : datagram.bytes = text ++ [0]) : ∃ rest, clientRound buffer datagram = some {
      buffer := text ++ 0 :: rest
      messageLength := text.length
      receivedEndMessage := text = endMessage } := by
  have short := datagram.short
  have length : datagram.bytes.length = text.length + 1 := by rw [bytes, List.length_append, List.length_singleton]
  have last : sizeSub datagram.bytes.length 1 = text.length := by
    rw [sizeSub_one (by omega) short, length, Nat.add_sub_cancel]
  have inside : text.length < messageBufferSize := by omega
  have received : (recvfrom buffer datagram).set text.length 0 = text ++ 0 :: buffer.drop (text.length + 1) := by
    rw [recvfrom, length, bytes, List.append_assoc, List.set_append_right _ _ (Nat.le_refl _), Nat.sub_self]
    rfl
  refine ⟨buffer.drop (text.length + 1), ?_⟩
  simp only [clientRound, last, if_pos inside, received, isEndMessage_append]

/-- No line that the server reads starts with a zero byte. -/
def LinesVisible : List (Line × Bool) → Prop
  | [] => True
  | (line, whole) :: lines =>
    line.bytes.head? ≠ some 0 ∧ (whole = true → line.text ≠ endMessage → LinesVisible lines)

/-- No datagram that the client reads is empty. -/
def DatagramsFilled : List Datagram → Prop
  | [] => True
  | datagram :: datagrams => datagram.bytes ≠ [] ∧ (¬ datagram.IsEnd → DatagramsFilled datagrams)

def Conversation : List Sent → Prop
  | [] => True
  | sent :: later => (∃ text, 0 ∉ text ∧ text.length < messageBufferSize ∧ sent = .ofText text) ∧
    (sent.isEnd = true → later = []) ∧ Conversation later

theorem runServerImpl_of_not_visible {buffer : List UInt8} {lines : List (Line × Bool)}
    (hidden : ¬ LinesVisible lines) : runServerImpl buffer lines = none := by
  induction lines generalizing buffer with
  | nil => exact absurd True.intro hidden
  | cons first lines ih =>
    obtain ⟨line, whole⟩ := first
    by_cases zero : line.bytes.head? = some 0
    · simp only [runServerImpl, serverRound_of_zero zero, Option.bind_eq_bind, Option.bind_none]
    · obtain ⟨rest, round⟩ := @serverRound_of_text buffer line zero
      have later : whole = true ∧ line.text ≠ endMessage ∧ ¬ LinesVisible lines := by
        by_contra visible
        exact hidden ⟨zero, fun isWhole other => by_contra fun later => visible ⟨isWhole, other, later⟩⟩
      obtain ⟨rfl, other, later⟩ := later
      simp [runServerImpl, round, other, ih later]

theorem runServerImpl_of_visible {buffer : List UInt8} {lines : List (Line × Bool)} (visible : LinesVisible lines) :
    ∃ run, runServerImpl buffer lines = some run ∧ Conversation run.sent := by
  induction lines generalizing buffer with
  | nil => exact ⟨_, rfl, True.intro⟩
  | cons first lines ih =>
    obtain ⟨line, whole⟩ := first
    obtain ⟨rest, round⟩ := @serverRound_of_text buffer line visible.1
    have text : ∃ text, 0 ∉ text ∧ text.length < messageBufferSize ∧ Sent.ofText line.text = .ofText text :=
      ⟨line.text, zero_notMem_text line, length_text_lt line, rfl⟩
    have sent := @sent_eq line.text rest (zero_notMem_text line)
    cases whole with
    | false => exact ⟨⟨[], line.text = endMessage⟩, by simp [runServerImpl, round], True.intro⟩
    | true =>
      by_cases ended : line.text = endMessage
      · refine ⟨⟨[Sent.ofText line.text], true⟩, ?_, text, fun _ => rfl, True.intro⟩
        rw [ended] at sent round ⊢
        simp [runServerImpl, round, sent, Sent.ofText]
      · obtain ⟨run, later, conversation⟩ := @ih (line.text ++ 0 :: rest) (visible.2 rfl ended)
        refine ⟨{ run with sent := .ofText line.text :: run.sent }, ?_, text, fun isEnd => ?_, conversation⟩
        · simp [runServerImpl, round, ended, later, sent, Sent.ofText]
        · exact absurd (of_decide_eq_true isEnd) ended

theorem runClientImpl_isSome_iff {buffer : List UInt8} {datagrams : List Datagram} :
    (runClientImpl buffer datagrams).isSome = true ↔ DatagramsFilled datagrams := by
  induction datagrams generalizing buffer with
  | nil => exact iff_of_true rfl True.intro
  | cons datagram datagrams ih =>
    by_cases empty : datagram.bytes = []
    · refine iff_of_false ?_ fun filled => filled.1 empty
      simp [runClientImpl, clientRound_of_empty empty]
    · obtain ⟨round, performed, ended⟩ := @clientRound_of_bytes buffer datagram empty
      rw [DatagramsFilled, and_iff_right empty]
      by_cases isEnd : datagram.IsEnd
      · simp [runClientImpl, performed, ended, isEnd]
      · rw [← @ih round.buffer]
        cases later : runClientImpl round.buffer datagrams <;> simp [runClientImpl, performed, ended, isEnd, later]

theorem runClientImpl_of_conversation {buffer : List UInt8} {sent : List Sent} {datagrams : List Datagram}
    (conversation : Conversation sent) (all : datagrams.map Datagram.bytes = sent.map Sent.datagram) :
    ∃ run, runClientImpl buffer datagrams = some run ∧ run.printed.map Prod.fst = sent.map Sent.string ∧
      run.receivedEndMessage = sent.any Sent.isEnd := by
  induction sent generalizing buffer datagrams with
  | nil =>
    obtain rfl := List.map_eq_nil_iff.mp all
    exact ⟨_, rfl, rfl, rfl⟩
  | cons first sent ih =>
    obtain ⟨⟨text, noZero, -, rfl⟩, last, conversation⟩ := conversation
    cases datagrams with
    | nil => cases all
    | cons datagram datagrams =>
      obtain ⟨bytes, all⟩ := List.cons.inj all
      obtain ⟨rest, round⟩ := @clientRound_of_text buffer text datagram bytes
      by_cases ended : text = endMessage
      · obtain rfl := last (decide_eq_true ended)
        refine ⟨⟨[(text, text.length)], true⟩, ?_, rfl, by simp [Sent.ofText, ended]⟩
        simp [runClientImpl, round, ended, ClientRound.message, cString_append (ended ▸ noZero)]
      · obtain ⟨run, later, printed, stopped⟩ := @ih (text ++ 0 :: rest) datagrams conversation all
        refine ⟨{ run with printed := (text, text.length) :: run.printed }, ?_, ?_, ?_⟩
        · simp [runClientImpl, round, ended, later, ClientRound.message, cString_append noZero]
        · rw [List.map_cons, List.map_cons, printed]
          rfl
        · simp [Sent.ofText, ended, stopped]

/-- For the lines of the server, each with the success of its `sendto`, and the datagrams of a client,
    those of others among them. -/
structure SafeRoundTrip (lines : List (Line × Bool)) (received : List Datagram) : Prop where
  /-- The server uses no index outside of its buffer. -/
  server : (runServerImpl zeroBuffer lines).isSome = true
  /-- Nor does the client. -/
  client : (runClientImpl zeroBuffer received).isSome = true
  /-- Whatever a client has in its buffer, it prints the string that was sent. -/
  prints : ∀ run, runServerImpl zeroBuffer lines = some run → ∀ sent ∈ run.sent,
    sent.datagram.length ≤ messageBufferSize ∧ ∀ buffer datagram, datagram.bytes = sent.datagram →
      ∃ round, clientRound buffer datagram = some round ∧ round.message = sent.string
  /-- A client that receives all of the server's datagrams stops on the message on which the server
      stopped. -/
  stops : ∀ run datagrams, runServerImpl zeroBuffer lines = some run →
    datagrams.map Datagram.bytes = run.sent.map Sent.datagram →
      ∃ clientRun, runClientImpl zeroBuffer datagrams = some clientRun ∧
        clientRun.printed.map Prod.fst = run.sent.map Sent.string ∧
        clientRun.receivedEndMessage = run.sent.any Sent.isEnd

theorem Conversation.sent {sent : List Sent} (conversation : Conversation sent) {one : Sent} (member : one ∈ sent) :
    ∃ text, 0 ∉ text ∧ text.length < messageBufferSize ∧ one = .ofText text := by
  induction sent with
  | nil => cases member
  | cons first sent ih =>
    rcases List.mem_cons.mp member with rfl | later
    · exact conversation.1
    · exact ih conversation.2.2 later

end ArchCompSystems.OsHw11
