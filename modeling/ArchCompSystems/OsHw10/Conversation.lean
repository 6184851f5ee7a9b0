import ArchCompSystems.OsHw11.Broadcast
import Mathlib.Data.List.Infix

namespace ArchCompSystems.OsHw10

open OsHw11

/-- What the first client has sent, and its `received_end_message` when it stops: it returns
    `EXIT_SUCCESS` if that is true. -/
structure FirstClientRun where
  sent : List (List UInt8)
  receivedEndMessage : Bool

/-- Behind the last line `fgets` returns `NULL`; each `send` sends the whole message. -/
def runFirstClient (buffer : List UInt8) : List Line → FirstClientRun
  | [] => { sent := [], receivedEndMessage := false }
  | line :: lines =>
    let buffer := fgets buffer line
    let inputLength := (cString buffer).length
    if inputLength = 0 then runFirstClient buffer lines
    else
      let (buffer, inputLength) :=
        if buffer[inputLength - 1]? = some newline then (buffer.set (inputLength - 1) 0, inputLength - 1)
        else (buffer, inputLength)
      let message := buffer.take (inputLength + 1)
      if isEndMessage buffer inputLength then { sent := [message], receivedEndMessage := true }
      else
        let run := runFirstClient buffer lines
        { run with sent := message :: run.sent }

/-- The start of the buffer behind `recv`. -/
def recv (buffer received : List UInt8) : List UInt8 := received ++ buffer.drop received.length

structure ServerRun where
  forwarded : List (List UInt8)
  receivedEndMessage : Bool

/-- Behind what `recv` returns from call to call it returns nothing more; each `send` sends the whole
    message. -/
def runServer (buffer : List UInt8) : List (List UInt8) → ServerRun
  | [] => { forwarded := [], receivedEndMessage := false }
  | received :: later =>
    let buffer := recv buffer received
    let message := buffer.take received.length
    if isEndMessage buffer received.length then { forwarded := [message], receivedEndMessage := true }
    else
      let run := runServer buffer later
      { run with forwarded := message :: run.forwarded }

/-- The messages that the second client has printed, with their lengths. -/
structure SecondClientRun where
  printed : List (List UInt8 × Nat)
  receivedEndMessage : Bool

def runSecondClient (buffer : List UInt8) : List (List UInt8) → SecondClientRun
  | [] => { printed := [], receivedEndMessage := false }
  | received :: later =>
    let buffer := recv buffer received
    let messageStringLength := received.length - 1
    let message := (cString buffer, messageStringLength)
    if isEndMessage buffer messageStringLength then { printed := [message], receivedEndMessage := true }
    else
      let run := runSecondClient buffer later
      { run with printed := message :: run.printed }

def sentTexts : List Line → List (List UInt8)
  | [] => []
  | line :: lines =>
    if line.bytes.head? = some 0 then sentTexts lines
    else if line.text = endMessage then [endMessage]
    else line.text :: sentTexts lines

def framed (text : List UInt8) : List UInt8 := text ++ [0]

theorem text_of_hidden {line : Line} (hidden : line.bytes.head? = some 0) : line.text = [] := by
  unfold Line.text
  rw [cString_eq_nil_iff.mpr hidden]
  rfl

theorem runFirstClient_eq (buffer : List UInt8) (lines : List Line) : runFirstClient buffer lines = {
    sent := (sentTexts lines).map framed
    receivedEndMessage := lines.any fun line => line.text = endMessage } := by
  induction lines generalizing buffer with
  | nil => rfl
  | cons line lines ih =>
    rw [runFirstClient, sentTexts]
    simp only [cString_fgets, List.length_eq_zero_iff, cString_eq_nil_iff]
    by_cases hidden : line.bytes.head? = some 0
    · have other : ¬ line.text = endMessage := by
        rw [text_of_hidden hidden]
        decide
      simp only [if_pos hidden, ih, List.any_cons, decide_eq_false other, Bool.false_or]
    · obtain ⟨rest, trimmed⟩ := @trim_of_text buffer line hidden
      have message : (line.text ++ 0 :: rest).take (line.text.length + 1) = framed line.text := by
        rw [List.take_append, List.take_of_length_le (Nat.le_succ _), Nat.add_sub_cancel_left]
        rfl
      rw [if_neg hidden, if_neg hidden, trimmed]
      simp only [isEndMessage_append, message, ih, List.any_cons]
      by_cases ended : line.text = endMessage <;> simp [ended]

theorem isEndMessage_recv (buffer received : List UInt8) :
    isEndMessage (recv buffer received) received.length = decide (received = endMessage) := isEndMessage_append _ _

theorem take_recv (buffer received : List UInt8) : (recv buffer received).take received.length = received :=
  List.take_left

theorem framed_ne_endMessage {text : List UInt8} : framed text ≠ endMessage := by
  intro same
  have last := congrArg List.getLast? same
  rw [framed, List.getLast?_concat] at last
  revert last
  decide

theorem runServer_framed (buffer : List UInt8) (texts : List (List UInt8)) :
    runServer buffer (texts.map framed) = { forwarded := texts.map framed, receivedEndMessage := false } := by
  induction texts generalizing buffer with
  | nil => rfl
  | cons text texts ih =>
    simp only [List.map_cons, runServer, take_recv, isEndMessage_recv, decide_eq_false framed_ne_endMessage, ih]
    rfl

theorem length_framed (text : List UInt8) : (framed text).length - 1 = text.length := by
  rw [framed, List.length_append, List.length_singleton, Nat.add_sub_cancel]

theorem recv_framed (buffer text : List UInt8) : ∃ rest, recv buffer (framed text) = text ++ 0 :: rest :=
  ⟨buffer.drop (framed text).length, List.append_assoc ..⟩

theorem runSecondClient_sentTexts (buffer : List UInt8) (lines : List Line) :
    runSecondClient buffer ((sentTexts lines).map framed) = {
      printed := (sentTexts lines).map fun text => (text, text.length)
      receivedEndMessage := lines.any fun line => line.text = endMessage } := by
  induction lines generalizing buffer with
  | nil => rfl
  | cons line lines ih =>
    unfold sentTexts
    split_ifs with hidden ended
    · have other : ¬ line.text = endMessage := by
        rw [text_of_hidden hidden]
        decide
      simp only [ih, List.any_cons, decide_eq_false other, Bool.false_or]
    · obtain ⟨rest, received⟩ := recv_framed buffer endMessage
      simp only [List.map_cons, List.map_nil, runSecondClient, received, length_framed,
        cString_append (show 0 ∉ endMessage by decide), isEndMessage_append, List.any_cons, decide_eq_true ended,
        decide_true, if_true, Bool.true_or]
    · obtain ⟨rest, received⟩ := recv_framed buffer line.text
      simp only [List.map_cons, runSecondClient, received, length_framed, cString_append (zero_notMem_text line),
        isEndMessage_append, decide_eq_false ended, ih, List.any_cons, Bool.false_or]
      rfl

def firstClientRun (lines : List Line) : FirstClientRun := runFirstClient zeroBuffer lines

/-- Each message that is sent arrives whole in one `recv`. -/
def serverRun (lines : List Line) : ServerRun := runServer zeroBuffer (firstClientRun lines).sent

def secondClientRun (lines : List Line) : SecondClientRun := runSecondClient zeroBuffer (serverRun lines).forwarded

/-- The three programs leave their loops at the same message, the first line equal to the end message if
    there is one, and the server and the second client succeed exactly then. -/
structure AgreeOnEnd (lines : List Line) : Prop where
  server : (serverRun lines).forwarded.length = (firstClientRun lines).sent.length
  secondClient : (secondClientRun lines).printed.length = (firstClientRun lines).sent.length
  firstClient : ∀ before line after, lines = before ++ line :: after → line.text = endMessage →
    (∀ other ∈ before, other.text ≠ endMessage) →
      (firstClientRun lines).sent = (firstClientRun before).sent ++ [framed endMessage]
  serverSucceeds : (serverRun lines).receivedEndMessage = true ↔ ∃ line ∈ lines, line.text = endMessage
  secondClientSucceeds : (secondClientRun lines).receivedEndMessage = true ↔ ∃ line ∈ lines, line.text = endMessage

theorem serverRun_eq (lines : List Line) : serverRun lines = {
    forwarded := (sentTexts lines).map framed
    receivedEndMessage := false } := by
  rw [serverRun, firstClientRun, runFirstClient_eq, runServer_framed]

/-- The server compares the length with the zero byte against the length without it, so that the three
    programs agree exactly if no line is the end message. -/
theorem agreeOnEnd_iff (lines : List Line) : AgreeOnEnd lines ↔ ∀ line ∈ lines, line.text ≠ endMessage := by
  constructor
  · intro agree line member ended
    have succeeds := agree.serverSucceeds.mpr ⟨line, member, ended⟩
    rw [serverRun_eq] at succeeds
    cases succeeds
  · intro none
    have never : ¬ ∃ line ∈ lines, line.text = endMessage := fun ⟨line, member, ended⟩ => none line member ended
    refine ⟨?_, ?_, ?_, ?_, ?_⟩
    · rw [serverRun_eq, firstClientRun, runFirstClient_eq]
    · rw [secondClientRun, serverRun_eq, firstClientRun, runFirstClient_eq, runSecondClient_sentTexts]
      simp only [List.length_map]
    · rintro before line after rfl ended
      exact absurd ended (none line (List.mem_append_right _ (List.mem_cons_self ..)))
    · rw [serverRun_eq]
      exact iff_of_false nofun never
    · rw [secondClientRun, serverRun_eq, runSecondClient_sentTexts, List.any_eq_true]
      simp only [decide_eq_true_eq]

/-- A first client that sends just the end message. -/
theorem end_message_missed : ¬ ∀ lines, AgreeOnEnd lines := by
  intro agree
  have succeeds := (agree [⟨endMessage, by decide, by decide, by decide⟩]).serverSucceeds.mpr
    ⟨_, List.mem_cons_self .., by decide⟩
  rw [serverRun_eq] at succeeds
  cases succeeds

/-- What the `recv` calls return of a stream, from call to call. -/
structure Segmentation (stream : List UInt8) where
  pieces : List (List UInt8)
  flatten_eq : pieces.flatten = stream
  nonempty : ∀ piece ∈ pieces, piece ≠ []
  short : ∀ piece ∈ pieces, piece.length ≤ messageBufferSize

/-- The second client prints the lines that were sent, each with its length. -/
def PrintsLines (lines : List Line) (atServer : Segmentation (firstClientRun lines).sent.flatten)
    (atSecondClient : Segmentation (runServer zeroBuffer atServer.pieces).forwarded.flatten) : Prop :=
  (runSecondClient zeroBuffer atSecondClient.pieces).printed = (sentTexts lines).map fun text => (text, text.length)

theorem forwarded_isPrefix (buffer : List UInt8) (pieces : List (List UInt8)) : (runServer buffer pieces).forwarded <+: pieces := by
  induction pieces generalizing buffer with
  | nil => exact List.nil_prefix
  | cons received later ih =>
    unfold runServer
    simp only [take_recv]
    split
    · exact ⟨later, rfl⟩
    · exact List.cons_prefix_cons.mpr ⟨rfl, ih _⟩

theorem printed_lengths (buffer : List UInt8) (pieces : List (List UInt8)) :
    (runSecondClient buffer pieces).printed.map Prod.snd <+: pieces.map fun piece => piece.length - 1 := by
  induction pieces generalizing buffer with
  | nil => exact List.nil_prefix
  | cons received later ih =>
    unfold runSecondClient
    simp only
    split
    · exact ⟨later.map fun piece => piece.length - 1, rfl⟩
    · exact List.cons_prefix_cons.mpr ⟨rfl, ih _⟩

theorem eq_of_lengths {messages first rest : List (List UInt8)} (nonempty : ∀ piece ∈ rest, piece ≠ [])
    (lengths : first.map List.length = messages.map List.length)
    (within : (first ++ rest).flatten <+: messages.flatten) : first ++ rest = messages := by
  have total : first.flatten.length = messages.flatten.length := by
    rw [List.length_flatten, List.length_flatten, lengths]
  have bound := within.length_le
  rw [List.flatten_append, List.length_append] at bound
  have nothing : rest.flatten = [] := List.length_eq_zero_iff.mp (by omega)
  obtain rfl : rest = [] := by
    cases rest with
    | nil => rfl
    | cons piece rest =>
      rw [List.flatten_cons, List.append_eq_nil_iff] at nothing
      exact absurd nothing.1 (nonempty piece (List.mem_cons_self ..))
  rw [List.append_nil] at within ⊢
  exact List.eq_iff_flatten_eq.mpr ⟨within.eq_of_length total, lengths⟩

/-- The lines are printed one by one exactly if each `recv` of the second client returns one message. -/
theorem printsLines_iff (lines : List Line) (atServer : Segmentation (firstClientRun lines).sent.flatten)
    (atSecondClient : Segmentation (runServer zeroBuffer atServer.pieces).forwarded.flatten) :
    PrintsLines lines atServer atSecondClient ↔ atSecondClient.pieces = (firstClientRun lines).sent := by
  have messages : (firstClientRun lines).sent = (sentTexts lines).map framed := by
    rw [firstClientRun, runFirstClient_eq]
  constructor
  · intro prints
    have lengths := printed_lengths zeroBuffer atSecondClient.pieces
    rw [prints, List.map_map] at lengths
    obtain ⟨later, split⟩ := lengths
    obtain ⟨first, rest, same, firstLengths, -⟩ := List.map_eq_append_iff.mp split.symm
    have nonempty := atSecondClient.nonempty
    rw [same] at nonempty
    have wholeLengths : first.map List.length = (firstClientRun lines).sent.map List.length := by
      have counted : first.map List.length = (first.map fun piece => piece.length - 1).map Nat.succ := by
        rw [List.map_map]
        refine List.map_congr_left fun piece member => ?_
        exact (Nat.succ_pred (List.length_pos_iff.mpr (nonempty piece (List.mem_append_left _ member))).ne').symm
      rw [counted, firstLengths, messages, List.map_map, List.map_map]
      refine List.map_congr_left fun text _ => ?_
      simp [framed]
    have forwarded := List.IsPrefix.flatten (forwarded_isPrefix zeroBuffer atServer.pieces)
    rw [← atSecondClient.flatten_eq, atServer.flatten_eq, same] at forwarded
    rw [same]
    exact eq_of_lengths (fun piece member => nonempty piece (List.mem_append_right _ member)) wholeLengths forwarded
  · intro same
    rw [PrintsLines, same, messages, runSecondClient_sentTexts]

def lineA : Line := ⟨[97, 10], by decide, by decide, by decide⟩

def lineB : Line := ⟨[98, 10], by decide, by decide, by decide⟩

/-- The lines `a` and `b`, which come to the second client in one piece: it prints `a` only. -/
theorem merged_lines_lost : ¬ ∀ lines (atServer : Segmentation (firstClientRun lines).sent.flatten)
    (atSecondClient : Segmentation (runServer zeroBuffer atServer.pieces).forwarded.flatten),
    PrintsLines lines atServer atSecondClient := by
  intro prints
  let atServer : Segmentation (firstClientRun [lineA, lineB]).sent.flatten :=
    ⟨[[97, 0], [98, 0]], by decide, by decide, by decide⟩
  let atSecondClient : Segmentation (runServer zeroBuffer atServer.pieces).forwarded.flatten :=
    ⟨[[97, 0, 98, 0]], by decide, by decide, by decide⟩
  have printed := congrArg List.length (prints [lineA, lineB] atServer atSecondClient)
  revert printed
  decide

end ArchCompSystems.OsHw10
