import ArchCompSystems.OsIhw1.ChunkedReversal

namespace ArchCompSystems.OsIhw1

inductive Leaving where
  | streamEnded
  | endOfCommunication
  deriving DecidableEq

/-- The messages that the text processor sent on, how many it received before it left its loop (the
    one it left at included), and why it left. -/
structure Forwarding where
  forwarded : List (List UInt8)
  received : Nat
  leaving : Leaving
  deriving DecidableEq

/-- The loop of `run_impl` on the messages that come until the stream ends; `stale i` is what
    `read_buffer` holds before message `i`. `none` stands for an access outside of it. -/
def forwardFrom (startN endN : Nat) (stale : Nat → Chars) : Nat → Nat → List (List UInt8) →
    Option Forwarding
  | i, _, [] => some ⟨[], i, .streamEnded⟩
  | i, currentIndex, message :: messages =>
    let readBuffer := readInto (stale i) message
    let stringLength := message.length
    if stringLength = 0 then some ⟨[], i, .streamEnded⟩
    else if readBuffer stringLength = endOfCommunicationChar then some ⟨[], i + 1, .endOfCommunication⟩
    else do
      let processed ← processChunk startN endN currentIndex readBuffer stringLength
      let later ← forwardFrom startN endN stale (i + 1) (currentIndex + stringLength) messages
      return { later with forwarded := written processed stringLength :: later.forwarded }

/-- The message that `notify_end_of_communication` sends. -/
def endMessage : List UInt8 := [endOfCommunicationChar]

/-- What `io_handler` sends: the chunks of the input file and, unless it ends before, the marker. -/
def messages (chunks : List (List UInt8)) (notified : Bool) : List (List UInt8) :=
  chunks ++ if notified then [endMessage] else []

def processedFrom (startN endN : Nat) (stale : Nat → Chars) : Nat → Nat → List (List UInt8) →
    Option (List (List UInt8))
  | _, _, [] => some []
  | i, currentIndex, chunk :: chunks => do
    let processed ← processChunk startN endN currentIndex (readInto (stale i) chunk) chunk.length
    let later ← processedFrom startN endN stale (i + 1) (currentIndex + chunk.length) chunks
    return written processed chunk.length :: later

section

variable (startN endN : Nat) (stale : Nat → Chars)

/-- From message `i` on, the loop is left at the marker, or where the stream ends without one, and
    what is sent on are the data chunks. -/
structure EndsExactlyFrom (i currentIndex : Nat) (chunks : List (List UInt8)) (notified : Bool)
    (forwarding : Forwarding) : Prop where
  runs : forwardFrom startN endN stale i currentIndex (messages chunks notified) = some forwarding
  leaving : forwarding.leaving = if notified then .endOfCommunication else .streamEnded
  received : forwarding.received = i + chunks.length + notified.toNat
  forwarded : processedFrom startN endN stale i currentIndex chunks = some forwarding.forwarded

def EndsExactly (chunks : List (List UInt8)) (notified : Bool) : Prop :=
  ∃ forwarding, EndsExactlyFrom startN endN stale 0 0 chunks notified forwarding

end

/-- The chunk in which the substring starts is not reversed beyond the buffer: `r` of `run_impl` is an
    index of the text, not of the chunk. -/
def StaysInside (startN endN : Nat) : Nat → List Nat → Prop
  | _, [] => True
  | currentIndex, length :: lengths =>
    (currentIndex ≤ startN → startN < currentIndex + length →
      startN - currentIndex < min endN (currentIndex + length - 1) →
        min endN (currentIndex + length - 1) < transferBufferSize) ∧
      StaysInside startN endN (currentIndex + length) lengths

section

variable {startN endN i currentIndex : Nat} {stale : Nat → Chars} {chunk : List UInt8}
  {chunks : List (List UInt8)}

theorem swapLoop_isSome_iff {size l r : Nat} {ustring : Chars} :
    (∃ swapped, swapLoop size ustring l r = some swapped) ↔ (l < r → r < size) := by
  constructor
  · rintro ⟨swapped, runs⟩ less
    by_contra outside
    rw [swapLoop_outside (by omega) less] at runs
    cases runs
  · intro inside
    rcases Nat.lt_or_ge l r with less | done
    · exact ⟨_, swapLoop_eq (inside less) ustring⟩
    · exact ⟨ustring, by rw [swapLoop, if_neg (by omega)]⟩

theorem processChunk_isSome_iff (ordered : startN ≤ endN) {stringLength : Nat}
    (size : 0 < stringLength ∧ stringLength < transferBufferSize) {readBuffer : Chars} :
    (∃ processed, processChunk startN endN currentIndex readBuffer stringLength = some processed) ↔
      (currentIndex ≤ startN → startN < currentIndex + stringLength →
        startN - currentIndex < min endN (currentIndex + stringLength - 1) →
          min endN (currentIndex + stringLength - 1) < transferBufferSize) := by
  unfold processChunk
  split_ifs with start last
  · rw [reverseSubstring, if_pos (by omega), swapLoop_isSome_iff]
    exact ⟨fun inside _ _ => inside, fun inside => inside start.1 start.2⟩
  · rw [reverseSubstring, if_pos (by omega), swapLoop_isSome_iff]
    exact ⟨fun _ lower upper => absurd ⟨lower, upper⟩ start, fun _ _ => by omega⟩
  · exact ⟨fun _ lower upper => absurd ⟨lower, upper⟩ start, fun _ => ⟨readBuffer, rfl⟩⟩

theorem forwardFrom_stops (nonempty : chunk.length ≠ 0)
    (stops : stale i chunk.length = endOfCommunicationChar) :
    forwardFrom startN endN stale i currentIndex (chunk :: chunks) =
      some ⟨[], i + 1, .endOfCommunication⟩ := by
  rw [forwardFrom, if_neg nonempty, readInto_length, if_pos stops]

theorem forwardFrom_goesOn (nonempty : chunk.length ≠ 0)
    (going : stale i chunk.length ≠ endOfCommunicationChar) :
    forwardFrom startN endN stale i currentIndex (chunk :: chunks) =
      (processChunk startN endN currentIndex (readInto (stale i) chunk) chunk.length).bind fun processed =>
        (forwardFrom startN endN stale (i + 1) (currentIndex + chunk.length) chunks).map fun later =>
          { later with forwarded := written processed chunk.length :: later.forwarded } := by
  rw [forwardFrom, if_neg nonempty, readInto_length, if_neg going]
  cases processChunk startN endN currentIndex (readInto (stale i) chunk) chunk.length with
  | none => rfl
  | some processed =>
    cases forwardFrom startN endN stale (i + 1) (currentIndex + chunk.length) chunks <;> rfl

theorem processedFrom_cons :
    processedFrom startN endN stale i currentIndex (chunk :: chunks) =
      (processChunk startN endN currentIndex (readInto (stale i) chunk) chunk.length).bind fun processed =>
        (processedFrom startN endN stale (i + 1) (currentIndex + chunk.length) chunks).map
          (written processed chunk.length :: ·) := by
  rw [processedFrom]
  cases processChunk startN endN currentIndex (readInto (stale i) chunk) chunk.length with
  | none => rfl
  | some processed =>
    cases processedFrom startN endN stale (i + 1) (currentIndex + chunk.length) chunks <;> rfl

theorem endsExactlyFrom_nil_iff {notified : Bool} :
    (∃ forwarding, EndsExactlyFrom startN endN stale i currentIndex [] notified forwarding) ↔
      (notified = true → stale i 1 = endOfCommunicationChar) := by
  have nonempty : endMessage.length ≠ 0 := by decide
  cases notified with
  | false => exact ⟨fun _ absent => absurd absent (by decide), fun _ => ⟨⟨[], i, .streamEnded⟩, rfl, rfl, rfl, rfl⟩⟩
  | true =>
    constructor
    · rintro ⟨forwarding, ends⟩ _
      by_contra going
      have runs := ends.runs
      rw [messages, List.nil_append, if_pos rfl, forwardFrom_goesOn nonempty going] at runs
      obtain ⟨processed, -, rest⟩ := Option.bind_eq_some_iff.mp runs
      obtain ⟨later, ⟨⟩, rfl⟩ := Option.map_eq_some_iff.mp rest
      cases ends.leaving
    · intro marked
      exact ⟨⟨[], i + 1, .endOfCommunication⟩, forwardFrom_stops nonempty (marked rfl), rfl, rfl, rfl⟩

theorem endsExactlyFrom_cons_iff {notified : Bool} (nonempty : chunk.length ≠ 0) :
    (∃ forwarding, EndsExactlyFrom startN endN stale i currentIndex (chunk :: chunks) notified forwarding) ↔
      stale i chunk.length ≠ endOfCommunicationChar ∧
      (∃ processed, processChunk startN endN currentIndex (readInto (stale i) chunk) chunk.length =
        some processed) ∧
      ∃ forwarding, EndsExactlyFrom startN endN stale (i + 1) (currentIndex + chunk.length) chunks notified
        forwarding := by
  constructor
  · rintro ⟨forwarding, ends⟩
    have forwarded := ends.forwarded
    rw [processedFrom_cons] at forwarded
    obtain ⟨processed, inside, rest⟩ := Option.bind_eq_some_iff.mp forwarded
    obtain ⟨later, chunks_processed, all⟩ := Option.map_eq_some_iff.mp rest
    have runs := ends.runs
    rw [messages, List.cons_append] at runs
    have going : stale i chunk.length ≠ endOfCommunicationChar := by
      intro stops
      rw [forwardFrom_stops nonempty stops] at runs
      obtain ⟨⟩ := runs
      cases all
    rw [forwardFrom_goesOn nonempty going, inside, Option.bind_some] at runs
    obtain ⟨after, rest_runs, rfl⟩ := Option.map_eq_some_iff.mp runs
    refine ⟨going, ⟨processed, inside⟩, after, rest_runs, ends.leaving, ?_, ?_⟩
    · have received := ends.received
      rw [List.length_cons] at received
      exact received.trans (by omega)
    · rw [chunks_processed, (List.cons.inj all).2]
  · rintro ⟨going, ⟨processed, inside⟩, after, ends⟩
    refine ⟨{ after with forwarded := written processed chunk.length :: after.forwarded }, ?_, ends.leaving, ?_, ?_⟩
    · rw [messages, List.cons_append, forwardFrom_goesOn nonempty going, inside, Option.bind_some]
      exact congrArg (Option.map _) ends.runs
    · rw [List.length_cons]
      exact ends.received.trans (by omega)
    · rw [processedFrom_cons, inside, Option.bind_some, ends.forwarded]
      rfl

theorem endsExactlyFrom_iff (ordered : startN ≤ endN) {notified : Bool}
    (sizes : ∀ chunk ∈ chunks, 0 < chunk.length ∧ chunk.length < transferBufferSize) :
    (∃ forwarding, EndsExactlyFrom startN endN stale i currentIndex chunks notified forwarding) ↔
      GoesOn stale i (chunks.map List.length) ∧ StaysInside startN endN currentIndex (chunks.map List.length) ∧
        (notified = true → stale (i + chunks.length) 1 = endOfCommunicationChar) := by
  induction chunks generalizing i currentIndex with
  | nil =>
    rw [endsExactlyFrom_nil_iff]
    exact ⟨fun marked => ⟨True.intro, True.intro, marked⟩, fun holds => holds.2.2⟩
  | cons chunk chunks ih =>
    have size := sizes chunk (List.mem_cons_self ..)
    rw [endsExactlyFrom_cons_iff (by omega), processChunk_isSome_iff ordered size,
      ih fun later member => sizes later (List.mem_cons_of_mem _ member)]
    simp only [List.map_cons, GoesOn, StaysInside, List.length_cons]
    rw [show i + 1 + chunks.length = i + (chunks.length + 1) by omega]
    constructor
    · rintro ⟨going, inside, later_going, later_inside, marked⟩
      exact ⟨⟨going, later_going⟩, ⟨inside, later_inside⟩, marked⟩
    · rintro ⟨⟨going, later_going⟩, ⟨inside, later_inside⟩, marked⟩
      exact ⟨going, inside, later_going, later_inside, marked⟩

end

/-- The protocol ends exactly when the bytes behind the data chunks are not the marker's, the byte
    behind the marker is, and no reversal leaves the buffer. -/
theorem endsExactly_iff {startN endN : Nat} (ordered : startN ≤ endN) {stale : Nat → Chars}
    {chunks : List (List UInt8)} {notified : Bool}
    (sizes : ∀ chunk ∈ chunks, 0 < chunk.length ∧ chunk.length < transferBufferSize) :
    EndsExactly startN endN stale chunks notified ↔
      GoesOn stale 0 (chunks.map List.length) ∧ StaysInside startN endN 0 (chunks.map List.length) ∧
        (notified = true → stale chunks.length 1 = endOfCommunicationChar) := by
  rw [EndsExactly, endsExactlyFrom_iff ordered sizes, Nat.zero_add]

/-- The letter a, with the marker's byte behind both messages only where it has to be. -/
theorem one_chunk_endsExactly :
    EndsExactly 0 0 (fun i _ => if i = 1 then endOfCommunicationChar else 0) [[97]] true :=
  (endsExactly_iff (Nat.le_refl 0) (by decide)).mpr ⟨⟨by decide, True.intro⟩, ⟨by decide, True.intro⟩, fun _ => rfl⟩

/-- With zeros behind what is received the marker is sent on as data. -/
theorem marker_sent_on : ¬ ∀ startN endN stale (chunks : List (List UInt8)) notified, startN ≤ endN →
    (∀ chunk ∈ chunks, 0 < chunk.length ∧ chunk.length < transferBufferSize) →
    EndsExactly startN endN stale chunks notified := by
  intro all
  obtain ⟨forwarding, ends⟩ := all 0 0 (fun _ _ => 0) [[97]] true (Nat.le_refl 0) (by decide)
  have runs : forwardFrom 0 0 (fun _ _ => 0) 0 0 (messages [[97]] true) =
      some ⟨[[97], endMessage], 2, .streamEnded⟩ := by decide +kernel
  obtain rfl := Option.some.inj (runs.symm.trans ends.runs)
  cases ends.leaving

end ArchCompSystems.OsIhw1
