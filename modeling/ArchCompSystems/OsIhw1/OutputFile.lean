import ArchCompSystems.OsIhw1.Transfer

namespace ArchCompSystems.OsIhw1

open Library Library.Program Machine

inductive Version where
  | mark4
  | handler (version : IoHandler.Version)
  deriving DecidableEq

/-- The process that writes the output file; `true` is the report of success. -/
def writingSide (rounds : Nat) : Version → TransferProgram Bool
  | .mark4 => Mark4.createFileWriter
  | .handler version => IoHandler.run version rounds

/-- Before its start: the chunks that the reads of the input file will return, the pieces in which the
    transformed text arrives, and what is in the output file, if there is one. -/
def beforeWriting (chunks pieces : List (List UInt8)) (old : Option (List UInt8)) : Transfer where
  arriving := Function.update (Function.update (fun _ => []) .inputFile chunks)
    (.processorToWriter .reading) pieces
  sent := []
  output := old.map fun content => ⟨content, 0⟩
  writes := 0
  failures := []

/-- The pieces that can arrive. In mark4 a text that fits into the buffer, cut in some way. In the
    others one for each chunk, empty when the other side is gone. -/
def Version.Delivers : Version → List Nat → Prop
  | .mark4, lengths => lengths ≠ [] ∧ (∀ length ∈ lengths, 0 < length) ∧ lengths.sum ≤ bufferSize - 1
  | .handler _, lengths => ∀ length ∈ lengths, length ≤ transferBufferSize - 1

def Version.Reads (version : Version) (chunks : List (List UInt8)) (count : Nat) : Prop :=
  version ≠ .mark4 → chunks.length = count ∧
    ∀ chunk ∈ chunks, 0 < chunk.length ∧ chunk.length ≤ transferBufferSize - 1

/-- A run that reports success leaves the pieces in the output file, and nothing else. -/
def HoldsResult (version : Version) (portions : Portions) (pieces : List (List UInt8))
    (old : Option (List UInt8)) : Prop :=
  ∀ chunks, version.Reads chunks pieces.length → ∀ rounds history transfer,
    (transferring portions).Runs () (writingSide rounds version) (beforeWriting chunks pieces old) history
      true transfer → transfer.output.map OpenFile.content = some pieces.flatten

/-- The pieces that a writing side reads. -/
def Version.received : Version → List (List UInt8) → List (List UInt8)
  | .mark4, pieces => pieces.take 1
  | .handler _, pieces => pieces

def Transfer.Got (old : Option (List UInt8)) (text : List UInt8) (transfer : Transfer) : Prop :=
  ∃ file, transfer.output = some file ∧ file.Written old text

section

variable {portions : Portions} {transfer : Transfer} {old : Option (List UInt8)} {text : List UInt8}
  {chunks pieces : List (List UInt8)}

theorem Transfer.Got.written {file : OpenFile UInt8} (written : file.Written old text) (bytes : List UInt8) :
    (transfer.written portions file bytes).Got old (text ++ bytes.take (portions.most transfer.writes)) :=
  ⟨_, rfl, written.write _⟩

theorem wp_readPiece {d : Descriptor} {size : Nat} {piece : List UInt8} {rest : List (List UInt8)}
    {post : List (Event Call.Answer) → Option (List UInt8) → Transfer → Prop}
    (arriving : transfer.arriving d = piece :: rest) (small : piece.length ≤ size)
    (fails : ∀ history, post history none transfer)
    (reads : ∀ history, post history (some piece)
      { transfer with arriving := Function.update transfer.arriving d rest }) :
    (transferring portions).wp () (Call.make (.read d size)) post transfer := by
  rintro (_ | bytes) after performed
  · obtain ⟨⟩ := performed
    exact fails _
  · have same : transfer.read d size bytes = some after := performed
    simp only [Transfer.read, arriving, List.take_of_length_le small, if_pos small] at same
    obtain ⟨rfl, read⟩ := Option.ite_none_right_eq_some.mp same
    obtain ⟨⟩ := read
    exact reads _

theorem wp_readEnd {size : Nat} {post : List (Event Call.Answer) → Option (List UInt8) → Transfer → Prop}
    (arriving : transfer.arriving .inputFile = []) (fails : ∀ history, post history none transfer)
    (ends : ∀ history, post history (some []) transfer) :
    (transferring portions).wp () (Call.make (.read .inputFile size)) post transfer := by
  rintro (_ | bytes) after performed
  · obtain ⟨⟩ := performed
    exact fails _
  · have same : transfer.read .inputFile size bytes = some after := performed
    simp only [Transfer.read, arriving, true_and] at same
    obtain ⟨rfl, unchanged⟩ := Option.ite_none_right_eq_some.mp same
    obtain ⟨⟩ := unchanged
    exact ends _

theorem wp_send {d : Descriptor} {bytes : List UInt8}
    {post : List (Event Call.Answer) → Option Nat → Transfer → Prop} (other : d ≠ .outputFile)
    (fails : ∀ history, post history none transfer)
    (sends : ∀ history count, post history (some count) { transfer with sent := transfer.sent ++ [bytes] }) :
    (transferring portions).wp () (Call.make (.write d bytes)) post transfer := by
  rintro (_ | count) after performed
  · obtain ⟨⟩ := performed
    exact fails _
  · have same : transfer.write portions d bytes count = some after := performed
    rw [Transfer.write, if_neg other] at same
    obtain ⟨-, sent⟩ := Option.ite_none_right_eq_some.mp same
    obtain ⟨⟩ := sent
    exact sends _ _

theorem wp_writeOutput {file : OpenFile UInt8} {bytes : List UInt8}
    {post : List (Event Call.Answer) → Option Nat → Transfer → Prop} (opened : transfer.output = some file)
    (fails : ∀ history, post history none transfer)
    (writes : ∀ history count, post history (some count) (transfer.written portions file bytes)) :
    (transferring portions).wp () (Call.make (.write .outputFile bytes)) post transfer := by
  rintro (_ | count) after performed
  · obtain ⟨⟩ := performed
    exact fails _
  · have same : transfer.write portions .outputFile bytes count = some after := performed
    rw [perform_writeOutput opened] at same
    obtain ⟨-, written⟩ := Option.ite_none_right_eq_some.mp same
    obtain ⟨⟩ := written
    exact writes _ _

theorem wp_openOutput {post : List (Event Call.Answer) → Bool → Transfer → Prop}
    (fails : ∀ history, post history false transfer)
    (opens : ∀ history, post history true
      { transfer with output := some (.create (transfer.output.map OpenFile.content)) }) :
    (transferring portions).wp () (Call.make (.open .outputFile)) post transfer := by
  rintro (_ | _) _ ⟨⟩
  · exact fails _
  · exact opens _

theorem wp_open {d : Descriptor} {post : List (Event Call.Answer) → Bool → Transfer → Prop}
    (other : d ≠ .outputFile) (holds : ∀ history opened, post history opened transfer) :
    (transferring portions).wp () (Call.make (.open d)) post transfer := by
  intro opened after performed
  have same : some transfer = some after := (if_neg fun output => other output.1).symm.trans performed
  obtain ⟨⟩ := same
  exact holds _ opened

theorem wp_close {d : Descriptor} {post : List (Event Call.Answer) → Bool → Transfer → Prop}
    (holds : ∀ history closed, post history closed transfer) :
    (transferring portions).wp () (Call.make (.close d)) post transfer := by
  rintro closed _ ⟨⟩
  exact holds _ closed

theorem wp_closeAll {ds : List Descriptor} {post : List (Event Call.Answer) → Unit → Transfer → Prop}
    (holds : ∀ history, post history () transfer) :
    (transferring portions).wp () (closeAll ds) post transfer := by
  induction ds generalizing post with
  | nil => exact holds []
  | cons d ds ih =>
    rintro closed _ ⟨⟩
    exact ih fun history => holds _

end

theorem beforeWriting_arriving (chunks pieces : List (List UInt8)) (old : Option (List UInt8)) :
    (beforeWriting chunks pieces old).arriving .inputFile = chunks ∧
      (beforeWriting chunks pieces old).arriving (.processorToWriter .reading) = pieces := by
  constructor <;> simp [beforeWriting]

theorem beforeWriting_content (chunks pieces : List (List UInt8)) (old : Option (List UInt8)) :
    (beforeWriting chunks pieces old).output.map OpenFile.content = old := by
  rw [beforeWriting, Option.map_map]
  exact Option.map_id_apply

namespace Mark4

section

variable {portions : Portions} {transfer : Transfer} {old : Option (List UInt8)}
  {chunks : List (List UInt8)} {piece : List UInt8} {pieces : List (List UInt8)}

theorem wp_createFileWriterImpl {opened : Bool} {file : OpenFile UInt8}
    (output : opened = true → transfer.output = some file)
    (created : file.Written old [])
    (arriving : transfer.arriving (.processorToWriter .reading) = piece :: pieces)
    (small : piece.length ≤ bufferSize - 1) :
    (transferring portions).wp () (createFileWriterImpl opened) (fun _ result after => result.1 = true →
      after.Got old (piece.take (portions.most transfer.writes))) transfer := by
  refine wp_bind.mpr (wp_close fun _ closed => ?_)
  cases closed with
  | false => rintro _ _ _ ⟨⟩
  | true =>
    cases opened with
    | false => rintro _ _ _ ⟨⟩
    | true =>
      refine wp_bind.mpr (wp_readPiece arriving small (fun _ => ?_) fun _ => ?_)
      · rintro _ _ _ ⟨⟩
      refine wp_bind.mpr (wp_writeOutput (output rfl) (fun _ => ?_) fun _ _ => ?_)
      · rintro _ _ _ ⟨⟩
      refine wp_bind.mpr (wp_close fun _ closed => ?_)
      cases closed with
      | false => rintro _ _ _ ⟨⟩
      | true =>
        refine wp_bind.mpr (wp_close fun _ closed => ?_)
        cases closed with
        | false => rintro _ _ _ ⟨⟩
        | true => exact fun _ => Transfer.Got.written created piece

theorem wp_createFileWriter (small : piece.length ≤ bufferSize - 1) :
    (transferring portions).wp () createFileWriter (fun _ result after => result = true →
      after.Got old (piece.take (portions.most 0))) (beforeWriting chunks (piece :: pieces) old) := by
  have arriving := (beforeWriting_arriving chunks (piece :: pieces) old).2
  have finish : ∀ {result : Bool × List Descriptor} {after : Transfer},
      (result.1 = true → after.Got old (piece.take (portions.most 0))) →
      (transferring portions).wp () (closeAll result.2 >>= fun _ => pure result.1)
        (fun _ result after => result = true → after.Got old (piece.take (portions.most 0))) after :=
    fun got => wp_bind.mpr (wp_closeAll fun _ => got)
  refine wp_bind.mpr (wp_openOutput (fun _ => ?_) fun _ => ?_)
  · apply wp_bind.mpr
    apply wp_mono _ (@wp_createFileWriterImpl portions _ old piece pieces false (.create old) (by rintro ⟨⟩)
      (OpenFile.written_create old) arriving small)
    exact fun _ _ _ => finish
  · apply wp_bind.mpr
    rw [beforeWriting_content]
    apply wp_mono _ (@wp_createFileWriterImpl portions
      { beforeWriting chunks (piece :: pieces) old with output := some (.create old) } old piece pieces true
      (.create old) (fun _ => rfl) (OpenFile.written_create old) arriving small)
    exact fun _ _ _ => finish

theorem surely_createFileWriter (small : piece.length ≤ bufferSize - 1) :
    (unfailing portions).Surely () createFileWriter (fun result after => result = true ∧
      after.Got old (piece.take (portions.most 0))) (beforeWriting chunks (piece :: pieces) old) := by
  have arriving := (beforeWriting_arriving chunks (piece :: pieces) old).2
  refine surely_bind.mpr (surely_openOutput (surely_bind.mpr ?_))
  rw [beforeWriting_content]
  refine surely_bind.mpr (surely_close (surely_bind.mpr (surely_read arriving small ?_)))
  refine surely_bind.mpr (surely_writeOutput rfl fun _ => ?_)
  refine surely_bind.mpr (surely_close (surely_bind.mpr (surely_close ?_)))
  refine surely_bind.mpr (surely_closeAll ⟨rfl, ?_⟩)
  exact Transfer.Got.written (OpenFile.written_create old) piece

end

end Mark4

namespace IoHandler

section

variable {portions : Portions} {transfer : Transfer} {old : Option (List UInt8)} {text : List UInt8}
  {chunks pieces : List (List UInt8)} {version : Version} {rounds : Nat}

/-- The state at the start of a round: one piece will arrive for each chunk. -/
structure Handling (old : Option (List UInt8)) (text : List UInt8) (chunks pieces : List (List UInt8))
    (transfer : Transfer) : Prop where
  input : transfer.arriving .inputFile = chunks
  channel : transfer.arriving (.processorToWriter .reading) = pieces
  count : chunks.length = pieces.length
  chunk_sizes : ∀ chunk ∈ chunks, 0 < chunk.length ∧ chunk.length ≤ transferBufferSize - 1
  piece_sizes : ∀ piece ∈ pieces, piece.length ≤ transferBufferSize - 1
  got : transfer.Got old text

theorem Handling.next {chunk piece : List UInt8} {file : OpenFile UInt8}
    (handling : Handling old text (chunk :: chunks) (piece :: pieces) transfer) (written : file.Written old text)
    (sent : List (List UInt8)) : Handling old (text ++ piece.take (portions.most transfer.writes)) chunks pieces
      (Transfer.written portions
        { transfer with
          arriving := Function.update (Function.update transfer.arriving .inputFile chunks)
            (.processorToWriter .reading) pieces
          sent } file piece) := by
  constructor
  · simp [Transfer.written]
  · simp [Transfer.written]
  · exact Nat.succ.inj handling.count
  · exact fun chunk member => handling.chunk_sizes chunk (List.mem_cons_of_mem _ member)
  · exact fun piece member => handling.piece_sizes piece (List.mem_cons_of_mem _ member)
  · exact Transfer.Got.written written piece

theorem wp_runLoop (handling : Handling old text chunks pieces transfer) :
    (transferring portions).wp () (runLoop version rounds) (fun _ result after => result = true →
      after.Got old (text ++ portions.taken transfer.writes pieces)) transfer := by
  induction rounds generalizing transfer text chunks pieces with
  | zero => exact fun answer => isEmptyElim answer
  | succ rounds ih =>
    rw [runLoop, loop_succ]
    apply wp_bind.mpr
    cases chunks with
    | nil =>
      obtain rfl : pieces = [] := List.length_eq_zero_iff.mp handling.count.symm
      refine wp_bind.mpr (wp_readEnd handling.input (fun _ => ?_) fun _ => ?_)
      · rintro _ _ _ ⟨⟩
      · intro _
        rw [Portions.taken, List.append_nil]
        exact handling.got
    | cons chunk chunks =>
      cases pieces with
      | nil => cases handling.count
      | cons piece pieces =>
        obtain ⟨pos, small⟩ := handling.chunk_sizes chunk (List.mem_cons_self ..)
        obtain ⟨file, output, written⟩ := handling.got
        have channel : Function.update transfer.arriving .inputFile chunks (.processorToWriter .reading) =
            piece :: pieces := (Function.update_of_ne (by rintro ⟨⟩) ..).trans handling.channel
        refine wp_bind.mpr (wp_readPiece handling.input small (fun _ => ?_) fun _ => ?_)
        · rintro _ _ _ ⟨⟩
        show (transferring portions).wp () (if chunk.length = 0 then _ else _) _ _
        rw [if_neg (by omega)]
        refine wp_bind.mpr (wp_send (by rintro ⟨⟩) (fun _ => ?_) fun _ _ => ?_)
        · rintro _ _ _ ⟨⟩
        refine wp_bind.mpr (wp_readPiece channel (handling.piece_sizes piece (List.mem_cons_self ..))
          (fun _ => ?_) fun _ => ?_)
        · rintro _ _ _ ⟨⟩
        refine wp_bind.mpr (wp_writeOutput output (fun _ => ?_) fun _ _ => ?_)
        · rintro _ _ _ ⟨⟩
        have rest := ih (@Handling.next portions _ _ _ _ _ _ _ _ handling written (transfer.sent ++ [chunk]))
        rw [List.append_assoc] at rest
        exact rest

theorem wp_closeOpened {opened result : Bool} {d : Descriptor} {failureMessage : String} {post : Transfer → Prop}
    (holds : result = true → post transfer) : (transferring portions).wp ()
      (closeOpened opened d failureMessage result) (fun _ result after => result = true → post after) transfer := by
  cases opened with
  | false => exact holds
  | true =>
    refine wp_bind.mpr (wp_close fun _ closed => ?_)
    cases closed with
    | false => rintro _ _ _ ⟨⟩
    | true => exact holds

theorem wp_unlinkOpened {opened : Bool} {d : Descriptor} {post : Transfer → Prop} (holds : post transfer) :
    (transferring portions).wp () (unlinkOpened version opened d) (fun _ _ => post) transfer := by
  unfold unlinkOpened
  split_ifs
  · rintro _ _ ⟨⟩
    exact holds
  · exact holds

theorem wp_notifyEndOfCommunication {opened : Bool} {post : Transfer → Prop}
    (holds : ∀ sent, post { transfer with sent }) : (transferring portions).wp ()
      (notifyEndOfCommunication opened) (fun _ _ => post) transfer := by
  cases opened with
  | false => exact holds transfer.sent
  | true =>
    refine wp_bind.mpr (wp_send (by rintro ⟨⟩) (fun _ => ?_) fun _ _ => ?_)
    · exact holds transfer.sent
    · exact holds (transfer.sent ++ [[endOfCommunicationChar]])

theorem wp_closeDescriptors {opened : Opened} {result : Bool} {post : Transfer → Prop}
    (holds : result = true → post transfer) : (transferring portions).wp ()
      (closeDescriptors version opened result) (fun _ result after => result = true → post after) transfer := by
  refine wp_bind.mpr (wp_mono (fun _ _ _ holds => ?_) (wp_closeOpened holds))
  refine wp_bind.mpr (wp_mono (fun _ result _ holds => ?_) (wp_closeOpened holds))
  refine wp_bind.mpr (wp_mono (fun _ _ _ holds => ?_)
    (@wp_unlinkOpened _ _ _ _ _ (fun after => result = true → post after) holds))
  refine wp_bind.mpr (wp_mono (fun _ _ _ holds => ?_) (wp_closeOpened holds))
  refine wp_bind.mpr (wp_mono (fun _ result _ holds => ?_) (wp_closeOpened holds))
  refine wp_bind.mpr (wp_mono (fun _ _ _ holds => ?_)
    (@wp_unlinkOpened _ _ _ _ _ (fun after => result = true → post after) holds))
  exact holds

theorem wp_runImpl {opened : Opened} (handling : opened.writeFile = true → Handling old text chunks pieces transfer) :
    (transferring portions).wp () (runImpl version rounds opened) (fun _ result after => result = true →
      after.Got old (text ++ portions.taken transfer.writes pieces)) transfer := by
  unfold runImpl
  split_ifs with _ _ closed
  · rintro _ _ _ ⟨⟩
  · rintro _ _ _ ⟨⟩
  · rintro _ _ _ ⟨⟩
  · rintro _ _ _ ⟨⟩
  · apply wp_runLoop
    apply handling
    simpa using closed

theorem handling_opened (count : chunks.length = pieces.length)
    (chunk_sizes : ∀ chunk ∈ chunks, 0 < chunk.length ∧ chunk.length ≤ transferBufferSize - 1)
    (piece_sizes : ∀ piece ∈ pieces, piece.length ≤ transferBufferSize - 1) :
    Handling old [] chunks pieces { beforeWriting chunks pieces old with output := some (.create old) } := by
  obtain ⟨input, channel⟩ := beforeWriting_arriving chunks pieces old
  exact ⟨input, channel, count, chunk_sizes, piece_sizes, _, rfl, OpenFile.written_create old⟩

theorem wp_openDescriptors (handling : Handling old [] chunks pieces
    { beforeWriting chunks pieces old with output := some (.create old) }) :
    (transferring portions).wp () (openDescriptors version) (fun _ opened after => after.writes = 0 ∧
      (opened.writeFile = true → Handling old [] chunks pieces after)) (beforeWriting chunks pieces old) := by
  cases version with
  | mark9 =>
    refine wp_bind.mpr (wp_open (by rintro ⟨⟩) fun _ _ => ?_)
    refine wp_bind.mpr (wp_open (by rintro ⟨⟩) fun _ _ => ?_)
    refine wp_bind.mpr (wp_openOutput (fun _ => ?_) fun _ => ?_)
    · exact wp_bind.mpr (wp_open (by rintro ⟨⟩) fun _ _ => ⟨rfl, by rintro ⟨⟩⟩)
    · rw [beforeWriting_content]
      exact wp_bind.mpr (wp_open (by rintro ⟨⟩) fun _ _ => ⟨rfl, fun _ => handling⟩)
  | mark10 =>
    refine wp_bind.mpr (wp_open (by rintro ⟨⟩) fun _ _ => ?_)
    refine wp_bind.mpr (wp_openOutput (fun _ => ?_) fun _ => ?_)
    · refine wp_bind.mpr (wp_open (by rintro ⟨⟩) fun _ _ => ?_)
      exact wp_bind.mpr (wp_open (by rintro ⟨⟩) fun _ _ => ⟨rfl, by rintro ⟨⟩⟩)
    · rw [beforeWriting_content]
      refine wp_bind.mpr (wp_open (by rintro ⟨⟩) fun _ _ => ?_)
      exact wp_bind.mpr (wp_open (by rintro ⟨⟩) fun _ _ => ⟨rfl, fun _ => handling⟩)

theorem wp_run (handling : Handling old [] chunks pieces
    { beforeWriting chunks pieces old with output := some (.create old) }) :
    (transferring portions).wp () (run version rounds) (fun _ result after => result = true →
      after.Got old (portions.taken 0 pieces)) (beforeWriting chunks pieces old) := by
  refine wp_bind.mpr (wp_mono ?_ (wp_openDescriptors handling))
  rintro _ opened transfer ⟨start, handling⟩
  have looped := @wp_runImpl portions transfer old [] chunks pieces version rounds opened handling
  rw [start] at looped
  refine wp_bind.mpr (wp_mono (fun _ result after got => ?_) looped)
  refine wp_bind.mpr (wp_mono (fun _ _ _ got => ?_) (@wp_notifyEndOfCommunication portions after _
    (fun after => result = true → after.Got old (portions.taken 0 pieces)) fun _ => got))
  exact wp_closeDescriptors got

theorem surely_runLoop (enough : chunks.length < rounds) (handling : Handling old text chunks pieces transfer) :
    (unfailing portions).Surely () (runLoop version rounds) (fun result after => result = true ∧
      after.Got old (text ++ portions.taken transfer.writes pieces)) transfer := by
  induction rounds generalizing transfer text chunks pieces with
  | zero => cases enough
  | succ rounds ih =>
    rw [runLoop, loop_succ]
    apply surely_bind.mpr
    cases chunks with
    | nil =>
      obtain rfl : pieces = [] := List.length_eq_zero_iff.mp handling.count.symm
      refine surely_bind.mpr (surely_readEnd handling.input ⟨rfl, ?_⟩)
      rw [Portions.taken, List.append_nil]
      exact handling.got
    | cons chunk chunks =>
      cases pieces with
      | nil => cases handling.count
      | cons piece pieces =>
        obtain ⟨pos, small⟩ := handling.chunk_sizes chunk (List.mem_cons_self ..)
        obtain ⟨file, output, written⟩ := handling.got
        have channel : Function.update transfer.arriving .inputFile chunks (.processorToWriter .reading) =
            piece :: pieces := (Function.update_of_ne (by rintro ⟨⟩) ..).trans handling.channel
        refine surely_bind.mpr (surely_read handling.input small ?_)
        show (unfailing portions).Surely () (if chunk.length = 0 then _ else _) _ _
        rw [if_neg (by omega)]
        refine surely_bind.mpr (surely_send (by rintro ⟨⟩) ?_)
        refine surely_bind.mpr (surely_read channel (handling.piece_sizes piece (List.mem_cons_self ..)) ?_)
        refine surely_bind.mpr (surely_writeOutput output fun _ => ?_)
        have rest := ih (Nat.lt_of_succ_lt_succ enough)
          (@Handling.next portions _ _ _ _ _ _ _ _ handling written (transfer.sent ++ [chunk]))
        rw [List.append_assoc] at rest
        exact rest

theorem surely_closeOpened {opened : Bool} {d : Descriptor} {failureMessage : String}
    {post : Bool → Transfer → Prop} (holds : post true transfer) :
    (unfailing portions).Surely () (closeOpened opened d failureMessage true) post transfer := by
  cases opened with
  | false => exact holds
  | true => exact surely_bind.mpr (surely_close holds)

theorem surely_unlinkOpened {opened : Bool} {d : Descriptor} {post : Unit → Transfer → Prop}
    (holds : post () transfer) : (unfailing portions).Surely () (unlinkOpened version opened d) post transfer := by
  unfold unlinkOpened
  split_ifs
  · exact ⟨(), transfer, rfl, fun _ _ _ => rfl, holds⟩
  · exact holds

theorem surely_closeDescriptors {opened : Opened} {post : Bool → Transfer → Prop} (holds : post true transfer) :
    (unfailing portions).Surely () (closeDescriptors version opened true) post transfer := by
  refine surely_bind.mpr (surely_closeOpened (surely_bind.mpr (surely_closeOpened ?_)))
  refine surely_bind.mpr (surely_unlinkOpened (surely_bind.mpr (surely_closeOpened ?_)))
  exact surely_bind.mpr (surely_closeOpened (surely_bind.mpr (surely_unlinkOpened holds)))

theorem surely_openDescriptors {post : Opened → Transfer → Prop}
    (holds : post ⟨true, true, true, true⟩ { beforeWriting chunks pieces old with output := some (.create old) }) :
    (unfailing portions).Surely () (openDescriptors version) post (beforeWriting chunks pieces old) := by
  cases version with
  | mark9 =>
    refine surely_bind.mpr (surely_open (by rintro ⟨⟩) (surely_bind.mpr (surely_open (by rintro ⟨⟩) ?_)))
    refine surely_bind.mpr (surely_openOutput (surely_bind.mpr (surely_open (by rintro ⟨⟩) ?_)))
    rw [beforeWriting_content]
    exact holds
  | mark10 =>
    refine surely_bind.mpr (surely_open (by rintro ⟨⟩) (surely_bind.mpr (surely_openOutput ?_)))
    rw [beforeWriting_content]
    refine surely_bind.mpr (surely_open (by rintro ⟨⟩) (surely_bind.mpr (surely_open (by rintro ⟨⟩) ?_)))
    exact holds

theorem surely_run (handling : Handling old [] chunks pieces
    { beforeWriting chunks pieces old with output := some (.create old) }) :
    (unfailing portions).Surely () (run version (chunks.length + 1)) (fun result after => result = true ∧
      after.Got old (portions.taken 0 pieces)) (beforeWriting chunks pieces old) := by
  refine surely_bind.mpr (surely_openDescriptors (surely_bind.mpr ?_))
  refine surely_mono ?_ (surely_runLoop (Nat.lt_succ_self _) handling)
  rintro result transfer ⟨rfl, got⟩
  refine surely_bind.mpr (surely_bind.mpr (surely_send (by rintro ⟨⟩) ?_))
  exact surely_closeDescriptors ⟨rfl, got⟩

end

end IoHandler

section

variable {version : Version} {portions : Portions} {old : Option (List UInt8)} {chunks pieces : List (List UInt8)}

theorem wp_writingSide {rounds : Nat} (delivers : version.Delivers (pieces.map List.length))
    (reads : version.Reads chunks pieces.length) :
    (transferring portions).wp () (writingSide rounds version) (fun _ result after => result = true →
      after.Got old (portions.taken 0 (version.received pieces))) (beforeWriting chunks pieces old) := by
  cases version with
  | mark4 =>
    obtain ⟨nonempty, -, fits⟩ := delivers
    cases pieces with
    | nil => exact absurd rfl nonempty
    | cons piece pieces =>
      rw [List.map_cons, List.sum_cons] at fits
      have written := @Mark4.wp_createFileWriter portions old chunks piece pieces (by omega)
      rw [← List.append_nil (piece.take _)] at written
      exact written
  | handler version =>
    obtain ⟨count, chunk_sizes⟩ := reads (by rintro ⟨⟩)
    exact IoHandler.wp_run (IoHandler.handling_opened count chunk_sizes fun piece member =>
      delivers _ (List.mem_map_of_mem member))

theorem exists_run_writingSide (portions : Portions) (old : Option (List UInt8))
    (delivers : version.Delivers (pieces.map List.length)) :
    ∃ chunks, version.Reads chunks pieces.length ∧ ∃ rounds history transfer,
      (transferring portions).Runs () (writingSide rounds version) (beforeWriting chunks pieces old) history
        true transfer ∧ transfer.Got old (portions.taken 0 (version.received pieces)) := by
  cases version with
  | mark4 =>
    obtain ⟨nonempty, -, fits⟩ := delivers
    cases pieces with
    | nil => exact absurd rfl nonempty
    | cons piece pieces =>
      rw [List.map_cons, List.sum_cons] at fits
      have surely := @Mark4.surely_createFileWriter portions old [] piece pieces (by omega)
      obtain ⟨history, result, transfer, run, rfl, got⟩ := exists_run_of_can (can_of_surely surely)
      rw [← List.append_nil (piece.take _)] at got
      exact ⟨[], fun other => absurd rfl other, 0, history, transfer, run.of_restrict, got⟩
  | handler version =>
    have count : (List.replicate pieces.length ([0] : List UInt8)).length = pieces.length := List.length_replicate ..
    have sizes : ∀ chunk ∈ List.replicate pieces.length ([0] : List UInt8),
        0 < chunk.length ∧ chunk.length ≤ transferBufferSize - 1 := by
      intro chunk member
      rw [(List.mem_replicate.mp member).2]
      decide
    have surely := @IoHandler.surely_run portions old (List.replicate pieces.length [0]) pieces version
      (IoHandler.handling_opened count sizes fun piece member => delivers _ (List.mem_map_of_mem member))
    obtain ⟨history, result, transfer, run, rfl, got⟩ := exists_run_of_can (can_of_surely surely)
    exact ⟨_, fun _ => ⟨count, sizes⟩, _, history, transfer, run.of_restrict, got⟩

theorem holdsResult_iff (delivers : version.Delivers (pieces.map List.length)) :
    HoldsResult version portions pieces old ↔
      portions.taken 0 (version.received pieces) ++
        (old.getD []).drop (portions.taken 0 (version.received pieces)).length = pieces.flatten := by
  constructor
  · intro holds
    obtain ⟨chunks, reads, rounds, history, transfer, run, file, output, written⟩ :=
      @exists_run_writingSide version pieces portions old delivers
    have content := holds chunks reads rounds history transfer run
    rw [output, Option.map_some, Option.some_inj, written.content] at content
    exact content
  · intro same chunks reads rounds history transfer run
    obtain ⟨file, output, written⟩ := wp_iff_runs.mp (wp_writingSide delivers reads) _ _ _ run rfl
    rw [output, Option.map_some, written.content, same]

variable {lengths : List Nat} {length : Nat}

/-- What makes the result complete: a short enough old file, writes that accept all they are given,
    and, for the one read of mark4, a text that arrives in one piece. -/
def Complete (version : Version) (portions : Portions) (lengths : List Nat) (length : Nat) : Prop :=
  length ≤ lengths.sum ∧ portions.TakesAll 0 lengths ∧ (version = .mark4 → lengths.length = 1)

theorem complete_of_holdsResult (delivers : version.Delivers lengths)
    (holds : HoldsResult version portions (lengths.map (List.replicate · 0)) (some (List.replicate length 1))) :
    Complete version portions lengths length := by
  have same : (lengths.map (List.replicate · (0 : UInt8))).map List.length = lengths := by
    rw [List.map_map]
    simp [Function.comp_def]
  have content := (holdsResult_iff (by rwa [same])).mp holds
  rw [flatten_map_replicate] at content
  cases version with
  | handler version =>
    rw [Version.received, Portions.taken_replicate, List.length_replicate] at content
    obtain ⟨all, fits⟩ := (written_replicate_iff (by decide) Portions.takenLength_le).mp content
    exact ⟨fits, Portions.takenLength_eq_sum_iff.mp all, by rintro ⟨⟩⟩
  | mark4 =>
    obtain ⟨nonempty, pos, -⟩ := delivers
    cases lengths with
    | nil => exact absurd rfl nonempty
    | cons first rest =>
      have part : portions.takenLength 0 [first] ≤ (first :: rest).sum := by
        rw [Portions.takenLength, Portions.takenLength, List.sum_cons]
        omega
      have first_only : Version.received .mark4 ((first :: rest).map (List.replicate · (0 : UInt8))) =
          [first].map (List.replicate · 0) := rfl
      rw [first_only, Portions.taken_replicate, List.length_replicate] at content
      obtain ⟨all, fits⟩ := (written_replicate_iff (by decide) part).mp content
      rw [Portions.takenLength, Portions.takenLength, List.sum_cons] at all
      cases rest with
      | nil =>
        rw [List.sum_nil] at all
        exact ⟨fits, ⟨by omega, True.intro⟩, fun _ => rfl⟩
      | cons second rest =>
        have more := pos second (by simp)
        rw [List.sum_cons] at all
        omega

/-- Whatever the delivered text and the old file of these lengths are, a report of success means that
    the output file holds the text and nothing else: exactly if the result is complete. -/
theorem holdsResult_all_iff (delivers : version.Delivers lengths) :
    (∀ old pieces, (old.getD []).length = length → pieces.map List.length = lengths →
      HoldsResult version portions pieces old) ↔ Complete version portions lengths length := by
  constructor
  · intro holds
    apply complete_of_holdsResult delivers
    apply holds
    · exact List.length_replicate ..
    · rw [List.map_map]
      simp [Function.comp_def]
  · rintro ⟨fits, all, one⟩ old pieces rfl rfl
    have received : version.received pieces = pieces := by
      cases version with
      | handler version => rfl
      | mark4 =>
        have single := one rfl
        rw [List.length_map] at single
        exact List.take_of_length_le (Nat.le_of_eq single)
    rw [holdsResult_iff delivers, received, Portions.taken_eq_flatten all,
      List.drop_eq_nil_of_le (by rwa [List.length_flatten]), List.append_nil]

end

/-- Writes that accept all they are given. -/
def wholeWrites : Portions := ⟨fun _ => bufferSize, fun _ => by decide⟩

/-- A text of one character over an old file of two: `open` does not truncate. -/
theorem longer_file_keeps_its_end : ¬ ∃ version, HoldsResult version wholeWrites [[0]] (some [1, 1]) := by
  rintro ⟨version, holds⟩
  have delivers : version.Delivers [1] := by
    cases version with
    | mark4 => exact ⟨by decide, by decide, by decide⟩
    | handler version =>
      show ∀ length ∈ [1], length ≤ transferBufferSize - 1
      decide
  have fits := (@complete_of_holdsResult version wholeWrites [1] 2 delivers holds).1
  revert fits
  decide

/-- A text of three characters over an old file of two. -/
theorem shorter_file_is_replaced : HoldsResult .mark4 wholeWrites [[1, 2, 3]] (some [0, 0]) :=
  (@holdsResult_all_iff .mark4 wholeWrites [3] 2 ⟨by decide, by decide, by decide⟩).mpr
    ⟨by decide, ⟨by decide, True.intro⟩, fun _ => rfl⟩ _ _ rfl rfl

end ArchCompSystems.OsIhw1
