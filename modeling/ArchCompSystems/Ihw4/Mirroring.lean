import ArchCompSystems.Ihw4.WritingSteps

namespace ArchCompSystems.Ihw4.Versions

open Library Library.Program

section

variable {n : Nat} {version : Version} {string : List UInt8} {pool : Pool (Thread n) (Call n) Call.Answer (State n)}

theorem initialPhase_main (some : 0 < n) : initialPhase n .main = .joining 0 := if_neg (Nat.ne_of_gt some)

theorem initialPhase_cases (n : Nat) (t : Thread n) : ¬ (initialPhase n t).holds version ∧
    (initialPhase n t).node = none ∧ (0 < n → (initialPhase n t).spoken = none) := by
  cases t with
  | encoder i => exact ⟨fun holds => holds, rfl, fun _ => rfl⟩
  | main =>
    rcases Nat.eq_zero_or_pos n with rfl | some
    · exact ⟨fun holds => holds, rfl, fun some => absurd some (Nat.lt_irrefl 0)⟩
    · rw [initialPhase_main some]
      exact ⟨fun holds => holds, rfl, fun _ => rfl⟩

theorem mirroring_start (n : Nat) (version : Version) (string : List UInt8) :
    Mirroring version string (start n version string true).state (initialPhase n) [] where
  threads := by
    intro t
    cases t with
    | encoder i => exact fun same => nomatch same
    | main =>
      rcases Nat.eq_zero_or_pos n with rfl | some
      · exact ⟨rfl, fun i => i.elim0, rfl⟩
      · rw [initialPhase_main some]
        exact ⟨rfl, fun _ before => absurd before (Nat.not_lt_zero _)⟩
  holds := fun t holds => absurd holds (initialPhase_cases n t).1
  apart := fun t _ _ _ _ _ mine => by
    rw [(@initialPhase_cases version n t).2.1] at mine
    cases mine
  voice := by
    refine ⟨fun _ _ => rfl, fun t printed spoken file => ?_⟩
    rcases Nat.eq_zero_or_pos n with rfl | some
    · cases t with
      | encoder i => exact i.elim0
      | main =>
        cases spoken
        rfl
    · rw [(@initialPhase_cases version n t).2.2 some] at spoken
      cases spoken
  recordsOk := by simp
  first := fun counted => absurd counted (Nat.lt_irrefl 0)
  exited := fun _ ended => nomatch ended

def Final (version : Version) (string : List UInt8) (t : Thread n) (phase : Phase) : Prop :=
  match t with
  | .encoder _ => phase = .ended
  | .main => Finished version string phase

theorem Reach.mirroring (noTerminator : 0 ∉ string) (reach : Reach n version string true pool) :
    ∃ ms, pool.Governed (fun _ => writingOrder n version string) (initialPhase n) (Final version string)
      (fun s ms => ∃ records, Mirroring version string s ms records) ms := by
  refine Pool.Reach.governed ?_ (fun _ _ _ => rfl)
    ⟨fun _ => .nil, ?_, _, mirroring_start n version string⟩ reach
  · rintro s ms t c answer s' ⟨records, mirroring⟩ allowed performed
    exact mirroring.perform allowed performed
  · intro t
    cases t with
    | encoder i => exact encoder_follows noTerminator
    | main => exact main_follows

theorem Reach.recorded (noTerminator : 0 ∉ string) (reach : Reach n version string true pool)
    (ended : ∀ t, pool.programs t = .done ()) : ∃ records : List Record,
      (∀ record ∈ records, RecordOk n string record) ∧
      (∀ file, pool.state.output file = records.flatMap (Record.printed version string file)) ∧
      (0 < n → 0 < maxChunkNo string → ∃ codes, .result 0 codes ∈ records) := by
  obtain ⟨ms, governed⟩ := reach.mirroring noTerminator
  obtain ⟨records, mirroring⟩ := governed.agrees
  have final : ∀ t, Final version string t (ms t) := fun t => by
    have following := governed.follows t
    rw [ended t] at following
    exact following
  obtain ⟨memory, codes, printed, known, tells⟩ := final .main
  have finishing : (ms .main).spoken = some printed := by rw [known]; rfl
  refine ⟨records ++ [.whole codes], fun record member => ?_, fun file => ?_, fun some chunks => ?_⟩
  · rcases List.mem_append.mp member with before | last
    · exact mirroring.recordsOk record before
    · rw [List.mem_singleton.mp last]
      exact True.intro
  · rw [mirroring.voice.speaking .main printed finishing file, tells file, List.flatMap_append,
      List.flatMap_singleton]
  · have last : ms (.encoder ⟨0, some⟩) = .ended := final (.encoder ⟨0, some⟩)
    rcases mirroring.first (mirroring.ok last).2 chunks with ⟨codes, member⟩ | ⟨t, chunk⟩
    · exact ⟨codes, List.mem_append_left _ member⟩
    · cases t with
      | main => rw [known] at chunk; cases chunk
      | encoder i =>
        have gone : ms (.encoder i) = .ended := final (.encoder i)
        rw [gone] at chunk
        cases chunk

def chunkText (string : List UInt8) (chunkNo : Nat) : List UInt8 :=
  (string.drop (chunkNo * encodeChunkSize)).take encodeChunkSize

abbrev Record.text (string : List UInt8) : Record → List UInt8 :=
  Record.spelled string fun chunkNo _ => chunkText string chunkNo

/-- One sequence of records on both streams, byte for byte. -/
def MirrorsConsole (string : List UInt8) (s : State n) : Prop :=
  ∃ records : List Record, ∀ file, s.output file = records.flatMap (Record.text string)

theorem take_chunkSize (string : List UInt8) (chunkNo : Nat) :
    (string.drop (chunkNo * encodeChunkSize)).take (chunkSize string chunkNo) = chunkText string chunkNo := by
  rw [chunkSize, ← List.length_drop, chunkText, ← List.take_eq_take_min]

theorem printed_stdout {record : Record} (ok : RecordOk n string record) :
    record.printed version string .stdout = record.text string := by
  cases record with
  | newChunk chunkNo => rfl
  | whole codes => rfl
  | result chunkNo codes =>
    have quoted : quote version .stdout string chunkNo codes.length = chunkText string chunkNo := by
      rw [ok.2.2, ← take_chunkSize]
      cases version <;> rfl
    simp only [Record.printed, Record.text, Record.spelled, quoted]

theorem printed_outputFile {record : Record} (ok : RecordOk n string record)
    (holds : version = .version3 ∨ string.length ≤ encodeChunkSize ∨ n = 0) :
    record.printed version string .outputFile = record.text string := by
  cases record with
  | newChunk chunkNo => rfl
  | whole codes => rfl
  | result chunkNo codes =>
    have quoted : quote version .outputFile string chunkNo codes.length = chunkText string chunkNo := by
      rcases holds with rfl | short | rfl
      · rw [ok.2.2, ← take_chunkSize]
        rfl
      · have first : chunkNo = 0 := by
          have inside := ok.2.1
          unfold maxChunkNo encodeChunkSize at *
          omega
        subst first
        rw [chunkText, Nat.zero_mul, List.drop_zero, List.take_of_length_le short]
        cases version with
        | version1 | version2 => simp [quote]
        | version3 =>
          have size : chunkSize string 0 = string.length := by
            unfold chunkSize
            omega
          simp [quote, ok.2.2, size]
      · exact absurd ok.1 (Nat.lt_irrefl 0)
    simp only [Record.printed, Record.text, Record.spelled, quoted]

theorem quote_length_le (version : Version) (string : List UInt8) (chunkNo size : Nat) :
    (quote version .stdout string chunkNo size).length ≤ (quote version .outputFile string chunkNo size).length := by
  cases version <;> simp [quote]

theorem printed_length_le (version : Version) (string : List UInt8) (record : Record) :
    (record.printed version string .stdout).length ≤ (record.printed version string .outputFile).length := by
  cases record with
  | newChunk chunkNo => exact Nat.le_refl _
  | whole codes => exact Nat.le_refl _
  | result chunkNo codes =>
    have quotes := quote_length_le version string chunkNo codes.length
    simp only [Record.printed, Record.spelled, resultHeader, List.length_append]
    omega

theorem printed_length_lt {codes : List Code} (ok : RecordOk n string (.result 0 codes))
    (notThird : version ≠ .version3) (long : encodeChunkSize < string.length) :
    ((Record.result 0 codes).printed version string .stdout).length <
      ((Record.result 0 codes).printed version string .outputFile).length := by
  have size : codes.length = encodeChunkSize := by
    rw [ok.2.2, chunkSize]
    omega
  have quotes : (quote version .stdout string 0 codes.length).length <
      (quote version .outputFile string 0 codes.length).length := by
    rw [size]
    cases version with
    | version1 | version2 => simpa [quote] using long
    | version3 => exact absurd rfl notThird
  simp only [Record.printed, Record.spelled, resultHeader, List.length_append]
  omega

theorem Reach.mirrors (noTerminator : 0 ∉ string) (reach : Reach n version string true pool)
    (ended : ∀ t, pool.programs t = .done ())
    (holds : version = .version3 ∨ string.length ≤ encodeChunkSize ∨ n = 0) : MirrorsConsole string pool.state := by
  obtain ⟨records, ok, output, -⟩ := reach.recorded noTerminator ended
  refine ⟨records, fun file => ?_⟩
  rw [output file]
  refine List.flatMap_congr fun record member => ?_
  cases file with
  | stdout => exact printed_stdout (ok record member)
  | outputFile => exact printed_outputFile (ok record member) holds

theorem Reach.differs (noTerminator : 0 ∉ string) (reach : Reach n version string true pool)
    (ended : ∀ t, pool.programs t = .done ()) (notThird : version ≠ .version3)
    (long : encodeChunkSize < string.length) (some : 0 < n) : ¬ MirrorsConsole string pool.state := by
  rintro ⟨same, mirrored⟩
  obtain ⟨records, ok, output, first⟩ := reach.recorded noTerminator ended
  have chunks : 0 < maxChunkNo string := by
    unfold maxChunkNo encodeChunkSize at *
    omega
  obtain ⟨codes, member⟩ := first some chunks
  have shorter : (records.flatMap (Record.printed version string .stdout)).length <
      (records.flatMap (Record.printed version string .outputFile)).length := by
    rw [List.length_flatMap, List.length_flatMap]
    exact List.sum_lt_sum _ _ (fun record _ => printed_length_le version string record)
      ⟨_, member, printed_length_lt (ok _ member) notThird long⟩
  rw [← output, ← output, mirrored, mirrored] at shorter
  exact Nat.lt_irrefl _ shorter

/-- When all threads have ended, the output file mirrors the console exactly if the version quotes with
    the chunk's size, or nobody encodes a chunk that is not the last one. -/
theorem mirrorsConsole_iff (noTerminator : 0 ∉ string) (reach : Reach n version string true pool)
    (ended : ∀ t, pool.programs t = .done ()) : MirrorsConsole string pool.state ↔
      version = .version3 ∨ string.length ≤ encodeChunkSize ∨ n = 0 := by
  constructor
  · intro mirrors
    by_contra fails
    rw [not_or, not_or] at fails
    exact reach.differs noTerminator ended fails.1 (Nat.lt_of_not_le fails.2.1) (Nat.pos_of_ne_zero fails.2.2) mirrors
  · exact reach.mirrors noTerminator ended

end

def answerOf {n : Nat} : (c : Call n) → State n → Option c.Answer
  | .shared c, s => Ihw4.answerOf c s.shared
  | .fetchAddChunkNo, s => some s.shared.currentChunkNo
  | .fetchAddArraySize, s | .loadArraySize, s => some s.currentArraySize
  | .loadResult i, s => some (s.resultsArray i)
  | .qsort size, s => some ((s.results size).insertionSort fun a b => resultsComparer s.shared.chunkNo a b ≤ 0)
  | .printText _ _, _ | .enterCritical, _ | .leaveCritical, _ | .storeArraySize _, _ | .storeResult _ _, _ => some ()

theorem exists_ended {version : Version} {string : List UInt8} (taking second encoding main : Nat)
    (checked : ((start 2 version string true).replay (machine 2) (fun _ _ => true)
      (secondOvertakes answerOf taking second encoding main)).any allEnded = true) :
    ∃ pool, Reach 2 version string true pool ∧ ∀ t, pool.programs t = .done () := by
  obtain ⟨pool, reach, ended⟩ := @Pool.exists_reach_of_replay _ _ _ _ _ (machine 2) (fun _ _ => True)
    (start 2 version string true) (fun _ _ => true) (secondOvertakes answerOf taking second encoding main) allEnded
    (fun _ _ _ => True.intro) checked
  exact ⟨pool, reach, ended_of_allEnded ended⟩

/-- Two chunks in the first version: the record of the first quotes both in the output file. -/
theorem second_chunk_quoted : ¬ ∀ (n : Nat) (version : Version) (string : List UInt8)
    (pool : Pool (Thread n) (Call n) Call.Answer (State n)), 0 ∉ string → Reach n version string true pool →
    (∀ t, pool.programs t = .done ()) → MirrorsConsole string pool.state := by
  intro all
  have noTerminator : (0 : UInt8) ∉ List.replicate 129 49 := by
    intro member
    have same := List.eq_of_mem_replicate member
    revert same
    decide
  obtain ⟨pool, reach, ended⟩ := @exists_ended .version1 (List.replicate 129 49) 4 32 666 16 (by decide +kernel)
  exact reach.differs noTerminator ended (by decide) (by rw [List.length_replicate]; decide) (by decide)
    (all 2 .version1 _ pool noTerminator reach ended)

/-- Two encoders and two chunks in the third version. -/
theorem two_chunks_mirrored : ∃ pool : Pool (Thread 2) (Call 2) Call.Answer (State 2),
    Reach 2 .version3 twoChunks true pool ∧ (∀ t, pool.programs t = .done ()) ∧
      MirrorsConsole twoChunks pool.state := by
  obtain ⟨pool, reach, ended⟩ := @exists_ended .version3 twoChunks 4 35 661 795 (by decide +kernel)
  exact ⟨pool, reach, ended, (mirrorsConsole_iff (by decide +kernel) reach ended).mpr (.inl rfl)⟩

end ArchCompSystems.Ihw4.Versions
