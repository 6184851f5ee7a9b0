import ArchCompSystems.Ihw4.Encoding
import ArchCompSystems.Ihw4.Versions

namespace ArchCompSystems.Ihw4.Versions

open Library Library.Program

inductive Record where
  | newChunk (chunkNo : Nat)
  | result (chunkNo : Nat) (codes : List Code)
  | whole (codes : List Code)

def codesText (codes : List Code) : List UInt8 := codes.flatMap codeText

/-- A record when the header of a result quotes `quoted`. -/
def Record.spelled (string : List UInt8) (quoted : Nat → Nat → List UInt8) : Record → List UInt8
  | .newChunk chunkNo =>
    newChunkLog (chunkNo * encodeChunkSize) (chunkNo * encodeChunkSize + encodeChunkSize - 1)
  | .result chunkNo codes => resultHeader (quoted chunkNo codes.length) ++ codesText codes ++ text "\n"
  | .whole codes => wholeHeader string ++ codesText codes ++ text "\n"

/-- As a version prints it. -/
abbrev Record.printed (version : Version) (string : List UInt8) (file : OutFile) : Record → List UInt8 :=
  Record.spelled string (quote version file string)

/-- What the main thread prints from. -/
structure Memory where
  links : Links
  encodedString : Nat → Nat → Code
  arraySize : Nat
  resultsArray : Nat → Option Nat

/-- How far a thread has come with the record that it is at, and what of it is printed. -/
inductive Phase where
  | idle
  | entered
  | loaded (chunkNo : Nat)
  | counted (chunkNo : Nat)
  | taken (chunkNo : Nat)
  | opening (chunkNo : Nat) (printed : OutFile → List UInt8)
  | opened (chunkNo : Nat)
  | filling (chunkNo node : Nat) (codes : Nat → Code)
  | indexing (chunkNo node : Nat) (codes : Nat → Code)
  | stored (chunkNo node : Nat) (codes : Nat → Code)
  | quoting (chunkNo node : Nat) (codes : Nat → Code) (printed : OutFile → List UInt8)
  | ended
  | joining (count : Nat)
  | finishing (memory : Memory) (printed : OutFile → List UInt8)

namespace Phase

def chunk : Phase → Option Nat
  | .counted chunkNo | .taken chunkNo | .opening chunkNo _ | .opened chunkNo | .filling chunkNo _ _
  | .indexing chunkNo _ _ | .stored chunkNo _ _ | .quoting chunkNo _ _ _ => some chunkNo
  | _ => none

def node : Phase → Option (Nat × (Nat → Code))
  | .filling _ node codes | .indexing _ node codes | .stored _ node codes | .quoting _ node codes _ =>
    some (node, codes)
  | _ => none

def spoken : Phase → Option (OutFile → List UInt8)
  | .opening _ printed | .quoting _ _ _ printed | .finishing _ printed => some printed
  | _ => none

end Phase

def nothing : OutFile → List UInt8 := fun _ => []

def say (printed : OutFile → List UInt8) (file : OutFile) (bytes : List UInt8) : OutFile → List UInt8 :=
  Function.update printed file (printed file ++ bytes)

def chunkSize (string : List UInt8) (chunkNo : Nat) : Nat :=
  min encodeChunkSize (string.length - chunkNo * encodeChunkSize)

def resultRecord (string : List UInt8) (chunkNo : Nat) (codes : Nat → Code) : Record :=
  .result chunkNo ((List.range (chunkSize string chunkNo)).map codes)

def Tells (version : Version) (string : List UInt8) (record : Record) (printed : OutFile → List UInt8) : Prop :=
  ∀ file, printed file = record.printed version string file

/-- The order of the calls, as far as it matters for what is printed. Between the codes and the result
    a thread changes only what is not printed. -/
def writingOrder (n : Nat) (version : Version) (string : List UInt8) : Protocol (Call n) Call.Answer Phase where
  allowed phase call := match phase, call with
    | .idle, .shared (.lock .get) => version ≠ .version3
    | .idle, .enterCritical => version = .version3
    | .idle, .fetchAddChunkNo => True
    | .entered, .shared .loadCurrentChunkNo => True
    | .loaded chunkNo, .shared (.storeCurrentChunkNo next) => next = chunkNo + 1
    | .counted _, .shared (.unlock .get) => version ≠ .version3
    | .counted _, .leaveCritical => version = .version3
    | .taken chunkNo, .shared (.lock .write) => version ≠ .version3 ∧ chunkNo < maxChunkNo string
    | .taken chunkNo, .enterCritical => version = .version3 ∧ chunkNo < maxChunkNo string
    | .taken chunkNo, .shared .exit => maxChunkNo string ≤ chunkNo
    | .opening _ _, .printText _ _ => True
    | .opening chunkNo printed, .shared (.unlock .write) =>
      version ≠ .version3 ∧ Tells version string (.newChunk chunkNo) printed
    | .opening chunkNo printed, .leaveCritical =>
      version = .version3 ∧ Tells version string (.newChunk chunkNo) printed
    | .opened _, .shared (.newNode _) => True
    | .filling _ node _, .shared (.storeCode node' _ _) => node' = node
    | .filling _ _ _, .shared (.lock .store) | .filling _ _ _, .shared .loadHead
    | .filling _ _ _, .shared .loadTail | .filling _ _ _, .shared (.loadNext _)
    | .filling _ _ _, .shared (.loadPrev _) | .filling _ _ _, .shared (.loadChunkNo _)
    | .filling _ _ _, .shared (.storeNext _ _) | .filling _ _ _, .shared (.storePrev _ _)
    | .filling _ _ _, .shared (.storeHead _) | .filling _ _ _, .shared (.storeTail _) => True
    | .filling _ _ _, .shared (.unlock .store) => True
    | .filling _ _ _, .fetchAddArraySize | .filling _ _ _, .storeResult _ _ => True
    | .filling _ _ _, .enterCritical => version = .version3
    | .indexing _ _ _, .loadArraySize | .indexing _ _ _, .storeArraySize _ => True
    | .indexing _ _ _, .leaveCritical => version = .version3
    | .stored _ _ _, .shared (.lock .write) => version ≠ .version3
    | .stored _ _ _, .enterCritical => version = .version3
    | .quoting _ node _ _, .shared (.loadCode node' _) => node' = node
    | .quoting _ _ _ _, .printText _ _ => True
    | .quoting chunkNo _ codes printed, .shared (.unlock .write) =>
      version ≠ .version3 ∧ Tells version string (resultRecord string chunkNo codes) printed
    | .quoting chunkNo _ codes printed, .leaveCritical =>
      version = .version3 ∧ Tells version string (resultRecord string chunkNo codes) printed
    | .joining count, .shared (.join i) => i.val = count
    | .finishing _ _, .shared .loadHead | .finishing _ _, .shared (.loadNext _)
    | .finishing _ _, .shared (.loadCode _ _) | .finishing _ _, .shared (.print _ _)
    | .finishing _ _, .printText _ _ | .finishing _ _, .loadArraySize | .finishing _ _, .loadResult _ => True
    | .finishing memory _, .qsort size => size = memory.arraySize
    | _, .shared .goesOn => True
    | _, _ => False
  moves phase call answer phase' := match phase, call, answer with
    | .idle, .shared (.lock .get), _ | .idle, .enterCritical, _ => phase' = .entered
    | .idle, .fetchAddChunkNo, chunkNo => phase' = .taken chunkNo
    | .entered, .shared .loadCurrentChunkNo, chunkNo => phase' = .loaded chunkNo
    | .loaded chunkNo, .shared (.storeCurrentChunkNo _), _ => phase' = .counted chunkNo
    | .counted chunkNo, .shared (.unlock .get), _ | .counted chunkNo, .leaveCritical, _ => phase' = .taken chunkNo
    | .taken chunkNo, .shared (.lock .write), _ | .taken chunkNo, .enterCritical, _ =>
      phase' = .opening chunkNo nothing
    | .taken _, .shared .exit, _ => phase' = .ended
    | .opening chunkNo printed, .printText file bytes, _ => phase' = .opening chunkNo (say printed file bytes)
    | .opening chunkNo _, .shared (.unlock .write), _ | .opening chunkNo _, .leaveCritical, _ =>
      phase' = .opened chunkNo
    | .opened chunkNo, .shared (.newNode _), node => phase' = .filling chunkNo node fun _ => 0
    | .filling chunkNo node codes, .shared (.storeCode _ i code), _ =>
      phase' = .filling chunkNo node (Function.update codes i code)
    | .filling chunkNo node codes, .shared (.unlock .store), _
    | .filling chunkNo node codes, .storeResult _ _, _ => phase' = .stored chunkNo node codes
    | .filling chunkNo node codes, .enterCritical, _ => phase' = .indexing chunkNo node codes
    | .indexing chunkNo node codes, .leaveCritical, _ => phase' = .filling chunkNo node codes
    | .stored chunkNo node codes, .shared (.lock .write), _ | .stored chunkNo node codes, .enterCritical, _ =>
      phase' = .quoting chunkNo node codes nothing
    | .quoting chunkNo node codes printed, .shared (.loadCode _ i), code =>
      code = codes i ∧ phase' = .quoting chunkNo node codes printed
    | .quoting chunkNo node codes printed, .printText file bytes, _ =>
      phase' = .quoting chunkNo node codes (say printed file bytes)
    | .quoting _ _ _ _, .shared (.unlock .write), _ | .quoting _ _ _ _, .leaveCritical, _ => phase' = .idle
    | .joining count, .shared (.join _), _ =>
      if count + 1 = n then ∃ memory, phase' = .finishing memory nothing else phase' = .joining (count + 1)
    | .finishing memory printed, .shared .loadHead, answer =>
      answer = memory.links.head ∧ phase' = .finishing memory printed
    | .finishing memory printed, .shared (.loadNext node), answer =>
      answer = memory.links.next node ∧ phase' = .finishing memory printed
    | .finishing memory printed, .shared (.loadCode node i), answer =>
      answer = memory.encodedString node i ∧ phase' = .finishing memory printed
    | .finishing memory printed, .shared (.print file code), _ =>
      phase' = .finishing memory (say printed file (codeText code))
    | .finishing memory printed, .printText file bytes, _ => phase' = .finishing memory (say printed file bytes)
    | .finishing memory printed, .loadArraySize, answer =>
      answer = memory.arraySize ∧ phase' = .finishing memory printed
    | .finishing memory printed, .loadResult i, answer =>
      answer = memory.resultsArray i ∧ phase' = .finishing memory printed
    | .finishing memory printed, .qsort size, sorted => phase' = .finishing { memory with
        resultsArray := fun i => if i < size then sorted[i]?.getD none else memory.resultsArray i } printed
    | phase, _, _ => phase' = phase

section

variable {n : Nat} {version : Version} {string : List UInt8}

theorem writing_follows {body : EncoderProgram n Unit} {phase inside closed : Phase}
    (lock : version ≠ .version3 → (writingOrder n version string).allowed phase (.shared (.lock .write)) ∧
      ∀ phase', (writingOrder n version string).moves phase (.shared (.lock .write)) () phase' → phase' = inside)
    (enter : version = .version3 → (writingOrder n version string).allowed phase .enterCritical ∧
      ∀ phase', (writingOrder n version string).moves phase .enterCritical () phase' → phase' = inside)
    (follows : (writingOrder n version string).Follows (fun _ phase' =>
        (version ≠ .version3 → (writingOrder n version string).allowed phase' (.shared (.unlock .write)) ∧
          ∀ after, (writingOrder n version string).moves phase' (.shared (.unlock .write)) () after → after = closed) ∧
        (version = .version3 → (writingOrder n version string).allowed phase' .leaveCritical ∧
          ∀ after, (writingOrder n version string).moves phase' .leaveCritical () after → after = closed))
      body inside) :
    (writingOrder n version string).Follows (fun _ phase' => phase' = closed) (writing version body) phase := by
  have lockedBody : version ≠ .version3 → (writingOrder n version string).Follows (fun _ phase' => phase' = closed)
      (locked .write body) phase := fun notThird => by
    obtain ⟨allowed, moves⟩ := lock notThird
    refine Protocol.follows_call allowed ?_
    rintro ⟨⟩ phase' moved
    obtain rfl := moves phase' moved
    refine Protocol.follows_bind.mpr (Protocol.follows_mono ?_ follows)
    rintro ⟨⟩ phase'' ⟨unlock, -⟩
    obtain ⟨allowed, moves⟩ := unlock notThird
    exact Protocol.follows_call allowed fun _ after moved => moves after moved
  cases version with
  | version1 => exact lockedBody (by simp)
  | version2 => exact lockedBody (by simp)
  | version3 =>
    obtain ⟨allowed, moves⟩ := enter rfl
    refine Protocol.follows_call allowed ?_
    rintro ⟨⟩ phase' moved
    obtain rfl := moves phase' moved
    refine Protocol.follows_bind.mpr (Protocol.follows_mono ?_ follows)
    rintro ⟨⟩ phase'' ⟨-, leave⟩
    obtain ⟨allowed, moves⟩ := leave rfl
    exact Protocol.follows_call allowed fun _ after moved => moves after moved

@[simp] theorem say_self (printed : OutFile → List UInt8) (file : OutFile) (bytes : List UInt8) :
    say printed file bytes file = printed file ++ bytes := Function.update_self ..

theorem say_of_ne (printed : OutFile → List UInt8) {file other : OutFile} (bytes : List UInt8)
    (different : other ≠ file) : say printed file bytes other = printed other := Function.update_of_ne different ..

theorem say_say (printed : OutFile → List UInt8) (file : OutFile) (first second : List UInt8) :
    say (say printed file first) file second = say printed file (first ++ second) := by
  rw [say, say_self, say, Function.update_idem, List.append_assoc]
  rfl

@[simp] theorem say_nil (printed : OutFile → List UInt8) (file : OutFile) : say printed file [] = printed := by
  rw [say, List.append_nil, Function.update_eq_self]

theorem tells_both {record : Record} {first second : List UInt8}
    (stdout : record.printed version string .stdout = first)
    (outputFile : record.printed version string .outputFile = second) :
    Tells version string record (say (say nothing .stdout first) .outputFile second) := by
  intro file
  cases file with
  | stdout =>
    rw [say_of_ne _ _ (by simp), say_self, stdout]
    rfl
  | outputFile =>
    rw [say_self, say_of_ne _ _ (by simp), outputFile]
    rfl

theorem writeNewChunkLog_follows {chunkNo : Nat} (inside : chunkNo < maxChunkNo string) :
    (writingOrder n version string).Follows (fun _ phase => phase = .opened chunkNo)
      (writeNewChunkLog version true chunkNo) (.taken chunkNo) := by
  refine @writing_follows n version string _ (.taken chunkNo) (.opening chunkNo nothing) (.opened chunkNo)
    (fun notThird => ⟨⟨notThird, inside⟩, fun _ moved => moved⟩)
    (fun third => ⟨⟨third, inside⟩, fun _ moved => moved⟩) ?_
  refine Protocol.follows_call True.intro ?_
  rintro ⟨⟩ _ rfl
  refine ⟨True.intro, ?_⟩
  rintro ⟨⟩ _ rfl
  have tells : Tells version string (.newChunk chunkNo) _ := tells_both rfl rfl
  exact ⟨fun notThird => ⟨⟨notThird, tells⟩, fun _ moved => moved⟩,
    fun third => ⟨⟨third, tells⟩, fun _ moved => moved⟩⟩

theorem getNextChunkNo_follows : (writingOrder n version string).Follows
    (fun chunkNo phase => phase = .taken chunkNo) (getNextChunkNo version) .idle := by
  cases version with
  | version1 =>
    have different : Version.version1 ≠ .version3 := nofun
    refine Protocol.follows_lift.mpr (Protocol.follows_call different ?_)
    rintro _ _ ⟨⟨⟩, -, rfl⟩
    refine Protocol.follows_call True.intro ?_
    rintro _ _ ⟨chunkNo, rfl, rfl⟩
    refine Protocol.follows_call rfl ?_
    rintro _ _ ⟨⟨⟩, -, rfl⟩
    refine Protocol.follows_call different ?_
    rintro _ _ ⟨⟨⟩, -, rfl⟩
    exact rfl
  | version2 => exact ⟨True.intro, fun _ _ moved => moved⟩
  | version3 =>
    refine Protocol.follows_call rfl ?_
    rintro ⟨⟩ _ rfl
    refine Protocol.follows_call True.intro ?_
    rintro chunkNo _ rfl
    refine Protocol.follows_call rfl ?_
    rintro ⟨⟩ _ rfl
    refine Protocol.follows_call rfl ?_
    rintro ⟨⟩ _ rfl
    exact rfl

theorem encodeChunk_follows (noTerminator : 0 ∉ string) {chunkNo : Nat} (inside : chunkNo < maxChunkNo string)
    (node : Nat) : (writingOrder n version string).Follows
      (fun size phase => size = chunkSize string chunkNo ∧ ∃ codes, phase = .filling chunkNo node codes)
      (common (encodeChunk string chunkNo node)) (.filling chunkNo node fun _ => 0) := by
  have first : chunkNo * encodeChunkSize + 0 ≤ string.length := by
    unfold maxChunkNo encodeChunkSize at *
    omega
  refine Protocol.follows_lift.mpr (Protocol.follows_bind.mpr (Protocol.follows_mono ?_
    (@Protocol.follows_forFrom _ _ _ _ _ _ (Phase.filling chunkNo node fun _ => 0) _
      (fun i _ phase => chunkNo * encodeChunkSize + i ≤ string.length ∧
        ∃ codes, phase = .filling chunkNo node codes)
      (fun size phase => size = chunkSize string chunkNo ∧ ∃ codes, phase = .filling chunkNo node codes)
      encodeChunkSize 0 () ?_ ⟨first, _, rfl⟩)))
  · rintro (_ | size) phase after
    · refine ⟨?_, after.2⟩
      have long := after.1
      unfold chunkSize
      omega
    · exact after
  · rintro i ⟨⟩ _ - below ⟨long, codes, rfl⟩
    simp only
    split
    · rename_i ended
      have short := length_le_of_charAt noTerminator ended
      refine ⟨?_, codes, rfl⟩
      unfold chunkSize
      omega
    · rename_i present
      have longer : chunkNo * encodeChunkSize + (i + 1) ≤ string.length := by
        by_contra short
        have outside : string.length ≤ chunkNo * encodeChunkSize + i := by omega
        exact present (by rw [charAt, List.getElem?_eq_none outside, Option.getD_none])
      refine Protocol.follows_call rfl ?_
      rintro _ _ ⟨⟨⟩, -, rfl⟩
      exact ⟨longer, _, rfl⟩

def Linking : Ihw4.Call n → Prop
  | .lock .store | .loadHead | .loadTail | .loadNext _ | .loadPrev _ | .loadChunkNo _ | .storeNext _ _
  | .storePrev _ _ | .storeHead _ | .storeTail _ | .goesOn => True
  | _ => False

theorem links_call {α : Type} {c : Ihw4.Call n} {rest : c.Answer → Ihw4.EncoderProgram n α} (linking : Linking c)
    (later : ∀ answer, (rest answer).Calls Linking) : (Program.request c >>= rest).Calls Linking :=
  calls_bind ((calls_request ..).mpr linking) later

theorem findPlace_links (rounds result : Nat) : (findPlace (n := n) rounds result).Calls Linking := by
  refine links_call True.intro fun tail => calls_bind (calls_forFrom (fun _ currentNode => ?_) ..) fun flow => ?_
  · cases currentNode with
    | none => exact True.intro
    | some node =>
      refine links_call True.intro fun chunkNo => links_call True.intro fun resultNo => ?_
      split
      · exact True.intro
      · exact links_call True.intro fun _ => True.intro
  · cases flow with
    | next _ => exact ⟨True.intro, fun answer => answer.elim⟩
    | exit place => exact True.intro

theorem insertAt_links (place : Option Nat) (result : Nat) : (insertAt (n := n) place result).Calls Linking := by
  cases place with
  | none =>
    refine links_call True.intro fun head => links_call True.intro fun _ => links_call True.intro fun _ => ?_
    cases head <;> exact (calls_request ..).mpr True.intro
  | some currentNode =>
    refine links_call True.intro fun next => links_call True.intro fun _ => links_call True.intro fun _ =>
      links_call True.intro fun _ => ?_
    cases next <;> exact (calls_request ..).mpr True.intro

theorem links_follow {α : Type} {p : Ihw4.EncoderProgram n α} (links : p.Calls Linking)
    (chunkNo node : Nat) (codes : Nat → Code) :
    ((writingOrder n version string).comap Call.shared fun _ answer => answer).Follows
      (fun _ phase => phase = .filling chunkNo node codes) p (.filling chunkNo node codes) := by
  refine Protocol.follows_of_calls links ?_ ?_
  · intro c linking
    cases c <;> first
      | exact True.intro
      | exact linking.elim
      | (rename_i mutex; cases mutex <;> first | exact True.intro | exact linking.elim)
  · rintro c answer phase linking ⟨answer, -, moved⟩
    cases c <;> first
      | exact moved
      | exact linking.elim

theorem storeResult_follows (rounds chunkNo node : Nat) (codes : Nat → Code) :
    (writingOrder n version string).Follows (fun _ phase => phase = .stored chunkNo node codes)
      (storeResult version rounds node) (.filling chunkNo node codes) := by
  cases version with
  | version1 =>
    refine Protocol.follows_lift.mpr (Protocol.follows_call True.intro ?_)
    rintro _ _ ⟨⟨⟩, -, rfl⟩
    refine Protocol.follows_bind.mpr (Protocol.follows_mono ?_
      (links_follow (findPlace_links rounds node) chunkNo node codes))
    rintro place _ rfl
    refine Protocol.follows_bind.mpr (Protocol.follows_mono ?_
      (links_follow (insertAt_links place node) chunkNo node codes))
    rintro ⟨⟩ _ rfl
    refine ⟨True.intro, ?_⟩
    rintro _ _ ⟨⟨⟩, -, rfl⟩
    exact rfl
  | version2 =>
    refine Protocol.follows_call True.intro ?_
    rintro index _ rfl
    refine ⟨True.intro, ?_⟩
    rintro ⟨⟩ _ rfl
    exact rfl
  | version3 =>
    refine Protocol.follows_call rfl ?_
    rintro ⟨⟩ _ rfl
    refine Protocol.follows_call True.intro ?_
    rintro index _ rfl
    refine Protocol.follows_call True.intro ?_
    rintro ⟨⟩ _ rfl
    refine Protocol.follows_call rfl ?_
    rintro ⟨⟩ _ rfl
    refine ⟨True.intro, ?_⟩
    rintro ⟨⟩ _ rfl
    exact rfl

theorem codesText_range (codes : Nat → Code) (count : Nat) :
    codesText ((List.range (count + 1)).map codes) = codesText ((List.range count).map codes) ++ codeText (codes count) := by
  rw [List.range_succ, List.map_append, codesText, List.flatMap_append]
  simp [codesText]

theorem writeResult_follows (file : OutFile) (chunkNo node : Nat) (codes : Nat → Code)
    (printed : OutFile → List UInt8) : (writingOrder n version string).Follows
      (fun _ phase => phase = .quoting chunkNo node codes
        (say printed file ((resultRecord string chunkNo codes).printed version string file)))
      (writeResult version file string chunkNo node (chunkSize string chunkNo))
      (.quoting chunkNo node codes printed) := by
  refine Protocol.follows_call True.intro ?_
  rintro ⟨⟩ _ rfl
  refine Protocol.follows_bind.mpr (Protocol.follows_mono ?_
    (@Protocol.follows_forFrom _ _ _ _ Empty (writingOrder n version string) _ _
      (fun i _ phase => phase = .quoting chunkNo node codes (say printed file
        (resultHeader (quote version file string chunkNo (chunkSize string chunkNo)) ++
          codesText ((List.range i).map codes))))
      (fun _ _ => True) (chunkSize string chunkNo) 0 () ?_ (by simp [codesText])))
  · rintro (_ | impossible) phase after
    · obtain rfl := after
      refine ⟨True.intro, ?_⟩
      rintro ⟨⟩ _ rfl
      rw [say_say, Nat.zero_add]
      simp only [resultRecord, Record.spelled, List.length_map, List.length_range]
      exact rfl
    · exact impossible.elim
  · rintro i ⟨⟩ _ - - rfl
    refine Protocol.follows_call rfl ?_
    rintro _ _ ⟨rfl, rfl⟩
    refine Protocol.follows_call True.intro ?_
    rintro ⟨⟩ _ rfl
    rw [say_say, List.append_assoc, ← codesText_range]
    exact rfl

theorem writeResultLog_follows (chunkNo node : Nat) (codes : Nat → Code) :
    (writingOrder n version string).Follows (fun _ phase => phase = .idle)
      (writeResultLog version true string chunkNo node (chunkSize string chunkNo))
      (.stored chunkNo node codes) := by
  refine @writing_follows n version string _ (.stored chunkNo node codes)
    (.quoting chunkNo node codes nothing) .idle
    (fun notThird => ⟨notThird, fun _ moved => moved⟩) (fun third => ⟨third, fun _ moved => moved⟩) ?_
  refine Protocol.follows_bind.mpr (Protocol.follows_mono ?_ (writeResult_follows .stdout chunkNo node codes nothing))
  rintro ⟨⟩ _ rfl
  refine Protocol.follows_mono ?_ (writeResult_follows .outputFile chunkNo node codes _)
  rintro ⟨⟩ _ rfl
  have tells : Tells version string (resultRecord string chunkNo codes) _ := tells_both rfl rfl
  exact ⟨fun notThird => ⟨⟨notThird, tells⟩, fun _ moved => moved⟩,
    fun third => ⟨⟨third, tells⟩, fun _ moved => moved⟩⟩

theorem encoderRound_follows (noTerminator : 0 ∉ string) : (writingOrder n version string).Follows
    (fun flow phase => match flow with
      | .next _ => phase = .idle
      | .exit _ => ∃ chunkNo, maxChunkNo string ≤ chunkNo ∧ phase = .taken chunkNo)
    (encoderRound version string true) .idle := by
  refine Protocol.follows_bind.mpr (Protocol.follows_mono ?_ getNextChunkNo_follows)
  rintro chunkNo _ rfl
  split
  · rename_i beyond
    exact ⟨chunkNo, Nat.le_of_not_lt beyond, rfl⟩
  · rename_i below
    have inside := Decidable.not_not.mp below
    refine Protocol.follows_bind.mpr (Protocol.follows_mono ?_ (writeNewChunkLog_follows inside))
    rintro ⟨⟩ _ rfl
    refine Protocol.follows_call True.intro ?_
    rintro node _ rfl
    refine Protocol.follows_bind.mpr (Protocol.follows_mono ?_ (encodeChunk_follows noTerminator inside node))
    rintro _ _ ⟨rfl, codes, rfl⟩
    refine Protocol.follows_bind.mpr (Protocol.follows_mono ?_ (storeResult_follows _ chunkNo node codes))
    rintro ⟨⟩ _ rfl
    refine Protocol.follows_bind.mpr (Protocol.follows_mono ?_ (writeResultLog_follows chunkNo node codes))
    rintro ⟨⟩ _ rfl
    exact rfl

theorem encoder_follows (noTerminator : 0 ∉ string) : (writingOrder n version string).Follows
    (fun _ phase => phase = .ended) (encoder version string true) .idle := by
  refine Protocol.follows_bind.mpr (Protocol.follows_mono ?_
    (@Protocol.follows_forFrom _ _ _ _ _ (writingOrder n version string) .idle _
      (fun _ _ phase => phase = .idle)
      (fun _ phase => ∃ chunkNo, maxChunkNo string ≤ chunkNo ∧ phase = .taken chunkNo)
      (Ihw4.rounds string) 0 () ?_ rfl))
  · rintro (_ | _) phase after
    · obtain rfl := after
      exact ⟨True.intro, fun answer => answer.elim⟩
    · obtain ⟨chunkNo, beyond, rfl⟩ := after
      refine ⟨beyond, ?_⟩
      rintro ⟨⟩ _ rfl
      exact rfl
  · rintro i ⟨⟩ _ - - rfl
    refine Protocol.follows_mono ?_ (encoderRound_follows noTerminator)
    rintro (_ | _) phase after
    · exact after
    · exact after

/-- The codes of a node up to the first that is `NO_CODE`. -/
def nodeCodes (codes : Nat → Code) : List Code := ((List.range encodeChunkSize).map codes).takeWhile (· ≠ noCode)

def listCodes (memory : Memory) : Nat → Option Nat → List Code
  | 0, _ | _ + 1, none => []
  | rounds + 1, some node =>
    nodeCodes (memory.encodedString node) ++ listCodes memory rounds (memory.links.next node)

def resultCodes (memory : Memory) (i : Nat) : List Code :=
  match memory.resultsArray i with
  | none => []
  | some node => nodeCodes (memory.encodedString node)

variable {memory : Memory} {printed : OutFile → List UInt8}

theorem codesText_append (first second : List Code) :
    codesText (first ++ second) = codesText first ++ codesText second := List.flatMap_append

theorem printChunk_follows (file : OutFile) (node : Nat) : (writingOrder n version string).Follows
    (fun _ phase => phase = .finishing memory
      (say printed file (codesText (nodeCodes (memory.encodedString node)))))
    (common (printChunk file node)) (.finishing memory printed) := by
  refine Protocol.follows_lift.mpr (Protocol.follows_bind.mpr (Protocol.follows_mono ?_
    (@Protocol.follows_forFrom _ _ _ _ _ _ (Phase.finishing memory printed) _
      (fun i _ phase => (∀ j, j < i → memory.encodedString node j ≠ noCode) ∧ phase = .finishing memory
        (say printed file (codesText ((List.range i).map (memory.encodedString node)))))
      (fun _ phase => phase = .finishing memory
        (say printed file (codesText (nodeCodes (memory.encodedString node)))))
      encodeChunkSize 0 () ?_ ⟨by simp, by simp [codesText]⟩)))
  · rintro (_ | _) phase after
    · obtain ⟨nonzero, rfl⟩ := after
      rw [Nat.zero_add] at nonzero ⊢
      rw [nodeCodes, takeWhile_range (Nat.le_refl _) nonzero fun beyond => absurd beyond (Nat.lt_irrefl _)]
      exact rfl
    · exact after
  · rintro i ⟨⟩ _ - bound ⟨nonzero, rfl⟩
    rw [Nat.zero_add] at bound
    refine Protocol.follows_call True.intro ?_
    rintro _ _ ⟨_, rfl, rfl, rfl⟩
    split
    · rename_i ended
      rw [nodeCodes, takeWhile_range (Nat.le_of_lt bound) nonzero fun _ => ended]
      exact rfl
    · rename_i present
      refine Protocol.follows_call True.intro ?_
      rintro _ _ ⟨_, rfl, rfl, rfl⟩
      refine Protocol.follows_call True.intro ?_
      rintro _ _ ⟨⟨⟩, -, rfl⟩
      refine ⟨fun j before => ?_, ?_⟩
      · rcases Nat.lt_succ_iff_lt_or_eq.mp before with earlier | rfl
        · exact nonzero j earlier
        · exact present
      · rw [say_say, ← codesText_range]

theorem printTo_follows (rounds : Nat) (file : OutFile) : (writingOrder n version string).Follows
    (fun _ phase => phase = .finishing memory
      (say printed file (codesText (listCodes memory rounds memory.links.head))))
    (common (printTo rounds file)) (.finishing memory printed) := by
  refine Protocol.follows_lift.mpr (Protocol.follows_call True.intro ?_)
  rintro _ _ ⟨_, rfl, rfl, rfl⟩
  refine Protocol.follows_bind.mpr (Protocol.follows_mono ?_
    (@Protocol.follows_forFrom _ _ _ _ _ _ (Phase.finishing memory printed) _
      (fun i node phase => ∃ before, phase = .finishing memory (say printed file (codesText before)) ∧
        before ++ listCodes memory (rounds - i) node = listCodes memory rounds memory.links.head)
      (fun _ phase => phase = .finishing memory
        (say printed file (codesText (listCodes memory rounds memory.links.head))))
      rounds 0 memory.links.head ?_ ⟨[], by simp [codesText], rfl⟩))
  · rintro (_ | _) phase after
    · obtain ⟨before, rfl, -⟩ := after
      exact ⟨True.intro, fun answer => answer.elim⟩
    · exact after
  · rintro i node _ - below ⟨before, rfl, whole⟩
    obtain ⟨rest, more⟩ : ∃ rest, rounds - i = rest + 1 := ⟨rounds - i - 1, by omega⟩
    rw [more] at whole
    cases node with
    | none =>
      rw [listCodes, List.append_nil] at whole
      rw [whole]
      exact rfl
    | some node =>
      refine Protocol.follows_bind.mpr (Protocol.follows_mono ?_
        (Protocol.follows_lift.mp (printChunk_follows file node)))
      rintro ⟨⟩ _ rfl
      refine Protocol.follows_call True.intro ?_
      rintro _ _ ⟨_, rfl, rfl, rfl⟩
      refine ⟨before ++ nodeCodes (memory.encodedString node), ?_, ?_⟩
      · rw [say_say, codesText_append]
      · have fewer : rounds - (i + 1) = rest := by omega
        rw [fewer, List.append_assoc]
        exact whole

theorem printResults_follows (size : Nat) (file : OutFile) : (writingOrder n version string).Follows
    (fun _ phase => phase = .finishing memory
      (say printed file (codesText ((List.range size).flatMap (resultCodes memory)))))
    (printResults size file) (.finishing memory printed) := by
  refine Protocol.follows_bind.mpr (Protocol.follows_mono ?_
    (@Protocol.follows_forFrom _ _ _ _ Empty (writingOrder n version string) (Phase.finishing memory printed) _
      (fun i _ phase => phase = .finishing memory
        (say printed file (codesText ((List.range i).flatMap (resultCodes memory)))))
      (fun _ _ => True) size 0 () ?_ (by simp [codesText])))
  · rintro (_ | impossible) phase after
    · rw [Nat.zero_add] at after
      exact after
    · exact impossible.elim
  · rintro i ⟨⟩ _ - - rfl
    refine Protocol.follows_call True.intro ?_
    rintro _ _ ⟨rfl, rfl⟩
    have further : ∀ codes, resultCodes memory i = codes →
        codesText ((List.range (i + 1)).flatMap (resultCodes memory)) =
          codesText ((List.range i).flatMap (resultCodes memory)) ++ codesText codes := fun codes same => by
      rw [List.range_succ, List.flatMap_append, codesText_append, ← same]
      simp
    cases known : memory.resultsArray i with
    | none =>
      rw [further [] (by rw [resultCodes, known])]
      refine Protocol.follows_pure.mpr ?_
      simp [codesText]
    | some node =>
      refine Protocol.follows_bind.mpr (Protocol.follows_mono ?_ (printChunk_follows file node))
      rintro ⟨⟩ _ rfl
      rw [say_say, further _ (by rw [resultCodes, known])]
      exact rfl

theorem printEncodingResults_follows {printCodes : OutFile → EncoderProgram n Unit} (codes : List Code)
    (each : ∀ file printed, (writingOrder n version string).Follows
      (fun _ phase => phase = .finishing memory (say printed file (codesText codes)))
      (printCodes file) (.finishing memory printed)) :
    (writingOrder n version string).Follows
      (fun _ phase => ∃ printed, phase = .finishing memory printed ∧ Tells version string (.whole codes) printed)
      (printEncodingResults string printCodes (filesOf true)) (.finishing memory nothing) := by
  have record : ∀ (file : OutFile) printed (rest : EncoderProgram n Unit) post,
      (writingOrder n version string).Follows post rest (.finishing memory
        (say printed file ((Record.whole codes).printed version string file))) →
      (writingOrder n version string).Follows post (do
        Call.make (.printText file (wholeHeader string))
        printCodes file
        Call.make (.printText file (text "\n"))
        rest) (.finishing memory printed) := fun file printed rest post follows => by
    refine Protocol.follows_call True.intro ?_
    rintro ⟨⟩ _ rfl
    refine Protocol.follows_bind.mpr (Protocol.follows_mono ?_ (each file _))
    rintro ⟨⟩ _ rfl
    refine Protocol.follows_call True.intro ?_
    rintro ⟨⟩ _ rfl
    rw [say_say, say_say, ← List.append_assoc]
    exact follows
  exact record .stdout nothing _ _ (record .outputFile _ _ _ ⟨_, rfl, tells_both rfl rfl⟩)

def Finished (version : Version) (string : List UInt8) (phase : Phase) : Prop :=
  ∃ memory codes printed, phase = .finishing memory printed ∧ Tells version string (.whole codes) printed

theorem printAll_follows (memory : Memory) : (writingOrder n version string).Follows
    (fun _ => Finished version string) (printAll version string true) (.finishing memory nothing) := by
  have finished : ∀ {memory : Memory} {codes : List Code} {phase : Phase},
      (∃ printed, phase = .finishing memory printed ∧ Tells version string (.whole codes) printed) →
        Finished version string phase := fun ⟨printed, same, tells⟩ => ⟨_, _, printed, same, tells⟩
  have sorts : ∀ (rest : EncoderProgram n Unit) post, (∀ memory,
      (writingOrder n version string).Follows post rest (.finishing memory nothing)) →
      (writingOrder n version string).Follows post (sortResults >>= fun _ => rest) (.finishing memory nothing) :=
    fun rest post follows => by
      refine Protocol.follows_bind.mpr (Protocol.follows_call True.intro ?_)
      rintro _ _ ⟨rfl, rfl⟩
      refine Protocol.follows_call rfl ?_
      rintro sorted _ rfl
      exact follows _
  cases version with
  | version1 =>
    exact Protocol.follows_mono (fun _ _ => finished)
      (printEncodingResults_follows _ fun file printed => printTo_follows _ file)
  | version2 =>
    refine sorts _ _ fun memory => Protocol.follows_mono (fun _ _ => finished)
      (printEncodingResults_follows ((List.range memory.arraySize).flatMap (resultCodes memory)) fun file printed => ?_)
    refine Protocol.follows_call True.intro ?_
    rintro _ _ ⟨rfl, rfl⟩
    exact printResults_follows memory.arraySize file
  | version3 =>
    refine sorts _ _ fun memory => Protocol.follows_call True.intro ?_
    rintro _ _ ⟨rfl, rfl⟩
    exact Protocol.follows_mono (fun _ _ => finished)
      (printEncodingResults_follows _ fun file printed => printResults_follows memory.arraySize file)

def initialPhase (n : Nat) : Thread n → Phase
  | .encoder _ => .idle
  | .main => if n = 0 then .finishing ⟨.empty, fun _ _ => 0, 0, fun _ => none⟩ nothing else .joining 0

theorem joinThreads_follows {count : Nat} (bound : count ≤ n) : (writingOrder n version string).Follows
    (fun _ phase => if count = n then ∃ memory, phase = .finishing memory nothing else phase = .joining count)
    (common (joinThreads n count)) (initialPhase n .main) := by
  induction count with
  | zero =>
    refine Protocol.follows_pure.mpr ?_
    rw [initialPhase]
    rcases Nat.eq_zero_or_pos n with rfl | some
    · exact ⟨_, rfl⟩
    · rw [if_neg (Nat.ne_of_lt some), if_neg (Nat.ne_of_gt some)]
  | succ count ih =>
    refine Protocol.follows_lift.mpr (Protocol.follows_bind.mpr (Protocol.follows_mono ?_
      (Protocol.follows_lift.mp (ih (Nat.le_of_succ_le bound)))))
    rintro ⟨⟩ phase before
    rw [if_neg (Nat.ne_of_lt bound)] at before
    subst before
    have inside : count < n := bound
    rw [dif_pos inside]
    refine ⟨rfl, ?_⟩
    rintro _ phase' ⟨⟨⟩, -, moved⟩
    exact moved

theorem main_follows : (writingOrder n version string).Follows (fun _ => Finished version string)
    (main version string true) (initialPhase n .main) := by
  refine Protocol.follows_bind.mpr (Protocol.follows_mono ?_ (joinThreads_follows (Nat.le_refl n)))
  rintro ⟨⟩ phase joined
  rw [if_pos rfl] at joined
  obtain ⟨memory, rfl⟩ := joined
  exact printAll_follows memory

end

end ArchCompSystems.Ihw4.Versions
