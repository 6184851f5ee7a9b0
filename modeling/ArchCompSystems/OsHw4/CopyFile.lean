import ArchCompSystems.Library.Files
import ArchCompSystems.Library.Machine

namespace ArchCompSystems.OsHw4

open Library Library.Program

/-- `src_filepath` and `dst_filepath`. -/
inductive Filepath where
  | src
  | dst

/-- The calls of `copy_file`. `goesOn` stands for a loop that does not end within its rounds. -/
inductive Call where
  | openSource
  | fstat
  | openDestination (mode : Nat)
  | read (size : Nat)
  | write (bytes : List UInt8)
  | close (filepath : Filepath)
  | handleFileError (filepath : Filepath)
  | handleNotRegularFile (filepath : Filepath)
  | goesOn

@[reducible] def Call.Answer : Call → Type
  | .openSource | .openDestination _ => Int
  | .fstat | .write _ => Option Nat
  | .read _ => Option (List UInt8)
  | .goesOn => Empty
  | .close _ | .handleFileError _ | .handleNotRegularFile _ => Unit

abbrev CopyProgram := Program Call Call.Answer

def Call.make (call : Call) : CopyProgram call.Answer := request call

instance : IsEmpty (Call.Answer .goesOn) := inferInstanceAs (IsEmpty Empty)

/-- `struct descriptors_pair`. -/
structure DescriptorsPair where
  dstFd : Int
  srcFd : Int

def sIsReg (mode : Nat) : Bool := mode &&& 0o170000 == 0o100000

def modeMask : Nat := 0o777

def maxReadSize : Nat := 8192

def stderrFileno : Int := 2

/-- A round of the loop of `copy_file_impl`. -/
def copyRound (dp : DescriptorsPair) : CopyProgram (LoopFlow Unit DescriptorsPair) := do
  match ← Call.make (.read maxReadSize) with
  | none =>
    Call.make (.handleFileError .src)
    return .exit dp
  | some copyBuffer =>
    match ← Call.make (.write copyBuffer) with
    | none =>
      Call.make (.handleFileError .dst)
      return .exit dp
    | some _ => return if copyBuffer.length = maxReadSize then .next () else .exit dp

/-- `do { ... } while (real_read_size == MAX_READ_SIZE)` -/
def copyLoop (rounds : Nat) (dp : DescriptorsPair) : CopyProgram DescriptorsPair :=
  Program.loop .goesOn rounds () fun () => copyRound dp

def copyFileImpl (rounds : Nat) : CopyProgram DescriptorsPair := do
  let srcFd ← Call.openSource.make
  if srcFd < 0 then
    Call.make (.handleFileError .src)
    return ⟨-1, srcFd⟩
  match ← Call.fstat.make with
  | none =>
    Call.make (.handleFileError .src)
    return ⟨-1, srcFd⟩
  | some stMode =>
    if !sIsReg stMode then
      Call.make (.handleNotRegularFile .src)
      return ⟨-1, srcFd⟩
    let dstFd ← Call.make (.openDestination (stMode &&& modeMask))
    if dstFd < 0 then
      Call.make (.handleFileError .dst)
      return ⟨dstFd, srcFd⟩
    copyLoop rounds ⟨dstFd, srcFd⟩

def closeFiles (fp : DescriptorsPair) : CopyProgram Unit := do
  if fp.srcFd > stderrFileno then
    Call.make (.close .src)
  if fp.dstFd > stderrFileno then
    Call.make (.close .dst)

def copyFile (rounds : Nat) : CopyProgram Unit := do
  let fp ← copyFileImpl rounds
  closeFiles fp

/-- The two files, and how many reads and writes were made. -/
structure Files where
  source : OpenFile UInt8
  /-- `st_mode` of the source. -/
  mode : Nat
  destination : Option (OpenFile UInt8)
  reads : Nat
  writes : Nat

/-- The answers that calls can get when a read returns, and a write accepts, the portions of a
    schedule. A read returns nothing only at the end of the file. Every call can fail. -/
def perform (reads writes : Portions) : (c : Call) → c.Answer → Files → Option Files
  | .openSource, _, files => some files
  | .fstat, none, files => some files
  | .fstat, some stMode, files => if stMode = files.mode then some files else none
  | .openDestination _, dstFd, files =>
    if dstFd < 0 then some files
    else some { files with destination := some (.create (files.destination.map OpenFile.content)) }
  | .read _, none, files => some files
  | .read size, some bytes, files =>
    if bytes = files.source.unread.take (min size (reads.most files.reads)) then
      some { files with source := files.source.read bytes.length, reads := files.reads + 1 }
    else none
  | .write _, none, files => some files
  | .write bytes, some count, files =>
    if count = min bytes.length (writes.most files.writes) then
      files.destination.map fun file =>
        { files with destination := some (file.write (bytes.take count)), writes := files.writes + 1 }
    else none
  | .close _, _, files => some files
  | .handleFileError _, _, files => some files
  | .handleNotRegularFile _, _, files => some files

def copying (reads writes : Portions) : Machine Unit Call Call.Answer Files where
  perform _ := perform reads writes
  cut _ _ := some

/-- Before `copy_file`; the destination is absent or has an old content. -/
def before (source : List UInt8) (mode : Nat) (old : Option (List UInt8)) : Files where
  source := ⟨source, 0⟩
  mode
  destination := old.map fun content => ⟨content, 0⟩
  reads := 0
  writes := 0

def Call.Reports : Call → Prop
  | .handleFileError _ | .handleNotRegularFile _ => True
  | _ => False

def Quiet (history : List (Event Call.Answer)) : Prop := ∀ event ∈ history, ¬ event.1.Reports

theorem Quiet.append {history later : List (Event Call.Answer)} (quiet : Quiet history) (quiet' : Quiet later) :
    Quiet (history ++ later) := by
  intro event member
  rcases List.mem_append.mp member with member | member
  · exact quiet event member
  · exact quiet' event member

/-- With this schedule `copy_file` ends, and it copies a regular file when it reports no error. -/
structure Copies (reads writes : Portions) (source : List UInt8) (old : Option (List UInt8)) : Prop where
  ends : ∀ mode, (copying reads writes).Avoids () (· = .goesOn) (copyFile (source.length / maxReadSize + 1))
    (before source mode old)
  copied : ∀ mode, sIsReg mode → ∀ rounds history files,
    (copying reads writes).Runs () (copyFile rounds) (before source mode old) history () files →
    Quiet history → files.destination.map OpenFile.content = some source ∧ files.source.content = source

/-- The length of block `k` of a file that is cut into blocks of `MAX_READ_SIZE`. -/
def blockLength (length k : Nat) : Nat := min maxReadSize (length - maxReadSize * k)

/-- Every call takes its whole block. -/
def WholeBlocks (reads writes : Portions) (length : Nat) : Prop :=
  ∀ k ≤ length / maxReadSize, blockLength length k ≤ reads.most k ∧ blockLength length k ≤ writes.most k

section

variable {reads writes : Portions} {files : Files} {file : OpenFile UInt8} {dp : DescriptorsPair}

def Files.portion (reads : Portions) (files : Files) : List UInt8 :=
  files.source.unread.take (min maxReadSize (reads.most files.reads))

def Files.accepted (writes : Portions) (files : Files) (bytes : List UInt8) : List UInt8 :=
  bytes.take (min bytes.length (writes.most files.writes))

def Files.afterRound (reads writes : Portions) (files : Files) (file : OpenFile UInt8) : Files :=
  { files with
    source := files.source.read (files.portion reads).length
    destination := some (file.write (files.accepted writes (files.portion reads)))
    reads := files.reads + 1
    writes := files.writes + 1 }

def Files.flow (reads : Portions) (files : Files) (dp : DescriptorsPair) : LoopFlow Unit DescriptorsPair :=
  if (files.portion reads).length = maxReadSize then .next () else .exit dp

theorem wp_copyRound {post : List (Event Call.Answer) → LoopFlow Unit DescriptorsPair → Files → Prop}
    (opened : files.destination = some file)
    (reports : ∀ history event files', event.1.Reports → event ∈ history → post history (.exit dp) files')
    (copies : ∀ history, post history (files.flow reads dp) (files.afterRound reads writes file)) :
    (copying reads writes).wp () (copyRound dp) post files := by
  rintro (_ | bytes) files' performed
  · intro _ files'' _
    exact reports _ ⟨.handleFileError .src, ()⟩ _ True.intro (by simp)
  · obtain ⟨rfl, read⟩ := Option.ite_none_right_eq_some.mp performed
    obtain ⟨⟩ := read
    rintro (_ | count) files' performed
    · intro _ files'' _
      exact reports _ ⟨.handleFileError .dst, ()⟩ _ True.intro (by simp)
    · obtain ⟨rfl, written⟩ := Option.ite_none_right_eq_some.mp performed
      rw [opened] at written
      obtain ⟨⟩ := written
      exact copies _

theorem Call.make_ends {call : Call} (other : call ≠ .goesOn) : call.make.Calls (· ≠ .goesOn) :=
  (calls_request _ call).mpr other

theorem copyRound_calls (dp : DescriptorsPair) : (copyRound dp).Calls (· ≠ .goesOn) := by
  apply calls_bind (Call.make_ends (by rintro ⟨⟩))
  rintro (_ | copyBuffer)
  · exact calls_bind (Call.make_ends (by rintro ⟨⟩)) fun _ => True.intro
  · apply calls_bind (Call.make_ends (by rintro ⟨⟩))
    rintro (_ | count)
    · exact calls_bind (Call.make_ends (by rintro ⟨⟩)) fun _ => True.intro
    · exact True.intro

theorem length_portion (reads : Portions) (files : Files) :
    (files.portion reads).length = min (min maxReadSize (reads.most files.reads)) files.source.unread.length :=
  List.length_take ..

theorem unread_afterRound : (files.afterRound reads writes file).source.unread =
    files.source.unread.drop (files.portion reads).length :=
  OpenFile.unread_read ..

theorem copyLoop_ends {rounds : Nat} (opened : files.destination = some file)
    (enough : files.source.unread.length / maxReadSize < rounds) :
    (copying reads writes).Avoids () (· = .goesOn) (copyLoop rounds dp) files := by
  induction rounds generalizing files file with
  | zero => cases enough
  | succ rounds ih =>
    rw [copyLoop, loop_succ]
    apply Machine.avoids_bind (Machine.avoids_of_calls (copyRound_calls dp) _)
    apply wp_copyRound opened
    · intro _ _ _ _ _
      exact True.intro
    · intro _
      unfold Files.flow
      split_ifs with full
      · apply ih rfl
        rw [unread_afterRound, List.length_drop, full]
        have size := length_portion reads files
        unfold maxReadSize at *
        omega
      · exact True.intro

def block (text : List UInt8) (k : Nat) : List UInt8 := (text.drop (maxReadSize * k)).take maxReadSize

theorem length_block (text : List UInt8) (k : Nat) : (block text k).length = blockLength text.length k := by
  rw [block, List.length_take, List.length_drop]
  rfl

theorem take_append_block (text : List UInt8) (k : Nat) :
    text.take (maxReadSize * k) ++ block text k = text.take (maxReadSize * (k + 1)) := by
  rw [Nat.mul_succ, List.take_add]
  rfl

variable {text : List UInt8} {old : Option (List UInt8)} {k : Nat}

/-- The first `k` blocks of the source are copied. -/
structure Copying (text : List UInt8) (old : Option (List UInt8)) (k : Nat) (files : Files)
    (file : OpenFile UInt8) : Prop where
  content : files.source.content = text
  unread : files.source.unread = text.drop (maxReadSize * k)
  destination : files.destination = some file
  reads : files.reads = k
  writes : files.writes = k
  inside : maxReadSize * k ≤ text.length
  written : file.Written old (text.take (maxReadSize * k))

theorem Copying.portion (copying : Copying text old k files file)
    (whole : blockLength text.length k ≤ reads.most k) : files.portion reads = block text k := by
  rw [Files.portion, block, copying.unread, copying.reads, List.take_eq_take_iff, List.length_drop]
  unfold blockLength at whole
  omega

theorem Copying.afterRound (copying : Copying text old k files file) (whole : WholeBlocks reads writes text.length) :
    (files.afterRound reads writes file).source.content = text ∧
    (files.afterRound reads writes file).destination = some (file.write (block text k)) ∧
      (file.write (block text k)).Written old (text.take (maxReadSize * (k + 1))) := by
  have blocks : k ≤ text.length / maxReadSize := by
    apply (Nat.le_div_iff_mul_le (by decide)).mpr
    rw [Nat.mul_comm]
    exact copying.inside
  have portion := copying.portion (whole k blocks).1
  refine ⟨copying.content, ?_, ?_⟩
  · have accepted : files.accepted writes (block text k) = block text k := by
      apply List.take_of_length_le
      rw [copying.writes, length_block]
      have enough := (whole k blocks).2
      omega
    rw [Files.afterRound, portion, accepted]
  · rw [← take_append_block]
    exact copying.written.write _

theorem wp_copyLoop {rounds : Nat} (shorter : (old.getD []).length ≤ text.length)
    (whole : WholeBlocks reads writes text.length) (started : Copying text old k files file) :
    (copying reads writes).wp () (copyLoop rounds dp) (fun history _ files' =>
      Quiet history → files'.destination.map OpenFile.content = some text ∧ files'.source.content = text) files := by
  induction rounds generalizing files file k with
  | zero => exact fun answer => isEmptyElim answer
  | succ rounds ih =>
    have blocks : k ≤ text.length / maxReadSize := by
      apply (Nat.le_div_iff_mul_le (by decide)).mpr
      rw [Nat.mul_comm]
      exact started.inside
    have portion := started.portion (whole k blocks).1
    obtain ⟨content, destination, written⟩ := started.afterRound whole
    rw [copyLoop, loop_succ]
    apply Machine.wp_bind.mpr
    apply wp_copyRound started.destination
    · intro history event _ reports member quiet
      rw [List.append_nil] at quiet
      exact absurd reports (quiet event member)
    · intro history
      unfold Files.flow
      rw [portion, length_block]
      split_ifs with full
      · have next : Copying text old (k + 1) (files.afterRound reads writes file)
            (file.write (block text k)) := by
          unfold blockLength at full
          constructor
          · exact content
          · rw [unread_afterRound, started.unread, portion, length_block, List.drop_drop]
            congr 1
            unfold blockLength
            rw [full, Nat.mul_succ]
          · exact destination
          · exact congrArg (· + 1) started.reads
          · exact congrArg (· + 1) started.writes
          · have inside := started.inside
            rw [Nat.mul_succ]
            omega
          · exact written
        exact Machine.wp_mono (fun later _ files' after quiet => after fun event member =>
          quiet event (List.mem_append_right _ member)) (ih next)
      · intro _
        have all : text.length ≤ maxReadSize * (k + 1) := by
          unfold blockLength at full
          rw [Nat.mul_succ]
          omega
        rw [List.take_of_length_le all] at written
        rw [destination, Option.map_some, written.content, List.drop_eq_nil_of_le shorter, List.append_nil]
        exact ⟨rfl, content⟩

theorem run_copyRound (opened : files.destination = some file) : ∃ history, Quiet history ∧
    (copying reads writes).Runs () (copyRound dp) files history (files.flow reads dp)
      (files.afterRound reads writes file) := by
  refine ⟨[⟨.read maxReadSize, some (files.portion reads)⟩, ⟨.write (files.portion reads),
    some (min (files.portion reads).length (writes.most files.writes))⟩], ?_, ?_⟩
  · intro event member
    simp only [List.mem_cons, List.not_mem_nil, or_false] at member
    rcases member with rfl | rfl <;> rintro ⟨⟩
  · apply Machine.Runs.call (if_pos rfl)
    exact Machine.Runs.call ((if_pos rfl).trans (congrArg (Option.map _) opened)) (.done _ _)

/-- Before round `k` of the copying of zeros over something else. -/
structure Copied (length k count : Nat) (old : Option (List UInt8)) (files : Files) (file : OpenFile UInt8) :
    Prop where
  unread : files.source.unread = List.replicate (length - maxReadSize * k) 0
  inside : maxReadSize * k ≤ length
  destination : files.destination = some file
  reads : files.reads = k
  writes : files.writes = k
  written : file.Written old (List.replicate count 0)
  bound : count ≤ maxReadSize * k

theorem exists_run_copyLoop {length count rounds : Nat} (copied : Copied length k count old files file)
    (enough : (length - maxReadSize * k) / maxReadSize < rounds) :
    ∃ history result files' file' total, Quiet history ∧
      (copying reads writes).Runs () (copyLoop rounds dp) files history result files' ∧
      files'.destination = some file' ∧ file'.Written old (List.replicate total 0) ∧ total ≤ length ∧
      (total = length → count = maxReadSize * k ∧ ∀ j ≤ length / maxReadSize, k ≤ j →
        blockLength length j ≤ reads.most j ∧ blockLength length j ≤ writes.most j) := by
  induction rounds generalizing files file k count with
  | zero => cases enough
  | succ rounds ih =>
    obtain ⟨history, quiet, run⟩ := @run_copyRound reads writes files file dp copied.destination
    have portion : files.portion reads =
        List.replicate (min (min maxReadSize (reads.most k)) (length - maxReadSize * k)) 0 := by
      rw [Files.portion, copied.unread, copied.reads, List.take_replicate]
    have accepted : files.accepted writes (files.portion reads) =
        List.replicate (min (files.portion reads).length (writes.most k)) 0 := by
      rw [Files.accepted, copied.writes, portion, List.take_replicate, List.length_replicate]
      congr 1
      omega
    have written := copied.written.write (files.accepted writes (files.portion reads))
    rw [accepted, List.replicate_append_replicate, ← accepted] at written
    have size : (files.portion reads).length =
        min (min maxReadSize (reads.most k)) (length - maxReadSize * k) := by
      rw [portion, List.length_replicate]
    have inside := copied.inside
    have bound := copied.bound
    rw [copyLoop, loop_succ]
    by_cases full : (files.portion reads).length = maxReadSize
    · have next : Copied length (k + 1) (count + min (files.portion reads).length (writes.most k)) old
          (files.afterRound reads writes file)
          (file.write (files.accepted writes (files.portion reads))) := by
        constructor
        · rw [unread_afterRound, copied.unread, full, List.drop_replicate, Nat.sub_sub, Nat.mul_succ]
        · rw [Nat.mul_succ]
          omega
        · rfl
        · exact congrArg (· + 1) copied.reads
        · exact congrArg (· + 1) copied.writes
        · exact written
        · rw [Nat.mul_succ]
          omega
      obtain ⟨later, result, files', file', total, quiet', run', opened, written', part, only⟩ := ih next (by
        rw [Nat.mul_succ]
        unfold maxReadSize at *
        omega)
      rw [Files.flow, if_pos full] at run
      refine ⟨history ++ later, result, files', file', total, quiet.append quiet', run.bind run', opened,
        written', part, fun all => ?_⟩
      obtain ⟨reached, rest⟩ := only all
      rw [Nat.mul_succ] at reached
      refine ⟨by omega, fun j upper lower => ?_⟩
      rcases Nat.eq_or_lt_of_le lower with rfl | less
      · unfold blockLength
        omega
      · exact rest j upper less
    · rw [Files.flow, if_neg full] at run
      refine ⟨history ++ [], _, _, _, _, quiet.append (by simp [Quiet]), run.bind (.done _ _), rfl, written,
        by omega, fun all => ⟨by omega, fun j upper lower => ?_⟩⟩
      have last : j = k := by
        unfold maxReadSize at *
        omega
      subst last
      unfold blockLength
      omega

theorem wp_closeFiles {post : List (Event Call.Answer) → Unit → Files → Prop} (fp : DescriptorsPair)
    (holds : ∀ history, post history () files) : (copying reads writes).wp () (closeFiles fp) post files := by
  unfold closeFiles
  split_ifs
  · rintro _ _ ⟨⟩ _ _ ⟨⟩
    exact holds _
  · rintro _ _ ⟨⟩
    exact holds _
  · rintro _ _ ⟨⟩
    exact holds _
  · exact holds _

def opened (text : List UInt8) (mode : Nat) (old : Option (List UInt8)) : Files :=
  { before text mode old with destination := some (.create old) }

theorem perform_openDestination {mode mode' : Nat} {dstFd : Int} {files' : Files} (valid : ¬ dstFd < 0) :
    (copying reads writes).perform () (.openDestination mode') dstFd (before text mode old) = some files' ↔
      files' = opened text mode old := by
  have same : (old.map fun content => (⟨content, 0⟩ : OpenFile UInt8)).map OpenFile.content = old := by
    rw [Option.map_map]
    exact Option.map_id_apply
  show (if dstFd < 0 then _ else some { before text mode old with
    destination := some (.create ((before text mode old).destination.map OpenFile.content)) }) = _ ↔ _
  rw [if_neg valid, before, same, Option.some_inj]
  exact eq_comm

/-- What holds after the loop, and when an error was reported, holds after `copy_file_impl`. -/
theorem wp_copyFileImpl {mode rounds : Nat} (regular : sIsReg mode)
    {post : List (Event Call.Answer) → DescriptorsPair → Files → Prop}
    (reports : ∀ history event dp files, event.1.Reports → event ∈ history → post history dp files)
    (loop : ∀ before dp, (copying reads writes).wp () (copyLoop rounds dp)
      (fun history => post (before ++ history)) (opened text mode old)) :
    (copying reads writes).wp () (copyFileImpl rounds) post (before text mode old) := by
  rintro srcFd _ ⟨⟩
  show (copying reads writes).wp () (if srcFd < 0 then _ else _) _ _
  split_ifs
  · intro _ files' _
    exact reports _ ⟨.handleFileError .src, ()⟩ _ _ True.intro (by simp)
  rintro (_ | stMode) files' performed
  · intro _ files' _
    exact reports _ ⟨.handleFileError .src, ()⟩ _ _ True.intro (by simp)
  obtain ⟨same, unchanged⟩ := Option.ite_none_right_eq_some.mp performed
  obtain ⟨⟩ := unchanged
  obtain rfl : stMode = mode := same
  show (copying reads writes).wp () (if !sIsReg stMode then _ else _) _ _
  rw [regular]
  rintro dstFd files' performed
  show (copying reads writes).wp () (if dstFd < 0 then _ else _) _ _
  split_ifs with invalid
  · intro _ files' _
    exact reports _ ⟨.handleFileError .dst, ()⟩ _ _ True.intro (by simp)
  · obtain rfl := (perform_openDestination invalid).mp performed
    exact loop [_, _, _] _

theorem copying_opened (text : List UInt8) (mode : Nat) (old : Option (List UInt8)) :
    Copying text old 0 (opened text mode old) (.create old) := by
  constructor <;> first | rfl | exact Nat.zero_le _ | exact OpenFile.written_create old

theorem closeFiles_calls (fp : DescriptorsPair) : (closeFiles fp).Calls (· ≠ .goesOn) := by
  unfold closeFiles
  split_ifs
  · exact calls_bind (Call.make_ends (by rintro ⟨⟩)) fun _ => Call.make_ends (by rintro ⟨⟩)
  · exact calls_bind (Call.make_ends (by rintro ⟨⟩)) fun _ => True.intro
  · exact Call.make_ends (by rintro ⟨⟩)
  · exact True.intro

theorem copyFile_ends (mode : Nat) : (copying reads writes).Avoids () (· = .goesOn)
    (copyFile (text.length / maxReadSize + 1)) (before text mode old) := by
  apply Machine.avoids_bind
  · refine ⟨by rintro ⟨⟩, ?_⟩
    rintro srcFd _ ⟨⟩
    show (copying reads writes).Avoids () _ (if srcFd < 0 then _ else _) _
    split_ifs
    · exact ⟨by rintro ⟨⟩, fun _ _ _ => True.intro⟩
    refine ⟨by rintro ⟨⟩, ?_⟩
    rintro (_ | stMode) files' performed
    · exact ⟨by rintro ⟨⟩, fun _ _ _ => True.intro⟩
    obtain ⟨same, unchanged⟩ := Option.ite_none_right_eq_some.mp performed
    obtain ⟨⟩ := unchanged
    show (copying reads writes).Avoids () _ (if !sIsReg stMode then _ else _) _
    split_ifs
    · exact ⟨by rintro ⟨⟩, fun _ _ _ => True.intro⟩
    refine ⟨by rintro ⟨⟩, ?_⟩
    rintro dstFd files' performed
    show (copying reads writes).Avoids () _ (if dstFd < 0 then _ else _) _
    split_ifs with invalid
    · exact ⟨by rintro ⟨⟩, fun _ _ _ => True.intro⟩
    · obtain rfl := (perform_openDestination invalid).mp performed
      apply copyLoop_ends rfl
      exact Nat.lt_succ_self _
  · exact Machine.wp_iff_runs.mpr fun _ fp files' _ => Machine.avoids_of_calls (closeFiles_calls fp) files'

theorem copyFile_copies (shorter : (old.getD []).length ≤ text.length)
    (whole : WholeBlocks reads writes text.length) : Copies reads writes text old := by
  refine ⟨copyFile_ends, fun mode regular rounds history files run => ?_⟩
  have holds : (copying reads writes).wp () (copyFile rounds) (fun history _ files => Quiet history →
      files.destination.map OpenFile.content = some text ∧ files.source.content = text)
      (before text mode old) := by
    apply Machine.wp_bind.mpr
    apply wp_copyFileImpl regular
    · intro history event fp files reports member
      apply wp_closeFiles fp
      exact fun later quiet => absurd reports (quiet event (List.mem_append_left _ member))
    · intro before fp
      apply Machine.wp_mono _ (wp_copyLoop shorter whole (copying_opened text mode old))
      intro history fp files copied
      apply wp_closeFiles fp
      exact fun later quiet => copied fun event member =>
        quiet event (List.mem_append_left _ (List.mem_append_right _ member))
  exact Machine.wp_iff_runs.mp holds history () files run

theorem run_closeFiles (fp : DescriptorsPair) (files : Files) : ∃ history, Quiet history ∧
    (copying reads writes).Runs () (closeFiles fp) files history () files := by
  have closes : ∀ history : List (Event Call.Answer), (∀ event ∈ history, ∃ filepath, event.1 = .close filepath) →
      Quiet history := by
    intro history each event member
    obtain ⟨filepath, same⟩ := each event member
    rw [same]
    rintro ⟨⟩
  unfold closeFiles
  split_ifs
  · exact ⟨[⟨.close .src, ()⟩, ⟨.close .dst, ()⟩], closes _ (by simp), .call rfl (.call rfl (.done _ _))⟩
  · exact ⟨[⟨.close .dst, ()⟩], closes _ (by simp), .call rfl (.done _ _)⟩
  · exact ⟨[⟨.close .src, ()⟩], closes _ (by simp), .call rfl (.done _ _)⟩
  · exact ⟨[], closes _ (by simp), .done _ _⟩

theorem run_copyFile {mode rounds : Nat} (regular : sIsReg mode) {history : List (Event Call.Answer)}
    {result : DescriptorsPair} {files' : Files} (quiet : Quiet history)
    (run : (copying reads writes).Runs () (copyLoop rounds ⟨4, 3⟩) (opened text mode old) history result files') :
    ∃ history', Quiet history' ∧
      (copying reads writes).Runs () (copyFile rounds) (before text mode old) history' () files' := by
  obtain ⟨later, quiet', closed⟩ := @run_closeFiles reads writes result files'
  have start : Quiet [⟨.openSource, (3 : Int)⟩, ⟨.fstat, some mode⟩, ⟨.openDestination (mode &&& modeMask), (4 : Int)⟩] := by
    intro event member
    simp only [List.mem_cons, List.not_mem_nil, or_false] at member
    rcases member with rfl | rfl | rfl <;> rintro ⟨⟩
  refine ⟨(_ ++ history) ++ later, (start.append quiet).append quiet', Machine.Runs.bind ?_ closed⟩
  refine .call rfl (.call (if_pos rfl) ?_)
  show (copying reads writes).Runs () (if !sIsReg mode then _ else _) _ _ _ _
  rw [regular]
  exact .call ((perform_openDestination (by decide)).mpr rfl) run

end

theorem whole_of_copies {reads writes : Portions} {length oldLength : Nat}
    (copies : Copies reads writes (List.replicate length 0) (some (List.replicate oldLength 1))) :
    oldLength ≤ length ∧ WholeBlocks reads writes length := by
  have right := copies.copied 0o100000 (by decide)
  have started : Copied length 0 0 (some (List.replicate oldLength 1))
      (opened (List.replicate length 0) 0o100000 (some (List.replicate oldLength 1)))
      (.create (some (List.replicate oldLength 1))) :=
    ⟨rfl, Nat.zero_le _, rfl, rfl, rfl, OpenFile.written_create _, Nat.le_refl _⟩
  obtain ⟨history, result, files', file', total, quiet, run, destination, written, part, only⟩ :=
    @exists_run_copyLoop reads writes _ _ ⟨4, 3⟩ _ _ _ _ _ started (Nat.lt_succ_self _)
  obtain ⟨history', quiet', run'⟩ := run_copyFile (by decide) quiet run
  have content := (right _ history' files' run' quiet').1
  rw [destination, Option.map_some, Option.some_inj, written.content, List.length_replicate] at content
  obtain ⟨all, shorter⟩ := (written_replicate_iff (by decide) part).mp content
  exact ⟨shorter, fun k inside => (only all).2 k inside (Nat.zero_le _)⟩

/-- Whatever the contents of a source and an old destination of these lengths, `copy_file` copies:
    exactly if the old destination is not longer, and every call takes its whole block. -/
theorem copyFile_copies_iff {reads writes : Portions} {length oldLength : Nat} :
    (∀ source old, source.length = length → (old.getD []).length = oldLength → Copies reads writes source old) ↔
      oldLength ≤ length ∧ WholeBlocks reads writes length := by
  constructor
  · intro copies
    exact whole_of_copies (copies _ _ (List.length_replicate ..) (List.length_replicate ..))
  · rintro ⟨shorter, whole⟩ source old rfl rfl
    exact copyFile_copies shorter whole

/-- Reads and writes that take all they are asked for, up to a block. -/
def wholeBlocks : Portions := ⟨fun _ => maxReadSize, fun _ => by decide⟩

/-- An empty file is not copied over a file with one byte: `open` does not truncate. -/
theorem longer_destination_keeps_its_end : ¬ Copies wholeBlocks wholeBlocks [] (some [1]) := by
  intro copies
  have shorter := (@whole_of_copies wholeBlocks wholeBlocks 0 1 copies).1
  revert shorter
  decide

end ArchCompSystems.OsHw4
