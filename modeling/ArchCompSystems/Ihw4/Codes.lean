import ArchCompSystems.Ihw4.EncodingSteps
import Mathlib.Data.List.TakeWhile

namespace ArchCompSystems.Ihw4

open Library Library.Program

section

variable {α β : Type}

theorem flatMap_range_chunks (l : List α) (size count : Nat) :
    (List.range count).flatMap (fun k => (l.drop (k * size)).take size) = l.take (count * size) := by
  induction count with
  | zero => simp
  | succ count ih => rw [List.range_succ, List.flatMap_append, ih, Nat.succ_mul, List.take_add]; simp

theorem flatMap_eq_iff {f g : α → List β} {ks : List α} (each : ∀ k ∈ ks, f k <+: g k) :
    ks.flatMap f = ks.flatMap g ↔ ∀ k ∈ ks, f k = g k := by
  constructor
  · intro same
    have shorter : ∀ ks : List α, (∀ k ∈ ks, f k <+: g k) →
        (ks.flatMap f).length ≤ (ks.flatMap g).length := fun ks each => by
      induction ks with
      | nil => exact Nat.le_refl _
      | cons k ks ih =>
        have first := (each k (List.mem_cons_self ..)).length_le
        have rest := ih fun j member => each j (List.mem_cons_of_mem _ member)
        simp only [List.flatMap_cons, List.length_append]
        omega
    induction ks with
    | nil => simp
    | cons k ks ih =>
      have later : ∀ j ∈ ks, f j <+: g j := fun j member => each j (List.mem_cons_of_mem _ member)
      have lengths := congrArg List.length same
      have first := (each k (List.mem_cons_self ..)).length_le
      have rest := shorter ks later
      simp only [List.flatMap_cons, List.length_append] at same lengths
      obtain ⟨head, tail⟩ := List.append_inj same (by omega)
      intro j member
      rcases List.mem_cons.mp member with rfl | member
      · exact head
      · exact ih later tail j member
  · intro same
    exact List.flatMap_congr same

end

def chunkCodes (string : List UInt8) (chunkNo : Nat) : List Code :=
  ((string.drop (chunkNo * encodeChunkSize)).take encodeChunkSize).map encodeChar

variable {string : List UInt8}

theorem le_chunks (string : List UInt8) : string.length ≤ maxChunkNo string * encodeChunkSize := by
  unfold maxChunkNo encodeChunkSize
  omega

theorem flatMap_chunkCodes (string : List UInt8) :
    (List.range (maxChunkNo string)).flatMap (chunkCodes string) = string.map encodeChar := by
  have chunks := flatMap_range_chunks string encodeChunkSize (maxChunkNo string)
  rw [List.take_of_length_le (le_chunks string)] at chunks
  conv_rhs => rw [← chunks, List.map_flatMap]
  rfl

theorem map_chunkCode (string : List UInt8) (chunkNo : Nat) :
    (List.range encodeChunkSize).map (chunkCode string chunkNo) = chunkCodes string chunkNo ++
      List.replicate (encodeChunkSize - (chunkCodes string chunkNo).length) 0 := by
  refine List.ext_getElem? fun i => ?_
  have size : (chunkCodes string chunkNo).length ≤ encodeChunkSize := by
    rw [chunkCodes, List.length_map, List.length_take]
    exact Nat.min_le_left ..
  rcases Nat.lt_or_ge i encodeChunkSize with inside | outside
  · rw [List.getElem?_map, List.getElem?_range inside, Option.map_some]
    rcases Nat.lt_or_ge i (chunkCodes string chunkNo).length with present | absent
    · rw [List.getElem?_append_left present, chunkCodes, List.getElem?_map, List.getElem?_take_of_lt inside,
        List.getElem?_drop]
      rw [chunkCodes, List.length_map, List.length_take, List.length_drop] at present
      rw [chunkCode, charAt, List.getElem?_eq_getElem (by omega), Option.getD_some, Option.map_some]
    · rw [List.getElem?_append_right absent, List.getElem?_replicate_of_lt (by omega)]
      rw [chunkCodes, List.length_map, List.length_take, List.length_drop] at absent
      rw [chunkCode, charAt, List.getElem?_eq_none (by omega), Option.getD_none, encodeChar_zero]
  · rw [List.getElem?_eq_none (by simpa using outside), List.getElem?_eq_none (by
      rw [List.length_append, List.length_replicate]
      omega)]

theorem printedChunk_eq (string : List UInt8) (chunkNo : Nat) :
    printedChunk string chunkNo = (chunkCodes string chunkNo).takeWhile (· ≠ noCode) := by
  have zeros : ∀ count, (List.replicate count (0 : Code)).takeWhile (· ≠ noCode) = [] := fun count => by
    cases count <;> simp [List.replicate_succ, noCode]
  rw [printedChunk, map_chunkCode, List.takeWhile_append, zeros, List.append_nil]
  split
  · rename_i whole
    exact ((List.takeWhile_prefix _).eq_of_length whole).symm
  · rfl

theorem printedCodes_eq_iff (string : List UInt8) :
    printedCodes string = string.map encodeChar ↔ ∀ c ∈ string, encodeChar c ≠ noCode := by
  have parts := flatMap_chunkCodes string
  rw [printedCodes, ← parts, flatMap_eq_iff fun k _ => by
    rw [printedChunk_eq]
    exact List.takeWhile_prefix _]
  have members : ∀ code, code ∈ string.map encodeChar ↔
      ∃ k ∈ List.range (maxChunkNo string), code ∈ chunkCodes string k := fun code => by
    rw [← parts, List.mem_flatMap]
  constructor
  · intro whole c member
    obtain ⟨k, inside, code⟩ := (members (encodeChar c)).mp (List.mem_map_of_mem member)
    have same := whole k inside
    rw [printedChunk_eq, List.takeWhile_eq_self_iff] at same
    exact of_decide_eq_true (same _ code)
  · intro coded k inside
    rw [printedChunk_eq, List.takeWhile_eq_self_iff]
    intro code member
    obtain ⟨c, present, rfl⟩ := List.mem_map.mp ((members code).mpr ⟨k, inside, member⟩)
    exact decide_eq_true (coded c present)

variable {n : Nat} {outputFile : Bool} {pool : Pool (Thread n) (Call n) Call.Answer (State n)}

def initialStage : Thread n → Stage
  | .encoder _ => .idle 0
  | .main => .joining 0

def Final (string : List UInt8) (outputFile : Bool) (t : Thread n) (stage : Stage) : Prop :=
  match t with
  | .encoder _ => stage = .ended
  | .main => Printed string (filesOf outputFile) stage

theorem encoding_start (n : Nat) (string : List UInt8) (outputFile : Bool) :
    Encoding string (start n string outputFile).state initialStage [] where
  threads := by
    intro t
    cases t with
    | encoder i => exact ⟨by simp, Nat.zero_le _⟩
    | main => exact ⟨rfl, fun _ before => absurd before (Nat.not_lt_zero _), rfl⟩
  apart := by
    intro t u _
    cases t <;> exact ⟨by simp [initialStage, Stage.chunk], by simp [initialStage, Stage.node]⟩
  entriesOk := ⟨List.Pairwise.nil, by simp, by simp, by simp, by simp, by simp⟩
  complete := fun k _ counted => absurd counted (Nat.not_lt_zero _)
  listed := fun _ => Links.represents_empty
  exited := fun i ended => nomatch ended
  unallocated := fun _ _ => ⟨rfl, rfl⟩

theorem Reach.encoding (some : 0 < n) (noTerminator : 0 ∉ string) (reach : Reach n string outputFile pool) :
    ∃ ms, pool.Governed (fun _ => callOrder n string) initialStage (Final string outputFile)
      (fun s ms => ∃ entries, Encoding string s ms entries) ms := by
  refine Pool.Reach.governed ?_ (fun _ _ _ => rfl)
    ⟨fun _ => .nil, ?_, _, encoding_start n string outputFile⟩ reach
  · rintro s ms t c answer s' ⟨entries, encoding⟩ allowed performed
    exact encoding.perform some allowed performed
  · intro t
    cases t with
    | encoder i => exact encoder_follows noTerminator
    | main => exact main_follows outputFile some

/-- The list from `store_list_head` has each chunk once, in increasing order. -/
def ListsChunks (string : List UInt8) (s : State n) : Prop :=
  ∃ nodes, Links.Segment s.links.next s.links.head nodes none ∧
    nodes.map s.chunkNo = List.range (maxChunkNo string)

/-- The list is complete, and the codes of all characters are written. -/
structure EncodesAll (string : List UInt8) (outputFile : Bool) (s : State n) : Prop where
  listed : ListsChunks string s
  written : ∀ file ∈ filesOf outputFile, s.written file = string.map encodeChar

theorem Reach.listsChunks (some : 0 < n) (noTerminator : 0 ∉ string) (reach : Reach n string outputFile pool)
    (ended : ∀ i, pool.programs (.encoder i) = .done ()) : ListsChunks string pool.state := by
  obtain ⟨ms, governed⟩ := reach.encoding some noTerminator
  obtain ⟨entries, encoding⟩ := governed.agrees
  have last : ∀ i, ms (.encoder i) = .ended := fun i => by
    have following := governed.follows (.encoder i)
    rw [ended i] at following
    exact following
  obtain ⟨represents, complete⟩ := encoding.all_listed some last
  refine ⟨entries.map Prod.fst, represents.forward, ?_⟩
  rw [← complete, List.map_map]
  exact List.map_congr_left fun entry member => encoding.entriesOk.number entry member

theorem Reach.written (some : 0 < n) (noTerminator : 0 ∉ string) (reach : Reach n string outputFile pool)
    (ended : pool.programs .main = .done ()) {file : OutFile} (member : file ∈ filesOf outputFile) :
    pool.state.written file = printedCodes string := by
  obtain ⟨ms, governed⟩ := reach.encoding some noTerminator
  obtain ⟨entries, encoding⟩ := governed.agrees
  have following := governed.follows .main
  rw [ended] at following
  have printed : Printed string (filesOf outputFile) (ms .main) := following
  cases known : ms .main <;> rw [known] at printed <;> try exact printed.elim
  obtain ⟨-, -, -, -, same⟩ := encoding.ok known
  rw [same, printed file]
  cases outputFile <;> cases file <;> simp_all [filesOf]

/-- No loop is cut off, and when all threads have ended the list is complete; all codes are written
    exactly if every character of the string has a code. -/
theorem encodes_all_iff (some : 0 < n) (noTerminator : 0 ∉ string) (reach : Reach n string outputFile pool) :
    (∀ t next, pool.programs t ≠ .call .goesOn next) ∧
      ((∀ i, pool.programs (.encoder i) = .done ()) → ListsChunks string pool.state) ∧
      ((∀ t, pool.programs t = .done ()) →
        (EncodesAll string outputFile pool.state ↔ ∀ c ∈ string, encodeChar c ≠ noCode)) := by
  refine ⟨fun t next current => ?_, reach.listsChunks some noTerminator, fun ended => ?_⟩
  · obtain ⟨ms, governed⟩ := reach.encoding some noTerminator
    have following := governed.follows t
    rw [current] at following
    have allowed := following.1
    cases known : ms t <;> rw [known] at allowed <;> exact allowed
  · rw [← printedCodes_eq_iff]
    have written := fun file => @Reach.written string n outputFile pool some noTerminator reach (ended .main) file
    constructor
    · intro encodes
      have member : .stdout ∈ filesOf outputFile := by cases outputFile <;> simp [filesOf]
      rw [← written _ member]
      exact encodes.written _ member
    · intro all
      exact ⟨reach.listsChunks some noTerminator fun i => ended _,
        fun file member => (written file member).trans all⟩

def answerOf : (call : Call n) → State n → Option call.Answer
  | .loadCurrentChunkNo, s => some s.currentChunkNo
  | .newNode _, s => some s.allocated
  | .loadChunkNo node, s => some (s.chunkNo node)
  | .loadCode node i, s => some (s.encodedString node i)
  | .loadNext node, s => some (s.links.next node)
  | .loadPrev node, s => some (s.links.prev node)
  | .loadHead, s => some s.links.head
  | .loadTail, s => some s.links.tail
  | .goesOn, _ => none
  | .lock _, _ | .unlock _, _ | .storeCurrentChunkNo _, _ | .storeCode _ _ _, _ | .storeNext _ _, _
  | .storePrev _ _, _ | .storeHead _, _ | .storeTail _, _ | .log _, _ | .print _ _, _ | .exit, _
  | .join _, _ => some ()

section

variable {ι : Type} {ρ : ι → Type} {σ : Type}

def firstEncoder : Thread 2 := .encoder ⟨0, Nat.two_pos⟩

def secondEncoder : Thread 2 := .encoder ⟨1, Nat.one_lt_two⟩

/-- The first encoder takes a chunk, the second one does all that is left, the first one ends its own, and the main
    thread prints. -/
def secondOvertakes (answerOf : (call : ι) → σ → Option (ρ call)) (taking second encoding main : Nat) :
    List (Pool.Turn (Thread 2) ι ρ σ) :=
  [.go firstEncoder taking answerOf, .go secondEncoder second answerOf, .go firstEncoder encoding answerOf,
    .go .main main answerOf]

def allEnded (pool : Pool (Thread 2) ι ρ σ) : Bool :=
  pool.ended firstEncoder && (pool.ended secondEncoder && pool.ended .main)

theorem ended_of_allEnded {pool : Pool (Thread 2) ι ρ σ} (ended : allEnded pool = true) (t : Thread 2) :
    pool.programs t = .done () := by
  obtain ⟨first, rest⟩ := (Bool.and_eq_true ..).mp ended
  obtain ⟨second, main⟩ := (Bool.and_eq_true ..).mp rest
  match t with
  | .encoder 0 => exact Pool.programs_of_ended first
  | .encoder 1 => exact Pool.programs_of_ended second
  | .main => exact Pool.programs_of_ended main

end

/-- Of "A1B" only the code of 'A' is printed. -/
theorem digit_ends_chunk : ¬ ∀ (n : Nat) (string : List UInt8) (outputFile : Bool)
    (pool : Pool (Thread n) (Call n) Call.Answer (State n)), 0 < n → 0 ∉ string →
    Reach n string outputFile pool → (∀ t, pool.programs t = .done ()) →
    EncodesAll string outputFile pool.state := by
  intro all
  obtain ⟨pool, reach, checked⟩ := @Pool.exists_reach_of_replay _ _ _ _ _ (machine 2) (fun _ _ => True)
    (start 2 [65, 49, 66] false) (fun _ _ => true) (secondOvertakes answerOf 10 5 22 8)
    (fun pool => allEnded pool && decide (pool.state.written .stdout = [40]))
    (fun _ _ _ => True.intro) (by decide +kernel)
  obtain ⟨ended, written⟩ := (Bool.and_eq_true ..).mp checked
  have encodes := all 2 [65, 49, 66] false pool (by decide) (by decide) reach (ended_of_allEnded ended)
  have codes := encodes.written .stdout (by decide)
  rw [of_decide_eq_true written] at codes
  revert codes
  decide

/-- The letters of two chunks. -/
def twoChunks : List UInt8 := List.replicate 128 65 ++ [98, 66]

/-- Both chunks are encoded, the second one first. -/
theorem letters_encoded : ∃ pool : Pool (Thread 2) (Call 2) Call.Answer (State 2),
    Reach 2 twoChunks false pool ∧ (∀ t, pool.programs t = .done ()) ∧ EncodesAll twoChunks false pool.state := by
  obtain ⟨pool, reach, ended⟩ := @Pool.exists_reach_of_replay _ _ _ _ _ (machine 2) (fun _ _ => True)
    (start 2 twoChunks false) (fun _ _ => true) (secondOvertakes answerOf 10 29 400 396) allEnded
    (fun _ _ _ => True.intro) (by decide +kernel)
  have everybody := ended_of_allEnded ended
  have noTerminator : 0 ∉ twoChunks := by decide +kernel
  refine ⟨pool, reach, everybody, ((encodes_all_iff (by decide) noTerminator reach).2.2 everybody).mpr ?_⟩
  decide +kernel

end ArchCompSystems.Ihw4
