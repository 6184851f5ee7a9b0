import ArchCompSystems.OsIhw1.DataProcessor

namespace ArchCompSystems.OsIhw1

def GoesOn (stale : Nat → Chars) : Nat → List Nat → Prop
  | _, [] => True
  | i, length :: lengths => stale i length ≠ endOfCommunicationChar ∧ GoesOn stale (i + 1) lengths

/-- The pipeline computes the reversal of the substring, and what it writes is what the whole-buffer programs send. -/
structure ComputesReversal (startN endN : Nat) (stale : Nat → Chars) (chunks : List (List UInt8)) :
    Prop where
  reversed : runImpl startN endN stale chunks = some (reversed startN endN chunks.flatten)
  whole_buffer : chunks.flatten.length < bufferSize → ∃ output,
    runImpl startN endN stale chunks = some output ∧ Mark4.Sends startN endN chunks.flatten output

section

variable {startN endN i currentIndex : Nat} {stale : Nat → Chars} {chunk : List UInt8}
  {chunks : List (List UInt8)}

theorem readInto_length (stale : Chars) (bytes : List UInt8) :
    readInto stale bytes bytes.length = stale bytes.length := by
  rw [readInto, List.getElem?_eq_none (Nat.le_refl _), Option.getD_none]

theorem runFrom_cons (going : stale i chunk.length ≠ endOfCommunicationChar) :
    runFrom startN endN stale i currentIndex (chunk :: chunks) =
      (processChunk startN endN currentIndex (readInto (stale i) chunk) chunk.length).bind fun processed =>
        (runFrom startN endN stale (i + 1) (currentIndex + chunk.length) chunks).map
          (written processed chunk.length ++ ·) := by
  rw [runFrom, readInto_length, if_neg going]
  cases processChunk startN endN currentIndex (readInto (stale i) chunk) chunk.length with
  | none => rfl
  | some processed =>
    cases runFrom startN endN stale (i + 1) (currentIndex + chunk.length) chunks <;> rfl

theorem runFrom_stops (stops : stale i chunk.length = endOfCommunicationChar) :
    runFrom startN endN stale i currentIndex (chunk :: chunks) = some [] := by
  rw [runFrom, readInto_length, if_pos stops]

theorem goesOn_of_runFrom (nonempty : ∀ length ∈ chunks.map List.length, 0 < length)
    {output : List UInt8} (run : runFrom startN endN stale i currentIndex chunks = some output)
    (all : chunks.flatten.length ≤ output.length) : GoesOn stale i (chunks.map List.length) ∧
      output.length = chunks.flatten.length := by
  induction chunks generalizing i currentIndex output with
  | nil =>
    obtain ⟨⟩ := run
    exact ⟨True.intro, rfl⟩
  | cons chunk chunks ih =>
    rw [List.flatten_cons, List.length_append] at all
    by_cases stops : stale i chunk.length = endOfCommunicationChar
    · rw [runFrom_stops stops] at run
      obtain ⟨⟩ := run
      have pos := nonempty chunk.length (List.mem_cons_self ..)
      rw [List.length_nil] at all
      omega
    · rw [runFrom_cons stops] at run
      obtain ⟨processed, -, rest⟩ := Option.bind_eq_some_iff.mp run
      obtain ⟨later, after, rfl⟩ := Option.map_eq_some_iff.mp rest
      rw [List.length_append, length_written] at all
      obtain ⟨going, same⟩ := ih (fun length member => nonempty length (List.mem_cons_of_mem _ member))
        after (by omega)
      refine ⟨⟨stops, going⟩, ?_⟩
      rw [List.length_append, length_written, same, List.flatten_cons, List.length_append]

theorem runFrom_behind (ordered : startN ≤ endN) (behind : endN < currentIndex)
    (going : GoesOn stale i (chunks.map List.length)) :
    runFrom startN endN stale i currentIndex chunks = some chunks.flatten := by
  induction chunks generalizing i currentIndex with
  | nil => rfl
  | cons chunk chunks ih =>
    rw [runFrom_cons going.1, processChunk, if_neg (by omega), if_neg (by omega), Option.bind_some,
      ih (by omega) going.2, written_readInto]
    rfl

theorem runImpl_first (ordered : startN ≤ endN) (inside : endN < chunk.length)
    (small : chunk.length < transferBufferSize)
    (going : GoesOn stale 0 ((chunk :: chunks).map List.length)) :
    runImpl startN endN stale (chunk :: chunks) = some (reversed startN endN (chunk :: chunks).flatten) := by
  have last : min endN (0 + chunk.length - 1) = endN := by omega
  rw [runImpl, runFrom_cons going.1, processChunk, if_pos (by omega), reverseSubstring,
    if_pos (by omega), last, Nat.sub_zero, swapLoop_eq (by omega), Option.bind_some,
    runFrom_behind ordered (by omega) going.2, written_reflect ordered inside, Option.map_some]
  simp only [reversed, List.flatten_cons]
  rw [List.take_append_of_le_length (by omega), List.take_append_of_le_length (by omega),
    List.drop_append_of_le_length (by omega), List.append_assoc _ (List.drop _ _)]

end

def slice (text : Nat → UInt8) : Nat → List Nat → List (List UInt8)
  | _, [] => []
  | start, length :: lengths =>
    (List.range length).map (fun p => text (start + p)) :: slice text (start + length) lengths

/-- The text with one character at `position` and zeros elsewhere. -/
def single (position : Nat) (char : UInt8) (p : Nat) : UInt8 := if p = position then char else 0

theorem map_length_slice (text : Nat → UInt8) (start : Nat) (lengths : List Nat) :
    (slice text start lengths).map List.length = lengths := by
  induction lengths generalizing start with
  | nil => rfl
  | cons length lengths ih => simp [slice, ih]

theorem getElem?_flatten_slice (text : Nat → UInt8) (start : Nat) {lengths : List Nat} {p : Nat}
    (inside : p < lengths.sum) : (slice text start lengths).flatten[p]? = some (text (start + p)) := by
  induction lengths generalizing start p with
  | nil => cases inside
  | cons length lengths ih =>
    rw [List.sum_cons] at inside
    rw [slice, List.flatten_cons]
    rcases Nat.lt_or_ge p length with first | later
    · rw [List.getElem?_append_left (by simpa using first)]
      simp [first]
    · rw [List.getElem?_append_right (by simpa using later), List.length_map, List.length_range,
        ih _ (by omega)]
      congr 2
      omega

section

variable {startN endN : Nat} {stale : Nat → Chars} {lengths : List Nat}

/-- When the substring does not end inside of the first chunk, the character of its end does not get
    to its start, unless it is one of two. -/
theorem exists_astray (ordered : startN ≤ endN) (i : Nat) {currentIndex : Nat}
    (nonempty : ∀ length ∈ lengths, 0 < length) (lower : currentIndex ≤ startN)
    (upper : startN < currentIndex + lengths.sum)
    (late : currentIndex = 0 → ∀ length ∈ lengths.head?, length ≤ endN) :
    ∃ other : UInt8, ∀ char, char ≠ 0 → char ≠ other → ∀ output,
      runFrom startN endN stale i currentIndex (slice (single endN char) currentIndex lengths) = some output →
      output[startN - currentIndex]? ≠ some char := by
  induction lengths generalizing i currentIndex with
  | nil =>
    rw [List.sum_nil] at upper
    omega
  | cons length lengths ih =>
    rw [List.sum_cons] at upper
    have pos := nonempty length (List.mem_cons_self ..)
    rcases Nat.lt_or_ge startN (currentIndex + length) with here | further
    · refine ⟨stale i (min endN (currentIndex + length - 1)), fun char nonzero apart output run => ?_⟩
      rw [slice] at run
      set chunk := (List.range length).map fun p => single endN char (currentIndex + p) with same
      have chunk_length : chunk.length = length := by rw [same, List.length_map, List.length_range]
      by_cases stops : stale i chunk.length = endOfCommunicationChar
      · rw [runFrom_stops stops] at run
        obtain ⟨⟩ := run
        simp
      rw [runFrom_cons stops, processChunk, chunk_length, if_pos ⟨lower, here⟩, reverseSubstring,
        if_pos (by omega)] at run
      obtain ⟨processed, swapped, rest⟩ := Option.bind_eq_some_iff.mp run
      obtain ⟨later, -, rfl⟩ := Option.map_eq_some_iff.mp rest
      rw [List.getElem?_append_left (by rw [length_written]; omega), getElem?_written (by omega)]
      -- The start of the substring gets the character at the other end of the swaps.
      have first : processed (startN - currentIndex) =
          readInto (stale i) chunk (min endN (currentIndex + length - 1)) := by
        rcases Nat.lt_or_ge (min endN (currentIndex + length - 1)) transferBufferSize with inside | outside
        · rw [swapLoop_eq inside] at swapped
          obtain ⟨⟩ := swapped
          simp only [reflect]
          rw [if_pos (by omega)]
          congr 1
          omega
        · rcases Nat.lt_or_ge (startN - currentIndex) (min endN (currentIndex + length - 1)) with less | equal
          · rw [swapLoop_outside outside less] at swapped
            cases swapped
          · rw [swapLoop, if_neg (by omega)] at swapped
            obtain ⟨⟩ := swapped
            congr 1
            omega
      rw [first]
      intro mistaken
      have mistaken := Option.some.inj mistaken
      rw [readInto] at mistaken
      rcases Nat.lt_or_ge (min endN (currentIndex + length - 1)) length with fresh | old
      · have apart : currentIndex + min endN (currentIndex + length - 1) ≠ endN := by
          intro equal
          have start : currentIndex = 0 := by omega
          have before := late start length rfl
          omega
        rw [same, List.getElem?_map, List.getElem?_range fresh, Option.map_some, Option.getD_some,
          single, if_neg apart] at mistaken
        exact nonzero mistaken.symm
      · rw [List.getElem?_eq_none (by omega), Option.getD_none] at mistaken
        exact apart mistaken.symm
    · obtain ⟨other, astray⟩ := @ih (i + 1) (currentIndex + length)
        (fun length member => nonempty length (List.mem_cons_of_mem _ member)) further (by omega)
        (fun start => absurd start (by omega))
      refine ⟨other, fun char nonzero apart output run => ?_⟩
      rw [slice] at run
      set chunk := (List.range length).map fun p => single endN char (currentIndex + p) with same
      have chunk_length : chunk.length = length := by rw [same, List.length_map, List.length_range]
      by_cases stops : stale i chunk.length = endOfCommunicationChar
      · rw [runFrom_stops stops] at run
        obtain ⟨⟩ := run
        simp
      rw [runFrom_cons stops] at run
      obtain ⟨processed, -, rest⟩ := Option.bind_eq_some_iff.mp run
      obtain ⟨later, after, rfl⟩ := Option.map_eq_some_iff.mp rest
      rw [chunk_length] at after ⊢
      rw [List.getElem?_append_right (by rw [length_written]; omega), length_written, Nat.sub_sub]
      exact astray char nonzero apart later after

/-- Chunks of these lengths come out with the substring reversed, whatever they contain, exactly if
    the substring ends inside of the first chunk and no chunk is taken for the end of the
    communication. -/
theorem computesReversal_iff (ordered : startN ≤ endN) (inside : endN < lengths.sum)
    (sizes : ∀ length ∈ lengths, 0 < length ∧ length < transferBufferSize) :
    (∀ chunks, chunks.map List.length = lengths → ComputesReversal startN endN stale chunks) ↔
      (∀ length ∈ lengths.head?, endN < length) ∧ GoesOn stale 0 lengths := by
  constructor
  · intro computes
    constructor
    · intro length first
      by_contra late
      obtain ⟨other, astray⟩ := @exists_astray startN endN stale lengths ordered 0 0
        (fun length member => (sizes length member).1) (Nat.zero_le _) (by omega) (fun _ length' first' => by
          obtain rfl : length' = length := Option.some.inj (first'.symm.trans first)
          omega)
      obtain ⟨char, nonzero, apart⟩ : ∃ char : UInt8, char ≠ 0 ∧ char ≠ other := by
        by_cases one : other = 1
        · exact ⟨2, by decide, by rw [one]; decide⟩
        · exact ⟨1, by decide, fun same => one same.symm⟩
      have right := (computes _ (map_length_slice (single endN char) 0 lengths)).reversed
      have total : (slice (single endN char) 0 lengths).flatten.length = lengths.sum := by
        rw [List.length_flatten, map_length_slice]
      refine astray char nonzero apart _ right ?_
      rw [Nat.sub_zero, getElem?_reversed ordered (by omega), reflect, if_pos ⟨Nat.le_refl _, ordered⟩,
        Nat.add_sub_cancel_left, getElem?_flatten_slice _ _ inside, Nat.zero_add, single, if_pos rfl]
    · have lengths_eq := map_length_slice (fun _ => 0) 0 lengths
      have right := (computes _ lengths_eq).reversed
      have total : (slice (fun _ => 0) 0 lengths).flatten.length = lengths.sum := by
        rw [List.length_flatten, lengths_eq]
      have going := goesOn_of_runFrom (by rw [lengths_eq]; exact fun length member => (sizes length member).1)
        right (Nat.le_of_eq (length_reversed ordered (total ▸ inside)).symm)
      rw [lengths_eq] at going
      exact going.1
  · rintro ⟨first, going⟩ chunks rfl
    cases chunks with
    | nil =>
      rw [List.map_nil, List.sum_nil] at inside
      omega
    | cons chunk chunks =>
      have ends := first chunk.length rfl
      have small := (sizes chunk.length (List.mem_cons_self ..)).2
      have right := runImpl_first ordered ends small going
      refine ⟨right, fun fits => ⟨_, right, Mark4.sends_reversed ordered ?_ fits⟩⟩
      rw [List.flatten_cons, List.length_append]
      omega

end

def lastTwo : List (List UInt8) := [List.replicate 127 97, [98]]

/-- Not every text comes out right: here the chunks are cut between the two characters. -/
theorem last_two_not_swapped : ¬ ∀ startN endN stale (chunks : List (List UInt8)),
    startN ≤ endN → endN < chunks.flatten.length →
    (∀ chunk ∈ chunks, 0 < chunk.length ∧ chunk.length < transferBufferSize) →
    ComputesReversal startN endN stale chunks := by
  intro all
  have right := (all 126 127 (fun _ _ => 0) lastTwo (by decide) (by decide +kernel)
    (by decide +kernel)).reversed
  revert right
  decide +kernel

/-- A substring inside of the first of two chunks. -/
theorem first_chunk_reversed : ComputesReversal 0 1 (fun _ _ => 0) [[97, 98], [99]] :=
  (@computesReversal_iff 0 1 (fun _ _ => 0) [2, 1] (by decide) (by decide) (by decide)).mpr
    ⟨by decide, by decide, by decide, True.intro⟩ [[97, 98], [99]] rfl

end ArchCompSystems.OsIhw1
