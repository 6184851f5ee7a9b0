import Mathlib.Algebra.Ring.Nat
import Mathlib.Data.List.Basic
import Mathlib.Logic.Function.Basic
import Mathlib.Tactic.Common

namespace ArchCompSystems.OsIhw1

/-- `TRANSFER_BUFFER_SIZE` of mark9 and mark10. -/
def transferBufferSize : Nat := 128

def endOfCommunicationChar : UInt8 := 128

/-- `BUFFER_SIZE` of the programs that read the whole file at once. -/
def bufferSize : Nat := 5000

abbrev Chars := Nat → UInt8

/-- An array after `read` has put these bytes at its start. -/
def readInto (stale : Chars) (bytes : List UInt8) : Chars := fun i => bytes[i]?.getD (stale i)

/-- The bytes that `write` takes from an array. -/
def written (chars : Chars) (length : Nat) : List UInt8 := (List.range length).map chars

/-- `none` for an index outside of the array. -/
def swap (size : Nat) (ustring : Chars) (l r : Nat) : Option Chars :=
  if l < size ∧ r < size then
    some (Function.update (Function.update ustring l (ustring r)) r (ustring l))
  else none

/-- `while (l < r) { swap(ustring, l, r); l++; r--; }` -/
def swapLoop (size : Nat) (ustring : Chars) (l r : Nat) : Option Chars :=
  if l < r then (swap size ustring l r).bind fun ustring => swapLoop size ustring (l + 1) (r - 1)
  else some ustring
termination_by r - l

/-- `none` when the assertion fails, too. -/
def reverseSubstring (size : Nat) (string : Chars) (l r : Nat) : Option Chars :=
  if l ≤ r then swapLoop size string l r else none

/-- What `run_impl` of the text processor does to a chunk that starts at `currentIndex`. -/
def processChunk (startN endN currentIndex : Nat) (readBuffer : Chars) (stringLength : Nat) :
    Option Chars :=
  if currentIndex ≤ startN ∧ startN < currentIndex + stringLength then
    reverseSubstring transferBufferSize readBuffer (startN - currentIndex)
      (min endN (currentIndex + stringLength - 1))
  else if currentIndex ≤ endN ∧ endN < currentIndex + stringLength then
    reverseSubstring transferBufferSize readBuffer (max startN currentIndex - currentIndex)
      (endN - currentIndex)
  else some readBuffer

/-- The bytes that reach the output file when `io_handler` and `text_processor` exchange the chunks
    in lock step; `stale i` is what the processor's array holds before its read `i`. When the
    processor takes a chunk for the end of the communication, nothing more is written. -/
def runFrom (startN endN : Nat) (stale : Nat → Chars) : Nat → Nat → List (List UInt8) →
    Option (List UInt8)
  | _, _, [] => some []
  | i, currentIndex, chunk :: chunks =>
    let readBuffer := readInto (stale i) chunk
    let stringLength := chunk.length
    if readBuffer stringLength = endOfCommunicationChar then some []
    else do
      let processed ← processChunk startN endN currentIndex readBuffer stringLength
      let output ← runFrom startN endN stale (i + 1) (currentIndex + stringLength) chunks
      return written processed stringLength ++ output

def runImpl (startN endN : Nat) (stale : Nat → Chars) (chunks : List (List UInt8)) :
    Option (List UInt8) := runFrom startN endN stale 0 0 chunks

/-- Where a position between `l` and `r` is mapped when the substring is reversed. -/
def reflect (l r p : Nat) : Nat := if l ≤ p ∧ p ≤ r then l + r - p else p

/-- The text with the characters from `startN` to `endN` reversed. -/
def reversed (startN endN : Nat) (text : List UInt8) : List UInt8 :=
  text.take startN ++ ((text.take (endN + 1)).drop startN).reverse ++ text.drop (endN + 1)

theorem swapLoop_eq {size l r : Nat} (inside : r < size) (ustring : Chars) :
    swapLoop size ustring l r = some fun p => ustring (reflect l r p) := by
  induction ustring, l, r using swapLoop.induct with
  | case1 ustring l r less ih =>
    rw [swapLoop, if_pos less, swap, if_pos ⟨by omega, inside⟩, Option.bind_some, ih _ (by omega)]
    congr 1
    funext p
    simp only [reflect, Function.update_apply]
    split_ifs <;> first | omega | congr 1 <;> omega
  | case2 ustring l r done =>
    rw [swapLoop, if_neg done]
    congr 1
    funext p
    simp only [reflect]
    split_ifs
    · congr 1
      omega
    · rfl

theorem swapLoop_outside {size l r : Nat} (outside : size ≤ r) (less : l < r) (ustring : Chars) :
    swapLoop size ustring l r = none := by
  rw [swapLoop, if_pos less, swap, if_neg (by omega)]
  rfl

theorem length_reversed {startN endN : Nat} {text : List UInt8} (ordered : startN ≤ endN)
    (inside : endN < text.length) : (reversed startN endN text).length = text.length := by
  simp only [reversed, List.length_append, List.length_take, List.length_reverse, List.length_drop]
  omega

theorem getElem?_reversed {startN endN : Nat} {text : List UInt8} (ordered : startN ≤ endN)
    (inside : endN < text.length) (p : Nat) :
    (reversed startN endN text)[p]? = text[reflect startN endN p]? := by
  have first : (text.take startN).length = startN := by rw [List.length_take]; omega
  have middle : ((text.take (endN + 1)).drop startN).reverse.length = endN + 1 - startN := by
    simp only [List.length_reverse, List.length_drop, List.length_take]
    omega
  unfold reversed reflect
  rcases Nat.lt_or_ge p startN with before | from'
  · rw [List.append_assoc, List.getElem?_append_left (by omega), List.getElem?_take_of_lt before,
      if_neg (by omega)]
  · rcases Nat.lt_or_ge endN p with after | upTo
    · rw [List.getElem?_append_right (by rw [List.length_append]; omega), List.length_append, first,
        middle, List.getElem?_drop, if_neg (by omega)]
      congr 1
      omega
    · rw [List.getElem?_append_left (by rw [List.length_append]; omega),
        List.getElem?_append_right (by omega), first, List.getElem?_reverse (by
          rw [List.length_reverse] at middle; omega), List.getElem?_drop, List.length_reverse.symm,
        middle, List.getElem?_take_of_lt (by omega), if_pos ⟨from', upTo⟩]
      congr 1
      omega

@[simp] theorem length_written (chars : Chars) (length : Nat) : (written chars length).length = length := by
  simp [written]

theorem getElem?_written {chars : Chars} {length p : Nat} (inside : p < length) :
    (written chars length)[p]? = some (chars p) := by
  simp [written, inside]

theorem written_readInto (stale : Chars) (bytes : List UInt8) :
    written (readInto stale bytes) bytes.length = bytes := by
  refine List.ext_getElem? fun p => ?_
  rcases Nat.lt_or_ge p bytes.length with inside | outside
  · rw [getElem?_written inside, readInto, List.getElem?_eq_getElem inside, Option.getD_some]
  · rw [List.getElem?_eq_none (by rwa [length_written]), List.getElem?_eq_none outside]

theorem written_reflect {stale : Chars} {text : List UInt8} {startN endN : Nat}
    (ordered : startN ≤ endN) (inside : endN < text.length) :
    written (fun p => readInto stale text (reflect startN endN p)) text.length =
      reversed startN endN text := by
  refine List.ext_getElem? fun p => ?_
  rcases Nat.lt_or_ge p text.length with lower | outside
  · have bound : reflect startN endN p < text.length := by unfold reflect; split_ifs <;> omega
    rw [getElem?_written lower, getElem?_reversed ordered inside, readInto,
      List.getElem?_eq_getElem bound, Option.getD_some]
  · rw [List.getElem?_eq_none (by rwa [length_written]),
      List.getElem?_eq_none (by rwa [length_reversed ordered inside])]

end ArchCompSystems.OsIhw1
