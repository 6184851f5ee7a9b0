import Mathlib.Algebra.Ring.Nat
import Mathlib.Data.List.Basic
import Mathlib.Tactic.Common

namespace ArchCompSystems.Library

variable {α : Type}

/-- A regular file under a descriptor with its offset. -/
structure OpenFile (α : Type) where
  content : List α
  offset : Nat
  deriving DecidableEq

namespace OpenFile

/-- `open` without `O_TRUNC`: what the file holds stays. `O_CREAT` makes a file that is absent. -/
def create (old : Option (List α)) : OpenFile α := ⟨old.getD [], 0⟩

def unread (file : OpenFile α) : List α := file.content.drop file.offset

/-- A read of at most `length` elements moves the offset behind what it returns. -/
def read (file : OpenFile α) (length : Nat) : OpenFile α :=
  { file with offset := file.offset + (file.unread.take length).length }

def write [Inhabited α] (file : OpenFile α) (bytes : List α) : OpenFile α :=
  if bytes = [] then file
  else {
    content := file.content.take file.offset ++ List.replicate (file.offset - file.content.length) default ++
      bytes ++ file.content.drop (file.offset + bytes.length)
    offset := file.offset + bytes.length }

theorem unread_read (file : OpenFile α) (length : Nat) :
    (file.read length).unread = file.unread.drop length := by
  simp only [read, unread, List.drop_drop, List.length_take, List.length_drop]
  rcases Nat.le_total length (file.content.length - file.offset) with inside | beyond
  · rw [Nat.min_eq_left inside]
  · rw [Nat.min_eq_right beyond, List.drop_eq_nil_of_le (by omega), List.drop_eq_nil_of_le (by omega)]

/-- From its opening on, the file got the elements of `text`. -/
structure Written (old : Option (List α)) (text : List α) (file : OpenFile α) : Prop where
  offset : file.offset = text.length
  content : file.content = text ++ (old.getD []).drop text.length

theorem written_create (old : Option (List α)) : (create old).Written old [] := ⟨rfl, rfl⟩

theorem Written.write [Inhabited α] {old : Option (List α)} {text : List α} {file : OpenFile α}
    (written : file.Written old text) (bytes : List α) : (file.write bytes).Written old (text ++ bytes) := by
  unfold OpenFile.write
  split_ifs with nothing
  · rw [nothing, List.append_nil]
    exact written
  · constructor
    · rw [List.length_append]
      exact congrArg (· + bytes.length) written.offset
    · show file.content.take file.offset ++ List.replicate (file.offset - file.content.length) default ++
        bytes ++ file.content.drop (file.offset + bytes.length) = _
      have reached : file.offset - file.content.length = 0 := by
        rw [written.offset, written.content, List.length_append]
        omega
      rw [reached, written.offset, written.content, List.replicate_zero, List.append_nil,
        List.take_left, List.length_append]
      congr 1
      rw [List.drop_append, List.drop_eq_nil_of_le (Nat.le_add_right ..), List.nil_append,
        List.drop_drop]
      congr 1
      omega

end OpenFile

/-- How much each of the calls in a row takes at most. Every call takes something. -/
structure Portions where
  most : Nat → Nat
  pos : ∀ k, 0 < most k

namespace Portions

variable (portions : Portions)

/-- What calls from number `k` on take of the pieces that they are given. -/
def taken : Nat → List (List α) → List α
  | _, [] => []
  | k, piece :: pieces => piece.take (portions.most k) ++ taken (k + 1) pieces

/-- How much calls from number `k` on take of pieces of these lengths. -/
def takenLength : Nat → List Nat → Nat
  | _, [] => 0
  | k, length :: lengths => min length (portions.most k) + takenLength (k + 1) lengths

/-- No call from number `k` on leaves something of its piece. -/
def TakesAll : Nat → List Nat → Prop
  | _, [] => True
  | k, length :: lengths => length ≤ portions.most k ∧ TakesAll (k + 1) lengths

variable {portions} {k : Nat} {lengths : List Nat}

theorem takenLength_le : portions.takenLength k lengths ≤ lengths.sum := by
  induction lengths generalizing k with
  | nil => exact Nat.le_refl _
  | cons length lengths ih =>
    have rest := @ih (k + 1)
    rw [takenLength, List.sum_cons]
    omega

theorem takenLength_eq_sum_iff : portions.takenLength k lengths = lengths.sum ↔ portions.TakesAll k lengths := by
  induction lengths generalizing k with
  | nil => exact ⟨fun _ => True.intro, fun _ => rfl⟩
  | cons length lengths ih =>
    have rest := @takenLength_le portions (k + 1) lengths
    rw [takenLength, List.sum_cons, TakesAll, ← ih]
    omega

theorem taken_eq_flatten {pieces : List (List α)} (all : portions.TakesAll k (pieces.map List.length)) :
    portions.taken k pieces = pieces.flatten := by
  induction pieces generalizing k with
  | nil => rfl
  | cons piece pieces ih =>
    rw [taken, List.take_of_length_le all.1, ih all.2]
    rfl

theorem taken_replicate (value : α) :
    portions.taken k (lengths.map (List.replicate · value)) =
      List.replicate (portions.takenLength k lengths) value := by
  induction lengths generalizing k with
  | nil => rfl
  | cons length lengths ih =>
    rw [List.map_cons, taken, ih, List.take_replicate, List.replicate_append_replicate, takenLength,
      Nat.min_comm]

end Portions

/-- A text of one value over an old content of another: the text is there alone exactly if all of it
    was written and the old content was not longer. -/
theorem written_replicate_iff {value other : α} (apart : value ≠ other) {count total length : Nat}
    (part : count ≤ total) :
    List.replicate count value ++ (List.replicate length other).drop count = List.replicate total value ↔
      count = total ∧ length ≤ total := by
  rw [List.drop_replicate]
  constructor
  · intro same
    have lengths := congrArg List.length same
    rw [List.length_append, List.length_replicate, List.length_replicate, List.length_replicate] at lengths
    rcases Nat.eq_zero_or_pos (length - count) with none | some
    · omega
    · have member : other ∈ List.replicate total value := by
        rw [← same]
        apply List.mem_append_right
        exact List.mem_replicate.mpr ⟨by omega, rfl⟩
      exact absurd (List.mem_replicate.mp member).2.symm apart
  · rintro ⟨rfl, fits⟩
    rw [Nat.sub_eq_zero_of_le fits, List.replicate_zero, List.append_nil]

theorem flatten_map_replicate (value : α) (lengths : List Nat) :
    (lengths.map (List.replicate · value)).flatten = List.replicate lengths.sum value := by
  induction lengths with
  | nil => rfl
  | cons length lengths ih =>
    rw [List.map_cons, List.flatten_cons, ih, List.replicate_append_replicate, List.sum_cons]

end ArchCompSystems.Library
