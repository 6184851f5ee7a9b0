import ArchCompSystems.OsIhw1.Transfer

namespace ArchCompSystems.OsIhw1

open Library Library.Program Machine

namespace Mark4

/-- The characters from `startN` to `endN` are in the opposite order, the others in their place. -/
structure Reversed (startN endN : Nat) (text output : List UInt8) : Prop where
  length : output.length = text.length
  inside : ∀ i ≤ endN - startN, output[startN + i]? = text[endN - i]?
  outside : ∀ p, p < startN ∨ endN < p → output[p]? = text[p]?

section

variable {startN endN : Nat} {text : List UInt8}

theorem reversed_reversed (ordered : startN ≤ endN) (inside : endN < text.length) :
    reversed startN endN (reversed startN endN text) = text := by
  apply List.ext_getElem?
  intro p
  rw [getElem?_reversed ordered (by rwa [length_reversed ordered inside]), getElem?_reversed ordered inside]
  congr 1
  unfold reflect
  split_ifs <;> omega

theorem reversed_spec (ordered : startN ≤ endN) (inside : endN < text.length) :
    Reversed startN endN text (reversed startN endN text) := by
  refine ⟨length_reversed ordered inside, fun i upper => ?_, fun p outside => ?_⟩
  · rw [getElem?_reversed ordered inside, reflect, if_pos (by omega)]
    congr 1
    omega
  · rw [getElem?_reversed ordered inside, reflect, if_neg (by omega)]

def beforeProcessing (text : List UInt8) : Transfer where
  arriving := Function.update (fun _ => []) (.readerToProcessor .reading) [text]
  sent := []
  output := none
  writes := 0
  failures := []

/-- The process succeeds after it has sent exactly `output`. -/
def Sends (startN endN : Nat) (text output : List UInt8) : Prop :=
  ∀ portions stale, (unfailing portions).Surely () (createDataProcessor startN endN stale)
    (fun result transfer => result = true ∧ transfer.sent = [output] ∧ transfer.failures = [])
    (beforeProcessing text)

/-- The process fails with a message and has sent nothing. -/
def SendsNothing (startN endN : Nat) (text : List UInt8) : Prop :=
  ∀ portions stale, (unfailing portions).Surely () (createDataProcessor startN endN stale)
    (fun result transfer => result = false ∧ transfer.sent = [] ∧ transfer.failures.length = 1)
    (beforeProcessing text)

theorem reverseSubstring_readInto {stale : Chars} (ordered : startN ≤ endN) (inside : endN < text.length)
    (fits : text.length < bufferSize) : ∃ readBuffer,
    reverseSubstring bufferSize (readInto stale text) startN endN = some readBuffer ∧
      written readBuffer text.length = reversed startN endN text := by
  refine ⟨_, ?_, @written_reflect stale _ _ _ ordered inside⟩
  rw [reverseSubstring, if_pos ordered, swapLoop_eq (by omega)]

theorem beforeProcessing_arriving (text : List UInt8) :
    (beforeProcessing text).arriving (.readerToProcessor .reading) = [text] := by
  simp only [beforeProcessing, Function.update_self]

theorem sends_reversed (ordered : startN ≤ endN) (inside : endN < text.length) (fits : text.length < bufferSize) :
    Sends startN endN text (reversed startN endN text) := by
  intro portions stale
  obtain ⟨readBuffer, swapped, output⟩ := @reverseSubstring_readInto startN endN text stale ordered inside fits
  refine surely_bind.mpr (surely_bind.mpr (surely_close (surely_bind.mpr (surely_close ?_))))
  refine surely_bind.mpr (surely_read (beforeProcessing_arriving text) (Nat.le_sub_one_of_lt fits) ?_)
  show (unfailing portions).Surely () (if text.length = 0 then _ else if endN ≥ text.length then _ else _) _ _
  rw [if_neg (by omega), if_neg (by omega), swapped]
  refine surely_bind.mpr (surely_send (by rintro ⟨⟩) ?_)
  refine surely_bind.mpr (surely_close (surely_bind.mpr (surely_close ?_)))
  show true = true ∧ [] ++ [written readBuffer text.length] = _ ∧ [] = []
  rw [output]
  exact ⟨rfl, rfl, rfl⟩

theorem sendsNothing (short : text.length = 0 ∨ text.length ≤ endN) (fits : text.length < bufferSize) :
    SendsNothing startN endN text := by
  intro portions stale
  refine surely_bind.mpr (surely_bind.mpr (surely_close (surely_bind.mpr (surely_close ?_))))
  refine surely_bind.mpr (surely_read (beforeProcessing_arriving text) (Nat.le_sub_one_of_lt fits) ?_)
  show (unfailing portions).Surely () (if text.length = 0 then _ else if endN ≥ text.length then _ else _) _ _
  split_ifs
  · refine surely_bind.mpr (surely_printFailureMessage ?_)
    exact surely_bind.mpr (surely_closeAll ⟨rfl, rfl, rfl⟩)
  · refine surely_bind.mpr (surely_printFailureMessage ?_)
    exact surely_bind.mpr (surely_closeAll ⟨rfl, rfl, rfl⟩)
  · omega

/-- The data processor reverses the substring or sends nothing at all. -/
theorem createDataProcessor_exact (ordered : startN ≤ endN) (fits : text.length ≤ bufferSize - 1) :
    (endN < text.length → ∃ output, Reversed startN endN text output ∧ Sends startN endN text output ∧
      Sends startN endN output text) ∧
    (text.length = 0 ∨ endN ≥ text.length → SendsNothing startN endN text) := by
  have small : text.length < bufferSize := Nat.lt_of_le_sub_one (by decide) fits
  constructor
  · intro inside
    have length := length_reversed ordered inside
    refine ⟨_, reversed_spec ordered inside, sends_reversed ordered inside small, ?_⟩
    have back := sends_reversed ordered (by rwa [length]) (by rwa [length])
    rwa [reversed_reversed ordered inside] at back
  · intro short
    exact sendsNothing short small

end

def fiveCharacters : List UInt8 := [97, 98, 99, 100, 101]

/-- The middle of five characters. -/
theorem middle_of_five_reversed : ∃ output, Reversed 1 3 fiveCharacters output ∧
    Sends 1 3 fiveCharacters output ∧ Sends 1 3 output fiveCharacters :=
  (@createDataProcessor_exact 1 3 fiveCharacters (by decide) (by decide)).1 (by decide)

end Mark4

end ArchCompSystems.OsIhw1
