import ArchCompSystems.OsIhw1.ChunkedReversal

namespace ArchCompSystems.OsIhw1

def sizeAdd (a b : Nat) : Nat := (a + b) % 2 ^ 64

def sizeSub (a b : Nat) : Nat := (a + (2 ^ 64 - b)) % 2 ^ 64

/-- A call of `reverse_substring` on a chunk, with the operands of the subtractions that lead to its
    arguments. -/
structure ReverseCall where
  l : Nat
  r : Nat
  stringLength : Nat
  subtractions : List (Nat × Nat)
  deriving DecidableEq

/-- The call that `run_impl` makes for a chunk that starts at `currentIndex`, if it makes one. -/
def reverseCall (startN endN currentIndex stringLength : Nat) : Option ReverseCall :=
  if currentIndex ≤ startN ∧ startN < sizeAdd currentIndex stringLength then
    some {
      l := sizeSub startN currentIndex
      r := min endN (sizeSub (sizeAdd currentIndex stringLength) 1)
      stringLength
      subtractions := [(startN, currentIndex)] }
  else if currentIndex ≤ endN ∧ endN < sizeAdd currentIndex stringLength then
    some {
      l := sizeSub (max startN currentIndex) currentIndex
      r := sizeSub endN currentIndex
      stringLength
      subtractions := [(max startN currentIndex, currentIndex), (endN, currentIndex)] }
  else none

/-- The calls for chunks of these lengths; `stale i` is what the array holds before read `i`. -/
def reverseCallsFrom (startN endN : Nat) (stale : Nat → Chars) : Nat → Nat → List Nat → List ReverseCall
  | _, _, [] => []
  | i, currentIndex, stringLength :: lengths =>
    if stale i stringLength = endOfCommunicationChar then []
    else (reverseCall startN endN currentIndex stringLength).toList ++
      reverseCallsFrom startN endN stale (i + 1) (sizeAdd currentIndex stringLength) lengths

def reverseCalls (startN endN : Nat) (stale : Nat → Chars) (lengths : List Nat) : List ReverseCall :=
  reverseCallsFrom startN endN stale 0 0 lengths

/-- The call reverses a part of its chunk, and no subtraction on the way to it wraps. -/
structure ReverseCall.Inside (call : ReverseCall) : Prop where
  ordered : call.l ≤ call.r
  inside : call.r < call.stringLength
  no_wrap : ∀ operands ∈ call.subtractions, operands.2 ≤ operands.1

theorem sizeAdd_of_lt {a b : Nat} (fits : a + b < 2 ^ 64) : sizeAdd a b = a + b :=
  Nat.mod_eq_of_lt fits

theorem sizeSub_of_le {a b : Nat} (fits : a < 2 ^ 64) (le : b ≤ a) : sizeSub a b = a - b := by
  unfold sizeSub
  omega

section

variable {startN endN currentIndex stringLength : Nat}

theorem processChunk_eq_reverseCall (ordered : startN ≤ endN) (narrow : endN < 2 ^ 64)
    (pos : 0 < stringLength) (fits : currentIndex + stringLength < 2 ^ 64) (readBuffer : Chars) :
    processChunk startN endN currentIndex readBuffer stringLength =
      ((reverseCall startN endN currentIndex stringLength).map fun call =>
        reverseSubstring transferBufferSize readBuffer call.l call.r).getD (some readBuffer) := by
  unfold processChunk reverseCall
  rw [sizeAdd_of_lt fits]
  split_ifs with start «end»
  · rw [sizeSub_of_le (by omega) start.1, sizeSub_of_le fits (by omega)]
    rfl
  · rw [sizeSub_of_le (by omega) (Nat.le_max_right ..), sizeSub_of_le narrow «end».1]
    rfl
  · rfl

/-- The start of the substring is in the chunk. -/
def StartsIn (startN currentIndex stringLength : Nat) : Prop :=
  currentIndex ≤ startN ∧ startN < currentIndex + stringLength

theorem reverseCall_inside_iff (ordered : startN ≤ endN) (narrow : endN < 2 ^ 32)
    (pos : 0 < stringLength) (small : stringLength < transferBufferSize) :
    (∀ call ∈ reverseCall startN endN currentIndex stringLength, call.Inside) ↔
      (StartsIn startN currentIndex stringLength → currentIndex = 0 ∨ endN < stringLength) := by
  unfold transferBufferSize at small
  unfold StartsIn
  by_cases start : currentIndex ≤ startN ∧ startN < currentIndex + stringLength
  · have taken : currentIndex ≤ startN ∧ startN < sizeAdd currentIndex stringLength := by
      rw [sizeAdd_of_lt (by omega)]
      exact start
    rw [reverseCall, if_pos taken, sizeAdd_of_lt (by omega), sizeSub_of_le (by omega) start.1,
      sizeSub_of_le (by omega) (by omega)]
    constructor
    · intro all _
      have inside := (all _ rfl).inside
      simp only at inside
      omega
    · rintro early call ⟨⟩
      have bound := early start
      constructor
      · show startN - currentIndex ≤ min endN (currentIndex + stringLength - 1)
        omega
      · show min endN (currentIndex + stringLength - 1) < stringLength
        omega
      · intro operands member
        rw [List.mem_singleton] at member
        subst member
        exact start.1
  · have passed : ¬ (currentIndex ≤ startN ∧ startN < sizeAdd currentIndex stringLength) := by
      intro taken
      rw [sizeAdd_of_lt (by omega)] at taken
      exact start taken
    rw [reverseCall, if_neg passed]
    apply iff_of_true _ (fun here => absurd here start)
    intro call made
    split_ifs at made with «end»
    · obtain ⟨⟩ := made
      rw [sizeAdd_of_lt (by omega)] at «end»
      constructor
      · show sizeSub (max startN currentIndex) currentIndex ≤ sizeSub endN currentIndex
        rw [sizeSub_of_le (by omega) (Nat.le_max_right ..), sizeSub_of_le (by omega) «end».1]
        omega
      · show sizeSub endN currentIndex < stringLength
        rw [sizeSub_of_le (by omega) «end».1]
        omega
      · intro operands member
        simp only [List.mem_cons, List.not_mem_nil, or_false] at member
        rcases member with rfl | rfl
        · exact Nat.le_max_right ..
        · exact «end».1
    · cases made

end

section

variable {startN endN : Nat} {stale : Nat → Chars} {lengths : List Nat}

theorem mem_reverseCallsFrom {call : ReverseCall} {i total : Nat} :
    call ∈ reverseCallsFrom startN endN stale i (total % 2 ^ 64) lengths ↔
      ∃ before length after, lengths = before ++ length :: after ∧ GoesOn stale i (before ++ [length]) ∧
        call ∈ reverseCall startN endN ((total + before.sum) % 2 ^ 64) length := by
  induction lengths generalizing i total with
  | nil =>
    apply iff_of_false List.not_mem_nil
    rintro ⟨before, length, after, cut, -⟩
    cases before <;> cases cut
  | cons first lengths ih =>
    have next : sizeAdd (total % 2 ^ 64) first = (total + first) % 2 ^ 64 := Nat.mod_add_mod ..
    rw [reverseCallsFrom, next]
    by_cases stops : stale i first = endOfCommunicationChar
    · rw [if_pos stops]
      apply iff_of_false List.not_mem_nil
      rintro ⟨before, length, after, cut, going, -⟩
      cases before with
      | nil =>
        obtain ⟨⟩ := cut
        exact going.1 stops
      | cons first' before =>
        obtain ⟨⟩ := cut
        exact going.1 stops
    · rw [if_neg stops, List.mem_append, ih, Option.mem_toList]
      constructor
      · rintro (here | ⟨before, length, after, cut, going, made⟩)
        · exact ⟨[], first, lengths, rfl, ⟨stops, True.intro⟩, here⟩
        · refine ⟨first :: before, length, after, by rw [cut]; rfl, ⟨stops, going⟩, ?_⟩
          rw [List.sum_cons, ← Nat.add_assoc]
          exact made
      · rintro ⟨before, length, after, cut, going, made⟩
        cases before with
        | nil =>
          obtain ⟨⟩ := cut
          exact .inl made
        | cons first' before =>
          obtain ⟨⟩ := cut
          rw [List.sum_cons, ← Nat.add_assoc] at made
          exact .inr ⟨before, length, after, rfl, going.2, made⟩

/-- All calls stay inside of their chunks exactly if the chunk that holds the start of the substring,
    when it is reached, is at the start of the text or longer than the position of the substring's
    end. -/
theorem reverseCalls_inside_iff (ordered : startN ≤ endN) (narrow : endN < 2 ^ 32)
    (sizes : ∀ length ∈ lengths, 0 < length ∧ length < transferBufferSize) :
    (∀ call ∈ reverseCalls startN endN stale lengths, call.Inside) ↔
      ∀ before length after, lengths = before ++ length :: after → GoesOn stale 0 (before ++ [length]) →
        StartsIn startN (before.sum % 2 ^ 64) length → before.sum % 2 ^ 64 = 0 ∨ endN < length := by
  have origin := @mem_reverseCallsFrom startN endN stale lengths
  constructor
  · intro all before length after cut going
    have size := sizes length (by rw [cut]; simp)
    apply (reverseCall_inside_iff ordered narrow size.1 size.2).mp
    intro call made
    apply all
    exact (@origin call 0 0).mpr ⟨before, length, after, cut, going, by rwa [Nat.zero_add]⟩
  · intro early call member
    obtain ⟨before, length, after, cut, going, made⟩ := (@origin call 0 0).mp member
    have size := sizes length (by rw [cut]; simp)
    rw [Nat.zero_add] at made
    exact (reverseCall_inside_iff ordered narrow size.1 size.2).mpr
      (early before length after cut going) call made

end

/-- The substring at the positions 127 to 253 of a text of two full chunks. -/
theorem second_chunk_left : ¬ ∀ startN endN stale (lengths : List Nat), startN ≤ endN → endN < 2 ^ 32 →
    (∀ length ∈ lengths, 0 < length ∧ length < transferBufferSize) →
    ∀ call ∈ reverseCalls startN endN stale lengths, call.Inside := by
  intro all
  have inside := (all 127 253 (fun _ _ => 0) [127, 127] (by decide) (by decide) (by decide)
    ⟨0, 253, 127, [(127, 127)]⟩ (by decide +kernel)).inside
  revert inside
  decide

/-- A substring across the first two chunks. -/
theorem first_chunk_kept : reverseCalls 100 130 (fun _ _ => 0) [127, 127] ≠ [] ∧
    ∀ call ∈ reverseCalls 100 130 (fun _ _ => 0) [127, 127], call.Inside := by
  refine ⟨by decide, ?_⟩
  apply (@reverseCalls_inside_iff 100 130 (fun _ _ => 0) [127, 127] (by decide) (by decide)
    (by decide)).mpr
  intro before length after cut _ start
  cases before with
  | nil => exact .inl rfl
  | cons first before =>
    obtain ⟨rfl, rest⟩ := List.cons.inj cut
    cases before with
    | nil => exact absurd start.1 (by decide)
    | cons second before => cases before <;> cases rest

end ArchCompSystems.OsIhw1
