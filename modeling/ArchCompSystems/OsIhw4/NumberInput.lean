import ArchCompSystems.Library.Scanf

namespace ArchCompSystems.OsIhw4

open Library

def nextUint (conversions : Conversions) (minValue maxValue : UInt32) : Nat → List UInt8 → Option UInt32 :=
  scanUntil conversions fun val => val - minValue ≤ maxValue - minValue

/-- In the manager.c of os_ihw3. -/
def nextUserCommand (conversions : Conversions) (iterations : Nat) (input : List UInt8) : Option Bool :=
  (scanUntil conversions (fun cmd => cmd - 1 ≤ 1) iterations input).map (· == 1)

def readUint32 (conversions : Conversions) : Nat → List UInt8 → Option UInt32 :=
  scanUntil conversions fun _ => true

/-- The functions with their callers' bounds. -/
inductive Reader where
  | nextUint (minValue maxValue : UInt32) (ordered : minValue ≤ maxValue)
  | nextUserCommand
  | readUint32

namespace Reader

def accepts : Reader → UInt32 → Bool
  | .nextUint minValue maxValue _, val => val - minValue ≤ maxValue - minValue
  | .nextUserCommand, cmd => cmd - 1 ≤ 1
  | .readUint32, _ => true

/-- The value that the function acts on; `next_user_command` tells whether the command is 1, and if not, it is 2. -/
def read (conversions : Conversions) : Reader → Nat → List UInt8 → Option UInt32
  | .nextUint minValue maxValue _, iterations, input => OsIhw4.nextUint conversions minValue maxValue iterations input
  | .nextUserCommand, iterations, input =>
    (OsIhw4.nextUserCommand conversions iterations input).map fun disables => if disables then 1 else 2
  | .readUint32, iterations, input => OsIhw4.readUint32 conversions iterations input

def Wants : Reader → UInt32 → Prop
  | .nextUint minValue maxValue _, value => minValue ≤ value ∧ value ≤ maxValue
  | .nextUserCommand, value => value = 1 ∨ value = 2
  | .readUint32, _ => True

theorem accepts_iff (reader : Reader) (value : UInt32) : reader.accepts value = true ↔ reader.Wants value := by
  cases reader with
  | nextUint minValue maxValue ordered =>
    have bounds := UInt32.le_iff_toNat_le.mp ordered
    have small := value.toNat_lt
    have small' := maxValue.toNat_lt
    simp only [accepts, Wants, decide_eq_true_eq, UInt32.le_iff_toNat_le, UInt32.toNat_sub]
    omega
  | nextUserCommand =>
    have small := value.toNat_lt
    have one : (1 : UInt32).toNat = 1 := rfl
    have two : (2 : UInt32).toNat = 2 := rfl
    simp only [accepts, Wants, decide_eq_true_eq, UInt32.le_iff_toNat_le, UInt32.toNat_sub, ← UInt32.toNat_inj,
      one, two]
    omega
  | readUint32 => simp [accepts, Wants]

theorem read_eq (conversions : Conversions) (reader : Reader) :
    reader.read conversions = scanUntil conversions reader.accepts := by
  funext iterations input
  cases reader with
  | nextUint | readUint32 => rfl
  | nextUserCommand =>
    show ((scanUntil conversions (accepts .nextUserCommand) iterations input).map (· == 1)).map _ = _
    cases scanned : scanUntil conversions (accepts .nextUserCommand) iterations input with
    | none => rfl
    | some cmd =>
      rcases (accepts_iff .nextUserCommand cmd).mp (accepts_of_scanUntil scanned) with rfl | rfl <;> rfl

end Reader

/-- The first token that is an integer which the caller wants, and the tokens in front of it. -/
def FirstAcceptable (reader : Reader) (input : List UInt8) (before : List (List UInt8)) (value : UInt32) : Prop :=
  ∃ word after, tokens input = before ++ word :: after ∧ IsInteger word value.toNat ∧ reader.Wants value ∧
    ∀ other ∈ before, ∀ wanted : UInt32, reader.Wants wanted → ¬ IsInteger other wanted.toNat

variable {conversions : Conversions} {reader : Reader} {input : List UInt8} {before : List (List UInt8)}
  {value : UInt32}

/-- The value of the first acceptable token is read if the tokens in front of it are read over, or if the
    same value is found in one of them; otherwise another value is, or none ever. -/
theorem reads_first_acceptable_iff (first : FirstAcceptable reader input before value) :
    (∃ iterations, reader.read conversions iterations input = some value) ↔
      (∀ other ∈ before, ReadOver conversions reader.accepts other) ∨
        ∃ front other rest, before = front ++ other :: rest ∧
          (∀ earlier ∈ front, ReadOver conversions reader.accepts earlier) ∧
          Yields conversions reader.accepts other value := by
  obtain ⟨word, after, split, integer, wants, -⟩ := first
  have member : word ∈ tokens input := by
    rw [split]
    exact List.mem_append_right _ (List.mem_cons_self ..)
  obtain ⟨numbered, -⟩ := numbers_of_integer (noSpace_of_mem_tokens member) integer
  rw [reader.read_eq, scanUntil_iff, numbers_eq_tokenNumbers, split]
  exact tokenNumbers_find_iff numbered ((reader.accepts_iff value).mpr wants)

/-- The conversion that keeps the last 32 bits. -/
def wrapping : Conversions where
  stored value := UInt32.ofNat (value % 2 ^ 32).toNat
  exact value := by
    have small := value.toNat_lt
    have same : ((value.toNat : Int) % 2 ^ 32).toNat = value.toNat := by omega
    rw [same, UInt32.ofNat_toNat]

/-- `x 1`: the letter is never read, so that the loop goes on for ever. -/
theorem letter_never_read : ¬ ∀ (reader : Reader) (input : List UInt8) (before : List (List UInt8)) (value : UInt32),
    FirstAcceptable reader input before value →
      ∃ iterations, reader.read wrapping iterations input = some value := by
  intro reads
  have first : FirstAcceptable .nextUserCommand [120, 32, 49] [[120]] 1 := by
    refine ⟨[49], [], by decide, numeral_iff_scan.mpr (by decide), .inl rfl, fun other member wanted _ integer => ?_⟩
    obtain rfl := List.mem_singleton.mp member
    exact integer.scan_eq.1 rfl
  obtain ⟨iterations, returned⟩ := reads _ _ _ _ first
  rw [Reader.read_eq, scanUntil_stuck (by decide) (by decide)] at returned
  cases returned

/-- `7 2`: the command 7 is refused, the command 2 is taken. -/
theorem second_command_taken : ∃ iterations, Reader.nextUserCommand.read wrapping iterations [55, 32, 50] = some 2 := by
  have seven : numbers [55] = [7] ∧ Legible [55] :=
    numbers_of_integer (by simp [isSpace]) (numeral_iff_scan.mpr (by decide))
  have first : FirstAcceptable .nextUserCommand [55, 32, 50] [[55]] 2 := by
    refine ⟨[50], [], by decide, numeral_iff_scan.mpr (by decide), .inr rfl, fun other member wanted wants integer => ?_⟩
    obtain rfl := List.mem_singleton.mp member
    have value : (7 : Int) = wanted.toNat := integer.scan_eq.2.1
    rcases wants with rfl | rfl
    · revert value
      decide
    · revert value
      decide
  refine (reads_first_acceptable_iff first).mpr (.inl fun other member => ?_)
  obtain rfl := List.mem_singleton.mp member
  refine ⟨seven.2, fun number member => ?_⟩
  rw [seven.1, List.mem_singleton] at member
  subst member
  decide

end ArchCompSystems.OsIhw4
