import Mathlib.Algebra.Ring.Int.Defs
import Mathlib.Algebra.Ring.Nat
import Mathlib.Data.List.Basic
import Mathlib.Data.List.TakeWhile
import Mathlib.Tactic.Common

namespace ArchCompSystems.Library

/-- `isspace` of the C locale. -/
def isSpace (c : UInt8) : Bool := c.toNat = 32 || (9 ≤ c.toNat && c.toNat ≤ 13)

def isDigit (c : UInt8) : Bool := 48 ≤ c.toNat && c.toNat ≤ 57

def plus : UInt8 := 43

def minus : UInt8 := 45

def digitsValue (digits : List UInt8) : Nat := digits.foldl (fun value c => 10 * value + (c.toNat - 48)) 0

inductive Sign where
  | none
  | plus
  | minus
  deriving DecidableEq

namespace Sign

def chars : Sign → List UInt8
  | .none => []
  | .plus => [Library.plus]
  | .minus => [Library.minus]

def apply : Sign → Nat → Int
  | .minus, value => -value
  | _, value => value

end Sign

/-- A text that starts with a decimal integer, as `strtol` and its kind want it: white space, a sign
    and digits, as many as there are. -/
inductive Numeral : List UInt8 → Int → List UInt8 → Prop where
  | mk {spaces digits rest : List UInt8} (sign : Sign) (all_spaces : ∀ c ∈ spaces, isSpace c)
      (nonempty : digits ≠ []) (all_digits : ∀ c ∈ digits, isDigit c)
      (longest : ∀ c, rest.head? = some c → isDigit c = false) :
      Numeral (spaces ++ (sign.chars ++ (digits ++ rest))) (sign.apply (digitsValue digits)) rest

/-- The text is a decimal integer with nothing behind it. -/
def IsInteger (s : List UInt8) (value : Int) : Prop := Numeral s value []

structure Scan where
  sign : Sign
  digits : List UInt8
  rest : List UInt8

def Scan.value (scan : Scan) : Int := scan.sign.apply (digitsValue scan.digits)

def splitSign : List UInt8 → Sign × List UInt8
  | [] => (.none, [])
  | c :: s => if c = minus then (.minus, s) else if c = plus then (.plus, s) else (.none, c :: s)

def scan (s : List UInt8) : Scan :=
  let signed := splitSign (s.dropWhile isSpace)
  { sign := signed.1
    digits := signed.2.takeWhile isDigit
    rest := signed.2.dropWhile isDigit }

theorem isSpace_eq_false_of_isDigit {c : UInt8} (digit : isDigit c) : isSpace c = false := by
  simp only [isDigit, isSpace, Bool.and_eq_true, decide_eq_true_eq, Bool.or_eq_false_iff, Bool.and_eq_false_iff,
    decide_eq_false_iff_not] at *
  omega

theorem splitSign_of_isDigit {c : UInt8} {s : List UInt8} (digit : isDigit c) :
    splitSign (c :: s) = (.none, c :: s) := by
  have other : c ≠ minus ∧ c ≠ plus := by
    constructor <;>
      · rintro rfl
        revert digit
        decide
  rw [splitSign, if_neg other.1, if_neg other.2]

theorem dropWhile_append_stop {p : UInt8 → Bool} {front rest : List UInt8} (all : ∀ c ∈ front, p c)
    (stop : ∀ c, rest.head? = some c → p c = false) : (front ++ rest).dropWhile p = rest := by
  rw [List.dropWhile_append_of_pos all]
  cases rest with
  | nil => rfl
  | cons c rest => rw [List.dropWhile_cons_of_neg (by rw [stop c rfl]; decide)]

theorem takeWhile_append_stop {p : UInt8 → Bool} {front rest : List UInt8} (all : ∀ c ∈ front, p c)
    (stop : ∀ c, rest.head? = some c → p c = false) : (front ++ rest).takeWhile p = front := by
  rw [List.takeWhile_append_of_pos all]
  cases rest with
  | nil => exact List.append_nil front
  | cons c rest => rw [List.takeWhile_cons_of_neg (by rw [stop c rfl]; decide), List.append_nil]

theorem Numeral.scan_eq {s rest : List UInt8} {value : Int} (numeral : Numeral s value rest) :
    (scan s).digits ≠ [] ∧ (scan s).value = value ∧ (scan s).rest = rest := by
  obtain @⟨spaces, digits, rest, sign, all_spaces, nonempty, all_digits, longest⟩ := numeral
  have first : ∀ c, (sign.chars ++ (digits ++ rest)).head? = some c → isSpace c = false := by
    intro c head
    cases sign with
    | none =>
      cases digits with
      | nil => exact absurd rfl nonempty
      | cons digit digits =>
        obtain rfl : digit = c := Option.some.inj head
        exact isSpace_eq_false_of_isDigit (all_digits digit (List.mem_cons_self ..))
    | plus =>
      obtain rfl : plus = c := Option.some.inj head
      decide
    | minus =>
      obtain rfl : minus = c := Option.some.inj head
      decide
  have split : splitSign (sign.chars ++ (digits ++ rest)) = (sign, digits ++ rest) := by
    cases sign with
    | none =>
      cases digits with
      | nil => exact absurd rfl nonempty
      | cons digit digits => exact splitSign_of_isDigit (all_digits digit (List.mem_cons_self ..))
    | plus => rfl
    | minus => rfl
  unfold scan
  rw [dropWhile_append_stop all_spaces first, split]
  simp only [Scan.value]
  rw [takeWhile_append_stop all_digits longest, dropWhile_append_stop all_digits longest]
  exact ⟨nonempty, rfl, rfl⟩

theorem splitSign_chars (s : List UInt8) : (splitSign s).1.chars ++ (splitSign s).2 = s := by
  cases s with
  | nil => rfl
  | cons c s =>
    simp only [splitSign]
    split_ifs with negative positive
    · rw [negative]
      rfl
    · rw [positive]
      rfl
    · rfl

theorem scan_parts (s : List UInt8) :
    s = s.takeWhile isSpace ++ ((scan s).sign.chars ++ ((scan s).digits ++ (scan s).rest)) := by
  unfold scan
  simp only
  rw [List.takeWhile_append_dropWhile, splitSign_chars, List.takeWhile_append_dropWhile]

theorem numeral_of_scan {s : List UInt8} (nonempty : (scan s).digits ≠ []) :
    Numeral s (scan s).value (scan s).rest := by
  have parts := scan_parts s
  have numeral := @Numeral.mk (s.takeWhile isSpace) (scan s).digits (scan s).rest (scan s).sign
    (fun c member => List.mem_takeWhile_imp member) nonempty (fun c member => List.mem_takeWhile_imp member)
    (fun c head => by
      have stop := List.head?_dropWhile_not isDigit (splitSign (s.dropWhile isSpace)).2
      have same : ((splitSign (s.dropWhile isSpace)).2.dropWhile isDigit).head? = some c := head
      rw [same] at stop
      exact stop)
  rw [← parts] at numeral
  exact numeral

theorem numeral_iff_scan {s rest : List UInt8} {value : Int} :
    Numeral s value rest ↔ (scan s).digits ≠ [] ∧ (scan s).value = value ∧ (scan s).rest = rest := by
  constructor
  · exact Numeral.scan_eq
  · rintro ⟨nonempty, rfl, rfl⟩
    exact numeral_of_scan nonempty

theorem Numeral.length_lt {s rest : List UInt8} {value : Int} (numeral : Numeral s value rest) :
    rest.length < s.length := by
  obtain ⟨sign, -, nonempty, -, -⟩ := numeral
  have pos := List.length_pos_iff.mpr nonempty
  simp only [List.length_append]
  omega

/-- What a conversion gives: the number, how far the end pointer is from the start, and whether
    `errno` becomes `ERANGE`. -/
structure Conversion where
  value : Int
  endPtr : Nat
  outOfRange : Bool

def llongMin : Int := -2 ^ 63

def llongMax : Int := 2 ^ 63 - 1

def strtoll (s : List UInt8) : Conversion :=
  if (scan s).digits = [] then { value := 0, endPtr := 0, outOfRange := false }
  else {
    value := max llongMin (min llongMax (scan s).value)
    endPtr := s.length - (scan s).rest.length
    outOfRange := (scan s).value < llongMin || llongMax < (scan s).value }

theorem strtoll_of_numeral {s rest : List UInt8} {value : Int} (numeral : Numeral s value rest) :
    strtoll s = {
      value := max llongMin (min llongMax value)
      endPtr := s.length - rest.length
      outOfRange := value < llongMin || llongMax < value } := by
  obtain ⟨nonempty, rfl, rfl⟩ := numeral.scan_eq
  rw [strtoll, if_neg nonempty]

theorem strtoll_of_no_numeral {s : List UInt8} (no_numeral : ∀ value rest, ¬ Numeral s value rest) :
    strtoll s = { value := 0, endPtr := 0, outOfRange := false } := by
  by_cases digits : (scan s).digits = []
  · rw [strtoll, if_pos digits]
  · exact absurd (numeral_of_scan digits) (no_numeral _ _)

def ulongMax : Nat := 2 ^ 64 - 1

def toUlong (value : Int) : Nat := if ulongMax < value.natAbs then ulongMax else (value % 2 ^ 64).toNat

def strtoul (s : List UInt8) : Conversion :=
  if (scan s).digits = [] then { value := 0, endPtr := 0, outOfRange := false }
  else {
    value := toUlong (scan s).value
    endPtr := s.length - (scan s).rest.length
    outOfRange := ulongMax < (scan s).value.natAbs }

theorem strtoul_of_numeral {s rest : List UInt8} {value : Int} (numeral : Numeral s value rest) :
    strtoul s = {
      value := toUlong value
      endPtr := s.length - rest.length
      outOfRange := ulongMax < value.natAbs } := by
  obtain ⟨nonempty, rfl, rfl⟩ := numeral.scan_eq
  rw [strtoul, if_neg nonempty]

theorem strtoul_of_no_numeral {s : List UInt8} (no_numeral : ∀ value rest, ¬ Numeral s value rest) :
    strtoul s = { value := 0, endPtr := 0, outOfRange := false } := by
  by_cases digits : (scan s).digits = []
  · rw [strtoul, if_pos digits]
  · exact absurd (numeral_of_scan digits) (no_numeral _ _)

theorem Numeral.drop_eq {s rest : List UInt8} {value : Int} (numeral : Numeral s value rest) :
    s.drop (s.length - rest.length) = rest := by
  obtain @⟨spaces, digits, rest, sign, -, -, -, -⟩ := numeral
  rw [← List.append_assoc, ← List.append_assoc, List.length_append, Nat.add_sub_cancel, List.drop_left]

theorem isInteger_of_digits {s : List UInt8} (nonempty : s ≠ []) (all_digits : ∀ c ∈ s, isDigit c) :
    IsInteger s (digitsValue s) := by
  have numeral := @Numeral.mk [] s [] .none (fun _ member => nomatch member) nonempty all_digits
    (fun _ head => nomatch head)
  simp only [Sign.chars, Sign.apply, List.nil_append, List.append_nil] at numeral
  exact numeral

end ArchCompSystems.Library
