import ArchCompSystems.Library.Numerals

namespace ArchCompSystems.OsHw10

open Library

def uint16Max : Nat := 65535

def toUint16 (value : Int) : Nat := (value % 2 ^ 16).toNat

/-- The returned value and `*port`. -/
structure ParsedPort where
  accepted : Bool
  port : Nat
  deriving DecidableEq

/-- `strtoul` always sets `end_ptr`, so that it is not `NULL`. -/
def parsePort (portStr : List UInt8) : ParsedPort :=
  let portValue := strtoul portStr
  let port := toUint16 portValue.value
  let portValueOverflow := (port : Int) != portValue.value
  let parseError := portStr[portValue.endPtr]?.getD 0 != 0
  { accepted := !parseError && !portValueOverflow, port }

structure IsPort (s : List UInt8) (port : Nat) : Prop where
  nonempty : s ≠ []
  all_digits : ∀ c ∈ s, isDigit c
  value : digitsValue s = port
  small : port ≤ uint16Max

/-- The string is accepted exactly if it is a port number, and then with its value. -/
structure ParsesPort (s : List UInt8) : Prop where
  accepts : (parsePort s).accepted = true ↔ ∃ port, IsPort s port
  value : ∀ port, IsPort s port → (parsePort s).port = port

/-- The integers that come out of `strtoul` as at most 65535; the negative ones wrap around. -/
def WrapsToPort (value : Int) : Prop :=
  0 ≤ value ∧ value ≤ uint16Max ∨ -2 ^ 64 < value ∧ value ≤ -2 ^ 64 + uint16Max

section

variable {s : List UInt8}

theorem toUint16_eq_iff (value : Nat) : (toUint16 value : Int) = value ↔ value ≤ uint16Max := by
  unfold toUint16 uint16Max
  omega

theorem toUlong_le_iff (value : Int) : toUlong value ≤ uint16Max ↔ WrapsToPort value := by
  unfold toUlong ulongMax WrapsToPort uint16Max
  split_ifs with beyond <;> omega

theorem terminator_iff {rest : List UInt8} (terminated : 0 ∉ rest) : rest[0]?.getD 0 = 0 ↔ rest = [] := by
  cases rest with
  | nil => simp
  | cons c rest =>
    refine iff_of_false (fun zero => ?_) (List.cons_ne_nil _ _)
    obtain rfl : c = 0 := zero
    exact terminated (List.mem_cons_self ..)

theorem parsePort_accepted {value : Nat} {endPtr : Nat} {outOfRange : Bool}
    (converted : strtoul s = { value, endPtr, outOfRange }) : (parsePort s).accepted = true ↔
      (s.drop endPtr)[0]?.getD 0 = 0 ∧ value ≤ uint16Max := by
  rw [List.getElem?_drop, Nat.add_zero, ← toUint16_eq_iff]
  simp only [parsePort, converted, Bool.and_eq_true, Bool.not_eq_true', bne_eq_false_iff_eq]

theorem parsePort_accepted_iff (terminated : 0 ∉ s) : (parsePort s).accepted = true ↔
    s = [] ∨ ∃ value, IsInteger s value ∧ WrapsToPort value := by
  by_cases none : ∀ value rest, ¬ Numeral s value rest
  · have converted := strtoul_of_no_numeral none
    rw [← Int.natCast_zero] at converted
    rw [parsePort_accepted converted, List.drop_zero, terminator_iff terminated]
    constructor
    · rintro ⟨empty, -⟩
      exact .inl empty
    · rintro (empty | ⟨value, integer, -⟩)
      · exact ⟨empty, Nat.zero_le _⟩
      · exact absurd integer (none value [])
  · push Not at none
    obtain ⟨value, rest, numeral⟩ := none
    have behind : 0 ∉ rest := fun member => terminated (List.mem_of_mem_drop (numeral.drop_eq ▸ member))
    rw [parsePort_accepted (strtoul_of_numeral numeral), numeral.drop_eq, terminator_iff behind, toUlong_le_iff]
    obtain ⟨-, found, left⟩ := numeral.scan_eq
    constructor
    · rintro ⟨rfl, wraps⟩
      exact .inr ⟨value, numeral, wraps⟩
    · rintro (rfl | ⟨value', integer, wraps⟩)
      · exact absurd numeral.length_lt (Nat.not_lt_zero _)
      · obtain ⟨-, found', left'⟩ := Numeral.scan_eq integer
        rw [← found, found']
        exact ⟨left.symm.trans left', wraps⟩

theorem digitsValue_eq {value : Int} (integer : IsInteger s value) (nonempty : s ≠ [])
    (all_digits : ∀ c ∈ s, isDigit c) : value = digitsValue s := by
  obtain ⟨-, found, -⟩ := Numeral.scan_eq integer
  obtain ⟨-, found', -⟩ := Numeral.scan_eq (isInteger_of_digits nonempty all_digits)
  exact found.symm.trans found'

theorem IsPort.accepted {port : Nat} (terminated : 0 ∉ s) (isPort : IsPort s port) :
    (parsePort s).accepted = true := by
  have small := isPort.small
  rw [← isPort.value] at small
  rw [parsePort_accepted_iff terminated]
  exact .inr ⟨_, isInteger_of_digits isPort.nonempty isPort.all_digits, .inl ⟨by omega, by omega⟩⟩

theorem IsPort.parsed {port : Nat} (isPort : IsPort s port) : (parsePort s).port = port := by
  have small := isPort.small
  have inside : toUlong port = port := by
    unfold toUlong ulongMax
    unfold uint16Max at small
    rw [if_neg (by omega)]
    omega
  have same := (toUint16_eq_iff _).mpr small
  simp only [parsePort, strtoul_of_numeral (isInteger_of_digits isPort.nonempty isPort.all_digits),
    isPort.value, inside]
  exact Int.natCast_inj.mp same

/-- The test behind `strtoul` sees neither an empty string nor what stands before the digits. -/
theorem parsesPort_iff (terminated : 0 ∉ s) : ParsesPort s ↔
    s ≠ [] ∧ ∀ value, IsInteger s value → WrapsToPort value → ∀ c ∈ s, isDigit c := by
  constructor
  · intro parses
    have port : (parsePort s).accepted = true → ∃ port, IsPort s port := parses.accepts.mp
    rw [parsePort_accepted_iff terminated] at port
    constructor
    · intro empty
      obtain ⟨port, isPort⟩ := port (.inl empty)
      exact isPort.nonempty empty
    · intro value integer wraps
      obtain ⟨port, isPort⟩ := port (.inr ⟨value, integer, wraps⟩)
      exact isPort.all_digits
  · rintro ⟨nonempty, digits⟩
    refine ⟨⟨fun accepted => ?_, fun ⟨port, isPort⟩ => isPort.accepted terminated⟩, fun port isPort => isPort.parsed⟩
    rw [parsePort_accepted_iff terminated] at accepted
    rcases accepted with empty | ⟨value, integer, wraps⟩
    · exact absurd empty nonempty
    · have all_digits := digits value integer wraps
      have same := digitsValue_eq integer nonempty all_digits
      refine ⟨digitsValue s, nonempty, all_digits, rfl, ?_⟩
      unfold WrapsToPort at wraps
      omega

end

/-- The empty string is taken for port 0. -/
theorem empty_port_accepted : ¬ ∀ s : List UInt8, 0 ∉ s → ParsesPort s := by
  intro parses
  obtain ⟨port, isPort⟩ := (parses [] (by simp)).accepts.mp (by decide)
  exact isPort.nonempty rfl

/-- `80` -/
theorem eighty_parsed : ParsesPort [56, 48] :=
  (parsesPort_iff (by decide)).mpr ⟨by decide, fun _ _ _ => List.all_eq_true.mp (by decide)⟩

/-- The two directories that count characters; the others leave the address to `inet_pton`. -/
inductive Homework where
  | osHw10
  | osHw11
  deriving DecidableEq

/-- In os_hw10 `(uint32_t)((uint8_t)c) - '0' <= '9' - '0'`, in os_hw11 the `isdigit` of the C locale. -/
def isDigitOf : Homework → UInt8 → Bool
  | .osHw10, c => c.toUInt32 - 48 ≤ 57 - 48
  | .osHw11, c => isDigit c

def dot : UInt8 := 46

/-- `sizeof("abc.def.ghi.jkz") - 1` -/
def maxPatternLength : Nat := 15

/-- The loop; `none` is its `return false`. -/
def dotsCount (homework : Homework) : List UInt8 → Nat → Option Nat
  | [], dots => some dots
  | c :: s, dots =>
    if c = dot then dotsCount homework s (dots + 1)
    else if !isDigitOf homework c then none
    else dotsCount homework s dots

def verifyIp (homework : Homework) (ipAddress : List UInt8) : Bool :=
  if ipAddress.length > maxPatternLength then false
  else match dotsCount homework ipAddress 0 with
    | none => false
    | some dots => dots == 3

def Digits (s : List UInt8) : Prop := ∀ c ∈ s, isDigit c

/-- A group of a dotted quad. -/
structure IsGroup (s : List UInt8) : Prop where
  nonempty : s ≠ []
  short : s.length ≤ 3
  digits : Digits s
  value : digitsValue s ≤ 255

/-- Four groups, separated by single dots. -/
def withDots (a b c d : List UInt8) : List UInt8 := a ++ dot :: (b ++ dot :: (c ++ dot :: d))

def IsDottedQuad (s : List UInt8) : Prop :=
  ∃ a b c d, (IsGroup a ∧ IsGroup b ∧ IsGroup c ∧ IsGroup d) ∧ s = withDots a b c d

section

variable {homework : Homework} {s : List UInt8}

theorem isDigitOf_eq (homework : Homework) (c : UInt8) : isDigitOf homework c = isDigit c := by
  cases homework with
  | osHw10 =>
    rw [Bool.eq_iff_iff, isDigitOf, isDigit, decide_eq_true_iff, Bool.and_eq_true, decide_eq_true_iff,
      decide_eq_true_iff, UInt32.le_iff_toNat_le, UInt32.toNat_sub, UInt8.toNat_toUInt32]
    have bound := c.toNat_lt
    have nine : (57 - 48 : UInt32).toNat = 9 := rfl
    have zero : (48 : UInt32).toNat = 48 := rfl
    rw [nine, zero]
    omega
  | osHw11 => rfl

theorem dotsCount_eq_some_iff {dots total : Nat} : dotsCount homework s dots = some total ↔
    (∀ c ∈ s, c = dot ∨ isDigit c) ∧ total = dots + s.count dot := by
  induction s generalizing dots with
  | nil =>
    rw [dotsCount, Option.some.injEq, List.count_nil, Nat.add_zero, and_iff_right fun _ member => nomatch member]
    exact eq_comm
  | cons c s ih =>
    rw [dotsCount, List.forall_mem_cons, isDigitOf_eq]
    split_ifs with isDot notDigit
    · rw [ih, isDot, List.count_cons_self]
      refine and_congr (and_iff_right (.inl rfl)).symm ?_
      omega
    · refine iff_of_false (by simp) fun both => ?_
      rcases both.1.1 with dotted | digit
      · exact isDot dotted
      · rw [digit] at notDigit
        cases notDigit
    · have digit : isDigit c = true := by simpa using notDigit
      rw [ih, List.count_cons_of_ne isDot, @and_iff_right (c = dot ∨ isDigit c = true) _ (.inr digit)]

theorem Digits.dot_notMem (digits : Digits s) : dot ∉ s := by
  intro member
  have digit := digits dot member
  revert digit
  decide

theorem Digits.of_notMem (noDot : dot ∉ s) (chars : ∀ c ∈ s, c = dot ∨ isDigit c) : Digits s := by
  intro c member
  rcases chars c member with rfl | digit
  · exact absurd member noDot
  · exact digit

theorem exists_group {count : Nat} (chars : ∀ c ∈ s, c = dot ∨ isDigit c) (counted : s.count dot = count + 1) :
    ∃ group rest, s = group ++ dot :: rest ∧ Digits group ∧ (∀ c ∈ rest, c = dot ∨ isDigit c) ∧
      rest.count dot = count := by
  have member : dot ∈ s := List.count_pos_iff.mp (by omega)
  obtain ⟨group, rest, rfl, noDot⟩ := List.eq_append_cons_of_mem member
  refine ⟨group, rest, rfl, ?_, ?_, ?_⟩
  · exact Digits.of_notMem noDot fun c inside => chars c (List.mem_append_left _ inside)
  · exact fun c inside => chars c (List.mem_append_right _ (List.mem_cons_of_mem _ inside))
  · rw [List.count_append, List.count_eq_zero.mpr noDot, List.count_cons_self] at counted
    omega

theorem verifyIp_iff : verifyIp homework s = true ↔ s.length ≤ maxPatternLength ∧
    ∃ a b c d, (Digits a ∧ Digits b ∧ Digits c ∧ Digits d) ∧ s = withDots a b c d := by
  have counts : verifyIp homework s = true ↔
      s.length ≤ maxPatternLength ∧ dotsCount homework s 0 = some 3 := by
    unfold verifyIp
    split_ifs with long
    · exact iff_of_false (by decide) fun both => absurd both.1 (Nat.not_le_of_gt long)
    · rw [and_iff_right (Nat.le_of_not_gt long)]
      cases dotsCount homework s 0 with
      | none => simp
      | some dots => simp
  rw [counts, dotsCount_eq_some_iff, Nat.zero_add]
  refine and_congr_right fun _ => ?_
  constructor
  · rintro ⟨chars, counted⟩
    obtain ⟨a, s, rfl, digitsA, chars, counted⟩ := exists_group chars counted.symm
    obtain ⟨b, s, rfl, digitsB, chars, counted⟩ := exists_group chars counted
    obtain ⟨c, d, rfl, digitsC, chars, counted⟩ := exists_group chars counted
    exact ⟨a, b, c, d, ⟨digitsA, digitsB, digitsC, Digits.of_notMem (List.count_eq_zero.mp counted) chars⟩, rfl⟩
  · rintro ⟨a, b, c, d, ⟨digitsA, digitsB, digitsC, digitsD⟩, rfl⟩
    constructor
    · simp only [withDots, List.mem_append, List.mem_cons]
      rintro x (inA | rfl | inB | rfl | inC | rfl | inD)
      · exact .inr (digitsA x inA)
      · exact .inl rfl
      · exact .inr (digitsB x inB)
      · exact .inl rfl
      · exact .inr (digitsC x inC)
      · exact .inl rfl
      · exact .inr (digitsD x inD)
    · simp only [withDots, List.count_append, List.count_cons_self, List.count_eq_zero.mpr digitsA.dot_notMem,
        List.count_eq_zero.mpr digitsB.dot_notMem, List.count_eq_zero.mpr digitsC.dot_notMem,
        List.count_eq_zero.mpr digitsD.dot_notMem]

theorem Digits.append_dot_inj {x y z w : List UInt8} (digitsX : Digits x) (digitsY : Digits y)
    (same : x ++ dot :: z = y ++ dot :: w) : x = y ∧ z = w := by
  induction x generalizing y with
  | nil =>
    cases y with
    | nil => exact ⟨rfl, (List.cons.inj same).2⟩
    | cons char y => exact absurd (List.mem_cons.mpr (.inl (List.cons.inj same).1)) digitsY.dot_notMem
  | cons char x ih =>
    cases y with
    | nil => exact absurd (List.mem_cons.mpr (.inl (List.cons.inj same).1.symm)) digitsX.dot_notMem
    | cons char' y =>
      obtain ⟨rfl, tails⟩ := List.cons.inj same
      obtain ⟨rfl, behind⟩ := ih (fun c member => digitsX c (List.mem_cons_of_mem _ member))
        (fun c member => digitsY c (List.mem_cons_of_mem _ member)) tails
      exact ⟨rfl, behind⟩

theorem withDots_inj {a b c d a' b' c' d' : List UInt8} (digits : Digits a ∧ Digits b ∧ Digits c ∧ Digits d)
    (digits' : Digits a' ∧ Digits b' ∧ Digits c' ∧ Digits d') (same : withDots a b c d = withDots a' b' c' d') :
    a = a' ∧ b = b' ∧ c = c' ∧ d = d' := by
  obtain ⟨sameA, same⟩ := digits.1.append_dot_inj digits'.1 same
  obtain ⟨sameB, same⟩ := digits.2.1.append_dot_inj digits'.2.1 same
  obtain ⟨sameC, same⟩ := digits.2.2.1.append_dot_inj digits'.2.2.1 same
  exact ⟨sameA, sameB, sameC, same⟩

theorem IsDottedQuad.verified (quad : IsDottedQuad s) : verifyIp homework s = true := by
  obtain ⟨a, b, c, d, ⟨groupA, groupB, groupC, groupD⟩, rfl⟩ := quad
  refine verifyIp_iff.mpr ⟨?_, a, b, c, d, ⟨groupA.digits, groupB.digits, groupC.digits, groupD.digits⟩, rfl⟩
  have lengths : a.length ≤ 3 ∧ b.length ≤ 3 ∧ c.length ≤ 3 ∧ d.length ≤ 3 :=
    ⟨groupA.short, groupB.short, groupC.short, groupD.short⟩
  simp only [withDots, maxPatternLength, List.length_append, List.length_cons]
  omega

/-- Characters are counted, groups are not looked at. -/
theorem verifyIp_eq_isDottedQuad_iff : (verifyIp homework s = true ↔ IsDottedQuad s) ↔
    ∀ a b c d, Digits a ∧ Digits b ∧ Digits c ∧ Digits d → s = withDots a b c d →
      s.length ≤ maxPatternLength → IsGroup a ∧ IsGroup b ∧ IsGroup c ∧ IsGroup d := by
  constructor
  · intro exactly a b c d digits same short
    obtain ⟨a', b', c', d', groups, same'⟩ := exactly.mp (verifyIp_iff.mpr ⟨short, a, b, c, d, digits, same⟩)
    obtain ⟨rfl, rfl, rfl, rfl⟩ := withDots_inj digits
      ⟨groups.1.digits, groups.2.1.digits, groups.2.2.1.digits, groups.2.2.2.digits⟩ (same.symm.trans same')
    exact groups
  · intro groups
    refine ⟨fun verified => ?_, IsDottedQuad.verified⟩
    obtain ⟨short, a, b, c, d, digits, same⟩ := verifyIp_iff.mp verified
    exact ⟨a, b, c, d, groups a b c d digits same short, same⟩

end

/-- `...` is taken for an address. -/
theorem three_dots_verified : ¬ ∀ (homework : Homework) (s : List UInt8), 0 ∉ s →
    (verifyIp homework s = true ↔ IsDottedQuad s) := by
  intro exactly
  obtain ⟨a, b, c, d, groups, same⟩ := (exactly .osHw10 [dot, dot, dot] (by decide)).mp (by decide)
  have lengths := congrArg List.length same
  have nonempty := List.length_pos_iff.mpr groups.1.nonempty
  simp only [withDots, List.length_append, List.length_cons, List.length_nil] at lengths
  omega

end ArchCompSystems.OsHw10
