import ArchCompSystems.Library.Numerals

namespace ArchCompSystems.OsIhw1

open Library

def parseOk : Nat := 0

def tooFewArgs : Nat := 1 <<< 1

def tooManyArgs : Nat := 1 <<< 2

def startIndexError : Nat := 1 <<< 3

def endIndexError : Nat := 1 <<< 4

def incorrectIndexesOrder : Nat := 1 <<< 5

/-- `parse_result_t`; the status is a set of flags. -/
structure ParseResult where
  startN1 : Nat
  endN2 : Nat
  status : Nat
  deriving DecidableEq

def erange : Nat := 34

def toUint32 (value : Int) : Nat := (value % 2 ^ 32).toNat

structure ParsedIndex where
  index : Nat
  errno : Nat
  status : Nat

def parseIndex (arg : List UInt8) (error errno status : Nat) : ParsedIndex :=
  let converted := strtoll arg
  let errno := if converted.outOfRange then erange else errno
  let index := toUint32 converted.value
  if converted.endPtr = 0 ∨ (index : Int) ≠ converted.value ∨ errno = erange then
    { index, errno := 0, status := status ||| error }
  else { index, errno, status }

def parseArguments (argv : List (List UInt8)) (errno : Nat) : ParseResult :=
  match argv with
  | [_, startArg, endArg] =>
    let start := parseIndex startArg startIndexError errno parseOk
    let «end» := parseIndex endArg endIndexError start.errno start.status
    { startN1 := start.index
      endN2 := «end».index
      status := if start.index > «end».index then «end».status ||| incorrectIndexesOrder else «end».status }
  | argv => { startN1 := 0, endN2 := 0, status := if argv.length < 3 then tooFewArgs else tooManyArgs }

/-- The text starts with an integer that is an index. -/
def StartsWithIndex (arg : List UInt8) (index : Nat) (rest : List UInt8) : Prop :=
  index < 2 ^ 32 ∧ Numeral arg index rest

def IsIndex (arg : List UInt8) (index : Nat) : Prop := index < 2 ^ 32 ∧ IsInteger arg index

section

variable {arg rest : List UInt8} {index error errno status : Nat}

theorem parseIndex_of_index (clear : errno ≠ erange) (starts : StartsWithIndex arg index rest) :
    parseIndex arg error errno status = { index, errno, status } := by
  obtain ⟨narrow, numeral⟩ := starts
  have less := numeral.length_lt
  have inside : max llongMin (min llongMax (index : Int)) = index := by
    unfold llongMin llongMax
    omega
  have range : ((index : Int) < llongMin || llongMax < (index : Int)) = false := by
    rw [Bool.or_eq_false_iff]
    exact ⟨decide_eq_false (by unfold llongMin; omega), decide_eq_false (by unfold llongMax; omega)⟩
  have same : toUint32 index = index := by
    unfold toUint32
    omega
  rw [parseIndex, strtoll_of_numeral numeral]
  simp only [inside, range, same, Bool.false_eq_true, if_false]
  rw [if_neg]
  rintro (started | changed | overflow)
  · omega
  · exact changed rfl
  · exact clear overflow

theorem parseIndex_of_no_index (absent : ∀ index rest, ¬ StartsWithIndex arg index rest) :
    ∃ index, parseIndex arg error errno status = { index, errno := 0, status := status ||| error } := by
  refine ⟨toUint32 (strtoll arg).value, ?_⟩
  rw [parseIndex, if_pos]
  by_cases none : ∀ value rest, ¬ Numeral arg value rest
  · rw [strtoll_of_no_numeral none]
    exact .inl rfl
  · push Not at none
    obtain ⟨value, rest, numeral⟩ := none
    rw [strtoll_of_numeral numeral]
    by_cases overflow : value < llongMin ∨ llongMax < value
    · right; right
      simp only [Bool.or_eq_true, decide_eq_true_eq, if_pos overflow]
    · right; left
      have inside : max llongMin (min llongMax value) = value := by omega
      simp only [inside]
      intro same
      have narrow : toUint32 value < 2 ^ 32 := by
        unfold toUint32
        omega
      exact absent (toUint32 value) rest ⟨narrow, by rwa [same]⟩

theorem StartsWithIndex.unique {index' : Nat} {rest' : List UInt8} (starts : StartsWithIndex arg index rest)
    (starts' : StartsWithIndex arg index' rest') : index = index' ∧ rest = rest' := by
  obtain ⟨-, value, after⟩ := starts.2.scan_eq
  obtain ⟨-, value', after'⟩ := starts'.2.scan_eq
  have same := value.symm.trans value'
  exact ⟨by omega, after.symm.trans after'⟩

end

section

variable {program startArg endArg startRest endRest : List UInt8} {start «end» : Nat}

theorem parseArguments_of_indexes (starts : StartsWithIndex startArg start startRest)
    (ends : StartsWithIndex endArg «end» endRest) :
    parseArguments [program, startArg, endArg] 0 =
      { startN1 := start
        endN2 := «end»
        status := if start > «end» then incorrectIndexesOrder else parseOk } := by
  simp only [parseArguments, @parseIndex_of_index _ _ _ _ 0 _ (by decide) starts,
    @parseIndex_of_index _ _ _ _ 0 _ (by decide) ends]
  rfl

/-- The status is `PARSE_OK` when both arguments start with an index, in order, and not otherwise. -/
theorem status_eq_parseOk_iff : (parseArguments [program, startArg, endArg] 0).status = parseOk ↔
    ∃ start startRest «end» endRest, StartsWithIndex startArg start startRest ∧
      StartsWithIndex endArg «end» endRest ∧ start ≤ «end» := by
  by_cases starts : ∃ start startRest, StartsWithIndex startArg start startRest
  · obtain ⟨start, startRest, starts⟩ := starts
    by_cases ends : ∃ «end» endRest, StartsWithIndex endArg «end» endRest
    · obtain ⟨«end», endRest, ends⟩ := ends
      rw [parseArguments_of_indexes starts ends]
      simp only
      split_ifs with disordered
      · apply iff_of_false (by decide)
        rintro ⟨start', startRest', end', endRest', starts', ends', ordered⟩
        obtain ⟨rfl, -⟩ := starts.unique starts'
        obtain ⟨rfl, -⟩ := ends.unique ends'
        omega
      · exact iff_of_true rfl ⟨start, startRest, «end», endRest, starts, ends, by omega⟩
    · push Not at ends
      obtain ⟨index, parsed⟩ := @parseIndex_of_no_index _ endIndexError 0 parseOk ends
      simp only [parseArguments, @parseIndex_of_index _ _ _ _ 0 _ (by decide) starts, parsed]
      apply iff_of_false
      · split_ifs <;> decide
      · rintro ⟨_, _, «end», endRest, -, ends', -⟩
        exact ends «end» endRest ends'
  · push Not at starts
    obtain ⟨first, parsed⟩ := @parseIndex_of_no_index _ startIndexError 0 parseOk starts
    apply iff_of_false
    · by_cases ends : ∃ «end» endRest, StartsWithIndex endArg «end» endRest
      · obtain ⟨«end», endRest, ends⟩ := ends
        simp only [parseArguments, parsed, @parseIndex_of_index _ _ _ _ 0 _ (by decide) ends]
        split_ifs <;> decide
      · push Not at ends
        obtain ⟨second, parsed'⟩ := @parseIndex_of_no_index _ endIndexError 0 (parseOk ||| startIndexError) ends
        simp only [parseArguments, parsed, parsed']
        split_ifs <;> decide
    · rintro ⟨start, startRest, _, _, starts', -⟩
      exact starts start startRest starts'

/-- Exactly the pairs of indexes in order are accepted, with their values. -/
structure AcceptsExactly (startArg endArg : List UInt8) : Prop where
  accepts : ∀ program, (parseArguments [program, startArg, endArg] 0).status = parseOk ↔
    ∃ start «end», IsIndex startArg start ∧ IsIndex endArg «end» ∧ start ≤ «end»
  values : ∀ program, (parseArguments [program, startArg, endArg] 0).status = parseOk →
    IsIndex startArg (parseArguments [program, startArg, endArg] 0).startN1 ∧
      IsIndex endArg (parseArguments [program, startArg, endArg] 0).endN2 ∧
        (parseArguments [program, startArg, endArg] 0).startN1 ≤
          (parseArguments [program, startArg, endArg] 0).endN2

theorem nothing_behind {startRest endRest : List UInt8} {start «end» : Nat}
    (exactly : AcceptsExactly startArg endArg) (starts : StartsWithIndex startArg start startRest)
    (ends : StartsWithIndex endArg «end» endRest) (ordered : start ≤ «end») : startRest = [] ∧ endRest = [] := by
  obtain ⟨start', end', isStart, isEnd, -⟩ := (exactly.accepts []).mp
    (status_eq_parseOk_iff.mpr ⟨start, startRest, «end», endRest, starts, ends, ordered⟩)
  exact ⟨(starts.unique isStart).2, (ends.unique isEnd).2⟩

/-- The arguments are told from pairs of indexes, unless both start with an index, in order, and
    something follows the digits. -/
theorem acceptsExactly_iff : AcceptsExactly startArg endArg ↔
    ∀ start startRest «end» endRest, StartsWithIndex startArg start startRest →
      StartsWithIndex endArg «end» endRest → start ≤ «end» → startRest = [] ∧ endRest = [] := by
  constructor
  · intro exactly start startRest «end» endRest
    exact nothing_behind exactly
  · intro nothing
    constructor
    · intro program
      rw [status_eq_parseOk_iff]
      constructor
      · rintro ⟨start, startRest, «end», endRest, starts, ends, ordered⟩
        obtain ⟨rfl, rfl⟩ := nothing _ _ _ _ starts ends ordered
        exact ⟨start, «end», starts, ends, ordered⟩
      · rintro ⟨start, «end», isStart, isEnd, ordered⟩
        exact ⟨start, [], «end», [], isStart, isEnd, ordered⟩
    · intro program ok
      obtain ⟨start, startRest, «end», endRest, starts, ends, ordered⟩ := status_eq_parseOk_iff.mp ok
      obtain ⟨rfl, rfl⟩ := nothing _ _ _ _ starts ends ordered
      rw [parseArguments_of_indexes starts ends]
      exact ⟨starts, ends, ordered⟩

end

/-- `5x` and `10` are taken for 5 and 10. -/
theorem letter_behind_digit_accepted : ¬ AcceptsExactly [53, 120] [49, 48] := by
  intro exactly
  have five : StartsWithIndex [53, 120] 5 [120] := ⟨by decide, numeral_iff_scan.mpr (by decide)⟩
  have ten : StartsWithIndex [49, 48] 10 [] := ⟨by decide, numeral_iff_scan.mpr (by decide)⟩
  cases (nothing_behind exactly five ten (by decide)).1

end ArchCompSystems.OsIhw1
