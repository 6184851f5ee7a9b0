import ArchCompSystems.Library.Numerals
import Mathlib.Data.List.Infix

namespace ArchCompSystems.Library

/-- What `scanf` stores for an integer; it is left open for integers that are no `unsigned int`. -/
structure Conversions where
  stored : Int → UInt32
  exact : ∀ value : UInt32, stored value.toNat = value

/-- The stored value if the conversion succeeds, and what is left in the stream. -/
structure Scanned where
  value : Option UInt32
  rest : List UInt8

def scanfUnsigned (conversions : Conversions) (input : List UInt8) : Scanned :=
  { value := if (scan input).digits = [] then none else some (conversions.stored (scan input).value)
    rest := (scan input).rest }

/-- A loop that scans until it gets an accepted value; `none` if that takes more iterations. -/
def scanUntil (conversions : Conversions) (accepts : UInt32 → Bool) : Nat → List UInt8 → Option UInt32
  | 0, _ => none
  | iterations + 1, input =>
    let scanned := scanfUnsigned conversions input
    match scanned.value with
    | none => scanUntil conversions accepts iterations scanned.rest
    | some value => if accepts value then some value else scanUntil conversions accepts iterations scanned.rest

/-- The numbers of a text up to the first character that is no white space, sign or digit. -/
def numbers (s : List UInt8) : List Int :=
  if nonempty : (scan s).digits ≠ [] then (scan s).value :: numbers (scan s).rest
  else if shorter : (scan s).rest.length < s.length then numbers (scan s).rest
  else []
termination_by s.length
decreasing_by
  · exact (numeral_of_scan nonempty).length_lt
  · exact shorter

theorem numbers_of_digits {s : List UInt8} (nonempty : (scan s).digits ≠ []) :
    numbers s = (scan s).value :: numbers (scan s).rest := by
  rw [numbers, dif_pos nonempty]

theorem numbers_of_skip {s : List UInt8} (empty : (scan s).digits = []) (shorter : (scan s).rest.length < s.length) :
    numbers s = numbers (scan s).rest := by
  rw [numbers, dif_neg (not_not.mpr empty), dif_pos shorter]

theorem numbers_of_stuck {s : List UInt8} (empty : (scan s).digits = []) (stays : ¬ (scan s).rest.length < s.length) :
    numbers s = [] := by
  rw [numbers, dif_neg (not_not.mpr empty), dif_neg stays]

@[simp] theorem numbers_nil : numbers [] = [] := numbers_of_stuck rfl (Nat.lt_irrefl 0)

section

variable {conversions : Conversions} {accepts : UInt32 → Bool} {s : List UInt8} {value : UInt32}

theorem scan_rest_suffix (s : List UInt8) : (scan s).rest <:+ s := by
  refine ⟨s.takeWhile isSpace ++ ((scan s).sign.chars ++ (scan s).digits), ?_⟩
  simp only [List.append_assoc]
  exact (scan_parts s).symm

theorem accepts_of_scanUntil {iterations : Nat} (found : scanUntil conversions accepts iterations s = some value) :
    accepts value = true := by
  induction iterations generalizing s with
  | zero => cases found
  | succ iterations ih =>
    rw [scanUntil] at found
    split at found
    · exact ih found
    · split at found
      · cases found
        assumption
      · exact ih found

theorem scanUntil_stuck (empty : (scan s).digits = []) (stays : ¬ (scan s).rest.length < s.length)
    (iterations : Nat) : scanUntil conversions accepts iterations s = none := by
  have same : (scan s).rest = s := (scan_rest_suffix s).eq_of_length_le (Nat.le_of_not_lt stays)
  induction iterations with
  | zero => rfl
  | succ iterations ih =>
    simp only [scanUntil, scanfUnsigned, if_pos empty, same]
    exact ih

theorem scanUntil_skip (empty : (scan s).digits = []) :
    (∃ iterations, scanUntil conversions accepts iterations s = some value) ↔
      ∃ iterations, scanUntil conversions accepts iterations (scan s).rest = some value := by
  have next : ∀ iterations, scanUntil conversions accepts (iterations + 1) s =
      scanUntil conversions accepts iterations (scan s).rest := fun iterations => by
    simp only [scanUntil, scanfUnsigned, if_pos empty]
  constructor
  · rintro ⟨_ | iterations, returned⟩
    · cases returned
    · exact ⟨iterations, (next iterations).symm.trans returned⟩
  · rintro ⟨iterations, returned⟩
    exact ⟨iterations + 1, (next iterations).trans returned⟩

theorem scanUntil_number (nonempty : (scan s).digits ≠ []) :
    (∃ iterations, scanUntil conversions accepts iterations s = some value) ↔
      if accepts (conversions.stored (scan s).value) then conversions.stored (scan s).value = value
      else ∃ iterations, scanUntil conversions accepts iterations (scan s).rest = some value := by
  have next : ∀ iterations, scanUntil conversions accepts (iterations + 1) s =
      if accepts (conversions.stored (scan s).value) then some (conversions.stored (scan s).value)
      else scanUntil conversions accepts iterations (scan s).rest := fun iterations => by
    simp only [scanUntil, scanfUnsigned, if_neg nonempty]
  split_ifs with accepted
  · constructor
    · rintro ⟨_ | iterations, returned⟩
      · cases returned
      · rw [next, if_pos accepted] at returned
        exact Option.some.inj returned
    · rintro rfl
      exact ⟨1, (next 0).trans (if_pos accepted)⟩
  · constructor
    · rintro ⟨_ | iterations, returned⟩
      · cases returned
      · rw [next, if_neg accepted] at returned
        exact ⟨iterations, returned⟩
    · rintro ⟨iterations, returned⟩
      exact ⟨iterations + 1, (next iterations).trans ((if_neg accepted).trans returned)⟩

theorem scanUntil_iff : (∃ iterations, scanUntil conversions accepts iterations s = some value) ↔
    ((numbers s).map conversions.stored).find? accepts = some value := by
  induction s using numbers.induct with
  | case1 s nonempty ih =>
    rw [scanUntil_number nonempty, ih, numbers_of_digits nonempty, List.map_cons, List.find?_cons]
    cases accepts (conversions.stored (scan s).value) <;> simp
  | case2 s empty shorter ih =>
    rw [scanUntil_skip (not_not.mp empty), ih, numbers_of_skip (not_not.mp empty) shorter]
  | case3 s empty stays =>
    rw [numbers_of_stuck (not_not.mp empty) stays]
    simp [scanUntil_stuck (not_not.mp empty) stays]

end

def tokens (s : List UInt8) : List (List UInt8) := (s.splitOnP isSpace).filter fun word => !word.isEmpty

def isSign (c : UInt8) : Bool := c = plus || c = minus

def Legible (word : List UInt8) : Prop := ∀ c ∈ word, isSign c ∨ isDigit c

instance (word : List UInt8) : Decidable (Legible word) := inferInstanceAs (Decidable (∀ c ∈ word, _))

section

variable {s word rest : List UInt8} {c : UInt8}

theorem tokens_space (space : isSpace c = true) : tokens (c :: s) = tokens s := by
  have nothing : ∀ c ∈ ([] : List UInt8), isSpace c = false := fun _ member => nomatch member
  have split := List.splitOnP_append_cons_of_forall_mem nothing c space s
  rw [List.nil_append] at split
  rw [tokens, split]
  rfl

theorem tokens_word (nonempty : word ≠ []) (noSpace : ∀ c ∈ word, isSpace c = false)
    (ends : ∀ c, rest.head? = some c → isSpace c = true) : tokens (word ++ rest) = word :: tokens rest := by
  have kept : ∀ words, (word :: words).filter (fun word => !word.isEmpty) =
      word :: words.filter fun word => !word.isEmpty := fun words =>
    List.filter_cons_of_pos (by rwa [Bool.not_eq_true', List.isEmpty_eq_false_iff])
  cases rest with
  | nil =>
    rw [List.append_nil, tokens, List.splitOnP_eq_singleton noSpace, kept]
    rfl
  | cons c rest =>
    rw [tokens_space (ends c rfl), tokens, List.splitOnP_append_cons_of_forall_mem noSpace c (ends c rfl), kept]
    rfl

theorem token_induction {motive : List UInt8 → Prop} (nil : motive [])
    (space : ∀ c s, isSpace c = true → motive s → motive (c :: s))
    (word : ∀ word rest, word ≠ [] → (∀ c ∈ word, isSpace c = false) →
      (∀ c, rest.head? = some c → isSpace c = true) → motive rest → motive (word ++ rest)) (s : List UInt8) :
    motive s := by
  induction h : s.length using Nat.strong_induction_on generalizing s with
  | _ length ih =>
    subst h
    cases s with
    | nil => exact nil
    | cons c s =>
      by_cases isWhite : isSpace c = true
      · exact space c s isWhite (ih s.length (Nat.lt_succ_self _) s rfl)
      · have split := List.takeWhile_append_dropWhile (p := fun c => !isSpace c) (l := c :: s)
        have first : (c :: s).takeWhile (fun c => !isSpace c) = c :: s.takeWhile fun c => !isSpace c :=
          List.takeWhile_cons_of_pos (by simpa using isWhite)
        rw [← split]
        refine word _ _ (by rw [first]; exact List.cons_ne_nil _ _) (fun d member => ?_) (fun d head => ?_) (ih _ ?_ _ rfl)
        · simpa using List.mem_takeWhile_imp member
        · have stop := List.head?_dropWhile_not (fun c => !isSpace c) (c :: s)
          rw [head] at stop
          simpa using stop
        · have lengths := congrArg List.length split
          rw [first, List.length_append, List.length_cons] at lengths
          omega

theorem noSpace_of_mem_tokens (member : word ∈ tokens s) : ∀ c ∈ word, isSpace c = false := by
  induction s using token_induction with
  | nil => cases member
  | space c s space ih =>
    rw [tokens_space space] at member
    exact ih member
  | word first rest nonempty noSpace ends ih =>
    rw [tokens_word nonempty noSpace ends] at member
    rcases List.mem_cons.mp member with rfl | later
    · exact noSpace
    · exact ih later

theorem not_digit_of_space (space : isSpace c = true) : isDigit c = false := by
  cases digit : isDigit c with
  | false => rfl
  | true =>
    rw [isSpace_eq_false_of_isDigit digit] at space
    cases space

theorem scan_space (space : isSpace c = true) : scan (c :: s) = scan s := by
  unfold scan
  rw [List.dropWhile_cons_of_pos space]

theorem scan_word (nonempty : word ≠ []) (noSpace : ∀ c ∈ word, isSpace c = false)
    (ends : ∀ c, rest.head? = some c → isSpace c = true) :
    scan (word ++ rest) = { scan word with rest := (scan word).rest ++ rest } := by
  have behind : ∀ c, rest.head? = some c → isDigit c = false := fun c head => not_digit_of_space (ends c head)
  have taken : ∀ xs : List UInt8, (xs ++ rest).takeWhile isDigit = xs.takeWhile isDigit ∧
      (xs ++ rest).dropWhile isDigit = xs.dropWhile isDigit ++ rest := fun xs => by
    induction xs with
    | nil => exact ⟨takeWhile_append_stop (fun _ member => nomatch member) behind,
        dropWhile_append_stop (fun _ member => nomatch member) behind⟩
    | cons x xs ih =>
      rw [List.cons_append, List.takeWhile_cons, List.takeWhile_cons, List.dropWhile_cons, List.dropWhile_cons]
      cases isDigit x with
      | true => exact ⟨congrArg (x :: ·) ih.1, ih.2⟩
      | false => exact ⟨rfl, rfl⟩
  obtain ⟨c, word, rfl⟩ := List.exists_cons_of_ne_nil nonempty
  have visible : ¬ isSpace c = true := by simp [noSpace c (List.mem_cons_self ..)]
  have split : splitSign (c :: (word ++ rest)) =
      ((splitSign (c :: word)).1, (splitSign (c :: word)).2 ++ rest) := by
    simp only [splitSign]
    split_ifs <;> rfl
  unfold scan
  rw [List.cons_append, List.dropWhile_cons_of_neg visible, List.dropWhile_cons_of_neg visible, split]
  simp only [(taken _).1, (taken _).2]

theorem legible_scan_iff (noSpace : ∀ c ∈ word, isSpace c = false) : Legible word ↔ Legible (scan word).rest := by
  have parts := scan_parts word
  have front : word.takeWhile isSpace = [] := by
    rw [List.eq_nil_iff_forall_not_mem]
    intro c member
    have space := List.mem_takeWhile_imp member
    rw [noSpace c ((List.takeWhile_prefix _).subset member)] at space
    cases space
  have signs : ∀ c ∈ (scan word).sign.chars, isSign c := by
    cases (scan word).sign <;> simp [Sign.chars, isSign]
  have digits : ∀ c ∈ (scan word).digits, isDigit c := fun c member => List.mem_takeWhile_imp member
  rw [front, List.nil_append] at parts
  constructor
  · intro legible c member
    refine legible c ?_
    rw [parts]
    exact List.mem_append_right _ (List.mem_append_right _ member)
  · intro legible c member
    rw [parts] at member
    rcases List.mem_append.mp member with sign | member
    · exact .inl (signs c sign)
    · rcases List.mem_append.mp member with digit | member
      · exact .inr (digits c digit)
      · exact legible c member

theorem not_legible_of_stuck (nonempty : word ≠ []) (noSpace : ∀ c ∈ word, isSpace c = false)
    (empty : (scan word).digits = []) (stays : ¬ (scan word).rest.length < word.length) : ¬ Legible word := by
  intro legible
  obtain ⟨c, word, rfl⟩ := List.exists_cons_of_ne_nil nonempty
  have visible : ¬ isSpace c = true := by simp [noSpace c (List.mem_cons_self ..)]
  rcases legible c (List.mem_cons_self ..) with sign | digit
  · apply stays
    have rest : (scan (c :: word)).rest = word.dropWhile isDigit := by
      unfold scan
      rw [List.dropWhile_cons_of_neg visible]
      simp only [isSign, Bool.or_eq_true, decide_eq_true_eq] at sign
      simp only [splitSign]
      rcases sign with rfl | rfl <;> rfl
    rw [rest, List.length_cons]
    exact Nat.lt_succ_of_le (List.dropWhile_suffix isDigit).length_le
  · unfold scan at empty
    rw [List.dropWhile_cons_of_neg visible, splitSign_of_isDigit digit] at empty
    simp only [List.takeWhile_cons_of_pos digit] at empty
    exact List.cons_ne_nil _ _ empty

theorem numbers_space (space : isSpace c = true) : numbers (c :: s) = numbers s := by
  have same := @scan_space s c space
  by_cases empty : (scan s).digits = []
  · have shorter : (scan (c :: s)).rest.length < (c :: s).length := by
      rw [same]
      exact Nat.lt_succ_of_le (scan_rest_suffix s).length_le
    rw [numbers_of_skip (same ▸ empty) shorter, same]
    by_cases shorter : (scan s).rest.length < s.length
    · rw [numbers_of_skip empty shorter]
    · rw [(scan_rest_suffix s).eq_of_length_le (Nat.le_of_not_lt shorter)]
  · rw [numbers_of_digits (same ▸ empty), numbers_of_digits empty, same]

theorem numbers_word (noSpace : ∀ c ∈ word, isSpace c = false)
    (ends : ∀ c, rest.head? = some c → isSpace c = true) :
    numbers (word ++ rest) = numbers word ++ if Legible word then numbers rest else [] := by
  induction word using numbers.induct with
  | case1 word digits ih =>
    have nonempty : word ≠ [] := by
      rintro rfl
      exact digits rfl
    have inside : ∀ c ∈ (scan word).rest, isSpace c = false := fun c member =>
      noSpace c ((scan_rest_suffix word).subset member)
    have scanned := scan_word nonempty noSpace ends
    rw [numbers_of_digits digits, numbers_of_digits (by rw [scanned]; exact digits), scanned]
    simp only [Scan.value, List.cons_append, ih inside, legible_scan_iff noSpace]
  | case2 word empty shorter ih =>
    have nonempty : word ≠ [] := List.ne_nil_of_length_pos (Nat.lt_of_le_of_lt (Nat.zero_le _) shorter)
    have inside : ∀ c ∈ (scan word).rest, isSpace c = false := fun c member =>
      noSpace c ((scan_rest_suffix word).subset member)
    have scanned := scan_word nonempty noSpace ends
    have nothing : (scan (word ++ rest)).digits = [] := by
      rw [scanned]
      exact not_not.mp empty
    have shorter' : (scan (word ++ rest)).rest.length < (word ++ rest).length := by
      rw [scanned, List.length_append, List.length_append]
      exact Nat.add_lt_add_right shorter _
    rw [numbers_of_skip nothing shorter', numbers_of_skip (not_not.mp empty) shorter, scanned, ih inside]
    simp only [legible_scan_iff noSpace]
  | case3 word empty stays =>
    rw [numbers_of_stuck (not_not.mp empty) stays, List.nil_append]
    by_cases nonempty : word = []
    · subst nonempty
      rw [if_pos (show Legible [] from fun _ member => absurd member List.not_mem_nil), List.nil_append]
    · have scanned := scan_word nonempty noSpace ends
      rw [if_neg (not_legible_of_stuck nonempty noSpace (not_not.mp empty) stays), numbers_of_stuck]
      · rw [scanned]
        exact not_not.mp empty
      · rw [scanned, List.length_append, List.length_append]
        exact fun less => stays (Nat.lt_of_add_lt_add_right less)

def tokenNumbers : List (List UInt8) → List Int
  | [] => []
  | word :: words => numbers word ++ if Legible word then tokenNumbers words else []

theorem numbers_eq_tokenNumbers (s : List UInt8) : numbers s = tokenNumbers (tokens s) := by
  induction s using token_induction with
  | nil => exact numbers_nil
  | space c s space ih => rw [numbers_space space, tokens_space space, ih]
  | word word rest nonempty noSpace ends ih =>
    rw [numbers_word noSpace ends, tokens_word nonempty noSpace ends, tokenNumbers, ih]

end

section

variable {conversions : Conversions} {accepts : UInt32 → Bool} {word : List UInt8} {value : UInt32}

/-- The loop gets over a token. -/
structure ReadOver (conversions : Conversions) (accepts : UInt32 → Bool) (word : List UInt8) : Prop where
  legible : Legible word
  refused : ∀ number ∈ numbers word, accepts (conversions.stored number) = false

def Yields (conversions : Conversions) (accepts : UInt32 → Bool) (word : List UInt8) (value : UInt32) : Prop :=
  ((numbers word).map conversions.stored).find? accepts = some value

theorem find?_eq_none_iff : ((numbers word).map conversions.stored).find? accepts = none ↔
    ∀ number ∈ numbers word, accepts (conversions.stored number) = false := by
  rw [List.find?_eq_none, List.forall_mem_map]
  simp only [Bool.not_eq_true]

theorem numbers_of_integer {value : Int} (noSpace : ∀ c ∈ word, isSpace c = false) (integer : IsInteger word value) :
    numbers word = [value] ∧ Legible word := by
  obtain ⟨digits, found, left⟩ := Numeral.scan_eq integer
  rw [numbers_of_digits digits, found, left, numbers_nil, legible_scan_iff noSpace, left]
  exact ⟨rfl, fun _ member => nomatch member⟩

/-- An acceptable integer is found behind tokens that are read over; otherwise only its value can be,
    in a token in front of it. -/
theorem tokenNumbers_find_iff {before after : List (List UInt8)} (numbered : numbers word = [(value.toNat : Int)])
    (accepted : accepts value = true) :
    ((tokenNumbers (before ++ word :: after)).map conversions.stored).find? accepts = some value ↔
      (∀ other ∈ before, ReadOver conversions accepts other) ∨ ∃ front other rest, before = front ++ other :: rest ∧
        (∀ earlier ∈ front, ReadOver conversions accepts earlier) ∧ Yields conversions accepts other value := by
  induction before with
  | nil =>
    refine iff_of_true ?_ (.inl fun _ member => nomatch member)
    rw [List.nil_append, tokenNumbers, numbered, List.singleton_append, List.map_cons, conversions.exact,
      List.find?_cons_of_pos accepted]
  | cons first before ih =>
    rw [List.cons_append, tokenNumbers, List.map_append, List.find?_append]
    by_cases reads : ReadOver conversions accepts first
    · rw [find?_eq_none_iff.mpr reads.refused, if_pos reads.legible, Option.none_or, ih, List.forall_mem_cons,
        and_iff_right reads]
      refine or_congr_right ⟨?_, ?_⟩
      · rintro ⟨front, other, rest, rfl, all, yields⟩
        exact ⟨first :: front, other, rest, rfl, List.forall_mem_cons.mpr ⟨reads, all⟩, yields⟩
      · rintro ⟨_ | ⟨head, front⟩, other, rest, same, all, yields⟩
        · obtain ⟨rfl, rfl⟩ := List.cons.inj same
          rw [Yields, find?_eq_none_iff.mpr reads.refused] at yields
          cases yields
        · obtain ⟨rfl, rfl⟩ := List.cons.inj same
          exact ⟨front, other, rest, rfl, (List.forall_mem_cons.mp all).2, yields⟩
    · have found : (((numbers first).map conversions.stored).find? accepts).or
          (((if Legible first then tokenNumbers (before ++ word :: after) else []).map conversions.stored).find?
            accepts) = ((numbers first).map conversions.stored).find? accepts := by
        cases yields : ((numbers first).map conversions.stored).find? accepts with
        | some number => rfl
        | none =>
          have illegible : ¬ Legible first := fun legible => reads ⟨legible, find?_eq_none_iff.mp yields⟩
          rw [if_neg illegible]
          rfl
      rw [found]
      constructor
      · intro yields
        exact .inr ⟨[], first, before, rfl, (fun _ member => nomatch member), yields⟩
      · rintro (all | ⟨_ | ⟨head, front⟩, other, rest, same, all, yields⟩)
        · exact absurd (all first (List.mem_cons_self ..)) reads
        · obtain ⟨rfl, rfl⟩ := List.cons.inj same
          exact yields
        · obtain ⟨rfl, rfl⟩ := List.cons.inj same
          exact absurd (all _ (List.mem_cons_self ..)) reads

end

end ArchCompSystems.Library
