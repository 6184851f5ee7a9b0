import ArchCompSystems.Ihw3.Program

namespace ArchCompSystems.Ihw3

open Library Library.RiscV Library.RiscV.Instr

def isReplaceableDigit (c : UInt8) : Bool := 49 ≤ c.toNat && c.toNat ≤ 57

def romanNumerals : List (List UInt8) :=
  [[73], [73, 73], [73, 73, 73], [73, 86], [86], [86, 73], [86, 73, 73], [86, 73, 73, 73], [73, 88]]

def replacement (c : UInt8) : List UInt8 := if isReplaceableDigit c then romanNumerals.getD (c.toNat - 49) [] else [c]

def replaceDigits (text : List UInt8) : List UInt8 := text.flatMap replacement

section

variable {text text' : List UInt8} {c : UInt8} {k i : Nat}

theorem replacement_of_not_digit (other : isReplaceableDigit c = false) : replacement c = [c] := by
  rw [replacement, other]
  rfl

theorem replaceDigits_append : replaceDigits (text ++ text') = replaceDigits text ++ replaceDigits text' :=
  List.flatMap_append

theorem digit_cases (digit : isReplaceableDigit c = true) : ∃ k < 9, c.toNat = 49 + k ∧
    replacement c = romanNumerals.getD k [] := by
  have bounds : 49 ≤ c.toNat ∧ c.toNat ≤ 57 := by
    simpa only [isReplaceableDigit, Bool.and_eq_true, decide_eq_true_eq] using digit
  refine ⟨c.toNat - 49, by omega, by omega, ?_⟩
  rw [replacement, digit, if_pos rfl]

theorem length_replacement_pos : 0 < (replacement c).length := by
  cases digit : isReplaceableDigit c with
  | false =>
    rw [replacement_of_not_digit digit]
    exact Nat.one_pos
  | true =>
    obtain ⟨k, lower, -, same⟩ := digit_cases digit
    have nonempty : ∀ k < 9, 0 < (romanNumerals.getD k []).length := by decide
    rw [same]
    exact nonempty k lower

theorem length_replacement_le : (replacement c).length ≤ 4 := by
  cases digit : isReplaceableDigit c with
  | false =>
    rw [replacement_of_not_digit digit]
    exact Nat.le_add_left 1 3
  | true =>
    obtain ⟨k, lower, -, same⟩ := digit_cases digit
    have short : ∀ k < 9, (romanNumerals.getD k []).length ≤ 4 := by decide
    rw [same]
    exact short k lower

theorem length_le_replaceDigits : text.length ≤ (replaceDigits text).length := by
  induction text with
  | nil => exact Nat.le_refl _
  | cons c rest ih =>
    have first := @length_replacement_pos c
    simp only [replaceDigits, List.flatMap_cons, List.length_append, List.length_cons] at ih ⊢
    omega

theorem replaceDigits_take_succ (inside : i < text.length) :
    replaceDigits (text.take (i + 1)) = replaceDigits (text.take i) ++ replacement text[i] := by
  rw [List.take_succ_eq_append_getElem inside, replaceDigits_append]
  exact congrArg _ (List.append_nil _)

theorem replaceDigits_drop (inside : i < text.length) :
    replaceDigits (text.drop i) = replacement text[i] ++ replaceDigits (text.drop (i + 1)) := by
  rw [List.drop_eq_getElem_cons inside]
  rfl

theorem replacementsLenTable_eq (lower : k < 9) :
    replacementsLenTable.getD k 0 = BitVec.ofNat 32 (romanNumerals.getD k []).length := by
  revert k
  decide

theorem length_romanNumerals (lower : k < 9) : (romanNumerals.getD k []).length ≤ 4 ∧ 0 < (romanNumerals.getD k []).length := by
  revert k
  decide

theorem reversedReplacementsTable_eq (lower : k < 9) (inside : i < (romanNumerals.getD k []).reverse.length) :
    UInt8.ofNat (wordAt ((reversedReplacementsTable.drop (4 * k)).take 4) 0 >>> (8 * i)).toNat =
      (romanNumerals.getD k []).reverse[i] := by
  have bytes : ∀ k < 9, ∀ i < 4, i < (romanNumerals.getD k []).reverse.length →
      UInt8.ofNat (wordAt ((reversedReplacementsTable.drop (4 * k)).take 4) 0 >>> (8 * i)).toNat =
        (romanNumerals.getD k []).reverse.getD i 0 := by decide
  have short := (length_romanNumerals lower).1
  rw [bytes k lower i (by rw [List.length_reverse] at inside; omega) inside, List.getD_eq_getElem?_getD,
    List.getElem?_eq_getElem inside, Option.getD_some]

end

section

variable {ω : Type} (P : Platform Label DataLabel ω) (access : Access) (base top : Word) (text : List UInt8)

structure Tables (m : Memory) : Prop where
  reversed : m.Holds (P.data .reversedReplacementsTable) reversedReplacementsTable
  lengths : m.Holds (P.data .replacementsLenTable) (replacementsLenTable.flatMap wordBytes)

/-- A text at `base` with room for the result and its terminator, where no address is negative, apart from
    the tables and the stack below `top`; what `str_replace_digits` has to access may be accessed. -/
structure Replaceable : Prop where
  fits : base.toNat + (replaceDigits text).length < 2 ^ 31
  aligned : isAligned top = true
  alignedReversed : isAligned (P.data .reversedReplacementsTable) = true
  alignedLengths : isAligned (P.data .replacementsLenTable) = true
  stack : Apart (below top 8) 8 base ((replaceDigits text).length + 1)
  reversed : Apart (P.data .reversedReplacementsTable) 36 base ((replaceDigits text).length + 1)
  lengths : Apart (P.data .replacementsLenTable) 36 base ((replaceDigits text).length + 1)
  reversedStack : Apart (P.data .reversedReplacementsTable) 36 (below top 8) 8
  lengthsStack : Apart (P.data .replacementsLenTable) 36 (below top 8) 8
  textStack : Apart base text.length (below top 8) 8
  loadsText : access.loads base text.length = true
  loadsReversed : access.loads (P.data .reversedReplacementsTable) 36 = true
  loadsLengths : access.loads (P.data .replacementsLenTable) 36 = true
  loadsStack : access.loads (below top 8) 8 = true
  storesText : access.stores base ((replaceDigits text).length + 1) = true
  storesStack : access.stores (below top 8) 8 = true

def temporaries : List Reg := [.t0, .t1, .t2, .t3, .t5, .t6, .s1]

/-- Between prologue and epilogue of a call in `s₀`. -/
structure Inside (s₀ s : State ω) : Prop where
  sp : s.get .sp = below top 8
  a0 : s.get .a0 = base
  a1 : s.get .a1 = BitVec.ofNat 32 text.length
  t4 : s.get .t4 = P.data .replacementsLenTable
  others : ∀ r, r ∉ .sp :: .t4 :: temporaries → s.get r = s₀.get r
  pushed : Pushed s.mem top [s₀.get .s1, s₀.get .ra]
  tables : Tables P s.mem
  world : s.world = s₀.world

/-- In `loop1`, before byte `i`; the bytes before `j` are counted. -/
structure Counting (i j : Nat) (s₀ s : State ω) : Prop extends Inside P base top text s₀ s where
  t1 : s.get .t1 = offset base i
  t2 : s.get .t2 = offset base text.length
  t3 : s.get .t3 = BitVec.ofNat 32 ((replaceDigits (text.take j)).length + (text.length - j))
  text : s.mem.Holds base text

/-- In `loop2`, before byte `i`; the bytes behind `j` are replaced. -/
structure Replacing (i j : Nat) (s₀ s : State ω) : Prop extends Inside P base top text s₀ s where
  t1 : s.get .t1 = offset base i
  t2 : s.get .t2 + 1 = offset base (replaceDigits (text.take j)).length
  t3 : s.get .t3 = BitVec.ofNat 32 (replaceDigits text).length
  t6 : s.get .t6 = P.data .reversedReplacementsTable
  front : s.mem.Holds base (text.take j)
  back : s.mem.Holds (offset base (replaceDigits (text.take j)).length) (replaceDigits (text.drop j))

/-- The registers that a call leaves changed. -/
def clobbered : List Reg := [.t0, .t1, .t2, .t3, .t4, .t5, .t6, .a0]

/-- What a call in `s₀` has done in `s`. -/
structure Replaced (s₀ s : State ω) : Prop where
  a0 : s.get .a0 = BitVec.ofNat 32 (replaceDigits text).length
  text : s.mem.Holds base (replaceDigits text ++ [0])
  others : ∀ r, r ∉ clobbered → s.get r = s₀.get r
  world : s.world = s₀.world

end

section

variable {ω : Type} {P : Platform Label DataLabel ω} {access : Access} {base top : Word} {text : List UInt8}
  {s₀ s : State ω} {post : Place Label → State ω → Prop} {i : Nat} {r : Reg} {w : Word}

theorem Inside.set (inside : Inside P base top text s₀ s) (temporary : r ∈ temporaries) :
    Inside P base top text s₀ (s.set r w) := by
  have argument : ∀ {r'}, r' ∉ temporaries → r' ≠ r := fun outside same => outside (same ▸ temporary)
  exact {
    sp := (get_set_of_ne (argument (by decide))).trans inside.sp
    a0 := (get_set_of_ne (argument (by decide))).trans inside.a0
    a1 := (get_set_of_ne (argument (by decide))).trans inside.a1
    t4 := (get_set_of_ne (argument (by decide))).trans inside.t4
    others := fun r' outside => (get_set_of_ne (argument fun mem => outside (.tail _ (.tail _ mem)))).trans
      (inside.others r' outside)
    pushed := inside.pushed
    tables := inside.tables
    world := inside.world }

theorem isReplaceableDigit_word {c : UInt8} : (BitVec.ofNat 32 c.toNat + (-49)).ult 9 = isReplaceableDigit c := by
  have bound := c.toNat_lt
  have below_one : (-49 : Word).toNat = 4294967247 := rfl
  have nine : (9 : Word).toNat = 9 := rfl
  rw [BitVec.ult_eq_decide, BitVec.toNat_add, below_one, nine, BitVec.toNat_ofNat, isReplaceableDigit, ← Bool.decide_and]
  exact decide_eq_decide.mpr (by omega)

theorem digit_word {c : UInt8} {k : Nat} (place : c.toNat = 49 + k) :
    (BitVec.ofNat 32 c.toNat + (-49) : Word) = BitVec.ofNat 32 k := by
  rw [place, BitVec.ofNat_add, add_comm]
  exact neg_add_cancel_left (49 : Word) _

theorem digit_shift {k : Nat} (lower : k < 9) : (BitVec.ofNat 32 k <<< (2 : Word)) = BitVec.ofNat 32 (4 * k) := by
  revert k
  decide

theorem Tables.length {m : Memory} (tables : Tables P m) {c : UInt8} (digit : isReplaceableDigit c = true) :
    m.loadWord (P.data .replacementsLenTable + (BitVec.ofNat 32 c.toNat + (-49)) <<< (2 : Word)) =
      BitVec.ofNat 32 (replacement c).length := by
  obtain ⟨k, lower, place, same⟩ := digit_cases digit
  rw [digit_word place, digit_shift lower, same, ← replacementsLenTable_eq lower]
  exact (loadWord_of_holds_words tables.lengths (by exact lower)).trans (by
    rw [List.getD_eq_getElem?_getD, List.getElem?_eq_getElem (by exact lower), Option.getD_some])

theorem Tables.numeral {m : Memory} (tables : Tables P m) {c : UInt8} (digit : isReplaceableDigit c = true)
    (inside : i < (replacement c).reverse.length) :
    UInt8.ofNat (m.loadWord (P.data .reversedReplacementsTable + (BitVec.ofNat 32 c.toNat + (-49)) <<< (2 : Word)) >>>
      (8 * i)).toNat = (replacement c).reverse[i] := by
  obtain ⟨k, lower, place, same⟩ := digit_cases digit
  have fits : 4 * k + 4 ≤ reversedReplacementsTable.length := by
    show 4 * k + 4 ≤ 36
    omega
  have part := Memory.load_of_holds (tables.reversed.part fits)
  rw [List.length_take, List.length_drop, Nat.min_eq_left (by omega)] at part
  simp only [digit_word place, digit_shift lower, same] at inside ⊢
  rw [Memory.loadWord, show P.data .reversedReplacementsTable + BitVec.ofNat 32 (4 * k) =
    offset (P.data .reversedReplacementsTable) (4 * k) from rfl, part]
  exact reversedReplacementsTable_eq lower inside

section

variable {j : Nat}

theorem Counting.byte (counting : Counting P base top text i j s₀ s) (lower : i < text.length) :
    s.mem (s.get .t1 + 0) = text[i] := by
  rw [add_zero, counting.t1]
  exact counting.text i lower

theorem digit_loads {c : UInt8} (digit : isReplaceableDigit c = true) {table : DataLabel}
    (loads : access.loads (P.data table) 36 = true) :
    access.loads (P.data table + (BitVec.ofNat 32 c.toNat + (-49)) <<< (2 : Word)) 4 = true := by
  obtain ⟨k, lower, place, -⟩ := digit_cases digit
  rw [digit_word place, digit_shift lower]
  exact Access.loads_part loads (by omega)

theorem digit_aligned {c : UInt8} (digit : isReplaceableDigit c = true) {address : Word}
    (aligned : isAligned address = true) :
    isAligned (address + (BitVec.ofNat 32 c.toNat + (-49)) <<< (2 : Word)) = true := by
  obtain ⟨k, lower, place, -⟩ := digit_cases digit
  rw [digit_word place, digit_shift lower]
  exact (isAligned_offset (by omega)).trans aligned

theorem notNeededDigit_ends (ready : Replaceable P access base top text) (lower : i < text.length)
    (counting : Counting P base top text i (i + 1) s₀ s)
    (again : ∀ s', i + 1 < text.length → Counting P base top text (i + 1) (i + 1) s₀ s' →
      Eventually P access program post (.label (.strTools .loop1)) s')
    (done : ∀ s', Replacing P base top text (text.length - 1) text.length s₀ s' →
      Eventually P access program post (.label (.strTools .loop2)) s') :
    Eventually P access program post (.label (.strTools .notNeededDigit)) s := by
  have bound := ready.fits
  have shorter := @length_le_replaceDigits text
  have moved : s.get .t1 + 1 = offset base (i + 1) := by rw [counting.t1, offset_add_one]
  refine eventually_block (wp_addi ?_)
  rw [moved]
  refine wp_bne (fun more => ?_) (fun last => ?_)
  · simp [counting.t2] at more
    have different : i + 1 ≠ text.length := fun same => more (by rw [same])
    refine again _ (by omega) ⟨counting.toInside.set (by decide), ?_, ?_, ?_, counting.text⟩
    · simp
    · simp [counting.t2]
    · simp [counting.t3]
  · simp [counting.t2] at last
    obtain same : i + 1 = text.length := (offset_inj (by omega) (by omega)).mp last
    have counted : s.get .t3 = BitVec.ofNat 32 (replaceDigits text).length := by
      rw [counting.t3, same, Nat.sub_self, Nat.add_zero, List.take_length]
    refine wp_add (wp_addi (wp_add (wp_addi (wp_la (wp_nil ⟨_, rfl, done _ ⟨?_, ?_, ?_, ?_, ?_, ?_, ?_⟩⟩)))))
    · exact (((((counting.toInside.set (by decide)).set (by decide)).set (by decide)).set (by decide)).set (by decide)).set
        (by decide)
    · simp only [get_set_self, get_set_of_ne, ne_eq, reduceCtorEq, not_false_eq_true, counting.a0, counting.a1]
      exact offset_sub_one (by omega)
    · simp only [get_set_self, get_set_of_ne, ne_eq, reduceCtorEq, not_false_eq_true, counting.a0, counted,
        List.take_length]
      exact neg_add_cancel_right _ _
    · simp only [get_set_of_ne, ne_eq, reduceCtorEq, not_false_eq_true, counted]
    · exact get_set_self (by decide)
    · rw [List.take_length]
      exact counting.text
    · rw [List.drop_length]
      exact .nil

theorem loop1_ends (ready : Replaceable P access base top text)
    (done : ∀ s', Replacing P base top text (text.length - 1) text.length s₀ s' →
      Eventually P access program post (.label (.strTools .loop2)) s') (lower : i < text.length)
    (counting : Counting P base top text i i s₀ s) :
    Eventually P access program post (.label (.strTools .loop1)) s := by
  induction left : text.length - i generalizing i s with
  | zero => omega
  | succ left ih =>
    have again : ∀ s', i + 1 < text.length → Counting P base top text (i + 1) (i + 1) s₀ s' →
        Eventually P access program post (.label (.strTools .loop1)) s' :=
      fun s' lower' counting' => ih lower' counting' (by omega)
    have length_succ : (replaceDigits (text.take (i + 1))).length + (text.length - (i + 1)) + 1 =
        (replaceDigits (text.take i)).length + (text.length - i) + (replacement text[i]).length := by
      rw [replaceDigits_take_succ lower, List.length_append]
      omega
    have byte := counting.byte lower
    refine eventually_block (wp_lbu ?_ ?_)
    · rw [add_zero, counting.t1]
      exact Access.loads_part ready.loadsText (by omega)
    rw [byte]
    refine wp_addi (wp_sltiu ?_)
    simp only [get_set_self, ne_eq, reduceCtorEq, not_false_eq_true, isReplaceableDigit_word]
    cases digit : isReplaceableDigit text[i] with
    | false =>
      refine wp_beqz (fun _ => ?_) (fun other => absurd ?_ other)
      · refine notNeededDigit_ends ready lower ⟨((counting.toInside.set (by decide)).set (by decide)).set (by decide),
          ?_, ?_, ?_, counting.text⟩ again done
        · simp [counting.t1]
        · simp [counting.t2]
        · rw [replacement_of_not_digit digit] at length_succ
          simp [counting.t3]
          exact congrArg _ (Nat.succ_injective length_succ).symm
      · simp
    | true =>
      refine wp_beqz (fun zero => absurd zero ?_) (fun _ => ?_)
      · simp
      refine wp_addi (wp_slli (wp_add (wp_lw ?_ ?_ (wp_addi (wp_add (wp_nil ⟨_, rfl, ?_⟩))))))
      · simp only [get_set_self, get_set_of_ne, ne_eq, reduceCtorEq, not_false_eq_true, add_zero, counting.t4]
        exact digit_loads digit ready.loadsLengths
      · simp only [get_set_self, get_set_of_ne, ne_eq, reduceCtorEq, not_false_eq_true, add_zero, counting.t4]
        exact digit_aligned digit ready.alignedLengths
      · refine notNeededDigit_ends ready lower ⟨?_, ?_, ?_, ?_, counting.text⟩ again done
        · exact ((((((((counting.toInside.set (by decide)).set (by decide)).set (by decide)).set (by decide)).set (by decide)).set
            (by decide)).set (by decide)).set (by decide)).set (by decide)
        · simp [counting.t1]
        · simp [counting.t2]
        · simp only [get_set_self, get_set_of_ne, ne_eq, reduceCtorEq, not_false_eq_true, add_zero, counting.t3, counting.t4,
            mem_set, counting.tables.length digit]
          rw [← add_assoc, ← BitVec.ofNat_add, ← length_succ, ofNat_succ_sub_one]

end

theorem strReplaceDigitsEpilogue_ends (ready : Replaceable P access base top text) (entered : s₀.get .sp = top)
    (inside : Inside P base top text s₀ s) (t3 : s.get .t3 = BitVec.ofNat 32 (replaceDigits text).length)
    (replaced : s.mem.Holds base (replaceDigits text)) :
    Eventually P access program (fun place s' => place = P.place (s₀.get .ra) ∧ Replaced base text s₀ s')
      (.label (.strTools .strReplaceDigitsEpilogue)) s := by
  have short := ready.fits
  have terminator : s.get .a0 + s.get .t3 = offset base (replaceDigits text).length := by rw [inside.a0, t3]; rfl
  refine eventually_block (wp_pop (by decide) inside.sp (Access.loads_below ready.loadsStack (by decide))
    ((isAligned_below (by decide)).trans ready.aligned) inside.pushed.last ?_)
  refine wp_pop (n := 0) (by decide) (get_set_self (by decide)) (Access.loads_below ready.loadsStack (by decide))
    ((isAligned_below (by decide)).trans ready.aligned) inside.pushed.pop.last ?_
  have address : (s.get .a0 + s.get .t3) + 0 = offset base (replaceDigits text).length := by rw [add_zero, terminator]
  refine wp_add (wp_sb ?_ (wp_mv (wp_ret ?_)))
  · simp only [get_set_self, get_set_of_ne, ne_eq, reduceCtorEq, not_false_eq_true, address]
    exact Access.stores_part ready.storesText (Nat.le_refl _)
  · simp only [get_set_self, get_set_of_ne, ne_eq, reduceCtorEq, not_false_eq_true, address, get_store, get_zero]
    refine .here ⟨rfl, ?_, ?_, ?_, inside.world⟩
    · rw [get_set_self (by decide), t3]
    · simp only [mem_set, mem_store]
      refine Memory.holds_append.mpr ⟨replaced.store (by omega) ?_, Memory.holds_store (by decide)⟩
      have apart : Apart (offset base 0) (replaceDigits text).length (offset base (replaceDigits text).length) 1 :=
        apart_parts (by omega) (by omega)
      rwa [offset_zero] at apart
    · intro r outside
      by_cases is_sp : r = .sp
      · subst is_sp
        simp [entered]
      by_cases is_ra : r = .ra
      · subst is_ra
        simp
      by_cases is_s1 : r = .s1
      · subst is_s1
        simp
      simp only [clobbered, List.mem_cons, List.not_mem_nil, or_false, not_or] at outside
      have kept := inside.others r (by simp [temporaries, outside, is_sp, is_s1])
      simpa [outside, is_sp, is_ra, is_s1] using kept

/-- The text from byte `i` on is replaced, but for the bytes `left`, which are still to be written from the
    last one on. -/
structure Partly (P : Platform Label DataLabel ω) (base top : Word) (text : List UInt8) (i : Nat) (left : List UInt8)
    (s₀ s : State ω) : Prop extends Inside P base top text s₀ s where
  t1 : s.get .t1 = offset base i
  t2 : s.get .t2 + 1 = offset base ((replaceDigits (text.take i)).length + left.length)
  t3 : s.get .t3 = BitVec.ofNat 32 (replaceDigits text).length
  t6 : s.get .t6 = P.data .reversedReplacementsTable
  front : s.mem.Holds base (text.take i)
  back : ∃ written, left.reverse ++ written = replaceDigits (text.drop i) ∧
    s.mem.Holds (offset base ((replaceDigits (text.take i)).length + left.length)) written

/-- The bytes that are left are the low bytes of `t0`. -/
structure Writing (P : Platform Label DataLabel ω) (base top : Word) (text : List UInt8) (i : Nat) (left : List UInt8)
    (s₀ s : State ω) : Prop extends Partly P base top text i left s₀ s where
  t0 : ∀ j, (inside : j < left.length) → UInt8.ofNat (s.get .t0 >>> (8 * j)).toNat = left[j]
  s1 : s.get .s1 = BitVec.ofNat 32 left.length

theorem Inside.store (inside : Inside P base top text s₀ s) (ready : Replaceable P access base top text) {bytes : List UInt8}
    (fits : i + bytes.length ≤ (replaceDigits text).length + 1) :
    Inside P base top text s₀ (s.store (offset base i) bytes) := by
  have short := ready.fits
  have apart : ∀ {other : Word} {size : Nat}, Apart other size base ((replaceDigits text).length + 1) → size ≤ 2 ^ 32 →
      Apart other size (offset base i) bytes.length := by
    intro other size whole bound
    have part := whole.part 0 size i bytes.length (by omega) bound fits (by omega)
    rwa [offset_zero] at part
  exact {
    sp := inside.sp
    a0 := inside.a0
    a1 := inside.a1
    t4 := inside.t4
    others := inside.others
    pushed := inside.pushed.store (show 4 * 2 ≤ 2 ^ 32 by decide) (apart ready.stack (show 8 ≤ 2 ^ 32 by decide))
    tables := ⟨inside.tables.reversed.store (by decide) (apart ready.reversed (by decide)),
      inside.tables.lengths.store (by decide) (apart ready.lengths (by decide))⟩
    world := inside.world }

variable {left : List UInt8} {c : UInt8}

theorem Partly.set (partly : Partly P base top text i left s₀ s) (temporary : r ∈ [.t0, .t5, .s1]) :
    Partly P base top text i left s₀ (s.set r w) := by
  have argument : ∀ {r'}, r' ∉ [.t0, .t5, .s1] → r' ≠ r := fun outside same => outside (same ▸ temporary)
  exact {
    toInside := partly.toInside.set (by revert temporary; cases r <;> decide)
    t1 := (get_set_of_ne (argument (by decide))).trans partly.t1
    t2 := (congrArg (· + 1) (get_set_of_ne (argument (by decide)))).trans partly.t2
    t3 := (get_set_of_ne (argument (by decide))).trans partly.t3
    t6 := (get_set_of_ne (argument (by decide))).trans partly.t6
    front := partly.front
    back := partly.back }

theorem Replacing.set {j : Nat} (replacing : Replacing P base top text i j s₀ s) (temporary : r ∈ [.t0, .t5, .s1]) :
    Replacing P base top text i j s₀ (s.set r w) := by
  have argument : ∀ {r'}, r' ∉ [.t0, .t5, .s1] → r' ≠ r := fun outside same => outside (same ▸ temporary)
  exact {
    toInside := replacing.toInside.set (by revert temporary; cases r <;> decide)
    t1 := (get_set_of_ne (argument (by decide))).trans replacing.t1
    t2 := (congrArg (· + 1) (get_set_of_ne (argument (by decide)))).trans replacing.t2
    t3 := (get_set_of_ne (argument (by decide))).trans replacing.t3
    t6 := (get_set_of_ne (argument (by decide))).trans replacing.t6
    front := replacing.front
    back := replacing.back }

theorem Partly.done (partly : Partly P base top text i [] s₀ s) : Replacing P base top text i i s₀ s := by
  obtain ⟨written, same, back⟩ := partly.back
  obtain rfl : written = replaceDigits (text.drop i) := same
  exact ⟨partly.toInside, partly.t1, partly.t2, partly.t3, partly.t6, partly.front, back⟩

theorem length_replaceDigits_split : (replaceDigits (text.take i)).length + (replaceDigits (text.drop i)).length =
    (replaceDigits text).length := by
  rw [← List.length_append, ← replaceDigits_append, List.take_append_drop]

theorem Partly.write (ready : Replaceable P access base top text) (partly : Partly P base top text i (c :: left) s₀ s) :
    s.get .t2 = offset base ((replaceDigits (text.take i)).length + left.length) ∧
      (replaceDigits (text.take i)).length + left.length < (replaceDigits text).length ∧
      Partly P base top text i left s₀ ((s.store (s.get .t2) [c]).set .t2 (s.get .t2 + (-1))) := by
  have short := ready.fits
  have pointer : s.get .t2 = offset base ((replaceDigits (text.take i)).length + left.length) :=
    eq_offset_of_add_one partly.t2
  obtain ⟨written, same, back⟩ := partly.back
  rw [List.reverse_cons, List.append_assoc, List.singleton_append] at same
  have room : (replaceDigits (text.take i)).length + left.length + 1 + written.length = (replaceDigits text).length := by
    have whole := congrArg List.length same
    rw [List.length_append, List.length_reverse, List.length_cons] at whole
    have split := @length_replaceDigits_split text i
    omega
  have taken : (text.take i).length ≤ (replaceDigits (text.take i)).length := length_le_replaceDigits
  refine ⟨pointer, by omega, ?_, ?_, ?_, ?_, ?_, ?_, c :: written, same, ?_⟩
  · rw [pointer]
    exact (partly.toInside.store ready (by rw [List.length_singleton]; omega)).set (by decide)
  · simp [partly.t1]
  · rw [get_set_self (by decide), pointer]
    exact neg_add_cancel_right _ _
  · simp [partly.t3]
  · simp [partly.t6]
  · rw [pointer]
    have apart : Apart (offset base 0) (text.take i).length
        (offset base ((replaceDigits (text.take i)).length + left.length)) 1 := apart_parts (by omega) (by omega)
    rw [offset_zero] at apart
    exact partly.front.store (by omega) apart
  · rw [pointer]
    show (s.mem.store (offset base ((replaceDigits (text.take i)).length + left.length)) [c]).Holds _ ([c] ++ written)
    refine Memory.holds_append.mpr ⟨Memory.holds_store (by simp), ?_⟩
    rw [List.length_cons, ← Nat.add_assoc] at back
    rw [offset_offset, List.length_singleton]
    have apart : Apart (offset base ((replaceDigits (text.take i)).length + left.length)) 1
        (offset base ((replaceDigits (text.take i)).length + left.length + 1)) written.length :=
      apart_parts (by omega) (by omega)
    exact back.store (by omega) apart.symm

theorem wp_writeNext (ready : Replaceable P access base top text) {rest : List Line}
    (writing : Writing P base top text i (c :: left) s₀ s)
    (last : ∀ s', Replacing P base top text i i s₀ s' →
      Eventually P access program post (.label (.strTools .loop2Iteration)) s')
    (more : ∀ s', left ≠ [] → Writing P base top text i left s₀ s' →
      wp P access rest s' (GoesOn P access program post (.strTools .replaceDigit))) :
    wp P access (.sb .t0 0 .t2 :: addi .t2 .t2 (-1) :: addi .s1 .s1 (-1) ::
      beqz .s1 (.strTools .loop2Iteration) :: srli .t0 .t0 8 :: rest) s
      (GoesOn P access program post (.strTools .replaceDigit)) := by
  have short := ready.fits
  have low : UInt8.ofNat (s.get .t0).toNat = c := writing.t0 0 (Nat.succ_pos _)
  obtain ⟨pointer, inside, partly⟩ := writing.toPartly.write ready
  have counter : s.get .s1 + (-1) = BitVec.ofNat 32 left.length := by
    rw [writing.s1, List.length_cons, ofNat_succ_sub_one]
  refine wp_sb ?_ (wp_addi (wp_addi (wp_beqz (fun zero => ?_) (fun nonzero => wp_srli ?_))))
  · rw [add_zero, pointer]
    exact Access.stores_part ready.storesText (by omega)
  · simp only [get_set_self, get_set_of_ne, ne_eq, reduceCtorEq, not_false_eq_true, get_store, counter, add_zero, low] at zero ⊢
    obtain rfl : left = [] := by
      have none_left := congrArg BitVec.toNat zero
      rw [BitVec.toNat_ofNat, Nat.mod_eq_of_lt (by omega)] at none_left
      exact List.length_eq_zero_iff.mp none_left
    exact last _ (partly.set (by decide)).done
  · simp only [get_set_self, get_set_of_ne, ne_eq, reduceCtorEq, not_false_eq_true, get_store, counter, add_zero, low] at nonzero ⊢
    have some_left : left ≠ [] := by
      rintro rfl
      exact nonzero rfl
    refine more _ some_left ⟨(partly.set (by decide)).set (by decide), fun j lower => ?_, ?_⟩
    · have next := writing.t0 (j + 1) (by rw [List.length_cons]; omega)
      have shifted : (s.get .t0 >>> (8 : Word)) >>> (8 * j) = s.get .t0 >>> (8 * (j + 1)) := by
        rw [Nat.mul_add_one, Nat.add_comm, BitVec.shiftRight_add]
        rfl
      rw [get_set_self (by decide), shifted]
      exact next
    · simp

theorem writeNumeral_ends (ready : Replaceable P access base top text) (short : left.length ≤ 3)
    (writing : Writing P base top text i (c :: left) s₀ s)
    (next : ∀ s', Replacing P base top text i i s₀ s' →
      Eventually P access program post (.label (.strTools .loop2Iteration)) s') :
    wp P access (StrToolsLabel.replaceDigit.block.drop 6) s (GoesOn P access program post (.strTools .replaceDigit)) := by
  refine wp_writeNext ready writing next fun s₁ more₁ writing₁ => ?_
  obtain ⟨c₁, left₁, rfl⟩ := List.exists_cons_of_ne_nil more₁
  refine wp_writeNext ready writing₁ next fun s₂ more₂ writing₂ => ?_
  obtain ⟨c₂, left₂, rfl⟩ := List.exists_cons_of_ne_nil more₂
  refine wp_writeNext ready writing₂ next fun s₃ more₃ writing₃ => ?_
  obtain ⟨c₃, left₃, rfl⟩ := List.exists_cons_of_ne_nil more₃
  obtain rfl : left₃ = [] := List.length_eq_zero_iff.mp (by simp only [List.length_cons] at short; omega)
  have low : UInt8.ofNat (s₃.get .t0).toNat = c₃ := writing₃.t0 0 Nat.one_pos
  obtain ⟨pointer, inside, partly⟩ := writing₃.toPartly.write ready
  refine wp_sb ?_ (wp_addi (wp_j ?_))
  · rw [add_zero, pointer]
    exact Access.stores_part ready.storesText (by omega)
  · rw [low, add_zero]
    exact next _ partly.done

theorem Replacing.partly (replacing : Replacing P base top text i (i + 1) s₀ s) (lower : i < text.length) :
    Partly P base top text i (replacement text[i]).reverse s₀ s := by
  have longer : (replaceDigits (text.take (i + 1))).length =
      (replaceDigits (text.take i)).length + (replacement text[i]).reverse.length := by
    rw [replaceDigits_take_succ lower, List.length_append, List.length_reverse]
  have front := replacing.front
  rw [List.take_succ_eq_append_getElem lower] at front
  exact {
    toInside := replacing.toInside
    t1 := replacing.t1
    t2 := longer ▸ replacing.t2
    t3 := replacing.t3
    t6 := replacing.t6
    front := (Memory.holds_append.mp front).1
    back := ⟨replaceDigits (text.drop (i + 1)), by rw [List.reverse_reverse, ← replaceDigits_drop lower],
      longer ▸ replacing.back⟩ }

theorem replaceDigit_ends (ready : Replaceable P access base top text) (lower : i < text.length)
    (digit : isReplaceableDigit text[i] = true) (replacing : Replacing P base top text i (i + 1) s₀ s)
    (t5 : s.get .t5 = BitVec.ofNat 32 text[i].toNat)
    (next : ∀ s', Replacing P base top text i i s₀ s' →
      Eventually P access program post (.label (.strTools .loop2Iteration)) s') :
    Eventually P access program post (.label (.strTools .replaceDigit)) s := by
  have partly := replacing.partly lower
  have numeral := fun j => @Tables.numeral _ _ j _ replacing.tables _ digit
  have counter := replacing.tables.length digit
  rw [← List.length_reverse] at counter
  have short : (replacement text[i]).reverse.length ≤ 4 := by
    rw [List.length_reverse]
    exact length_replacement_le
  obtain ⟨c, left, split⟩ := List.exists_cons_of_length_pos (List.length_reverse ▸ @length_replacement_pos text[i])
  simp only [split] at partly numeral counter short
  replace short : left.length ≤ 3 := Nat.le_of_succ_le_succ short
  refine eventually_block (wp_addi (wp_slli (wp_add (wp_lw ?_ ?_ (wp_add (wp_lw ?_ ?_
    (writeNumeral_ends (c := c) ready short ⟨?_, ?_, ?_⟩ next)))))))
  · simp only [get_set_self, get_set_of_ne, ne_eq, reduceCtorEq, not_false_eq_true, add_zero, replacing.t4, t5]
    exact digit_loads digit ready.loadsLengths
  · simp only [get_set_self, get_set_of_ne, ne_eq, reduceCtorEq, not_false_eq_true, add_zero, replacing.t4, t5]
    exact digit_aligned digit ready.alignedLengths
  · simp only [get_set_self, get_set_of_ne, ne_eq, reduceCtorEq, not_false_eq_true, add_zero, replacing.t6, t5]
    exact digit_loads digit ready.loadsReversed
  · simp only [get_set_self, get_set_of_ne, ne_eq, reduceCtorEq, not_false_eq_true, add_zero, replacing.t6, t5]
    exact digit_aligned digit ready.alignedReversed
  · exact (((((partly.set (by decide)).set (by decide)).set (by decide)).set (by decide)).set (by decide)).set (by decide)
  · intro j inside
    simp only [get_set_self, get_set_of_ne, ne_eq, reduceCtorEq, not_false_eq_true, add_zero, replacing.t6, t5, mem_set]
    exact numeral j inside
  · simp only [get_set_self, get_set_of_ne, ne_eq, reduceCtorEq, not_false_eq_true, add_zero, replacing.t4, t5, mem_set]
    exact counter

theorem loop2Iteration_ends (ready : Replaceable P access base top text) (lower : i < text.length)
    (replacing : Replacing P base top text i i s₀ s)
    (again : ∀ j s', i = j + 1 → Replacing P base top text j (j + 1) s₀ s' →
      Eventually P access program post (.label (.strTools .loop2)) s')
    (done : ∀ s', Inside P base top text s₀ s' → s'.get .t3 = BitVec.ofNat 32 (replaceDigits text).length →
      s'.mem.Holds base (replaceDigits text) →
      Eventually P access program post (.label (.strTools .strReplaceDigitsEpilogue)) s') :
    Eventually P access program post (.label (.strTools .loop2Iteration)) s := by
  have short := ready.fits
  have longer := @length_le_replaceDigits text
  refine eventually_block (wp_addi (wp_bge (fun more => ?_) (fun last => wp_nil ⟨_, rfl, ?_⟩)))
  · simp only [get_set_self, get_set_of_ne, ne_eq, reduceCtorEq, not_false_eq_true, replacing.t1, replacing.a0] at more
    cases i with
    | zero =>
      rw [offset_zero, sub_one_slt (by omega)] at more
      cases more
    | succ j =>
      refine again j _ rfl ⟨replacing.toInside.set (by decide), ?_, ?_, ?_, ?_, replacing.front, replacing.back⟩
      · rw [get_set_self (by decide), replacing.t1, offset_succ_sub_one]
      · rw [get_set_of_ne (by decide)]
        exact replacing.t2
      · rw [get_set_of_ne (by decide)]
        exact replacing.t3
      · rw [get_set_of_ne (by decide)]
        exact replacing.t6
  · simp only [get_set_self, get_set_of_ne, ne_eq, reduceCtorEq, not_false_eq_true, replacing.t1, replacing.a0] at last
    cases i with
    | zero =>
      have whole := replacing.back
      rw [List.take_zero, List.drop_zero] at whole
      rw [show (replaceDigits []).length = 0 from rfl, offset_zero] at whole
      refine done _ (replacing.toInside.set (by decide)) ?_ whole
      rw [get_set_of_ne (by decide)]
      exact replacing.t3
    | succ j =>
      have ordered := @slt_offset_offset base j 0 (by omega) (by omega)
      rw [offset_succ_sub_one, ← @offset_zero base, offset_offset, Nat.zero_add, ordered] at last
      exact absurd (of_decide_eq_true last) (Nat.not_lt_zero _)

theorem loop2_ends (ready : Replaceable P access base top text)
    (done : ∀ s', Inside P base top text s₀ s' → s'.get .t3 = BitVec.ofNat 32 (replaceDigits text).length →
      s'.mem.Holds base (replaceDigits text) →
      Eventually P access program post (.label (.strTools .strReplaceDigitsEpilogue)) s')
    (lower : i < text.length) (replacing : Replacing P base top text i (i + 1) s₀ s) :
    Eventually P access program post (.label (.strTools .loop2)) s := by
  induction i using Nat.strong_induction_on generalizing s with
  | _ i ih =>
    have again : ∀ j s', i = j + 1 → Replacing P base top text j (j + 1) s₀ s' →
        Eventually P access program post (.label (.strTools .loop2)) s' :=
      fun j s' before replacing' => ih j (by omega) (by omega) replacing'
    have iterates : ∀ s', Replacing P base top text i i s₀ s' →
        Eventually P access program post (.label (.strTools .loop2Iteration)) s' :=
      fun s' replacing' => loop2Iteration_ends ready lower replacing' again done
    have byte : s.mem (s.get .t1 + 0) = text[i] := by
      rw [add_zero, replacing.t1, replacing.front i (by rw [List.length_take]; omega), List.getElem_take]
    refine eventually_block (wp_lbu ?_ ?_)
    · rw [add_zero, replacing.t1]
      exact Access.loads_part ready.loadsText (by omega)
    rw [byte]
    refine wp_addi (wp_sltiu ?_)
    simp only [get_set_self, ne_eq, reduceCtorEq, not_false_eq_true, isReplaceableDigit_word]
    cases digit : isReplaceableDigit text[i] with
    | false =>
      have partly := replacing.partly lower
      rw [replacement_of_not_digit digit, List.reverse_singleton] at partly
      refine wp_bnez (fun other => absurd ?_ other) (fun _ => ?_)
      · simp
      have partly' := ((partly.set (r := .t5) (w := BitVec.ofNat 32 text[i].toNat) (by decide)).set (r := .t0)
        (w := BitVec.ofNat 32 text[i].toNat + (-49)) (by decide)).set (r := .t0) (w := if false = true then 1 else 0) (by decide)
      obtain ⟨pointer, inside, written⟩ := partly'.write ready
      refine wp_sb ?_ (wp_addi (wp_nil ⟨_, rfl, iterates _ ?_⟩))
      · rw [add_zero, pointer]
        exact Access.stores_part ready.storesText (by omega)
      · simp only [get_set_self, get_set_of_ne, ne_eq, reduceCtorEq, not_false_eq_true, add_zero, byte_of_word, get_store]
          at written ⊢
        exact written.done
    | true =>
      refine wp_bnez (fun _ => ?_) (fun zero => absurd zero ?_)
      · exact replaceDigit_ends ready lower digit (((replacing.set (by decide)).set (by decide)).set (by decide))
          (by simp) iterates
      · simp

theorem strReplaceDigits_replaces (ready : Replaceable P access base top text) (a0 : s₀.get .a0 = base)
    (a1 : s₀.get .a1 = BitVec.ofNat 32 text.length) (sp : s₀.get .sp = top) (tables : Tables P s₀.mem)
    (holds : s₀.mem.Holds base text) :
    Eventually P access program (fun place s' => place = P.place (s₀.get .ra) ∧ Replaced base text s₀ s')
      (.label (.strTools .strReplaceDigits)) s₀ := by
  have short := ready.fits
  have longer := @length_le_replaceDigits text
  have ends := fun s' (inside : Inside P base top text s₀ s') => strReplaceDigitsEpilogue_ends ready sp inside
  have kept : ∀ {other : Word} {bytes : List UInt8} {w₁ w₂ : Word}, s₀.mem.Holds other bytes → bytes.length ≤ 2 ^ 32 →
      Apart other bytes.length (below top 8) 8 →
      ((s₀.mem.store (below top 4) (wordBytes w₁)).store (below top 8) (wordBytes w₂)).Holds other bytes := by
    intro other bytes w₁ w₂ holds bound apart
    exact (holds.store bound (apart_below (n := 0) apart (by decide) (by decide))).store bound
      (apart_below (n := 4) apart (by decide) (by decide))
  have pushed : Pushed ((s₀.mem.store (below top 4) (wordBytes (s₀.get .ra))).store (below top 8)
      (wordBytes (s₀.get .s1))) top [s₀.get .s1, s₀.get .ra] := by
    have nothing : Pushed s₀.mem top [] := .nil
    exact (nothing.push (by decide)).push (show 4 * 1 + 4 ≤ 2 ^ 32 by decide)
  refine eventually_block (wp_push (n := 0) (by decide) (by rw [sp, below_zero])
    (Access.stores_below ready.storesStack (by decide)) ((isAligned_below (by decide)).trans ready.aligned) ?_)
  refine wp_push (n := 4) (by decide) (by simp) (Access.stores_below ready.storesStack (by decide))
    ((isAligned_below (by decide)).trans ready.aligned) ?_
  refine wp_mv (wp_add (wp_mv (wp_la ?_)))
  suffices entered : ∀ s', Counting P base top text 0 0 s₀ s' →
      wp P access [beqz .a1 (.strTools .strReplaceDigitsEpilogue)] s' (GoesOn P access program _ (.strTools .strReplaceDigits)) by
    refine entered _ ⟨⟨?_, ?_, ?_, ?_, ?_, ?_, ⟨?_, ?_⟩, rfl⟩, ?_, ?_, ?_, ?_⟩
    · simp
    · simp [a0]
    · simp [a1]
    · simp
    · intro r outside
      simp only [temporaries, List.mem_cons, List.not_mem_nil, or_false, not_or] at outside
      simp [outside]
    · simpa using pushed
    · exact kept tables.reversed (by decide) ready.reversedStack
    · exact kept tables.lengths (by decide) ready.lengthsStack
    · simp [a0]
    · simp [a0, a1, offset]
    · simp [a1, replaceDigits]
    · exact kept holds (by omega) ready.textStack
  intro s' counting
  refine wp_beqz (fun empty => ?_) (fun nonempty => wp_nil ⟨_, rfl, ?_⟩)
  · rw [counting.a1] at empty
    have nothing := congrArg BitVec.toNat empty
    rw [BitVec.toNat_ofNat, Nat.mod_eq_of_lt (by omega)] at nothing
    obtain rfl := List.length_eq_zero_iff.mp nothing
    exact ends s' counting.toInside counting.t3 .nil
  · have some_text : 0 < text.length := by
      refine Nat.pos_of_ne_zero fun nothing => nonempty ?_
      rw [counting.a1, nothing]
      rfl
    refine loop1_ends ready (fun s' replacing => ?_) some_text counting
    refine loop2_ends ready ends (Nat.sub_lt some_text Nat.one_pos) ?_
    rwa [Nat.sub_add_cancel some_text]

end

section

variable {ω : Type}

/-- The accesses of a call: loads of the text, the tables and the stack, stores to the result with its
    terminator and to two words of the stack. -/
def strReplaceDigitsAccess (P : Platform Label DataLabel ω) (base top : Word) (text : List UInt8) : Access where
  mayLoad address := inRange base text.length address || inRange (P.data .reversedReplacementsTable) 36 address ||
    inRange (P.data .replacementsLenTable) 36 address || inRange (below top 8) 8 address
  mayStore address := inRange base ((replaceDigits text).length + 1) address || inRange (below top 8) 8 address

/-- A call with a text in a buffer that has room for the result and its terminator, at addresses that are not
    negative, apart from the tables and the stack. -/
structure StrReplaceDigitsCall (P : Platform Label DataLabel ω) (text : List UInt8) (s : State ω) : Prop where
  length : s.get .a1 = BitVec.ofNat 32 text.length
  holds : s.mem.Holds (s.get .a0) text
  tables : Tables P s.mem
  fits : (s.get .a0).toNat + (replaceDigits text).length < 2 ^ 31
  aligned : isAligned (s.get .sp) = true
  alignedReversed : isAligned (P.data .reversedReplacementsTable) = true
  alignedLengths : isAligned (P.data .replacementsLenTable) = true
  stack : Apart (below (s.get .sp) 8) 8 (s.get .a0) ((replaceDigits text).length + 1)
  reversed : Apart (P.data .reversedReplacementsTable) 36 (s.get .a0) ((replaceDigits text).length + 1)
  lengths : Apart (P.data .replacementsLenTable) 36 (s.get .a0) ((replaceDigits text).length + 1)
  reversedStack : Apart (P.data .reversedReplacementsTable) 36 (below (s.get .sp) 8) 8
  lengthsStack : Apart (P.data .replacementsLenTable) 36 (below (s.get .sp) 8) 8

variable {P : Platform Label DataLabel ω} {text : List UInt8} {s : State ω}

theorem StrReplaceDigitsCall.replaceable (entered : StrReplaceDigitsCall P text s) :
    Replaceable P (strReplaceDigitsAccess P (s.get .a0) (s.get .sp) text) (s.get .a0) (s.get .sp) text := by
  have short := entered.fits
  have longer := @length_le_replaceDigits text
  have textStack : Apart (s.get .a0) text.length (below (s.get .sp) 8) 8 := by
    have part := entered.stack.symm.part 0 text.length 0 8 (by omega) (by omega)
      (by decide) (by decide)
    rwa [offset_zero, offset_zero] at part
  exact {
    fits := entered.fits
    aligned := entered.aligned
    alignedReversed := entered.alignedReversed
    alignedLengths := entered.alignedLengths
    stack := entered.stack
    reversed := entered.reversed
    lengths := entered.lengths
    reversedStack := entered.reversedStack
    lengthsStack := entered.lengthsStack
    textStack := textStack
    loadsText := Access.loads_of_range (fun _ inside => by simp [strReplaceDigitsAccess, inside]) (by omega)
    loadsReversed := Access.loads_of_range (fun _ inside => by simp [strReplaceDigitsAccess, inside]) (by decide)
    loadsLengths := Access.loads_of_range (fun _ inside => by simp [strReplaceDigitsAccess, inside]) (by decide)
    loadsStack := Access.loads_of_range (fun _ inside => by simp [strReplaceDigitsAccess, inside]) (by decide)
    storesText := Access.stores_of_range (fun _ inside => by simp [strReplaceDigitsAccess, inside]) (by omega)
    storesStack := Access.stores_of_range (fun _ inside => by simp [strReplaceDigitsAccess, inside]) (by decide) }

/-- A call returns with the text replaced in place and terminated, its length in `a0` and the stack pointer,
    the return address and the saved registers as they were, and writes nothing else. -/
theorem strReplaceDigits_correct (entered : StrReplaceDigitsCall P text s) :
    Eventually P (strReplaceDigitsAccess P (s.get .a0) (s.get .sp) text) program
      (fun place s' => (place = P.place (s.get .ra) ∧ Replaced (s.get .a0) text s s') ∧
        ∀ address, inRange (s.get .a0) ((replaceDigits text).length + 1) address = false →
          inRange (below (s.get .sp) 8) 8 address = false → s'.mem address = s.mem address)
      (.label (.strTools .strReplaceDigits)) s := by
  refine (strReplaceDigits_replaces entered.replaceable rfl entered.length rfl entered.tables entered.holds).outside.mono ?_
  rintro place s' ⟨returned, kept⟩
  refine ⟨returned, fun address outside off_stack => kept address ?_⟩
  simp only [strReplaceDigitsAccess, outside, off_stack, Bool.or_self]

end

section

/-- The tables at the begin of the data. -/
def exampleData : DataLabel → Word
  | .reversedReplacementsTable => 0x10010000
  | .replacementsLenTable => 0x10010024
  | _ => 0x10010100

def examplePlatform : Platform Label DataLabel Unit := ⟨fun _ => 0, fun _ => none, exampleData, fun _ => none⟩

/-- Digits between other characters: "a8-20". -/
def mixedText : List UInt8 := [97, 56, 45, 50, 48]

def exampleText : State Unit :=
  State.setAll ⟨fun _ => 0, Memory.store (Memory.store (Memory.store (fun _ => 0) 0x10010000 reversedReplacementsTable)
      0x10010024 (replacementsLenTable.flatMap wordBytes)) 0x10010100 mixedText, ()⟩
    [(.a0, 0x10010100), (.a1, 5), (.sp, 0x7fffeff0)]

theorem exampleText_call : StrReplaceDigitsCall examplePlatform mixedText exampleText := by
  have a0 : exampleText.get .a0 = 0x10010100 := by simp [exampleText]
  have sp : exampleText.get .sp = 0x7fffeff0 := by simp [exampleText]
  have reversed : examplePlatform.data .reversedReplacementsTable = 0x10010000 := rfl
  have lengths : examplePlatform.data .replacementsLenTable = 0x10010024 := rfl
  have length : (replaceDigits mixedText).length = 9 := by decide
  have tables : Apart (0x10010000 : Word) 36 0x10010024 36 := apart_of_le (by decide) (by decide)
  have reversedText : Apart (0x10010000 : Word) 36 0x10010100 10 := apart_of_le (by decide) (by decide)
  have lengthsText : Apart (0x10010024 : Word) 36 0x10010100 10 := apart_of_le (by decide) (by decide)
  have reversedBytes : Apart (0x10010000 : Word) 36 0x10010100 5 := apart_of_le (by decide) (by decide)
  have lengthsBytes : Apart (0x10010024 : Word) 36 0x10010100 5 := apart_of_le (by decide) (by decide)
  have reversedStack : Apart (0x10010000 : Word) 36 (below 0x7fffeff0 8) 8 := apart_of_le (by decide) (by decide)
  have lengthsStack : Apart (0x10010024 : Word) 36 (below 0x7fffeff0 8) 8 := apart_of_le (by decide) (by decide)
  have textStack : Apart (0x10010100 : Word) 10 (below 0x7fffeff0 8) 8 := apart_of_le (by decide) (by decide)
  refine ⟨?_, ?_, ⟨?_, ?_⟩, ?_, ?_, by decide, by decide, ?_, ?_, ?_, ?_, ?_⟩
  · simp [exampleText, mixedText]
  · rw [a0]
    exact Memory.holds_store (by decide)
  · exact ((Memory.holds_store (by decide)).store (by decide) tables).store (by decide) reversedBytes
  · exact (Memory.holds_store (by decide)).store (by decide) lengthsBytes
  · rw [a0, length]
    decide
  · rw [sp]
    decide
  · rw [a0, sp, length]
    exact textStack.symm
  · rw [a0, length]
    exact reversedText
  · rw [a0, length]
    exact lengthsText
  · rw [sp]
    exact reversedStack
  · rw [sp]
    exact lengthsStack

theorem strReplaceDigits_correct_mixed : StrReplaceDigitsCall examplePlatform mixedText exampleText ∧
    Eventually examplePlatform (strReplaceDigitsAccess examplePlatform (exampleText.get .a0) (exampleText.get .sp) mixedText) program
      (fun place s' => (place = examplePlatform.place (exampleText.get .ra) ∧ Replaced (exampleText.get .a0) mixedText exampleText s') ∧
        ∀ address, inRange (exampleText.get .a0) ((replaceDigits mixedText).length + 1) address = false →
          inRange (below (exampleText.get .sp) 8) 8 address = false → s'.mem address = exampleText.mem address)
      (.label (.strTools .strReplaceDigits)) exampleText :=
  ⟨exampleText_call, strReplaceDigits_correct exampleText_call⟩

end

end ArchCompSystems.Ihw3
