import ArchCompSystems.Library.Words

namespace ArchCompSystems.Library

abbrev Word := BitVec 32

abbrev Memory := Word → UInt8

/-- The address `count` bytes from `base`; addresses wrap. -/
def offset (base : Word) (count : Nat) : Word := base + BitVec.ofNat 32 count

/-- Whether an address is one of the `size` from `base`. -/
def inRange (base : Word) (size : Nat) (address : Word) : Bool := (address - base).toNat < size

def Apart (base : Word) (size : Nat) (base' : Word) (size' : Nat) : Prop :=
  ∀ address, inRange base size address = true → inRange base' size' address = false

namespace Memory

def store (m : Memory) (base : Word) (bytes : List UInt8) : Memory := fun address =>
  if inRange base bytes.length address then bytes.getD (address - base).toNat 0 else m address

def load (m : Memory) (base : Word) (size : Nat) : List UInt8 := (List.range size).map fun i => m (offset base i)

def loadWord (m : Memory) (address : Word) : Word := wordAt (m.load address 4) 0

/-- The memory has these bytes from `base` on. -/
def Holds (m : Memory) (base : Word) (bytes : List UInt8) : Prop :=
  ∀ i, (inside : i < bytes.length) → m (offset base i) = bytes[i]

end Memory

section

variable {base base' address : Word} {size size' count i : Nat} {m m' : Memory} {bytes bytes' : List UInt8}

theorem byte_of_word {c : UInt8} : UInt8.ofNat (BitVec.ofNat 32 c.toNat).toNat = c := by
  have bound := c.toNat_lt
  rw [BitVec.toNat_ofNat, Nat.mod_eq_of_lt (by omega), UInt8.ofNat_toNat]

@[simp] theorem offset_zero : offset base 0 = base := by simp [offset]

@[simp] theorem offset_offset : offset (offset base count) i = offset base (count + i) := by
  simp only [offset, BitVec.add_assoc, BitVec.ofNat_add]

theorem offset_add_one : offset base i + 1 = offset base (i + 1) := offset_offset

theorem eq_offset_of_add_one {address : Word} (next : address + 1 = offset base (i + 1)) : address = offset base i := by
  rw [← offset_add_one] at next
  exact add_right_cancel next

theorem ofNat_succ_sub_one {n : Nat} : BitVec.ofNat 32 (n + 1) + (-1) = BitVec.ofNat 32 n := by
  rw [BitVec.ofNat_add]
  exact add_neg_cancel_right _ _

theorem add_neg_one {w : Word} (positive : 0 < w.toNat) : w + (-1) = BitVec.ofNat 32 (w.toNat - 1) := by
  have value : w = BitVec.ofNat 32 (w.toNat - 1 + 1) := by
    rw [Nat.sub_add_cancel positive, BitVec.ofNat_toNat, BitVec.setWidth_eq]
  conv_lhs => rw [value]
  exact ofNat_succ_sub_one

theorem offset_succ_sub_one : offset base (i + 1) + (-1) = offset base i := by
  rw [← offset_add_one, BitVec.add_assoc]
  exact BitVec.add_zero _

theorem offset_sub_one (positive : 0 < i) : offset base i + (-1) = offset base (i - 1) := by
  obtain ⟨j, rfl⟩ := Nat.exists_eq_succ_of_ne_zero (Nat.ne_of_gt positive)
  exact offset_succ_sub_one

theorem toNat_offset (bound : base.toNat + i < 2 ^ 32) : (offset base i).toNat = base.toNat + i := by
  simp only [offset, BitVec.toNat_add, BitVec.toNat_ofNat]
  omega

theorem slt_offset_offset {j : Nat} (bound : base.toNat + i < 2 ^ 31) (bound' : base.toNat + j < 2 ^ 31) :
    (offset base i).slt (offset base j) = decide (i < j) := by
  have small := @toNat_offset base i (by omega)
  have small' := @toNat_offset base j (by omega)
  rw [BitVec.slt_eq_decide, BitVec.toInt_eq_toNat_of_lt (by omega), BitVec.toInt_eq_toNat_of_lt (by omega), small, small']
  exact decide_eq_decide.mpr (by omega)

theorem sub_one_slt (bound : base.toNat < 2 ^ 31) : (base + (-1)).slt base = true := by
  rcases Nat.eq_zero_or_pos base.toNat with zero | positive
  · obtain rfl : base = 0#32 := BitVec.eq_of_toNat_eq zero
    decide
  · have before : (base - 1).toNat = base.toNat - 1 := BitVec.toNat_sub_of_le positive
    rw [← BitVec.sub_eq_add_neg, BitVec.slt_eq_decide]
    rw [BitVec.toInt_eq_toNat_of_lt (by omega), BitVec.toInt_eq_toNat_of_lt (by omega), before]
    exact decide_eq_true (by omega)

theorem offset_sub (bound : i < 2 ^ 32) : (offset base i - base).toNat = i := by
  simp only [offset, add_sub_cancel_left, BitVec.toNat_ofNat]
  omega

theorem offset_inj {j : Nat} (bound : i < 2 ^ 32) (bound' : j < 2 ^ 32) : offset base i = offset base j ↔ i = j := by
  constructor
  · intro same
    rw [← @offset_sub base i bound, same, offset_sub bound']
  · rintro rfl
    rfl

theorem inRange_offset (inside : i < size) (bound : size ≤ 2 ^ 32) : inRange base size (offset base i) = true := by
  rw [inRange, offset_sub (by omega)]
  exact decide_eq_true inside

theorem inRange_whole : inRange base (2 ^ 32) address = true := decide_eq_true (address - base).isLt

theorem inRange_offset_offset {j : Nat} (fits : i + size ≤ 2 ^ 32) (bound : j < 2 ^ 32) :
    inRange (offset base i) size (offset base j) = decide (i ≤ j ∧ j < i + size) := by
  rw [inRange, offset, offset, add_sub_add_left_eq_sub, BitVec.toNat_sub, BitVec.toNat_ofNat, BitVec.toNat_ofNat]
  exact decide_eq_decide.mpr (by omega)

theorem exists_offset (inside : inRange base size address = true) : ∃ i < size, address = offset base i := by
  refine ⟨(address - base).toNat, of_decide_eq_true inside, ?_⟩
  rw [offset, BitVec.ofNat_toNat, BitVec.setWidth_eq, add_sub_cancel]

theorem inRange_of_part (inside : inRange (offset base i) size' address = true) (fits : i + size' ≤ size)
    (bound : size ≤ 2 ^ 32) : inRange base size address = true := by
  obtain ⟨j, lower, rfl⟩ := exists_offset inside
  rw [offset_offset]
  exact inRange_offset (by omega) bound

theorem Apart.symm (apart : Apart base size base' size') : Apart base' size' base size := by
  intro address inside
  by_contra common
  rw [apart address (Bool.of_not_eq_false common)] at inside
  cases inside

theorem Apart.part (apart : Apart base size base' size') (i count i' count' : Nat) (fits : i + count ≤ size)
    (bound : size ≤ 2 ^ 32) (fits' : i' + count' ≤ size') (bound' : size' ≤ 2 ^ 32) :
    Apart (offset base i) count (offset base' i') count' := by
  intro address inside
  by_contra common
  have whole := apart address (inRange_of_part inside fits bound)
  rw [inRange_of_part (Bool.of_not_eq_false common) fits' bound'] at whole
  cases whole

theorem apart_of_le (before : base.toNat + size ≤ base'.toNat) (bound : base'.toNat + size' ≤ 2 ^ 32) :
    Apart base size base' size' := by
  intro address inside
  by_contra common
  obtain ⟨i, lower, rfl⟩ := exists_offset inside
  obtain ⟨j, lower', same⟩ := exists_offset (Bool.of_not_eq_false common)
  have equal := congrArg BitVec.toNat same
  rw [toNat_offset (by omega), toNat_offset (by omega)] at equal
  omega

theorem apart_parts {count' i' : Nat} (before : i + count ≤ i') (bound : i' + count' ≤ 2 ^ 32) :
    Apart (offset base i) count (offset base i') count' := by
  intro address inside
  by_contra common
  obtain ⟨j, lower, rfl⟩ := exists_offset inside
  obtain ⟨j', lower', same⟩ := exists_offset (Bool.of_not_eq_false common)
  have equal := congrArg (fun address => (address - base).toNat) same
  simp only [offset_offset] at equal
  rw [offset_sub (by omega), offset_sub (by omega)] at equal
  omega

namespace Memory

theorem store_of_not_inRange (outside : inRange base bytes.length address = false) :
    m.store base bytes address = m address := by
  rw [store, outside]
  rfl

theorem store_offset (inside : i < bytes.length) (bound : bytes.length ≤ 2 ^ 32) :
    m.store base bytes (offset base i) = bytes[i] := by
  rw [store, inRange_offset inside bound, offset_sub (by omega), if_pos rfl, List.getD_eq_getElem?_getD,
    List.getElem?_eq_getElem inside, Option.getD_some]

theorem store_offset_of_le (behind : bytes.length ≤ i) (bound : i < 2 ^ 32) :
    m.store base bytes (offset base i) = m (offset base i) := by
  refine store_of_not_inRange ?_
  rw [inRange, offset_sub bound]
  exact decide_eq_false (by omega)

theorem Holds.nil : m.Holds base [] := fun _ inside => absurd inside (Nat.not_lt_zero _)

theorem holds_store (bound : bytes.length ≤ 2 ^ 32) : (m.store base bytes).Holds base bytes :=
  fun _ inside => store_offset inside bound

theorem holds_append : m.Holds base (bytes ++ bytes') ↔
    m.Holds base bytes ∧ m.Holds (offset base bytes.length) bytes' := by
  constructor
  · intro holds
    refine ⟨fun i inside => ?_, fun i inside => ?_⟩
    · rw [holds i (by rw [List.length_append]; omega), List.getElem_append_left inside]
    · rw [offset_offset, holds (bytes.length + i) (by rw [List.length_append]; omega),
        List.getElem_append_right (by omega)]
      simp only [Nat.add_sub_cancel_left]
  · rintro ⟨front, back⟩ i inside
    rw [List.getElem_append]
    split
    · exact front i _
    · rename_i beyond
      have at_back := back (i - bytes.length) (by rw [List.length_append] at inside; omega)
      rw [offset_offset, Nat.add_sub_cancel' (by omega)] at at_back
      exact at_back

theorem holds_cons {byte : UInt8} : m.Holds base (byte :: bytes) ↔ m base = byte ∧ m.Holds (offset base 1) bytes := by
  rw [← List.singleton_append, holds_append]
  refine and_congr_left fun _ => ⟨fun holds => ?_, fun same i inside => ?_⟩
  · have first := holds 0 Nat.one_pos
    rwa [offset_zero] at first
  · obtain rfl : i = 0 := by simp only [List.length_singleton] at inside; omega
    rw [offset_zero]
    exact same

theorem Holds.congr (holds : m.Holds base bytes) (bound : bytes.length ≤ 2 ^ 32)
    (same : ∀ address, inRange base bytes.length address = true → m' address = m address) : m'.Holds base bytes :=
  fun i inside => (same _ (inRange_offset inside bound)).trans (holds i inside)

theorem Holds.store (holds : m.Holds base bytes) (bound : bytes.length ≤ 2 ^ 32)
    (apart : Apart base bytes.length base' bytes'.length) : (m.store base' bytes').Holds base bytes :=
  holds.congr bound fun address inside => store_of_not_inRange (apart address inside)

theorem Holds.part (holds : m.Holds base bytes) (fits : i + count ≤ bytes.length) :
    m.Holds (offset base i) ((bytes.drop i).take count) := by
  intro j lower
  rw [List.length_take, List.length_drop] at lower
  rw [offset_offset, holds (i + j) (by omega), List.getElem_take, List.getElem_drop]

theorem Holds.length_lt (holds : m.Holds base (bytes ++ [0])) (noZero : 0 ∉ bytes) : bytes.length < 2 ^ 32 := by
  by_contra long
  have length : (bytes ++ [0]).length = bytes.length + 1 := by rw [List.length_append, List.length_singleton]
  have last := holds bytes.length (by omega)
  have earlier := holds (bytes.length - 2 ^ 32) (by omega)
  have wrapped : offset base bytes.length = offset base (bytes.length - 2 ^ 32) := by
    have split : bytes.length = bytes.length - 2 ^ 32 + 2 ^ 32 := by omega
    conv_lhs => rw [split]
    rw [offset, BitVec.ofNat_add, show BitVec.ofNat 32 (2 ^ 32) = 0 from rfl, add_zero]
    rfl
  rw [← wrapped, last, List.getElem_concat_length rfl, List.getElem_append_left (by omega)] at earlier
  exact noZero (earlier ▸ List.getElem_mem _)

theorem store_concat {byte : UInt8} (bound : bytes.length < 2 ^ 32) :
    (m.store base bytes).store (offset base bytes.length) [byte] = m.store base (bytes ++ [byte]) := by
  have length : (bytes ++ [byte]).length = bytes.length + 1 := by rw [List.length_append, List.length_singleton]
  funext address
  obtain ⟨i, lower, rfl⟩ := exists_offset (@inRange_whole base address)
  rcases Nat.lt_trichotomy i bytes.length with before | rfl | behind
  · have apart : inRange (offset base bytes.length) [byte].length (offset base i) = false := by
      rw [List.length_singleton, inRange_offset_offset (by omega) lower]
      exact decide_eq_false (by omega)
    rw [store_of_not_inRange apart, store_offset before (Nat.le_of_lt bound), store_offset (by omega) (by omega),
      List.getElem_append_left before]
  · have last := @store_offset (offset base bytes.length) 0 (m.store base bytes) [byte] Nat.one_pos (by rw [List.length_singleton]; omega)
    rw [offset_zero] at last
    rw [last, store_offset (by omega) (by omega), List.getElem_concat_length rfl]
    rfl
  · have apart : inRange (offset base bytes.length) [byte].length (offset base i) = false := by
      rw [List.length_singleton, inRange_offset_offset (by omega) lower]
      exact decide_eq_false (by omega)
    rw [store_of_not_inRange apart, store_offset_of_le (Nat.le_of_lt behind) lower, store_offset_of_le (by omega) lower]

theorem load_of_holds (holds : m.Holds base bytes) : m.load base bytes.length = bytes := by
  refine List.ext_getElem (by simp [load]) fun i _ inside => ?_
  simp only [load, List.getElem_map, List.getElem_range]
  exact holds i inside

theorem loadWord_of_holds {w : Word} (holds : m.Holds address (wordBytes w)) : m.loadWord address = w := by
  rw [loadWord, show m.load address 4 = wordBytes w from load_of_holds holds, ← List.append_nil (wordBytes w), wordAt_wordBytes]

end Memory

end

end ArchCompSystems.Library
