import Mathlib.Data.BitVec
import Mathlib.Tactic.Common

namespace ArchCompSystems.Library

def wordBytes (w : BitVec 32) : List UInt8 :=
  [UInt8.ofNat w.toNat, UInt8.ofNat (w.toNat / 256), UInt8.ofNat (w.toNat / 65536),
    UInt8.ofNat (w.toNat / 16777216)]

def wordAt (bytes : List UInt8) (offset : Nat) : BitVec 32 :=
  BitVec.ofNat 32 ((bytes.getD offset 0).toNat + 256 * ((bytes.getD (offset + 1) 0).toNat +
    256 * ((bytes.getD (offset + 2) 0).toNat + 256 * (bytes.getD (offset + 3) 0).toNat)))

@[simp] theorem length_wordBytes (w : BitVec 32) : (wordBytes w).length = 4 := rfl

theorem wordAt_wordBytes (w : BitVec 32) (rest : List UInt8) : wordAt (wordBytes w ++ rest) 0 = w := by
  have bound := w.isLt
  have digits : w.toNat % 256 + 256 * (w.toNat / 256 % 256 + 256 * (w.toNat / 65536 % 256 +
      256 * (w.toNat / 16777216 % 256))) = w.toNat := by omega
  simp only [wordAt, wordBytes, List.cons_append, List.nil_append, List.getD_cons_zero, Nat.zero_add,
    List.getD_cons_succ, UInt8.toNat_ofNat', Nat.reducePow, digits, BitVec.ofNat_toNat, BitVec.setWidth_eq]

theorem wordAt_append (bytes rest : List UInt8) (offset : Nat) :
    wordAt (bytes ++ rest) (bytes.length + offset) = wordAt rest offset := by
  have behind : ∀ i, (bytes ++ rest).getD (bytes.length + i) 0 = rest.getD i 0 := fun i => by
    rw [List.getD_eq_getElem?_getD, List.getElem?_append_right (Nat.le_add_right ..),
      Nat.add_sub_cancel_left, List.getD_eq_getElem?_getD]
  simp only [wordAt, Nat.add_assoc, behind]

end ArchCompSystems.Library
