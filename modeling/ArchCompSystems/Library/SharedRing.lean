import Mathlib.Data.Nat.ModEq
import Mathlib.Logic.Function.Basic
import Mathlib.Tactic.Common

namespace ArchCompSystems.Library

/-- The memory of a ring that threads share. `stored` and `taken` record what was ever stored into
    its cells and loaded from them, oldest first. -/
structure SharedRing (α : Type) where
  cells : Nat → α
  readIndex : Nat
  writeIndex : Nat
  size : Nat
  stored : List α
  taken : List α

namespace SharedRing

variable {α : Type} {capacity : Nat} {r : SharedRing α}

def count (r : SharedRing α) : Nat := r.stored.length - r.taken.length

/-- The stored values that were not yet taken, oldest first. -/
def contents (r : SharedRing α) : List α := r.stored.drop r.taken.length

def storeCell (r : SharedRing α) (i : Nat) (value : α) : SharedRing α :=
  { r with cells := Function.update r.cells i value, stored := r.stored ++ [value] }

def loadCell (r : SharedRing α) (i : Nat) : SharedRing α :=
  { r with taken := r.taken ++ [r.cells i] }

/-- What was taken are the first stored values, and the others are still in their cells. -/
structure Queued (capacity : Nat) (r : SharedRing α) : Prop where
  bounded : r.stored.length ≤ r.taken.length + capacity
  taken_prefix : r.taken <+: r.stored
  cells_eq : ∀ k value, r.taken.length ≤ k → r.stored[k]? = some value →
    r.cells (k % capacity) = value

/-- Both indices stand where the next value is stored and taken. -/
structure Settled (capacity : Nat) (r : SharedRing α) : Prop where
  readIndex_eq : r.readIndex = r.taken.length % capacity
  writeIndex_eq : r.writeIndex = r.stored.length % capacity

theorem Queued.taken_le (queued : r.Queued capacity) : r.taken.length ≤ r.stored.length :=
  queued.taken_prefix.length_le

theorem Queued.withIndices (queued : r.Queued capacity) {readIndex writeIndex size : Nat} :
    ({ r with readIndex, writeIndex, size } : SharedRing α).Queued capacity :=
  ⟨queued.bounded, queued.taken_prefix, queued.cells_eq⟩

@[simp] theorem length_contents (r : SharedRing α) : r.contents.length = r.count := List.length_drop ..

theorem Queued.free_cell (queued : r.Queued capacity) (room : r.count < capacity) {k : Nat}
    (lower : r.taken.length ≤ k) (upper : k < r.stored.length) :
    k % capacity ≠ r.stored.length % capacity := by
  have ordered := queued.taken_le
  intro same
  have distance : (r.stored.length - k) % capacity = 0 :=
    Nat.sub_mod_eq_zero_of_mod_eq same.symm
  rw [Nat.mod_eq_of_lt (by unfold count at room; omega)] at distance
  omega

theorem Queued.storeCell (queued : r.Queued capacity) (room : r.count < capacity) (value : α) :
    (r.storeCell (r.stored.length % capacity) value).Queued capacity where
  bounded := by
    have ordered := queued.taken_le
    simp only [SharedRing.storeCell, List.length_append, List.length_singleton]
    unfold count at room
    omega
  taken_prefix := queued.taken_prefix.trans (List.prefix_append ..)
  cells_eq := by
    intro k other lower known
    simp only [SharedRing.storeCell] at known lower ⊢
    by_cases last : k < r.stored.length
    · rw [List.getElem?_append_left last] at known
      rw [Function.update_of_ne (queued.free_cell room lower last)]
      exact queued.cells_eq k other lower known
    · have end' : k = r.stored.length := by
        have bound := (List.getElem?_eq_some_iff.mp known).1
        rw [List.length_append, List.length_singleton] at bound
        omega
      subst end'
      rw [List.getElem?_concat_length] at known
      rw [Function.update_self]
      exact Option.some.inj known

theorem Queued.front (queued : r.Queued capacity) (some : 0 < r.count) :
    r.stored[r.taken.length]? = .some (r.cells (r.taken.length % capacity)) := by
  have inside : r.taken.length < r.stored.length := by unfold count at some; omega
  have known := List.getElem?_eq_getElem inside
  rw [known, queued.cells_eq _ _ (Nat.le_refl _) known]

theorem Queued.loadCell (queued : r.Queued capacity) (some : 0 < r.count) :
    (r.loadCell (r.taken.length % capacity)).Queued capacity where
  bounded := by
    have := queued.bounded
    simp only [SharedRing.loadCell, List.length_append, List.length_singleton]
    omega
  taken_prefix := by
    obtain ⟨rest, same⟩ := queued.taken_prefix
    have front := queued.front some
    simp only [SharedRing.loadCell]
    cases rest with
    | nil =>
      rw [List.append_nil] at same
      simp [count, same] at some
    | cons next rest =>
      rw [← same, List.getElem?_append_right (Nat.le_refl _), Nat.sub_self] at front
      rw [← same, ← Option.some.inj front]
      exact ⟨rest, by simp⟩
  cells_eq := by
    intro k value lower known
    simp only [SharedRing.loadCell, List.length_append, List.length_singleton] at lower known ⊢
    exact queued.cells_eq k value (by omega) known

theorem Queued.overwriteTaken (queued : r.Queued capacity) (room : r.count < capacity) (some : 0 < r.taken.length)
    (value : α) :
    ({ r with cells := Function.update r.cells ((r.taken.length - 1) % capacity) value } : SharedRing α).Queued capacity where
  bounded := queued.bounded
  taken_prefix := queued.taken_prefix
  cells_eq := by
    intro k other lower known
    have inside : k < r.stored.length := (List.getElem?_eq_some_iff.mp known).1
    have apart : k % capacity ≠ (r.taken.length - 1) % capacity := by
      intro same
      have distance : (k - (r.taken.length - 1)) % capacity = 0 := Nat.sub_mod_eq_zero_of_mod_eq same
      simp only [count] at room
      simp only at lower
      rw [Nat.mod_eq_of_lt (by omega)] at distance
      omega
    simp only [Function.update_of_ne apart]
    exact queued.cells_eq k other lower known

theorem count_storeCell (queued : r.Queued capacity) (i : Nat) (value : α) :
    (r.storeCell i value).count = r.count + 1 := by
  have ordered := queued.taken_le
  simp only [count, storeCell, List.length_append, List.length_singleton]
  omega

theorem count_loadCell (some : 0 < r.count) (i : Nat) : (r.loadCell i).count + 1 = r.count := by
  simp only [count, loadCell, List.length_append, List.length_singleton] at some ⊢
  omega

theorem contents_storeCell (queued : r.Queued capacity) (i : Nat) (value : α) :
    (r.storeCell i value).contents = r.contents ++ [value] :=
  List.drop_append_of_le_length queued.taken_le

theorem contents_loadCell (queued : r.Queued capacity) (some : 0 < r.count) :
    r.contents = r.cells (r.taken.length % capacity) ::
      (r.loadCell (r.taken.length % capacity)).contents := by
  have inside : r.taken.length < r.stored.length := by unfold count at some; omega
  have front := queued.front some
  rw [List.getElem?_eq_getElem inside] at front
  rw [contents, List.drop_eq_getElem_cons inside, Option.some.inj front]
  simp only [loadCell, contents, List.length_append, List.length_singleton]

theorem Settled.put (settled : r.Settled capacity) (value : α) (size : Nat) :
    ({ r.storeCell r.writeIndex value with
      writeIndex := (r.writeIndex + 1) % capacity
      size := size } : SharedRing α).Settled capacity where
  readIndex_eq := settled.readIndex_eq
  writeIndex_eq := by
    simp only [SharedRing.storeCell, List.length_append, List.length_singleton, settled.writeIndex_eq,
      Nat.mod_add_mod]

theorem Settled.drop (settled : r.Settled capacity) (size : Nat) :
    ({ r.loadCell r.readIndex with
      readIndex := (r.readIndex + 1) % capacity
      size := size } : SharedRing α).Settled capacity where
  readIndex_eq := by
    simp only [SharedRing.loadCell, List.length_append, List.length_singleton, settled.readIndex_eq,
      Nat.mod_add_mod]
  writeIndex_eq := settled.writeIndex_eq

end SharedRing

end ArchCompSystems.Library
