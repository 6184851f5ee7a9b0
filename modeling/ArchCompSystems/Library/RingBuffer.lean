import Mathlib.Data.List.Range
import Mathlib.Data.Nat.ModEq
import Mathlib.Logic.Function.Basic
import Mathlib.Tactic.Common

namespace ArchCompSystems.Library

/-- An array used as a ring: the occupied cells are the `size` cells from `readPos` on. -/
structure RingBuffer (α : Type) where
  cells : Nat → α
  readPos : Nat
  writePos : Nat
  size : Nat

namespace RingBuffer

variable {α : Type} {capacity : Nat}

structure WellFormed (capacity : Nat) (r : RingBuffer α) : Prop where
  readPos_lt : r.readPos < capacity
  size_le : r.size ≤ capacity
  writePos_eq : r.writePos = (r.readPos + r.size) % capacity

/-- The stored values, oldest first. -/
def contents (capacity : Nat) (r : RingBuffer α) : List α :=
  (List.range r.size).map fun k => r.cells ((r.readPos + k) % capacity)

def put (capacity : Nat) (r : RingBuffer α) (value : α) : RingBuffer α where
  cells := Function.update r.cells r.writePos value
  readPos := r.readPos
  writePos := (r.writePos + 1) % capacity
  size := r.size + 1

def front (r : RingBuffer α) : α := r.cells r.readPos

def dropFront (capacity : Nat) (r : RingBuffer α) : RingBuffer α where
  cells := r.cells
  readPos := (r.readPos + 1) % capacity
  writePos := r.writePos
  size := r.size - 1

@[simp] theorem length_contents (r : RingBuffer α) : (r.contents capacity).length = r.size := by
  simp [contents]

theorem WellFormed.writePos_lt {r : RingBuffer α} (wf : r.WellFormed capacity) :
    r.writePos < capacity := by
  rw [wf.writePos_eq]
  exact Nat.mod_lt _ (by have := wf.readPos_lt; omega)

theorem offset_injective {start k l : Nat} (hk : k < capacity) (hl : l < capacity)
    (same : (start + k) % capacity = (start + l) % capacity) : k = l := by
  have modular : k % capacity = l % capacity := Nat.ModEq.add_left_cancel' start same
  rwa [Nat.mod_eq_of_lt hk, Nat.mod_eq_of_lt hl] at modular

theorem WellFormed.put {r : RingBuffer α} (wf : r.WellFormed capacity) (room : r.size < capacity)
    (value : α) : (r.put capacity value).WellFormed capacity where
  readPos_lt := wf.readPos_lt
  size_le := room
  writePos_eq := by
    simp only [RingBuffer.put, wf.writePos_eq, Nat.mod_add_mod, Nat.add_assoc]

theorem contents_put {r : RingBuffer α} (wf : r.WellFormed capacity) (room : r.size < capacity)
    (value : α) : (r.put capacity value).contents capacity = r.contents capacity ++ [value] := by
  simp only [contents, RingBuffer.put, List.range_succ, List.map_append, List.map_cons, List.map_nil]
  congr 1
  · apply List.map_congr_left
    intro k member
    have bound : k < r.size := List.mem_range.mp member
    apply Function.update_of_ne
    rw [wf.writePos_eq]
    intro same
    exact absurd (offset_injective (by omega) room same) (by omega)
  · rw [← wf.writePos_eq, Function.update_self]

theorem WellFormed.dropFront {r : RingBuffer α} (wf : r.WellFormed capacity) (some : 0 < r.size) :
    (r.dropFront capacity).WellFormed capacity where
  readPos_lt := Nat.mod_lt _ (by have := wf.readPos_lt; omega)
  size_le := by have := wf.size_le; simp only [RingBuffer.dropFront]; omega
  writePos_eq := by
    simp only [RingBuffer.dropFront, Nat.mod_add_mod, wf.writePos_eq]
    congr 1
    omega

theorem contents_dropFront {r : RingBuffer α} (wf : r.WellFormed capacity) (some : 0 < r.size) :
    r.contents capacity = r.front :: (r.dropFront capacity).contents capacity := by
  obtain ⟨rest, size⟩ : ∃ rest, r.size = rest + 1 := ⟨r.size - 1, by omega⟩
  simp only [contents, RingBuffer.dropFront, front, size, List.range_succ_eq_map, List.map_cons,
    List.map_map, Nat.add_zero, Nat.mod_eq_of_lt wf.readPos_lt, Nat.add_sub_cancel]
  congr 1
  apply List.map_congr_left
  intro k _
  simp only [Function.comp_apply, Nat.mod_add_mod]
  congr 2
  omega

end RingBuffer

end ArchCompSystems.Library
