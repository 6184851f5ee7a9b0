import ArchCompSystems.Library.RingBuffer

namespace ArchCompSystems.OsIhw3

open Library

/-- Pin that workers pass to each other; `pin_id` is a C `int`. -/
structure Pin where
  pinId : BitVec 32
  deriving DecidableEq

def sizeofPin : Nat := 4

def Pin.bytes (pin : Pin) : List UInt8 :=
  [UInt8.ofNat pin.pinId.toNat, UInt8.ofNat (pin.pinId.toNat / 256),
    UInt8.ofNat (pin.pinId.toNat / 65536), UInt8.ofNat (pin.pinId.toNat / 16777216)]

def Pin.ofBytes (bytes : List UInt8) : Pin :=
  ⟨BitVec.ofNat 32 (bytes.foldr (fun byte rest => byte.toNat + 256 * rest) 0)⟩

@[simp] theorem Pin.length_bytes (pin : Pin) : pin.bytes.length = sizeofPin := rfl

theorem Pin.ofBytes_bytes (pin : Pin) : Pin.ofBytes pin.bytes = pin := by
  have bound := pin.pinId.isLt
  have digits : pin.pinId.toNat % 256 + 256 * (pin.pinId.toNat / 256 % 256 +
      256 * (pin.pinId.toNat / 65536 % 256 + 256 * (pin.pinId.toNat / 16777216 % 256))) =
      pin.pinId.toNat := by omega
  simp only [ofBytes, bytes, List.foldr_cons, List.foldr_nil, UInt8.toNat_ofNat', Nat.mul_zero,
    Nat.add_zero, Nat.reducePow, digits, BitVec.ofNat_toNat, BitVec.setWidth_eq]

theorem Pin.bytes_ofBytes {bytes : List UInt8} (full : bytes.length = sizeofPin) :
    (Pin.ofBytes bytes).bytes = bytes := by
  match bytes, full with
  | [a, b, c, d], _ =>
    have ha := a.toNat_lt
    have hb := b.toNat_lt
    have hc := c.toNat_lt
    have hd := d.toNat_lt
    simp only [Pin.bytes, ofBytes, List.foldr_cons, List.foldr_nil, Nat.mul_zero, Nat.add_zero,
      BitVec.toNat_ofNat, List.cons.injEq, and_true]
    refine ⟨?_, ?_, ?_, ?_⟩ <;> apply UInt8.toNat_inj.mp <;>
      simp only [UInt8.toNat_ofNat', Nat.reducePow] <;> omega

def pinsQueueMaxSize : Nat := 16

structure PinsQueue where
  array : Nat → Pin
  readPos : Nat
  writePos : Nat
  queueSize : Nat

def PinsQueue.zero : PinsQueue := ⟨fun _ => ⟨0⟩, 0, 0, 0⟩

def pinsQueueEmpty (queue : PinsQueue) : Bool := queue.queueSize == 0

def pinsQueueFull (queue : PinsQueue) : Bool := queue.queueSize == pinsQueueMaxSize

/-- `none` is the failure of the assertion on `write_pos`. -/
def pinsQueueTryPut (queue : PinsQueue) (pin : Pin) : Option (Bool × PinsQueue) :=
  if !pinsQueueFull queue then
    if queue.writePos < pinsQueueMaxSize then
      some (true, { queue with
        array := Function.update queue.array queue.writePos pin
        writePos := (queue.writePos + 1) % pinsQueueMaxSize
        queueSize := queue.queueSize + 1 })
    else none
  else some (false, queue)

/-- `pin` is the value of `*pin` before the call; `none` is the failure of the assertion on
    `read_pos`. -/
def pinsQueueTryPop (queue : PinsQueue) (pin : Pin) : Option (Bool × PinsQueue × Pin) :=
  if !pinsQueueEmpty queue then
    if queue.readPos < pinsQueueMaxSize then
      some (true, { queue with
        readPos := (queue.readPos + 1) % pinsQueueMaxSize
        queueSize := queue.queueSize - 1 }, queue.array queue.readPos)
    else none
  else some (false, queue, pin)

namespace PinsQueue

def ring (queue : PinsQueue) : RingBuffer Pin :=
  ⟨queue.array, queue.readPos, queue.writePos, queue.queueSize⟩

def WellFormed (queue : PinsQueue) : Prop := queue.ring.WellFormed pinsQueueMaxSize

/-- The queued pins, oldest first. -/
def contents (queue : PinsQueue) : List Pin := queue.ring.contents pinsQueueMaxSize

theorem zero_wellFormed : zero.WellFormed := ⟨by decide, by decide, by decide⟩

@[simp] theorem zero_contents : zero.contents = [] := rfl

@[simp] theorem length_contents (queue : PinsQueue) :
    queue.contents.length = queue.queueSize := by simp [contents, ring]

end PinsQueue

theorem pinsQueueTryPut_spec {queue : PinsQueue} (wf : queue.WellFormed) (pin : Pin) :
    (pinsQueueFull queue = true ∧ pinsQueueTryPut queue pin = some (false, queue)) ∨
    (pinsQueueFull queue = false ∧ ∃ result, pinsQueueTryPut queue pin = some (true, result) ∧
      result.WellFormed ∧ result.contents = queue.contents ++ [pin]) := by
  cases full : pinsQueueFull queue with
  | true => exact .inl ⟨rfl, by simp [pinsQueueTryPut, full]⟩
  | false =>
    have inside : queue.writePos < pinsQueueMaxSize := RingBuffer.WellFormed.writePos_lt wf
    have room : queue.queueSize < pinsQueueMaxSize := by
      have bound : queue.queueSize ≤ pinsQueueMaxSize := wf.size_le
      have unequal : queue.queueSize ≠ pinsQueueMaxSize := by simpa [pinsQueueFull] using full
      omega
    have notFull : (!pinsQueueFull queue) = true := by rw [full]; rfl
    exact .inr ⟨rfl, _, (if_pos notFull).trans (if_pos inside),
      RingBuffer.WellFormed.put wf room pin, RingBuffer.contents_put wf room pin⟩

theorem pinsQueueTryPop_spec {queue : PinsQueue} (wf : queue.WellFormed) (pin : Pin) :
    (pinsQueueEmpty queue = true ∧ pinsQueueTryPop queue pin = some (false, queue, pin)) ∨
    (pinsQueueEmpty queue = false ∧ ∃ result front,
      pinsQueueTryPop queue pin = some (true, result, front) ∧ result.WellFormed ∧
      queue.contents = front :: result.contents) := by
  cases empty : pinsQueueEmpty queue with
  | true => exact .inl ⟨rfl, by simp [pinsQueueTryPop, empty]⟩
  | false =>
    have inside : queue.readPos < pinsQueueMaxSize := RingBuffer.WellFormed.readPos_lt wf
    have nonempty : 0 < queue.queueSize := by
      have unequal : queue.queueSize ≠ 0 := by simpa [pinsQueueEmpty] using empty
      omega
    have notEmpty : (!pinsQueueEmpty queue) = true := by rw [empty]; rfl
    exact .inr ⟨rfl, _, _, (if_pos notEmpty).trans (if_pos inside),
      RingBuffer.WellFormed.dropFront wf nonempty, RingBuffer.contents_dropFront wf nonempty⟩

end ArchCompSystems.OsIhw3
