import ArchCompSystems.Library.BoundedBuffer
import Mathlib.Data.Fin.VecNotation

namespace ArchCompSystems.OsIhw2

open Library Library.Program

/-- Pin that workers pass to each other; `pin_id` is a C `int`. -/
structure Pin where
  pinId : BitVec 32
  deriving DecidableEq

def shMemBufferSize : Nat := 4

/-- `free_pins_sem` and `added_pins_sem` are the two semaphores and `buffer_access_sem` is the guard.
    The pin is what the call stores through its pointer; no semaphore call fails, so it returns true. -/
def waitForPin : BufferProgram Pin Pin := do
  BufferCall.waitAdded.make
  BufferCall.lock.make
  let readIndex ← BufferCall.loadReadIndex.make
  let pin ← BufferCall.make (.loadCell readIndex)
  BufferCall.make (.storeReadIndex ((readIndex + 1) % shMemBufferSize))
  BufferCall.postFree.make
  BufferCall.unlock.make
  return pin

def sendPin (pin : Pin) : BufferProgram Pin Bool := do
  BufferCall.waitFree.make
  BufferCall.lock.make
  let writeIndex ← BufferCall.loadWriteIndex.make
  BufferCall.make (.storeCell writeIndex pin)
  BufferCall.make (.storeWriteIndex ((writeIndex + 1) % shMemBufferSize))
  BufferCall.postAdded.make
  BufferCall.unlock.make
  return true

inductive BufferOperation where
  | send (pin : Pin)
  | wait

def BufferOperation.program : BufferOperation → BufferProgram Pin Unit
  | .send pin => do let _ ← sendPin pin
  | .wait => do let _ ← waitForPin

def bufferWorker : List BufferOperation → BufferProgram Pin Unit
  | [] => pure ()
  | operation :: rest => operation.program >>= fun _ => bufferWorker rest

/-- `init_shared_data` and then any workers with any operations, in any order of their calls. -/
abbrev PinBufferReach {τ : Type} [DecidableEq τ] (operations : τ → List BufferOperation) :
    Pool τ (BufferCall Pin) BufferCall.Answer (BufferState Pin) → Prop :=
  BufferReach shMemBufferSize ⟨0⟩ fun t => bufferWorker (operations t)

def NothingElse (_ : SharedRing Pin) : Prop := True

theorem sendPin_keeps (pin : Pin) : (sendPin pin).Keeps shMemBufferSize NothingElse := by
  refine follows_waitFree (follows_lock fun r entry => ?_)
  refine follows_loadWriteIndex (follows_storeCell entry.indices.writeIndex_eq ?_)
  refine follows_storeWriteIndex (follows_postAdded (follows_unlock ?_ True.intro rfl))
  exact entry.indices.put pin r.size

theorem waitForPin_keeps : waitForPin.Keeps shMemBufferSize NothingElse := by
  refine follows_waitAdded (follows_lock fun r entry => ?_)
  refine follows_loadReadIndex (follows_loadCell entry.indices.readIndex_eq ?_)
  refine follows_storeReadIndex (follows_postFree (follows_unlock ?_ True.intro rfl))
  exact entry.indices.drop r.size

theorem bufferWorker_keeps (operations : List BufferOperation) :
    (bufferWorker operations).Keeps shMemBufferSize NothingElse := by
  induction operations with
  | nil => rfl
  | cons operation rest ih =>
    refine Protocol.follows_bind.mpr ?_
    cases operation with
    | send pin =>
      refine Protocol.follows_bind.mpr (Protocol.follows_mono ?_ (sendPin_keeps pin))
      rintro _ _ rfl
      exact ih
    | wait =>
      refine Protocol.follows_bind.mpr (Protocol.follows_mono ?_ waitForPin_keeps)
      rintro _ _ rfl
      exact ih

theorem bufferWorker_idle (operations : List BufferOperation) : (bufferWorker operations).Idle := by
  cases operations with
  | nil => exact True.intro
  | cons operation rest => cases operation <;> exact True.intro

theorem sendPin_always (pin : Pin) :
    (sendPin pin).Always fun history ok => storesIn history = [pin] ∧ loadsIn history = [] ∧ ok = true := by
  refine always_bind.mpr (always_request.mpr fun _ => ?_)
  refine always_bind.mpr (always_request.mpr fun _ => ?_)
  refine always_bind.mpr (always_request.mpr fun writeIndex => ?_)
  refine always_bind.mpr (always_request.mpr fun _ => ?_)
  refine always_bind.mpr (always_request.mpr fun _ => ?_)
  refine always_bind.mpr (always_request.mpr fun _ => ?_)
  exact always_bind.mpr (always_request.mpr fun _ => ⟨rfl, rfl, rfl⟩)

theorem waitForPin_always :
    waitForPin.Always fun history pin => loadsIn history = [pin] ∧ storesIn history = [] := by
  refine always_bind.mpr (always_request.mpr fun _ => ?_)
  refine always_bind.mpr (always_request.mpr fun _ => ?_)
  refine always_bind.mpr (always_request.mpr fun readIndex => ?_)
  refine always_bind.mpr (always_request.mpr fun pin => ?_)
  refine always_bind.mpr (always_request.mpr fun _ => ?_)
  refine always_bind.mpr (always_request.mpr fun _ => ?_)
  exact always_bind.mpr (always_request.mpr fun _ => ⟨rfl, rfl⟩)

/-- The buffer is a lossless first-in-first-out queue in this pool. -/
structure PinBufferLossless {τ : Type} [Fintype τ]
    (pool : Pool τ (BufferCall Pin) BufferCall.Answer (BufferState Pin)) : Prop where
  /-- The tokens of the semaphores and of the workers in mid-operation are as many as the cells, a
      worker holds one at most, and none between two operations or at its end. -/
  tokens : pool.state.added + pool.state.free + ∑ t, tokensHeld (pool.history t) = shMemBufferSize
  holding : ∀ t, tokensHeld (pool.history t) ≤ 1
  between : ∀ t rest, pool.programs t = bufferWorker rest → tokensHeld (pool.history t) = 0
  /-- A cell that is about to be written has been read. -/
  kept : ∀ t i pin next, pool.programs t = .call (.storeCell i pin) next →
    ∀ k, pool.state.ring.taken.length ≤ k → k < pool.state.ring.stored.length →
      k % shMemBufferSize ≠ i
  /-- The pins are received in the order in which they were sent. -/
  fifo : pool.state.ring.taken <+: pool.state.ring.stored

/-- However many workers send and wait and however their calls interleave, the buffer loses nothing;
    a send stores its pin and a wait returns the pin that it loads. -/
theorem pin_buffer_lossless {τ : Type} [DecidableEq τ] [Fintype τ] :
    (∀ (operations : τ → List BufferOperation)
      (pool : Pool τ (BufferCall Pin) BufferCall.Answer (BufferState Pin)),
      PinBufferReach operations pool → PinBufferLossless pool) ∧
    (∀ pin history ok, (sendPin pin).Completes history ok →
      storesIn history = [pin] ∧ loadsIn history = [] ∧ ok = true) ∧
    (∀ history pin, waitForPin.Completes history pin →
      loadsIn history = [pin] ∧ storesIn history = []) := by
  refine ⟨fun operations pool reach => ?_, fun pin => always_iff.mp (sendPin_always pin),
    always_iff.mp waitForPin_always⟩
  have safe : BufferSafe shMemBufferSize NothingElse pool :=
    buffer_safe True.intro (fun t => bufferWorker_keeps (operations t)) reach
  refine ⟨safe.tokens, safe.holding, fun t rest current => safe.idle t ?_, safe.kept,
    safe.queued.taken_prefix⟩
  rw [current]
  exact bufferWorker_idle rest

/-- A pin passes from one worker to another. -/
theorem pin_buffer_passes_pin : ∃ pool : Pool (Fin 2) _ _ _,
    PinBufferReach ![[.send ⟨7⟩], [.wait]] pool ∧ pool.state.ring.taken = [⟨7⟩] ∧
      PinBufferLossless pool := by
  have replayed : ((bufferPool shMemBufferSize ⟨0⟩ fun t : Fin 2 =>
      bufferWorker ((![[.send ⟨7⟩], [.wait]] : Fin 2 → List BufferOperation) t)).replay
        (bufferMachine (Fin 2) Pin) (fun _ _ => true)
        [.go 0 7 BufferState.answer, .go 1 7 BufferState.answer]).any
          (fun pool => pool.state.ring.taken = [⟨7⟩]) = true := by
    decide
  obtain ⟨pool, reach, taken⟩ := Pool.exists_reach_of_replay (fun _ _ _ => True.intro) replayed
  exact ⟨pool, reach, of_decide_eq_true taken, pin_buffer_lossless.1 _ pool reach⟩

end ArchCompSystems.OsIhw2
