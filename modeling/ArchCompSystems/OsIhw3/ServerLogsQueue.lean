import ArchCompSystems.Library.BoundedBuffer
import Mathlib.Data.Fin.VecNotation

namespace ArchCompSystems.OsIhw3

open Library Library.Program

/-- The programs that have the queue. -/
inductive LogsServer where
  | osIhw3
  | osIhw4
  deriving DecidableEq

def serverLogsQueueMaxSize : LogsServer → Nat
  | .osIhw3 => 8
  | .osIhw4 => 16

/-- The text of a `ServerLog`. -/
abbrev ServerLog := String

def logsQueueAssert (holds : Bool) (assertion : String) : BufferProgram ServerLog Unit :=
  if holds then pure () else BufferCall.make (.abort assertion) >>= fun answer => answer.elim

/-- `free_elems_sem` and `added_elems_sem` are the two semaphores and `queue_access_mutex` is the
    guard. -/
def serverLogsQueueNonblockingEnqueue (server : LogsServer) (log : ServerLog) :
    BufferProgram ServerLog Bool := do
  if !(← BufferCall.tryWaitFree.make) then return false
  if !(← BufferCall.tryLock.make) then
    BufferCall.postFree.make
    return false
  let writeIndex ← BufferCall.loadWriteIndex.make
  BufferCall.make (.storeCell writeIndex log)
  BufferCall.make (.storeWriteIndex ((writeIndex + 1) % serverLogsQueueMaxSize server))
  let size ← BufferCall.loadSize.make
  logsQueueAssert (size < serverLogsQueueMaxSize server) "queue->size < SERVER_LOGS_QUEUE_MAX_SIZE"
  let size ← BufferCall.loadSize.make
  BufferCall.make (.storeSize (size + 1))
  BufferCall.postAdded.make
  BufferCall.unlock.make
  return true

/-- The log that the call stores through its pointer; its waits and locks do not fail, so it returns
    true. -/
def serverLogsQueueDequeue (server : LogsServer) : BufferProgram ServerLog ServerLog := do
  BufferCall.waitAdded.make
  BufferCall.lock.make
  let readIndex ← BufferCall.loadReadIndex.make
  let log ← BufferCall.make (.loadCell readIndex)
  BufferCall.make (.storeReadIndex ((readIndex + 1) % serverLogsQueueMaxSize server))
  let size ← BufferCall.loadSize.make
  logsQueueAssert (0 < size) "queue->size > 0"
  let size ← BufferCall.loadSize.make
  BufferCall.make (.storeSize (size - 1))
  BufferCall.postFree.make
  BufferCall.unlock.make
  return log

inductive LogsOperation where
  | enqueue (log : ServerLog)
  | dequeue

def LogsOperation.program (server : LogsServer) : LogsOperation → BufferProgram ServerLog Unit
  | .enqueue log => do let _ ← serverLogsQueueNonblockingEnqueue server log
  | .dequeue => do let _ ← serverLogsQueueDequeue server

def logsQueueThread (server : LogsServer) : List LogsOperation → BufferProgram ServerLog Unit
  | [] => pure ()
  | operation :: rest => operation.program server >>= fun _ => logsQueueThread server rest

/-- `init_server_logs_queue` and then any threads with any operations, in any order of their calls. -/
abbrev LogsQueueReach {τ : Type} [DecidableEq τ] (server : LogsServer)
    (operations : τ → List LogsOperation) :
    Pool τ (BufferCall ServerLog) BufferCall.Answer (BufferState ServerLog) → Prop :=
  BufferReach (serverLogsQueueMaxSize server) "" fun t => logsQueueThread server (operations t)

/-- Outside of the section, `size` counts the queued logs. -/
def SizeCounts (r : SharedRing ServerLog) : Prop := r.size = r.count

section

variable {server : LogsServer}

theorem follows_logsQueueAssert {holds : Bool} {assertion : String} {m : Holding ServerLog} {β : Type}
    {f : Unit → BufferProgram ServerLog β} {post : β → Holding ServerLog → Prop}
    {capacity : Nat} {settled : SharedRing ServerLog → Prop} (true' : holds = true)
    (rest : (bufferProtocol capacity settled).Follows post (f ()) m) :
    (bufferProtocol capacity settled).Follows post (logsQueueAssert holds assertion >>= f) m := by
  subst true'
  exact rest

theorem enqueue_keeps (log : ServerLog) : (serverLogsQueueNonblockingEnqueue server log).Keeps
    (serverLogsQueueMaxSize server) SizeCounts := by
  refine follows_tryWaitFree rfl (follows_tryLock (follows_postFree rfl) fun r entry => ?_)
  have room : r.count < serverLogsQueueMaxSize server := entry.room Nat.one_pos
  have counted := SharedRing.count_storeCell entry.queued r.writeIndex log
  have size : r.size = r.count := entry.settled
  refine follows_loadWriteIndex (follows_storeCell entry.indices.writeIndex_eq ?_)
  refine follows_storeWriteIndex (follows_loadSize (follows_logsQueueAssert ?_ ?_))
  · exact decide_eq_true (by rw [← size] at room; exact room)
  refine follows_loadSize (follows_storeSize (follows_postAdded (follows_unlock ?_ ?_ rfl)))
  · exact entry.indices.put log (r.size + 1)
  · exact (congrArg (· + 1) size).trans counted.symm

theorem dequeue_keeps : (serverLogsQueueDequeue server).Keeps (serverLogsQueueMaxSize server)
    SizeCounts := by
  refine follows_waitAdded (follows_lock fun r entry => ?_)
  have filled : 0 < r.count := entry.filled Nat.one_pos
  have counted := SharedRing.count_loadCell filled r.readIndex
  have size : r.size = r.count := entry.settled
  refine follows_loadReadIndex (follows_loadCell entry.indices.readIndex_eq ?_)
  refine follows_storeReadIndex (follows_loadSize (follows_logsQueueAssert ?_ ?_))
  · exact decide_eq_true (by rw [← size] at filled; exact filled)
  refine follows_loadSize (follows_storeSize (follows_postFree (follows_unlock ?_ ?_ rfl)))
  · exact entry.indices.drop (r.size - 1)
  · have less : r.size - 1 = (r.loadCell r.readIndex).count := by omega
    exact less

theorem logsQueueThread_keeps (operations : List LogsOperation) :
    (logsQueueThread server operations).Keeps (serverLogsQueueMaxSize server) SizeCounts := by
  induction operations with
  | nil => rfl
  | cons operation rest ih =>
    refine Protocol.follows_bind.mpr ?_
    cases operation with
    | enqueue log =>
      refine Protocol.follows_bind.mpr (Protocol.follows_mono ?_ (enqueue_keeps log))
      rintro _ _ rfl
      exact ih
    | dequeue =>
      refine Protocol.follows_bind.mpr (Protocol.follows_mono ?_ dequeue_keeps)
      rintro _ _ rfl
      exact ih

theorem enqueue_always (log : ServerLog) :
    (serverLogsQueueNonblockingEnqueue server log).Always fun history ok =>
      loadsIn history = [] ∧ storesIn history = (if ok then [log] else []) ∧
      (ok = false → history = [⟨.tryWaitFree, false⟩] ∨
        history = [⟨.tryWaitFree, true⟩, ⟨.tryLock, false⟩, ⟨.postFree, ()⟩]) := by
  refine always_bind.mpr (always_request.mpr fun reserved => ?_)
  cases reserved with
  | false => exact ⟨rfl, rfl, fun _ => .inl rfl⟩
  | true =>
    refine always_bind.mpr (always_request.mpr fun locked => ?_)
    cases locked with
    | false => exact always_bind.mpr (always_request.mpr fun _ => ⟨rfl, rfl, fun _ => .inr rfl⟩)
    | true =>
      refine always_bind.mpr (always_request.mpr fun writeIndex => ?_)
      refine always_bind.mpr (always_request.mpr fun _ => ?_)
      refine always_bind.mpr (always_request.mpr fun _ => ?_)
      refine always_bind.mpr (always_request.mpr fun size => ?_)
      refine always_bind.mpr ?_
      unfold logsQueueAssert
      split
      · refine always_pure.mpr (always_bind.mpr (always_request.mpr fun size => ?_))
        refine always_bind.mpr (always_request.mpr fun _ => ?_)
        refine always_bind.mpr (always_request.mpr fun _ => ?_)
        refine always_bind.mpr (always_request.mpr fun _ => ?_)
        exact ⟨rfl, rfl, fun same => by cases same⟩
      · exact always_bind.mpr (always_request.mpr fun answer => answer.elim)

theorem dequeue_always : (serverLogsQueueDequeue server).Always fun history log =>
    loadsIn history = [log] ∧ storesIn history = [] := by
  refine always_bind.mpr (always_request.mpr fun _ => ?_)
  refine always_bind.mpr (always_request.mpr fun _ => ?_)
  refine always_bind.mpr (always_request.mpr fun readIndex => ?_)
  refine always_bind.mpr (always_request.mpr fun log => ?_)
  refine always_bind.mpr (always_request.mpr fun _ => ?_)
  refine always_bind.mpr (always_request.mpr fun size => ?_)
  refine always_bind.mpr ?_
  unfold logsQueueAssert
  split
  · refine always_pure.mpr (always_bind.mpr (always_request.mpr fun size => ?_))
    refine always_bind.mpr (always_request.mpr fun _ => ?_)
    refine always_bind.mpr (always_request.mpr fun _ => ?_)
    exact always_bind.mpr (always_request.mpr fun _ => ⟨rfl, rfl⟩)
  · exact always_bind.mpr (always_request.mpr fun answer => answer.elim)

theorem failed_enqueue_changes_nothing {log : ServerLog} {history others events : List (BufferEvent ServerLog)}
    {s s' : BufferState ServerLog}
    (failed : (serverLogsQueueNonblockingEnqueue server log).Completes history false)
    (interleaved : Interleaved history others events) (performed : s.performAll events = some s') :
    s.performAll others = some s' := by
  obtain ⟨-, -, ran⟩ := always_iff.mp (enqueue_always log) history false failed
  rcases ran rfl with rfl | rfl
  · exact BufferState.performAll_without_tryWait interleaved performed
  · exact BufferState.performAll_without_reservation interleaved performed

end

/-- The queue is a bounded first-in-first-out queue in this pool. -/
structure LogsQueueCorrect {τ : Type} (server : LogsServer)
    (pool : Pool τ (BufferCall ServerLog) BufferCall.Answer (BufferState ServerLog)) : Prop where
  asserted : ∀ t assertion next, pool.programs t ≠ .call (.abort assertion) next
  writeIndex : pool.state.guard = 1 → pool.state.ring.writeIndex =
    (pool.state.ring.readIndex + pool.state.ring.size) % serverLogsQueueMaxSize server
  /-- The dequeued logs are the first accepted ones. -/
  fifo : pool.state.ring.taken <+: pool.state.ring.stored
  bounded : pool.state.ring.stored.length ≤
    pool.state.ring.taken.length + serverLogsQueueMaxSize server
  kept : ∀ t i log next, pool.programs t = .call (.storeCell i log) next →
    ∀ k, pool.state.ring.taken.length ≤ k → k < pool.state.ring.stored.length →
      k % serverLogsQueueMaxSize server ≠ i

/-- Whatever threads call the queue and however their calls interleave, it is correct; an enqueue
    accepts its log exactly when it returns true, a dequeue returns the log that it takes, and an
    enqueue that returns false is as if it had not run. -/
theorem logs_queue_linearizable {τ : Type} [DecidableEq τ] [Fintype τ] (server : LogsServer) :
    (∀ (operations : τ → List LogsOperation)
      (pool : Pool τ (BufferCall ServerLog) BufferCall.Answer (BufferState ServerLog)),
      LogsQueueReach server operations pool → LogsQueueCorrect server pool) ∧
    (∀ log history ok, (serverLogsQueueNonblockingEnqueue server log).Completes history ok →
      loadsIn history = [] ∧ storesIn history = if ok then [log] else []) ∧
    (∀ history log, (serverLogsQueueDequeue server).Completes history log →
      loadsIn history = [log] ∧ storesIn history = []) ∧
    (∀ log history others events s s',
      (serverLogsQueueNonblockingEnqueue server log).Completes history false →
      Interleaved history others events → BufferState.performAll events s = some s' →
      BufferState.performAll others s = some s') := by
  refine ⟨fun operations pool reach => ?_, fun log history ok completes => ?_, fun history log => ?_,
    fun _ _ _ _ _ _ => failed_enqueue_changes_nothing⟩
  · have safe : BufferSafe (serverLogsQueueMaxSize server) SizeCounts pool :=
      buffer_safe rfl (fun t => logsQueueThread_keeps (operations t)) reach
    refine ⟨safe.asserted, fun free => ?_, safe.queued.taken_prefix, safe.queued.bounded, safe.kept⟩
    obtain ⟨indices, size⟩ := safe.settled free
    have ordered := safe.queued.taken_le
    rw [indices.writeIndex_eq, indices.readIndex_eq, show pool.state.ring.size = _ from size,
      Nat.mod_add_mod, SharedRing.count, Nat.add_sub_cancel' ordered]
  · obtain ⟨loads, stores, -⟩ := always_iff.mp (enqueue_always log) history ok completes
    exact ⟨loads, stores⟩
  · exact always_iff.mp dequeue_always history log

/-- A log passes from one thread to another. -/
theorem logs_queue_passes_log : ∃ pool : Pool (Fin 2) _ _ _,
    LogsQueueReach .osIhw3 ![[.enqueue "> log"], [.dequeue]] pool ∧
      pool.state.ring.taken = ["> log"] ∧ LogsQueueCorrect .osIhw3 pool := by
  have replayed : ((bufferPool (serverLogsQueueMaxSize .osIhw3) "" fun t : Fin 2 => logsQueueThread .osIhw3
      ((![[.enqueue "> log"], [.dequeue]] : Fin 2 → List LogsOperation) t)).replay
        (bufferMachine (Fin 2) ServerLog) (fun _ _ => true)
        [.go 0 10 BufferState.answer, .go 1 10 BufferState.answer]).any
          (fun pool => pool.state.ring.taken = ["> log"]) = true := by
    decide
  obtain ⟨pool, reach, taken⟩ := Pool.exists_reach_of_replay (fun _ _ _ => True.intro) replayed
  exact ⟨pool, reach, of_decide_eq_true taken, (logs_queue_linearizable .osIhw3).1 _ pool reach⟩

end ArchCompSystems.OsIhw3
