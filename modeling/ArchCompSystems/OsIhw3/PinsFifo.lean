import ArchCompSystems.OsIhw3.Pin

namespace ArchCompSystems.OsIhw3

/-- A call with its arguments; of `pin` in `pins_queue_try_pop` the value it points to. -/
inductive QueueCall where
  | tryPut (pin : Pin)
  | tryPop (pin : Pin)
  | empty
  | full

/-- The returned value, and `*pin` after `pins_queue_try_pop`. -/
structure QueueResult where
  returned : Bool
  pin : Option Pin
  deriving DecidableEq

/-- `none` is the failure of an assertion. -/
def QueueCall.run : QueueCall → PinsQueue → Option (QueueResult × PinsQueue)
  | .tryPut pin, queue => (pinsQueueTryPut queue pin).map fun (accepted, queue) => (⟨accepted, none⟩, queue)
  | .tryPop pin, queue => (pinsQueueTryPop queue pin).map fun (taken, queue, pin) => (⟨taken, some pin⟩, queue)
  | .empty, queue => some (⟨pinsQueueEmpty queue, none⟩, queue)
  | .full, queue => some (⟨pinsQueueFull queue, none⟩, queue)

def runCalls : List QueueCall → PinsQueue → Option (List QueueResult × PinsQueue)
  | [], queue => some ([], queue)
  | call :: calls, queue => do
    let (result, queue) ← call.run queue
    let (results, queue) ← runCalls calls queue
    return (result :: results, queue)

/-- A list of pins, oldest first, with room for `pinsQueueMaxSize`. -/
def QueueCall.onList : QueueCall → List Pin → QueueResult × List Pin
  | .tryPut pin, pins =>
    if pins.length = pinsQueueMaxSize then (⟨false, none⟩, pins) else (⟨true, none⟩, pins ++ [pin])
  | .tryPop pin, [] => (⟨false, some pin⟩, [])
  | .tryPop _, front :: rest => (⟨true, some front⟩, rest)
  | .empty, pins => (⟨pins.isEmpty, none⟩, pins)
  | .full, pins => (⟨pins.length == pinsQueueMaxSize, none⟩, pins)

def callsOnList : List QueueCall → List Pin → List QueueResult × List Pin
  | [], pins => ([], pins)
  | call :: calls, pins =>
    let (result, pins) := call.onList pins
    let (results, pins) := callsOnList calls pins
    (result :: results, pins)

theorem pinsQueueFull_eq (queue : PinsQueue) :
    pinsQueueFull queue = (queue.contents.length == pinsQueueMaxSize) := by
  rw [PinsQueue.length_contents]
  rfl

theorem pinsQueueEmpty_eq (queue : PinsQueue) : pinsQueueEmpty queue = queue.contents.isEmpty := by
  rw [Bool.eq_iff_iff, List.isEmpty_iff, ← List.length_eq_zero_iff, PinsQueue.length_contents, pinsQueueEmpty,
    beq_iff_eq]

theorem QueueCall.run_refines {queue : PinsQueue} (wf : queue.WellFormed) (call : QueueCall) :
    ∃ queue', call.run queue = some ((call.onList queue.contents).1, queue') ∧ queue'.WellFormed ∧
      queue'.contents = (call.onList queue.contents).2 ∧
      ((call.onList queue.contents).1.returned = false → queue' = queue) := by
  cases call with
  | tryPut pin =>
    rcases pinsQueueTryPut_spec wf pin with ⟨full, refused⟩ | ⟨notFull, result, accepted, wf', appended⟩
    · have length : queue.contents.length = pinsQueueMaxSize := by
        rwa [pinsQueueFull_eq, beq_iff_eq] at full
      rw [run, refused, onList, if_pos length]
      exact ⟨queue, rfl, wf, rfl, fun _ => rfl⟩
    · have length : queue.contents.length ≠ pinsQueueMaxSize := by
        rwa [pinsQueueFull_eq, beq_eq_false_iff_ne] at notFull
      rw [run, accepted, onList, if_neg length]
      exact ⟨result, rfl, wf', appended, fun refused => nomatch refused⟩
  | tryPop pin =>
    rcases pinsQueueTryPop_spec wf pin with ⟨empty, refused⟩ | ⟨notEmpty, result, front, taken, wf', removed⟩
    · have nothing : queue.contents = [] := by rwa [pinsQueueEmpty_eq, List.isEmpty_iff] at empty
      rw [run, refused, nothing]
      exact ⟨queue, rfl, wf, nothing, fun _ => rfl⟩
    · rw [run, taken, removed]
      exact ⟨result, rfl, wf', rfl, fun refused => nomatch refused⟩
  | empty =>
    rw [run, pinsQueueEmpty_eq]
    exact ⟨queue, rfl, wf, rfl, fun _ => rfl⟩
  | full =>
    rw [run, pinsQueueFull_eq]
    exact ⟨queue, rfl, wf, rfl, fun _ => rfl⟩

theorem runCalls_refines {queue : PinsQueue} (wf : queue.WellFormed) (calls : List QueueCall) :
    ∃ queue', runCalls calls queue = some ((callsOnList calls queue.contents).1, queue') ∧ queue'.WellFormed ∧
      queue'.contents = (callsOnList calls queue.contents).2 := by
  induction calls generalizing queue with
  | nil => exact ⟨queue, rfl, wf, rfl⟩
  | cons call calls ih =>
    obtain ⟨middle, first, wf', contents, -⟩ := call.run_refines wf
    obtain ⟨queue', rest, wf'', contents'⟩ := ih wf'
    rw [contents] at rest contents'
    refine ⟨queue', ?_, wf'', contents'⟩
    simp only [runCalls, first, Option.bind_eq_bind, Option.bind_some, rest]
    rfl

/-- After any calls on the zero-initialised queue no assertion has failed, the results are those of the
    list, and what comes next is refused without a trace or taken. -/
theorem pinsQueue_refines_list (calls : List QueueCall) : ∃ queue,
    runCalls calls .zero = some ((callsOnList calls []).1, queue) ∧
    queue.contents = (callsOnList calls []).2 ∧ (callsOnList calls []).2.length ≤ pinsQueueMaxSize ∧
    queue.writePos = (queue.readPos + queue.queueSize) % pinsQueueMaxSize ∧
    queue.readPos < pinsQueueMaxSize ∧ queue.writePos < pinsQueueMaxSize ∧
    ∀ call : QueueCall, ∃ queue', call.run queue = some ((call.onList queue.contents).1, queue') ∧
      ((call.onList queue.contents).1.returned = false → queue' = queue) := by
  obtain ⟨queue, ran, wf, contents⟩ := runCalls_refines PinsQueue.zero_wellFormed calls
  rw [PinsQueue.zero_contents] at ran contents
  have few : queue.queueSize ≤ pinsQueueMaxSize := wf.size_le
  rw [← PinsQueue.length_contents, contents] at few
  refine ⟨queue, ran, contents, few, wf.writePos_eq, wf.readPos_lt, wf.writePos_lt, fun call => ?_⟩
  obtain ⟨queue', next, -, -, unchanged⟩ := call.run_refines wf
  exact ⟨queue', next, unchanged⟩

end ArchCompSystems.OsIhw3
