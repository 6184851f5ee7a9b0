import ArchCompSystems.Library.Interruptible
import ArchCompSystems.OsIhw2.PinBuffer
import ArchCompSystems.OsIhw2.Resources
import Mathlib.Data.Fintype.Basic

namespace ArchCompSystems.OsIhw2.Mark8

open Library Library.Program

inductive Which where
  | bufferAccess
  | addedPins
  | freePins
  deriving DecidableEq

instance : Fintype Which where
  elems := {.bufferAccess, .addedPins, .freePins}
  complete which := by cases which <;> decide

/-- An id is `none` where the source has -1. The reference counter cannot leave the range of an
    `int`, because process ids are `int`s. -/
structure SharedMemory where
  buffer : Nat → Pin
  semId : Which → Option Id
  readIndex : Nat
  writeIndex : Nat
  shMemRefCounter : Int

/-- A segment by its id; `none` where the source has `NULL` or -1. -/
abbrev Pointer := Option Id

structure SharedMemoryInfo where
  sharedMemId : Option Id
  shMem : Pointer
  deriving DecidableEq

inductive InitStatus where
  | sharedMemoryInitSuccess
  | sharedMemoryInitFailure
  deriving DecidableEq

def sharedMemoryKey : TieType → Key
  | .firstToSecondWorker => 8743490
  | .secondToThirdWorker => 34549878

def semKey : TieType → Which → Key
  | .firstToSecondWorker, .bufferAccess => 3482334
  | .firstToSecondWorker, .addedPins => 34534556
  | .firstToSecondWorker, .freePins => 4350928
  | .secondToThirdWorker, .bufferAccess => 2301489
  | .secondToThirdWorker, .addedPins => 2340893
  | .secondToThirdWorker, .freePins => 23464923

theorem semKey_injective {tieType : TieType} {which other : Which}
    (same : semKey tieType which = semKey tieType other) : which = other := by
  cases tieType <;> cases which <;> cases other <;> first | rfl | cases same

/-- `ACCESS_SEM_DEFAULT_VALUE`, `ADD_SEM_DEFAULT_VALUE` and `FREE_SEM_DEFAULT_VALUE`. -/
def semDefaultValue : Which → Nat
  | .bufferAccess => 1
  | .addedPins => 0
  | .freePins => shMemBufferSize

inductive OpenFlags where
  | new
  | existing
  deriving DecidableEq

/-- The kernel calls of a worker, its accesses to shared memory and to its own `SharedMemoryInfo`s,
    and marks where `init_shared_memory_info` and `deinit_shared_memory_info` begin and end. -/
inductive Call where
  | shmget (key : Key) (flags : OpenFlags)
  | shmat (segment : Id)
  | shmdt (shMem : Pointer)
  | removeSegment (segment : Id)
  | semget (key : Key) (flags : SemaphoreOpenFlags)
  | setval (semId : Id) (value : Nat)
  | removeSemaphore (semId : Id)
  | semop (semId : Option Id) (semOp : Int)
  | loadPin (shMem : Pointer) (index : Nat)
  | storePin (shMem : Pointer) (index : Nat) (pin : Pin)
  | loadSemId (shMem : Pointer) (which : Which)
  | storeSemId (shMem : Pointer) (which : Which) (semId : Option Id)
  | loadReadIndex (shMem : Pointer)
  | storeReadIndex (shMem : Pointer) (index : Nat)
  | loadWriteIndex (shMem : Pointer)
  | storeWriteIndex (shMem : Pointer) (index : Nat)
  | loadRefCounter (shMem : Pointer)
  | storeRefCounter (shMem : Pointer) (value : Int)
  | increaseRefCounter (shMem : Pointer)
  | decreaseRefCounter (shMem : Pointer)
  | loadInfo (tieType : TieType)
  | storeSharedMemId (tieType : TieType) (segment : Option Id)
  | storeShMem (tieType : TieType) (shMem : Pointer)
  | rand
  | exit
  | abort
  | goOn
  | enterInit (tieType : TieType)
  | leaveInit (tieType : TieType) (status : InitStatus)
  | enterDeinit (tieType : TieType)
  | leaveDeinit (tieType : TieType)
  deriving DecidableEq

/-- `decreaseRefCounter` answers the new value. An assertion that fails ends in `abort`, and `goOn`
    stands for further passes of a loop; neither is answered. -/
@[reducible] def Call.Answer : Call → Type
  | .shmget _ _ | .semget _ _ => Result Id
  | .shmat _ => Pointer
  | .shmdt _ | .removeSegment _ | .setval _ _ | .removeSemaphore _ | .semop _ _ => Result Unit
  | .loadPin _ _ | .rand => Pin
  | .loadSemId _ _ => Option Id
  | .loadReadIndex _ | .loadWriteIndex _ => Nat
  | .loadRefCounter _ | .decreaseRefCounter _ => Int
  | .loadInfo _ => SharedMemoryInfo
  | .abort | .goOn => Empty
  | _ => Unit

instance (call : Call) : DecidableEq call.Answer := by
  cases call <;> exact inferInstance

instance : IsEmpty (Call.Answer .goOn) := inferInstanceAs (IsEmpty Empty)

instance : IsEmpty (Call.Answer .abort) := inferInstanceAs (IsEmpty Empty)

abbrev WorkerProgram := Program Call Call.Answer

def Call.make (call : Call) : WorkerProgram call.Answer := Program.request call

def checkPinCrookness (producedPin : Pin) : Bool :=
  (List.range 32).countP (fun i => producedPin.pinId.getLsbD i) % 2 = 1

def waitForPin (shMem : Pointer) : WorkerProgram (Option Pin) := do
  let addedPinsSemId ← Call.make (.loadSemId shMem .addedPins)
  match ← Call.make (.semop addedPinsSemId (-1)) with
  | .failed _ => return none
  | .ok () =>
    let bufferAccessSemId ← Call.make (.loadSemId shMem .bufferAccess)
    match ← Call.make (.semop bufferAccessSemId (-1)) with
    | .failed _ => return none
    | .ok () =>
      let readIndex ← Call.make (.loadReadIndex shMem)
      let pin ← Call.make (.loadPin shMem readIndex)
      Call.make (.storeReadIndex shMem ((readIndex + 1) % shMemBufferSize))
      let freePinsSemId ← Call.make (.loadSemId shMem .freePins)
      match ← Call.make (.semop freePinsSemId 1) with
      | .failed _ => return none
      | .ok () =>
        let bufferAccessSemId ← Call.make (.loadSemId shMem .bufferAccess)
        match ← Call.make (.semop bufferAccessSemId 1) with
        | .failed _ => return none
        | .ok () => return some pin

def sendPin (shMem : Pointer) (pin : Pin) : WorkerProgram Bool := do
  let freePinsSemId ← Call.make (.loadSemId shMem .freePins)
  match ← Call.make (.semop freePinsSemId (-1)) with
  | .failed _ => return false
  | .ok () =>
    let bufferAccessSemId ← Call.make (.loadSemId shMem .bufferAccess)
    match ← Call.make (.semop bufferAccessSemId (-1)) with
    | .failed _ => return false
    | .ok () =>
      let writeIndex ← Call.make (.loadWriteIndex shMem)
      Call.make (.storePin shMem writeIndex pin)
      Call.make (.storeWriteIndex shMem ((writeIndex + 1) % shMemBufferSize))
      let addedPinsSemId ← Call.make (.loadSemId shMem .addedPins)
      match ← Call.make (.semop addedPinsSemId 1) with
      | .failed _ => return false
      | .ok () =>
        let bufferAccessSemId ← Call.make (.loadSemId shMem .bufferAccess)
        match ← Call.make (.semop bufferAccessSemId 1) with
        | .failed _ => return false
        | .ok () => return true

/-- `new_sems_id` and `new_sems_size`. -/
structure NewSems where
  semId : Nat → Id
  size : Nat

/-- `new_sems_id[*new_sems_size++] = sem_id` moves the pointer and not the size. -/
def NewSems.record (newSems : NewSems) (semId : Id) : NewSems :=
  { newSems with semId := Function.update newSems.semId newSems.size semId }

/-- The id of the semaphore, or `none` where the source returns `SHARED_MEMORY_INIT_FAILURE`. -/
def initSemaphore (key : Key) (semInitialValue : Nat) (newSems : NewSems) :
    WorkerProgram (Option Id × NewSems) := do
  match ← Call.make (.semget key .newSemaphore) with
  | .ok semId =>
    match ← Call.make (.setval semId semInitialValue) with
    | .failed _ => return (none, newSems.record semId)
    | .ok () => return (some semId, newSems.record semId)
  | .failed errno =>
    if errno ≠ .eexist then return (none, newSems)
    else
      match ← Call.make (.semget key .existingSemaphore) with
      | .failed _ => return (none, newSems)
      | .ok semId => return (some semId, newSems)

def zeroId : Id := ⟨0, 0⟩

/-- `memset(sh_mem, 0, sizeof(*sh_mem))`. -/
def clear (shMem : Pointer) : WorkerProgram Unit := do
  Call.make (.storePin shMem 0 ⟨0⟩)
  Call.make (.storePin shMem 1 ⟨0⟩)
  Call.make (.storePin shMem 2 ⟨0⟩)
  Call.make (.storePin shMem 3 ⟨0⟩)
  Call.make (.storeSemId shMem .bufferAccess (some zeroId))
  Call.make (.storeSemId shMem .addedPins (some zeroId))
  Call.make (.storeSemId shMem .freePins (some zeroId))
  Call.make (.storeReadIndex shMem 0)
  Call.make (.storeWriteIndex shMem 0)
  Call.make (.storeRefCounter shMem 0)

def initSharedMemory (shMem : Pointer) (keys : Which → Key) (newSems : NewSems) :
    WorkerProgram (InitStatus × NewSems) := do
  clear shMem
  Call.make (.storeSemId shMem .bufferAccess none)
  Call.make (.storeSemId shMem .addedPins none)
  Call.make (.storeSemId shMem .freePins none)
  Call.make (.storeRefCounter shMem 1)
  match ← initSemaphore (keys .bufferAccess) (semDefaultValue .bufferAccess) newSems with
  | (none, newSems) => return (.sharedMemoryInitFailure, newSems)
  | (some bufferAccessSemId, newSems) =>
    match ← initSemaphore (keys .addedPins) (semDefaultValue .addedPins) newSems with
    | (none, newSems) => return (.sharedMemoryInitFailure, newSems)
    | (some addedPinsSemId, newSems) =>
      match ← initSemaphore (keys .freePins) (semDefaultValue .freePins) newSems with
      | (none, newSems) => return (.sharedMemoryInitFailure, newSems)
      | (some freePinsSemId, newSems) =>
        Call.make (.storeSemId shMem .bufferAccess (some bufferAccessSemId))
        Call.make (.storeSemId shMem .addedPins (some addedPinsSemId))
        Call.make (.storeSemId shMem .freePins (some freePinsSemId))
        return (.sharedMemoryInitSuccess, newSems)

/-- From the id of the segment on. The check after `shmat` looks at `sh_mem_info`, which is neither
    `NULL` nor -1. -/
def attachSharedMemory (tieType : TieType) (shMemId : Id) (memoryAlreadyExists : Bool) :
    WorkerProgram InitStatus := do
  Call.make (.storeSharedMemId tieType (some shMemId))
  let shMem ← Call.make (.shmat shMemId)
  Call.make (.storeShMem tieType shMem)
  if memoryAlreadyExists then
    Call.make (.increaseRefCounter shMem)
    return .sharedMemoryInitSuccess
  else
    match ← initSharedMemory shMem (semKey tieType) ⟨fun _ => zeroId, 0⟩ with
    | (.sharedMemoryInitFailure, newSems) =>
      let _ ← forFrom (fun i () => do
        let _ ← Call.make (.removeSemaphore (newSems.semId i))
        return (LoopFlow.next () : LoopFlow Unit Unit)) newSems.size 0 ()
      return .sharedMemoryInitFailure
    | (.sharedMemoryInitSuccess, _) => return .sharedMemoryInitSuccess

def initResourcesImpl (tieType : TieType) : WorkerProgram InitStatus := do
  match ← Call.make (.shmget (sharedMemoryKey tieType) .new) with
  | .ok shMemId => attachSharedMemory tieType shMemId false
  | .failed errno =>
    if errno ≠ .eexist then return .sharedMemoryInitFailure
    else
      match ← Call.make (.shmget (sharedMemoryKey tieType) .existing) with
      | .failed _ => return .sharedMemoryInitFailure
      | .ok shMemId => attachSharedMemory tieType shMemId true

def deleteSemaphore (shMem : Pointer) (which : Which) : WorkerProgram Unit := do
  match ← Call.make (.loadSemId shMem which) with
  | none => return ()
  | some semId =>
    let _ ← Call.make (.removeSemaphore semId)

def deleteSemaphores (shMem : Pointer) : WorkerProgram Unit := do
  deleteSemaphore shMem .freePins
  deleteSemaphore shMem .addedPins
  deleteSemaphore shMem .bufferAccess

/-- `ref_cnt > 0 && --sh_mem->sh_mem_ref_counter == 0` -/
def releaseReference (shMem : Pointer) (refCnt : Int) : WorkerProgram Bool := do
  if refCnt > 0 then
    let left ← Call.make (.decreaseRefCounter shMem)
    return left = 0
  else return false

def detachSharedMemory (shMemId : Id) (shMem : Pointer) : WorkerProgram Unit := do
  let refCnt ← Call.make (.loadRefCounter shMem)
  if refCnt < 0 then unanswered .abort
  else
    let deleteShMem ← releaseReference shMem refCnt
    if deleteShMem then deleteSemaphores shMem
    let _ ← Call.make (.shmdt shMem)
    if deleteShMem then
      let _ ← Call.make (.removeSegment shMemId)

def deinitSharedMemoryInfo (tieType : TieType) : WorkerProgram Unit := do
  Call.make (.enterDeinit tieType)
  let info ← Call.make (.loadInfo tieType)
  match info.sharedMemId, info.shMem with
  | some shMemId, some shMem => detachSharedMemory shMemId (some shMem)
  | _, _ => pure ()
  Call.make (.leaveDeinit tieType)

def initSharedMemoryInfo (tieType : TieType) : WorkerProgram InitStatus := do
  Call.make (.enterInit tieType)
  Call.make (.storeSharedMemId tieType none)
  Call.make (.storeShMem tieType none)
  let ret ← initResourcesImpl tieType
  if ret = .sharedMemoryInitFailure then deinitSharedMemoryInfo tieType
  Call.make (.leaveInit tieType ret)
  return ret

def runFirstWorker (rounds : Nat) (firstToSecondShMem : Pointer) : WorkerProgram Unit := do
  loop .goOn rounds () fun () => do
    let producedPin ← Call.make .rand
    if checkPinCrookness producedPin then
      if ← sendPin firstToSecondShMem producedPin then return .next () else return .exit ()
    else return .next ()
  Call.make .exit

def runSecondWorker (rounds : Nat) (firstToSecondShMem secondToThirdShMem : Pointer) :
    WorkerProgram Unit := do
  loop .goOn rounds () fun () => do
    match ← waitForPin firstToSecondShMem with
    | none => return .exit ()
    | some pin =>
      if ← sendPin secondToThirdShMem pin then return .next () else return .exit ()
  Call.make .exit

def runThirdWorker (rounds : Nat) (secondToThirdShMem : Pointer) : WorkerProgram Unit := do
  loop .goOn rounds () fun () => do
    match ← waitForPin secondToThirdShMem with
    | none => return .exit ()
    | some _ => return .next ()
  Call.make .exit

/-- `main` of the first worker, up to its exit. -/
def firstWorker (rounds : Nat) : WorkerProgram Unit := do
  let res ← initSharedMemoryInfo .firstToSecondWorker
  if res = .sharedMemoryInitFailure then Call.make .exit
  else
    let shMemInfo ← Call.make (.loadInfo .firstToSecondWorker)
    runFirstWorker rounds shMemInfo.shMem
    deinitSharedMemoryInfo .firstToSecondWorker
    Call.make .exit

def secondWorker (rounds : Nat) : WorkerProgram Unit := do
  let resFS ← initSharedMemoryInfo .firstToSecondWorker
  if resFS = .sharedMemoryInitFailure then Call.make .exit
  else
    let resST ← initSharedMemoryInfo .secondToThirdWorker
    if resST = .sharedMemoryInitSuccess then
      let firstToSecond ← Call.make (.loadInfo .firstToSecondWorker)
      let secondToThird ← Call.make (.loadInfo .secondToThirdWorker)
      runSecondWorker rounds firstToSecond.shMem secondToThird.shMem
      deinitSharedMemoryInfo .secondToThirdWorker
    deinitSharedMemoryInfo .firstToSecondWorker
    Call.make .exit

def thirdWorker (rounds : Nat) : WorkerProgram Unit := do
  let res ← initSharedMemoryInfo .secondToThirdWorker
  if res = .sharedMemoryInitFailure then Call.make .exit
  else
    let shMemInfo ← Call.make (.loadInfo .secondToThirdWorker)
    runThirdWorker rounds shMemInfo.shMem
    deinitSharedMemoryInfo .secondToThirdWorker
    Call.make .exit

inductive WorkerKind where
  | first
  | second
  | third
  deriving DecidableEq

/-- The signals with a handler; `SIGKILL` cannot have one. -/
inductive Signal where
  | sigint
  | sigabrt
  | sigterm
  deriving DecidableEq

def WorkerKind.main (rounds : Nat) : WorkerKind → WorkerProgram Unit
  | .first => firstWorker rounds
  | .second => secondWorker rounds
  | .third => thirdWorker rounds

/-- `shutdown_signal_handler`; the three signals differ in the exit status only. -/
def WorkerKind.shutdownSignalHandler (kind : WorkerKind) (_signal : Signal) : WorkerProgram Unit := do
  match kind with
  | .first => deinitSharedMemoryInfo .firstToSecondWorker
  | .second =>
    deinitSharedMemoryInfo .secondToThirdWorker
    deinitSharedMemoryInfo .firstToSecondWorker
  | .third => deinitSharedMemoryInfo .secondToThirdWorker
  Call.make .exit

/-- A worker with its signals. -/
def WorkerKind.program (rounds : Nat) (kind : WorkerKind) :
    Program (Interruptible Call Signal) (outcome Signal Call.Answer) Unit :=
  (kind.main rounds).withHandlers kind.shutdownSignalHandler 3 []

/-- `attachments` are the processes that have a segment attached, and `kernel` has the semaphores. A
    removed segment exists as long as it is attached somewhere. -/
structure System (τ : Type) where
  segment : Key → Option Nat
  segmentsCreated : Key → Nat
  memory : Id → SharedMemory
  attachments : Id → List τ
  kernel : Kernel
  info : τ → TieType → SharedMemoryInfo
  exited : τ → Bool

namespace System

variable {τ : Type} [DecidableEq τ]

def zeroMemory : SharedMemory := ⟨fun _ => ⟨0⟩, fun _ => some zeroId, 0, 0, 0⟩

def shmget (s : System τ) (key : Key) : OpenFlags → Result Id × System τ
  | .new =>
    match s.segment key with
    | some _ => (.failed .eexist, s)
    | none =>
      (.ok ⟨key, s.segmentsCreated key⟩,
        { s with
          segment := Function.update s.segment key (some (s.segmentsCreated key))
          segmentsCreated := Function.update s.segmentsCreated key (s.segmentsCreated key + 1)
          memory := Function.update s.memory ⟨key, s.segmentsCreated key⟩ zeroMemory
          attachments := Function.update s.attachments ⟨key, s.segmentsCreated key⟩ [] })
  | .existing =>
    match s.segment key with
    | some generation => (.ok ⟨key, generation⟩, s)
    | none => (.failed .enoent, s)

def shmat (s : System τ) (w : τ) (segment : Id) : Pointer × System τ :=
  if s.segment segment.key = some segment.generation ∨ s.attachments segment ≠ [] then
    (some segment,
      { s with attachments := Function.update s.attachments segment (w :: s.attachments segment) })
  else (none, s)

def shmdt (s : System τ) (w : τ) : Pointer → Result Unit × System τ
  | some segment =>
    if w ∈ s.attachments segment then
      (.ok (), { s with
        attachments := Function.update s.attachments segment ((s.attachments segment).erase w) })
    else (.failed .einval, s)
  | none => (.failed .einval, s)

def removeSegment (s : System τ) (segment : Id) : Result Unit × System τ :=
  if s.segment segment.key = some segment.generation then
    (.ok (), { s with segment := Function.update s.segment segment.key none })
  else (.failed .einval, s)

def withKernel {α : Type} (s : System τ) (result : α × Kernel) : α × System τ :=
  (result.1, { s with kernel := result.2 })

def load {α : Type} (s : System τ) (w : τ) (shMem : Pointer) (field : SharedMemory → α) :
    Option (α × System τ) :=
  match shMem with
  | some segment => if w ∈ s.attachments segment then some (field (s.memory segment), s) else none
  | none => none

def modify {α : Type} (s : System τ) (w : τ) (shMem : Pointer)
    (change : SharedMemory → α × SharedMemory) : Option (α × System τ) :=
  match shMem with
  | some segment =>
    if w ∈ s.attachments segment then
      some ((change (s.memory segment)).1,
        { s with memory := Function.update s.memory segment (change (s.memory segment)).2 })
    else none
  | none => none

def store (s : System τ) (w : τ) (shMem : Pointer) (change : SharedMemory → SharedMemory) :
    Option (Unit × System τ) := s.modify w shMem fun memory => ((), change memory)

def setInfo (s : System τ) (w : τ) (tieType : TieType) (info : SharedMemoryInfo) : System τ :=
  { s with info := Function.update s.info w (Function.update (s.info w) tieType info) }

def exit (s : System τ) (w : τ) : System τ :=
  { s with
    attachments := fun segment => (s.attachments segment).filter (· ≠ w)
    exited := Function.update s.exited w true }

/-- The answer of a call and the state after it; `none` where it has to wait, faults or, like
    `rand`, has more than one answer. -/
def answer (s : System τ) (w : τ) : (call : Call) → Option (call.Answer × System τ)
  | .shmget key flags => some (s.shmget key flags)
  | .shmat segment => some (s.shmat w segment)
  | .shmdt shMem => some (s.shmdt w shMem)
  | .removeSegment segment => some (s.removeSegment segment)
  | .semget key flags => some (s.withKernel (s.kernel.semget key flags))
  | .setval semId value => some (s.withKernel (s.kernel.setval semId value))
  | .removeSemaphore semId => some (s.withKernel (s.kernel.removeSemaphore semId))
  | .semop (some semId) semOp => (s.kernel.semop semId semOp false).map s.withKernel
  | .semop none _ => some (.failed .einval, s)
  | .loadPin shMem index => s.load w shMem (·.buffer index)
  | .storePin shMem index pin =>
    s.store w shMem fun memory => { memory with buffer := Function.update memory.buffer index pin }
  | .loadSemId shMem which => s.load w shMem (·.semId which)
  | .storeSemId shMem which semId =>
    s.store w shMem fun memory => { memory with semId := Function.update memory.semId which semId }
  | .loadReadIndex shMem => s.load w shMem (·.readIndex)
  | .storeReadIndex shMem index => s.store w shMem fun memory => { memory with readIndex := index }
  | .loadWriteIndex shMem => s.load w shMem (·.writeIndex)
  | .storeWriteIndex shMem index => s.store w shMem fun memory => { memory with writeIndex := index }
  | .loadRefCounter shMem => s.load w shMem (·.shMemRefCounter)
  | .storeRefCounter shMem value =>
    s.store w shMem fun memory => { memory with shMemRefCounter := value }
  | .increaseRefCounter shMem => s.store w shMem fun memory =>
      { memory with shMemRefCounter := memory.shMemRefCounter + 1 }
  | .decreaseRefCounter shMem => s.modify w shMem fun memory =>
      (memory.shMemRefCounter - 1, { memory with shMemRefCounter := memory.shMemRefCounter - 1 })
  | .loadInfo tieType => some (s.info w tieType, s)
  | .storeSharedMemId tieType segment =>
    some ((), s.setInfo w tieType { s.info w tieType with sharedMemId := segment })
  | .storeShMem tieType shMem => some ((), s.setInfo w tieType { s.info w tieType with shMem := shMem })
  | .exit => some ((), s.exit w)
  | .enterInit _ | .leaveInit _ _ | .enterDeinit _ | .leaveDeinit _ => some ((), s)
  | .rand | .abort | .goOn => none

end System

def Call.failsOutside : (call : Call) → call.Answer → Bool
  | .shmget _ _, answer | .semget _ _, answer => answer = .failed .other
  | .shmat _, answer => answer = none
  | .shmdt _, answer | .removeSegment _, answer | .setval _ _, answer | .removeSemaphore _, answer
  | .semop _ _, answer => answer = .failed .other
  | _, _ => false

def System.perform {τ : Type} [DecidableEq τ] (w : τ) (call : Call) (answer : call.Answer)
    (s : System τ) : Option (System τ) :=
  if s.exited w then none
  else if call = .rand ∨ call.failsOutside answer = true then some s
  else
    match s.answer w call with
    | some (given, s') => if answer = given then some s' else none
    | none => none

def workerMachine (τ : Type) [DecidableEq τ] : Machine τ Call Call.Answer (System τ) :=
  ⟨System.perform, fun _ _ _ => none⟩

/-- Neither segments nor semaphores, and every static variable zero. -/
def System.initial (τ : Type) : System τ :=
  ⟨fun _ => none, fun _ => 0, fun _ => System.zeroMemory, fun _ => [],
    ⟨fun _ => none, fun _ => 0, fun _ => none, fun _ => 0⟩, fun _ _ => ⟨some zeroId, none⟩, fun _ => false⟩

end ArchCompSystems.OsIhw2.Mark8
