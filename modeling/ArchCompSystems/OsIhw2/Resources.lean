import ArchCompSystems.Library.Pool

namespace ArchCompSystems.OsIhw2

open Library Library.Program

abbrev Key := Nat

/-- An id is modelled as its key and how many objects with this key have been created before, so
    the id of a removed object is not used again. -/
structure Id where
  key : Key
  generation : Nat
  deriving DecidableEq

inductive Errno where
  | eexist
  | enoent
  | einval
  | eagain
  | other
  deriving DecidableEq

/-- Of a failing call its `errno`. -/
inductive Result (α : Type) where
  | ok (value : α)
  | failed (errno : Errno)
  deriving DecidableEq

inductive SemaphoreOpenFlags where
  | newSemaphore
  | existingSemaphore
  deriving DecidableEq

/-- The calls of a worker; `run` is what it does with the queue until it stops. -/
inductive ResourceCall where
  | msgget (key : Key)
  | semget (key : Key) (flags : SemaphoreOpenFlags)
  | setval (semId : Id) (value : Nat)
  | semop (semId : Id) (semOp : Int) (noWait : Bool)
  | getval (semId : Id)
  | removeSemaphore (semId : Id)
  | removeQueue (queueId : Id)
  | run (queueId : Id)
  deriving DecidableEq

@[reducible] def ResourceCall.Answer : ResourceCall → Type
  | .msgget _ | .semget _ _ => Result Id
  | .getval _ => Result Nat
  | .setval _ _ | .semop _ _ _ | .removeSemaphore _ | .removeQueue _ => Result Unit
  | .run _ => Unit

structure Semaphore where
  generation : Nat
  value : Nat
  deriving DecidableEq

structure Kernel where
  queue : Key → Option Nat
  queuesCreated : Key → Nat
  semaphore : Key → Option Semaphore
  semaphoresCreated : Key → Nat

namespace Kernel

def find (s : Kernel) (semId : Id) : Option Semaphore :=
  (s.semaphore semId.key).filter (·.generation = semId.generation)

def setSemaphore (s : Kernel) (key : Key) (semaphore : Option Semaphore) : Kernel :=
  { s with semaphore := Function.update s.semaphore key semaphore }

def msgget (s : Kernel) (key : Key) : Result Id × Kernel :=
  match s.queue key with
  | some generation => (.ok ⟨key, generation⟩, s)
  | none =>
    (.ok ⟨key, s.queuesCreated key⟩,
      { s with
        queue := Function.update s.queue key (some (s.queuesCreated key))
        queuesCreated := Function.update s.queuesCreated key (s.queuesCreated key + 1) })

def semget (s : Kernel) (key : Key) : SemaphoreOpenFlags → Result Id × Kernel
  | .newSemaphore =>
    match s.semaphore key with
    | some _ => (.failed .eexist, s)
    | none =>
      (.ok ⟨key, s.semaphoresCreated key⟩,
        { s with
          semaphore := Function.update s.semaphore key (some ⟨s.semaphoresCreated key, 0⟩)
          semaphoresCreated := Function.update s.semaphoresCreated key (s.semaphoresCreated key + 1) })
  | .existingSemaphore =>
    match s.semaphore key with
    | some semaphore => (.ok ⟨key, semaphore.generation⟩, s)
    | none => (.failed .enoent, s)

def setval (s : Kernel) (semId : Id) (value : Nat) : Result Unit × Kernel :=
  match s.find semId with
  | some semaphore => (.ok (), s.setSemaphore semId.key (some { semaphore with value := value }))
  | none => (.failed .einval, s)

/-- `none` where the call has to wait. -/
def semop (s : Kernel) (semId : Id) (semOp : Int) (noWait : Bool) : Option (Result Unit × Kernel) :=
  match s.find semId with
  | some semaphore =>
    if 0 ≤ semaphore.value + semOp then
      some (.ok (),
        s.setSemaphore semId.key (some { semaphore with value := (semaphore.value + semOp).toNat }))
    else if noWait then some (.failed .eagain, s) else none
  | none => some (.failed .einval, s)

def getval (s : Kernel) (semId : Id) : Result Nat :=
  match s.find semId with
  | some semaphore => .ok semaphore.value
  | none => .failed .einval

def removeSemaphore (s : Kernel) (semId : Id) : Result Unit × Kernel :=
  match s.find semId with
  | some _ => (.ok (), s.setSemaphore semId.key none)
  | none => (.failed .einval, s)

def removeQueue (s : Kernel) (queueId : Id) : Result Unit × Kernel :=
  if s.queue queueId.key = some queueId.generation then
    (.ok (), { s with queue := Function.update s.queue queueId.key none })
  else (.failed .einval, s)

end Kernel

def Kernel.answer (s : Kernel) : (call : ResourceCall) → Option (call.Answer × Kernel)
  | .msgget key => some (s.msgget key)
  | .semget key flags => some (s.semget key flags)
  | .setval semId value => some (s.setval semId value)
  | .semop semId semOp noWait => s.semop semId semOp noWait
  | .getval semId => some (s.getval semId, s)
  | .removeSemaphore semId => some (s.removeSemaphore semId)
  | .removeQueue queueId => some (s.removeQueue queueId)
  | .run _ => some ((), s)

instance (call : ResourceCall) : DecidableEq call.Answer := by
  cases call <;> exact inferInstance

def performResource {τ : Type} (_ : τ) (call : ResourceCall) (answer : call.Answer) (s : Kernel) :
    Option Kernel :=
  match s.answer call with
  | some (given, s') => if answer = given then some s' else none
  | none => none

abbrev ResourceProgram := Program ResourceCall ResourceCall.Answer

def ResourceCall.make (call : ResourceCall) : ResourceProgram call.Answer := Program.request call

def resourceMachine (τ : Type) : Machine τ ResourceCall ResourceCall.Answer Kernel :=
  ⟨performResource, fun _ _ _ => none⟩

inductive TieType where
  | firstToSecondWorker
  | secondToThirdWorker
  deriving DecidableEq

def queueKey : TieType → Key
  | .firstToSecondWorker => 8743490
  | .secondToThirdWorker => 34549878

def refCntSemKey : TieType → Key
  | .firstToSecondWorker => 3482334
  | .secondToThirdWorker => 34534556

def refCntSemDefaultValue : Nat := 1

/-- An id is `none` where the source has -1. -/
structure QueueInfo where
  queueId : Option Id
  refCountSemId : Option Id
  type : TieType

inductive InitStatus where
  | queueInitSuccess
  | queueInitFailure
  deriving DecidableEq

def createSemaphoreOrIncrease (semKey : Key) (semInitialValue : Nat) : ResourceProgram (Option Id) := do
  match ← ResourceCall.make (.semget semKey .newSemaphore) with
  | .ok semId =>
    match ← ResourceCall.make (.setval semId semInitialValue) with
    | .ok () => return some semId
    | .failed _ =>
      let _ ← ResourceCall.make (.removeSemaphore semId)
      return none
  | .failed errno =>
    if errno ≠ .eexist then return none
    else
      match ← ResourceCall.make (.semget semKey .existingSemaphore) with
      | .failed _ => return none
      | .ok semId =>
        match ← ResourceCall.make (.semop semId 1 false) with
        | .ok () => return some semId
        | .failed _ => return none

def initQueueImpl (queueInfo : QueueInfo) : ResourceProgram (QueueInfo × InitStatus) := do
  match ← ResourceCall.make (.msgget (queueKey queueInfo.type)) with
  | .failed _ => return (queueInfo, .queueInitFailure)
  | .ok queueId =>
    let semId ← createSemaphoreOrIncrease (refCntSemKey queueInfo.type) refCntSemDefaultValue
    return ({ queueInfo with queueId := some queueId, refCountSemId := semId },
      if semId ≠ none then .queueInitSuccess else .queueInitFailure)

def deleteSemaphore (semId : Id) : ResourceProgram Unit := do
  let _ ← ResourceCall.make (.removeSemaphore semId)

def deleteQueue (queueId : Id) : ResourceProgram Unit := do
  let _ ← ResourceCall.make (.removeQueue queueId)

/-- The `switch` of `deinit_queue`. -/
def deleteIfUnused (semId queueId : Id) : ResourceProgram Unit := do
  match ← ResourceCall.make (.getval semId) with
  | .failed _ => return ()
  | .ok 0 =>
    deleteSemaphore semId
    deleteQueue queueId
  | .ok _ => return ()

def deinitQueue (queueInfo : QueueInfo) : ResourceProgram Unit := do
  match queueInfo.refCountSemId, queueInfo.queueId with
  | some semId, some queueId =>
    match ← ResourceCall.make (.semop semId (-1) true) with
    | .failed .eagain => return ()
    | _ => deleteIfUnused semId queueId
  | _, _ => return ()

def initQueue (tieType : TieType) : ResourceProgram (QueueInfo × InitStatus) := do
  let (queueInfo, ret) ← initQueueImpl ⟨none, none, tieType⟩
  if ret = .queueInitFailure then deinitQueue queueInfo
  return (queueInfo, ret)

/-- `main` of a worker with one queue. -/
def worker (tieType : TieType) : ResourceProgram Unit := do
  let (queueInfo, res) ← initQueue tieType
  match res, queueInfo.queueId with
  | .queueInitSuccess, some queueId =>
    ResourceCall.make (.run queueId)
    deinitQueue queueInfo
  | _, _ => return ()

def startWorkers (τ : Type) (tieType : TieType) : Pool τ ResourceCall ResourceCall.Answer Kernel where
  programs _ := worker tieType
  state := ⟨fun _ => none, fun _ => 0, fun _ => none, fun _ => 0⟩
  history _ := []

end ArchCompSystems.OsIhw2
