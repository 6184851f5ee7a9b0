import ArchCompSystems.OsIhw2.MemorySteps

namespace ArchCompSystems.OsIhw2.Mark8

open Library Library.Program

variable {τ : Type} {tieType : TieType} {s s' : System τ} {w : τ}

theorem tie_withMemory_self (s : System τ) (g : Nat) (memory : SharedMemory) :
    (s.withMemory (segId tieType g) memory).tie tieType = { s.tie tieType with
      counter := Function.update (s.tie tieType).counter g memory.shMemRefCounter
      semId := Function.update (s.tie tieType).semId g memory.semId } := by
  simp only [System.tie, System.withMemory, TieView.mk.injEq, true_and, and_true]
  constructor
  · funext h
    by_cases same : h = g
    · rw [same, Function.update_self, Function.update_self]
    · rw [Function.update_of_ne same, Function.update_of_ne (by simp [segId, same])]
  · funext h
    by_cases same : h = g
    · rw [same, Function.update_self, Function.update_self]
    · rw [Function.update_of_ne same, Function.update_of_ne (by simp [segId, same])]

theorem tie_withCounter (s : System τ) (g : Nat) (memory : SharedMemory)
    (kept : memory.semId = (s.memory (segId tieType g)).semId) :
    (s.withMemory (segId tieType g) memory).tie tieType = { s.tie tieType with
      counter := Function.update (s.tie tieType).counter g memory.shMemRefCounter } := by
  have unchanged : Function.update (s.tie tieType).semId g (s.memory (segId tieType g)).semId =
    (s.tie tieType).semId := Function.update_eq_self ..
  rw [tie_withMemory_self, kept, unchanged]

theorem tie_withSemId (s : System τ) (g : Nat) (memory : SharedMemory)
    (kept : memory.shMemRefCounter = (s.memory (segId tieType g)).shMemRefCounter) :
    (s.withMemory (segId tieType g) memory).tie tieType = { s.tie tieType with
      semId := Function.update (s.tie tieType).semId g memory.semId } := by
  have unchanged : Function.update (s.tie tieType).counter g (s.memory (segId tieType g)).shMemRefCounter =
    (s.tie tieType).counter := Function.update_eq_self ..
  rw [tie_withMemory_self, kept, unchanged]

theorem tie_withMemory_of_ne {segment : Id} {memory : SharedMemory}
    (other : segment.key ≠ sharedMemoryKey tieType) : (s.withMemory segment memory).tie tieType = s.tie tieType := by
  have differs : ∀ g, segId tieType g ≠ segment := by
    rintro g rfl
    exact other rfl
  simp only [System.tie, System.withMemory, Function.update_of_ne (differs _)]

theorem tie_withMemory_of_same {segment : Id} {memory : SharedMemory}
    (counter : memory.shMemRefCounter = (s.memory segment).shMemRefCounter)
    (semId : memory.semId = (s.memory segment).semId) :
    (s.withMemory segment memory).tie tieType = s.tie tieType := by
  by_cases own : segment.key = sharedMemoryKey tieType
  · obtain ⟨key, g⟩ := segment
    obtain rfl : key = sharedMemoryKey tieType := own
    have changed := @tie_withMemory_self _ tieType s g memory
    rw [counter, semId] at changed
    exact changed.trans (by
      have sameCounter : Function.update (s.tie tieType).counter g (s.memory ⟨sharedMemoryKey tieType, g⟩).shMemRefCounter =
        (s.tie tieType).counter := Function.update_eq_self ..
      have sameIds : Function.update (s.tie tieType).semId g (s.memory ⟨sharedMemoryKey tieType, g⟩).semId =
        (s.tie tieType).semId := Function.update_eq_self ..
      rw [sameCounter, sameIds])
  · exact tie_withMemory_of_ne own

def System.linkSegment (s : System τ) (key : Key) : System τ :=
  { s with
    segment := Function.update s.segment key (some (s.segmentsCreated key))
    segmentsCreated := Function.update s.segmentsCreated key (s.segmentsCreated key + 1)
    attachments := Function.update s.attachments ⟨key, s.segmentsCreated key⟩ [] }

theorem withSegment_eq {key : Key} : s.withSegment key =
    (s.linkSegment key).withMemory ⟨key, s.segmentsCreated key⟩ System.zeroMemory := rfl

theorem tie_withSegment_self :
    (s.withSegment (sharedMemoryKey tieType)).tie tieType = { s.tie tieType with
      segment := some (s.tie tieType).segmentsCreated
      segmentsCreated := (s.tie tieType).segmentsCreated + 1
      counter := Function.update (s.tie tieType).counter (s.tie tieType).segmentsCreated 0
      semId := Function.update (s.tie tieType).semId (s.tie tieType).segmentsCreated System.zeroMemory.semId } := by
  have linked : (s.linkSegment (sharedMemoryKey tieType)).tie tieType = { s.tie tieType with
      segment := some (s.tie tieType).segmentsCreated
      segmentsCreated := (s.tie tieType).segmentsCreated + 1 } := by
    simp only [System.tie, System.linkSegment, Function.update_self]
  have changed := @tie_withMemory_self _ tieType (s.linkSegment (sharedMemoryKey tieType))
    (s.segmentsCreated (sharedMemoryKey tieType)) System.zeroMemory
  rw [linked] at changed
  exact changed

theorem tie_withSegment_of_ne {key : Key} (other : key ≠ sharedMemoryKey tieType) :
    (s.withSegment key).tie tieType = s.tie tieType := by
  rw [withSegment_eq, tie_withMemory_of_ne other]
  simp only [System.tie, System.linkSegment, Function.update_of_ne other.symm]

def generations (kernel : Kernel) (key : Key) : Option Nat := (kernel.semaphore key).map (·.generation)

theorem tie_kernel {kernel : Kernel} : System.tie { s with kernel := kernel } tieType =
    { s.tie tieType with semaphore := fun which => generations kernel (semKey tieType which) } := rfl

theorem tie_kernel_of_same {kernel : Kernel}
    (same : ∀ which, generations kernel (semKey tieType which) = generations s.kernel (semKey tieType which)) :
    System.tie { s with kernel := kernel } tieType = s.tie tieType := by
  rw [tie_kernel]
  simp only [same]
  rfl

theorem generations_withSemaphore {kernel : Kernel} {key other : Key} :
    generations (withSemaphore kernel key) other =
      if other = key then some (kernel.semaphoresCreated key) else generations kernel other := by
  simp only [generations, withSemaphore, Function.update_apply]
  split <;> rfl

theorem generations_setSemaphore {kernel : Kernel} {key other : Key} {semaphore : Option Semaphore} :
    generations (kernel.setSemaphore key semaphore) other =
      if other = key then semaphore.map (·.generation) else generations kernel other := by
  simp only [generations, Kernel.setSemaphore, Function.update_apply]
  split <;> rfl

theorem generations_setval {kernel : Kernel} {semId : Id} {value : Nat} (key : Key) :
    generations (kernel.setval semId value).2 key = generations kernel key := by
  unfold Kernel.setval
  split
  · rename_i semaphore found
    rw [generations_setSemaphore]
    split
    · rename_i same
      obtain ⟨present, -⟩ := Option.filter_eq_some_iff.mp found
      rw [same, generations, present]
      rfl
    · rfl
  · rfl

theorem generations_semop {kernel kernel' : Kernel} {semId : Id} {semOp : Int} {noWait : Bool} {result : Result Unit}
    (done : kernel.semop semId semOp noWait = some (result, kernel')) (key : Key) :
    generations kernel' key = generations kernel key := by
  unfold Kernel.semop at done
  split at done
  · rename_i semaphore found
    split at done
    · cases done
      rw [generations_setSemaphore]
      split
      · rename_i same
        obtain ⟨present, -⟩ := Option.filter_eq_some_iff.mp found
        rw [same, generations, present]
        rfl
      · rfl
    · split at done
      · cases done
        rfl
      · cases done
  · cases done
    rfl

theorem generations_removeSemaphore_of_ne {kernel : Kernel} {semId : Id} {key : Key} (other : key ≠ semId.key) :
    generations (kernel.removeSemaphore semId).2 key = generations kernel key := by
  unfold Kernel.removeSemaphore
  split
  · rw [generations_setSemaphore, if_neg other]
  · rfl

variable [DecidableEq τ]

theorem System.perform_state {call : Call} {answer : call.Answer}
    (performed : System.perform w call answer s = some s') :
    s' = s ∨ s.answer w call = some (answer, s') := by
  unfold System.perform at performed
  split at performed
  · cases performed
  · split at performed
    · cases performed
      exact .inl rfl
    · split at performed
      · rename_i answered
        split at performed
        · rename_i same
          cases performed
          rw [answered, same]
          exact .inr rfl
        · cases performed
      · cases performed

theorem System.load_eq_some {β : Type} {shMem : Pointer} {field : SharedMemory → β} {value : β} :
    s.load w shMem field = some (value, s') ↔ ∃ segment, shMem = some segment ∧ w ∈ s.attachments segment ∧
      value = field (s.memory segment) ∧ s' = s := by
  cases shMem with
  | none => simp [System.load]
  | some segment =>
    simp only [System.load, Option.some.injEq]
    split
    · rename_i attached
      simp only [Option.some.injEq, Prod.mk.injEq]
      constructor
      · rintro ⟨rfl, rfl⟩
        exact ⟨segment, rfl, attached, rfl, rfl⟩
      · rintro ⟨_, rfl, -, rfl, rfl⟩
        exact ⟨rfl, rfl⟩
    · rename_i detached
      constructor
      · intro impossible
        cases impossible
      · rintro ⟨_, rfl, attached, -⟩
        exact absurd attached detached

theorem tie_shmdt {shMem : Pointer} : (s.shmdt w shMem).2.tie tieType = s.tie tieType := by
  cases shMem with
  | none => rfl
  | some segment =>
    simp only [System.shmdt]
    split <;> rfl

omit [DecidableEq τ] in
theorem tie_removeSegment_of_ne {segment : Id} (other : segment.key ≠ sharedMemoryKey tieType) :
    (s.removeSegment segment).2.tie tieType = s.tie tieType := by
  unfold System.removeSegment
  split
  · simp only [System.tie, Function.update_of_ne other.symm]
  · rfl

theorem tie_setInfo_of_ne {other : TieType} {info : SharedMemoryInfo} (differs : other ≠ tieType) :
    (s.setInfo w other info).tie tieType = s.tie tieType := by
  simp only [System.tie, System.setInfo, TieView.mk.injEq, true_and, and_true]
  funext u
  by_cases same : u = w
  · subst same
    rw [Function.update_self, Function.update_of_ne differs.symm]
  · rw [Function.update_of_ne same]

theorem tie_of_foreign {call : Call} {answer : call.Answer} (foreign : Stage.Foreign tieType call)
    (performed : System.perform w call answer s = some s') : s'.tie tieType = s.tie tieType := by
  rcases System.perform_state performed with rfl | answered
  · rfl
  cases call with
  | shmget key flags =>
    cases flags with
    | new =>
      rcases System.perform_shmget_new performed with ⟨-, rfl⟩ | ⟨-, -, rfl⟩ | ⟨-, -, rfl⟩
      · rfl
      · rfl
      · exact tie_withSegment_of_ne foreign
    | existing =>
      obtain ⟨rfl, -⟩ := System.perform_shmget_existing performed
      rfl
  | shmat segment =>
    rcases System.perform_shmat performed with ⟨-, rfl⟩ | ⟨-, rfl⟩ <;> rfl
  | shmdt shMem =>
    have kept : (s.shmdt w shMem).2.tie tieType = s.tie tieType := tie_shmdt
    rw [System.answer, Option.some.injEq] at answered
    rwa [answered] at kept
  | removeSegment segment =>
    have kept := @tie_removeSegment_of_ne _ tieType s segment foreign
    rw [System.answer, Option.some.injEq] at answered
    rwa [answered] at kept
  | semget key flags =>
    cases flags with
    | newSemaphore =>
      rcases System.perform_semget_new performed with ⟨-, rfl⟩ | ⟨-, -, rfl⟩ | ⟨-, -, rfl⟩
      · rfl
      · rfl
      · refine tie_kernel_of_same fun which => ?_
        rw [generations_withSemaphore, if_neg (foreign which).symm]
    | existingSemaphore =>
      obtain ⟨rfl, -⟩ := System.perform_semget_existing performed
      rfl
  | setval semId value =>
    cases answered
    exact tie_kernel_of_same fun which => generations_setval _
  | removeSemaphore semId =>
    cases answered
    exact tie_kernel_of_same fun which => generations_removeSemaphore_of_ne (foreign which).symm
  | semop semId semOp =>
    cases semId with
    | none =>
      cases answered
      rfl
    | some semId =>
      obtain ⟨⟨result, kernel⟩, done, same⟩ := Option.map_eq_some_iff.mp answered
      cases same
      exact tie_kernel_of_same fun which => generations_semop done _
  | storePin shMem index pin | storeReadIndex shMem index | storeWriteIndex shMem index =>
    obtain ⟨segment, rfl, -, -, rfl⟩ := System.perform_change rfl performed
    exact tie_withMemory_of_same rfl rfl
  | storeSemId shMem which semId =>
    obtain ⟨segment, rfl, -, -, rfl⟩ := System.perform_change rfl performed
    exact tie_withMemory_of_ne foreign
  | storeRefCounter shMem value =>
    obtain ⟨segment, rfl, -, -, rfl⟩ := System.perform_change rfl performed
    exact tie_withMemory_of_ne foreign
  | increaseRefCounter shMem | decreaseRefCounter shMem =>
    obtain ⟨segment, rfl, -, -, rfl⟩ := System.perform_change rfl performed
    exact tie_withMemory_of_ne foreign
  | storeSharedMemId other segment | storeShMem other shMem =>
    cases answered
    exact tie_setInfo_of_ne foreign
  | enterInit other | leaveInit other status | enterDeinit other | leaveDeinit other =>
    cases answered
    rfl
  | loadPin shMem index | loadSemId shMem which | loadReadIndex shMem | loadWriteIndex shMem | loadRefCounter shMem =>
    simp only [System.answer] at answered
    obtain ⟨segment, -, -, -, rfl⟩ := System.load_eq_some.mp answered
    rfl
  | loadInfo other =>
    cases answered
    rfl
  | rand | goOn => cases answered
  | exit | abort => exact foreign.elim

theorem generations_update {kernel kernel' : Kernel} {which : Which} {generation : Option Nat}
    (changed : ∀ key, generations kernel' key =
      if key = semKey tieType which then generation else generations kernel key) :
    (fun other => generations kernel' (semKey tieType other)) =
      Function.update (fun other => generations kernel (semKey tieType other)) which generation := by
  funext other
  rw [changed]
  by_cases same : other = which
  · rw [same, if_pos rfl, Function.update_self]
  · rw [if_neg fun sameKey => same (semKey_injective sameKey), Function.update_of_ne same]

def Justified (s : System τ) (w : τ) (call : Call) (answer : call.Answer) : Prop :=
  call.failsOutside answer = true → s.answer w call = some (answer, s)

def Succeeds : (call : Call) → call.Answer → Prop
  | .semop _ _, answer => answer = .ok ()
  | _, _ => True

theorem System.answered_of_perform {call : Call} {answer : call.Answer} (isNotRand : call ≠ .rand)
    (justified : Justified s w call answer) (performed : System.perform w call answer s = some s') :
    s.exited w = false ∧ s.answer w call = some (answer, s') := by
  obtain ⟨running, ⟨fails, rfl⟩ | ⟨-, answered⟩⟩ := (System.perform_eq_some isNotRand).mp performed
  · exact ⟨running, justified fails⟩
  · exact ⟨running, answered⟩

variable [Fintype τ] {ms : τ → Local}

omit [DecidableEq τ] [Fintype τ] in
theorem semaphore_eq_none {which : Which} (absent : (s.tie tieType).semaphore which = none) :
    s.kernel.semaphore (semKey tieType which) = none := Option.map_eq_none_iff.mp absent

omit [DecidableEq τ] in
theorem semaphore_of_building {g n : Nat} {made : Which → Option Nat} {stored : Which → Bool} {which : Which}
    (counted : Counted tieType (s.tie tieType) ms) (here : (ms w).stage = .building g made stored)
    (isMade : made which = some n) : ∃ value, s.kernel.semaphore (semKey tieType which) = some ⟨n, value⟩ := by
  have ok := counted.stages w
  rw [here] at ok
  have present := ok.2.2.1 which
  rw [isMade] at present
  obtain ⟨⟨generation, value⟩, found, same⟩ := Option.map_eq_some_iff.mp present
  obtain rfl : generation = n := same
  exact ⟨value, found⟩

theorem possible_of_perform {call : Call} {answer : call.Answer} (counted : Counted tieType (s.tie tieType) ms)
    (allowed : (ms w).stage.own tieType call ∨ Stage.Foreign tieType call ∨ call = .exit)
    (justified : Justified s w call answer)
    (succeeds : Succeeds call answer)
    (performed : System.perform w call answer s = some s') : (ms w).stage.possible tieType call answer := by
  have ok := counted.stages w
  cases call with
  | shmget key flags =>
    rintro rfl segment rfl
    cases flags with
    | new =>
      rcases System.perform_shmget_new performed with ⟨impossible, -⟩ | ⟨-, impossible, -⟩ | ⟨-, same, -⟩
      · cases impossible
      · cases impossible
      · cases same
        rfl
    | existing =>
      obtain ⟨-, known⟩ := System.perform_shmget_existing performed
      obtain ⟨generation, -, rfl⟩ := known segment rfl
      rfl
  | shmat segment =>
    exact (System.perform_shmat performed).imp (·.1) (·.1)
  | storePin shMem index pin | storeReadIndex shMem index | storeWriteIndex shMem index =>
    obtain ⟨segment, rfl, -⟩ := System.perform_change rfl performed
    exact fun impossible => nomatch impossible
  | storeSemId shMem which semId =>
    obtain ⟨segment, rfl, -⟩ := System.perform_change rfl performed
    exact fun impossible => nomatch impossible
  | storeRefCounter shMem value =>
    obtain ⟨segment, rfl, -⟩ := System.perform_change rfl performed
    exact fun impossible => nomatch impossible
  | increaseRefCounter shMem =>
    obtain ⟨segment, rfl, -⟩ := System.perform_change rfl performed
    exact fun impossible => nomatch impossible
  | semget key flags =>
    intro own
    obtain ⟨-, g, made, which, here, rfl, notMade⟩ := own
    cases flags with
    | existingSemaphore =>
      rcases allowed with ⟨impossible, -⟩ | foreign | impossible
      · cases impossible
      · exact absurd rfl (foreign which)
      · cases impossible
    | newSemaphore =>
      rw [here] at ok
      have absent := semaphore_eq_none ((ok.2.2.1 which).trans notMade)
      obtain ⟨-, answered⟩ := System.answered_of_perform (by simp) justified performed
      simp only [System.answer, System.withKernel, semget_new_of_absent absent] at answered
      cases answered
      exact ⟨_, rfl, rfl⟩
  | setval semId value =>
    rintro ⟨g, made, stored, which, n, here, rfl, isMade⟩
    obtain ⟨value, present⟩ := semaphore_of_building counted here isMade
    obtain ⟨-, answered⟩ := System.answered_of_perform (by simp) justified performed
    simp only [System.answer, System.withKernel, semIdOf, setval_of_present present] at answered
    cases answered
    rfl
  | semop semId semOp => exact succeeds
  | loadInfo other =>
    rintro rfl
    obtain ⟨-, answered⟩ := System.answered_of_perform (by simp) justified performed
    cases answered
    cases stage : (ms w).stage <;> rw [stage] at ok <;> first | exact ok | exact ok.1 | exact True.intro
  | loadRefCounter shMem =>
    rintro ⟨g, rfl, here⟩
    obtain ⟨-, answered⟩ := System.answered_of_perform (by simp) justified performed
    simp only [System.answer] at answered
    obtain ⟨_, same, -, rfl, -⟩ := System.load_eq_some.mp answered
    cases same
    have user : 0 < (ms w).stage.users g := by rw [here]; simp [Stage.users]
    exact counted.positive_of_user user
  | loadSemId shMem which =>
    rintro ⟨g, removed, rfl, here, present⟩
    obtain ⟨-, answered⟩ := System.answered_of_perform (by simp) justified performed
    simp only [System.answer] at answered
    obtain ⟨_, same, -, rfl, -⟩ := System.load_eq_some.mp answered
    cases same
    rw [here] at ok
    have serves := ok.2.2 which
    rw [present] at serves
    obtain ⟨n, -, stored⟩ := serves
    exact ⟨n, stored⟩
  | _ => exact True.intro

omit [Fintype τ] in
theorem tie_setInfo_self {info : SharedMemoryInfo} : (s.setInfo w tieType info).tie tieType =
    { s.tie tieType with info := Function.update (s.tie tieType).info w info } := by
  simp only [System.tie, System.setInfo, TieView.mk.injEq, true_and, and_true]
  funext u
  by_cases same : u = w
  · subst same
    simp only [Function.update_self]
  · simp only [Function.update_of_ne same]

/-- The state after an answered call counts with what the call has told its process. -/
def Recounted (tieType : TieType) (s' : System τ) (ms : τ → Local) (w : τ) (call : Call) (answer : call.Answer) : Prop :=
  Counted tieType (s'.tie tieType) (Function.update ms w ((ms w).after tieType call answer))

/-- What every case of an own call starts from. -/
structure OwnStep (tieType : TieType) (s s' : System τ) (ms : τ → Local) (w : τ) (call : Call)
    (answer : call.Answer) : Prop where
  counted : Counted tieType (s.tie tieType) ms
  own : (ms w).stage.own tieType call
  moved : Moved (ms w) ((ms w).after tieType call answer)
  answered : s.answer w call = some (answer, s')
  performed : System.perform w call answer s = some s'

theorem OwnStep.leaveInit {tie : TieType} {status : InitStatus} {answer : (Call.leaveInit tie status).Answer}
    (step : OwnStep tieType s s' ms w (.leaveInit tie status) answer) :
    Recounted tieType s' ms w (.leaveInit tie status) answer := by
  obtain ⟨counted, own, moved, answered, -⟩ := step
  have ok := counted.stages w
  cases answered
  cases status with
  | sharedMemoryInitSuccess => exact counted.rests moved rfl rfl ok (fun _ => rfl) rfl
  | sharedMemoryInitFailure =>
    obtain ⟨rfl, here⟩ := own
    rw [here] at ok
    exact counted.rests moved here (if_pos rfl) ok (fun _ => rfl) rfl

theorem OwnStep.storeSharedMemId {tie : TieType} {segment : Option Id}
    {answer : (Call.storeSharedMemId tie segment).Answer}
    (step : OwnStep tieType s s' ms w (.storeSharedMemId tie segment) answer) :
    Recounted tieType s' ms w (.storeSharedMemId tie segment) answer := by
  obtain ⟨counted, own, moved, answered, -⟩ := step
  have ok := counted.stages w
  cases answered
  unfold Recounted
  cases segment with
  | none =>
    obtain ⟨rfl, here⟩ := own
    rw [here] at ok
    rw [tie_setInfo_self]
    exact counted.sets moved here here ok (fun _ => rfl) rfl
  | some segment =>
    obtain ⟨rfl, g, named, rfl, here | here⟩ := own <;> rw [here] at ok <;> rw [tie_setInfo_self]
    · refine counted.sets moved here ((if_pos rfl).trans (congrArg Stage.name here)) ?_ (fun _ => rfl) rfl
      exact ⟨ok.1, ok.2.1, fun _ => rfl⟩
    · refine counted.sets moved here ((if_pos rfl).trans (congrArg Stage.name here)) ?_ (fun _ => rfl) rfl
      exact ⟨ok.1, ok.2.1, ok.2.2.1, fun _ => rfl, ok.2.2.2.2⟩

theorem OwnStep.storeShMem {tie : TieType} {shMem : Pointer} {answer : (Call.storeShMem tie shMem).Answer}
    (step : OwnStep tieType s s' ms w (.storeShMem tie shMem) answer) :
    Recounted tieType s' ms w (.storeShMem tie shMem) answer := by
  obtain ⟨counted, own, moved, answered, -⟩ := step
  have ok := counted.stages w
  cases answered
  unfold Recounted
  cases shMem with
  | none =>
    obtain ⟨rfl, here | ⟨g, named, here | here⟩⟩ := own <;> rw [here] at ok <;> rw [tie_setInfo_self]
    · exact counted.sets moved here here rfl (fun _ => rfl) rfl
    · exact counted.sets moved here here ⟨rfl, ok.2⟩ (fun _ => rfl) rfl
    · exact counted.sets moved here here ⟨rfl, ok.2⟩ (fun _ => rfl) rfl
  | some segment =>
    obtain ⟨rfl, g, rfl, here | here⟩ := own <;> rw [here] at ok <;> rw [tie_setInfo_self]
    · have named := ok.2.2 rfl
      refine counted.sets moved here ((if_pos rfl).trans (congrArg Stage.attach here)) ?_ (fun _ => rfl) rfl
      exact congrArg (SharedMemoryInfo.mk · _) named
    · have named := ok.2.2.2.1 rfl
      refine counted.sets moved here ((if_pos rfl).trans (congrArg Stage.attach here)) ?_ (fun _ => rfl) rfl
      exact ⟨congrArg (SharedMemoryInfo.mk · _) named, ok.2.1, ok.2.2.1, ok.2.2.2.2⟩

theorem OwnStep.shmget {key : Key} {flags : OpenFlags} {answer : (Call.shmget key flags).Answer}
    (step : OwnStep tieType s s' ms w (.shmget key flags) answer) :
    Recounted tieType s' ms w (.shmget key flags) answer := by
  obtain ⟨counted, ⟨rfl, here⟩, moved, -, performed⟩ := step
  have ok := counted.stages w
  rw [here] at ok
  unfold Recounted
  cases flags with
  | new =>
    rcases System.perform_shmget_new performed with ⟨rfl, rfl⟩ | ⟨-, rfl, rfl⟩ | ⟨noSegment, rfl, rfl⟩
    · exact counted.rests moved here here ok (fun _ => rfl) rfl
    · exact counted.rests moved here here ok (fun _ => rfl) rfl
    · rw [tie_withSegment_self]
      exact counted.creates moved here (if_pos rfl) noSegment
  | existing =>
    obtain ⟨rfl, known⟩ := System.perform_shmget_existing performed
    cases answer with
    | failed errno => exact counted.rests moved here here ok (fun _ => rfl) rfl
    | ok segment =>
      obtain ⟨g, current, rfl⟩ := known segment rfl
      refine counted.rests moved here (if_pos rfl) ⟨ok, counted.old g current, ?_⟩ (fun _ => rfl) rfl
      intro impossible
      cases impossible

theorem OwnStep.storeRefCounter {shMem : Pointer} {value : Int} {answer : (Call.storeRefCounter shMem value).Answer}
    (step : OwnStep tieType s s' ms w (.storeRefCounter shMem value) answer) :
    Recounted tieType s' ms w (.storeRefCounter shMem value) answer := by
  obtain ⟨counted, own, moved, -, performed⟩ := step
  obtain ⟨segment, rfl, -, -, rfl⟩ := System.perform_change rfl performed
  unfold Recounted
  obtain impossible | ⟨g, same, here, rfl | rfl⟩ := own
  · cases impossible
  · cases same
    rw [tie_withCounter]
    · refine counted.fills moved here ((if_neg ?_).trans here)
      rintro ⟨-, impossible⟩
      cases impossible
    · rfl
  · cases same
    rw [tie_withCounter]
    · exact counted.starts moved here ((if_pos ⟨rfl, rfl⟩).trans (congrArg Stage.startCounter here))
    · rfl

theorem OwnStep.storeSemId {shMem : Pointer} {which : Which} {semId : Option Id}
    {answer : (Call.storeSemId shMem which semId).Answer}
    (step : OwnStep tieType s s' ms w (.storeSemId shMem which semId) answer) :
    Recounted tieType s' ms w (.storeSemId shMem which semId) answer := by
  obtain ⟨counted, own, moved, -, performed⟩ := step
  have ok := counted.stages w
  obtain ⟨segment, rfl, -, -, rfl⟩ := System.perform_change rfl performed
  unfold Recounted
  obtain impossible | ⟨g, same, here | ⟨made, stored, n, here, isMade, rfl⟩⟩ := own
  · cases impossible
  · cases same
    rw [here] at ok
    rw [tie_withMemory_self]
    have zero : (s.memory (segId tieType g)).shMemRefCounter = 0 := ok.2.2.1
    simp only [zero]
    exact counted.fills moved here ((if_pos rfl).trans (congrArg (Stage.storeSemId which) here))
  · cases same
    rw [tie_withSemId]
    · exact counted.stores moved here isMade ((if_pos rfl).trans (congrArg (Stage.storeSemId which) here))
    · rfl

theorem OwnStep.increaseRefCounter {shMem : Pointer} {answer : (Call.increaseRefCounter shMem).Answer}
    (step : OwnStep tieType s s' ms w (.increaseRefCounter shMem) answer)
    (positive : ∀ segment, shMem = some segment → 1 ≤ (s.memory segment).shMemRefCounter) :
    Recounted tieType s' ms w (.increaseRefCounter shMem) answer := by
  obtain ⟨counted, own, moved, -, performed⟩ := step
  obtain ⟨segment, rfl, -, -, rfl⟩ := System.perform_change rfl performed
  unfold Recounted
  obtain impossible | ⟨g, same, here⟩ := own
  · cases impossible
  · cases same
    rw [tie_withCounter]
    · exact counted.joins moved here ((if_pos rfl).trans (congrArg Stage.join here)) (positive _ rfl)
    · rfl

theorem OwnStep.decreaseRefCounter {shMem : Pointer} {answer : (Call.decreaseRefCounter shMem).Answer}
    (step : OwnStep tieType s s' ms w (.decreaseRefCounter shMem) answer) :
    Recounted tieType s' ms w (.decreaseRefCounter shMem) answer := by
  obtain ⟨counted, ⟨g, same, here⟩, moved, -, performed⟩ := step
  obtain ⟨segment, rfl, -, rfl, rfl⟩ := System.perform_change rfl performed
  unfold Recounted
  cases same
  rw [tie_withCounter]
  · exact counted.releases moved here ((if_pos rfl).trans (congrArg (Stage.release _) here))
  · rfl

theorem OwnStep.semget {key : Key} {flags : SemaphoreOpenFlags} {answer : (Call.semget key flags).Answer}
    (step : OwnStep tieType s s' ms w (.semget key flags) answer) :
    Recounted tieType s' ms w (.semget key flags) answer := by
  obtain ⟨counted, ⟨rfl, g, made, which, here, rfl, notMade⟩, moved, answered, -⟩ := step
  have ok := counted.stages w
  rw [here] at ok
  have absent := semaphore_eq_none ((ok.2.2.1 which).trans notMade)
  simp only [System.answer, System.withKernel, semget_new_of_absent absent] at answered
  cases answered
  unfold Recounted
  rw [tie_kernel, generations_update fun _ => generations_withSemaphore]
  exact counted.makes moved here ((congrArg (Stage.makeSemaphore tieType _ _) here).trans
    Stage.makeSemaphore_building)

theorem OwnStep.loadSemId {shMem : Pointer} {which : Which} {answer : (Call.loadSemId shMem which).Answer}
    (step : OwnStep tieType s s' ms w (.loadSemId shMem which) answer) :
    Recounted tieType s' ms w (.loadSemId shMem which) answer := by
  obtain ⟨counted, own, moved, answered, -⟩ := step
  have ok := counted.stages w
  simp only [System.answer] at answered
  obtain ⟨segment, rfl, -, rfl, rfl⟩ := System.load_eq_some.mp answered
  obtain ⟨g, removed, same, here, present⟩ := own
  cases same
  rw [here] at ok
  have serves := ok.2.2 which
  rw [present] at serves
  obtain ⟨n, exists', stored⟩ := serves
  have after : (ms w).stage.after tieType (.loadSemId (some (segId tieType g)) which)
      ((s'.memory (segId tieType g)).semId which) = .deleting g removed which n := by
    rw [show (s'.memory (segId tieType g)).semId which = some (semIdOf tieType which n) from stored, here]
    exact if_pos rfl
  exact counted.rests moved here after ⟨ok.1, ok.2.1, ok.2.2, exists'⟩ (fun _ => rfl) rfl

theorem OwnStep.removeSemaphore {semId : Id} {answer : (Call.removeSemaphore semId).Answer}
    (step : OwnStep tieType s s' ms w (.removeSemaphore semId) answer) :
    Recounted tieType s' ms w (.removeSemaphore semId) answer := by
  obtain ⟨counted, ⟨g, removed, which, n, here, rfl⟩, moved, answered, -⟩ := step
  have ok := counted.stages w
  rw [here] at ok
  obtain ⟨⟨_, value⟩, present, rfl⟩ := Option.map_eq_some_iff.mp ok.2.2.2
  simp only [System.answer, System.withKernel, semIdOf, Kernel.removeSemaphore, find_of_present present] at answered
  cases answered
  unfold Recounted
  rw [tie_kernel, generations_update fun _ => generations_setSemaphore]
  exact counted.deletes moved here ((if_pos ⟨which, rfl⟩).trans (congrArg Stage.removeSemaphore here))

theorem OwnStep.shmdt {shMem : Pointer} {answer : (Call.shmdt shMem).Answer}
    (step : OwnStep tieType s s' ms w (.shmdt shMem) answer) : Recounted tieType s' ms w (.shmdt shMem) answer := by
  obtain ⟨counted, own, moved, answered, -⟩ := step
  have ok := counted.stages w
  have unchanged : s'.tie tieType = s.tie tieType := by
    rw [System.answer, Option.some.injEq] at answered
    have kept : (s.shmdt w shMem).2.tie tieType = s.tie tieType := tie_shmdt
    rwa [answered] at kept
  unfold Recounted
  rw [unchanged]
  obtain ⟨g, rfl, here | ⟨removed, here, all⟩⟩ := own
  · exact counted.rests moved here ((if_pos rfl).trans (congrArg Stage.detach here)) True.intro (fun _ => rfl) rfl
  · rw [here] at ok
    refine counted.rests moved here ((if_pos rfl).trans (congrArg Stage.detach here)) ⟨ok.1, ok.2.1, fun which => ?_⟩
      (fun _ => rfl) rfl
    have absent := ok.2.2 which
    rwa [all which] at absent

theorem OwnStep.removeSegment {segment : Id} {answer : (Call.removeSegment segment).Answer}
    (step : OwnStep tieType s s' ms w (.removeSegment segment) answer) :
    Recounted tieType s' ms w (.removeSegment segment) answer := by
  obtain ⟨counted, ⟨g, rfl, here⟩, moved, answered, -⟩ := step
  have ok := counted.stages w
  rw [here] at ok
  have current : s.segment (segId tieType g).key = some (segId tieType g).generation := ok.1
  simp only [System.answer, System.removeSegment, if_pos current] at answered
  cases answered
  have unlinked := counted.unlinks moved here (if_pos rfl)
  refine Eq.mp (congrArg (Counted tieType · _) ?_) unlinked
  simp only [System.tie, segId_key, Function.update_self]

theorem Counted.own_step {call : Call} {answer : call.Answer} (counted : Counted tieType (s.tie tieType) ms)
    (own : (ms w).stage.own tieType call) (justified : Justified s w call answer)
    (alive : (ms w).record.place ≠ .exited)
    (positive : ∀ segment, call = .increaseRefCounter (some segment) → 1 ≤ (s.memory segment).shMemRefCounter)
    (performed : System.perform w call answer s = some s') :
    Counted tieType (s'.tie tieType) (Function.update ms w ((ms w).after tieType call answer)) := by
  have moved : Moved (ms w) ((ms w).after tieType call answer) :=
    ⟨fits_after_own (counted.fits w) alive own, iff_of_false (place_after_own alive own) alive⟩
  have ok := counted.stages w
  have isNotRand : call ≠ .rand := by
    rintro rfl
    exact own.elim
  obtain ⟨-, answered⟩ := System.answered_of_perform isNotRand justified performed
  have step : OwnStep tieType s s' ms w call answer := ⟨counted, own, moved, answered, performed⟩
  cases call with
  | enterInit other =>
    obtain ⟨rfl, here⟩ := own
    cases answered
    rw [here] at ok
    exact counted.rests moved here (if_pos rfl) ok (fun _ => rfl) rfl
  | leaveInit other status => exact step.leaveInit
  | enterDeinit other =>
    obtain rfl : other = tieType := own
    cases answered
    refine counted.rests moved rfl (if_pos rfl) ?_ ?_ ?_ <;> cases stage : (ms w).stage <;> rw [stage] at ok <;>
      first | exact ok | exact fun _ => rfl | rfl
  | leaveDeinit other | loadInfo other =>
    cases answered
    exact counted.rests moved rfl rfl ok (fun _ => rfl) rfl
  | storeSharedMemId other segment => exact step.storeSharedMemId
  | storeShMem other shMem => exact step.storeShMem
  | shmget key flags => exact step.shmget
  | shmat segment =>
    rcases System.perform_shmat performed with ⟨-, rfl⟩ | ⟨-, rfl⟩ <;>
      exact counted.rests moved rfl rfl ok (fun _ => rfl) rfl
  | storePin shMem index pin | storeReadIndex shMem index | storeWriteIndex shMem index =>
    have unchanged : s'.tie tieType = s.tie tieType := by
      refine tie_of_foreign ?_ performed
      exact True.intro
    rw [unchanged]
    exact counted.rests moved rfl rfl ok (fun _ => rfl) rfl
  | storeRefCounter shMem value => exact step.storeRefCounter
  | storeSemId shMem which semId => exact step.storeSemId
  | increaseRefCounter shMem =>
    refine step.increaseRefCounter fun segment same => positive segment ?_
    rw [same]
  | semget key flags => exact step.semget
  | setval semId value =>
    have unchanged : s'.tie tieType = s.tie tieType := by
      cases answered
      exact tie_kernel_of_same fun which => generations_setval _
    rw [unchanged]
    exact counted.rests moved rfl rfl ok (fun _ => rfl) rfl
  | loadRefCounter shMem =>
    simp only [System.answer] at answered
    obtain ⟨segment, -, -, -, rfl⟩ := System.load_eq_some.mp answered
    exact counted.rests moved rfl rfl ok (fun _ => rfl) rfl
  | decreaseRefCounter shMem => exact step.decreaseRefCounter
  | loadSemId shMem which => exact step.loadSemId
  | removeSemaphore semId => exact step.removeSemaphore
  | shmdt shMem => exact step.shmdt
  | removeSegment segment => exact step.removeSegment
  | _ => exact own.elim

end ArchCompSystems.OsIhw2.Mark8
