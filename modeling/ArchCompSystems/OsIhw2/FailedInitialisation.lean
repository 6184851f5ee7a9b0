import ArchCompSystems.OsIhw2.Initialisation

namespace ArchCompSystems.OsIhw2.Mark8

open Library Library.Program Library.Machine

/-- `shmget`, `shmat`, `semget` and `semctl`. -/
def Call.isInitCall : Call → Bool
  | .shmget _ _ | .shmat _ | .semget _ _ | .setval _ _ | .removeSemaphore _ => true
  | _ => false

def Call.fails (failing : Call → Bool) (call : Call) : Bool := call.isInitCall && failing call

/-- The machine in which exactly the calls in `failing` fail for outside reasons, among those of an
    initialisation, and no others. -/
def failingMachine (τ : Type) [DecidableEq τ] (failing : Call → Bool) : Machine τ Call Call.Answer (System τ) :=
  (workerMachine τ).restrict fun _ call answer => call.failsOutside answer = call.fails failing

variable {τ : Type} [DecidableEq τ] {w : τ} {s s' : System τ} {α : Type} {failing : Call → Bool}

theorem perform_failingMachine {call : Call} {answer : call.Answer} (isNotRand : call ≠ .rand)
    (running : s.exited w = false) :
    (failingMachine τ failing).perform w call answer s = some s' ↔
      call.failsOutside answer = call.fails failing ∧
        if call.fails failing then s' = s else s.answer w call = some (answer, s') := by
  simp only [failingMachine, Machine.restrict, workerMachine, Option.ite_none_right_eq_some]
  rw [System.perform_eq_some isNotRand]
  cases call.fails failing <;> cases outside : call.failsOutside answer <;> simp [running]

theorem performs_answered {call : Call} {given : call.Answer} (isNotRand : call ≠ .rand) (running : s.exited w = false)
    (fine : call.fails failing = false) (answered : s.answer w call = some (given, s'))
    (succeeds : call.failsOutside given = false) : (failingMachine τ failing).perform w call given s = some s' := by
  rw [perform_failingMachine isNotRand running, fine]
  exact ⟨succeeds, answered⟩

theorem performs_failed {call : Call} {given : call.Answer} (isNotRand : call ≠ .rand) (running : s.exited w = false)
    (fails : call.fails failing = true) (fail : call.failsOutside given = true) :
    (failingMachine τ failing).perform w call given s = some s := by
  rw [perform_failingMachine isNotRand running, fails]
  exact ⟨fail, rfl⟩

theorem surely_answered {call : Call} {f : call.Answer → WorkerProgram α} {post : α → System τ → Prop}
    {given : call.Answer} (isNotRand : call ≠ .rand) (running : s.exited w = false)
    (fine : call.fails failing = false) (answered : s.answer w call = some (given, s'))
    (succeeds : call.failsOutside given = false) (rest : (failingMachine τ failing).Surely w (f given) post s') :
    (failingMachine τ failing).Surely w (call.make >>= f) post s := by
  refine ⟨given, s', performs_answered isNotRand running fine answered succeeds, fun other after performed => ?_, rest⟩
  rw [perform_failingMachine isNotRand running, fine, answered] at performed
  exact (Prod.mk.inj (Option.some.inj performed.2)).1.symm

theorem surely_failed {call : Call} {f : call.Answer → WorkerProgram α} {post : α → System τ → Prop}
    {given : call.Answer} (isNotRand : call ≠ .rand) (running : s.exited w = false) (fails : call.fails failing = true)
    (fail : ∀ answer, call.failsOutside answer = true ↔ answer = given)
    (rest : (failingMachine τ failing).Surely w (f given) post s) :
    (failingMachine τ failing).Surely w (call.make >>= f) post s := by
  refine ⟨given, s, performs_failed isNotRand running fails ((fail given).mpr rfl), fun other after performed => ?_, rest⟩
  rw [perform_failingMachine isNotRand running, fails] at performed
  exact (fail other).mp performed.1

theorem surely_change {call : Call} {f : call.Answer → WorkerProgram α} {post : α → System τ → Prop} {segment : Id}
    {memory : SharedMemory} {change : SharedMemory → call.Answer × SharedMemory}
    (changes : call.change = some (some segment, change)) (running : s.exited w = false)
    (attached : w ∈ s.attachments segment)
    (rest : (failingMachine τ failing).Surely w (f (change memory).1) post (s.withMemory segment (change memory).2)) :
    (failingMachine τ failing).Surely w (call.make >>= f) post (s.withMemory segment memory) := by
  obtain ⟨isNotRand, never, determined⟩ := @System.answer_of_change _ _ w (s.withMemory segment memory) _ _ _ changes
  have fine : call.fails failing = false := by cases call <;> cases changes <;> rfl
  refine surely_answered isNotRand running fine ?_ (never _) rest
  rw [determined]
  refine System.modify_eq_some.mpr ⟨attached, ?_, ?_⟩
  · simp [System.withMemory]
  · simp [System.withMemory]

inductive Opening where
  | refused
  | opened
  | created
  | unset
  deriving DecidableEq

/-- A semaphore that exists is opened unless one of the two `semget` fails; one that does not is created, and
    then `semctl` may still fail to set its value. -/
def opening (failing : Call → Bool) (kernel : Kernel) (key : Key) (semInitialValue : Nat) : Opening :=
  match kernel.semaphore key with
  | some _ =>
    if failing (.semget key .newSemaphore) || failing (.semget key .existingSemaphore) then .refused else .opened
  | none =>
    if failing (.semget key .newSemaphore) then .refused
    else if failing (.setval ⟨key, kernel.semaphoresCreated key⟩ semInitialValue) then .unset
    else .created

def leaks (hasCreated : Bool) : List Opening → Bool
  | [] => false
  | .refused :: _ => hasCreated
  | .unset :: _ => true
  | .opened :: rest => leaks hasCreated rest
  | .created :: rest => leaks true rest

def openings (failing : Call → Bool) (kernel : Kernel) (tieType : TieType) : List Opening :=
  [Which.bufferAccess, .addedPins, .freePins].map fun which =>
    opening failing kernel (semKey tieType which) (semDefaultValue which)

def ShmgetFails (failing : Call → Bool) (key : Key) (s : System τ) : Prop :=
  failing (.shmget key .new) = true ∨ (s.segment key).isSome ∧ failing (.shmget key .existing) = true

/-- The segment that `shmget` finds or creates. -/
def System.offered (s : System τ) (key : Key) : Id := ⟨key, (s.segment key).getD (s.segmentsCreated key)⟩

/-- Either `shmget` fails, or `shmat` does not and, where the segment is created, no semaphore is created
    before the opening of one fails. -/
def FailsCleanly (failing : Call → Bool) (tieType : TieType) (s : System τ) : Prop :=
  ShmgetFails failing (sharedMemoryKey tieType) s ∨
    failing (.shmat (s.offered (sharedMemoryKey tieType))) = false ∧
      (s.segment (sharedMemoryKey tieType) = none → leaks false (openings failing s.kernel tieType) = false)

def System.SegmentExists (s : System τ) (segment : Id) : Prop :=
  s.segment segment.key = some segment.generation ∨ s.attachments segment ≠ []

/-- No segment exists that did not before, and those that did still do, with the same reference counter. -/
structure SegmentsKept (s s' : System τ) : Prop where
  segments : ∀ segment, s'.SegmentExists segment → s.SegmentExists segment
  kept : ∀ segment, s.segment segment.key = some segment.generation →
    s'.segment segment.key = some segment.generation ∧
      (s'.memory segment).shMemRefCounter = (s.memory segment).shMemRefCounter

structure NothingLeft (s s' : System τ) : Prop extends SegmentsKept s s' where
  semaphores : s'.kernel.semaphore = s.kernel.semaphore

/-- An access through a pointer that is `NULL` or -1. -/
def Call.DereferencesNothing : Call → Prop
  | .loadPin none _ | .storePin none _ _ | .loadSemId none _ | .storeSemId none _ _ | .loadReadIndex none
  | .storeReadIndex none _ | .loadWriteIndex none | .storeWriteIndex none _ | .loadRefCounter none
  | .storeRefCounter none _ | .increaseRefCounter none | .decreaseRefCounter none => True
  | _ => False

/-- What is asked of an initialisation of which the calls in `failing` fail. -/
structure LeavesNothing (failing : Call → Bool) (tieType : TieType) (w : τ) (s : System τ) : Prop where
  nothingLeft : ∀ history s', (failingMachine τ failing).Runs w (initSharedMemoryInfo tieType) s history
    .sharedMemoryInitFailure s' → NothingLeft s s'
  /-- `assert(new_sems_size <= 3)` -/
  asserted : ∀ shMem, (initSharedMemory shMem (semKey tieType) ⟨fun _ => zeroId, 0⟩).Always
    fun _ result => result.2.size ≤ 3
  attached : (failingMachine τ failing).Avoids w Call.DereferencesNothing (initSharedMemoryInfo tieType) s

structure OthersAlone (key : Key) (kernel kernel' : Kernel) : Prop where
  semaphore : ∀ other, other ≠ key → kernel'.semaphore other = kernel.semaphore other
  semaphoresCreated : ∀ other, other ≠ key → kernel'.semaphoresCreated other = kernel.semaphoresCreated other

theorem OthersAlone.refl (key : Key) (kernel : Kernel) : OthersAlone key kernel kernel :=
  ⟨fun _ _ => rfl, fun _ _ => rfl⟩

theorem othersAlone_withSemaphore (kernel : Kernel) (key : Key) : OthersAlone key kernel (withSemaphore kernel key) :=
  ⟨fun _ differs => Function.update_of_ne differs _ _, fun _ differs => Function.update_of_ne differs _ _⟩

theorem OthersAlone.setSemaphore {key : Key} {kernel kernel' : Kernel} (alone : OthersAlone key kernel kernel')
    (semaphore : Option Semaphore) : OthersAlone key kernel (kernel'.setSemaphore key semaphore) :=
  ⟨fun other differs => (Function.update_of_ne differs _ _).trans (alone.semaphore other differs),
    alone.semaphoresCreated⟩

def Opening.Result (key : Key) (kernel kernel' : Kernel) (semId : Option Id) : Opening → Prop
  | .refused => semId = none ∧ kernel' = kernel
  | .opened => semId.isSome ∧ kernel' = kernel
  | .created => semId.isSome ∧ kernel.semaphore key = none ∧ (kernel'.semaphore key).isSome
  | .unset => semId = none ∧ kernel.semaphore key = none ∧ (kernel'.semaphore key).isSome

theorem surely_initSemaphore {key : Key} {initial : Nat} {newSems : NewSems} (running : s.exited w = false) :
    (failingMachine τ failing).Surely w (initSemaphore key initial newSems) (fun result s' =>
      s' = { s with kernel := s'.kernel } ∧ OthersAlone key s.kernel s'.kernel ∧
        (opening failing s.kernel key initial).Result key s.kernel s'.kernel result.1) s := by
  have refused : ∀ answer : Result Id,
      Call.failsOutside (.semget key .newSemaphore) answer = true ↔ answer = .failed .other := fun _ => decide_eq_true_iff
  have refused' : ∀ answer : Result Id,
      Call.failsOutside (.semget key .existingSemaphore) answer = true ↔ answer = .failed .other :=
    fun _ => decide_eq_true_iff
  have unset : ∀ answer : Result Unit, Call.failsOutside (.setval ⟨key, s.kernel.semaphoresCreated key⟩ initial)
      answer = true ↔ answer = .failed .other := fun _ => decide_eq_true_iff
  cases present : s.kernel.semaphore key with
  | some semaphore =>
    have exists' : s.answer w (.semget key .newSemaphore) = some (.failed .eexist, s) := by
      simp only [System.answer, System.withKernel, semget_new_of_present present]
    have opened : s.answer w (.semget key .existingSemaphore) = some (.ok ⟨key, semaphore.generation⟩, s) := by
      simp only [System.answer, System.withKernel, semget_existing_of_present present]
    cases first : failing (.semget key .newSemaphore) with
    | true =>
      refine surely_failed (by simp) running first refused ?_
      exact ⟨rfl, .refl .., by simp [opening, present, first, Opening.Result]⟩
    | false =>
      refine surely_answered (by simp) running first exists' rfl ?_
      cases second : failing (.semget key .existingSemaphore) with
      | true =>
        refine surely_failed (by simp) running second refused' ?_
        exact ⟨rfl, .refl .., by simp [opening, present, first, second, Opening.Result]⟩
      | false =>
        refine surely_answered (by simp) running second opened rfl ?_
        exact ⟨rfl, .refl .., by simp [opening, present, first, second, Opening.Result]⟩
  | none =>
    have created : s.answer w (.semget key .newSemaphore) = some
        (.ok ⟨key, s.kernel.semaphoresCreated key⟩, { s with kernel := withSemaphore s.kernel key }) := by
      simp only [System.answer, System.withKernel, semget_new_of_absent present]
    have found : (withSemaphore s.kernel key).semaphore key = some ⟨s.kernel.semaphoresCreated key, 0⟩ :=
      Function.update_self ..
    have set : System.answer { s with kernel := withSemaphore s.kernel key } w
        (.setval ⟨key, s.kernel.semaphoresCreated key⟩ initial) = some (.ok (), { s with
          kernel := ((withSemaphore s.kernel key).setSemaphore key
            (some ⟨s.kernel.semaphoresCreated key, initial⟩)) }) := by
      simp only [System.answer, System.withKernel, setval_of_present found]
    cases first : failing (.semget key .newSemaphore) with
    | true =>
      refine surely_failed (by simp) running first refused ?_
      exact ⟨rfl, .refl .., by simp [opening, present, first, Opening.Result]⟩
    | false =>
      refine surely_answered (by simp) running first created rfl ?_
      cases second : failing (.setval ⟨key, s.kernel.semaphoresCreated key⟩ initial) with
      | true =>
        refine surely_failed (by simp) running second unset ?_
        exact ⟨rfl, othersAlone_withSemaphore .., by simp [opening, present, first, second, Opening.Result, found]⟩
      | false =>
        refine surely_answered (by simp) running second set rfl ?_
        refine ⟨rfl, (othersAlone_withSemaphore ..).setSemaphore _, ?_⟩
        simp [opening, present, first, second, Opening.Result, Kernel.setSemaphore]

theorem opening_congr {kernel kernel' : Kernel} {key : Key} {initial : Nat}
    (semaphore : kernel'.semaphore key = kernel.semaphore key)
    (semaphoresCreated : kernel'.semaphoresCreated key = kernel.semaphoresCreated key) :
    opening failing kernel' key initial = opening failing kernel key initial := by
  unfold opening
  rw [semaphore, semaphoresCreated]

theorem opening_of_othersAlone {kernel kernel' : Kernel} {key other : Key} {initial : Nat} (differs : other ≠ key)
    (alone : OthersAlone key kernel kernel') :
    opening failing kernel' other initial = opening failing kernel other initial :=
  opening_congr (alone.semaphore other differs) (alone.semaphoresCreated other differs)

def Trail (hasCreated : Bool) (kernel kernel' : Kernel) : Prop :=
  if hasCreated then ∃ key, kernel.semaphore key = none ∧ (kernel'.semaphore key).isSome
  else kernel'.semaphore = kernel.semaphore

theorem Trail.step {hasCreated : Bool} {kernel kernel₁ kernel₂ : Kernel} {key : Key} {o : Opening} {semId : Option Id}
    (trail : Trail hasCreated kernel kernel₁) (untouched : kernel₁.semaphore key = kernel.semaphore key)
    (result : o.Result key kernel₁ kernel₂ semId) (rest : List Opening) :
    semId = none ∧ Trail (leaks hasCreated (o :: rest)) kernel kernel₂ ∨
      semId.isSome ∧ ∃ created, Trail created kernel kernel₂ ∧ leaks hasCreated (o :: rest) = leaks created rest := by
  cases o with
  | refused =>
    obtain ⟨none, rfl⟩ := result
    exact .inl ⟨none, trail⟩
  | opened =>
    obtain ⟨some, rfl⟩ := result
    exact .inr ⟨some, hasCreated, trail, rfl⟩
  | created =>
    obtain ⟨some, absent, present⟩ := result
    exact .inr ⟨some, true, ⟨key, untouched ▸ absent, present⟩, rfl⟩
  | unset =>
    obtain ⟨none, absent, present⟩ := result
    exact .inl ⟨none, key, untouched ▸ absent, present⟩

omit [DecidableEq τ] in
theorem withMemory_self {segment : Id} : s.withMemory segment (s.memory segment) = s := by
  simp [System.withMemory]

theorem surely_clear {segment : Id} (running : s.exited w = false) (attached : w ∈ s.attachments segment) :
    (failingMachine τ failing).Surely w (clear (some segment))
      (fun _ s' => ∃ memory, s' = s.withMemory segment memory) s := by
  have last : ∀ memory, (failingMachine τ failing).Surely w ((Call.storeRefCounter (some segment) 0).make >>= pure)
      (fun _ s' => ∃ memory, s' = s.withMemory segment memory) (s.withMemory segment memory) :=
    fun memory => surely_change rfl running attached ⟨_, rfl⟩
  have cleared : ∀ memory, (failingMachine τ failing).Surely w (clear (some segment))
      (fun _ s' => ∃ memory, s' = s.withMemory segment memory) (s.withMemory segment memory) := by
    intro memory
    refine surely_change rfl running attached (surely_change rfl running attached ?_)
    refine surely_change rfl running attached (surely_change rfl running attached ?_)
    refine surely_change rfl running attached (surely_change rfl running attached ?_)
    refine surely_change rfl running attached (surely_change rfl running attached ?_)
    refine surely_change rfl running attached ?_
    exact last _
  have unchanged := cleared (s.memory segment)
  rwa [withMemory_self] at unchanged

/-- The memory of a segment whose semaphores are not opened yet. -/
structure Unopened (memory : SharedMemory) : Prop where
  semId : ∀ which, memory.semId which = none
  counter : memory.shMemRefCounter = 1

def SharedMemoryInitialised (failing : Call → Bool) (tieType : TieType) (segment : Id) (s : System τ)
    (status : InitStatus) (s' : System τ) : Prop :=
  match status with
  | .sharedMemoryInitFailure =>
    ∃ memory kernel, Unopened memory ∧ s' = ({ s with kernel := kernel } : System τ).withMemory segment memory ∧
      Trail (leaks false (openings failing s.kernel tieType)) s.kernel kernel
  | .sharedMemoryInitSuccess => s'.exited = s.exited ∧ leaks false (openings failing s.kernel tieType) = false

theorem surely_unopened {p : WorkerProgram α} {post : α → System τ → Prop} {segment : Id} {memory : SharedMemory}
    (unopened : Unopened memory)
    (rest : ∀ memory, Unopened memory → (failingMachine τ failing).Surely w p post (s.withMemory segment memory)) :
    (failingMachine τ failing).Surely w p post (s.withMemory segment memory) := rest memory unopened

theorem surely_initSharedMemory {tieType : TieType} {segment : Id} {newSems : NewSems} (running : s.exited w = false)
    (attached : w ∈ s.attachments segment) :
    (failingMachine τ failing).Surely w (initSharedMemory (some segment) (semKey tieType) newSems)
      (fun result => SharedMemoryInitialised failing tieType segment s result.1) s := by
  have differ : ∀ {which other : Which}, which ≠ other → semKey tieType which ≠ semKey tieType other :=
    fun differs same => differs (semKey_injective same)
  refine surely_bind.mpr (surely_mono ?_ (surely_clear running attached))
  rintro _ _ ⟨memory, rfl⟩
  refine surely_change rfl running attached (surely_change rfl running attached ?_)
  refine surely_change rfl running attached (surely_change rfl running attached ?_)
  refine surely_unopened ⟨fun which => by cases which <;> rfl, rfl⟩ fun memory unopened => ?_
  have trail : Trail false s.kernel s.kernel := rfl
  refine surely_bind.mpr (surely_mono ?_ (surely_initSemaphore running))
  rintro ⟨access, newSems₁⟩ s₁ ⟨same₁, alone₁, result₁⟩
  rcases trail.step rfl result₁ _ with ⟨rfl, failed⟩ | ⟨opened, created₁, trail₁, same⟩
  · exact ⟨memory, s₁.kernel, unopened, same₁, failed⟩
  obtain ⟨access, rfl⟩ := Option.isSome_iff_exists.mp opened
  have first : ∀ {other : Which}, other ≠ .bufferAccess → s₁.kernel.semaphore (semKey tieType other) =
      s.kernel.semaphore (semKey tieType other) := fun differs => alone₁.semaphore _ (differ differs)
  obtain ⟨k₁, rfl⟩ : ∃ kernel, s₁ = ({ s with kernel := kernel } : System τ).withMemory segment memory := ⟨s₁.kernel, same₁⟩
  refine surely_bind.mpr (surely_mono ?_ (surely_initSemaphore running))
  rintro ⟨added, newSems₂⟩ s₂ ⟨same₂, alone₂, result₂⟩
  rw [opening_of_othersAlone (differ (by decide)) alone₁] at result₂
  rcases trail₁.step (first (by decide)) result₂ _ with ⟨rfl, failed⟩ | ⟨opened, created₂, trail₂, same'⟩
  · exact ⟨memory, s₂.kernel, unopened, same₂, same ▸ failed⟩
  obtain ⟨added, rfl⟩ := Option.isSome_iff_exists.mp opened
  have second : ∀ {other : Which}, other ≠ .bufferAccess → other ≠ .addedPins → OthersAlone (semKey tieType .addedPins) k₁ s₂.kernel →
      s₂.kernel.semaphore (semKey tieType other) = s.kernel.semaphore (semKey tieType other) :=
    fun differs differs' alone => (alone.semaphore _ (differ differs')).trans (first differs)
  obtain ⟨k₂, rfl⟩ : ∃ kernel, s₂ = ({ s with kernel := kernel } : System τ).withMemory segment memory := ⟨s₂.kernel, same₂⟩
  refine surely_bind.mpr (surely_mono ?_ (surely_initSemaphore running))
  rintro ⟨free, newSems₃⟩ s₃ ⟨same₃, alone₃, result₃⟩
  rw [opening_of_othersAlone (differ (by decide)) alone₂, opening_of_othersAlone (differ (by decide)) alone₁] at result₃
  rcases trail₂.step (second (by decide) (by decide) alone₂) result₃ [] with
    ⟨rfl, failed⟩ | ⟨opened, created₃, trail₃, same''⟩
  · exact ⟨memory, s₃.kernel, unopened, same₃, same ▸ same' ▸ failed⟩
  obtain ⟨free, rfl⟩ := Option.isSome_iff_exists.mp opened
  obtain ⟨k₃, rfl⟩ : ∃ kernel, s₃ = ({ s with kernel := kernel } : System τ).withMemory segment memory := ⟨s₃.kernel, same₃⟩
  refine surely_change rfl running attached (surely_change rfl running attached ?_)
  exact surely_change rfl running attached ⟨rfl, same.trans (same'.trans same'')⟩

theorem initSemaphore_size (key : Key) (initial : Nat) (newSems : NewSems) :
    (initSemaphore key initial newSems).Always fun _ result => result.2.size = newSems.size := by
  refine always_bind.mpr (always_request.mpr fun answer => ?_)
  cases answer with
  | ok semId =>
    refine always_bind.mpr (always_request.mpr fun answer => ?_)
    cases answer <;> exact rfl
  | failed errno =>
    simp only
    split
    · exact rfl
    · refine always_bind.mpr (always_request.mpr fun answer => ?_)
      cases answer <;> exact rfl

theorem initSharedMemory_size (shMem : Pointer) (keys : Which → Key) (newSems : NewSems) :
    (initSharedMemory shMem keys newSems).Always fun _ result => result.2.size = newSems.size := by
  refine always_bind.mpr (always_iff.mpr fun _ _ _ => ?_)
  refine always_bind.mpr (always_request.mpr fun _ => always_bind.mpr (always_request.mpr fun _ => ?_))
  refine always_bind.mpr (always_request.mpr fun _ => always_bind.mpr (always_request.mpr fun _ => ?_))
  refine always_bind.mpr (always_mono ?_ (initSemaphore_size _ _ _))
  rintro _ ⟨_ | access, newSems₁⟩ same₁
  · exact same₁
  refine always_bind.mpr (always_mono ?_ (initSemaphore_size _ _ _))
  rintro _ ⟨_ | added, newSems₂⟩ same₂
  · exact same₂.trans same₁
  refine always_bind.mpr (always_mono ?_ (initSemaphore_size _ _ _))
  rintro _ ⟨_ | free, newSems₃⟩ same₃
  · exact same₃.trans (same₂.trans same₁)
  refine always_bind.mpr (always_request.mpr fun _ => always_bind.mpr (always_request.mpr fun _ => ?_))
  exact always_bind.mpr (always_request.mpr fun _ => same₃.trans (same₂.trans same₁))

variable {tieType : TieType}

theorem surely_deinit_unattached {shMem : Pointer} (running : s.exited w = false)
    (unattached : s.info w tieType = ⟨none, shMem⟩) :
    (failingMachine τ failing).Surely w (deinitSharedMemoryInfo tieType) (fun _ s' => s' = s) s := by
  have loaded : s.answer w (.loadInfo tieType) = some (⟨none, shMem⟩, s) := by rw [← unattached]; rfl
  refine surely_answered (by simp) running rfl rfl rfl (surely_answered (by simp) running rfl loaded rfl ?_)
  have last : (failingMachine τ failing).Surely w ((Call.leaveDeinit tieType).make >>= pure) (fun _ s' => s' = s) s :=
    surely_answered (by simp) running rfl rfl rfl rfl
  exact last

/-- What is left of a segment after its only user has found no semaphores in it. -/
structure SegmentRemoved (segment : Id) (s s' : System τ) : Prop where
  segments : s'.segment = Function.update s.segment segment.key none
  attachments : s'.attachments = Function.update s.attachments segment []
  memory : ∀ other, other ≠ segment → s'.memory other = s.memory other
  kernel : s'.kernel = s.kernel
  exited : s'.exited = s.exited

theorem surely_deleteSemaphores {segment : Id} (running : s.exited w = false) (attached : w ∈ s.attachments segment)
    (noSemaphores : ∀ which, (s.memory segment).semId which = none) :
    (failingMachine τ failing).Surely w (deleteSemaphores (some segment)) (fun _ s' => s' = s) s := by
  have delete : ∀ which, (failingMachine τ failing).Surely w (deleteSemaphore (some segment) which)
      (fun _ s' => s' = s) s := by
    intro which
    have loaded : s.answer w (.loadSemId (some segment) which) = some (none, s) := by
      simp only [System.answer, System.load, if_pos attached, noSemaphores which]
    exact surely_answered (by simp) running rfl loaded rfl rfl
  refine surely_bind.mpr (surely_mono ?_ (delete .freePins))
  rintro _ _ rfl
  refine surely_bind.mpr (surely_mono ?_ (delete .addedPins))
  rintro _ _ rfl
  exact delete .bufferAccess

theorem surely_deinit_created {segment : Id} (running : s.exited w = false)
    (info : s.info w tieType = ⟨some segment, some segment⟩) (attachments : s.attachments segment = [w])
    (unopened : Unopened (s.memory segment)) (current : s.segment segment.key = some segment.generation) :
    (failingMachine τ failing).Surely w (deinitSharedMemoryInfo tieType) (fun _ => SegmentRemoved segment s) s := by
  have loaded : s.answer w (.loadInfo tieType) = some (⟨some segment, some segment⟩, s) := by rw [← info]; rfl
  have attached : w ∈ s.attachments segment := by simp [attachments]
  refine surely_answered (by simp) running rfl rfl rfl (surely_answered (by simp) running rfl loaded rfl ?_)
  have counted : s.answer w (.loadRefCounter (some segment)) = some (1, s) := by
    simp only [System.answer, System.load, if_pos attached, unopened.counter]
  refine surely_bind.mpr (surely_answered (by simp) running rfl counted rfl ?_)
  have decreased : s.answer w (.decreaseRefCounter (some segment)) =
      some (0, s.withMemory segment { s.memory segment with shMemRefCounter := 0 }) := by
    simp only [System.answer, System.modify, if_pos attached, unopened.counter, System.withMemory]
    rfl
  refine surely_bind.mpr (surely_answered (by simp) running rfl decreased rfl ?_)
  have noSemaphores : ∀ which, ((s.withMemory segment { s.memory segment with shMemRefCounter := 0 }).memory segment).semId
      which = none := fun which => by simp [System.withMemory, unopened.semId which]
  refine surely_bind.mpr (surely_mono ?_ (surely_deleteSemaphores running attached noSemaphores))
  rintro _ _ rfl
  have detached : System.answer (s.withMemory segment { s.memory segment with shMemRefCounter := 0 }) w
      (.shmdt (some segment)) = some (.ok (), { s.withMemory segment { s.memory segment with shMemRefCounter := 0 } with
        attachments := Function.update s.attachments segment [] }) := by
    simp [System.answer, System.shmdt, System.withMemory, attachments]
  refine surely_answered (by simp) running rfl detached rfl ?_
  have removed : System.answer { s.withMemory segment { s.memory segment with shMemRefCounter := 0 } with
      attachments := Function.update s.attachments segment [] } w (.removeSegment segment) = some (.ok (),
        { s.withMemory segment { s.memory segment with shMemRefCounter := 0 } with
          attachments := Function.update s.attachments segment []
          segment := Function.update s.segment segment.key none }) := by
    simp [System.answer, System.removeSegment, System.withMemory, current]
  refine surely_answered (by simp) running rfl removed rfl ?_
  have last : ∀ s₁ : System τ, s₁.exited w = false → SegmentRemoved segment s s₁ → (failingMachine τ failing).Surely w
      ((Call.leaveDeinit tieType).make >>= pure) (fun _ => SegmentRemoved segment s) s₁ :=
    fun s₁ running done => surely_answered (by simp) running rfl rfl rfl done
  exact last _ running ⟨rfl, rfl, fun other differs => Function.update_of_ne differs _ _, rfl, rfl⟩

/-- A segment has been created and attached, and nothing else has changed outside of it. -/
structure SegmentCreated (tieType : TieType) (w : τ) (segment : Id) (s s' : System τ) : Prop where
  key : segment.key = sharedMemoryKey tieType
  absent : s.segment (sharedMemoryKey tieType) = none
  segments : s'.segment = Function.update s.segment (sharedMemoryKey tieType) (some segment.generation)
  attachments : s'.attachments = Function.update s.attachments segment [w]
  memory : ∀ other, other ≠ segment → s'.memory other = s.memory other
  info : s'.info w tieType = ⟨some segment, some segment⟩
  exited : s'.exited = s.exited

/-- What a segment of its own leaves in which not all semaphores could be opened. -/
structure AttachedUnopened (failing : Call → Bool) (tieType : TieType) (w : τ) (segment : Id) (s s' : System τ) : Prop where
  created : SegmentCreated tieType w segment s s'
  unopened : Unopened (s'.memory segment)
  trail : Trail (leaks false (openings failing s.kernel tieType)) s.kernel s'.kernel

/-- How `init_resources_impl` ends if `shmat` does not fail. -/
def ImplResult (failing : Call → Bool) (tieType : TieType) (w : τ) (s : System τ) (status : InitStatus)
    (s' : System τ) : Prop :=
  match status with
  | .sharedMemoryInitFailure =>
    ShmgetFails failing (sharedMemoryKey tieType) s ∧ s' = s ∨
      ¬ ShmgetFails failing (sharedMemoryKey tieType) s ∧ ∃ segment, AttachedUnopened failing tieType w segment s s'
  | .sharedMemoryInitSuccess => s'.exited = s.exited ∧
    (s.segment (sharedMemoryKey tieType) = none → leaks false (openings failing s.kernel tieType) = false)

theorem surely_attachExisting {segment : Id} {post : InitStatus → System τ → Prop} (running : s.exited w = false)
    (current : s.segment segment.key = some segment.generation) (attaches : failing (.shmat segment) = false)
    (holds : ∀ s', s'.exited = s.exited → post .sharedMemoryInitSuccess s') :
    (failingMachine τ failing).Surely w (attachSharedMemory tieType segment true) post s := by
  refine surely_answered (by simp) running rfl rfl rfl ?_
  have shmat : System.answer (s.setInfo w tieType { s.info w tieType with sharedMemId := some segment }) w (.shmat segment) =
      some (some segment, (s.setInfo w tieType { s.info w tieType with sharedMemId := some segment }).attach w segment) := by
    simp only [System.answer, System.shmat, System.attach]
    exact congrArg some (if_pos (.inl current))
  refine surely_answered (by simp) running attaches shmat rfl (surely_answered (by simp) running rfl rfl rfl ?_)
  have increased : ∀ s₁ : System τ, w ∈ s₁.attachments segment → s₁.answer w (.increaseRefCounter (some segment)) =
      some ((), s₁.withMemory segment
        { s₁.memory segment with shMemRefCounter := (s₁.memory segment).shMemRefCounter + 1 }) := by
    intro s₁ attached
    simp only [System.answer, System.store, System.modify, if_pos attached, System.withMemory]
  refine surely_answered (by simp) running rfl (increased _ ?_) rfl (holds _ rfl)
  simp [System.attach, System.setInfo]

omit [DecidableEq τ] in
theorem SegmentCreated.unopened {segment : Id} {s₁ : System τ} {memory : SharedMemory} {kernel : Kernel}
    (created : SegmentCreated tieType w segment s s₁) (unopened : Unopened memory)
    (trail : Trail (leaks false (openings failing s.kernel tieType)) s.kernel kernel) :
    AttachedUnopened failing tieType w segment s (({ s₁ with kernel := kernel } : System τ).withMemory segment memory) where
  created := ⟨created.key, created.absent, created.segments, created.attachments,
    fun other differs => (Function.update_of_ne differs _ _).trans (created.memory other differs), created.info,
    created.exited⟩
  unopened := by simpa [System.withMemory] using unopened
  trail := trail

theorem surely_attachCreated {segment : Id} (running : s.exited w = false)
    (obtained : ¬ ShmgetFails failing (sharedMemoryKey tieType) s)
    (offered : segment = ⟨sharedMemoryKey tieType, s.segmentsCreated (sharedMemoryKey tieType)⟩)
    (absent : s.segment (sharedMemoryKey tieType) = none) (attaches : failing (.shmat segment) = false) :
    (failingMachine τ failing).Surely w (attachSharedMemory tieType segment false) (ImplResult failing tieType w s)
      (s.withSegment (sharedMemoryKey tieType)) := by
  refine surely_answered (by simp) running rfl rfl rfl ?_
  have shmat : ∀ s₁ : System τ, s₁.segment segment.key = some segment.generation →
      s₁.answer w (.shmat segment) = some (some segment, s₁.attach w segment) := by
    intro s₁ current
    simp only [System.answer, System.shmat, System.attach]
    exact congrArg some (if_pos (.inl current))
  refine surely_answered (by simp) running attaches (shmat _ ?_) rfl
    (surely_answered (by simp) running rfl rfl rfl ?_)
  · simp [System.setInfo, System.withSegment, offered]
  generalize reached : System.setInfo _ w tieType _ = s₁
  have created : SegmentCreated tieType w segment s s₁ := by
    subst reached
    constructor
    · simp [offered]
    · exact absent
    · simp [System.setInfo, System.attach, System.withSegment, offered]
    · simp [System.setInfo, System.attach, System.withSegment, offered]
    · intro other differs
      rw [offered] at differs
      simp [System.setInfo, System.attach, System.withSegment, differs]
    · simp [System.setInfo, System.attach]
    · rfl
  have kernel : s₁.kernel = s.kernel := by
    subst reached
    rfl
  have running₁ : s₁.exited w = false := by rw [created.exited, running]
  have attached : w ∈ s₁.attachments segment := by simp [created.attachments]
  refine surely_bind.mpr (surely_mono ?_ (surely_and (surely_initSharedMemory running₁ attached)
    (wp_of_always (initSharedMemory_size _ _ _))))
  rintro ⟨status, semId, size⟩ s₂ ⟨initialised, same⟩
  obtain rfl : size = 0 := same
  cases status with
  | sharedMemoryInitFailure =>
    obtain ⟨memory, kernel', unopened, rfl, trail⟩ := initialised
    rw [kernel] at trail
    exact .inr ⟨obtained, segment, created.unopened unopened trail⟩
  | sharedMemoryInitSuccess =>
    obtain ⟨exited, clean⟩ := initialised
    rw [kernel] at clean
    exact ⟨exited.trans created.exited, fun _ => clean⟩

theorem surely_initResourcesImpl (running : s.exited w = false)
    (attaches : ¬ ShmgetFails failing (sharedMemoryKey tieType) s →
      failing (.shmat (s.offered (sharedMemoryKey tieType))) = false) :
    (failingMachine τ failing).Surely w (initResourcesImpl tieType) (ImplResult failing tieType w s) s := by
  have refused : ∀ flags, ∀ answer : Result Id, Call.failsOutside (.shmget (sharedMemoryKey tieType) flags) answer = true ↔
      answer = .failed .other := fun _ _ => decide_eq_true_iff
  cases first : failing (.shmget (sharedMemoryKey tieType) .new) with
  | true => exact surely_failed (by simp) running first (refused _) (.inl ⟨.inl first, rfl⟩)
  | false =>
    cases present : s.segment (sharedMemoryKey tieType) with
    | some generation =>
      have exists' : s.answer w (.shmget (sharedMemoryKey tieType) .new) = some (.failed .eexist, s) := by
        simp only [System.answer, System.shmget, present]
      refine surely_answered (by simp) running first exists' rfl ?_
      cases second : failing (.shmget (sharedMemoryKey tieType) .existing) with
      | true =>
        refine surely_failed (by simp) running second (refused _) (.inl ⟨.inr ⟨?_, second⟩, rfl⟩)
        simp [present]
      | false =>
        have found : s.answer w (.shmget (sharedMemoryKey tieType) .existing) =
            some (.ok ⟨sharedMemoryKey tieType, generation⟩, s) := by
          simp only [System.answer, System.shmget, present]
        refine surely_answered (by simp) running second found rfl ?_
        have attached := attaches (by simp [ShmgetFails, first, second])
        simp only [System.offered, present, Option.getD_some] at attached
        refine surely_attachExisting running present attached fun s' exited => ⟨exited, fun absent => ?_⟩
        rw [present] at absent
        cases absent
    | none =>
      have created : s.answer w (.shmget (sharedMemoryKey tieType) .new) = some
          (.ok ⟨sharedMemoryKey tieType, s.segmentsCreated (sharedMemoryKey tieType)⟩,
            s.withSegment (sharedMemoryKey tieType)) := by
        simp only [System.answer, System.shmget, present, System.withSegment]
      refine surely_answered (by simp) running first created rfl ?_
      have obtained : ¬ ShmgetFails failing (sharedMemoryKey tieType) s := by simp [ShmgetFails, first, present]
      have attached := attaches obtained
      simp only [System.offered, present, Option.getD_none] at attached
      exact surely_attachCreated running obtained rfl present attached

/-- How `init_shared_memory_info` ends if `shmat` does not fail. -/
def InfoResult (failing : Call → Bool) (tieType : TieType) (s : System τ) (status : InitStatus) (s' : System τ) : Prop :=
  match status with
  | .sharedMemoryInitFailure => SegmentsKept s s' ∧
    (ShmgetFails failing (sharedMemoryKey tieType) s ∧ s'.kernel.semaphore = s.kernel.semaphore ∨
      ¬ ShmgetFails failing (sharedMemoryKey tieType) s ∧ s.segment (sharedMemoryKey tieType) = none ∧
        Trail (leaks false (openings failing s.kernel tieType)) s.kernel s'.kernel)
  | .sharedMemoryInitSuccess =>
    s.segment (sharedMemoryKey tieType) = none → leaks false (openings failing s.kernel tieType) = false

omit [DecidableEq τ] in
theorem SegmentCreated.removed {segment : Id} {s₁ s₂ : System τ} (created : SegmentCreated tieType w segment s s₁)
    (removed : SegmentRemoved segment s₁ s₂) : SegmentsKept s s₂ := by
  have segments : s₂.segment = s.segment := by
    rw [removed.segments, created.segments, created.key, Function.update_idem, ← created.absent, Function.update_eq_self]
  have attachments : s₂.attachments = Function.update s.attachments segment [] := by
    rw [removed.attachments, created.attachments, Function.update_idem]
  refine ⟨fun other found => ?_, fun other current => ⟨by rw [segments, current], ?_⟩⟩
  · unfold System.SegmentExists at found ⊢
    rw [segments, attachments] at found
    refine found.imp_right fun attached => ?_
    by_cases same : other = segment
    · subst same
      simp at attached
    · rwa [Function.update_of_ne same] at attached
  · have differs : other ≠ segment := by
      rintro rfl
      rw [created.key, created.absent] at current
      cases current
    rw [removed.memory other differs, created.memory other differs]

theorem surely_initSharedMemoryInfo (running : s.exited w = false)
    (attaches : ¬ ShmgetFails failing (sharedMemoryKey tieType) s →
      failing (.shmat (s.offered (sharedMemoryKey tieType))) = false) :
    (failingMachine τ failing).Surely w (initSharedMemoryInfo tieType) (InfoResult failing tieType s) s := by
  refine surely_answered (by simp) running rfl rfl rfl ?_
  refine surely_answered (by simp) running rfl rfl rfl (surely_answered (by simp) running rfl rfl rfl ?_)
  generalize reached : System.setInfo _ w tieType _ = s₁
  have unattached : s₁.info w tieType = ⟨none, none⟩ := by
    subst reached
    simp [System.setInfo]
  obtain ⟨info, rfl⟩ : ∃ info, s₁ = { s with info := info } := ⟨_, reached.symm⟩
  have leave : ∀ status (s₂ : System τ), s₂.exited w = false → InfoResult failing tieType s status s₂ →
      (failingMachine τ failing).Surely w ((Call.leaveInit tieType status).make >>= fun _ => pure status)
        (InfoResult failing tieType s) s₂ := fun status s₂ running result =>
    surely_answered (by simp) running rfl rfl rfl result
  refine surely_bind.mpr (surely_mono ?_ (surely_initResourcesImpl running attaches))
  rintro (_ | _) s₂ result
  · obtain ⟨exited, clean⟩ := result
    exact leave _ _ (by rw [exited]; exact running) clean
  rcases result with ⟨fails, rfl⟩ | ⟨obtained, segment, created, unopened, trail⟩
  · refine surely_bind.mpr (surely_mono ?_ (surely_deinit_unattached running unattached))
    rintro _ _ rfl
    exact leave .sharedMemoryInitFailure _ running ⟨⟨fun _ => id, fun _ current => ⟨current, rfl⟩⟩, .inl ⟨fails, rfl⟩⟩
  · have current : s₂.segment segment.key = some segment.generation := by simp [created.segments, created.key]
    have alone : s₂.attachments segment = [w] := by simp [created.attachments]
    have running₂ : s₂.exited w = false := by rw [created.exited, running]
    refine surely_bind.mpr (surely_mono ?_ (surely_deinit_created running₂ created.info alone unopened current))
    intro _ s₃ removed
    have kept := created.removed removed
    refine leave .sharedMemoryInitFailure s₃ (by rw [removed.exited, running₂])
      ⟨⟨kept.segments, kept.kept⟩, .inr ⟨obtained, created.absent, ?_⟩⟩
    rw [removed.kernel]
    exact trail

theorem dereference_faults {call : Call} (dereferences : call.DereferencesNothing) (answer : call.Answer) :
    (failingMachine τ failing).perform w call answer s ≠ some s' := by
  have unanswered : call ≠ .rand ∧ call.failsOutside answer = false ∧ s.answer w call = none := by
    unfold Call.DereferencesNothing at dereferences
    split at dereferences <;> first | exact ⟨by simp, rfl, rfl⟩ | exact dereferences.elim
  obtain ⟨isNotRand, never, blocked⟩ := unanswered
  intro performed
  have both := (System.perform_eq_some isNotRand).mp (Option.ite_none_right_eq_some.mp performed).2
  simp [never, blocked] at both

theorem dereferences_nothing (running : s.exited w = false) (obtained : ¬ ShmgetFails failing (sharedMemoryKey tieType) s)
    (fails : failing (.shmat (s.offered (sharedMemoryKey tieType))) = true) :
    ¬ (failingMachine τ failing).Avoids w Call.DereferencesNothing (initSharedMemoryInfo tieType) s := by
  have first : failing (.shmget (sharedMemoryKey tieType) .new) = false :=
    Bool.eq_false_of_not_eq_true fun fails => obtained (.inl fails)
  refine not_avoids_call (performs_answered (by simp) running rfl rfl rfl) ?_
  refine not_avoids_call (performs_answered (by simp) running rfl rfl rfl) ?_
  refine not_avoids_call (performs_answered (by simp) running rfl rfl rfl) (not_avoids_bind_left ?_)
  generalize reached : System.setInfo _ w tieType _ = s₁
  obtain ⟨info, rfl⟩ : ∃ info, s₁ = { s with info := info } := ⟨_, reached.symm⟩
  have failed : ∀ segment, Call.failsOutside (.shmat segment) none = true := fun _ => rfl
  cases present : s.segment (sharedMemoryKey tieType) with
  | some generation =>
    simp only [System.offered, present, Option.getD_some] at fails
    have second : failing (.shmget (sharedMemoryKey tieType) .existing) = false :=
      Bool.eq_false_of_not_eq_true fun fails => obtained (.inr ⟨by simp [present], fails⟩)
    have exists' : System.answer { s with info := info } w (.shmget (sharedMemoryKey tieType) .new) =
        some (.failed .eexist, { s with info := info }) := by
      simp only [System.answer, System.shmget, present]
    have found : System.answer { s with info := info } w (.shmget (sharedMemoryKey tieType) .existing) =
        some (.ok ⟨sharedMemoryKey tieType, generation⟩, { s with info := info }) := by
      simp only [System.answer, System.shmget, present]
    refine not_avoids_call (performs_answered (by simp) running first exists' rfl) ?_
    refine not_avoids_call (performs_answered (by simp) running second found rfl) ?_
    refine not_avoids_call (performs_answered (by simp) running rfl rfl rfl) ?_
    refine not_avoids_call (performs_failed (by simp) running fails (failed _)) ?_
    refine not_avoids_call (performs_answered (by simp) running rfl rfl rfl) ?_
    exact fun avoids => avoids.1 True.intro
  | none =>
    simp only [System.offered, present, Option.getD_none] at fails
    have created : System.answer { s with info := info } w (.shmget (sharedMemoryKey tieType) .new) = some
        (.ok ⟨sharedMemoryKey tieType, s.segmentsCreated (sharedMemoryKey tieType)⟩,
          ({ s with info := info } : System τ).withSegment (sharedMemoryKey tieType)) := by
      simp only [System.answer, System.shmget, present, System.withSegment]
    refine not_avoids_call (performs_answered (by simp) running first created rfl) ?_
    refine not_avoids_call (performs_answered (by simp) running rfl rfl rfl) ?_
    refine not_avoids_call (performs_failed (by simp) running fails (failed _)) ?_
    refine not_avoids_call (performs_answered (by simp) running rfl rfl rfl) ?_
    -- the clearing of the memory starts with a store through the pointer
    exact fun avoids => avoids.1 True.intro

theorem Trail.semaphores {kernel kernel' : Kernel} (trail : Trail true kernel kernel') :
    kernel'.semaphore ≠ kernel.semaphore := by
  obtain ⟨key, absent, present⟩ := trail
  intro same
  rw [same, absent] at present
  cases present

theorem semaphore_left (running : s.exited w = false) (obtained : ¬ ShmgetFails failing (sharedMemoryKey tieType) s)
    (attaches : failing (.shmat (s.offered (sharedMemoryKey tieType))) = false)
    (absent : s.segment (sharedMemoryKey tieType) = none) (leaked : leaks false (openings failing s.kernel tieType) = true) :
    ¬ LeavesNothing failing tieType w s := by
  intro leavesNothing
  obtain ⟨history, status, s', run, result⟩ := exists_run_of_can (can_of_surely
    (@surely_initSharedMemoryInfo _ _ w s failing tieType running fun _ => attaches))
  cases status with
  | sharedMemoryInitSuccess =>
    rw [result absent] at leaked
    cases leaked
  | sharedMemoryInitFailure =>
    rcases result with ⟨-, ⟨fails, -⟩ | ⟨-, -, trail⟩⟩
    · exact obtained fails
    · rw [leaked] at trail
      exact trail.semaphores (leavesNothing.nothingLeft history s' run).semaphores

/-- A failed initialisation leaves nothing behind exactly if `shmget` fails, or `shmat` does not and no semaphore
    is created before the opening of one fails. -/
theorem failed_initialisation_leavesNothing_iff (running : s.exited w = false) :
    LeavesNothing failing tieType w s ↔ FailsCleanly failing tieType s := by
  constructor
  · intro leavesNothing
    refine or_iff_not_imp_left.mpr fun obtained => ?_
    have attaches : failing (.shmat (s.offered (sharedMemoryKey tieType))) = false := by
      by_contra fails
      exact dereferences_nothing running obtained (Bool.eq_true_of_not_eq_false fails) leavesNothing.attached
    refine ⟨attaches, fun absent => ?_⟩
    by_contra leaked
    exact semaphore_left running obtained attaches absent (Bool.eq_true_of_not_eq_false leaked) leavesNothing
  · intro clean
    have attaches : ¬ ShmgetFails failing (sharedMemoryKey tieType) s →
        failing (.shmat (s.offered (sharedMemoryKey tieType))) = false := fun obtained => (clean.resolve_left obtained).1
    have surely := @surely_initSharedMemoryInfo _ _ w s failing tieType running attaches
    refine ⟨fun history s' run => ?_, fun shMem => ?_, ?_⟩
    · obtain ⟨kept, ⟨-, same⟩ | ⟨obtained, absent, trail⟩⟩ := wp_iff_runs.mp (wp_of_surely surely) _ _ _ run
      · exact ⟨kept, same⟩
      · rw [(clean.resolve_left obtained).2 absent] at trail
        exact ⟨kept, trail⟩
    · exact always_mono (fun _ _ same => by rw [same]; exact Nat.zero_le _) (initSharedMemory_size _ _ _)
    · exact avoids_of_surely (fun _ dereferences answer _ _ => dereference_faults dereferences answer) surely

/-- If the first `semget` fails, the new segment is removed and nothing is left. -/
theorem first_semget_leavesNothing :
    LeavesNothing (fun call => call = .semget 3482334 .newSemaphore) .firstToSecondWorker () (System.initial Unit) := by
  refine (failed_initialisation_leavesNothing_iff rfl).mpr (.inr ⟨?_, fun _ => ?_⟩) <;> decide

/-- If the second `semget` fails, the first semaphore stays. -/
theorem second_semget_leaves_semaphore :
    ¬ LeavesNothing (fun call => call = .semget 34534556 .newSemaphore) .firstToSecondWorker () (System.initial Unit) := by
  refine semaphore_left rfl ?_ ?_ rfl ?_
  · rintro (fails | ⟨present, -⟩)
    · exact absurd fails (by decide)
    · cases present
  · decide
  · decide

end ArchCompSystems.OsIhw2.Mark8
