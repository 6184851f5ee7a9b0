import ArchCompSystems.OsIhw2.MemoryCalls

namespace ArchCompSystems.OsIhw2.Mark8

open Library Library.Program Library.Machine

variable {τ : Type} [DecidableEq τ] {w : τ} {s s' : System τ} {α : Type}

/-- The segment of a tie is as a ring without pins must be: both indices are zero, and its
    semaphores exist and have their default values. -/
structure RingInitialised (tieType : TieType) (s : System τ) : Prop where
  indices : ∃ g, s.segment (sharedMemoryKey tieType) = some g ∧
    (s.memory ⟨sharedMemoryKey tieType, g⟩).readIndex = 0 ∧
    (s.memory ⟨sharedMemoryKey tieType, g⟩).writeIndex = 0
  semaphores : ∀ which, ∃ semaphore, s.kernel.semaphore (semKey tieType which) = some semaphore ∧
    semaphore.value = semDefaultValue which

/-- Every semaphore of the tie that is left over has its default value. -/
def LeftoversAtDefault (tieType : TieType) (s : System τ) : Prop :=
  ∀ which semaphore, s.kernel.semaphore (semKey tieType which) = some semaphore →
    semaphore.value = semDefaultValue which

def openedValue (kernel : Kernel) (key : Key) (initial : Nat) : Nat :=
  ((kernel.semaphore key).map (·.value)).getD initial

structure Opened (key : Key) (initial : Nat) (kernel kernel' : Kernel) : Prop where
  opened : ∃ semaphore, kernel'.semaphore key = some semaphore ∧
    semaphore.value = openedValue kernel key initial
  others : ∀ other, other ≠ key → kernel'.semaphore other = kernel.semaphore other

def AllOpened (tieType : TieType) (kernel kernel' : Kernel) : Prop :=
  ∀ which, ∃ semaphore, kernel'.semaphore (semKey tieType which) = some semaphore ∧
    semaphore.value = openedValue kernel (semKey tieType which) (semDefaultValue which)

theorem AllOpened.of_opened {tieType : TieType} {kernel kernel₁ kernel₂ kernel' : Kernel}
    (access : Opened (semKey tieType .bufferAccess) (semDefaultValue .bufferAccess) kernel kernel₁)
    (added : Opened (semKey tieType .addedPins) (semDefaultValue .addedPins) kernel₁ kernel₂)
    (free : Opened (semKey tieType .freePins) (semDefaultValue .freePins) kernel₂ kernel') :
    AllOpened tieType kernel kernel' := by
  have differ : ∀ {which other : Which}, which ≠ other → semKey tieType which ≠ semKey tieType other :=
    fun differs same => differs (semKey_injective same)
  intro which
  cases which with
  | bufferAccess =>
    obtain ⟨semaphore, present, value⟩ := access.opened
    refine ⟨semaphore, ?_, value⟩
    rw [free.others _ (differ (by decide)), added.others _ (differ (by decide)), present]
  | addedPins =>
    obtain ⟨semaphore, present, value⟩ := added.opened
    refine ⟨semaphore, ?_, ?_⟩
    · rw [free.others _ (differ (by decide)), present]
    · rw [value, openedValue, openedValue, access.others _ (differ (by decide))]
  | freePins =>
    obtain ⟨semaphore, present, value⟩ := free.opened
    refine ⟨semaphore, present, ?_⟩
    rw [value, openedValue, openedValue, added.others _ (differ (by decide)), access.others _ (differ (by decide))]

theorem Opened.of_present {kernel : Kernel} {key : Key} {initial : Nat} {semaphore : Semaphore}
    (present : kernel.semaphore key = some semaphore) : Opened key initial kernel kernel :=
  ⟨⟨semaphore, present, by simp [openedValue, present]⟩, fun _ _ => rfl⟩

theorem Opened.of_absent {kernel : Kernel} {key : Key} {initial : Nat} (absent : kernel.semaphore key = none) :
    Opened key initial kernel
      ((withSemaphore kernel key).setSemaphore key (some ⟨kernel.semaphoresCreated key, initial⟩)) := by
  refine ⟨⟨⟨kernel.semaphoresCreated key, initial⟩, Function.update_self .., ?_⟩, fun other differs => ?_⟩
  · simp [openedValue, absent]
  · simp [Kernel.setSemaphore, withSemaphore, Function.update_of_ne differs]

theorem wp_initSemaphore {key : Key} {initial : Nat} {newSems : NewSems} :
    (workerMachine τ).wp w (initSemaphore key initial newSems)
      (fun _ result s' => ∀ semId, result.1 = some semId →
        Opened key initial s.kernel s'.kernel ∧ s' = { s with kernel := s'.kernel }) s := by
  refine wp_call.mpr fun answer s₁ performed => ?_
  rcases System.perform_semget_new performed with ⟨rfl, rfl⟩ | ⟨⟨semaphore, present⟩, rfl, rfl⟩ | ⟨absent, rfl, rfl⟩
  · exact fun semId impossible => nomatch impossible
  · refine wp_call.mpr fun answer s₂ opened => ?_
    obtain ⟨rfl, -⟩ := System.perform_semget_existing opened
    cases answer with
    | failed errno => exact fun semId impossible => nomatch impossible
    | ok semId => exact fun _ _ => ⟨.of_present present, rfl⟩
  · refine wp_call.mpr fun answer s₂ set => ?_
    have created : (withSemaphore s.kernel key).semaphore key = some ⟨s.kernel.semaphoresCreated key, 0⟩ :=
      Function.update_self ..
    rcases System.perform_setval created set with ⟨rfl, rfl⟩ | ⟨rfl, rfl⟩
    · exact fun semId impossible => nomatch impossible
    · exact fun _ _ => ⟨.of_absent absent, rfl⟩

def IndicesZero (key : Key) (s : System τ) : Prop :=
  ∃ g, s.segment key = some g ∧ (s.memory ⟨key, g⟩).readIndex = 0 ∧ (s.memory ⟨key, g⟩).writeIndex = 0

def IsZeroStore : Call → Prop
  | .storePin _ _ _ | .storeSemId _ _ _ | .storeRefCounter _ _ => True
  | .storeReadIndex _ index | .storeWriteIndex _ index => index = 0
  | _ => False

/-- The two parts of the state that the stores do not change, and the one that they keep. -/
structure StoresOnly (key : Key) (s s' : System τ) : Prop where
  kernel : s'.kernel = s.kernel
  indices : IndicesZero key s → IndicesZero key s'

omit [DecidableEq τ] in
theorem StoresOnly.withMemory {key : Key} {segment : Id} {memory : SharedMemory}
    (zero : (s.memory segment).readIndex = 0 → (s.memory segment).writeIndex = 0 →
      memory.readIndex = 0 ∧ memory.writeIndex = 0) : StoresOnly key s (s.withMemory segment memory) := by
  refine ⟨rfl, fun ⟨g, current, read, write⟩ => ⟨g, current, ?_⟩⟩
  by_cases same : (⟨key, g⟩ : Id) = segment
  · subst same
    simpa only [System.withMemory, Function.update_self] using zero read write
  · simpa only [System.withMemory, Function.update_of_ne same] using And.intro read write

theorem perform_zeroStore {key : Key} {call : Call} {answer : call.Answer} (store : IsZeroStore call)
    (performed : System.perform w call answer s = some s') : StoresOnly key s s' := by
  cases call with
  | storePin shMem index pin =>
    obtain ⟨segment, -, -, -, rfl⟩ := System.perform_change rfl performed
    exact .withMemory fun read write => ⟨read, write⟩
  | storeSemId shMem which semId =>
    obtain ⟨segment, -, -, -, rfl⟩ := System.perform_change rfl performed
    exact .withMemory fun read write => ⟨read, write⟩
  | storeRefCounter shMem value =>
    obtain ⟨segment, -, -, -, rfl⟩ := System.perform_change rfl performed
    exact .withMemory fun read write => ⟨read, write⟩
  | storeReadIndex shMem index =>
    obtain ⟨segment, -, -, -, rfl⟩ := System.perform_change rfl performed
    exact .withMemory fun _ write => ⟨store, write⟩
  | storeWriteIndex shMem index =>
    obtain ⟨segment, -, -, -, rfl⟩ := System.perform_change rfl performed
    exact .withMemory fun read _ => ⟨read, store⟩
  | _ => exact store.elim

theorem clear_isZeroStore (shMem : Pointer) : (clear shMem).Calls IsZeroStore := by
  repeat' first
    | exact ⟨True.intro, fun _ => True.intro⟩
    | refine calls_bind ⟨by first | exact True.intro | rfl, fun _ => True.intro⟩ fun _ => ?_

theorem wp_zeroStore (key : Key) {call : Call} {f : call.Answer → WorkerProgram α} {post : α → System τ → Prop}
    (store : IsZeroStore call)
    (rest : ∀ answer s', StoresOnly key s s' → (workerMachine τ).wp w (f answer) (fun _ => post) s') :
    (workerMachine τ).wp w (call.make >>= f) (fun _ => post) s :=
  wp_call.mpr fun answer s' performed => rest answer s' (perform_zeroStore store performed)

omit [DecidableEq τ] in
theorem StoresOnly.trans {key : Key} {s'' : System τ} (first : StoresOnly key s s') (second : StoresOnly key s' s'') :
    StoresOnly key s s'' :=
  ⟨second.kernel.trans first.kernel, fun zero => second.indices (first.indices zero)⟩

theorem wp_clear (key : Key) {shMem : Pointer} :
    (workerMachine τ).wp w (clear shMem) (fun _ _ s' => StoresOnly key s s') s :=
  @wp_of_calls _ _ _ _ _ (workerMachine τ) w
    (Account.ofRelation (StoresOnly key) (fun _ => ⟨rfl, id⟩) StoresOnly.trans) IsZeroStore _
    (fun _ _ _ _ store performed => perform_zeroStore store performed) (clear_isZeroStore shMem) s

omit [DecidableEq τ] in
theorem IndicesZero.withKernel {key : Key} (zero : IndicesZero key s) (same : s' = { s with kernel := s'.kernel }) :
    IndicesZero key s' := by
  rw [same]
  exact zero

theorem wp_initSharedMemory {tieType : TieType} {shMem : Pointer} {newSems : NewSems}
    (zero : IndicesZero (sharedMemoryKey tieType) s) :
    (workerMachine τ).wp w (initSharedMemory shMem (semKey tieType) newSems) (fun _ result s' =>
      result.1 = .sharedMemoryInitSuccess →
        IndicesZero (sharedMemoryKey tieType) s' ∧ AllOpened tieType s.kernel s'.kernel) s := by
  refine wp_bind.mpr (wp_mono (fun _ _ s₀ cleared => ?_) (wp_clear (sharedMemoryKey tieType)))
  refine wp_zeroStore (sharedMemoryKey tieType) True.intro fun _ s₁ stored₁ => ?_
  refine wp_zeroStore (sharedMemoryKey tieType) True.intro fun _ s₂ stored₂ => ?_
  refine wp_zeroStore (sharedMemoryKey tieType) True.intro fun _ s₃ stored₃ => ?_
  refine wp_zeroStore (sharedMemoryKey tieType) True.intro fun _ s₄ stored₄ => ?_
  have stored := (((cleared.trans stored₁).trans stored₂).trans stored₃).trans stored₄
  refine wp_bind.mpr (wp_mono ?_ wp_initSemaphore)
  rintro _ ⟨_ | semId, newSems₁⟩ s₅ opened₁
  · exact fun impossible => nomatch impossible
  obtain ⟨access, same₁⟩ := opened₁ semId rfl
  refine wp_bind.mpr (wp_mono ?_ wp_initSemaphore)
  rintro _ ⟨_ | semId', newSems₂⟩ s₆ opened₂
  · exact fun impossible => nomatch impossible
  obtain ⟨added, same₂⟩ := opened₂ semId' rfl
  refine wp_bind.mpr (wp_mono ?_ wp_initSemaphore)
  rintro _ ⟨_ | semId'', newSems₃⟩ s₇ opened₃
  · exact fun impossible => nomatch impossible
  obtain ⟨free, same₃⟩ := opened₃ semId'' rfl
  have zero' := (((stored.indices zero).withKernel same₁).withKernel same₂).withKernel same₃
  refine wp_zeroStore (sharedMemoryKey tieType) True.intro fun _ s₈ stored₈ => ?_
  refine wp_zeroStore (sharedMemoryKey tieType) True.intro fun _ s₉ stored₉ => ?_
  refine wp_zeroStore (sharedMemoryKey tieType) True.intro fun _ s₁₀ stored₁₀ => ?_
  have stored' := (stored₈.trans stored₉).trans stored₁₀
  intro _
  refine ⟨stored'.indices zero', ?_⟩
  rw [stored'.kernel, ← stored.kernel]
  exact .of_opened access added free

def IsQuiet : Call → Prop
  | .shmat _ | .storeSharedMemId _ _ | .storeShMem _ _ | .enterInit _ | .leaveInit _ _ => True
  | _ => False

structure SameObjects (s s' : System τ) : Prop where
  segment : s'.segment = s.segment
  memory : s'.memory = s.memory
  kernel : s'.kernel = s.kernel

omit [DecidableEq τ] in
theorem SameObjects.indices {key : Key} (same : SameObjects s s') (zero : IndicesZero key s) :
    IndicesZero key s' := by
  unfold IndicesZero
  rw [same.segment, same.memory]
  exact zero

theorem perform_quiet {call : Call} {answer : call.Answer} (quiet : IsQuiet call)
    (performed : System.perform w call answer s = some s') : SameObjects s s' := by
  cases call with
  | shmat segment =>
    rcases System.perform_shmat performed with ⟨-, rfl⟩ | ⟨-, rfl⟩ <;> exact ⟨rfl, rfl, rfl⟩
  | storeSharedMemId tieType segment | storeShMem tieType shMem =>
    obtain ⟨-, answered⟩ := (System.perform_of_answer (by simp) fun _ => rfl).mp performed
    cases answered
    exact ⟨rfl, rfl, rfl⟩
  | enterInit tieType | leaveInit tieType status =>
    obtain ⟨-, answered⟩ := (System.perform_of_answer (by simp) fun _ => rfl).mp performed
    cases answered
    exact ⟨rfl, rfl, rfl⟩
  | _ => exact quiet.elim

theorem wp_quiet {call : Call} {f : call.Answer → WorkerProgram α} {post : α → System τ → Prop}
    (quiet : IsQuiet call)
    (rest : ∀ answer s', SameObjects s s' → (workerMachine τ).wp w (f answer) (fun _ => post) s') :
    (workerMachine τ).wp w (call.make >>= f) (fun _ => post) s :=
  wp_call.mpr fun answer s' performed => rest answer s' (perform_quiet quiet performed)

theorem wp_true {p : WorkerProgram α} : (workerMachine τ).wp w p (fun _ _ _ => True) s :=
  wp_iff_runs.mpr fun _ _ _ _ => True.intro

def SegmentInitialised (tieType : TieType) (kernel : Kernel) (result : InitStatus) (s : System τ) : Prop :=
  result = .sharedMemoryInitSuccess → IndicesZero (sharedMemoryKey tieType) s ∧ AllOpened tieType kernel s.kernel

theorem wp_attachSharedMemory {tieType : TieType} {shMemId : Id} (zero : IndicesZero (sharedMemoryKey tieType) s) :
    (workerMachine τ).wp w (attachSharedMemory tieType shMemId false)
      (fun _ => SegmentInitialised tieType s.kernel) s := by
  refine wp_quiet True.intro fun _ s₁ same₁ => ?_
  refine wp_quiet True.intro fun shMem s₂ same₂ => ?_
  refine wp_quiet True.intro fun _ s₃ same₃ => ?_
  have zero' := same₃.indices (same₂.indices (same₁.indices zero))
  refine wp_bind.mpr (wp_mono ?_ (wp_initSharedMemory zero'))
  rintro _ ⟨_ | _, newSems⟩ s₄ initialised
  · intro _
    obtain ⟨indices, opened⟩ := initialised rfl
    rw [same₃.kernel, same₂.kernel, same₁.kernel] at opened
    exact ⟨indices, opened⟩
  · refine wp_bind.mpr (wp_mono ?_ wp_true)
    rintro _ _ _ - impossible
    cases impossible

omit [DecidableEq τ] in
theorem indicesZero_withSegment {key : Key} : IndicesZero key (s.withSegment key) := by
  refine ⟨s.segmentsCreated key, Function.update_self .., ?_⟩
  simp only [System.withSegment, Function.update_self, System.zeroMemory, and_self]

theorem wp_initResourcesImpl {tieType : TieType} (absent : s.segment (sharedMemoryKey tieType) = none) :
    (workerMachine τ).wp w (initResourcesImpl tieType) (fun _ => SegmentInitialised tieType s.kernel) s := by
  refine wp_call.mpr fun answer s₁ performed => ?_
  rcases System.perform_shmget_new performed with ⟨rfl, -⟩ | ⟨⟨g, present⟩, -⟩ | ⟨-, rfl, rfl⟩
  · exact fun impossible => nomatch impossible
  · rw [absent] at present
    cases present
  · exact wp_attachSharedMemory indicesZero_withSegment

theorem wp_initSharedMemoryInfo {tieType : TieType} (absent : s.segment (sharedMemoryKey tieType) = none) :
    (workerMachine τ).wp w (initSharedMemoryInfo tieType) (fun _ => SegmentInitialised tieType s.kernel) s := by
  refine wp_quiet True.intro fun _ s₁ same₁ => ?_
  refine wp_quiet True.intro fun _ s₂ same₂ => ?_
  refine wp_quiet True.intro fun _ s₃ same₃ => ?_
  have absent' : s₃.segment (sharedMemoryKey tieType) = none := by
    rw [same₃.segment, same₂.segment, same₁.segment, absent]
  refine wp_bind.mpr (wp_mono ?_ (wp_initResourcesImpl absent'))
  rintro _ (_ | _) s₄ initialised
  · refine wp_quiet True.intro fun _ s₅ same₅ _ => ?_
    obtain ⟨indices, opened⟩ := initialised rfl
    rw [same₃.kernel, same₂.kernel, same₁.kernel] at opened
    rw [same₅.kernel]
    exact ⟨same₅.indices indices, opened⟩
  · refine wp_bind.mpr (wp_mono ?_ wp_true)
    rintro _ _ s₅ -
    refine wp_quiet True.intro fun _ s₆ _ impossible => ?_
    cases impossible

def Attached (w : τ) (segment : Id) (s : System τ) : Prop := s.exited w = false ∧ w ∈ s.attachments segment

theorem can_call {call : Call} {f : call.Answer → WorkerProgram α} {post : α → System τ → Prop}
    {answer : call.Answer} (running : s.exited w = false) (isNotRand : call ≠ .rand)
    (answered : s.answer w call = some (answer, s')) (succeeds : call.failsOutside answer = false)
    (rest : (workerMachine τ).Can w (f answer) post s') : (workerMachine τ).Can w (call.make >>= f) post s :=
  ⟨answer, s', (System.perform_eq_some isNotRand).mpr ⟨running, .inr ⟨succeeds, answered⟩⟩, rest⟩

theorem can_initSemaphore {key : Key} {initial : Nat} {newSems : NewSems} (running : s.exited w = false) :
    (workerMachine τ).Can w (initSemaphore key initial newSems) (fun result s' =>
      (∃ semId, result.1 = some semId) ∧ s'.attachments = s.attachments ∧ s'.exited = s.exited) s := by
  cases present : s.kernel.semaphore key with
  | some semaphore =>
    have refused : s.answer w (.semget key .newSemaphore) = some (.failed .eexist, s) := by
      simp only [System.answer, System.withKernel, semget_new_of_present present]
    have opened : s.answer w (.semget key .existingSemaphore) = some (.ok ⟨key, semaphore.generation⟩, s) := by
      simp only [System.answer, System.withKernel, semget_existing_of_present present]
    refine can_call running (by simp) refused rfl ?_
    exact can_call running (by simp) opened rfl ⟨⟨_, rfl⟩, rfl, rfl⟩
  | none =>
    have created : s.answer w (.semget key .newSemaphore) = some
        (.ok ⟨key, s.kernel.semaphoresCreated key⟩, { s with kernel := withSemaphore s.kernel key }) := by
      simp only [System.answer, System.withKernel, semget_new_of_absent present]
    have exists' : (withSemaphore s.kernel key).semaphore key = some ⟨s.kernel.semaphoresCreated key, 0⟩ :=
      Function.update_self ..
    have set : System.answer { s with kernel := withSemaphore s.kernel key } w
        (.setval ⟨key, s.kernel.semaphoresCreated key⟩ initial) = some (.ok (), { s with
          kernel := ((withSemaphore s.kernel key).setSemaphore key
            (some ⟨s.kernel.semaphoresCreated key, initial⟩)) }) := by
      simp only [System.answer, System.withKernel, setval_of_present exists']
    refine can_call running (by simp) created rfl ?_
    exact can_call running (by simp) set rfl ⟨⟨_, rfl⟩, rfl, rfl⟩

theorem can_change {call : Call} {f : call.Answer → WorkerProgram α} {post : α → System τ → Prop} {segment : Id}
    {change : SharedMemory → call.Answer × SharedMemory} (changes : call.change = some (some segment, change))
    (attached : Attached w segment s)
    (rest : ∀ answer s', Attached w segment s' → (workerMachine τ).Can w (f answer) post s') :
    (workerMachine τ).Can w (call.make >>= f) post s := by
  obtain ⟨isNotRand, never, determined⟩ := @System.answer_of_change _ _ w s _ _ _ changes
  have answered : s.answer w call = some ((change (s.memory segment)).1,
      s.withMemory segment (change (s.memory segment)).2) := by
    rw [determined]
    exact System.modify_eq_some.mpr ⟨attached.2, rfl, rfl⟩
  exact can_call attached.1 isNotRand answered (never _) (rest _ _ ⟨attached.1, attached.2⟩)

theorem can_clear {segment : Id} (attached : Attached w segment s) :
    (workerMachine τ).Can w (clear (some segment)) (fun _ => Attached w segment) s := by
  refine can_change rfl attached fun _ s₁ attached => can_change rfl attached fun _ s₂ attached => ?_
  refine can_change rfl attached fun _ s₃ attached => can_change rfl attached fun _ s₄ attached => ?_
  refine can_change rfl attached fun _ s₅ attached => can_change rfl attached fun _ s₆ attached => ?_
  refine can_change rfl attached fun _ s₇ attached => can_change rfl attached fun _ s₈ attached => ?_
  refine can_change rfl attached fun _ s₉ attached => can_change rfl attached fun _ s₁₀ attached => ?_
  exact attached

theorem can_initSharedMemory {segment : Id} {keys : Which → Key} {newSems : NewSems}
    (attached : Attached w segment s) :
    (workerMachine τ).Can w (initSharedMemory (some segment) keys newSems) (fun result s' =>
      result.1 = .sharedMemoryInitSuccess ∧ s'.exited w = false) s := by
  have open' : ∀ {key initial newSems} {s₁ : System τ}, Attached w segment s₁ →
      (workerMachine τ).Can w (initSemaphore key initial newSems) (fun result s₂ =>
        (∃ semId, result.1 = some semId) ∧ Attached w segment s₂) s₁ := by
    intro key initial newSems s₁ attached
    refine can_mono (fun result s₂ ⟨success, same, same'⟩ => ⟨success, ?_, ?_⟩) (can_initSemaphore attached.1)
    · rw [same']
      exact attached.1
    · rw [same]
      exact attached.2
  refine can_bind.mpr (can_mono (fun _ s₁ attached => ?_) (can_clear attached))
  refine can_change rfl attached fun _ s₂ attached => can_change rfl attached fun _ s₃ attached => ?_
  refine can_change rfl attached fun _ s₄ attached => can_change rfl attached fun _ s₅ attached => ?_
  refine can_bind.mpr (can_mono ?_ (open' attached))
  rintro ⟨_, newSems₁⟩ s₆ ⟨⟨semId, rfl⟩, attached⟩
  refine can_bind.mpr (can_mono ?_ (open' attached))
  rintro ⟨_, newSems₂⟩ s₇ ⟨⟨semId', rfl⟩, attached⟩
  refine can_bind.mpr (can_mono ?_ (open' attached))
  rintro ⟨_, newSems₃⟩ s₈ ⟨⟨semId'', rfl⟩, attached⟩
  refine can_change rfl attached fun _ s₉ attached => can_change rfl attached fun _ s₁₀ attached => ?_
  exact can_change rfl attached fun _ s₁₁ attached => ⟨rfl, attached.1⟩

theorem can_attachSharedMemory {tieType : TieType} {segment : Id} (running : s.exited w = false)
    (current : s.segment segment.key = some segment.generation) :
    (workerMachine τ).Can w (attachSharedMemory tieType segment false)
      (fun result s' => result = .sharedMemoryInitSuccess ∧ s'.exited w = false) s := by
  have known : System.answer (s.setInfo w tieType { s.info w tieType with sharedMemId := some segment }) w
      (.shmat segment) = some (some segment, System.attach (s.setInfo w tieType
        { s.info w tieType with sharedMemId := some segment }) w segment) := by
    simp only [System.answer, System.shmat]
    exact congrArg some (if_pos (Or.inl current))
  refine can_call running (by simp) rfl rfl (can_call running (by simp) known rfl ?_)
  refine can_call running (by simp) rfl rfl (can_bind.mpr (can_mono ?_ (can_initSharedMemory ⟨running, ?_⟩)))
  · rintro ⟨_, newSems⟩ s' ⟨rfl, running'⟩
    exact ⟨rfl, running'⟩
  · simp [System.attach, System.setInfo]

theorem can_initResourcesImpl {tieType : TieType} (running : s.exited w = false)
    (absent : s.segment (sharedMemoryKey tieType) = none) :
    (workerMachine τ).Can w (initResourcesImpl tieType)
      (fun result s' => result = .sharedMemoryInitSuccess ∧ s'.exited w = false) s := by
  have created : s.answer w (.shmget (sharedMemoryKey tieType) .new) =
      some (.ok ⟨sharedMemoryKey tieType, s.segmentsCreated (sharedMemoryKey tieType)⟩,
        s.withSegment (sharedMemoryKey tieType)) := by
    simp only [System.answer, System.shmget, absent, System.withSegment]
  exact can_call running (by simp) created rfl (can_attachSharedMemory running (Function.update_self ..))

theorem can_initSharedMemoryInfo {tieType : TieType} (running : s.exited w = false)
    (absent : s.segment (sharedMemoryKey tieType) = none) :
    (workerMachine τ).Can w (initSharedMemoryInfo tieType)
      (fun result _ => result = .sharedMemoryInitSuccess) s := by
  refine can_call running (by simp) rfl rfl (can_call running (by simp) rfl rfl ?_)
  refine can_call running (by simp) rfl rfl (can_bind.mpr (can_mono ?_ (can_initResourcesImpl running absent)))
  rintro _ s' ⟨rfl, running'⟩
  exact can_call running' (by simp) rfl rfl rfl

/-- An initialisation that creates the segment, whatever the kernel has of earlier runs and whichever
    calls fail, gives a ring without pins whenever it succeeds exactly when the semaphores that are
    left over have their default values. -/
theorem initialises_ring_iff {tieType : TieType} (running : s.exited w = false)
    (absent : s.segment (sharedMemoryKey tieType) = none) :
    (∀ history s', (workerMachine τ).Runs w (initSharedMemoryInfo tieType) s history
      .sharedMemoryInitSuccess s' → RingInitialised tieType s') ↔ LeftoversAtDefault tieType s := by
  have after := wp_iff_runs.mp (@wp_initSharedMemoryInfo _ _ w _ _ absent)
  constructor
  · intro initialises which semaphore present
    obtain ⟨history, _, s', run, rfl⟩ := exists_run_of_can (can_initSharedMemoryInfo running absent)
    obtain ⟨found, present', value⟩ := (initialises history s' run).semaphores which
    obtain ⟨opened, present'', value'⟩ := (after history _ s' run rfl).2 which
    rw [present', Option.some.injEq] at present''
    rw [← present'', value, openedValue, present] at value'
    exact value'.symm
  · intro leftovers history s' run
    obtain ⟨indices, opened⟩ := after history _ s' run rfl
    refine ⟨indices, fun which => ?_⟩
    obtain ⟨semaphore, present, value⟩ := opened which
    refine ⟨semaphore, present, value.trans ?_⟩
    unfold openedValue
    cases leftover : s.kernel.semaphore (semKey tieType which) with
    | none => rfl
    | some old => exact leftovers which old leftover

def leftoverKernel (freePins : Nat) : Kernel where
  queue _ := none
  queuesCreated _ := 0
  semaphore key :=
    if key = semKey .firstToSecondWorker .bufferAccess then some ⟨0, 1⟩
    else if key = semKey .firstToSecondWorker .addedPins then some ⟨0, 0⟩
    else if key = semKey .firstToSecondWorker .freePins then some ⟨0, freePins⟩
    else none
  semaphoresCreated _ := 1

def withLeftovers (freePins : Nat) : System Unit := { System.initial Unit with kernel := leftoverKernel freePins }

/-- All semaphores are left over with their default values. -/
theorem default_leftovers_initialise_ring :
    (∀ which, ∃ semaphore, (withLeftovers 4).kernel.semaphore (semKey .firstToSecondWorker which) = some semaphore) ∧
      LeftoversAtDefault .firstToSecondWorker (withLeftovers 4) ∧ ∀ history s', (workerMachine Unit).Runs ()
        (initSharedMemoryInfo .firstToSecondWorker) (withLeftovers 4) history .sharedMemoryInitSuccess s' →
          RingInitialised .firstToSecondWorker s' := by
  have atDefault : LeftoversAtDefault .firstToSecondWorker (withLeftovers 4) := by
    intro which semaphore present
    cases which <;> cases present <;> rfl
  refine ⟨fun which => ?_, atDefault, (initialises_ring_iff rfl rfl).mpr atDefault⟩
  cases which <;> exact ⟨_, rfl⟩

/-- A successful initialisation keeps a free-cell count of three. -/
theorem leftover_semaphore_spoils_ring : ¬ ∀ (s s' : System Unit) (history : List (Event Call.Answer)),
    s.exited () = false → s.segment (sharedMemoryKey .firstToSecondWorker) = none →
    (workerMachine Unit).Runs () (initSharedMemoryInfo .firstToSecondWorker) s history
      .sharedMemoryInitSuccess s' → RingInitialised .firstToSecondWorker s' := by
  intro initialises
  let s : System Unit := withLeftovers 3
  have running : s.exited () = false := rfl
  have absent : s.segment (sharedMemoryKey .firstToSecondWorker) = none := rfl
  obtain ⟨history, _, s', run, rfl⟩ := exists_run_of_can (can_initSharedMemoryInfo running absent)
  obtain ⟨semaphore, present, value⟩ := (initialises s s' history running absent run).semaphores .freePins
  obtain ⟨opened, present', value'⟩ := (wp_iff_runs.mp (wp_initSharedMemoryInfo absent) history _ s' run rfl).2 .freePins
  rw [present', Option.some.injEq] at present
  rw [present, value] at value'
  exact absurd value' (by decide)

end ArchCompSystems.OsIhw2.Mark8
