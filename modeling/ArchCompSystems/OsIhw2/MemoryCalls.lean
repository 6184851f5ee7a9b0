import ArchCompSystems.OsIhw2.SharedMemory

namespace ArchCompSystems.OsIhw2.Mark8

open Library Library.Program Library.Machine

def withSemaphore (kernel : Kernel) (key : Key) : Kernel :=
  { kernel with
    semaphore := Function.update kernel.semaphore key (some ⟨kernel.semaphoresCreated key, 0⟩)
    semaphoresCreated := Function.update kernel.semaphoresCreated key (kernel.semaphoresCreated key + 1) }

theorem semget_new_of_absent {kernel : Kernel} {key : Key} (absent : kernel.semaphore key = none) :
    kernel.semget key .newSemaphore = (.ok ⟨key, kernel.semaphoresCreated key⟩, withSemaphore kernel key) := by
  simp only [Kernel.semget, absent, withSemaphore]

theorem semget_new_of_present {kernel : Kernel} {key : Key} {semaphore : Semaphore}
    (present : kernel.semaphore key = some semaphore) :
    kernel.semget key .newSemaphore = (.failed .eexist, kernel) := by
  simp only [Kernel.semget, present]

theorem semget_existing_of_present {kernel : Kernel} {key : Key} {semaphore : Semaphore}
    (present : kernel.semaphore key = some semaphore) :
    kernel.semget key .existingSemaphore = (.ok ⟨key, semaphore.generation⟩, kernel) := by
  simp only [Kernel.semget, present]

theorem find_of_present {kernel : Kernel} {key : Key} {generation value : Nat}
    (present : kernel.semaphore key = some ⟨generation, value⟩) :
    kernel.find ⟨key, generation⟩ = some ⟨generation, value⟩ := by
  simp [Kernel.find, present]

theorem setval_of_present {kernel : Kernel} {key : Key} {generation value new : Nat}
    (present : kernel.semaphore key = some ⟨generation, value⟩) :
    kernel.setval ⟨key, generation⟩ new = (.ok (), kernel.setSemaphore key (some ⟨generation, new⟩)) := by
  simp only [Kernel.setval, find_of_present present]

theorem semget_existing_of_absent {kernel : Kernel} {key : Key} (absent : kernel.semaphore key = none) :
    kernel.semget key .existingSemaphore = (.failed .enoent, kernel) := by
  simp only [Kernel.semget, absent]

variable {τ : Type} [DecidableEq τ] {w : τ} {s s' : System τ} {α : Type}

theorem System.perform_eq_some {call : Call} {answer : call.Answer} (isNotRand : call ≠ .rand) :
    System.perform w call answer s = some s' ↔ s.exited w = false ∧
      (call.failsOutside answer = true ∧ s' = s ∨
        call.failsOutside answer = false ∧ s.answer w call = some (answer, s')) := by
  unfold System.perform
  cases exited : s.exited w with
  | true => simp
  | false =>
    cases fails : call.failsOutside answer with
    | true => simp [eq_comm]
    | false =>
      cases answered : s.answer w call with
      | none => simp [isNotRand]
      | some pair =>
        obtain ⟨given, after⟩ := pair
        simp [isNotRand, eq_comm]

theorem System.perform_of_answer {call : Call} {answer : call.Answer} (isNotRand : call ≠ .rand)
    (never : ∀ answer, call.failsOutside answer = false) :
    System.perform w call answer s = some s' ↔ s.exited w = false ∧ s.answer w call = some (answer, s') := by
  rw [System.perform_eq_some isNotRand, never answer]
  simp

theorem wp_call {call : Call} {f : call.Answer → WorkerProgram α}
    {post : List (Event Call.Answer) → α → System τ → Prop} :
    (workerMachine τ).wp w (call.make >>= f) post s ↔ ∀ answer s', System.perform w call answer s = some s' →
      (workerMachine τ).wp w (f answer) (fun history => post (⟨call, answer⟩ :: history)) s' := Iff.rfl

theorem System.modify_eq_some {β : Type} {segment : Id} {change : SharedMemory → β × SharedMemory} {value : β} :
    s.modify w (some segment) change = some (value, s') ↔ w ∈ s.attachments segment ∧
      value = (change (s.memory segment)).1 ∧
      s' = { s with memory := Function.update s.memory segment (change (s.memory segment)).2 } := by
  simp only [System.modify]
  split
  · rename_i attached
    simp only [attached, Option.some.injEq, Prod.mk.injEq, true_and]
    exact ⟨fun ⟨same, after⟩ => ⟨same.symm, after.symm⟩, fun ⟨same, after⟩ => ⟨same.symm, after.symm⟩⟩
  · rename_i detached
    simp [detached]

theorem System.perform_of_answer_eq {call : Call} {answer given : call.Answer} {after : System τ}
    (isNotRand : call ≠ .rand) (answered : s.answer w call = some (given, after))
    (performed : System.perform w call answer s = some s') :
    call.failsOutside answer = true ∧ s' = s ∨ answer = given ∧ s' = after := by
  obtain ⟨-, ⟨fails, same⟩ | ⟨-, same⟩⟩ := (System.perform_eq_some isNotRand).mp performed
  · exact .inl ⟨fails, same⟩
  · rw [answered, Option.some.injEq, Prod.mk.injEq] at same
    exact .inr ⟨same.1.symm, same.2.symm⟩

theorem System.perform_semget_new {key : Key} {answer : Result Id}
    (performed : System.perform w (.semget key .newSemaphore) answer s = some s') :
    answer = .failed .other ∧ s' = s ∨
      (∃ semaphore, s.kernel.semaphore key = some semaphore) ∧ answer = .failed .eexist ∧ s' = s ∨
      s.kernel.semaphore key = none ∧ answer = .ok ⟨key, s.kernel.semaphoresCreated key⟩ ∧
        s' = { s with kernel := withSemaphore s.kernel key } := by
  cases present : s.kernel.semaphore key with
  | some semaphore =>
    have answered : s.answer w (.semget key .newSemaphore) = some (.failed .eexist, s) := by
      simp only [System.answer, System.withKernel, semget_new_of_present present]
    rcases System.perform_of_answer_eq (by simp) answered performed with ⟨fails, same⟩ | ⟨same, same'⟩
    · exact .inl ⟨of_decide_eq_true fails, same⟩
    · exact .inr (.inl ⟨⟨semaphore, rfl⟩, same, same'⟩)
  | none =>
    have answered : s.answer w (.semget key .newSemaphore) = some
        (.ok ⟨key, s.kernel.semaphoresCreated key⟩, { s with kernel := withSemaphore s.kernel key }) := by
      simp only [System.answer, System.withKernel, semget_new_of_absent present]
    rcases System.perform_of_answer_eq (by simp) answered performed with ⟨fails, same⟩ | ⟨same, same'⟩
    · exact .inl ⟨of_decide_eq_true fails, same⟩
    · exact .inr (.inr ⟨rfl, same, same'⟩)

theorem System.perform_semget_existing {key : Key} {answer : Result Id}
    (performed : System.perform w (.semget key .existingSemaphore) answer s = some s') :
    s' = s ∧ ∀ semId, answer = .ok semId →
      ∃ semaphore, s.kernel.semaphore key = some semaphore ∧ semId = ⟨key, semaphore.generation⟩ := by
  cases present : s.kernel.semaphore key with
  | some semaphore =>
    have answered : s.answer w (.semget key .existingSemaphore) =
        some (.ok ⟨key, semaphore.generation⟩, s) := by
      simp only [System.answer, System.withKernel, semget_existing_of_present present]
    rcases System.perform_of_answer_eq (by simp) answered performed with ⟨fails, same⟩ | ⟨same, same'⟩
    · refine ⟨same, fun semId success => ?_⟩
      rw [of_decide_eq_true fails] at success
      cases success
    · refine ⟨same', fun semId success => ⟨semaphore, rfl, ?_⟩⟩
      rw [same, Result.ok.injEq] at success
      exact success.symm
  | none =>
    have answered : s.answer w (.semget key .existingSemaphore) = some (.failed .enoent, s) := by
      simp only [System.answer, System.withKernel, semget_existing_of_absent present]
    rcases System.perform_of_answer_eq (by simp) answered performed with ⟨fails, same⟩ | ⟨same, same'⟩
    · refine ⟨same, fun semId success => ?_⟩
      rw [of_decide_eq_true fails] at success
      cases success
    · refine ⟨same', fun semId success => ?_⟩
      rw [same] at success
      cases success

theorem System.perform_setval {key : Key} {generation value new : Nat} {answer : Result Unit}
    (present : s.kernel.semaphore key = some ⟨generation, value⟩)
    (performed : System.perform w (.setval ⟨key, generation⟩ new) answer s = some s') :
    answer = .failed .other ∧ s' = s ∨ answer = .ok () ∧
      s' = { s with kernel := s.kernel.setSemaphore key (some ⟨generation, new⟩) } := by
  have answered : s.answer w (.setval ⟨key, generation⟩ new) =
      some (.ok (), { s with kernel := s.kernel.setSemaphore key (some ⟨generation, new⟩) }) := by
    simp only [System.answer, System.withKernel, setval_of_present present]
  exact (System.perform_of_answer_eq (by simp) answered performed).imp_left
    fun ⟨fails, same⟩ => ⟨of_decide_eq_true fails, same⟩

def System.withSegment (s : System τ) (key : Key) : System τ :=
  { s with
    segment := Function.update s.segment key (some (s.segmentsCreated key))
    segmentsCreated := Function.update s.segmentsCreated key (s.segmentsCreated key + 1)
    memory := Function.update s.memory ⟨key, s.segmentsCreated key⟩ zeroMemory
    attachments := Function.update s.attachments ⟨key, s.segmentsCreated key⟩ [] }

theorem System.perform_shmget_new {key : Key} {answer : Result Id}
    (performed : System.perform w (.shmget key .new) answer s = some s') :
    answer = .failed .other ∧ s' = s ∨
      (∃ generation, s.segment key = some generation) ∧ answer = .failed .eexist ∧ s' = s ∨
      s.segment key = none ∧ answer = .ok ⟨key, s.segmentsCreated key⟩ ∧ s' = s.withSegment key := by
  cases present : s.segment key with
  | some generation =>
    have answered : s.answer w (.shmget key .new) = some (.failed .eexist, s) := by
      simp only [System.answer, System.shmget, present]
    rcases System.perform_of_answer_eq (by simp) answered performed with ⟨fails, same⟩ | ⟨same, same'⟩
    · exact .inl ⟨of_decide_eq_true fails, same⟩
    · exact .inr (.inl ⟨⟨generation, rfl⟩, same, same'⟩)
  | none =>
    have answered : s.answer w (.shmget key .new) =
        some (.ok ⟨key, s.segmentsCreated key⟩, s.withSegment key) := by
      simp only [System.answer, System.shmget, present, System.withSegment]
    rcases System.perform_of_answer_eq (by simp) answered performed with ⟨fails, same⟩ | ⟨same, same'⟩
    · exact .inl ⟨of_decide_eq_true fails, same⟩
    · exact .inr (.inr ⟨rfl, same, same'⟩)

theorem System.perform_shmget_existing {key : Key} {answer : Result Id}
    (performed : System.perform w (.shmget key .existing) answer s = some s') :
    s' = s ∧ ∀ segment, answer = .ok segment →
      ∃ generation, s.segment key = some generation ∧ segment = ⟨key, generation⟩ := by
  cases present : s.segment key with
  | some generation =>
    have answered : s.answer w (.shmget key .existing) = some (.ok ⟨key, generation⟩, s) := by
      simp only [System.answer, System.shmget, present]
    rcases System.perform_of_answer_eq (by simp) answered performed with ⟨fails, same⟩ | ⟨same, same'⟩
    · refine ⟨same, fun segment success => ?_⟩
      rw [of_decide_eq_true fails] at success
      cases success
    · refine ⟨same', fun segment success => ⟨generation, rfl, ?_⟩⟩
      rw [same, Result.ok.injEq] at success
      exact success.symm
  | none =>
    have answered : s.answer w (.shmget key .existing) = some (.failed .enoent, s) := by
      simp only [System.answer, System.shmget, present]
    rcases System.perform_of_answer_eq (by simp) answered performed with ⟨fails, same⟩ | ⟨same, same'⟩
    · refine ⟨same, fun segment success => ?_⟩
      rw [of_decide_eq_true fails] at success
      cases success
    · refine ⟨same', fun segment success => ?_⟩
      rw [same] at success
      cases success

def System.attach (s : System τ) (w : τ) (segment : Id) : System τ :=
  { s with attachments := Function.update s.attachments segment (w :: s.attachments segment) }

theorem System.perform_shmat {segment : Id} {answer : Pointer}
    (performed : System.perform w (.shmat segment) answer s = some s') :
    answer = none ∧ s' = s ∨ answer = some segment ∧ s' = s.attach w segment := by
  by_cases exists' : s.segment segment.key = some segment.generation ∨ s.attachments segment ≠ []
  · have answered : s.answer w (.shmat segment) = some (some segment, s.attach w segment) := by
      simp only [System.answer, System.shmat, if_pos exists', System.attach]
    exact (System.perform_of_answer_eq (by simp) answered performed).imp_left
      fun ⟨fails, same⟩ => ⟨of_decide_eq_true fails, same⟩
  · have answered : s.answer w (.shmat segment) = some (none, s) := by
      simp only [System.answer, System.shmat, if_neg exists']
    rcases System.perform_of_answer_eq (by simp) answered performed with ⟨fails, same⟩ | both
    · exact .inl ⟨of_decide_eq_true fails, same⟩
    · exact .inl both

def System.withMemory (s : System τ) (segment : Id) (memory : SharedMemory) : System τ :=
  { s with memory := Function.update s.memory segment memory }

def Call.change : (call : Call) → Option (Pointer × (SharedMemory → call.Answer × SharedMemory))
  | .storePin shMem index pin => some (shMem, fun memory =>
      ((), { memory with buffer := Function.update memory.buffer index pin }))
  | .storeSemId shMem which semId => some (shMem, fun memory =>
      ((), { memory with semId := Function.update memory.semId which semId }))
  | .storeReadIndex shMem index => some (shMem, fun memory => ((), { memory with readIndex := index }))
  | .storeWriteIndex shMem index => some (shMem, fun memory => ((), { memory with writeIndex := index }))
  | .storeRefCounter shMem value =>
    some (shMem, fun memory => ((), { memory with shMemRefCounter := value }))
  | .increaseRefCounter shMem => some (shMem, fun memory =>
      ((), { memory with shMemRefCounter := memory.shMemRefCounter + 1 }))
  | .decreaseRefCounter shMem => some (shMem, fun memory =>
      (memory.shMemRefCounter - 1, { memory with shMemRefCounter := memory.shMemRefCounter - 1 }))
  | _ => none

theorem System.answer_of_change {call : Call} {shMem : Pointer} {change : SharedMemory → call.Answer × SharedMemory}
    (changes : call.change = some (shMem, change)) : call ≠ .rand ∧
      (∀ answer, call.failsOutside answer = false) ∧ s.answer w call = s.modify w shMem change := by
  cases call <;> cases changes <;> exact ⟨by simp, fun _ => rfl, rfl⟩

theorem System.perform_change {call : Call} {answer : call.Answer} {shMem : Pointer}
    {change : SharedMemory → call.Answer × SharedMemory} (changes : call.change = some (shMem, change))
    (performed : System.perform w call answer s = some s') :
    ∃ segment, shMem = some segment ∧ w ∈ s.attachments segment ∧
      answer = (change (s.memory segment)).1 ∧ s' = s.withMemory segment (change (s.memory segment)).2 := by
  obtain ⟨isNotRand, never, determined⟩ := @System.answer_of_change _ _ w s _ _ _ changes
  have answered := ((System.perform_of_answer isNotRand never).mp performed).2
  rw [determined] at answered
  cases shMem with
  | none => cases answered
  | some segment => exact ⟨segment, rfl, System.modify_eq_some.mp answered⟩

end ArchCompSystems.OsIhw2.Mark8
