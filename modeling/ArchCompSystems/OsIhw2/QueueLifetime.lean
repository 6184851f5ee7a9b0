import ArchCompSystems.OsIhw2.ReferenceCount

namespace ArchCompSystems.OsIhw2

open Library Library.Program

/-- What the kernel has for the two keys of a tie. -/
structure Tie where
  queue : Option Nat
  queuesCreated : Nat
  semaphore : Option Semaphore
  semaphoresCreated : Nat

def StageOk (tie : Tie) : Stage → Prop
  | .outside | .undoing => True
  | .opened q | .existing q => q < tie.queuesCreated
  | .joining q s => q < tie.queuesCreated ∧ s < tie.semaphoresCreated
  | .creating q s => q < tie.queuesCreated ∧ tie.queue = some q ∧ tie.semaphore = some ⟨s, 0⟩
  | .working q s | .closing q s =>
    q < tie.queuesCreated ∧ tie.queue = some q ∧ ∃ v, tie.semaphore = some ⟨s, v + 1⟩
  | .left q s => q < tie.queuesCreated ∧ s < tie.semaphoresCreated ∧
      ∀ v, tie.semaphore = some ⟨s, v⟩ → tie.queue = some q
  | .condemning q s => q < tie.queuesCreated ∧ s < tie.semaphoresCreated ∧
      (∀ v, tie.semaphore = some ⟨s, v⟩ → tie.queue = some q ∧ v = 0) ∧
      ∀ semaphore, tie.queue = some q → tie.semaphore = some semaphore → semaphore.generation = s
  | .deleting q => q < tie.queuesCreated ∧ (tie.queue = some q → tie.semaphore = none)
  | .finished used => ∀ q, used = some q → q < tie.queuesCreated

variable {τ : Type} [DecidableEq τ] [Fintype τ]

/-- The semaphore counts the workers that use the queue. -/
structure Counted (tie : Tie) (ms : τ → Stage) : Prop where
  stages : ∀ u, StageOk tie (ms u)
  queueOld : ∀ q, tie.queue = some q → q < tie.queuesCreated
  semaphoreOld : ∀ semaphore, tie.semaphore = some semaphore → semaphore.generation < tie.semaphoresCreated
  alone : ∀ t u q q' s, ms t = .creating q s → (ms u).bound = some (q', s) → u = t
  unused : ∀ t u q s, ms t = .creating q s → (ms u).used ≠ some q
  count : ∀ s v, tie.semaphore = some ⟨s, v⟩ → v = held (Stage.users s) ms
  holder : ∀ s v, tie.semaphore = some ⟨s, v⟩ → ∃ u q, (ms u).bound = some (q, s)
  served : ∀ u q, (ms u).used = some q → tie.queue = some q →
    tie.semaphore ≠ none ∨ ∃ w, (ms w).removing = some q

variable {tie tie' : Tie} {ms : τ → Stage} {t : τ} {stage : Stage}

omit [DecidableEq τ] in
theorem Counted.queue_of_bound (counted : Counted tie ms) {u : τ} {q s v : Nat}
    (isBound : (ms u).bound = some (q, s)) (present : tie.semaphore = some ⟨s, v⟩) : tie.queue = some q := by
  have ok := counted.stages u
  cases known : ms u <;> rw [known] at isBound ok <;> cases isBound
  · exact ok.2.1
  · exact ok.2.1
  · exact ok.2.1
  · exact ok.2.2 v present
  · exact (ok.2.2.1 v present).1

omit [DecidableEq τ] in
theorem Counted.semaphore_eq_none (counted : Counted tie ms) (noQueue : tie.queue = none) :
    tie.semaphore = none := by
  cases present : tie.semaphore with
  | none => rfl
  | some semaphore =>
    obtain ⟨u, q, isBound⟩ := counted.holder semaphore.generation semaphore.value present
    have queue := counted.queue_of_bound isBound present
    rw [noQueue] at queue
    cases queue

omit [DecidableEq τ] in
theorem Counted.queue_lt (counted : Counted tie ms) {u : τ} {q : Nat} (isUsed : (ms u).used = some q) :
    q < tie.queuesCreated := by
  have ok := counted.stages u
  cases known : ms u <;> rw [known] at isUsed ok <;> try cases isUsed
  · exact ok.1
  · exact ok.1
  · exact ok.1
  · exact ok.1
  · exact ok.1
  · exact ok q rfl

omit [DecidableEq τ] in
theorem Counted.semaphore_lt (counted : Counted tie ms) {u : τ} {q s : Nat}
    (isBound : (ms u).bound = some (q, s)) : s < tie.semaphoresCreated := by
  have ok := counted.stages u
  cases known : ms u <;> rw [known] at isBound ok <;> cases isBound
  · exact counted.semaphoreOld _ ok.2.2
  · exact counted.semaphoreOld _ ok.2.2.choose_spec
  · exact counted.semaphoreOld _ ok.2.2.choose_spec
  · exact ok.2.1
  · exact ok.2.1

theorem Counted.move (counted : Counted tie ms) (others : ∀ u, u ≠ t → StageOk tie' (ms u))
    (mine : StageOk tie' stage) (queueOld : ∀ q, tie'.queue = some q → q < tie'.queuesCreated)
    (semaphoreOld : ∀ semaphore, tie'.semaphore = some semaphore →
      semaphore.generation < tie'.semaphoresCreated)
    (creates : ∀ q s, stage = .creating q s → ∀ u, u ≠ t →
      (∀ q', (ms u).bound ≠ some (q', s)) ∧ (ms u).used ≠ some q)
    (joins : ∀ q s, stage.bound = some (q, s) → ∀ u q', u ≠ t → ms u ≠ .creating q' s)
    (uses : ∀ q, stage.used = some q → ∀ u s, u ≠ t → ms u ≠ .creating q s)
    (count : ∀ s v, tie'.semaphore = some ⟨s, v⟩ →
      v + (ms t).users s = held (Stage.users s) ms + stage.users s)
    (holder : ∀ s v, tie'.semaphore = some ⟨s, v⟩ →
      (∃ q, stage.bound = some (q, s)) ∨ ∃ u q, u ≠ t ∧ (ms u).bound = some (q, s))
    (served : ∀ q, tie'.queue = some q → tie'.semaphore = none →
      stage.removing = some q ∨ (∃ u, u ≠ t ∧ (ms u).removing = some q) ∨
        stage.used ≠ some q ∧ ∀ u, u ≠ t → (ms u).used ≠ some q) :
    Counted tie' (Function.update ms t stage) where
  stages := by
    intro u
    by_cases same : u = t
    · subst same
      rwa [Function.update_self]
    · rw [Function.update_of_ne same]
      exact others u same
  queueOld := queueOld
  semaphoreOld := semaphoreOld
  alone := by
    intro v u q q' s isCreating isBound
    by_cases same : v = t
    · subst same
      rw [Function.update_self] at isCreating
      by_contra other
      rw [Function.update_of_ne other] at isBound
      exact (creates q s isCreating u other).1 q' isBound
    · rw [Function.update_of_ne same] at isCreating
      by_cases same' : u = t
      · subst same'
        rw [Function.update_self] at isBound
        exact absurd isCreating (joins q' s isBound v q same)
      · rw [Function.update_of_ne same'] at isBound
        exact counted.alone v u q q' s isCreating isBound
  unused := by
    intro v u q s isCreating
    by_cases same : v = t
    · subst same
      rw [Function.update_self] at isCreating
      by_cases same' : u = v
      · subst same'
        rw [Function.update_self, isCreating]
        simp [Stage.used]
      · rw [Function.update_of_ne same']
        exact (creates q s isCreating u same').2
    · rw [Function.update_of_ne same] at isCreating
      by_cases same' : u = t
      · subst same'
        rw [Function.update_self]
        exact fun isUsed => uses q isUsed v s same isCreating
      · rw [Function.update_of_ne same']
        exact counted.unused v u q s isCreating
  count := by
    intro s v present
    have moved := held_update (Stage.users s) ms t stage
    have now := count s v present
    omega
  holder := by
    intro s v present
    rcases holder s v present with ⟨q, isBound⟩ | ⟨u, q, other, isBound⟩
    · exact ⟨t, q, by rwa [Function.update_self]⟩
    · exact ⟨u, q, by rwa [Function.update_of_ne other]⟩
  served := by
    intro u q isUsed queue
    by_cases present : tie'.semaphore = none
    · rcases served q queue present with mine | ⟨w, other, removing⟩ | ⟨mine, others⟩
      · exact .inr ⟨t, by rwa [Function.update_self]⟩
      · exact .inr ⟨w, by rwa [Function.update_of_ne other]⟩
      · by_cases same : u = t
        · subst same
          rw [Function.update_self] at isUsed
          exact absurd isUsed mine
        · rw [Function.update_of_ne same] at isUsed
          exact absurd isUsed (others u same)
    · exact .inl present

theorem Counted.stay (counted : Counted tie ms) (mine : StageOk tie stage)
    (notCreating : ∀ q s, stage ≠ .creating q s)
    (bound : ∀ q s, stage.bound = some (q, s) → (ms t).bound = some (q, s))
    (used : ∀ q, stage.used = some q → (ms t).used = some q)
    (users : ∀ s, stage.users s = (ms t).users s)
    (holder : ∀ q s v, (ms t).bound = some (q, s) → tie.semaphore = some ⟨s, v⟩ →
      stage.bound = some (q, s) ∨ ∃ u q', u ≠ t ∧ (ms u).bound = some (q', s))
    (removing : ∀ q, (ms t).removing = some q → tie.queue = some q → tie.semaphore = none →
      stage.removing = some q) :
    Counted tie (Function.update ms t stage) := by
  refine counted.move (fun u _ => counted.stages u) mine counted.queueOld counted.semaphoreOld
    (fun q s isCreating => absurd isCreating (notCreating q s)) ?_ ?_ ?_ ?_ ?_
  · intro q s isBound u q' other isCreating
    exact other (counted.alone u t q' q s isCreating (bound q s isBound)).symm
  · intro q isUsed u s _ isCreating
    exact counted.unused u t q s isCreating (used q isUsed)
  · intro s v present
    rw [users, counted.count s v present]
  · intro s v present
    obtain ⟨u, q, isBound⟩ := counted.holder s v present
    by_cases same : u = t
    · subst same
      exact (holder q s v isBound present).imp (fun kept => ⟨q, kept⟩) id
    · exact .inr ⟨u, q, same, isBound⟩
  · intro q queue absent
    by_cases isUsed : ∃ u, (ms u).used = some q
    · obtain ⟨u, isUsed⟩ := isUsed
      obtain ⟨w, isRemoving⟩ := (counted.served u q isUsed queue).resolve_left (fun present => present absent)
      by_cases same : w = t
      · subst same
        exact .inl (removing q isRemoving queue absent)
      · exact .inr (.inl ⟨w, same, isRemoving⟩)
    · exact .inr (.inr ⟨fun mine => isUsed ⟨t, used q mine⟩, fun u _ others => isUsed ⟨u, others⟩⟩)

theorem Counted.finishes (counted : Counted tie ms) {q : Nat} (isUsed : (ms t).used = some q)
    (notUser : ∀ s, (ms t).users s = 0)
    (holder : ∀ q s v, (ms t).bound = some (q, s) → tie.semaphore = some ⟨s, v⟩ →
      ∃ u q', u ≠ t ∧ (ms u).bound = some (q', s))
    (removed : ∀ q, (ms t).removing = some q → tie.queue ≠ some q) :
    Counted tie (Function.update ms t (.finished (some q))) := by
  refine counted.stay ?_ nofun nofun ?_ ?_ ?_ ?_
  · intro q' same
    cases same
    exact counted.queue_lt isUsed
  · intro q' same
    cases same
    exact isUsed
  · intro s
    exact (notUser s).symm
  · intro q' s v isBound present
    exact .inr (holder q' s v isBound present)
  · intro q' isRemoving queue _
    exact absurd queue (removed q' isRemoving)

def Tie.createQueue (tie : Tie) : Tie :=
  { tie with queue := some tie.queuesCreated, queuesCreated := tie.queuesCreated + 1 }

def Tie.createSemaphore (tie : Tie) : Tie :=
  { tie with
    semaphore := some ⟨tie.semaphoresCreated, 0⟩
    semaphoresCreated := tie.semaphoresCreated + 1 }

def Tie.setSemaphore (tie : Tie) (semaphore : Option Semaphore) : Tie := { tie with semaphore := semaphore }

def Tie.removeQueue (tie : Tie) : Tie := { tie with queue := none }

theorem StageOk.createQueue (ok : StageOk tie stage) (noQueue : tie.queue = none)
    (absent : tie.semaphore = none) : StageOk tie.createQueue stage := by
  cases stage with
  | outside => exact ok
  | undoing => exact ok
  | opened q => exact Nat.lt_succ_of_lt ok
  | existing q => exact Nat.lt_succ_of_lt ok
  | joining q s => exact ⟨Nat.lt_succ_of_lt ok.1, ok.2⟩
  | creating q s => simp [StageOk, noQueue] at ok
  | working q s => simp [StageOk, noQueue] at ok
  | closing q s => simp [StageOk, noQueue] at ok
  | left q s =>
    refine ⟨Nat.lt_succ_of_lt ok.1, ok.2.1, fun v present => ?_⟩
    exact absurd (absent.symm.trans present) (by simp)
  | condemning q s =>
    refine ⟨Nat.lt_succ_of_lt ok.1, ok.2.1, fun v present => ?_, fun semaphore _ present => ?_⟩
    · exact absurd (absent.symm.trans present) (by simp)
    · exact absurd (absent.symm.trans present) (by simp)
  | deleting q => exact ⟨Nat.lt_succ_of_lt ok.1, fun _ => absent⟩
  | finished used => exact fun q isUsed => Nat.lt_succ_of_lt (ok q isUsed)

theorem StageOk.createSemaphore {q : Nat} (ok : StageOk tie stage) (queue : tie.queue = some q)
    (absent : tie.semaphore = none) (stays : stage.removing ≠ some q) :
    StageOk tie.createSemaphore stage := by
  cases stage with
  | outside => exact ok
  | undoing => exact ok
  | opened q => exact ok
  | existing q => exact ok
  | joining q s => exact ⟨ok.1, Nat.lt_succ_of_lt ok.2⟩
  | creating q s => simp [StageOk, absent] at ok
  | working q s => simp [StageOk, absent] at ok
  | closing q s => simp [StageOk, absent] at ok
  | left q' s =>
    refine ⟨ok.1, Nat.lt_succ_of_lt ok.2.1, fun v present => ?_⟩
    have old := ok.2.1
    cases present
    omega
  | condemning q' s =>
    have other : tie.queue ≠ some q' := fun same => stays (queue.symm.trans same).symm
    refine ⟨ok.1, Nat.lt_succ_of_lt ok.2.1, fun v present => ?_, fun _ same => absurd same other⟩
    have old := ok.2.1
    cases present
    omega
  | deleting q' =>
    have other : tie.queue ≠ some q' := fun same => stays (queue.symm.trans same).symm
    exact ⟨ok.1, fun same => absurd same other⟩
  | finished used => exact ok

theorem StageOk.setValue {s v w : Nat} (ok : StageOk tie stage) (present : tie.semaphore = some ⟨s, v⟩)
    (notCreating : ∀ q, stage ≠ .creating q s) (users : 0 < stage.users s → 0 < w)
    (condemned : ∀ q, stage = .condemning q s → w = 0) :
    StageOk (tie.setSemaphore (some ⟨s, w⟩)) stage := by
  cases stage with
  | outside => exact ok
  | undoing => exact ok
  | opened q => exact ok
  | existing q => exact ok
  | joining q s => exact ok
  | creating q s' =>
    obtain ⟨old, queue, same⟩ := ok
    cases present.symm.trans same
    exact absurd rfl (notCreating q)
  | working q s' | closing q s' =>
    obtain ⟨old, queue, v', same⟩ := ok
    cases present.symm.trans same
    have positive := users (by simp [Stage.users])
    exact ⟨old, queue, w - 1, by simp only [Tie.setSemaphore, Nat.sub_add_cancel positive]⟩
  | left q s' =>
    refine ⟨ok.1, ok.2.1, fun v' same => ?_⟩
    cases same
    exact ok.2.2 v present
  | condemning q s' =>
    refine ⟨ok.1, ok.2.1, fun v' same => ?_, fun semaphore queue same => ?_⟩
    · cases same
      exact ⟨(ok.2.2.1 v present).1, condemned q rfl⟩
    · cases same
      exact ok.2.2.2 ⟨s, v⟩ queue present
  | deleting q =>
    refine ⟨ok.1, fun queue => ?_⟩
    cases present.symm.trans (ok.2 queue)
  | finished used => exact ok

theorem StageOk.removeSemaphore {s : Nat} (ok : StageOk tie stage) (present : tie.semaphore = some ⟨s, 0⟩)
    (notCreating : ∀ q, stage ≠ .creating q s) : StageOk (tie.setSemaphore none) stage := by
  cases stage with
  | outside => exact ok
  | undoing => exact ok
  | opened q => exact ok
  | existing q => exact ok
  | joining q s => exact ok
  | creating q s' =>
    obtain ⟨old, queue, same⟩ := ok
    cases present.symm.trans same
    exact absurd rfl (notCreating q)
  | working q s' | closing q s' =>
    obtain ⟨old, queue, v', same⟩ := ok
    cases present.symm.trans same
  | left q s' => exact ⟨ok.1, ok.2.1, nofun⟩
  | condemning q s' => exact ⟨ok.1, ok.2.1, nofun, nofun⟩
  | deleting q => exact ⟨ok.1, fun _ => rfl⟩
  | finished used => exact ok

theorem StageOk.removeQueue (ok : StageOk tie stage) (absent : tie.semaphore = none) :
    StageOk tie.removeQueue stage := by
  cases stage with
  | outside => exact ok
  | undoing => exact ok
  | opened q => exact ok
  | existing q => exact ok
  | joining q s => exact ok
  | creating q s => simp [StageOk, absent] at ok
  | working q s => simp [StageOk, absent] at ok
  | closing q s => simp [StageOk, absent] at ok
  | left q s => exact ⟨ok.1, ok.2.1, fun v present => absurd (absent.symm.trans present) (by simp)⟩
  | condemning q s =>
    refine ⟨ok.1, ok.2.1, fun v present => ?_, fun _ same => by cases same⟩
    exact absurd (absent.symm.trans present) (by simp)
  | deleting q => exact ⟨ok.1, fun _ => absent⟩
  | finished used => exact ok

omit [DecidableEq τ] [Fintype τ] in
theorem StageOk.semaphore_of_users {s : Nat} (ok : StageOk tie stage) (isUser : 0 < stage.users s) :
    ∃ v, tie.semaphore = some ⟨s, v + 1⟩ := by
  cases stage with
  | working q s' | closing q s' =>
    simp only [Stage.users] at isUser
    split at isUser
    · rename_i same
      exact same ▸ ok.2.2
    · exact absurd isUser (Nat.lt_irrefl 0)
  | _ => exact absurd isUser (Nat.lt_irrefl 0)

theorem Counted.creates_queue (counted : Counted tie ms) (noQueue : tie.queue = none) :
    Counted tie.createQueue (Function.update ms t (.opened tie.queuesCreated)) := by
  have absent := counted.semaphore_eq_none noQueue
  refine counted.move (fun u _ => (counted.stages u).createQueue noQueue absent) (Nat.lt_succ_self _) ?_
    counted.semaphoreOld nofun nofun nofun ?_ ?_ ?_
  · intro q created
    cases created
    exact Nat.lt_succ_self _
  · intro s v present
    exact absurd (absent.symm.trans present) (by simp)
  · intro s v present
    exact absurd (absent.symm.trans present) (by simp)
  · intro q created _
    cases created
    refine .inr (.inr ⟨nofun, fun u _ isUsed => ?_⟩)
    have old := counted.queue_lt isUsed
    omega

theorem Counted.creates_semaphore (counted : Counted tie ms) {q : Nat} (here : ms t = .opened q)
    (absent : tie.semaphore = none) (queue : tie.queue = some q)
    (stays : ∀ u, (ms u).removing ≠ some q) :
    Counted tie.createSemaphore (Function.update ms t (.creating q tie.semaphoresCreated)) := by
  have nobody : ∀ u, (ms u).used ≠ some q := fun u isUsed => by
    rcases counted.served u q isUsed queue with present | ⟨w, isRemoving⟩
    · exact present absent
    · exact stays w isRemoving
  have fresh : ∀ u q', (ms u).bound ≠ some (q', tie.semaphoresCreated) := fun u q' isBound => by
    have old := counted.semaphore_lt isBound
    omega
  refine counted.move (fun u _ => (counted.stages u).createSemaphore queue absent (stays u))
    ⟨counted.queueOld q queue, queue, rfl⟩ counted.queueOld ?_ ?_ ?_ nofun ?_ ?_ nofun
  · intro semaphore created
    cases created
    exact Nat.lt_succ_self _
  · intro q' s isCreating u _
    cases isCreating
    exact ⟨fresh u, nobody u⟩
  · intro q' s isBound u q'' _ isCreating
    have ok := counted.stages u
    rw [isCreating] at ok
    exact absurd (absent.symm.trans ok.2.2) (by simp)
  · intro s v created
    cases created
    have none : held (Stage.users tie.semaphoresCreated) ms = 0 := held_eq_zero fun u => by
      by_contra isUser
      obtain ⟨v, present⟩ := (counted.stages u).semaphore_of_users (Nat.pos_of_ne_zero isUser)
      exact absurd (absent.symm.trans present) (by simp)
    rw [none, here]
    rfl
  · intro s v created
    cases created
    exact .inl ⟨q, rfl⟩

theorem Counted.initialises (counted : Counted tie ms) {q s : Nat} (here : ms t = .creating q s) :
    Counted (tie.setSemaphore (some ⟨s, 1⟩)) (Function.update ms t (.working q s)) := by
  have ok := counted.stages t
  rw [here] at ok
  obtain ⟨old, queue, present⟩ := ok
  have others : ∀ u q', u ≠ t → (ms u).bound ≠ some (q', s) := fun u q' other isBound =>
    other (counted.alone t u q q' s here isBound)
  refine counted.move (fun u other => (counted.stages u).setValue present ?_ (fun _ => Nat.one_pos) ?_)
    ⟨old, queue, 0, rfl⟩ counted.queueOld ?_ nofun ?_ ?_ ?_ ?_ nofun
  · intro q' isCreating
    exact others u q' other (by rw [isCreating]; rfl)
  · intro q' isCondemning
    exact absurd (show (ms u).bound = some (q', s) by rw [isCondemning]; rfl) (others u q' other)
  · intro semaphore created
    cases created
    exact counted.semaphoreOld ⟨s, 0⟩ present
  · intro q' s' isBound u q'' other isCreating
    cases isBound
    exact others u q'' other (by rw [isCreating]; rfl)
  · intro q' isUsed u s' other isCreating
    have ok := counted.stages u
    rw [isCreating] at ok
    cases present.symm.trans ok.2.2
    exact others u q' other (by rw [isCreating]; rfl)
  · intro s' v created
    cases created
    rw [← counted.count s 0 present, here]
    simp [Stage.users]
  · intro s' v created
    cases created
    exact .inl ⟨q, rfl⟩

theorem Counted.joins (counted : Counted tie ms) {q s v : Nat} (here : ms t = .joining q s)
    (present : tie.semaphore = some ⟨s, v⟩) (queue : tie.queue = some q)
    (initialised : ∀ u q', ms u ≠ .creating q' s) (stays : ∀ u, (ms u).removing ≠ some q) :
    Counted (tie.setSemaphore (some ⟨s, v + 1⟩)) (Function.update ms t (.working q s)) := by
  refine counted.move (fun u _ => (counted.stages u).setValue present (initialised u)
      (fun _ => Nat.succ_pos v) ?_) ⟨counted.queueOld q queue, queue, v, rfl⟩ counted.queueOld ?_ nofun ?_ ?_ ?_ ?_ nofun
  · intro q' isCondemning
    have same := counted.queue_of_bound (show (ms u).bound = some (q', s) by rw [isCondemning]; rfl) present
    refine absurd ?_ (stays u)
    rw [isCondemning, ← queue, same]
    rfl
  · intro semaphore created
    cases created
    exact counted.semaphoreOld ⟨s, v⟩ present
  · intro q' s' isBound u q'' _
    cases isBound
    exact initialised u q''
  · intro q' isUsed u s' _ isCreating
    have ok := counted.stages u
    rw [isCreating] at ok
    cases present.symm.trans ok.2.2
    exact initialised u q' isCreating
  · intro s' v' created
    cases created
    have before := counted.count s v present
    rw [here, ← before]
    simp [Stage.users]
  · intro s' v' created
    cases created
    exact .inl ⟨q, rfl⟩

theorem Counted.leaves (counted : Counted tie ms) {q s v : Nat} (here : ms t = .closing q s)
    (present : tie.semaphore = some ⟨s, v + 1⟩) :
    Counted (tie.setSemaphore (some ⟨s, v⟩)) (Function.update ms t (.left q s)) := by
  have isBound : (ms t).bound = some (q, s) := by rw [here]; rfl
  have queue := counted.queue_of_bound isBound present
  have notCreating : ∀ u q', ms u ≠ .creating q' s := fun u q' isCreating => by
    have ok := counted.stages u
    rw [isCreating] at ok
    cases present.symm.trans ok.2.2
  have before := counted.count s (v + 1) present
  refine counted.move (fun u other => (counted.stages u).setValue present (notCreating u) ?_ ?_)
    ⟨counted.queueOld q queue, counted.semaphoreOld ⟨s, v + 1⟩ present, fun _ _ => queue⟩ counted.queueOld ?_ nofun
    ?_ ?_ ?_ ?_ nofun
  · intro isUser
    have both := add_le_held (Stage.users s) ms other
    have mine : Stage.users s (.closing q s) = 1 := if_pos rfl
    rw [here, mine] at both
    omega
  · intro q' isCondemning
    have ok := counted.stages u
    rw [isCondemning] at ok
    exact absurd (ok.2.2.1 _ present).2 (Nat.succ_ne_zero v)
  · intro semaphore created
    cases created
    exact counted.semaphoreOld ⟨s, v + 1⟩ present
  · intro q' s' isBound u q'' _
    cases isBound
    exact notCreating u q''
  · intro q' isUsed u s' _ isCreating
    have ok := counted.stages u
    rw [isCreating] at ok
    cases present.symm.trans ok.2.2
  · intro s' v' created
    cases created
    rw [here, ← before]
    simp [Stage.users]
  · intro s' v' created
    cases created
    exact .inl ⟨q, rfl⟩

theorem Counted.removes_semaphore (counted : Counted tie ms) {q s v : Nat} (here : ms t = .condemning q s)
    (present : tie.semaphore = some ⟨s, v⟩) :
    Counted (tie.setSemaphore none) (Function.update ms t (.deleting q)) := by
  have isBound : (ms t).bound = some (q, s) := by rw [here]; rfl
  have ok := counted.stages t
  rw [here] at ok
  obtain ⟨queue, rfl⟩ := ok.2.2.1 v present
  have notCreating : ∀ u q', ms u ≠ .creating q' s := fun u q' isCreating => by
    have same := counted.alone u t q' q s isCreating isBound
    rw [same, isCreating] at here
    cases here
  refine counted.move (fun u _ => (counted.stages u).removeSemaphore present (notCreating u))
    ⟨ok.1, fun _ => rfl⟩ counted.queueOld nofun nofun nofun ?_ nofun nofun ?_
  · intro q' _ u s' _ isCreating
    have ok := counted.stages u
    rw [isCreating] at ok
    cases present.symm.trans ok.2.2
    exact notCreating u q' isCreating
  · intro q' queue' _
    exact .inl (queue.symm.trans queue')

theorem Counted.removes_queue (counted : Counted tie ms) {q : Nat} (here : ms t = .deleting q)
    (queue : tie.queue = some q) :
    Counted tie.removeQueue (Function.update ms t (.finished (some q))) := by
  have ok := counted.stages t
  rw [here] at ok
  have absent := ok.2 queue
  have notCreating : ∀ u q' s, ms u ≠ .creating q' s := fun u q' s isCreating => by
    have ok := counted.stages u
    rw [isCreating] at ok
    cases absent.symm.trans ok.2.2
  refine counted.move (fun u _ => (counted.stages u).removeQueue absent) ?_ nofun counted.semaphoreOld nofun nofun
    (fun q' _ u s _ => notCreating u q' s) ?_ ?_ nofun
  · intro q' same
    cases same
    exact ok.1
  · intro s v present
    cases absent.symm.trans present
  · intro s v present
    cases absent.symm.trans present

end ArchCompSystems.OsIhw2
