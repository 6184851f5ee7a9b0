import ArchCompSystems.OsIhw2.QueueLifetime

namespace ArchCompSystems.OsIhw2

open Library Library.Program

def Kernel.tie (s : Kernel) (tieType : TieType) : Tie :=
  ⟨s.queue (queueKey tieType), s.queuesCreated (queueKey tieType), s.semaphore (refCntSemKey tieType),
    s.semaphoresCreated (refCntSemKey tieType)⟩

section

variable {τ : Type} [DecidableEq τ] [Fintype τ] {s s' : Kernel} {tieType : TieType} {ms : τ → Stage} {t : τ}

omit [DecidableEq τ] [Fintype τ] in
theorem performResource_eq_some {call : ResourceCall} {answer : call.Answer} :
    performResource t call answer s = some s' ↔ s.answer call = some (answer, s') := by
  unfold performResource
  split
  · rename_i given s'' answered
    rw [answered]
    constructor
    · intro performed
      obtain ⟨rfl, same⟩ := Option.ite_none_right_eq_some.mp performed
      cases same
      rfl
    · intro same
      cases same
      exact if_pos rfl
  · rename_i waits
    simp [waits]

theorem Kernel.find_eq_some {semaphore : Semaphore} {g : Nat} :
    s.find ⟨refCntSemKey tieType, g⟩ = some semaphore ↔
      (s.tie tieType).semaphore = some semaphore ∧ semaphore.generation = g := by
  simp [Kernel.find, Kernel.tie, Option.filter_eq_some_iff]

theorem Kernel.find_eq_none {g : Nat} : s.find ⟨refCntSemKey tieType, g⟩ = none ↔
    ∀ semaphore, (s.tie tieType).semaphore = some semaphore → semaphore.generation ≠ g := by
  simp [Kernel.find, Kernel.tie, Option.filter_eq_none_iff]

@[simp] theorem Kernel.tie_setSemaphore {semaphore : Option Semaphore} :
    (s.setSemaphore (refCntSemKey tieType) semaphore).tie tieType = (s.tie tieType).setSemaphore semaphore := by
  simp [Kernel.tie, Kernel.setSemaphore, Tie.setSemaphore]

/-- A worker that sets out to use the queue finds it in place: nobody is about to remove it, and
    the semaphore that it adds to has its first value. -/
def Undisturbed (tie : Tie) (ms : τ → Stage) : Stage → Prop
  | .opened q => tie.semaphore = none → tie.queue = some q ∧ ∀ u, (ms u).removing ≠ some q
  | .joining q g => tie.semaphore.map Semaphore.generation = some g →
      tie.queue = some q ∧ (∀ u, (ms u).removing ≠ some q) ∧ ∀ u, (ms u).initialising ≠ some g
  | _ => True

instance {tie : Tie} : ∀ stage, Decidable (Undisturbed tie ms stage)
  | .opened _ | .joining _ _ => inferInstanceAs (Decidable (_ → _))
  | .outside | .existing _ | .creating _ _ | .undoing | .working _ _ | .closing _ _ | .left _ _
  | .condemning _ _ | .deleting _ | .finished _ => inferInstanceAs (Decidable True)

def Steps (tieType : TieType) (ms : τ → Stage) (t : τ) (stage : Stage) (call : ResourceCall)
    (answer : call.Answer) (s' : Kernel) : Prop :=
  Stage.possible tieType stage call answer ∧
    Counted (s'.tie tieType) (Function.update ms t (Stage.after stage call answer))

theorem Counted.msgget {answer : Result Id} (counted : Counted (s.tie tieType) ms) (here : ms t = .outside)
    (answered : s.msgget (queueKey tieType) = (answer, s')) :
    Steps tieType ms t .outside (.msgget (queueKey tieType)) answer s' := by
  unfold Kernel.msgget at answered
  split at answered
  · rename_i q queue
    cases answered
    have old := counted.queueOld q queue
    refine ⟨⟨q, rfl⟩, ?_⟩
    show Counted (s.tie tieType) (Function.update ms t (.opened q))
    refine counted.stay old nofun nofun nofun ?_ ?_ ?_
    all_goals simp [here, Stage.users, Stage.bound, Stage.removing]
  · rename_i noQueue
    cases answered
    refine ⟨⟨s.queuesCreated (queueKey tieType), rfl⟩, ?_⟩
    have created := counted.creates_queue (t := t) noQueue
    show Counted _ (Function.update ms t (.opened (s.queuesCreated (queueKey tieType))))
    simpa [Kernel.tie, Tie.createQueue] using created

theorem Counted.semget_new {answer : Result Id} {q : Nat} (counted : Counted (s.tie tieType) ms)
    (here : ms t = .opened q) (undisturbed : Undisturbed (s.tie tieType) ms (.opened q))
    (answered : s.semget (refCntSemKey tieType) .newSemaphore = (answer, s')) :
    Steps tieType ms t (.opened q) (.semget (refCntSemKey tieType) .newSemaphore) answer s' := by
  simp only [Kernel.semget] at answered
  split at answered
  · rename_i semaphore present
    cases answered
    have ok := counted.stages t
    rw [here] at ok
    refine ⟨.inr rfl, ?_⟩
    show Counted (s.tie tieType) (Function.update ms t (.existing q))
    refine counted.stay ok nofun nofun nofun ?_ ?_ ?_
    all_goals simp [here, Stage.users, Stage.bound, Stage.removing]
  · rename_i absent
    cases answered
    obtain ⟨queue, stays⟩ := undisturbed absent
    refine ⟨.inl ⟨s.semaphoresCreated (refCntSemKey tieType), rfl⟩, ?_⟩
    have created := counted.creates_semaphore here absent queue stays
    show Counted _ (Function.update ms t (.creating q (s.semaphoresCreated (refCntSemKey tieType))))
    simpa [Kernel.tie, Tie.createSemaphore] using created

theorem Counted.semget_existing {answer : Result Id} {q : Nat} (counted : Counted (s.tie tieType) ms)
    (here : ms t = .existing q)
    (answered : s.semget (refCntSemKey tieType) .existingSemaphore = (answer, s')) :
    Steps tieType ms t (.existing q) (.semget (refCntSemKey tieType) .existingSemaphore) answer s' := by
  simp only [Kernel.semget] at answered
  have ok := counted.stages t
  rw [here] at ok
  split at answered
  · rename_i semaphore present
    cases answered
    have old := counted.semaphoreOld semaphore present
    refine ⟨.inl ⟨semaphore.generation, rfl⟩, ?_⟩
    show Counted (s.tie tieType) (Function.update ms t (.joining q semaphore.generation))
    refine counted.stay ⟨ok, old⟩ ?_ ?_ ?_ ?_ ?_ ?_
    all_goals simp [here, Stage.users, Stage.bound, Stage.used, Stage.removing]
  · cases answered
    refine ⟨.inr rfl, ?_⟩
    show Counted (s.tie tieType) (Function.update ms t (.finished none))
    refine counted.stay (by rintro _ ⟨⟩) ?_ ?_ ?_ ?_ ?_ ?_
    all_goals simp [here, Stage.users, Stage.bound, Stage.used, Stage.removing]

theorem Counted.semop_increase {answer : Result Unit} {q g : Nat} (counted : Counted (s.tie tieType) ms)
    (here : ms t = .joining q g) (undisturbed : Undisturbed (s.tie tieType) ms (.joining q g))
    (answered : s.semop ⟨refCntSemKey tieType, g⟩ 1 false = some (answer, s')) :
    Steps tieType ms t (.joining q g) (.semop ⟨refCntSemKey tieType, g⟩ 1 false) answer s' := by
  simp only [Kernel.semop] at answered
  split at answered
  · rename_i semaphore found
    obtain ⟨present, rfl⟩ := Kernel.find_eq_some.mp found
    rw [if_pos (by omega)] at answered
    cases answered
    obtain ⟨queue, stays, initialised⟩ := undisturbed (Option.map_eq_some_iff.mpr ⟨semaphore, present, rfl⟩)
    refine ⟨True.intro, ?_⟩
    rw [Kernel.tie_setSemaphore]
    refine counted.joins here present queue (fun u q' isCreating => initialised u ?_) stays
    rw [isCreating]
    rfl
  · cases answered
    refine ⟨True.intro, ?_⟩
    show Counted (s.tie tieType) (Function.update ms t (.finished none))
    refine counted.stay nofun nofun nofun nofun ?_ ?_ ?_
    all_goals simp [here, Stage.users, Stage.bound, Stage.removing]

theorem Counted.setval {answer : Result Unit} {q g : Nat} (counted : Counted (s.tie tieType) ms)
    (here : ms t = .creating q g)
    (answered : s.setval ⟨refCntSemKey tieType, g⟩ refCntSemDefaultValue = (answer, s')) :
    Steps tieType ms t (.creating q g) (.setval ⟨refCntSemKey tieType, g⟩ refCntSemDefaultValue) answer s' := by
  have ok := counted.stages t
  rw [here] at ok
  have found := Kernel.find_eq_some.mpr ⟨ok.2.2, rfl⟩
  simp only [Kernel.setval, found] at answered
  cases answered
  refine ⟨rfl, ?_⟩
  rw [Kernel.tie_setSemaphore]
  exact counted.initialises here

theorem Counted.run {q g : Nat} (counted : Counted (s.tie tieType) ms) (here : ms t = .working q g) :
    Steps tieType ms t (.working q g) (.run ⟨queueKey tieType, q⟩) () s := by
  have ok := counted.stages t
  rw [here] at ok
  refine ⟨True.intro, ?_⟩
  show Counted (s.tie tieType) (Function.update ms t (.closing q g))
  refine counted.stay ok nofun ?_ ?_ ?_ ?_ ?_
  all_goals simp +contextual [here, Stage.users, Stage.bound, Stage.removing, Stage.used]

theorem Counted.semop_decrease {answer : Result Unit} {q g : Nat} (counted : Counted (s.tie tieType) ms)
    (here : ms t = .closing q g)
    (answered : s.semop ⟨refCntSemKey tieType, g⟩ (-1) true = some (answer, s')) :
    Steps tieType ms t (.closing q g) (.semop ⟨refCntSemKey tieType, g⟩ (-1) true) answer s' := by
  have ok := counted.stages t
  rw [here] at ok
  obtain ⟨-, -, v, present⟩ := ok
  have found := Kernel.find_eq_some.mpr ⟨present, rfl⟩
  simp only [Kernel.semop, found] at answered
  rw [if_pos (by omega)] at answered
  cases answered
  refine ⟨rfl, ?_⟩
  have lower : (((v + 1 : Nat) : Int) + -1).toNat = v := by omega
  rw [Kernel.tie_setSemaphore, lower]
  exact counted.leaves here present

theorem Counted.other_user {tie : Tie} {g v : Nat} (counted : Counted tie ms)
    (present : tie.semaphore = some ⟨g, v + 1⟩) (mine : (ms t).users g = 0) :
    ∃ u q, u ≠ t ∧ (ms u).bound = some (q, g) := by
  by_contra nobody
  have none : held (Stage.users g) ms = 0 := held_eq_zero fun u => by
    by_cases same : u = t
    · exact same ▸ mine
    · cases known : ms u with
      | working q s | closing q s =>
        refine if_neg fun isHere => nobody ⟨u, q, same, ?_⟩
        rw [known, isHere]
        rfl
      | _ => rfl
  have count := counted.count g (v + 1) present
  omega

theorem Counted.getval {answer : Result Nat} {q g : Nat} (counted : Counted (s.tie tieType) ms)
    (here : ms t = .left q g) (answered : s.getval ⟨refCntSemKey tieType, g⟩ = answer) :
    Steps tieType ms t (.left q g) (.getval ⟨refCntSemKey tieType, g⟩) answer s := by
  have ok := counted.stages t
  rw [here] at ok
  obtain ⟨old, semaphoreOld, queue⟩ := ok
  refine ⟨True.intro, ?_⟩
  simp only [Kernel.getval] at answered
  split at answered
  · rename_i semaphore found
    obtain ⟨present, rfl⟩ := Kernel.find_eq_some.mp found
    cases empty : semaphore.value with
    | zero =>
      rw [empty] at answered
      subst answered
      have zero : (s.tie tieType).semaphore = some ⟨semaphore.generation, 0⟩ := empty ▸ present
      show Counted (s.tie tieType) (Function.update ms t (.condemning q semaphore.generation))
      refine counted.stay ⟨old, semaphoreOld, fun v same => ?_, fun other _ same => ?_⟩ nofun ?_ ?_ ?_ ?_ ?_
      · cases zero.symm.trans same
        exact ⟨queue 0 zero, rfl⟩
      · cases present.symm.trans same
        rfl
      all_goals simp +contextual [here, Stage.users, Stage.bound, Stage.removing, Stage.used]
    | succ v =>
      rw [empty] at answered
      subst answered
      have positive : (s.tie tieType).semaphore = some ⟨semaphore.generation, v + 1⟩ := empty ▸ present
      refine counted.finishes (by rw [here]; rfl) (by simp [here, Stage.users]) ?_ (by simp [here, Stage.removing])
      intro q' g' v' isBound _
      rw [here] at isBound
      cases isBound
      exact counted.other_user positive (by rw [here]; rfl)
  · rename_i missing
    subst answered
    refine counted.finishes (by rw [here]; rfl) (by simp [here, Stage.users]) ?_ (by simp [here, Stage.removing])
    intro q' g' v' isBound present
    rw [here] at isBound
    cases isBound
    exact absurd rfl (Kernel.find_eq_none.mp missing _ present)

theorem Counted.remove_semaphore {answer : Result Unit} {q g : Nat} (counted : Counted (s.tie tieType) ms)
    (here : ms t = .condemning q g)
    (answered : s.removeSemaphore ⟨refCntSemKey tieType, g⟩ = (answer, s')) :
    Steps tieType ms t (.condemning q g) (.removeSemaphore ⟨refCntSemKey tieType, g⟩) answer s' := by
  have ok := counted.stages t
  rw [here] at ok
  refine ⟨True.intro, ?_⟩
  simp only [Kernel.removeSemaphore] at answered
  split at answered
  · rename_i semaphore found
    obtain ⟨present, rfl⟩ := Kernel.find_eq_some.mp found
    cases answered
    rw [Kernel.tie_setSemaphore]
    exact counted.removes_semaphore here present
  · rename_i missing
    cases answered
    have gone := Kernel.find_eq_none.mp missing
    have mine : StageOk (s.tie tieType) (.deleting q) := by
      refine ⟨ok.1, fun queue => ?_⟩
      cases present : (s.tie tieType).semaphore with
      | none => rfl
      | some semaphore => exact absurd (ok.2.2.2 semaphore queue present) (gone semaphore present)
    show Counted (s.tie tieType) (Function.update ms t (.deleting q))
    refine counted.stay mine nofun nofun (by simp [here, Stage.used]) (by simp [here, Stage.users]) ?_
      (by simp [here, Stage.removing])
    intro q' g' v' isBound present
    rw [here] at isBound
    cases isBound
    exact absurd rfl (gone _ present)

theorem Counted.remove_queue {answer : Result Unit} {q : Nat} (counted : Counted (s.tie tieType) ms)
    (here : ms t = .deleting q) (answered : s.removeQueue ⟨queueKey tieType, q⟩ = (answer, s')) :
    Steps tieType ms t (.deleting q) (.removeQueue ⟨queueKey tieType, q⟩) answer s' := by
  have ok := counted.stages t
  rw [here] at ok
  refine ⟨True.intro, ?_⟩
  simp only [Kernel.removeQueue] at answered
  split at answered
  · rename_i queue
    cases answered
    have removed := counted.removes_queue here queue
    show Counted _ (Function.update ms t (.finished (some q)))
    simpa [Kernel.tie, Tie.removeQueue] using removed
  · rename_i other
    cases answered
    refine counted.finishes (by rw [here]; rfl) (by simp [here, Stage.users]) (by simp [here, Stage.bound]) ?_
    intro q' isRemoving
    rw [here] at isRemoving
    cases isRemoving
    exact other

theorem Counted.perform {call : ResourceCall} {answer : call.Answer} (counted : Counted (s.tie tieType) ms)
    (undisturbed : Undisturbed (s.tie tieType) ms (ms t)) (allowed : Stage.allowed tieType (ms t) call)
    (performed : performResource t call answer s = some s') :
    Steps tieType ms t (ms t) call answer s' := by
  have answered := performResource_eq_some.mp performed
  cases here : ms t with
  | outside =>
    rw [here] at allowed
    cases call <;> try exact allowed.elim
    obtain rfl := allowed
    exact counted.msgget here (Option.some.inj answered)
  | opened q =>
    rw [here] at allowed undisturbed
    cases call with
    | semget key flags =>
      cases flags
      · obtain rfl := allowed
        exact counted.semget_new here undisturbed (Option.some.inj answered)
      · exact allowed.elim
    | _ => exact allowed.elim
  | existing q =>
    rw [here] at allowed
    cases call with
    | semget key flags =>
      cases flags
      · exact allowed.elim
      · obtain rfl := allowed
        exact counted.semget_existing here (Option.some.inj answered)
    | _ => exact allowed.elim
  | joining q g =>
    rw [here] at allowed undisturbed
    cases call <;> try exact allowed.elim
    obtain ⟨rfl, rfl, rfl⟩ := allowed
    exact counted.semop_increase here undisturbed answered
  | creating q g =>
    rw [here] at allowed
    cases call <;> try exact allowed.elim
    obtain ⟨rfl, rfl⟩ := allowed
    exact counted.setval here (Option.some.inj answered)
  | working q g =>
    rw [here] at allowed
    cases call <;> try exact allowed.elim
    obtain rfl := allowed
    cases answered
    exact counted.run here
  | closing q g =>
    rw [here] at allowed
    cases call <;> try exact allowed.elim
    obtain ⟨rfl, rfl, rfl⟩ := allowed
    exact counted.semop_decrease here answered
  | left q g =>
    rw [here] at allowed
    cases call <;> try exact allowed.elim
    obtain rfl := allowed
    cases answered
    exact counted.getval here rfl
  | condemning q g =>
    rw [here] at allowed
    cases call <;> try exact allowed.elim
    obtain rfl := allowed
    exact counted.remove_semaphore here (Option.some.inj answered)
  | deleting q =>
    rw [here] at allowed
    cases call <;> try exact allowed.elim
    obtain rfl := allowed
    exact counted.remove_queue here (Option.some.inj answered)
  | undoing =>
    rw [here] at allowed
    cases call <;> exact allowed.elim
  | finished q =>
    rw [here] at allowed
    cases call <;> exact allowed.elim

end

section

variable {τ : Type} [DecidableEq τ] {tieType : TieType}

abbrev Workers (τ : Type) := Pool τ ResourceCall ResourceCall.Answer Kernel

def stages (tieType : TieType) (pool : Workers τ) : τ → Stage :=
  pool.monitored (fun _ => Stage.monitor tieType) fun _ => .outside

/-- The step of a worker is not disturbed. -/
def Orderly (tieType : TieType) (pool : Workers τ) : Action τ ResourceCall ResourceCall.Answer → Prop
  | .call t _ | .cut t _ => Undisturbed (pool.state.tie tieType) (stages tieType pool) (stages tieType pool t)

instance [Fintype τ] {pool : Workers τ} : ∀ action, Decidable (Orderly tieType pool action)
  | .call _ _ | .cut _ _ => inferInstanceAs (Decidable (Undisturbed ..))

/-- Workers that each run `main`, in any order of steps that satisfy `ok`. -/
abbrev WorkersReach (tieType : TieType) (ok : Workers τ → Action τ ResourceCall ResourceCall.Answer → Prop) :
    Workers τ → Prop :=
  Pool.Reach (resourceMachine τ) ok (startWorkers τ tieType)

variable [Fintype τ] {pool : Workers τ}

omit [DecidableEq τ] in
theorem startWorkers_counted :
    Counted ((startWorkers τ tieType).state.tie tieType) fun _ : τ => Stage.outside where
  stages _ := True.intro
  queueOld := nofun
  semaphoreOld := nofun
  alone := nofun
  unused := nofun
  count := nofun
  holder := nofun
  served := nofun

abbrev Governs (tieType : TieType) (pool : Workers τ) : Prop :=
  pool.Disciplined (fun _ => Stage.monitor tieType) (fun _ => .outside) (fun _ stage => ∃ q, stage = .finished q)
    fun s ms => Counted (s.tie tieType) ms

theorem counted_of_reach (reach : WorkersReach tieType (Orderly tieType) pool) :
    Governs tieType pool := by
  refine Pool.Reach.disciplined ?_ ?_ ⟨fun _ => ?_, fun _ => worker_obeys, startWorkers_counted⟩ reach
  · intro pool t call answer s' counted undisturbed allowed performed
    exact counted.perform undisturbed allowed performed
  · nofun
  · exact True.intro

namespace Stage

def ran (tieType : TieType) : Stage → Option Id
  | .closing q _ | .left q _ | .condemning q _ | .deleting q => some ⟨queueKey tieType, q⟩
  | .finished q => q.map fun q => ⟨queueKey tieType, q⟩
  | _ => none

theorem ran_of_quiet {stage : Stage} {call : ResourceCall} {answer : call.Answer} {queueId : Id}
    (same : (after stage call answer).ran tieType = stage.ran tieType)
    (quiet : (⟨call, answer⟩ : Event ResourceCall.Answer) ≠ ⟨.run queueId, ()⟩) :
    (after stage call answer).ran tieType = some queueId ↔
      stage.ran tieType = some queueId ∨ (⟨call, answer⟩ : Event ResourceCall.Answer) = ⟨.run queueId, ()⟩ := by
  rw [same]
  exact (or_iff_left quiet).symm

theorem ran_after {stage : Stage} {call : ResourceCall} {answer : call.Answer} {queueId : Id}
    (isAllowed : allowed tieType stage call) :
    (after stage call answer).ran tieType = some queueId ↔
      stage.ran tieType = some queueId ∨ (⟨call, answer⟩ : Event ResourceCall.Answer) = ⟨.run queueId, ()⟩ := by
  cases stage with
  | outside | opened q | existing q | joining q g | creating q g | closing q g =>
    cases call <;> try exact isAllowed.elim
    all_goals
      rcases answer with value | errno
      · exact ran_of_quiet rfl nofun
      · cases errno <;> exact ran_of_quiet rfl nofun
  | working q g =>
    cases call <;> try exact isAllowed.elim
    obtain rfl := isAllowed
    show some _ = some queueId ↔ _
    simp [ran]
  | left q g =>
    cases call <;> try exact isAllowed.elim
    rcases answer with value | errno
    · cases value <;> exact ran_of_quiet rfl nofun
    · exact ran_of_quiet rfl nofun
  | condemning q g | deleting q =>
    cases call <;> try exact isAllowed.elim
    exact ran_of_quiet rfl nofun
  | undoing | finished q => cases call <;> exact isAllowed.elim

theorem ran_run {stage : Stage} {history : List (Event ResourceCall.Answer)} {queueId : Id}
    (accepts : (monitor tieType).Accepts stage history) :
    ((monitor tieType).run stage history).ran tieType = some queueId ↔
      stage.ran tieType = some queueId ∨ ⟨.run queueId, ()⟩ ∈ history := by
  induction history generalizing stage with
  | nil => simp
  | cons event rest ih =>
    obtain ⟨isAllowed, -, later⟩ := accepts
    have first := @ran_after tieType stage event.1 event.2 queueId isAllowed
    refine (ih later).trans ((or_congr_left first).trans ?_)
    rw [or_assoc, List.mem_cons]
    exact or_congr_right (or_congr_left eq_comm)

end Stage

/-- The queue is not removed while a worker has completed `init_queue` and not called `deinit_queue`,
    and it has been removed when nobody is there any more of those who completed `init_queue`. -/
structure QueueLifetime (tieType : TieType) (pool : Workers τ) : Prop where
  kept : ∀ action pool', Pool.Step (resourceMachine τ) pool action pool' →
    pool.state.queue (queueKey tieType) ≠ none → pool'.state.queue (queueKey tieType) = none →
    ∀ u queueId next, pool.programs u ≠ .call (.run queueId) next
  removed : ∀ queueId : Id, (∃ u, ⟨.run queueId, ()⟩ ∈ pool.history u) →
    (∀ u next, pool.programs u ≠ .call (.run queueId) next) →
    (∀ u, ⟨.run queueId, ()⟩ ∈ pool.history u → pool.programs u = .done ()) →
    pool.state.queue queueId.key ≠ some queueId.generation

theorem Kernel.removes_queue {s s' : Kernel} {call : ResourceCall} {answer : call.Answer} {key : Key}
    (answered : s.answer call = some (answer, s')) (present : s.queue key ≠ none) (absent : s'.queue key = none) :
    ∃ q, call = .removeQueue ⟨key, q⟩ ∧ s.queue key = some q := by
  have stays : s'.queue ≠ s.queue := fun same => present (same ▸ absent)
  cases call with
  | msgget k =>
    simp only [Kernel.answer, Kernel.msgget, Option.some.injEq] at answered
    split at answered <;> obtain ⟨-, rfl⟩ := Prod.mk.inj answered
    · exact absurd rfl stays
    · by_cases isKey : key = k
      · subst isKey
        simp at absent
      · simp only [Function.update_of_ne isKey] at absent
        exact absurd absent present
  | semget k flags =>
    cases flags
    all_goals
      simp only [Kernel.answer, Kernel.semget, Option.some.injEq] at answered
      split at answered <;> obtain ⟨-, rfl⟩ := Prod.mk.inj answered
    all_goals exact absurd rfl stays
  | setval semId value =>
    simp only [Kernel.answer, Kernel.setval, Option.some.injEq] at answered
    split at answered <;> obtain ⟨-, rfl⟩ := Prod.mk.inj answered
    all_goals exact absurd rfl stays
  | semop semId semOp noWait =>
    simp only [Kernel.answer, Kernel.semop] at answered
    split at answered
    · split at answered
      · obtain ⟨-, rfl⟩ := Prod.mk.inj (Option.some.inj answered)
        exact absurd rfl stays
      · obtain ⟨-, answered⟩ := Option.ite_none_right_eq_some.mp answered
        obtain ⟨-, rfl⟩ := Prod.mk.inj (Option.some.inj answered)
        exact absurd rfl stays
    · obtain ⟨-, rfl⟩ := Prod.mk.inj (Option.some.inj answered)
      exact absurd rfl stays
  | getval semId =>
    obtain ⟨-, rfl⟩ := Prod.mk.inj (Option.some.inj answered)
    exact absurd rfl stays
  | removeSemaphore semId =>
    simp only [Kernel.answer, Kernel.removeSemaphore, Option.some.injEq] at answered
    split at answered <;> obtain ⟨-, rfl⟩ := Prod.mk.inj answered
    all_goals exact absurd rfl stays
  | removeQueue queueId =>
    simp only [Kernel.answer, Kernel.removeQueue, Option.some.injEq] at answered
    split at answered <;> obtain ⟨-, rfl⟩ := Prod.mk.inj answered
    · rename_i found
      by_cases isKey : key = queueId.key
      · subst isKey
        exact ⟨queueId.generation, rfl, found⟩
      · simp only [Function.update_of_ne isKey] at absent
        exact absurd absent present
    · exact absurd rfl stays
  | run queueId =>
    obtain ⟨-, rfl⟩ := Prod.mk.inj (Option.some.inj answered)
    exact absurd rfl stays

omit [DecidableEq τ] in
theorem Governs.working_of_run (governs : Governs tieType pool) {u : τ} {queueId : Id}
    {next : Unit → ResourceProgram Unit} (isRunning : pool.programs u = .call (.run queueId) next) :
    ∃ q g, queueId = ⟨queueKey tieType, q⟩ ∧ stages tieType pool u = .working q g := by
  have obeys := governs.obeys u
  rw [isRunning] at obeys
  have allowed : Stage.allowed tieType (stages tieType pool u) (.run queueId) := obeys.1
  cases here : stages tieType pool u <;> rw [here] at allowed <;> try exact allowed.elim
  rename_i q g
  exact ⟨q, g, allowed, rfl⟩

omit [DecidableEq τ] in
theorem Governs.run_of_working (governs : Governs tieType pool) {u : τ} {q g : Nat}
    (here : stages tieType pool u = .working q g) :
    ∃ next, pool.programs u = .call (.run ⟨queueKey tieType, q⟩) next := by
  have obeys := governs.obeys u
  rw [show pool.monitored (fun _ => Stage.monitor tieType) (fun _ => .outside) u = .working q g from here] at obeys
  cases program : pool.programs u with
  | done value =>
    rw [program] at obeys
    obtain ⟨used, ended⟩ := obeys
    cases ended
  | call c next =>
    rw [program] at obeys
    have allowed : Stage.allowed tieType (.working q g) c := obeys.1
    cases c <;> try exact allowed.elim
    obtain rfl := allowed
    exact ⟨next, rfl⟩

omit [DecidableEq τ] in
theorem Governs.ran_iff (governs : Governs tieType pool) {u : τ} {queueId : Id} :
    (stages tieType pool u).ran tieType = some queueId ↔ ⟨.run queueId, ()⟩ ∈ pool.history u := by
  refine (Stage.ran_run (governs.accepts u)).trans ?_
  simp [Stage.ran]

omit [DecidableEq τ] in
theorem Governs.finished_of_done (governs : Governs tieType pool) {u : τ} (ended : pool.programs u = .done ()) :
    ∃ q, stages tieType pool u = .finished q := by
  have obeys := governs.obeys u
  rw [ended] at obeys
  exact obeys

theorem Governs.kept (governs : Governs tieType pool) {pool' : Workers τ}
    {action : Action τ ResourceCall ResourceCall.Answer}
    (taken : Pool.Step (resourceMachine τ) pool action pool')
    (present : pool.state.queue (queueKey tieType) ≠ none) (absent : pool'.state.queue (queueKey tieType) = none)
    (u : τ) (queueId : Id) (next : Unit → ResourceProgram Unit) :
    pool.programs u ≠ .call (.run queueId) next := by
  intro isRunning
  cases taken with
  | @call t c rest answer s current performed =>
    have answered : pool.state.answer c = some (answer, s) :=
      performResource_eq_some.mp (show performResource t c answer pool.state = some s from performed)
    obtain ⟨q, rfl, queue⟩ := Kernel.removes_queue answered present absent
    have obeys := governs.obeys t
    rw [current] at obeys
    have allowed : Stage.allowed tieType (stages tieType pool t) (.removeQueue ⟨queueKey tieType, q⟩) := obeys.1
    obtain ⟨q', g, -, working⟩ := governs.working_of_run isRunning
    have mine := governs.agrees.stages t
    have other := governs.agrees.stages u
    change StageOk _ (stages tieType pool t) at mine
    change StageOk _ (stages tieType pool u) at other
    rw [working] at other
    obtain ⟨-, -, v, counted⟩ := other
    cases here : stages tieType pool t <;> rw [here] at allowed mine <;> try exact allowed.elim
    cases allowed
    exact absurd ((mine.2 queue).symm.trans counted) (by simp)
  | @cut t c rest s current taken => cases taken

omit [DecidableEq τ] in
theorem Governs.removed (governs : Governs tieType pool) {queueId : Id}
    (was : ∃ u, ⟨.run queueId, ()⟩ ∈ pool.history u)
    (nobody : ∀ u next, pool.programs u ≠ .call (.run queueId) next)
    (ended : ∀ u, ⟨.run queueId, ()⟩ ∈ pool.history u → pool.programs u = .done ()) :
    pool.state.queue queueId.key ≠ some queueId.generation := by
  have finished : ∀ u, (stages tieType pool u).ran tieType = some queueId →
      ∃ q, stages tieType pool u = .finished q := fun u ran =>
    governs.finished_of_done (ended u (governs.ran_iff.mp ran))
  obtain ⟨u, member⟩ := was
  have ran := governs.ran_iff.mpr member
  obtain ⟨used, here⟩ := finished u ran
  rw [here] at ran
  obtain ⟨q, rfl, rfl⟩ := Option.map_eq_some_iff.mp ran
  intro queue
  have counted : Counted (pool.state.tie tieType) (stages tieType pool) := governs.agrees
  rcases counted.served u q (by rw [here]; rfl) queue with present | ⟨w, removing⟩
  · obtain ⟨⟨g, v⟩, present⟩ := Option.ne_none_iff_exists'.mp present
    obtain ⟨w, q', isBound⟩ := counted.holder g v present
    have same := counted.queue_of_bound isBound present
    cases queue.symm.trans same
    cases known : stages tieType pool w <;> rw [known] at isBound <;> cases isBound
    · exact counted.unused w u q g known (by rw [here]; rfl)
    · obtain ⟨next, isRunning⟩ := governs.run_of_working known
      exact nobody w next isRunning
    all_goals
      obtain ⟨used, isFinished⟩ := finished w (by rw [known]; rfl)
      cases known.symm.trans isFinished
  · cases known : stages tieType pool w <;> rw [known] at removing <;> cases removing
    all_goals
      obtain ⟨used, isFinished⟩ := finished w (by rw [known]; rfl)
      cases known.symm.trans isFinished

/-- Whenever a worker that sets out to use the queue finds it in place, the queue is there as long as
    it is used, and no longer. -/
theorem queue_lives_while_used (reach : WorkersReach tieType (Orderly tieType) pool) :
    QueueLifetime tieType pool where
  kept _ _ taken present absent := (counted_of_reach reach).kept taken present absent
  removed _ was nobody ended := (counted_of_reach reach).removed was nobody ended

end

def answerOf (call : ResourceCall) (s : Kernel) : Option call.Answer := (s.answer call).map Prod.fst

def firstOfTwo : Fin 2 := ⟨0, Nat.two_pos⟩

def secondOfTwo : Fin 2 := ⟨1, Nat.one_lt_two⟩

def lateWorker : List (Pool.Turn (Fin 2) ResourceCall ResourceCall.Answer Kernel) :=
  [.go firstOfTwo 6 answerOf, .go secondOfTwo 4 answerOf, .go firstOfTwo 1 answerOf]

def aboutToRemove (key : Key) (pool : Workers (Fin 2)) : Bool :=
  match pool.programs firstOfTwo, pool.programs secondOfTwo with
  | .call (.removeQueue queueId) _, .call (.run _) _ =>
    decide (queueId.key = key ∧ pool.state.queue queueId.key = some queueId.generation)
  | _, _ => false

theorem late_worker_loses_queue : ¬ ∀ (τ : Type) [DecidableEq τ] (tieType : TieType) (pool : Workers τ),
    WorkersReach tieType (fun _ _ => True) pool → QueueLifetime tieType pool := by
  intro all
  obtain ⟨pool, reach, checked⟩ := @Pool.exists_reach_of_replay _ _ _ _ _ (resourceMachine (Fin 2))
    (fun _ _ => True) (startWorkers (Fin 2) .firstToSecondWorker) (fun _ _ => true) lateWorker
    (aboutToRemove (queueKey .firstToSecondWorker)) (fun _ _ _ => True.intro) (by decide +kernel)
  have lifetime := all (Fin 2) .firstToSecondWorker pool reach
  unfold aboutToRemove at checked
  split at checked
  · rename_i queueId next queueId' next' first second
    obtain ⟨key, queue⟩ := of_decide_eq_true checked
    have removed : performResource (0 : Fin 2) (.removeQueue queueId) (.ok ()) pool.state =
        some { pool.state with queue := Function.update pool.state.queue queueId.key none } := by
      simp [performResource, Kernel.answer, Kernel.removeQueue, queue]
    refine lifetime.kept _ _ (.call first removed) ?_ ?_ 1 queueId' next' second
    · rw [← key, queue]
      simp
    · simp [key]
  · cases checked

def twoWorkers : List (Pool.Turn (Fin 2) ResourceCall ResourceCall.Answer Kernel) :=
  [.go firstOfTwo 3 answerOf, .go secondOfTwo 4 answerOf, .go firstOfTwo 3 answerOf, .go secondOfTwo 5 answerOf]

theorem two_workers_remove_queue : ∃ pool : Workers (Fin 2),
    QueueLifetime .firstToSecondWorker pool ∧ pool.ended 0 = true ∧ pool.ended 1 = true := by
  obtain ⟨pool, reach, checked⟩ := @Pool.exists_reach_of_replay _ _ _ _ _ (resourceMachine (Fin 2))
    (Orderly .firstToSecondWorker) (startWorkers (Fin 2) .firstToSecondWorker)
    (fun pool action => decide (Orderly .firstToSecondWorker pool action)) twoWorkers
    (fun pool => pool.ended 0 && pool.ended 1) (fun _ _ => of_decide_eq_true) (by decide +kernel)
  obtain ⟨first, second⟩ := (Bool.and_eq_true ..).mp checked
  exact ⟨pool, queue_lives_while_used reach, first, second⟩

end ArchCompSystems.OsIhw2
