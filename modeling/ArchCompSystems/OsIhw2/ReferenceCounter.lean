import ArchCompSystems.OsIhw2.MemoryPerform
import ArchCompSystems.OsIhw2.MemoryWorkers

namespace ArchCompSystems.OsIhw2.Mark8

open Library Library.Program

/-- A worker with signals makes these calls, each with the signals that are blocked at it. -/
abbrev Workers (τ : Type) := Pool τ (Interruptible Call Signal) (outcome Signal Call.Answer) (System τ)

abbrev WorkerAction (τ : Type) := Action τ (Interruptible Call Signal) (outcome Signal Call.Answer)

def startWorkers (τ : Type) (kind : τ → WorkerKind) (rounds : τ → Nat) : Workers τ where
  programs w := (kind w).program (rounds w)
  state := System.initial τ
  history _ := []

variable {τ : Type} [DecidableEq τ]

/-- The workers, in any order of their calls and signals. -/
abbrev WorkersReach (kind : τ → WorkerKind) (rounds : τ → Nat) (ok : Workers τ → WorkerAction τ → Prop) :
    Workers τ → Prop :=
  Pool.Reach ((workerMachine τ).interruptible fun w s => !s.exited w) ok (startWorkers τ kind rounds)

/-- No call but `semop` fails without a reason in the state. -/
def OnlySemopFails (pool : Workers τ) : WorkerAction τ → Prop
  | .call w ⟨(c, _), .answered answer⟩ =>
    (∃ semId semOp, c = .semop semId semOp) ∨ Justified pool.state w c answer
  | _ => True

def FindsReferences (s : System τ) : Call → Prop
  | .increaseRefCounter (some segment) => 1 ≤ (s.memory segment).shMemRefCounter
  | _ => True

/-- No `semop` fails, no worker counts itself at a segment without references, and a signal comes
    only where a worker, for each of its ties, has a reference that it has not given back, or has
    neither created nor attached the segment. -/
def Undisturbed (pool : Workers τ) : WorkerAction τ → Prop
  | .call _ ⟨(c, _), .answered answer⟩ => Succeeds c answer ∧ FindsReferences pool.state c
  | .call w ⟨_, .caught _⟩ => ∀ tieType, (recordOf tieType (pool.history w)).Settled
  | .cut _ _ => True

def Orderly (pool : Workers τ) (action : WorkerAction τ) : Prop :=
  OnlySemopFails pool action ∧ Undisturbed pool action

/-- Nobody is inside `init_shared_memory_info` or `deinit_shared_memory_info` for this tie. -/
def NobodyInside (tieType : TieType) (pool : Workers τ) : Prop :=
  ∀ w, (recordOf tieType (pool.history w)).place ≠ .initialising ∧ (recordOf tieType (pool.history w)).place ≠ .leaving

/-- The workers that have completed `init_shared_memory_info` and not gone on to
    `deinit_shared_memory_info` or exited. -/
def members [Fintype τ] (tieType : TieType) (pool : Workers τ) : Finset τ :=
  Finset.univ.filter fun w => (recordOf tieType (pool.history w)).place = .working

/-- The reference counter of a tie is exact. -/
structure CountExact [Fintype τ] (tieType : TieType) (pool : Workers τ) : Prop where
  counter : NobodyInside tieType pool → ∀ g, pool.state.segment (sharedMemoryKey tieType) = some g →
    (pool.state.memory (segId tieType g)).shMemRefCounter = (members tieType pool).card
  /-- All of them use the same segment. -/
  attached : NobodyInside tieType pool → ∀ w ∈ members tieType pool, ∃ g,
    pool.state.segment (sharedMemoryKey tieType) = some g ∧
      pool.state.info w tieType = ⟨some (segId tieType g), some (segId tieType g)⟩
  decremented : ∀ w, (recordOf tieType (pool.history w)).place = .exited →
    (recordOf tieType (pool.history w)).completed = true → (recordOf tieType (pool.history w)).decrements = 1
  segment : NobodyInside tieType pool →
    (pool.state.segment (sharedMemoryKey tieType) ≠ none ↔ (members tieType pool).Nonempty)
  semaphores : NobodyInside tieType pool → ∀ which,
    (pool.state.kernel.semaphore (semKey tieType which) ≠ none ↔ (members tieType pool).Nonempty)

/-- What the local states of all workers say about both ties. -/
structure Agrees [Fintype τ] (kind : τ → WorkerKind) (s : System τ) (ms : τ → TieType → Local) : Prop where
  counted : ∀ tieType, Counted tieType (s.tie tieType) fun w => ms w tieType
  unused : ∀ w tieType, (kind w).uses tieType = false → (ms w tieType).stage = .outside

def signalMonitor (kind : WorkerKind) :
    Monitor (Interruptible Call Signal) (outcome Signal Call.Answer) (TieType → Local) :=
  (workerMonitor kind).interruptible (Handles kind)

def startLocal : TieType → Local := fun _ => ⟨.outside, .initial⟩

theorem run_record {kind : WorkerKind} (tieType : TieType) (history : List (Event (outcome Signal Call.Answer))) :
    ((signalMonitor kind).run startLocal history tieType).record = recordOf tieType history := by
  induction history using List.reverseRecOn with
  | nil => rfl
  | append_singleton history event ih =>
    obtain ⟨c, answer⟩ := event
    rw [Monitor.run_concat]
    cases answer with
    | answered answer =>
      simp only [recordOf, List.foldl_append, List.foldl_cons, List.foldl_nil]
      exact congrArg (Record.after tieType · c.1 answer) ih
    | caught signal =>
      simp only [recordOf, List.foldl_append, List.foldl_cons, List.foldl_nil]
      exact ih

variable [Fintype τ] {kind : τ → WorkerKind} {s s' : System τ} {ms : τ → TieType → Local} {w : τ}

omit [Fintype τ] in
theorem update_tie {l : TieType → Local} {tieType : TieType} :
    (fun u => Function.update ms w l u tieType) = Function.update (fun u => ms u tieType) w (l tieType) := by
  funext u
  by_cases same : u = w
  · subst same
    rw [Function.update_self, Function.update_self]
  · rw [Function.update_of_ne same, Function.update_of_ne same]

omit [DecidableEq τ] [Fintype τ] in
theorem settled_of_record {l : Local} (fits : Fits l.record l.stage) (settled : l.record.Settled) :
    l.stage.Settled := by
  obtain ⟨kept, reference⟩ := settled
  cases stage : l.stage <;> rw [stage] at fits <;> simp only [Fits] at fits <;>
    first | exact True.intro | (obtain ⟨has, counted, -⟩ := fits; simp [counted] at reference; simp [reference] at has) | omega

omit [DecidableEq τ] in
theorem Agrees.handles (agrees : Agrees kind s ms)
    (settled : ∀ tieType, (ms w tieType).record.Settled) : Handles (kind w) (ms w) :=
  fun tieType => ⟨settled_of_record ((agrees.counted tieType).fits w) (settled tieType), agrees.unused w tieType⟩

theorem Counted.exits_step {tieType : TieType} {ls : τ → Local} (counted : Counted tieType (s.tie tieType) ls)
    (free : (ls w).stage.Free) :
    Counted tieType ((s.exit w).tie tieType) (Function.update ls w ((ls w).after tieType .exit ())) := by
  have fits := counted.fits w
  refine counted.stay rfl (fun _ _ => rfl) (counted.stages w) ?_ (fun u other => ?_) ?_ (fun _ => rfl) rfl
  · cases stage : (ls w).stage <;> rw [stage] at fits free <;>
      simp_all [Local.after, Stage.after, Record.after, Fits, Stage.Free, Record.Fresh]
  · simp only [System.tie, System.exit, Function.update_of_ne other]
  · simp [System.tie, System.exit, Local.after, Record.after]

omit [Fintype τ] in
theorem System.perform_exit {answer : Unit} (performed : System.perform w .exit answer s = some s') : s' = s.exit w := by
  obtain ⟨-, answered⟩ := (System.perform_of_answer (by simp) fun _ => rfl).mp performed
  cases answered
  rfl

theorem Agrees.running (agrees : Agrees kind s ms) {c : Call} {answer : c.Answer} (tieType : TieType)
    (performed : System.perform w c answer s = some s') : (ms w tieType).record.place ≠ .exited := by
  intro exited
  have gone : s.exited w = true := ((agrees.counted tieType).exits w).mpr exited
  simp only [System.perform, gone, if_true] at performed
  cases performed

theorem Agrees.call {c : Call} {answer : c.Answer} (agrees : Agrees kind s ms)
    (allowed : (workerMonitor (kind w)).allowed (ms w) c) (justified : Justified s w c answer)
    (succeeds : Succeeds c answer) (finds : FindsReferences s c)
    (performed : System.perform w c answer s = some s') :
    (workerMonitor (kind w)).possible (ms w) c answer ∧
      Agrees kind s' (Function.update ms w ((workerMonitor (kind w)).after (ms w) c answer)) := by
  have positive : ∀ segment, c = .increaseRefCounter (some segment) → 1 ≤ (s.memory segment).shMemRefCounter := by
    rintro segment rfl
    exact finds
  refine ⟨fun tieType => ⟨agrees.running tieType performed, ?_⟩, ⟨fun tieType => ?_, fun u tieType unused => ?_⟩⟩
  · exact @possible_of_perform _ tieType _ _ w _ _ (fun u => ms u tieType) _ _ (agrees.counted tieType)
      ((allowed tieType).imp (·.2) (Or.imp (·.1) (·.1))) justified succeeds performed
  · rw [update_tie]
    rcases allowed tieType with ⟨-, own⟩ | ⟨foreign, same⟩ | ⟨rfl, free⟩
    · exact (agrees.counted tieType).own_step own justified (agrees.running tieType performed) positive performed
    · have unmoved : (workerMonitor (kind w)).after (ms w) c answer tieType = ms w tieType := same answer
      rw [tie_of_foreign foreign performed, unmoved, Function.update_eq_self]
      exact agrees.counted tieType
    · rw [System.perform_exit performed]
      exact (agrees.counted tieType).exits_step free
  · by_cases same : u = w
    · subst same
      rw [Function.update_self]
      rcases allowed tieType with ⟨used, -⟩ | ⟨-, same⟩ | ⟨rfl, -⟩
      · rw [unused] at used
        cases used
      · exact (congrArg Local.stage (same answer)).trans (agrees.unused u tieType unused)
      · exact agrees.unused u tieType unused
    · rw [Function.update_of_ne same]
      exact agrees.unused u tieType unused

omit [DecidableEq τ] in
theorem counted_start {tieType : TieType} :
    Counted tieType ((System.initial τ).tie tieType) fun _ => startLocal tieType where
  stages _ := rfl
  fits _ := ⟨⟨rfl, rfl, rfl, rfl, rfl⟩, nofun, nofun⟩
  exits _ := ⟨nofun, nofun⟩
  counter g := congrArg Nat.cast (held_eq_zero (fun _ => rfl)).symm
  old _ present := by cases present
  alone := (Nat.le_of_eq (held_eq_zero fun _ => rfl)).trans (Nat.zero_le 1)
  served _ := ⟨fun _ present => (by cases present), fun _ _ => rfl⟩

theorem agrees_of_reach {kind : τ → WorkerKind} {rounds : τ → Nat} {pool : Workers τ}
    (reach : WorkersReach kind rounds Orderly pool) :
    Agrees kind pool.state (pool.monitored (fun w => signalMonitor (kind w)) fun _ => startLocal) := by
  have disciplined : pool.Disciplined (fun w => signalMonitor (kind w)) (fun _ => startLocal)
      (fun _ _ => True) (Agrees kind) := by
    refine Pool.Reach.disciplined ?_ ?_ ⟨fun _ => ?_, fun w => ?_, ?_⟩ reach
    · rintro pool w ⟨c, blocked⟩ outcome s agrees ⟨justified, undisturbed⟩ allowed performed
      cases outcome with
      | answered answer =>
        obtain ⟨succeeds, finds⟩ := undisturbed
        refine agrees.call allowed ?_ succeeds finds performed
        rcases justified with ⟨semId, semOp, rfl⟩ | justified
        · intro fails
          rw [show answer = .ok () from succeeds] at fails
          cases fails
        · exact justified
      | caught signal =>
        have handles : Handles (kind w) (pool.monitored (fun w => signalMonitor (kind w)) (fun _ => startLocal) w) := by
          refine agrees.handles fun tieType => ?_
          have settled := undisturbed tieType
          rwa [← @run_record (kind w)] at settled
        refine ⟨handles, ?_⟩
        have unmoved : s = pool.state := by
          change (if _ then some pool.state else none) = some s at performed
          split at performed
          · cases performed
            rfl
          · cases performed
        rw [unmoved]
        exact (congrArg (Agrees kind pool.state) (Function.update_eq_self w _)).mpr agrees
    · intro pool w c s _ _ taken
      cases taken
    · exact True.intro
    · exact @program_obeys (kind w) startLocal (rounds w) fun _ => rfl
    · exact ⟨fun _ => counted_start, fun _ _ _ => rfl⟩
  exact disciplined.agrees

omit [DecidableEq τ] [Fintype τ] in
theorem Fits.outside_functions {r : Record} {stage : Stage} (fits : Fits r stage) (initialised : r.place ≠ .initialising)
    (here : r.place ≠ .leaving) : stage.special = 0 ∧ (r.place = .working ∧ (∃ g, stage = .counted g) ∨
      r.place ≠ .working ∧ ∀ g, stage.users g = 0) := by
  cases stage with
  | outside => exact ⟨rfl, .inr ⟨fits.2.2, fun _ => rfl⟩⟩
  | entering | found g named => exact ⟨rfl, .inr ⟨by simp [fits.2.resolve_left initialised], fun _ => rfl⟩⟩
  | created g named | filling g | building g made stored | joined g => exact absurd fits.2.2.2 initialised
  | counted g => exact ⟨rfl, .inl ⟨fits.2.resolve_left initialised, g, rfl⟩⟩
  | leaving g | removing g removed | deleting g removed which n | unlinking g | detaching g =>
    rcases fits.2 with place | place
    · exact absurd place initialised
    · exact absurd place here
  | left => exact ⟨rfl, .inr ⟨fits.2.2, fun _ => rfl⟩⟩

omit [DecidableEq τ] [Fintype τ] in
theorem Fits.exited {r : Record} {stage : Stage} (fits : Fits r stage) (gone : r.place = .exited)
    (completed : r.completed = true) : r.decrements = 1 := by
  cases stage with
  | outside | entering | found g named =>
    have fresh := fits.1.2.2.2.1
    rw [completed] at fresh
    cases fresh
  | created g named | filling g | building g made stored | joined g =>
    have place := fits.2.2.2
    rw [gone] at place
    cases place
  | counted g | leaving g | removing g removed | deleting g removed which n | unlinking g | detaching g =>
    rcases fits.2 with place | place <;>
    · rw [gone] at place
      cases place
  | left => exact fits.1

section Exact

variable {rounds : τ → Nat} {pool : Workers τ} {tieType : TieType}

omit [DecidableEq τ] in
theorem counter_eq_members {ls : τ → Local} (counted : Counted tieType (pool.state.tie tieType) ls)
    (records : ∀ w, (ls w).record = recordOf tieType (pool.history w)) (nobody : NobodyInside tieType pool) {g : Nat}
    (present : pool.state.segment (sharedMemoryKey tieType) = some g) :
    (pool.state.memory (segId tieType g)).shMemRefCounter = (members tieType pool).card := by
  have counts : (pool.state.memory (segId tieType g)).shMemRefCounter = _ := counted.counter g
  rw [counts, members, Finset.card_eq_sum_ones, Finset.sum_filter]
  refine congrArg Nat.cast (Finset.sum_congr rfl fun w _ => ?_)
  have fits := counted.fits w
  have ok := counted.stages w
  rw [records] at fits
  obtain ⟨-, ⟨works, h, here⟩ | ⟨idle, none⟩⟩ := fits.outside_functions (nobody w).1 (nobody w).2
  · rw [here] at ok
    obtain rfl : h = g := Option.some.inj (ok.2.symm.trans present)
    simp only [here, Stage.users, if_true, works]
  · simp only [none, idle, if_false]

omit [DecidableEq τ] in
theorem member_attached {ls : τ → Local} (counted : Counted tieType (pool.state.tie tieType) ls)
    (records : ∀ w, (ls w).record = recordOf tieType (pool.history w)) (nobody : NobodyInside tieType pool) {w : τ}
    (member : w ∈ members tieType pool) : ∃ g, pool.state.segment (sharedMemoryKey tieType) = some g ∧
      pool.state.info w tieType = ⟨some (segId tieType g), some (segId tieType g)⟩ := by
  have works := (Finset.mem_filter.mp member).2
  have fits := counted.fits w
  have ok := counted.stages w
  rw [records] at fits
  obtain ⟨-, ⟨-, g, here⟩ | ⟨idle, -⟩⟩ := fits.outside_functions (nobody w).1 (nobody w).2
  · rw [here] at ok
    exact ⟨g, ok.2, ok.1⟩
  · exact absurd works idle

omit [DecidableEq τ] in
theorem served_of_nobody {ls : τ → Local} (counted : Counted tieType (pool.state.tie tieType) ls)
    (records : ∀ w, (ls w).record = recordOf tieType (pool.history w)) (nobody : NobodyInside tieType pool) :
    Served tieType (pool.state.tie tieType) := by
  refine counted.served (held_eq_zero fun w => ?_)
  have fits := counted.fits w
  rw [records] at fits
  exact (fits.outside_functions (nobody w).1 (nobody w).2).1

/-- Any workers of any kinds, in any order of their calls and signals, in a run without disturbances, have
    an exact reference counter for both ties. -/
theorem reference_counter_exact (reach : WorkersReach kind rounds Orderly pool) (tieType : TieType) :
    CountExact tieType pool := by
  have counted := (agrees_of_reach reach).counted tieType
  have records : ∀ w, (pool.monitored (fun w => signalMonitor (kind w)) (fun _ => startLocal) w tieType).record =
      recordOf tieType (pool.history w) := fun w => @run_record (kind w) tieType (pool.history w)
  have segment : NobodyInside tieType pool →
      (pool.state.segment (sharedMemoryKey tieType) ≠ none ↔ (members tieType pool).Nonempty) := by
    intro nobody
    constructor
    · intro present
      obtain ⟨g, found⟩ := Option.ne_none_iff_exists'.mp present
      have positive := ((served_of_nobody counted records nobody).present g found).1
      have exact' := counter_eq_members counted records nobody found
      simp only [System.tie, exact'] at positive
      exact Finset.card_pos.mp (by omega)
    · rintro ⟨w, member⟩
      obtain ⟨g, found, -⟩ := member_attached counted records nobody member
      rw [found]
      exact Option.some_ne_none g
  refine ⟨fun nobody g => counter_eq_members counted records nobody, fun nobody w => member_attached counted records nobody,
    fun w gone completed => ?_, segment, fun nobody which => ?_⟩
  · have fits := counted.fits w
    simp only [records] at fits
    exact fits.exited gone completed
  · have served := served_of_nobody counted records nobody
    rw [← segment nobody]
    constructor
    · intro present absent
      exact present (semaphore_eq_none (served.absent absent which))
    · intro present absent
      obtain ⟨g, found⟩ := Option.ne_none_iff_exists'.mp present
      obtain ⟨n, made, -⟩ := (served.present g found).2 which
      have gone : (pool.state.tie tieType).semaphore which = none := Option.map_eq_none_iff.mpr absent
      rw [gone] at made
      cases made

end Exact

omit [DecidableEq τ] in
def decideSucceeds : (c : Call) → (answer : c.Answer) → Decidable (Succeeds c answer)
  | .semop _ _, answer => inferInstanceAs (Decidable (answer = .ok ()))
  | .shmget .., _ | .shmat .., _ | .shmdt .., _ | .removeSegment .., _ | .semget .., _ | .setval .., _
  | .removeSemaphore .., _ | .loadPin .., _ | .storePin .., _ | .loadSemId .., _ | .storeSemId .., _
  | .loadReadIndex .., _ | .storeReadIndex .., _ | .loadWriteIndex .., _ | .storeWriteIndex .., _
  | .loadRefCounter .., _ | .storeRefCounter .., _ | .increaseRefCounter .., _ | .decreaseRefCounter .., _
  | .loadInfo .., _ | .storeSharedMemId .., _ | .storeShMem .., _ | .rand, _ | .exit, _ | .abort, _ | .goOn, _
  | .enterInit .., _ | .leaveInit .., _ | .enterDeinit .., _ | .leaveDeinit .., _ => isTrue True.intro

instance {c : Call} {answer : c.Answer} : Decidable (Succeeds c answer) := decideSucceeds c answer

def decideFindsReferences (s : System τ) : (c : Call) → Decidable (FindsReferences s c)
  | .increaseRefCounter (some segment) => inferInstanceAs (Decidable (1 ≤ (s.memory segment).shMemRefCounter))
  | .increaseRefCounter none => isTrue True.intro
  | .shmget .. | .shmat .. | .shmdt .. | .removeSegment .. | .semget .. | .setval .. | .removeSemaphore ..
  | .semop .. | .loadPin .. | .storePin .. | .loadSemId .. | .storeSemId .. | .loadReadIndex .. | .storeReadIndex ..
  | .loadWriteIndex .. | .storeWriteIndex .. | .loadRefCounter .. | .storeRefCounter .. | .decreaseRefCounter ..
  | .loadInfo .. | .storeSharedMemId .. | .storeShMem .. | .rand | .exit | .abort | .goOn | .enterInit ..
  | .leaveInit .. | .enterDeinit .. | .leaveDeinit .. => isTrue True.intro

omit [DecidableEq τ] in
instance {s : System τ} {c : Call} : Decidable (FindsReferences s c) := decideFindsReferences s c

def orderly (pool : Workers τ) : WorkerAction τ → Bool
  | .call _ ⟨(c, _), .answered answer⟩ =>
    !c.failsOutside answer && decide (Succeeds c answer) && decide (FindsReferences pool.state c)
  | .call w ⟨_, .caught _⟩ => decide (recordOf .firstToSecondWorker (pool.history w)).Settled &&
      decide (recordOf .secondToThirdWorker (pool.history w)).Settled
  | .cut _ _ => true

omit [Fintype τ] in
theorem orderly_spec {pool : Workers τ} {action : WorkerAction τ} (permitted : orderly pool action = true) :
    Orderly pool action := by
  cases action with
  | call w event =>
    obtain ⟨⟨c, blocked⟩, answer | signal⟩ := event
    · simp only [orderly, Bool.and_eq_true, decide_eq_true_eq, Bool.not_eq_true'] at permitted
      obtain ⟨⟨here, succeeds⟩, finds⟩ := permitted
      exact ⟨.inr fun fails => absurd (here.symm.trans fails) nofun, succeeds, finds⟩
    · simp only [orderly, Bool.and_eq_true, decide_eq_true_eq] at permitted
      exact ⟨True.intro, forall_tie permitted.1 permitted.2⟩
  | cut w c => exact ⟨True.intro, True.intro⟩

/-- The answers of the kernel, and every random number is 1. -/
def answers (w : τ) (c : Interruptible Call Signal) (s : System τ) : Option (outcome Signal Call.Answer c) :=
  match c with
  | (.rand, _) => some (.answered ⟨1⟩)
  | (c, _) => (s.answer w c).map fun result => .answered result.1

def signals (c : Interruptible Call Signal) (_ : System τ) : Option (outcome Signal Call.Answer c) :=
  some (.caught .sigterm)

/-- Of two first workers one catches a signal and leaves, and the other still has its reference. -/
theorem signalled_worker_is_counted : ∃ pool, WorkersReach (fun _ : Bool => .first) (fun _ => 0) Orderly pool ∧
    members .firstToSecondWorker pool = {false} ∧ CountExact .firstToSecondWorker pool := by
  obtain ⟨pool, reach, one⟩ := @Pool.exists_reach_of_replay Bool _ _ _ _
    ((workerMachine Bool).interruptible fun w s => !s.exited w) Orderly (startWorkers Bool (fun _ => .first) fun _ => 0)
    orderly [.go false 31 (answers false), .go true 10 (answers true), .go true 1 signals, .go true 7 (answers true)]
    (fun pool => decide (members .firstToSecondWorker pool = {false})) (fun _ _ => orderly_spec) (by decide +kernel)
  exact ⟨pool, reach, of_decide_eq_true one, reference_counter_exact reach _⟩

/-- A test for runs in which only `semop` fails. -/
def onlySemopFails (_ : Workers τ) : WorkerAction τ → Bool
  | .call _ ⟨(.semop _ _, _), .answered _⟩ => true
  | .call _ ⟨(c, _), .answered answer⟩ => !c.failsOutside answer
  | _ => true

omit [Fintype τ] in
theorem onlySemopFails_spec {pool : Workers τ} {action : WorkerAction τ} (permitted : onlySemopFails pool action = true) :
    OnlySemopFails pool action := by
  cases action with
  | call w event =>
    obtain ⟨⟨c, blocked⟩, answer | signal⟩ := event
    · cases c with
      | semop semId semOp => exact .inl ⟨semId, semOp, rfl⟩
      | _ =>
        refine .inr fun fails => ?_
        simp only [onlySemopFails, fails] at permitted
        cases permitted
    · exact True.intro
  | cut w c => exact True.intro

/-- The answers of the kernel where every `semop` fails. -/
def failures (w : τ) (c : Interruptible Call Signal) (s : System τ) : Option (outcome Signal Call.Answer c) :=
  match c with
  | (.semop _ _, _) => some (.answered (.failed .other))
  | c => answers w c s

/-- A worker whose `semop` fails exits and leaves its reference and the segment. -/
theorem failed_semop_leaves_reference : ¬ ∀ (τ : Type) [DecidableEq τ] [Fintype τ] (kind : τ → WorkerKind)
    (rounds : τ → Nat) (pool : Workers τ), WorkersReach kind rounds OnlySemopFails pool →
      ∀ tieType, CountExact tieType pool := by
  intro exact'
  obtain ⟨pool, reach, left⟩ := @Pool.exists_reach_of_replay Unit _ _ _ _
    ((workerMachine Unit).interruptible fun w s => !s.exited w) OnlySemopFails
    (startWorkers Unit (fun _ => .first) fun _ => 1) onlySemopFails [.go () 36 (failures ())]
    (fun pool => decide ((recordOf .firstToSecondWorker (pool.history ())).place = .exited ∧
      (recordOf .firstToSecondWorker (pool.history ())).completed = true ∧
      (recordOf .firstToSecondWorker (pool.history ())).decrements = 0))
    (fun _ _ => onlySemopFails_spec) (by decide +kernel)
  obtain ⟨gone, completed, never⟩ := of_decide_eq_true left
  have once := (exact' Unit _ _ pool reach .firstToSecondWorker).decremented () gone completed
  rw [never] at once
  cases once

end ArchCompSystems.OsIhw2.Mark8
