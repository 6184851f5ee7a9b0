import ArchCompSystems.Hw9.Program
import ArchCompSystems.Library.Protocol
import Mathlib.Data.BitVec
import Mathlib.Tactic.Abel

namespace ArchCompSystems.Hw9

open Library Library.Program

/-- What the main thread has done: threads created, waits of the semaphore, numbers taken from the
    queue and not yet handed to an adder, the value of `read_index_`, adders joined. -/
structure MainState where
  generators : Nat
  created : Nat
  waited : Nat
  taken : Nat
  readIndex : Nat
  popped : List (BitVec 32)
  joined : Nat
  printed : Bool
  deriving DecidableEq

/-- How far a thread has come. Inside of the lock, a thread knows `write_index_`. -/
inductive Stage where
  | waiting
  | pushing (num : BitVec 32)
  | entered (num : BitVec 32) (writeIndex : Nat)
  | stored (writeIndex : Nat)
  | advanced
  | left
  | posted
  | exited
  | main (m : MainState)
  deriving DecidableEq

namespace Stage

def inside : Stage → Nat
  | .entered _ _ | .stored _ | .advanced => 1
  | _ => 0

def storedCount : Stage → Nat
  | .stored _ | .advanced | .left | .posted | .exited => 1
  | _ => 0

def postedCount : Stage → Nat
  | .posted | .exited => 1
  | _ => 0

end Stage

abbrev Numbers := Fin kNumGenThreadsCount → BitVec 32

def owed (numbers : Numbers) (args : Thread → Option (BitVec 32 × BitVec 32)) (t : Thread) :
    Stage → BitVec 32
  | .waiting =>
    match t with
    | .generator i => numbers i
    | .adder i => (args (.adder i)).elim 0 fun pair => pair.1 + pair.2
    | .main => 0
  | .pushing num | .entered num _ => num
  | .main m => m.popped.sum
  | _ => 0

def pushedBy (t : Thread) (pair : BitVec 32 × BitVec 32) : BitVec 32 :=
  match t with
  | .generator _ => pair.1
  | _ => pair.1 + pair.2

def callOrder (numbers : Numbers) (t : Thread) : Protocol Call Call.Answer Stage where
  allowed stage call := match stage, call with
    | .waiting, .begin => t ≠ .main
    | .pushing _, .lock => True
    | .entered _ _, .loadWriteIndex => True
    | .entered num writeIndex, .storeCell i value => i = writeIndex ∧ value = num
    | .stored _, .loadWriteIndex => True
    | .stored writeIndex, .storeWriteIndex index => index = (writeIndex + 1) % kMaxSize
    | .advanced, .unlock => True
    | .left, .post => True
    | .posted, .exit => True
    | .main m, .create (.generator i) first second =>
      i.val = m.generators ∧ first = numbers i ∧ second = 0
    | .main m, .create (.adder i) first second => i.val = m.created ∧ m.popped = [first, second]
    | .main m, .wait => m.generators = kNumGenThreadsCount ∧ m.created < kAddingThreadsCount ∧
        m.waited ≤ 2 * m.created + 1
    | .main _, .loadReadIndex => True
    | .main _, .storeReadIndex _ => True
    | .main m, .popCell i => m.taken < m.waited ∧ i = m.taken % kMaxSize
    | .main m, .join (.adder i) => i.val = m.joined ∧ m.created = kAddingThreadsCount
    | .main m, .join (.generator _) => m.generators = kNumGenThreadsCount
    | .main m, .frontCell i => m.joined = kAddingThreadsCount ∧
        m.waited = 2 * kAddingThreadsCount ∧ m.taken = 2 * kAddingThreadsCount ∧
        m.popped = [] ∧ i = m.taken % kMaxSize
    | .main m, .print result => m.printed = false ∧ result = ∑ i, numbers i
    | _, _ => False
  moves stage call answer stage' := match stage, call, answer with
    | .waiting, .begin, pair => stage' = .pushing (pushedBy t pair)
    | .pushing num, .lock, _ => ∃ writeIndex, stage' = .entered num writeIndex
    | .entered num writeIndex, .loadWriteIndex, answer =>
      answer = writeIndex ∧ stage' = .entered num writeIndex
    | .entered _ writeIndex, .storeCell _ _, _ => stage' = .stored writeIndex
    | .stored writeIndex, .loadWriteIndex, answer => answer = writeIndex ∧ stage' = .stored writeIndex
    | .stored _, .storeWriteIndex _, _ => stage' = .advanced
    | .advanced, .unlock, _ => stage' = .left
    | .left, .post, _ => stage' = .posted
    | .posted, .exit, _ => stage' = .exited
    | .main m, .create (.generator _) _ _, _ =>
      stage' = .main { m with generators := m.generators + 1 }
    | .main m, .create (.adder _) _ _, _ =>
      stage' = .main { m with created := m.created + 1, popped := [] }
    | .main m, .wait, _ => stage' = .main { m with waited := m.waited + 1 }
    | .main m, .loadReadIndex, answer => answer = m.readIndex ∧ stage' = .main m
    | .main m, .storeReadIndex index, _ => stage' = .main { m with readIndex := index }
    | .main m, .popCell _, num =>
      stage' = .main { m with taken := m.taken + 1, popped := m.popped ++ [num] }
    | .main m, .join (.adder _), _ => stage' = .main { m with joined := m.joined + 1 }
    | .main m, .join _, _ => stage' = .main m
    | .main m, .frontCell _, num => num = ∑ i, numbers i ∧ stage' = .main m
    | .main m, .print _, _ => stage' = .main { m with printed := true }
    | _, _, _ => False

def Final (t : Thread) (stage : Stage) : Prop :=
  match t with
  | .main => ∃ m, stage = .main m ∧ m.generators = kNumGenThreadsCount ∧
      m.created = kAddingThreadsCount ∧ m.printed = true
  | _ => stage = .exited

structure WriteSide (s : State) (ms : Thread → Stage) : Prop where
  guard : s.guard + held Stage.inside ms = 1
  entered : ∀ t num w, ms t = .entered num w → s.ring.writeIndex = w ∧ s.ring.stored.length % kMaxSize = w
  stored : ∀ t w, ms t = .stored w → s.ring.writeIndex = w ∧
    s.ring.stored.length % kMaxSize = (w + 1) % kMaxSize
  settled : (∀ t w, ms t ≠ .stored w) → s.ring.writeIndex = s.ring.stored.length % kMaxSize

/-- What the stages of the threads say about what they share. -/
structure Adding (numbers : Numbers) (s : State) (ms : Thread → Stage) (m : MainState) : Prop where
  main : ms .main = .main m
  workers : ∀ t m', ms t = .main m' → t = .main
  write : WriteSide s ms
  queued : s.ring.Queued kMaxSize
  taken : s.ring.taken.length = m.taken
  readIndex : s.ring.readIndex = m.readIndex
  taken_le : m.taken ≤ m.waited
  count : s.ring.stored.length = held Stage.storedCount ms
  posts : s.posted + m.waited = held Stage.postedCount ms
  generators : ∀ i, s.args (.generator i) = if i.val < m.generators then some (numbers i, 0) else none
  adders : ∀ i, (s.args (.adder i)).isSome = true ↔ i.val < m.created
  unstarted : ∀ t, t ≠ .main → s.args t = none → ms t = .waiting
  exited : ∀ t, s.exited t = true ↔ ms t = .exited
  joined : ∀ i, i.val < m.joined → ms (.adder i) = .exited
  pushed : 2 * kAddingThreadsCount ≤ m.waited → ∀ i, (ms (.generator i)).postedCount = 1
  owed : ∑ t, Hw9.owed numbers s.args t (ms t) + s.ring.contents.sum = ∑ i, numbers i
  printed : s.printed = if m.printed then [∑ i, numbers i] else []

section

variable {numbers : Numbers} {s s' : State} {ms : Thread → Stage} {m : MainState} {t : Thread}
  {stage : Stage}

theorem WriteSide.alone (write : WriteSide s ms) (inside : (ms t).inside = 1) {u : Thread} (other : u ≠ t) :
    (ms u).inside = 0 := by
  have both := add_le_held Stage.inside ms other
  have most := write.guard
  omega

theorem WriteSide.quiet (write : WriteSide s ms) (before : (ms t).inside = 0) (after : stage.inside = 0)
    (guard : s'.guard = s.guard) (writeIndex : s'.ring.writeIndex = s.ring.writeIndex)
    (stored : s'.ring.stored = s.ring.stored) : WriteSide s' (Function.update ms t stage) where
  guard := by
    have := held_update Stage.inside ms t stage
    have := write.guard
    omega
  entered := by
    intro u num w known
    by_cases same : u = t
    · subst same
      rw [Function.update_self] at known
      rw [known] at after
      cases after
    · rw [Function.update_of_ne same] at known
      rw [writeIndex, stored]
      exact write.entered u num w known
  stored := by
    intro u w known
    by_cases same : u = t
    · subst same
      rw [Function.update_self] at known
      rw [known] at after
      cases after
    · rw [Function.update_of_ne same] at known
      rw [writeIndex, stored]
      exact write.stored u w known
  settled := by
    intro nobody
    rw [writeIndex, stored]
    refine write.settled fun u w known => ?_
    by_cases same : u = t
    · subst same
      rw [known] at before
      cases before
    · refine nobody u w ?_
      rw [Function.update_of_ne same]
      exact known

theorem WriteSide.lock (write : WriteSide s ms) (before : (ms t).inside = 0) (unlocked : 0 < s.guard)
    (num : BitVec 32) : WriteSide { s with guard := s.guard - 1 }
      (Function.update ms t (.entered num s.ring.writeIndex)) := by
  have empty : held Stage.inside ms = 0 := by have := write.guard; omega
  have outside : ∀ u, (ms u).inside = 0 := fun u => by have := le_held Stage.inside ms u; omega
  have nobody : ∀ u w, ms u ≠ .stored w := fun u w known => by
    have := outside u
    rw [known] at this
    cases this
  have settled := write.settled nobody
  refine ⟨?_, ?_, ?_, fun _ => settled⟩
  · have balance := held_update Stage.inside ms t (.entered num s.ring.writeIndex)
    have entered : (Stage.entered num s.ring.writeIndex).inside = 1 := rfl
    rw [entered, before, empty] at balance
    have most := write.guard
    dsimp only
    omega
  · intro u other w known
    by_cases same : u = t
    · subst same
      rw [Function.update_self] at known
      cases known
      exact ⟨rfl, settled.symm⟩
    · rw [Function.update_of_ne same] at known
      exact write.entered u other w known
  · intro u w known
    by_cases same : u = t
    · subst same
      rw [Function.update_self] at known
      cases known
    · rw [Function.update_of_ne same] at known
      exact absurd known (nobody u w)

theorem WriteSide.move (write : WriteSide s ms) (before : (ms t).inside = 1)
    (guard : s'.guard + stage.inside = s.guard + 1) (unentered : ∀ num w, stage ≠ .entered num w)
    (stored : ∀ w, stage = .stored w → s'.ring.writeIndex = w ∧
      s'.ring.stored.length % kMaxSize = (w + 1) % kMaxSize)
    (settled : (∀ w, stage ≠ .stored w) → s'.ring.writeIndex = s'.ring.stored.length % kMaxSize) :
    WriteSide s' (Function.update ms t stage) where
  guard := by
    have := held_update Stage.inside ms t stage
    have := write.guard
    omega
  entered := by
    intro u num w known
    by_cases same : u = t
    · subst same
      rw [Function.update_self] at known
      exact absurd known (unentered num w)
    · rw [Function.update_of_ne same] at known
      have outside := write.alone before same
      rw [known] at outside
      cases outside
  stored := by
    intro u w known
    by_cases same : u = t
    · subst same
      rw [Function.update_self] at known
      exact stored w known
    · rw [Function.update_of_ne same] at known
      have outside := write.alone before same
      rw [known] at outside
      cases outside
  settled := by
    intro nobody
    refine settled fun w known => nobody t w ?_
    rw [Function.update_self]
    exact known

theorem owed_exchange {args : Thread → Option (BitVec 32 × BitVec 32)} {before after : BitVec 32}
    (others : ∀ u, u ≠ t → Hw9.owed numbers args u (ms u) = Hw9.owed numbers s.args u (ms u))
    (balance : Hw9.owed numbers args t stage + after = Hw9.owed numbers s.args t (ms t) + before) :
    ∑ u, Hw9.owed numbers args u (Function.update ms t stage u) + after =
      ∑ u, Hw9.owed numbers s.args u (ms u) + before := by
  have exchanged := @sum_exchange Thread (BitVec 32) _ _ _
    (fun u => Hw9.owed numbers args u (Function.update ms t stage u))
    (fun u => Hw9.owed numbers s.args u (ms u)) t
    fun u other => by rw [Function.update_of_ne other, others u other]
  simp only [Function.update_self] at exchanged
  refine add_right_cancel (b := Hw9.owed numbers s.args t (ms t)) ?_
  calc _ = (∑ u, Hw9.owed numbers args u (Function.update ms t stage u) +
        Hw9.owed numbers s.args t (ms t)) + after := by abel
    _ = ∑ u, Hw9.owed numbers s.args u (ms u) + (Hw9.owed numbers args t stage + after) := by
      rw [exchanged]
      abel
    _ = _ := by
      rw [balance]
      abel

theorem Adding.work (adding : Adding numbers s ms m) (worker : t ≠ .main)
    (write : WriteSide s' (Function.update ms t stage)) (still : ∀ m', stage ≠ .main m')
    (queued : s'.ring.Queued kMaxSize) (taken : s'.ring.taken = s.ring.taken)
    (readIndex : s'.ring.readIndex = s.ring.readIndex)
    (count : s'.ring.stored.length + (ms t).storedCount = s.ring.stored.length + stage.storedCount)
    (posts : s'.posted + (ms t).postedCount = s.posted + stage.postedCount)
    (later : (ms t).postedCount ≤ stage.postedCount) (args : s'.args = s.args)
    (begun : s.args t = none → stage = .waiting)
    (exited : s'.exited = if stage = .exited then Function.update s.exited t true else s.exited)
    (running : ms t ≠ .exited)
    (owed : Hw9.owed numbers s.args t stage + s'.ring.contents.sum =
      Hw9.owed numbers s.args t (ms t) + s.ring.contents.sum)
    (printed : s'.printed = s.printed) : Adding numbers s' (Function.update ms t stage) m where
  main := by rw [Function.update_of_ne worker.symm, adding.main]
  workers := by
    intro u m' known
    by_cases same : u = t
    · subst same
      rw [Function.update_self] at known
      exact absurd known (still m')
    · rw [Function.update_of_ne same] at known
      exact adding.workers u m' known
  write := write
  queued := queued
  taken := by rw [taken, adding.taken]
  readIndex := by rw [readIndex, adding.readIndex]
  taken_le := adding.taken_le
  count := by
    have := held_update Stage.storedCount ms t stage
    have := adding.count
    omega
  posts := by
    have := held_update Stage.postedCount ms t stage
    have := adding.posts
    omega
  generators := by rw [args]; exact adding.generators
  adders := by rw [args]; exact adding.adders
  unstarted := by
    intro u other none
    rw [args] at none
    by_cases same : u = t
    · subst same
      rw [Function.update_self]
      exact begun none
    · rw [Function.update_of_ne same]
      exact adding.unstarted u other none
  exited := by
    intro u
    rw [exited]
    by_cases same : u = t
    · subst same
      rw [Function.update_self]
      split
      · rename_i ended
        rw [Function.update_self, ended]
        exact ⟨fun _ => rfl, fun _ => rfl⟩
      · rename_i going
        exact iff_of_false (fun ended => running ((adding.exited u).mp ended)) going
    · rw [Function.update_of_ne same]
      split
      · rw [Function.update_of_ne same]
        exact adding.exited u
      · exact adding.exited u
  joined := by
    intro i joined
    have before := adding.joined i joined
    have other : Thread.adder i ≠ t := fun same => running (by rw [← same, before])
    rw [Function.update_of_ne other, before]
  pushed := by
    intro waited i
    have before := adding.pushed waited i
    by_cases same : .generator i = t
    · subst same
      rw [Function.update_self]
      cases stage <;> simp only [Stage.postedCount] at later before ⊢ <;> omega
    · rw [Function.update_of_ne same]
      exact before
  owed := by
    rw [args, ← adding.owed]
    exact owed_exchange (fun _ _ => rfl) owed
  printed := by rw [printed, adding.printed]

theorem Adding.manage (adding : Adding numbers s ms m) {m' : MainState} (guard : s'.guard = s.guard)
    (writeIndex : s'.ring.writeIndex = s.ring.writeIndex) (stored : s'.ring.stored = s.ring.stored)
    (queued : s'.ring.Queued kMaxSize) (taken : s'.ring.taken.length = m'.taken)
    (readIndex : s'.ring.readIndex = m'.readIndex) (taken_le : m'.taken ≤ m'.waited)
    (posts : s'.posted + m'.waited = s.posted + m.waited)
    (generators : ∀ i, s'.args (.generator i) =
      if i.val < m'.generators then some (numbers i, 0) else none)
    (adders : ∀ i, (s'.args (.adder i)).isSome = true ↔ i.val < m'.created)
    (unstarted : ∀ u, s'.args u = none → s.args u = none) (exited : s'.exited = s.exited)
    (joined : ∀ i, i.val < m'.joined → ms (.adder i) = .exited)
    (pushed : 2 * kAddingThreadsCount ≤ m'.waited → ∀ i, (ms (.generator i)).postedCount = 1)
    (owed : ∑ u, Hw9.owed numbers s'.args u (Function.update ms .main (.main m') u) +
      s'.ring.contents.sum = ∑ u, Hw9.owed numbers s.args u (ms u) + s.ring.contents.sum)
    (printed : s'.printed = if m'.printed then [∑ i, numbers i] else []) :
    Adding numbers s' (Function.update ms .main (.main m')) m' where
  main := Function.update_self ..
  workers := by
    intro u other known
    by_contra worker
    rw [Function.update_of_ne worker] at known
    exact worker (adding.workers u other known)
  write := adding.write.quiet (by rw [adding.main]; rfl) rfl guard writeIndex stored
  queued := queued
  taken := taken
  readIndex := readIndex
  taken_le := taken_le
  count := by
    have balance := held_update Stage.storedCount ms .main (.main m')
    have none : (Stage.main m').storedCount = 0 := rfl
    rw [adding.main, none, show (Stage.main m).storedCount = 0 from rfl] at balance
    rw [stored, adding.count]
    omega
  posts := by
    have balance := held_update Stage.postedCount ms .main (.main m')
    rw [adding.main, show (Stage.main m').postedCount = 0 from rfl,
      show (Stage.main m).postedCount = 0 from rfl] at balance
    have := adding.posts
    omega
  generators := generators
  adders := adders
  unstarted := by
    intro u worker none
    rw [Function.update_of_ne worker]
    exact adding.unstarted u worker (unstarted u none)
  exited := by
    intro u
    rw [exited]
    by_cases same : u = .main
    · subst same
      rw [Function.update_self]
      refine iff_of_false (fun ended => ?_) (by simp)
      have ended := (adding.exited .main).mp ended
      rw [adding.main] at ended
      cases ended
    · rw [Function.update_of_ne same]
      exact adding.exited u
  joined := joined
  pushed := pushed
  owed := owed.trans adding.owed
  printed := printed

theorem Adding.worker (adding : Adding numbers s ms m) (known : ms t = stage)
    (still : ∀ m', stage ≠ .main m') : t ≠ .main := by
  rintro rfl
  rw [adding.main] at known
  exact still m known.symm

theorem Adding.begun (adding : Adding numbers s ms m) (worker : t ≠ .main) (known : ms t = stage)
    (past : stage ≠ .waiting) : s.args t ≠ none := fun none =>
  past (known.symm.trans (adding.unstarted t worker none))

theorem Adding.begins (adding : Adding numbers s ms m) (known : ms t = .waiting)
    {pair : BitVec 32 × BitVec 32} (started : s.args t = some pair) :
    Adding numbers s (Function.update ms t (.pushing (pushedBy t pair))) m := by
  have worker := adding.worker known (by simp)
  refine adding.work worker (adding.write.quiet (by rw [known]; rfl) rfl rfl rfl rfl) (by simp)
    adding.queued rfl rfl (by rw [known]; rfl) (by rw [known]; rfl) (by rw [known]; exact Nat.le_refl _) rfl
    (by simp [started]) (by simp) (by rw [known]; simp) ?_ rfl
  rw [known]
  congr 1
  cases t with
  | generator i =>
    have args := adding.generators i
    rw [started] at args
    split at args
    · cases args
      rfl
    · cases args
  | adder i => simp only [Hw9.owed, pushedBy, started, Option.elim]
  | main => exact absurd rfl worker

theorem Adding.locks (adding : Adding numbers s ms m) {num : BitVec 32} (known : ms t = .pushing num)
    (unlocked : 0 < s.guard) : Adding numbers { s with guard := s.guard - 1 }
      (Function.update ms t (.entered num s.ring.writeIndex)) m := by
  have worker := adding.worker known (by simp)
  exact adding.work worker (adding.write.lock (by rw [known]; rfl) unlocked num) (by simp) adding.queued rfl rfl
    (by rw [known]; rfl) (by rw [known]; rfl) (by rw [known]; exact Nat.le_refl _) rfl
    (fun none => absurd none (adding.begun worker known (by simp))) (by simp) (by rw [known]; simp)
    (by rw [known]; rfl) rfl

theorem Adding.room (adding : Adding numbers s ms m) : s.ring.count < kMaxSize := by
  have each : held Stage.storedCount ms ≤ ∑ _ : Thread, 1 := by
    refine Finset.sum_le_sum fun u _ => ?_
    cases ms u <;> simp [Stage.storedCount]
  have threads : ∑ _ : Thread, 1 < kMaxSize := by decide
  have := adding.count
  unfold SharedRing.count
  omega

theorem Adding.stores (adding : Adding numbers s ms m) {num : BitVec 32} {w : Nat}
    (known : ms t = .entered num w) : Adding numbers { s with ring := s.ring.storeCell w num }
      (Function.update ms t (.stored w)) m := by
  have worker := adding.worker known (by simp)
  obtain ⟨writeIndex, next⟩ := adding.write.entered t num w known
  refine adding.work worker (adding.write.move (by rw [known]; rfl) rfl (by simp) ?_ ?_) (by simp) ?_ rfl rfl
    (by rw [known]; simp [SharedRing.storeCell, Stage.storedCount]) (by rw [known]; rfl)
    (by rw [known]; exact Nat.le_refl _) rfl
    (fun none => absurd none (adding.begun worker known (by simp))) (by simp) (by rw [known]; simp) ?_ rfl
  · rintro _ ⟨⟩
    refine ⟨writeIndex, ?_⟩
    simp only [SharedRing.storeCell, List.length_append, List.length_singleton, ← next, Nat.mod_add_mod]
  · exact fun unstored => absurd rfl (unstored w)
  · rw [← next]
    exact adding.queued.storeCell adding.room num
  · rw [known, SharedRing.contents_storeCell adding.queued, List.sum_append, List.sum_singleton]
    simp only [Hw9.owed]
    abel

theorem Adding.advances (adding : Adding numbers s ms m) {w : Nat} (known : ms t = .stored w) :
    Adding numbers { s with ring := { s.ring with writeIndex := (w + 1) % kMaxSize } }
      (Function.update ms t .advanced) m := by
  have worker := adding.worker known (by simp)
  obtain ⟨-, next⟩ := adding.write.stored t w known
  have queued := adding.queued
  exact adding.work worker (adding.write.move (by rw [known]; rfl) rfl (by simp) (by simp)
    fun _ => next.symm) (by simp) ⟨queued.bounded, queued.taken_prefix, queued.cells_eq⟩ rfl rfl
    (by rw [known]; rfl) (by rw [known]; rfl) (by rw [known]; exact Nat.le_refl _) rfl
    (fun none => absurd none (adding.begun worker known (by simp))) (by simp) (by rw [known]; simp)
    (by rw [known]; rfl) rfl

theorem Adding.unlocks (adding : Adding numbers s ms m) (known : ms t = .advanced) :
    Adding numbers { s with guard := s.guard + 1 } (Function.update ms t .left) m := by
  have worker := adding.worker known (by simp)
  have settled : s.ring.writeIndex = s.ring.stored.length % kMaxSize := adding.write.settled fun u w stored => by
    have other : u ≠ t := fun same => by rw [same, known] at stored; cases stored
    have outside := adding.write.alone (by rw [known]; rfl) other
    rw [stored] at outside
    cases outside
  exact adding.work worker (adding.write.move (by rw [known]; rfl) rfl (by simp) (by simp)
    fun _ => settled) (by simp) adding.queued rfl rfl (by rw [known]; rfl) (by rw [known]; rfl)
    (by rw [known]; exact Nat.le_refl _) rfl (fun none => absurd none (adding.begun worker known (by simp)))
    (by simp) (by rw [known]; simp) (by rw [known]; rfl) rfl

theorem Adding.publishes (adding : Adding numbers s ms m) (known : ms t = .left) :
    Adding numbers { s with posted := s.posted + 1 } (Function.update ms t .posted) m := by
  have worker := adding.worker known (by simp)
  exact adding.work worker (adding.write.quiet (by rw [known]; rfl) rfl rfl rfl rfl) (by simp) adding.queued
    rfl rfl (by rw [known]; rfl) (by rw [known]; rfl) (by rw [known]; exact Nat.zero_le _) rfl
    (fun none => absurd none (adding.begun worker known (by simp))) (by simp) (by rw [known]; simp)
    (by rw [known]; rfl) rfl

theorem Adding.exits (adding : Adding numbers s ms m) (known : ms t = .posted) :
    Adding numbers { s with exited := Function.update s.exited t true } (Function.update ms t .exited) m := by
  have worker := adding.worker known (by simp)
  exact adding.work worker (adding.write.quiet (by rw [known]; rfl) rfl rfl rfl rfl) (by simp) adding.queued
    rfl rfl (by rw [known]; rfl) (by rw [known]; rfl) (by rw [known]; exact Nat.le_refl _) rfl
    (fun none => absurd none (adding.begun worker known (by simp))) (by simp) (by rw [known]; simp)
    (by rw [known]; rfl) rfl

theorem owed_args {args args' : Thread → Option (BitVec 32 × BitVec 32)}
    (same : ∀ i, args (.adder i) = args' (.adder i)) (u : Thread) (other : Stage) :
    Hw9.owed numbers args u other = Hw9.owed numbers args' u other := by
  cases other <;> cases u <;> simp [Hw9.owed, same]

theorem Adding.creates_generator (adding : Adding numbers s ms m) {i : Fin kNumGenThreadsCount}
    (next : i.val = m.generators) : Adding numbers
      { s with args := Function.update s.args (.generator i) (some (numbers i, 0)) }
      (Function.update ms .main (.main { m with generators := m.generators + 1 }))
      { m with generators := m.generators + 1 } := by
  have adders : ∀ j, Function.update s.args (.generator i) (some (numbers i, 0)) (.adder j) =
      s.args (.adder j) := fun j => Function.update_of_ne (by simp) ..
  refine adding.manage rfl rfl rfl adding.queued adding.taken adding.readIndex adding.taken_le rfl
    ?_ ?_ ?_ rfl adding.joined adding.pushed ?_ adding.printed
  · intro j
    by_cases same : j = i
    · subst same
      simp [next]
    · have before := adding.generators j
      have apart : j.val ≠ m.generators := fun equal => same (Fin.ext (equal.trans next.symm))
      have bound : (j.val < m.generators + 1) ↔ j.val < m.generators := by omega
      simp only [Function.update_of_ne (show Thread.generator j ≠ .generator i by simp [same]), before, bound]
  · intro j
    simp only [adders]
    exact adding.adders j
  · intro u none
    by_cases same : u = .generator i
    · subst same
      simp at none
    · simpa only [Function.update_of_ne same] using none
  · refine owed_exchange (fun u _ => owed_args adders u _) ?_
    rw [adding.main, owed_args adders]
    rfl

theorem Adding.creates_adder (adding : Adding numbers s ms m) {i : Fin kAddingThreadsCount}
    {first second : BitVec 32} (next : i.val = m.created) (popped : m.popped = [first, second]) :
    Adding numbers { s with args := Function.update s.args (.adder i) (some (first, second)) }
      (Function.update ms .main (.main { m with created := m.created + 1, popped := [] }))
      { m with created := m.created + 1, popped := [] } := by
  have fresh : s.args (.adder i) = none := by
    have unknown := adding.adders i
    cases args : s.args (.adder i) with
    | none => rfl
    | some pair =>
      rw [args] at unknown
      have := unknown.mp rfl
      omega
  refine adding.manage rfl rfl rfl adding.queued adding.taken adding.readIndex adding.taken_le rfl
    ?_ ?_ ?_ rfl adding.joined adding.pushed ?_ adding.printed
  · intro j
    simp only [Function.update_of_ne (show Thread.generator j ≠ .adder i by simp)]
    exact adding.generators j
  · intro j
    by_cases same : j = i
    · subst same
      simp [next]
    · have apart : j.val ≠ m.created := fun equal => same (Fin.ext (equal.trans next.symm))
      have bound : (j.val < m.created + 1) ↔ j.val < m.created := by omega
      simp only [Function.update_of_ne (show Thread.adder j ≠ .adder i by simp [same]), bound]
      exact adding.adders j
  · intro u none
    by_cases same : u = .adder i
    · subst same
      simp at none
    · simpa only [Function.update_of_ne same] using none
  · -- The pair passes from the main thread to the new adder.
    have handed := @sum_exchange Thread (BitVec 32) _ _ _
      (fun u => Hw9.owed numbers (Function.update s.args (.adder i) (some (first, second))) u (ms u))
      (fun u => Hw9.owed numbers s.args u (ms u)) (.adder i) fun u other => by
        cases ms u <;> cases u <;> simp only [Hw9.owed]
        rw [Function.update_of_ne other]
    have idle := adding.unstarted _ (by simp) fresh
    have before : Hw9.owed numbers s.args (.adder i) (ms (.adder i)) = 0 := by
      simp only [idle, Hw9.owed, fresh, Option.elim_none]
    have after : Hw9.owed numbers (Function.update s.args (.adder i) (some (first, second))) (.adder i)
        (ms (.adder i)) = first + second := by
      simp only [idle, Hw9.owed, Function.update_self, Option.elim_some]
    rw [before, after, add_zero] at handed
    have given := @owed_exchange numbers
      { s with args := Function.update s.args (.adder i) (some (first, second)) } ms .main
      (.main { m with created := m.created + 1, popped := [] })
      (Function.update s.args (.adder i) (some (first, second))) s.ring.contents.sum
      (first + second + s.ring.contents.sum) (fun _ _ => rfl) (by
        rw [adding.main]
        simp only [Hw9.owed, popped, List.sum_cons, List.sum_nil]
        abel)
    dsimp only at given
    rw [handed] at given
    refine add_right_cancel (b := first + second) ?_
    rw [add_assoc, add_comm s.ring.contents.sum]
    refine given.trans ?_
    abel

theorem posts_bound : ∀ i : Fin kNumGenThreadsCount, ∑ u : Thread, (match u with
    | .generator j => if j = i then 0 else 1
    | .adder j => if j.val + 1 < kAddingThreadsCount then 1 else 0
    | .main => 0) < 2 * kAddingThreadsCount := by decide

theorem Adding.waits (adding : Adding numbers s ms m) (posted : 0 < s.posted)
    (created : m.created < kAddingThreadsCount) (waited : m.waited ≤ 2 * m.created + 1) :
    Adding numbers { s with posted := s.posted - 1 }
      (Function.update ms .main (.main { m with waited := m.waited + 1 }))
      { m with waited := m.waited + 1 } := by
  refine adding.manage rfl rfl rfl adding.queued adding.taken adding.readIndex
    (Nat.le_succ_of_le adding.taken_le) (by simp only; omega) adding.generators adding.adders
    (fun _ none => none) rfl adding.joined ?_ ?_ adding.printed
  · intro enough i
    by_contra missing
    -- Without the post of generator `i` there are too few.
    have bound : held Stage.postedCount ms ≤ ∑ u : Thread, (match u with
        | .generator j => if j = i then 0 else 1
        | .adder j => if j.val + 1 < kAddingThreadsCount then 1 else 0
        | .main => 0) := by
      refine Finset.sum_le_sum fun u _ => ?_
      have most : ∀ other : Stage, other.postedCount ≤ 1 := fun other => by
        cases other <;> simp [Stage.postedCount]
      cases u with
      | generator j =>
        have := most (ms (.generator j))
        by_cases same : j = i
        · subst same
          simp only [if_true]
          omega
        · simpa only [if_neg same]
      | adder j =>
        have := most (ms (.adder j))
        by_cases early : j.val + 1 < kAddingThreadsCount
        · simpa only [if_pos early]
        · have late : ¬ j.val < m.created := by
            simp only at enough
            omega
          have fresh : s.args (.adder j) = none := by
            rw [← Option.not_isSome_iff_eq_none, adding.adders j]
            exact late
          simp only [adding.unstarted _ (by simp) fresh, Stage.postedCount, Nat.zero_le]
      | main => simp only [adding.main, Stage.postedCount, Nat.le_refl]
    have := posts_bound i
    have := adding.posts
    simp only at enough
    omega
  · refine owed_exchange (fun _ _ => rfl) ?_
    rw [adding.main]
    rfl

theorem Adding.advances_reading (adding : Adding numbers s ms m) (index : Nat) :
    Adding numbers { s with ring := { s.ring with readIndex := index } }
      (Function.update ms .main (.main { m with readIndex := index })) { m with readIndex := index } := by
  have queued := adding.queued
  refine adding.manage rfl rfl rfl ⟨queued.bounded, queued.taken_prefix, queued.cells_eq⟩ adding.taken
    rfl adding.taken_le rfl adding.generators adding.adders (fun _ none => none) rfl adding.joined
    adding.pushed ?_ adding.printed
  refine owed_exchange (fun _ _ => rfl) ?_
  rw [adding.main]
  rfl

theorem Adding.available (adding : Adding numbers s ms m) (fewer : m.taken < m.waited) :
    0 < s.ring.count := by
  have each : held Stage.postedCount ms ≤ held Stage.storedCount ms :=
    Finset.sum_le_sum fun u _ => by cases ms u <;> simp [Stage.postedCount, Stage.storedCount]
  have := adding.posts
  have := adding.count
  have := adding.taken
  unfold SharedRing.count
  omega

theorem Adding.pops (adding : Adding numbers s ms m) (fewer : m.taken < m.waited) :
    Adding numbers { s with ring := s.ring.loadCell (m.taken % kMaxSize) }
      (Function.update ms .main (.main { m with
        taken := m.taken + 1, popped := m.popped ++ [s.ring.cells (m.taken % kMaxSize)] }))
      { m with taken := m.taken + 1, popped := m.popped ++ [s.ring.cells (m.taken % kMaxSize)] } := by
  have some := adding.available fewer
  have contents := SharedRing.contents_loadCell adding.queued some
  have queued := adding.queued.loadCell some
  rw [adding.taken] at contents queued
  refine adding.manage rfl rfl rfl queued ?_ adding.readIndex fewer rfl adding.generators
    adding.adders (fun _ none => none) rfl adding.joined adding.pushed ?_ adding.printed
  · simp only [SharedRing.loadCell, List.length_append, List.length_singleton, adding.taken]
  · refine owed_exchange (fun _ _ => rfl) ?_
    rw [adding.main, contents]
    simp only [Hw9.owed, List.sum_append, List.sum_cons, List.sum_nil]
    abel

theorem Adding.joins_adder (adding : Adding numbers s ms m) {i : Fin kAddingThreadsCount}
    (next : i.val = m.joined) (ended : s.exited (.adder i) = true) :
    Adding numbers s (Function.update ms .main (.main { m with joined := m.joined + 1 }))
      { m with joined := m.joined + 1 } := by
  refine adding.manage rfl rfl rfl adding.queued adding.taken adding.readIndex adding.taken_le rfl
    adding.generators adding.adders (fun _ none => none) rfl ?_ adding.pushed ?_ adding.printed
  · intro j before
    by_cases same : j = i
    · subst same
      exact (adding.exited _).mp ended
    · have apart : j.val ≠ m.joined := fun equal => same (Fin.ext (equal.trans next.symm))
      have bound : j.val < m.joined + 1 := before
      exact adding.joined j (by omega)
  · refine owed_exchange (fun _ _ => rfl) ?_
    rw [adding.main]
    rfl

theorem Adding.prints (adding : Adding numbers s ms m) (unprinted : m.printed = false) :
    Adding numbers { s with printed := s.printed ++ [∑ i, numbers i] }
      (Function.update ms .main (.main { m with printed := true })) { m with printed := true } := by
  refine adding.manage rfl rfl rfl adding.queued adding.taken adding.readIndex adding.taken_le rfl
    adding.generators adding.adders (fun _ none => none) rfl adding.joined adding.pushed ?_ ?_
  · refine owed_exchange (fun _ _ => rfl) ?_
    rw [adding.main]
    rfl
  · simp only [adding.printed, unprinted, Bool.false_eq_true, if_false, if_true, List.nil_append]

theorem Adding.result (adding : Adding numbers s ms m) (joined : m.joined = kAddingThreadsCount)
    (waited : m.waited = 2 * kAddingThreadsCount) (taken : m.taken = 2 * kAddingThreadsCount)
    (popped : m.popped = []) : s.ring.cells (m.taken % kMaxSize) = ∑ i, numbers i := by
  have finished : ∀ u, (ms u).storedCount = (if u = .main then 0 else 1) ∧
      Hw9.owed numbers s.args u (ms u) = 0 := by
    intro u
    cases u with
    | generator i =>
      have posted := adding.pushed (by omega) i
      cases known : ms (.generator i) <;> rw [known] at posted <;>
        simp_all [Stage.postedCount, Stage.storedCount, Hw9.owed]
    | adder i =>
      have ended := adding.joined i (by rw [joined]; exact i.isLt)
      simp [ended, Stage.storedCount, Hw9.owed]
    | main => simp [adding.main, Stage.storedCount, Hw9.owed, popped]
  have stored : held Stage.storedCount ms = 2 * kAddingThreadsCount + 1 := by
    have counted : ∑ u : Thread, (if u = .main then 0 else 1) = 2 * kAddingThreadsCount + 1 := by decide
    rw [← counted]
    exact Finset.sum_congr rfl fun u _ => (finished u).1
  have single : s.ring.count = 1 := by
    have := adding.count
    have := adding.taken
    unfold SharedRing.count
    omega
  have contents := SharedRing.contents_loadCell adding.queued (by omega)
  have rest : (s.ring.loadCell (s.ring.taken.length % kMaxSize)).contents = [] := by
    have length := congrArg List.length contents
    rw [SharedRing.length_contents, single, List.length_cons] at length
    exact List.length_eq_zero_iff.mp (by omega)
  have sum := adding.owed
  rw [Finset.sum_eq_zero fun u _ => (finished u).2, zero_add, contents, rest, List.sum_singleton,
    adding.taken] at sum
  exact sum

theorem Adding.stay (adding : Adding numbers s ms m) (known : ms t = stage) :
    Adding numbers s (Function.update ms t stage) m := by
  rw [← known, Function.update_eq_self]
  exact adding

theorem Adding.perform {c : Call} {answer : c.Answer} (adding : Adding numbers s ms m)
    (allowed : (callOrder numbers t).allowed (ms t) c)
    (performed : perform t c answer s = some s') :
    ∃ stage', (callOrder numbers t).moves (ms t) c answer stage' ∧
      ∃ m', Adding numbers s' (Function.update ms t stage') m' := by
  cases known : ms t <;> rw [known] at allowed
  case waiting =>
    cases c <;> try exact (allowed : False).elim
    obtain ⟨started, ⟨⟩⟩ := Option.ite_none_right_eq_some.mp performed
    exact ⟨_, rfl, m, adding.begins known started⟩
  case pushing num =>
    cases c <;> try exact (allowed : False).elim
    obtain ⟨unlocked, ⟨⟩⟩ := Option.ite_none_right_eq_some.mp performed
    exact ⟨_, ⟨_, rfl⟩, m, adding.locks known unlocked⟩
  case entered num writeIndex =>
    cases c <;> try exact (allowed : False).elim
    · obtain ⟨rfl, ⟨⟩⟩ := Option.ite_none_right_eq_some.mp performed
      exact ⟨_, ⟨(adding.write.entered t num writeIndex known).1, rfl⟩, m, adding.stay known⟩
    · obtain ⟨rfl, rfl⟩ := allowed
      obtain ⟨⟩ := performed
      exact ⟨_, rfl, m, adding.stores known⟩
  case stored writeIndex =>
    cases c <;> try exact (allowed : False).elim
    · obtain ⟨rfl, ⟨⟩⟩ := Option.ite_none_right_eq_some.mp performed
      exact ⟨_, ⟨(adding.write.stored t writeIndex known).1, rfl⟩, m, adding.stay known⟩
    · obtain rfl := allowed
      obtain ⟨⟩ := performed
      exact ⟨_, rfl, m, adding.advances known⟩
  case advanced =>
    cases c <;> try exact (allowed : False).elim
    obtain ⟨⟩ := performed
    exact ⟨_, rfl, m, adding.unlocks known⟩
  case left =>
    cases c <;> try exact (allowed : False).elim
    obtain ⟨⟩ := performed
    exact ⟨_, rfl, m, adding.publishes known⟩
  case posted =>
    cases c <;> try exact (allowed : False).elim
    obtain ⟨⟩ := performed
    exact ⟨_, rfl, m, adding.exits known⟩
  case exited => cases c <;> exact allowed.elim
  case main m' =>
    obtain rfl := adding.workers t m' known
    obtain ⟨⟩ := adding.main.symm.trans known
    cases c <;> try exact (allowed : False).elim
    case wait =>
      obtain ⟨-, created, waited⟩ := allowed
      obtain ⟨posted, ⟨⟩⟩ := Option.ite_none_right_eq_some.mp performed
      exact ⟨_, rfl, _, adding.waits posted created waited⟩
    case loadReadIndex =>
      obtain ⟨rfl, ⟨⟩⟩ := Option.ite_none_right_eq_some.mp performed
      exact ⟨_, ⟨adding.readIndex, rfl⟩, m, adding.stay known⟩
    case storeReadIndex index =>
      obtain ⟨⟩ := performed
      exact ⟨_, rfl, _, adding.advances_reading index⟩
    case popCell i =>
      obtain ⟨fewer, rfl⟩ := allowed
      obtain ⟨rfl, ⟨⟩⟩ := Option.ite_none_right_eq_some.mp performed
      exact ⟨_, rfl, _, adding.pops fewer⟩
    case frontCell i =>
      obtain ⟨joined, waited, taken, popped, rfl⟩ := allowed
      obtain ⟨rfl, ⟨⟩⟩ := Option.ite_none_right_eq_some.mp performed
      exact ⟨_, ⟨adding.result joined waited taken popped, rfl⟩, m, adding.stay known⟩
    case create thread first second =>
      obtain ⟨⟩ := performed
      cases thread with
      | generator i =>
        obtain ⟨next, rfl, rfl⟩ := allowed
        exact ⟨_, rfl, _, adding.creates_generator next⟩
      | adder i => exact ⟨_, rfl, _, adding.creates_adder allowed.1 allowed.2⟩
      | main => exact allowed.elim
    case join thread =>
      obtain ⟨ended, ⟨⟩⟩ := Option.ite_none_right_eq_some.mp performed
      cases thread with
      | generator i => exact ⟨_, rfl, m, adding.stay known⟩
      | adder i => exact ⟨_, rfl, _, adding.joins_adder allowed.1 ended⟩
      | main => exact allowed.elim
    case print result =>
      obtain ⟨unprinted, rfl⟩ := allowed
      obtain ⟨⟩ := performed
      exact ⟨_, rfl, _, adding.prints unprinted⟩

end

end ArchCompSystems.Hw9
