import ArchCompSystems.Hw9.Adding

namespace ArchCompSystems.Hw9

open Library Library.Program

variable {numbers : Numbers} {pool : Pool Thread Call Call.Answer State}

/-- The main thread before it has done anything. -/
def MainState.initial : MainState := ⟨0, 0, 0, 0, 0, [], 0, false⟩

/-- The main thread after `iter` passes of the loop that adds. -/
def MainState.passed (iter : Nat) : MainState :=
  ⟨kNumGenThreadsCount, iter, 2 * iter, 2 * iter, 2 * iter % kMaxSize, [], 0, false⟩

theorem push_follows {t : Thread} (num : BitVec 32) :
    (callOrder numbers t).Follows (fun _ stage => stage = .posted) (push num) (.pushing num) := by
  refine Protocol.follows_call True.intro ?_
  rintro ⟨⟩ _ ⟨writeIndex, rfl⟩
  refine Protocol.follows_call True.intro ?_
  rintro _ _ ⟨rfl, rfl⟩
  refine Protocol.follows_call ⟨rfl, rfl⟩ ?_
  rintro ⟨⟩ _ rfl
  refine Protocol.follows_call True.intro ?_
  rintro _ _ ⟨rfl, rfl⟩
  refine Protocol.follows_call rfl ?_
  rintro ⟨⟩ _ rfl
  refine Protocol.follows_call True.intro ?_
  rintro ⟨⟩ _ rfl
  refine ⟨True.intro, ?_⟩
  rintro ⟨⟩ _ rfl
  exact rfl

theorem exit_follows {t : Thread} (worker : t ≠ .main) :
    (callOrder numbers t).Follows (fun _ => Final t) Call.exit.make .posted := by
  refine ⟨True.intro, ?_⟩
  rintro ⟨⟩ _ rfl
  cases t with
  | main => exact absurd rfl worker
  | generator i => exact rfl
  | adder i => exact rfl

theorem numberGenerator_follows (i : Fin kNumGenThreadsCount) :
    (callOrder numbers (.generator i)).Follows (fun _ => Final (.generator i)) numberGenerator
      .waiting := by
  refine Protocol.follows_call (by simp [callOrder]) ?_
  rintro pair _ rfl
  refine Protocol.follows_bind.mpr (Protocol.follows_mono ?_ (push_follows pair.1))
  rintro ⟨⟩ _ rfl
  exact exit_follows (by simp)

theorem adder_follows (i : Fin kAddingThreadsCount) :
    (callOrder numbers (.adder i)).Follows (fun _ => Final (.adder i)) adder .waiting := by
  refine Protocol.follows_call (by simp [callOrder]) ?_
  rintro pair _ rfl
  refine Protocol.follows_bind.mpr (Protocol.follows_mono ?_ (push_follows (pair.1 + pair.2)))
  rintro ⟨⟩ _ rfl
  exact exit_follows (by simp)

theorem startNumGenThreads_follows :
    (callOrder numbers .main).Follows (fun _ stage => stage = .main (.passed 0))
      (startNumGenThreads numbers) (.main .initial) := by
  refine Protocol.follows_bind.mpr (Protocol.follows_mono ?_
    (@Protocol.follows_forFrom _ _ _ _ Empty (callOrder numbers .main) (.main .initial) _
      (fun i _ stage => stage = .main { MainState.initial with generators := i })
      (fun _ _ => True) _ 0 () ?_ rfl))
  · rintro (_ | impossible) stage after
    · subst after
      exact rfl
    · exact impossible.elim
  · rintro i ⟨⟩ _ - bound rfl
    refine Protocol.follows_call ⟨Nat.mod_eq_of_lt (by simpa using bound), rfl, rfl⟩ ?_
    rintro ⟨⟩ _ rfl
    exact rfl

theorem popPair_follows {iter : Nat} (bound : iter < kAddingThreadsCount) :
    (callOrder numbers .main).Follows (fun pair stage => stage = .main { MainState.passed iter with
        waited := 2 * iter + 2, taken := 2 * iter + 2, readIndex := (2 * iter + 2) % kMaxSize
        popped := [pair.1, pair.2] }) popPair (.main (.passed iter)) := by
  refine Protocol.follows_call ⟨rfl, bound, Nat.le_succ _⟩ ?_
  rintro ⟨⟩ _ rfl
  refine Protocol.follows_call ⟨rfl, bound, Nat.le_refl _⟩ ?_
  rintro ⟨⟩ _ rfl
  refine Protocol.follows_call True.intro ?_
  rintro _ _ ⟨rfl, rfl⟩
  refine Protocol.follows_call ⟨by simp only [MainState.passed]; omega, rfl⟩ ?_
  rintro first _ rfl
  refine Protocol.follows_call True.intro ?_
  rintro _ _ ⟨rfl, rfl⟩
  refine Protocol.follows_call True.intro ?_
  rintro ⟨⟩ _ rfl
  refine Protocol.follows_call True.intro ?_
  rintro _ _ ⟨rfl, rfl⟩
  refine Protocol.follows_call ⟨by simp only [MainState.passed]; omega, ?_⟩ ?_
  · simp only [MainState.passed, Nat.mod_add_mod]
  rintro second _ rfl
  refine Protocol.follows_call True.intro ?_
  rintro _ _ ⟨rfl, rfl⟩
  refine Protocol.follows_call True.intro ?_
  rintro ⟨⟩ _ rfl
  simp only [Protocol.follows_pure, MainState.passed, List.nil_append, List.cons_append,
    Nat.mod_add_mod, Nat.add_assoc]

theorem joinAdders_follows : (callOrder numbers .main).Follows
    (fun _ stage => stage = .main { MainState.passed kAddingThreadsCount with joined := kAddingThreadsCount })
    (joinThreads adderAt kAddingThreadsCount) (.main (.passed kAddingThreadsCount)) := by
  refine Protocol.follows_bind.mpr (Protocol.follows_mono ?_
    (@Protocol.follows_forFrom _ _ _ _ Empty (callOrder numbers .main) (.main (.passed kAddingThreadsCount)) _
      (fun i _ stage => stage = .main { MainState.passed kAddingThreadsCount with joined := i })
      (fun _ _ => True) _ 0 () ?_ rfl))
  · rintro (_ | impossible) stage after
    · subst after
      exact rfl
    · exact impossible.elim
  · rintro i ⟨⟩ _ - bound rfl
    refine Protocol.follows_call ⟨Nat.mod_eq_of_lt (by simpa using bound), rfl⟩ ?_
    rintro ⟨⟩ _ rfl
    exact rfl

theorem joinGenerators_follows {m : MainState} (created : m.generators = kNumGenThreadsCount) :
    (callOrder numbers .main).Follows (fun _ stage => stage = .main m)
      (joinThreads generatorAt kNumGenThreadsCount) (.main m) := by
  refine Protocol.follows_bind.mpr (Protocol.follows_mono ?_
    (@Protocol.follows_forFrom _ _ _ _ Empty (callOrder numbers .main) (.main m) _
      (fun _ _ stage => stage = .main m) (fun _ _ => True) _ 0 () ?_ rfl))
  · rintro (_ | impossible) stage after
    · exact after
    · exact impossible.elim
  · rintro i ⟨⟩ _ - bound rfl
    refine Protocol.follows_call created ?_
    rintro ⟨⟩ _ rfl
    exact rfl

theorem accumulateResults_follows : (callOrder numbers .main).Follows
    (fun _ stage => stage = .main { MainState.passed kAddingThreadsCount with
      joined := kAddingThreadsCount, printed := true })
    accumulateResults (.main (.passed 0)) := by
  refine Protocol.follows_bind.mpr (Protocol.follows_mono ?_
    (@Protocol.follows_forFrom _ _ _ _ Empty (callOrder numbers .main) (.main (.passed 0)) _
      (fun iter _ stage => stage = .main (.passed iter)) (fun _ _ => True) _ 0 () ?_ rfl))
  · rintro (_ | impossible) stage after
    · obtain rfl : stage = .main (.passed kAddingThreadsCount) := by simpa using after
      refine Protocol.follows_bind.mpr (Protocol.follows_mono ?_ joinAdders_follows)
      rintro ⟨⟩ _ rfl
      refine Protocol.follows_bind.mpr (Protocol.follows_call True.intro ?_)
      rintro _ _ ⟨rfl, rfl⟩
      refine ⟨⟨rfl, rfl, rfl, rfl, rfl⟩, ?_⟩
      rintro _ _ ⟨rfl, rfl⟩
      refine ⟨⟨rfl, rfl⟩, ?_⟩
      rintro ⟨⟩ _ rfl
      exact rfl
    · exact impossible.elim
  · rintro iter ⟨⟩ _ - bound rfl
    have inside : iter < kAddingThreadsCount := by simpa using bound
    refine Protocol.follows_bind.mpr (Protocol.follows_mono ?_ (popPair_follows inside))
    rintro ⟨first, second⟩ _ rfl
    refine Protocol.follows_call ⟨Nat.mod_eq_of_lt inside, rfl⟩ ?_
    rintro ⟨⟩ _ rfl
    exact rfl

theorem main_follows :
    (callOrder numbers .main).Follows (fun _ => Final .main) (main numbers) (.main .initial) := by
  refine Protocol.follows_bind.mpr (Protocol.follows_mono ?_ startNumGenThreads_follows)
  rintro ⟨⟩ _ rfl
  refine Protocol.follows_bind.mpr (Protocol.follows_mono ?_ accumulateResults_follows)
  rintro ⟨⟩ _ rfl
  refine Protocol.follows_mono ?_ (joinGenerators_follows rfl)
  rintro ⟨⟩ _ rfl
  exact ⟨_, rfl, rfl, rfl, rfl⟩

def initialStage (t : Thread) : Stage :=
  match t with
  | .main => .main .initial
  | _ => .waiting

theorem adding_start : Adding numbers (start numbers).state initialStage .initial where
  main := rfl
  workers := by
    intro t m known
    cases t with
    | main => rfl
    | generator i => cases known
    | adder i => cases known
  write := by
    refine ⟨?_, ?_, ?_, fun _ => rfl⟩
    · rw [held_eq_zero fun t => by cases t <;> rfl]
      rfl
    · intro t num w known
      cases t <;> cases known
    · intro t w known
      cases t <;> cases known
  queued := ⟨Nat.zero_le _, List.prefix_refl _, by simp [start]⟩
  taken := rfl
  readIndex := rfl
  taken_le := Nat.le_refl _
  count := (held_eq_zero fun t => by cases t <;> rfl).symm
  posts := (held_eq_zero fun t => by cases t <;> rfl).symm
  generators := fun _ => rfl
  adders := by simp [start, MainState.initial]
  unstarted := by
    intro t worker _
    cases t with
    | main => exact absurd rfl worker
    | generator i => rfl
    | adder i => rfl
  exited := by
    intro t
    cases t <;> simp [start, initialStage]
  joined := fun i before => absurd before (Nat.not_lt_zero _)
  pushed := by simp [MainState.initial]
  owed := by
    have generators := @Fintype.sum_of_injective _ _ _ _ _ _ Thread.generator
      (fun _ _ same => Thread.generator.inj same) numbers
      (fun t => Hw9.owed numbers (fun _ => none) t (initialStage t)) (fun t outside => by
        cases t with
        | generator i => exact absurd ⟨i, rfl⟩ outside
        | adder i => rfl
        | main => rfl) (fun i => rfl)
    rw [generators]
    exact add_zero _
  printed := rfl

theorem Reach.adding (reach : Reach numbers pool) : ∃ ms, pool.Governed (callOrder numbers) initialStage
    Final (fun s ms => ∃ m, Adding numbers s ms m) ms := by
  refine Pool.Reach.governed ?_ (fun _ _ _ => rfl) ⟨fun _ => .nil, ?_, _, adding_start⟩ reach
  · rintro s ms t c answer s' ⟨m, adding⟩ allowed performed
    exact adding.perform allowed performed
  · intro t
    cases t with
    | generator i => exact numberGenerator_follows i
    | adder i => exact adder_follows i
    | main => exact main_follows

def Blocked (t : Thread) (c : Call) (s : State) : Prop :=
  match c with
  | .lock => s.guard = 0
  | .wait => s.posted = 0
  | .begin => s.args t = none
  | .join u => s.exited u = false
  | _ => False

theorem perform_or_blocked (t : Thread) (c : Call) (s : State) :
    (∃ answer s', perform t c answer s = some s') ∨ Blocked t c s := by
  cases c with
  | lock =>
    by_cases unlocked : 0 < s.guard
    · exact .inl ⟨(), _, if_pos unlocked⟩
    · exact .inr (Nat.eq_zero_of_not_pos unlocked)
  | wait =>
    by_cases posted : 0 < s.posted
    · exact .inl ⟨(), _, if_pos posted⟩
    · exact .inr (Nat.eq_zero_of_not_pos posted)
  | begin =>
    cases args : s.args t with
    | none => exact .inr args
    | some pair => exact .inl ⟨pair, s, if_pos args⟩
  | join u =>
    cases ended : s.exited u with
    | false => exact .inr ended
    | true => exact .inl ⟨(), s, if_pos ended⟩
  | loadWriteIndex => exact .inl ⟨_, s, if_pos rfl⟩
  | loadReadIndex => exact .inl ⟨_, s, if_pos rfl⟩
  | popCell i => exact .inl ⟨_, _, if_pos rfl⟩
  | frontCell i => exact .inl ⟨_, s, if_pos rfl⟩
  | unlock => exact .inl ⟨(), _, rfl⟩
  | post => exact .inl ⟨(), _, rfl⟩
  | storeWriteIndex index => exact .inl ⟨(), _, rfl⟩
  | storeCell i num => exact .inl ⟨(), _, rfl⟩
  | storeReadIndex index => exact .inl ⟨(), _, rfl⟩
  | create thread first second => exact .inl ⟨(), _, rfl⟩
  | exit => exact .inl ⟨(), _, rfl⟩
  | print result => exact .inl ⟨(), _, rfl⟩

section

variable {s : State} {ms : Thread → Stage} {m : MainState} {t : Thread}

theorem Adding.stuck_worker (adding : Adding numbers s ms m) (worker : t ≠ .main) {c : Call}
    (allowed : (callOrder numbers t).allowed (ms t) c) (blocked : Blocked t c s) :
    (ms t = .waiting ∧ s.args t = none) ∨ (ms t).inside = 0 ∧ s.guard = 0 := by
  cases known : ms t <;> rw [known] at allowed
  case main m' => exact absurd (adding.workers t m' known) worker
  all_goals cases c <;> try exact (allowed : False).elim
  case waiting.begin => exact .inl ⟨rfl, blocked⟩
  case pushing.lock => exact .inr ⟨rfl, blocked⟩
  all_goals exact blocked.elim

/-- What a thread has posted at least when all generators and the first `created` adders have exited. -/
def leastPosts (created : Nat) : Thread → Nat
  | .generator _ => 1
  | .adder i => if i.val < created then 1 else 0
  | .main => 0

theorem sum_leastPosts (created : Fin kAddingThreadsCount) :
    ∑ u : Thread, leastPosts created.val u = kNumGenThreadsCount + created.val := by
  revert created
  decide

theorem Adding.main_free (adding : Adding numbers s ms m) {c : Call}
    (allowed : (callOrder numbers .main).allowed (ms .main) c)
    (workers : ∀ u, u ≠ .main → ms u = .exited ∨ ms u = .waiting ∧ s.args u = none) :
    ¬ Blocked .main c s := by
  rw [adding.main] at allowed
  intro blocked
  have generators : m.generators = kNumGenThreadsCount → ∀ i, ms (.generator i) = .exited := by
    intro all i
    refine (workers (.generator i) (by simp)).resolve_right fun fresh => ?_
    have args := adding.generators i
    rw [fresh.2, all, if_pos i.isLt] at args
    cases args
  have adders : ∀ i, i.val < m.created → ms (.adder i) = .exited := by
    intro i early
    refine (workers (.adder i) (by simp)).resolve_right fun fresh => ?_
    have started := (adding.adders i).mpr early
    rw [fresh.2] at started
    cases started
  cases c <;> try exact (allowed : False).elim
  case wait =>
    obtain ⟨all, created, waited⟩ := allowed
    -- The generators and the created adders have posted more than was waited for.
    have posts : kNumGenThreadsCount + m.created ≤ held Stage.postedCount ms := by
      rw [← sum_leastPosts ⟨m.created, created⟩]
      refine Finset.sum_le_sum fun u _ => ?_
      cases u with
      | generator i => simp only [generators all i, Stage.postedCount, leastPosts, Nat.le_refl]
      | adder i =>
        by_cases early : i.val < m.created
        · simp only [adders i early, Stage.postedCount, leastPosts, if_pos early, Nat.le_refl]
        · simp only [leastPosts, if_neg early, Nat.zero_le]
      | main => exact Nat.zero_le _
    have := adding.posts
    have none : s.posted = 0 := blocked
    have threads : kAddingThreadsCount + 1 = kNumGenThreadsCount := rfl
    omega
  case join u =>
    have running : s.exited u = false := blocked
    cases u with
    | generator i =>
      have ended := (adding.exited _).mpr (generators allowed i)
      rw [running] at ended
      cases ended
    | adder i =>
      have ended := (adding.exited _).mpr (adders i (by rw [allowed.2]; exact i.isLt))
      rw [running] at ended
      cases ended
    | main => exact allowed.elim
  all_goals exact blocked

end

theorem progress (reach : Reach numbers pool) : (∀ t, pool.programs t = .done ()) ∨
    ∃ action pool', Pool.Step machine pool action pool' := by
  obtain ⟨ms, governed⟩ := reach.adding
  obtain ⟨m, adding⟩ := governed.agrees
  by_contra neither
  obtain ⟨unfinished, stuck⟩ := not_or.mp neither
  have blocked : ∀ t, pool.programs t = .done () ∨ ∃ c next, pool.programs t = .call c next ∧
      (callOrder numbers t).allowed (ms t) c ∧ Blocked t c pool.state := by
    intro t
    have following := governed.follows t
    cases current : pool.programs t with
    | done value => exact .inl rfl
    | call c next =>
      rw [current] at following
      refine .inr ⟨c, next, rfl, following.1, (perform_or_blocked t c pool.state).resolve_left ?_⟩
      rintro ⟨answer, s', performed⟩
      exact stuck ⟨_, _, .call current performed⟩
  have ended : ∀ t, pool.programs t = .done () → Final t (ms t) := by
    intro t current
    have following := governed.follows t
    rw [current] at following
    exact following
  have outside : ∀ t, (ms t).inside = 0 := by
    intro t
    by_cases worker : t = .main
    · subst worker
      simp only [adding.main, Stage.inside]
    · rcases blocked t with current | ⟨c, next, -, allowed, blocked⟩
      · have final := ended t current
        cases t with
        | main => exact absurd rfl worker
        | generator i => rw [show ms _ = .exited from final]; rfl
        | adder i => rw [show ms _ = .exited from final]; rfl
      · rcases adding.stuck_worker worker allowed blocked with ⟨known, -⟩ | ⟨outside, -⟩
        · rw [known]
          rfl
        · exact outside
  have unlocked : pool.state.guard = 1 := by
    have := adding.write.guard
    rw [held_eq_zero outside] at this
    exact this
  have workers : ∀ u, u ≠ .main → ms u = .exited ∨ ms u = .waiting ∧ pool.state.args u = none := by
    intro u worker
    rcases blocked u with current | ⟨c, next, -, allowed, blocked⟩
    · have final := ended u current
      cases u with
      | main => exact absurd rfl worker
      | generator i => exact .inl final
      | adder i => exact .inl final
    · rcases adding.stuck_worker worker allowed blocked with fresh | ⟨-, locked⟩
      · exact .inr fresh
      · rw [unlocked] at locked
        cases locked
  obtain ⟨m', same, generators, created, -⟩ := ended .main ((blocked .main).resolve_right
    fun ⟨_, _, _, allowed, blocked⟩ => adding.main_free allowed workers blocked)
  obtain ⟨⟩ := adding.main.symm.trans same
  refine unfinished fun t => (blocked t).resolve_right ?_
  rintro ⟨c, next, -, allowed, blocked⟩
  cases t with
  | main => exact adding.main_free allowed workers blocked
  | generator i =>
    rcases workers (.generator i) (by simp) with exited | ⟨-, fresh⟩
    · rw [exited] at allowed
      cases c <;> exact allowed
    · have args := adding.generators i
      rw [fresh, generators, if_pos i.isLt] at args
      cases args
  | adder i =>
    rcases workers (.adder i) (by simp) with exited | ⟨-, fresh⟩
    · rw [exited] at allowed
      cases c <;> exact allowed
    · have started := (adding.adders i).mpr (by rw [created]; exact i.isLt)
      rw [fresh] at started
      cases started

/-- The numbers meet in the queue: nothing unread is overwritten, what is popped was pushed, nobody
    waits forever, and nothing but the sum of all numbers is printed. -/
structure ComputesSum (numbers : Numbers) (pool : Pool Thread Call Call.Answer State) : Prop where
  store_free : ∀ t i num next, pool.programs t = .call (.storeCell i num) next →
    i = pool.state.ring.stored.length % kMaxSize ∧
    ∀ k, pool.state.ring.taken.length ≤ k → k < pool.state.ring.stored.length → k % kMaxSize ≠ i
  pop_pushed : ∀ t i next, pool.programs t = .call (.popCell i) next →
    pool.state.ring.stored[pool.state.ring.taken.length]? = some (pool.state.ring.cells i)
  popped_in_order : pool.state.ring.taken <+: pool.state.ring.stored
  printed : pool.state.printed = [] ∨ pool.state.printed = [∑ i, numbers i]
  finished : (∀ t, pool.programs t = .done ()) → pool.state.printed = [∑ i, numbers i]
  progress : (∀ t, pool.programs t = .done ()) ∨ ∃ action pool', Pool.Step machine pool action pool'

/-- For every numbers and every schedule. -/
theorem every_schedule_computes_sum (reach : Reach numbers pool) : ComputesSum numbers pool := by
  obtain ⟨ms, governed⟩ := reach.adding
  obtain ⟨m, adding⟩ := governed.agrees
  have allowed : ∀ {t c next}, pool.programs t = .call c next →
      (callOrder numbers t).allowed (ms t) c := by
    intro t c next current
    have following := governed.follows t
    rw [current] at following
    exact following.1
  refine ⟨?_, ?_, adding.queued.taken_prefix, ?_, ?_, Hw9.progress reach⟩
  · intro t i num next current
    have storing := allowed current
    cases known : ms t <;> rw [known] at storing <;> try exact (storing : False).elim
    rename_i value writeIndex
    obtain ⟨rfl, rfl⟩ := storing
    obtain ⟨-, cell⟩ := adding.write.entered t num i known
    refine ⟨cell.symm, fun k lower upper => ?_⟩
    rw [← cell]
    exact adding.queued.free_cell adding.room lower upper
  · intro t i next current
    have popping := allowed current
    cases known : ms t <;> rw [known] at popping <;> try exact (popping : False).elim
    rename_i m'
    obtain rfl := adding.workers t m' known
    obtain ⟨⟩ := adding.main.symm.trans known
    obtain ⟨fewer, rfl⟩ := popping
    rw [adding.queued.front (adding.available fewer), adding.taken]
  · rw [adding.printed]
    cases m.printed
    · exact .inl rfl
    · exact .inr rfl
  · intro ended
    have following := governed.follows .main
    rw [ended .main] at following
    obtain ⟨m', same, -, -, printed⟩ := following
    obtain ⟨⟩ := adding.main.symm.trans same
    rw [adding.printed, printed]
    rfl

def answerOf (t : Thread) : (call : Call) → State → Option call.Answer
  | .loadWriteIndex, s => some s.ring.writeIndex
  | .loadReadIndex, s => some s.ring.readIndex
  | .popCell i, s | .frontCell i, s => some (s.ring.cells i)
  | .begin, s => s.args t
  | .lock, _ | .unlock, _ | .post, _ | .wait, _ | .storeWriteIndex _, _ | .storeCell _ _, _
  | .storeReadIndex _, _ | .create _ _ _, _ | .exit, _ | .join _, _ | .print _, _ => some ()

def oneByOne : List (Pool.Turn Thread Call Call.Answer State) :=
  .go .main 20 (answerOf .main) ::
    (List.finRange kNumGenThreadsCount).map (fun i => .go (.generator i) 9 (answerOf (.generator i))) ++
    (List.finRange kAddingThreadsCount).flatMap (fun i =>
      [.go .main 11 (answerOf .main), .go (.adder i) 9 (answerOf (.adder i))]) ++
    [.go .main 42 (answerOf .main)]

/-- With the numbers of the source, a whole run prints 210. -/
theorem one_by_one_computes_sum : ∃ pool, pool.state.printed = [210] ∧
    ComputesSum (fun i => BitVec.ofNat 32 (i.val + 1)) pool := by
  obtain ⟨pool, reach, printed⟩ := @Pool.exists_reach_of_replay _ _ _ _ _ machine (fun _ _ => True)
    (start fun i => BitVec.ofNat 32 (i.val + 1)) (fun _ _ => true) oneByOne
    (fun pool => decide (pool.state.printed = [210])) (fun _ _ _ => True.intro) (by decide +kernel)
  exact ⟨pool, of_decide_eq_true printed, every_schedule_computes_sum reach⟩

end ArchCompSystems.Hw9
