import ArchCompSystems.OsIhw3.DescriptorAccount

namespace ArchCompSystems.OsIhw3

open Library Library.Program Library.Machine

/-- The unlock after a registration succeeds; who clears a slot, or closes the connection in it, does so alone and
    finds there what it has read; and no cancellation comes between clearing and closing. -/
def DropsAlone (pool : ServerPool) : Action ThreadId Call Call.Answer → Prop
  | .call t ⟨.mutexUnlock _, answer⟩ => workOf (pool.history t) = .registered → answer = none
  | .call t ⟨.storeFd _ _ _, _⟩ | .call t ⟨.close _, _⟩ =>
    (workOf (pool.history t)).StillThere pool.state t (workOf (pool.history managersThread))
  | .cut t _ => ¬ (workOf (pool.history t)).Dropping
  | _ => True

section

variable {rounds : Nat} {pool : ServerPool} {t : ThreadId} {call : Call} {answer : call.Answer} {s : ServerState}

theorem possible_of_ne {work : Work} (unlocks : ∀ c, call ≠ .mutexUnlock c) (loads : ∀ c i, call ≠ .loadFd c i) :
    (descriptorMonitor t).possible work call answer := by
  cases call with
  | mutexUnlock c => exact absurd rfl (unlocks c)
  | loadFd c i => exact absurd rfl (loads c i)
  | _ => cases work <;> exact True.intro

theorem accounted_call (accounted : Accounted pool.state pool.history)
    (alone : DropsAlone pool (.call t ⟨call, answer⟩)) (running : pool.state.exitStatus t = none)
    (allowed : (descriptorMonitor t).allowed (workOf (pool.history t)) call)
    (performed : machine.perform t call answer pool.state = some s) :
    (descriptorMonitor t).possible (workOf (pool.history t)) call answer ∧
      Accounted s (advanced pool.history t ⟨call, answer⟩) := by
  cases call with
  | loadFd => exact accounted_loadFd accounted allowed performed
  | mutexUnlock =>
    refine ⟨?_, accounted_mutexUnlock accounted performed⟩
    cases work : workOf (pool.history t) with
    | registered => exact alone work
    | _ => exact True.intro
  | accept => exact ⟨possible_of_ne nofun nofun, accounted_accept accounted allowed performed⟩
  | storeFd => exact ⟨possible_of_ne nofun nofun, accounted_storeFd accounted running alone allowed performed⟩
  | close => exact ⟨possible_of_ne nofun nofun, accounted_close accounted alone allowed performed⟩
  | pthreadJoin => exact ⟨possible_of_ne nofun nofun, accounted_pthreadJoin accounted allowed performed⟩
  | nanosleep => exact ⟨possible_of_ne nofun nofun, accounted_nanosleep accounted allowed performed⟩
  | _ =>
    refine ⟨possible_of_ne nofun nofun, accounted_leaves accounted ?_ performed⟩
    exact True.intro

theorem Work.Fits.resting {work : Work} (fits : work.Fits s t) (other : t ≠ mainThread) (drops : ¬ work.Dropping) :
    work.Resting := by
  cases work with
  | idle | looking => exact True.intro
  | cleared | closed => exact absurd True.intro drops
  | accepted | registered => exact absurd fits other
  | _ => exact absurd fits.1 other

theorem accounted_cut (accounted : Accounted pool.state pool.history) (drops : ¬ (workOf (pool.history t)).Dropping)
    (other : t ≠ mainThread) (taken : machine.cut t call pool.state = some s) :
    finalWork t (workOf (pool.history t)) ∧ Accounted s pool.history := by
  obtain ⟨-, same⟩ := Option.ite_none_right_eq_some.mp taken
  cases same
  refine ⟨?_, accounted.places, accounted.balance, fun u => (accounted.fits u).mono rfl fun v ended => ?_,
    accounted.accepted⟩
  · rw [finalWork, if_neg other]
    exact (accounted.fits t).resting other drops
  · show Function.update _ _ _ _ ≠ _
    by_cases same : v = t
    · subst same
      rw [Function.update_self]
      exact Option.some_ne_none _
    · rwa [Function.update_of_ne same]

theorem held_initServer {fd : Int} (valid : fd ≠ -1) : held initServer fd = 0 := by
  have none : ∀ c, slotsWith (· = fd) (initServer.slots c) (maxNumberOf c) = 0 := by
    refine fun c => slotsWith_eq_zero_iff.mpr fun i inside same => valid ?_
    have free : initServer.slots c i = -1 := if_pos inside
    exact same.symm.trans free
  simp only [held, heldWithin, none]

theorem accounted_start : Accounted initServer fun _ => [] := by
  refine ⟨fun fd valid => ?_, fun fd valid => ?_, fun _ => True.intro, fun fd => ?_⟩
  · rw [held_initServer valid]
    exact Nat.le_refl 0
  · rw [held_initServer valid]
    rfl
  · simp [acceptedIn, initServer]

theorem recorded_of_reach (reach : Pool.Reach machine DropsAlone (serverPool rounds) pool) :
    pool.Recorded descriptorMonitor (fun _ => .idle) finalWork Accounted := by
  have strengthened : Pool.Reach machine (fun pool action => DropsAlone pool action ∧
      (∀ t event, action = .call t event → pool.state.exitStatus t = none) ∧
      ∀ t call, action = .cut t call → t ≠ mainThread) (serverPool rounds) pool := by
    refine reach.strengthen fun pool action pool' before alone taken => ⟨alone, ?_⟩
    have told := exitsTold_of_reach (before.mono fun _ _ _ => True.intro)
    cases taken with
    | call current performed =>
      refine ⟨fun t event same => ?_, nofun⟩
      cases same
      exact told.running current
    | cut current taken =>
      refine ⟨nofun, fun t call same main => ?_⟩
      cases same
      subst main
      have cancelled := (Option.ite_none_right_eq_some.mp taken).1.1
      rw [told.uncancelled] at cancelled
      cases cancelled
  refine strengthened.recorded (fun pool t call answer s accounted ok allowed performed =>
    accounted_call accounted ok.1 (ok.2.1 _ _ rfl) allowed performed)
    (fun pool t call s accounted ok taken => accounted_cut accounted ok.1 (ok.2.2 _ _ rfl) taken) ?_
  exact ⟨fun _ => True.intro, serverPool_obeysDescriptors rounds, accounted_start⟩

/-- The thread has closed the connection that is in the slot: `find_and_shutdown` is about to clear the slot, or
    `deinit_server` has been past it. -/
def Work.HasClosed (c : ClientType) (i : Nat) (fd : Int) : Work → Prop
  | .closed d j gone => d = c ∧ j = i ∧ gone = fd
  | .sweeping swept | .sweepingAt swept _ _ => i < swept c
  | _ => False

variable {work : Work} {fd : Int} {c : ClientType} {i : Nat} {history : ThreadId → List ServerEvent}

theorem Work.Fits.overdue_eq_zero (fits : work.Fits s t) (others : t ≠ mainThread ∧ t ≠ managersThread) :
    work.overdue s.slots fd = 0 := by
  cases work with
  | closed => exact absurd fits.1 others.2
  | sweeping | sweepingAt => exact absurd fits.1 others.1
  | _ => rfl

theorem Work.Fits.carries_eq_zero (fits : work.Fits s t) (others : managersThread < t) : work.carries fd = 0 := by
  have notMain : t ≠ mainThread := by
    rintro rfl
    exact absurd others (by decide)
  cases work with
  | accepted => exact absurd fits notMain
  | registering => exact absurd fits.1 notMain
  | cleared => exact absurd fits (Nat.not_le.mpr others)
  | _ => rfl

theorem Work.Fits.overdue_le (fits : work.Fits s t) (valid : fd ≠ -1) : work.overdue s.slots fd ≤ held s fd := by
  cases work with
  | closed c i gone =>
    show (if gone = fd then 1 else 0) ≤ held s fd
    by_cases same : gone = fd
    · subst same
      rw [if_pos rfl]
      exact heldWithin_pos fits.2.1 (fits.2.2 valid)
    · rw [if_neg same]
      exact Nat.zero_le _
  | sweeping swept => exact heldWithin_mono fits.2.2
  | sweepingAt swept => exact heldWithin_mono fits.2.2.1
  | _ => exact Nat.zero_le _

theorem overdue_eq (accounted : Accounted s history) (fd : Int) : overdue s history fd =
    (workOf (history mainThread)).overdue s.slots fd + (workOf (history managersThread)).overdue s.slots fd := by
  have poll : (workOf (history pollThread)).overdue s.slots fd = 0 :=
    (accounted.fits pollThread).overdue_eq_zero (by decide)
  have logs : (workOf (history logsThread)).overdue s.slots fd = 0 :=
    (accounted.fits logsThread).overdue_eq_zero (by decide)
  have signal : (workOf (history signalThread)).overdue s.slots fd = 0 :=
    (accounted.fits signalThread).overdue_eq_zero (by decide)
  simp only [overdue, Finset.sum_range_succ, Finset.sum_range_zero]
  simp only [pollThread, logsThread, signalThread] at poll logs signal
  simp only [mainThread, managersThread]
  omega

theorem opened_le : opened s fd ≤ 1 := by
  unfold opened
  split <;> omega

theorem opened_of_taken (accounted : Accounted s history) (inside : i < maxNumberOf c) (valid : s.slots c i ≠ -1) :
    opened s (s.slots c i) = 1 ∧ s.slots c i ∈ acceptedIn (history mainThread) := by
  have here : 0 < held s (s.slots c i) := heldWithin_pos inside rfl
  have places := accounted.places _ valid
  have most : opened s (s.slots c i) ≤ 1 := opened_le
  have one : opened s (s.slots c i) = 1 := by omega
  have member : s.slots c i ∈ s.accepted := by
    by_contra never
    rw [opened, if_neg never] at one
    cases one
  exact ⟨one, (accounted.accepted _).mpr ⟨member, valid⟩⟩

theorem Work.Fits.overdue_pos_iff (fits : work.Fits s t) (valid : fd ≠ -1) (one : held s fd ≤ 1)
    (inside : i < maxNumberOf c) (taken : s.slots c i = fd) :
    0 < work.overdue s.slots fd ↔ work.HasClosed c i fd := by
  have unique : ∀ {d j}, j < maxNumberOf d → s.slots d j = fd → d = c ∧ j = i := fun inside' taken' =>
    eq_of_heldWithin_le_one valid one inside taken inside' taken'
  have passed : ∀ swept : ClientType → Nat, (∀ d, swept d ≤ maxNumberOf d) →
      (0 < heldWithin s.slots swept fd ↔ i < swept c) := by
    refine fun swept within => ⟨fun some => ?_, fun past => heldWithin_pos past taken⟩
    obtain ⟨d, j, past, taken'⟩ := exists_of_heldWithin_pos some
    obtain ⟨rfl, rfl⟩ := unique (past.trans_le (within d)) taken'
    exact past
  cases work with
  | closed d j gone =>
    show 0 < (if gone = fd then 1 else 0) ↔ d = c ∧ j = i ∧ gone = fd
    by_cases same : gone = fd
    · subst same
      rw [if_pos rfl]
      obtain ⟨rfl, rfl⟩ := unique fits.2.1 (fits.2.2 valid)
      exact iff_of_true Nat.one_pos ⟨rfl, rfl, rfl⟩
    · rw [if_neg same]
      exact iff_of_false (Nat.lt_irrefl 0) fun closed => same closed.2.2
  | sweeping swept => exact passed swept fits.2.2
  | sweepingAt swept => exact passed swept fits.2.2.1
  | _ => exact iff_of_false (Nat.lt_irrefl 0) id

theorem closings_pos_iff (accounted : Accounted s history) (valid : fd ≠ -1) (inside : i < maxNumberOf c)
    (taken : s.slots c i = fd) :
    0 < closings history fd ↔ ∃ t, (workOf (history t)).HasClosed c i fd := by
  have here : 0 < held s fd := heldWithin_pos inside taken
  have places := accounted.places fd valid
  have balance := accounted.balance fd valid
  have most : opened s fd ≤ 1 := opened_le
  have closed : closings history fd = overdue s history fd := by omega
  have each : ∀ t, 0 < (workOf (history t)).overdue s.slots fd ↔ (workOf (history t)).HasClosed c i fd := fun t =>
    (accounted.fits t).overdue_pos_iff valid (by omega) inside taken
  rw [closed, overdue_eq accounted]
  constructor
  · intro some
    rcases Nat.add_pos_iff_pos_or_pos.mp some with main | managers
    · exact ⟨mainThread, (each mainThread).mp main⟩
    · exact ⟨managersThread, (each managersThread).mp managers⟩
  · rintro ⟨t, closed⟩
    have some := (each t).mpr closed
    by_cases others : t ≠ mainThread ∧ t ≠ managersThread
    · rw [(accounted.fits t).overdue_eq_zero others] at some
      cases some
    · rcases Classical.not_and_iff_not_or_not.mp others with main | managers
      · obtain rfl := not_not.mp main
        omega
      · obtain rfl := not_not.mp managers
        omega

theorem resting_of_clientsLeft (reach : Pool.Reach machine DropsAlone (serverPool rounds) pool)
    (left : pool.state.ClientsLeft) (handles : t ≤ managersThread) (other : t ≠ mainThread) :
    (workOf (pool.history t)).Resting := by
  have told := exitsTold_of_reach (reach.mono fun _ _ _ => True.intro)
  have ended : pool.state.exitStatus t ≠ none := by
    match t, handles with
    | 0, _ => exact absurd rfl other
    | 1, _ => exact left.1
    | 2, _ => exact left.2.1
    | 3, _ => exact left.2.2
  have obeys := (recorded_of_reach reach).obeys t
  rw [told.ended t ended] at obeys
  have final : finalWork t (workOf (pool.history t)) := obeys
  rwa [finalWork, if_neg other] at final

theorem Work.Resting.carries_eq_zero (resting : work.Resting) : work.carries fd = 0 := by
  cases work <;> first | rfl | exact resting.elim

theorem Work.Resting.overdue_eq_zero {slots : ClientType → Nat → Int} (resting : work.Resting) :
    work.overdue slots fd = 0 := by
  cases work <;> first | rfl | exact resting.elim

theorem overdue_le_held (reach : Pool.Reach machine DropsAlone (serverPool rounds) pool) (valid : fd ≠ -1) :
    overdue pool.state pool.history fd ≤ held pool.state fd := by
  have accounted := (recorded_of_reach reach).agrees
  rw [overdue_eq accounted]
  have main := (accounted.fits mainThread).overdue_le valid
  have managers := (accounted.fits managersThread).overdue_le valid
  have one : (workOf (pool.history mainThread)).overdue pool.state.slots fd = 0 ∨
      (workOf (pool.history managersThread)).overdue pool.state.slots fd = 0 := by
    have fits := accounted.fits mainThread
    have rests : pool.state.ClientsLeft → (workOf (pool.history managersThread)).overdue pool.state.slots fd = 0 :=
      fun left => (resting_of_clientsLeft reach left (Nat.le_refl _) (by decide)).overdue_eq_zero
    cases work : workOf (pool.history mainThread) with
    | closed =>
      rw [work] at fits
      exact absurd fits.1 (by decide)
    | sweeping | sweepingAt =>
      rw [work] at fits
      exact .inr (rests fits.2.1)
    | _ => exact .inl rfl
  rcases one with none | none <;> rw [none] <;> omega

theorem closings_at_end (reach : Pool.Reach machine DropsAlone (serverPool rounds) pool)
    (ended : pool.programs mainThread = pure ()) (valid : fd ≠ -1) :
    closings pool.history fd +
      slotsWith (· = fd) (pool.state.slots .managerClient) (maxNumberOf .managerClient) = opened pool.state fd := by
  have recorded := recorded_of_reach reach
  have accounted := recorded.agrees
  have obeys := recorded.obeys mainThread
  rw [ended] at obeys
  have swept : workOf (pool.history mainThread) = .sweeping allSwept := obeys
  have left : pool.state.ClientsLeft := by
    have fits := accounted.fits mainThread
    rw [swept] at fits
    exact fits.2.1
  have carried : carried pool.history fd = 0 := by
    refine Finset.sum_eq_zero fun t _ => ?_
    by_cases main : t = mainThread
    · subst main
      rw [swept]
      rfl
    by_cases handles : t ≤ managersThread
    · exact (resting_of_clientsLeft reach left handles main).carries_eq_zero
    · exact (accounted.fits t).carries_eq_zero (Nat.not_le.mp handles)
  have overdue : overdue pool.state pool.history fd = heldWithin pool.state.slots allSwept fd := by
    rw [overdue_eq accounted, swept,
      (resting_of_clientsLeft reach left (Nat.le_refl _) (by decide)).overdue_eq_zero]
    rfl
  have balance := accounted.balance fd valid
  have managers := @heldWithin_allSwept pool.state.slots fd
  rw [carried, overdue, held, ← managers] at balance
  omega

/-- In every run whose steps drop clients alone: no descriptor is closed twice; what is in a slot was accepted, and
    is closed only where `find_and_shutdown` has closed it and not yet cleared the slot, or `deinit_server` has been
    past the slot; and at the end every accepted descriptor is closed, unless managers are still registered. -/
theorem descriptors_closed_once (reach : Pool.Reach machine DropsAlone (serverPool rounds) pool) :
    (∀ fd, fd ≠ -1 → closings pool.history fd ≤ 1) ∧
    (∀ c, ∀ i < maxNumberOf c, pool.state.slots c i ≠ -1 →
      pool.state.slots c i ∈ acceptedIn (pool.history mainThread) ∧
      (0 < closings pool.history (pool.state.slots c i) ↔
        ∃ t, (workOf (pool.history t)).HasClosed c i (pool.state.slots c i))) ∧
    (pool.programs mainThread = pure () →
      ((∀ fd ∈ acceptedIn (pool.history mainThread), closings pool.history fd = 1) ↔
        ∀ i < maxNumberOf .managerClient, pool.state.slots .managerClient i = -1)) := by
  have accounted := (recorded_of_reach reach).agrees
  refine ⟨fun fd valid => ?_, fun c i inside valid => ?_,
    fun ended => ⟨fun each i inside => ?_, fun free fd member => ?_⟩⟩
  · have balance := accounted.balance fd valid
    have swept := overdue_le_held reach valid
    have most : opened pool.state fd ≤ 1 := opened_le
    omega
  · exact ⟨(opened_of_taken accounted inside valid).2, closings_pos_iff accounted valid inside rfl⟩
  · by_contra valid
    have account := closings_at_end reach ended valid
    have here : 0 < slotsWith (· = pool.state.slots .managerClient i) (pool.state.slots .managerClient)
        (maxNumberOf .managerClient) := slotsWith_pos inside rfl
    obtain ⟨opened, accepted⟩ := opened_of_taken accounted inside valid
    have once := each _ accepted
    omega
  · obtain ⟨accepted, valid⟩ := (accounted.accepted fd).mp member
    have account := closings_at_end reach ended valid
    have none : slotsWith (· = fd) (pool.state.slots .managerClient) (maxNumberOf .managerClient) = 0 :=
      slotsWith_eq_zero_iff.mpr fun i inside same => valid (same.symm.trans (free i inside))
    rw [none, opened, if_pos accepted] at account
    exact account

end

instance (c : ClientType) (i : Nat) : DecidablePred (Work.Clearing c i)
  | .closed d j _ => inferInstanceAs (Decidable (d = c ∧ j = i))
  | .idle | .accepted _ | .registering _ _ _ | .registered | .looking _ _ _ | .cleared _ | .joining _ | .sweeping _
  | .sweepingAt _ _ _ => inferInstanceAs (Decidable False)

instance (work managers : Work) (s : ServerState) (t : ThreadId) : Decidable (work.StillThere s t managers) :=
  match work with
  | .looking c i fd | .closed c i fd =>
    inferInstanceAs (Decidable (s.slots c i = fd ∧ (t = managersThread ∨ ¬ managers.Clearing c i)))
  | .idle | .accepted _ | .registering _ _ _ | .registered | .cleared _ | .joining _ | .sweeping _
  | .sweepingAt _ _ _ => inferInstanceAs (Decidable True)

def dropsAloneBool (pool : ServerPool) : Action ThreadId Call Call.Answer → Bool
  | .call _ ⟨.mutexUnlock _, answer⟩ => answer.isNone
  | .call t ⟨.storeFd _ _ _, _⟩ | .call t ⟨.close _, _⟩ =>
    decide ((workOf (pool.history t)).StillThere pool.state t (workOf (pool.history managersThread)))
  | .cut _ _ => false
  | _ => true

theorem dropsAlone_of_bool (pool : ServerPool) (action : Action ThreadId Call Call.Answer)
    (permitted : dropsAloneBool pool action = true) : DropsAlone pool action := by
  cases action with
  | cut t call => cases permitted
  | call t event =>
    obtain ⟨call, answer⟩ := event
    cases call with
    | mutexUnlock c => exact fun _ => Option.isNone_iff_eq_none.mp permitted
    | storeFd | close =>
      show (workOf (pool.history t)).StillThere pool.state t (workOf (pool.history managersThread))
      exact of_decide_eq_true permitted
    | _ => exact True.intro

/-- A worker and a manager connect, the manager disconnects itself, and the server ends. -/
theorem worker_closed_once : ∃ pool, Pool.Reach machine DropsAlone (serverPool 3) pool ∧
    pool.programs mainThread = pure () ∧ acceptedIn (pool.history mainThread) = [5, 6] ∧
    ∀ fd ∈ acceptedIn (pool.history mainThread), closings pool.history fd = 1 := by
  have replayed : ((serverPool 3).replay machine dropsAloneBool
      [(Environment.connecting 5 8 .firstStageWorkerClient).turn mainThread registrationCalls,
        (Environment.connecting 6 7 .managerClient).turn mainThread registrationCalls,
        (Environment.commanding 7).turn managersThread 34, Environment.calm.turn signalThread 10,
        Environment.calm.turn pollThread 4, Environment.calm.turn logsThread 4,
        Environment.calm.turn managersThread 12, Environment.calm.turn mainThread 73]).any
      (fun pool => pool.ended mainThread && (acceptedIn (pool.history mainThread) == [5, 6] &&
        (List.range (maxNumberOf .managerClient)).all fun i => pool.state.slots .managerClient i == -1)) = true := by
    decide +kernel
  obtain ⟨pool, reach, holds⟩ := Pool.exists_reach_of_replay dropsAlone_of_bool replayed
  obtain ⟨isEnded, rest⟩ := (Bool.and_eq_true _ _).mp holds
  obtain ⟨accepted, noManager⟩ := (Bool.and_eq_true _ _).mp rest
  have ended := Pool.programs_of_ended isEnded
  refine ⟨pool, reach, ended, eq_of_beq accepted, ?_⟩
  refine ((descriptors_closed_once reach).2.2 ended).mpr fun i inside => ?_
  exact eq_of_beq (List.all_eq_true.mp noManager i (List.mem_range.mpr inside))

/-- A manager is connected when the server ends. -/
theorem manager_not_closed : ¬ ∀ (rounds : Nat) (pool : ServerPool),
    Pool.Reach machine (fun _ _ => True) (serverPool rounds) pool → pool.programs mainThread = pure () →
    ∀ fd ∈ acceptedIn (pool.history mainThread), closings pool.history fd = 1 := by
  intro once
  have replayed : ((serverPool 2).replay machine (fun _ _ => true)
      [(Environment.connecting 5 7 .managerClient).turn mainThread registrationCalls,
        Environment.calm.turn signalThread 10, Environment.calm.turn pollThread 4,
        Environment.calm.turn logsThread 4, Environment.calm.turn managersThread 4,
        Environment.calm.turn mainThread 71]).any
      (fun pool => pool.ended mainThread && ((acceptedIn (pool.history mainThread)).contains 5 &&
        closings pool.history 5 == 0)) = true := by
    decide +kernel
  obtain ⟨pool, reach, holds⟩ := Pool.exists_reach_of_replay (fun _ _ _ => True.intro) replayed
  obtain ⟨isEnded, rest⟩ := (Bool.and_eq_true _ _).mp holds
  obtain ⟨accepted, unclosed⟩ := (Bool.and_eq_true _ _).mp rest
  have closed := once 2 pool reach (Pool.programs_of_ended isEnded) 5 (List.contains_iff_mem.mp accepted)
  rw [eq_of_beq unclosed] at closed
  exact absurd closed (by decide)

end ArchCompSystems.OsIhw3
