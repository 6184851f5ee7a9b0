import ArchCompSystems.OsIhw3.DescriptorWork
import ArchCompSystems.OsIhw3.Environment
import ArchCompSystems.OsIhw3.Registry
import Mathlib.Algebra.BigOperators.Group.Finset.Basic

namespace ArchCompSystems.OsIhw3

open Library Library.Program Library.Machine

def heldWithin (slots : ClientType → Nat → Int) (bounds : ClientType → Nat) (fd : Int) : Nat :=
  slotsWith (· = fd) (slots .logsCollectorClient) (bounds .logsCollectorClient) +
    slotsWith (· = fd) (slots .thirdStageWorkerClient) (bounds .thirdStageWorkerClient) +
    slotsWith (· = fd) (slots .secondStageWorkerClient) (bounds .secondStageWorkerClient) +
    slotsWith (· = fd) (slots .firstStageWorkerClient) (bounds .firstStageWorkerClient) +
    slotsWith (· = fd) (slots .managerClient) (bounds .managerClient)

section

variable {slots : ClientType → Nat → Int} {bounds larger : ClientType → Nat} {c : ClientType} {i : Nat} {fd value : Int}

theorem slotsWith_le_heldWithin : slotsWith (· = fd) (slots c) (bounds c) ≤ heldWithin slots bounds fd := by
  cases c <;> unfold heldWithin <;> omega

theorem heldWithin_pos (inside : i < bounds c) (taken : slots c i = fd) : 0 < heldWithin slots bounds fd := by
  have one : 0 < slotsWith (· = fd) (slots c) (bounds c) := slotsWith_pos inside taken
  have most := @slotsWith_le_heldWithin slots bounds c fd
  omega

theorem exists_of_heldWithin_pos (some : 0 < heldWithin slots bounds fd) : ∃ c, ∃ i < bounds c, slots c i = fd := by
  by_contra free
  have none : ∀ c, slotsWith (· = fd) (slots c) (bounds c) = 0 := fun c =>
    slotsWith_eq_zero_iff.mpr fun i inside taken => free ⟨c, i, inside, taken⟩
  simp only [heldWithin, none] at some
  omega

theorem heldWithin_mono (le : ∀ c, bounds c ≤ larger c) : heldWithin slots bounds fd ≤ heldWithin slots larger fd := by
  have each : ∀ c, slotsWith (· = fd) (slots c) (bounds c) ≤ slotsWith (· = fd) (slots c) (larger c) :=
    fun c => Nat.count_monotone _ (le c)
  unfold heldWithin
  have := each .logsCollectorClient
  have := each .thirdStageWorkerClient
  have := each .secondStageWorkerClient
  have := each .firstStageWorkerClient
  have := each .managerClient
  omega

theorem heldWithin_update (inside : i < bounds c) :
    heldWithin (Function.update slots c (Function.update (slots c) i value)) bounds fd +
      (if slots c i = fd then 1 else 0) = heldWithin slots bounds fd + if value = fd then 1 else 0 := by
  have here := @slotsWith_update _ (· = fd) _ (slots c) _ _ inside value
  unfold heldWithin
  cases c <;> simp only [Function.update_self, ne_eq, reduceCtorEq, not_false_eq_true, Function.update_of_ne] <;> omega

theorem update_slot_of_ne {d : ClientType} {j : Nat} (other : ¬ (d = c ∧ j = i)) :
    Function.update slots c (Function.update (slots c) i value) d j = slots d j := by
  by_cases type : d = c
  · subst type
    rw [Function.update_self, Function.update_of_ne fun same => other ⟨rfl, same⟩]
  · rw [Function.update_of_ne type]

theorem eq_of_heldWithin_le_one {d : ClientType} {j : Nat} (valid : fd ≠ -1) (one : heldWithin slots bounds fd ≤ 1)
    (inside : i < bounds c) (taken : slots c i = fd) (inside' : j < bounds d) (taken' : slots d j = fd) :
    d = c ∧ j = i := by
  by_contra other
  have without := @heldWithin_update slots bounds c i fd (-1) inside
  rw [if_pos taken, if_neg (Ne.symm valid)] at without
  have still : Function.update slots c (Function.update (slots c) i (-1)) d j = fd :=
    (update_slot_of_ne other).trans taken'
  have counted := heldWithin_pos inside' still
  omega

theorem heldWithin_next : heldWithin slots (Function.update bounds c (bounds c + 1)) fd =
    heldWithin slots bounds fd + if slots c (bounds c) = fd then 1 else 0 := by
  have here := @slotsWith_succ _ (· = fd) _ (slots c) (bounds c)
  unfold heldWithin
  cases c <;> simp only [Function.update_self, ne_eq, reduceCtorEq, not_false_eq_true, Function.update_of_ne] <;> omega

theorem heldWithin_allSwept : heldWithin slots allSwept fd +
    slotsWith (· = fd) (slots .managerClient) (maxNumberOf .managerClient) = heldWithin slots maxNumberOf fd := by
  simp [heldWithin, allSwept, slotsWith]

end

def ServerState.slots (s : ServerState) (c : ClientType) : Nat → Int := (s.groups c).fds

theorem slots_setFd (s : ServerState) (c : ClientType) (i : Nat) (fd : Int) :
    (s.setFd c i fd).slots = Function.update s.slots c (Function.update (s.slots c) i fd) := by
  funext d
  by_cases same : d = c
  · subst same
    rw [Function.update_self]
    exact ServerState.setFd_fds_self s d i fd
  · rw [Function.update_of_ne same]
    exact ServerState.setFd_fds_of_ne same i fd

def Work.carries (fd : Int) : Work → Nat
  | .accepted held | .registering _ _ held | .cleared held => if held = fd then 1 else 0
  | _ => 0

def Work.overdue (slots : ClientType → Nat → Int) (fd : Int) : Work → Nat
  | .closed _ _ gone => if gone = fd then 1 else 0
  | .sweeping swept | .sweepingAt swept _ _ => heldWithin slots swept fd
  | _ => 0

def ServerState.ClientsLeft (s : ServerState) : Prop :=
  s.exitStatus pollThread ≠ none ∧ s.exitStatus logsThread ≠ none ∧ s.exitStatus managersThread ≠ none

/-- What the slots and the other threads are like while thread `t` is at this work. -/
def Work.Fits (s : ServerState) (t : ThreadId) : Work → Prop
  | .idle => True
  | .cleared _ => t ≤ managersThread
  | .accepted _ | .registered => t = mainThread
  | .registering c i _ => t = mainThread ∧ i < maxNumberOf c ∧ s.slots c i = -1
  | .looking c i _ => t ≤ managersThread ∧ i < maxNumberOf c
  | .closed c i fd => t = managersThread ∧ i < maxNumberOf c ∧ (fd ≠ -1 → s.slots c i = fd)
  | .joining threads => t = mainThread ∧ ∀ u ∈ threads, s.exitStatus u ≠ none
  | .sweeping swept => t = mainThread ∧ s.ClientsLeft ∧ ∀ c, swept c ≤ maxNumberOf c
  | .sweepingAt swept c fd => t = mainThread ∧ s.ClientsLeft ∧ (∀ d, swept d ≤ maxNumberOf d) ∧
      swept c < maxNumberOf c ∧ s.slots c (swept c) = fd

def carried (history : ThreadId → List ServerEvent) (fd : Int) : Nat :=
  ∑ t ∈ Finset.range 5, (workOf (history t)).carries fd

/-- How often the threads have closed a descriptor. -/
def closings (history : ThreadId → List ServerEvent) (fd : Int) : Nat :=
  ∑ t ∈ Finset.range 5, (closedIn (history t)).count fd

def overdue (s : ServerState) (history : ThreadId → List ServerEvent) (fd : Int) : Nat :=
  ∑ t ∈ Finset.range 5, (workOf (history t)).overdue s.slots fd

def held (s : ServerState) (fd : Int) : Nat := heldWithin s.slots maxNumberOf fd

def opened (s : ServerState) (fd : Int) : Nat := if fd ∈ s.accepted then 1 else 0

/-- An accepted descriptor is in one place until it is closed. -/
structure Accounted (s : ServerState) (history : ThreadId → List ServerEvent) : Prop where
  places : ∀ fd, fd ≠ -1 → carried history fd + held s fd ≤ opened s fd
  balance : ∀ fd, fd ≠ -1 → closings history fd + carried history fd + held s fd =
    opened s fd + overdue s history fd
  fits : ∀ t, (workOf (history t)).Fits s t
  accepted : ∀ fd, fd ∈ acceptedIn (history mainThread) ↔ fd ∈ s.accepted ∧ fd ≠ -1

section

variable {s s' : ServerState} {t u : ThreadId} {work : Work} {history : ThreadId → List ServerEvent} {call : Call}
  {answer : call.Answer}

theorem Work.Fits.mono (fits : work.Fits s t) (slots : s'.slots = s.slots)
    (exits : ∀ u, s.exitStatus u ≠ none → s'.exitStatus u ≠ none) : work.Fits s' t := by
  have left : s.ClientsLeft → s'.ClientsLeft := fun ⟨poll, logs, managers⟩ =>
    ⟨exits _ poll, exits _ logs, exits _ managers⟩
  cases work with
  | idle => exact True.intro
  | cleared | accepted | registered | looking => exact fits
  | registering | closed =>
    simp only [Work.Fits] at fits ⊢
    rwa [slots]
  | joining threads => exact ⟨fits.1, fun u member => exits u (fits.2 u member)⟩
  | sweeping swept => exact ⟨fits.1, left fits.2.1, fits.2.2⟩
  | sweepingAt swept c fd => exact ⟨fits.1, left fits.2.1, fits.2.2.1, fits.2.2.2.1, slots ▸ fits.2.2.2.2⟩

theorem sum_step {before after : Nat → Nat} (member : t < 5) (others : ∀ u, u ≠ t → after u = before u) :
    ∑ u ∈ Finset.range 5, after u + before t = ∑ u ∈ Finset.range 5, before u + after t := by
  have here := Finset.mem_range.mpr member
  have rest : ∑ u ∈ (Finset.range 5).erase t, after u = ∑ u ∈ (Finset.range 5).erase t, before u :=
    Finset.sum_congr rfl fun u elsewhere => others u (Finset.ne_of_mem_erase elsewhere)
  have now := Finset.add_sum_erase (Finset.range 5) after here
  have earlier := Finset.add_sum_erase (Finset.range 5) before here
  omega

/-- The histories after a call of thread `t`. -/
abbrev advanced (history : ThreadId → List ServerEvent) (t : ThreadId) (event : ServerEvent) : ThreadId → List ServerEvent :=
  Function.update history t (history t ++ [event])

theorem workOf_advanced_self : workOf (advanced history t ⟨call, answer⟩ t) = (workOf (history t)).after call answer := by
  rw [advanced, Function.update_self, workOf_concat]

theorem advanced_of_ne {event : ServerEvent} (other : u ≠ t) : advanced history t event u = history u :=
  Function.update_of_ne other ..

/-- What a step does to the places of each descriptor, and to its closings. -/
structure DescriptorMoves (s : ServerState) (work : Work) (event : ServerEvent) (s' : ServerState) (work' : Work) (fd : Int) :
    Prop where
  places : work'.carries fd + held s' fd + opened s fd ≤ work.carries fd + held s fd + opened s' fd
  balance : (closedIn [event]).count fd + work'.carries fd + held s' fd + opened s fd + work.overdue s.slots fd =
    work.carries fd + held s fd + opened s' fd + work'.overdue s'.slots fd

theorem Accounted.step (accounted : Accounted s history) (member : t < 5)
    (moves : ∀ fd, fd ≠ -1 → DescriptorMoves s (workOf (history t)) ⟨call, answer⟩ s' ((workOf (history t)).after call answer) fd)
    (fits : ((workOf (history t)).after call answer).Fits s' t)
    (others : ∀ u, u ≠ t → (workOf (history u)).Fits s' u ∧
      ∀ fd, (workOf (history u)).overdue s'.slots fd = (workOf (history u)).overdue s.slots fd)
    (accepted : ∀ fd, fd ∈ acceptedIn (advanced history t ⟨call, answer⟩ mainThread) ↔ fd ∈ s'.accepted ∧ fd ≠ -1) :
    Accounted s' (advanced history t ⟨call, answer⟩) := by
  have carries : ∀ fd, carried (advanced history t ⟨call, answer⟩) fd + (workOf (history t)).carries fd =
      carried history fd + ((workOf (history t)).after call answer).carries fd := by
    intro fd
    rw [← workOf_advanced_self]
    exact @sum_step t (fun u => (workOf (history u)).carries fd)
      (fun u => (workOf (advanced history t ⟨call, answer⟩ u)).carries fd) member
      fun u other => by rw [advanced_of_ne other]
  have closes : ∀ fd, closings (advanced history t ⟨call, answer⟩) fd =
      closings history fd + (closedIn [⟨call, answer⟩]).count fd := by
    intro fd
    have sum := @sum_step t (fun u => (closedIn (history u)).count fd)
      (fun u => (closedIn (advanced history t ⟨call, answer⟩ u)).count fd) member
      fun u other => by rw [advanced_of_ne other]
    simp only [advanced, Function.update_self, closedIn_append, List.count_append] at sum
    simp only [closings, advanced]
    omega
  have overdues : ∀ fd, overdue s' (advanced history t ⟨call, answer⟩) fd + (workOf (history t)).overdue s.slots fd =
      overdue s history fd + ((workOf (history t)).after call answer).overdue s'.slots fd := by
    intro fd
    rw [← workOf_advanced_self]
    exact @sum_step t (fun u => (workOf (history u)).overdue s.slots fd)
      (fun u => (workOf (advanced history t ⟨call, answer⟩ u)).overdue s'.slots fd) member
      fun u other => by rw [advanced_of_ne other, (others u other).2]
  refine ⟨fun fd valid => ?_, fun fd valid => ?_, fun u => ?_, accepted⟩
  · have before := accounted.places fd valid
    have moved := (moves fd valid).places
    have carried := carries fd
    omega
  · have before := accounted.balance fd valid
    have moved := (moves fd valid).balance
    have carried := carries fd
    have closed := closes fd
    have overdue := overdues fd
    omega
  · by_cases same : u = t
    · subst same
      rw [workOf_advanced_self]
      exact fits
    · rw [advanced_of_ne same]
      exact (others u same).1

theorem acceptedIn_advanced {event : ServerEvent} (accepts : acceptedIn [event] = []) :
    acceptedIn (advanced history t event u) = acceptedIn (history u) := by
  by_cases same : u = t
  · subst same
    rw [advanced, Function.update_self, acceptedIn_append, accepts, List.append_nil]
  · rw [advanced_of_ne same]

theorem Accounted.quiet (accounted : Accounted s history)
    (kept : (workOf (history t)).after call answer = workOf (history t)) (closes : closedIn [⟨call, answer⟩] = [])
    (accepts : acceptedIn [⟨call, answer⟩] = []) (slots : s'.slots = s.slots) (same : s'.accepted = s.accepted)
    (exits : ∀ u, s.exitStatus u ≠ none → s'.exitStatus u ≠ none) :
    Accounted s' (advanced history t ⟨call, answer⟩) := by
  have works : ∀ u, workOf (advanced history t ⟨call, answer⟩ u) = workOf (history u) := by
    intro u
    by_cases same : u = t
    · subst same
      rw [workOf_advanced_self, kept]
    · rw [advanced_of_ne same]
  have closed : ∀ u, closedIn (advanced history t ⟨call, answer⟩ u) = closedIn (history u) := by
    intro u
    by_cases same : u = t
    · subst same
      rw [advanced, Function.update_self, closedIn_append, closes, List.append_nil]
    · rw [advanced_of_ne same]
  refine ⟨fun fd valid => ?_, fun fd valid => ?_, fun u => ?_, fun fd => ?_⟩
  · have before := accounted.places fd valid
    simpa only [carried, held, opened, works, slots, same] using before
  · have before := accounted.balance fd valid
    simpa only [closings, carried, held, opened, overdue, works, closed, slots, same] using before
  · rw [works]
    exact (accounted.fits u).mono slots exits
  · rw [same, acceptedIn_advanced accepts]
    exact accounted.accepted fd

theorem perform_exits (performed : machine.perform t call answer s = some s') (u : ThreadId)
    (ended : s.exitStatus u ≠ none) : s'.exitStatus u ≠ none := by
  rcases perform_exitStatus performed with same | ⟨status, -, same⟩
  · rwa [same]
  · rw [same]
    by_cases own : u = t
    · subst own
      rw [Function.update_self]
      exact nofun
    · rwa [Function.update_of_ne own]

theorem SameSlots.slots (same : SameSlots s s') : s'.slots = s.slots := funext same.fds

theorem slots_setArrSize (s : ServerState) (c : ClientType) (size : Nat) : (s.setArrSize c size).slots = s.slots :=
  funext fun d => ServerState.setArrSize_fds s c d size

theorem accounted_leaves (accounted : Accounted s history) (leaves : call.LeavesWork)
    (performed : machine.perform t call answer s = some s') : Accounted s' (advanced history t ⟨call, answer⟩) := by
  have exits := perform_exits performed
  cases call with
  | accept | loadFd | storeFd | close | mutexUnlock | pthreadJoin | nanosleep => exact leaves.elim
  | storeArrSize c size =>
    cases performed
    exact accounted.quiet rfl rfl rfl (slots_setArrSize s c size) rfl exits
  | _ =>
    have same : SameSlots s s' := by
      refine perform_quiet ?_ performed
      exact True.intro
    exact accounted.quiet rfl rfl rfl same.slots same.accepted exits

variable {c : ClientType} {i : Nat} {fd looked : Int}

theorem DescriptorMoves.of_same (slots : s'.slots = s.slots) (accepted : s'.accepted = s.accepted)
    (closes : closedIn [⟨call, answer⟩] = []) (carries : (work.after call answer).carries fd = work.carries fd)
    (overdue : (work.after call answer).overdue s.slots fd = work.overdue s.slots fd) :
    DescriptorMoves s work ⟨call, answer⟩ s' (work.after call answer) fd := by
  constructor
  · simp only [held, opened, slots, accepted, carries, Nat.le_refl]
  · simp only [held, opened, slots, accepted, carries, overdue, closes, List.count_nil]
    omega

theorem moves_loadFd (valid : fd ≠ -1) (may : work.MayLook c i) (loaded : s.slots c i = looked) :
    DescriptorMoves s work ⟨.loadFd c i, looked⟩ s (work.after (.loadFd c i) looked) fd := by
  have swept : ∀ swept, i = swept c → (if looked = -1 then Work.sweep swept c else .sweepingAt swept c looked).carries
      fd = 0 ∧ (if looked = -1 then Work.sweep swept c else .sweepingAt swept c looked).overdue s.slots fd =
      heldWithin s.slots swept fd := by
    rintro swept rfl
    by_cases free : looked = -1
    · have other : s.slots c (swept c) ≠ fd := fun same => valid (same.symm.trans (loaded.trans free))
      simp only [if_pos free, Work.sweep, Work.carries, Work.overdue, heldWithin_next, if_neg other, Nat.add_zero,
        and_self]
    · simp only [if_neg free, Work.carries, Work.overdue, and_self]
  cases work with
  | idle | looking | joining => exact .of_same rfl rfl rfl rfl rfl
  | accepted new =>
    refine .of_same rfl rfl rfl ?_ ?_ <;> simp only [Work.after, Work.afterLook] <;> split <;> rfl
  | sweeping done => exact .of_same rfl rfl rfl (swept done may).1 (swept done may).2
  | sweepingAt done d held =>
    obtain ⟨rfl, next⟩ := may
    exact .of_same rfl rfl rfl (swept done next).1 (swept done next).2
  | _ => exact may.elim

theorem fits_sweep {swept : ClientType → Nat} (main : t = mainThread) (left : s.ClientsLeft)
    (within : ∀ d, swept d ≤ maxNumberOf d) (inside : swept c < maxNumberOf c) : (Work.sweep swept c).Fits s t := by
  refine ⟨main, left, fun d => ?_⟩
  by_cases same : d = c
  · subst same
    rwa [Function.update_self]
  · rw [Function.update_of_ne same]
    exact within d

theorem fits_loadFd (handles : t ≤ managersThread) (fits : work.Fits s t) (may : work.MayLook c i) (inside : i < maxNumberOf c)
    (loaded : s.slots c i = looked) : (work.after (.loadFd c i) looked).Fits s t := by
  have swept : ∀ swept, t = mainThread → s.ClientsLeft → (∀ d, swept d ≤ maxNumberOf d) → i = swept c →
      (if looked = -1 then Work.sweep swept c else .sweepingAt swept c looked).Fits s t := by
    rintro swept main left within rfl
    split
    · exact fits_sweep main left within inside
    · exact ⟨main, left, within, inside, loaded⟩
  cases work with
  | idle | looking => exact ⟨handles, inside⟩
  | joining => exact fits
  | accepted new =>
    show (if looked = -1 then Work.registering c i new else .accepted new).Fits s t
    split
    · exact ⟨fits, inside, by rwa [loaded]⟩
    · exact fits
  | sweeping done => exact swept done fits.1 fits.2.1 fits.2.2 may
  | sweepingAt done d held =>
    obtain ⟨rfl, next⟩ := may
    exact swept done fits.1 fits.2.1 fits.2.2.1 next
  | _ => exact may.elim

theorem accounted_loadFd (accounted : Accounted s history)
    (allowed : (descriptorMonitor t).allowed (workOf (history t)) (.loadFd c i))
    (performed : machine.perform t (.loadFd c i) looked s = some s') :
    (descriptorMonitor t).possible (workOf (history t)) (.loadFd c i) looked ∧
      Accounted s' (advanced history t ⟨.loadFd c i, looked⟩) := by
  obtain ⟨handles, inside, may⟩ := allowed
  obtain ⟨loaded, same⟩ := Option.ite_none_right_eq_some.mp performed
  cases same
  replace loaded : s.slots c i = looked := loaded.symm
  have fits := accounted.fits t
  have member : t < 5 := Nat.lt_of_le_of_lt handles (by decide)
  refine ⟨?_, accounted.step member (fun fd valid => moves_loadFd valid may loaded)
    (fits_loadFd handles fits may inside loaded) (fun u _ => ⟨accounted.fits u, fun _ => rfl⟩) fun fd => ?_⟩
  · generalize workOf (history t) = work at may fits ⊢
    cases work with
    | sweepingAt done d held =>
      obtain ⟨rfl, rfl⟩ := may
      exact loaded.symm.trans fits.2.2.2.2
    | _ => exact True.intro
  · rw [acceptedIn_advanced rfl]
    exact accounted.accepted fd

def Work.Clearing (c : ClientType) (i : Nat) : Work → Prop
  | .closed d j _ => d = c ∧ j = i
  | _ => False

/-- What a thread has looked at is still in the slot, and the managers handler is not about to clear it. -/
def Work.StillThere (work : Work) (s : ServerState) (t : ThreadId) (managers : Work) : Prop :=
  match work with
  | .looking c i fd | .closed c i fd => s.slots c i = fd ∧ (t = managersThread ∨ ¬ managers.Clearing c i)
  | _ => True

theorem held_setFd (inside : i < maxNumberOf c) {stored : Int} : held (s.setFd c i stored) fd +
    (if s.slots c i = fd then 1 else 0) = held s fd + if stored = fd then 1 else 0 := by
  rw [held, slots_setFd]
  exact heldWithin_update inside

theorem moves_storeFd {stored : Int} {managers : Work} (valid : fd ≠ -1) (fits : work.Fits s t)
    (may : work.MayStore c i stored) (there : work.StillThere s t managers) :
    DescriptorMoves s work ⟨.storeFd c i stored, ()⟩ (s.setFd c i stored) (work.after (.storeFd c i stored) ()) fd := by
  have free : ¬ (-1 : Int) = fd := fun same => valid same.symm
  have same : opened (s.setFd c i stored) fd = opened s fd := rfl
  have none : (closedIn [⟨.storeFd c i stored, ()⟩]).count fd = 0 := rfl
  cases work with
  | registering d j new =>
    obtain ⟨rfl, rfl, rfl⟩ := may
    have moved := @held_setFd s c i fd fits.2.1 stored
    rw [fits.2.2, if_neg free] at moved
    constructor <;> simp only [Work.after, Work.afterStore, Work.carries, Work.overdue] <;> omega
  | looking d j was =>
    obtain ⟨rfl, rfl, rfl⟩ := may
    have moved := @held_setFd s c i fd fits.2 (-1)
    rw [there.1, if_neg free] at moved
    constructor <;> simp only [Work.after, Work.afterStore, Work.carries, Work.overdue] <;> omega
  | closed d j gone =>
    obtain ⟨rfl, rfl, rfl⟩ := may
    have moved := @held_setFd s c i fd fits.2.1 (-1)
    rw [there.1, if_neg free] at moved
    constructor <;> simp only [Work.after, Work.afterStore, Work.carries, Work.overdue] <;> omega
  | _ => exact may.elim

theorem fits_storeFd {stored : Int} (handles : t ≤ managersThread) (fits : work.Fits s t) (may : work.MayStore c i stored) :
    (work.after (.storeFd c i stored) ()).Fits s' t := by
  cases work with
  | registering => exact fits.1
  | looking => exact handles
  | closed => exact True.intro
  | _ => exact may.elim

theorem slots_setFd_of_ne {d : ClientType} {j : Nat} {stored : Int} (other : ¬ (d = c ∧ j = i)) :
    (s.setFd c i stored).slots d j = s.slots d j := by
  rw [slots_setFd]
  exact update_slot_of_ne other

theorem Work.Fits.setFd {stored : Int} {other : Work} (fits : other.Fits s u) (different : u ≠ t)
    (running : s.exitStatus t = none) (handles : t ≤ managersThread) (own : work.Fits s t)
    (may : work.MayStore c i stored) (there : u = managersThread → work.StillThere s t other) :
    other.Fits (s.setFd c i stored) u ∧
      ∀ fd, other.overdue (s.setFd c i stored).slots fd = other.overdue s.slots fd := by
  have stays : ¬ s.ClientsLeft ∨ u ≠ mainThread := by
    by_cases main : u = mainThread
    · refine .inl fun left => ?_
      match t, handles with
      | 0, _ => exact different main
      | 1, _ => exact left.1 running
      | 2, _ => exact left.2.1 running
      | 3, _ => exact left.2.2 running
    · exact .inr main
  cases other with
  | idle | cleared | accepted | registered | looking | joining => exact ⟨fits, fun _ => rfl⟩
  | registering d j new =>
    refine ⟨⟨fits.1, fits.2.1, ?_⟩, fun _ => rfl⟩
    by_cases same : d = c ∧ j = i
    · obtain ⟨rfl, rfl⟩ := same
      rw [slots_setFd, Function.update_self, Function.update_self]
      cases work with
      | registering => exact absurd (fits.1.trans own.1.symm) different
      | looking | closed => exact may.2.2
      | _ => exact may.elim
    · rw [slots_setFd_of_ne same]
      exact fits.2.2
  | closed d j gone =>
    refine ⟨⟨fits.1, fits.2.1, fun valid => ?_⟩, fun _ => rfl⟩
    have elsewhere : ¬ (d = c ∧ j = i) := by
      rintro ⟨rfl, rfl⟩
      cases work with
      | registering e k new =>
        obtain ⟨rfl, rfl, -⟩ := may
        exact valid ((fits.2.2 valid).symm.trans own.2.2)
      | looking e k was =>
        obtain ⟨rfl, rfl, -⟩ := may
        rcases (there fits.1).2 with same | not
        · exact different (fits.1.trans same.symm)
        · exact not ⟨rfl, rfl⟩
      | closed => exact different (fits.1.trans own.1.symm)
      | _ => exact may.elim
    rw [slots_setFd_of_ne elsewhere]
    exact fits.2.2 valid
  | sweeping | sweepingAt => exact absurd fits.1 (stays.resolve_left (not_not_intro fits.2.1))

theorem accounted_storeFd {stored : Int} (accounted : Accounted s history) (running : s.exitStatus t = none)
    (there : (workOf (history t)).StillThere s t (workOf (history managersThread)))
    (allowed : (descriptorMonitor t).allowed (workOf (history t)) (.storeFd c i stored))
    (performed : machine.perform t (.storeFd c i stored) () s = some s') :
    Accounted s' (advanced history t ⟨.storeFd c i stored, ()⟩) := by
  obtain ⟨handles, may⟩ := allowed
  cases performed
  have member : t < 5 := Nat.lt_of_le_of_lt handles (by decide)
  refine accounted.step member (fun fd valid => moves_storeFd valid (accounted.fits t) may there)
    (fits_storeFd handles (accounted.fits t) may) (fun u other => ?_) fun fd => ?_
  · refine (accounted.fits u).setFd other running handles (accounted.fits t) may ?_
    rintro rfl
    exact there
  · rw [acceptedIn_advanced rfl]
    exact accounted.accepted fd

theorem moves_close {fd' : Int} (same : SameSlots s s') {answer : Option Errno} {managers : Work}
    (fits : work.Fits s t) (may : work.MayClose t fd') (there : work.StillThere s t managers) :
    DescriptorMoves s work ⟨.close fd', answer⟩ s' (work.after (.close fd') answer) fd := by
  have slots : held s' fd = held s fd := congrArg (heldWithin · maxNumberOf fd) same.slots
  have opens : opened s' fd = opened s fd := by rw [opened, opened, same.accepted]
  have once : (closedIn [⟨.close fd', answer⟩]).count fd = if fd' = fd then 1 else 0 := by
    show [fd'].count fd = _
    simp only [List.count_singleton, beq_iff_eq]
  cases work with
  | accepted | cleared =>
    cases may
    constructor <;> simp only [Work.after, Work.afterClose, Work.carries, Work.overdue] <;> omega
  | looking c i was =>
    obtain ⟨-, rfl⟩ := may
    constructor <;> simp only [Work.after, Work.afterClose, Work.carries, Work.overdue] <;> omega
  | sweepingAt swept c was =>
    cases may
    have next := @heldWithin_next s.slots swept c fd
    rw [fits.2.2.2.2] at next
    constructor <;>
      simp only [Work.after, Work.afterClose, Work.sweep, Work.carries, Work.overdue, same.slots] <;> omega
  | _ => exact may.elim

theorem fits_close {fd' : Int} {answer : Option Errno} {managers : Work} (fits : work.Fits s t)
    (may : work.MayClose t fd') (there : work.StillThere s t managers) :
    (work.after (.close fd') answer).Fits s t := by
  cases work with
  | accepted | cleared => exact True.intro
  | looking => exact ⟨may.1, fits.2, fun _ => there.1⟩
  | sweepingAt => exact fits_sweep fits.1 fits.2.1 fits.2.2.1 fits.2.2.2.1
  | _ => exact may.elim

theorem accounted_close {answer : Option Errno} (accounted : Accounted s history)
    (there : (workOf (history t)).StillThere s t (workOf (history managersThread)))
    (allowed : (descriptorMonitor t).allowed (workOf (history t)) (.close fd))
    (performed : machine.perform t (.close fd) answer s = some s') :
    Accounted s' (advanced history t ⟨.close fd, answer⟩) := by
  obtain ⟨handles, may⟩ := allowed
  have exits := perform_exits performed
  cases performed
  have same := SameSlots.afterError s t answer
  have member : t < 5 := Nat.lt_of_le_of_lt handles (by decide)
  have fits := accounted.fits t
  refine accounted.step member (fun _ _ => moves_close same fits may there)
    ((fits_close fits may there).mono same.slots exits) (fun u _ => ?_) fun fd => ?_
  · exact ⟨(accounted.fits u).mono same.slots exits, fun _ => by rw [same.slots]⟩
  · rw [acceptedIn_advanced rfl, same.accepted]
    exact accounted.accepted fd

theorem Accounted.same (accounted : Accounted s history) (member : t < 5) (same : SameSlots s s')
    (exits : ∀ u, s.exitStatus u ≠ none → s'.exitStatus u ≠ none) (closes : closedIn [⟨call, answer⟩] = [])
    (accepts : acceptedIn [⟨call, answer⟩] = [])
    (carries : ∀ fd, ((workOf (history t)).after call answer).carries fd = (workOf (history t)).carries fd)
    (overdue : ∀ fd, ((workOf (history t)).after call answer).overdue s.slots fd =
      (workOf (history t)).overdue s.slots fd)
    (fits : ((workOf (history t)).after call answer).Fits s t) :
    Accounted s' (advanced history t ⟨call, answer⟩) := by
  refine accounted.step member (fun fd _ => ?_) (fits.mono same.slots exits) (fun u _ => ?_) fun fd => ?_
  · exact .of_same same.slots same.accepted closes (carries fd) (by rw [overdue fd])
  · exact ⟨(accounted.fits u).mono same.slots exits, fun _ => by rw [same.slots]⟩
  · rw [acceptedIn_advanced accepts, same.accepted]
    exact accounted.accepted fd

theorem accounted_accept {answer : AcceptAnswer} (accounted : Accounted s history)
    (allowed : (descriptorMonitor t).allowed (workOf (history t)) .accept)
    (performed : machine.perform t .accept answer s = some s') :
    Accounted s' (advanced history t ⟨.accept, answer⟩) := by
  obtain ⟨rfl, idle⟩ := allowed
  cases answer with
  | failed error =>
    cases performed
    exact accounted.quiet (by rw [idle]; rfl) rfl rfl rfl rfl fun _ => id
  | connected new clientAddr clientAddrlen =>
    obtain ⟨⟨valid', fresh⟩, same⟩ := Option.ite_none_right_eq_some.mp performed
    cases same
    have before := accounted.fits
    refine accounted.step (by decide) (fun fd valid => ?_) ?_ (fun u _ => ⟨before u, fun _ => rfl⟩) fun fd => ?_
    · rw [idle]
      have opens : opened { s with accepted := new :: s.accepted } fd = opened s fd + if new = fd then 1 else 0 := by
        by_cases same : new = fd
        · subst same
          simp only [opened, List.mem_cons_self, if_true, if_neg fresh]
        · simp only [opened, List.mem_cons, if_neg same, Nat.add_zero, Ne.symm same, false_or]
      have holds : held { s with accepted := new :: s.accepted } fd = held s fd := rfl
      have none : (closedIn [⟨.accept, .connected new clientAddr clientAddrlen⟩]).count fd = 0 := rfl
      constructor <;> simp only [Work.after, Work.carries, Work.overdue] <;> omega
    · rw [idle]
      exact rfl
    · have before := accounted.accepted fd
      have answered : fd ∈ acceptedIn [⟨.accept, .connected new clientAddr clientAddrlen⟩] ↔ fd = new :=
        List.mem_singleton
      simp only [advanced, Function.update_self, acceptedIn_append, List.mem_append, List.mem_cons, before, answered]
      constructor
      · rintro (⟨member, valid⟩ | rfl)
        · exact ⟨.inr member, valid⟩
        · exact ⟨.inl rfl, valid'⟩
      · rintro ⟨rfl | member, valid⟩
        · exact .inr rfl
        · exact .inl ⟨member, valid⟩

theorem accounted_mutexUnlock {answer : Option Errno} (accounted : Accounted s history)
    (performed : machine.perform t (.mutexUnlock c) answer s = some s') :
    Accounted s' (advanced history t ⟨.mutexUnlock c, answer⟩) := by
  have exits := perform_exits performed
  have same : SameSlots s s' := by
    refine perform_quiet ?_ performed
    exact True.intro
  cases work : workOf (history t) with
  | registered =>
    have fits := accounted.fits t
    rw [work] at fits
    obtain rfl : t = mainThread := fits
    refine accounted.same (by decide) same exits rfl rfl ?_ ?_ ?_ <;> rw [work]
    · exact fun _ => rfl
    · exact fun _ => rfl
    · exact True.intro
  | _ => exact accounted.quiet (by rw [work]; rfl) rfl rfl same.slots same.accepted exits

theorem accounted_pthreadJoin {thread : ThreadId} {status : Int} (accounted : Accounted s history)
    (allowed : (descriptorMonitor t).allowed (workOf (history t)) (.pthreadJoin thread))
    (performed : machine.perform t (.pthreadJoin thread) status s = some s') :
    Accounted s' (advanced history t ⟨.pthreadJoin thread, status⟩) := by
  obtain ⟨rfl, may⟩ := allowed
  obtain ⟨ended, same⟩ := Option.ite_none_right_eq_some.mp performed
  cases same
  have joined : s.exitStatus thread ≠ none := by rw [ended]; exact nofun
  have fits := accounted.fits mainThread
  cases work : workOf (history mainThread) with
  | idle =>
    refine accounted.same (by decide) (.refl s) (fun _ => id) rfl rfl ?_ ?_ ?_ <;> rw [work]
    · exact fun _ => rfl
    · exact fun _ => rfl
    · exact ⟨rfl, fun u member => by rwa [List.mem_singleton.mp member]⟩
  | joining threads =>
    rw [work] at fits
    refine accounted.same (by decide) (.refl s) (fun _ => id) rfl rfl ?_ ?_ ?_ <;> rw [work]
    · exact fun _ => rfl
    · exact fun _ => rfl
    · exact ⟨rfl, List.forall_mem_cons.mpr ⟨joined, fits.2⟩⟩
  | _ =>
    rw [work] at may
    exact may.elim

theorem accounted_nanosleep {answer : Option Errno} (accounted : Accounted s history)
    (allowed : (descriptorMonitor t).allowed (workOf (history t)) .nanosleep)
    (performed : machine.perform t .nanosleep answer s = some s') :
    Accounted s' (advanced history t ⟨.nanosleep, answer⟩) := by
  have exits := perform_exits performed
  cases performed
  have same := SameSlots.afterError s t answer
  have fits := accounted.fits t
  cases work : workOf (history t) with
  | joining threads =>
    rw [work] at fits
    obtain ⟨rfl, ended⟩ := fits
    obtain ⟨poll, logs, managers⟩ : Work.MaySleep (.joining threads) := work ▸ allowed
    refine accounted.same (by decide) same exits rfl rfl ?_ ?_ ?_ <;> rw [work]
    · exact fun _ => rfl
    · intro fd
      show heldWithin s.slots (fun _ => 0) fd = 0
      simp only [heldWithin, slotsWith, Nat.count_zero]
    · exact ⟨rfl, ⟨ended _ poll, ended _ logs, ended _ managers⟩, fun _ => Nat.zero_le _⟩
  | _ => exact accounted.quiet (by rw [work]; rfl) rfl rfl same.slots same.accepted exits

end

end ArchCompSystems.OsIhw3
