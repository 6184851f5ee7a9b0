import ArchCompSystems.Library.Protocol
import ArchCompSystems.Library.SharedRing
import ArchCompSystems.OsHw8.Stages

namespace ArchCompSystems.OsHw8

open Library Library.Program

/-- No unread cell is overwritten, nobody obtains the empty marker, and what is obtained is what was
    written first, each number once. -/
structure RingBufferCorrect (s : State) : Prop where
  unread_kept : ∀ k number, s.obtained.length ≤ k → s.written[k]? = some number →
    s.memory.store (k % bufSize) = number
  unread_fit : s.written.length ≤ s.obtained.length + bufSize
  no_marker : -1 ∉ s.obtained
  obtained_prefix : s.obtained <+: s.written

namespace State

def value (s : State) (semaphore : Semaphore) : Nat := (s.semaphores semaphore).getD semaphore.initialValue

def ring (s : State) : SharedRing Int :=
  ⟨s.memory.store, s.memory.readIndex, s.memory.writeIndex, 0, s.written, s.obtained⟩

end State

section

variable {s s' : State} {semaphore : Semaphore}

theorem value_of_open (performed : perform (.semOpen semaphore) () s = some s') :
    s'.value = s.value ∧ s'.memory = s.memory ∧ s'.written = s.written ∧ s'.obtained = s.obtained := by
  cases performed
  refine ⟨?_, rfl, rfl, rfl⟩
  funext other
  by_cases same : other = semaphore
  · subst same
    simp [State.value]
  · simp [State.value, same]

theorem value_of_wait (performed : perform (.semWait semaphore) () s = some s') :
    ∃ value, s.value semaphore = value + 1 ∧ s'.value = Function.update s.value semaphore value ∧
      s'.memory = s.memory ∧ s'.written = s.written ∧ s'.obtained = s.obtained := by
  simp only [perform] at performed
  split at performed
  · rename_i value there
    cases performed
    refine ⟨value, by simp [State.value, there], ?_, rfl, rfl, rfl⟩
    funext other
    by_cases same : other = semaphore
    · subst same
      simp [State.value]
    · simp [State.value, same]
  · cases performed

theorem value_of_post (performed : perform (.semPost semaphore) () s = some s') :
    s'.value = Function.update s.value semaphore (s.value semaphore + 1) ∧
      s'.memory = s.memory ∧ s'.written = s.written ∧ s'.obtained = s.obtained := by
  obtain ⟨value, there, rfl⟩ := Option.map_eq_some_iff.mp performed
  refine ⟨?_, rfl, rfl, rfl⟩
  funext other
  by_cases same : other = semaphore
  · subst same
    simp [State.value, there]
  · simp [State.value, same]

end

inductive Token where
  | works
  | begun
  | admin
  | elements
  | inside
  | unreleased
  | readLag
  | slots
  | unposted
  | writeLag

def Stage.tokens : Token → Stage → Nat
  | .works, .initialising | .works, .zeroed | .works, .ready | .works, .hasSlot | .works, .writeIndexed _
  | .works, .wrote _ | .works, .writeAdvanced => 1
  | .begun, .ready | .begun, .hasSlot | .begun, .writeIndexed _ | .begun, .wrote _ | .begun, .writeAdvanced => 1
  | .admin, .holdsAdmin => 1
  | .elements, .hasElement | .elements, .locked | .elements, .readIndexed _ => 1
  | .inside, .locked | .inside, .readIndexed _ | .inside, .took _ | .inside, .cleared _ | .inside, .readAdvanced
  | .inside, .released => 1
  | .unreleased, .took _ | .unreleased, .cleared _ | .unreleased, .readAdvanced => 1
  | .readLag, .took _ | .readLag, .cleared _ => 1
  | .slots, .hasSlot | .slots, .writeIndexed _ => 1
  | .unposted, .wrote _ | .unposted, .writeAdvanced => 1
  | .writeLag, .wrote _ => 1
  | _, _ => 0

namespace Stage

/-- A reader that has passed `admin`. -/
def reads : Stage → Bool
  | .holdsAdmin | .started | .hasElement | .locked | .readIndexed _ | .took _ | .cleared _ | .readAdvanced
  | .released => true
  | _ => false

def readAt : Stage → Option Nat
  | .readIndexed i | .took i | .cleared i => some i
  | _ => none

def writeAt : Stage → Option Nat
  | .writeIndexed i | .wrote i => some i
  | _ => none

end Stage

section

variable {writers readers : Nat}

def total (token : Token) (ms : Process writers readers → Stage) : Nat := held (Stage.tokens token) ms

structure Counts (s : State) (ms : Process writers readers → Stage) : Prop where
  works : s.value .firstWriter + total .works ms = 1
  admin : s.value .admin + total .admin ms = total .begun ms
  empty : s.value .empty + total .slots ms + s.written.length + total .unreleased ms = bufSize + s.obtained.length
  full : s.value .full + total .elements ms + total .unposted ms + s.obtained.length = s.written.length
  readMutex : s.value .readMutex + total .inside ms = 1
  behind : total .unreleased ms ≤ s.obtained.length

structure RingInvariant (s : State) (ms : Process writers readers → Stage) : Prop where
  counts : Counts s ms
  entrance : ∀ t, (ms t).reads = true → total .begun ms = 1
  fresh : total .begun ms = 0 → s.written = [] ∧ s.obtained = []
  zeroed : ∀ t, ms t = .zeroed → s.memory.readIndex = 0 ∧ s.memory.writeIndex = 0
  readIndex : total .begun ms = 1 → s.memory.readIndex = (s.obtained.length - total .readLag ms) % bufSize
  writeIndex : total .begun ms = 1 → s.memory.writeIndex = (s.written.length - total .writeLag ms) % bufSize
  readAt : ∀ t i, (ms t).readAt = some i → i = s.memory.readIndex
  writeAt : ∀ t i, (ms t).writeAt = some i → i = s.memory.writeIndex
  queued : s.ring.Queued bufSize
  numbers : ∀ number ∈ s.written, 0 ≤ number

variable {s s' : State} {ms : Process writers readers → Stage} {t : Process writers readers} {m' : Stage}

theorem RingInvariant.correct (holds : RingInvariant s ms) : RingBufferCorrect s where
  unread_kept := holds.queued.cells_eq
  unread_fit := holds.queued.bounded
  no_marker obtained := by
    have nonneg := holds.numbers (-1) (holds.queued.taken_prefix.subset obtained)
    omega
  obtained_prefix := holds.queued.taken_prefix

theorem total_update (token : Token) : total token (Function.update ms t m') + (ms t).tokens token =
    total token ms + m'.tokens token := held_update (Stage.tokens token) ms t m'

theorem begun_le_works (stage : Stage) : stage.tokens .begun ≤ stage.tokens .works := by
  cases stage <;> exact Nat.le_of_ble_eq_true rfl

theorem Counts.begun_le (counts : Counts s ms) : total .begun ms ≤ 1 := by
  have covered : total .begun ms ≤ total .works ms := held_le_held begun_le_works
  have works := counts.works
  omega

theorem Counts.of_writer (counts : Counts s ms) {token : Token} (covered : ∀ m : Stage, m.tokens token ≤ m.tokens .works)
    (works : (ms t).tokens .works = 1) : total token ms = (ms t).tokens token := by
  have bound := counts.works
  have alone : total .works ms ≤ 1 := by omega
  exact held_eq_of_alone covered (by omega) alone

theorem Counts.of_reader (counts : Counts s ms) {token : Token} (covered : ∀ m : Stage, m.tokens token ≤ m.tokens .inside)
    (inside : (ms t).tokens .inside = 1) : total token ms = (ms t).tokens token := by
  have bound := counts.readMutex
  have alone : total .inside ms ≤ 1 := by omega
  exact held_eq_of_alone covered (by omega) alone

theorem each_update {P : Stage → Prop} (new : P m') (old : ∀ u, P (ms u)) (u : Process writers readers) :
    P (Function.update ms t m' u) := by
  by_cases same : u = t
  · subst same
    rwa [Function.update_self]
  · rw [Function.update_of_ne same]
    exact old u

theorem RingInvariant.readAt_move (holds : RingInvariant s ms)
    (own : ∀ i, m'.readAt = some i → i = s.memory.readIndex) (u : Process writers readers) :
    ∀ i, (Function.update ms t m' u).readAt = some i → i = s.memory.readIndex :=
  each_update (P := fun m => ∀ i, m.readAt = some i → i = s.memory.readIndex) own holds.readAt u

theorem RingInvariant.writeAt_move (holds : RingInvariant s ms)
    (own : ∀ i, m'.writeAt = some i → i = s.memory.writeIndex) (u : Process writers readers) :
    ∀ i, (Function.update ms t m' u).writeAt = some i → i = s.memory.writeIndex :=
  each_update (P := fun m => ∀ i, m.writeAt = some i → i = s.memory.writeIndex) own holds.writeAt u

theorem Counts.move (counts : Counts s ms)
    (works : s'.value .firstWriter + m'.tokens .works = s.value .firstWriter + (ms t).tokens .works)
    (admin : s'.value .admin + m'.tokens .admin + (ms t).tokens .begun =
      s.value .admin + (ms t).tokens .admin + m'.tokens .begun)
    (empty : s'.value .empty + m'.tokens .slots + s'.written.length + m'.tokens .unreleased + s.obtained.length =
      s.value .empty + (ms t).tokens .slots + s.written.length + (ms t).tokens .unreleased + s'.obtained.length)
    (full : s'.value .full + m'.tokens .elements + m'.tokens .unposted + s'.obtained.length + s.written.length =
      s.value .full + (ms t).tokens .elements + (ms t).tokens .unposted + s.obtained.length + s'.written.length)
    (readMutex : s'.value .readMutex + m'.tokens .inside = s.value .readMutex + (ms t).tokens .inside)
    (behind : m'.tokens .unreleased + s.obtained.length ≤ (ms t).tokens .unreleased + s'.obtained.length) :
    Counts s' (Function.update ms t m') := by
  have moved := fun token => @total_update _ _ ms t m' token
  refine ⟨?_, ?_, ?_, ?_, ?_, ?_⟩
  · have := moved .works
    have := counts.works
    omega
  · have := moved .admin
    have := moved .begun
    have := counts.admin
    omega
  · have := moved .slots
    have := moved .unreleased
    have := counts.empty
    omega
  · have := moved .elements
    have := moved .unposted
    have := counts.full
    omega
  · have := moved .inside
    have := counts.readMutex
    omega
  · have := moved .unreleased
    have := counts.behind
    omega

theorem RingInvariant.move (holds : RingInvariant s ms) (ring : s'.ring = s.ring)
    (counts : Counts s' (Function.update ms t m')) (begun : m'.tokens .begun = (ms t).tokens .begun)
    (readLag : m'.tokens .readLag = (ms t).tokens .readLag) (writeLag : m'.tokens .writeLag = (ms t).tokens .writeLag)
    (reads : m'.reads = true → total .begun ms = 1) (zeroed : m' ≠ .zeroed)
    (readAt : ∀ i, m'.readAt = some i → i = s.memory.readIndex)
    (writeAt : ∀ i, m'.writeAt = some i → i = s.memory.writeIndex) : RingInvariant s' (Function.update ms t m') := by
  have begunSame : total .begun (Function.update ms t m') = total .begun ms := by
    have := @total_update _ _ ms t m' .begun
    omega
  have readLagSame : total .readLag (Function.update ms t m') = total .readLag ms := by
    have := @total_update _ _ ms t m' .readLag
    omega
  have writeLagSame : total .writeLag (Function.update ms t m') = total .writeLag ms := by
    have := @total_update _ _ ms t m' .writeLag
    omega
  have readIndex : s'.memory.readIndex = s.memory.readIndex := congrArg SharedRing.readIndex ring
  have writeIndex : s'.memory.writeIndex = s.memory.writeIndex := congrArg SharedRing.writeIndex ring
  have written : s'.written = s.written := congrArg SharedRing.stored ring
  have obtained : s'.obtained = s.obtained := congrArg SharedRing.taken ring
  refine ⟨counts, ?_, ?_, ?_, ?_, ?_, ?_, ?_, ring ▸ holds.queued, written ▸ holds.numbers⟩
  · rw [begunSame]
    exact each_update (P := fun m => m.reads = true → total .begun ms = 1) reads holds.entrance
  · rw [begunSame, written, obtained]
    exact holds.fresh
  · rw [readIndex, writeIndex]
    exact each_update (P := fun m => m = .zeroed → s.memory.readIndex = 0 ∧ s.memory.writeIndex = 0)
      (fun isZeroed => absurd isZeroed zeroed) holds.zeroed
  · rw [begunSame, readLagSame, readIndex, obtained]
    exact holds.readIndex
  · rw [begunSame, writeLagSame, writeIndex, written]
    exact holds.writeIndex
  · rw [readIndex]
    exact holds.readAt_move readAt
  · rw [writeIndex]
    exact holds.writeAt_move writeAt

/-- The five semaphores that the invariant counts. -/
structure SameCounts (s s' : State) : Prop where
  firstWriter : s'.value .firstWriter = s.value .firstWriter
  admin : s'.value .admin = s.value .admin
  empty : s'.value .empty = s.value .empty
  full : s'.value .full = s.value .full
  readMutex : s'.value .readMutex = s.value .readMutex

theorem RingInvariant.plain (holds : RingInvariant s ms) (ring : s'.ring = s.ring) (same : SameCounts s s') :
    RingInvariant s' ms := by
  have readIndex : s'.memory.readIndex = s.memory.readIndex := congrArg SharedRing.readIndex ring
  have writeIndex : s'.memory.writeIndex = s.memory.writeIndex := congrArg SharedRing.writeIndex ring
  have written : s'.written = s.written := congrArg SharedRing.stored ring
  have obtained : s'.obtained = s.obtained := congrArg SharedRing.taken ring
  obtain ⟨counts, entrance, fresh, zeroed, read, write, readAt, writeAt, queued, numbers⟩ := holds
  refine ⟨⟨?_, ?_, ?_, ?_, ?_, ?_⟩, entrance, ?_, ?_, ?_, ?_, ?_, ?_, ring ▸ queued, written ▸ numbers⟩
  · rw [same.firstWriter]
    exact counts.works
  · rw [same.admin]
    exact counts.admin
  · rw [same.empty, written, obtained]
    exact counts.empty
  · rw [same.full, written, obtained]
    exact counts.full
  · rw [same.readMutex]
    exact counts.readMutex
  · rw [obtained]
    exact counts.behind
  · rw [written, obtained]
    exact fresh
  · rw [readIndex, writeIndex]
    exact zeroed
  · rw [readIndex, obtained]
    exact read
  · rw [writeIndex, written]
    exact write
  · rw [readIndex]
    exact readAt
  · rw [writeIndex]
    exact writeAt

theorem plain_performed {c : Call} {answer : c.Answer} (plain : c.isPlain = true)
    (performed : perform c answer s = some s') : s'.ring = s.ring ∧ SameCounts s s' := by
  have refl : s.ring = s.ring ∧ SameCounts s s := ⟨rfl, rfl, rfl, rfl, rfl, rfl⟩
  cases c with
  | semOpen semaphore =>
    obtain ⟨values, memory, written, obtained⟩ := value_of_open performed
    exact ⟨by simp only [State.ring, memory, written, obtained], by constructor <;> rw [values]⟩
  | semWait semaphore =>
    obtain ⟨value, -, values, memory, written, obtained⟩ := value_of_wait performed
    refine ⟨by simp only [State.ring, memory, written, obtained], ?_⟩
    cases semaphore <;> cases plain <;> constructor <;> rw [values] <;> rfl
  | semPost semaphore =>
    obtain ⟨values, memory, written, obtained⟩ := value_of_post performed
    refine ⟨by simp only [State.ring, memory, written, obtained], ?_⟩
    cases semaphore <;> cases plain <;> constructor <;> rw [values] <;> rfl
  | semGetvalue _ | loadReaders =>
    simp only [perform, Option.ite_none_right_eq_some, Option.some.injEq] at performed
    exact performed.2 ▸ refl
  | storeReaders count =>
    cases performed
    exact ⟨rfl, rfl, rfl, rfl, rfl, rfl⟩
  | openMemory | rand | printProduced _ _ | printConsumed _ _ _ | sleep =>
    cases performed
    exact refl
  | goesOn => exact isEmptyElim answer
  | memset | loadWriteIndex | storeWriteIndex _ | storeCell _ _ | loadReadIndex | storeReadIndex _ | loadCell _
  | clearCell _ => cases plain

/-- Going from stage `m` to stage `m'` takes one token of the semaphore, and nothing else. -/
structure Takes (semaphore : Semaphore) (m m' : Stage) : Prop where
  works : m'.tokens .works = m.tokens .works + if semaphore = .firstWriter then 1 else 0
  admin : m'.tokens .admin = m.tokens .admin + if semaphore = .admin then 1 else 0
  empty : m'.tokens .slots + m'.tokens .unreleased =
    m.tokens .slots + m.tokens .unreleased + if semaphore = .empty then 1 else 0
  full : m'.tokens .elements + m'.tokens .unposted =
    m.tokens .elements + m.tokens .unposted + if semaphore = .full then 1 else 0
  readMutex : m'.tokens .inside = m.tokens .inside + if semaphore = .readMutex then 1 else 0
  behind : m.tokens .unreleased ≤ m'.tokens .unreleased
  begun : m'.tokens .begun = m.tokens .begun
  readLag : m'.tokens .readLag = m.tokens .readLag
  writeLag : m'.tokens .writeLag = m.tokens .writeLag

def Stage.isQuiet : Stage → Bool
  | .zeroed | .writeIndexed _ | .wrote _ | .readIndexed _ | .took _ | .cleared _ => false
  | _ => true

theorem Stage.isQuiet_iff (stage : Stage) (quiet : stage.isQuiet = true) :
    stage ≠ .zeroed ∧ stage.readAt = none ∧ stage.writeAt = none := by
  cases stage <;> cases quiet <;> exact ⟨nofun, rfl, rfl⟩

variable {semaphore : Semaphore}

theorem RingInvariant.waits {m : Stage} (holds : RingInvariant s ms) (there : ms t = m) (takes : Takes semaphore m m')
    (released : m'.tokens .unreleased = 0) (quiet : m'.isQuiet = true)
    (reads : m'.reads = true → total .begun ms = 1) (performed : perform (.semWait semaphore) () s = some s') :
    RingInvariant s' (Function.update ms t m') := by
  subst there
  obtain ⟨value, before, values, memory, written, obtained⟩ := value_of_wait performed
  obtain ⟨zeroed, readAt, writeAt⟩ := m'.isQuiet_iff quiet
  have ring : s'.ring = s.ring := by simp only [State.ring, memory, written, obtained]
  have taken : ∀ other, s'.value other + (if semaphore = other then 1 else 0) = s.value other := by
    intro other
    rw [values]
    by_cases same : semaphore = other
    · subst same
      rw [Function.update_self, if_pos rfl, before]
    · rw [Function.update_of_ne (Ne.symm same), if_neg same, Nat.add_zero]
  refine holds.move ring (holds.counts.move ?_ ?_ ?_ ?_ ?_ ?_) takes.begun takes.readLag takes.writeLag reads zeroed
    (fun i loaded => by rw [readAt] at loaded; cases loaded) fun i loaded => by rw [writeAt] at loaded; cases loaded
  · have := taken .firstWriter
    have := takes.works
    omega
  · have := taken .admin
    have := takes.admin
    have := takes.begun
    omega
  · have := taken .empty
    have := takes.empty
    rw [written, obtained]
    omega
  · have := taken .full
    have := takes.full
    rw [written, obtained]
    omega
  · have := taken .readMutex
    have := takes.readMutex
    omega
  · rw [obtained, released]
    omega

theorem RingInvariant.posts {m : Stage} (holds : RingInvariant s ms) (there : ms t = m) (gives : Takes semaphore m' m)
    (quiet : m'.isQuiet = true)
    (reads : m'.reads = true → total .begun ms = 1) (performed : perform (.semPost semaphore) () s = some s') :
    RingInvariant s' (Function.update ms t m') := by
  subst there
  obtain ⟨values, memory, written, obtained⟩ := value_of_post performed
  obtain ⟨zeroed, readAt, writeAt⟩ := m'.isQuiet_iff quiet
  have ring : s'.ring = s.ring := by simp only [State.ring, memory, written, obtained]
  have given : ∀ other, s'.value other = s.value other + if semaphore = other then 1 else 0 := by
    intro other
    rw [values]
    by_cases same : semaphore = other
    · subst same
      rw [Function.update_self, if_pos rfl]
    · rw [Function.update_of_ne (Ne.symm same), if_neg same, Nat.add_zero]
  refine holds.move ring (holds.counts.move ?_ ?_ ?_ ?_ ?_ ?_) gives.begun.symm gives.readLag.symm gives.writeLag.symm reads
    zeroed (fun i loaded => by rw [readAt] at loaded; cases loaded) fun i loaded => by rw [writeAt] at loaded; cases loaded
  · have := given .firstWriter
    have := gives.works
    omega
  · have := given .admin
    have := gives.admin
    have := gives.begun
    omega
  · have := given .empty
    have := gives.empty
    rw [written, obtained]
    omega
  · have := given .full
    have := gives.full
    rw [written, obtained]
    omega
  · have := given .readMutex
    have := gives.readMutex
    omega
  · rw [obtained]
    have := gives.behind
    omega

theorem RingInvariant.begun_of_admin (holds : RingInvariant s ms) (performed : perform (.semWait .admin) () s = some s') :
    total .begun ms = 1 := by
  obtain ⟨value, before, -⟩ := value_of_wait performed
  have most := holds.counts.begun_le
  have admin := holds.counts.admin
  omega

theorem RingInvariant.loadsIndex (holds : RingInvariant s ms) (tokens : ∀ token, m'.tokens token = (ms t).tokens token)
    (reads : m'.reads = (ms t).reads) (zeroed : m' ≠ .zeroed) (readAt : ∀ i, m'.readAt = some i → i = s.memory.readIndex)
    (writeAt : ∀ i, m'.writeAt = some i → i = s.memory.writeIndex) : RingInvariant s (Function.update ms t m') := by
  refine holds.move rfl (holds.counts.move ?_ ?_ ?_ ?_ ?_ ?_) (tokens _) (tokens _) (tokens _)
    (fun reading => holds.entrance t (reads ▸ reading)) zeroed readAt writeAt
  all_goals simp only [tokens, Nat.le_refl]

theorem Counts.othersIdle (counts : Counts s ms) (works : (ms t).tokens .works = 1) {u : Process writers readers}
    (other : u ≠ t) : (ms u).tokens .works = 0 := by
  have both := add_le_held (Stage.tokens .works) ms other
  have bound := counts.works
  unfold total at bound
  omega

theorem Stage.readAt_of_reads {stage : Stage} (reads : stage.reads = false) : stage.readAt = none := by
  cases stage <;> first | rfl | cases reads

theorem Stage.writeAt_of_works {stage : Stage} (works : stage.tokens .works = 0) : stage.writeAt = none := by
  cases stage <;> first | rfl | cases works

theorem queued_nil {r : SharedRing Int} (stored : r.stored = []) (taken : r.taken = []) : r.Queued bufSize where
  bounded := by rw [stored]; exact Nat.zero_le _
  taken_prefix := by rw [taken]; exact List.nil_prefix
  cells_eq k number _ known := by
    rw [stored] at known
    cases known

theorem RingInvariant.initialises (holds : RingInvariant s ms) {memory : Memory}
    (there : ms t = .initialising ∨ ms t = .zeroed) (zero : memory.readIndex = 0 ∧ memory.writeIndex = 0) :
    RingInvariant { s with memory } (Function.update ms t .zeroed) := by
  have same : ∀ token, Stage.tokens token .zeroed = (ms t).tokens token := by
    rcases there with there | there <;> rw [there] <;> intro token <;> cases token <;> rfl
  have works : (ms t).tokens .works = 1 := (same .works).symm
  have begun : total .begun ms = 0 := (holds.counts.of_writer begun_le_works works).trans (same .begun).symm
  have begunAfter : total .begun (Function.update ms t .zeroed) = 0 := by
    have := @total_update _ _ ms t .zeroed .begun
    have := same .begun
    omega
  have noneReads : ∀ u, (ms u).reads = false := by
    intro u
    by_contra reads
    have := holds.entrance u (Bool.not_eq_false _ ▸ reads)
    omega
  obtain ⟨written, obtained⟩ := holds.fresh begun
  refine ⟨holds.counts.move ?_ ?_ ?_ ?_ ?_ ?_, ?_, fun _ => ⟨written, obtained⟩, fun _ _ => zero, ?_, ?_, ?_, ?_,
    queued_nil written obtained, holds.numbers⟩
  · rw [same]
    rfl
  · rw [same, same]
    rfl
  · rw [same, same]
    rfl
  · rw [same, same]
    rfl
  · rw [same]
    rfl
  · rw [same]
  · exact each_update (P := fun m => m.reads = true → total .begun (Function.update ms t .zeroed) = 1) nofun
      fun u reads => absurd (reads.symm.trans (noneReads u)) nofun
  · intro started
    omega
  · intro started
    omega
  · exact each_update (P := fun m => ∀ i, m.readAt = some i → i = memory.readIndex) nofun fun u i loaded => by
      rw [Stage.readAt_of_reads (noneReads u)] at loaded
      cases loaded
  · intro u i loaded
    by_cases isSelf : u = t
    · subst isSelf
      rw [Function.update_self] at loaded
      cases loaded
    · rw [Function.update_of_ne isSelf, Stage.writeAt_of_works (holds.counts.othersIdle works isSelf)] at loaded
      cases loaded

theorem RingInvariant.opens (holds : RingInvariant s ms) (there : ms t = .zeroed)
    (performed : perform (.semPost .admin) () s = some s') : RingInvariant s' (Function.update ms t .ready) := by
  obtain ⟨values, memory, written, obtained⟩ := value_of_post performed
  have works : (ms t).tokens .works = 1 := by rw [there]; rfl
  have begun : total .begun ms = 0 := by
    rw [holds.counts.of_writer begun_le_works works, there]
    rfl
  have begunAfter : total .begun (Function.update ms t .ready) = 1 := by
    have moved := @total_update _ _ ms t .ready .begun
    rw [there] at moved
    simp only [Stage.tokens] at moved
    omega
  obtain ⟨noneWritten, noneObtained⟩ := holds.fresh begun
  obtain ⟨readIndex, writeIndex⟩ := holds.zeroed t there
  have ring : s'.ring = s.ring := by simp only [State.ring, memory, written, obtained]
  refine ⟨holds.counts.move ?_ ?_ ?_ ?_ ?_ ?_, fun _ _ => begunAfter, fun none => ?_, ?_, fun _ => ?_, fun _ => ?_, ?_, ?_,
    ring ▸ holds.queued, written ▸ holds.numbers⟩
  · rw [there, values]
    rfl
  · rw [there, values]
    exact Nat.add_right_comm _ _ _
  · rw [there, values, written, obtained]
    rfl
  · rw [there, values, written, obtained]
    rfl
  · rw [there, values]
    rfl
  · rw [there, obtained]
    rfl
  · omega
  · rw [memory]
    exact fun _ _ => ⟨readIndex, writeIndex⟩
  · rw [memory, readIndex, obtained, noneObtained, List.length_nil, Nat.zero_sub]
    rfl
  · rw [memory, writeIndex, written, noneWritten, List.length_nil, Nat.zero_sub]
    rfl
  · rw [memory]
    exact holds.readAt_move nofun
  · rw [memory]
    exact holds.writeAt_move nofun

theorem ringInvariant_of_begun (begun : total .begun ms = 1)
    (keeps : m'.tokens .begun = (ms t).tokens .begun) (counts : Counts s' (Function.update ms t m'))
    (readIndex : s'.memory.readIndex = (s'.obtained.length - total .readLag (Function.update ms t m')) % bufSize)
    (writeIndex : s'.memory.writeIndex = (s'.written.length - total .writeLag (Function.update ms t m')) % bufSize)
    (readAt : ∀ u i, (Function.update ms t m' u).readAt = some i → i = s'.memory.readIndex)
    (writeAt : ∀ u i, (Function.update ms t m' u).writeAt = some i → i = s'.memory.writeIndex)
    (queued : s'.ring.Queued bufSize) (numbers : ∀ number ∈ s'.written, 0 ≤ number) :
    RingInvariant s' (Function.update ms t m') := by
  have begunAfter : total .begun (Function.update ms t m') = 1 := by
    have := @total_update _ _ ms t m' .begun
    omega
  refine ⟨counts, fun _ _ => begunAfter, fun none => ?_, fun u isZeroed => ?_, fun _ => readIndex, fun _ => writeIndex,
    readAt, writeAt, queued, numbers⟩
  · omega
  · have none := counts.of_writer (t := u) begun_le_works (by rw [isZeroed]; rfl)
    rw [isZeroed] at none
    simp only [Stage.tokens] at none
    omega

theorem Counts.othersOutside (counts : Counts s ms) (inside : (ms t).tokens .inside = 1) {u : Process writers readers}
    (other : u ≠ t) : (ms u).tokens .inside = 0 := by
  have both := add_le_held (Stage.tokens .inside) ms other
  have bound := counts.readMutex
  unfold total at bound
  omega

theorem Stage.readAt_of_inside {stage : Stage} (outside : stage.tokens .inside = 0) : stage.readAt = none := by
  cases stage <;> first | rfl | cases outside

theorem Counts.onlyReader (counts : Counts s ms) (inside : (ms t).tokens .inside = 1) {index : Nat}
    (own : ∀ i, m'.readAt = some i → i = index) (u : Process writers readers) (i : Nat)
    (loaded : (Function.update ms t m' u).readAt = some i) : i = index := by
  by_cases isSelf : u = t
  · subst isSelf
    rw [Function.update_self] at loaded
    exact own i loaded
  · rw [Function.update_of_ne isSelf, Stage.readAt_of_inside (counts.othersOutside inside isSelf)] at loaded
    cases loaded

theorem Counts.onlyWriter (counts : Counts s ms) (works : (ms t).tokens .works = 1) {index : Nat}
    (own : ∀ i, m'.writeAt = some i → i = index) (u : Process writers readers) (i : Nat)
    (loaded : (Function.update ms t m' u).writeAt = some i) : i = index := by
  by_cases isSelf : u = t
  · subst isSelf
    rw [Function.update_self] at loaded
    exact own i loaded
  · rw [Function.update_of_ne isSelf, Stage.writeAt_of_works (counts.othersIdle works isSelf)] at loaded
    cases loaded

theorem writeLag_le_works (stage : Stage) : stage.tokens .writeLag ≤ stage.tokens .works := by
  cases stage <;> exact Nat.le_of_ble_eq_true rfl

theorem readLag_le_inside (stage : Stage) : stage.tokens .readLag ≤ stage.tokens .inside := by
  cases stage <;> exact Nat.le_of_ble_eq_true rfl

theorem le_total (token : Token) (ms : Process writers readers → Stage) (t : Process writers readers) :
    (ms t).tokens token ≤ total token ms := le_held (Stage.tokens token) ms t

theorem RingInvariant.storesCell (holds : RingInvariant s ms) {i : Nat} {number : Int} (there : ms t = .writeIndexed i)
    (nonneg : 0 ≤ number) :
    RingInvariant { s with
      memory := { s.memory with store := Function.update s.memory.store i number }
      written := s.written ++ [number] } (Function.update ms t (.wrote i)) := by
  have works : (ms t).tokens .works = 1 := by rw [there]; rfl
  have begun : total .begun ms = 1 := by
    rw [holds.counts.of_writer begun_le_works works, there]
    rfl
  have writeLag : total .writeLag ms = 0 := by
    rw [holds.counts.of_writer writeLag_le_works works, there]
    rfl
  have slots : 1 ≤ total .slots ms := by
    have := le_total .slots ms t
    rw [there] at this
    exact this
  have atIndex : i = s.written.length % bufSize := by
    rw [holds.writeAt t i (by rw [there]; rfl), holds.writeIndex begun, writeLag, Nat.sub_zero]
  have room : s.ring.count < bufSize := by
    have := holds.counts.empty
    have size : bufSize = 10 := rfl
    simp only [SharedRing.count, State.ring]
    omega
  have lagMoved := fun token => @total_update _ _ ms t (.wrote i) token
  refine ringInvariant_of_begun begun (by rw [there]; rfl) (holds.counts.move ?_ ?_ ?_ ?_ ?_ ?_) ?_ ?_
    ?_ (holds.counts.onlyWriter works ?_) ?_ ?_
  · rw [there]
    rfl
  · rw [there]
    rfl
  · rw [there]
    simp only [Stage.tokens, List.length_append, List.length_singleton]
    change s.value .empty + 0 + (s.written.length + 1) + 0 + s.obtained.length = _
    omega
  · rw [there]
    simp only [Stage.tokens, List.length_append, List.length_singleton]
    change s.value .full + 0 + 1 + s.obtained.length + s.written.length = _
    omega
  · rw [there]
    rfl
  · rw [there]
    exact Nat.le_refl _
  · have same := lagMoved .readLag
    rw [there] at same
    have readLag : total .readLag (Function.update ms t (.wrote i)) = total .readLag ms := same
    rw [readLag]
    exact holds.readIndex begun
  · have more := lagMoved .writeLag
    rw [there, writeLag] at more
    have lag : total .writeLag (Function.update ms t (.wrote i)) = 1 := more
    rw [lag, List.length_append, List.length_singleton, Nat.add_sub_cancel]
    exact (holds.writeIndex begun).trans (by rw [writeLag, Nat.sub_zero])
  · exact holds.readAt_move (by rintro _ ⟨⟩)
  · rintro _ ⟨⟩
    exact holds.writeAt t i (by rw [there]; rfl)
  · have stored := holds.queued.storeCell room number
    simp only [State.ring] at stored atIndex ⊢
    rw [← atIndex] at stored
    exact stored
  · intro other member
    rcases List.mem_append.mp member with before | last
    · exact holds.numbers other before
    · exact List.mem_singleton.mp last ▸ nonneg

theorem RingInvariant.storesWriteIndex (holds : RingInvariant s ms) {i : Nat} (there : ms t = .wrote i) :
    RingInvariant { s with memory := { s.memory with writeIndex := (i + 1) % bufSize } }
      (Function.update ms t .writeAdvanced) := by
  have works : (ms t).tokens .works = 1 := by rw [there]; rfl
  have begun : total .begun ms = 1 := by
    rw [holds.counts.of_writer begun_le_works works, there]
    rfl
  have writeLag : total .writeLag ms = 1 := by
    rw [holds.counts.of_writer writeLag_le_works works, there]
    rfl
  have nonempty : 1 ≤ s.written.length := by
    have unposted := le_total .unposted ms t
    rw [there] at unposted
    have one : 1 ≤ total .unposted ms := unposted
    have := holds.counts.full
    omega
  have atIndex : i = (s.written.length - 1) % bufSize := by
    rw [holds.writeAt t i (by rw [there]; rfl), holds.writeIndex begun, writeLag]
  have lagMoved := fun token => @total_update _ _ ms t .writeAdvanced token
  refine ringInvariant_of_begun begun (by rw [there]; rfl) (holds.counts.move ?_ ?_ ?_ ?_ ?_ ?_) ?_ ?_
    ?_ (holds.counts.onlyWriter works (by rintro _ ⟨⟩)) holds.queued.withIndices holds.numbers
  · rw [there]
    rfl
  · rw [there]
    rfl
  · rw [there]
    rfl
  · rw [there]
    rfl
  · rw [there]
    rfl
  · rw [there]
    exact Nat.le_refl _
  · have same := lagMoved .readLag
    rw [there] at same
    have readLag : total .readLag (Function.update ms t .writeAdvanced) = total .readLag ms := same
    rw [readLag]
    exact holds.readIndex begun
  · have less := lagMoved .writeLag
    rw [there, writeLag] at less
    have lag : total .writeLag (Function.update ms t .writeAdvanced) = 0 := Nat.succ.inj less
    rw [lag, Nat.sub_zero, atIndex, Nat.mod_add_mod, Nat.sub_add_cancel nonempty]
  · exact holds.readAt_move (by rintro _ ⟨⟩)

theorem begun_of_reads (holds : RingInvariant s ms) (inside : (ms t).tokens .inside = 1) : total .begun ms = 1 := by
  refine holds.entrance t ?_
  generalize ms t = stage at inside
  cases stage <;> first | rfl | cases inside

theorem RingInvariant.loadsCell (holds : RingInvariant s ms) {i : Nat} (there : ms t = .readIndexed i) :
    RingInvariant { s with obtained := s.obtained ++ [s.memory.store i] } (Function.update ms t (.took i)) := by
  have inside : (ms t).tokens .inside = 1 := by rw [there]; rfl
  have begun := begun_of_reads holds inside
  have readLag : total .readLag ms = 0 := by
    rw [holds.counts.of_reader readLag_le_inside inside, there]
    rfl
  have nonempty : 0 < s.ring.count := by
    have elements := le_total .elements ms t
    rw [there] at elements
    have one : 1 ≤ total .elements ms := elements
    have := holds.counts.full
    simp only [SharedRing.count, State.ring]
    omega
  have atIndex : i = s.obtained.length % bufSize := by
    rw [holds.readAt t i (by rw [there]; rfl), holds.readIndex begun, readLag, Nat.sub_zero]
  have lagMoved := fun token => @total_update _ _ ms t (.took i) token
  refine ringInvariant_of_begun begun (by rw [there]; rfl) (holds.counts.move ?_ ?_ ?_ ?_ ?_ ?_) ?_ ?_
    (holds.counts.onlyReader inside ?_) ?_ ?_ holds.numbers
  · rw [there]
    rfl
  · rw [there]
    rfl
  · rw [there]
    simp only [Stage.tokens, List.length_append, List.length_singleton]
    change s.value .empty + 0 + s.written.length + 1 + s.obtained.length = _
    omega
  · rw [there]
    simp only [Stage.tokens, List.length_append, List.length_singleton]
    change s.value .full + 0 + 0 + (s.obtained.length + 1) + s.written.length = _
    omega
  · rw [there]
    rfl
  · rw [there]
    simp only [Stage.tokens, List.length_append, List.length_singleton]
    omega
  · have more := lagMoved .readLag
    rw [there, readLag] at more
    have lag : total .readLag (Function.update ms t (.took i)) = 1 := more
    rw [lag, List.length_append, List.length_singleton, Nat.add_sub_cancel]
    exact (holds.readIndex begun).trans (by rw [readLag, Nat.sub_zero])
  · have same := lagMoved .writeLag
    rw [there] at same
    have writeLag : total .writeLag (Function.update ms t (.took i)) = total .writeLag ms := same
    rw [writeLag]
    exact holds.writeIndex begun
  · rintro _ ⟨⟩
    exact holds.readAt t i (by rw [there]; rfl)
  · exact holds.writeAt_move (by rintro _ ⟨⟩)
  · have loaded := holds.queued.loadCell nonempty
    simp only [State.ring] at loaded atIndex ⊢
    rw [← atIndex] at loaded
    exact loaded

theorem RingInvariant.clearsCell (holds : RingInvariant s ms) {i : Nat} (there : ms t = .took i) :
    RingInvariant { s with memory := { s.memory with store := Function.update s.memory.store i (-1) } }
      (Function.update ms t (.cleared i)) := by
  have inside : (ms t).tokens .inside = 1 := by rw [there]; rfl
  have begun := begun_of_reads holds inside
  have readLag : total .readLag ms = 1 := by
    rw [holds.counts.of_reader readLag_le_inside inside, there]
    rfl
  have unreleased : 1 ≤ total .unreleased ms := by
    have own := le_total .unreleased ms t
    rw [there] at own
    exact own
  have nonempty : 0 < s.ring.taken.length := by
    have := holds.counts.behind
    change 0 < s.obtained.length
    omega
  have room : s.ring.count < bufSize := by
    have := holds.counts.empty
    have size : bufSize = 10 := rfl
    simp only [SharedRing.count, State.ring]
    omega
  have atIndex : i = (s.obtained.length - 1) % bufSize := by
    rw [holds.readAt t i (by rw [there]; rfl), holds.readIndex begun, readLag]
  have same : ∀ token, (Stage.cleared i).tokens token = (ms t).tokens token := by
    rw [there]
    intro token
    cases token <;> rfl
  have lagMoved : ∀ token, total token (Function.update ms t (.cleared i)) = total token ms := by
    intro token
    have := @total_update _ _ ms t (.cleared i) token
    have := same token
    omega
  refine ringInvariant_of_begun begun (same _) (holds.counts.move ?_ ?_ ?_ ?_ ?_ ?_) ?_ ?_
    (holds.counts.onlyReader inside ?_) ?_ ?_ holds.numbers
  · rw [same]
    rfl
  · rw [same, same]
    rfl
  · rw [same, same]
    rfl
  · rw [same, same]
    rfl
  · rw [same]
    rfl
  · rw [same]
  · rw [lagMoved]
    exact holds.readIndex begun
  · rw [lagMoved]
    exact holds.writeIndex begun
  · rintro _ ⟨⟩
    exact holds.readAt t i (by rw [there]; rfl)
  · exact holds.writeAt_move (by rintro _ ⟨⟩)
  · have cleared := holds.queued.overwriteTaken room nonempty (-1)
    simp only [State.ring] at cleared atIndex ⊢
    rw [← atIndex] at cleared
    exact cleared

theorem RingInvariant.storesReadIndex (holds : RingInvariant s ms) {i : Nat} (there : ms t = .cleared i) :
    RingInvariant { s with memory := { s.memory with readIndex := (i + 1) % bufSize } }
      (Function.update ms t .readAdvanced) := by
  have inside : (ms t).tokens .inside = 1 := by rw [there]; rfl
  have begun := begun_of_reads holds inside
  have readLag : total .readLag ms = 1 := by
    rw [holds.counts.of_reader readLag_le_inside inside, there]
    rfl
  have nonempty : 1 ≤ s.obtained.length := by
    have own := le_total .unreleased ms t
    rw [there] at own
    have one : 1 ≤ total .unreleased ms := own
    have := holds.counts.behind
    omega
  have atIndex : i = (s.obtained.length - 1) % bufSize := by
    rw [holds.readAt t i (by rw [there]; rfl), holds.readIndex begun, readLag]
  have lagMoved := fun token => @total_update _ _ ms t .readAdvanced token
  refine ringInvariant_of_begun begun (by rw [there]; rfl) (holds.counts.move ?_ ?_ ?_ ?_ ?_ ?_) ?_ ?_
    (holds.counts.onlyReader inside (by rintro _ ⟨⟩)) ?_ holds.queued.withIndices holds.numbers
  · rw [there]
    rfl
  · rw [there]
    rfl
  · rw [there]
    rfl
  · rw [there]
    rfl
  · rw [there]
    rfl
  · rw [there]
    exact Nat.le_refl _
  · have less := lagMoved .readLag
    rw [there, readLag] at less
    have lag : total .readLag (Function.update ms t .readAdvanced) = 0 := Nat.succ.inj less
    rw [lag, Nat.sub_zero, atIndex, Nat.mod_add_mod, Nat.sub_add_cancel nonempty]
  · have same := lagMoved .writeLag
    rw [there] at same
    have writeLag : total .writeLag (Function.update ms t .readAdvanced) = total .writeLag ms := same
    rw [writeLag]
    exact holds.writeIndex begun
  · exact holds.writeAt_move (by rintro _ ⟨⟩)

end

end ArchCompSystems.OsHw8
