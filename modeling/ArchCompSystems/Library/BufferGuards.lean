import ArchCompSystems.Library.Protocol
import ArchCompSystems.Library.SharedRing

namespace ArchCompSystems.Library

/-- The calls of threads that share a ring, two counting semaphores, one for free cells and one for
    added values, and a guard: a mutex or a binary semaphore, whose only token is taken by locking
    and given back by unlocking. A try may fail at any time. -/
inductive BufferCall (α : Type) where
  | waitFree
  | tryWaitFree
  | postFree
  | waitAdded
  | postAdded
  | lock
  | tryLock
  | unlock
  | loadReadIndex
  | storeReadIndex (index : Nat)
  | loadWriteIndex
  | storeWriteIndex (index : Nat)
  | loadSize
  | storeSize (size : Nat)
  | loadCell (i : Nat)
  | storeCell (i : Nat) (value : α)
  | abort (assertion : String)

@[reducible] def BufferCall.Answer {α : Type} : BufferCall α → Type
  | .tryWaitFree | .tryLock => Bool
  | .loadReadIndex | .loadWriteIndex | .loadSize => Nat
  | .loadCell _ => α
  | .abort _ => Empty
  | .waitFree | .postFree | .waitAdded | .postAdded | .lock | .unlock
  | .storeReadIndex _ | .storeWriteIndex _ | .storeSize _ | .storeCell _ _ => Unit

structure BufferState (α : Type) where
  ring : SharedRing α
  free : Nat
  added : Nat
  guard : Nat

namespace BufferState

variable {α : Type} [DecidableEq α]

def perform (call : BufferCall α) (answer : call.Answer) (s : BufferState α) :
    Option (BufferState α) :=
  match call, answer with
  | .waitFree, _ => if 0 < s.free then some { s with free := s.free - 1 } else none
  | .tryWaitFree, taken =>
    if taken then if 0 < s.free then some { s with free := s.free - 1 } else none else some s
  | .postFree, _ => some { s with free := s.free + 1 }
  | .waitAdded, _ => if 0 < s.added then some { s with added := s.added - 1 } else none
  | .postAdded, _ => some { s with added := s.added + 1 }
  | .lock, _ => if 0 < s.guard then some { s with guard := s.guard - 1 } else none
  | .tryLock, taken =>
    if taken then if 0 < s.guard then some { s with guard := s.guard - 1 } else none else some s
  | .unlock, _ => some { s with guard := s.guard + 1 }
  | .loadReadIndex, answer => if answer = s.ring.readIndex then some s else none
  | .storeReadIndex index, _ => some { s with ring := { s.ring with readIndex := index } }
  | .loadWriteIndex, answer => if answer = s.ring.writeIndex then some s else none
  | .storeWriteIndex index, _ => some { s with ring := { s.ring with writeIndex := index } }
  | .loadSize, answer => if answer = s.ring.size then some s else none
  | .storeSize size, _ => some { s with ring := { s.ring with size := size } }
  | .loadCell i, answer =>
    if answer = s.ring.cells i then some { s with ring := s.ring.loadCell i } else none
  | .storeCell i value, _ => some { s with ring := s.ring.storeCell i value }
  | .abort _, answer => answer.elim

end BufferState

def BufferState.answer {α : Type} : (call : BufferCall α) → BufferState α → Option call.Answer
  | .tryWaitFree, s => some (decide (0 < s.free))
  | .tryLock, s => some (decide (0 < s.guard))
  | .loadReadIndex, s => some s.ring.readIndex
  | .loadWriteIndex, s => some s.ring.writeIndex
  | .loadSize, s => some s.ring.size
  | .loadCell i, s => some (s.ring.cells i)
  | .abort _, _ => none
  | .waitFree, _ | .postFree, _ | .waitAdded, _ | .postAdded, _ | .lock, _ | .unlock, _
  | .storeReadIndex _, _ | .storeWriteIndex _, _ | .storeSize _, _ | .storeCell _ _, _ => some ()

abbrev BufferProgram (α : Type) := Program (BufferCall α) BufferCall.Answer

abbrev BufferEvent (α : Type) := Event (@BufferCall.Answer α)

def BufferCall.make {α : Type} (call : BufferCall α) : BufferProgram α call.Answer :=
  Program.request call

def bufferMachine (τ α : Type) [DecidableEq α] :
    Machine τ (BufferCall α) BufferCall.Answer (BufferState α) where
  perform _ call answer s := s.perform call answer
  cut _ _ _ := none

/-- What a thread holds: free cells and added values that it has reserved, and inside of the
    section its view of the ring. -/
structure Holding (α : Type) where
  slots : Nat
  elems : Nat
  inside : Option (SharedRing α)

namespace Holding

variable {α : Type}

def outside : Holding α := ⟨0, 0, none⟩

def entered (m : Holding α) : Nat := if m.inside.isSome then 1 else 0

@[simp] theorem entered_none {slots elems : Nat} : (⟨slots, elems, none⟩ : Holding α).entered = 0 := rfl

@[simp] theorem entered_some {slots elems : Nat} {r : SharedRing α} :
    (⟨slots, elems, some r⟩ : Holding α).entered = 1 := rfl

end Holding

section

variable {τ α β : Type} [DecidableEq τ] [Fintype τ] [DecidableEq α]

/-- The ring as a thread finds it that enters the section with reservations. -/
structure Entry (capacity : Nat) (settled : SharedRing α → Prop) (slots elems : Nat)
    (r : SharedRing α) : Prop where
  queued : r.Queued capacity
  indices : r.Settled capacity
  settled : settled r
  room : 0 < slots → r.count < capacity
  filled : 0 < elems → 0 < r.count

/-- A thread waits only without tokens and outside of the section, stores only with a reserved free cell and into the next cell, loads only with a
    reserved value and from the oldest cell, and leaves the section with settled indices and what
    `settled` says of the ring besides. It fails no assertion. -/
def bufferProtocol (capacity : Nat) (settled : SharedRing α → Prop) :
    Protocol (BufferCall α) BufferCall.Answer (Holding α) where
  allowed m
    | .waitFree | .tryWaitFree | .waitAdded => m = .outside
    | .postFree => 0 < m.slots
    | .postAdded => 0 < m.elems
    | .lock | .tryLock => m.inside = none
    | .unlock => ∃ r, m.inside = some r ∧ r.Settled capacity ∧ settled r
    | .loadCell i => 0 < m.elems ∧ ∃ r, m.inside = some r ∧ i = r.taken.length % capacity
    | .storeCell i _ => 0 < m.slots ∧ ∃ r, m.inside = some r ∧ i = r.stored.length % capacity
    | .abort _ => False
    | .loadReadIndex | .storeReadIndex _ | .loadWriteIndex | .storeWriteIndex _ | .loadSize
    | .storeSize _ => m.inside.isSome
  moves m
    | .waitFree, _, m' => m' = { m with slots := m.slots + 1 }
    | .tryWaitFree, taken, m' => m' = if taken then { m with slots := m.slots + 1 } else m
    | .postFree, _, m' => m' = { m with slots := m.slots - 1 }
    | .waitAdded, _, m' => m' = { m with elems := m.elems + 1 }
    | .postAdded, _, m' => m' = { m with elems := m.elems - 1 }
    | .lock, _, m' => ∃ r, Entry capacity settled m.slots m.elems r ∧ m' = { m with inside := some r }
    | .tryLock, taken, m' =>
      if taken then ∃ r, Entry capacity settled m.slots m.elems r ∧ m' = { m with inside := some r }
      else m' = m
    | .unlock, _, m' => m' = { m with inside := none }
    | .loadReadIndex, answer, m' => ∃ r, m.inside = some r ∧ answer = r.readIndex ∧ m' = m
    | .storeReadIndex index, _, m' =>
      ∃ r, m.inside = some r ∧ m' = { m with inside := some { r with readIndex := index } }
    | .loadWriteIndex, answer, m' => ∃ r, m.inside = some r ∧ answer = r.writeIndex ∧ m' = m
    | .storeWriteIndex index, _, m' =>
      ∃ r, m.inside = some r ∧ m' = { m with inside := some { r with writeIndex := index } }
    | .loadSize, answer, m' => ∃ r, m.inside = some r ∧ answer = r.size ∧ m' = m
    | .storeSize size, _, m' =>
      ∃ r, m.inside = some r ∧ m' = { m with inside := some { r with size := size } }
    | .loadCell i, answer, m' => ∃ r, m.inside = some r ∧ answer = r.cells i ∧
        m' = ⟨m.slots + 1, m.elems - 1, some (r.loadCell i)⟩
    | .storeCell i value, _, m' => ∃ r, m.inside = some r ∧
        m' = ⟨m.slots - 1, m.elems + 1, some (r.storeCell i value)⟩
    | .abort _, _, _ => False

/-- The semaphores count what no thread holds, and at most one thread is inside. -/
structure Guards (capacity : Nat) (settled : SharedRing α → Prop) (s : BufferState α)
    (ms : τ → Holding α) : Prop where
  guard : s.guard + held Holding.entered ms = 1
  free : s.free + held Holding.slots ms + s.ring.count = capacity
  added : s.added + held Holding.elems ms = s.ring.count
  queued : s.ring.Queued capacity
  inside : ∀ t r, (ms t).inside = some r → s.ring = r
  outside : held Holding.entered ms = 0 → s.ring.Settled capacity ∧ settled s.ring

variable {capacity : Nat} {settled : SharedRing α → Prop} {s s' : BufferState α}
  {ms : τ → Holding α} {t : τ} {m' : Holding α}

omit [DecidableEq α] in
theorem Guards.alone (guards : Guards capacity settled s ms) {u : τ} (other : u ≠ t)
    {r : SharedRing α} (inside : (ms t).inside = some r) : (ms u).inside = none := by
  have both := add_le_held Holding.entered ms other
  have most := guards.guard
  cases second : (ms u).inside with
  | none => rfl
  | some r' =>
    simp only [Holding.entered, inside, second, Option.isSome_some, if_true] at both
    omega

omit [DecidableEq α] in
theorem Guards.move (guards : Guards capacity settled s ms)
    (guard : s'.guard + m'.entered = s.guard + (ms t).entered)
    (free : s'.free + m'.slots + s'.ring.count = s.free + (ms t).slots + s.ring.count)
    (added : s'.added + m'.elems + s.ring.count = s.added + (ms t).elems + s'.ring.count)
    (queued : s'.ring.Queued capacity) (inside : ∀ r, m'.inside = some r → s'.ring = r)
    (others : (ms t).inside = none → s'.ring = s.ring)
    (left : ∀ r, (ms t).inside = some r → m'.inside = none →
      s'.ring.Settled capacity ∧ settled s'.ring) :
    Guards capacity settled s' (Function.update ms t m') where
  guard := by
    have := held_update Holding.entered ms t m'
    have := guards.guard
    omega
  free := by
    have := held_update Holding.slots ms t m'
    have := guards.free
    omega
  added := by
    have := held_update Holding.elems ms t m'
    have := guards.added
    omega
  queued := queued
  inside := by
    intro u r known
    by_cases same : u = t
    · subst same
      rw [Function.update_self] at known
      exact inside r known
    · rw [Function.update_of_ne same] at known
      cases before : (ms t).inside with
      | none => rw [others before, guards.inside u r known]
      | some r' =>
        rw [guards.alone same before] at known
        cases known
  outside := by
    intro empty
    have mine := le_held Holding.entered (Function.update ms t m') t
    rw [empty, Function.update_self] at mine
    have gone : m'.inside = none := by
      cases after : m'.inside with
      | none => rfl
      | some r => simp [Holding.entered, after] at mine
    cases before : (ms t).inside with
    | none =>
      have balance := held_update Holding.entered ms t m'
      have without : (ms t).entered = 0 := by simp [Holding.entered, before]
      rw [others before]
      exact guards.outside (by omega)
    | some r => exact left r before gone

omit [DecidableEq α] in
theorem Guards.exchange (guards : Guards capacity settled s ms) (ring : s'.ring = s.ring)
    (guard : s'.guard = s.guard) (section' : m'.inside = (ms t).inside)
    (free : s'.free + m'.slots = s.free + (ms t).slots)
    (added : s'.added + m'.elems = s.added + (ms t).elems) :
    Guards capacity settled s' (Function.update ms t m') := by
  refine guards.move (by simp only [Holding.entered, section']; omega) (by rw [ring]; omega)
    (by rw [ring]; omega) (ring ▸ guards.queued) ?_ (fun _ => ring) ?_
  · intro r known
    rw [ring]
    exact guards.inside t r (section' ▸ known)
  · intro r before after
    rw [section', before] at after
    cases after

omit [DecidableEq α] in
theorem Guards.enter (guards : Guards capacity settled s ms) (outside : (ms t).inside = none)
    (unlocked : 0 < s.guard) :
    Entry capacity settled (ms t).slots (ms t).elems s.ring ∧
      Guards capacity settled { s with guard := s.guard - 1 }
        (Function.update ms t { ms t with inside := some s.ring }) := by
  have empty : held Holding.entered ms = 0 := by have := guards.guard; omega
  obtain ⟨indices, kept⟩ := guards.outside empty
  refine ⟨⟨guards.queued, indices, kept, fun slots => ?_, fun elems => ?_⟩, ?_⟩
  · have := le_held Holding.slots ms t
    have := guards.free
    omega
  · have := le_held Holding.elems ms t
    have := guards.added
    omega
  · refine guards.move ?_ rfl rfl guards.queued (fun r known => Option.some.inj known) (fun _ => rfl) ?_
    · simp only [Holding.entered, outside, Option.isSome_some, Option.isSome_none, if_true]
      simp
      omega
    · intro r before
      rw [outside] at before
      cases before

omit [DecidableEq α] in
theorem Guards.adjust (guards : Guards capacity settled s ms) {r r' : SharedRing α}
    (known : (ms t).inside = some r) (stored : r'.stored = r.stored) (taken : r'.taken = r.taken)
    (cells : r'.cells = r.cells) :
    Guards capacity settled { s with ring := r' }
      (Function.update ms t { ms t with inside := some r' }) := by
  have same := guards.inside t r known
  subst same
  refine guards.move (by simp [Holding.entered, known]) ?_ ?_ ?_ (fun _ same => Option.some.inj same) ?_ ?_
  · simp only [SharedRing.count, stored, taken]
  · simp only [SharedRing.count, stored, taken]
  · have queued := guards.queued
    exact ⟨by rw [stored, taken]; exact queued.bounded, by rw [stored, taken]; exact queued.taken_prefix,
      by rw [stored, taken, cells]; exact queued.cells_eq⟩
  · intro outside
    rw [outside] at known
    cases known
  · intro _ _ gone
    cases gone

omit [DecidableEq τ] [DecidableEq α] in
theorem Guards.view (guards : Guards capacity settled s ms) (inside : (ms t).inside.isSome) :
    (ms t).inside = some s.ring := by
  obtain ⟨r, known⟩ := Option.isSome_iff_exists.mp inside
  rw [known, guards.inside t r known]

omit [DecidableEq α] in
theorem Guards.leave (guards : Guards capacity settled s ms) (known : (ms t).inside = some s.ring)
    (indices : s.ring.Settled capacity) (kept : settled s.ring) :
    Guards capacity settled { s with guard := s.guard + 1 }
      (Function.update ms t { ms t with inside := none }) := by
  refine guards.move ?_ rfl rfl guards.queued (fun _ inside => by cases inside) (fun _ => rfl)
    fun _ _ _ => ⟨indices, kept⟩
  simp [Holding.entered, known]

omit [DecidableEq α] in
theorem Guards.take (guards : Guards capacity settled s ms) (known : (ms t).inside = some s.ring)
    (elems : 0 < (ms t).elems) :
    Guards capacity settled { s with ring := s.ring.loadCell (s.ring.taken.length % capacity) }
      (Function.update ms t ⟨(ms t).slots + 1, (ms t).elems - 1,
        some (s.ring.loadCell (s.ring.taken.length % capacity))⟩) := by
  have filled : 0 < s.ring.count := by
    have := le_held Holding.elems ms t
    have := guards.added
    omega
  have counted := SharedRing.count_loadCell filled (s.ring.taken.length % capacity)
  refine guards.move ?_ ?_ ?_ (guards.queued.loadCell filled) (fun _ inside => Option.some.inj inside) ?_ ?_
  · simp [Holding.entered, known]
  · dsimp only
    omega
  · dsimp only
    omega
  · intro outside
    rw [outside] at known
    cases known
  · intro _ _ gone
    cases gone

omit [DecidableEq α] in
theorem Guards.put (guards : Guards capacity settled s ms) (known : (ms t).inside = some s.ring)
    (slots : 0 < (ms t).slots) (value : α) :
    Guards capacity settled { s with ring := s.ring.storeCell (s.ring.stored.length % capacity) value }
      (Function.update ms t ⟨(ms t).slots - 1, (ms t).elems + 1,
        some (s.ring.storeCell (s.ring.stored.length % capacity) value)⟩) := by
  have room : s.ring.count < capacity := by
    have := le_held Holding.slots ms t
    have := guards.free
    omega
  have counted := SharedRing.count_storeCell guards.queued (s.ring.stored.length % capacity) value
  refine guards.move ?_ ?_ ?_ (guards.queued.storeCell room value) (fun _ inside => Option.some.inj inside) ?_ ?_
  · simp [Holding.entered, known]
  · dsimp only
    omega
  · dsimp only
    omega
  · intro outside
    rw [outside] at known
    cases known
  · intro _ _ gone
    cases gone

theorem Guards.perform (guards : Guards capacity settled s ms) {call : BufferCall α}
    {answer : call.Answer} (allowed : (bufferProtocol capacity settled).allowed (ms t) call)
    (performed : s.perform call answer = some s') :
    ∃ m', (bufferProtocol capacity settled).moves (ms t) call answer m' ∧
      Guards capacity settled s' (Function.update ms t m') := by
  cases call with
  | waitFree =>
    obtain ⟨available, ⟨⟩⟩ := Option.ite_none_right_eq_some.mp performed
    exact ⟨_, rfl, guards.exchange rfl rfl rfl (by dsimp only; omega) rfl⟩
  | tryWaitFree =>
    cases answer with
    | false =>
      cases performed
      exact ⟨_, rfl, guards.exchange rfl rfl rfl rfl rfl⟩
    | true =>
      obtain ⟨available, ⟨⟩⟩ := Option.ite_none_right_eq_some.mp performed
      exact ⟨_, rfl, guards.exchange rfl rfl rfl (by simp only [if_true]; omega) rfl⟩
  | postFree =>
    cases performed
    exact ⟨_, rfl, guards.exchange rfl rfl rfl (by simp only [bufferProtocol] at allowed ⊢; omega) rfl⟩
  | waitAdded =>
    obtain ⟨available, ⟨⟩⟩ := Option.ite_none_right_eq_some.mp performed
    exact ⟨_, rfl, guards.exchange rfl rfl rfl rfl (by dsimp only; omega)⟩
  | postAdded =>
    cases performed
    exact ⟨_, rfl, guards.exchange rfl rfl rfl rfl (by simp only [bufferProtocol] at allowed ⊢; omega)⟩
  | lock =>
    obtain ⟨unlocked, ⟨⟩⟩ := Option.ite_none_right_eq_some.mp performed
    obtain ⟨entry, kept⟩ := guards.enter allowed unlocked
    exact ⟨_, ⟨s.ring, entry, rfl⟩, kept⟩
  | tryLock =>
    cases answer with
    | false =>
      cases performed
      exact ⟨_, rfl, guards.exchange rfl rfl rfl rfl rfl⟩
    | true =>
      obtain ⟨unlocked, ⟨⟩⟩ := Option.ite_none_right_eq_some.mp performed
      obtain ⟨entry, kept⟩ := guards.enter allowed unlocked
      exact ⟨_, ⟨s.ring, entry, rfl⟩, kept⟩
  | unlock =>
    cases performed
    obtain ⟨r, known, indices, kept⟩ := allowed
    obtain rfl := guards.inside t r known
    exact ⟨_, rfl, guards.leave known indices kept⟩
  | loadReadIndex | loadWriteIndex | loadSize =>
    obtain ⟨loaded, ⟨⟩⟩ := Option.ite_none_right_eq_some.mp performed
    exact ⟨_, ⟨_, guards.view allowed, loaded, rfl⟩, guards.exchange rfl rfl rfl rfl rfl⟩
  | storeReadIndex index | storeWriteIndex index | storeSize index =>
    cases performed
    have known := guards.view allowed
    exact ⟨_, ⟨_, known, rfl⟩, guards.adjust known rfl rfl rfl⟩
  | loadCell i =>
    obtain ⟨loaded, ⟨⟩⟩ := Option.ite_none_right_eq_some.mp performed
    obtain ⟨elems, r, known, rfl⟩ := allowed
    obtain rfl := guards.inside t r known
    exact ⟨_, ⟨_, known, loaded, rfl⟩, guards.take known elems⟩
  | storeCell i value =>
    cases performed
    obtain ⟨slots, r, known, rfl⟩ := allowed
    obtain rfl := guards.inside t r known
    exact ⟨_, ⟨_, known, rfl⟩, guards.put known slots value⟩
  | abort assertion => exact answer.elim

end

end ArchCompSystems.Library
