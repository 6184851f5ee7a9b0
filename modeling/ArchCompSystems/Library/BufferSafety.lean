import ArchCompSystems.Library.BufferGuards

namespace ArchCompSystems.Library

def BufferState.empty {α : Type} (capacity : Nat) (value : α) : BufferState α :=
  ⟨⟨fun _ => value, 0, 0, 0, [], []⟩, capacity, 0, 1⟩

def bufferPool {τ α : Type} (capacity : Nat) (value : α) (programs : τ → BufferProgram α Unit) :
    Pool τ (BufferCall α) BufferCall.Answer (BufferState α) :=
  ⟨programs, .empty capacity value, fun _ => []⟩

abbrev BufferReach {τ α : Type} [DecidableEq τ] [DecidableEq α] (capacity : Nat) (value : α)
    (programs : τ → BufferProgram α Unit) :
    Pool τ (BufferCall α) BufferCall.Answer (BufferState α) → Prop :=
  Pool.Reach (bufferMachine τ α) (fun _ _ => True) (bufferPool capacity value programs)

def takesToken {α : Type} : BufferEvent α → Bool
  | ⟨.waitFree, _⟩ | ⟨.waitAdded, _⟩ => true
  | ⟨.tryWaitFree, taken⟩ => taken
  | _ => false

def givesToken {α : Type} : BufferEvent α → Bool
  | ⟨.postFree, _⟩ | ⟨.postAdded, _⟩ => true
  | _ => false

def tokensHeld {α : Type} (history : List (BufferEvent α)) : Nat :=
  history.countP takesToken - history.countP givesToken

def takesSlot {α : Type} : BufferEvent α → Bool
  | ⟨.waitFree, _⟩ | ⟨.loadCell _, _⟩ => true
  | ⟨.tryWaitFree, taken⟩ => taken
  | _ => false

def givesSlot {α : Type} : BufferEvent α → Bool
  | ⟨.postFree, _⟩ | ⟨.storeCell _ _, _⟩ => true
  | _ => false

def takesElem {α : Type} : BufferEvent α → Bool
  | ⟨.waitAdded, _⟩ | ⟨.storeCell _ _, _⟩ => true
  | _ => false

def givesElem {α : Type} : BufferEvent α → Bool
  | ⟨.postAdded, _⟩ | ⟨.loadCell _, _⟩ => true
  | _ => false

def takesGuard {α : Type} : BufferEvent α → Bool
  | ⟨.lock, _⟩ => true
  | ⟨.tryLock, taken⟩ => taken
  | _ => false

def givesGuard {α : Type} : BufferEvent α → Bool
  | ⟨.unlock, _⟩ => true
  | _ => false

def slotsHeld {α : Type} (history : List (BufferEvent α)) : Nat :=
  history.countP takesSlot - history.countP givesSlot

def elemsHeld {α : Type} (history : List (BufferEvent α)) : Nat :=
  history.countP takesElem - history.countP givesElem

def guardHeld {α : Type} (history : List (BufferEvent α)) : Nat :=
  history.countP takesGuard - history.countP givesGuard

section

variable {τ α β : Type} [DecidableEq τ] [Fintype τ] [DecidableEq α] {capacity : Nat} {value : α}
  {settled : SharedRing α → Prop} {programs : τ → BufferProgram α Unit}
  {pool : Pool τ (BufferCall α) BufferCall.Answer (BufferState α)}

def BufferProgram.Keeps (capacity : Nat) (settled : SharedRing α → Prop)
    (p : BufferProgram α β) : Prop :=
  (bufferProtocol capacity settled).Follows (fun _ m => m = .outside) p .outside

omit [DecidableEq τ] [DecidableEq α] in
theorem held_outside {tokens : Holding α → Nat} (none : tokens .outside = 0) :
    held tokens (fun _ : τ => .outside) = 0 := held_eq_zero fun _ => none

omit [DecidableEq τ] [DecidableEq α] in
theorem guards_empty (initially : settled (BufferState.empty capacity value).ring) :
    Guards capacity settled (BufferState.empty capacity value) (fun _ : τ => .outside) where
  guard := by rw [held_outside rfl]; rfl
  free := by rw [held_outside rfl]; simp [BufferState.empty, SharedRing.count]
  added := by rw [held_outside rfl]; simp [BufferState.empty, SharedRing.count]
  queued := ⟨Nat.zero_le _, List.nil_prefix, fun k value _ known => by
    simp [BufferState.empty] at known⟩
  inside := fun _ _ known => by cases known
  outside := fun _ => ⟨⟨rfl, rfl⟩, initially⟩

theorem buffer_governed (initially : settled (BufferState.empty capacity value).ring)
    (keeps : ∀ t, (programs t).Keeps capacity settled) (reach : BufferReach capacity value programs pool) :
    ∃ ms, pool.Governed (fun _ => bufferProtocol capacity settled) (fun _ => .outside)
      (fun _ m => m = .outside) (Guards capacity settled) ms := by
  have start : (bufferPool capacity value programs).Governed (fun _ => bufferProtocol capacity settled)
      (fun _ => .outside) (fun _ m => m = .outside) (Guards capacity settled) (fun _ => .outside) :=
    ⟨fun _ => .nil, keeps, guards_empty initially⟩
  exact reach.governed (fun _ _ _ _ _ _ guards allowed performed => guards.perform allowed performed)
    (fun _ _ _ => rfl) start

omit [DecidableEq α] in
/-- What a move takes and what it gives balance: of free cells, of added values and of the guard. -/
theorem moved_balance {m m' : Holding α} {c : BufferCall α} {answer : c.Answer}
    (allowed : (bufferProtocol capacity settled).allowed m c)
    (moved : (bufferProtocol capacity settled).moves m c answer m') :
    m'.slots + (givesSlot ⟨c, answer⟩).toNat = m.slots + (takesSlot ⟨c, answer⟩).toNat ∧
      m'.elems + (givesElem ⟨c, answer⟩).toNat = m.elems + (takesElem ⟨c, answer⟩).toNat ∧
        m'.entered + (givesGuard ⟨c, answer⟩).toNat = m.entered + (takesGuard ⟨c, answer⟩).toNat := by
  cases c with
  | tryWaitFree => cases answer <;> cases moved <;> exact ⟨rfl, rfl, rfl⟩
  | waitFree | waitAdded =>
    cases moved
    exact ⟨rfl, rfl, rfl⟩
  | postFree =>
    cases moved
    exact ⟨Nat.sub_add_cancel allowed, rfl, rfl⟩
  | postAdded =>
    cases moved
    exact ⟨rfl, Nat.sub_add_cancel allowed, rfl⟩
  | lock =>
    obtain ⟨r, -, rfl⟩ := moved
    have outside : m.inside = none := allowed
    exact ⟨rfl, rfl, by simp [Holding.entered, takesGuard, givesGuard, outside]⟩
  | tryLock =>
    have outside : m.inside = none := allowed
    cases answer with
    | false =>
      cases moved
      exact ⟨rfl, rfl, rfl⟩
    | true =>
      obtain ⟨r, -, rfl⟩ := moved
      exact ⟨rfl, rfl, by simp [Holding.entered, takesGuard, givesGuard, outside]⟩
  | unlock =>
    cases moved
    obtain ⟨r, known, -⟩ := allowed
    exact ⟨rfl, rfl, by simp [Holding.entered, takesGuard, givesGuard, known]⟩
  | loadReadIndex | loadWriteIndex | loadSize =>
    obtain ⟨r, -, -, rfl⟩ := moved
    exact ⟨rfl, rfl, rfl⟩
  | storeReadIndex | storeWriteIndex | storeSize =>
    obtain ⟨r, known, rfl⟩ := moved
    exact ⟨rfl, rfl, by simp [Holding.entered, takesGuard, givesGuard, known]⟩
  | loadCell i =>
    obtain ⟨r, known, -, rfl⟩ := moved
    exact ⟨rfl, Nat.sub_add_cancel allowed.1, by simp [Holding.entered, takesGuard, givesGuard, known]⟩
  | storeCell i value =>
    obtain ⟨r, known, rfl⟩ := moved
    exact ⟨Nat.sub_add_cancel allowed.1, rfl, by simp [Holding.entered, takesGuard, givesGuard, known]⟩
  | abort assertion => exact answer.elim

section

variable {history : List (BufferEvent α)} {m : Holding α}

omit [DecidableEq α]

theorem slotsHeld_of_trace (trace : (bufferProtocol capacity settled).Trace .outside history m) :
    slotsHeld history = m.slots := by
  have balance := trace.balance Holding.slots takesSlot givesSlot fun _ _ _ _ allowed moved =>
    (moved_balance allowed moved).1
  simp only [Holding.outside] at balance
  unfold slotsHeld
  omega

theorem elemsHeld_of_trace (trace : (bufferProtocol capacity settled).Trace .outside history m) :
    elemsHeld history = m.elems := by
  have balance := trace.balance Holding.elems takesElem givesElem fun _ _ _ _ allowed moved =>
    (moved_balance allowed moved).2.1
  simp only [Holding.outside] at balance
  unfold elemsHeld
  omega

theorem guardHeld_of_trace (trace : (bufferProtocol capacity settled).Trace .outside history m) :
    guardHeld history = m.entered := by
  have balance := trace.balance Holding.entered takesGuard givesGuard fun _ _ _ _ allowed moved =>
    (moved_balance allowed moved).2.2
  simp only [Holding.outside, Holding.entered_none] at balance
  unfold guardHeld
  omega

theorem tokens_of_trace (trace : (bufferProtocol capacity settled).Trace .outside history m) :
    history.countP takesToken = history.countP givesToken + (m.slots + m.elems) := by
  have balance := trace.balance (fun m => m.slots + m.elems) takesToken givesToken
    fun m c answer m' allowed moved => by
      obtain ⟨slots, elems, -⟩ := moved_balance allowed moved
      -- a cell turns the one kind of token into the other
      have both : (takesSlot ⟨c, answer⟩).toNat + (takesElem ⟨c, answer⟩).toNat + (givesToken ⟨c, answer⟩).toNat =
          (takesToken ⟨c, answer⟩).toNat + (givesSlot ⟨c, answer⟩).toNat + (givesElem ⟨c, answer⟩).toNat := by
        cases c <;> rfl
      omega
  simp only [Holding.outside] at balance
  omega

end

omit [DecidableEq α] in
theorem holding_le_one {history : List (BufferEvent α)} {m : Holding α}
    (trace : (bufferProtocol capacity settled).Trace .outside history m) : m.slots + m.elems ≤ 1 := by
  induction trace with
  | nil => exact Nat.zero_le _
  | @snoc history middle m' c answer before allowed moved ih =>
    cases c with
    | tryWaitFree =>
      obtain rfl : middle = .outside := allowed
      cases answer <;> cases moved <;> simp [Holding.outside]
    | waitFree | waitAdded =>
      obtain rfl : middle = .outside := allowed
      cases moved
      exact Nat.le_refl _
    | postFree | postAdded =>
      cases moved
      dsimp only
      omega
    | lock =>
      obtain ⟨r, -, rfl⟩ := moved
      exact ih
    | tryLock =>
      cases answer with
      | false => cases moved; exact ih
      | true =>
        obtain ⟨r, -, rfl⟩ := moved
        exact ih
    | unlock => cases moved; exact ih
    | loadReadIndex | loadWriteIndex | loadSize =>
      obtain ⟨r, -, -, rfl⟩ := moved
      exact ih
    | storeReadIndex | storeWriteIndex | storeSize =>
      obtain ⟨r, -, rfl⟩ := moved
      exact ih
    | loadCell i =>
      obtain ⟨r, -, -, rfl⟩ := moved
      obtain ⟨elems, -⟩ := allowed
      dsimp only
      omega
    | storeCell i value =>
      obtain ⟨r, -, rfl⟩ := moved
      obtain ⟨slots, -⟩ := allowed
      dsimp only
      omega
    | abort assertion => exact answer.elim

def BufferProgram.Idle : BufferProgram α Unit → Prop
  | .done _ | .call .waitFree _ | .call .tryWaitFree _ | .call .waitAdded _ => True
  | .call _ _ => False

/-- What holds of threads that share a buffer and keep its discipline. -/
structure BufferSafe (capacity : Nat) (settled : SharedRing α → Prop)
    (pool : Pool τ (BufferCall α) BufferCall.Answer (BufferState α)) : Prop where
  /-- No assertion fails. -/
  asserted : ∀ t assertion next, pool.programs t ≠ .call (.abort assertion) next
  /-- Nobody is inside while the guard is free, so the indices are settled. -/
  settled : pool.state.guard = 1 → pool.state.ring.Settled capacity ∧ settled pool.state.ring
  /-- What was taken are the first stored values, and the others are still in their cells. -/
  queued : pool.state.ring.Queued capacity
  /-- A cell that is about to be stored holds no value that is still to be taken. -/
  kept : ∀ t i value next, pool.programs t = .call (.storeCell i value) next →
    ∀ k, pool.state.ring.taken.length ≤ k → k < pool.state.ring.stored.length → k % capacity ≠ i
  /-- The tokens of both semaphores and those that the threads hold are as many as the cells. -/
  tokens : pool.state.added + pool.state.free + ∑ t, tokensHeld (pool.history t) = capacity
  /-- A thread holds one token at most, and none when it is idle. -/
  holding : ∀ t, tokensHeld (pool.history t) ≤ 1
  idle : ∀ t, BufferProgram.Idle (pool.programs t) → tokensHeld (pool.history t) = 0

theorem buffer_safe (initially : settled (BufferState.empty capacity value).ring)
    (keeps : ∀ t, (programs t).Keeps capacity settled) (reach : BufferReach capacity value programs pool) :
    BufferSafe capacity settled pool := by
  obtain ⟨ms, governed⟩ := buffer_governed initially keeps reach
  have guards := governed.agrees
  have tokens : ∀ t, tokensHeld (pool.history t) = (ms t).slots + (ms t).elems := fun t => by
    rw [tokensHeld, tokens_of_trace (governed.trace t), Nat.add_sub_cancel_left]
  refine ⟨?_, ?_, guards.queued, ?_, ?_, ?_, ?_⟩
  · intro t assertion next current
    have follows := governed.follows t
    rw [current] at follows
    exact follows.1
  · intro free
    refine guards.outside ?_
    have := guards.guard
    omega
  · intro t i stored next current
    have follows := governed.follows t
    rw [current] at follows
    obtain ⟨slots, r, known, rfl⟩ := follows.1
    obtain rfl := guards.inside t r known
    intro k lower upper
    refine guards.queued.free_cell ?_ lower upper
    have := le_held Holding.slots ms t
    have := guards.free
    omega
  · have sum : ∑ t, tokensHeld (pool.history t) = held Holding.slots ms + held Holding.elems ms := by
      simp only [tokens, held, Finset.sum_add_distrib]
    have := guards.free
    have := guards.added
    omega
  · intro t
    rw [tokens]
    exact holding_le_one (governed.trace t)
  · intro t idle
    have outside : ms t = .outside := by
      have follows := governed.follows t
      cases program : pool.programs t with
      | done value =>
        rw [program] at follows
        exact follows
      | call c next =>
        rw [program] at idle follows
        cases c <;> first | exact follows.1 | exact idle.elim
    rw [tokens, outside]
    rfl

end

end ArchCompSystems.Library
