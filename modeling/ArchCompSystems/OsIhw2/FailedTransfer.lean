import ArchCompSystems.OsIhw2.PinBuffer

namespace ArchCompSystems.OsIhw2.FailedTransfer

open Library Library.Program

/-- The four `semop` calls of a transfer, in their order. -/
inductive Semop where
  | tokenWait
  | accessWait
  | tokenPost
  | accessPost
  deriving DecidableEq

/-- `semop(…) != -1`. A call that fails leaves the semaphore as it is. -/
def semop (failing : Option Semop) (position : Semop) (call : BufferCall Pin) : BufferProgram Pin Bool :=
  if failing = some position then return false
  else do
    let _ ← call.make
    return true

/-- `wait_for_pin` of which the `semop` call `failing` fails, if there is one: what it returns, and what
    it has stored through its pointer. -/
def waitForPin (failing : Option Semop) : BufferProgram Pin (Bool × Option Pin) := do
  if !(← semop failing .tokenWait .waitAdded) then return (false, none)
  if !(← semop failing .accessWait .lock) then return (false, none)
  let readIndex ← BufferCall.loadReadIndex.make
  let pin ← BufferCall.make (.loadCell readIndex)
  BufferCall.make (.storeReadIndex ((readIndex + 1) % shMemBufferSize))
  if !(← semop failing .tokenPost .postFree) then return (false, some pin)
  if !(← semop failing .accessPost .unlock) then return (false, some pin)
  return (true, some pin)

def sendPin (failing : Option Semop) (pin : Pin) : BufferProgram Pin Bool := do
  if !(← semop failing .tokenWait .waitFree) then return false
  if !(← semop failing .accessWait .lock) then return false
  let writeIndex ← BufferCall.loadWriteIndex.make
  BufferCall.make (.storeCell writeIndex pin)
  BufferCall.make (.storeWriteIndex ((writeIndex + 1) % shMemBufferSize))
  if !(← semop failing .tokenPost .postAdded) then return false
  if !(← semop failing .accessPost .unlock) then return false
  return true

structure Transfer where
  operation : BufferOperation
  failing : Option Semop

def Transfer.program (transfer : Transfer) : BufferProgram Pin Bool :=
  match transfer.operation with
  | .send pin => sendPin transfer.failing pin
  | .wait => do
    let (ok, _) ← waitForPin transfer.failing
    return ok

def transferWorker : List Transfer → BufferProgram Pin Unit
  | [] => pure ()
  | transfer :: rest => do
    if ← transfer.program then transferWorker rest

/-- `init_shared_data` and then any workers with any transfers, in any order of their calls. -/
abbrev TransferReach {τ : Type} [DecidableEq τ] (transfers : τ → List Transfer) :
    Pool τ (BufferCall Pin) BufferCall.Answer (BufferState Pin) → Prop :=
  BufferReach shMemBufferSize ⟨0⟩ fun t => transferWorker (transfers t)

section

variable {τ : Type} (transfers : τ → List Transfer)
  (pool : Pool τ (BufferCall Pin) BufferCall.Answer (BufferState Pin))

/-- A transfer of worker `t` has returned false because its `semop` call at this position failed. -/
def ReturnedFalse (t : τ) (position : Semop) : Prop :=
  pool.programs t = .done () ∧ (transfers t).findSome? Transfer.failing = some position

open Classical in
/-- The workers of which no transfer has returned false. -/
noncomputable def running [Fintype τ] : Finset τ :=
  Finset.univ.filter fun t => ¬ ∃ position, ReturnedFalse transfers pool t position

/-- Worker `t` does not hold `buffer_access_sem`, and apart from what these workers hold `added_pins`
    counts the pins that are stored and not yet read, and `free_pins` the other cells. -/
structure Unpoisoned (others : Finset τ) (t : τ) : Prop where
  released : guardHeld (pool.history t) = 0
  added : pool.state.added + ∑ u ∈ others, elemsHeld (pool.history u) = pool.state.ring.count
  free : pool.state.free + ∑ u ∈ others, slotsHeld (pool.history u) + pool.state.ring.count = shMemBufferSize

end

def Harmless (failing : Option Semop) : Prop := failing = none ∨ failing = some .tokenWait

section

variable {capacity : Nat} {settled : SharedRing Pin → Prop} {m : Holding Pin} {β : Type} {post : β → Holding Pin → Prop}

theorem follows_semop {failing : Option Semop} {position : Semop} {call : BufferCall Pin} {f : Bool → BufferProgram Pin β}
    (fails : failing = some position → (bufferProtocol capacity settled).Follows post (f false) m)
    (done : failing ≠ some position →
      (bufferProtocol capacity settled).Follows post (call.make >>= fun _ => f true) m) :
    (bufferProtocol capacity settled).Follows post (semop failing position call >>= f) m := by
  unfold semop
  split
  · next failed => exact fails failed
  · next other => exact done other

end

/-- What a transfer returns and holds at its end: it fails if one of its `semop` calls does, and then it
    holds nothing only if that was its first. -/
def Ended (failing : Option Semop) (ok : Bool) (m : Holding Pin) : Prop :=
  (ok = true ↔ failing = none) ∧ (m = .outside ↔ Harmless failing)

theorem Ended.first {failing : Option Semop} (failed : failing = some .tokenWait) : Ended failing false .outside := by
  subst failed
  exact ⟨by simp, by simp [Harmless]⟩

theorem Ended.later {failing : Option Semop} {position : Semop} {m : Holding Pin} (failed : failing = some position)
    (later : position ≠ .tokenWait) (holds : m ≠ .outside) : Ended failing false m := by
  subst failed
  exact ⟨by simp, by simp [Harmless, later, holds]⟩

theorem Ended.well {failing : Option Semop} (first : failing ≠ some .tokenWait) (second : failing ≠ some .accessWait)
    (third : failing ≠ some .tokenPost) (fourth : failing ≠ some .accessPost) : Ended failing true .outside := by
  have without : failing = none := by
    rcases failing with _ | ⟨_ | _ | _ | _⟩
    · rfl
    · exact absurd rfl first
    · exact absurd rfl second
    · exact absurd rfl third
    · exact absurd rfl fourth
  exact ⟨by simp [without], by simp [Harmless, without]⟩

theorem sendPin_follows (failing : Option Semop) (pin : Pin) :
    (bufferProtocol shMemBufferSize NothingElse).Follows (Ended failing) (sendPin failing pin) .outside := by
  refine follows_semop Ended.first fun first => follows_waitFree ?_
  refine follows_semop (fun failed => Ended.later failed nofun nofun) fun second => follows_lock fun r entry => ?_
  refine follows_loadWriteIndex (follows_storeCell entry.indices.writeIndex_eq ?_)
  refine follows_storeWriteIndex ?_
  refine follows_semop (fun failed => Ended.later failed nofun nofun) fun third => follows_postAdded ?_
  refine follows_semop (fun failed => Ended.later failed nofun nofun) fun fourth => ?_
  exact follows_unlock (entry.indices.put pin r.size) True.intro (Ended.well first second third fourth)

theorem waitForPin_follows (failing : Option Semop) :
    (bufferProtocol shMemBufferSize NothingElse).Follows (fun result => Ended failing result.1)
      (waitForPin failing) .outside := by
  refine follows_semop Ended.first fun first => follows_waitAdded ?_
  refine follows_semop (fun failed => Ended.later failed nofun nofun) fun second => follows_lock fun r entry => ?_
  refine follows_loadReadIndex (follows_loadCell entry.indices.readIndex_eq ?_)
  refine follows_storeReadIndex ?_
  refine follows_semop (fun failed => Ended.later failed nofun nofun) fun third => follows_postFree ?_
  refine follows_semop (fun failed => Ended.later failed nofun nofun) fun fourth => ?_
  exact follows_unlock (entry.indices.drop r.size) True.intro (Ended.well first second third fourth)

theorem Transfer.program_follows (transfer : Transfer) :
    (bufferProtocol shMemBufferSize NothingElse).Follows (Ended transfer.failing) transfer.program .outside := by
  obtain ⟨operation, failing⟩ := transfer
  cases operation with
  | send pin => exact sendPin_follows failing pin
  | wait => exact Protocol.follows_bind.mpr (waitForPin_follows failing)

theorem transferWorker_follows (transfers : List Transfer) :
    (bufferProtocol shMemBufferSize NothingElse).Follows
      (fun _ m => m = .outside ↔ Harmless (transfers.findSome? Transfer.failing)) (transferWorker transfers) .outside := by
  induction transfers with
  | nil => exact ⟨fun _ => .inl rfl, fun _ => rfl⟩
  | cons transfer rest ih =>
    refine Protocol.follows_bind.mpr (Protocol.follows_mono ?_ transfer.program_follows)
    rintro ok m ⟨returned, harmless⟩
    rw [List.findSome?_cons]
    cases failing : transfer.failing with
    | none =>
      obtain rfl : ok = true := returned.mpr failing
      obtain rfl : m = .outside := harmless.mpr (.inl failing)
      exact ih
    | some position =>
      obtain rfl : ok = false := by
        cases ok with
        | false => rfl
        | true => rw [returned.mp rfl] at failing; cases failing
      rw [failing] at harmless
      exact harmless

section

variable {τ : Type} [DecidableEq τ] [Fintype τ] {transfers : τ → List Transfer}
  {pool : Pool τ (BufferCall Pin) BufferCall.Answer (BufferState Pin)} {ms : τ → Holding Pin}

structure Accounted (transfers : τ → List Transfer)
    (pool : Pool τ (BufferCall Pin) BufferCall.Answer (BufferState Pin)) (ms : τ → Holding Pin) : Prop where
  slots : ∀ t, slotsHeld (pool.history t) = (ms t).slots
  elems : ∀ t, elemsHeld (pool.history t) = (ms t).elems
  guard : ∀ t, guardHeld (pool.history t) = (ms t).entered
  guards : Guards shMemBufferSize NothingElse pool.state ms
  ended : ∀ t position, ReturnedFalse transfers pool t position → (ms t = .outside ↔ position = .tokenWait)

theorem exists_accounted (reach : TransferReach transfers pool) : ∃ ms, Accounted transfers pool ms := by
  have start : (bufferPool shMemBufferSize ⟨0⟩ fun t => transferWorker (transfers t)).Governed
      (fun _ => bufferProtocol shMemBufferSize NothingElse) (fun _ => .outside)
      (fun t m => m = .outside ↔ Harmless ((transfers t).findSome? Transfer.failing))
      (Guards shMemBufferSize NothingElse) (fun _ => .outside) :=
    ⟨fun _ => .nil, fun t => transferWorker_follows (transfers t), guards_empty True.intro⟩
  obtain ⟨ms, governed⟩ := reach.governed
    (fun _ _ _ _ _ _ guards allowed performed => guards.perform allowed performed) (fun _ _ _ => rfl) start
  refine ⟨ms, fun t => slotsHeld_of_trace (governed.trace t), fun t => elemsHeld_of_trace (governed.trace t),
    fun t => guardHeld_of_trace (governed.trace t), governed.agrees, ?_⟩
  rintro t position ⟨ended, failed⟩
  have final := governed.follows t
  rw [ended, Protocol.follows_done, failed] at final
  rw [final]
  simp [Harmless]

omit [DecidableEq τ] [Fintype τ] in
theorem outside_iff {m : Holding Pin} : m = .outside ↔ m.slots = 0 ∧ m.elems = 0 ∧ m.entered = 0 := by
  obtain ⟨slots, elems, _ | r⟩ := m <;> simp [Holding.outside]

theorem Accounted.unpoisoned_iff (accounted : Accounted transfers pool ms) (others : Finset τ) (t : τ) :
    Unpoisoned pool others t ↔ (ms t).entered = 0 ∧ ∀ u, u ∉ others → (ms u).elems = 0 ∧ (ms u).slots = 0 := by
  have split : ∀ tokens : Holding Pin → Nat,
      ∑ u ∈ others, tokens (ms u) + ∑ u ∈ othersᶜ, tokens (ms u) = held tokens ms := fun tokens =>
    Finset.sum_add_sum_compl others fun u => tokens (ms u)
  have elems := split Holding.elems
  have slots := split Holding.slots
  have added := accounted.guards.added
  have free := accounted.guards.free
  have nothing : (∀ u, u ∉ others → (ms u).elems = 0 ∧ (ms u).slots = 0) ↔
      ∑ u ∈ othersᶜ, (ms u).elems = 0 ∧ ∑ u ∈ othersᶜ, (ms u).slots = 0 := by
    simp only [Finset.sum_eq_zero_iff, Finset.mem_compl, ← forall_and]
  rw [nothing]
  refine ⟨fun unpoisoned => ⟨?_, ?_, ?_⟩, fun ⟨entered, noElems, noSlots⟩ => ⟨?_, ?_, ?_⟩⟩
  · rw [← accounted.guard]
    exact unpoisoned.released
  · have counted := unpoisoned.added
    simp only [accounted.elems] at counted
    omega
  · have counted := unpoisoned.free
    simp only [accounted.slots] at counted
    omega
  · rw [accounted.guard]
    exact entered
  · simp only [accounted.elems]
    omega
  · simp only [accounted.slots]
    omega

end

/-- A transfer that returns false leaves the ring to the other workers exactly if the `semop` call that
    failed was its first; and the ring is unpoisoned in every state of a run exactly if every failure so
    far was of this kind. -/
theorem failed_transfer_unpoisoned_iff {τ : Type} [DecidableEq τ] [Fintype τ] (transfers : τ → List Transfer)
    (pool : Pool τ (BufferCall Pin) BufferCall.Answer (BufferState Pin)) (reach : TransferReach transfers pool) :
    (∀ t position, ReturnedFalse transfers pool t position →
      (Unpoisoned pool (Finset.univ.erase t) t ↔ position = .tokenWait)) ∧
    ((∀ t position, ReturnedFalse transfers pool t position → Unpoisoned pool (running transfers pool) t) ↔
      ∀ t position, ReturnedFalse transfers pool t position → position = .tokenWait) := by
  obtain ⟨ms, accounted⟩ := exists_accounted reach
  refine ⟨fun t position returned => ?_, fun unpoisoned t position returned => ?_,
    fun first t position returned => ?_⟩
  · rw [accounted.unpoisoned_iff, ← accounted.ended t position returned, outside_iff]
    simp only [Finset.mem_erase, Finset.mem_univ, and_true, not_not, forall_eq]
    tauto
  · have failed : t ∉ running transfers pool := by simp [running, Exists.intro position returned]
    obtain ⟨entered, nothing⟩ := (accounted.unpoisoned_iff _ _).mp (unpoisoned t position returned)
    obtain ⟨elems, slots⟩ := nothing t failed
    exact (accounted.ended t position returned).mp (outside_iff.mpr ⟨slots, elems, entered⟩)
  · have nothing : ∀ u position, ReturnedFalse transfers pool u position → ms u = .outside := fun u position failed =>
      (accounted.ended u position failed).mpr (first u position failed)
    refine (accounted.unpoisoned_iff _ _).mpr ⟨by rw [nothing t position returned]; rfl, fun u stopped => ?_⟩
    simp only [running, Finset.mem_filter, Finset.mem_univ, true_and, not_not] at stopped
    obtain ⟨position', failed⟩ := stopped
    rw [nothing u position' failed]
    exact ⟨rfl, rfl⟩

/-- The first `semop` of a receiver fails while a sender is in the section with its pin stored. -/
theorem refused_receiver_unpoisoned : ∃ pool : Pool (Fin 2) _ _ _,
    TransferReach ![[⟨.wait, some .tokenWait⟩], [⟨.send ⟨7⟩, none⟩]] pool ∧ pool.state.ring.stored = [⟨7⟩] ∧
      Unpoisoned pool (Finset.univ.erase 0) 0 := by
  have replayed : ((bufferPool shMemBufferSize ⟨0⟩ fun t : Fin 2 => transferWorker
      ((![[⟨.wait, some .tokenWait⟩], [⟨.send ⟨7⟩, none⟩]] : Fin 2 → List Transfer) t)).replay
        (bufferMachine (Fin 2) Pin) (fun _ _ => true) [.go 1 4 BufferState.answer]).any
          (fun pool => pool.state.ring.stored = [⟨7⟩] && pool.ended 0) = true := by
    decide
  obtain ⟨pool, reach, checked⟩ := Pool.exists_reach_of_replay (fun _ _ _ => True.intro) replayed
  obtain ⟨stored, ended⟩ := Bool.and_eq_true_iff.mp checked
  have returned : ReturnedFalse ![[⟨.wait, some .tokenWait⟩], [⟨.send ⟨7⟩, none⟩]] pool 0 .tokenWait :=
    ⟨Pool.programs_of_ended ended, rfl⟩
  exact ⟨pool, reach, of_decide_eq_true stored, ((failed_transfer_unpoisoned_iff _ pool reach).1 0 _ returned).mpr rfl⟩

/-- A receiver whose last `semop` fails returns false with `buffer_access_sem` in its hands. -/
theorem failed_receiver_keeps_guard : ∃ pool : Pool (Fin 2) _ _ _,
    TransferReach ![[⟨.wait, some .accessPost⟩], [⟨.send ⟨7⟩, none⟩]] pool ∧
      ReturnedFalse ![[⟨.wait, some .accessPost⟩], [⟨.send ⟨7⟩, none⟩]] pool 0 .accessPost ∧
      ∀ others, ¬ Unpoisoned pool others 0 := by
  have replayed : ((bufferPool shMemBufferSize ⟨0⟩ fun t : Fin 2 => transferWorker
      ((![[⟨.wait, some .accessPost⟩], [⟨.send ⟨7⟩, none⟩]] : Fin 2 → List Transfer) t)).replay
        (bufferMachine (Fin 2) Pin) (fun _ _ => true) [.go 1 7 BufferState.answer, .go 0 6 BufferState.answer]).any
          (fun pool => guardHeld (pool.history 0) = 1 && pool.ended 0) = true := by
    decide
  obtain ⟨pool, reach, checked⟩ := Pool.exists_reach_of_replay (fun _ _ _ => True.intro) replayed
  obtain ⟨held, ended⟩ := Bool.and_eq_true_iff.mp checked
  refine ⟨pool, reach, ⟨Pool.programs_of_ended ended, rfl⟩, fun others unpoisoned => ?_⟩
  have kept : guardHeld (pool.history 0) = 1 := of_decide_eq_true held
  rw [unpoisoned.released] at kept
  cases kept

end ArchCompSystems.OsIhw2.FailedTransfer
