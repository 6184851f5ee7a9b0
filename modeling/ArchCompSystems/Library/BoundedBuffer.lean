import ArchCompSystems.Library.BufferSafety

namespace ArchCompSystems.Library

section

variable {α β : Type} {capacity : Nat} {settled : SharedRing α → Prop}
  {slots elems : Nat} {r : SharedRing α} {inside : Option (SharedRing α)}
  {post : β → Holding α → Prop}

theorem follows_waitFree {f : Unit → BufferProgram α β}
    (rest : (bufferProtocol capacity settled).Follows post (f ()) ⟨1, 0, none⟩) :
    (bufferProtocol capacity settled).Follows post (BufferCall.waitFree.make >>= f) .outside :=
  Protocol.follows_call rfl fun _ _ moved => by cases moved; exact rest

theorem follows_tryWaitFree {f : Bool → BufferProgram α β}
    (failed : (bufferProtocol capacity settled).Follows post (f false) .outside)
    (taken : (bufferProtocol capacity settled).Follows post (f true) ⟨1, 0, none⟩) :
    (bufferProtocol capacity settled).Follows post (BufferCall.tryWaitFree.make >>= f) .outside :=
  Protocol.follows_call rfl fun answer _ moved => by
    cases answer <;> cases moved
    · exact failed
    · exact taken

theorem follows_waitAdded {f : Unit → BufferProgram α β}
    (rest : (bufferProtocol capacity settled).Follows post (f ()) ⟨0, 1, none⟩) :
    (bufferProtocol capacity settled).Follows post (BufferCall.waitAdded.make >>= f) .outside :=
  Protocol.follows_call rfl fun _ _ moved => by cases moved; exact rest

theorem follows_postFree {f : Unit → BufferProgram α β}
    (rest : (bufferProtocol capacity settled).Follows post (f ()) ⟨slots, elems, inside⟩) :
    (bufferProtocol capacity settled).Follows post (BufferCall.postFree.make >>= f)
      ⟨slots + 1, elems, inside⟩ :=
  Protocol.follows_call (Nat.succ_pos _) fun _ _ moved => by cases moved; exact rest

theorem follows_postAdded {f : Unit → BufferProgram α β}
    (rest : (bufferProtocol capacity settled).Follows post (f ()) ⟨slots, elems, inside⟩) :
    (bufferProtocol capacity settled).Follows post (BufferCall.postAdded.make >>= f)
      ⟨slots, elems + 1, inside⟩ :=
  Protocol.follows_call (Nat.succ_pos _) fun _ _ moved => by cases moved; exact rest

theorem follows_lock {f : Unit → BufferProgram α β}
    (rest : ∀ r, Entry capacity settled slots elems r →
      (bufferProtocol capacity settled).Follows post (f ()) ⟨slots, elems, some r⟩) :
    (bufferProtocol capacity settled).Follows post (BufferCall.lock.make >>= f) ⟨slots, elems, none⟩ :=
  Protocol.follows_call rfl fun _ _ moved => by
    obtain ⟨r, entry, rfl⟩ := moved
    exact rest r entry

theorem follows_tryLock {f : Bool → BufferProgram α β}
    (failed : (bufferProtocol capacity settled).Follows post (f false) ⟨slots, elems, none⟩)
    (taken : ∀ r, Entry capacity settled slots elems r →
      (bufferProtocol capacity settled).Follows post (f true) ⟨slots, elems, some r⟩) :
    (bufferProtocol capacity settled).Follows post (BufferCall.tryLock.make >>= f) ⟨slots, elems, none⟩ :=
  Protocol.follows_call rfl fun answer _ moved => by
    cases answer with
    | false => cases moved; exact failed
    | true =>
      obtain ⟨r, entry, rfl⟩ := moved
      exact taken r entry

theorem follows_unlock {f : Unit → BufferProgram α β} (indices : r.Settled capacity) (kept : settled r)
    (rest : (bufferProtocol capacity settled).Follows post (f ()) ⟨slots, elems, none⟩) :
    (bufferProtocol capacity settled).Follows post (BufferCall.unlock.make >>= f)
      ⟨slots, elems, some r⟩ :=
  Protocol.follows_call ⟨r, rfl, indices, kept⟩ fun _ _ moved => by cases moved; exact rest

theorem follows_loadReadIndex {f : Nat → BufferProgram α β}
    (rest : (bufferProtocol capacity settled).Follows post (f r.readIndex) ⟨slots, elems, some r⟩) :
    (bufferProtocol capacity settled).Follows post (BufferCall.loadReadIndex.make >>= f)
      ⟨slots, elems, some r⟩ :=
  Protocol.follows_call rfl fun _ _ moved => by
    obtain ⟨_, ⟨⟩, rfl, rfl⟩ := moved
    exact rest

theorem follows_storeReadIndex {index : Nat} {f : Unit → BufferProgram α β}
    (rest : (bufferProtocol capacity settled).Follows post (f ())
      ⟨slots, elems, some { r with readIndex := index }⟩) :
    (bufferProtocol capacity settled).Follows post ((BufferCall.storeReadIndex index).make >>= f)
      ⟨slots, elems, some r⟩ :=
  Protocol.follows_call rfl fun _ _ moved => by
    obtain ⟨_, ⟨⟩, rfl⟩ := moved
    exact rest

theorem follows_loadWriteIndex {f : Nat → BufferProgram α β}
    (rest : (bufferProtocol capacity settled).Follows post (f r.writeIndex) ⟨slots, elems, some r⟩) :
    (bufferProtocol capacity settled).Follows post (BufferCall.loadWriteIndex.make >>= f)
      ⟨slots, elems, some r⟩ :=
  Protocol.follows_call rfl fun _ _ moved => by
    obtain ⟨_, ⟨⟩, rfl, rfl⟩ := moved
    exact rest

theorem follows_storeWriteIndex {index : Nat} {f : Unit → BufferProgram α β}
    (rest : (bufferProtocol capacity settled).Follows post (f ())
      ⟨slots, elems, some { r with writeIndex := index }⟩) :
    (bufferProtocol capacity settled).Follows post ((BufferCall.storeWriteIndex index).make >>= f)
      ⟨slots, elems, some r⟩ :=
  Protocol.follows_call rfl fun _ _ moved => by
    obtain ⟨_, ⟨⟩, rfl⟩ := moved
    exact rest

theorem follows_loadSize {f : Nat → BufferProgram α β}
    (rest : (bufferProtocol capacity settled).Follows post (f r.size) ⟨slots, elems, some r⟩) :
    (bufferProtocol capacity settled).Follows post (BufferCall.loadSize.make >>= f)
      ⟨slots, elems, some r⟩ :=
  Protocol.follows_call rfl fun _ _ moved => by
    obtain ⟨_, ⟨⟩, rfl, rfl⟩ := moved
    exact rest

theorem follows_storeSize {size : Nat} {f : Unit → BufferProgram α β}
    (rest : (bufferProtocol capacity settled).Follows post (f ())
      ⟨slots, elems, some { r with size := size }⟩) :
    (bufferProtocol capacity settled).Follows post ((BufferCall.storeSize size).make >>= f)
      ⟨slots, elems, some r⟩ :=
  Protocol.follows_call rfl fun _ _ moved => by
    obtain ⟨_, ⟨⟩, rfl⟩ := moved
    exact rest

theorem follows_loadCell {i : Nat} {f : α → BufferProgram α β} (oldest : i = r.taken.length % capacity)
    (rest : (bufferProtocol capacity settled).Follows post (f (r.cells i))
      ⟨slots + 1, elems, some (r.loadCell i)⟩) :
    (bufferProtocol capacity settled).Follows post ((BufferCall.loadCell i).make >>= f)
      ⟨slots, elems + 1, some r⟩ :=
  Protocol.follows_call ⟨Nat.succ_pos _, r, rfl, oldest⟩ fun _ _ moved => by
    obtain ⟨_, ⟨⟩, rfl, rfl⟩ := moved
    exact rest

theorem follows_storeCell {i : Nat} {stored : α} {f : Unit → BufferProgram α β}
    (next : i = r.stored.length % capacity)
    (rest : (bufferProtocol capacity settled).Follows post (f ())
      ⟨slots, elems + 1, some (r.storeCell i stored)⟩) :
    (bufferProtocol capacity settled).Follows post ((BufferCall.storeCell i stored).make >>= f)
      ⟨slots + 1, elems, some r⟩ :=
  Protocol.follows_call ⟨Nat.succ_pos _, r, rfl, next⟩ fun _ _ moved => by
    obtain ⟨_, ⟨⟩, rfl⟩ := moved
    exact rest

end

/-- `events` are those of both lists, each in its order. -/
inductive Interleaved {ε : Type} : List ε → List ε → List ε → Prop where
  | nil : Interleaved [] [] []
  | left {first second events : List ε} (event : ε) (rest : Interleaved first second events) :
      Interleaved (event :: first) second (event :: events)
  | right {first second events : List ε} (event : ε) (rest : Interleaved first second events) :
      Interleaved first (event :: second) (event :: events)

theorem Interleaved.eq_of_nil {ε : Type} {others events : List ε} (interleaved : Interleaved [] others events) :
    events = others := by
  induction others generalizing events with
  | nil =>
    cases interleaved
    rfl
  | cons event rest ih =>
    cases interleaved with
    | right _ later => rw [ih later]

/-- The values that a history stores into cells. -/
def storesIn {α : Type} (history : List (BufferEvent α)) : List α :=
  history.filterMap fun
    | ⟨.storeCell _ value, _⟩ => some value
    | _ => none

/-- The values that a history loads from cells. -/
def loadsIn {α : Type} (history : List (BufferEvent α)) : List α :=
  history.filterMap fun
    | ⟨.loadCell _, value⟩ => some value
    | _ => none

section

variable {α : Type} [DecidableEq α]

namespace BufferState

/-- The state after these events, if they can come in this order. -/
def performAll : List (BufferEvent α) → BufferState α → Option (BufferState α)
  | [], s => some s
  | event :: rest, s => (s.perform event.1 event.2).bind (performAll rest)

theorem perform_freeSucc {call : BufferCall α} {answer : call.Answer} {s s' : BufferState α}
    (performed : s.perform call answer = some s') :
    ({ s with free := s.free + 1 } : BufferState α).perform call answer =
      some { s' with free := s'.free + 1 } := by
  cases call with
  | waitFree =>
    obtain ⟨available, ⟨⟩⟩ := Option.ite_none_right_eq_some.mp performed
    have given : s.free + 1 - 1 = s.free - 1 + 1 := by omega
    simp only [perform, Nat.succ_pos, if_true, given]
  | tryWaitFree =>
    cases answer with
    | false => cases performed; rfl
    | true =>
      obtain ⟨available, ⟨⟩⟩ := Option.ite_none_right_eq_some.mp performed
      have given : s.free + 1 - 1 = s.free - 1 + 1 := by omega
      simp only [perform, Nat.succ_pos, if_true, given]
  | waitAdded | lock | loadReadIndex | loadWriteIndex | loadSize | loadCell =>
    obtain ⟨holds, ⟨⟩⟩ := Option.ite_none_right_eq_some.mp performed
    exact if_pos holds
  | tryLock =>
    cases answer with
    | false => cases performed; rfl
    | true =>
      obtain ⟨holds, ⟨⟩⟩ := Option.ite_none_right_eq_some.mp performed
      exact if_pos holds
  | postFree | postAdded | unlock | storeReadIndex | storeWriteIndex | storeSize | storeCell =>
    cases performed
    rfl
  | abort assertion => exact answer.elim

theorem performAll_without_post {others events : List (BufferEvent α)} {s s' : BufferState α}
    (interleaved : Interleaved [⟨.postFree, ()⟩] others events)
    (performed : s.performAll events = some s') :
    ({ s with free := s.free + 1 } : BufferState α).performAll others = some s' := by
  induction others generalizing s events with
  | nil =>
    cases interleaved with
    | left _ rest =>
      cases rest.eq_of_nil
      exact performed
  | cons event rest ih =>
    cases interleaved with
    | left _ later =>
      cases later.eq_of_nil
      exact performed
    | right _ later =>
      obtain ⟨middle, first, after⟩ := Option.bind_eq_some_iff.mp performed
      exact Option.bind_eq_some_iff.mpr ⟨_, perform_freeSucc first, ih later after⟩

theorem performAll_without_tryLock {others events : List (BufferEvent α)} {s s' : BufferState α}
    (interleaved : Interleaved [⟨.tryLock, false⟩, ⟨.postFree, ()⟩] others events)
    (performed : s.performAll events = some s') :
    ({ s with free := s.free + 1 } : BufferState α).performAll others = some s' := by
  induction others generalizing s events with
  | nil =>
    cases interleaved with
    | left _ rest => exact performAll_without_post rest performed
  | cons event rest ih =>
    cases interleaved with
    | left _ later => exact performAll_without_post later performed
    | right _ later =>
      obtain ⟨middle, first, after⟩ := Option.bind_eq_some_iff.mp performed
      exact Option.bind_eq_some_iff.mpr ⟨_, perform_freeSucc first, ih later after⟩

theorem performAll_without_reservation {others events : List (BufferEvent α)} {s s' : BufferState α}
    (interleaved : Interleaved [⟨.tryWaitFree, true⟩, ⟨.tryLock, false⟩, ⟨.postFree, ()⟩] others events)
    (performed : s.performAll events = some s') : s.performAll others = some s' := by
  have reserved : ∀ later rest, Interleaved [⟨.tryLock, false⟩, ⟨.postFree, ()⟩] later rest →
      ∀ s : BufferState α, s.performAll (⟨.tryWaitFree, true⟩ :: rest) = some s' →
        s.performAll later = some s' := by
    intro later rest between s done
    obtain ⟨middle, taken, after⟩ := Option.bind_eq_some_iff.mp done
    obtain ⟨available, ⟨⟩⟩ := Option.ite_none_right_eq_some.mp taken
    have same : ({ s with free := s.free - 1 + 1 } : BufferState α) = s := by
      rw [Nat.sub_add_cancel available]
    rw [← same]
    exact performAll_without_tryLock between after
  induction others generalizing s events with
  | nil =>
    cases interleaved with
    | left _ rest => exact reserved _ _ rest _ performed
  | cons event rest ih =>
    cases interleaved with
    | left _ later => exact reserved _ _ later _ performed
    | right _ later =>
      obtain ⟨middle, first, after⟩ := Option.bind_eq_some_iff.mp performed
      exact Option.bind_eq_some_iff.mpr ⟨_, first, ih later after⟩

theorem performAll_without_tryWait {others events : List (BufferEvent α)} {s s' : BufferState α}
    (interleaved : Interleaved [⟨.tryWaitFree, false⟩] others events)
    (performed : s.performAll events = some s') : s.performAll others = some s' := by
  induction others generalizing s events with
  | nil =>
    cases interleaved with
    | left _ rest =>
      cases rest.eq_of_nil
      exact performed
  | cons event rest ih =>
    cases interleaved with
    | left _ later =>
      cases later.eq_of_nil
      exact performed
    | right _ later =>
      obtain ⟨middle, first, after⟩ := Option.bind_eq_some_iff.mp performed
      exact Option.bind_eq_some_iff.mpr ⟨_, first, ih later after⟩

end BufferState

end

end ArchCompSystems.Library
