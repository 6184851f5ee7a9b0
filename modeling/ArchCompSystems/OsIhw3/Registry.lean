import ArchCompSystems.Library.Slots
import ArchCompSystems.OsIhw3.Footprints

namespace ArchCompSystems.OsIhw3

open Library Library.Program Library.Machine

/-- Who is in which slot, the counter of each type, and the connections accepted so far. -/
structure Registry where
  fds : ClientType → Nat → Int
  arrSize : ClientType → Nat
  accepted : List Int

/-- What the operations of the server do to the registry. -/
inductive Change where
  /-- A connection is accepted and put into a free slot. -/
  | admitted (c : ClientType) (i : Nat) (fd : Int)
  /-- A connection is accepted and closed. -/
  | turnAway (fd : Int)
  /-- A connection is accepted, put into a free slot, and closed. -/
  | botch (c : ClientType) (i : Nat) (fd : Int)
  /-- A slot is cleared, its connection closed and the counter decremented. -/
  | drop (c : ClientType) (i : Nat) (fd : Int)
  /-- A slot is cleared and its connection closed, but the counter stays. -/
  | forget (c : ClientType) (i : Nat) (fd : Int)
  /-- The counter is set to zero. -/
  | reset (c : ClientType)

def Change.opened : Change → List Int
  | .admitted _ _ fd | .turnAway fd | .botch _ _ fd => [fd]
  | _ => []

def Change.closed : Change → List Int
  | .turnAway fd | .botch _ _ fd | .drop _ _ fd | .forget _ _ fd => [fd]
  | _ => []

namespace Registry

def setFd (r : Registry) (c : ClientType) (i : Nat) (fd : Int) : Registry :=
  { r with fds := Function.update r.fds c (Function.update (r.fds c) i fd) }

def setArrSize (r : Registry) (c : ClientType) (size : Nat) : Registry :=
  { r with arrSize := Function.update r.arrSize c size }

def accept (r : Registry) (fd : Int) : Registry := { r with accepted := fd :: r.accepted }

/-- `fd` is put into the free slot `i`, and the counter incremented. -/
structure Registers (r : Registry) (c : ClientType) (i : Nat) (fd : Int) (r' : Registry) : Prop where
  inside : i < maxNumberOf c
  free : r.fds c i = -1
  room : r.arrSize c < maxNumberOf c
  result : r' = (r.setArrSize c ((r.arrSize c + 1) % 2 ^ 64)).setFd c i fd

/-- `fd` is taken from slot `i`. -/
structure Clears (r : Registry) (c : ClientType) (i : Nat) (fd : Int) (r' : Registry) : Prop where
  inside : i < maxNumberOf c
  taken : r.fds c i = fd
  connected : fd ≠ -1
  result : r' = r.setFd c i (-1)

inductive Step : Registry → Change → Registry → Prop where
  | admitted {r r' : Registry} {c : ClientType} {i : Nat} {fd : Int} (valid : fd ≠ -1)
      (new : fd ∉ r.accepted) (registers : (r.accept fd).Registers c i fd r') :
      Step r (.admitted c i fd) r'
  | turnAway {r : Registry} {fd : Int} (valid : fd ≠ -1) (new : fd ∉ r.accepted) :
      Step r (.turnAway fd) (r.accept fd)
  | botch {r r' : Registry} {c : ClientType} {i : Nat} {fd : Int} (valid : fd ≠ -1)
      (new : fd ∉ r.accepted) (registers : (r.accept fd).Registers c i fd r') :
      Step r (.botch c i fd) r'
  | drop {r r' : Registry} {c : ClientType} {i : Nat} {fd : Int} (clears : r.Clears c i fd r') :
      Step r (.drop c i fd) (r'.setArrSize c ((r.arrSize c + 2 ^ 64 - 1) % 2 ^ 64))
  | forget {r r' : Registry} {c : ClientType} {i : Nat} {fd : Int} (clears : r.Clears c i fd r') :
      Step r (.forget c i fd) r'
  | reset {r : Registry} {c : ClientType} : Step r (.reset c) (r.setArrSize c 0)

inductive Steps : Registry → List Change → Registry → Prop where
  | nil (r : Registry) : Steps r [] r
  | cons {r middle last : Registry} {change : Change} {changes : List Change}
      (first : Step r change middle) (rest : Steps middle changes last) :
      Steps r (change :: changes) last

theorem Steps.append {r middle last : Registry} {changes later : List Change}
    (first : Steps r changes middle) (rest : Steps middle later last) :
    Steps r (changes ++ later) last := by
  induction first with
  | nil r => exact rest
  | cons step _ ih => exact .cons step (ih rest)

theorem Steps.invariant {allowed : Change → Prop} {holds : Registry → Prop} {r r' : Registry}
    {changes : List Change}
    (each : ∀ r change r', allowed change → holds r → Step r change r' → holds r')
    (steps : Steps r changes r') (ok : ∀ change ∈ changes, allowed change) (initially : holds r) :
    holds r' := by
  induction steps with
  | nil r => exact initially
  | cons first _ ih =>
    exact ih (fun change member => ok change (List.mem_cons_of_mem _ member))
      (each _ _ _ (ok _ (List.mem_cons_self ..)) initially first)

end Registry

def ServerState.registry (s : ServerState) : Registry :=
  ⟨fun c => (s.groups c).fds, fun c => (s.groups c).arrSize, s.accepted⟩

theorem SameSlots.registry {s s' : ServerState} (same : SameSlots s s') : s'.registry = s.registry := by
  simp only [ServerState.registry, same.fds, same.arrSize, same.accepted]

theorem registry_setFd (s : ServerState) (c : ClientType) (i : Nat) (fd : Int) :
    (s.setFd c i fd).registry = s.registry.setFd c i fd := by
  simp only [ServerState.registry, Registry.setFd, Registry.mk.injEq]
  refine ⟨?_, funext fun d => ServerState.setFd_arrSize s c d i fd, rfl⟩
  funext d
  by_cases same : d = c
  · subst same
    rw [ServerState.setFd_fds_self, Function.update_self]
  · rw [ServerState.setFd_fds_of_ne same, Function.update_of_ne same]

theorem registry_setArrSize (s : ServerState) (c : ClientType) (size : Nat) :
    (s.setArrSize c size).registry = s.registry.setArrSize c size := by
  simp only [ServerState.registry, Registry.setArrSize, Registry.mk.injEq]
  refine ⟨funext fun d => ServerState.setArrSize_fds s c d size, ?_, rfl⟩
  funext d
  by_cases same : d = c
  · subst same
    simp [ServerState.setArrSize]
  · simp [ServerState.setArrSize, Function.update_of_ne same]

def closedIn (history : List ServerEvent) : List Int :=
  history.filterMap fun event => match event.1 with
    | .close fd => some fd
    | _ => none

/-- The connections that a history accepts. -/
def acceptedIn (history : List ServerEvent) : List Int :=
  history.filterMap fun event => match event with
    | ⟨.accept, .connected fd _ _⟩ => some fd
    | _ => none

@[simp] theorem closedIn_append (history later : List ServerEvent) :
    closedIn (history ++ later) = closedIn history ++ closedIn later := List.filterMap_append ..

@[simp] theorem acceptedIn_append (history later : List ServerEvent) :
    acceptedIn (history ++ later) = acceptedIn history ++ acceptedIn later := List.filterMap_append ..

/-- The registry changes by these changes, which are all allowed, and the history closes and accepts
    the connections that they close and open. -/
structure Changed (allowed : Change → Prop) (s : ServerState) (history : List ServerEvent)
    (s' : ServerState) (changes : List Change) : Prop where
  steps : Registry.Steps s.registry changes s'.registry
  allowed : ∀ change ∈ changes, allowed change
  closed : closedIn history = changes.flatMap Change.closed
  opened : acceptedIn history = changes.flatMap Change.opened

def changesAccount (allowed : Change → Prop) : Account ServerState ServerEvent where
  holds s history s' := ∃ changes, Changed allowed s history s' changes
  nil s := ⟨[], .nil _, by simp, rfl, rfl⟩
  append := by
    rintro s middle s' history later ⟨changes, first⟩ ⟨others, second⟩
    refine ⟨changes ++ others, first.steps.append second.steps, ?_, ?_, ?_⟩
    · intro change member
      rcases List.mem_append.mp member with member | member
      · exact first.allowed change member
      · exact second.allowed change member
    · rw [closedIn_append, first.closed, second.closed, List.flatMap_append]
    · rw [acceptedIn_append, first.opened, second.opened, List.flatMap_append]

theorem changesAccount_mono {allowed weaker : Change → Prop} {s s' : ServerState}
    {history : List ServerEvent} (implies : ∀ change, allowed change → weaker change)
    (holds : (changesAccount allowed).holds s history s') :
    (changesAccount weaker).holds s history s' := by
  obtain ⟨changes, changed⟩ := holds
  exact ⟨changes, changed.steps, fun change member => implies change (changed.allowed change member),
    changed.closed, changed.opened⟩

section

variable {t : ThreadId} {s : ServerState} {c : ClientType} {i : Nat} {α β : Type}
  {allowed : Change → Prop}

def Makes (t : ThreadId) (allowed : Change → Prop) (p : ServerProgram α) (s : ServerState) : Prop :=
  machine.Ensures t (changesAccount allowed) p (fun _ _ => True) s

def Call.KeepsConnections : Call → Prop
  | .accept | .close _ => False
  | _ => True

theorem Call.Quiet.keepsConnections {call : Call} (quiet : call.Quiet) : call.KeepsConnections := by
  cases call <;> first | exact True.intro | exact quiet.elim

theorem wp_keepsConnections {p : ServerProgram α} (keeps : p.Calls Call.KeepsConnections) :
    machine.wp t p (fun history _ _ => closedIn history = [] ∧ acceptedIn history = []) s := by
  refine wp_iff_runs.mpr fun history _ _ run => ⟨?_, ?_⟩ <;>
    refine List.filterMap_eq_nil_iff.mpr fun event member => ?_
  all_goals
    have harmless := Path.calls run.completes keeps event member
    obtain ⟨call, answer⟩ := event
    cases call <;> first | rfl | exact harmless.elim

theorem wp_quiet {p : ServerProgram α} (quiet : p.Calls Call.Quiet) : machine.wp t p
    (fun history _ s' => SameSlots s s' ∧ closedIn history = [] ∧ acceptedIn history = []) s :=
  wp_and (wp_of_quiet quiet s) (wp_keepsConnections (quiet.mono fun _ => Call.Quiet.keepsConnections))

theorem ensures_of_quiet {p : ServerProgram α} (quiet : p.Calls Call.Quiet) :
    machine.Ensures t (changesAccount allowed) p (fun _ s' => SameSlots s s') s := by
  refine wp_mono ?_ (wp_quiet quiet)
  rintro history _ s' ⟨same, closed, opened⟩
  exact ⟨⟨[], same.registry ▸ .nil _, by simp, closed, opened⟩, same⟩

theorem makes_of_quiet {p : ServerProgram α} (quiet : p.Calls Call.Quiet) : Makes t allowed p s :=
  ensures_mono (fun _ _ _ => True.intro) (ensures_of_quiet quiet)

theorem makes_pure {value : α} : Makes t allowed (pure value) s := ensures_pure True.intro

theorem makes_quiet_bind {p : ServerProgram α} {f : α → ServerProgram β} (quiet : p.Calls Call.Quiet)
    (rest : ∀ value s', SameSlots s s' → Makes t allowed (f value) s') :
    Makes t allowed (p >>= f) s := ensures_bind (ensures_of_quiet quiet) rest

theorem makes_bind {p : ServerProgram α} {f : α → ServerProgram β} (first : Makes t allowed p s)
    (rest : ∀ value s', Makes t allowed (f value) s') : Makes t allowed (p >>= f) s :=
  ensures_bind first fun value s' _ => rest value s'

theorem makes_loadFd_bind {f : Int → ServerProgram β}
    (rest : Makes t allowed (f ((s.groups c).fds i)) s) : Makes t allowed (loadFd c i >>= f) s := by
  refine wp_bind.mpr (wp_loadFd.mpr (wp_mono ?_ rest))
  rintro history _ s' ⟨⟨changes, changed⟩, -⟩
  exact ⟨⟨changes, changed.steps, changed.allowed, changed.closed, changed.opened⟩, True.intro⟩

theorem makes_forFrom {γ : Type} {body : Nat → β → ServerProgram (LoopFlow β γ)} {count : Nat}
    {carried : β} (each : ∀ i carried s, i < count → Makes t allowed (body i carried) s) :
    Makes t allowed (forFrom body count 0 carried) s := by
  refine ensures_mono (fun _ _ _ => True.intro) (@ensures_forFrom _ _ _ _ _ _ machine t _ body
    (fun _ _ _ => True) (fun _ _ => True) count 0 carried s (fun i carried s _ upper _ => ?_) True.intro)
  exact ensures_mono (fun flow _ _ => by cases flow <;> exact True.intro)
    (each i carried s (by omega))

end

end ArchCompSystems.OsIhw3
