import ArchCompSystems.OsIhw3.Framing
import ArchCompSystems.OsIhw3.RegistryOperations

namespace ArchCompSystems.OsIhw3

open Library Library.Program Library.Machine

inductive SocketOutcome where
  | notAlive
  | received (answer : RecvAnswer)
  deriving DecidableEq

/-- What a polling loop decides about a client: its record is taken, or it is as after an error. -/
inductive Verdict where
  | served
  | error (result : HandleResult)
  deriving DecidableEq

def SocketOutcome.verdict (size : Nat) : SocketOutcome → Verdict
  | .notAlive => .error .deadClientSocket
  | .received (.failed error) => .error error.handleResult
  | .received (.received bytes) =>
    if bytes.length = size then .served
    else if bytes = [] then .error .deadClientSocket
    else .error .emptyClientSocket

/-- A client in its slot, with the errno that its `recv` finds. -/
structure Visit where
  slot : Nat
  errno : Errno
  outcome : SocketOutcome

/-- What the loops decide: `errno` is looked at after every `recv` that was not whole. -/
def Visit.verdict (size : Nat) (visit : Visit) : Verdict :=
  match visit.outcome with
  | .notAlive => .error .deadClientSocket
  | .received (.failed error) => .error error.handleResult
  | .received (.received bytes) =>
    if bytes.length = size then .served else .error visit.errno.handleResult

/-- A `recv` that returns nothing finds an error of a dead connection, and a short one `EAGAIN`. -/
def Visit.ErrnoFits (size : Nat) (visit : Visit) : Prop :=
  ∀ bytes, visit.outcome = .received (.received bytes) → bytes.length ≠ size →
    visit.errno.handleResult = if bytes = [] then .deadClientSocket else .emptyClientSocket

def errnoAfter (e : Errno) : ServerEvent → Errno
  | ⟨.storeErrno error, _⟩ => error
  | ⟨.accept, .failed error⟩ => error
  | ⟨.recv _ _, answer⟩ => answer.error.getD e
  | ⟨.send _ _, answer⟩ => answer.error.getD e
  | ⟨.getsockoptError _, answer⟩ => answer.error.getD e
  | ⟨.enqueueLog _, answer⟩ => answer.error.getD e
  | ⟨.dequeueLog, answer⟩ => answer.error.getD e
  | ⟨.setsockopt _ _, answer⟩ | ⟨.shutdown _, answer⟩ | ⟨.close _, answer⟩ | ⟨.shutdownListening, answer⟩
  | ⟨.closeListening, answer⟩ | ⟨.nanosleep, answer⟩ => answer.getD e
  | _ => e

/-- The clients whose sockets a history asks, in its order: `slot` is the one looked at last. -/
def visitsFrom (slot : Nat) (e : Errno) : List ServerEvent → List Visit
  | [] => []
  | ⟨.loadFd _ i, _⟩ :: rest => visitsFrom i e rest
  | ⟨.getsockoptError fd, answer⟩ :: rest =>
    (if answer = .pending none then [] else [⟨slot, e, .notAlive⟩]) ++
      visitsFrom slot (errnoAfter e ⟨.getsockoptError fd, answer⟩) rest
  | ⟨.recv fd size, answer⟩ :: rest =>
    ⟨slot, e, .received answer⟩ :: visitsFrom slot (errnoAfter e ⟨.recv fd size, answer⟩) rest
  | event :: rest => visitsFrom slot (errnoAfter e event) rest

def slotAfter (slot : Nat) : List ServerEvent → Nat
  | [] => slot
  | ⟨.loadFd _ i, _⟩ :: rest => slotAfter i rest
  | _ :: rest => slotAfter slot rest

def removedBy (verdict : Visit → Verdict) (visits : List Visit) : List Nat :=
  (visits.filter fun visit => verdict visit = .error .deadClientSocket).map Visit.slot

def decremented : Nat → Nat → Nat
  | 0, size => size
  | count + 1, size => (decremented count size + 2 ^ 64 - 1) % 2 ^ 64

theorem decremented_add (count more size : Nat) :
    decremented (count + more) size = decremented more (decremented count size) := by
  induction more with
  | zero => rfl
  | succ more ih => rw [← Nat.add_assoc, decremented, decremented, ih]

/-- The slots of these clients are free, their connections closed and their counter is decremented for each;
    all other clients are kept. -/
structure Removes (c : ClientType) (s : ServerState) (removed : List Nat) (history : List ServerEvent)
    (s' : ServerState) : Prop where
  fds : ∀ i, (s'.groups c).fds i = if i ∈ removed then -1 else (s.groups c).fds i
  closed : closedIn history = removed.map (s.groups c).fds
  counter : (s'.groups c).arrSize = decremented removed.length (s.groups c).arrSize

/-- Each client is treated as its own socket says: it is removed or kept, and the loop fails only on an
    error of a client's `recv`. -/
structure TreatsBySocket (c : ClientType) (size : Nat) (t : ThreadId) (s : ServerState)
    (history : List ServerEvent) (result : Bool) (s' : ServerState) : Prop where
  removes : Removes c s (removedBy (fun visit => visit.outcome.verdict size) (visitsFrom 0 (s.errno t) history))
    history s'
  fails : result = false → ∃ visit ∈ visitsFrom 0 (s.errno t) history, ∃ error,
    visit.outcome = .received (.failed error) ∧ error.handleResult = .unknownSocketError

theorem visitsFrom_append {slot : Nat} {e : Errno} {history later : List ServerEvent} :
    visitsFrom slot e (history ++ later) =
      visitsFrom slot e history ++ visitsFrom (slotAfter slot history) (history.foldl errnoAfter e) later := by
  induction history generalizing slot e with
  | nil => rfl
  | cons event history ih =>
    obtain ⟨call, answer⟩ := event
    cases call with
    | getsockoptError fd =>
      simp only [List.cons_append, visitsFrom, ih, slotAfter, List.foldl_cons, List.append_assoc]
    | accept => cases answer <;> exact ih
    | recv fd size => simp only [List.cons_append, visitsFrom, ih, slotAfter, List.foldl_cons]
    | _ => exact ih

def Call.AsksNone : Call → Prop
  | .getsockoptError _ | .recv _ _ => False
  | _ => True

theorem visitsFrom_eq_nil {slot : Nat} {e : Errno} {history : List ServerEvent}
    (asks : ∀ event ∈ history, event.1.AsksNone) : visitsFrom slot e history = [] := by
  induction history generalizing slot e with
  | nil => rfl
  | cons event history ih =>
    obtain ⟨call, answer⟩ := event
    have rest : ∀ {slot e}, visitsFrom slot e history = [] :=
      ih fun other member => asks other (List.mem_cons_of_mem _ member)
    have first := asks _ (List.mem_cons_self ..)
    cases call with
    | getsockoptError fd => exact first.elim
    | recv fd size => exact first.elim
    | accept => cases answer <;> exact rest
    | _ => exact rest

theorem errno_of_perform {t : ThreadId} {call : Call} {answer : call.Answer} {s s' : ServerState}
    (performed : machine.perform t call answer s = some s') : s'.errno t = errnoAfter (s.errno t) ⟨call, answer⟩ := by
  have error : ∀ error, (s.afterError t error).errno t = error.getD (s.errno t) := by
    intro error
    cases error with
    | none => rfl
    | some error => exact Function.update_self ..
  cases call with
  | accept =>
    cases answer with
    | failed error =>
      cases performed
      exact Function.update_self ..
    | connected fd addr addrlen =>
      obtain ⟨-, accepted⟩ := Option.ite_none_right_eq_some.mp performed
      cases accepted
      rfl
  | recv fd size | send fd payload =>
    obtain ⟨-, received⟩ := Option.ite_none_right_eq_some.mp performed
    cases received
    exact error _
  | setsockopt fd option | getsockoptError fd | shutdown fd | close fd | shutdownListening | closeListening
  | enqueueLog message | dequeueLog | nanosleep =>
    cases performed
    exact error _
  | storeErrno error =>
    cases performed
    exact Function.update_self ..
  | mutexLock d =>
    simp only [machine, perform] at performed
    split at performed
    · cases performed
      rfl
    · split at performed <;> cases performed
      rfl
  | mutexUnlock d | pthreadCancel thread =>
    simp only [machine, perform] at performed
    split at performed <;> cases performed <;> rfl
  | abort assertion | goesOn => exact answer.elim
  | loadFd | loadArrSize | loadInfo | loadErrno | loadRunning | loadDisposed | pthreadJoin =>
    obtain ⟨-, loaded⟩ := Option.ite_none_right_eq_some.mp performed
    cases loaded
    rfl
  | _ =>
    cases performed
    rfl

theorem errno_of_runs {α : Type} {t : ThreadId} {p : ServerProgram α} {s s' : ServerState}
    {history : List ServerEvent} {value : α} (run : machine.Runs t p s history value s') :
    s'.errno t = history.foldl errnoAfter (s.errno t) := by
  induction run with
  | done => rfl
  | call performed _ ih => rw [ih, List.foldl_cons, errno_of_perform performed]

section

variable {c : ClientType} {size : Nat} {t : ThreadId} {s middle s' : ServerState} {i : Nat} {α : Type}
  {history later : List ServerEvent}

def ErrnoTold (t : ThreadId) (s : ServerState) (history : List ServerEvent) (s' : ServerState) : Prop :=
  s'.errno t = history.foldl errnoAfter (s.errno t)

theorem ErrnoTold.append (first : ErrnoTold t s history middle) (second : ErrnoTold t middle later s') :
    ErrnoTold t s (history ++ later) s' := by
  unfold ErrnoTold at *
  rw [second, first, List.foldl_append]

theorem wp_errnoTold {p : ServerProgram α} : machine.wp t p (fun history _ s' => ErrnoTold t s history s') s :=
  wp_iff_runs.mpr fun _ _ _ run => errno_of_runs run

def Silent (history : List ServerEvent) : Prop := ∀ slot e, visitsFrom slot e history = []

theorem Silent.append (first : Silent history) (second : Silent later) : Silent (history ++ later) := by
  intro slot e
  rw [visitsFrom_append, first, second, List.append_nil]

theorem wp_silent {p : ServerProgram α} (asks : p.Calls Call.AsksNone) :
    machine.wp t p (fun history _ _ => Silent history) s :=
  wp_iff_runs.mpr fun _ _ _ run _ _ => visitsFrom_eq_nil (Path.calls run.completes asks)

theorem Removes.nothing (same : SameSlots s s') (closed : closedIn history = []) : Removes c s [] history s' :=
  ⟨fun i => congrFun (same.fds c) i, closed, (same.arrSize c).trans (decremented.eq_1 _).symm⟩

theorem Removes.append {removed more : List Nat} (first : Removes c s removed history middle)
    (second : Removes c middle more later s') (fresh : ∀ j ∈ more, (middle.groups c).fds j ≠ -1) :
    Removes c s (removed ++ more) (history ++ later) s' := by
  have kept : ∀ j ∈ more, (middle.groups c).fds j = (s.groups c).fds j := by
    intro j member
    have taken := fresh j member
    rw [first.fds j] at taken ⊢
    split at taken
    · exact absurd rfl taken
    · rename_i stays
      rw [if_neg stays]
  refine ⟨fun j => ?_, ?_, ?_⟩
  · rw [second.fds j, first.fds j]
    simp only [List.mem_append]
    split <;> split <;> simp_all
  · rw [closedIn_append, first.closed, second.closed, List.map_append, List.map_congr_left kept]
  · rw [second.counter, first.counter, List.length_append, decremented_add]

/-- At most one client is asked, the one in slot `i`, and the verdict on it carried out. -/
structure Treats (c : ClientType) (size : Nat) (t : ThreadId) (i : Nat) (s : ServerState)
    (history : List ServerEvent) (visit : Option Visit) (s' : ServerState) : Prop where
  visits : ∀ slot, visitsFrom slot (s.errno t) history = visit.toList
  here : ∀ v ∈ visit, v.slot = i ∧ (s.groups c).fds i ≠ -1
  removes : Removes c s (removedBy (Visit.verdict size) visit.toList) history s'
  told : ErrnoTold t s history s'

def FailsOn (size : Nat) (visit : Option Visit) (fails : Prop) : Prop :=
  fails ↔ ∃ v ∈ visit, v.verdict size = .error .unknownSocketError

theorem failsOn_nobody {fails : Prop} (goesOn : ¬ fails) : FailsOn size none fails :=
  iff_of_false goesOn nofun

theorem removes_one (groups : ∀ j, (s'.groups c).fds j = Function.update (s.groups c).fds i (-1) j)
    (closed : closedIn history = [(s.groups c).fds i])
    (counter : (s'.groups c).arrSize = ((s.groups c).arrSize + 2 ^ 64 - 1) % 2 ^ 64) :
    Removes c s [i] history s' := by
  refine ⟨fun j => ?_, closed, ?_⟩
  · rw [groups j, Function.update_apply]
    simp only [List.mem_singleton]
  · rw [counter, List.length_singleton, decremented, decremented]

theorem setArrSize_arrSize_self (s : ServerState) (c : ClientType) (count : Nat) :
    ((s.setArrSize c count).groups c).arrSize = count := by
  rw [ServerState.setArrSize, ServerState.setGroup_groups, Function.update_self]

theorem dropWorker_asksNone {fd : Int} : (dropWorker c i fd).Calls Call.AsksNone := by
  refine calls_bind (calls_make True.intro) fun _ => calls_bind (calls_make True.intro) fun _ => ?_
  exact calls_bind (calls_make True.intro) fun _ => calls_make True.intro

theorem wp_dropWorker {fd : Int} (taken : (s.groups c).fds i = fd) :
    machine.wp t (dropWorker c i fd) (fun history _ s' =>
      Removes c s [i] history s' ∧ Silent history ∧ ErrnoTold t s history s') s := by
  refine wp_and ?_ (wp_and (wp_silent dropWorker_asksNone) wp_errnoTold)
  unfold dropWorker decrementArrSize
  refine wp_bind.mpr (wp_storeFd.mpr (wp_bind.mpr (wp_close.mpr fun answer => ?_)))
  refine wp_bind.mpr (wp_loadArrSize.mpr (wp_storeArrSize.mpr ?_))
  have same := SameSlots.afterError (s.setFd c i (-1)) t answer
  refine removes_one (fun j => ?_) ?_ ?_
  · rw [ServerState.setArrSize_fds, same.fds, ServerState.setFd_fds_self]
  · rw [taken]
    rfl
  · rw [setArrSize_arrSize_self, same.arrSize, ServerState.setFd_arrSize]

theorem handleLog_asksNone (message : String) : (handleLog message).Calls Call.AsksNone := by
  unfold handleLog
  refine calls_bind (calls_make True.intro) fun _ => calls_bind (calls_make True.intro) fun _ => ?_
  split
  · exact calls_make True.intro
  · exact True.intro

theorem closeManager_asksNone : (closeManager i).Calls Call.AsksNone := by
  refine calls_bind (calls_make True.intro) fun _ => calls_bind (calls_make True.intro) fun _ => ?_
  refine calls_bind (calls_bind (calls_make True.intro) fun _ => calls_make True.intro) fun _ => ?_
  refine calls_bind (calls_make True.intro) fun _ => calls_bind (calls_make True.intro) fun _ => ?_
  exact handleLog_asksNone _

theorem wp_closeManager : machine.wp t (closeManager i) (fun history _ s' =>
    Removes .managerClient s [i] history s' ∧ Silent history ∧ ErrnoTold t s history s') s := by
  refine wp_and ?_ (wp_and (wp_silent closeManager_asksNone) wp_errnoTold)
  unfold closeManager decrementArrSize
  refine wp_bind.mpr (wp_loadFd.mpr (wp_bind.mpr (wp_storeFd.mpr (wp_bind.mpr ?_))))
  refine wp_bind.mpr (wp_loadArrSize.mpr (wp_storeArrSize.mpr ?_))
  refine wp_bind.mpr (wp_close.mpr fun answer => wp_bind.mpr (wp_loadInfo.mpr ?_))
  refine wp_mono ?_ (wp_quiet ((handleLog_calls _).mono fun _ => Call.Logging.quiet))
  rintro history _ s' ⟨logged, closed, -⟩
  have same := (SameSlots.afterError _ t answer).trans logged
  refine removes_one (fun j => ?_) ?_ ?_
  · rw [same.fds, ServerState.setArrSize_fds, ServerState.setFd_fds_self]
  · simp only [closedIn_append, closed]
    rfl
  · rw [same.arrSize, setArrSize_arrSize_self, ServerState.setFd_arrSize]

theorem handleSocketOpError_asksNone (cause : String) : (handleSocketOpError cause).Calls Call.AsksNone := by
  unfold handleSocketOpError
  refine calls_bind (calls_make True.intro) fun error => ?_
  dsimp only
  split
  · exact calls_bind (calls_make True.intro) fun _ => True.intro
  · exact True.intro

theorem wp_isSocketAlive_visits {fd : Int} : machine.wp t (isSocketAlive fd) (fun history alive s' => match alive with
    | false => ∀ slot e, visitsFrom slot e history = [⟨slot, e, .notAlive⟩]
    | true => history = [⟨.getsockoptError fd, .pending none⟩] ∧ s' = s) s := by
  have dead : ∀ {answer : SocketErrorAnswer} {later : List ServerEvent}, answer ≠ .pending none → Silent later →
      ∀ slot e, visitsFrom slot e (⟨.getsockoptError fd, answer⟩ :: later) = [⟨slot, e, .notAlive⟩] := by
    intro answer later notAlive silent slot e
    rw [visitsFrom, if_neg notAlive, silent, List.append_nil]
  unfold isSocketAlive
  refine wp_bind.mpr fun answer s₁ performed => wp_done.mpr ?_
  cases performed
  match answer with
  | .failed code =>
    refine wp_bind.mpr fun _ _ _ => ?_
    exact dead nofun fun _ _ => rfl
  | .pending (some error) =>
    refine wp_bind.mpr fun _ _ _ => wp_bind.mpr (wp_mono ?_ (wp_silent (handleSocketOpError_asksNone _)))
    intro history _ _ silent
    refine dead nofun fun slot e => ?_
    simp only [List.append_nil]
    exact silent slot error
  | .pending none => exact ⟨rfl, rfl⟩

theorem wp_isSocketAlive_told {fd : Int} : machine.wp t (isSocketAlive fd) (fun history alive s' =>
    (SameSlots s s' ∧ closedIn history = [] ∧ acceptedIn history = []) ∧ ErrnoTold t s history s' ∧ match alive with
      | false => ∀ slot e, visitsFrom slot e history = [⟨slot, e, .notAlive⟩]
      | true => history = [⟨.getsockoptError fd, .pending none⟩] ∧ s' = s) s :=
  wp_and (wp_quiet ((isSocketAlive_calls _).mono fun _ => Call.Plain.quiet))
    (wp_and wp_errnoTold wp_isSocketAlive_visits)

theorem wp_handleSocketOpError_result {cause : String} : machine.wp t (handleSocketOpError cause) (fun history result s' =>
    result = (s.errno t).handleResult ∧ SameSlots s s' ∧ closedIn history = [] ∧ Silent history ∧
      ErrnoTold t s history s') s := by
  refine wp_and ?_ (wp_mono ?_ (wp_and (wp_quiet ((handleSocketOpError_calls _).mono fun _ => Call.Plain.quiet))
    (wp_and (wp_silent (handleSocketOpError_asksNone _)) wp_errnoTold)))
  · unfold handleSocketOpError
    refine wp_bind.mpr (wp_loadErrno.mpr ?_)
    dsimp only
    split
    · exact wp_bind.mpr fun _ _ _ => rfl
    · exact rfl
  · rintro history _ s' ⟨⟨same, closed, -⟩, silent, told⟩
    exact ⟨same, closed, silent, told⟩

section

variable {β : Type} {fd : Int} {drop : ServerProgram Unit} {next fail : β} {fails : β → Prop}

/-- What removes the client in slot `i`. -/
def Drops (c : ClientType) (i : Nat) (fd : Int) (t : ThreadId) (drop : ServerProgram Unit) : Prop :=
  ∀ s, (s.groups c).fds i = fd → machine.wp t drop (fun history _ s' =>
    Removes c s [i] history s' ∧ Silent history ∧ ErrnoTold t s history s') s

/-- The `switch` over `handle_socket_op_error`, as both loops have it. -/
def afterError (cause : String) (drop : ServerProgram Unit) (next fail : β) : ServerProgram β := do
  match ← handleSocketOpError cause with
  | .emptyClientSocket => return next
  | .deadClientSocket => do
    drop
    return next
  | .unknownSocketError => return fail

theorem wp_afterErrorSwitch {cause : String} (isFail : fails fail) (goesOn : ¬ fails next)
    (taken : (s.groups c).fds i = fd) (connected : fd ≠ -1) (drops : Drops c i fd t drop) :
    machine.wp t (afterError cause drop next fail) (fun history flow s' =>
      Removes c s (if (s.errno t).handleResult = .deadClientSocket then [i] else []) history s' ∧ Silent history ∧
        ErrnoTold t s history s' ∧ (fails flow ↔ (s.errno t).handleResult = .unknownSocketError)) s := by
  refine wp_bind.mpr (wp_mono ?_ wp_handleSocketOpError_result)
  rintro history result s₁ ⟨decided, same, closed, silent, told⟩
  have handled : Removes c s [] history s₁ := .nothing same closed
  cases result with
  | emptyClientSocket =>
    refine wp_done.mpr ?_
    rw [← decided, List.append_nil]
    exact ⟨handled, silent, told, iff_of_false goesOn nofun⟩
  | deadClientSocket =>
    have still : (s₁.groups c).fds i = fd := (congrFun (same.fds c) i).trans taken
    refine wp_bind.mpr (wp_mono ?_ (drops s₁ still))
    rintro later _ s' ⟨removes, alsoSilent, alsoTold⟩
    refine wp_done.mpr ?_
    rw [← decided, List.append_nil]
    refine ⟨handled.append removes ?_, silent.append alsoSilent, told.append alsoTold, iff_of_false goesOn nofun⟩
    intro j member
    rw [List.mem_singleton.mp member, still]
    exact connected
  | unknownSocketError =>
    refine wp_done.mpr ?_
    rw [← decided, List.append_nil]
    exact ⟨handled, silent, told, iff_of_true isFail rfl⟩

def pollSocket (fd : Int) (size : Nat) (drop : ServerProgram Unit) (next fail : β)
    (serve : List UInt8 → ServerProgram β) : ServerProgram β := do
  if !(← isSocketAlive fd) then
    drop
    return next
  match ← recv fd size with
  | .received bytes => if bytes.length = size then serve bytes else afterError "recv" drop next fail
  | .failed _ => afterError "recv" drop next fail

theorem removedBy_one {visit : Visit} : removedBy (Visit.verdict size) [visit] =
    if visit.verdict size = .error .deadClientSocket then [visit.slot] else [] := by
  rw [removedBy, List.filter_cons]
  split <;> rename_i dead <;> simp only [decide_eq_true_eq] at dead <;> simp [dead]

theorem wp_pollSocket {serve : List UInt8 → ServerProgram β} (isFail : fails fail) (goesOn : ¬ fails next)
    (taken : (s.groups c).fds i = fd) (connected : fd ≠ -1) (drops : Drops c i fd t drop)
    (serves : ∀ bytes s, machine.wp t (serve bytes) (fun history flow s' =>
      SameSlots s s' ∧ closedIn history = [] ∧ Silent history ∧ ¬ fails flow) s) :
    machine.wp t (pollSocket fd size drop next fail serve) (fun history flow s' =>
      ∃ visit : Visit, visitsFrom i (s.errno t) history = [visit] ∧ visit.slot = i ∧
        Removes c s (removedBy (Visit.verdict size) [visit]) history s' ∧
        (fails flow ↔ visit.verdict size = .error .unknownSocketError)) s := by
  refine wp_bind.mpr (wp_mono ?_ wp_isSocketAlive_told)
  rintro asked alive s₁ ⟨⟨same₁, closed₁, -⟩, -, visits₁⟩
  have still₁ : (s₁.groups c).fds i = fd := (congrFun (same₁.fds c) i).trans taken
  have first : Removes c s [] asked s₁ := .nothing same₁ closed₁
  cases alive with
  | false =>
    refine wp_bind.mpr (wp_mono ?_ (drops s₁ still₁))
    rintro later _ s' ⟨removes, silent, -⟩
    refine wp_done.mpr ⟨⟨i, s.errno t, .notAlive⟩, ?_, rfl, ?_, iff_of_false goesOn nofun⟩
    · rw [List.append_nil, visitsFrom_append, visits₁, silent, List.append_nil]
    · rw [List.append_nil]
      refine first.append removes fun j member => ?_
      rw [List.mem_singleton.mp member, still₁]
      exact connected
  | true =>
    obtain ⟨rfl, rfl⟩ := visits₁
    refine wp_bind.mpr fun answer s₂ performed => wp_done.mpr ?_
    obtain ⟨-, received⟩ := Option.ite_none_right_eq_some.mp performed
    have errno₂ : s₂.errno t = errnoAfter (s₁.errno t) ⟨.recv fd size, answer⟩ := errno_of_perform performed
    have same₂ : SameSlots s₁ s₂ := by
      cases received
      exact .afterError _ _ _
    have still₂ : (s₂.groups c).fds i = fd := (congrFun (same₂.fds c) i).trans taken
    have visited : ∀ {later}, Silent later → visitsFrom i (s₁.errno t)
        ([⟨.getsockoptError fd, .pending none⟩] ++ (⟨.recv fd size, answer⟩ :: [] ++ later)) =
          [⟨i, s₁.errno t, .received answer⟩] := by
      intro later silent
      simp only [List.cons_append, List.nil_append, visitsFrom, if_true, silent _ _]
      rfl
    have noted : ∀ {later}, closedIn later = [] → closedIn ([⟨.getsockoptError fd, .pending none⟩] ++
        (⟨.recv fd size, answer⟩ :: [] ++ later)) = [] := fun closed => closed
    have failed : (Visit.mk i (s₁.errno t) (.received answer)).verdict size = .error (s₂.errno t).handleResult →
        machine.wp t (afterError "recv" drop next fail) (fun later flow s' => ∃ visit : Visit,
          visitsFrom i (s₁.errno t) ([⟨.getsockoptError fd, .pending none⟩] ++
            (⟨.recv fd size, answer⟩ :: [] ++ later)) = [visit] ∧ visit.slot = i ∧
          Removes c s₁ (removedBy (Visit.verdict size) [visit]) ([⟨.getsockoptError fd, .pending none⟩] ++
            (⟨.recv fd size, answer⟩ :: [] ++ later)) s' ∧
          (fails flow ↔ visit.verdict size = .error .unknownSocketError)) s₂ := by
      intro verdict
      refine wp_mono ?_ (wp_afterErrorSwitch isFail goesOn still₂ connected drops)
      rintro later flow s' ⟨removes, silent, -, decided⟩
      refine ⟨_, visited silent, rfl, ?_, ?_⟩
      · rw [removedBy_one, verdict]
        simp only [Verdict.error.injEq]
        have before : Removes c s₁ [] [⟨.getsockoptError fd, .pending none⟩, ⟨.recv fd size, answer⟩] s₂ :=
          .nothing same₂ rfl
        have fresh : ∀ j ∈ if (s₂.errno t).handleResult = .deadClientSocket then [i] else [],
            (s₂.groups c).fds j ≠ -1 := by
          intro j member
          split at member
          · rw [List.mem_singleton.mp member, still₂]
            exact connected
          · cases member
        exact before.append removes fresh
      · rw [decided, verdict, Verdict.error.injEq]
    cases answer with
    | failed error =>
      refine failed ?_
      rw [errno₂]
      rfl
    | received bytes =>
      dsimp only
      split
      · rename_i whole
        refine wp_mono ?_ (serves bytes s₂)
        rintro later flow s' ⟨same, closed, silent, served⟩
        have verdict : (Visit.mk i (s₁.errno t) (.received (.received bytes))).verdict size = .served := if_pos whole
        refine ⟨_, visited silent, rfl, ?_, iff_of_false served ?_⟩
        · rw [removedBy_one, verdict, if_neg nofun]
          exact .nothing (same₂.trans same) (noted closed)
        · rw [verdict]
          exact nofun
      · rename_i short
        refine failed ?_
        rw [errno₂]
        exact if_neg short

end

theorem wp_storeReceivedPin {pin : Pin} {pinsQ : PinsQueue} :
    machine.wp t (storeReceivedPin c i pin pinsQ) (fun history flow s' => SameSlots s s' ∧ closedIn history = [] ∧
      Silent history ∧ ¬ ∃ q, flow = .exit (false, q)) s := by
  have asks : (storeReceivedPin c i pin pinsQ).Calls Call.AsksNone := by
    refine calls_bind (calls_make True.intro) fun _ => calls_bind (handleLog_asksNone _) fun _ => ?_
    refine calls_bind (orAbort_calls (fun _ => True.intro) _ _) fun _ => ?_
    exact calls_bind (assert_calls (fun _ => True.intro) _ _) fun _ => True.intro
  have goesOn : (storeReceivedPin c i pin pinsQ).Always fun _ flow => ∃ q, flow = .next q := by
    have any : ∀ {α : Type} {p : ServerProgram α} {post : List ServerEvent → α → Prop},
        (∀ history value, post history value) → p.Always post :=
      fun all => always_iff.mpr fun history value _ => all history value
    refine always_bind.mpr (any fun _ _ => always_bind.mpr (any fun _ _ => always_bind.mpr (any fun _ _ => ?_)))
    exact always_bind.mpr (any fun _ _ => ⟨_, rfl⟩)
  refine wp_mono ?_ (wp_and (wp_quiet (storeReceivedPin_quiet pin pinsQ)) (wp_and (wp_silent asks) (wp_of_always goesOn)))
  rintro history flow s' ⟨⟨same, closed, -⟩, silent, q, rfl⟩
  exact ⟨same, closed, silent, nofun⟩

theorem wp_treats {β : Type} {p : ServerProgram β} {fails : β → Prop}
    (polls : machine.wp t p (fun history flow s' => ∃ visit : Option Visit,
      (∀ slot, visitsFrom slot (s.errno t) history = visit.toList) ∧
        (∀ v ∈ visit, v.slot = i ∧ (s.groups c).fds i ≠ -1) ∧
        Removes c s (removedBy (Visit.verdict size) visit.toList) history s' ∧ FailsOn size visit (fails flow)) s) :
    machine.wp t p (fun history flow s' => ∃ visit, Treats c size t i s history visit s' ∧
      FailsOn size visit (fails flow)) s := by
  refine wp_mono ?_ (wp_and polls wp_errnoTold)
  rintro history flow s' ⟨⟨visit, visits, here, removes, fails⟩, told⟩
  exact ⟨visit, ⟨visits, here, removes, told⟩, fails⟩

theorem wp_pollWorker {pinsQ : PinsQueue} : machine.wp t (pollWorker c i pinsQ) (fun history flow s' =>
    ∃ visit, Treats c sizeofPin t i s history visit s' ∧ FailsOn sizeofPin visit (∃ q, flow = .exit (false, q))) s := by
  refine wp_treats ?_
  unfold pollWorker
  refine wp_bind.mpr (wp_loadArrSize.mpr ?_)
  split
  · exact ⟨none, fun _ => rfl, nofun, .nothing (.refl s) rfl, failsOn_nobody nofun⟩
  refine wp_bind.mpr (wp_loadFd.mpr ?_)
  split
  · exact ⟨none, fun _ => rfl, nofun, .nothing (.refl s) rfl, failsOn_nobody nofun⟩
  rename_i connected
  have drops : Drops c i ((s.groups c).fds i) t (dropWorker c i ((s.groups c).fds i)) :=
    fun _ taken => wp_dropWorker taken
  have polled := @wp_pollSocket c sizeofPin t s i _ _ _ (.next pinsQ) (.exit (false, pinsQ))
    (fun flow => ∃ q, flow = .exit (false, q)) (fun bytes => storeReceivedPin c i (Pin.ofBytes bytes) pinsQ)
    ⟨pinsQ, rfl⟩ nofun rfl connected drops fun _ _ => wp_storeReceivedPin
  refine wp_mono ?_ polled
  rintro history flow s' ⟨visit, visits, here, removes, decided⟩
  refine ⟨some visit, fun _ => visits, ?_, ⟨removes.fds, removes.closed, removes.counter⟩, ?_⟩
  · rintro _ ⟨⟩
    exact ⟨here, connected⟩
  · simpa [FailsOn] using decided

theorem wp_pollManager : machine.wp t (pollManager i) (fun history flow s' =>
    ∃ visit, Treats .managerClient sizeofServerCommand t i s history visit s' ∧
      FailsOn sizeofServerCommand visit (∃ r, flow = .exit (false, r))) s := by
  refine wp_treats ?_
  unfold pollManager
  refine wp_bind.mpr (wp_loadArrSize.mpr ?_)
  split
  · exact ⟨none, fun _ => rfl, nofun, .nothing (.refl s) rfl, failsOn_nobody nofun⟩
  refine wp_bind.mpr (wp_loadFd.mpr ?_)
  split
  · exact ⟨none, fun _ => rfl, nofun, .nothing (.refl s) rfl, failsOn_nobody nofun⟩
  rename_i connected
  have drops : Drops .managerClient i ((s.groups .managerClient).fds i) t (closeManager i) :=
    fun _ _ => wp_closeManager
  have polled := @wp_pollSocket .managerClient sizeofServerCommand t s i
    (LoopFlow Unit (Bool × Option (ServerCommand × Nat))) _ _ (.next ()) (.exit (false, none))
    (fun flow => ∃ r, flow = .exit (false, r))
    (fun bytes => return .exit (true, some (ServerCommand.ofBytes bytes, i)))
    ⟨none, rfl⟩ nofun rfl connected drops fun _ s => ⟨.refl s, rfl, fun _ _ => rfl, nofun⟩
  refine wp_mono ?_ polled
  rintro history flow s' ⟨visit, visits, here, removes, decided⟩
  refine ⟨some visit, fun _ => visits, ?_, ⟨removes.fds, removes.closed, removes.counter⟩, ?_⟩
  · rintro _ ⟨⟩
    exact ⟨here, connected⟩
  · simpa [FailsOn] using decided

theorem removedBy_append {verdict : Visit → Verdict} {visits more : List Visit} :
    removedBy verdict (visits ++ more) = removedBy verdict visits ++ removedBy verdict more := by
  simp only [removedBy, List.filter_append, List.map_append]

/-- The clients before slot `i` have been treated by the verdicts on them; the loop fails on the only one
    whose verdict is an unknown error. -/
structure Treated (c : ClientType) (size : Nat) (t : ThreadId) (s : ServerState) (i : Nat)
    (history : List ServerEvent) (fails : Prop) (s' : ServerState) : Prop where
  before : ∀ v ∈ visitsFrom 0 (s.errno t) history, v.slot < i ∧ (s.groups c).fds v.slot ≠ -1
  nodup : ((visitsFrom 0 (s.errno t) history).map Visit.slot).Nodup
  removes : Removes c s (removedBy (Visit.verdict size) (visitsFrom 0 (s.errno t) history)) history s'
  told : ErrnoTold t s history s'
  failing : fails ↔ ∃ v ∈ visitsFrom 0 (s.errno t) history, v.verdict size = .error .unknownSocketError
  once : ∀ v ∈ visitsFrom 0 (s.errno t) history, v.verdict size = .error .unknownSocketError →
    ∀ w ∈ visitsFrom 0 (s.errno t) history, w.verdict size = .error .unknownSocketError → v = w

theorem Treated.start : Treated c size t s 0 [] False s where
  before := nofun
  nodup := List.nodup_nil
  removes := .nothing (.refl s) rfl
  told := rfl
  failing := iff_of_false id nofun
  once := nofun

theorem Treated.step {fails : Prop} {visit : Option Visit} (treated : Treated c size t s i history False middle)
    (treats : Treats c size t i middle later visit s') (failsOn : FailsOn size visit fails) :
    Treated c size t s (i + 1) (history ++ later) fails s' := by
  have visits : visitsFrom 0 (s.errno t) (history ++ later) =
      visitsFrom 0 (s.errno t) history ++ visit.toList := by
    have told : history.foldl errnoAfter (s.errno t) = middle.errno t := treated.told.symm
    rw [visitsFrom_append, told, treats.visits]
  have free : ∀ v ∈ visit, (s.groups c).fds v.slot ≠ -1 := by
    intro v member
    obtain ⟨rfl, taken⟩ := treats.here v member
    intro free
    rw [treated.removes.fds, free, ite_self] at taken
    exact taken rfl
  have goesOn : ∀ v ∈ visitsFrom 0 (s.errno t) history, v.verdict size ≠ .error .unknownSocketError :=
    fun v member unknown => treated.failing.mpr ⟨v, member, unknown⟩
  refine ⟨?_, ?_, ?_, treated.told.append treats.told, ?_, ?_⟩
  · rw [visits]
    intro v member
    rcases List.mem_append.mp member with earlier | now
    · obtain ⟨less, taken⟩ := treated.before v earlier
      exact ⟨Nat.lt_succ_of_lt less, taken⟩
    · have now := Option.mem_toList.mp now
      obtain ⟨here, -⟩ := treats.here v now
      exact ⟨by omega, free v now⟩
  · rw [visits, List.map_append]
    refine List.Nodup.append treated.nodup ?_ ?_
    · cases visit <;> simp
    · intro slot earlier now
      obtain ⟨v, member, rfl⟩ := List.mem_map.mp earlier
      obtain ⟨w, also, same⟩ := List.mem_map.mp now
      have here := (treats.here w (Option.mem_toList.mp also)).1
      have less := (treated.before v member).1
      omega
  · rw [visits, removedBy_append]
    refine treated.removes.append treats.removes fun j member => ?_
    obtain ⟨v, kept, rfl⟩ := List.mem_map.mp member
    obtain ⟨here, taken⟩ := treats.here v (Option.mem_toList.mp (List.mem_of_mem_filter kept))
    rwa [here]
  · rw [visits]
    refine Iff.trans failsOn ⟨?_, ?_⟩
    · rintro ⟨v, now, unknown⟩
      exact ⟨v, List.mem_append_right _ (Option.mem_toList.mpr now), unknown⟩
    · rintro ⟨v, member, unknown⟩
      rcases List.mem_append.mp member with earlier | now
      · exact absurd unknown (goesOn v earlier)
      · exact ⟨v, Option.mem_toList.mp now, unknown⟩
  · rw [visits]
    intro v member unknown w also unknown'
    rcases List.mem_append.mp member with earlier | now
    · exact absurd unknown (goesOn v earlier)
    · rcases List.mem_append.mp also with earlier | now'
      · exact absurd unknown' (goesOn w earlier)
      · exact Option.some.inj ((Option.mem_toList.mp now).symm.trans (Option.mem_toList.mp now'))

theorem wp_pollAll {β δ : Type} {body : Nat → β → ServerProgram (LoopFlow β (Bool × δ))} {count : Nat} {carried : β}
    {finish : LoopFlow β (Bool × δ) → ServerProgram (Bool × δ)} {polled : β → δ}
    (all : ∀ carried, finish (.next carried) = pure (true, polled carried))
    (left : ∀ result, finish (.exit result) = pure result)
    (each : ∀ i carried s, machine.wp t (body i carried) (fun history flow s' =>
      ∃ visit, Treats c size t i s history visit s' ∧ FailsOn size visit (∃ r, flow = .exit (false, r))) s) :
    machine.wp t (forFrom body count 0 carried >>= finish) (fun history result s' =>
      ∃ i, Treated c size t s i history (result.1 = false) s') s := by
  refine wp_bind.mpr (wp_mono ?_ (@wp_forFrom _ _ _ _ _ _ machine t body
    (fun i history _ s' => Treated c size t s i history False s')
    (fun history result s' => ∃ i, Treated c size t s i history (result.1 = false) s') count 0 carried [] s ?_ .start))
  · intro history flow s' after
    simp only [List.nil_append] at after
    cases flow with
    | next carried =>
      rw [all]
      refine wp_pure.mpr ⟨0 + count, ?_⟩
      rw [List.append_nil]
      exact { after with failing := (iff_of_false nofun id).trans after.failing }
    | exit result =>
      rw [left]
      exact wp_pure.mpr ((List.append_nil history).symm ▸ after)
  · intro i history carried middle _ _ treated
    refine wp_mono ?_ (each i carried middle)
    rintro later flow s' ⟨visit, treats, failsOn⟩
    have stepped := treated.step treats failsOn
    cases flow with
    | next carried' => exact { stepped with failing := (iff_of_false id nofun).trans stepped.failing }
    | exit result =>
      refine ⟨i + 1, { stepped with failing := Iff.trans ⟨fun failed => ?_, ?_⟩ stepped.failing }⟩
      · exact ⟨result.2, by rw [← failed]⟩
      · rintro ⟨r, same⟩
        cases same
        rfl

theorem wp_pollWorkers {pinsQ : PinsQueue} : machine.wp t (pollWorkers c pinsQ) (fun history result s' =>
    ∃ i, Treated c sizeofPin t s i history (result.1 = false) s') s :=
  wp_pollAll (fun _ => rfl) (fun _ => rfl) fun _ _ _ => wp_pollWorker

theorem wp_nonblockingPollManagers : machine.wp t nonblockingPollManagers (fun history result s' =>
    ∃ i, Treated .managerClient sizeofServerCommand t s i history (result.1 = false) s') s :=
  wp_pollAll (fun _ => rfl) (fun _ => rfl) fun _ _ _ => wp_pollManager

theorem Visit.verdict_of_errnoFits {visit : Visit} (fits : visit.ErrnoFits size) :
    visit.verdict size = visit.outcome.verdict size := by
  obtain ⟨slot, e, outcome⟩ := visit
  match outcome with
  | .notAlive => rfl
  | .received (.failed error) => rfl
  | .received (.received bytes) =>
    simp only [verdict, SocketOutcome.verdict]
    split
    · rfl
    · rename_i short
      have errno := fits bytes rfl short
      simp only at errno
      rw [errno]
      split <;> rfl

theorem mem_removedBy {verdict : Visit → Verdict} {visits : List Visit} (nodup : (visits.map Visit.slot).Nodup)
    {visit : Visit} (member : visit ∈ visits) :
    visit.slot ∈ removedBy verdict visits ↔ verdict visit = .error .deadClientSocket := by
  constructor
  · intro removed
    obtain ⟨other, kept, same⟩ := List.mem_map.mp removed
    obtain rfl := List.inj_on_of_nodup_map nodup (List.mem_of_mem_filter kept) member same
    exact of_decide_eq_true (List.mem_filter.mp kept).2
  · intro dead
    exact List.mem_map_of_mem (List.mem_filter.mpr ⟨member, decide_eq_true dead⟩)

theorem Treated.treatsBySocket_iff {result : Bool} (treated : Treated c size t s i history (result = false) s') :
    TreatsBySocket c size t s history result s' ↔
      ∀ visit ∈ visitsFrom 0 (s.errno t) history, visit.ErrnoFits size := by
  constructor
  · rintro ⟨removes, fails⟩ visit member bytes outcome short
    have taken := (treated.before visit member).2
    have same : visit.outcome.verdict size = .error .deadClientSocket ↔
        visit.verdict size = .error .deadClientSocket := by
      rw [← mem_removedBy treated.nodup member, ← @mem_removedBy (fun v => v.outcome.verdict size) _ treated.nodup _ member]
      have actual := treated.removes.fds visit.slot
      have wanted := removes.fds visit.slot
      rw [actual] at wanted
      split at wanted <;> split at wanted <;> simp_all
    have known : visit.verdict size ≠ .error .unknownSocketError := by
      intro unknown
      obtain ⟨other, also, error, failed, kind⟩ := fails (treated.failing.mpr ⟨visit, member, unknown⟩)
      have failing : other.verdict size = .error .unknownSocketError := by
        simp only [Visit.verdict, failed, kind]
      obtain rfl := treated.once visit member unknown other also failing
      rw [outcome] at failed
      cases failed
    have actual : visit.verdict size = .error visit.errno.handleResult := by
      simp only [Visit.verdict, outcome, if_neg short]
    rw [actual] at same known
    simp only [SocketOutcome.verdict, outcome, if_neg short, Verdict.error.injEq] at same
    by_cases closed : bytes = []
    · rw [if_pos closed]
      exact same.mp (by rw [if_pos closed]) 
    · rw [if_neg closed] at same ⊢
      cases kind : visit.errno.handleResult with
      | emptyClientSocket => rfl
      | deadClientSocket => simp [kind] at same
      | unknownSocketError => exact absurd (congrArg Verdict.error kind) known
  · intro fits
    have verdicts : removedBy (fun visit => visit.outcome.verdict size) (visitsFrom 0 (s.errno t) history) =
        removedBy (Visit.verdict size) (visitsFrom 0 (s.errno t) history) := by
      unfold removedBy
      congr 1
      exact List.filter_congr fun visit member => by rw [Visit.verdict_of_errnoFits (fits visit member)]
    refine ⟨verdicts ▸ treated.removes, fun failed => ?_⟩
    obtain ⟨visit, member, unknown⟩ := treated.failing.mp failed
    refine ⟨visit, member, ?_⟩
    rw [Visit.verdict_of_errnoFits (fits visit member)] at unknown
    match outcome : visit.outcome with
    | .notAlive =>
      rw [outcome] at unknown
      cases unknown
    | .received (.failed error) =>
      rw [outcome] at unknown
      exact ⟨error, rfl, Verdict.error.inj unknown⟩
    | .received (.received bytes) =>
      rw [outcome] at unknown
      simp only [SocketOutcome.verdict] at unknown
      split at unknown
      · cases unknown
      · split at unknown <;> cases unknown

end

/-- In both loops each client is treated by its own socket exactly when every `recv` that returns nothing finds
    an errno of a dead connection, and every other short one `EAGAIN`. -/
theorem treats_by_socket_iff (t : ThreadId) (s : ServerState) :
    (∀ c pinsQ history result s', machine.Runs t (pollWorkers c pinsQ) s history result s' →
      (TreatsBySocket c sizeofPin t s history result.1 s' ↔
        ∀ visit ∈ visitsFrom 0 (s.errno t) history, visit.ErrnoFits sizeofPin)) ∧
    ∀ history result s', machine.Runs t nonblockingPollManagers s history result s' →
      (TreatsBySocket .managerClient sizeofServerCommand t s history result.1 s' ↔
        ∀ visit ∈ visitsFrom 0 (s.errno t) history, visit.ErrnoFits sizeofServerCommand) := by
  constructor
  · intro c pinsQ history result s' run
    obtain ⟨i, treated⟩ := wp_iff_runs.mp wp_pollWorkers _ _ _ run
    exact treated.treatsBySocket_iff
  · intro history result s' run
    obtain ⟨i, treated⟩ := wp_iff_runs.mp wp_nonblockingPollManagers _ _ _ run
    exact treated.treatsBySocket_iff

/-- A worker that closes its connection after a `recv` has found nothing stays in its slot. -/
theorem closed_worker_is_kept : ¬ ∀ t s c pinsQ history result s',
    machine.Runs t (pollWorkers c pinsQ) s history result s' →
      TreatsBySocket c sizeofPin t s history result.1 s' := by
  intro treats
  have polled : ((Environment.answering (.received [])).runs (pollWorkers .firstStageWorkerClient .zero) oneWorker).any
      (fun out => decide ((out.2.2.groups .firstStageWorkerClient).fds 0 = 5 ∧
        0 ∈ removedBy (fun visit => visit.outcome.verdict sizeofPin)
          (visitsFrom 0 (oneWorker.errno mainThread) out.1))) = true := by decide +kernel
  obtain ⟨⟨history, result, s'⟩, run, kept⟩ := (Option.any_eq_true ..).mp polled
  obtain ⟨stays, removed⟩ := of_decide_eq_true kept
  have freed := (treats _ _ _ _ _ _ _ (Environment.runs_of_eq_some run)).removes.fds 0
  rw [if_pos removed, stays] at freed
  cases freed

end ArchCompSystems.OsIhw3
