import ArchCompSystems.OsIhw3.Footprints

namespace ArchCompSystems.OsIhw3

open Library Library.Program Library.Machine

def Call.isMutexCall : Call → Bool
  | .mutexLock _ | .mutexUnlock _ => true
  | _ => false

/-- The mutex calls of a history, with their answers. -/
def mutexCalls (history : List ServerEvent) : List ServerEvent :=
  history.filter fun event => event.1.isMutexCall

/-- No mutex call, or a lock that failed, or a lock and then the unlock of the same mutex. -/
def Bracketed (calls : List ServerEvent) : Prop :=
  calls = [] ∨ (∃ c error, calls = [⟨.mutexLock c, some error⟩]) ∨
    ∃ c answer, calls = [⟨.mutexLock c, none⟩, ⟨.mutexUnlock c, answer⟩]

/-- The mutex call that the `server_lock_…_mutex` wrapper of a type makes. -/
def lockEvent (answer : Option Errno) : ClientType → ServerEvent
  | .managerClient => ⟨.mutexUnlock .managerClient, answer⟩
  | .logsCollectorClient => ⟨.mutexLock .logsCollectorClient, answer⟩
  | .firstStageWorkerClient => ⟨.mutexLock .firstStageWorkerClient, answer⟩
  | .secondStageWorkerClient => ⟨.mutexLock .secondStageWorkerClient, answer⟩
  | .thirdStageWorkerClient => ⟨.mutexLock .thirdStageWorkerClient, answer⟩

def Sectioned (c : ClientType) (calls : List ServerEvent) : Prop :=
  (∃ error, calls = [lockEvent (some error) c]) ∨
    ∃ answer, calls = [lockEvent none c, ⟨.mutexUnlock c, answer⟩]

theorem Sectioned.bracketed_iff {c : ClientType} {calls : List ServerEvent}
    (sectioned : Sectioned c calls) : Bracketed calls ↔ c ≠ .managerClient := by
  constructor
  · rintro bracketed rfl
    rcases sectioned with ⟨error, rfl⟩ | ⟨answer, rfl⟩ <;> simp [Bracketed, lockEvent] at bracketed
  · intro other
    cases c with
    | managerClient => exact absurd rfl other
    | _ =>
      rcases sectioned with ⟨error, rfl⟩ | ⟨answer, rfl⟩
      · exact .inr (.inl ⟨_, _, rfl⟩)
      · exact .inr (.inr ⟨_, _, rfl⟩)

@[simp] theorem mutexCalls_append (history later : List ServerEvent) :
    mutexCalls (history ++ later) = mutexCalls history ++ mutexCalls later := List.filter_append ..

section

variable {α : Type} {c : ClientType} {history : List ServerEvent} {ok : Bool}

theorem mutexCalls_of_ordinary {p : ServerProgram α} {value : α}
    (completes : p.Completes history value) (ordinary : p.Calls Call.Ordinary) :
    mutexCalls history = [] := by
  refine List.filter_eq_nil_iff.mpr fun event member => ?_
  have harmless := Path.calls completes ordinary event member
  obtain ⟨call, answer⟩ := event
  cases call <;> first | exact harmless.elim | exact Bool.false_ne_true

theorem mutexCalls_reporting {ask : ServerProgram (Option Errno)} {event : Option Errno → ServerEvent} {cause : String}
    (asks : ∀ asked answer, ask.Completes asked answer → mutexCalls asked = [event answer])
    (completes : (do
      let err ← ask
      match err with
      | none => return true
      | some error => do
        storeErrno error
        perror cause
        return false : ServerProgram Bool).Completes history ok) :
    ∃ answer, mutexCalls history = [event answer] ∧ ok = answer.isNone := by
  obtain ⟨first, answer, rest, rfl, asked, tail⟩ := completes_bind.mp completes
  have called := asks first answer asked
  cases answer with
  | none =>
    obtain ⟨rfl, rfl⟩ := completes_pure.mp tail
    exact ⟨none, by rw [List.append_nil, called], rfl⟩
  | some error =>
    obtain ⟨stored, _, tail, rfl, storing, reporting⟩ := completes_bind.mp tail
    obtain ⟨reported, _, rest, rfl, printing, ending⟩ := completes_bind.mp reporting
    obtain rfl := completes_request.mp storing
    obtain rfl := completes_request.mp printing
    obtain ⟨rfl, rfl⟩ := completes_pure.mp ending
    refine ⟨some error, ?_, rfl⟩
    rw [← called]
    simp [mutexCalls, Call.isMutexCall]

theorem mutexCalls_serverLockMutex (completes : (serverLockMutex c).Completes history ok) :
    ∃ answer : Option Errno, mutexCalls history = [⟨.mutexLock c, answer⟩] ∧ ok = answer.isNone :=
  mutexCalls_reporting (fun _ _ asked => by obtain rfl := completes_request.mp asked; rfl) completes

theorem mutexCalls_serverUnlockMutex (completes : (serverUnlockMutex c).Completes history ok) :
    ∃ answer : Option Errno, mutexCalls history = [⟨.mutexUnlock c, answer⟩] ∧ ok = answer.isNone :=
  mutexCalls_reporting (fun _ _ asked => by obtain rfl := completes_request.mp asked; rfl) completes

theorem mutexCalls_serverLockMutexOf (completes : (serverLockMutexOf c).Completes history ok) :
    ∃ answer : Option Errno, mutexCalls history = [lockEvent answer c] ∧ ok = answer.isNone := by
  cases c with
  | managerClient => exact mutexCalls_serverUnlockMutex completes
  | _ => exact mutexCalls_serverLockMutex completes

theorem mutexCalls_serverUnlockMutexOf (completes : (serverUnlockMutexOf c).Completes history ok) :
    ∃ answer : Option Errno, mutexCalls history = [⟨.mutexUnlock c, answer⟩] ∧
      ok = answer.isNone := by
  cases c <;> exact mutexCalls_serverUnlockMutex completes

def MutexSucceeds : ServerEvent → Prop
  | ⟨.mutexLock _, answer⟩ => answer = none
  | ⟨.mutexUnlock _, answer⟩ => answer = none
  | _ => True

theorem wp_serverLockMutexOf {t : ThreadId} {s : ServerState} :
    machine.wp t (serverLockMutexOf c) (fun history ok s' =>
    SameSlots s s' ∧ ((∀ event ∈ history, MutexSucceeds event) → ok = true)) s := by
  refine wp_and (wp_of_quiet (mutexWrappers_quiet c).1 s)
    (wp_iff_runs.mpr fun history ok s' run succeeds => ?_)
  obtain ⟨answer, calls, rfl⟩ := mutexCalls_serverLockMutexOf run.completes
  have recorded : lockEvent answer c ∈ mutexCalls history := by
    rw [calls]
    exact List.mem_singleton_self _
  have succeeded := succeeds _ (List.mem_filter.mp recorded).1
  cases c <;> exact Option.isNone_iff_eq_none.mpr succeeded

/-- The rest of a critical section: work that leaves the mutexes alone, and the unlock of type
    `c` on every path. -/
inductive Unlocking {α : Type} (c : ClientType) : ServerProgram α → Prop where
  | work {β : Type} {work : ServerProgram β} {rest : β → ServerProgram α}
      (working : work.Calls Call.Ordinary) (unlocks : ∀ result, Unlocking c (rest result)) :
      Unlocking c (work >>= rest)
  | unlock {rest : Bool → ServerProgram α} (ending : ∀ ok, (rest ok).Calls Call.Ordinary) :
      Unlocking c (serverUnlockMutexOf c >>= rest)

/-- A critical section of type `c`, which is not entered if the lock fails. -/
inductive Locking {α : Type} (c : ClientType) : ServerProgram α → Prop where
  | lock {next : Bool → ServerProgram α} (refused : (next false).Calls Call.Ordinary)
      (entered : Unlocking c (next true)) : Locking c (serverLockMutexOf c >>= next)

theorem Unlocking.mutexCalls {p : ServerProgram α} (unlocks : Unlocking c p) {value : α}
    (completes : p.Completes history value) :
    ∃ answer : Option Errno, OsIhw3.mutexCalls history = [⟨.mutexUnlock c, answer⟩] := by
  induction unlocks generalizing history with
  | work working _ ih =>
    obtain ⟨worked, result, later, rfl, work, tail⟩ := completes_bind.mp completes
    obtain ⟨answer, unlockCalls⟩ := ih result tail
    refine ⟨answer, ?_⟩
    rw [mutexCalls_append, mutexCalls_of_ordinary work working, List.nil_append, unlockCalls]
  | unlock ending =>
    obtain ⟨unlocking, ok, later, rfl, unlocked, tail⟩ := completes_bind.mp completes
    obtain ⟨answer, unlockCalls, rfl⟩ := mutexCalls_serverUnlockMutexOf unlocked
    refine ⟨answer, ?_⟩
    rw [mutexCalls_append, unlockCalls, mutexCalls_of_ordinary tail (ending _), List.append_nil]

theorem Locking.sectioned {p : ServerProgram α} (locks : Locking c p) {value : α}
    (completes : p.Completes history value) : Sectioned c (mutexCalls history) := by
  obtain ⟨refused, entered⟩ := locks
  obtain ⟨locking, ok, rest, rfl, locked, tail⟩ := completes_bind.mp completes
  obtain ⟨answer, lockCalls, rfl⟩ := mutexCalls_serverLockMutexOf locked
  cases answer with
  | some error =>
    have none := mutexCalls_of_ordinary tail refused
    exact .inl ⟨error, by rw [mutexCalls_append, lockCalls, none, List.append_nil]⟩
  | none =>
    obtain ⟨answer, unlockCalls⟩ := entered.mutexCalls tail
    exact .inr ⟨answer, by rw [mutexCalls_append, lockCalls, unlockCalls, List.singleton_append]⟩

end

inductive MutexOperation where
  | handleNewClient (clientAddr : SockaddrIn) (clientAddrlen : Nat) (clientSockFd : Int)
  | pollFirstStage (pins1To2 : PinsQueue)
  | pollSecondStage (pins1To2 pins2To3 : PinsQueue)
  | pollThirdStage (pins2To3 : PinsQueue)
  | sendShutdownSignal (c : ClientType)

def MutexOperation.program : MutexOperation → ServerProgram Unit
  | .handleNewClient clientAddr clientAddrlen clientSockFd => do
    let _ ← OsIhw3.handleNewClient clientAddr clientAddrlen clientSockFd
  | .pollFirstStage pins1To2 => do let _ ← nonblockingPollWorkersOnTheFirstStage pins1To2
  | .pollSecondStage pins1To2 pins2To3 => do
    let _ ← nonblockingPollWorkersOnTheSecondStage pins1To2 pins2To3
  | .pollThirdStage pins2To3 => do let _ ← nonblockingPollWorkersOnTheThirdStage pins2To3
  | .sendShutdownSignal c => sendShutdownSignalToClients c

/-- The client type of the handshake that a history records: the first `recv` of that size that
    was filled. -/
def typeReceived : List ServerEvent → Option Nat
  | [] => none
  | ⟨.recv _ _, .received bytes⟩ :: rest =>
    if bytes.length = sizeofClientType then some (clientTypeOfBytes bytes) else typeReceived rest
  | _ :: rest => typeReceived rest

/-- The operation is about managers: their shutdown messages, or the registration of one. -/
def MutexOperation.ConcernsManagers (operation : MutexOperation) (history : List ServerEvent) : Prop :=
  match operation with
  | .handleNewClient _ _ _ =>
    (typeReceived history).bind ClientType.ofRaw = some .managerClient
  | .sendShutdownSignal c => c = .managerClient
  | _ => False

section

variable {c : ClientType} {history : List ServerEvent}

theorem sendShutdownSignalToClients_locking (c : ClientType) :
    Locking c (sendShutdownSignalToClients c) := by
  refine .lock True.intro (.work (ordinary_of_inner (sendShutdownSignalToAllInArrImpl_inner c)) fun _ => ?_)
  exact .work (calls_make True.intro) fun _ => .unlock fun _ => True.intro

theorem registerClient_locking (c : ClientType) (clientAddr : SockaddrIn) (clientSockFd : Int) :
    Locking c (registerClient c clientAddr clientSockFd) := by
  refine .lock True.intro (.work (ordinary_of_inner (insertNewClientIntoArrays_inner _ _ _)) fun _ => ?_)
  refine .unlock fun ok => ?_
  cases ok <;> exact True.intro

def PollLocking {α : Type} (c : ClientType) (p : ServerProgram α) : Prop :=
  ∃ next, p = loadArrSize c >>= next ∧ ∀ size, (∃ value, next size = pure value) ∨ Locking c (next size)

theorem pollFirstStage_locking (pins : PinsQueue) :
    PollLocking .firstStageWorkerClient (nonblockingPollWorkersOnTheFirstStage pins) := by
  refine ⟨_, rfl, fun size => ?_⟩
  split
  · exact .inl ⟨_, rfl⟩
  · refine .inr (.lock True.intro (.work (ordinary_of_inner (pollWorkers_inner _ _)) fun _ => ?_))
    refine .unlock fun ok => ?_
    cases ok <;> exact True.intro

theorem pollSecondStage_locking (pins1To2 pins2To3 : PinsQueue) :
    PollLocking .secondStageWorkerClient
      (nonblockingPollWorkersOnTheSecondStage pins1To2 pins2To3) := by
  refine ⟨_, rfl, fun size => ?_⟩
  split
  · exact .inl ⟨_, rfl⟩
  · refine .inr (.lock True.intro (.work (ordinary_of_inner (sendPinsToWorkers_inner _ _)) fun (res, _) => ?_))
    cases res with
    | false =>
      refine .unlock fun ok => ?_
      cases ok <;> exact True.intro
    | true =>
      refine .work (ordinary_of_inner (pollWorkers_inner _ _)) fun _ => .unlock fun ok => ?_
      cases ok <;> exact True.intro

theorem pollThirdStage_locking (pins : PinsQueue) :
    PollLocking .thirdStageWorkerClient (nonblockingPollWorkersOnTheThirdStage pins) := by
  refine ⟨_, rfl, fun size => ?_⟩
  split
  · exact .inl ⟨_, rfl⟩
  · refine .inr (.lock True.intro (.work (ordinary_of_inner (sendPinsToWorkers_inner _ _)) fun _ => ?_))
    refine .unlock fun ok => ?_
    cases ok <;> exact True.intro

theorem PollLocking.sectioned {α : Type} {p : ServerProgram α} (locks : PollLocking c p) {value : α}
    (completes : p.Completes history value) :
    mutexCalls history = [] ∨ Sectioned c (mutexCalls history) := by
  obtain ⟨next, rfl, cases⟩ := locks
  obtain ⟨loading, size, rest, rfl, loaded, tail⟩ := completes_bind.mp completes
  obtain rfl := completes_request.mp loaded
  rcases cases size with ⟨result, returned⟩ | locking
  · rw [returned] at tail
    obtain ⟨rfl, -⟩ := completes_pure.mp tail
    exact .inl rfl
  · have sectioned := locking.sectioned tail
    exact .inr sectioned

/-- The type that a try of `receive_client_type` and then `later` record. -/
def typeAfterTry (later : List ServerEvent) : LoopFlow Unit (List UInt8) → Option Nat
  | .exit bytes => some (clientTypeOfBytes bytes)
  | .next () => typeReceived later

theorem typeReceived_of_try {clientSockFd : Int} {flow : LoopFlow Unit (List UInt8)}
    (completes : Program.Completes (do
      match ← recv clientSockFd sizeofClientType with
      | .received bytes =>
        if bytes.length = sizeofClientType then return .exit bytes else return .next ()
      | .failed _ => return .next ()) history flow) (later : List ServerEvent) :
    typeReceived (history ++ later) = typeAfterTry later flow := by
  obtain ⟨receiving, answer, rest, rfl, received, tail⟩ := completes_bind.mp completes
  obtain rfl := completes_request.mp received
  cases answer with
  | failed error =>
    obtain ⟨rfl, rfl⟩ := completes_pure.mp tail
    rfl
  | received bytes =>
    by_cases full : bytes.length = sizeofClientType
    · simp only [full, if_true] at tail
      obtain ⟨rfl, rfl⟩ := completes_pure.mp tail
      simp [typeReceived, typeAfterTry, full]
    · simp only [full, if_false] at tail
      obtain ⟨rfl, rfl⟩ := completes_pure.mp tail
      simp [typeReceived, typeAfterTry, full]

theorem typeReceived_of_receiveClientType {clientSockFd : Int} {type : Option Nat}
    (completes : (receiveClientType clientSockFd).Completes history type) (later : List ServerEvent) :
    typeReceived (history ++ later) = type.or (typeReceived later) := by
  obtain ⟨receiving, received, rest, rfl, tries, tail⟩ := completes_bind.mp completes
  have tried : ∀ later, typeReceived (receiving ++ later) = typeAfterTry later received :=
    @completes_forFrom _ _ _ _ _ (fun _ history flow =>
        ∀ later, typeReceived (history ++ later) = typeAfterTry later flow)
      (fun _ _ => rfl) (fun _ _ _ _ pass => typeReceived_of_try pass)
      (fun _ _ _ _ rest _ pass ih later => by
        rw [List.append_assoc, typeReceived_of_try pass (rest ++ later)]
        exact ih later) _ _ _ _ _ tries
  rw [List.append_assoc, tried]
  rcases received with ⟨⟨⟩⟩ | bytes
  · obtain ⟨printing, _, rest, rfl, printed, ending⟩ := completes_bind.mp tail
    obtain rfl := completes_request.mp printed
    obtain ⟨rfl, rfl⟩ := completes_pure.mp ending
    rfl
  · obtain ⟨rfl, rfl⟩ := completes_pure.mp tail
    rfl

theorem handleClientOfType_sectioned {clientAddr : SockaddrIn} {clientSockFd : Int} {value : Bool}
    (completes : (handleClientOfType c clientAddr clientSockFd).Completes history value) :
    Sectioned c (mutexCalls history) := by
  obtain ⟨registering, registered, rest, rfl, register, tail⟩ := completes_bind.mp completes
  have sectioned := (registerClient_locking c clientAddr clientSockFd).sectioned register
  have afterwards : mutexCalls rest = [] := by
    refine mutexCalls_of_ordinary tail ?_
    repeat' first
      | exact True.intro
      | exact calls_make True.intro
      | refine calls_bind ?_ fun _ => ?_
      | split
  rwa [mutexCalls_append, afterwards, List.append_nil]

theorem typeReceived_of_plain (plain : ∀ event ∈ history, event.1.Plain)
    (later : List ServerEvent) : typeReceived (history ++ later) = typeReceived later := by
  induction history with
  | nil => rfl
  | cons event rest ih =>
    have first := plain event (List.mem_cons_self ..)
    have others := ih fun event member => plain event (List.mem_cons_of_mem _ member)
    obtain ⟨call, answer⟩ := event
    cases call <;> first | exact others | exact first.elim

theorem unregistered_of_plain {α : Type} {p : ServerProgram α} {value : α}
    (completes : p.Completes history value) (plain : p.Calls Call.Plain) :
    typeReceived history = none ∧ mutexCalls history = [] := by
  refine ⟨?_, mutexCalls_of_ordinary completes (plain.mono fun _ => Call.Plain.ordinary)⟩
  have none := typeReceived_of_plain (Path.calls completes plain) []
  rwa [List.append_nil] at none

def Registers (history : List ServerEvent) : Prop :=
  ((typeReceived history).bind ClientType.ofRaw = none ∧ mutexCalls history = []) ∨
    ∃ c, (typeReceived history).bind ClientType.ofRaw = some c ∧ Sectioned c (mutexCalls history)

theorem registers_of_plain {α : Type} {p : ServerProgram α} {value : α}
    (completes : p.Completes history value) (plain : p.Calls Call.Plain) : Registers history := by
  obtain ⟨noType, noMutex⟩ := unregistered_of_plain completes plain
  exact .inl ⟨by rw [noType]; rfl, noMutex⟩

theorem handleNewClient_registers {clientAddr : SockaddrIn} {clientAddrlen : Nat}
    {clientSockFd : Int} {value : Bool}
    (completes : (handleNewClient clientAddr clientAddrlen clientSockFd).Completes history value) :
    Registers history := by
  unfold handleNewClient at completes
  have warns : ∀ (warning : ServerProgram Unit) (result : Bool), warning.Calls Call.Plain →
      (warning >>= fun _ => (pure result : ServerProgram Bool)).Calls Call.Plain :=
    fun _ _ plain => calls_bind plain fun _ => True.intro
  split at completes
  · exact registers_of_plain completes (warns _ _ (calls_make True.intro))
  obtain ⟨keeping, keepAlive, rest, rfl, kept, tail⟩ := completes_bind.mp completes
  obtain rfl := completes_request.mp kept
  have afterKeepAlive : Registers rest := by
    split at tail
    · exact registers_of_plain tail (warns _ _ (calls_make True.intro))
    obtain ⟨idling, keepIdle, rest, rfl, idled, tail'⟩ := completes_bind.mp tail
    obtain rfl := completes_request.mp idled
    have afterKeepIdle : Registers rest := by
      split at tail'
      · exact registers_of_plain tail' (warns _ _ (calls_make True.intro))
      obtain ⟨receiving, type, rest, rfl, received, ending⟩ := completes_bind.mp tail'
      have noMutex := mutexCalls_of_ordinary received (ordinary_of_inner (receiveClientType_inner _))
      have typeIs := typeReceived_of_receiveClientType received rest
      unfold Registers
      rw [typeIs, mutexCalls_append, noMutex, List.nil_append]
      cases type with
      | none =>
        obtain ⟨noType, noMutex⟩ := unregistered_of_plain ending (warns _ _ (calls_make True.intro))
        exact .inl ⟨by rw [noType]; rfl, noMutex⟩
      | some raw =>
        cases known : ClientType.ofRaw raw with
        | none =>
          simp only [known] at ending
          obtain ⟨-, noMutex⟩ := unregistered_of_plain ending (warns _ _ (calls_make True.intro))
          exact .inl ⟨known, noMutex⟩
        | some c =>
          simp only [known] at ending
          exact .inr ⟨c, known, handleClientOfType_sectioned ending⟩
    exact afterKeepIdle
  exact afterKeepAlive

end

theorem mutexCalls_bracketed_iff {operation : MutexOperation} {history : List ServerEvent}
    (completes : operation.program.Completes history ()) :
    Bracketed (mutexCalls history) ↔ ¬ operation.ConcernsManagers history := by
  have worker : ∀ c, c ≠ .managerClient → mutexCalls history = [] ∨ Sectioned c (mutexCalls history) →
      Bracketed (mutexCalls history) := fun c other mutexes =>
    mutexes.elim .inl fun sectioned => sectioned.bracketed_iff.mpr other
  cases operation with
  | handleNewClient clientAddr clientAddrlen clientSockFd =>
    obtain ⟨handling, _, rest, rfl, handled, tail⟩ := completes_bind.mp completes
    obtain ⟨rfl, -⟩ := completes_pure.mp tail
    rw [List.append_nil, MutexOperation.ConcernsManagers]
    rcases handleNewClient_registers handled with ⟨unknown, none⟩ | ⟨c, known, sectioned⟩
    · exact iff_of_true (.inl none) (by simp [unknown])
    · rw [sectioned.bracketed_iff, known, Option.some.injEq]
  | pollFirstStage pins1To2 =>
    obtain ⟨polling, _, rest, rfl, polled, tail⟩ := completes_bind.mp completes
    obtain ⟨rfl, -⟩ := completes_pure.mp tail
    rw [List.append_nil] at worker ⊢
    exact iff_of_true (worker _ (by decide) ((pollFirstStage_locking _).sectioned polled)) id
  | pollSecondStage pins1To2 pins2To3 =>
    obtain ⟨polling, _, rest, rfl, polled, tail⟩ := completes_bind.mp completes
    obtain ⟨rfl, -⟩ := completes_pure.mp tail
    rw [List.append_nil] at worker ⊢
    exact iff_of_true (worker _ (by decide) ((pollSecondStage_locking _ _).sectioned polled)) id
  | pollThirdStage pins2To3 =>
    obtain ⟨polling, _, rest, rfl, polled, tail⟩ := completes_bind.mp completes
    obtain ⟨rfl, -⟩ := completes_pure.mp tail
    rw [List.append_nil] at worker ⊢
    exact iff_of_true (worker _ (by decide) ((pollThirdStage_locking _).sectioned polled)) id
  | sendShutdownSignal c =>
    exact ((sendShutdownSignalToClients_locking c).sectioned completes).bracketed_iff

end ArchCompSystems.OsIhw3
