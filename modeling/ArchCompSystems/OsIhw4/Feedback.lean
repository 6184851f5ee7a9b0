import ArchCompSystems.OsIhw4.Provenance

namespace ArchCompSystems.OsIhw4

open Library Library.Program

def isSend : NetEvent → Bool
  | ⟨.sendto _, _⟩ => true
  | _ => false

def isPost : NetEvent → Bool
  | ⟨.queue .postAdded, _⟩ => true
  | _ => false

def isWait : NetEvent → Bool
  | ⟨.queue .waitAdded, _⟩ => true
  | _ => false

def isForeign : NetEvent → Bool
  | ⟨.recvfrom, .received bytes _ _⟩ => (UDPMessage.ofBytes bytes).senderType ≠ componentTypeServer
  | _ => false

def sends (history : List NetEvent) : Nat := history.countP isSend

def posts (history : List NetEvent) : Nat := history.countP isPost

def waits (history : List NetEvent) : Nat := history.countP isWait

def foreign (history : List NetEvent) : Nat := history.countP isForeign

def Credit (k : Nat) (history : List NetEvent) : Prop := sends history + posts history + k ≤ 5 * foreign history

section

variable {k : Nat} {history : List NetEvent} {event : NetEvent}

theorem sends_concat : sends (history ++ [event]) = sends history + if isSend event then 1 else 0 := by
  rw [sends, List.countP_append, List.countP_singleton, sends]

theorem posts_concat : posts (history ++ [event]) = posts history + if isPost event then 1 else 0 := by
  rw [posts, List.countP_append, List.countP_singleton, posts]

theorem waits_concat : waits (history ++ [event]) = waits history + if isWait event then 1 else 0 := by
  rw [waits, List.countP_append, List.countP_singleton, waits]

theorem foreign_concat : foreign (history ++ [event]) = foreign history + if isForeign event then 1 else 0 := by
  rw [foreign, List.countP_append, List.countP_singleton, foreign]

theorem Credit.less {l : Nat} (credit : Credit k history) (le : l ≤ k) : Credit l history := by
  unfold Credit at *
  omega

theorem Credit.free (credit : Credit k history) (noSend : isSend event = false) (noPost : isPost event = false) :
    Credit k (history ++ [event]) := by
  unfold Credit at *
  rw [sends_concat, posts_concat, foreign_concat, noSend, noPost]
  simp only [Bool.false_eq_true, if_false]
  omega

theorem Credit.pay (credit : Credit (k + 1) history) (single : isSend event = false ∨ isPost event = false) :
    Credit k (history ++ [event]) := by
  unfold Credit at *
  rw [sends_concat, posts_concat, foreign_concat]
  rcases single with no | no <;> rw [no] <;> simp only [Bool.false_eq_true, if_false] <;> split <;> omega

theorem Credit.earn (credit : Credit k history) (isForeign : isForeign event = true) (noSend : isSend event = false)
    (noPost : isPost event = false) : Credit (k + 5) (history ++ [event]) := by
  unfold Credit at *
  rw [sends_concat, posts_concat, foreign_concat, isForeign, noSend, noPost]
  simp only [Bool.false_eq_true, if_false, if_true]
  omega

end

def FeedAllowed (p : Process) (history : List NetEvent) : Call → Prop
  | .sendto _ => (p = .server .workersPoller → Credit 1 history) ∧ (p = .server .logsSender → sends history < waits history)
  | .queue .postAdded => p = .server .workersPoller ∧ Credit 1 history
  | .queue .waitAdded => p = .server .logsSender
  | _ => True

def feedMonitor (p : Process) : Monitor Call Call.Answer (List NetEvent) := .recording (FeedAllowed p) fun _ _ => True

def Call.isUncounted : Call → Prop
  | .sendto _ | .queue .postAdded | .queue .waitAdded => False
  | _ => True

theorem uncounted_event {c : Call} (uncounted : c.isUncounted) (answer : c.Answer) :
    isSend ⟨c, answer⟩ = false ∧ isPost ⟨c, answer⟩ = false ∧ isWait ⟨c, answer⟩ = false := by
  cases c with
  | sendto bytes => exact uncounted.elim
  | queue c => cases c <;> first | exact uncounted.elim | exact ⟨rfl, rfl, rfl⟩
  | _ => exact ⟨rfl, rfl, rfl⟩

theorem feedAllowed_of_isUncounted {p : Process} {history : List NetEvent} {c : Call} (uncounted : c.isUncounted) :
    FeedAllowed p history c := by
  cases c with
  | sendto bytes => exact uncounted.elim
  | queue c => cases c <;> first | exact uncounted.elim | exact True.intro
  | _ => exact True.intro

section

variable {k : Nat} {history : List NetEvent}

def Spends {α : Type} (cost : Nat) (program : NetProgram α) : Prop :=
  ∀ k history, Credit (k + cost) history →
    (feedMonitor (.server .workersPoller)).Obeys (fun _ => Credit k) program history

theorem spends_of_isUncounted {α : Type} {program : NetProgram α} (calls : program.Calls Call.isUncounted) :
    Spends 0 program := fun k history credit => by
  refine Monitor.obeys_of_invariant (fun before c uncounted credit => ?_) calls credit
  refine ⟨feedAllowed_of_isUncounted uncounted, fun answer _ => ?_⟩
  obtain ⟨noSend, noPost, -⟩ := uncounted_event uncounted answer
  exact credit.free noSend noPost

theorem Spends.bind {α β : Type} {cost later : Nat} {program : NetProgram α} {f : α → NetProgram β}
    (first : Spends cost program) (rest : ∀ value, Spends later (f value)) : Spends (later + cost) (program >>= f) := by
  intro k history credit
  refine Monitor.obeys_bind.mpr (Monitor.obeys_mono (fun value after credit => rest value k after credit) ?_)
  exact first (k + later) history (credit.less (by omega))

theorem Spends.after {α β : Type} {cost : Nat} {program : NetProgram α} {f : α → NetProgram β}
    (first : Spends 0 program) (rest : ∀ value, Spends cost (f value)) : Spends cost (program >>= f) := first.bind rest

theorem Spends.more {α : Type} {cost more : Nat} {program : NetProgram α} (spends : Spends cost program)
    (le : cost ≤ more) : Spends more program := fun k history credit => spends k history (credit.less (by omega))

theorem sendMessage_spends (message : UDPMessage) : Spends 1 (sendMessage message) := fun k history credit =>
  ⟨⟨fun _ => credit.less (by omega), nofun⟩, fun _ _ => credit.pay (.inr rfl)⟩

theorem onQueue_bind {α β : Type} (program : BufferProgram OsIhw3.ServerLog α) (f : α → BufferProgram OsIhw3.ServerLog β) :
    onQueue (program >>= f) = onQueue program >>= fun value => onQueue (f value) := by
  induction program with
  | done value => rfl
  | call c next ih =>
    simp only [call_bind, onQueue]
    congr 1
    funext answer
    exact ih answer

theorem queueCall_spends (c : BufferCall OsIhw3.ServerLog) (uncounted : (Call.queue c).isUncounted) :
    Spends 0 (onQueue c.make) := spends_of_isUncounted ⟨uncounted, fun _ => True.intro⟩

theorem postAdded_spends : Spends 1 (onQueue BufferCall.postAdded.make) := fun k history credit =>
  ⟨⟨rfl, credit.less (by omega)⟩, fun _ _ => credit.pay (.inl rfl)⟩

theorem logsQueueAssert_spends (holds : Bool) (assertion : String) :
    Spends 0 (onQueue (OsIhw3.logsQueueAssert holds assertion)) := by
  refine spends_of_isUncounted ?_
  cases holds with
  | true => exact True.intro
  | false => exact ⟨True.intro, fun answer => answer.elim⟩

theorem enqueue_spends (log : OsIhw3.ServerLog) :
    Spends 1 (onQueue (OsIhw3.serverLogsQueueNonblockingEnqueue .osIhw4 log)) := by
  have nothing : ∀ {α : Type} (value : α), Spends 0 (onQueue (pure value)) := fun value => spends_of_isUncounted True.intro
  simp only [OsIhw3.serverLogsQueueNonblockingEnqueue, onQueue_bind]
  refine (queueCall_spends .tryWaitFree True.intro).after fun reserved => ?_
  cases reserved with
  | false => exact (nothing false).more (Nat.zero_le 1)
  | true =>
    simp only [Bool.not_true, Bool.false_eq_true, if_false, onQueue_bind]
    refine (queueCall_spends .tryLock True.intro).after fun locked => ?_
    cases locked with
    | false =>
      simp only [Bool.not_false, if_true, onQueue_bind]
      exact (queueCall_spends .postFree True.intro).after fun _ => (nothing false).more (Nat.zero_le 1)
    | true =>
      simp only [Bool.not_true, Bool.false_eq_true, if_false, onQueue_bind]
      refine (queueCall_spends .loadWriteIndex True.intro).after fun writeIndex => ?_
      refine (queueCall_spends (.storeCell _ _) True.intro).after fun _ => ?_
      refine (queueCall_spends (.storeWriteIndex _) True.intro).after fun _ => ?_
      refine (queueCall_spends .loadSize True.intro).after fun size => (logsQueueAssert_spends _ _).after fun _ => ?_
      refine (queueCall_spends .loadSize True.intro).after fun size => ?_
      refine (queueCall_spends (.storeSize _) True.intro).after fun _ => postAdded_spends.bind fun _ => ?_
      exact (queueCall_spends .unlock True.intro).after fun _ => nothing true

theorem assert_spends (holds : Bool) (assertion : String) : Spends 0 (assert holds assertion) :=
  spends_of_isUncounted (calls_assert (fun _ => True.intro) holds assertion)

theorem handleLog_spends (text : String) : Spends 1 (handleLog text) := by
  unfold handleLog nonblockingEnqueueLog
  exact (assert_spends _ _).after fun _ => (assert_spends _ _).after fun _ => enqueue_spends _

theorem pure_spends {α : Type} (value : α) : Spends 0 (pure value : NetProgram α) := spends_of_isUncounted True.intro

theorem serverHandlePinTransferring_spends (message : UDPMessage) (info : ClientMetaInfo) :
    Spends 3 (serverHandlePinTransferring message info) := by
  have forwards : ∀ text pinMessage, Spends 2 (handleLog text >>= fun _ => sendMessage pinMessage) := fun text pinMessage =>
    (handleLog_spends text).bind fun _ => sendMessage_spends pinMessage
  unfold serverHandlePinTransferring
  split
  · exact (pure_spends true).more (Nat.zero_le 3)
  · refine (handleLog_spends _).bind fun _ => ?_
    split
    · exact forwards _ _
    · split
      · exact forwards _ _
      · have logged : Spends 1 (serverHandleInvalidPinSource message.senderType message.pin info) :=
          ((handleLog_spends _).bind fun _ => pure_spends ()).more (Nat.le_refl 1)
        exact (logged.bind fun _ => pure_spends true).more (by decide)

theorem executeCommand_spends (cmd : ServerCommand) : Spends 1 (executeCommand cmd) := by
  have alarmed : Spends 0 (Call.alarm 1).make := spends_of_isUncounted ⟨True.intro, fun _ => True.intro⟩
  unfold executeCommand
  split
  · exact (alarmed.after fun _ => pure_spends _).more (Nat.zero_le 1)
  · split
    · exact (sendMessage_spends _).bind fun _ => pure_spends _
    · exact (pure_spends _).more (Nat.zero_le 1)

theorem serverHandlerManagerCommand_spends (message : UDPMessage) (info : ClientMetaInfo) :
    Spends 5 (serverHandlerManagerCommand message info) :=
  (handleLog_spends _).bind fun _ => (executeCommand_spends _).bind fun _ => (handleLog_spends _).bind fun _ =>
    (sendMessage_spends _).bind fun _ => (handleLog_spends _).bind fun _ => pure_spends _

theorem handleMessage_spends (message : UDPMessage) (info : ClientMetaInfo) : Spends 5 (handleMessage message info) := by
  unfold handleMessage
  split
  · exact (serverHandlePinTransferring_spends message info).more (by decide)
  · split
    · exact (handleLog_spends _).more (by decide)
    · split
      · exact serverHandlerManagerCommand_spends message info
      · exact (handleLog_spends _).more (by decide)

/-- A poll leaves no less credit than it found: a datagram that is not the server's own pays for its
    handling, and the server's own are not handled. -/
theorem nonblockingPoll_spends : Spends 0 nonblockingPoll := by
  intro k history credit
  refine Monitor.obeys_call True.intro fun answer _ => ?_
  cases answer with
  | failed => exact credit.free rfl rfl
  | received bytes addressSize address =>
    have kept : Credit k (history ++ [⟨.recvfrom, .received bytes addressSize address⟩]) := credit.free rfl rfl
    dsimp only
    split
    · exact kept
    · split
      · exact kept
      · rename_i sockAddr _ other
        have paid : Credit (k + 5) (history ++ [⟨.recvfrom, .received bytes addressSize address⟩]) :=
          credit.earn (decide_eq_true other) rfl rfl
        have asked : Spends 0 (fillClientMetainfo sockAddr) := spends_of_isUncounted
          ((fillClientMetainfo_calls sockAddr).mono fun c asking => by
            cases c <;> first | exact True.intro | exact asking.elim)
        exact (asked.after fun info => handleMessage_spends _ info) k _ paid

end

def Taken (k : Nat) (history : List NetEvent) : Prop := sends history + k ≤ waits history

theorem Taken.free {k : Nat} {history : List NetEvent} {event : NetEvent} (taken : Taken k history)
    (noSend : isSend event = false) : Taken k (history ++ [event]) := by
  unfold Taken at *
  rw [sends_concat, waits_concat, noSend]
  simp only [Bool.false_eq_true, if_false]
  omega

theorem Taken.keeps {p : Process} {k : Nat} (history : List NetEvent) (c : Call) (uncounted : c.isUncounted)
    (taken : Taken k history) : (feedMonitor p).allowed history c ∧
      ∀ answer, (feedMonitor p).possible history c answer → Taken k ((feedMonitor p).after history c answer) :=
  ⟨feedAllowed_of_isUncounted uncounted, fun answer _ => taken.free (uncounted_event uncounted answer).1⟩

theorem Call.isUncounted_of_isPausing (c : Call) (pausing : c.isPausing) : c.isUncounted := by
  cases c <;> first | exact True.intro | exact pausing.elim

theorem dequeueLog_obeys {k : Nat} {history : List NetEvent} (taken : Taken k history) :
    (feedMonitor (.server .logsSender)).Obeys (fun _ => Taken (k + 1)) dequeueLog history := by
  unfold dequeueLog OsIhw3.serverLogsQueueDequeue
  rw [onQueue_bind]
  have waited : Taken (k + 1) (history ++ [⟨.queue .waitAdded, ()⟩]) := by
    unfold Taken at *
    rw [sends_concat, waits_concat]
    simp only [isSend, isWait, Bool.false_eq_true, if_false, if_true]
    omega
  refine Monitor.obeys_bind.mpr ⟨rfl, fun _ _ => ?_⟩
  show (feedMonitor (.server .logsSender)).Obeys (fun _ => Taken (k + 1)) (onQueue _) (history ++ [⟨.queue .waitAdded, ()⟩])
  refine Monitor.obeys_of_invariant Taken.keeps (onQueue_calls ?_) waited
  refine calls_bind ((calls_request _ _).mpr True.intro) fun _ => calls_bind ((calls_request _ _).mpr True.intro) fun _ => ?_
  refine calls_bind ((calls_request _ _).mpr True.intro) fun _ => calls_bind ((calls_request _ _).mpr True.intro) fun _ => ?_
  refine calls_bind ((calls_request _ _).mpr True.intro) fun size => calls_bind ?_ fun _ => ?_
  · unfold OsIhw3.logsQueueAssert
    split
    · exact True.intro
    · exact ⟨True.intro, fun answer => answer.elim⟩
  refine calls_bind ((calls_request _ _).mpr True.intro) fun _ => calls_bind ((calls_request _ _).mpr True.intro) fun _ => ?_
  refine calls_bind ((calls_request _ _).mpr True.intro) fun _ => calls_bind ((calls_request _ _).mpr True.intro) fun _ => ?_
  exact True.intro

theorem sendServerLog_obeys {k : Nat} {history : List NetEvent} (log : OsIhw3.ServerLog) (taken : Taken (k + 1) history) :
    (feedMonitor (.server .logsSender)).Obeys (fun _ => Taken k) (sendServerLog log) history := by
  refine ⟨⟨nofun, fun _ => by unfold Taken at taken; omega⟩, fun answer _ => ?_⟩
  show Taken k (history ++ [⟨.sendto _, answer⟩])
  unfold Taken at *
  rw [sends_concat, waits_concat]
  simp only [isSend, isWait, Bool.false_eq_true, if_false, if_true]
  omega

def FeedKept : Process → List NetEvent → Prop
  | .server .workersPoller => Credit 0
  | .server .logsSender => Taken 0
  | _ => fun _ => True

theorem obeys_of_others {α : Type} {program : NetProgram α} {p : Process} {history : List NetEvent}
    (poller : p ≠ .server .workersPoller) (sender : p ≠ .server .logsSender)
    (calls : program.Calls fun c => ∀ c', c ≠ .queue c') : (feedMonitor p).Obeys (fun _ _ => True) program history := by
  refine Monitor.obeys_of_invariant (fun history c notQueue _ => ⟨?_, fun _ _ => True.intro⟩) calls True.intro
  cases c with
  | sendto bytes => exact ⟨fun same => absurd same poller, fun same => absurd same sender⟩
  | queue c => exact absurd rfl (notQueue c)
  | _ => exact True.intro

theorem serverProgram_feeds (rounds : Nat) (thread : ServerThread) :
    (feedMonitor (.server thread)).Obeys (fun _ => FeedKept (.server thread)) (serverProgram rounds thread) [] := by
  cases thread with
  | workersPoller =>
    refine obeys_whileRunning rounds (Credit 0) (Nat.le_refl 0) (fun history c pausing credit => ?_) fun history credit => ?_
    · have uncounted := Call.isUncounted_of_isPausing c pausing
      exact ⟨feedAllowed_of_isUncounted uncounted, fun answer _ =>
        credit.free (uncounted_event uncounted answer).1 (uncounted_event uncounted answer).2.1⟩
    · exact nonblockingPoll_spends 0 history credit
  | logsSender =>
    refine obeys_whileRunning rounds (Taken 0) (Nat.le_refl 0) (fun history c pausing taken => ?_) fun history taken => ?_
    · exact taken.keeps history c (Call.isUncounted_of_isPausing c pausing)
    · refine Monitor.obeys_bind.mpr (Monitor.obeys_mono ?_ (dequeueLog_obeys taken))
      exact fun log after taken => sendServerLog_obeys log taken
  | main =>
    refine obeys_of_others nofun nofun ?_
    refine calls_bind ((calls_request _ _).mpr nofun) fun _ => calls_bind ((calls_request _ _).mpr nofun) fun _ => ?_
    exact calls_bind ((calls_request _ _).mpr nofun) fun _ => True.intro

theorem processProgram_feeds (rounds : Nat) (p : Process) :
    (feedMonitor p).Obeys (fun _ => FeedKept p) (processProgram rounds p) [] := by
  cases p with
  | server thread => exact serverProgram_feeds rounds thread
  | client kind i =>
    have others : ∀ {program : NetProgram ExitCode}, (program.Calls fun c => ∀ c', c ≠ .queue c') →
        (feedMonitor (.client kind i)).Obeys (fun _ _ => True) (program >>= fun _ => pure ()) [] := fun calls =>
      obeys_of_others nofun nofun (calls_bind calls fun _ => True.intro)
    have managing : ∀ c : Call, c.isManaging → ∀ c', c ≠ .queue c' := by
      rintro _ managing c' rfl
      exact managing
    have working : ∀ c : Call, c.isWorking → ∀ c', c ≠ .queue c' := fun c working =>
      managing c (isManaging_of_isWorking c working)
    cases kind with
    | firstWorker => exact others ((firstWorker_working rounds).mono working)
    | secondWorker => exact others ((secondWorker_working rounds).mono working)
    | thirdWorker => exact others ((thirdWorker_working rounds).mono working)
    | logsCollector => exact others ((logsCollector_working rounds).mono working)
    | manager => exact others ((manager_managing rounds).mono managing)

/-- The datagrams that the server's two threads have sent, or tried to; the main thread sends only the
    shutdown message to all, when both have ended. -/
def datagramsSent {ν : Type} (pool : Pool Process Call Call.Answer (SystemState ν)) : Nat :=
  sends (pool.history (.server .workersPoller)) + sends (pool.history (.server .logsSender))

def foreignDatagramsReceived {ν : Type} (pool : Pool Process Call Call.Answer (SystemState ν)) : Nat :=
  foreign (pool.history (.server .workersPoller))

def LogsAccounted {ν : Type} (s : SystemState ν) (histories : Process → List NetEvent) : Prop :=
  s.hosts.logs.added + waits (histories (.server .logsSender)) = posts (histories (.server .workersPoller))

theorem added_of_perform {c : BufferCall OsIhw3.ServerLog} {answer : c.Answer} {s s' : BufferState OsIhw3.ServerLog}
    (performed : s.perform c answer = some s') :
    s'.added + (if isWait ⟨.queue c, answer⟩ then 1 else 0) = s.added + (if isPost ⟨.queue c, answer⟩ then 1 else 0) := by
  cases c with
  | waitAdded =>
    simp only [BufferState.perform] at performed
    split at performed
    · obtain rfl := Option.some.inj performed
      simp only [isWait, isPost, if_true, Bool.false_eq_true, if_false]
      omega
    · cases performed
  | waitFree | lock | loadReadIndex | loadWriteIndex | loadSize | loadCell i =>
    simp only [BufferState.perform] at performed
    split at performed
    · obtain rfl := Option.some.inj performed
      rfl
    · cases performed
  | tryWaitFree | tryLock =>
    simp only [BufferState.perform] at performed
    split at performed
    · split at performed
      · obtain rfl := Option.some.inj performed
        rfl
      · cases performed
    · obtain rfl := Option.some.inj performed
      rfl
  | abort assertion => exact answer.elim
  | _ =>
    obtain rfl := Option.some.inj performed
    rfl

theorem logs_of_perform {p : Process} {c : Call} {answer : c.Answer} {s s' : Hosts}
    (performed : s.perform p c answer = some s') :
    s'.logs.added + (if isWait ⟨c, answer⟩ then 1 else 0) = s.logs.added + (if isPost ⟨c, answer⟩ then 1 else 0) := by
  cases c with
  | queue c =>
    obtain ⟨logs, queued, rfl⟩ := Option.map_eq_some_iff.mp performed
    exact added_of_perform queued
  | recv dontWait peek => cases answer <;> obtain rfl := Option.some.inj performed <;> rfl
  | stopAllThreads =>
    cases p with
    | server thread =>
      obtain rfl := Option.some.inj performed
      rfl
    | client kind i => cases performed
  | errno | pthreadJoin thread | checkPinCrookness pin | nextUint minValue maxValue =>
    simp only [Hosts.perform] at performed
    split at performed
    · obtain rfl := Option.some.inj performed
      rfl
    · cases performed
  | _ =>
    obtain rfl := Option.some.inj performed
    rfl

theorem logs_of_cut {p : Process} {c : Call} {s s' : Hosts} (taken : s.cut p c = some s') : s'.logs = s.logs := by
  unfold Hosts.cut at taken
  split at taken
  · cases taken
  · cases taken
  · split at taken
    · obtain rfl := Option.some.inj taken
      rfl
    · cases taken

theorem LogsAccounted.perform {ν : Type} {N : Network ν} {s s' : SystemState ν} {histories : Process → List NetEvent}
    {p : Process} {c : Call} {answer : c.Answer} (accounted : LogsAccounted s histories)
    (allowed : FeedAllowed p (histories p) c) (performed : (systemMachine N).perform p c answer s = some s') :
    LogsAccounted s' (Function.update histories p (histories p ++ [⟨c, answer⟩])) := by
  have moved := logs_of_perform (hosts_of_perform performed)
  have posted : isPost ⟨c, answer⟩ = true → p = .server .workersPoller := fun posts => by
    cases c with
    | queue c => cases c <;> first | exact allowed.1 | cases posts
    | _ => cases posts
  have waited : isWait ⟨c, answer⟩ = true → p = .server .logsSender := fun waits => by
    cases c with
    | queue c => cases c <;> first | exact allowed | cases waits
    | _ => cases waits
  have postsAre : posts (Function.update histories p (histories p ++ [⟨c, answer⟩]) (.server .workersPoller)) =
      posts (histories (.server .workersPoller)) + if isPost ⟨c, answer⟩ then 1 else 0 := by
    by_cases same : Process.server .workersPoller = p
    · subst same
      rw [Function.update_self, posts_concat]
    · rw [Function.update_of_ne same, if_neg fun posts => same (posted posts).symm, Nat.add_zero]
  have waitsAre : waits (Function.update histories p (histories p ++ [⟨c, answer⟩]) (.server .logsSender)) =
      waits (histories (.server .logsSender)) + if isWait ⟨c, answer⟩ then 1 else 0 := by
    by_cases same : Process.server .logsSender = p
    · subst same
      rw [Function.update_self, waits_concat]
    · rw [Function.update_of_ne same, if_neg fun waits => same (waited waits).symm, Nat.add_zero]
  unfold LogsAccounted at *
  rw [postsAre, waitsAre]
  omega

theorem LogsAccounted.cut {ν : Type} {N : Network ν} {s s' : SystemState ν} {histories : Process → List NetEvent}
    {p : Process} {c : Call} (accounted : LogsAccounted s histories) (taken : (systemMachine N).cut p c s = some s') :
    LogsAccounted s' histories := by
  obtain ⟨hosts, stopped, same⟩ := Option.bind_eq_some_iff.mp taken
  cases same
  unfold LogsAccounted at *
  rwa [← logs_of_cut stopped] at accounted

theorem FeedKept.concat {p : Process} {history : List NetEvent} {c : Call} (kept : FeedKept p history)
    (allowed : FeedAllowed p history c) (answer : c.Answer) : FeedKept p (history ++ [⟨c, answer⟩]) := by
  have free : c.isUncounted → FeedKept p (history ++ [⟨c, answer⟩]) := fun uncounted => by
    obtain ⟨noSend, noPost, -⟩ := uncounted_event uncounted answer
    cases p with
    | server thread =>
      cases thread with
      | workersPoller => exact kept.free noSend noPost
      | logsSender => exact kept.free noSend
      | main => exact True.intro
    | client kind i => exact True.intro
  cases c with
  | sendto bytes =>
    cases p with
    | server thread =>
      cases thread with
      | workersPoller => exact (allowed.1 rfl).pay (.inr rfl)
      | logsSender =>
        have less := allowed.2 rfl
        show Taken 0 _
        unfold Taken
        rw [sends_concat, waits_concat]
        simp only [isSend, isWait, Bool.false_eq_true, if_false, if_true]
        omega
      | main => exact True.intro
    | client kind i => exact True.intro
  | queue c =>
    cases c with
    | postAdded =>
      obtain ⟨rfl, credit⟩ := allowed
      exact credit.pay (.inl rfl)
    | waitAdded =>
      have sender : p = .server .logsSender := allowed
      subst sender
      have less : Taken 0 history := kept
      show Taken 0 _
      unfold Taken at *
      rw [sends_concat, waits_concat]
      simp only [isSend, isWait, Bool.false_eq_true, if_false, if_true]
      omega
    | _ => exact free True.intro
  | _ => exact free True.intro

theorem feedKept_of_accepts {p : Process} {before history : List NetEvent}
    (accepts : (feedMonitor p).Accepts before history) (kept : FeedKept p before) : FeedKept p (before ++ history) := by
  induction history generalizing before with
  | nil => rwa [List.append_nil]
  | cons event rest ih =>
    have later : FeedKept p (before ++ [event] ++ rest) := ih accepts.2.2 (kept.concat accepts.1 event.2)
    rwa [List.append_assoc] at later

/-- The server never feeds itself: whatever the network delivers, what it sends is at most five times what
    it receives from others. -/
theorem sends_at_most_five_times {ν : Type} {N : Network ν} {rounds : Nat} {network : ν}
    {pool : Pool Process Call Call.Answer (SystemState ν)}
    (reach : Pool.Reach (systemMachine N) (fun _ _ => True) (systemPool rounds network) pool) :
    datagramsSent pool ≤ 5 * foreignDatagramsReceived pool := by
  have disciplined : pool.Disciplined feedMonitor (fun _ => []) (fun _ _ => True) LogsAccounted := by
    refine Pool.Reach.disciplined ?_ ?_ ⟨fun _ => ?_, fun p => ?_, ?_⟩ reach
    · intro pool p c answer s accounted _ allowed performed
      exact ⟨True.intro, accounted.perform allowed performed⟩
    · intro pool p c s accounted _ taken
      exact ⟨True.intro, accounted.cut taken⟩
    · exact True.intro
    · exact Monitor.obeys_mono (fun _ _ _ => True.intro) (processProgram_feeds rounds p)
    · exact rfl
  have start : ∀ thread, FeedKept (.server thread) [] := fun thread => by
    cases thread <;> first | exact Nat.le_refl 0 | exact True.intro
  have poller : Credit 0 ([] ++ pool.history (.server .workersPoller)) :=
    feedKept_of_accepts (disciplined.accepts _) (start .workersPoller)
  have sender : Taken 0 ([] ++ pool.history (.server .logsSender)) :=
    feedKept_of_accepts (disciplined.accepts _) (start .logsSender)
  have accounted := disciplined.agrees
  have histories : pool.monitored feedMonitor (fun _ => []) = pool.history := by
    funext p
    exact Monitor.run_recording _
  rw [histories] at accounted
  unfold datagramsSent foreignDatagramsReceived
  unfold Credit at poller
  unfold Taken at sender
  unfold LogsAccounted at accounted
  simp only [List.nil_append] at poller sender
  omega

/-- Answers in a run where the newest datagram is received and the queue of logs answers as it stands. -/
def whileLogging : (c : Call) → SystemState (List (List UInt8)) → Option c.Answer
  | .recvfrom, s => s.network.getLast?.map fun bytes => .received bytes sizeofSockaddrIn ⟨0, 0⟩
  | .queue c, s => s.hosts.logs.answer c
  | .getnameinfo _ _, _ => some none
  | .sendto _, _ | .nanosleep, _ | .isRunning _, _ | .bindSocket, _ => some true
  | _, _ => none

def receivesOwnLog : List (Pool.Turn Process Call Call.Answer (SystemState (List (List UInt8)))) :=
  [.go (.client .logsCollector 0) 2 whileLogging, .go (.server .workersPoller) 14 whileLogging,
    .go (.server .logsSender) 12 whileLogging, .go (.server .workersPoller) 4 whileLogging]

theorem own_log_is_not_logged : ∃ pool, AnyDeliveryReach 2 pool ∧
    (datagramsSent pool = 1 ∧ foreignDatagramsReceived pool = 1) ∧ datagramsSent pool ≤ 5 * foreignDatagramsReceived pool := by
  obtain ⟨pool, reach, counted⟩ := @Pool.exists_reach_of_replay _ _ _ _ _ (systemMachine anyDelivery) (fun _ _ => True)
    (systemPool 2 []) (fun _ _ => true) receivesOwnLog
    (fun pool => datagramsSent pool = 1 && foreignDatagramsReceived pool = 1) (fun _ _ _ => True.intro) (by decide +kernel)
  simp only [Bool.and_eq_true, decide_eq_true_eq] at counted
  exact ⟨pool, reach, counted, sends_at_most_five_times reach⟩

end ArchCompSystems.OsIhw4
