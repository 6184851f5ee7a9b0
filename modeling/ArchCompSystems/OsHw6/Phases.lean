import ArchCompSystems.OsHw6.Stopping

namespace ArchCompSystems.OsHw6

open Library Library.Program

/-- `round` is a round of the loop whose test of `is_running` has succeeded, `top true` the start of one
    behind a completed exchange. -/
inductive Phase where
  | opening
  | exchanging
  | announced
  | top (confirmed : Bool)
  | round
  | seen
  | printing (randNum : Int64)
  | clearing
  | storing (randNum : Int64)
  | sending
  | left
  deriving DecidableEq

def Phase.Stores (terminateUsingSignal : Bool) (p : Party) (type : MessageType) : Phase → Prop
  | .opening | .clearing => p = .server ∧ type = .emptyMessage
  | .exchanging => type = p.sent ∨ p = .server ∧ type = .serverGotProcessId
  | .sending => p = .client ∧ type = .newNumber
  | .left => (p = .server → terminateUsingSignal = false) ∧ type ≠ .newNumber ∧ type ≠ .serverGotProcessId
  | _ => False

def Phase.allows (terminateUsingSignal : Bool) (p : Party) (phase : Phase) : Call → Prop
  | .isRunning => phase = .exchanging ∨ phase = .announced ∨ ∃ confirmed, phase = .top confirmed
  | .stopRunning => phase = .round ∧ p = .server
  | .loadType => phase = .exchanging ∨ phase = .announced ∨ phase = .round ∨ phase = .left
  | .storeType type => phase.Stores terminateUsingSignal p type
  | .loadRandNum => phase = .exchanging ∨ phase = .seen ∧ p = .server
  | .storeRandNum randNum => phase = .exchanging ∨ phase = .storing randNum ∧ p = .client
  | .getpid => phase = .exchanging
  | .kill _ => phase = .left
  | .time => phase = .round
  | .random => phase = .round ∧ p = .client
  | .printNumber randNum => phase = .printing randNum ∧ p = .server ∨ phase = .round ∧ p = .client
  | .sleepNanos | .goesOn => True
  | .interrupt _ => False

def Phase.tested (isRunning : Bool) : Phase → Phase
  | .announced => if isRunning then .announced else .top false
  | .top _ => if isRunning then .round else .left
  | phase => phase

def Phase.polled (p : Party) (type : MessageType) : Phase → Phase
  | .announced => if type = .serverGotProcessId then .top true else .announced
  | .round =>
    match p with
    | .server => if type = .newNumber then .seen else if type = .clientShutdown then .round else .top true
    | .client => if type = .serverShutdown then .left else .round
  | phase => phase

def Phase.loaded (randNum : Int64) : Phase → Phase
  | .seen => .printing randNum
  | phase => phase

def Phase.storedNumber : Phase → Phase
  | .storing _ => .sending
  | phase => phase

def Phase.storedType (terminateUsingSignal : Bool) (p : Party) (type : MessageType) : Phase → Phase
  | .opening => if terminateUsingSignal then .exchanging else .top true
  | .exchanging =>
    match p with
    | .server => if type = .serverGotProcessId then .top true else .exchanging
    | .client => .announced
  | .clearing => .top true
  | .sending => .round
  | phase => phase

def Phase.printed : Phase → Phase
  | .printing _ => .clearing
  | phase => phase

def Phase.slept : Phase → Phase
  | .round => .top true
  | phase => phase

def Phase.after (terminateUsingSignal : Bool) (p : Party) (phase : Phase) (call : Call) (answer : call.Answer) : Phase :=
  match call, answer with
  | .isRunning, isRunning => phase.tested isRunning
  | .stopRunning, _ => .top true
  | .loadType, type => phase.polled p type
  | .storeType type, _ => phase.storedType terminateUsingSignal p type
  | .loadRandNum, randNum => phase.loaded randNum
  | .storeRandNum _, _ => phase.storedNumber
  | .printNumber _, _ => phase.printed
  | .random, randNum => .storing randNum
  | .sleepNanos, _ => phase.slept
  | .getpid, _ | .kill _, _ | .time, _ | .interrupt _, _ => phase

def phases (terminateUsingSignal : Bool) (p : Party) : Monitor Call Call.Answer Phase where
  allowed phase call := phase.allows terminateUsingSignal p call
  possible _ _ _ := True
  after phase call answer := phase.after terminateUsingSignal p call answer

def interrupting : Monitor Call Call.Answer Phase where
  allowed _ call := ∃ p, call = .interrupt p
  possible _ _ _ := True
  after phase _ _ := phase

def agentPhases (terminateUsingSignal : Bool) : Agent → Monitor Call Call.Answer Phase
  | .party p => phases terminateUsingSignal p
  | .user => interrupting

def Phase.start (terminateUsingSignal : Bool) : Agent → Phase
  | .party .server => .opening
  | .party .client => if terminateUsingSignal then .exchanging else .top true
  | .user => .left

section

variable {terminateUsingSignal : Bool} {p : Party} {rounds : Nat}

theorem awaitType_exchanging (expected : MessageType) :
    (phases terminateUsingSignal p).Obeys (fun _ phase => phase = .exchanging) (awaitType rounds expected)
      .exchanging := by
  refine Monitor.obeys_loop (fun _ phase => phase = .exchanging) (fun _ => True.intro) rfl ?_
  rintro _ _ rfl
  refine Monitor.obeys_call (.inl rfl) ?_
  rintro (_ | _) -
  · exact rfl
  refine Monitor.obeys_call (.inl rfl) ?_
  intro type _
  split_ifs
  · exact rfl
  · exact Monitor.obeys_call True.intro fun _ _ => rfl

theorem sendProcessId_phases (final : Phase) (reached : Phase.storedType terminateUsingSignal p p.sent .exchanging = final) :
    (phases terminateUsingSignal p).Obeys (fun _ phase => phase = final) (sendProcessId p) .exchanging := by
  refine Monitor.obeys_call rfl fun pid _ => ?_
  refine Monitor.obeys_call (.inl rfl) fun _ _ => ?_
  exact ⟨.inl rfl, fun _ _ => reached⟩

theorem exchangeProcessIdsWithClient_phases :
    (phases terminateUsingSignal .server).Obeys (fun _ phase => phase = .top true)
      (exchangeProcessIdsWithClient rounds) .exchanging := by
  refine Monitor.obeys_bind.mpr (Monitor.obeys_mono ?_ (sendProcessId_phases .exchanging rfl))
  rintro _ _ rfl
  refine Monitor.obeys_bind.mpr (Monitor.obeys_mono ?_ (awaitType_exchanging _))
  rintro _ _ rfl
  refine Monitor.obeys_call (.inl rfl) fun clientId _ => ?_
  exact Monitor.obeys_call (.inr ⟨rfl, rfl⟩) fun _ _ => rfl

theorem awaitType_announced :
    (phases terminateUsingSignal .client).Obeys (fun _ phase => ∃ confirmed, phase = .top confirmed)
      (awaitType rounds .serverGotProcessId) .announced := by
  refine Monitor.obeys_loop (fun _ phase => phase = .announced) (fun _ => True.intro) rfl ?_
  rintro _ _ rfl
  refine Monitor.obeys_call (.inr (.inl rfl)) ?_
  rintro (_ | _) -
  · exact ⟨false, rfl⟩
  refine Monitor.obeys_call (.inr (.inl rfl)) ?_
  intro type _
  show Monitor.Obeys _ _ _ (if type = .serverGotProcessId then Phase.top true else .announced)
  split_ifs
  · exact ⟨true, rfl⟩
  · exact Monitor.obeys_call True.intro fun _ _ => rfl

theorem exchangeProcessIdsWithServer_phases :
    (phases terminateUsingSignal .client).Obeys (fun _ phase => ∃ confirmed, phase = .top confirmed)
      (exchangeProcessIdsWithServer rounds) .exchanging := by
  refine Monitor.obeys_bind.mpr (Monitor.obeys_mono ?_ (awaitType_exchanging _))
  rintro _ _ rfl
  refine Monitor.obeys_call (.inl rfl) fun serverPid _ => ?_
  refine Monitor.obeys_bind.mpr (Monitor.obeys_mono ?_ (sendProcessId_phases .announced rfl))
  rintro _ _ rfl
  exact Monitor.obeys_bind.mpr (Monitor.obeys_mono (fun _ _ confirmed => confirmed) awaitType_announced)

theorem serverRound_phases (clientShutdownedFirst : Bool) :
    (phases terminateUsingSignal .server).Obeys (LoopFlow.Keeps (fun _ phase => phase = .top true)
      fun _ phase => phase = .left) (serverRound clientShutdownedFirst) (.top true) := by
  refine Monitor.obeys_call (.inr (.inr ⟨true, rfl⟩)) ?_
  rintro (_ | _) -
  · exact rfl
  refine Monitor.obeys_call (.inr (.inr (.inl rfl))) ?_
  intro type _
  cases type with
  | newNumber =>
    refine Monitor.obeys_call (.inr ⟨rfl, rfl⟩) fun randNum _ => ?_
    refine Monitor.obeys_call (.inl ⟨rfl, rfl⟩) fun _ _ => ?_
    refine Monitor.obeys_call ⟨rfl, rfl⟩ fun _ _ => ?_
    exact Monitor.obeys_call True.intro fun _ _ => rfl
  | emptyMessage => exact Monitor.obeys_call True.intro fun _ _ => rfl
  | clientShutdown => exact Monitor.obeys_call ⟨rfl, rfl⟩ fun _ _ => rfl
  | _ => exact rfl

theorem awaitRemoval_phases :
    (phases terminateUsingSignal .server).Obeys (fun _ _ => True) awaitRemoval .left := by
  have round : ∀ (phase : Phase), phase = .left → (phases terminateUsingSignal .server).Obeys
      (LoopFlow.Keeps (fun _ phase => phase = .left) fun _ phase => phase = .left) removalRound phase := by
    rintro _ rfl
    refine Monitor.obeys_call (.inr (.inr (.inr rfl))) ?_
    intro type _
    split_ifs
    · exact rfl
    · exact Monitor.obeys_call True.intro fun _ _ => rfl
  have looped := @Monitor.obeys_forFrom_within _ _ _ _ _ (phases terminateUsingSignal .server) .left
    (fun _ _ => removalRound) (fun _ _ phase => phase = .left) (fun _ phase => phase = .left) maxRetries 0 ()
    (fun _ _ phase _ _ => round phase) rfl
  refine Monitor.obeys_bind.mpr (Monitor.obeys_mono ?_ looped)
  intro flow phase kept
  cases flow with
  | exit _ => exact True.intro
  | next _ =>
    obtain rfl := kept
    exact Monitor.obeys_call (.inr (.inr (.inr rfl))) fun _ _ => True.intro

theorem runServer_phases :
    (phases terminateUsingSignal .server).Obeys (fun _ _ => True) (runServer terminateUsingSignal rounds) .opening := by
  refine Monitor.obeys_call ⟨rfl, rfl⟩ fun _ _ => ?_
  have exchanged : (phases terminateUsingSignal .server).Obeys (fun _ phase => phase = .top true)
      (otherProcessId terminateUsingSignal (exchangeProcessIdsWithClient rounds))
      (Phase.storedType terminateUsingSignal .server .emptyMessage .opening) := by
    cases terminateUsingSignal with
    | true => exact exchangeProcessIdsWithClient_phases
    | false => exact rfl
  refine Monitor.obeys_bind.mpr (Monitor.obeys_mono ?_ exchanged)
  rintro clientId _ rfl
  have looped : (phases terminateUsingSignal .server).Obeys (fun _ phase => phase = .left)
      (Program.loop .goesOn rounds false serverRound) (.top true) := by
    refine Monitor.obeys_loop (fun _ phase => phase = .top true) (fun _ => True.intro) rfl ?_
    rintro clientShutdownedFirst _ rfl
    exact serverRound_phases clientShutdownedFirst
  refine Monitor.obeys_bind.mpr (Monitor.obeys_mono ?_ looped)
  rintro clientShutdownedFirst _ rfl
  cases clientShutdownedFirst with
  | true => exact True.intro
  | false =>
    cases terminateUsingSignal with
    | true => exact ⟨rfl, fun _ _ => True.intro⟩
    | false => exact Monitor.obeys_call ⟨fun _ => rfl, nofun, nofun⟩ fun _ _ => awaitRemoval_phases

theorem clientRound_phases (lastNumberSendTime : Int) {confirmed : Bool} :
    (phases terminateUsingSignal .client).Obeys (LoopFlow.Keeps (fun _ phase => ∃ confirmed, phase = .top confirmed)
      fun _ phase => phase = .left) (clientRound lastNumberSendTime) (.top confirmed) := by
  refine Monitor.obeys_call (.inr (.inr ⟨confirmed, rfl⟩)) ?_
  rintro (_ | _) -
  · exact rfl
  refine Monitor.obeys_call (.inr (.inr (.inl rfl))) ?_
  intro type _
  show Monitor.Obeys _ _ _ (if type = .serverShutdown then Phase.left else .round)
  split_ifs
  · exact rfl
  refine Monitor.obeys_call rfl fun timeNow _ => ?_
  split_ifs
  · refine Monitor.obeys_call ⟨rfl, rfl⟩ fun randNum _ => ?_
    refine Monitor.obeys_call (.inr ⟨rfl, rfl⟩) fun _ _ => ?_
    refine Monitor.obeys_call ⟨rfl, rfl⟩ fun _ _ => ?_
    refine Monitor.obeys_call (.inr ⟨rfl, rfl⟩) fun _ _ => ?_
    exact Monitor.obeys_call True.intro fun _ _ => ⟨true, rfl⟩
  · exact Monitor.obeys_call True.intro fun _ _ => ⟨true, rfl⟩

theorem runClient_phases : (phases terminateUsingSignal .client).Obeys (fun _ _ => True)
    (runClient terminateUsingSignal rounds) (Phase.start terminateUsingSignal (.party .client)) := by
  have exchanged : (phases terminateUsingSignal .client).Obeys (fun _ phase => ∃ confirmed, phase = .top confirmed)
      (otherProcessId terminateUsingSignal (exchangeProcessIdsWithServer rounds))
      (Phase.start terminateUsingSignal (.party .client)) := by
    cases terminateUsingSignal with
    | true => exact exchangeProcessIdsWithServer_phases
    | false => exact ⟨true, rfl⟩
  refine Monitor.obeys_bind.mpr (Monitor.obeys_mono ?_ exchanged)
  intro serverPid phase top
  have looped : (phases terminateUsingSignal .client).Obeys (fun _ phase => phase = .left)
      (Program.loop .goesOn rounds 0 clientRound) phase := by
    refine Monitor.obeys_loop (fun _ phase => ∃ confirmed, phase = .top confirmed) (fun _ => True.intro) top ?_
    rintro lastNumberSendTime _ ⟨confirmed, rfl⟩
    exact clientRound_phases lastNumberSendTime
  refine Monitor.obeys_bind.mpr (Monitor.obeys_mono ?_ looped)
  rintro serverShutdownedFirst _ rfl
  cases serverShutdownedFirst with
  | true => exact ⟨⟨nofun, nofun, nofun⟩, fun _ _ => True.intro⟩
  | false =>
    cases terminateUsingSignal with
    | true => exact ⟨rfl, fun _ _ => True.intro⟩
    | false => exact ⟨⟨nofun, nofun, nofun⟩, fun _ _ => True.intro⟩

theorem interruptAll_phases (interrupts : List Party) (phase : Phase) :
    interrupting.Obeys (fun _ _ => True) (interruptAll interrupts) phase := by
  induction interrupts with
  | nil => exact True.intro
  | cons p later ih => exact Monitor.obeys_call ⟨p, rfl⟩ fun _ _ => ih

theorem agentProgram_phases (interrupts : List Party) (agent : Agent) :
    (agentPhases terminateUsingSignal agent).Obeys (fun _ _ => True)
      (agentProgram terminateUsingSignal rounds interrupts agent) (Phase.start terminateUsingSignal agent) := by
  rcases agent with (_ | _) | _
  · exact runServer_phases
  · exact runClient_phases
  · exact interruptAll_phases interrupts _

end

end ArchCompSystems.OsHw6
