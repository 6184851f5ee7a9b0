import ArchCompSystems.OsHw6.Program
import ArchCompSystems.Library.Stopping

namespace ArchCompSystems.OsHw6

open Library Library.Program

def seesStop (call : Call) (answer : call.Answer) : Prop :=
  match call, answer with
  | .isRunning, answer => answer = false
  | _, _ => True

/-- With the wait for the removal of the segment. -/
def stopCalls : Nat := 140

theorem awaitRound_leaves (expected : MessageType) :
    (awaitRound expected).EndsWithin seesStop LoopFlow.IsExit 1 := by
  apply endsWithin_call (n := 0)
  rintro _ rfl
  exact True.intro

theorem awaitRound_short (expected : MessageType) :
    (awaitRound expected).EndsWithin (fun _ _ => True) (fun _ => True) 3 := by
  apply endsWithin_call
  rintro (_ | _) -
  · exact True.intro
  · apply endsWithin_call
    intro type _
    split_ifs
    · exact True.intro
    · exact endsWithin_call (n := 0) fun _ _ => True.intro

theorem awaitType_leaves (rounds : Nat) (expected : MessageType) :
    (awaitType rounds expected).EndsWithin seesStop (fun _ => True) 1 :=
  endsWithin_loop (fun _ => awaitRound_leaves expected) rounds ()

theorem awaitType_soonEnds (rounds : Nat) (expected : MessageType) :
    (awaitType rounds expected).SoonEnds seesStop 4 :=
  soonEnds_loop (fun _ => awaitRound_leaves expected)
    (fun _ => soonEnds_of_endsWithin (awaitRound_short expected)) rounds ()

theorem sendProcessId_short (p : Party) {quiet : (c : Call) → c.Answer → Prop} :
    (sendProcessId p).EndsWithin quiet (fun _ => True) 3 :=
  endsWithin_call fun _ _ => endsWithin_call fun _ _ => endsWithin_call (n := 0) fun _ _ => True.intro

theorem serverRound_leaves (clientShutdownedFirst : Bool) :
    (serverRound clientShutdownedFirst).EndsWithin seesStop LoopFlow.IsExit 1 := by
  apply endsWithin_call (n := 0)
  rintro _ rfl
  exact True.intro

theorem serverRound_short (clientShutdownedFirst : Bool) :
    (serverRound clientShutdownedFirst).EndsWithin (fun _ _ => True) (fun _ => True) 6 := by
  apply endsWithin_call
  rintro (_ | _) -
  · exact True.intro
  · apply endsWithin_call
    intro type _
    cases type with
    | newNumber =>
      exact endsWithin_call fun _ _ => endsWithin_call fun _ _ => endsWithin_call fun _ _ =>
        endsWithin_call (n := 0) fun _ _ => True.intro
    | emptyMessage => exact endsWithin_call (n := 3) fun _ _ => True.intro
    | clientShutdown => exact endsWithin_call (n := 3) fun _ _ => True.intro
    | _ => exact True.intro

theorem removalRound_short {quiet : (c : Call) → c.Answer → Prop} :
    removalRound.EndsWithin quiet (fun _ => True) 2 := by
  apply endsWithin_call
  intro type _
  split_ifs
  · exact True.intro
  · exact endsWithin_call (n := 0) fun _ _ => True.intro

theorem awaitRemoval_short {quiet : (c : Call) → c.Answer → Prop} :
    awaitRemoval.EndsWithin quiet (fun _ => True) (2 * maxRetries + 1) := by
  refine endsWithin_bind (endsWithin_forFrom (fun _ _ => removalRound_short) maxRetries 0 ()) fun flow _ => ?_
  cases flow with
  | next _ => exact endsWithin_call (n := 0) fun _ _ => True.intro
  | exit _ => exact True.intro

theorem shutClientDown_short (terminateUsingSignal : Bool) (clientId : Int32) {quiet : (c : Call) → c.Answer → Prop} :
    (shutClientDown terminateUsingSignal clientId).EndsWithin quiet (fun _ => True) (2 * maxRetries + 2) := by
  cases terminateUsingSignal with
  | true => exact endsWithin_call fun _ _ => True.intro
  | false => exact endsWithin_call fun _ _ => awaitRemoval_short

def serverRest (terminateUsingSignal : Bool) (rounds : Nat) (clientId : Int32) : HwProgram Unit := do
  let clientShutdownedFirst ← Program.loop .goesOn rounds false serverRound
  if !clientShutdownedFirst then shutClientDown terminateUsingSignal clientId

theorem serverRest_short (terminateUsingSignal : Bool) (rounds : Nat) (clientId : Int32) :
    (serverRest terminateUsingSignal rounds clientId).EndsWithin seesStop (fun _ => True) 131 := by
  refine endsWithin_bind (m := 130) (endsWithin_loop (c := .goesOn) serverRound_leaves rounds false) fun clientShutdownedFirst _ => ?_
  cases clientShutdownedFirst with
  | true => exact True.intro
  | false => exact shutClientDown_short terminateUsingSignal clientId

theorem serverRest_soonEnds (terminateUsingSignal : Bool) (rounds : Nat) (clientId : Int32) :
    (serverRest terminateUsingSignal rounds clientId).SoonEnds seesStop 137 := by
  have looped := soonEnds_loop (c := .goesOn) serverRound_leaves
    (fun first => soonEnds_of_endsWithin (serverRound_short first)) rounds false
  refine soonEnds_bind (m := 130) looped (fun clientShutdownedFirst => ?_) fun clientShutdownedFirst => ?_
  · cases clientShutdownedFirst with
    | true => exact True.intro
    | false => exact shutClientDown_short terminateUsingSignal clientId
  · cases clientShutdownedFirst with
    | true => exact True.intro
    | false => exact (soonEnds_of_endsWithin (shutClientDown_short terminateUsingSignal clientId)).mono (by decide)

def confirmClient : HwProgram Int32 := do
  let clientId ← Call.loadRandNum.make
  Call.make (.storeType .serverGotProcessId)
  return clientId.toInt32

theorem confirmClient_short {quiet : (c : Call) → c.Answer → Prop} :
    confirmClient.EndsWithin quiet (fun _ => True) 2 :=
  endsWithin_call fun _ _ => endsWithin_call (n := 0) fun _ _ => True.intro

theorem exchangeProcessIdsWithClient_short (rounds : Nat) :
    (exchangeProcessIdsWithClient rounds).EndsWithin seesStop (fun _ => True) 6 :=
  endsWithin_bind (sendProcessId_short .server) fun _ _ =>
    endsWithin_bind (awaitType_leaves rounds _) fun _ _ => confirmClient_short

theorem exchangeProcessIdsWithClient_soonEnds (rounds : Nat) :
    (exchangeProcessIdsWithClient rounds).SoonEnds seesStop 9 := by
  refine soonEnds_bind (m := 6) (soonEnds_of_endsWithin (sendProcessId_short .server)) (fun _ => ?_) fun _ => ?_
  · exact (endsWithin_bind (awaitType_leaves rounds _) fun _ _ => confirmClient_short).mono (by decide)
      (fun _ holds => holds) fun _ _ isQuiet => isQuiet
  · refine SoonEnds.mono (n := 4 + 2) ?_ (by decide)
    refine soonEnds_bind (awaitType_soonEnds rounds _) (fun _ => confirmClient_short) fun _ => ?_
    exact (soonEnds_of_endsWithin confirmClient_short).mono (by decide)

theorem runServer_soonEnds (terminateUsingSignal : Bool) (rounds : Nat) :
    (runServer terminateUsingSignal rounds).SoonEnds seesStop stopCalls := by
  have exchanged : (otherProcessId terminateUsingSignal (exchangeProcessIdsWithClient rounds)).EndsWithin seesStop
      (fun _ => True) 6 := by
    cases terminateUsingSignal with
    | true => exact exchangeProcessIdsWithClient_short rounds
    | false => exact True.intro
  have exchanging : (otherProcessId terminateUsingSignal (exchangeProcessIdsWithClient rounds)).SoonEnds seesStop 9 := by
    cases terminateUsingSignal with
    | true => exact exchangeProcessIdsWithClient_soonEnds rounds
    | false => exact True.intro
  refine soonEnds_bind (k := 1) (m := 139) ?_ (fun _ => ?_) fun _ => ?_
  · exact ⟨fun _ _ => ⟨Nat.one_pos, True.intro⟩, fun _ => True.intro⟩
  · exact (endsWithin_bind exchanged fun clientId _ => serverRest_short terminateUsingSignal rounds clientId).mono
      (by decide) (fun _ holds => holds) fun _ _ isQuiet => isQuiet
  · refine soonEnds_bind (k := 9) (m := 131) exchanging (fun clientId => ?_) fun clientId => ?_
    · exact serverRest_short terminateUsingSignal rounds clientId
    · exact (serverRest_soonEnds terminateUsingSignal rounds clientId).mono (by decide)

theorem clientRound_leaves (lastNumberSendTime : Int) :
    (clientRound lastNumberSendTime).EndsWithin seesStop LoopFlow.IsExit 1 := by
  apply endsWithin_call (n := 0)
  rintro _ rfl
  exact True.intro

theorem clientRound_short (lastNumberSendTime : Int) :
    (clientRound lastNumberSendTime).EndsWithin (fun _ _ => True) (fun _ => True) 8 := by
  apply endsWithin_call
  rintro (_ | _) -
  · exact True.intro
  apply endsWithin_call
  intro type _
  split_ifs
  · exact True.intro
  apply endsWithin_call
  intro timeNow _
  split_ifs
  · exact endsWithin_call fun _ _ => endsWithin_call fun _ _ => endsWithin_call fun _ _ => endsWithin_call fun _ _ =>
      endsWithin_call (n := 0) fun _ _ => True.intro
  · exact endsWithin_call fun _ _ => True.intro

def clientEnd (terminateUsingSignal : Bool) (serverPid : Int32) (serverShutdownedFirst : Bool) : HwProgram Unit :=
  if !serverShutdownedFirst then shutServerDown terminateUsingSignal serverPid
  else Call.make (.storeType .readyToRemoveSegment)

theorem clientEnd_short (terminateUsingSignal : Bool) (serverPid : Int32) (serverShutdownedFirst : Bool)
    {quiet : (c : Call) → c.Answer → Prop} :
    (clientEnd terminateUsingSignal serverPid serverShutdownedFirst).EndsWithin quiet (fun _ => True) 1 := by
  cases serverShutdownedFirst <;> cases terminateUsingSignal <;> exact fun _ _ => ⟨Nat.one_pos, True.intro⟩

def clientRest (terminateUsingSignal : Bool) (rounds : Nat) (serverPid : Int32) : HwProgram Unit :=
  Program.loop .goesOn rounds 0 clientRound >>= clientEnd terminateUsingSignal serverPid

theorem clientRest_short (terminateUsingSignal : Bool) (rounds : Nat) (serverPid : Int32) :
    (clientRest terminateUsingSignal rounds serverPid).EndsWithin seesStop (fun _ => True) 2 := by
  refine endsWithin_bind (m := 1) (endsWithin_loop (c := .goesOn) clientRound_leaves rounds 0) fun _ _ => ?_
  exact clientEnd_short _ _ _

theorem clientRest_soonEnds (terminateUsingSignal : Bool) (rounds : Nat) (serverPid : Int32) :
    (clientRest terminateUsingSignal rounds serverPid).SoonEnds seesStop 10 := by
  have looped := soonEnds_loop (c := .goesOn) clientRound_leaves
    (fun last => soonEnds_of_endsWithin (clientRound_short last)) rounds 0
  refine soonEnds_bind (m := 1) looped (fun _ => clientEnd_short _ _ _) fun _ => ?_
  exact (soonEnds_of_endsWithin (clientEnd_short _ _ _)).mono (by decide)

def answerServer (rounds : Nat) (serverPid : Int64) : HwProgram Int32 := do
  sendProcessId .client
  awaitType rounds .serverGotProcessId
  return serverPid.toInt32

theorem answerServer_short (rounds : Nat) (serverPid : Int64) :
    (answerServer rounds serverPid).EndsWithin seesStop (fun _ => True) 4 := by
  refine endsWithin_bind (m := 1) (sendProcessId_short .client) fun _ _ => ?_
  refine endsWithin_bind (m := 0) (awaitType_leaves rounds _) fun _ _ => ?_
  exact True.intro

theorem answerServer_soonEnds (rounds : Nat) (serverPid : Int64) :
    (answerServer rounds serverPid).SoonEnds seesStop 4 := by
  refine soonEnds_bind (m := 1) (soonEnds_of_endsWithin (sendProcessId_short .client)) (fun _ => ?_) fun _ => ?_
  · refine endsWithin_bind (m := 0) (awaitType_leaves rounds _) fun _ _ => ?_
    exact True.intro
  · refine soonEnds_bind (m := 0) (awaitType_soonEnds rounds _) (fun _ => ?_) fun _ => ?_
    · exact True.intro
    · exact True.intro

theorem exchangeProcessIdsWithServer_soonEnds (rounds : Nat) :
    (exchangeProcessIdsWithServer rounds).SoonEnds seesStop 9 := by
  refine soonEnds_bind (m := 5) (awaitType_soonEnds rounds _) (fun _ => ?_) fun _ => ?_
  · exact endsWithin_call fun serverPid _ => answerServer_short rounds serverPid
  · refine SoonEnds.mono (n := 1 + 4) ?_ (by decide)
    refine soonEnds_bind ⟨fun _ _ => ⟨Nat.one_pos, True.intro⟩, fun _ => True.intro⟩ (answerServer_short rounds)
      fun serverPid => (answerServer_soonEnds rounds serverPid).mono (by decide)

theorem runClient_soonEnds (terminateUsingSignal : Bool) (rounds : Nat) :
    (runClient terminateUsingSignal rounds).SoonEnds seesStop stopCalls := by
  have exchanging : (otherProcessId terminateUsingSignal (exchangeProcessIdsWithServer rounds)).SoonEnds seesStop 9 := by
    cases terminateUsingSignal with
    | true => exact exchangeProcessIdsWithServer_soonEnds rounds
    | false => exact True.intro
  refine SoonEnds.mono (n := 9 + 2) ?_ (by decide)
  refine soonEnds_bind exchanging (clientRest_short terminateUsingSignal rounds) fun serverPid => ?_
  exact (clientRest_soonEnds terminateUsingSignal rounds serverPid).mono (by decide)

theorem agentProgram_soonEnds (terminateUsingSignal : Bool) (rounds : Nat) (interrupts : List Party) (p : Party) :
    (agentProgram terminateUsingSignal rounds interrupts (.party p)).SoonEnds seesStop stopCalls := by
  cases p with
  | server => exact runServer_soonEnds terminateUsingSignal rounds
  | client => exact runClient_soonEnds terminateUsingSignal rounds

variable {pids : Party → Int32} {s s' : State} {p : Party}

theorem stop_isRunning_of_stopped (stopped : s.isRunning p = false) (q : Party) : (s.stop q).isRunning p = false := by
  by_cases same : p = q
  · subst same
    exact Function.update_self ..
  · exact (Function.update_of_ne same ..).trans stopped

theorem perform_of_stopped {agent : Agent} {call : Call} {answer : call.Answer} (stopped : s.isRunning p = false)
    (performed : perform pids agent call answer s = some s') :
    s'.isRunning p = false ∧ (agent = .party p → seesStop call answer) := by
  cases agent with
  | user =>
    cases call with
    | interrupt q =>
      cases performed
      exact ⟨stop_isRunning_of_stopped stopped q, nofun⟩
    | _ => cases performed
  | party q =>
    cases call with
    | isRunning =>
      obtain ⟨rfl, ⟨⟩⟩ := Option.ite_none_right_eq_some.mp performed
      refine ⟨stopped, ?_⟩
      rintro ⟨⟩
      exact stopped
    | stopRunning =>
      cases performed
      exact ⟨stop_isRunning_of_stopped stopped q, fun _ => True.intro⟩
    | kill pid =>
      obtain ⟨-, ⟨⟩⟩ := Option.ite_none_right_eq_some.mp performed
      refine ⟨?_, fun _ => True.intro⟩
      show (s.isRunning p && _) = false
      rw [stopped, Bool.false_and]
    | loadType =>
      obtain ⟨-, ⟨⟩⟩ := Option.ite_none_right_eq_some.mp performed
      exact ⟨stopped, fun _ => True.intro⟩
    | loadRandNum =>
      obtain ⟨-, ⟨⟩⟩ := Option.ite_none_right_eq_some.mp performed
      exact ⟨stopped, fun _ => True.intro⟩
    | getpid =>
      obtain ⟨-, ⟨⟩⟩ := Option.ite_none_right_eq_some.mp performed
      exact ⟨stopped, fun _ => True.intro⟩
    | interrupt q => cases performed
    | goesOn => exact isEmptyElim answer
    | _ =>
      cases performed
      exact ⟨stopped, fun _ => True.intro⟩

def Call.Own : Call → Prop
  | .interrupt _ => False
  | _ => True

theorem awaitType_own (rounds : Nat) (expected : MessageType) : (awaitType rounds expected).Calls Call.Own := by
  refine calls_loop True.intro (fun _ => ?_) rounds ()
  refine calls_bind ⟨True.intro, fun _ => True.intro⟩ fun isRunning => ?_
  cases isRunning with
  | false => exact True.intro
  | true =>
    refine calls_bind ⟨True.intro, fun _ => True.intro⟩ fun type => ?_
    split_ifs
    · exact True.intro
    · exact ⟨True.intro, fun _ => True.intro⟩

theorem sendProcessId_own (p : Party) : (sendProcessId p).Calls Call.Own :=
  ⟨True.intro, fun _ => ⟨True.intro, fun _ => ⟨True.intro, fun _ => True.intro⟩⟩⟩

theorem serverRound_own (clientShutdownedFirst : Bool) : (serverRound clientShutdownedFirst).Calls Call.Own := by
  refine calls_bind ⟨True.intro, fun _ => True.intro⟩ fun isRunning => ?_
  cases isRunning with
  | false => exact True.intro
  | true =>
    refine calls_bind ⟨True.intro, fun _ => True.intro⟩ fun type => ?_
    cases type with
    | newNumber =>
      exact ⟨True.intro, fun _ => ⟨True.intro, fun _ => ⟨True.intro, fun _ => ⟨True.intro, fun _ => True.intro⟩⟩⟩⟩
    | emptyMessage => exact ⟨True.intro, fun _ => True.intro⟩
    | clientShutdown => exact ⟨True.intro, fun _ => True.intro⟩
    | _ => exact True.intro

theorem awaitRemoval_own : awaitRemoval.Calls Call.Own := by
  refine calls_bind (calls_forFrom (fun _ _ => ?_) _ _ _) fun flow => ?_
  · refine calls_bind ⟨True.intro, fun _ => True.intro⟩ fun type => ?_
    split_ifs
    · exact True.intro
    · exact ⟨True.intro, fun _ => True.intro⟩
  · cases flow with
    | next _ => exact ⟨True.intro, fun _ => True.intro⟩
    | exit _ => exact True.intro

theorem runServer_own (terminateUsingSignal : Bool) (rounds : Nat) :
    (runServer terminateUsingSignal rounds).Calls Call.Own := by
  refine calls_bind ⟨True.intro, fun _ => True.intro⟩ fun _ => calls_bind ?_ fun clientId => ?_
  · cases terminateUsingSignal with
    | false => exact True.intro
    | true =>
      refine calls_bind (sendProcessId_own .server) fun _ => calls_bind (awaitType_own rounds _) fun _ => ?_
      exact ⟨True.intro, fun _ => ⟨True.intro, fun _ => True.intro⟩⟩
  · refine calls_bind (calls_loop True.intro serverRound_own rounds false) fun clientShutdownedFirst => ?_
    cases clientShutdownedFirst with
    | true => exact True.intro
    | false =>
      cases terminateUsingSignal with
      | true => exact ⟨True.intro, fun _ => True.intro⟩
      | false => exact ⟨True.intro, fun _ => awaitRemoval_own⟩

theorem clientRound_own (lastNumberSendTime : Int) : (clientRound lastNumberSendTime).Calls Call.Own := by
  refine calls_bind ⟨True.intro, fun _ => True.intro⟩ fun isRunning => ?_
  cases isRunning with
  | false => exact True.intro
  | true =>
    refine calls_bind ⟨True.intro, fun _ => True.intro⟩ fun type => ?_
    split_ifs
    · exact True.intro
    refine calls_bind ⟨True.intro, fun _ => True.intro⟩ fun timeNow => ?_
    split_ifs
    · exact ⟨True.intro, fun _ => ⟨True.intro, fun _ => ⟨True.intro, fun _ => ⟨True.intro, fun _ =>
        ⟨True.intro, fun _ => True.intro⟩⟩⟩⟩⟩
    · exact ⟨True.intro, fun _ => True.intro⟩

theorem runClient_own (terminateUsingSignal : Bool) (rounds : Nat) :
    (runClient terminateUsingSignal rounds).Calls Call.Own := by
  refine calls_bind ?_ fun serverPid => ?_
  · cases terminateUsingSignal with
    | false => exact True.intro
    | true =>
      refine calls_bind (awaitType_own rounds _) fun _ => ⟨True.intro, fun serverPid => ?_⟩
      show (answerServer rounds serverPid).Calls Call.Own
      exact calls_bind (sendProcessId_own .client) fun _ => calls_bind (awaitType_own rounds _) fun _ => True.intro
  · refine calls_bind (calls_loop True.intro clientRound_own rounds 0) fun serverShutdownedFirst => ?_
    cases serverShutdownedFirst <;> cases terminateUsingSignal <;> exact ⟨True.intro, fun _ => True.intro⟩

theorem agentProgram_own (terminateUsingSignal : Bool) (rounds : Nat) (interrupts : List Party) (p : Party) :
    (agentProgram terminateUsingSignal rounds interrupts (.party p)).Calls Call.Own := by
  cases p with
  | server => exact runServer_own terminateUsingSignal rounds
  | client => exact runClient_own terminateUsingSignal rounds

theorem exists_perform (pids : Party → Int32) (p : Party) {call : Call} (own : call.Own) (goes : call ≠ .goesOn)
    (s : State) : ∃ answer s', perform pids (.party p) call answer s = some s' := by
  cases call with
  | isRunning => exact ⟨s.isRunning p, s, if_pos rfl⟩
  | loadType => exact ⟨s.message.type, s, if_pos rfl⟩
  | loadRandNum => exact ⟨s.message.randNum, s, if_pos rfl⟩
  | getpid => exact ⟨pids p, s, if_pos rfl⟩
  | kill pid => exact ⟨⟨pids .server = pid, pids .client = pid⟩, _, if_pos fun _ => rfl⟩
  | interrupt q => exact own.elim
  | goesOn => exact absurd rfl goes
  | time => exact ⟨0, s, rfl⟩
  | random => exact ⟨0, _, rfl⟩
  | stopRunning => exact ⟨(), _, rfl⟩
  | storeType type => exact ⟨(), _, rfl⟩
  | storeRandNum randNum => exact ⟨(), _, rfl⟩
  | printNumber randNum => exact ⟨(), _, rfl⟩
  | sleepNanos => exact ⟨(), _, rfl⟩

def CutOff (program : HwProgram Unit) : Prop := ∃ next, program = .call .goesOn next

/-- Once `is_running` of a party is false, however the other one and the signals go on, the party makes at
    most `stopCalls` more calls, and none of them waits. -/
theorem stops_soon {terminateUsingSignal : Bool} {rounds : Nat} {interrupts : List Party} {message : Message}
    {ok : Processes → Action Agent Call Call.Answer → Prop} {pool pool' : Processes}
    (before : Pool.Reach (exchange pids) ok (processes terminateUsingSignal rounds interrupts message) pool)
    (stopped : pool.state.isRunning p = false) (later : Pool.Reach (exchange pids) ok pool pool') :
    (pool'.history (.party p)).length ≤ (pool.history (.party p)).length + stopCalls ∧
      (pool'.ended (.party p) ∨ CutOff (pool'.programs (.party p)) ∨
        ∃ event pool'', Pool.Step (exchange pids) pool' (.call (.party p) event) pool'') := by
  have start := agentProgram_soonEnds terminateUsingSignal rounds interrupts p
  constructor
  · have ends : (pool.programs (.party p)).EndsWithin seesStop (fun _ => True) stopCalls := by
      obtain ⟨q, path, goes | ended⟩ := before.path (fun _ => rfl) (.party p)
      · rw [goes]
        exact (start.path path).endsWithin
      · rw [ended]
        exact True.intro
    obtain ⟨-, m, few, -⟩ := later.soonEnds (fun s => s.isRunning p = false) (.party p)
      (fun u c answer s s' isStopped performed => perform_of_stopped isStopped performed)
      (fun _ _ _ _ _ cut => by cases cut) stopped ends
    omega
  · cases current : pool'.programs (.party p) with
    | done value =>
      left
      unfold Pool.ended
      rw [current]
    | call c next =>
      right
      by_cases cut : c = .goesOn
      · subst cut
        exact .inl ⟨next, rfl⟩
      · right
        obtain ⟨q, path, goes | ended⟩ := (before.trans later).path (fun _ => rfl) (.party p)
        · rw [current] at goes
          subst goes
          have own := path.calls_rest (agentProgram_own terminateUsingSignal rounds interrupts p)
          obtain ⟨answer, s', performed⟩ := exists_perform pids p own.1 cut pool'.state
          exact ⟨⟨c, answer⟩, _, .call current performed⟩
        · rw [current] at ended
          cases ended

/-- How the calls of a party are answered at second `now`. -/
def State.answer (pids : Party → Int32) (p : Party) (now : Int) : (call : Call) → State → Option call.Answer
  | .isRunning, s => some (s.isRunning p)
  | .loadType, s => some s.message.type
  | .loadRandNum, s => some s.message.randNum
  | .getpid, _ => some (pids p)
  | .kill pid, _ => some ⟨pids .server = pid, pids .client = pid⟩
  | .time, _ => some now
  | .random, _ => some 42
  | .stopRunning, _ | .storeType _, _ | .storeRandNum _, _ | .printNumber _, _ | .sleepNanos, _ | .interrupt _, _ =>
    some ()
  | .goesOn, _ => none

def somePids : Party → Int32
  | .server => 7
  | .client => 8

def freshMessage : Message := ⟨.emptyMessage, 0⟩

/-- The server is interrupted while it waits for a client, and ends after seven more calls. -/
theorem server_stops : ∃ pool pool', Pool.Reach (exchange somePids) (fun _ _ => True)
      (processes true 3 [.server] freshMessage) pool ∧ pool.state.isRunning .server = false ∧
    Pool.Reach (exchange somePids) (fun _ _ => True) pool pool' ∧ pool'.ended (.party .server) ∧
      (pool'.history (.party .server)).length ≤ (pool.history (.party .server)).length + stopCalls := by
  have replayed : ((processes true 3 [.server] freshMessage).replay (exchange somePids) (fun _ _ => true)
      [.go (.party .server) 5 (State.answer somePids .server 0), .go .user 1 (State.answer somePids .server 0)]).any
      (fun pool => pool.state.isRunning .server == false &&
        (pool.replay (exchange somePids) (fun _ _ => true)
          [.go (.party .server) 7 (State.answer somePids .server 0)]).any fun pool' => pool'.ended (.party .server)) =
      true := by decide +kernel
  obtain ⟨pool, reach, checked⟩ := Pool.exists_reach_of_replay (fun _ _ _ => True.intro) replayed
  obtain ⟨told, goesOn⟩ := Bool.and_eq_true_iff.mp checked
  obtain ⟨pool', later, ended⟩ := Pool.exists_reach_of_replay (fun _ _ _ => True.intro) goesOn
  have stopped := eq_of_beq told
  exact ⟨pool, pool', reach, stopped, later, ended, (stops_soon reach stopped later).1⟩

end ArchCompSystems.OsHw6
