import ArchCompSystems.OsHw9.Program
import Mathlib.Data.List.Chain
import Mathlib.Data.Nat.Digits.Defs
import Mathlib.Tactic.Common

namespace ArchCompSystems.OsHw9

open Library Library.Program

def Message.relayed (message : Message) : Receipt := ⟨message.sender.other, message.bytes⟩

/-- Behind the initial content, what is read are the messages, each once, whole, in order and by the
    process that did not write it. Only the last one may still be in the pipe. -/
structure Delivered (s : State) (pending : List Message) : Prop where
  initial : ∀ receipt ∈ s.received.head?, receipt.bytes = initialContent
  relayed : s.written.map Message.relayed = s.received.tail ++ pending.map Message.relayed
  pipe : s.pipe = if s.received = [] then initialContent else pending.flatMap Message.bytes
  one : pending.length ≤ if s.received = [] then 0 else 1

def Call.waits : Call → Bool
  | .semop semOp => semOp < 0
  | _ => false

/-- Process `this` does not win the semaphore when it wrote the last message. -/
def InTurn (processes : Processes) : Action Process Call Call.Answer → Prop
  | .call this event => event.1.waits → ∀ message ∈ processes.state.written.getLast?, message.sender ≠ this
  | .cut _ _ => True

instance (processes : Processes) (action : Action Process Call Call.Answer) : Decidable (InTurn processes action) :=
  match action with
  | .call this event => inferInstanceAs (Decidable
      (event.1.waits → ∀ message ∈ processes.state.written.getLast?, message.sender ≠ this))
  | .cut _ _ => isTrue True.intro

theorem length_unsignedDecimal (number : BitVec 32) : (unsignedDecimal number).length ≤ 10 :=
  Nat.toDigits_length 10 number.toNat 10 (by decide) (Nat.lt_of_lt_of_le number.isLt (by decide))

theorem length_signedDecimal (number : BitVec 32) : (signedDecimal number).length ≤ 11 := by
  have lower := BitVec.le_toInt number
  have upper := @BitVec.toInt_lt 32 number
  have small : number.toInt.natAbs < 10 ^ 10 := by omega
  have digits := Nat.toDigits_length 10 number.toInt.natAbs 10 (by decide) small
  have sign : (if number.toInt < 0 then ['-'] else []).length ≤ 1 := by split_ifs <;> decide
  rw [signedDecimal, List.length_append]
  omega

theorem length_name (p : Process) : p.name.toList.length ≤ 6 := by
  cases p <;> decide

theorem length_someMessage (pid : Process → BitVec 32) (sender : Process) (messageCounter : BitVec 32) :
    (someMessage pid sender messageCounter).length ≤ maxMessageSize := by
  have counter := length_unsignedDecimal messageCounter
  have own := length_signedDecimal (pid sender)
  have others := length_signedDecimal (pid sender.other)
  have ownName := length_name sender
  have othersName := length_name sender.other
  have texts : "Some message ".toList.length = 13 ∧ " from ".toList.length = 6 ∧ "[pid=".toList.length = 5 ∧
      "] to ".toList.length = 5 ∧ "]".toList.length = 1 := by decide
  unfold someMessage maxMessageSize
  simp only [List.length_append, List.length_singleton]
  omega

theorem someMessage_ne_nil (pid : Process → BitVec 32) (sender : Process) (messageCounter : BitVec 32) :
    someMessage pid sender messageCounter ≠ [] := by
  unfold someMessage
  exact List.append_ne_nil_of_right_ne_nil _ (List.cons_ne_nil _ _)

inductive Stage where
  | outside
  | won
  | read
  | written
  deriving DecidableEq

def turns : Monitor Call Call.Answer Stage where
  allowed stage call := match call with
    | .isRunning | .sleep => stage = .outside
    | .semop semOp => semOp = -1 ∧ stage = .outside ∨ semOp = 1 ∧ stage = .written
    | .read size => size = maxMessageSize ∧ stage = .won
    | .printMessage _ _ => stage = .read
    | .write bytes => bytes ≠ [] ∧ bytes.length ≤ maxMessageSize ∧ stage = .read
    | .goesOn => True
    | .perror _ | .crash => False
  possible _ call answer := match call, answer with
    | .isRunning, answer | .semop _, answer => answer = true
    | .read _, answer => answer.isSome
    | .write _, answer => answer.isSome
    | .printMessage _ _, _ | .perror _, _ | .sleep, _ => True
  after stage call _ := match call with
    | .semop semOp => if semOp = -1 then .won else .outside
    | .read _ => .read
    | .write _ => .written
    | _ => stage

theorem printReceived_obeys (sender : Process) (bytes readMessageBuffer : List Char) :
    turns.Obeys (fun _ stage => stage = .read) (printReceived sender bytes readMessageBuffer) .read := by
  unfold printReceived
  split_ifs
  · exact ⟨rfl, fun _ _ => rfl⟩
  · exact rfl

theorem sendNext_obeys (pid : Process → BitVec 32) (this : Process) (locals : Locals) :
    turns.Obeys (LoopFlow.Keeps (fun _ stage => stage = .outside) fun _ _ => True) (sendNext pid this locals) .read := by
  have fits := length_someMessage pid this (locals.messageCounter + 1)
  have nonempty := someMessage_ne_nil pid this (locals.messageCounter + 1)
  unfold sendNext
  simp only [if_neg (Nat.not_lt.mpr fits)]
  refine Monitor.obeys_call ⟨nonempty, fits, rfl⟩ ?_
  rintro (_ | count) wrote
  · cases wrote
  refine Monitor.obeys_call (.inr ⟨rfl, rfl⟩) ?_
  rintro _ rfl
  exact Monitor.obeys_call rfl fun _ _ => rfl

theorem runRound_obeys (pid : Process → BitVec 32) (this : Process) (locals : Locals) :
    turns.Obeys (LoopFlow.Keeps (fun _ stage => stage = .outside) fun _ _ => True) (runRound pid this locals) .outside := by
  refine Monitor.obeys_call rfl ?_
  rintro _ rfl
  refine Monitor.obeys_call (.inl ⟨rfl, rfl⟩) ?_
  rintro _ rfl
  refine Monitor.obeys_call ⟨rfl, rfl⟩ ?_
  rintro (_ | bytes) returned
  · cases returned
  have printed := printReceived_obeys this.other bytes (bytes ++ locals.readMessageBuffer.drop bytes.length)
  refine Monitor.obeys_bind.mpr (Monitor.obeys_mono ?_ printed)
  rintro _ _ rfl
  exact sendNext_obeys pid this _

theorem processProgram_obeys (pid : Process → BitVec 32) (rounds : Nat) (this : Process) :
    turns.Obeys (fun _ _ => True) (processProgram pid rounds this) .outside := by
  have looped : turns.Obeys (fun _ _ => True) (runProcessImpl pid this rounds) .outside := by
    refine Monitor.obeys_loop (fun _ stage => stage = .outside) (fun _ => True.intro) rfl ?_
    rintro locals _ rfl
    exact runRound_obeys pid this locals
  cases this <;> exact Monitor.obeys_bind.mpr (Monitor.obeys_mono (fun _ _ _ => True.intro) looped)

theorem other_eq_of_ne {p q : Process} (differ : q ≠ p) : q.other = p := by
  cases p <;> cases q <;> first | rfl | exact absurd rfl differ

theorem eq_other_iff {p q : Process} : q = p.other ↔ p ≠ q := by
  cases p <;> cases q <;> decide

def State.readers (s : State) : List Process := s.received.map Receipt.reader

def State.senders (s : State) : List Process := s.written.map Message.sender

/-- What was read and what is in the pipe is the initial content and what was written. -/
structure Flow (s : State) (content : Option (List Char)) : Prop where
  pipe : s.pipe = content.getD []
  bytes : s.received.map Receipt.bytes ++ content.toList = initialContent :: s.written.map Message.bytes
  fits : ∀ bytes ∈ content, bytes ≠ [] ∧ bytes.length ≤ maxMessageSize

structure Full (strict : Prop) (s : State) : Prop where
  flow : ∃ content, Flow s (some content)
  turns : s.readers = s.senders
  alternate : strict → s.senders.IsChain (· ≠ ·)

/-- Process `this` has read the message and not yet written its own. -/
structure Drained (strict : Prop) (s : State) (this : Process) : Prop where
  flow : Flow s none
  turns : s.readers = s.senders ++ [this]
  alternate : strict → (s.senders ++ [this]).IsChain (· ≠ ·)

def Turn (strict : Prop) (s : State) (this : Process) : Stage → Prop
  | .outside => False
  | .won => Full strict s ∧ (strict → ∀ message ∈ s.written.getLast?, message.sender ≠ this)
  | .read => Drained strict s this
  | .written => Full strict s

/-- At most one process is at its turn. `strict` stands for turns that alternate. -/
def Agrees (strict : Prop) (s : State) (stages : Process → Stage) : Prop :=
  s.semaphore = 1 ∧ (∀ p, stages p = .outside) ∧ Full strict s ∨
    ∃ p, s.semaphore = 0 ∧ stages p.other = .outside ∧ Turn strict s p (stages p)

section

variable {strict : Prop} {s s' : State} {stages : Process → Stage} {this : Process}

theorem Agrees.turn (agrees : Agrees strict s stages) (inside : stages this ≠ .outside) :
    s.semaphore = 0 ∧ stages this.other = .outside ∧ Turn strict s this (stages this) := by
  rcases agrees with ⟨-, outside, -⟩ | ⟨p, free, others, turn⟩
  · exact absurd (outside this) inside
  · by_cases same : p = this
    · subst same
      exact ⟨free, others, turn⟩
    · rw [other_eq_of_ne same] at others
      exact absurd others inside

theorem agrees_of_turn {stage : Stage} (free : s.semaphore = 0) (others : stages this.other = .outside)
    (turn : Turn strict s this stage) : Agrees strict s (Function.update stages this stage) := by
  refine .inr ⟨this, free, ?_, ?_⟩
  · rw [Function.update_of_ne (by cases this <;> decide)]
    exact others
  · rw [Function.update_self]
    exact turn

theorem Full.wins (full : Full strict s) (free : s.semaphore = 1) (others : ∀ p, stages p = .outside)
    (inTurn : strict → ∀ message ∈ s.written.getLast?, message.sender ≠ this) :
    Agrees strict { s with semaphore := ((s.semaphore : Int) + -1).toNat } (Function.update stages this .won) := by
  refine agrees_of_turn ?_ (others _) ⟨⟨?_, full.turns, full.alternate⟩, inTurn⟩
  · rw [free]
    rfl
  · obtain ⟨content, flow⟩ := full.flow
    exact ⟨content, flow.pipe, flow.bytes, flow.fits⟩

theorem Full.leaves (full : Full strict s) (taken : s.semaphore = 0) (others : stages this.other = .outside) :
    Agrees strict { s with semaphore := ((s.semaphore : Int) + 1).toNat } (Function.update stages this .outside) := by
  refine .inl ⟨?_, fun p => ?_, ⟨?_, full.turns, full.alternate⟩⟩
  · rw [taken]
    rfl
  · by_cases same : p = this
    · rw [same, Function.update_self]
    · rw [Function.update_of_ne same]
      exact (eq_other_iff.mpr (Ne.symm same)).symm ▸ others
  · obtain ⟨content, flow⟩ := full.flow
    exact ⟨content, flow.pipe, flow.bytes, flow.fits⟩

theorem Full.drains (full : Full strict s)
    (inTurn : strict → ∀ message ∈ s.written.getLast?, message.sender ≠ this) :
    Drained strict { s with
      pipe := s.pipe.drop maxMessageSize
      received := s.received ++ [⟨this, s.pipe.take maxMessageSize⟩] } this := by
  obtain ⟨content, flow⟩ := full.flow
  have fits := flow.fits content rfl
  have pipe : s.pipe = content := flow.pipe
  refine ⟨⟨?_, ?_, nofun⟩, ?_, fun alternating => ?_⟩
  · rw [pipe]
    exact List.drop_of_length_le fits.2
  · rw [pipe, List.take_of_length_le fits.2, List.map_append]
    exact (List.append_nil _).trans flow.bytes
  · rw [State.readers, List.map_append]
    exact congrArg (· ++ [this]) full.turns
  · refine (full.alternate alternating).append (List.isChain_singleton this) ?_
    rintro sender last p ⟨⟩
    obtain ⟨message, member, rfl⟩ := Option.map_eq_some_iff.mp (List.getLast?_map .. ▸ last)
    exact inTurn alternating message member

theorem Drained.fills (drained : Drained strict s this) {bytes : List Char}
    (fits : bytes ≠ [] ∧ bytes.length ≤ maxMessageSize) :
    Full strict { s with pipe := s.pipe ++ bytes, written := s.written ++ [⟨this, bytes⟩] } := by
  have senders : s.senders ++ [this] = List.map Message.sender (s.written ++ [⟨this, bytes⟩]) := by
    rw [List.map_append]
    rfl
  refine ⟨⟨bytes, ?_, ?_, fun other same => ?_⟩, drained.turns.trans senders, fun alternating => ?_⟩
  · show s.pipe ++ bytes = bytes
    rw [drained.flow.pipe]
    rfl
  · have sofar := drained.flow.bytes
    rw [Option.toList_none, List.append_nil] at sofar
    rw [sofar, List.map_append]
    rfl
  · obtain ⟨⟩ := same
    exact fits
  · have alternate := drained.alternate alternating
    rw [senders] at alternate
    exact alternate

theorem Agrees.perform {call : Call} {answer : call.Answer} (agrees : Agrees strict s stages)
    (inTurn : strict → call = .semop (-1) → ∀ message ∈ s.written.getLast?, message.sender ≠ this)
    (allowed : turns.allowed (stages this) call) (performed : perform this call answer s = some s') :
    turns.possible (stages this) call answer ∧
      Agrees strict s' (Function.update stages this (turns.after (stages this) call answer)) := by
  cases call with
  | isRunning =>
    obtain ⟨isRunning, ⟨⟩⟩ := Option.ite_none_right_eq_some.mp performed
    exact ⟨isRunning, (Function.update_eq_self this stages).symm ▸ agrees⟩
  | sleep =>
    cases performed
    exact ⟨True.intro, (Function.update_eq_self this stages).symm ▸ agrees⟩
  | printMessage sender string =>
    cases performed
    exact ⟨True.intro, (Function.update_eq_self this stages).symm ▸ agrees⟩
  | semop semOp =>
    obtain ⟨⟨done, enough⟩, ⟨⟩⟩ := Option.ite_none_right_eq_some.mp performed
    refine ⟨done, ?_⟩
    rcases allowed with ⟨rfl, outside⟩ | ⟨rfl, written⟩
    · rcases agrees with ⟨free, others, full⟩ | ⟨p, taken, -, -⟩
      · exact full.wins free others (fun alternating => inTurn alternating rfl)
      · rw [taken] at enough
        exact absurd enough (by decide)
    · obtain ⟨taken, others, turn⟩ := agrees.turn (by rw [written]; decide)
      rw [written] at turn
      exact Full.leaves turn taken others
  | read size =>
    obtain ⟨rfl, won⟩ := allowed
    obtain ⟨⟨-, rfl⟩, ⟨⟩⟩ := Option.ite_none_right_eq_some.mp performed
    obtain ⟨taken, others, turn⟩ := agrees.turn (by rw [won]; decide)
    rw [won] at turn
    exact ⟨rfl, agrees_of_turn taken others (turn.1.drains turn.2)⟩
  | write bytes =>
    obtain ⟨nonempty, fits, read⟩ := allowed
    obtain ⟨rfl, ⟨⟩⟩ := Option.ite_none_right_eq_some.mp performed
    obtain ⟨taken, others, turn⟩ := agrees.turn (by rw [read]; decide)
    rw [read] at turn
    exact ⟨rfl, agrees_of_turn taken others (Drained.fills turn ⟨nonempty, fits⟩)⟩
  | perror name => cases allowed
  | crash => cases answer
  | goesOn => cases answer

theorem Agrees.lists (agrees : Agrees strict s stages) : ∃ content last, Flow s content ∧
    s.readers = s.senders ++ last ∧ last.length + content.toList.length = 1 ∧
      (strict → s.readers.IsChain (· ≠ ·)) := by
  have ofFull : Full strict s → ∃ content last, Flow s content ∧ s.readers = s.senders ++ last ∧
      last.length + content.toList.length = 1 ∧ (strict → s.readers.IsChain (· ≠ ·)) := by
    intro full
    obtain ⟨content, flow⟩ := full.flow
    refine ⟨some content, [], flow, ?_, rfl, fun alternating => full.turns ▸ full.alternate alternating⟩
    rw [full.turns, List.append_nil]
  rcases agrees with ⟨-, -, full⟩ | ⟨p, -, -, turn⟩
  · exact ofFull full
  · cases stage : stages p with
    | outside =>
      rw [stage] at turn
      cases turn
    | won =>
      rw [stage] at turn
      exact ofFull turn.1
    | read =>
      rw [stage] at turn
      exact ⟨none, [p], turn.flow, turn.turns, rfl, fun alternating => turn.turns ▸ turn.alternate alternating⟩
    | written =>
      rw [stage] at turn
      exact ofFull turn

end

theorem isChain_readers_iff {first : Process} {later senders last : List Process} (one : last.length ≤ 1)
    (follow : first :: later = senders ++ last) :
    (first :: later).IsChain (· ≠ ·) ↔ later = (senders.take later.length).map Process.other := by
  induction later generalizing first senders with
  | nil => simp
  | cons second later ih =>
    cases senders with
    | nil =>
      rw [List.nil_append] at follow
      rw [← follow, List.length_cons, List.length_cons] at one
      omega
    | cons sender senders =>
      obtain ⟨rfl, rest⟩ := List.cons.inj follow
      rw [List.isChain_cons_cons, ih rest, List.length_cons, List.take_succ_cons, List.map_cons, List.cons.injEq,
        eq_other_iff]

theorem receipts_ext {receipts others : List Receipt} (readers : receipts.map Receipt.reader = others.map Receipt.reader)
    (bytes : receipts.map Receipt.bytes = others.map Receipt.bytes) : receipts = others := by
  induction receipts generalizing others with
  | nil => exact (List.map_eq_nil_iff.mp readers.symm).symm
  | cons receipt receipts ih =>
    cases others with
    | nil => cases readers
    | cons other others =>
      obtain ⟨sameReader, laterReaders⟩ := List.cons.inj readers
      obtain ⟨sameBytes, laterBytes⟩ := List.cons.inj bytes
      rw [ih laterReaders laterBytes]
      exact congrArg (· :: others) (congrArg₂ Receipt.mk sameReader sameBytes)

theorem delivered_iff {s : State} {content : Option (List Char)} {last : List Process} (flow : Flow s content)
    (follow : s.readers = s.senders ++ last) (balance : last.length + content.toList.length = 1) :
    (∃ pending, Delivered s pending) ↔ s.readers.IsChain (· ≠ ·) := by
  have bytes := flow.bytes
  have pipe := flow.pipe
  obtain ⟨semaphore, inPipe, written, received⟩ := s
  simp only [State.readers, State.senders] at follow bytes pipe ⊢
  cases received with
  | nil =>
    have nothing := congrArg List.length bytes
    simp only [List.map_nil, List.nil_append, List.length_cons, List.length_map] at nothing
    obtain rfl : written = [] := List.eq_nil_of_length_eq_zero (by omega)
    refine ⟨fun _ => .nil, fun _ => ⟨[], nofun, rfl, ?_, Nat.le_refl 0⟩⟩
    show inPipe = initialContent
    rw [pipe]
    cases content with
    | none => cases bytes
    | some content => exact (List.cons.inj bytes).1
  | cons receipt receipts =>
    rw [List.map_cons, List.cons_append] at bytes
    obtain ⟨initial, rest⟩ := List.cons.inj bytes
    have length : receipts.length + content.toList.length = written.length := by
      have lengths := congrArg List.length rest
      rwa [List.length_append, List.length_map, List.length_map] at lengths
    rw [List.map_cons, isChain_readers_iff (by omega) follow, List.length_map, ← List.map_take, List.map_map]
    constructor
    · rintro ⟨pending, delivered⟩
      have relayed : written.map Message.relayed = receipts ++ pending.map Message.relayed := delivered.relayed
      have front := congrArg (List.take receipts.length) relayed
      rw [List.take_left, ← List.map_take] at front
      conv_lhs => rw [← front, List.map_map]
      rfl
    · intro readers
      have front : receipts = (written.take receipts.length).map Message.relayed := by
        refine receipts_ext (readers.trans ?_) ?_
        · rw [List.map_map]
          rfl
        · have taken := congrArg (List.take (receipts.map Receipt.bytes).length) rest
          rw [List.take_left, List.length_map, ← List.map_take] at taken
          rw [taken, List.map_map]
          rfl
      have back : content.toList = (written.drop receipts.length).map Message.bytes := by
        have dropped := congrArg (List.drop (receipts.map Receipt.bytes).length) rest
        rwa [List.drop_left, List.length_map, ← List.map_drop] at dropped
      refine ⟨written.drop receipts.length, ?_, ?_, ?_, ?_⟩
      · rintro _ ⟨⟩
        exact initial
      · show written.map Message.relayed = receipts ++ _
        conv_rhs => rw [front]
        rw [List.length_map, List.length_take, Nat.min_eq_left (by omega), ← List.map_append, List.take_append_drop]
      · rw [if_neg (List.cons_ne_nil _ _), List.flatMap_def, ← back, pipe]
        cases content with
        | none => rfl
        | some content => exact (List.append_nil content).symm
      · rw [if_neg (List.cons_ne_nil _ _), List.length_drop]
        omega

section

variable {pid : Process → BitVec 32} {rounds : Nat} {pool : Processes}

theorem exists_agrees {strict : Prop} (reach : Pool.Reach relay
    (fun pool action => strict → InTurn pool action) (processes pid rounds) pool) :
    ∃ stages, Agrees strict pool.state stages := by
  have initial : Flow .start (some initialContent) := ⟨rfl, rfl, by simp [initialContent, maxMessageSize]⟩
  have start : (processes pid rounds).Disciplined (fun _ => turns) (fun _ => .outside) (fun _ _ => True)
      (Agrees strict) :=
    ⟨fun _ => True.intro, processProgram_obeys pid rounds,
      .inl ⟨rfl, fun _ => rfl, ⟨initialContent, initial⟩, rfl, fun _ => .nil⟩⟩
  have disciplined := reach.disciplined (fun pool this call answer s' agrees inTurn allowed performed =>
    agrees.perform (fun strictly isWait => by
      subst isWait
      exact inTurn strictly rfl) allowed performed) (fun _ _ _ _ _ _ cut => by cases cut) start
  exact ⟨_, disciplined.agrees⟩

end

/-- When no process wins the semaphore right after its own turn, every message is read once, whole, in
    order and by the other process; and in every run this is so exactly as long as the processes read in
    turns. -/
theorem delivered_of_inTurn (pid : Process → BitVec 32) (rounds : Nat) (pool : Processes) :
    (Pool.Reach relay InTurn (processes pid rounds) pool → ∃ pending, Delivered pool.state pending) ∧
    (Pool.Reach relay (fun _ _ => True) (processes pid rounds) pool →
      ((∃ pending, Delivered pool.state pending) ↔ pool.state.readers.IsChain (· ≠ ·))) := by
  constructor
  · intro reach
    obtain ⟨stages, agrees⟩ := @exists_agrees pid rounds pool True (reach.mono fun _ _ inTurn _ => inTurn)
    obtain ⟨content, last, flow, follow, balance, alternate⟩ := agrees.lists
    exact (delivered_iff flow follow balance).mpr (alternate True.intro)
  · intro reach
    obtain ⟨stages, agrees⟩ := @exists_agrees pid rounds pool False (reach.mono fun _ _ _ absurd => absurd.elim)
    obtain ⟨content, last, flow, follow, balance, -⟩ := agrees.lists
    exact delivered_iff flow follow balance

def State.answer : (call : Call) → State → Option call.Answer
  | .isRunning, _ | .semop _, _ => some true
  | .read size, s => some (some (s.pipe.take size))
  | .write bytes, _ => some (some bytes.length)
  | .printMessage _ _, _ | .perror _, _ | .sleep, _ => some ()
  | .crash, _ | .goesOn, _ => none

def somePid : Process → BitVec 32
  | .parent => 7
  | .child => 8

/-- The parent makes its turn, and the child reads its message. -/
theorem child_reads_message : ∃ pool, Pool.Reach relay InTurn (processes somePid 2) pool ∧
    pool.state.received = [⟨.parent, initialContent⟩, ⟨.child, someMessage somePid .parent 1⟩] ∧
      ∃ pending, Delivered pool.state pending := by
  have replayed : ((processes somePid 2).replay relay (fun pool action => decide (InTurn pool action))
      [.go .parent 6 State.answer, .go .child 3 State.answer]).any (fun pool => pool.state.received =
        [⟨.parent, initialContent⟩, ⟨.child, someMessage somePid .parent 1⟩]) = true := by decide +kernel
  obtain ⟨pool, reach, checked⟩ := Pool.exists_reach_of_replay (fun _ _ => of_decide_eq_true) replayed
  exact ⟨pool, reach, of_decide_eq_true checked, (delivered_of_inTurn somePid 2 pool).1 reach⟩

/-- Nothing keeps the parent from winning the semaphore again, and then it reads its own message. -/
theorem parent_reads_own_message : ∃ pool, Pool.Reach relay (fun _ _ => True) (processes somePid 2) pool ∧
    pool.state.written = [⟨.parent, someMessage somePid .parent 1⟩] ∧
      pool.state.received = [⟨.parent, initialContent⟩, ⟨.parent, someMessage somePid .parent 1⟩] ∧
        ¬ ∃ pending, Delivered pool.state pending := by
  have replayed : ((processes somePid 2).replay relay (fun _ _ => true) [.go .parent 9 State.answer]).any
      (fun pool => pool.state.written = [⟨.parent, someMessage somePid .parent 1⟩] &&
        pool.state.received = [⟨.parent, initialContent⟩, ⟨.parent, someMessage somePid .parent 1⟩]) = true := by
    decide +kernel
  obtain ⟨pool, reach, checked⟩ := Pool.exists_reach_of_replay (fun _ _ _ => True.intro) replayed
  obtain ⟨wrote, read⟩ := Bool.and_eq_true_iff.mp checked
  have written := of_decide_eq_true wrote
  have received := of_decide_eq_true read
  refine ⟨pool, reach, written, received, ?_⟩
  rintro ⟨pending, delivered⟩
  have relayed := delivered.relayed
  rw [received, written] at relayed
  have toChild : Process.child = Process.parent := congrArg Receipt.reader (List.cons.inj relayed).1
  cases toChild

end ArchCompSystems.OsHw9
