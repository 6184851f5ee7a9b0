import ArchCompSystems.OsHw5.Threads

namespace ArchCompSystems.OsHw5

open Library Library.Program

namespace State

def sentBits (s : State) : List Signal := s.sender.sent.tail

def approvals (s : State) : Nat := s.receiver.sent.count receivedApproveSignal

def HandshakeComplete (s : State) : Prop :=
  s.sender.otherProcessReady = true ∧ s.receiver.otherProcessReady = true

def Quiet (s : State) : Prop :=
  (∀ signal, s.receiver.signals.pending signal = false) ∧ s.receiver.signals.running = []

/-- The receiver knows that the sender is ready, no signal waits at it, and of the others that it has
    caught each has been approved. -/
def Attended (s : State) : Prop :=
  s.receiver.otherProcessReady = true ∧ (∀ signal, s.receiver.signals.pending signal = false) ∧
    s.receiver.signals.caught.length = 1 + s.approvals

end State

/-- What the transmission of `number` promises about a state. -/
structure Transmits (number : BitVec 32) (s : State) : Prop where
  approved : s.sentBits.length ≤ s.approvals + 1
  counted_le : s.writeBit.toNat ≤ s.sentBits.length
  counted : s.HandshakeComplete → s.Quiet → s.writeBit.toNat = s.sentBits.length
  printed : ∀ result, s.printed = some result → result = number

structure Progress where
  sends : Nat
  stage : Signal → Stage
  otherPid : Option Process
  reading : Reading

def progress (ms : Thread → Local) : Progress where
  sends := (ms (.sender, .main)).sends
  stage signal := (ms (.receiver, .handler signal)).stage
  otherPid := (ms (.receiver, .main)).otherPid
  reading := (ms (.receiver, .main)).reading

def both (f : Signal → Nat) : Nat := f .sigusr1 + f .sigusr2

theorem both_exchange {f g : Signal → Nat} (signal : Signal) (others : ∀ other, other ≠ signal → f other = g other) :
    both f + g signal = both g + f signal := by
  unfold both
  cases signal with
  | sigusr1 => rw [others .sigusr2 nofun]; omega
  | sigusr2 => rw [others .sigusr1 nofun]; omega

theorem le_both (f : Signal → Nat) (signal : Signal) : f signal ≤ both f := by
  unfold both
  cases signal <;> omega

theorem both_le_both {f g : Signal → Nat} (each : ∀ signal, f signal ≤ g signal) : both f ≤ both g :=
  Nat.add_le_add (each _) (each _)

theorem both_eq_zero {f : Signal → Nat} (each : ∀ signal, f signal = 0) : both f = 0 := by
  unfold both
  rw [each, each]

namespace Stage

def owes : Stage → Nat
  | .idle | .greeting | .finished => 0
  | _ => 1

def counts : Stage → Nat
  | .counted | .pidLoaded _ => 1
  | _ => 0

def stores : Stage → Nat
  | .numberStored | .bitReloaded _ | .counted | .pidLoaded _ => 1
  | _ => 0

def Loaded (s : State) : Stage → Prop
  | .greeting => False
  | .numberLoaded number => number = s.readNumber
  | .bitLoaded number bit => number = s.readNumber ∧ bit = s.writeBit
  | .bitReloaded bit => bit = s.writeBit
  | _ => True

theorem counts_le_stores (stage : Stage) : stage.counts ≤ stage.stores := by cases stage <;> simp [counts, stores]

theorem stores_le_owes (stage : Stage) : stage.stores ≤ stage.owes := by cases stage <;> simp [stores, owes]

end Stage

def State.waiting (s : State) : Nat := both fun signal => (s.receiver.signals.pending signal).toNat

namespace Progress

def owed (g : Progress) : Nat := both fun signal => (g.stage signal).owes

def counted (g : Progress) : Nat := both fun signal => (g.stage signal).counts

def stored (g : Progress) : Nat := both fun signal => (g.stage signal).stores

theorem counted_le_stored (g : Progress) : g.counted ≤ g.stored := both_le_both fun _ => Stage.counts_le_stores _

theorem stored_le_owed (g : Progress) : g.stored ≤ g.owed := both_le_both fun _ => Stage.stores_le_owes _

end Progress

/-- The receiver has not handled the ready signal of the sender. -/
structure Greeting (s : State) (g : Progress) : Prop where
  sends_le : g.sends ≤ 1
  approvals : s.approvals = 0
  writeBit : s.writeBit = 0
  readNumber : s.readNumber = 0
  noBit : s.receiver.signals.pending .sigusr1 = false
  idle : g.stage .sigusr1 = .idle
  ready : (g.stage .sigusr2 = .idle ∧ s.receiver.signals.caught = [] ∧
      (s.receiver.signals.pending .sigusr2 = true → g.sends = 1)) ∨
    ((g.stage .sigusr2 = .entered ∨ g.stage .sigusr2 = .greeting) ∧ s.receiver.signals.caught.length = 1 ∧
      s.receiver.signals.pending .sigusr2 = false ∧ g.sends = 1)

/-- The receiver has handled the ready signal; at most one bit is on its way. -/
structure Receiving (number : BitVec 32) (s : State) (g : Progress) : Prop where
  sends : g.sends = 1 + s.approvals + s.waiting + g.owed
  single : s.waiting + g.owed ≤ 1
  caught : s.receiver.signals.caught.length = 1 + s.approvals + g.owed
  writeBit : s.writeBit.toNat = s.approvals + g.counted
  readNumber : s.readNumber = lowBits number (s.approvals + g.stored)
  due : ∀ signal, s.receiver.signals.pending signal = true ∨ (g.stage signal).owes = 1 →
    signal = bitSignal number s.approvals
  loaded : ∀ signal, (g.stage signal).Loaded s

structure Transmission (number : BitVec 32) (s : State) (g : Progress) : Prop where
  sent : s.sender.sent = (signalsFor number).take g.sends
  sends_le : g.sends ≤ bitsOfNumber + 1
  nodup : s.receiver.signals.running.Nodup
  running : ∀ signal, signal ∈ s.receiver.signals.running ↔ g.stage signal ≠ .idle
  installed : s.receiver.installed = false →
    (∀ signal, s.receiver.signals.pending signal = false) ∧ s.receiver.signals.caught = []
  otherPid : s.otherPid = g.otherPid
  pidLoaded : ∀ signal pid, g.stage signal = .pidLoaded pid → pid = s.otherPid
  greeting : s.receiver.otherProcessReady = false → Greeting s g
  receiving : s.receiver.otherProcessReady = true → Receiving number s g
  full : g.reading = .full → bitsOfNumber ≤ s.writeBit.toNat
  read : ∀ result, g.reading = .read result → result = number
  printed : ∀ result, s.printed = some result → result = number

section

variable {number : BitVec 32} {s s' : State} {g : Progress}

theorem Transmission.length_sentBits (holds : Transmission number s g) : s.sentBits.length = g.sends - 1 := by
  have bounded := holds.sends_le
  rw [State.sentBits, holds.sent, List.length_tail, List.length_take, length_signalsFor, Nat.min_eq_left bounded]

theorem Transmission.readNumber_eq (holds : Transmission number s g) (all : bitsOfNumber ≤ s.writeBit.toNat) :
    s.readNumber = number := by
  cases ready : s.receiver.otherProcessReady with
  | false =>
    rw [(holds.greeting ready).writeBit] at all
    simp [bitsOfNumber] at all
  | true =>
    have receiving := holds.receiving ready
    rw [receiving.readNumber]
    apply lowBits_all
    have := receiving.writeBit
    have := g.counted_le_stored
    omega

theorem Transmission.transmits (holds : Transmission number s g) : Transmits number s := by
  have length := holds.length_sentBits
  cases ready : s.receiver.otherProcessReady with
  | false =>
    have greeting := holds.greeting ready
    have sends := greeting.sends_le
    have none : s.sentBits.length = 0 := by omega
    have zero : s.writeBit.toNat = 0 := by rw [greeting.writeBit]; rfl
    exact ⟨by omega, by omega, fun _ _ => by omega, holds.printed⟩
  | true =>
    have receiving := holds.receiving ready
    have sends := receiving.sends
    have single := receiving.single
    have writeBit := receiving.writeBit
    have counted := Nat.le_trans g.counted_le_stored g.stored_le_owed
    refine ⟨by omega, by omega, fun _ quiet => ?_, holds.printed⟩
    have idle : ∀ signal, g.stage signal = .idle := by
      intro signal
      by_contra busy
      have member := (holds.running signal).mpr busy
      rw [quiet.2] at member
      cases member
    have noneWaits : s.waiting = 0 := both_eq_zero fun signal => by rw [quiet.1 signal]; rfl
    have noneOwed : g.owed = 0 := both_eq_zero fun signal => by rw [idle signal]; rfl
    omega

/-- Nothing has changed that the invariant speaks about. -/
structure Untouched (s s' : State) : Prop where
  sent : s'.sender.sent = s.sender.sent
  signals : s'.receiver.signals = s.receiver.signals
  ready : s'.receiver.otherProcessReady = s.receiver.otherProcessReady
  approvals : s'.approvals = s.approvals
  installed : s'.receiver.installed = false → s.receiver.installed = false
  otherPid : s'.otherPid = s.otherPid
  readNumber : s'.readNumber = s.readNumber
  writeBit : s'.writeBit = s.writeBit
  printed : s'.printed = s.printed

theorem Stage.loaded_congr {stage : Stage} (readNumber : s'.readNumber = s.readNumber)
    (writeBit : s'.writeBit = s.writeBit) : stage.Loaded s' ↔ stage.Loaded s := by
  cases stage <;> simp only [Loaded, readNumber, writeBit]

theorem Greeting.congr {g' : Progress} (greeting : Greeting s g) (signals : s'.receiver.signals = s.receiver.signals)
    (approvals : s'.approvals = s.approvals) (writeBit : s'.writeBit = s.writeBit)
    (readNumber : s'.readNumber = s.readNumber) (sends : g'.sends = g.sends) (stage : g'.stage = g.stage) :
    Greeting s' g' where
  sends_le := sends ▸ greeting.sends_le
  approvals := approvals.trans greeting.approvals
  writeBit := writeBit.trans greeting.writeBit
  readNumber := readNumber.trans greeting.readNumber
  noBit := by rw [signals]; exact greeting.noBit
  idle := by rw [stage]; exact greeting.idle
  ready := by rw [signals, stage, sends]; exact greeting.ready

theorem Receiving.congr {g' : Progress} (receiving : Receiving number s g)
    (signals : s'.receiver.signals = s.receiver.signals) (approvals : s'.approvals = s.approvals)
    (writeBit : s'.writeBit = s.writeBit) (readNumber : s'.readNumber = s.readNumber) (sends : g'.sends = g.sends)
    (stage : g'.stage = g.stage) : Receiving number s' g' := by
  have waiting : s'.waiting = s.waiting := by rw [State.waiting, signals, State.waiting]
  have owed : g'.owed = g.owed := by rw [Progress.owed, stage, Progress.owed]
  have counted : g'.counted = g.counted := by rw [Progress.counted, stage, Progress.counted]
  have stored : g'.stored = g.stored := by rw [Progress.stored, stage, Progress.stored]
  refine ⟨?_, ?_, ?_, ?_, ?_, ?_, fun signal => ?_⟩
  · rw [sends, approvals, waiting, owed]
    exact receiving.sends
  · rw [waiting, owed]
    exact receiving.single
  · rw [signals, approvals, owed]
    exact receiving.caught
  · rw [writeBit, approvals, counted]
    exact receiving.writeBit
  · rw [readNumber, approvals, stored]
    exact receiving.readNumber
  · rw [signals, approvals, stage]
    exact receiving.due
  · rw [stage]
    exact (Stage.loaded_congr readNumber writeBit).mpr (receiving.loaded signal)

theorem Transmission.untouched (holds : Transmission number s g) (same : Untouched s s') :
    Transmission number s' g where
  sent := same.sent.trans holds.sent
  sends_le := holds.sends_le
  nodup := by rw [same.signals]; exact holds.nodup
  running := by rw [same.signals]; exact holds.running
  installed uninstalled := by rw [same.signals]; exact holds.installed (same.installed uninstalled)
  otherPid := same.otherPid.trans holds.otherPid
  pidLoaded := by rw [same.otherPid]; exact holds.pidLoaded
  greeting notReady := (holds.greeting (same.ready.symm.trans notReady)).congr same.signals same.approvals same.writeBit
    same.readNumber rfl rfl
  receiving ready := (holds.receiving (same.ready.symm.trans ready)).congr same.signals same.approvals same.writeBit
    same.readNumber rfl rfl
  full := by rw [same.writeBit]; exact holds.full
  read := holds.read
  printed := by rw [same.printed]; exact holds.printed

theorem untouched_of_plain {p : Process} {c : Call} {answer : c.Answer} (plain : c.isPlain = true)
    (performed : performRunning p c answer s = some s') : Untouched s s' := by
  have refl : Untouched s s := ⟨rfl, rfl, rfl, rfl, id, rfl, rfl, rfl, rfl⟩
  cases c <;> cases plain
  case readPid | getpid | getpgid | loadReady | loadOtherPid | loadReadNumber | loadWriteBit =>
    simp only [performRunning, Option.ite_none_right_eq_some, Option.some.injEq] at performed
    exact performed.2 ▸ refl
  case resume =>
    simp only [performRunning, Option.ite_none_left_eq_some, Option.some.injEq] at performed
    exact performed.2 ▸ refl
  case semWait =>
    simp only [performRunning, Option.ite_none_right_eq_some, Option.some.injEq] at performed
    obtain ⟨-, rfl⟩ := performed
    exact ⟨rfl, rfl, rfl, rfl, id, rfl, rfl, rfl, rfl⟩
  case goesOn => exact isEmptyElim answer
  case setupSignalHandlers =>
    cases p <;> cases performed
    · exact ⟨rfl, rfl, rfl, rfl, id, rfl, rfl, rfl, rfl⟩
    · exact ⟨rfl, rfl, rfl, rfl, nofun, rfl, rfl, rfl, rfl⟩
  all_goals
    cases p <;> cases performed <;> exact ⟨rfl, rfl, rfl, rfl, id, rfl, rfl, rfl, rfl⟩

theorem untouched_of_sender {change : ProcessState → ProcessState} (sent : (change s.sender).sent = s.sender.sent) :
    Untouched s (s.modify .sender change) := ⟨sent, rfl, rfl, rfl, id, rfl, rfl, rfl, rfl⟩

def Progress.move (g : Progress) (signal : Signal) (stage : Stage) : Progress :=
  { g with stage := Function.update g.stage signal stage }

section

variable {signal other : Signal} {stage : Stage}

@[simp] theorem Progress.move_stage_self : (g.move signal stage).stage signal = stage := Function.update_self ..

theorem Progress.move_stage_of_ne (differs : other ≠ signal) : (g.move signal stage).stage other = g.stage other :=
  Function.update_of_ne differs ..

theorem Progress.both_move (f : Stage → Nat) : (both fun other => f ((g.move signal stage).stage other)) +
    f (g.stage signal) = (both fun other => f (g.stage other)) + f stage := by
  have exchanged := @both_exchange (fun other => f ((g.move signal stage).stage other))
    (fun other => f (g.stage other)) signal fun other differs => by rw [Progress.move_stage_of_ne differs]
  rwa [Progress.move_stage_self] at exchanged

theorem none_due (waiting : s.waiting = 0) (owed : g.owed = 0) (signal : Signal) :
    ¬ (s.receiver.signals.pending signal = true ∨ (g.stage signal).owes = 1) := by
  have waits := le_both (fun other => (s.receiver.signals.pending other).toNat) signal
  have owes := le_both (fun other => (g.stage other).owes) signal
  rintro (pending | one)
  · have isOne : (s.receiver.signals.pending signal).toNat = 1 := congrArg Bool.toNat pending
    unfold State.waiting at waiting
    omega
  · unfold Progress.owed at owed
    omega

theorem Greeting.early (greeting : Greeting s g) (signal : Signal) :
    g.stage signal = .idle ∨ g.stage signal = .entered ∨ g.stage signal = .greeting := by
  cases signal with
  | sigusr1 => exact .inl greeting.idle
  | sigusr2 =>
    rcases greeting.ready with ⟨idle, -⟩ | ⟨entered | noticed, -⟩
    · exact .inl idle
    · exact .inr (.inl entered)
    · exact .inr (.inr noticed)

theorem Receiving.alone (receiving : Receiving number s g) (owes : (g.stage signal).owes = 1) :
    s.waiting = 0 ∧ g.owed = 1 ∧ ∀ other, other ≠ signal → (g.stage other).owes = 0 := by
  have single := receiving.single
  have own := le_both (fun signal => (g.stage signal).owes) signal
  have total : g.owed = both fun signal => (g.stage signal).owes := rfl
  refine ⟨by omega, by omega, fun other differs => ?_⟩
  have two : (g.stage signal).owes + (g.stage other).owes = g.owed := by
    rw [total, both]
    cases signal <;> cases other <;> first | exact absurd rfl differs | exact Nat.add_comm _ _ | rfl
  omega

theorem Stage.counts_eq_zero (none : stage.owes = 0) : stage.counts = 0 := by
  have := Nat.le_trans stage.counts_le_stores stage.stores_le_owes
  omega

theorem Stage.stores_eq_zero (none : stage.owes = 0) : stage.stores = 0 := by
  have := stage.stores_le_owes
  omega

theorem Stage.Loaded.of_owes_eq_zero (none : stage.owes = 0) (loaded : stage.Loaded s) : stage.Loaded s' := by
  cases stage <;> first | exact True.intro | exact loaded.elim | cases none

theorem both_of_others {f : Signal → Nat} (others : ∀ other, other ≠ signal → f other = 0) : both f = f signal := by
  unfold both
  cases signal with
  | sigusr1 => rw [others .sigusr2 nofun, Nat.add_zero]
  | sigusr2 => rw [others .sigusr1 nofun, Nat.zero_add]

theorem Transmission.running_move (holds : Transmission number s g) (busy : g.stage signal ≠ .idle)
    (moved : stage ≠ .idle) (other : Signal) :
    other ∈ s.receiver.signals.running ↔ (g.move signal stage).stage other ≠ .idle := by
  by_cases same : other = signal
  · subst same
    rw [Progress.move_stage_self]
    exact iff_of_true ((holds.running other).mpr busy) moved
  · rw [Progress.move_stage_of_ne same]
    exact holds.running other

theorem Transmission.pidLoaded_move (holds : Transmission number s g)
    (known : ∀ pid, stage = .pidLoaded pid → pid = s.otherPid) (other : Signal) (pid : Option Process)
    (there : (g.move signal stage).stage other = .pidLoaded pid) : pid = s.otherPid := by
  by_cases same : other = signal
  · subst same
    rw [Progress.move_stage_self] at there
    exact known pid there
  · rw [Progress.move_stage_of_ne same] at there
    exact holds.pidLoaded other pid there

theorem Stage.ne_idle_of_owes (owes : stage.owes = 1) : stage ≠ .idle := by
  rintro rfl
  cases owes

/-- The memory of a bit that is being handled: what the handler stores and loads. -/
structure Advance (number : BitVec 32) (s s' : State) (before after : Stage) : Prop where
  state : s' = { s with readNumber := s'.readNumber, writeBit := s'.writeBit }
  owes : before.owes = 1 ∧ after.owes = 1
  writeBit : s'.writeBit.toNat = s.approvals + after.counts
  readNumber : s'.readNumber = lowBits number (s.approvals + after.stores)
  loaded : after.Loaded s'
  pidLoaded : ∀ pid, after = .pidLoaded pid → pid = s.otherPid
  longer : s.writeBit.toNat ≤ s'.writeBit.toNat

theorem Transmission.advance (holds : Transmission number s g) (ready : s.receiver.otherProcessReady = true)
    (step : Advance number s s' (g.stage signal) stage) : Transmission number s' (g.move signal stage) := by
  have receiving := holds.receiving ready
  obtain ⟨noneWaits, oneOwed, others⟩ := receiving.alone step.owes.1
  have state := step.state
  have owed : (g.move signal stage).owed = g.owed := by
    have := @Progress.both_move g signal stage Stage.owes
    have before := step.owes
    unfold Progress.owed at *
    omega
  have othersMoved : ∀ other, other ≠ signal → ((g.move signal stage).stage other).owes = 0 := by
    intro other differs
    rw [Progress.move_stage_of_ne differs]
    exact others other differs
  have counted : (g.move signal stage).counted = stage.counts := by
    rw [Progress.counted, both_of_others fun other differs => Stage.counts_eq_zero (othersMoved other differs),
      Progress.move_stage_self]
  have stored : (g.move signal stage).stored = stage.stores := by
    rw [Progress.stored, both_of_others fun other differs => Stage.stores_eq_zero (othersMoved other differs),
      Progress.move_stage_self]
  rw [state]
  refine ⟨holds.sent, holds.sends_le, holds.nodup,
    holds.running_move (Stage.ne_idle_of_owes step.owes.1) (Stage.ne_idle_of_owes step.owes.2), holds.installed,
    holds.otherPid, holds.pidLoaded_move step.pidLoaded, fun notReady => ?_, fun _ => ?_, fun full => ?_, holds.read,
    holds.printed⟩
  · rw [ready] at notReady
    cases notReady
  · refine ⟨?_, ?_, ?_, ?_, ?_, fun other due => ?_, fun other => ?_⟩
    · rw [owed]
      exact receiving.sends
    · rw [owed]
      exact receiving.single
    · rw [owed]
      exact receiving.caught
    · rw [counted]
      exact step.writeBit
    · rw [stored]
      exact step.readNumber
    · by_cases same : other = signal
      · subst same
        exact receiving.due other (.inr step.owes.1)
      · rw [Progress.move_stage_of_ne same] at due
        exact receiving.due other due
    · by_cases same : other = signal
      · subst same
        rw [Progress.move_stage_self]
        exact (Stage.loaded_congr rfl rfl).mpr step.loaded
      · rw [Progress.move_stage_of_ne same]
        exact (receiving.loaded other).of_owes_eq_zero (others other same)
  · exact Nat.le_trans (holds.full full) step.longer

theorem Transmission.notices (holds : Transmission number s g) (entered : g.stage .sigusr2 = .entered)
    (notReady : s.receiver.otherProcessReady = false) : Transmission number s (g.move .sigusr2 .greeting) := by
  have greeting := holds.greeting notReady
  have busy : g.stage .sigusr2 ≠ .idle := by rw [entered]; nofun
  refine ⟨holds.sent, holds.sends_le, holds.nodup, holds.running_move busy nofun, holds.installed, holds.otherPid,
    holds.pidLoaded_move nofun, fun _ => ?_, fun ready => ?_, holds.full, holds.read, holds.printed⟩
  · refine ⟨greeting.sends_le, greeting.approvals, greeting.writeBit, greeting.readNumber, greeting.noBit,
      greeting.idle, .inr ⟨.inr Progress.move_stage_self, ?_⟩⟩
    rcases greeting.ready with ⟨idle, -⟩ | ⟨-, rest⟩
    · exact absurd idle busy
    · exact rest
  · rw [notReady] at ready
    cases ready

theorem Transmission.greets (holds : Transmission number s g) (greeting : g.stage .sigusr2 = .greeting) :
    Transmission number (s.modify .receiver fun q => { q with otherProcessReady := true })
      (g.move .sigusr2 .finished) := by
  have notReady : s.receiver.otherProcessReady = false := by
    cases ready : s.receiver.otherProcessReady with
    | false => rfl
    | true =>
      have loaded := (holds.receiving ready).loaded .sigusr2
      rw [greeting] at loaded
      exact loaded.elim
  have before := holds.greeting notReady
  have busy : g.stage .sigusr2 ≠ .idle := by rw [greeting]; nofun
  obtain ⟨caught, noneWaits, sends⟩ : s.receiver.signals.caught.length = 1 ∧
      s.receiver.signals.pending .sigusr2 = false ∧ g.sends = 1 := by
    rcases before.ready with ⟨idle, -⟩ | ⟨-, rest⟩
    · exact absurd idle busy
    · exact rest
  have others : ∀ other, other ≠ .sigusr2 → (g.move .sigusr2 .finished).stage other = .idle := by
    intro other differs
    rw [Progress.move_stage_of_ne differs]
    cases other with
    | sigusr1 => exact before.idle
    | sigusr2 => exact absurd rfl differs
  have none : ∀ f : Stage → Nat, f .idle = 0 → f .finished = 0 →
      (both fun other => f ((g.move .sigusr2 .finished).stage other)) = 0 := by
    intro f idle finished
    refine both_eq_zero fun other => ?_
    by_cases same : other = .sigusr2
    · rw [same, Progress.move_stage_self, finished]
    · rw [others other same, idle]
  have owed : (g.move .sigusr2 .finished).owed = 0 := none Stage.owes rfl rfl
  have waiting : s.waiting = 0 := both_eq_zero fun other => by
    cases other with
    | sigusr1 => rw [before.noBit]; rfl
    | sigusr2 => rw [noneWaits]; rfl
  have approvals := before.approvals
  refine ⟨holds.sent, holds.sends_le, holds.nodup, holds.running_move busy nofun, holds.installed, holds.otherPid,
    holds.pidLoaded_move nofun, nofun, fun _ => ?_, holds.full, holds.read, holds.printed⟩
  refine ⟨?_, ?_, ?_, ?_, ?_, fun other due => ?_, fun other => ?_⟩
  · rw [owed]
    change g.sends = 1 + s.approvals + s.waiting + 0
    omega
  · rw [owed]
    change s.waiting + 0 ≤ 1
    omega
  · rw [owed]
    change s.receiver.signals.caught.length = 1 + s.approvals + 0
    omega
  · rw [show (g.move .sigusr2 .finished).counted = 0 from none Stage.counts rfl rfl]
    change s.writeBit.toNat = s.approvals + 0
    rw [before.writeBit, approvals]
    rfl
  · rw [show (g.move .sigusr2 .finished).stored = 0 from none Stage.stores rfl rfl]
    change s.readNumber = lowBits number (s.approvals + 0)
    rw [before.readNumber, approvals, lowBits_zero]
  · exact (none_due waiting owed other due).elim
  · by_cases same : other = .sigusr2
    · rw [same, Progress.move_stage_self]
      exact True.intro
    · rw [others other same]
      exact True.intro

def State.interrupted (s : State) (signal : Signal) : State :=
  s.modify .receiver fun q => { q with
    signals := ⟨Function.update q.signals.pending signal false, signal :: q.signals.running, q.signals.caught ++ [signal]⟩ }

theorem waiting_interrupted (pending : s.receiver.signals.pending signal = true) :
    (s.interrupted signal).waiting + 1 = s.waiting := by
  have exchanged := @both_exchange (fun other => ((s.interrupted signal).receiver.signals.pending other).toNat)
    (fun other => (s.receiver.signals.pending other).toNat) signal fun other differs => by
      simp only [State.interrupted, State.modify, Function.update_of_ne differs]
  have after : ((s.interrupted signal).receiver.signals.pending signal).toNat = 0 := by
    simp only [State.interrupted, State.modify, Function.update_self, Bool.toNat_false]
  rw [after, pending] at exchanged
  exact exchanged

def Stage.first (signal : Signal) : Stage := if signal = readySignal then .entered else .opened

theorem Stage.owes_first : (Stage.first signal).owes = 1 := by cases signal <;> rfl

theorem Greeting.interrupted (greeting : Greeting s g) (pending : s.receiver.signals.pending signal = true)
    (idle : g.stage signal = .idle) : Greeting (s.interrupted signal) (g.move signal (.first signal)) := by
  have isReady : signal = .sigusr2 := by
    cases signal with
    | sigusr1 => exact absurd pending (by rw [greeting.noBit]; exact nofun)
    | sigusr2 => rfl
  subst isReady
  obtain ⟨-, caught, sends⟩ | ⟨busy, -⟩ := greeting.ready
  · refine ⟨greeting.sends_le, greeting.approvals, greeting.writeBit, greeting.readNumber, ?_, ?_, .inr ⟨.inl ?_, ?_, ?_, ?_⟩⟩
    · exact greeting.noBit
    · exact (Progress.move_stage_of_ne (by decide)).trans greeting.idle
    · exact Progress.move_stage_self
    · simp only [State.interrupted, State.modify, caught, List.nil_append, List.length_singleton]
    · simp only [State.interrupted, State.modify, Function.update_self]
    · exact sends pending
  · rcases busy with entered | noticed
    · rw [idle] at entered
      cases entered
    · rw [idle] at noticed
      cases noticed

theorem pending_of_interrupted {other : Signal} (due : (s.interrupted signal).receiver.signals.pending other = true) :
    s.receiver.signals.pending other = true := by
  simp only [State.interrupted, State.modify, Function.update_apply] at due
  split at due
  · cases due
  · exact due

theorem Receiving.interrupted (receiving : Receiving number s g) (pending : s.receiver.signals.pending signal = true)
    (idle : g.stage signal = .idle) : Receiving number (s.interrupted signal) (g.move signal (.first signal)) := by
  have waiting := waiting_interrupted pending
  have owed : (g.move signal (.first signal)).owed = g.owed + 1 := by
    have moved := @Progress.both_move g signal (.first signal) Stage.owes
    rw [idle, Stage.owes_first] at moved
    exact moved
  have counted : (g.move signal (.first signal)).counted = g.counted := by
    have moved := @Progress.both_move g signal (.first signal) Stage.counts
    rw [idle] at moved
    cases signal <;> exact moved
  have stored : (g.move signal (.first signal)).stored = g.stored := by
    have moved := @Progress.both_move g signal (.first signal) Stage.stores
    rw [idle] at moved
    cases signal <;> exact moved
  have sends := receiving.sends
  have single := receiving.single
  have caught := receiving.caught
  refine ⟨?_, ?_, ?_, ?_, ?_, fun other due => ?_, fun other => ?_⟩
  · rw [owed]
    change g.sends = 1 + s.approvals + (s.interrupted signal).waiting + (g.owed + 1)
    omega
  · rw [owed]
    omega
  · rw [owed]
    simp only [State.interrupted, State.modify, List.length_append, List.length_singleton]
    change s.receiver.signals.caught.length + 1 = 1 + s.approvals + (g.owed + 1)
    omega
  · rw [counted]
    exact receiving.writeBit
  · rw [stored]
    exact receiving.readNumber
  · refine receiving.due other ?_
    by_cases same : other = signal
    · subst same
      exact .inl pending
    · rw [Progress.move_stage_of_ne same] at due
      exact due.imp_left pending_of_interrupted
  · by_cases same : other = signal
    · subst same
      rw [Progress.move_stage_self]
      cases other <;> exact True.intro
    · rw [Progress.move_stage_of_ne same]
      exact (Stage.loaded_congr rfl rfl).mpr (receiving.loaded other)

theorem Transmission.enters (holds : Transmission number s g) (pending : s.receiver.signals.pending signal = true)
    (outside : signal ∉ s.receiver.signals.running) :
    Transmission number (s.interrupted signal) (g.move signal (.first signal)) := by
  have idle : g.stage signal = .idle := by
    by_contra busy
    exact outside ((holds.running signal).mpr busy)
  refine ⟨holds.sent, holds.sends_le, List.nodup_cons.mpr ⟨outside, holds.nodup⟩, fun other => ?_, fun uninstalled => ?_,
    holds.otherPid, holds.pidLoaded_move (by cases signal <;> exact nofun),
    fun notReady => (holds.greeting notReady).interrupted pending idle,
    fun ready => (holds.receiving ready).interrupted pending idle, holds.full, holds.read, holds.printed⟩
  · by_cases same : other = signal
    · subst same
      rw [Progress.move_stage_self]
      exact iff_of_true (List.mem_cons_self ..) (Stage.ne_idle_of_owes Stage.owes_first)
    · rw [Progress.move_stage_of_ne same, ← holds.running other]
      exact List.mem_cons.trans (or_iff_right same)
  · have none := (holds.installed uninstalled).1 signal
    rw [pending] at none
    cases none

def State.approved (s : State) : State :=
  (s.modify .sender fun q => q.raise receivedApproveSignal).modify .receiver fun q =>
    { q with sent := q.sent ++ [receivedApproveSignal] }

theorem ProcessState.sent_raise (q : ProcessState) : (q.raise signal).sent = q.sent := by
  unfold ProcessState.raise
  split <;> rfl

theorem Transmission.approves (holds : Transmission number s g) {pid : Option Process}
    (loaded : g.stage signal = .pidLoaded pid) : Transmission number s.approved (g.move signal .finished) := by
  have owes : (g.stage signal).owes = 1 := by rw [loaded]; rfl
  have ready : s.receiver.otherProcessReady = true := by
    by_contra notReady
    rcases (holds.greeting (Bool.eq_false_iff.mpr notReady)).early signal with early | early | early <;>
      cases early.symm.trans loaded
  have receiving := holds.receiving ready
  obtain ⟨waiting, oneOwed, others⟩ := receiving.alone owes
  have othersMoved : ∀ f : Stage → Nat, (∀ stage : Stage, stage.owes = 0 → f stage = 0) → f .finished = 0 →
      (both fun other => f ((g.move signal .finished).stage other)) = 0 := by
    intro f none finished
    refine both_eq_zero fun other => ?_
    by_cases same : other = signal
    · rw [same, Progress.move_stage_self, finished]
    · rw [Progress.move_stage_of_ne same]
      exact none _ (others other same)
  have owed : (g.move signal .finished).owed = 0 := othersMoved Stage.owes (fun _ none => none) rfl
  have counted : (g.move signal .finished).counted = 0 := othersMoved Stage.counts (fun _ => Stage.counts_eq_zero) rfl
  have stored : (g.move signal .finished).stored = 0 := othersMoved Stage.stores (fun _ => Stage.stores_eq_zero) rfl
  have countedBefore : g.counted = 1 := by
    rw [Progress.counted, both_of_others fun other differs => Stage.counts_eq_zero (others other differs), loaded]
    rfl
  have storedBefore : g.stored = 1 := by
    rw [Progress.stored, both_of_others fun other differs => Stage.stores_eq_zero (others other differs), loaded]
    rfl
  have approvals : s.approved.approvals = s.approvals + 1 := by
    simp only [State.approvals, State.approved, State.modify, List.count_append, List.count_singleton_self]
  have waitingAfter : s.approved.waiting = s.waiting := rfl
  have sends := receiving.sends
  refine ⟨(ProcessState.sent_raise s.sender).trans holds.sent, holds.sends_le, holds.nodup,
    holds.running_move (Stage.ne_idle_of_owes owes) nofun, holds.installed, holds.otherPid, holds.pidLoaded_move nofun,
    fun notReady => ?_, fun _ => ?_, holds.full, holds.read, holds.printed⟩
  · exact absurd (ready.symm.trans notReady) nofun
  · refine ⟨?_, ?_, ?_, ?_, ?_, fun other due => (none_due (waitingAfter.trans waiting) owed other due).elim, fun other => ?_⟩
    · rw [owed, approvals, waitingAfter]
      change g.sends = _
      omega
    · rw [owed, waitingAfter, waiting]
      omega
    · rw [owed, approvals]
      exact receiving.caught.trans (by omega)
    · rw [counted, approvals]
      exact receiving.writeBit.trans (by omega)
    · rw [stored, approvals]
      exact receiving.readNumber.trans (by rw [storedBefore])
    · by_cases same : other = signal
      · subst same
        rw [Progress.move_stage_self]
        exact True.intro
      · rw [Progress.move_stage_of_ne same]
        exact (receiving.loaded other).of_owes_eq_zero (others other same)

theorem Transmission.leaves (holds : Transmission number s g) (finished : g.stage signal = .finished)
    (runs : s.receiver.signals.runs (.handler signal) = true) :
    Transmission number (s.modify .receiver .leave) (g.move signal .idle) := by
  have running := Signals.running_of_runs runs
  have nodup := holds.nodup
  rw [running] at nodup
  obtain ⟨outside, nodup⟩ := List.nodup_cons.mp nodup
  refine ⟨holds.sent, holds.sends_le, nodup, fun other => ?_, holds.installed, holds.otherPid,
    holds.pidLoaded_move nofun, fun notReady => ?_, fun ready => ?_, holds.full, holds.read, holds.printed⟩
  · by_cases same : other = signal
    · subst same
      rw [Progress.move_stage_self]
      exact iff_of_false outside (not_not_intro rfl)
    · rw [Progress.move_stage_of_ne same, ← holds.running other, running]
      exact (List.mem_cons.trans (or_iff_right same)).symm
  · rcases (holds.greeting notReady).early signal with early | early | early <;> cases early.symm.trans finished
  · have receiving := holds.receiving ready
    have same : ∀ f : Stage → Nat, f .finished = f .idle → (both fun other => f ((g.move signal .idle).stage other)) =
        both fun other => f (g.stage other) := by
      intro f equal
      have moved := @Progress.both_move g signal .idle f
      rw [finished, equal] at moved
      omega
    have owed : (g.move signal .idle).owed = g.owed := same Stage.owes rfl
    refine ⟨?_, ?_, ?_, ?_, ?_, fun other due => ?_, fun other => ?_⟩
    · rw [owed]
      exact receiving.sends
    · rw [owed]
      exact receiving.single
    · rw [owed]
      exact receiving.caught
    · rw [show (g.move signal .idle).counted = g.counted from same Stage.counts rfl]
      exact receiving.writeBit
    · rw [show (g.move signal .idle).stored = g.stored from same Stage.stores rfl]
      exact receiving.readNumber
    · refine receiving.due other (due.imp_right fun owes => ?_)
      by_cases equal : other = signal
      · rw [equal, Progress.move_stage_self] at owes
        cases owes
      · rwa [Progress.move_stage_of_ne equal] at owes
    · by_cases equal : other = signal
      · rw [equal, Progress.move_stage_self]
        exact True.intro
      · rw [Progress.move_stage_of_ne equal]
        exact (Stage.loaded_congr rfl rfl).mpr (receiving.loaded other)

def State.afterSend (s : State) (signal : Signal) : State :=
  (s.modify .receiver fun q => q.raise signal).modify .sender fun q => { q with sent := q.sent ++ [signal] }

theorem ProcessState.raise_installed {q : ProcessState} (installed : q.installed = true) :
    q.raise signal = { q with signals := q.signals.raise signal } := if_pos installed

theorem ProcessState.raise_uninstalled {q : ProcessState} (uninstalled : q.installed = false) :
    q.raise signal = { q with ended := true } := if_neg (by rw [uninstalled]; exact nofun)

theorem waiting_afterSend (installed : s.receiver.installed = true)
    (none : ∀ other, s.receiver.signals.pending other = false) : (s.afterSend signal).waiting = 1 := by
  unfold State.waiting
  rw [@both_of_others signal]
  · simp only [State.afterSend, State.modify, ProcessState.raise_installed installed, Signals.raise_pending_self,
      Bool.toNat_true]
  · intro other differs
    simp only [State.afterSend, State.modify, ProcessState.raise_installed installed,
      Signals.raise_pending_of_ne differs, none other, Bool.toNat_false]

theorem approvals_afterSend : (s.afterSend signal).approvals = s.approvals :=
  congrArg (List.count receivedApproveSignal) (ProcessState.sent_raise s.receiver)

theorem Transmission.sends_eq_zero (holds : Transmission number s g)
    (next : (signalsFor number)[g.sends]? = some signal) (notReady : s.receiver.otherProcessReady = false)
    (attended : s.sender.sent = [] ∨ s.Attended) : g.sends = 0 ∧ signal = readySignal := by
  have first : g.sends = 0 := by
    rcases attended with none | attended
    · rw [holds.sent, List.take_eq_nil_iff] at none
      exact none.resolve_right (by simp [signalsFor])
    · exact absurd (notReady.symm.trans attended.1) Bool.false_ne_true
  rw [first] at next
  exact ⟨first, (Option.some.inj next).symm⟩

theorem Greeting.afterSend (greeting : Greeting s g) (first : g.sends = 0)
    (noBit : (s.afterSend readySignal).receiver.signals.pending .sigusr1 = false)
    (same : (s.afterSend readySignal).receiver.signals.caught = s.receiver.signals.caught) :
    Greeting (s.afterSend readySignal) { g with sends := g.sends + 1 } := by
  refine ⟨by simp [first], approvals_afterSend.trans greeting.approvals, greeting.writeBit, greeting.readNumber, noBit,
    greeting.idle, ?_⟩
  rw [same]
  rcases greeting.ready with ⟨idle, caught, -⟩ | ⟨-, -, -, one⟩
  · exact .inl ⟨idle, caught, fun _ => by simp [first]⟩
  · omega

theorem Receiving.afterSend (receiving : Receiving number s g) (next : (signalsFor number)[g.sends]? = some signal)
    (attended : s.Attended) (few : g.sends < bitsOfNumber + 1) (installed : s.receiver.installed = true) :
    Receiving number (s.afterSend signal) { g with sends := g.sends + 1 } := by
  obtain ⟨-, nonePending, allApproved⟩ := attended
  have same : (s.afterSend signal).receiver = { s.receiver with signals := s.receiver.signals.raise signal } :=
    ProcessState.raise_installed installed
  have begun := receiving.sends
  have waiting : s.waiting = 0 := both_eq_zero fun other => by rw [nonePending other]; rfl
  have waitingAfter := @waiting_afterSend s signal installed nonePending
  have caught := receiving.caught
  have owed : g.owed = 0 := by omega
  have inside : s.approvals < bitsOfNumber := by omega
  have isNext : signal = bitSignal number s.approvals := by
    have position : g.sends = s.approvals + 1 := by omega
    rw [position, signalsFor_succ inside] at next
    exact (Option.some.inj next).symm
  refine ⟨?_, ?_, ?_, ?_, ?_, fun other due => ?_, fun other => ?_⟩
  · rw [approvals_afterSend, waitingAfter]
    change g.sends + 1 = 1 + s.approvals + 1 + g.owed
    omega
  · rw [waitingAfter]
    change 1 + g.owed ≤ 1
    omega
  · rw [approvals_afterSend, same]
    exact caught
  · rw [approvals_afterSend]
    exact receiving.writeBit
  · rw [approvals_afterSend]
    exact receiving.readNumber
  · rw [approvals_afterSend]
    by_cases sameSignal : other = signal
    · exact sameSignal.trans isNext
    · rw [same, Signals.raise_pending_of_ne sameSignal] at due
      exact (none_due waiting owed other due).elim
  · exact (Stage.loaded_congr rfl rfl).mpr (receiving.loaded other)

theorem Transmission.sends (holds : Transmission number s g) (next : (signalsFor number)[g.sends]? = some signal)
    (attended : s.sender.sent = [] ∨ s.Attended) :
    Transmission number (s.afterSend signal) { g with sends := g.sends + 1 } := by
  have bound : g.sends < bitsOfNumber + 1 := by
    rw [← @length_signalsFor number]
    exact (List.getElem?_eq_some_iff.mp next).1
  have sent : (s.afterSend signal).sender.sent = (signalsFor number).take (g.sends + 1) := by
    rw [List.take_add_one, next, ← holds.sent]
    rfl
  cases installed : s.receiver.installed with
  | false =>
    -- the receiver is ended by its first signal
    obtain ⟨nonePending, noneCaught⟩ := holds.installed installed
    have notReady : s.receiver.otherProcessReady = false := by
      by_contra ready
      have caught := (holds.receiving (Bool.not_eq_false _ |>.mp ready)).caught
      rw [noneCaught] at caught
      simp only [List.length_nil] at caught
      omega
    have same : (s.afterSend signal).receiver = { s.receiver with ended := true } :=
      ProcessState.raise_uninstalled installed
    refine ⟨sent, bound, by rw [same]; exact holds.nodup, by rw [same]; exact holds.running,
      by rw [same]; exact holds.installed, holds.otherPid, holds.pidLoaded, fun _ => ?_, fun ready => ?_, holds.full,
      holds.read, holds.printed⟩
    · obtain ⟨first, rfl⟩ := holds.sends_eq_zero next notReady attended
      have greeting := holds.greeting notReady
      exact greeting.afterSend first (by rw [same]; exact greeting.noBit) (by rw [same])
    · rw [same] at ready
      exact absurd (notReady.symm.trans ready) Bool.false_ne_true
  | true =>
    have same : (s.afterSend signal).receiver = { s.receiver with signals := s.receiver.signals.raise signal } :=
      ProcessState.raise_installed installed
    refine ⟨sent, bound, by rw [same]; exact holds.nodup, by rw [same]; exact holds.running, ?_, holds.otherPid,
      holds.pidLoaded, fun notReady => ?_, fun ready => ?_, holds.full, holds.read, holds.printed⟩
    · rw [same]
      intro uninstalled
      exact absurd (installed.symm.trans uninstalled) Bool.false_ne_true.symm
    · rw [same] at notReady
      obtain ⟨first, rfl⟩ := holds.sends_eq_zero next notReady attended
      have greeting := holds.greeting notReady
      refine greeting.afterSend first ?_ (by rw [same]; rfl)
      rw [same]
      exact (Signals.raise_pending_of_ne (by decide)).trans greeting.noBit
    · rw [same] at ready
      have receiving := holds.receiving ready
      refine receiving.afterSend next (attended.resolve_left fun none => ?_) bound installed
      have begun := receiving.sends
      rw [holds.sent, List.take_eq_nil_iff] at none
      rcases none with zero | empty
      · omega
      · simp [signalsFor] at empty

end

end

end ArchCompSystems.OsHw5
