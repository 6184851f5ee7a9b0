import ArchCompSystems.OsHw5.Invariant

namespace ArchCompSystems.OsHw5

open Library Library.Program

section

variable {number : BitVec 32} {s s' : State} {ms : Thread → Local} {m' : Local} {signal : Signal}

theorem progress_senderMain :
    progress (Function.update ms (.sender, .main) m') = { progress ms with sends := m'.sends } := by
  simp [progress]

theorem progress_senderHandler : progress (Function.update ms (.sender, .handler signal) m') = progress ms := by
  simp [progress]

theorem progress_receiverMain : progress (Function.update ms (.receiver, .main) m') =
    { progress ms with otherPid := m'.otherPid, reading := m'.reading } := by
  simp [progress]

theorem progress_receiverHandler : progress (Function.update ms (.receiver, .handler signal) m') =
    (progress ms).move signal m'.stage := by
  simp only [progress, Progress.move, Progress.mk.injEq]
  refine ⟨rfl, ?_, rfl, rfl⟩
  funext other
  by_cases same : other = signal
  · subst same
    simp
  · simp [same]

theorem runs_of_perform {t : Thread} {c : Call} {answer : c.Answer} (notEnter : c ≠ .enterHandler)
    (performed : perform t c answer s = some s') :
    (s.of t.1).signals.runs t.2 = true ∧ performRunning t.1 c answer s = some s' := by
  unfold perform at performed
  split at performed
  · cases performed
  · split at performed
    · exact absurd rfl notEnter
    · split at performed
      · exact ⟨by assumption, performed⟩
      · cases performed

theorem perform_enterHandler {p : Process} {context : Context Signal}
    (performed : perform (p, context) .enterHandler () s = some s') :
    ∃ signal, context = .handler signal ∧ ∃ signals, (s.of p).signals.enter signal = some signals ∧
      s' = s.modify p fun q => { q with signals } := by
  unfold perform at performed
  split at performed
  · cases performed
  · cases context with
    | main =>
      simp only [performRunning, ite_self] at performed
      cases performed
    | handler signal =>
      obtain ⟨signals, entered, rfl⟩ := Option.map_eq_some_iff.mp performed
      exact ⟨signal, rfl, signals, entered, rfl⟩

theorem running_eq_nil (runs : s.receiver.signals.runs .main = true) : s.receiver.signals.running = [] :=
  List.isEmpty_iff.mp runs

theorem ownPid_of_performed {p : Process} {c : Call} {answer : c.Answer}
    (performed : performRunning p c answer s = some s') : ownPid p c answer := by
  cases c with
  | getpid =>
    simp only [performRunning, Option.ite_none_right_eq_some] at performed
    exact performed.1
  | _ => exact True.intro

theorem senderMain_step {c : Call} {answer : c.Answer} (holds : Transmission number s (progress ms))
    (ok : ∀ pid signal, c = .kill pid signal → s.sender.sent = [] ∨ s.Attended)
    (allowed : (senderMain number).allowed (ms (.sender, .main)) c)
    (performed : perform (.sender, .main) c answer s = some s') :
    ownPid .sender c answer ∧ Transmission number s' (progress (Function.update ms (.sender, .main)
      ((senderMain number).after (ms (.sender, .main)) c answer))) := by
  have notEnter : c ≠ .enterHandler := by
    rintro rfl
    cases allowed
  obtain ⟨-, performed⟩ := runs_of_perform notEnter performed
  refine ⟨ownPid_of_performed performed, ?_⟩
  rw [progress_senderMain]
  by_cases plain : c.isPlain = true
  · have same : (senderMain number).after (ms (.sender, .main)) c answer = ms (.sender, .main) := by
      cases c <;> first | rfl | cases plain
    rw [same]
    exact holds.untouched (untouched_of_plain plain performed)
  · cases c with
    | kill pid signal =>
      obtain ⟨rfl, next⟩ := allowed
      cases performed
      exact holds.sends next (ok _ _ rfl)
    | _ => exact absurd allowed plain

theorem senderHandler_step {c : Call} {answer : c.Answer} (holds : Transmission number s (progress ms))
    (allowed : senderHandler.allowed (ms (.sender, .handler signal)) c)
    (performed : perform (.sender, .handler signal) c answer s = some s') :
    Transmission number s' (progress (Function.update ms (.sender, .handler signal)
      (senderHandler.after (ms (.sender, .handler signal)) c answer))) := by
  rw [progress_senderHandler]
  refine holds.untouched ?_
  by_cases enters : c = .enterHandler
  · subst enters
    obtain ⟨_, _, _, _, rfl⟩ := perform_enterHandler performed
    exact untouched_of_sender rfl
  · obtain ⟨-, performed⟩ := runs_of_perform enters performed
    cases c with
    | enterHandler => exact absurd rfl enters
    | leaveHandler | storeReady =>
      cases performed
      exact untouched_of_sender rfl
    | _ => exact untouched_of_plain allowed performed

theorem Transmission.reads {g : Progress} (holds : Transmission number s g) {reading : Reading}
    (full : reading = .full → bitsOfNumber ≤ s.writeBit.toNat) (read : ∀ result, reading = .read result → result = number) :
    Transmission number s { g with reading } :=
  ⟨holds.sent, holds.sends_le, holds.nodup, holds.running, holds.installed, holds.otherPid, holds.pidLoaded,
    fun notReady => (holds.greeting notReady).congr rfl rfl rfl rfl rfl rfl,
    fun ready => (holds.receiving ready).congr rfl rfl rfl rfl rfl rfl, full, read, holds.printed⟩

theorem Transmission.storesPid {g : Progress} (holds : Transmission number s g) (runs : s.receiver.signals.runs .main = true)
    (pid : Process) : Transmission number { s with otherPid := some pid } { g with otherPid := some pid } := by
  have idle : ∀ signal, g.stage signal = .idle := by
    intro signal
    by_contra busy
    have member := (holds.running signal).mpr busy
    rw [running_eq_nil runs] at member
    cases member
  refine ⟨holds.sent, holds.sends_le, holds.nodup, holds.running, holds.installed, rfl, fun signal pid there => ?_,
    fun notReady => (holds.greeting notReady).congr rfl rfl rfl rfl rfl rfl,
    fun ready => (holds.receiving ready).congr rfl rfl rfl rfl rfl rfl, holds.full, holds.read, holds.printed⟩
  cases (idle signal).symm.trans there

theorem Transmission.prints {g : Progress} (holds : Transmission number s g) {result : BitVec 32}
    (read : g.reading = .read result) : Transmission number { s with printed := some result } g := by
  refine ⟨holds.sent, holds.sends_le, holds.nodup, holds.running, holds.installed, holds.otherPid, holds.pidLoaded,
    fun notReady => (holds.greeting notReady).congr rfl rfl rfl rfl rfl rfl,
    fun ready => (holds.receiving ready).congr rfl rfl rfl rfl rfl rfl, holds.full, holds.read, ?_⟩
  rintro _ ⟨⟩
  exact holds.read _ read

theorem receiverMain_step {c : Call} {answer : c.Answer} (holds : Transmission number s (progress ms))
    (allowed : receiverMain.allowed (ms (.receiver, .main)) c)
    (performed : perform (.receiver, .main) c answer s = some s') :
    receiverMain.possible (ms (.receiver, .main)) c answer ∧
      Transmission number s' (progress (Function.update ms (.receiver, .main)
        (receiverMain.after (ms (.receiver, .main)) c answer))) := by
  have notEnter : c ≠ .enterHandler := by
    rintro rfl
    cases allowed
  obtain ⟨runs, performed⟩ := runs_of_perform notEnter performed
  have own := ownPid_of_performed performed
  rw [progress_receiverMain]
  cases c with
  | kill pid signal =>
    obtain ⟨rfl, rfl⟩ := allowed
    cases performed
    exact ⟨⟨own, True.intro⟩, holds.untouched ⟨ProcessState.sent_raise s.sender, rfl, rfl,
      by simp [State.approvals, State.modify], id, rfl, rfl, rfl, rfl⟩⟩
  | storeOtherPid pid =>
    cases performed
    exact ⟨⟨own, True.intro⟩, holds.storesPid runs pid⟩
  | loadReadNumber =>
    simp only [performRunning, Option.ite_none_right_eq_some, Option.some.injEq] at performed
    obtain ⟨rfl, rfl⟩ := performed
    refine ⟨⟨own, True.intro⟩, holds.reads (by intros; contradiction) ?_⟩
    rintro _ ⟨⟩
    exact holds.readNumber_eq (holds.full allowed)
  | loadWriteBit =>
    simp only [performRunning, Option.ite_none_right_eq_some, Option.some.injEq] at performed
    obtain ⟨rfl, rfl⟩ := performed
    refine ⟨⟨own, True.intro⟩, ?_⟩
    simp only [receiverMain]
    split
    · rename_i enough
      exact holds.reads (fun _ => enough) (by intros; contradiction)
    · exact holds
  | printResult result =>
    cases performed
    exact ⟨⟨own, True.intro⟩, holds.prints allowed⟩
  | loadOtherPid =>
    have same := performed
    simp only [performRunning, Option.ite_none_right_eq_some, Option.some.injEq] at same
    exact ⟨⟨own, same.1.trans holds.otherPid⟩, holds.untouched (untouched_of_plain rfl performed)⟩
  | enterHandler => exact absurd rfl notEnter
  | leaveHandler | storeReady | storeReadNumber _ | storeWriteBit _ => cases allowed
  | _ => exact ⟨⟨own, True.intro⟩, holds.untouched (untouched_of_plain rfl performed)⟩

theorem Transmission.ready_of_owes {g : Progress} (holds : Transmission number s g) (owes : (g.stage signal).owes = 1)
    (notEntered : g.stage signal ≠ .entered) : s.receiver.otherProcessReady = true := by
  by_contra notReady
  rcases (holds.greeting (Bool.eq_false_iff.mpr notReady)).early signal with idle | entered | greeting
  · rw [idle] at owes
    cases owes
  · exact notEntered entered
  · rw [greeting] at owes
    cases owes

theorem Receiving.memory {g : Progress} (receiving : Receiving number s g) (owes : (g.stage signal).owes = 1) :
    s.writeBit.toNat = s.approvals + (g.stage signal).counts ∧
      s.readNumber = lowBits number (s.approvals + (g.stage signal).stores) := by
  obtain ⟨-, -, others⟩ := receiving.alone owes
  have counted : g.counted = (g.stage signal).counts :=
    both_of_others fun other differs => Stage.counts_eq_zero (others other differs)
  have stored : g.stored = (g.stage signal).stores :=
    both_of_others fun other differs => Stage.stores_eq_zero (others other differs)
  exact ⟨counted ▸ receiving.writeBit, stored ▸ receiving.readNumber⟩

theorem Transmission.loads {g : Progress} {before after : Stage} (holds : Transmission number s g)
    (ready : s.receiver.otherProcessReady = true) (there : g.stage signal = before)
    (owes : before.owes = 1 ∧ after.owes = 1) (counts : after.counts = before.counts) (stores : after.stores = before.stores)
    (loaded : after.Loaded s) (pidLoaded : ∀ pid, after = .pidLoaded pid → pid = s.otherPid) :
    Transmission number s (g.move signal after) := by
  subst there
  obtain ⟨writeBit, readNumber⟩ := (holds.receiving ready).memory owes.1
  exact holds.advance ready ⟨rfl, owes, by rw [counts]; exact writeBit, by rw [stores]; exact readNumber, loaded, pidLoaded,
    Nat.le_refl _⟩

theorem Transmission.storesNumber {g : Progress} (holds : Transmission number s g) {readNumber bit : BitVec 32}
    (there : g.stage signal = .bitLoaded readNumber bit) : Transmission number
      { s with readNumber := readNumber ||| signalBit signal <<< bit } (g.move signal .numberStored) := by
  have owes : (g.stage signal).owes = 1 := by rw [there]; rfl
  have ready := holds.ready_of_owes owes (by rw [there]; exact nofun)
  have receiving := holds.receiving ready
  obtain ⟨counts, stores⟩ := receiving.memory owes
  have loaded := receiving.loaded signal
  have due := receiving.due signal (.inr owes)
  have inside : s.approvals < bitsOfNumber := by
    have := receiving.sends
    have := holds.sends_le
    have := (receiving.alone owes).2.1
    omega
  rw [there] at counts stores loaded
  obtain ⟨rfl, rfl⟩ := loaded
  refine holds.advance ready ⟨rfl, ⟨owes, rfl⟩, counts, ?_, True.intro, nofun, Nat.le_refl _⟩
  have placed := @lowBits_succ number _ inside _ counts
  rw [← due] at placed
  exact (congrArg (· ||| signalBit signal <<< s.writeBit) stores).trans placed

theorem Transmission.storesBit {g : Progress} (holds : Transmission number s g) {bit : BitVec 32}
    (there : g.stage signal = .bitReloaded bit) :
    Transmission number { s with writeBit := bit + 1 } (g.move signal .counted) := by
  have owes : (g.stage signal).owes = 1 := by rw [there]; rfl
  have ready := holds.ready_of_owes owes (by rw [there]; exact nofun)
  have receiving := holds.receiving ready
  obtain ⟨counts, stores⟩ := receiving.memory owes
  have loaded := receiving.loaded signal
  have inside : s.approvals < bitsOfNumber := by
    have := receiving.sends
    have := holds.sends_le
    have := (receiving.alone owes).2.1
    omega
  rw [there] at counts stores loaded
  cases loaded
  have stepped : (s.writeBit + 1).toNat = s.writeBit.toNat + 1 := by
    have small : s.writeBit.toNat < 32 := by
      rw [counts]
      exact inside
    rw [BitVec.toNat_add]
    exact Nat.mod_eq_of_lt (by simp; omega)
  exact holds.advance ready ⟨rfl, ⟨owes, rfl⟩, stepped.trans (congrArg (· + 1) counts), stores, True.intro, nofun,
    by rw [stepped]; exact Nat.le_succ _⟩

@[simp] theorem Progress.move_self {g : Progress} : g.move signal (g.stage signal) = g := by
  rw [Progress.move, Function.update_eq_self]

theorem Transmission.handles {g : Progress} {stage : Stage} {c : Call} {answer : c.Answer} (holds : Transmission number s g)
    (there : g.stage signal = stage) (allowed : stage.allows signal c)
    (runs : s.receiver.signals.runs (.handler signal) = true) (performed : performRunning .receiver c answer s = some s') :
    Transmission number s' (g.move signal (stage.after signal c answer)) := by
  have quiet : c.isPlain = true → stage.after signal c answer = stage →
      Transmission number s' (g.move signal (stage.after signal c answer)) := by
    intro plain same
    rw [same, ← there, Progress.move_self]
    exact holds.untouched (untouched_of_plain plain performed)
  have bit : stage ≠ .entered → stage.owes = 1 → s.receiver.otherProcessReady = true := fun notEntered owes =>
    holds.ready_of_owes (there ▸ owes) (there ▸ notEntered)
  unfold Stage.allows at allowed
  split at allowed
  case h_1 => cases performed
  case h_2 =>
    subst allowed
    simp only [performRunning, Option.ite_none_right_eq_some, Option.some.injEq] at performed
    obtain ⟨rfl, rfl⟩ := performed
    cases ready : s.receiver.otherProcessReady with
    | false =>
      simp only [Stage.after, State.of, ready]
      exact holds.notices there ready
    | true =>
      simp only [Stage.after, State.of, ready]
      exact holds.loads ready there ⟨rfl, rfl⟩ rfl rfl True.intro (by intros; contradiction)
  case h_3 =>
    subst allowed
    cases performed
    exact holds.greets there
  case h_4 =>
    simp only [performRunning, Option.ite_none_right_eq_some, Option.some.injEq] at performed
    obtain ⟨rfl, rfl⟩ := performed
    exact holds.loads (bit (by rintro ⟨⟩) rfl) there ⟨rfl, rfl⟩ rfl rfl rfl (by intros; contradiction)
  case h_5 =>
    simp only [performRunning, Option.ite_none_right_eq_some, Option.some.injEq] at performed
    obtain ⟨rfl, rfl⟩ := performed
    have loaded := (holds.receiving (bit (by rintro ⟨⟩) rfl)).loaded signal
    rw [there] at loaded
    exact holds.loads (bit (by rintro ⟨⟩) rfl) there ⟨rfl, rfl⟩ rfl rfl ⟨loaded, rfl⟩ (by intros; contradiction)
  case h_6 =>
    subst allowed
    cases performed
    exact holds.storesNumber there
  case h_7 =>
    simp only [performRunning, Option.ite_none_right_eq_some, Option.some.injEq] at performed
    obtain ⟨rfl, rfl⟩ := performed
    exact holds.loads (bit (by rintro ⟨⟩) rfl) there ⟨rfl, rfl⟩ rfl rfl rfl (by intros; contradiction)
  case h_8 =>
    subst allowed
    cases performed
    exact holds.storesBit there
  case h_9 => exact quiet rfl rfl
  case h_10 | h_11 =>
    simp only [performRunning, Option.ite_none_right_eq_some, Option.some.injEq] at performed
    obtain ⟨rfl, rfl⟩ := performed
    refine holds.loads (bit (by rintro ⟨⟩) rfl) there ⟨rfl, rfl⟩ rfl rfl True.intro ?_
    rintro _ ⟨⟩
    rfl
  case h_12 | h_13 | h_14 => exact quiet rfl rfl
  case h_15 =>
    obtain ⟨rfl, rfl⟩ := allowed
    cases performed
    exact holds.approves there
  case h_16 =>
    cases performed
    exact holds.leaves there runs
  case h_17 => exact quiet rfl rfl
  case h_18 => exact allowed.elim

theorem receiverHandler_step {c : Call} {answer : c.Answer} (holds : Transmission number s (progress ms))
    (allowed : (receiverHandler signal).allowed (ms (.receiver, .handler signal)) c)
    (performed : perform (.receiver, .handler signal) c answer s = some s') :
    (receiverHandler signal).possible (ms (.receiver, .handler signal)) c answer ∧
      Transmission number s' (progress (Function.update ms (.receiver, .handler signal)
        ((receiverHandler signal).after (ms (.receiver, .handler signal)) c answer))) := by
  rw [progress_receiverHandler]
  by_cases enters : c = .enterHandler
  · subst enters
    obtain ⟨_, ⟨⟩, signals, entered, rfl⟩ := perform_enterHandler performed
    obtain ⟨pending, outside, rfl⟩ := Signals.enter_eq_some.mp entered
    exact ⟨⟨True.intro, True.intro⟩, holds.enters pending outside⟩
  · obtain ⟨runs, performed⟩ := runs_of_perform enters performed
    refine ⟨⟨ownPid_of_performed performed, ?_⟩, holds.handles rfl allowed runs performed⟩
    cases c with
    | loadOtherPid =>
      simp only [performRunning, Option.ite_none_right_eq_some] at performed
      exact fun pid loaded => performed.1.trans (holds.pidLoaded signal pid loaded).symm
    | _ => exact True.intro

end

theorem initially (number : BitVec 32) : Transmission number State.initial (progress fun _ => .initial) where
  sent := rfl
  sends_le := Nat.zero_le _
  nodup := List.nodup_nil
  running _ := iff_of_false (List.not_mem_nil) (not_not_intro rfl)
  installed _ := ⟨fun _ => rfl, rfl⟩
  otherPid := rfl
  pidLoaded _ _ := nofun
  greeting _ := ⟨Nat.zero_le _, rfl, rfl, rfl, rfl, rfl, .inl ⟨rfl, rfl, nofun⟩⟩
  receiving := nofun
  full := nofun
  read _ := nofun
  printed _ := nofun

/-- The sender sends a bit only when the receiver has attended to all it was sent before. -/
def SendsWhenAttended (pool : Pool Thread Call Call.Answer State) : Action Thread Call Call.Answer → Prop
  | .call (.sender, .main) ⟨.kill _ _, _⟩ => pool.state.sender.sent = [] ∨ pool.state.Attended
  | _ => True

abbrev Reach (ok : Pool Thread Call Call.Answer State → Action Thread Call Call.Answer → Prop) (rounds : Nat)
    (number : BitVec 32) : Pool Thread Call Call.Answer State → Prop :=
  Pool.Reach machine ok (start rounds number)

/-- If the sender sends each bit only when the receiver has attended to all that was sent before, every
    state is one of a correct transmission. -/
theorem transmits_of_attended {rounds : Nat} {number : BitVec 32} {pool : Pool Thread Call Call.Answer State}
    (reach : Reach SendsWhenAttended rounds number pool) : Transmits number pool.state := by
  have disciplined : pool.Disciplined (discipline number) (fun _ => .initial) (fun _ _ => True)
      fun s ms => Transmission number s (progress ms) := by
    refine Pool.Reach.disciplined ?_ ?_ ⟨fun _ => ?_, discipline_obeys rounds number, ?_⟩ reach
    · rintro pool ⟨process, context⟩ c answer s' holds ok allowed performed
      cases process <;> cases context
      · exact senderMain_step holds (by rintro pid signal rfl; exact ok) allowed performed
      · exact ⟨True.intro, senderHandler_step holds allowed performed⟩
      · exact receiverMain_step holds allowed performed
      · exact receiverHandler_step holds allowed performed
    · intro pool t c s _ _ taken
      cases taken
    · exact True.intro
    · exact initially number
  exact disciplined.agrees.transmits

/-- What process `p` is answered; its user types the id of the other one. -/
def replies (p : Process) (call : Call) (s : State) : Option call.Answer :=
  match call with
  | .readPid => match p with
    | .sender => some .receiver
    | .receiver => some .sender
  | .getpid => some p
  | .getpgid pid => some !(s.of pid).ended
  | .loadReady => some (s.of p).otherProcessReady
  | .loadOtherPid => some s.otherPid
  | .loadReadNumber => some s.readNumber
  | .loadWriteBit => some s.writeBit
  | .goesOn => none
  | .setupSignalHandlers | .printPid | .kill _ _ | .enterHandler | .leaveHandler | .suspend | .resume
  | .semInit _ | .semPost | .semWait | .semDestroy | .sleep | .storeReady | .storeOtherPid _
  | .storeReadNumber _ | .storeWriteBit _ | .printBit _ | .printResult _ | .abort | .exit => some ()

def go (t : Thread) (steps : Nat) : Pool.Turn Thread Call Call.Answer State := .go t steps (replies t.1)

def handshake : List (Pool.Turn Thread Call Call.Answer State) :=
  [go (.sender, .main) 3, go (.receiver, .main) 2, go (.sender, .main) 4, go (.receiver, .handler readySignal) 4,
    go (.receiver, .main) 7, go (.sender, .handler readySignal) 3, go (.sender, .main) 1]

/-- Of two equal bits that the sender sends one after the other, one is lost. -/
theorem second_bit_overtakes : ¬ ∀ rounds number pool, Reach (fun _ _ => True) rounds number pool →
    Transmits number pool.state := by
  intro all
  obtain ⟨pool, reach, lost⟩ := @Pool.exists_reach_of_replay _ _ _ _ _ machine (fun _ _ => True) (start 2 3)
    (fun _ _ => true)
    (handshake ++ [go (.sender, .main) 4, go (.receiver, .handler oneBitSignal) 14])
    (fun pool => pool.state.sender.otherProcessReady && pool.state.receiver.otherProcessReady &&
      !pool.state.receiver.signals.pending .sigusr1 && !pool.state.receiver.signals.pending .sigusr2 &&
      pool.state.receiver.signals.running.isEmpty && decide (pool.state.writeBit = 1) &&
      decide (pool.state.sentBits.length = 2))
    (fun _ _ _ => True.intro) (by decide +kernel)
  simp only [Bool.and_eq_true, Bool.not_eq_eq_eq_not, Bool.not_true, List.isEmpty_iff, decide_eq_true_eq] at lost
  obtain ⟨⟨⟨⟨⟨⟨senderReady, receiverReady⟩, noZero⟩, noOne⟩, none⟩, counted⟩, sent⟩ := lost
  have same := (all 2 3 pool reach).counted ⟨senderReady, receiverReady⟩
    ⟨fun signal => by cases signal <;> assumption, none⟩
  rw [counted, sent] at same
  cases same

instance (s : State) : Decidable s.Attended :=
  decidable_of_iff (s.receiver.otherProcessReady = true ∧ (s.receiver.signals.pending .sigusr1 = false ∧
    s.receiver.signals.pending .sigusr2 = false) ∧ s.receiver.signals.caught.length = 1 + s.approvals)
    (and_congr_right fun _ => and_congr_left fun _ =>
      ⟨fun none signal => by cases signal; exacts [none.1, none.2], fun none => ⟨none _, none _⟩⟩)

def sendsWhenAttended (pool : Pool Thread Call Call.Answer State) : Action Thread Call Call.Answer → Bool
  | .call (.sender, .main) ⟨.kill _ _, _⟩ => decide (pool.state.sender.sent = [] ∨ pool.state.Attended)
  | _ => true

theorem sendsWhenAttended_sound (pool : Pool Thread Call Call.Answer State) (action : Action Thread Call Call.Answer)
    (sound : sendsWhenAttended pool action = true) : SendsWhenAttended pool action := by
  unfold SendsWhenAttended
  split
  · exact of_decide_eq_true sound
  · exact True.intro

def transfer (number : BitVec 32) (i : Nat) : List (Pool.Turn Thread Call Call.Answer State) :=
  [go (.sender, .main) 1, go (.receiver, .handler (bitSignal number i)) (if bitSignal number i = zeroBitSignal then 13 else 14),
    go (.sender, .handler receivedApproveSignal) 3, go (.sender, .main) 2]

/-- The number 5 is sent, received and printed. -/
theorem five_is_printed : ∃ pool, Reach SendsWhenAttended 33 5 pool ∧ pool.state.printed = some 5 ∧ Transmits 5 pool.state := by
  obtain ⟨pool, reach, printed⟩ := @Pool.exists_reach_of_replay _ _ _ _ _ machine SendsWhenAttended (start 33 5)
    sendsWhenAttended
    (handshake ++ ((List.range bitsOfNumber).map (transfer 5)).flatten ++ [go (.receiver, .main) 4])
    (fun pool => decide (pool.state.printed = some 5)) sendsWhenAttended_sound (by decide +kernel)
  exact ⟨pool, reach, of_decide_eq_true printed, transmits_of_attended reach⟩

end ArchCompSystems.OsHw5
