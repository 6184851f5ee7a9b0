import ArchCompSystems.OsHw5.Program
import Mathlib.Algebra.Ring.Nat

namespace ArchCompSystems.OsHw5

open Library Library.Program

def bitSignal (number : BitVec 32) (i : Nat) : Signal := Sender.bitToSignal ((number >>> i) &&& 1)

def signalsFor (number : BitVec 32) : List Signal :=
  readySignal :: (List.range bitsOfNumber).map (bitSignal number)

/-- The number whose bits below `count` are those of `number`, and the others are zero. -/
def lowBits (number : BitVec 32) (count : Nat) : BitVec 32 := BitVec.ofNat 32 (number.toNat % 2 ^ count)

section

variable {number : BitVec 32} {count : Nat}

@[simp] theorem lowBits_zero : lowBits number 0 = 0 := by
  simp [lowBits, Nat.mod_one]

theorem lowBits_all (enough : bitsOfNumber ≤ count) : lowBits number count = number := by
  have small : number.toNat < 2 ^ count :=
    Nat.lt_of_lt_of_le number.isLt (Nat.pow_le_pow_right (by decide) enough)
  rw [lowBits, Nat.mod_eq_of_lt small, BitVec.ofNat_toNat, BitVec.setWidth_eq]

theorem getLsbD_lowBits (i : Nat) : (lowBits number count).getLsbD i = (decide (i < count) && number.getLsbD i) := by
  rw [lowBits, BitVec.getLsbD_ofNat, Nat.testBit_mod_two_pow, BitVec.testBit_toNat]
  by_cases inside : i < 32
  · simp [inside]
  · simp [inside, BitVec.getLsbD_of_ge _ _ (Nat.le_of_not_lt inside)]

def signalBit (signal : Signal) : BitVec 32 := if signal = oneBitSignal then 1 else 0

theorem signalBit_bitSignal (i : Nat) : signalBit (bitSignal number i) = (number >>> i) &&& 1#32 := by
  have parity : (number >>> i) &&& 1#32 = 0#32 ∨ (number >>> i) &&& 1#32 = 1#32 := by
    generalize number >>> i = shifted
    rcases Nat.mod_two_eq_zero_or_one shifted.toNat with even | odd
    · exact .inl (BitVec.eq_of_toNat_eq (by simpa [BitVec.toNat_and, Nat.and_one_is_mod] using even))
    · exact .inr (BitVec.eq_of_toNat_eq (by simpa [BitVec.toNat_and, Nat.and_one_is_mod] using odd))
  rcases parity with zero | one
  · simp [signalBit, bitSignal, Sender.bitToSignal, zero]
  · simp [signalBit, bitSignal, Sender.bitToSignal, one]

theorem lowBits_succ (inside : count < bitsOfNumber) {bit : BitVec 32} (place : bit.toNat = count) :
    lowBits number count ||| signalBit (bitSignal number count) <<< bit = lowBits number (count + 1) := by
  have small : count < 32 := inside
  apply BitVec.eq_of_getLsbD_eq
  intro i below
  rw [BitVec.getLsbD_or, getLsbD_lowBits, getLsbD_lowBits, signalBit_bitSignal, BitVec.shiftLeft_eq', place,
    BitVec.getLsbD_shiftLeft]
  rcases Nat.lt_trichotomy i count with before | rfl | after
  · simp [before, Nat.lt_succ_of_lt before]
  · simp [below]
  · have distance : i - count ≠ 0 := by omega
    have beyond : ¬ i < count + 1 := by omega
    have outside : ¬ i < count := by omega
    simp [BitVec.getLsbD_one, distance, beyond, outside]

end

/-- How far the handler of one signal has come at the receiver, with the values that it has loaded. -/
inductive Stage where
  | idle
  | entered
  | greeting
  | opened
  | numberLoaded (number : BitVec 32)
  | bitLoaded (number bit : BitVec 32)
  | numberStored
  | bitReloaded (bit : BitVec 32)
  | counted
  | pidLoaded (otherPid : Option Process)
  | finished

/-- How far the receiver's program has come with its result. -/
inductive Reading where
  | waiting
  | full
  | read (number : BitVec 32)

/-- The local state of a thread: what the sender's program has sent, the stage of a handler of the
    receiver, and what the receiver's program has stored and read. -/
structure Local where
  sends : Nat
  stage : Stage
  otherPid : Option Process
  reading : Reading

def Local.initial : Local := ⟨0, .idle, none, .waiting⟩

def Call.isPlain : Call → Bool
  | .kill _ _ | .enterHandler | .leaveHandler | .storeReady | .storeOtherPid _ | .storeReadNumber _
  | .storeWriteBit _ | .printResult _ => false
  | _ => true

def ownPid (p : Process) (c : Call) (answer : c.Answer) : Prop :=
  match c, answer with
  | .getpid, pid => pid = p
  | _, _ => True

def senderMain (number : BitVec 32) : Monitor Call Call.Answer Local where
  allowed m c := match c with
    | .kill pid signal => pid = .receiver ∧ (signalsFor number)[m.sends]? = some signal
    | c => c.isPlain = true
  possible _ c answer := ownPid .sender c answer
  after m c _ := match c with
    | .kill _ _ => { m with sends := m.sends + 1 }
    | _ => m

def senderHandler : Monitor Call Call.Answer Local where
  allowed _ c := match c with
    | .enterHandler | .leaveHandler | .storeReady => True
    | c => c.isPlain = true
  possible _ _ _ := True
  after m _ _ := m

def receiverMain : Monitor Call Call.Answer Local where
  allowed m c := match c with
    | .kill pid signal => pid = .sender ∧ signal = readySignal
    | .storeOtherPid _ => True
    | .loadReadNumber => m.reading = .full
    | .printResult number => m.reading = .read number
    | c => c.isPlain = true
  possible m c answer := ownPid .receiver c answer ∧ match c, answer with
    | .loadOtherPid, pid => pid = m.otherPid
    | _, _ => True
  after m c answer := match c, answer with
    | .storeOtherPid pid, _ => { m with otherPid := some pid }
    | .loadWriteBit, bit => if bitsOfNumber ≤ bit.toNat then { m with reading := .full } else m
    | .loadReadNumber, number => { m with reading := .read number }
    | _, _ => m

def Stage.allows (signal : Signal) : Stage → Call → Prop
  | .idle, .enterHandler => True
  | .entered, .loadReady => signal = readySignal
  | .greeting, .storeReady => signal = readySignal
  | .opened, .loadReadNumber => True
  | .numberLoaded _, .loadWriteBit => True
  | .bitLoaded number bit, .storeReadNumber stored => stored = number ||| signalBit signal <<< bit
  | .numberStored, .loadWriteBit => True
  | .bitReloaded bit, .storeWriteBit stored => stored = bit + 1
  | .counted, .printBit _ => True
  | .counted, .loadOtherPid | .pidLoaded _, .loadOtherPid => True
  | .pidLoaded _, .getpgid _ | .pidLoaded _, .getpid | .pidLoaded _, .abort => True
  | .pidLoaded _, .kill pid signal => pid = .sender ∧ signal = receivedApproveSignal
  | .finished, .leaveHandler => True
  | _, .goesOn => True
  | _, _ => False

def Stage.after (signal : Signal) (stage : Stage) (c : Call) (answer : c.Answer) : Stage :=
  match c, answer with
  | .enterHandler, _ => if signal = readySignal then .entered else .opened
  | .loadReady, ready => if ready then .opened else .greeting
  | .storeReady, _ => .finished
  | .loadReadNumber, number => .numberLoaded number
  | .loadWriteBit, bit => match stage with
    | .numberLoaded number => .bitLoaded number bit
    | _ => .bitReloaded bit
  | .storeReadNumber _, _ => .numberStored
  | .storeWriteBit _, _ => .counted
  | .loadOtherPid, otherPid => .pidLoaded otherPid
  | .kill _ _, _ => .finished
  | .leaveHandler, _ => .idle
  | _, _ => stage

def receiverHandler (signal : Signal) : Monitor Call Call.Answer Local where
  allowed m c := m.stage.allows signal c
  possible m c answer := ownPid .receiver c answer ∧ match c, answer with
    | .loadOtherPid, pid => ∀ otherPid, m.stage = .pidLoaded otherPid → pid = otherPid
    | _, _ => True
  after m c answer := { m with stage := m.stage.after signal c answer }

def discipline (number : BitVec 32) : Thread → Monitor Call Call.Answer Local
  | (.sender, .main) => senderMain number
  | (.sender, .handler _) => senderHandler
  | (.receiver, .main) => receiverMain
  | (.receiver, .handler signal) => receiverHandler signal

section

variable {P : Monitor Call Call.Answer Local} {m : Local}

theorem obeys_steady_loop {γ : Type} {rounds : Nat} {round : HwProgram (LoopFlow Unit γ)} {post : γ → Local → Prop}
    (cutOff : ∀ m, P.allowed m .goesOn)
    (each : P.Obeys (LoopFlow.Keeps (fun _ m' => m' = m) post) round m) : P.Obeys post (loop rounds round) m := by
  refine Monitor.obeys_loop (fun _ m' => m' = m) cutOff rfl ?_
  rintro _ m' rfl
  exact each

end

section

variable {number : BitVec 32} {m : Local}

theorem sender_readOtherPid (rounds : Nat) : (senderMain number).Obeys
    (fun otherPid m' => otherPid = .receiver ∧ m' = m) (Sender.readOtherPid rounds) m := by
  refine obeys_steady_loop (fun _ => rfl) ?_
  refine ⟨rfl, fun otherPid _ => ⟨rfl, fun found _ => ?_⟩⟩
  cases found with
  | false => exact rfl
  | true =>
    refine ⟨rfl, fun pid isOwn => ?_⟩
    cases isOwn
    cases otherPid with
    | sender => exact rfl
    | receiver => exact ⟨rfl, rfl⟩

theorem sender_waitUntilReady (rounds : Nat) : (senderMain number).Obeys (fun _ m' => m' = m)
    (waitUntilReady rounds) m := by
  refine obeys_steady_loop (fun _ => rfl) ?_
  refine ⟨rfl, fun ready _ => ?_⟩
  cases ready with
  | false => exact ⟨rfl, fun _ _ => ⟨rfl, fun _ _ => rfl⟩⟩
  | true => exact rfl

theorem signalsFor_succ {i : Nat} (inside : i < bitsOfNumber) :
    (signalsFor number)[i + 1]? = some (bitSignal number i) := by
  rw [signalsFor, List.getElem?_cons_succ, List.getElem?_map, List.getElem?_range inside, Option.map_some]

theorem length_signalsFor : (signalsFor number).length = bitsOfNumber + 1 := by
  rw [signalsFor, List.length_cons, List.length_map, List.length_range]

theorem sender_sendNumber (start : m.sends = 1) : (senderMain number).Obeys (fun _ _ => True)
    (Sender.sendNumber .receiver number) m := by
  refine Monitor.obeys_bind.mpr (Monitor.obeys_mono (fun _ _ _ => True.intro)
    (@Monitor.obeys_forFrom_within _ _ _ _ _ _ m _ (fun i numberToSend m => numberToSend = number >>> i ∧ m.sends = i + 1)
      (fun _ _ => True) bitsOfNumber 0 number ?_ ⟨(BitVec.ushiftRight_zero number).symm, start⟩))
  rintro i _ m - inside ⟨rfl, sends⟩
  refine Monitor.obeys_call ⟨rfl, ?_⟩ fun _ _ => ?_
  · rw [sends, signalsFor_succ (by simpa using inside)]
    rfl
  · exact ⟨rfl, fun _ _ => ⟨rfl, fun _ _ => ⟨(BitVec.shiftRight_add ..).symm, congrArg (· + 1) sends⟩⟩⟩

theorem sender_obeys (rounds : Nat) (start : m.sends = 0) :
    (senderMain number).Obeys (fun _ _ => True) (Sender.main rounds number) m := by
  refine Monitor.obeys_call rfl fun _ _ => Monitor.obeys_call rfl fun _ _ => Monitor.obeys_call rfl fun _ _ => ?_
  refine Monitor.obeys_bind.mpr (Monitor.obeys_mono ?_ (sender_readOtherPid rounds))
  rintro _ _ ⟨rfl, rfl⟩
  refine Monitor.obeys_call ⟨rfl, by rw [start]; rfl⟩ fun _ _ => ?_
  refine Monitor.obeys_bind.mpr (Monitor.obeys_mono ?_ (sender_waitUntilReady rounds))
  rintro _ _ rfl
  refine Monitor.obeys_bind.mpr (Monitor.obeys_mono ?_ (sender_sendNumber (by simp [senderMain, start])))
  rintro _ m' -
  exact ⟨rfl, fun _ _ => ⟨rfl, fun _ _ => True.intro⟩⟩

theorem handlerProgram_obeys {P : Monitor Call Call.Answer Local} {handler : Signal → HwProgram Unit}
    {signal : Signal} {invariant entered left : Local → Prop} (rounds : Nat) (endless : ∀ m, P.allowed m .goesOn)
    (enters : ∀ m, invariant m → P.allowed m .enterHandler ∧ entered (P.after m .enterHandler ()))
    (handles : ∀ m, entered m → P.Obeys (fun _ m' => left m') (handler signal) m)
    (leaves : ∀ m, left m → P.allowed m .leaveHandler ∧ invariant (P.after m .leaveHandler ())) (holds : invariant m) :
    P.Obeys (fun _ _ => True) (handlerProgram rounds handler signal) m := by
  refine Monitor.obeys_loop (fun _ => invariant) endless holds fun _ m holds => ?_
  refine Monitor.obeys_call (enters m holds).1 fun _ _ => ?_
  refine Monitor.obeys_bind.mpr (Monitor.obeys_mono (fun _ m' after => ?_) (handles _ (enters m holds).2))
  exact ⟨(leaves m' after).1, fun _ _ => (leaves m' after).2⟩

theorem senderHandler_obeys (rounds : Nat) (signal : Signal) :
    senderHandler.Obeys (fun _ _ => True) (handlerProgram rounds Sender.handler signal) m := by
  refine @handlerProgram_obeys _ _ _ _ (fun _ => True) (fun _ => True) (fun _ => True) rounds (fun _ => rfl) (fun _ _ => ⟨True.intro, True.intro⟩) (fun m _ => ?_) (fun _ _ => ⟨True.intro, True.intro⟩) True.intro
  cases signal with
  | sigusr1 => exact ⟨rfl, fun _ _ => True.intro⟩
  | sigusr2 => exact ⟨True.intro, fun _ _ => True.intro⟩

end

section

variable {m : Local} {signal : Signal}

theorem receiveBit_obeys (opened : m.stage = .opened) :
    (receiverHandler signal).Obeys (fun _ m' => m'.stage = .finished) (Receiver.receiveBit signal) m := by
  obtain ⟨sends, stage, otherPid, reading⟩ := m
  cases opened
  refine Monitor.obeys_call True.intro fun readNumber _ => Monitor.obeys_call True.intro fun writeBit _ => ?_
  refine Monitor.obeys_call rfl fun _ _ => Monitor.obeys_call True.intro fun again _ => ?_
  refine Monitor.obeys_call rfl fun _ _ => Monitor.obeys_call True.intro fun _ _ => ?_
  refine Monitor.obeys_bind.mpr (Monitor.obeys_call True.intro fun other _ => ?_)
  cases other with
  | none => exact ⟨True.intro, fun _ _ => ⟨True.intro, fun answer => isEmptyElim answer⟩⟩
  | some pid =>
    refine Monitor.obeys_bind.mpr (Monitor.obeys_call True.intro fun alive _ => ?_)
    cases alive with
    | false => exact ⟨True.intro, fun _ _ => ⟨True.intro, fun answer => isEmptyElim answer⟩⟩
    | true =>
      refine Monitor.obeys_call True.intro fun own ⟨isOwn, _⟩ => ?_
      cases isOwn
      cases pid with
      | receiver => exact ⟨True.intro, fun _ _ => ⟨True.intro, fun answer => isEmptyElim answer⟩⟩
      | sender =>
        refine ⟨True.intro, fun same ⟨_, agrees⟩ => ?_⟩
        cases agrees _ rfl
        exact ⟨⟨rfl, rfl⟩, fun _ _ => rfl⟩

theorem receiverHandler_obeys (rounds : Nat) (idle : m.stage = .idle) :
    (receiverHandler signal).Obeys (fun _ _ => True) (handlerProgram rounds Receiver.signalHandler signal) m := by
  refine @handlerProgram_obeys _ _ _ _ (fun m => m.stage = .idle)
    (fun m => m.stage = if signal = readySignal then .entered else .opened) (fun m => m.stage = .finished) rounds
    ?_ ?_ ?_ ?_ idle
  · intro m
    cases stage : m.stage <;> simp [receiverHandler, stage, Stage.allows]
  · rintro ⟨sends, stage, otherPid, reading⟩ rfl
    exact ⟨True.intro, rfl⟩
  · rintro ⟨sends, stage, otherPid, reading⟩ entered
    cases signal with
    | sigusr1 => exact receiveBit_obeys entered
    | sigusr2 =>
      cases entered
      refine Monitor.obeys_bind.mpr (Monitor.obeys_call rfl fun ready _ => ?_)
      cases ready with
      | false => exact ⟨rfl, fun _ _ => rfl⟩
      | true => exact receiveBit_obeys rfl
  · rintro ⟨sends, stage, otherPid, reading⟩ rfl
    exact ⟨True.intro, rfl⟩

theorem receiver_checkProcessId {otherPid : Option Process} : receiverMain.Obeys
    (fun ok m' => m' = m ∧ (ok = true → otherPid = some .sender)) (checkProcessId otherPid) m := by
  cases otherPid with
  | none => exact ⟨rfl, nofun⟩
  | some pid =>
    refine ⟨rfl, fun found _ => ?_⟩
    cases found with
    | false => exact ⟨rfl, nofun⟩
    | true =>
      refine ⟨rfl, fun own ⟨isOwn, _⟩ => ?_⟩
      cases isOwn
      cases pid with
      | sender => exact ⟨rfl, fun _ => rfl⟩
      | receiver => exact ⟨rfl, nofun⟩

theorem receiver_readOtherPid (rounds : Nat) (waiting : m.reading = .waiting) : receiverMain.Obeys
    (fun _ m' => m'.otherPid = some .sender ∧ m'.reading = .waiting) (Receiver.readOtherPid rounds) m := by
  refine Monitor.obeys_loop (fun _ m' => m'.reading = .waiting) (fun _ => rfl) waiting fun _ m waiting => ?_
  refine Monitor.obeys_call rfl fun pid _ => Monitor.obeys_call True.intro fun _ _ => ?_
  refine Monitor.obeys_call rfl fun loaded ⟨_, same⟩ => ?_
  refine Monitor.obeys_bind.mpr (Monitor.obeys_mono ?_ receiver_checkProcessId)
  rintro ok _ ⟨rfl, known⟩
  cases ok with
  | false => exact waiting
  | true => exact ⟨same.symm.trans (known rfl), waiting⟩

theorem receiver_waitUntilReady (rounds : Nat) : receiverMain.Obeys (fun _ m' => m' = m)
    (waitUntilReady rounds) m := by
  refine obeys_steady_loop (fun _ => rfl) ⟨rfl, fun ready _ => ?_⟩
  cases ready with
  | false => exact ⟨rfl, fun _ _ => ⟨rfl, fun _ _ => rfl⟩⟩
  | true => exact rfl

theorem receiver_waitForBits (rounds : Nat) : receiverMain.Obeys (fun _ m' => m'.reading = .full)
    (Receiver.waitForBits rounds) m := by
  refine Monitor.obeys_loop (fun _ _ => True) (fun _ => rfl) True.intro fun _ m _ => ?_
  refine Monitor.obeys_call rfl fun writeBit _ => ?_
  by_cases full : bitsOfNumber ≤ writeBit.toNat
  · rw [if_pos full]
    simp only [receiverMain, if_pos full]
    exact rfl
  · rw [if_neg full]
    exact ⟨rfl, fun _ _ => ⟨rfl, fun _ _ => True.intro⟩⟩

theorem receiver_obeys (rounds : Nat) (waiting : m.reading = .waiting) :
    receiverMain.Obeys (fun _ _ => True) (Receiver.main rounds) m := by
  refine Monitor.obeys_call rfl fun _ _ => Monitor.obeys_call rfl fun _ _ => ?_
  refine Monitor.obeys_bind.mpr (Monitor.obeys_mono ?_ (receiver_readOtherPid rounds waiting))
  rintro _ m ⟨otherPid, -⟩
  refine Monitor.obeys_call rfl fun loaded ⟨_, same⟩ => ?_
  cases same.trans otherPid
  refine Monitor.obeys_call ⟨rfl, rfl⟩ fun _ _ => ?_
  refine Monitor.obeys_bind.mpr (Monitor.obeys_mono ?_ (receiver_waitUntilReady rounds))
  rintro _ _ rfl
  refine Monitor.obeys_bind.mpr (Monitor.obeys_mono ?_ (receiver_waitForBits rounds))
  rintro _ m full
  refine Monitor.obeys_call full fun number _ => ?_
  exact ⟨rfl, fun _ _ => ⟨rfl, fun _ _ => True.intro⟩⟩

end

theorem discipline_obeys (rounds : Nat) (number : BitVec 32) (t : Thread) :
    (discipline number t).Obeys (fun _ _ => True) (threadProgram rounds number t) .initial := by
  obtain ⟨process, context⟩ := t
  cases process <;> cases context
  · exact sender_obeys rounds rfl
  · exact senderHandler_obeys rounds _
  · exact receiver_obeys rounds rfl
  · exact receiverHandler_obeys rounds rfl

end ArchCompSystems.OsHw5
