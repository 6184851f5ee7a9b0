import ArchCompSystems.OsIhw3.Environment
import ArchCompSystems.OsIhw3.Transfers

namespace ArchCompSystems.OsIhw3

open Library Library.Program

def receivedFrom (c : ClientType) (moved : List Transfer) : List Pin :=
  moved.filterMap fun
    | .received d _ pin => if d = c then some pin else none
    | .handed _ _ _ _ => none

def handedTo (c : ClientType) (moved : List Transfer) : List Pin :=
  moved.filterMap fun
    | .handed d _ pin _ => if d = c then some pin else none
    | .received _ _ _ => none

def sentTo (c : ClientType) (moved : List Transfer) : List Pin :=
  moved.filterMap fun
    | .handed d _ pin whole => if d = c ∧ whole = true then some pin else none
    | .received _ _ _ => none

/-- From these queues and with these transfers to those queues: what was queued or received is handed
    over or queued, in the same order. -/
structure Carries (pins : PinsQueue × PinsQueue) (moved : List Transfer)
    (pins' : PinsQueue × PinsQueue) : Prop where
  wellFormed : pins'.1.WellFormed ∧ pins'.2.WellFormed
  first : pins.1.contents ++ receivedFrom .firstStageWorkerClient moved =
    handedTo .secondStageWorkerClient moved ++ pins'.1.contents
  second : pins.2.contents ++ receivedFrom .secondStageWorkerClient moved =
    handedTo .thirdStageWorkerClient moved ++ pins'.2.contents
  workers : ∀ c fd pin whole, .handed c fd pin whole ∈ moved →
    c = .secondStageWorkerClient ∨ c = .thirdStageWorkerClient

section

variable {pins middle pins' : PinsQueue × PinsQueue} {moved others : List Transfer} {c d : ClientType}

@[simp] theorem receivedFrom_append : receivedFrom c (moved ++ others) =
    receivedFrom c moved ++ receivedFrom c others := List.filterMap_append ..

@[simp] theorem handedTo_append : handedTo c (moved ++ others) =
    handedTo c moved ++ handedTo c others := List.filterMap_append ..

theorem receivedFrom_received (received : List (Int × Pin)) : receivedFrom c
    (received.map fun pin => .received d pin.1 pin.2) = if d = c then received.map Prod.snd else [] := by
  by_cases same : d = c
  · simp [receivedFrom, List.filterMap_map, same]
  · simp [receivedFrom, List.filterMap_map, same]

theorem receivedFrom_handed (handed : List ((Int × Bool) × Pin)) : receivedFrom c
    (handed.map fun pin => .handed d pin.1.1 pin.2 pin.1.2) = [] := by
  simp [receivedFrom, List.filterMap_map]

theorem handedTo_received (received : List (Int × Pin)) : handedTo c
    (received.map fun pin => .received d pin.1 pin.2) = [] := by
  simp [handedTo, List.filterMap_map]

theorem handedTo_handed (handed : List ((Int × Bool) × Pin)) : handedTo c
    (handed.map fun pin => .handed d pin.1.1 pin.2 pin.1.2) =
      if d = c then handed.map Prod.snd else [] := by
  by_cases same : d = c
  · simp [handedTo, List.filterMap_map, same]
  · simp [handedTo, List.filterMap_map, same]

theorem Carries.nil (wf : pins.1.WellFormed ∧ pins.2.WellFormed) : Carries pins [] pins :=
  ⟨wf, by simp [receivedFrom, handedTo], by simp [receivedFrom, handedTo], by simp⟩

theorem Carries.append (first : Carries pins moved middle) (second : Carries middle others pins') :
    Carries pins (moved ++ others) pins' where
  wellFormed := second.wellFormed
  first := by
    rw [receivedFrom_append, handedTo_append, ← List.append_assoc, first.first, List.append_assoc,
      second.first, List.append_assoc]
  second := by
    rw [receivedFrom_append, handedTo_append, ← List.append_assoc, first.second, List.append_assoc,
      second.second, List.append_assoc]
  workers c fd pin whole member := by
    rcases List.mem_append.mp member with member | member
    · exact first.workers c fd pin whole member
    · exact second.workers c fd pin whole member

theorem Polls.carries_first {pins1To2' : PinsQueue} (wf : pins.2.WellFormed)
    (polls : Polls .firstStageWorkerClient pins.1 moved pins1To2') :
    Carries pins moved (pins1To2', pins.2) := by
  obtain ⟨received, rfl, wf', contents⟩ := polls
  refine ⟨⟨wf', wf⟩, ?_, ?_, by simp⟩
  · simp [receivedFrom_received, handedTo_received, contents]
  · simp [receivedFrom_received, handedTo_received]

theorem Hands.carries_second {pins1To2' : PinsQueue} (wf : pins.2.WellFormed)
    (hands : Hands .secondStageWorkerClient pins.1 moved pins1To2') :
    Carries pins moved (pins1To2', pins.2) := by
  obtain ⟨handed, rfl, wf', contents⟩ := hands
  refine ⟨⟨wf', wf⟩, ?_, ?_, fun c fd pin whole member => ?_⟩
  · simp [receivedFrom_handed, handedTo_handed, contents]
  · simp [receivedFrom_handed, handedTo_handed]
  · obtain ⟨_, -, same⟩ := List.mem_map.mp member
    cases same
    exact .inl rfl

theorem Polls.carries_second {pins2To3' : PinsQueue} (wf : pins.1.WellFormed)
    (polls : Polls .secondStageWorkerClient pins.2 moved pins2To3') :
    Carries pins moved (pins.1, pins2To3') := by
  obtain ⟨received, rfl, wf', contents⟩ := polls
  refine ⟨⟨wf, wf'⟩, ?_, ?_, by simp⟩
  · simp [receivedFrom_received, handedTo_received]
  · simp [receivedFrom_received, handedTo_received, contents]

theorem Hands.carries_third {pins2To3' : PinsQueue} (wf : pins.1.WellFormed)
    (hands : Hands .thirdStageWorkerClient pins.2 moved pins2To3') :
    Carries pins moved (pins.1, pins2To3') := by
  obtain ⟨handed, rfl, wf', contents⟩ := hands
  refine ⟨⟨wf, wf'⟩, ?_, ?_, fun c fd pin whole member => ?_⟩
  · simp [receivedFrom_handed, handedTo_handed]
  · simp [receivedFrom_handed, handedTo_handed, contents]
  · obtain ⟨_, -, same⟩ := List.mem_map.mp member
    cases same
    exact .inr rfl

def CarriesPins {α : Type} (p : ServerProgram α) (pins : PinsQueue × PinsQueue)
    (result : α → PinsQueue × PinsQueue) : Prop :=
  Moves p fun moved value => Carries pins moved (result value)

theorem carriesPins_pure {α : Type} {value : α} {result : α → PinsQueue × PinsQueue}
    (wf : pins.1.WellFormed ∧ pins.2.WellFormed) (same : result value = pins) :
    CarriesPins (pure value) pins result := moves_pure (by rw [same]; exact .nil wf)

theorem carriesPins_bind {α β : Type} {p : ServerProgram α} {f : α → ServerProgram β}
    {first : α → PinsQueue × PinsQueue} {result : β → PinsQueue × PinsQueue}
    (carries : CarriesPins p pins first)
    (rest : ∀ value, (first value).1.WellFormed ∧ (first value).2.WellFormed →
      CarriesPins (f value) (first value) result) : CarriesPins (p >>= f) pins result :=
  moves_bind carries fun _ value carried =>
    moves_mono (fun _ _ carriedToo => carried.append carriedToo) (rest value carried.wellFormed)

theorem firstStage_carries (wf : pins.1.WellFormed ∧ pins.2.WellFormed) :
    CarriesPins (nonblockingPollWorkersOnTheFirstStage pins.1) pins
      (fun result => (result.2, pins.2)) :=
  moves_mono (fun _ _ polls => polls.carries_first wf.2) (firstStage_polls wf.1)

theorem secondStage_carries (wf : pins.1.WellFormed ∧ pins.2.WellFormed) :
    CarriesPins (nonblockingPollWorkersOnTheSecondStage pins.1 pins.2) pins (fun result => result.2) := by
  refine moves_mono ?_ (secondStage_hands_polls wf.1 wf.2)
  rintro _ result ⟨handed, received, rfl, hands, polls⟩
  have sending := hands.carries_second wf.2
  exact sending.append (polls.carries_second sending.wellFormed.1)

theorem thirdStage_carries (wf : pins.1.WellFormed ∧ pins.2.WellFormed) :
    CarriesPins (nonblockingPollWorkersOnTheThirdStage pins.2) pins
      (fun result => (pins.1, result.2)) :=
  moves_mono (fun _ _ hands => hands.carries_third wf.1) (thirdStage_hands wf.2)

/-- The queues with which a round or a run of rounds ends. -/
def roundPins : LoopFlow (PinsQueue × PinsQueue) (PinsQueue × PinsQueue) → PinsQueue × PinsQueue
  | .next pins | .exit pins => pins

theorem sleepBetweenRounds_movesNothing : sleepBetweenRounds.Calls Call.MovesNothing := by
  unfold sleepBetweenRounds
  refine calls_bind (calls_make True.intro) fun answer => ?_
  repeat' first
    | exact True.intro
    | exact calls_make True.intro
    | refine calls_bind ?_ fun _ => ?_
    | split

theorem workersPollerRound_carries (wf : pins.1.WellFormed ∧ pins.2.WellFormed) :
    CarriesPins (workersPollerRound pins) pins roundPins := by
  have stop : ∀ {text : String} {flow : LoopFlow (PinsQueue × PinsQueue) (PinsQueue × PinsQueue)},
      (roundPins flow).1.WellFormed ∧ (roundPins flow).2.WellFormed →
      CarriesPins (do print text; return flow) (roundPins flow) roundPins :=
    fun wf => moves_quiet_bind (calls_make True.intro) fun _ => carriesPins_pure wf rfl
  unfold workersPollerRound
  refine moves_quiet_bind (calls_make True.intro) fun running => ?_
  cases running with
  | false => exact carriesPins_pure wf rfl
  | true =>
    refine carriesPins_bind (firstStage_carries wf) fun (polled, pins1To2) wf => ?_
    cases polled with
    | false => exact stop wf
    | true =>
      refine carriesPins_bind (secondStage_carries wf) fun (polled, pins1To2, pins2To3) wf => ?_
      cases polled with
      | false => exact stop wf
      | true =>
        refine carriesPins_bind (thirdStage_carries wf) fun (polled, pins2To3) wf => ?_
        cases polled with
        | false => exact stop wf
        | true =>
          refine moves_quiet_bind sleepBetweenRounds_movesNothing fun goesOn => ?_
          cases goesOn <;> exact carriesPins_pure wf rfl

theorem workersPollerRounds_carries (rounds : Nat) :
    CarriesPins (workersPollerRounds rounds) (.zero, .zero) roundPins := by
  have empty : PinsQueue.zero.WellFormed ∧ PinsQueue.zero.WellFormed :=
    ⟨PinsQueue.zero_wellFormed, PinsQueue.zero_wellFormed⟩
  refine moves_mono (fun moved flow after => ?_) (@moves_forFrom _ _ (fun _ => workersPollerRound)
    (fun moved pins => Carries (.zero, .zero) moved pins)
    (fun moved pins => Carries (.zero, .zero) moved pins) rounds (.zero, .zero) ?_ (.nil empty))
  · cases flow <;> exact after
  · intro i moved pins carried
    refine moves_mono (fun others flow carriedToo => ?_) (workersPollerRound_carries carried.wellFormed)
    cases flow <;> exact carried.append carriedToo

end

/-- The first queue holds what was received from the first stage and not sent to the second, and the
    second queue what was received from the second stage and not sent to the third. -/
def Conserved (history : List ServerEvent) (pins : PinsQueue × PinsQueue) : Prop :=
  receivedFrom .firstStageWorkerClient (transfers none history) =
      sentTo .secondStageWorkerClient (transfers none history) ++ pins.1.contents ∧
    receivedFrom .secondStageWorkerClient (transfers none history) =
      sentTo .thirdStageWorkerClient (transfers none history) ++ pins.2.contents

instance (history : List ServerEvent) (pins : PinsQueue × PinsQueue) :
    Decidable (Conserved history pins) := inferInstanceAs (Decidable (_ ∧ _))

/-- Every `send` of a pin answers the size of a pin. -/
def SendsWhole (history : List ServerEvent) : Prop :=
  ∀ fd pin, ∀ answer : SendAnswer, ⟨.send fd (.pin pin), answer⟩ ∈ history → answer = .sent sizeofPin

section

variable {moved : List Transfer} {c : ClientType} {history : List ServerEvent}

theorem length_sentTo_le : (sentTo c moved).length ≤ (handedTo c moved).length := by
  induction moved with
  | nil => exact Nat.le_refl _
  | cons transfer rest ih =>
    cases transfer with
    | received d fd pin => exact ih
    | handed d fd pin whole =>
      by_cases same : d = c <;> cases whole <;> simp [sentTo, handedTo, same] at ih ⊢ <;> omega

theorem sentTo_eq_handedTo_iff : sentTo c moved = handedTo c moved ↔
    ∀ fd pin, .handed c fd pin false ∉ moved := by
  induction moved with
  | nil => simp [sentTo, handedTo]
  | cons transfer rest ih =>
    have shorter := @length_sentTo_le rest c
    cases transfer with
    | received d fd pin => simpa [sentTo, handedTo] using ih
    | handed d fd pin whole =>
      by_cases same : d = c
      · subst same
        cases whole with
        | true => simpa [sentTo, handedTo] using ih
        | false =>
          refine iff_of_false (fun equal => ?_) fun none => none fd pin (List.mem_cons_self ..)
          have lengths := congrArg List.length equal
          simp only [sentTo, handedTo, List.filterMap_cons] at lengths shorter
          simp at lengths
          omega
      · have other : ¬ c = d := fun equal => same equal.symm
        simpa [sentTo, handedTo, same, other] using ih

theorem handed_of_send {fd : Int} {pin : Pin} {answer : SendAnswer}
    (sent : ⟨.send fd (.pin pin), answer⟩ ∈ history) (c : ClientType) :
    ∃ d, .handed d fd pin (decide (answer = .sent sizeofPin)) ∈ transfers (some c) history := by
  induction history generalizing c with
  | nil => cases sent
  | cons event rest ih =>
    rcases List.mem_cons.mp sent with rfl | later
    · exact ⟨c, List.mem_append_left _ (by simp [transferIn])⟩
    · obtain ⟨d, polled⟩ : ∃ d, polledAfter (some c) event = some d := by
        unfold polledAfter
        split <;> exact ⟨_, rfl⟩
      obtain ⟨e, member⟩ := ih later d
      refine ⟨e, List.mem_append_right _ ?_⟩
      rwa [polled]

theorem send_of_handed {polled : Option ClientType} {fd : Int} {pin : Pin} {whole : Bool}
    (handed : .handed c fd pin whole ∈ transfers polled history) :
    ∃ answer : SendAnswer, ⟨.send fd (.pin pin), answer⟩ ∈ history ∧
      whole = decide (answer = .sent sizeofPin) := by
  induction history generalizing polled with
  | nil => cases handed
  | cons event rest ih =>
    rcases List.mem_append.mp handed with here | later
    · unfold transferIn at here
      split at here
      · split at here <;> simp at here
      · rename_i fd' pin' answer
        simp only [Option.mem_toList, Option.map_eq_some_iff, Transfer.handed.injEq] at here
        obtain ⟨d, -, rfl, rfl, rfl, rfl⟩ := here
        exact ⟨answer, List.mem_cons_self .., rfl⟩
      · simp at here
    · obtain ⟨answer, member, same⟩ := ih later
      exact ⟨answer, List.mem_cons_of_mem _ member, same⟩

/-- After any number of rounds, however the calls are answered, the pins are conserved exactly when
    every `send` of a pin was whole: the pin of any other `send` has left the queue and is lost. -/
theorem pins_conserved (rounds : Nat) (history : List ServerEvent)
    (flow : LoopFlow (PinsQueue × PinsQueue) (PinsQueue × PinsQueue))
    (completes : (workersPollerRounds rounds).Completes history flow) :
    Conserved history (roundPins flow) ↔ SendsWhole history := by
  obtain ⟨moved, all, carries⟩ := always_iff.mp (workersPollerRounds_carries rounds) _ _ completes
  have first := carries.first
  have second := carries.second
  rw [PinsQueue.zero_contents, List.nil_append] at first second
  rw [Conserved, all none, first, second, List.append_left_inj, List.append_left_inj,
    eq_comm, sentTo_eq_handedTo_iff, eq_comm, sentTo_eq_handedTo_iff]
  constructor
  · rintro ⟨toSecond, toThird⟩ fd pin answer sent
    obtain ⟨d, handed⟩ := handed_of_send sent .firstStageWorkerClient
    rw [all] at handed
    by_contra partial'
    rw [decide_eq_false partial'] at handed
    rcases carries.workers d fd pin false handed with rfl | rfl
    · exact toSecond fd pin handed
    · exact toThird fd pin handed
  · intro whole
    have none : ∀ c fd pin, .handed c fd pin false ∉ moved := by
      intro c fd pin handed
      rw [← all none] at handed
      obtain ⟨answer, sent, lost⟩ := send_of_handed handed
      exact of_decide_eq_false lost.symm (whole fd pin answer sent)
    exact ⟨none _, none _⟩

def twoWorkers : ServerState :=
  ((initServer.setFd .firstStageWorkerClient 0 5).setArrSize .firstStageWorkerClient 1).setFd
    .secondStageWorkerClient 0 6 |>.setArrSize .secondStageWorkerClient 1

def Environment.working (pinId : UInt8) : Environment :=
  { Environment.calm with receives := fun _ _ => .received [pinId, 0, 0, 0] }

/-- A pin goes from a worker of the first stage to one of the second. -/
theorem pin_conserved_when_sent : ∃ history flow, (workersPollerRounds 1).Completes history flow ∧
    sentTo .secondStageWorkerClient (transfers none history) = [⟨7⟩] ∧
    (Conserved history (roundPins flow) ↔ SendsWhole history) := by
  have executed : ((Environment.working 7).runs (workersPollerRounds 1) twoWorkers).any
      (fun (history, _, _) => sentTo .secondStageWorkerClient (transfers none history) == [⟨7⟩]) = true := by
    decide
  obtain ⟨⟨history, flow, s'⟩, run, sent⟩ := (Option.any_eq_true ..).mp executed
  have completes := (Environment.runs_of_eq_some run).completes
  exact ⟨history, flow, completes, eq_of_beq sent, pins_conserved 1 history flow completes⟩

/-- A `send` that would block loses the pin that was taken from the queue for it. -/
theorem pin_lost_when_send_blocks : ¬ ∀ (rounds : Nat) (history : List ServerEvent)
    (flow : LoopFlow (PinsQueue × PinsQueue) (PinsQueue × PinsQueue)),
    (workersPollerRounds rounds).Completes history flow → Conserved history (roundPins flow) := by
  intro conserved
  let blocking : Environment := { Environment.working 7 with sends := fun _ _ => .failed .eagain }
  have executed : (blocking.runs (workersPollerRounds 1) twoWorkers).any
      (fun (history, flow, _) => !decide (Conserved history (roundPins flow))) = true := by decide
  obtain ⟨⟨history, flow, s'⟩, run, lost⟩ := (Option.any_eq_true ..).mp executed
  have kept := conserved 1 history flow (Environment.runs_of_eq_some run).completes
  simp only [kept, decide_true, Bool.not_true, Bool.false_eq_true] at lost

end

end ArchCompSystems.OsIhw3
