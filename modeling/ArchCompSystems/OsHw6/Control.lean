import ArchCompSystems.OsHw6.Phases

namespace ArchCompSystems.OsHw6

open Library Library.Program

def Phase.Past (phase : Phase) : Prop := phase ≠ .opening ∧ phase ≠ .exchanging

def Phase.Confirmed : Phase → Prop
  | .top true | .round | .storing _ | .sending => True
  | _ => False

def Phase.Early : Phase → Prop
  | .exchanging | .announced | .top false => True
  | _ => False

def Phase.Taking : Phase → Prop
  | .seen | .printing _ | .clearing => True
  | _ => False

def State.stored (s : State) : Phase → List Int64
  | .storing _ => s.drawn.dropLast
  | _ => s.drawn

def State.loaded (s : State) : Phase → List Int64
  | .printing randNum => s.printed .server ++ [randNum]
  | _ => s.printed .server

/-- How often the server can still load the last number, and then once more for what the client sends. -/
def Phase.loads (type : MessageType) : Phase → Nat
  | .seen => 1
  | .opening | .printing _ | .clearing => 0
  | _ => if type = .newNumber then 1 else 0

def Phase.sends : Phase → Nat
  | .sending => 1
  | _ => 0

section

variable {s : State} {phase : Phase}

theorem stored_congr {s' : State} (same : s'.drawn = s.drawn) : s'.stored phase = s.stored phase := by
  unfold State.stored
  rw [same]

@[simp, grind =] theorem stored_setType (type : MessageType) : (s.setType type).stored phase = s.stored phase :=
  stored_congr rfl

@[simp, grind =] theorem stored_setRandNum (randNum : Int64) : (s.setRandNum randNum).stored phase = s.stored phase :=
  stored_congr rfl

@[simp, grind =] theorem stored_stop (p : Party) : (s.stop p).stored phase = s.stored phase := stored_congr rfl

@[simp, grind =] theorem stored_signal (receivers : Receivers) : (s.signal receivers).stored phase = s.stored phase :=
  stored_congr rfl

@[simp, grind =] theorem stored_print (p : Party) (randNum : Int64) : (s.print p randNum).stored phase = s.stored phase :=
  stored_congr rfl

end

section

variable {s : State} {phase : Phase}

theorem loaded_congr {s' : State} (same : s'.printed .server = s.printed .server) : s'.loaded phase = s.loaded phase := by
  unfold State.loaded
  rw [same]

end

theorem printed_print (s : State) (p : Party) (randNum : Int64) :
    (s.print p randNum).printed p = s.printed p ++ [randNum] := Function.update_self ..

theorem printed_print_client (s : State) (randNum : Int64) :
    (s.print .client randNum).printed .server = s.printed .server := by
  have other : Party.server ≠ .client := by decide
  exact Function.update_of_ne other (s.printed .client ++ [randNum]) s.printed

def Phase.Drawing : Phase → Prop
  | .storing _ | .sending => True
  | _ => False

def ahead (type : MessageType) (server client : Phase) : Nat := client.sends + server.loads type

structure Control (terminateUsingSignal : Bool) (s : State) (server client : Phase) : Prop where
  running : client = .top false → s.isRunning .client = false
  exchanges : server = .exchanging → terminateUsingSignal = true
  awaited : client = .announced → s.message.type = .serverGotProcessId → server.Past
  confirmed : client.Confirmed → server.Past ∨ server = .opening ∧ terminateUsingSignal = false
  drawn : s.drawn ≠ [] → server.Past ∨ server = .opening ∧ terminateUsingSignal = false
  early : client.Early → s.drawn = []
  storing : ∀ randNum, client = .storing randNum → s.drawn.getLast? = some randNum
  sending : client = .sending → s.drawn ≠ []
  announced : s.message.type = .newNumber → server = .opening ∨ s.stored client ≠ []
  seen : server = .seen → s.stored client ≠ []
  current : ∀ randNum ∈ (s.stored client).getLast?, s.message.randNum = randNum

section

variable {terminateUsingSignal : Bool} {pids : Party → Int32} {s s' : State} {server client : Phase}

theorem Control.congr (control : Control terminateUsingSignal s server client) (message : s'.message = s.message)
    (drawn : s'.drawn = s.drawn) (running : s.isRunning .client = false → s'.isRunning .client = false) :
    Control terminateUsingSignal s' server client := by
  have stored : s'.stored client = s.stored client := stored_congr drawn
  constructor
  · exact fun top => running (control.running top)
  · exact control.exchanges
  · exact message ▸ control.awaited
  · exact control.confirmed
  · exact drawn ▸ control.drawn
  · exact drawn ▸ control.early
  · exact drawn ▸ control.storing
  · exact drawn ▸ control.sending
  · exact message ▸ stored ▸ control.announced
  · exact stored ▸ control.seen
  · exact message ▸ stored ▸ control.current

theorem Control.move {server' : Phase} (control : Control terminateUsingSignal s server client)
    (past : server.Past → server'.Past) (opening : server = .opening → server' = .opening)
    (exchanging : server' = .exchanging → server = .exchanging) (seen : server' = .seen → s.stored client ≠ []) :
    Control terminateUsingSignal s server' client where
  running := control.running
  exchanges isExchanging := control.exchanges (exchanging isExchanging)
  awaited isAnnounced got := past (control.awaited isAnnounced got)
  confirmed isConfirmed := (control.confirmed isConfirmed).imp past fun old => ⟨opening old.1, old.2⟩
  drawn nonempty := (control.drawn nonempty).imp past fun old => ⟨opening old.1, old.2⟩
  early := control.early
  storing := control.storing
  sending := control.sending
  announced new := (control.announced new).imp opening id
  seen := seen
  current := control.current

theorem Control.store {server' : Phase} {type : MessageType} (control : Control terminateUsingSignal s server client)
    (noNumber : type ≠ .newNumber) (got : type = .serverGotProcessId → server'.Past)
    (exchanges : server' = .exchanging → terminateUsingSignal = true) (notSeen : server' ≠ .seen)
    (past : server.Past ∨ server = .opening ∧ terminateUsingSignal = false → server'.Past) :
    Control terminateUsingSignal (s.setType type) server' client where
  running := control.running
  exchanges := exchanges
  awaited _ := got
  confirmed isConfirmed := .inl (past (control.confirmed isConfirmed))
  drawn nonempty := .inl (past (control.drawn nonempty))
  early := control.early
  storing := control.storing
  sending := control.sending
  announced new := absurd new noNumber
  seen isSeen := absurd isSeen notSeen
  current := control.current

theorem Control.storesType_of_server {type : MessageType} (control : Control terminateUsingSignal s server client)
    (allowed : server.allows terminateUsingSignal .server (.storeType type)) :
    Control terminateUsingSignal (s.setType type)
      (server.after terminateUsingSignal .server (.storeType type) ()) client := by
  cases server with
  | opening =>
    obtain ⟨-, rfl⟩ := allowed
    cases terminateUsingSignal with
    | true => exact control.store nofun nofun (fun _ => rfl) nofun (by simp [Phase.Past])
    | false => exact control.store nofun nofun nofun nofun fun _ => ⟨nofun, nofun⟩
  | exchanging =>
    rcases allowed with rfl | ⟨-, rfl⟩
    · exact control.store nofun nofun (fun _ => control.exchanges rfl) nofun (by simp [Phase.Past])
    · exact control.store nofun (fun _ => ⟨nofun, nofun⟩) nofun nofun fun _ => ⟨nofun, nofun⟩
  | clearing =>
    obtain ⟨-, rfl⟩ := allowed
    exact control.store nofun nofun nofun nofun fun _ => ⟨nofun, nofun⟩
  | left => exact control.store allowed.2.1 (absurd · allowed.2.2) nofun nofun fun _ => ⟨nofun, nofun⟩
  | sending => exact absurd allowed.1 nofun
  | _ => exact allowed.elim

theorem Control.isRunning_of_server {answer : Bool} (control : Control terminateUsingSignal s server client)
    (allowed : server.allows terminateUsingSignal .server .isRunning) :
    Control terminateUsingSignal s (server.after terminateUsingSignal .server .isRunning answer) client := by
  rcases allowed with rfl | rfl | ⟨confirmed, rfl⟩
  · exact control
  · show Control _ _ (if _ then Phase.announced else .top false) _
    split_ifs
    · exact control
    · exact control.move (fun _ => ⟨nofun, nofun⟩) nofun nofun nofun
  · show Control _ _ (if _ then Phase.round else .left) _
    split_ifs <;> exact control.move (fun _ => ⟨nofun, nofun⟩) nofun nofun nofun

theorem Control.loadType_of_server (control : Control terminateUsingSignal s server client)
    (allowed : server.allows terminateUsingSignal .server .loadType) :
    Control terminateUsingSignal s (server.after terminateUsingSignal .server .loadType s.message.type) client := by
  rcases allowed with rfl | rfl | rfl | rfl
  · exact control
  · show Control _ _ (if _ then Phase.top true else .announced) _
    split_ifs
    · exact control.move (fun _ => ⟨nofun, nofun⟩) nofun nofun nofun
    · exact control
  · show Control _ _ (if _ then Phase.seen else if _ then .round else .top true) _
    split_ifs with new
    · exact control.move (fun _ => ⟨nofun, nofun⟩) nofun nofun fun _ => (control.announced new).resolve_left nofun
    · exact control
    · exact control.move (fun _ => ⟨nofun, nofun⟩) nofun nofun nofun
  · exact control

theorem Control.exchanging_drawn (control : Control terminateUsingSignal s .exchanging client) : s.drawn = [] := by
  by_contra nonempty
  rcases control.drawn nonempty with past | ⟨⟨⟩, -⟩
  exact past.2 rfl

theorem Control.exchanging_stored (control : Control terminateUsingSignal s .exchanging client) :
    s.stored client = [] := by
  unfold State.stored
  split <;> rw [control.exchanging_drawn]
  rfl

theorem Control.of_server {call : Call} {answer : call.Answer} (control : Control terminateUsingSignal s server client)
    (allowed : server.allows terminateUsingSignal .server call)
    (performed : performParty pids .server call answer s = some s') :
    Control terminateUsingSignal s' (server.after terminateUsingSignal .server call answer) client := by
  cases call with
  | storeType type =>
    cases performed
    exact control.storesType_of_server allowed
  | isRunning =>
    obtain ⟨-, ⟨⟩⟩ := Option.ite_none_right_eq_some.mp performed
    exact control.isRunning_of_server allowed
  | stopRunning =>
    cases performed
    obtain ⟨rfl, -⟩ := allowed
    have stopped : Control terminateUsingSignal (s.stop .server) .round client :=
      control.congr rfl rfl (stop_isRunning_of_stopped · .server)
    exact stopped.move (fun _ => ⟨nofun, nofun⟩) nofun nofun nofun
  | loadType =>
    obtain ⟨rfl, ⟨⟩⟩ := Option.ite_none_right_eq_some.mp performed
    exact control.loadType_of_server allowed
  | loadRandNum =>
    obtain ⟨rfl, ⟨⟩⟩ := Option.ite_none_right_eq_some.mp performed
    rcases allowed with rfl | ⟨rfl, -⟩
    · exact control
    · exact control.move (fun _ => ⟨nofun, nofun⟩) nofun nofun nofun
  | storeRandNum randNum =>
    cases performed
    rcases allowed with rfl | ⟨-, ⟨⟩⟩
    refine { control with current := fun number last => ?_ }
    rw [stored_setRandNum, control.exchanging_stored] at last
    cases last
  | getpid =>
    obtain ⟨-, ⟨⟩⟩ := Option.ite_none_right_eq_some.mp performed
    exact control
  | kill pid =>
    obtain ⟨-, ⟨⟩⟩ := Option.ite_none_right_eq_some.mp performed
    exact control.congr rfl rfl fun stopped => by
      show (s.isRunning .client && _) = false
      rw [stopped, Bool.false_and]
  | time =>
    cases performed
    exact control
  | random => exact absurd allowed.2 nofun
  | printNumber randNum =>
    cases performed
    rcases allowed with ⟨rfl, -⟩ | ⟨-, ⟨⟩⟩
    have printed : Control terminateUsingSignal (s.print .server randNum) (.printing randNum) client :=
      control.congr rfl rfl id
    exact printed.move (fun _ => ⟨nofun, nofun⟩) nofun nofun nofun
  | sleepNanos =>
    cases performed
    show Control _ _ server.slept _
    unfold Phase.slept
    split
    · exact control.move (fun _ => ⟨nofun, nofun⟩) nofun nofun nofun
    · exact control
  | interrupt p => cases performed
  | goesOn => exact isEmptyElim answer

theorem Control.moveClient {client' : Phase} (control : Control terminateUsingSignal s server client)
    (stored : s.stored client' = s.stored client) (running : client' = .top false → s.isRunning .client = false)
    (awaited : client' = .announced → client = .announced)
    (confirmed : client'.Confirmed → server.Past ∨ server = .opening ∧ terminateUsingSignal = false)
    (early : client'.Early → s.drawn = [])
    (storing : ∀ randNum, client' ≠ .storing randNum) (sending : client' ≠ .sending) :
    Control terminateUsingSignal s server client' where
  running := running
  exchanges := control.exchanges
  awaited isAnnounced := control.awaited (awaited isAnnounced)
  confirmed := confirmed
  drawn := control.drawn
  early := early
  storing randNum isStoring := absurd isStoring (storing randNum)
  sending isSending := absurd isSending sending
  announced := stored ▸ control.announced
  seen := stored ▸ control.seen
  current := stored ▸ control.current

theorem Control.storeClient {type : MessageType} (control : Control terminateUsingSignal s server client)
    (noNumber : type ≠ .newNumber) (noAnswer : type ≠ .serverGotProcessId) :
    Control terminateUsingSignal (s.setType type) server client :=
  { control with
    awaited := fun _ got => absurd got noAnswer
    announced := fun new => absurd new noNumber }

theorem Control.storesType_of_client {type : MessageType} (control : Control terminateUsingSignal s server client)
    (allowed : client.allows terminateUsingSignal .client (.storeType type)) :
    Control terminateUsingSignal (s.setType type) server
      (client.after terminateUsingSignal .client (.storeType type) ()) := by
  cases client with
  | exchanging =>
    rcases allowed with rfl | ⟨⟨⟩, -⟩
    have stores : Control terminateUsingSignal (s.setType .clientSentProcessId) server .exchanging :=
      control.storeClient nofun nofun
    exact { stores with
      running := nofun
      awaited := fun _ => nofun
      confirmed := nofun
      early := fun _ => control.early True.intro
      storing := nofun
      sending := nofun }
  | sending =>
    obtain ⟨-, rfl⟩ := allowed
    exact { control with
      running := nofun
      awaited := nofun
      confirmed := fun _ => control.confirmed True.intro
      early := False.elim
      storing := nofun
      sending := nofun
      announced := fun _ => .inr (control.sending rfl) }
  | left => exact control.storeClient allowed.2.1 allowed.2.2
  | opening => exact absurd allowed.1 nofun
  | clearing => exact absurd allowed.1 nofun
  | _ => exact allowed.elim

theorem Control.isRunning_of_client {answer : Bool} (control : Control terminateUsingSignal s server client)
    (allowed : client.allows terminateUsingSignal .client .isRunning) (same : answer = s.isRunning .client) :
    Control terminateUsingSignal s server (client.after terminateUsingSignal .client .isRunning answer) := by
  rcases allowed with rfl | rfl | ⟨confirmed, rfl⟩
  · exact control
  · show Control _ _ _ (if _ then Phase.announced else .top false)
    split_ifs with running
    · exact control
    · exact control.moveClient rfl (fun _ => same.symm.trans (Bool.eq_false_iff.mpr running)) nofun nofun
        (fun _ => control.early True.intro) nofun nofun
  · show Control _ _ _ (if _ then Phase.round else .left)
    split_ifs with running
    · cases confirmed with
      | true => exact control.moveClient rfl nofun nofun (fun _ => control.confirmed True.intro) False.elim nofun nofun
      | false => exact absurd (same.trans (control.running rfl)) (Bool.eq_false_iff.not.mpr (not_not.mpr running))
    · exact control.moveClient rfl nofun nofun nofun False.elim nofun nofun

theorem Control.loadType_of_client (control : Control terminateUsingSignal s server client)
    (allowed : client.allows terminateUsingSignal .client .loadType) :
    Control terminateUsingSignal s server (client.after terminateUsingSignal .client .loadType s.message.type) := by
  rcases allowed with rfl | rfl | rfl | rfl
  · exact control
  · show Control _ _ _ (if _ then Phase.top true else .announced)
    split_ifs with got
    · exact control.moveClient rfl nofun nofun (fun _ => .inl (control.awaited rfl got)) False.elim nofun nofun
    · exact control
  · show Control _ _ _ (if _ then Phase.left else .round)
    split_ifs
    · exact control.moveClient rfl nofun nofun nofun False.elim nofun nofun
    · exact control
  · exact control

theorem Control.storesNumber_of_client {randNum : Int64} (control : Control terminateUsingSignal s server client)
    (allowed : client.allows terminateUsingSignal .client (.storeRandNum randNum)) :
    Control terminateUsingSignal (s.setRandNum randNum) server
      (client.after terminateUsingSignal .client (.storeRandNum randNum) ()) := by
  rcases allowed with rfl | ⟨rfl, -⟩
  · have none : s.drawn = [] := control.early True.intro
    refine { control with current := fun number last => ?_ }
    rw [stored_setRandNum] at last
    change number ∈ s.drawn.getLast? at last
    rw [none] at last
    cases last
  · have last : s.drawn.getLast? = some randNum := control.storing randNum rfl
    have nonempty : s.drawn ≠ [] := fun none => by
      rw [none] at last
      cases last
    refine { control with
      running := nofun
      awaited := nofun
      confirmed := fun _ => control.confirmed True.intro
      early := False.elim
      storing := nofun
      sending := fun _ => nonempty
      announced := fun _ => .inr nonempty
      seen := fun _ => nonempty
      current := fun number current => ?_ }
    exact Option.some.inj (last.symm.trans current)

theorem Control.draws {answer : Int64} (control : Control terminateUsingSignal s server .round) :
    Control terminateUsingSignal (s.draw answer) server (.storing answer) := by
  have stored : (s.draw answer).stored (.storing answer) = s.stored .round := List.dropLast_concat
  refine { control with
    running := nofun
    awaited := nofun
    confirmed := fun _ => control.confirmed True.intro
    drawn := fun _ => control.confirmed True.intro
    early := False.elim
    storing := ?_
    sending := nofun
    announced := ?_
    seen := ?_
    current := ?_ }
  · rintro randNum ⟨⟩
    exact List.getLast?_concat
  · exact stored.symm ▸ control.announced
  · exact stored.symm ▸ control.seen
  · exact stored.symm ▸ control.current

theorem Control.of_client {call : Call} {answer : call.Answer} (control : Control terminateUsingSignal s server client)
    (allowed : client.allows terminateUsingSignal .client call)
    (performed : performParty pids .client call answer s = some s') :
    Control terminateUsingSignal s' server (client.after terminateUsingSignal .client call answer) := by
  cases call with
  | storeType type =>
    cases performed
    exact control.storesType_of_client allowed
  | isRunning =>
    obtain ⟨same, ⟨⟩⟩ := Option.ite_none_right_eq_some.mp performed
    exact control.isRunning_of_client allowed same
  | stopRunning => exact absurd allowed.2 nofun
  | loadType =>
    obtain ⟨rfl, ⟨⟩⟩ := Option.ite_none_right_eq_some.mp performed
    exact control.loadType_of_client allowed
  | loadRandNum =>
    obtain ⟨rfl, ⟨⟩⟩ := Option.ite_none_right_eq_some.mp performed
    rcases allowed with rfl | ⟨-, ⟨⟩⟩
    exact control
  | storeRandNum randNum =>
    cases performed
    exact control.storesNumber_of_client allowed
  | getpid =>
    obtain ⟨-, ⟨⟩⟩ := Option.ite_none_right_eq_some.mp performed
    exact control
  | kill pid =>
    obtain ⟨-, ⟨⟩⟩ := Option.ite_none_right_eq_some.mp performed
    exact control.congr rfl rfl fun stopped => by
      show (s.isRunning .client && _) = false
      rw [stopped, Bool.false_and]
  | time =>
    cases performed
    exact control
  | random =>
    cases performed
    obtain ⟨rfl, -⟩ := allowed
    exact control.draws
  | printNumber randNum =>
    cases performed
    rcases allowed with ⟨-, ⟨⟩⟩ | ⟨rfl, -⟩
    exact control.congr rfl rfl id
  | sleepNanos =>
    cases performed
    show Control _ _ _ client.slept
    unfold Phase.slept
    split
    · exact control.moveClient rfl nofun nofun (fun _ => control.confirmed True.intro) False.elim nofun nofun
    · exact control
  | interrupt p => cases performed
  | goesOn => exact isEmptyElim answer

end

end ArchCompSystems.OsHw6
