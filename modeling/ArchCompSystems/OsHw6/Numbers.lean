import ArchCompSystems.OsHw6.Control
import Mathlib.Data.List.Induction

namespace ArchCompSystems.OsHw6

open Library Library.Program

def spread (numbers : List Int64) (counts : List Nat) : List Int64 :=
  (List.zipWith (fun number count => List.replicate count number) numbers counts).flatten

/-- What was loaded are the numbers that were stored, in order, each at most twice, and the last one
    `last` times. -/
def Loaded (stored loaded : List Int64) (last : Nat) : Prop :=
  ∃ counts : List Nat, counts.length = stored.length ∧ (∀ count ∈ counts, count ≤ 2) ∧
    counts.getLastD 0 = last ∧ loaded = spread stored counts

def Call.draws : Call → Bool
  | .random => true
  | _ => false

def Timely (pool : Processes) : Action Agent Call Call.Answer → Prop
  | .call _ event => event.1.draws → pool.state.message.type ≠ .newNumber
  | .cut _ _ => True

theorem loaded_nil : Loaded [] [] 0 := ⟨[], rfl, nofun, rfl, rfl⟩

theorem spread_append {numbers more : List Int64} {counts others : List Nat} (same : counts.length = numbers.length) :
    spread (numbers ++ more) (counts ++ others) = spread numbers counts ++ spread more others := by
  unfold spread
  rw [List.zipWith_append same.symm, List.flatten_append]

theorem Loaded.store {stored loaded : List Int64} {last : Nat} (holds : Loaded stored loaded last) (number : Int64) :
    Loaded (stored ++ [number]) loaded 0 := by
  obtain ⟨counts, same, few, -, rfl⟩ := holds
  refine ⟨counts ++ [0], ?_, ?_, ?_, ?_⟩
  · rw [List.length_append, List.length_append, same]
    rfl
  · intro count member
    rcases List.mem_append.mp member with before | new
    · exact few count before
    · rw [List.mem_singleton.mp new]
      exact Nat.zero_le 2
  · rw [List.getLastD_concat]
  · rw [spread_append same]
    exact (List.append_nil _).symm

theorem Loaded.load {stored loaded : List Int64} {number : Int64} {last : Nat} (holds : Loaded stored loaded last)
    (current : number ∈ stored.getLast?) (few : last < 2) : Loaded stored (loaded ++ [number]) (last + 1) := by
  obtain ⟨before, rfl⟩ := List.getLast?_eq_some_iff.mp current
  obtain ⟨counts, same, atMost, final, rfl⟩ := holds
  rcases List.eq_nil_or_concat' counts with rfl | ⟨others, count, rfl⟩
  · rw [List.length_append] at same
    cases same
  rw [List.getLastD_concat] at final
  subst final
  have lengths : others.length = before.length := by
    rw [List.length_append, List.length_append] at same
    exact Nat.add_right_cancel same
  refine ⟨others ++ [count + 1], ?_, ?_, ?_, ?_⟩
  · rw [List.length_append, List.length_append, lengths]
    rfl
  · intro other member
    rcases List.mem_append.mp member with before | new
    · exact atMost other (List.mem_append_left _ before)
    · rw [List.mem_singleton.mp new]
      exact few
  · rw [List.getLastD_concat]
  · rw [spread_append lengths, spread_append lengths, List.append_assoc]
    refine congrArg (spread before others ++ ·) ?_
    show [List.replicate count number].flatten ++ [number] = [List.replicate (count + 1) number].flatten
    rw [List.flatten_singleton, List.flatten_singleton, List.replicate_succ']

section

variable {terminateUsingSignal : Bool} {pids : Party → Int32} {s s' : State} {server client : Phase}

def Counted (s : State) (server client : Phase) : Prop :=
  ∃ last, Loaded (s.stored client) (s.loaded server) last ∧ last + ahead s.message.type server client ≤ 2

theorem Counted.less {server' client' : Phase} (counted : Counted s server client)
    (stored : s'.stored client' = s.stored client) (loaded : s'.loaded server' = s.loaded server)
    (less : ahead s'.message.type server' client' ≤ ahead s.message.type server client) :
    Counted s' server' client' := by
  obtain ⟨last, isLoaded, few⟩ := counted
  refine ⟨last, ?_, by omega⟩
  rw [stored, loaded]
  exact isLoaded

theorem loads_of_ne {type : MessageType} (noNumber : type ≠ .newNumber) (notSeen : server ≠ .seen) :
    server.loads type = 0 := by
  cases server with
  | seen => exact absurd rfl notSeen
  | opening => rfl
  | printing _ => rfl
  | clearing => rfl
  | _ => exact if_neg noNumber

theorem loads_le_loads {type : MessageType} (noNumber : type ≠ .newNumber) (other : MessageType) :
    server.loads type ≤ server.loads other := by
  by_cases isSeen : server = .seen
  · subst isSeen
    exact Nat.le_refl 1
  · rw [loads_of_ne noNumber isSeen]
    exact Nat.zero_le _

theorem loads_le (type : MessageType) (phase : Phase) : phase.loads type ≤ 1 := by
  cases phase with
  | seen => exact Nat.le_refl 1
  | opening => exact Nat.zero_le 1
  | printing _ => exact Nat.zero_le 1
  | clearing => exact Nat.zero_le 1
  | _ =>
    show (if type = .newNumber then 1 else 0) ≤ 1
    split_ifs <;> decide

theorem Counted.of_server {call : Call} {answer : call.Answer} (control : Control terminateUsingSignal s server client)
    (counted : Counted s server client) (allowed : server.allows terminateUsingSignal .server call)
    (performed : performParty pids .server call answer s = some s') :
    Counted s' (server.after terminateUsingSignal .server call answer) client := by
  cases call with
  | storeType type =>
    cases performed
    have noNumber : type ≠ .newNumber ∧ Phase.storedType terminateUsingSignal .server type server ≠ .seen ∧
        (s.setType type).loaded (Phase.storedType terminateUsingSignal .server type server) = s.loaded server := by
      cases server with
      | opening =>
        obtain ⟨-, rfl⟩ := allowed
        cases terminateUsingSignal <;> exact ⟨nofun, nofun, rfl⟩
      | exchanging => rcases allowed with rfl | ⟨-, rfl⟩ <;> exact ⟨nofun, nofun, rfl⟩
      | clearing =>
        obtain ⟨-, rfl⟩ := allowed
        exact ⟨nofun, nofun, rfl⟩
      | left => exact ⟨allowed.2.1, nofun, rfl⟩
      | sending => exact absurd allowed.1 nofun
      | _ => exact allowed.elim
    refine counted.less (stored_setType type) noNumber.2.2 (Nat.add_le_add_left ?_ _)
    show Phase.loads type _ ≤ _
    have none := loads_of_ne noNumber.1 noNumber.2.1
    exact none ▸ Nat.zero_le _
  | isRunning =>
    obtain ⟨rfl, ⟨⟩⟩ := Option.ite_none_right_eq_some.mp performed
    rcases allowed with rfl | rfl | ⟨confirmed, rfl⟩
    · exact counted
    · show Counted _ (if _ then Phase.announced else .top false) _
      split_ifs <;> exact counted
    · show Counted _ (if _ then Phase.round else .left) _
      split_ifs <;> exact counted
  | stopRunning =>
    cases performed
    obtain ⟨rfl, -⟩ := allowed
    exact counted.less (stored_stop .server) rfl (Nat.le_refl _)
  | loadType =>
    obtain ⟨rfl, ⟨⟩⟩ := Option.ite_none_right_eq_some.mp performed
    rcases allowed with rfl | rfl | rfl | rfl
    · exact counted
    · show Counted _ (if _ then Phase.top true else .announced) _
      split_ifs <;> exact counted
    · show Counted _ (if _ then Phase.seen else if _ then .round else .top true) _
      split_ifs with new
      · refine counted.less rfl rfl (Nat.add_le_add_left ?_ _)
        exact Nat.le_of_eq (if_pos new).symm
      · exact counted
      · exact counted
    · exact counted
  | loadRandNum =>
    obtain ⟨rfl, ⟨⟩⟩ := Option.ite_none_right_eq_some.mp performed
    rcases allowed with rfl | ⟨rfl, -⟩
    · exact counted
    · obtain ⟨last, isLoaded, few⟩ := counted
      have nonempty := control.seen rfl
      have current := control.current _ (List.getLast?_eq_some_getLast nonempty)
      have isLast : s.message.randNum ∈ (s.stored client).getLast? := by
        rw [current]
        exact List.getLast?_eq_some_getLast nonempty
      change last + (client.sends + 1) ≤ 2 at few
      exact ⟨last + 1, isLoaded.load isLast (by omega), show last + 1 + (client.sends + 0) ≤ 2 by omega⟩
  | storeRandNum randNum =>
    cases performed
    rcases allowed with rfl | ⟨-, ⟨⟩⟩
    exact counted.less (stored_setRandNum randNum) rfl (Nat.le_refl _)
  | getpid =>
    obtain ⟨-, ⟨⟩⟩ := Option.ite_none_right_eq_some.mp performed
    exact counted
  | kill pid =>
    obtain ⟨-, ⟨⟩⟩ := Option.ite_none_right_eq_some.mp performed
    exact counted.less (stored_signal _) (loaded_congr rfl) (Nat.le_refl _)
  | time =>
    cases performed
    exact counted
  | random => exact absurd allowed.2 nofun
  | printNumber randNum =>
    cases performed
    rcases allowed with ⟨rfl, -⟩ | ⟨-, ⟨⟩⟩
    exact counted.less (stored_print ..) (printed_print s .server randNum) (Nat.le_refl _)
  | sleepNanos =>
    cases performed
    show Counted _ server.slept _
    unfold Phase.slept
    split <;> exact counted
  | interrupt p => cases performed
  | goesOn => exact isEmptyElim answer

theorem Counted.of_client {call : Call} {answer : call.Answer} (control : Control terminateUsingSignal s server client)
    (counted : Counted s server client) (allowed : client.allows terminateUsingSignal .client call)
    (performed : performParty pids .client call answer s = some s') :
    Counted s' server (client.after terminateUsingSignal .client call answer) := by
  cases call with
  | storeType type =>
    cases performed
    cases client with
    | exchanging =>
      rcases allowed with rfl | ⟨⟨⟩, -⟩
      exact counted.less rfl (loaded_congr rfl) (Nat.add_le_add_left (@loads_le_loads server .clientSentProcessId (by decide) _) _)
    | sending =>
      obtain ⟨-, rfl⟩ := allowed
      refine counted.less rfl (loaded_congr rfl) ?_
      have one := loads_le .newNumber server
      show 0 + server.loads .newNumber ≤ 1 + server.loads s.message.type
      omega
    | left =>
      exact counted.less rfl (loaded_congr rfl) (Nat.add_le_add_left (loads_le_loads allowed.2.1 _) _)
    | opening => exact absurd allowed.1 nofun
    | clearing => exact absurd allowed.1 nofun
    | _ => exact allowed.elim
  | isRunning =>
    obtain ⟨same, ⟨⟩⟩ := Option.ite_none_right_eq_some.mp performed
    rcases allowed with rfl | rfl | ⟨confirmed, rfl⟩
    · exact counted
    · show Counted _ _ (if _ then Phase.announced else .top false)
      split_ifs <;> exact counted
    · show Counted _ _ (if _ then Phase.round else .left)
      split_ifs <;> exact counted
  | stopRunning => exact absurd allowed.2 nofun
  | loadType =>
    obtain ⟨rfl, ⟨⟩⟩ := Option.ite_none_right_eq_some.mp performed
    rcases allowed with rfl | rfl | rfl | rfl
    · exact counted
    · show Counted _ _ (if _ then Phase.top true else .announced)
      split_ifs <;> exact counted
    · show Counted _ _ (if _ then Phase.left else .round)
      split_ifs <;> exact counted
    · exact counted
  | loadRandNum =>
    obtain ⟨rfl, ⟨⟩⟩ := Option.ite_none_right_eq_some.mp performed
    rcases allowed with rfl | ⟨-, ⟨⟩⟩
    exact counted
  | storeRandNum randNum =>
    cases performed
    rcases allowed with rfl | ⟨rfl, -⟩
    · exact counted.less rfl (loaded_congr rfl) (Nat.le_refl _)
    · obtain ⟨last, isLoaded, few⟩ := counted
      obtain ⟨before, same⟩ := List.getLast?_eq_some_iff.mp (control.storing randNum rfl)
      have stored : s.drawn = s.stored (.storing randNum) ++ [randNum] := by
        show s.drawn = s.drawn.dropLast ++ [randNum]
        rw [same, List.dropLast_concat]
      have one := loads_le s.message.type server
      refine ⟨0, ?_, ?_⟩
      · show Loaded s.drawn _ 0
        rw [stored]
        exact isLoaded.store randNum
      · show 0 + (1 + server.loads s.message.type) ≤ 2
        omega
  | getpid =>
    obtain ⟨-, ⟨⟩⟩ := Option.ite_none_right_eq_some.mp performed
    exact counted
  | kill pid =>
    obtain ⟨-, ⟨⟩⟩ := Option.ite_none_right_eq_some.mp performed
    exact counted.less (stored_signal _) (loaded_congr rfl) (Nat.le_refl _)
  | time =>
    cases performed
    exact counted
  | random =>
    cases performed
    obtain ⟨rfl, -⟩ := allowed
    exact counted.less List.dropLast_concat (loaded_congr rfl) (Nat.le_refl _)
  | printNumber randNum =>
    cases performed
    rcases allowed with ⟨-, ⟨⟩⟩ | ⟨rfl, -⟩
    exact counted.less (stored_print ..) (loaded_congr (printed_print_client s randNum)) (Nat.le_refl _)
  | sleepNanos =>
    cases performed
    show Counted _ _ client.slept
    unfold Phase.slept
    split <;> exact counted
  | interrupt p => cases performed
  | goesOn => exact isEmptyElim answer

/-- The server has loaded all numbers but for the last one, and that one too where it is not still `ahead`. -/
structure InTime (s : State) (server client : Phase) : Prop where
  taking : server.Taking → client = .left ∨ s.message.type = .newNumber ∧ ¬ client.Drawing
  drawing : client.Drawing → s.message.type ≠ .newNumber
  rest : ∃ rest, s.stored client = s.loaded server ++ rest ∧ rest.length ≤ 1 ∧
    (0 < ahead s.message.type server client → rest.length = 1) ∧
    (client ≠ .left ∨ server.Taking → ahead s.message.type server client = 0 → rest = [])

theorem InTime.keep {server' client' : Phase} (inTime : InTime s server client)
    (stored : s'.stored client' = s.stored client) (loaded : s'.loaded server' = s.loaded server)
    (same : ahead s'.message.type server' client' = ahead s.message.type server client)
    (taking : server'.Taking → server.Taking ∧ (client' = .left ∨ s'.message.type = .newNumber ∧ ¬ client'.Drawing))
    (drawing : client'.Drawing → s'.message.type ≠ .newNumber) (left : client = .left → client' = .left) :
    InTime s' server' client' := by
  obtain ⟨rest, split, one, some, none⟩ := inTime.rest
  refine ⟨fun isTaking => (taking isTaking).2, drawing, rest, ?_, one, ?_, ?_⟩
  · rw [stored, loaded]
    exact split
  · rw [same]
    exact some
  · rw [same]
    exact fun goes => none (goes.imp (fun stays isLeft => stays (left isLeft)) fun isTaking => (taking isTaking).1)

theorem InTime.move {server' : Phase} (inTime : InTime s server client) (loaded : s.loaded server' = s.loaded server)
    (same : server'.loads s.message.type = server.loads s.message.type) (notTaking : ¬ server'.Taking) :
    InTime s server' client :=
  inTime.keep rfl loaded (congrArg (client.sends + ·) same) (fun isTaking => absurd isTaking notTaking) inTime.drawing id

theorem InTime.store {server' : Phase} {type : MessageType} (inTime : InTime s server client)
    (loaded : (s.setType type).loaded server' = s.loaded server) (noNumber : type ≠ .newNumber)
    (same : server.loads s.message.type = 0) (notTaking : ¬ server'.Taking) :
    InTime (s.setType type) server' client := by
  have none : server'.loads type = 0 := loads_of_ne noNumber fun isSeen => notTaking (isSeen ▸ True.intro)
  refine inTime.keep (stored_setType type) loaded (congrArg (client.sends + ·) (none.trans same.symm))
    (fun isTaking => absurd isTaking notTaking) (fun _ => noNumber) id

theorem InTime.sends_eq_zero (inTime : InTime s server client) (taking : server.Taking) : client.sends = 0 := by
  rcases inTime.taking taking with rfl | ⟨-, quiet⟩
  · rfl
  · cases client with
    | sending => exact absurd True.intro quiet
    | _ => rfl

theorem Control.exchanging_loads (control : Control terminateUsingSignal s .exchanging client) :
    Phase.loads s.message.type .exchanging = 0 := by
  refine loads_of_ne (fun new => ?_) nofun
  rcases control.announced new with ⟨⟨⟩⟩ | nonempty
  exact nonempty control.exchanging_stored

theorem InTime.storesType_of_server {type : MessageType} (inTime : InTime s server client)
    (control : Control true s server client) (allowed : server.allows true .server (.storeType type)) :
    InTime (s.setType type) (server.after true .server (.storeType type) ()) client := by
  cases server with
  | opening =>
    obtain ⟨-, rfl⟩ := allowed
    exact inTime.store rfl nofun rfl id
  | exchanging =>
    rcases allowed with rfl | ⟨-, rfl⟩
    · exact inTime.store rfl nofun control.exchanging_loads id
    · exact inTime.store rfl nofun control.exchanging_loads id
  | clearing =>
    obtain ⟨-, rfl⟩ := allowed
    exact inTime.store rfl nofun rfl id
  | left => exact absurd (allowed.1 rfl) nofun
  | sending => exact absurd allowed.1 nofun
  | _ => exact allowed.elim

theorem InTime.sees (inTime : InTime s .round client) (new : s.message.type = .newNumber) :
    InTime s .seen client := by
  obtain ⟨rest, split, one, some, none⟩ := inTime.rest
  have positive : 0 < ahead s.message.type .round client := by
    have loads : Phase.loads s.message.type .round = 1 := if_pos new
    unfold ahead
    omega
  refine ⟨fun _ => .inr ⟨new, fun draws => inTime.drawing draws new⟩, inTime.drawing, rest, split, one,
    fun _ => some positive, fun _ nothing => ?_⟩
  change client.sends + 1 = 0 at nothing
  omega

theorem InTime.loadType_of_server (inTime : InTime s server client) (allowed : server.allows true .server .loadType) :
    InTime s (server.after true .server .loadType s.message.type) client := by
  rcases allowed with rfl | rfl | rfl | rfl
  · exact inTime
  · show InTime _ (if _ then Phase.top true else .announced) _
    split_ifs
    · exact inTime.move rfl rfl id
    · exact inTime
  · show InTime _ (if _ then Phase.seen else if _ then .round else .top true) _
    split_ifs with new
    · exact inTime.sees new
    · exact inTime
    · exact inTime.move rfl rfl id
  · exact inTime

/-- The number that the server takes is the last one that was stored. -/
theorem InTime.takes (inTime : InTime s .seen client) (control : Control true s .seen client) :
    InTime s (Phase.seen.after true .server .loadRandNum s.message.randNum) client := by
  obtain ⟨rest, split, -, some, -⟩ := inTime.rest
  have one : rest.length = 1 := some (Nat.succ_pos _)
  obtain ⟨last, rfl⟩ := List.length_eq_one_iff.mp one
  have isLast : s.message.randNum = last := control.current last (by rw [split]; exact List.getLast?_concat)
  have quiet := inTime.sends_eq_zero True.intro
  refine ⟨fun _ => inTime.taking True.intro, inTime.drawing, [], ?_, Nat.zero_le 1, fun positive => ?_, fun _ _ => rfl⟩
  · rw [List.append_nil, split, ← isLast]
    rfl
  · change 0 < client.sends + 0 at positive
    omega

theorem InTime.of_server {call : Call} {answer : call.Answer} (control : Control true s server client)
    (inTime : InTime s server client) (allowed : server.allows true .server call)
    (performed : performParty pids .server call answer s = some s') :
    InTime s' (server.after true .server call answer) client := by
  cases call with
  | storeType type =>
    cases performed
    exact inTime.storesType_of_server control allowed
  | isRunning =>
    obtain ⟨rfl, ⟨⟩⟩ := Option.ite_none_right_eq_some.mp performed
    rcases allowed with rfl | rfl | ⟨confirmed, rfl⟩
    · exact inTime
    · show InTime _ (if _ then Phase.announced else .top false) _
      split_ifs
      · exact inTime
      · exact inTime.move rfl rfl id
    · show InTime _ (if _ then Phase.round else .left) _
      split_ifs <;> exact inTime.move rfl rfl id
  | stopRunning =>
    cases performed
    obtain ⟨rfl, -⟩ := allowed
    exact inTime.keep (stored_stop .server) rfl rfl False.elim inTime.drawing id
  | loadType =>
    obtain ⟨rfl, ⟨⟩⟩ := Option.ite_none_right_eq_some.mp performed
    exact inTime.loadType_of_server allowed
  | loadRandNum =>
    obtain ⟨rfl, ⟨⟩⟩ := Option.ite_none_right_eq_some.mp performed
    rcases allowed with rfl | ⟨rfl, -⟩
    · exact inTime
    · exact inTime.takes control
  | storeRandNum randNum =>
    cases performed
    rcases allowed with rfl | ⟨-, ⟨⟩⟩
    exact inTime.keep (stored_setRandNum randNum) rfl rfl False.elim inTime.drawing id
  | getpid =>
    obtain ⟨-, ⟨⟩⟩ := Option.ite_none_right_eq_some.mp performed
    exact inTime
  | kill pid =>
    obtain ⟨-, ⟨⟩⟩ := Option.ite_none_right_eq_some.mp performed
    exact inTime.keep (stored_signal _) (loaded_congr rfl) rfl (fun taking => ⟨taking, inTime.taking taking⟩)
      inTime.drawing id
  | time =>
    cases performed
    exact inTime
  | random => exact absurd allowed.2 nofun
  | printNumber randNum =>
    cases performed
    rcases allowed with ⟨rfl, -⟩ | ⟨-, ⟨⟩⟩
    exact inTime.keep (stored_print ..) (printed_print s .server randNum) rfl
      (fun _ => ⟨True.intro, inTime.taking True.intro⟩) inTime.drawing id
  | sleepNanos =>
    cases performed
    show InTime _ server.slept _
    unfold Phase.slept
    split
    · exact inTime.move rfl rfl id
    · exact inTime
  | interrupt p => cases performed
  | goesOn => exact isEmptyElim answer

theorem InTime.moveClient {client' : Phase} (inTime : InTime s server client)
    (stored : s.stored client' = s.stored client) (same : client'.sends = client.sends) (quiet : ¬ client'.Drawing)
    (left : client = .left → client' = .left) : InTime s server client' := by
  refine inTime.keep stored rfl (congrArg (· + server.loads s.message.type) same) (fun taking => ⟨taking, ?_⟩)
    (fun draws => absurd draws quiet) left
  exact (inTime.taking taking).imp left fun new => ⟨new.1, quiet⟩

theorem InTime.not_taking (inTime : InTime s server client) (draws : client.Drawing) (notLeft : client ≠ .left) :
    ¬ server.Taking := by
  intro taking
  rcases inTime.taking taking with isLeft | ⟨-, quiet⟩
  · exact notLeft isLeft
  · exact quiet draws

theorem InTime.loads_eq_zero (inTime : InTime s server client) (draws : client.Drawing) (notLeft : client ≠ .left) :
    server.loads s.message.type = 0 :=
  loads_of_ne (inTime.drawing draws) fun isSeen => inTime.not_taking draws notLeft (isSeen ▸ True.intro)

theorem InTime.storesType_exchanging (inTime : InTime s server .exchanging)
    (control : Control true s server .exchanging) : InTime (s.setType .clientSentProcessId) server
      (Phase.exchanging.after true .client (.storeType .clientSentProcessId) ()) := by
  have none : s.stored .exchanging = [] := control.early True.intro
  have notNew : s.message.type ≠ .newNumber ∨ server = .opening := by
    by_contra both
    rw [not_or, not_not] at both
    rcases control.announced both.1 with isOpening | nonempty
    · exact both.2 isOpening
    · exact nonempty none
  have notTaking : ¬ server.Taking := by
    intro taking
    rcases inTime.taking taking with ⟨⟨⟩⟩ | ⟨new, -⟩
    rcases notNew with other | rfl
    · exact other new
    · exact taking
  have notSeen : server ≠ .seen := fun isSeen => notTaking (isSeen ▸ True.intro)
  have loads : server.loads s.message.type = 0 := by
    rcases notNew with other | rfl
    · exact loads_of_ne other notSeen
    · rfl
  refine inTime.keep rfl (loaded_congr rfl) ?_ (fun taking => absurd taking notTaking) False.elim nofun
  show 0 + server.loads .clientSentProcessId = 0 + server.loads s.message.type
  rw [loads, @loads_of_ne server .clientSentProcessId (by decide) notSeen]

theorem InTime.storesType_sending (inTime : InTime s server .sending) (control : Control true s server .sending) :
    InTime (s.setType .newNumber) server (Phase.sending.after true .client (.storeType .newNumber) ()) := by
  have notTaking := inTime.not_taking True.intro nofun
  have past : server.Past := (control.confirmed True.intro).resolve_right nofun
  refine inTime.keep rfl (loaded_congr rfl) ?_ (fun taking => absurd taking notTaking) False.elim nofun
  show 0 + server.loads .newNumber = 1 + server.loads s.message.type
  rw [inTime.loads_eq_zero True.intro nofun]
  cases server with
  | opening => exact absurd rfl past.1
  | seen => exact absurd True.intro notTaking
  | printing _ => exact absurd True.intro notTaking
  | clearing => exact absurd True.intro notTaking
  | _ => rfl

theorem InTime.storesType_left {type : MessageType} (inTime : InTime s server .left) (noNumber : type ≠ .newNumber) :
    InTime (s.setType type) server .left := by
  obtain ⟨rest, split, one, some, none⟩ := inTime.rest
  refine ⟨fun _ => .inl rfl, False.elim, rest, split, one, fun positive => some ?_, ?_⟩
  · exact Nat.lt_of_lt_of_le positive (Nat.add_le_add_left (loads_le_loads noNumber _) _)
  · rintro (notLeft | taking) nothing
    · exact absurd rfl notLeft
    · refine none (.inr taking) ?_
      change 0 + server.loads type = 0 at nothing
      show 0 + server.loads s.message.type = 0
      cases server with
      | seen => exact nothing
      | printing _ => rfl
      | clearing => rfl
      | _ => exact taking.elim

theorem InTime.isRunning_of_client {answer : Bool} (inTime : InTime s server client)
    (allowed : client.allows true .client .isRunning) :
    InTime s server (client.after true .client .isRunning answer) := by
  rcases allowed with rfl | rfl | ⟨confirmed, rfl⟩
  · exact inTime
  · show InTime _ _ (if _ then Phase.announced else .top false)
    split_ifs
    · exact inTime
    · exact inTime.moveClient rfl rfl id nofun
  · show InTime _ _ (if _ then Phase.round else .left)
    split_ifs <;> exact inTime.moveClient rfl rfl id nofun

theorem InTime.loadType_of_client (inTime : InTime s server client) (allowed : client.allows true .client .loadType) :
    InTime s server (client.after true .client .loadType s.message.type) := by
  rcases allowed with rfl | rfl | rfl | rfl
  · exact inTime
  · show InTime _ _ (if _ then Phase.top true else .announced)
    split_ifs
    · exact inTime.moveClient rfl rfl id nofun
    · exact inTime
  · show InTime _ _ (if _ then Phase.left else .round)
    split_ifs
    · exact inTime.moveClient rfl rfl id nofun
    · exact inTime
  · exact inTime

theorem InTime.storesNumber_of_client {randNum : Int64} (inTime : InTime s server client)
    (control : Control true s server client) (allowed : client.allows true .client (.storeRandNum randNum)) :
    InTime (s.setRandNum randNum) server (client.after true .client (.storeRandNum randNum) ()) := by
  rcases allowed with rfl | ⟨rfl, -⟩
  · exact inTime.keep rfl (loaded_congr rfl) rfl (fun taking => ⟨taking, inTime.taking taking⟩) inTime.drawing id
  · obtain ⟨before, same⟩ := List.getLast?_eq_some_iff.mp (control.storing randNum rfl)
    have notTaking := inTime.not_taking True.intro nofun
    have loads := inTime.loads_eq_zero True.intro nofun
    obtain ⟨rest, split, -, -, none⟩ := inTime.rest
    obtain rfl : rest = [] := none (.inl nofun) (show 0 + _ = 0 by rw [loads])
    change s.drawn.dropLast = _ at split
    refine ⟨fun taking => absurd taking notTaking, fun _ => inTime.drawing True.intro, [randNum], ?_, Nat.le_refl 1,
      fun _ => rfl, fun _ nothing => ?_⟩
    · rw [List.append_nil, same, List.dropLast_concat] at split
      show s.drawn = s.loaded server ++ [randNum]
      rw [same, split]
    · change 1 + _ = 0 at nothing
      omega

theorem InTime.draws {answer : Int64} (inTime : InTime s server .round) (notNew : s.message.type ≠ .newNumber) :
    InTime (s.draw answer) server (.storing answer) := by
  have notTaking : ¬ server.Taking := fun taking => by
    rcases inTime.taking taking with ⟨⟨⟩⟩ | ⟨new, -⟩
    exact notNew new
  exact inTime.keep List.dropLast_concat (loaded_congr rfl) rfl (fun taking => absurd taking notTaking)
    (fun _ => notNew) nofun

theorem InTime.of_client {call : Call} {answer : call.Answer} (control : Control true s server client)
    (inTime : InTime s server client) (timely : call.draws → s.message.type ≠ .newNumber)
    (allowed : client.allows true .client call) (performed : performParty pids .client call answer s = some s') :
    InTime s' server (client.after true .client call answer) := by
  cases call with
  | storeType type =>
    cases performed
    cases client with
    | exchanging =>
      rcases allowed with rfl | ⟨⟨⟩, -⟩
      exact inTime.storesType_exchanging control
    | sending =>
      obtain ⟨-, rfl⟩ := allowed
      exact inTime.storesType_sending control
    | left => exact inTime.storesType_left allowed.2.1
    | opening => exact absurd allowed.1 nofun
    | clearing => exact absurd allowed.1 nofun
    | _ => exact allowed.elim
  | isRunning =>
    obtain ⟨-, ⟨⟩⟩ := Option.ite_none_right_eq_some.mp performed
    exact inTime.isRunning_of_client allowed
  | stopRunning => exact absurd allowed.2 nofun
  | loadType =>
    obtain ⟨rfl, ⟨⟩⟩ := Option.ite_none_right_eq_some.mp performed
    exact inTime.loadType_of_client allowed
  | loadRandNum =>
    obtain ⟨rfl, ⟨⟩⟩ := Option.ite_none_right_eq_some.mp performed
    rcases allowed with rfl | ⟨-, ⟨⟩⟩
    exact inTime
  | storeRandNum randNum =>
    cases performed
    exact inTime.storesNumber_of_client control allowed
  | getpid =>
    obtain ⟨-, ⟨⟩⟩ := Option.ite_none_right_eq_some.mp performed
    exact inTime
  | kill pid =>
    obtain ⟨-, ⟨⟩⟩ := Option.ite_none_right_eq_some.mp performed
    exact inTime.keep (stored_signal _) (loaded_congr rfl) rfl (fun taking => ⟨taking, inTime.taking taking⟩)
      inTime.drawing id
  | time =>
    cases performed
    exact inTime
  | random =>
    cases performed
    obtain ⟨rfl, -⟩ := allowed
    exact inTime.draws (timely rfl)
  | printNumber randNum =>
    cases performed
    rcases allowed with ⟨-, ⟨⟩⟩ | ⟨rfl, -⟩
    exact inTime.keep (stored_print ..) (loaded_congr (printed_print_client s randNum)) rfl
      (fun taking => ⟨taking, inTime.taking taking⟩) inTime.drawing id
  | sleepNanos =>
    cases performed
    show InTime _ _ client.slept
    unfold Phase.slept
    split
    · exact inTime.moveClient rfl rfl id nofun
    · exact inTime
  | interrupt p => cases performed
  | goesOn => exact isEmptyElim answer

end

/-- What the phases say about the state, in timely runs if `timely`. -/
structure Agrees (terminateUsingSignal : Bool) (timely : Prop) (s : State) (ms : Agent → Phase) : Prop where
  control : Control terminateUsingSignal s (ms (.party .server)) (ms (.party .client))
  counted : Counted s (ms (.party .server)) (ms (.party .client))
  inTime : timely → terminateUsingSignal = true ∧ InTime s (ms (.party .server)) (ms (.party .client))

section

variable {terminateUsingSignal : Bool} {pids : Party → Int32} {s s' : State} {ms : Agent → Phase} {timely : Prop}

theorem Agrees.stop (agrees : Agrees terminateUsingSignal timely s ms) (p : Party) :
    Agrees terminateUsingSignal timely (s.stop p) ms where
  control := agrees.control.congr rfl rfl (stop_isRunning_of_stopped · p)
  counted := agrees.counted.less (stored_stop p) (loaded_congr rfl) (Nat.le_refl _)
  inTime strictly := by
    obtain ⟨signals, inTime⟩ := agrees.inTime strictly
    exact ⟨signals, inTime.keep (stored_stop p) (loaded_congr rfl) rfl
      (fun taking => ⟨taking, inTime.taking taking⟩) inTime.drawing id⟩

theorem Agrees.perform {agent : Agent} {call : Call} {answer : call.Answer}
    (agrees : Agrees terminateUsingSignal timely s ms)
    (inTime : timely → call.draws → s.message.type ≠ .newNumber)
    (allowed : (agentPhases terminateUsingSignal agent).allowed (ms agent) call)
    (performed : perform pids agent call answer s = some s') :
    Agrees terminateUsingSignal timely s'
      (Function.update ms agent ((agentPhases terminateUsingSignal agent).after (ms agent) call answer)) := by
  have other : Agent.party .client ≠ .party .server := by decide
  rcases agent with (_ | _) | _
  · refine ⟨?_, ?_, ?_⟩
    · rw [Function.update_self, Function.update_of_ne other]
      exact agrees.control.of_server allowed performed
    · rw [Function.update_self, Function.update_of_ne other]
      exact agrees.counted.of_server agrees.control allowed performed
    · intro strictly
      obtain ⟨rfl, before⟩ := agrees.inTime strictly
      rw [Function.update_self, Function.update_of_ne other]
      exact ⟨rfl, before.of_server agrees.control allowed performed⟩
  · refine ⟨?_, ?_, ?_⟩
    · rw [Function.update_self, Function.update_of_ne other.symm]
      exact agrees.control.of_client allowed performed
    · rw [Function.update_self, Function.update_of_ne other.symm]
      exact agrees.counted.of_client agrees.control allowed performed
    · intro strictly
      obtain ⟨rfl, before⟩ := agrees.inTime strictly
      rw [Function.update_self, Function.update_of_ne other.symm]
      exact ⟨rfl, before.of_client agrees.control (inTime strictly) allowed performed⟩
  · obtain ⟨p, rfl⟩ := allowed
    cases performed
    show Agrees _ _ _ (Function.update ms .user (ms .user))
    rw [Function.update_eq_self]
    exact agrees.stop p

theorem agrees_start (rounds : Nat) (interrupts : List Party) (message : Message) (signals : timely → terminateUsingSignal = true) :
    Agrees terminateUsingSignal timely (processes terminateUsingSignal rounds interrupts message).state
      (Phase.start terminateUsingSignal) := by
  have nothing : ahead message.type .opening (Phase.start terminateUsingSignal (.party .client)) = 0 := by
    cases terminateUsingSignal <;> rfl
  have none : (processes terminateUsingSignal rounds interrupts message).state.stored
      (Phase.start terminateUsingSignal (.party .client)) = [] := by cases terminateUsingSignal <;> rfl
  refine ⟨?_, ⟨0, ?_, ?_⟩, fun strictly => ⟨signals strictly, ?_⟩⟩
  · cases terminateUsingSignal with
    | true =>
      exact ⟨nofun, nofun, nofun, False.elim, (absurd rfl ·), fun _ => rfl, nofun, nofun, fun _ => .inl rfl, nofun, nofun⟩
    | false =>
      exact ⟨nofun, nofun, nofun, fun _ => .inr ⟨rfl, rfl⟩, (absurd rfl ·), False.elim, nofun, nofun, fun _ => .inl rfl,
        nofun, nofun⟩
  · rw [none]
    exact loaded_nil
  · show 0 + ahead message.type .opening _ ≤ 2
    rw [nothing]
    decide
  · obtain rfl := signals strictly
    exact ⟨False.elim, False.elim, [], rfl, Nat.zero_le 1, fun positive => absurd positive (Nat.lt_irrefl 0), fun _ _ => rfl⟩

theorem exists_agrees (timely : Prop) {ok : Processes → Action Agent Call Call.Answer → Prop} {rounds : Nat} {interrupts : List Party}
    {message : Message} {pool : Processes} (signals : timely → terminateUsingSignal = true)
    (inTime : timely → ∀ pool action, ok pool action → Timely pool action)
    (reach : Pool.Reach (exchange pids) ok (processes terminateUsingSignal rounds interrupts message) pool) :
    ∃ ms, Agrees terminateUsingSignal timely pool.state ms := by
  have start : (processes terminateUsingSignal rounds interrupts message).Disciplined (agentPhases terminateUsingSignal)
      (Phase.start terminateUsingSignal) (fun _ _ => True) (Agrees terminateUsingSignal timely) :=
    ⟨fun _ => True.intro, agentProgram_phases interrupts, agrees_start rounds interrupts message signals⟩
  have disciplined := reach.disciplined (fun pool agent call answer s' agrees allowed obeys performed => ⟨by
      rcases agent with (_ | _) | _ <;> exact True.intro,
    agrees.perform (fun strictly draws => inTime strictly pool _ allowed draws) obeys performed⟩)
    (fun _ _ _ _ _ _ cut => by cases cut) start
  exact ⟨_, disciplined.agrees⟩

end

theorem spread_unload {numbers loaded : List Int64} {counts : List Nat} {number : Int64}
    (same : counts.length = numbers.length) (few : ∀ count ∈ counts, count ≤ 2)
    (isLoaded : loaded ++ [number] = spread numbers counts) :
    ∃ counts : List Nat, counts.length = numbers.length ∧ (∀ count ∈ counts, count ≤ 2) ∧
      loaded = spread numbers counts := by
  induction counts using List.reverseRec generalizing numbers with
  | nil =>
    rw [List.length_eq_zero_iff.mp same.symm] at isLoaded
    cases List.append_ne_nil_of_right_ne_nil loaded (List.cons_ne_nil number []) isLoaded
  | append_singleton counts count ih =>
    rcases List.eq_nil_or_concat' numbers with rfl | ⟨before, last, rfl⟩
    · rw [List.length_append] at same
      cases same
    have lengths : counts.length = before.length := by
      rw [List.length_append, List.length_append] at same
      exact Nat.add_right_cancel same
    have fewer : ∀ other ∈ counts, other ≤ 2 := fun other member => few other (List.mem_append_left _ member)
    rw [spread_append lengths] at isLoaded
    have one : ∀ n, spread [last] [n] = List.replicate n last := fun n => List.flatten_singleton
    rw [one] at isLoaded
    cases count with
    | zero =>
      rw [List.replicate_zero, List.append_nil] at isLoaded
      obtain ⟨others, sameLength, atMost, rfl⟩ := ih lengths fewer isLoaded
      refine ⟨others ++ [0], ?_, ?_, ?_⟩
      · rw [List.length_append, List.length_append, sameLength]
        rfl
      · intro other member
        rcases List.mem_append.mp member with old | new
        · exact atMost other old
        · rw [List.mem_singleton.mp new]
          exact Nat.zero_le 2
      · rw [spread_append sameLength, one, List.replicate_zero, List.append_nil]
    | succ count =>
      rw [List.replicate_succ', ← List.append_assoc] at isLoaded
      refine ⟨counts ++ [count], ?_, ?_, ?_⟩
      · rw [List.length_append, List.length_append, lengths]
        rfl
      · intro other member
        rcases List.mem_append.mp member with old | new
        · exact fewer other old
        · have bound := few (count + 1) (List.mem_append_right _ (List.mem_singleton.mpr rfl))
          rw [List.mem_singleton.mp new]
          exact Nat.le_of_succ_le bound
      · rw [spread_append lengths, one]
        exact List.append_inj_left' isLoaded rfl

/-- In any order of the accesses to the message, and wherever the processes are interrupted, the server
    prints the numbers that the client drew in their order, each at most twice. -/
theorem printed_at_most_twice (pids : Party → Int32) (terminateUsingSignal : Bool) (rounds : Nat)
    (interrupts : List Party) (message : Message) (pool : Processes)
    (reach : Pool.Reach (exchange pids) (fun _ _ => True) (processes terminateUsingSignal rounds interrupts message) pool) :
    ∃ counts : List Nat, counts.length = pool.state.drawn.length ∧ (∀ count ∈ counts, count ≤ 2) ∧
      pool.state.printed .server = spread pool.state.drawn counts := by
  obtain ⟨ms, agrees⟩ := exists_agrees False False.elim False.elim reach
  obtain ⟨last, isLoaded, -⟩ := agrees.counted
  have drawn : ∃ last, Loaded pool.state.drawn (pool.state.loaded (ms (.party .server))) last := by
    cases client : ms (.party .client) with
    | storing randNum =>
      rw [client] at isLoaded
      obtain ⟨before, same⟩ := List.getLast?_eq_some_iff.mp (agrees.control.storing randNum client)
      have again := isLoaded.store randNum
      change Loaded (pool.state.drawn.dropLast ++ [randNum]) _ 0 at again
      rw [same, List.dropLast_concat, ← same] at again
      exact ⟨0, again⟩
    | _ =>
      rw [client] at isLoaded
      exact ⟨last, isLoaded⟩
  obtain ⟨-, counts, same, few, -, loaded⟩ := drawn
  cases server : ms (.party .server) with
  | printing randNum =>
    rw [server] at loaded
    exact spread_unload same few loaded
  | _ =>
    rw [server] at loaded
    exact ⟨counts, same, few, loaded⟩

def oneNumber : List (Pool.Turn Agent Call Call.Answer State) :=
  [.go (.party .server) 4 (State.answer somePids .server 10), .go (.party .client) 6 (State.answer somePids .client 10),
    .go (.party .server) 4 (State.answer somePids .server 10), .go (.party .client) 8 (State.answer somePids .client 10),
    .go (.party .server) 4 (State.answer somePids .server 10)]

theorem one_number_printed : ∃ pool, Pool.Reach (exchange somePids) (fun _ _ => True)
      (processes true 3 [] freshMessage) pool ∧ pool.state.printed .server = [42] ∧
    ∃ counts : List Nat, counts.length = pool.state.drawn.length ∧ (∀ count ∈ counts, count ≤ 2) ∧
      pool.state.printed .server = spread pool.state.drawn counts := by
  have replayed : ((processes true 3 [] freshMessage).replay (exchange somePids) (fun _ _ => true) oneNumber).any
      (fun pool => pool.state.printed .server == [42]) = true := by decide +kernel
  obtain ⟨pool, reach, checked⟩ := Pool.exists_reach_of_replay (fun _ _ _ => True.intro) replayed
  exact ⟨pool, reach, eq_of_beq checked, printed_at_most_twice somePids true 3 [] freshMessage pool reach⟩

/-- In runs in which the server takes each number before the next one is drawn, it prints all of them,
    once and in order, but for at most the last one. -/
theorem printed_of_timely (pids : Party → Int32) (rounds : Nat) (interrupts : List Party) (message : Message)
    (pool : Processes) (reach : Pool.Reach (exchange pids) Timely (processes true rounds interrupts message) pool) :
    ∃ rest, pool.state.drawn = pool.state.printed .server ++ rest ∧ rest.length ≤ 1 := by
  obtain ⟨ms, agrees⟩ := exists_agrees True (fun _ => rfl) (fun _ _ _ inTime => inTime) reach
  obtain ⟨-, inTime⟩ := agrees.inTime True.intro
  obtain ⟨rest, split, one, -, none⟩ := inTime.rest
  cases client : ms (.party .client) with
  | storing randNum =>
    rw [client] at split inTime none
    have notTaking := inTime.not_taking True.intro nofun
    obtain rfl : rest = [] := none (.inl nofun) (show 0 + _ = 0 by rw [inTime.loads_eq_zero True.intro nofun])
    obtain ⟨before, same⟩ := List.getLast?_eq_some_iff.mp (agrees.control.storing randNum client)
    refine ⟨[randNum], ?_, Nat.le_refl 1⟩
    have loaded : pool.state.loaded (ms (.party .server)) = pool.state.printed .server := by
      cases server : ms (.party .server) with
      | printing number =>
        rw [server] at notTaking
        exact absurd True.intro notTaking
      | _ => rfl
    change pool.state.drawn.dropLast = _ at split
    rw [same, List.dropLast_concat, List.append_nil, loaded] at split
    rw [same, split]
  | _ =>
    rw [client] at split
    cases server : ms (.party .server) with
    | printing number =>
      rw [server] at split inTime none
      have quiet : ahead pool.state.message.type (.printing number) (ms (.party .client)) = 0 :=
        inTime.sends_eq_zero True.intro
      obtain rfl : rest = [] := none (.inr True.intro) quiet
      rw [List.append_nil] at split
      exact ⟨[number], split, Nat.le_refl 1⟩
    | _ =>
      rw [server] at split
      exact ⟨rest, split, one⟩

instance (pool : Processes) (action : Action Agent Call Call.Answer) : Decidable (Timely pool action) :=
  match action with
  | .call _ event => inferInstanceAs (Decidable (event.1.draws → pool.state.message.type ≠ .newNumber))
  | .cut _ _ => isTrue True.intro

theorem number_printed_in_time : ∃ pool, Pool.Reach (exchange somePids) Timely
      (processes true 3 [] freshMessage) pool ∧ pool.state.printed .server = [42] ∧
    ∃ rest, pool.state.drawn = pool.state.printed .server ++ rest ∧ rest.length ≤ 1 := by
  have replayed : ((processes true 3 [] freshMessage).replay (exchange somePids)
      (fun pool action => decide (Timely pool action)) oneNumber).any (fun pool => pool.state.printed .server == [42]) =
      true := by decide +kernel
  obtain ⟨pool, reach, checked⟩ := Pool.exists_reach_of_replay (fun _ _ => of_decide_eq_true) replayed
  exact ⟨pool, reach, eq_of_beq checked, printed_of_timely somePids 3 [] freshMessage pool reach⟩

end ArchCompSystems.OsHw6
