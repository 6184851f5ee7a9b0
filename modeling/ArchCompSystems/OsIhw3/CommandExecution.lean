import Mathlib.Data.List.Range
import ArchCompSystems.OsIhw3.Environment
import ArchCompSystems.OsIhw3.Registry

namespace ArchCompSystems.OsIhw3

open Library Library.Program Library.Machine

def Named (s : ServerState) (cmd : ServerCommand) (slot : ClientType × Nat) : Bool :=
  decide ((s.groups slot.1).fds slot.2 ≠ -1) &&
    ((s.groups slot.1).info slot.2).hasAddress cmd.ipAddress (Nat.toDigits 10 cmd.port)

/-- The order in which `execute_command` searches the arrays. -/
def searchOrder : List ClientType :=
  [.firstStageWorkerClient, .secondStageWorkerClient, .thirdStageWorkerClient, .logsCollectorClient, .managerClient]

def slotsOf (c : ClientType) : List (ClientType × Nat) := (List.range (maxNumberOf c)).map (c, ·)

def firstNamed (s : ServerState) (cmd : ServerCommand) : Option (ClientType × Nat) :=
  (searchOrder.flatMap slotsOf).find? (Named s cmd)

def warnedIn (history : List ServerEvent) : List Int :=
  history.filterMap fun event => match event.1 with
    | .send fd .shutdownMessage => some fd
    | _ => none

@[simp] theorem warnedIn_append (history later : List ServerEvent) :
    warnedIn (history ++ later) = warnedIn history ++ warnedIn later := List.filterMap_append ..

/-- The client of the slot has got the shutdown message, its connection is closed once and its slot is
    free; nothing else of the registry is changed. -/
structure ShutsOne (s : ServerState) (slot : ClientType × Nat) (history : List ServerEvent) (s' : ServerState) :
    Prop where
  groups : s'.groups = (s.setFd slot.1 slot.2 (-1)).groups
  warned : warnedIn history = [(s.groups slot.1).fds slot.2]
  closed : closedIn history = [(s.groups slot.1).fds slot.2]

structure Untouched (s : ServerState) (history : List ServerEvent) (s' : ServerState) : Prop where
  groups : s'.groups = s.groups
  warned : warnedIn history = []
  closed : closedIn history = []

/-- What `execute_command` must do. -/
structure Executes (s : ServerState) (cmd : ServerCommand) (history : List ServerEvent)
    (result : ServerCommandResult) (s' : ServerState) : Prop where
  success : result = .serverCommandSuccess ↔ ∃ c i, i < maxNumberOf c ∧ Named s cmd (c, i) = true
  shuts : ∀ slot, firstNamed s cmd = some slot → ShutsOne s slot history s'
  otherwise : result ≠ .serverCommandSuccess → result = .invalidServerCommandArgs ∧ Untouched s history s'

def Call.LeavesSlots : Call → Prop
  | .storeFd _ _ _ | .storeArrSize _ _ | .storeAddr _ _ _ | .storeInfo _ _ _ | .close _ => False
  | .send _ payload => payload ≠ .shutdownMessage
  | _ => True

section

variable {t : ThreadId} {s s' : ServerState} {c : ClientType}

theorem groups_afterError (s : ServerState) (t : ThreadId) (error : Option Errno) :
    (s.afterError t error).groups = s.groups := by
  cases error <;> rfl

theorem Untouched.append {middle : ServerState} {history later : List ServerEvent}
    (first : Untouched s history middle) (second : Untouched middle later s') :
    Untouched s (history ++ later) s' where
  groups := second.groups.trans first.groups
  warned := by rw [warnedIn_append, first.warned, second.warned, List.append_nil]
  closed := by rw [closedIn_append, first.closed, second.closed, List.append_nil]

def untouchedAccount : Account ServerState ServerEvent where
  holds := Untouched
  nil _ := ⟨rfl, rfl, rfl⟩
  append := Untouched.append

theorem untouched_of_perform {call : Call} {answer : call.Answer} (leaves : call.LeavesSlots)
    (performed : machine.perform t call answer s = some s') : Untouched s [⟨call, answer⟩] s' := by
  have groups : s'.groups = s.groups := by
    cases call with
    | storeFd | storeArrSize | storeAddr | storeInfo | close => exact leaves.elim
    | accept =>
      cases answer with
      | failed error =>
        cases performed
        rfl
      | connected fd addr addrlen =>
        obtain ⟨-, accepted⟩ := Option.ite_none_right_eq_some.mp performed
        cases accepted
        rfl
    | _ =>
      simp only [machine, perform, Option.ite_none_right_eq_some, Option.some.injEq] at performed
      first
        | exact answer.elim
        | (subst performed; first | rfl | exact groups_afterError _ _ _)
        | (obtain ⟨-, rfl⟩ := performed; first | rfl | exact groups_afterError _ _ _)
        | (split at performed
           · cases performed
             rfl
           · first | (cases performed; rfl) | (split at performed <;> cases performed; rfl))
  refine ⟨groups, ?_, ?_⟩
  · cases call with
    | send fd payload => cases payload <;> first | rfl | exact absurd rfl leaves
    | _ => rfl
  · cases call <;> first | rfl | exact leaves.elim

theorem wp_untouched {α : Type} {p : ServerProgram α} (leaves : p.Calls Call.LeavesSlots) (s : ServerState) :
    machine.wp t p (fun history _ s' => Untouched s history s') s :=
  @wp_of_calls _ _ _ _ _ machine t untouchedAccount Call.LeavesSlots p
    (fun _ _ _ _ leaves performed => untouched_of_perform leaves performed) leaves s

theorem handleSocketOpError_leavesSlots (cause : String) :
    (handleSocketOpError cause).Calls Call.LeavesSlots := by
  unfold handleSocketOpError
  refine calls_bind (calls_make True.intro) fun error => ?_
  dsimp only
  split
  · exact calls_bind (calls_make True.intro) fun _ => True.intro
  · exact True.intro

theorem wp_sendShutdownSignalToOneImpl {fd : Int} {info : Option ClientMetaInfo} :
    machine.wp t (sendShutdownSignalToOneImpl fd info) (fun history _ s' =>
      s'.groups = s.groups ∧ warnedIn history = [fd] ∧ closedIn history = []) s := by
  unfold sendShutdownSignalToOneImpl
  refine wp_bind.mpr fun answer s₁ performed => ?_
  obtain ⟨-, rfl⟩ := Option.ite_none_right_eq_some.mp performed |>.imp id (Option.some.inj ·)
  refine wp_done.mpr (wp_mono ?_ (@wp_untouched t _ _ ?_ _))
  · rintro history _ s' untouched
    refine ⟨untouched.groups.trans (groups_afterError _ _ _), ?_, ?_⟩
    · rw [warnedIn_append, untouched.warned]
      rfl
    · rw [closedIn_append, untouched.closed]
      rfl
  · repeat' first
      | exact True.intro
      | exact calls_make True.intro
      | exact handleSocketOpError_leavesSlots _
      | refine calls_bind ?_ fun _ => ?_
      | split

def Searched (s : ServerState) (history : List ServerEvent) (found : Option (ClientType × Nat)) (s' : ServerState) :
    Prop :=
  match found with
  | some slot => ShutsOne s slot history s'
  | none => Untouched s history s'

theorem wp_shutdownIfFound {cmd : ServerCommand} {i : Nat} :
    machine.wp t (shutdownIfFound c cmd.ipAddress (Nat.toDigits 10 cmd.port) i) (fun history flow s' => match flow with
      | .next () => Named s cmd (c, i) = false ∧ Untouched s history s'
      | .exit () => Named s cmd (c, i) = true ∧ ShutsOne s (c, i) history s') s := by
  unfold shutdownIfFound
  refine wp_bind.mpr (wp_loadFd.mpr ?_)
  split
  · rename_i free
    exact ⟨by simp [Named, free], rfl, rfl, rfl⟩
  · rename_i taken
    refine wp_bind.mpr (wp_loadInfo.mpr ?_)
    split
    · rename_i address
      refine wp_bind.mpr (wp_loadFd.mpr (wp_bind.mpr (wp_mono ?_ wp_sendShutdownSignalToOneImpl)))
      rintro history _ s₁ ⟨groups, warned, closed⟩
      refine wp_bind.mpr (wp_loadFd.mpr (wp_bind.mpr (wp_close.mpr fun answer => wp_bind.mpr (wp_storeFd.mpr ?_))))
      have same : (s₁.groups c).fds i = (s.groups c).fds i := by rw [groups]
      refine ⟨by simp [Named, taken, address], ?_, ?_, ?_⟩
      · simp only [ServerState.setFd, ServerState.setGroup, groups_afterError, groups]
      · simp only [warnedIn_append, warned]
        rfl
      · simp only [closedIn_append, closed]
        exact congrArg (fun fd => [fd]) same
    · rename_i address
      exact ⟨by simp [Named, address], rfl, rfl, rfl⟩

theorem Untouched.named {history : List ServerEvent} (untouched : Untouched s history s') (cmd : ServerCommand) :
    Named s' cmd = Named s cmd := by
  funext slot
  simp only [Named, untouched.groups]

theorem Untouched.searched {middle : ServerState} {history later : List ServerEvent}
    {found : Option (ClientType × Nat)} (untouched : Untouched s history middle)
    (searched : Searched middle later found s') : Searched s (history ++ later) found s' := by
  cases found with
  | none => exact untouched.append searched
  | some slot =>
    refine ⟨?_, ?_, ?_⟩
    · rw [searched.groups]
      simp only [ServerState.setFd, ServerState.setGroup, untouched.groups]
    · rw [warnedIn_append, untouched.warned, searched.warned, untouched.groups, List.nil_append]
    · rw [closedIn_append, untouched.closed, searched.closed, untouched.groups, List.nil_append]

theorem wp_findAndShutdown {cmd : ServerCommand} :
    machine.wp t (findAndShutdown c cmd.ipAddress cmd.port) (fun history found s' =>
      found = ((slotsOf c).find? (Named s cmd)).isSome ∧
        Searched s history ((slotsOf c).find? (Named s cmd)) s') s := by
  have slots : (slotsOf c).find? (Named s cmd) =
      ((List.range (maxNumberOf c)).find? fun i => Named s cmd (c, i)).map (c, ·) := List.find?_map
  unfold findAndShutdown
  refine wp_bind.mpr (wp_mono ?_ (@wp_forFrom _ _ _ _ _ _ machine t _
    (fun i history _ s' => (∀ j < i, Named s cmd (c, j) = false) ∧ Untouched s history s')
    (fun history _ s' => ∃ i, (List.range (maxNumberOf c)).find? (fun i => Named s cmd (c, i)) = some i ∧
      ShutsOne s (c, i) history s') (maxNumberOf c) 0 () [] s ?_ ⟨nofun, rfl, rfl, rfl⟩))
  · intro history flow s' after
    simp only [List.nil_append, Nat.zero_add] at after
    cases flow with
    | next carried =>
      obtain ⟨nowhere, untouched⟩ := after
      have none : (List.range (maxNumberOf c)).find? (fun i => Named s cmd (c, i)) = none :=
        List.find?_range_eq_none.mpr fun i bound => by rw [nowhere i bound]; rfl
      refine wp_done.mpr ?_
      rw [slots, none, List.append_nil]
      exact ⟨rfl, untouched⟩
    | exit result =>
      obtain ⟨i, first, shuts⟩ := after
      refine wp_done.mpr ?_
      rw [slots, first, List.append_nil]
      exact ⟨rfl, shuts⟩
  · rintro i history _ middle - bound ⟨nowhere, untouched⟩
    refine wp_mono (fun later flow s' after => ?_) wp_shutdownIfFound
    cases flow with
    | next carried =>
      obtain ⟨unnamed, still⟩ := after
      rw [untouched.named cmd] at unnamed
      refine ⟨fun j less => ?_, untouched.append still⟩
      rcases Nat.lt_succ_iff_lt_or_eq.mp less with earlier | rfl
      · exact nowhere j earlier
      · exact unnamed
    | exit result =>
      obtain ⟨isNamed, shuts⟩ := after
      rw [untouched.named cmd] at isNamed
      refine ⟨i, List.find?_range_eq_some.mpr ⟨isNamed, List.mem_range.mpr (by omega), fun j less => ?_⟩, ?_⟩
      · rw [nowhere j less]
        rfl
      · exact @Untouched.searched s s' middle history later (some (c, i)) untouched shuts

def findAmong (cmd : ServerCommand) : List ClientType → ServerProgram ServerCommandResult
  | [] => return .invalidServerCommandArgs
  | c :: rest => do
    if ← findAndShutdown c cmd.ipAddress cmd.port then return .serverCommandSuccess
    findAmong cmd rest

theorem executeCommand_eq (cmd : ServerCommand) : executeCommand cmd = findAmong cmd searchOrder := rfl

theorem wp_findAmong {cmd : ServerCommand} {cs : List ClientType} :
    machine.wp t (findAmong cmd cs) (fun history result s' =>
      result = (if ((cs.flatMap slotsOf).find? (Named s cmd)).isSome then .serverCommandSuccess
        else .invalidServerCommandArgs) ∧ Searched s history ((cs.flatMap slotsOf).find? (Named s cmd)) s') s := by
  induction cs generalizing s with
  | nil => exact ⟨rfl, rfl, rfl, rfl⟩
  | cons c rest ih =>
    refine wp_bind.mpr (wp_mono ?_ wp_findAndShutdown)
    rintro history found middle ⟨rfl, searched⟩
    rw [List.flatMap_cons, List.find?_append]
    cases here : (slotsOf c).find? (Named s cmd) with
    | some slot =>
      rw [here] at searched
      refine wp_done.mpr ?_
      rw [List.append_nil]
      exact ⟨rfl, searched⟩
    | none =>
      rw [here] at searched
      have untouched : Untouched s history middle := searched
      refine wp_mono ?_ ih
      rintro later result s' ⟨decided, next⟩
      rw [untouched.named cmd] at decided next
      exact ⟨decided, untouched.searched next⟩

end

theorem firstNamed_isSome {s : ServerState} {cmd : ServerCommand} : (firstNamed s cmd).isSome = true ↔
    ∃ c i, i < maxNumberOf c ∧ Named s cmd (c, i) = true := by
  rw [firstNamed, List.find?_isSome]
  constructor
  · rintro ⟨slot, member, named⟩
    obtain ⟨c, -, inside⟩ := List.mem_flatMap.mp member
    obtain ⟨i, bound, rfl⟩ := List.mem_map.mp inside
    exact ⟨c, i, List.mem_range.mp bound, named⟩
  · rintro ⟨c, i, bound, named⟩
    refine ⟨(c, i), List.mem_flatMap.mpr ⟨c, ?_, List.mem_map_of_mem (List.mem_range.mpr bound)⟩, named⟩
    cases c <;> decide

/-- A server with one first worker and a manager, in the first slots. -/
def workerAndManager : ServerState :=
  ((((initServer.setFd .firstStageWorkerClient 0 5).setInfo .firstStageWorkerClient 0
    ⟨['h'], ['7'], ['1'], ['7']⟩).setFd .managerClient 0 6).setInfo .managerClient 0 ⟨['h'], ['8'], ['1'], ['8']⟩)

end ArchCompSystems.OsIhw3
