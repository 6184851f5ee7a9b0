import ArchCompSystems.OsIhw3.ServerTools

namespace ArchCompSystems.OsIhw3

open Library Library.Program Library.Machine

variable {t : ThreadId} {s : ServerState} {c d : ClientType}

namespace ServerState

@[simp] theorem setGroup_groups (s : ServerState) (c : ClientType) (group : ClientGroup) :
    (s.setGroup c group).groups = Function.update s.groups c group := rfl

@[simp] theorem setArrSize_fds (s : ServerState) (c d : ClientType) (size : Nat) :
    ((s.setArrSize c size).groups d).fds = (s.groups d).fds := by
  by_cases same : d = c
  · subst same
    simp [setArrSize]
  · simp [setArrSize, Function.update_of_ne same]

theorem setFd_fds_self (s : ServerState) (c : ClientType) (i : Nat) (fd : Int) :
    ((s.setFd c i fd).groups c).fds = Function.update (s.groups c).fds i fd := by
  simp [setFd]

theorem setFd_fds_of_ne {s : ServerState} {c d : ClientType} (other : d ≠ c) (i : Nat) (fd : Int) :
    ((s.setFd c i fd).groups d).fds = (s.groups d).fds := by
  simp [setFd, Function.update_of_ne other]

@[simp] theorem setFd_arrSize (s : ServerState) (c d : ClientType) (i : Nat) (fd : Int) :
    ((s.setFd c i fd).groups d).arrSize = (s.groups d).arrSize := by
  by_cases same : d = c
  · subst same
    simp [setFd]
  · simp [setFd, Function.update_of_ne same]

end ServerState

section

variable {i size : Nat} {fd : Int}

@[simp] theorem wp_loadFd {post : List ServerEvent → Int → ServerState → Prop} :
    machine.wp t (loadFd c i) post s ↔
      post [⟨.loadFd c i, (s.groups c).fds i⟩] ((s.groups c).fds i) s :=
  wp_request_iff fun _ _ => loads_iff

@[simp] theorem wp_storeFd {post : List ServerEvent → Unit → ServerState → Prop} :
    machine.wp t (storeFd c i fd) post s ↔ post [⟨.storeFd c i fd, ()⟩] () (s.setFd c i fd) :=
  wp_request_iff fun _ _ => stores_iff

@[simp] theorem wp_loadArrSize {post : List ServerEvent → Nat → ServerState → Prop} :
    machine.wp t (loadArrSize c) post s ↔
      post [⟨.loadArrSize c, (s.groups c).arrSize⟩] (s.groups c).arrSize s :=
  wp_request_iff fun _ _ => loads_iff

@[simp] theorem wp_storeArrSize {post : List ServerEvent → Unit → ServerState → Prop} :
    machine.wp t (storeArrSize c size) post s ↔
      post [⟨.storeArrSize c size, ()⟩] () (s.setArrSize c size) :=
  wp_request_iff fun _ _ => stores_iff

@[simp] theorem wp_loadErrno {post : List ServerEvent → Errno → ServerState → Prop} :
    machine.wp t loadErrno post s ↔ post [⟨.loadErrno, s.errno t⟩] (s.errno t) s :=
  wp_request_iff fun _ _ => loads_iff

@[simp] theorem wp_loadInfo {post : List ServerEvent → ClientMetaInfo → ServerState → Prop} :
    machine.wp t (loadInfo c i) post s ↔
      post [⟨.loadInfo c i, (s.groups c).info i⟩] ((s.groups c).info i) s :=
  wp_request_iff fun _ _ => loads_iff

@[simp] theorem wp_close {post : List ServerEvent → Option Errno → ServerState → Prop} :
    machine.wp t (close fd) post s ↔
      ∀ answer, post [⟨.close fd, answer⟩] answer (s.afterError t answer) := by
  constructor
  · exact fun all answer => all answer _ rfl
  · rintro all answer _ ⟨⟩
    exact all answer

@[simp] theorem wp_assert {holds : Bool} {assertion : String}
    {post : List ServerEvent → Unit → ServerState → Prop} :
    machine.wp t (assert holds assertion) post s ↔ (holds = true → post [] () s) := by
  cases holds with
  | true => simp [assert]
  | false =>
    simp only [assert, Bool.false_eq_true, ↓reduceIte, false_imp_iff, iff_true]
    exact fun answer => nomatch answer

@[simp] theorem wp_orAbort {α : Type} {value : Option α} {assertion : String}
    {post : List ServerEvent → α → ServerState → Prop} :
    machine.wp t (orAbort value assertion) post s ↔ ∀ result, value = some result → post [] result s := by
  cases value with
  | some value => simp [orAbort]
  | none =>
    simp only [orAbort, reduceCtorEq, false_imp_iff, implies_true, iff_true]
    exact fun answer => nomatch answer

end

def Call.Quiet : Call → Prop
  | .storeFd _ _ _ | .storeArrSize _ _ | .accept | .close _ => False
  | _ => True

/-- The descriptors and counters of all types, and the accepted connections, are the same. -/
structure SameSlots (s s' : ServerState) : Prop where
  fds : ∀ c, (s'.groups c).fds = (s.groups c).fds
  arrSize : ∀ c, (s'.groups c).arrSize = (s.groups c).arrSize
  accepted : s'.accepted = s.accepted

theorem SameSlots.refl (s : ServerState) : SameSlots s s := ⟨fun _ => rfl, fun _ => rfl, rfl⟩

theorem SameSlots.trans {s middle s' : ServerState} (first : SameSlots s middle)
    (second : SameSlots middle s') : SameSlots s s' where
  fds c := (second.fds c).trans (first.fds c)
  arrSize c := (second.arrSize c).trans (first.arrSize c)
  accepted := second.accepted.trans first.accepted

namespace SameSlots

theorem setErrno (s : ServerState) (t : ThreadId) (error : Errno) : SameSlots s (s.setErrno t error) :=
  ⟨fun _ => rfl, fun _ => rfl, rfl⟩

theorem afterError (s : ServerState) (t : ThreadId) (error : Option Errno) :
    SameSlots s (s.afterError t error) := by
  cases error with
  | none => exact .refl s
  | some error => exact .setErrno s t error

theorem setGroup {s : ServerState} {c : ClientType} {group : ClientGroup}
    (fds : group.fds = (s.groups c).fds) (arrSize : group.arrSize = (s.groups c).arrSize) :
    SameSlots s (s.setGroup c group) where
  fds d := by
    by_cases same : d = c
    · subst same
      simpa using fds
    · simp [Function.update_of_ne same]
  arrSize d := by
    by_cases same : d = c
    · subst same
      simpa using arrSize
    · simp [Function.update_of_ne same]
  accepted := rfl

end SameSlots

theorem perform_quiet {call : Call} {answer : call.Answer} {s s' : ServerState}
    (quiet : call.Quiet) (performed : machine.perform t call answer s = some s') :
    SameSlots s s' := by
  cases call <;> simp only [Call.Quiet] at quiet <;>
    simp only [machine, perform, Option.ite_none_right_eq_some, Option.some.injEq] at performed
  case storeAddr | storeInfo => subst performed; exact .setGroup rfl rfl
  case storeErrno => subst performed; exact .setErrno s _ _
  case mutexLock =>
    split at performed
    · cases performed
      exact .refl s
    · split at performed <;> cases performed
      exact ⟨fun _ => rfl, fun _ => rfl, rfl⟩
  case mutexUnlock | pthreadCancel =>
    split at performed <;> cases performed <;> exact ⟨fun _ => rfl, fun _ => rfl, rfl⟩
  case recv | send => obtain ⟨-, rfl⟩ := performed; exact .afterError s _ _
  case setsockopt | getsockoptError | shutdown | shutdownListening | closeListening | enqueueLog |
      dequeueLog | nanosleep =>
    subst performed; exact .afterError s _ _
  case loadFd | loadArrSize | loadInfo | loadErrno | loadRunning | loadDisposed | pthreadJoin =>
    obtain ⟨-, rfl⟩ := performed; exact .refl s
  case abort | goesOn => exact answer.elim
  all_goals subst performed; exact ⟨fun _ => rfl, fun _ => rfl, rfl⟩

theorem perform_fds {call : Call} {answer : call.Answer} {s s' : ServerState}
    (stores : ∀ c i fd, call ≠ .storeFd c i fd)
    (performed : machine.perform t call answer s = some s') (c : ClientType) :
    (s'.groups c).fds = (s.groups c).fds := by
  cases call with
  | storeFd d i fd => exact absurd rfl (stores d i fd)
  | storeArrSize d size =>
    cases performed
    exact ServerState.setArrSize_fds s d c size
  | accept =>
    cases answer with
    | failed error =>
      cases performed
      rfl
    | connected fd addr addrlen =>
      obtain ⟨-, accepted⟩ := Option.ite_none_right_eq_some.mp performed
      cases accepted
      rfl
  | close fd =>
    cases performed
    exact (SameSlots.afterError s t answer).fds c
  | _ =>
    refine (perform_quiet ?_ performed).fds c
    exact True.intro

def sameSlotsAccount : Account ServerState ServerEvent := .ofRelation SameSlots .refl .trans

theorem wp_of_quiet {α : Type} {p : ServerProgram α} (quiet : p.Calls Call.Quiet) (s : ServerState) :
    machine.wp t p (fun _ _ s' => SameSlots s s') s :=
  @wp_of_calls _ _ _ _ _ machine t sameSlotsAccount Call.Quiet p
    (fun _ _ _ _ quiet performed => perform_quiet quiet performed) quiet s

theorem wp_quiet_bind {α β : Type} {p : ServerProgram α} {f : α → ServerProgram β}
    {post : List ServerEvent → β → ServerState → Prop} (quiet : p.Calls Call.Quiet)
    (rest : ∀ history value s', SameSlots s s' →
      machine.wp t (f value) (fun later => post (history ++ later)) s') :
    machine.wp t (p >>= f) post s :=
  wp_bind.mpr (wp_mono rest (wp_of_quiet quiet s))

end ArchCompSystems.OsIhw3
