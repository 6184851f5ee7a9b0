import ArchCompSystems.Library.Protocol
import ArchCompSystems.OsIhw2.MemoryCalls
import ArchCompSystems.OsIhw2.MemoryStages

namespace ArchCompSystems.OsIhw2.Mark8

open Library Library.Program

/-- What the kernel and the workers have for one tie: of a semaphore only its generation. -/
structure TieView (τ : Type) where
  segment : Option Nat
  segmentsCreated : Nat
  counter : Nat → Int
  semId : Nat → Which → Option Id
  semaphore : Which → Option Nat
  info : τ → SharedMemoryInfo
  exited : τ → Bool

def System.tie {τ : Type} (s : System τ) (tieType : TieType) : TieView τ where
  segment := s.segment (sharedMemoryKey tieType)
  segmentsCreated := s.segmentsCreated (sharedMemoryKey tieType)
  counter g := (s.memory (segId tieType g)).shMemRefCounter
  semId g := (s.memory (segId tieType g)).semId
  semaphore which := (s.kernel.semaphore (semKey tieType which)).map (·.generation)
  info w := s.info w tieType
  exited := s.exited

namespace Stage

/-- The references to generation `g` that a worker at this stage has. -/
def users (g : Nat) : Stage → Nat
  | .counted h | .leaving h | .building h _ _ => if h = g then 1 else 0
  | _ => 0

def special : Stage → Nat
  | .created _ _ | .filling _ | .building _ _ _ | .removing _ _ | .deleting _ _ _ _ | .unlinking _ => 1
  | _ => 0

theorem special_le_one (stage : Stage) : stage.special ≤ 1 := by
  cases stage <;> simp only [special, Nat.le_refl, Nat.zero_le]

end Stage

variable {τ : Type} {tieType : TieType}

def Serves (tieType : TieType) (v : TieView τ) (g : Nat) (which : Which) : Prop :=
  ∃ n, v.semaphore which = some n ∧ v.semId g which = some (semIdOf tieType which n)

def InfoIs (tieType : TieType) (info : SharedMemoryInfo) (g : Nat) : Prop :=
  info = ⟨some (segId tieType g), some (segId tieType g)⟩

def StageOk (tieType : TieType) (v : TieView τ) (info : SharedMemoryInfo) : Stage → Prop
  | .outside | .entering => info.shMem = none
  | .found g named => info.shMem = none ∧ g < v.segmentsCreated ∧
      (named = true → info.sharedMemId = some (segId tieType g))
  | .created g named => info.shMem = none ∧ v.segment = some g ∧ v.counter g = 0 ∧
      (named = true → info.sharedMemId = some (segId tieType g)) ∧ ∀ which, v.semaphore which = none
  | .filling g => InfoIs tieType info g ∧ v.segment = some g ∧ v.counter g = 0 ∧
      ∀ which, v.semaphore which = none
  | .building g made stored => InfoIs tieType info g ∧ v.segment = some g ∧
      (∀ which, v.semaphore which = made which) ∧ ∀ which, stored which = true → Serves tieType v g which
  | .joined g => InfoIs tieType info g
  | .counted g | .leaving g => InfoIs tieType info g ∧ v.segment = some g
  | .removing g removed => v.segment = some g ∧ v.counter g = 0 ∧
      ∀ which, if removed which then v.semaphore which = none else Serves tieType v g which
  | .deleting g removed which n => v.segment = some g ∧ v.counter g = 0 ∧
      (∀ which, if removed which then v.semaphore which = none else Serves tieType v g which) ∧
      v.semaphore which = some n
  | .unlinking g => v.segment = some g ∧ v.counter g = 0 ∧ ∀ which, v.semaphore which = none
  | .detaching _ | .left => True

/-- Without a worker that sets it up or takes it down, a segment has references and its semaphores,
    and without a segment there are none. -/
structure Served (tieType : TieType) (v : TieView τ) : Prop where
  present : ∀ g, v.segment = some g → 1 ≤ v.counter g ∧ ∀ which, Serves tieType v g which
  absent : v.segment = none → ∀ which, v.semaphore which = none

def Record.Fresh (r : Record) : Prop :=
  r.created = false ∧ r.attached = false ∧ r.counted = false ∧ r.completed = false ∧ r.decrements = 0

def Fits (r : Record) : Stage → Prop
  | .outside => r.Fresh ∧ r.place ≠ .initialising ∧ r.place ≠ .working
  | .entering | .found _ _ => r.Fresh ∧ (r.place = .initialising ∨ r.place = .exited)
  | .created _ _ | .filling _ | .building _ _ _ | .joined _ => (r.created = true ∨ r.attached = true) ∧
      r.counted = false ∧ r.decrements = 0 ∧ r.place = .initialising
  | .counted _ => r.decrements = 0 ∧ (r.place = .initialising ∨ r.place = .working)
  | .leaving _ => r.decrements = 0 ∧ (r.place = .initialising ∨ r.place = .leaving)
  | .removing _ _ | .deleting _ _ _ _ | .unlinking _ | .detaching _ => r.decrements = 1 ∧
      (r.place = .initialising ∨ r.place = .leaving)
  | .left => r.decrements = 1 ∧ r.place ≠ .outside ∧ r.place ≠ .working

variable [DecidableEq τ] [Fintype τ]

/-- The reference counter counts the workers that have a reference. -/
structure Counted (tieType : TieType) (v : TieView τ) (ms : τ → Local) : Prop where
  stages : ∀ w, StageOk tieType v (v.info w) (ms w).stage
  fits : ∀ w, Fits (ms w).record (ms w).stage
  exits : ∀ w, v.exited w = true ↔ (ms w).record.place = .exited
  counter : ∀ g, v.counter g = held (fun l => l.stage.users g) ms
  old : ∀ g, v.segment = some g → g < v.segmentsCreated
  alone : held (fun l => l.stage.special) ms ≤ 1
  served : held (fun l => l.stage.special) ms = 0 → Served tieType v

variable {v v' : TieView τ} {ms : τ → Local} {w : τ} {l : Local}

theorem Counted.move (counted : Counted tieType v ms)
    (others : ∀ u, u ≠ w → StageOk tieType v' (v'.info u) (ms u).stage)
    (mine : StageOk tieType v' (v'.info w) l.stage) (fits : Fits l.record l.stage)
    (exitsOthers : ∀ u, u ≠ w → v'.exited u = v.exited u) (exits : v'.exited w = true ↔ l.record.place = .exited)
    (counter : ∀ g, v'.counter g + (ms w).stage.users g = v.counter g + l.stage.users g)
    (old : ∀ g, v'.segment = some g → g < v'.segmentsCreated)
    (alone : (ms w).stage.special < l.stage.special → held (fun l => l.stage.special) ms = 0)
    (served : held (fun l => l.stage.special) ms + l.stage.special = (ms w).stage.special → Served tieType v') :
    Counted tieType v' (Function.update ms w l) where
  stages := by
    intro u
    by_cases same : u = w
    · subst same
      rwa [Function.update_self]
    · rw [Function.update_of_ne same]
      exact others u same
  fits := by
    intro u
    by_cases same : u = w
    · subst same
      rwa [Function.update_self]
    · rw [Function.update_of_ne same]
      exact counted.fits u
  exits := by
    intro u
    by_cases same : u = w
    · subst same
      rwa [Function.update_self]
    · rw [Function.update_of_ne same, exitsOthers u same]
      exact counted.exits u
  counter := by
    intro g
    have moved := held_update (fun l => l.stage.users g) ms w l
    have now := counter g
    rw [counted.counter g] at now
    omega
  old := old
  alone := by
    have moved := held_update (fun l => l.stage.special) ms w l
    have atMost := l.stage.special_le_one
    have before := counted.alone
    by_cases grows : (ms w).stage.special < l.stage.special
    · have none := alone grows
      omega
    · omega
  served := by
    intro none
    have moved := held_update (fun l => l.stage.special) ms w l
    exact served (by omega)

omit [DecidableEq τ] [Fintype τ] in
theorem StageOk.congr {info : SharedMemoryInfo} {stage : Stage} (same : v' = { v with info := v'.info, exited := v'.exited })
    (ok : StageOk tieType v info stage) : StageOk tieType v' info stage := by
  rw [same]
  cases stage <;> exact ok

omit [DecidableEq τ] [Fintype τ] in
theorem Served.congr (same : v' = { v with info := v'.info, exited := v'.exited }) (served : Served tieType v) :
    Served tieType v' := by
  rw [same]
  exact ⟨served.present, served.absent⟩

theorem Counted.stay (counted : Counted tieType v ms)
    (same : v' = { v with info := v'.info, exited := v'.exited }) (infos : ∀ u, u ≠ w → v'.info u = v.info u)
    (mine : StageOk tieType v (v'.info w) l.stage) (fits : Fits l.record l.stage)
    (exitsOthers : ∀ u, u ≠ w → v'.exited u = v.exited u) (exits : v'.exited w = true ↔ l.record.place = .exited)
    (users : ∀ g, l.stage.users g = (ms w).stage.users g) (special : l.stage.special = (ms w).stage.special) :
    Counted tieType v' (Function.update ms w l) := by
  refine counted.move (fun u other => ?_) (mine.congr same) fits exitsOthers exits (fun g => ?_) ?_ ?_ ?_
  · rw [infos u other]
    exact (counted.stages u).congr same
  · rw [users, same]
  · rw [same]
    exact counted.old
  · intro grows
    omega
  · intro none
    exact (counted.served (by omega)).congr same

omit [DecidableEq τ] [Fintype τ] in
theorem StageOk.of_ordinary {info : SharedMemoryInfo} {stage : Stage} (ok : StageOk tieType v info stage)
    (ordinary : stage.special = 0) (current : v'.segment = v.segment ∨ ∀ g, stage.users g = 0)
    (more : v.segmentsCreated ≤ v'.segmentsCreated) : StageOk tieType v' info stage := by
  cases stage with
  | outside | entering | joined g | detaching g | left => exact ok
  | found g named => exact ⟨ok.1, Nat.lt_of_lt_of_le ok.2.1 more, ok.2.2⟩
  | counted g | leaving g =>
    rcases current with same | none
    · exact ⟨ok.1, same.trans ok.2⟩
    · have positive := none g
      simp [Stage.users] at positive
  | _ => exact absurd ordinary Nat.one_ne_zero

omit [DecidableEq τ] [Fintype τ] in
theorem StageOk.of_counter {info : SharedMemoryInfo} {stage : Stage} {g : Nat} {counter : Nat → Int}
    (ok : StageOk tieType v info stage) (current : v.segment = some g) (positive : 1 ≤ v.counter g) :
    StageOk tieType { v with counter := counter } info stage := by
  have notZero : ∀ {h : Nat}, v.segment = some h → v.counter h = 0 → False := by
    intro h same zero
    rw [current, Option.some.injEq] at same
    subst same
    omega
  cases stage with
  | created h named => exact (notZero ok.2.1 ok.2.2.1).elim
  | filling h => exact (notZero ok.2.1 ok.2.2.1).elim
  | removing h removed => exact (notZero ok.1 ok.2.1).elim
  | deleting h removed which n => exact (notZero ok.1 ok.2.1).elim
  | unlinking h => exact (notZero ok.1 ok.2.1).elim
  | _ => exact ok

omit [DecidableEq τ] in
theorem Counted.users_eq_zero (counted : Counted tieType v ms) {g : Nat} (zero : v.counter g = 0) (u : τ) :
    (ms u).stage.users g = 0 := by
  have total := counted.counter g
  have part := le_held (fun l => l.stage.users g) ms u
  omega

omit [DecidableEq τ] in
theorem Counted.positive_of_user (counted : Counted tieType v ms) {g : Nat} {u : τ}
    (user : 0 < (ms u).stage.users g) : 1 ≤ v.counter g := by
  have total := counted.counter g
  have part := le_held (fun l => l.stage.users g) ms u
  omega

omit [DecidableEq τ] in
theorem Counted.current_of_user (counted : Counted tieType v ms) {g : Nat} {u : τ}
    (user : 0 < (ms u).stage.users g) : v.segment = some g := by
  have ok := counted.stages u
  cases stage : (ms u).stage <;> rw [stage] at ok user <;> simp only [Stage.users] at user <;>
    first
    | exact absurd user (by decide)
    | (split at user
       · rename_i same
         subst same
         first | exact ok.2 | exact ok.2.1
       · exact absurd user (by decide))

omit [DecidableEq τ] in
theorem Counted.current_of_positive (counted : Counted tieType v ms) {g : Nat} (positive : 1 ≤ v.counter g) :
    v.segment = some g := by
  by_contra other
  have none : held (fun l => l.stage.users g) ms = 0 := held_eq_zero fun u => by
    by_contra some'
    exact other (counted.current_of_user (Nat.pos_of_ne_zero some'))
  have total := counted.counter g
  omega

theorem Counted.others_ordinary (counted : Counted tieType v ms) (special : (ms w).stage.special = 1) {u : τ}
    (other : u ≠ w) : (ms u).stage.special = 0 := by
  have both := add_le_held (fun l => l.stage.special) ms other
  have atMost := counted.alone
  omega

omit [DecidableEq τ] [Fintype τ] in
theorem place_after_own {c : Call} {answer : c.Answer} (alive : l.record.place ≠ .exited)
    (own : l.stage.own tieType c) : (l.record.after tieType c answer).place ≠ .exited := by
  cases c with
  | leaveInit tie status =>
    cases status <;> simp only [Record.after, Record.leaveInit] <;> split <;> simp [alive]
  | enterDeinit tie =>
    simp only [Record.after, Record.enterDeinit]
    split
    · split <;> simp [alive]
    · exact alive
  | leaveDeinit tie =>
    simp only [Record.after, Record.leaveDeinit]
    split
    · split <;> simp [alive]
    · exact alive
  | shmget key flags =>
    cases flags <;> cases answer <;> simp only [Record.after] <;> first | exact alive | (split <;> exact alive)
  | storeShMem tie shMem =>
    cases shMem <;> simp only [Record.after] <;> first | exact alive | (split <;> exact alive)
  | enterInit tie => simp only [Record.after]; split <;> simp [alive]
  | increaseRefCounter shMem | decreaseRefCounter shMem =>
    simp only [Record.after]
    split <;> exact alive
  | exit => exact own.elim
  | _ => exact alive

omit [DecidableEq τ] [Fintype τ] in
theorem Fits.enterDeinit {r : Record} {stage : Stage} (fits : Fits r stage) (alive : r.place ≠ .exited) :
    Fits r.enterDeinit stage.startLeaving := by
  unfold Record.enterDeinit
  split <;> cases stage <;> simp only [Fits, Record.Fresh, Stage.startLeaving] at fits ⊢ <;> grind

omit [DecidableEq τ] [Fintype τ] in
theorem Fits.leaveDeinit {r : Record} {stage : Stage} (fits : Fits r stage) (free : stage.Free) :
    Fits r.leaveDeinit stage := by
  unfold Record.leaveDeinit
  split
  · cases stage <;> simp only [Fits, Record.Fresh, Stage.Free] at fits free ⊢ <;> grind
  · exact fits

theorem Fits.left {r : Record}
    (fits : r.decrements = 1 ∧ (r.place = .initialising ∨ r.place = .leaving)) : Fits r .left := by
  obtain ⟨decrements, place | place⟩ := fits <;> exact ⟨decrements, by simp [place], by simp [place]⟩

omit [DecidableEq τ] [Fintype τ] in
theorem fits_after_leaveInit {tie : TieType} {status : InitStatus}
    {answer : (Call.leaveInit tie status).Answer} (fits : Fits l.record l.stage)
    (own : l.stage.own tieType (.leaveInit tie status)) :
    Fits (l.record.after tieType (.leaveInit tie status) answer)
      (l.stage.after tieType (.leaveInit tie status) answer) := by
  cases status with
  | sharedMemoryInitSuccess =>
    obtain ⟨rfl, g, here⟩ := own
    rw [here] at fits ⊢
    simp only [Record.after, Stage.after, if_true, Fits, Record.leaveInit] at fits ⊢
    simp [fits]
  | sharedMemoryInitFailure =>
    obtain ⟨rfl, here⟩ := own
    rw [here] at fits
    simp only [Record.after, Stage.after, if_true, Fits, Record.leaveInit, Record.Fresh] at fits ⊢
    simp [fits]

omit [DecidableEq τ] [Fintype τ] in
theorem fits_after_storeSharedMemId {tie : TieType} {segment : Option Id}
    {answer : (Call.storeSharedMemId tie segment).Answer} (fits : Fits l.record l.stage)
    (own : l.stage.own tieType (.storeSharedMemId tie segment)) :
    Fits (l.record.after tieType (.storeSharedMemId tie segment) answer)
      (l.stage.after tieType (.storeSharedMemId tie segment) answer) := by
  cases segment with
  | none => exact fits
  | some segment =>
    obtain ⟨rfl, g, named, -, here | here⟩ := own <;>
    · rw [here] at fits ⊢
      simp only [Record.after, Stage.after, if_true, Stage.name]
      exact fits

omit [DecidableEq τ] [Fintype τ] in
theorem fits_after_storeShMem {tie : TieType} {shMem : Pointer} {answer : (Call.storeShMem tie shMem).Answer}
    (fits : Fits l.record l.stage) (alive : l.record.place ≠ .exited)
    (own : l.stage.own tieType (.storeShMem tie shMem)) :
    Fits (l.record.after tieType (.storeShMem tie shMem) answer)
      (l.stage.after tieType (.storeShMem tie shMem) answer) := by
  cases shMem with
  | none => exact fits
  | some segment =>
    obtain ⟨rfl, g, -, here | here⟩ := own
    · rw [here] at fits ⊢
      simp only [Record.after, Stage.after, if_true, Stage.attach, Fits, Record.Fresh] at fits ⊢
      simp only [fits, or_true, true_and]
      exact fits.2.resolve_right alive
    · rw [here] at fits ⊢
      simp only [Record.after, Stage.after, if_true, Stage.attach, Fits] at fits ⊢
      simp [fits]

omit [DecidableEq τ] [Fintype τ] in
theorem fits_after_shmget {key : Key} {flags : OpenFlags} {answer : (Call.shmget key flags).Answer}
    (fits : Fits l.record l.stage) (alive : l.record.place ≠ .exited)
    (own : l.stage.own tieType (.shmget key flags)) :
    Fits (l.record.after tieType (.shmget key flags) answer) (l.stage.after tieType (.shmget key flags) answer) := by
  obtain ⟨rfl, here⟩ := own
  rw [here] at fits ⊢
  cases answer with
  | failed errno => cases flags <;> exact fits
  | ok segment =>
    cases flags with
    | new =>
      simp only [Record.after, Stage.after, if_true, Fits, Record.Fresh] at fits ⊢
      simp only [fits, true_or, true_and]
      exact fits.2.resolve_right alive
    | existing =>
      simp only [Record.after, Stage.after, if_true]
      exact fits

omit [DecidableEq τ] [Fintype τ] in
theorem fits_after_storeSemId {shMem : Pointer} {which : Which} {semId : Option Id}
    {answer : (Call.storeSemId shMem which semId).Answer} (fits : Fits l.record l.stage)
    (own : l.stage.own tieType (.storeSemId shMem which semId)) :
    Fits (l.record.after tieType (.storeSemId shMem which semId) answer)
      (l.stage.after tieType (.storeSemId shMem which semId) answer) := by
  rcases own with rfl | ⟨g, rfl, here | ⟨made, stored, n, here, -, -⟩⟩
  · exact fits
  · rw [here] at fits ⊢
    simpa only [Record.after, Stage.after, Stage.storeSemId, ite_self] using fits
  · rw [here] at fits ⊢
    simp only [Record.after, Stage.after, Stage.storeSemId, isOf_segId, if_true]
    have completes : Fits l.record (.counted g) := ⟨fits.2.2.1, .inl fits.2.2.2⟩
    split
    · exact completes
    · exact fits

omit [DecidableEq τ] [Fintype τ] in
theorem fits_after_shmdt {shMem : Pointer} {answer : (Call.shmdt shMem).Answer} (fits : Fits l.record l.stage)
    (own : l.stage.own tieType (.shmdt shMem)) :
    Fits (l.record.after tieType (.shmdt shMem) answer) (l.stage.after tieType (.shmdt shMem) answer) := by
  obtain ⟨g, rfl, here | ⟨removed, here, -⟩⟩ := own
  · rw [here] at fits ⊢
    simp only [Record.after, Stage.after, Stage.detach, isOf_segId, if_true]
    exact Fits.left fits
  · rw [here] at fits ⊢
    simpa only [Record.after, Stage.after, Stage.detach, isOf_segId, if_true, Fits] using fits

omit [DecidableEq τ] [Fintype τ] in
theorem fits_after_own {c : Call} {answer : c.Answer} (fits : Fits l.record l.stage) (alive : l.record.place ≠ .exited)
    (own : l.stage.own tieType c) : Fits (l.record.after tieType c answer) (l.stage.after tieType c answer) := by
  cases c with
  | enterInit tie =>
    obtain ⟨rfl, here⟩ := own
    rw [here] at fits
    simp only [Record.after, Stage.after, if_true, Fits, Record.Fresh] at fits ⊢
    simp [fits]
  | leaveInit tie status => exact fits_after_leaveInit fits own
  | enterDeinit tie =>
    obtain rfl : tie = tieType := own
    simp only [Record.after, Stage.after, if_true]
    exact fits.enterDeinit alive
  | leaveDeinit tie =>
    obtain ⟨rfl, free⟩ := own
    simp only [Record.after, Stage.after, if_true]
    exact fits.leaveDeinit free
  | loadInfo tie => exact fits
  | storeSharedMemId tie segment => exact fits_after_storeSharedMemId fits own
  | storeShMem tie shMem => exact fits_after_storeShMem fits alive own
  | shmget key flags => exact fits_after_shmget fits alive own
  | shmat segment => exact fits
  | storePin shMem index pin | storeReadIndex shMem index | storeWriteIndex shMem index => exact fits
  | storeRefCounter shMem value =>
    rcases own with rfl | ⟨g, rfl, here, -⟩
    · exact fits
    · rw [here] at fits ⊢
      simp only [Record.after, Stage.after, Stage.startCounter]
      split <;> exact fits
  | storeSemId shMem which semId => exact fits_after_storeSemId fits own
  | increaseRefCounter shMem =>
    rcases own with rfl | ⟨g, rfl, here⟩
    · simpa only [Record.after, Stage.after, isOf_none, if_false] using fits
    · rw [here] at fits ⊢
      simp only [Record.after, Stage.after, Stage.join, isOf_segId, if_true, Fits] at fits ⊢
      exact ⟨fits.2.2.1, .inl fits.2.2.2⟩
  | semget key flags =>
    obtain ⟨-, g, made, which, here, -, -⟩ := own
    rw [here] at fits ⊢
    cases answer <;> exact fits
  | setval semId value => exact fits
  | loadRefCounter shMem => exact fits
  | decreaseRefCounter shMem =>
    obtain ⟨g, rfl, here⟩ := own
    rw [here] at fits ⊢
    simp only [Record.after, Stage.after, Stage.release, isOf_segId, if_true]
    obtain ⟨decrements, place⟩ := fits
    have once : l.record.decrements + 1 = 1 := by omega
    split <;> exact ⟨once, place⟩
  | loadSemId shMem which =>
    obtain ⟨g, removed, rfl, here, -⟩ := own
    rw [here] at fits ⊢
    simp only [Record.after, Stage.after, Stage.loadSemId, isOf_segId, if_true]
    cases answer <;> exact fits
  | removeSemaphore semId =>
    obtain ⟨g, removed, which, n, here, rfl⟩ := own
    rw [here] at fits ⊢
    simp only [Record.after, Stage.after, Stage.removeSemaphore]
    split <;> exact fits
  | shmdt shMem => exact fits_after_shmdt fits own
  | removeSegment segment =>
    obtain ⟨g, rfl, here⟩ := own
    rw [here] at fits
    simp only [Record.after, Stage.after, segId_key, if_true]
    exact Fits.left fits
  | _ => exact own.elim

end ArchCompSystems.OsIhw2.Mark8
