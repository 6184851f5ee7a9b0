import ArchCompSystems.OsIhw2.SharedMemory

namespace ArchCompSystems.OsIhw2.Mark8

open Library Library.Program

inductive Place where
  | outside
  | initialising
  | working
  | leaving
  | left
  | exited
  deriving DecidableEq

/-- What the calls of a worker say about one of its ties. -/
structure Record where
  place : Place
  created : Bool
  attached : Bool
  counted : Bool
  completed : Bool
  decrements : Nat
  deriving DecidableEq

namespace Record

def initial : Record := ⟨.outside, false, false, false, false, 0⟩

def enterDeinit (r : Record) : Record :=
  match r.place with
  | .initialising => r
  | _ => { r with place := .leaving }

def leaveDeinit (r : Record) : Record :=
  match r.place with
  | .leaving => { r with place := .left }
  | _ => r

def leaveInit (r : Record) : InitStatus → Record
  | .sharedMemoryInitSuccess => { r with place := .working, counted := true, completed := true }
  | .sharedMemoryInitFailure => { r with place := .outside }

def IsOf (tieType : TieType) : Pointer → Prop
  | some segment => segment.key = sharedMemoryKey tieType
  | none => False

instance (tieType : TieType) (shMem : Pointer) : Decidable (IsOf tieType shMem) := by
  cases shMem <;> unfold IsOf <;> exact inferInstance

def after (tieType : TieType) (r : Record) : (call : Call) → call.Answer → Record
  | .enterInit other, _ => if other = tieType then { r with place := .initialising } else r
  | .leaveInit other status, _ => if other = tieType then r.leaveInit status else r
  | .enterDeinit other, _ => if other = tieType then r.enterDeinit else r
  | .leaveDeinit other, _ => if other = tieType then r.leaveDeinit else r
  | .exit, _ => { r with place := .exited }
  | .shmget key .new, .ok _ => if key = sharedMemoryKey tieType then { r with created := true } else r
  | .storeShMem other (some _), _ => if other = tieType then { r with attached := true } else r
  | .increaseRefCounter shMem, _ => if IsOf tieType shMem then { r with counted := true } else r
  | .decreaseRefCounter shMem, _ =>
    if IsOf tieType shMem then { r with decrements := r.decrements + 1 } else r
  | _, _ => r

def Settled (r : Record) : Prop :=
  r.decrements = 0 ∧ (r.counted = true ∨ r.created = false ∧ r.attached = false)

instance (r : Record) : Decidable r.Settled := by unfold Settled; exact inferInstance

end Record

def recordOf (tieType : TieType) (history : List (Event (outcome Signal Call.Answer))) : Record :=
  history.foldl (fun r event => match event with
    | ⟨made, .answered answer⟩ => r.after tieType made.1 answer
    | ⟨_, .caught _⟩ => r) .initial

/-- Where a worker stands towards the segment of a tie, with the generations of what it knows. It has
    stored the id of a segment that is `named`; `made` are the semaphores that it has created and
    `stored` those whose ids it has stored; `removed` are those that it has removed. -/
inductive Stage where
  | outside
  | entering
  | found (g : Nat) (named : Bool)
  | created (g : Nat) (named : Bool)
  | filling (g : Nat)
  | building (g : Nat) (made : Which → Option Nat) (stored : Which → Bool)
  | joined (g : Nat)
  | counted (g : Nat)
  | leaving (g : Nat)
  | removing (g : Nat) (removed : Which → Bool)
  | deleting (g : Nat) (removed : Which → Bool) (which : Which) (n : Nat)
  | unlinking (g : Nat)
  | detaching (g : Nat)
  | left

def segId (tieType : TieType) (g : Nat) : Id := ⟨sharedMemoryKey tieType, g⟩

def semIdOf (tieType : TieType) (which : Which) (n : Nat) : Id := ⟨semKey tieType which, n⟩

def allStored (stored : Which → Bool) : Bool := stored .bufferAccess && stored .addedPins && stored .freePins

namespace Stage

def name : Stage → Stage
  | .found g _ => .found g true
  | .created g _ => .created g true
  | stage => stage

def attach : Stage → Stage
  | .found g _ => .joined g
  | .created g _ => .filling g
  | stage => stage

def startCounter : Stage → Stage
  | .filling g => .building g (fun _ => none) (fun _ => false)
  | stage => stage

def makeSemaphore (tieType : TieType) (key : Key) (n : Nat) : Stage → Stage
  | .building g made stored =>
    .building g (fun which => if key = semKey tieType which then some n else made which) stored
  | stage => stage

def storeSemId (which : Which) : Stage → Stage
  | .building g made stored =>
    if allStored (Function.update stored which true) then .counted g
    else .building g made (Function.update stored which true)
  | stage => stage

def join : Stage → Stage
  | .joined g => .counted g
  | stage => stage

def startLeaving : Stage → Stage
  | .counted g => .leaving g
  | stage => stage

def release (value : Int) : Stage → Stage
  | .leaving g => if value = 0 then .removing g (fun _ => false) else .detaching g
  | stage => stage

def loadSemId (which : Which) (semId : Option Id) : Stage → Stage
  | .removing g removed =>
    match semId with
    | some semId => .deleting g removed which semId.generation
    | none => .removing g removed
  | stage => stage

def removeSemaphore : Stage → Stage
  | .deleting g removed which _ => .removing g (Function.update removed which true)
  | stage => stage

def detach : Stage → Stage
  | .removing g _ => .unlinking g
  | .detaching _ => .left
  | stage => stage

def after (tieType : TieType) (stage : Stage) : (call : Call) → call.Answer → Stage
  | .enterInit other, _ => if other = tieType then .entering else stage
  | .leaveInit other .sharedMemoryInitFailure, _ => if other = tieType then .outside else stage
  | .enterDeinit other, _ => if other = tieType then stage.startLeaving else stage
  | .shmget key .new, .ok segment =>
    if key = sharedMemoryKey tieType then .created segment.generation false else stage
  | .shmget key .existing, .ok segment =>
    if key = sharedMemoryKey tieType then .found segment.generation false else stage
  | .storeSharedMemId other (some _), _ => if other = tieType then stage.name else stage
  | .storeShMem other (some _), _ => if other = tieType then stage.attach else stage
  | .storeRefCounter shMem value, _ =>
    if Record.IsOf tieType shMem ∧ value = 1 then stage.startCounter else stage
  | .semget key _, .ok semId => stage.makeSemaphore tieType key semId.generation
  | .storeSemId shMem which _, _ => if Record.IsOf tieType shMem then stage.storeSemId which else stage
  | .increaseRefCounter shMem, _ => if Record.IsOf tieType shMem then stage.join else stage
  | .decreaseRefCounter shMem, value => if Record.IsOf tieType shMem then stage.release value else stage
  | .loadSemId shMem which, semId =>
    if Record.IsOf tieType shMem then stage.loadSemId which semId else stage
  | .removeSemaphore semId, _ =>
    if ∃ which, semId.key = semKey tieType which then stage.removeSemaphore else stage
  | .shmdt shMem, _ => if Record.IsOf tieType shMem then stage.detach else stage
  | .removeSegment segment, _ => if segment.key = sharedMemoryKey tieType then .left else stage
  | _, _ => stage

def Free : Stage → Prop
  | .outside | .entering | .found _ _ | .left => True
  | _ => False

def Settled : Stage → Prop
  | .outside | .entering | .found _ _ | .counted _ | .leaving _ => True
  | _ => False

/-- The calls of `init_shared_memory_info` and `deinit_shared_memory_info` for this tie. -/
def own (tieType : TieType) (stage : Stage) : Call → Prop
  | .enterInit other => other = tieType ∧ stage = .outside
  | .leaveInit other .sharedMemoryInitSuccess => other = tieType ∧ ∃ g, stage = .counted g
  | .leaveInit other .sharedMemoryInitFailure => other = tieType ∧ stage = .entering
  | .enterDeinit other | .loadInfo other => other = tieType
  | .leaveDeinit other => other = tieType ∧ stage.Free
  | .storeSharedMemId other none => other = tieType ∧ stage = .entering
  | .storeSharedMemId other (some segment) => other = tieType ∧
      ∃ g named, segment = segId tieType g ∧ (stage = .found g named ∨ stage = .created g named)
  | .storeShMem other none => other = tieType ∧
      (stage = .entering ∨ ∃ g named, stage = .found g named ∨ stage = .created g named)
  | .storeShMem other (some segment) => other = tieType ∧
      ∃ g, segment = segId tieType g ∧ (stage = .found g true ∨ stage = .created g true)
  | .shmget key _ => key = sharedMemoryKey tieType ∧ stage = .entering
  | .shmat segment => ∃ g, segment = segId tieType g ∧ (stage = .found g true ∨ stage = .created g true)
  | .storePin shMem _ _ | .storeReadIndex shMem _ | .storeWriteIndex shMem _ =>
    shMem = none ∨ ∃ g, shMem = some (segId tieType g)
  | .storeRefCounter shMem value =>
    shMem = none ∨ ∃ g, shMem = some (segId tieType g) ∧ stage = .filling g ∧ (value = 0 ∨ value = 1)
  | .storeSemId shMem which semId => shMem = none ∨ ∃ g, shMem = some (segId tieType g) ∧
      (stage = .filling g ∨ ∃ made stored n, stage = .building g made stored ∧ made which = some n ∧
        semId = some (semIdOf tieType which n))
  | .increaseRefCounter shMem => shMem = none ∨ ∃ g, shMem = some (segId tieType g) ∧ stage = .joined g
  | .semget key flags => flags = .newSemaphore ∧ ∃ g made which,
      stage = .building g made (fun _ => false) ∧ key = semKey tieType which ∧ made which = none
  | .setval semId _ => ∃ g made stored which n, stage = .building g made stored ∧
      semId = semIdOf tieType which n ∧ made which = some n
  | .loadRefCounter shMem | .decreaseRefCounter shMem =>
    ∃ g, shMem = some (segId tieType g) ∧ stage = .leaving g
  | .loadSemId shMem which =>
    ∃ g removed, shMem = some (segId tieType g) ∧ stage = .removing g removed ∧ removed which = false
  | .removeSemaphore semId =>
    ∃ g removed which n, stage = .deleting g removed which n ∧ semId = semIdOf tieType which n
  | .shmdt shMem => ∃ g, shMem = some (segId tieType g) ∧
      (stage = .detaching g ∨ ∃ removed, stage = .removing g removed ∧ ∀ which, removed which = true)
  | .removeSegment segment => ∃ g, segment = segId tieType g ∧ stage = .unlinking g
  | _ => False

def possible (tieType : TieType) (stage : Stage) : (call : Call) → call.Answer → Prop
  | .shmget key _, answer =>
    key = sharedMemoryKey tieType → ∀ segment, answer = .ok segment → segment.key = sharedMemoryKey tieType
  | .shmat segment, answer => answer = none ∨ answer = some segment
  | .storePin shMem _ _, _ | .storeReadIndex shMem _, _ | .storeWriteIndex shMem _, _
  | .storeRefCounter shMem _, _ | .storeSemId shMem _ _, _ | .increaseRefCounter shMem, _ => shMem ≠ none
  | .semget key _, answer => stage.own tieType (.semget key .newSemaphore) →
      ∃ semId, answer = .ok semId ∧ semId.key = key
  | .setval semId value, answer => stage.own tieType (.setval semId value) → answer = .ok ()
  | .semop _ _, answer => answer = .ok ()
  | .loadInfo other, info => other = tieType →
    match stage with
    | .outside | .entering | .found _ _ => info.shMem = none
    | .counted g | .leaving g => info = ⟨some (segId tieType g), some (segId tieType g)⟩
    | _ => True
  | .loadRefCounter shMem, value => stage.own tieType (.loadRefCounter shMem) → 1 ≤ value
  | .loadSemId shMem which, semId => stage.own tieType (.loadSemId shMem which) →
      ∃ n, semId = some (semIdOf tieType which n)
  | _, _ => True

def Foreign (tieType : TieType) : Call → Prop
  | .shmget key _ => key ≠ sharedMemoryKey tieType
  | .shmat segment | .removeSegment segment => segment.key ≠ sharedMemoryKey tieType
  | .semget key _ => ∀ which, key ≠ semKey tieType which
  | .setval semId _ | .removeSemaphore semId => ∀ which, semId.key ≠ semKey tieType which
  | .storeSemId shMem _ _ | .storeRefCounter shMem _ | .increaseRefCounter shMem
  | .decreaseRefCounter shMem | .shmdt shMem => ¬ Record.IsOf tieType shMem
  | .enterInit other | .leaveInit other _ | .enterDeinit other | .leaveDeinit other
  | .storeSharedMemId other _ | .storeShMem other _ => other ≠ tieType
  | .exit | .abort => False
  | _ => True

end Stage

structure Local where
  stage : Stage
  record : Record

def Local.after (tieType : TieType) (l : Local) (c : Call) (answer : c.Answer) : Local :=
  ⟨l.stage.after tieType c answer, l.record.after tieType c answer⟩

/-- `used` says whether the worker has to do with this tie at all. -/
def monitor (tieType : TieType) (used : Bool) : Monitor Call Call.Answer Local where
  allowed l c := (used = true ∧ l.stage.own tieType c) ∨
    (Stage.Foreign tieType c ∧ ∀ answer, l.after tieType c answer = l) ∨ c = .exit ∧ l.stage.Free
  possible l c answer := l.record.place ≠ .exited ∧ l.stage.possible tieType c answer
  after l c answer := l.after tieType c answer

def ownMonitor (tieType : TieType) : Monitor Call Call.Answer Local :=
  (monitor tieType true).allowing fun l => l.stage.own tieType

theorem sharedMemoryKey_ne {tieType other : TieType} (differs : other ≠ tieType) :
    sharedMemoryKey other ≠ sharedMemoryKey tieType := by
  cases tieType <;> cases other <;> first | exact absurd rfl differs | decide

theorem semKey_ne {tieType other : TieType} (differs : other ≠ tieType) (which which' : Which) :
    semKey other which ≠ semKey tieType which' := by
  cases tieType <;> cases other <;> first | exact absurd rfl differs | revert which which'; decide

@[simp] theorem segId_key {tieType : TieType} {g : Nat} : (segId tieType g).key = sharedMemoryKey tieType := rfl

@[simp] theorem semIdOf_key {tieType : TieType} {which : Which} {n : Nat} :
    (semIdOf tieType which n).key = semKey tieType which := rfl

@[simp] theorem isOf_none {tieType : TieType} : ¬ Record.IsOf tieType none := id

@[simp] theorem isOf_segId {tieType : TieType} {g : Nat} : Record.IsOf tieType (some (segId tieType g)) := rfl

theorem not_isOf_of_ne {tieType other : TieType} (differs : other ≠ tieType) {shMem : Pointer}
    (isOf : shMem = none ∨ ∃ g, shMem = some (segId other g)) : ¬ Record.IsOf tieType shMem := by
  rcases isOf with rfl | ⟨g, rfl⟩
  · exact isOf_none
  · exact sharedMemoryKey_ne differs

namespace Stage

variable {tieType other : TieType} {stage : Stage} {c : Call}

theorem makeSemaphore_building {g n : Nat} {made : Which → Option Nat} {stored : Which → Bool} {which : Which} :
    (building g made stored).makeSemaphore tieType (semKey tieType which) n =
      .building g (Function.update made which (some n)) stored := by
  simp only [makeSemaphore, building.injEq, true_and, and_true]
  funext other
  by_cases differs : other = which
  · rw [differs, if_pos rfl, Function.update_self]
  · rw [if_neg fun same => differs (semKey_injective same).symm, Function.update_of_ne differs]

theorem makeSemaphore_of_ne {key : Key} {n : Nat} (differs : ∀ which, key ≠ semKey tieType which) :
    stage.makeSemaphore tieType key n = stage := by
  cases stage with
  | building g made stored =>
    simp only [makeSemaphore, building.injEq, true_and, and_true]
    funext which
    exact if_neg (differs which)
  | _ => rfl

theorem foreign_of_own (differs : other ≠ tieType) (own : stage.own other c) :
    Foreign tieType c ∧ ∀ (l : Local) answer, l.after tieType c answer = l := by
  have memory := sharedMemoryKey_ne differs
  have pointer : ∀ {shMem : Pointer}, (shMem = none ∨ ∃ g, shMem = some (segId other g)) →
      ¬ Record.IsOf tieType shMem := not_isOf_of_ne differs
  have ofStage : ∀ {shMem : Pointer} {p : Nat → Prop}, (∃ g, shMem = some (segId other g) ∧ p g) →
      ¬ Record.IsOf tieType shMem := fun ⟨g, same, _⟩ => pointer (.inr ⟨g, same⟩)
  have orNone : ∀ {shMem : Pointer} {p : Nat → Prop}, (shMem = none ∨ ∃ g, shMem = some (segId other g) ∧ p g) →
      ¬ Record.IsOf tieType shMem := fun known => pointer (known.imp_right fun ⟨g, same, _⟩ => ⟨g, same⟩)
  cases c with
  | enterInit tie =>
    obtain ⟨rfl, -⟩ := own
    exact ⟨differs, fun l _ => by simp [Local.after, Stage.after, Record.after, differs]⟩
  | leaveInit tie status =>
    obtain rfl : tie = other := by cases status <;> exact own.1
    refine ⟨differs, fun l _ => ?_⟩
    cases status <;> simp [Local.after, Stage.after, Record.after, differs]
  | enterDeinit tie =>
    obtain rfl : tie = other := own
    exact ⟨differs, fun l _ => by simp [Local.after, Stage.after, Record.after, differs]⟩
  | leaveDeinit tie =>
    obtain ⟨rfl, -⟩ := own
    exact ⟨differs, fun l _ => by simp [Local.after, Stage.after, Record.after, differs]⟩
  | loadInfo tie => exact ⟨True.intro, fun _ _ => rfl⟩
  | storeSharedMemId tie segment =>
    obtain rfl : tie = other := by cases segment <;> exact own.1
    refine ⟨differs, fun l _ => ?_⟩
    cases segment <;> simp [Local.after, Stage.after, Record.after, differs]
  | storeShMem tie shMem =>
    obtain rfl : tie = other := by cases shMem <;> exact own.1
    refine ⟨differs, fun l _ => ?_⟩
    cases shMem <;> simp [Local.after, Stage.after, Record.after, differs]
  | shmget key flags =>
    obtain ⟨rfl, -⟩ := own
    refine ⟨memory, fun l answer => ?_⟩
    cases flags <;> cases answer <;> simp [Local.after, Stage.after, Record.after, memory]
  | shmat segment =>
    obtain ⟨g, rfl, -⟩ := own
    exact ⟨memory, fun _ _ => rfl⟩
  | storePin shMem index pin | storeReadIndex shMem index | storeWriteIndex shMem index =>
    exact ⟨True.intro, fun _ _ => rfl⟩
  | storeRefCounter shMem value =>
    have foreign := orNone own
    exact ⟨foreign, fun l _ => by simp [Local.after, Stage.after, Record.after, foreign]⟩
  | storeSemId shMem which semId =>
    have foreign := orNone own
    exact ⟨foreign, fun l _ => by simp [Local.after, Stage.after, Record.after, foreign]⟩
  | increaseRefCounter shMem =>
    have foreign := orNone own
    exact ⟨foreign, fun l _ => by simp [Local.after, Stage.after, Record.after, foreign]⟩
  | loadRefCounter shMem => exact ⟨True.intro, fun _ _ => rfl⟩
  | decreaseRefCounter shMem =>
    have foreign := ofStage own
    exact ⟨foreign, fun l _ => by simp [Local.after, Stage.after, Record.after, foreign]⟩
  | loadSemId shMem which =>
    obtain ⟨g, removed, same, -⟩ := own
    have foreign := pointer (.inr ⟨g, same⟩)
    exact ⟨True.intro, fun l _ => by simp [Local.after, Stage.after, Record.after, foreign]⟩
  | shmdt shMem =>
    have foreign := ofStage own
    exact ⟨foreign, fun l _ => by simp [Local.after, Stage.after, Record.after, foreign]⟩
  | semget key flags =>
    obtain ⟨-, g, made, which, -, rfl, -⟩ := own
    refine ⟨semKey_ne differs which, fun l answer => ?_⟩
    cases answer with
    | failed errno => rfl
    | ok semId =>
      simp only [Local.after, Stage.after, Record.after, makeSemaphore_of_ne fun which' => semKey_ne differs which which']
  | setval semId value =>
    obtain ⟨g, made, stored, which, n, -, rfl, -⟩ := own
    exact ⟨semKey_ne differs which, fun _ _ => rfl⟩
  | removeSemaphore semId =>
    obtain ⟨g, removed, which, n, -, rfl⟩ := own
    have foreign : ¬ ∃ which', (semIdOf other which n).key = semKey tieType which' :=
      fun ⟨which', same⟩ => semKey_ne differs which which' same
    refine ⟨semKey_ne differs which, fun l _ => ?_⟩
    simp only [Local.after, Stage.after, Record.after, foreign, if_false]
  | removeSegment segment =>
    obtain ⟨g, rfl, -⟩ := own
    exact ⟨memory, fun l _ => by simp [Local.after, Stage.after, Record.after, memory]⟩
  | _ => exact own.elim

end Stage

variable {tieType : TieType} {l : Local} {α : Type}

theorem obeys_own {c : Call} {f : c.Answer → WorkerProgram α} {post : α → Local → Prop}
    (own : l.stage.own tieType c)
    (rest : ∀ answer l', l.stage.possible tieType c answer → l'.stage = l.stage.after tieType c answer →
      (ownMonitor tieType).Obeys post (f answer) l') :
    (ownMonitor tieType).Obeys post (c.make >>= f) l :=
  Monitor.obeys_call own fun answer possible => rest answer _ possible.2 rfl

theorem obeys_faults {c : Call} {f : c.Answer → WorkerProgram α} {post : α → Local → Prop}
    (own : l.stage.own tieType c) (faults : ∀ answer, ¬ l.stage.possible tieType c answer) :
    (ownMonitor tieType).Obeys post (c.make >>= f) l :=
  obeys_own own fun answer _ possible => absurd possible (faults answer)

theorem deleteSemaphore_obeys {g : Nat} {removed : Which → Bool} {which : Which} (present : removed which = false)
    (here : l.stage = .removing g removed) :
    (ownMonitor tieType).Obeys (fun _ l' => l'.stage = .removing g (Function.update removed which true))
      (deleteSemaphore (some (segId tieType g)) which) l := by
  have own : l.stage.own tieType (.loadSemId (some (segId tieType g)) which) := ⟨g, removed, rfl, here, present⟩
  refine obeys_own own fun semId l₁ possible loaded => ?_
  obtain ⟨n, rfl⟩ := possible own
  replace loaded : l₁.stage = .deleting g removed which n := by
    simp [loaded, Stage.after, here, Stage.loadSemId, semIdOf]
  refine obeys_own ⟨g, removed, which, n, loaded, rfl⟩ fun answer l₂ _ deleted => ?_
  rw [loaded] at deleted
  exact deleted.trans (if_pos ⟨which, rfl⟩)

theorem deleteSemaphores_obeys {g : Nat} (here : l.stage = .removing g fun _ => false) :
    (ownMonitor tieType).Obeys (fun _ l' => ∃ removed, l'.stage = .removing g removed ∧ ∀ which, removed which = true)
      (deleteSemaphores (some (segId tieType g))) l := by
  refine Monitor.obeys_bind.mpr (Monitor.obeys_mono (fun _ l₁ here₁ => ?_) (deleteSemaphore_obeys rfl here))
  refine Monitor.obeys_bind.mpr (Monitor.obeys_mono (fun _ l₂ here₂ => ?_) (deleteSemaphore_obeys rfl here₁))
  refine Monitor.obeys_mono (fun _ l₃ here₃ => ⟨_, here₃, ?_⟩) (deleteSemaphore_obeys rfl here₂)
  intro which
  cases which <;> rfl

theorem detachSharedMemory_obeys {g : Nat} (here : l.stage = .leaving g) :
    (ownMonitor tieType).Obeys (fun _ l' => l'.stage = .left)
      (detachSharedMemory (segId tieType g) (some (segId tieType g))) l := by
  have own : l.stage.own tieType (.loadRefCounter (some (segId tieType g))) := ⟨g, rfl, here⟩
  refine obeys_own own fun (refCnt : Int) l₁ possible loaded => ?_
  have positive : 1 ≤ refCnt := possible own
  rw [if_neg (show ¬ refCnt < 0 by omega), releaseReference, if_pos (show refCnt > 0 by omega)]
  replace loaded : l₁.stage = .leaving g := loaded.trans here
  refine Monitor.obeys_bind.mpr (obeys_own ⟨g, rfl, loaded⟩ fun (value : Int) l₂ _ released => ?_)
  replace released : l₂.stage = if value = 0 then .removing g (fun _ => false) else .detaching g := by
    simp [released, Stage.after, loaded, Stage.release]
  by_cases last : value = 0
  · rw [if_pos last] at released
    simp only [last, decide_true]
    refine Monitor.obeys_bind.mpr (Monitor.obeys_mono ?_ (deleteSemaphores_obeys released))
    rintro _ l₃ ⟨removed, here₃, all⟩
    refine obeys_own ⟨g, rfl, .inr ⟨removed, here₃, all⟩⟩ fun _ l₄ _ unlinking => ?_
    replace unlinking : l₄.stage = .unlinking g := by simp [unlinking, Stage.after, here₃, Stage.detach]
    refine obeys_own ⟨g, rfl, unlinking⟩ fun _ l₅ _ left => ?_
    exact left.trans (if_pos rfl)
  · rw [if_neg last] at released
    simp only [last, decide_false]
    refine obeys_own ⟨g, rfl, .inl released⟩ fun _ l₃ _ left => ?_
    rw [released] at left
    exact left.trans (if_pos rfl)

theorem obeys_last {c : Call} {post : c.Answer → Local → Prop} (own : l.stage.own tieType c)
    (holds : ∀ answer l', l'.stage = l.stage.after tieType c answer → post answer l') :
    (ownMonitor tieType).Obeys post c.make l :=
  ⟨own, fun answer _ => holds answer _ rfl⟩

theorem deinitSharedMemoryInfo_obeys (here : l.stage.Settled) :
    (ownMonitor tieType).Obeys (fun _ l' => l'.stage.Free ∧ (l.stage.Free → l'.stage = l.stage))
      (deinitSharedMemoryInfo tieType) l := by
  refine obeys_own rfl fun _ l₁ _ same₁ => ?_
  refine obeys_own rfl fun info l₂ possible same₂ => ?_
  obtain ⟨sharedMemId, shMem⟩ := info
  replace same₁ : l₁.stage = l.stage.startLeaving := same₁.trans (if_pos rfl)
  replace same₂ : l₂.stage = l.stage.startLeaving := same₂.trans same₁
  have noReference : l₂.stage = l.stage → l.stage.Free →
      (ownMonitor tieType).Obeys (fun _ l' => l'.stage.Free ∧ (l.stage.Free → l'.stage = l.stage))
        (Call.leaveDeinit tieType).make l₂ := by
    intro same free
    rw [← same] at free
    refine obeys_last ⟨rfl, free⟩ fun _ l₃ (same₃ : l₃.stage = l₂.stage) => ?_
    rw [← same₃] at free
    exact ⟨free, fun _ => same₃.trans same⟩
  replace possible := possible rfl
  have withReference : ∀ {g : Nat}, l₂.stage = .leaving g → ¬ l.stage.Free →
      (ownMonitor tieType).Obeys (fun _ l' => l'.stage.Free ∧ (l.stage.Free → l'.stage = l.stage)) (do
        detachSharedMemory (segId tieType g) (some (segId tieType g))
        Call.make (.leaveDeinit tieType)) l₂ := by
    intro g leaving notFree
    refine Monitor.obeys_bind.mpr (Monitor.obeys_mono (fun _ l₃ left => ?_) (detachSharedMemory_obeys leaving))
    have free : l₃.stage.Free := by rw [left]; exact True.intro
    refine obeys_last ⟨rfl, free⟩ fun _ l₄ (same₄ : l₄.stage = l₃.stage) => ?_
    rw [← same₄] at free
    exact ⟨free, fun impossible => absurd impossible notFree⟩
  rw [same₁] at possible
  cases stage : l.stage with
  | outside | entering | found g named =>
    rw [stage] at possible same₂ noReference
    obtain rfl : shMem = none := possible
    cases sharedMemId <;> exact noReference same₂ True.intro
  | counted g | leaving g =>
    rw [stage] at possible same₂ withReference
    cases possible
    exact withReference same₂ id
  | _ => rw [stage] at here; exact here.elim

theorem initSemaphore_obeys {g : Nat} {made : Which → Option Nat} {which : Which} {initial : Nat}
    {newSems : NewSems} (absent : made which = none) (here : l.stage = .building g made fun _ => false) :
    (ownMonitor tieType).Obeys (fun result l' => result.2.size = newSems.size ∧ ∃ n,
        result.1 = some (semIdOf tieType which n) ∧
        l'.stage = .building g (Function.update made which (some n)) fun _ => false)
      (initSemaphore (semKey tieType which) initial newSems) l := by
  have own : l.stage.own tieType (.semget (semKey tieType which) .newSemaphore) :=
    ⟨rfl, g, made, which, here, rfl, absent⟩
  refine obeys_own own fun answer l₁ possible created => ?_
  obtain ⟨⟨key, n⟩, rfl, same⟩ := possible own
  obtain rfl : key = semKey tieType which := same
  replace created : l₁.stage = .building g (Function.update made which (some n)) fun _ => false := by
    rw [here] at created
    exact created.trans Stage.makeSemaphore_building
  have own' : l₁.stage.own tieType (.setval ⟨semKey tieType which, n⟩ initial) :=
    ⟨g, _, _, which, n, created, rfl, Function.update_self ..⟩
  refine obeys_own own' fun answer l₂ possible set => ?_
  obtain rfl : answer = .ok () := possible own'
  exact ⟨rfl, n, rfl, set.trans created⟩

theorem obeys_filling {c : Call} {f : c.Answer → WorkerProgram α} {post : α → Local → Prop} {g : Nat}
    (here : l.stage = .filling g) (own : l.stage.own tieType c)
    (same : ∀ answer, (Stage.filling g).after tieType c answer = .filling g)
    (rest : ∀ answer l', l'.stage = .filling g → (ownMonitor tieType).Obeys post (f answer) l') :
    (ownMonitor tieType).Obeys post (c.make >>= f) l :=
  obeys_own own fun answer l' _ after => rest answer l' (by rw [after, here, same])

theorem clear_obeys {g : Nat} (here : l.stage = .filling g) :
    (ownMonitor tieType).Obeys (fun _ l' => l'.stage = .filling g) (clear (some (segId tieType g))) l := by
  have pin : ∀ {stage : Stage} {index : Nat} {pin : Pin},
      stage.own tieType (.storePin (some (segId tieType g)) index pin) := .inr ⟨g, rfl⟩
  refine obeys_filling here pin (fun _ => rfl) fun _ l₁ here₁ => ?_
  refine obeys_filling here₁ pin (fun _ => rfl) fun _ l₂ here₂ => ?_
  refine obeys_filling here₂ pin (fun _ => rfl) fun _ l₃ here₃ => ?_
  refine obeys_filling here₃ pin (fun _ => rfl) fun _ l₄ here₄ => ?_
  refine obeys_filling here₄ (.inr ⟨g, rfl, .inl here₄⟩) (fun _ => ite_self _) fun _ l₅ here₅ => ?_
  refine obeys_filling here₅ (.inr ⟨g, rfl, .inl here₅⟩) (fun _ => ite_self _) fun _ l₆ here₆ => ?_
  refine obeys_filling here₆ (.inr ⟨g, rfl, .inl here₆⟩) (fun _ => ite_self _) fun _ l₇ here₇ => ?_
  refine obeys_filling here₇ (.inr ⟨g, rfl⟩) (fun _ => rfl) fun _ l₈ here₈ => ?_
  refine obeys_filling here₈ (.inr ⟨g, rfl⟩) (fun _ => rfl) fun _ l₉ here₉ => ?_
  refine obeys_last (.inr ⟨g, rfl, here₉, .inl rfl⟩) fun _ l' after => ?_
  rw [after, here₉]
  exact if_neg fun ⟨_, impossible⟩ => by cases impossible

theorem obeys_storeSemId {f : Unit → WorkerProgram α} {post : α → Local → Prop} {g n : Nat} {which : Which}
    {made : Which → Option Nat} {stored : Which → Bool} (here : l.stage = .building g made stored)
    (isMade : made which = some n)
    (rest : ∀ l', l'.stage = (if allStored (Function.update stored which true) then .counted g
        else .building g made (Function.update stored which true)) →
      (ownMonitor tieType).Obeys post (f ()) l') :
    (ownMonitor tieType).Obeys post
      (Call.make (.storeSemId (some (segId tieType g)) which (some (semIdOf tieType which n))) >>= f) l := by
  refine obeys_own (.inr ⟨g, rfl, .inr ⟨made, stored, n, here, isMade, rfl⟩⟩) fun _ l' _ after => rest l' ?_
  rw [after, here]
  exact if_pos rfl

theorem initSharedMemory_obeys {g : Nat} {newSems : NewSems} (here : l.stage = .filling g) :
    (ownMonitor tieType).Obeys (fun result l' => result.1 = .sharedMemoryInitSuccess ∧ l'.stage = .counted g)
      (initSharedMemory (some (segId tieType g)) (semKey tieType) newSems) l := by
  refine Monitor.obeys_bind.mpr (Monitor.obeys_mono (fun _ l₁ here₁ => ?_) (clear_obeys here))
  refine obeys_filling here₁ (.inr ⟨g, rfl, .inl here₁⟩) (fun _ => ite_self _) fun _ l₂ here₂ => ?_
  refine obeys_filling here₂ (.inr ⟨g, rfl, .inl here₂⟩) (fun _ => ite_self _) fun _ l₃ here₃ => ?_
  refine obeys_filling here₃ (.inr ⟨g, rfl, .inl here₃⟩) (fun _ => ite_self _) fun _ l₄ here₄ => ?_
  refine obeys_own (.inr ⟨g, rfl, here₄, .inr rfl⟩) fun _ l₅ _ started => ?_
  rw [here₄] at started
  replace started : l₅.stage = .building g (fun _ => none) fun _ => false := started.trans (if_pos ⟨rfl, rfl⟩)
  refine Monitor.obeys_bind.mpr (Monitor.obeys_mono ?_ (initSemaphore_obeys rfl started))
  rintro ⟨_, newSems₁⟩ l₆ ⟨-, access, rfl, here₆⟩
  refine Monitor.obeys_bind.mpr (Monitor.obeys_mono ?_ (initSemaphore_obeys rfl here₆))
  rintro ⟨_, newSems₂⟩ l₇ ⟨-, added, rfl, here₇⟩
  refine Monitor.obeys_bind.mpr (Monitor.obeys_mono ?_ (initSemaphore_obeys rfl here₇))
  rintro ⟨_, newSems₃⟩ l₈ ⟨-, free, rfl, here₈⟩
  refine obeys_storeSemId here₈ rfl fun l₉ here₉ => ?_
  refine obeys_storeSemId here₉ rfl fun l₁₀ here₁₀ => ?_
  exact obeys_storeSemId here₁₀ rfl fun l₁₁ here₁₁ => ⟨rfl, here₁₁⟩

theorem attachSharedMemory_obeys {g : Nat} {memoryAlreadyExists : Bool}
    (here : l.stage = if memoryAlreadyExists then .found g false else .created g false) :
    (ownMonitor tieType).Obeys (fun status l' => status = .sharedMemoryInitSuccess ∧ l'.stage = .counted g)
      (attachSharedMemory tieType (segId tieType g) memoryAlreadyExists) l := by
  refine obeys_own ⟨rfl, g, false, rfl, ?_⟩ fun _ l₁ _ named => ?_
  · cases memoryAlreadyExists
    · exact .inr here
    · exact .inl here
  replace named : l₁.stage = if memoryAlreadyExists then .found g true else .created g true := by
    rw [named, here]
    cases memoryAlreadyExists <;> exact if_pos rfl
  have either : l₁.stage = .found g true ∨ l₁.stage = .created g true := by
    cases memoryAlreadyExists
    · exact .inr named
    · exact .inl named
  refine obeys_own ⟨g, rfl, either⟩ fun shMem l₂ attached same => ?_
  replace same : l₂.stage = l₁.stage := same
  rw [← same] at either
  rcases attached with rfl | rfl
  · have unset : l₂.stage.own tieType (.storeShMem tieType none) := ⟨rfl, .inr ⟨g, true, either⟩⟩
    refine obeys_own unset fun _ l₃ _ _ => ?_
    cases memoryAlreadyExists
    · exact obeys_faults (.inl rfl) fun _ impossible => impossible rfl
    · exact obeys_faults (.inl rfl) fun _ impossible => impossible rfl
  · refine obeys_own ⟨rfl, g, rfl, either⟩ fun _ l₃ _ attached => ?_
    rw [same, named] at attached
    cases memoryAlreadyExists
    · replace attached : l₃.stage = .filling g := attached.trans (if_pos rfl)
      refine Monitor.obeys_bind.mpr (Monitor.obeys_mono ?_ (initSharedMemory_obeys attached))
      rintro ⟨_, newSems⟩ l₄ ⟨rfl, here₄⟩
      exact ⟨rfl, here₄⟩
    · replace attached : l₃.stage = .joined g := attached.trans (if_pos rfl)
      refine obeys_own (.inr ⟨g, rfl, attached⟩) fun _ l₄ _ joined => ?_
      rw [attached] at joined
      exact ⟨rfl, joined.trans (if_pos rfl)⟩

def Initialised (status : InitStatus) (stage : Stage) : Prop :=
  match status with
  | .sharedMemoryInitSuccess => ∃ g, stage = .counted g
  | .sharedMemoryInitFailure => stage = .entering

theorem initResourcesImpl_obeys (here : l.stage = .entering) :
    (ownMonitor tieType).Obeys (fun status l' => Initialised status l'.stage) (initResourcesImpl tieType) l := by
  refine obeys_own ⟨rfl, here⟩ fun answer l₁ possible after => ?_
  rw [here] at after
  cases answer with
  | ok segment =>
    have same := possible rfl segment rfl
    obtain ⟨key, g⟩ := segment
    obtain rfl : key = sharedMemoryKey tieType := same
    have created : l₁.stage = if false = true then .found g false else .created g false :=
      after.trans (if_pos rfl)
    refine Monitor.obeys_mono ?_ (attachSharedMemory_obeys created)
    rintro _ l₂ ⟨rfl, counted⟩
    exact ⟨g, counted⟩
  | failed errno =>
    dsimp only
    split
    · exact after
    · refine obeys_own ⟨rfl, after⟩ fun answer l₂ possible after' => ?_
      rw [after] at after'
      cases answer with
      | failed errno => exact after'
      | ok segment =>
        have same := possible rfl segment rfl
        obtain ⟨key, g⟩ := segment
        obtain rfl : key = sharedMemoryKey tieType := same
        have found : l₂.stage = if true = true then .found g false else .created g false :=
          after'.trans (if_pos rfl)
        refine Monitor.obeys_mono ?_ (attachSharedMemory_obeys found)
        rintro _ l₃ ⟨rfl, counted⟩
        exact ⟨g, counted⟩

theorem initSharedMemoryInfo_obeys (here : l.stage = .outside) :
    (ownMonitor tieType).Obeys (fun status l' => match status with
        | .sharedMemoryInitSuccess => ∃ g, l'.stage = .counted g
        | .sharedMemoryInitFailure => l'.stage = .outside)
      (initSharedMemoryInfo tieType) l := by
  refine obeys_own ⟨rfl, here⟩ fun _ l₁ _ entered => ?_
  replace entered : l₁.stage = .entering := entered.trans (if_pos rfl)
  refine obeys_own ⟨rfl, entered⟩ fun _ l₂ _ (same₂ : l₂.stage = l₁.stage) => ?_
  refine obeys_own ⟨rfl, .inl (same₂.trans entered)⟩ fun _ l₃ _ (same₃ : l₃.stage = l₂.stage) => ?_
  replace entered := (same₃.trans same₂).trans entered
  refine Monitor.obeys_bind.mpr (Monitor.obeys_mono ?_ (initResourcesImpl_obeys entered))
  rintro (_ | _) l₄ initialised
  · obtain ⟨g, counted⟩ := initialised
    exact obeys_own ⟨rfl, g, counted⟩ fun _ l₅ _ same₅ => ⟨g, same₅.trans counted⟩
  · replace initialised : l₄.stage = .entering := initialised
    have settled : l₄.stage.Settled := by rw [initialised]; exact True.intro
    refine Monitor.obeys_bind.mpr (Monitor.obeys_mono ?_ (deinitSharedMemoryInfo_obeys settled))
    rintro _ l₅ ⟨-, same₅⟩
    rw [initialised] at same₅
    have entering : l₅.stage = .entering := same₅ True.intro
    exact obeys_own ⟨rfl, entering⟩ fun _ l₆ _ left => left.trans (if_pos rfl)

end ArchCompSystems.OsIhw2.Mark8
