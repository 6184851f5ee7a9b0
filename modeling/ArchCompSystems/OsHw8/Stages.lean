import ArchCompSystems.OsHw8.Program

namespace ArchCompSystems.OsHw8

open Library Library.Program

/-- How far a process has come: a writer since it took `first_writer`, and a reader since it took
    `admin`. The positions are indices that it has loaded. -/
inductive Stage where
  | outside
  | initialising
  | zeroed
  | ready
  | hasSlot
  | writeIndexed (i : Nat)
  | wrote (i : Nat)
  | writeAdvanced
  | holdsAdmin
  | started
  | hasElement
  | locked
  | readIndexed (i : Nat)
  | took (i : Nat)
  | cleared (i : Nat)
  | readAdvanced
  | released

def Call.isPlain : Call → Bool
  | .semWait .writeMutex | .semPost .writeMutex | .semWait .writer | .semPost .writer | .semWait .reader
  | .semPost .reader => true
  | .semWait _ | .semPost _ | .memset | .loadWriteIndex | .storeWriteIndex _ | .storeCell _ _ | .loadReadIndex
  | .storeReadIndex _ | .loadCell _ | .clearCell _ => false
  | _ => true

namespace Stage

def allows : Stage → Call → Prop
  | .outside, .semWait .firstWriter | .outside, .semWait .admin => True
  | .initialising, .memset => True
  | .zeroed, .clearCell _ => True
  | .zeroed, .semPost .admin => True
  | .ready, .semWait .empty => True
  | .hasSlot, .loadWriteIndex => True
  | .writeIndexed i, .storeCell j number => j = i ∧ 0 ≤ number
  | .wrote i, .storeWriteIndex index => index = (i + 1) % bufSize
  | .writeAdvanced, .semPost .full => True
  | .holdsAdmin, .semPost .admin => True
  | .started, .semWait .full => True
  | .hasElement, .semWait .readMutex => True
  | .locked, .loadReadIndex => True
  | .readIndexed i, .loadCell j => j = i
  | .took i, .clearCell j => j = i
  | .cleared i, .storeReadIndex index => index = (i + 1) % bufSize
  | .readAdvanced, .semPost .empty => True
  | .released, .semPost .readMutex => True
  | _, c => c.isPlain = true

def after (stage : Stage) (c : Call) (answer : c.Answer) : Stage :=
  match stage, c, answer with
  | .outside, .semWait .firstWriter, _ => .initialising
  | .outside, .semWait .admin, _ => .holdsAdmin
  | .initialising, .memset, _ => .zeroed
  | .zeroed, .semPost .admin, _ => .ready
  | .ready, .semWait .empty, _ => .hasSlot
  | .hasSlot, .loadWriteIndex, i => .writeIndexed i
  | .writeIndexed i, .storeCell _ _, _ => .wrote i
  | .wrote _, .storeWriteIndex _, _ => .writeAdvanced
  | .writeAdvanced, .semPost .full, _ => .ready
  | .holdsAdmin, .semPost .admin, _ => .started
  | .started, .semWait .full, _ => .hasElement
  | .hasElement, .semWait .readMutex, _ => .locked
  | .locked, .loadReadIndex, i => .readIndexed i
  | .readIndexed i, .loadCell _, _ => .took i
  | .took i, .clearCell _, _ => .cleared i
  | .cleared _, .storeReadIndex _, _ => .readAdvanced
  | .readAdvanced, .semPost .empty, _ => .released
  | .released, .semPost .readMutex, _ => .started
  | stage, _, _ => stage

end Stage

/-- The writer that has initialised the buffer finds `admin` at 0. -/
def stages : Monitor Call Call.Answer Stage where
  allowed := Stage.allows
  possible stage c answer := match c, answer with
    | .semGetvalue .admin, value => stage = .zeroed → value = 0
    | _, _ => True
  after := Stage.after

section

variable {stage : Stage}

theorem allows_of_plain {c : Call} (plain : c.isPlain = true) : stage.allows c := by
  unfold Stage.allows
  split <;> first | exact True.intro | exact plain | cases plain

theorem after_of_plain {c : Call} {answer : c.Answer} (plain : c.isPlain = true) : stage.after c answer = stage := by
  unfold Stage.after
  split <;> first | rfl | cases plain

theorem obeys_plain {α : Type} {p : HwProgram α} (calls : p.Calls fun c => c.isPlain = true) :
    stages.Obeys (fun _ after => after = stage) p stage :=
  Monitor.obeys_of_calls (fun _ plain => ⟨allows_of_plain plain, fun _ => after_of_plain plain⟩) calls

theorem init_calls : init.Calls fun c => c.isPlain = true :=
  ⟨rfl, fun _ => ⟨rfl, fun _ => ⟨rfl, fun _ => ⟨rfl, fun _ => ⟨rfl, fun _ => True.intro⟩⟩⟩⟩⟩

theorem admitReader_calls : admitReader.Calls fun c => c.isPlain = true := by
  refine calls_bind ⟨rfl, fun _ => True.intro⟩ fun _ => calls_bind ⟨rfl, fun _ => True.intro⟩ fun _ => ?_
  refine calls_bind ⟨rfl, fun _ => True.intro⟩ fun count => ?_
  by_cases full : count ≥ maxReaders
  · rw [if_pos full]
    exact ⟨rfl, fun _ => True.intro⟩
  · rw [if_neg full]
    exact ⟨rfl, fun _ => ⟨rfl, fun _ => ⟨rfl, fun _ => True.intro⟩⟩⟩

theorem obeys_forever {round : HwProgram Unit} (rounds : Nat) (each : stages.Obeys (fun _ after => after = stage) round stage) :
    stages.Obeys (fun _ _ => True) (forever rounds round) stage := by
  refine Monitor.obeys_loop (fun _ after => after = stage) (fun _ => allows_of_plain rfl) rfl ?_
  rintro _ _ rfl
  refine Monitor.obeys_bind.mpr (Monitor.obeys_mono ?_ each)
  rintro _ _ rfl
  exact rfl

theorem writeRound_obeys : stages.Obeys (fun _ after => after = .ready) writeRound .ready := by
  refine Monitor.obeys_call True.intro fun _ _ => Monitor.obeys_call rfl fun _ _ => ?_
  refine Monitor.obeys_call True.intro fun i _ => Monitor.obeys_call rfl fun n _ => ?_
  refine Monitor.obeys_call ⟨rfl, Int.natCast_nonneg _⟩ fun _ _ => Monitor.obeys_call rfl fun _ _ => ?_
  refine Monitor.obeys_call True.intro fun _ _ => Monitor.obeys_call rfl fun _ _ => ?_
  exact Monitor.obeys_call rfl fun _ _ => ⟨rfl, fun _ _ => rfl⟩

theorem readRound_obeys : stages.Obeys (fun _ after => after = .started) readRound .started := by
  refine Monitor.obeys_call rfl fun _ _ => Monitor.obeys_call True.intro fun _ _ => ?_
  refine Monitor.obeys_call True.intro fun _ _ => Monitor.obeys_call True.intro fun i _ => ?_
  refine Monitor.obeys_call rfl fun result _ => Monitor.obeys_call rfl fun _ _ => ?_
  refine Monitor.obeys_call rfl fun _ _ => Monitor.obeys_call True.intro fun _ _ => ?_
  exact Monitor.obeys_call rfl fun _ _ => ⟨True.intro, fun _ _ => rfl⟩

theorem admitWriter_obeys : stages.Obeys (fun admitted after => admitted = true → after = .initialising) admitWriter .outside := by
  refine Monitor.obeys_call rfl fun _ _ => Monitor.obeys_call rfl fun _ _ => ?_
  refine Monitor.obeys_call rfl fun _ _ => Monitor.obeys_call rfl fun writerNumber _ => ?_
  by_cases lost : writerNumber = 0
  · rw [if_pos lost]
    exact ⟨rfl, fun _ _ => nofun⟩
  · rw [if_neg lost]
    exact ⟨True.intro, fun _ _ => ⟨rfl, fun _ _ _ => rfl⟩⟩

theorem initBuffer_obeys : stages.Obeys (fun _ after => after = .ready) initBuffer .initialising := by
  refine Monitor.obeys_call True.intro fun _ _ => Monitor.obeys_bind.mpr ?_
  refine Monitor.obeys_mono ?_ (@Monitor.obeys_forFrom_within _ _ _ _ _ stages _ _ (fun _ _ after => after = .zeroed)
    (fun _ _ => False) bufSize 0 () ?_ rfl)
  · rintro flow after kept
    cases flow with
    | exit result => exact result.elim
    | next carried =>
      cases kept
      refine Monitor.obeys_call rfl fun isWriters possible => ?_
      cases possible rfl
      exact ⟨True.intro, fun _ _ => rfl⟩
  · rintro i _ _ - - rfl
    exact ⟨True.intro, fun _ _ => rfl⟩

theorem writer_obeys (rounds : Nat) : stages.Obeys (fun _ _ => True) (writer rounds) .outside := by
  refine Monitor.obeys_bind.mpr (Monitor.obeys_mono ?_ (obeys_plain init_calls))
  rintro _ _ rfl
  refine Monitor.obeys_call rfl fun _ _ => Monitor.obeys_bind.mpr (Monitor.obeys_mono ?_ admitWriter_obeys)
  rintro admitted after enters
  cases admitted with
  | false => exact True.intro
  | true =>
    cases enters rfl
    refine Monitor.obeys_bind.mpr (Monitor.obeys_mono ?_ initBuffer_obeys)
    rintro _ _ rfl
    exact obeys_forever rounds writeRound_obeys

theorem reader_obeys (rounds : Nat) : stages.Obeys (fun _ _ => True) (reader rounds) .outside := by
  refine Monitor.obeys_bind.mpr (Monitor.obeys_mono ?_ (obeys_plain init_calls))
  rintro _ _ rfl
  refine Monitor.obeys_call True.intro fun _ _ => Monitor.obeys_call True.intro fun _ _ => ?_
  refine Monitor.obeys_call rfl fun _ _ => Monitor.obeys_bind.mpr (Monitor.obeys_mono ?_ (obeys_plain admitReader_calls))
  rintro admitted _ rfl
  cases admitted with
  | false => exact True.intro
  | true => exact obeys_forever rounds readRound_obeys

theorem processProgram_obeys {writers readers : Nat} (rounds : Nat) (t : Process writers readers) :
    stages.Obeys (fun _ _ => True) (processProgram rounds t) .outside := by
  cases t with
  | inl i => exact writer_obeys rounds
  | inr i => exact reader_obeys rounds

end

end ArchCompSystems.OsHw8
