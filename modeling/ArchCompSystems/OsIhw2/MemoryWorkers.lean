import ArchCompSystems.OsIhw2.MemoryStages

namespace ArchCompSystems.OsIhw2.Mark8

open Library Library.Program

def WorkerKind.uses : WorkerKind → TieType → Bool
  | .first, .secondToThirdWorker | .third, .firstToSecondWorker => false
  | _, _ => true

def workerMonitor (kind : WorkerKind) : Monitor Call Call.Answer (TieType → Local) :=
  Monitor.product fun tieType => monitor tieType (kind.uses tieType)

def Handles (kind : WorkerKind) (m : TieType → Local) : Prop :=
  ∀ tieType, (m tieType).stage.Settled ∧ (kind.uses tieType = false → (m tieType).stage = .outside)

variable {kind : WorkerKind} {tieType : TieType} {m : TieType → Local} {α : Type}

theorem obeys_of_own {post : α → Local → Prop} {p : WorkerProgram α} (isUsed : kind.uses tieType = true)
    (obeys : (ownMonitor tieType).Obeys post p (m tieType)) :
    (workerMonitor kind).Obeys (fun value m' => post value (m' tieType) ∧ ∀ other, other ≠ tieType → m' other = m other)
      p m := by
  refine Monitor.obeys_product (fun l c own => .inl ⟨isUsed, own⟩) (fun other l c differs own l' => ?_) obeys
  obtain ⟨foreign, same⟩ := Stage.foreign_of_own differs.symm own
  exact ⟨.inr (.inl ⟨foreign, same l'⟩), same l'⟩

def Plain : Call → Prop
  | .semop _ _ | .loadPin _ _ | .storePin _ _ _ | .loadSemId _ _ | .loadReadIndex _ | .storeReadIndex _ _
  | .loadWriteIndex _ | .storeWriteIndex _ _ | .loadInfo _ | .rand | .goOn => True
  | _ => False

def Quiet (m : TieType → Local) : Prop :=
  ∀ tieType which semId, (m tieType).stage.loadSemId which semId = (m tieType).stage

theorem obeys_plain {c : Call} {f : c.Answer → WorkerProgram α} {post : α → (TieType → Local) → Prop}
    (quiet : Quiet m) (plain : Plain c)
    (rest : ∀ answer, (∀ tieType, (m tieType).stage.possible tieType c answer) →
      (workerMonitor kind).Obeys post (f answer) m) :
    (workerMonitor kind).Obeys post (c.make >>= f) m := by
  have same : ∀ tieType answer, (m tieType).after tieType c answer = m tieType := by
    intro tieType answer
    cases c with
    | loadSemId shMem which =>
      simp only [Local.after, Stage.after, Record.after, quiet tieType which answer, ite_self]
    | semop semId semOp | loadPin shMem index | storePin shMem index pin | loadReadIndex shMem
    | storeReadIndex shMem index | loadWriteIndex shMem | storeWriteIndex shMem index | loadInfo tie | rand | goOn =>
      rfl
    | _ => exact plain.elim
  have allowed : ∀ tieType, (monitor tieType (kind.uses tieType)).allowed (m tieType) c := by
    intro tieType
    refine .inr (.inl ⟨?_, same tieType⟩)
    cases c <;> first | exact True.intro | exact plain.elim
  refine Monitor.obeys_call allowed fun answer possible => ?_
  have unchanged : (workerMonitor kind).after m c answer = m := funext fun tieType => same tieType answer
  rw [unchanged]
  exact rest answer fun tieType => (possible tieType).2

theorem sendPin_obeys {shMem : Pointer} {pin : Pin} (quiet : Quiet m) :
    (workerMonitor kind).Obeys (fun ok m' => ok = true ∧ m' = m) (sendPin shMem pin) m := by
  refine obeys_plain quiet True.intro fun _ _ => obeys_plain quiet True.intro fun answer possible => ?_
  obtain rfl : answer = .ok () := possible .firstToSecondWorker
  refine obeys_plain quiet True.intro fun _ _ => obeys_plain quiet True.intro fun answer possible => ?_
  obtain rfl : answer = .ok () := possible .firstToSecondWorker
  refine obeys_plain quiet True.intro fun _ _ => obeys_plain quiet True.intro fun _ _ => ?_
  refine obeys_plain quiet True.intro fun _ _ => obeys_plain quiet True.intro fun _ _ => ?_
  refine obeys_plain quiet True.intro fun answer possible => ?_
  obtain rfl : answer = .ok () := possible .firstToSecondWorker
  refine obeys_plain quiet True.intro fun _ _ => obeys_plain quiet True.intro fun answer possible => ?_
  obtain rfl : answer = .ok () := possible .firstToSecondWorker
  exact ⟨rfl, rfl⟩

theorem waitForPin_obeys {shMem : Pointer} (quiet : Quiet m) :
    (workerMonitor kind).Obeys (fun pin m' => pin ≠ none ∧ m' = m) (waitForPin shMem) m := by
  refine obeys_plain quiet True.intro fun _ _ => obeys_plain quiet True.intro fun answer possible => ?_
  obtain rfl : answer = .ok () := possible .firstToSecondWorker
  refine obeys_plain quiet True.intro fun _ _ => obeys_plain quiet True.intro fun answer possible => ?_
  obtain rfl : answer = .ok () := possible .firstToSecondWorker
  refine obeys_plain quiet True.intro fun _ _ => obeys_plain quiet True.intro fun pin _ => ?_
  refine obeys_plain quiet True.intro fun _ _ => obeys_plain quiet True.intro fun _ _ => ?_
  refine obeys_plain quiet True.intro fun answer possible => ?_
  obtain rfl : answer = .ok () := possible .firstToSecondWorker
  refine obeys_plain quiet True.intro fun _ _ => obeys_plain quiet True.intro fun answer possible => ?_
  obtain rfl : answer = .ok () := possible .firstToSecondWorker
  exact ⟨by simp, rfl⟩

def GoesOn (kind : WorkerKind) (m : TieType → Local) (round : WorkerProgram (LoopFlow Unit Unit)) : Prop :=
  (workerMonitor kind).Obeys (fun flow m' => flow = .next () ∧ m' = m) round m

theorem runWorker_obeys {rounds : Nat} {round : Unit → WorkerProgram (LoopFlow Unit Unit)}
    (each : GoesOn kind m (round ())) : (workerMonitor kind).Obeys (fun _ _ => False)
      (loop .goOn rounds () round >>= fun _ => Call.make .exit) m := by
  refine Monitor.obeys_bind.mpr (Monitor.obeys_mono (fun _ _ (impossible : False) => impossible.elim) ?_)
  refine Monitor.obeys_loop (fun _ m' => m' = m) (fun m' tieType => .inr (.inl ⟨True.intro, fun answer => isEmptyElim answer⟩)) rfl ?_
  rintro _ _ rfl
  refine Monitor.obeys_mono ?_ each
  rintro _ m' ⟨rfl, same⟩
  exact same

theorem sending_goesOn {shMem : Pointer} {pin : Pin} (quiet : Quiet m) : GoesOn kind m
    (sendPin shMem pin >>= fun sent => if sent then return .next () else return .exit ()) := by
  refine Monitor.obeys_bind.mpr (Monitor.obeys_mono ?_ (sendPin_obeys quiet))
  rintro _ m' ⟨rfl, same⟩
  exact ⟨rfl, same⟩

theorem receiving_goesOn {shMem : Pointer} {rest : Option Pin → WorkerProgram (LoopFlow Unit Unit)} (quiet : Quiet m)
    (each : ∀ pin, GoesOn kind m (rest (some pin))) : GoesOn kind m (waitForPin shMem >>= rest) := by
  refine Monitor.obeys_bind.mpr (Monitor.obeys_mono ?_ (waitForPin_obeys quiet))
  rintro (_ | pin) m' ⟨received, rfl⟩
  · exact absurd rfl received
  · exact each pin

theorem runFirstWorker_obeys {rounds : Nat} {shMem : Pointer} (quiet : Quiet m) :
    (workerMonitor kind).Obeys (fun _ _ => False) (runFirstWorker rounds shMem) m := by
  refine runWorker_obeys (obeys_plain quiet True.intro fun pin _ => ?_)
  split
  · exact sending_goesOn quiet
  · exact ⟨rfl, rfl⟩

theorem runSecondWorker_obeys {rounds : Nat} {firstToSecondShMem secondToThirdShMem : Pointer} (quiet : Quiet m) :
    (workerMonitor kind).Obeys (fun _ _ => False) (runSecondWorker rounds firstToSecondShMem secondToThirdShMem) m :=
  runWorker_obeys (receiving_goesOn quiet fun _ => sending_goesOn quiet)

theorem runThirdWorker_obeys {rounds : Nat} {shMem : Pointer} (quiet : Quiet m) :
    (workerMonitor kind).Obeys (fun _ _ => False) (runThirdWorker rounds shMem) m :=
  runWorker_obeys (receiving_goesOn quiet fun _ => ⟨rfl, rfl⟩)

theorem exit_obeys (free : ∀ tieType, (m tieType).stage.Free) :
    (workerMonitor kind).Obeys (fun _ _ => True) (Call.make .exit) m :=
  ⟨fun tieType => .inr (.inr ⟨rfl, free tieType⟩), fun _ _ => True.intro⟩

theorem quiet_of_settled (settled : ∀ tieType, (m tieType).stage.Settled) : Quiet m := by
  intro tieType which semId
  have here := settled tieType
  cases stage : (m tieType).stage <;> rw [stage] at here <;> first | rfl | exact here.elim

theorem Stage.settled_of_counted {stage : Stage} (here : ∃ g, stage = .counted g) : stage.Settled := by
  obtain ⟨g, rfl⟩ := here
  exact True.intro

theorem Stage.settled_of_outside {stage : Stage} (here : stage = .outside) : stage.Settled := by
  subst here
  exact True.intro

theorem Stage.free_of_outside {stage : Stage} (here : stage = .outside) : stage.Free := by
  subst here
  exact True.intro

theorem forall_tie {p : TieType → Prop} (first : p .firstToSecondWorker) (second : p .secondToThirdWorker)
    (tieType : TieType) : p tieType := by
  cases tieType
  · exact first
  · exact second

theorem firstWorker_obeys {rounds : Nat} (start : ∀ tieType, (m tieType).stage = .outside) :
    (workerMonitor .first).Obeys (fun _ _ => True) (firstWorker rounds) m := by
  refine Monitor.obeys_bind.mpr (Monitor.obeys_mono ?_ (obeys_of_own rfl (initSharedMemoryInfo_obeys (start _))))
  rintro (_ | _) m₁ ⟨initialised, others⟩
  · have second : (m₁ .secondToThirdWorker).stage = .outside := by
      rw [others _ (by decide), start]
    have quiet : Quiet m₁ := quiet_of_settled
      (forall_tie (Stage.settled_of_counted initialised) (Stage.settled_of_outside second))
    refine obeys_plain quiet True.intro fun shMemInfo _ => ?_
    exact Monitor.obeys_bind.mpr (Monitor.obeys_mono (fun _ _ impossible => impossible.elim) (runFirstWorker_obeys quiet))
  · refine exit_obeys (forall_tie (Stage.free_of_outside initialised) (Stage.free_of_outside ?_))
    rw [others _ (by decide), start]

theorem thirdWorker_obeys {rounds : Nat} (start : ∀ tieType, (m tieType).stage = .outside) :
    (workerMonitor .third).Obeys (fun _ _ => True) (thirdWorker rounds) m := by
  refine Monitor.obeys_bind.mpr (Monitor.obeys_mono ?_ (obeys_of_own rfl (initSharedMemoryInfo_obeys (start _))))
  rintro (_ | _) m₁ ⟨initialised, others⟩
  · have first : (m₁ .firstToSecondWorker).stage = .outside := by
      rw [others _ (by decide), start]
    have quiet : Quiet m₁ := quiet_of_settled
      (forall_tie (Stage.settled_of_outside first) (Stage.settled_of_counted initialised))
    refine obeys_plain quiet True.intro fun shMemInfo _ => ?_
    exact Monitor.obeys_bind.mpr (Monitor.obeys_mono (fun _ _ impossible => impossible.elim) (runThirdWorker_obeys quiet))
  · refine exit_obeys (forall_tie (Stage.free_of_outside ?_) (Stage.free_of_outside initialised))
    rw [others _ (by decide), start]

theorem secondWorker_obeys {rounds : Nat} (start : ∀ tieType, (m tieType).stage = .outside) :
    (workerMonitor .second).Obeys (fun _ _ => True) (secondWorker rounds) m := by
  refine Monitor.obeys_bind.mpr (Monitor.obeys_mono ?_ (obeys_of_own rfl (initSharedMemoryInfo_obeys (start _))))
  rintro (_ | _) m₁ ⟨firstInitialised, others⟩
  · have outside : (m₁ .secondToThirdWorker).stage = .outside := by
      rw [others _ (by decide), start]
    refine Monitor.obeys_bind.mpr (Monitor.obeys_mono ?_ (obeys_of_own rfl (initSharedMemoryInfo_obeys outside)))
    rintro (_ | _) m₂ ⟨secondInitialised, others'⟩
    · have first : ∃ g, (m₂ .firstToSecondWorker).stage = .counted g := by
        rw [others' _ (by decide)]
        exact firstInitialised
      have quiet : Quiet m₂ := quiet_of_settled
        (forall_tie (Stage.settled_of_counted first) (Stage.settled_of_counted secondInitialised))
      refine obeys_plain quiet True.intro fun _ _ => obeys_plain quiet True.intro fun _ _ => ?_
      exact Monitor.obeys_bind.mpr (Monitor.obeys_mono (fun _ _ impossible => impossible.elim) (runSecondWorker_obeys quiet))
    · have settled : (m₂ .firstToSecondWorker).stage.Settled := by
        rw [others' _ (by decide)]
        exact Stage.settled_of_counted firstInitialised
      refine Monitor.obeys_bind.mpr (Monitor.obeys_mono ?_ (obeys_of_own rfl (deinitSharedMemoryInfo_obeys settled)))
      rintro _ m₃ ⟨⟨free, -⟩, others''⟩
      refine exit_obeys (forall_tie free (Stage.free_of_outside ?_))
      rw [others'' _ (by decide)]
      exact secondInitialised
  · refine exit_obeys (forall_tie (Stage.free_of_outside firstInitialised) (Stage.free_of_outside ?_))
    rw [others _ (by decide), start]

theorem main_obeys {rounds : Nat} (start : ∀ tieType, (m tieType).stage = .outside) :
    (workerMonitor kind).Obeys (fun _ _ => True) (kind.main rounds) m := by
  cases kind
  · exact firstWorker_obeys start
  · exact secondWorker_obeys start
  · exact thirdWorker_obeys start

theorem shutdownSignalHandler_obeys {signal : Signal} (handles : Handles kind m) :
    (workerMonitor kind).Obeys (fun _ _ => True) (kind.shutdownSignalHandler signal) m := by
  cases kind with
  | first =>
    refine Monitor.obeys_bind.mpr (Monitor.obeys_mono ?_
      (obeys_of_own rfl (deinitSharedMemoryInfo_obeys (handles .firstToSecondWorker).1)))
    rintro _ m₁ ⟨⟨free, -⟩, others⟩
    refine exit_obeys (forall_tie free (Stage.free_of_outside ?_))
    rw [others _ (by decide)]
    exact (handles .secondToThirdWorker).2 rfl
  | second =>
    refine Monitor.obeys_bind.mpr (Monitor.obeys_mono ?_
      (obeys_of_own rfl (deinitSharedMemoryInfo_obeys (handles .secondToThirdWorker).1)))
    rintro _ m₁ ⟨⟨free, -⟩, others⟩
    have settled : (m₁ .firstToSecondWorker).stage.Settled := by
      rw [others _ (by decide)]
      exact (handles .firstToSecondWorker).1
    refine Monitor.obeys_bind.mpr (Monitor.obeys_mono ?_ (obeys_of_own rfl (deinitSharedMemoryInfo_obeys settled)))
    rintro _ m₂ ⟨⟨free', -⟩, others'⟩
    refine exit_obeys (forall_tie free' ?_)
    rw [others' _ (by decide)]
    exact free
  | third =>
    refine Monitor.obeys_bind.mpr (Monitor.obeys_mono ?_
      (obeys_of_own rfl (deinitSharedMemoryInfo_obeys (handles .secondToThirdWorker).1)))
    rintro _ m₁ ⟨⟨free, -⟩, others⟩
    refine exit_obeys (forall_tie (Stage.free_of_outside ?_) free)
    rw [others _ (by decide)]
    exact (handles .firstToSecondWorker).2 rfl

theorem program_obeys {rounds : Nat} (start : ∀ tieType, (m tieType).stage = .outside) :
    ((workerMonitor kind).interruptible (Handles kind)).Obeys (fun _ _ => True) (kind.program rounds) m :=
  Monitor.obeys_withHandlers (fun _ _ => shutdownSignalHandler_obeys) (main_obeys start) 3 []

end ArchCompSystems.OsIhw2.Mark8
