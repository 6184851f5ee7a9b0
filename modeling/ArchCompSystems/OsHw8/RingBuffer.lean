import ArchCompSystems.OsHw8.Invariant

namespace ArchCompSystems.OsHw8

open Library Library.Program

section

variable {writers readers : Nat} {s s' : State} {ms : Process writers readers → Stage} {t : Process writers readers}

theorem RingInvariant.step (holds : RingInvariant s ms) {c : Call} {answer : c.Answer} (allowed : (ms t).allows c)
    (performed : perform c answer s = some s') : RingInvariant s' (Function.update ms t ((ms t).after c answer)) := by
  have reads : (ms t).reads = true → total .begun ms = 1 := holds.entrance t
  generalize there : ms t = stage at allowed reads ⊢
  unfold Stage.allows at allowed
  split at allowed
  case h_1 =>
    exact holds.waits there ⟨rfl, rfl, rfl, rfl, rfl, Nat.le_refl _, rfl, rfl, rfl⟩ rfl rfl (by rintro ⟨⟩) performed
  case h_2 =>
    exact holds.waits there ⟨rfl, rfl, rfl, rfl, rfl, Nat.le_refl _, rfl, rfl, rfl⟩ rfl rfl
      (fun _ => holds.begun_of_admin performed) performed
  case h_3 =>
    cases performed
    exact holds.initialises (.inl there) ⟨rfl, rfl⟩
  case h_4 =>
    cases performed
    exact holds.initialises (.inr there) (holds.zeroed t there)
  case h_5 => exact holds.opens there performed
  case h_6 =>
    exact holds.waits there ⟨rfl, rfl, rfl, rfl, rfl, Nat.le_refl _, rfl, rfl, rfl⟩ rfl rfl (by rintro ⟨⟩) performed
  case h_7 =>
    simp only [perform, Option.ite_none_right_eq_some, Option.some.injEq] at performed
    obtain ⟨rfl, rfl⟩ := performed
    refine holds.loadsIndex (by rw [there]; intro token; cases token <;> rfl) (by rw [there]; rfl) (by rintro ⟨⟩)
      (by rintro _ ⟨⟩) ?_
    rintro _ ⟨⟩
    rfl
  case h_8 =>
    obtain ⟨rfl, nonneg⟩ := allowed
    cases performed
    exact holds.storesCell there nonneg
  case h_9 =>
    subst allowed
    cases performed
    exact holds.storesWriteIndex there
  case h_10 =>
    exact holds.posts there ⟨rfl, rfl, rfl, rfl, rfl, Nat.le_refl _, rfl, rfl, rfl⟩ rfl (by rintro ⟨⟩) performed
  case h_11 =>
    exact holds.posts there ⟨rfl, rfl, rfl, rfl, rfl, Nat.le_refl _, rfl, rfl, rfl⟩ rfl reads performed
  case h_12 | h_13 =>
    exact holds.waits there ⟨rfl, rfl, rfl, rfl, rfl, Nat.le_refl _, rfl, rfl, rfl⟩ rfl rfl reads performed
  case h_14 =>
    simp only [perform, Option.ite_none_right_eq_some, Option.some.injEq] at performed
    obtain ⟨rfl, rfl⟩ := performed
    refine holds.loadsIndex (by rw [there]; intro token; cases token <;> rfl) (by rw [there]; rfl) (by rintro ⟨⟩)
      ?_ (by rintro _ ⟨⟩)
    rintro _ ⟨⟩
    rfl
  case h_15 =>
    subst allowed
    simp only [perform, Option.ite_none_right_eq_some, Option.some.injEq] at performed
    obtain ⟨rfl, rfl⟩ := performed
    exact holds.loadsCell there
  case h_16 =>
    subst allowed
    cases performed
    exact holds.clearsCell there
  case h_17 =>
    subst allowed
    cases performed
    exact holds.storesReadIndex there
  case h_18 =>
    exact holds.posts there ⟨rfl, rfl, rfl, rfl, rfl, Nat.zero_le _, rfl, rfl, rfl⟩ rfl reads performed
  case h_19 =>
    exact holds.posts there ⟨rfl, rfl, rfl, rfl, rfl, Nat.le_refl _, rfl, rfl, rfl⟩ rfl reads performed
  case h_20 =>
    obtain ⟨ring, same⟩ := plain_performed allowed performed
    rw [after_of_plain allowed, ← there, Function.update_eq_self]
    exact holds.plain ring same

theorem RingInvariant.possible (holds : RingInvariant s ms) {c : Call} {answer : c.Answer}
    (performed : perform c answer s = some s') : stages.possible (ms t) c answer := by
  cases c with
  | semGetvalue semaphore =>
    cases semaphore with
    | admin =>
      intro there
      simp only [perform, Option.ite_none_right_eq_some] at performed
      have begun : total .begun ms = 0 := by
        rw [holds.counts.of_writer (t := t) begun_le_works (by rw [there]; rfl), there]
        rfl
      have value : s.value .admin = answer := by rw [State.value, performed.1, Option.getD_some]
      have admin := holds.counts.admin
      have zero : s.value .admin = 0 := by omega
      exact value.symm.trans zero
    | _ => exact True.intro
  | _ => exact True.intro

theorem ringInvariant_start (memory : Memory) :
    RingInvariant ⟨fun _ => none, memory, [], []⟩ fun _ : Process writers readers => .outside := by
  have none : ∀ token, total token (fun _ : Process writers readers => .outside) = 0 := fun token =>
    held_eq_zero fun _ => by cases token <;> rfl
  refine ⟨⟨?_, ?_, ?_, ?_, ?_, ?_⟩, nofun, fun _ => ⟨rfl, rfl⟩, nofun, fun begun => ?_, fun begun => ?_, nofun, nofun,
    queued_nil rfl rfl, nofun⟩
  · rw [none]
    rfl
  · rw [none, none]
    rfl
  · rw [none, none]
    rfl
  · rw [none, none]
    rfl
  · rw [none]
    rfl
  · rw [none]
    exact Nat.zero_le _
  · rw [none] at begun
    cases begun
  · rw [none] at begun
    cases begun

end

theorem works_kept {stage : Stage} {c : Call} {answer : c.Answer} (works : stage.tokens .works = 1) :
    (stage.after c answer).tokens .works = 1 := by
  unfold Stage.after
  split <;> first | exact works | rfl

theorem works_of_storesCell {stage : Stage} {i : Nat} {number : Int} (allowed : stage.allows (.storeCell i number)) :
    stage.tokens .works = 1 := by
  cases stage <;> first | rfl | cases allowed

theorem works_run {stage : Stage} (works : stage.tokens .works = 1) (history : List (Event Call.Answer)) :
    (stages.run stage history).tokens .works = 1 := by
  induction history generalizing stage with
  | nil => exact works
  | cons event rest ih => exact ih (works_kept works)

/-- The writer has stored a number. -/
def HasWritten {writers readers : Nat} (pool : Pool (Process writers readers) Call Call.Answer State)
    (t : Process writers readers) : Prop := ∃ i number, ⟨.storeCell i number, ()⟩ ∈ pool.history t

theorem works_of_accepts {stage : Stage} {history : List (Event Call.Answer)} {i : Nat} {number : Int}
    (accepts : stages.Accepts stage history) (stored : ⟨.storeCell i number, ()⟩ ∈ history) :
    (stages.run stage history).tokens .works = 1 := by
  induction history generalizing stage with
  | nil => cases stored
  | cons event rest ih =>
    rcases List.mem_cons.mp stored with rfl | later
    · exact works_run (works_kept (works_of_storesCell accepts.1)) rest
    · exact ih accepts.2.2 later

/-- For any numbers of writers and readers and every order of their steps, the ring buffer is correct, and
    only one writer writes. -/
theorem ring_buffer_correct {writers readers rounds : Nat} {memory : Memory}
    {pool : Pool (Process writers readers) Call Call.Answer State} (reach : Reach writers readers rounds memory pool) :
    RingBufferCorrect pool.state ∧ ∀ t u, HasWritten pool t → HasWritten pool u → t = u := by
  have disciplined : pool.Disciplined (fun _ => stages) (fun _ => .outside) (fun _ _ => True) RingInvariant := by
    refine Pool.Reach.disciplined ?_ ?_ ⟨fun _ => ?_, processProgram_obeys rounds, ?_⟩ reach
    · intro pool t c answer s holds _ allowed performed
      exact ⟨holds.possible performed, holds.step allowed performed⟩
    · intro pool t c s _ _ taken
      cases taken
    · exact True.intro
    · exact ringInvariant_start memory
  refine ⟨disciplined.agrees.correct, ?_⟩
  rintro t u ⟨_, _, stored⟩ ⟨_, _, storedToo⟩
  by_contra differ
  have first := works_of_accepts (disciplined.accepts t) stored
  have second := works_of_accepts (disciplined.accepts u) storedToo
  have idle := disciplined.agrees.counts.othersIdle second differ
  exact absurd (first.symm.trans idle) nofun

/-- What a process is answered; every random number is 7. -/
def replies (call : Call) (s : State) : Option call.Answer :=
  match call with
  | .semGetvalue semaphore => s.semaphores semaphore
  | .loadReaders => some s.memory.sizeOfReaderPids
  | .loadWriteIndex => some s.memory.writeIndex
  | .loadReadIndex => some s.memory.readIndex
  | .rand => some 7
  | .loadCell i => some (s.memory.store i)
  | .goesOn => none
  | .semOpen _ | .semWait _ | .semPost _ | .openMemory | .memset | .storeReaders _ | .storeWriteIndex _
  | .storeCell _ _ | .storeReadIndex _ | .clearCell _ | .printProduced _ _ | .printConsumed _ _ _ | .sleep => some ()

/-- Of two writers one writes the number 7, and a reader that was there before obtains it. -/
theorem seven_is_obtained : ∃ pool, Reach 2 1 1 .zero pool ∧ pool.state.obtained = [7] ∧ RingBufferCorrect pool.state := by
  obtain ⟨pool, reach, obtained⟩ := @Pool.exists_reach_of_replay (Process 2 1) _ _ _ _ (machine 2 1) (fun _ _ => True)
    (start 2 1 1 .zero) (fun _ _ => true)
    [.go (.inr 0) 5 replies, .go (.inl 0) 12 replies, .go (.inl 1) 11 replies, .go (.inl 0) 13 replies,
      .go (.inr 0) 9 replies, .go (.inl 0) 8 replies, .go (.inr 0) 10 replies]
    (fun pool => decide (pool.state.obtained = [7])) (fun _ _ _ => True.intro) (by decide +kernel)
  exact ⟨pool, reach, of_decide_eq_true obtained, (ring_buffer_correct reach).1⟩

end ArchCompSystems.OsHw8
