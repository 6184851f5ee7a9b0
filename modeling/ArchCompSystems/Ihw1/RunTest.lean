import ArchCompSystems.Ihw1.ArrayEquals

namespace ArchCompSystems.Ihw1

open Library Library.RiscV Library.RiscV.Instr

/-- What the console is told to show: the string at an address, or a number. -/
inductive Output where
  | text (address : Word)
  | number (value : Word)
  deriving DecidableEq

/-- The two services that `run_test` uses. -/
def systemCall (s : State (List Output)) : Option (Service (List Output)) :=
  match (s.get .a7).toNat with
  | 4 => some ⟨[], 0, [], s.world ++ [.text (s.get .a0)]⟩
  | 1 => some ⟨[], 0, [], s.world ++ [.number (s.get .a0)]⟩
  | _ => none

def simulator {L : Type} (address : L → Word) (labelAt : Word → Option L) (data : DataLabel → Word) :
    Platform L DataLabel (List Output) := ⟨address, labelAt, data, systemCall⟩

/-- The report of a test that is counted as passed. -/
def passedReport (data : DataLabel → Word) (testNumber : Word) : List Output :=
  [.text (data (.literal "Test ")), .number testNumber, .text (data (.literal " passed.\n"))]

def notPassedReport (data : DataLabel → Word) (testNumber : Word) : List Output :=
  [.text (data (.literal "Test ")), .number testNumber, .text (data (.literal " not")),
    .text (data (.literal " passed.\n"))]

section

variable {address : Label → Word} {labelAt : Word → Option Label} {data : DataLabel → Word} {access : Access}
  {rest : List Line} {s s' : State (List Output)} {post : Next Label → State (List Output) → Prop}
  {goal : Place Label → State (List Output) → Prop} {text : String} {reg : Reg} {test : Fin 5} {xs ys : List Word}

theorem wp_puts (ends : ∀ s', SameBut [.a7, .a0] s s' → s'.mem = s.mem →
      s'.world = s.world ++ [.text (data (.literal text))] → wp (simulator address labelAt data) access rest s' post) :
    wp (simulator address labelAt data) access (puts text ++ rest) s post :=
  wp_li (wp_la (wp_ecall_quiet rfl (ends _ ((SameBut.refl.set (by decide)).set (by decide)) rfl rfl)))

theorem wp_printInt (different : reg ≠ .a7) (ends : ∀ s', SameBut [.a7, .a0] s s' → s'.mem = s.mem →
      s'.world = s.world ++ [.number (s.get reg)] → wp (simulator address labelAt data) access rest s' post) :
    wp (simulator address labelAt data) access (printInt reg ++ rest) s post := by
  refine wp_li (wp_mv ?_)
  rw [get_set_of_ne different]
  exact wp_ecall_quiet rfl (ends _ ((SameBut.refl.set (by decide)).set (by decide)) rfl rfl)

/-- `heap_sort` has returned: the array is `xs`, the expected one `ys`, and the two words above the stack pointer are
the registers that `run_test` saved. -/
structure RunTestCall (data : DataLabel → Word) (access : Access) (test : Fin 5) (xs ys : List Word)
    (s : State (List Output)) : Prop where
  arrays : ArrayEqualsCall access xs ys (s.set .t0 (data (.correctArrBegin test)))
  saved : access.loads (s.get .sp) 8 = true

theorem RunTestCall.aligned (call : RunTestCall data access test xs ys s) : isAligned (s.get .sp) = true :=
  call.arrays.aligned

theorem afterHeapSort_ends {C : Code Label DataLabel} {after : Label}
    (block : C.block (.runTest test .afterHeapSort) = [.la .t0 (.correctArrBegin test)])
    (next : C.next (.runTest test .afterHeapSort) = some (.runTest test (.arrayEquals .arrayEquals)))
    (expands : Expands C (fun l => .runTest test (.arrayEquals l)) after) (call : RunTestCall data access test xs ys s)
    (done : ∀ s', s'.get .t1 = comparison xs ys → s'.get .sp = s.get .sp → s'.get .s3 = s.get .s3 → s'.world = s.world →
      Eventually (simulator address labelAt data) access C goal (.label after) s') :
    Eventually (simulator address labelAt data) access C goal (.label (.runTest test .afterHeapSort)) s := by
  refine eventually_block ?_
  rw [block]
  refine wp_la (wp_nil ⟨_, next, ?_⟩)
  refine arrayEquals_ends expands call.arrays fun s' compared => done s' compared.t1 ?_ ?_ compared.world
  · exact compared.kept .sp (by decide)
  · exact compared.kept .s3 (by decide)

def report (data : DataLabel → Word) (testNumber result : Word) : List Output :=
  if result = 0 then notPassedReport data testNumber else passedReport data testNumber

theorem testPassed_ends (loads : access.loads (s.get .sp) 8 = true) (aligned : isAligned (s.get .sp) = true)
    (done : ∀ s', s'.world = s.world ++ [.text (data (.literal " passed.\n"))] →
      Eventually (simulator address labelAt data) access (program.upTo (.runTest test .afterRunTest)) goal
        (.label (.runTest test .afterRunTest)) s') :
    Eventually (simulator address labelAt data) access (program.upTo (.runTest test .afterRunTest)) goal
      (.label (.runTest test .testPassed)) s := by
  have low : access.loads (s.get .sp) 4 = true := by
    have part : access.loads (offset (s.get .sp) 0) 4 = true := Access.loads_part loads (by decide)
    rwa [offset_zero] at part
  have high : access.loads (s.get .sp + 4) 4 = true := Access.loads_part (i := 4) loads (by decide)
  have aligned' : isAligned (s.get .sp + 4) = true := (isAligned_offset (i := 4) (by decide)).trans aligned
  refine eventually_block ?_
  rw [block_upTo_of_ne (by simp)]
  refine wp_puts fun s' same mem world => ?_
  have sp : s'.get .sp = s.get .sp := same .sp (by decide)
  refine wp_addi (wp_lw ?_ ?_ (wp_addi (wp_lw ?_ ?_ (wp_addi (wp_nil ⟨.runTest test .afterRunTest, ?_, done _ world⟩)))))
  · simpa [sp] using low
  · simpa [sp] using aligned
  · simpa [sp] using high
  · simpa [sp] using aligned'
  · rw [next_upTo_of_ne (by simp)]
    rfl

theorem afterArrayEquals_ends (loads : access.loads (s.get .sp) 8 = true) (aligned : isAligned (s.get .sp) = true)
    (done : ∀ s', s'.world = s.world ++ report data (s.get .s3) (s.get .t1) →
      Eventually (simulator address labelAt data) access (program.upTo (.runTest test .afterRunTest)) goal
        (.label (.runTest test .afterRunTest)) s') :
    Eventually (simulator address labelAt data) access (program.upTo (.runTest test .afterRunTest)) goal
      (.label (.runTest test .afterArrayEquals)) s := by
  refine eventually_block ?_
  rw [block_upTo_of_ne (by simp)]
  have code : program.block (.runTest test .afterArrayEquals) = mv .s1 .t1 :: (puts "Test " ++ (printInt .s3 ++
      (bnez .s1 (.runTest test .testPassed) :: (puts " not" ++ [])))) := rfl
  rw [code]
  refine wp_mv (wp_puts fun s₁ same₁ _ world₁ => wp_printInt (by decide) fun s₂ same₂ _ world₂ => ?_)
  have s1 : s₂.get .s1 = s.get .t1 := by
    rw [same₂ .s1 (by decide), same₁ .s1 (by decide), get_set_self (by decide)]
  have s3 : s₁.get .s3 = s.get .s3 := by
    rw [same₁ .s3 (by decide), get_set_of_ne (by decide)]
  have sp : s₂.get .sp = s.get .sp := by
    rw [same₂ .sp (by decide), same₁ .sp (by decide), get_set_of_ne (by decide)]
  rw [s3, world₁, world_set, List.append_assoc] at world₂
  refine wp_bnez (fun passed => ?_) fun failed => ?_
  · refine testPassed_ends (sp ▸ loads) (sp ▸ aligned) fun s' world => done s' ?_
    rw [s1] at passed
    rw [world, world₂, report, if_neg passed, List.append_assoc]
    rfl
  · refine wp_puts fun s₃ same₃ _ world₃ => wp_nil ⟨.runTest test .testPassed, ?_, ?_⟩
    · rw [next_upTo_of_ne (by simp)]
      rfl
    · rw [← sp, ← same₃ .sp (by decide)] at loads aligned
      refine testPassed_ends loads aligned fun s' world => done s' ?_
      rw [s1] at failed
      rw [world, world₃, world₂, report, if_pos failed, List.append_assoc, List.append_assoc]
      rfl

theorem comparison_iff : comparison xs ys = (if xs = ys then 1 else 0) ↔ xs ≠ ys ∨ xs = [] ∨ xs.getLast? = some 1 := by
  by_cases same : xs = ys
  · subst same
    rw [comparison, if_pos rfl, if_pos rfl, or_iff_right (not_not.mpr rfl)]
    rcases xs.eq_nil_or_concat with rfl | ⟨front, last, rfl⟩
    · simp
    · simp
  · rw [comparison, if_neg same, if_neg same]
    exact iff_of_true rfl (Or.inl same)

theorem report_iff {testNumber : Word} : (report data testNumber (comparison xs ys) = passedReport data testNumber ↔ xs = ys) ↔
    xs ≠ ys ∨ xs = [] ∨ xs.getLast? ≠ some 0 := by
  have passes : ∀ result, report data testNumber result = passedReport data testNumber ↔ result ≠ 0 := by
    intro result
    by_cases zero : result = 0
    · simp [report, zero, passedReport, notPassedReport]
    · rw [report, if_neg zero]
      exact iff_of_true rfl zero
  rw [passes]
  by_cases same : xs = ys
  · subst same
    rw [comparison, if_pos rfl, or_iff_right (not_not.mpr rfl)]
    rcases xs.eq_nil_or_concat with rfl | ⟨front, last, rfl⟩
    · simp
    · simp
  · rw [comparison, if_neg same]
    exact iff_of_true (iff_of_false (not_not.mpr rfl) same) (Or.inl same)

theorem expands_upTo {stop : RunTestLabel} (other : ∀ l, RunTestLabel.arrayEquals l ≠ stop) :
    Expands (program.upTo (.runTest test stop)) (fun l => .runTest test (.arrayEquals l)) (.runTest test .afterArrayEquals) := by
  refine ⟨fun l => ?_, fun l => ?_⟩
  · rw [block_upTo_of_ne (by simpa using other l)]
    rfl
  · rw [next_upTo_of_ne (by simpa using other l)]
    cases l <;> rfl

theorem arrayEquals_leaves (address : Label → Word) (labelAt : Word → Option Label)
    (call : RunTestCall data access test xs ys s) :
    Eventually (simulator address labelAt data) access (program.upTo (.runTest test .afterArrayEquals))
      (fun place s' => place = .label (.runTest test .afterArrayEquals) ∧ s'.get .t1 = comparison xs ys)
      (.label (.runTest test .afterHeapSort)) s := by
  refine afterHeapSort_ends ?_ ?_ (expands_upTo fun l => by simp) call fun s' t1 _ _ _ => .here ⟨rfl, t1⟩
  · rw [block_upTo_of_ne (by simp)]
    rfl
  · rw [next_upTo_of_ne (by simp)]
    rfl

theorem runTest_reports (address : Label → Word) (labelAt : Word → Option Label)
    (call : RunTestCall data access test xs ys s) :
    Eventually (simulator address labelAt data) access (program.upTo (.runTest test .afterRunTest))
      (fun place s' => place = .label (.runTest test .afterRunTest) ∧
        s'.world = s.world ++ report data (s.get .s3) (comparison xs ys))
      (.label (.runTest test .afterHeapSort)) s := by
  refine afterHeapSort_ends ?_ ?_ (expands_upTo fun l => by simp) call fun s' t1 sp s3 world => ?_
  · rw [block_upTo_of_ne (by simp)]
    rfl
  · rw [next_upTo_of_ne (by simp)]
    rfl
  · refine afterArrayEquals_ends (sp ▸ call.saved) (sp ▸ call.aligned) fun s'' world' => .here ⟨rfl, ?_⟩
    rw [world', t1, s3, world]

/-- The register of the result tells equality of the arrays exactly when they differ, are empty or end in 1, and the
report of the test does exactly when they differ, are empty or do not end in 0. -/
theorem arrayEquals_exact (address : Label → Word) (labelAt : Word → Option Label)
    (call : RunTestCall data access test xs ys s) :
    (Eventually (simulator address labelAt data) access (program.upTo (.runTest test .afterArrayEquals))
        (fun place s' => place = .label (.runTest test .afterArrayEquals) ∧ s'.get .t1 = if xs = ys then 1 else 0)
        (.label (.runTest test .afterHeapSort)) s ↔ xs ≠ ys ∨ xs = [] ∨ xs.getLast? = some 1) ∧
      (Eventually (simulator address labelAt data) access (program.upTo (.runTest test .afterRunTest))
        (fun place s' => place = .label (.runTest test .afterRunTest) ∧
          (s'.world = s.world ++ passedReport data (s.get .s3) ↔ xs = ys))
        (.label (.runTest test .afterHeapSort)) s ↔ xs ≠ ys ∨ xs = [] ∨ xs.getLast? ≠ some 0) := by
  have leaves := arrayEquals_leaves address labelAt call
  have reports := runTest_reports address labelAt call
  constructor
  · rw [← comparison_iff]
    constructor
    · intro right
      obtain ⟨place, s', ⟨rfl, result⟩, -, left⟩ := right.meet leaves
        (fun place s' ends => ends.1 ▸ step_upTo) (fun place s' ends => ends.1 ▸ step_upTo)
      exact left.symm.trans result
    · intro equal
      exact leaves.mono fun place s' ends => ⟨ends.1, ends.2.trans equal⟩
  · rw [← @report_iff data xs ys (s.get .s3)]
    constructor
    · intro right
      obtain ⟨place, s', ⟨rfl, result⟩, -, left⟩ := right.meet reports
        (fun place s' ends => ends.1 ▸ step_upTo) (fun place s' ends => ends.1 ▸ step_upTo)
      rw [left, List.append_cancel_left_eq] at result
      exact result
    · intro equal
      refine reports.mono fun place s' ends => ⟨ends.1, ?_⟩
      rw [ends.2, List.append_cancel_left_eq]
      exact equal

end

section

/-- Arrays of three words. -/
def exampleState (xs ys : List Word) : State (List Output) :=
  State.setAll ⟨fun _ => 0, Memory.store (Memory.store (fun _ => 0) 0x10010000 (xs.flatMap wordBytes)) 0x10010020
    (ys.flatMap wordBytes), []⟩ [(.s1, 0x10010000), (.s2, 3), (.s3, 1), (.sp, 0x7fffeff0)]

def exampleData : DataLabel → Word
  | .inputArrBegin _ => 0x10010000
  | .inputArrEnd _ => 0x1001000c
  | .correctArrBegin _ => 0x10010020
  | .literal _ => 0x10010040

theorem exampleState_call {xs ys : List Word} (three : xs.length = 3) (asMany : ys.length = 3) :
    RunTestCall exampleData ⟨fun _ => true, fun _ => true⟩ 0 xs ys (exampleState xs ys) := by
  have loads : ∀ base size, Access.loads ⟨fun _ => true, fun _ => true⟩ base size = true :=
    fun base size => List.all_eq_true.mpr fun _ _ => rfl
  have stores : ∀ base size, Access.stores ⟨fun _ => true, fun _ => true⟩ base size = true :=
    fun base size => List.all_eq_true.mpr fun _ _ => rfl
  have lengthFirst : (xs.flatMap wordBytes).length = 12 := by rw [length_flatMap_wordBytes, three]
  have lengthSecond : (ys.flatMap wordBytes).length = 12 := by rw [length_flatMap_wordBytes, asMany]
  have apart : Apart (0x10010000 : Word) 12 0x10010020 12 := apart_of_le (by decide) (by decide)
  have firstStack : Apart (0x10010000 : Word) 12 (below 0x7fffeff0 28) 28 := apart_of_le (by decide) (by decide)
  have secondStack : Apart (0x10010020 : Word) 12 (below 0x7fffeff0 28) 28 := apart_of_le (by decide) (by decide)
  have shortFirst : (xs.flatMap wordBytes).length ≤ 2 ^ 32 := by rw [lengthFirst]; decide
  have shortSecond : (ys.flatMap wordBytes).length ≤ 2 ^ 32 := by rw [lengthSecond]; decide
  have first : WordsAt ⟨fun _ => true, fun _ => true⟩ (exampleState xs ys).mem 0x10010000 xs := by
    refine ⟨(Memory.holds_store shortFirst).store shortFirst ?_, loads _ _, by decide⟩
    rw [lengthFirst, lengthSecond]
    exact apart
  have second : WordsAt ⟨fun _ => true, fun _ => true⟩ (exampleState xs ys).mem 0x10010020 ys :=
    ⟨Memory.holds_store shortSecond, loads _ _, by decide⟩
  refine ⟨⟨asMany.trans three.symm, ?_, ?_, ?_, ?_, ?_, ?_, ?_, loads _ _, stores _ _⟩, loads _ _⟩ <;>
    simp only [exampleState, exampleData, setAll_cons, setAll_nil, get_set_self, get_set_of_ne, ne_eq, reduceCtorEq,
      not_false_eq_true, mem_set, three]
  · decide
  · rfl
  · exact first
  · exact second
  · exact firstStack
  · exact secondStack
  · decide

theorem arrayEquals_exact_three :
    RunTestCall exampleData ⟨fun _ => true, fun _ => true⟩ 0 [5, 6, 7] [5, 6, 8] (exampleState [5, 6, 7] [5, 6, 8]) ∧
      Eventually (simulator (fun _ => 0) (fun _ => none) exampleData) ⟨fun _ => true, fun _ => true⟩
        (program.upTo (.runTest 0 .afterArrayEquals))
        (fun place s' => place = .label (.runTest 0 .afterArrayEquals) ∧
          s'.get .t1 = if [5, 6, 7] = [5, 6, (8 : Word)] then 1 else 0)
        (.label (.runTest 0 .afterHeapSort)) (exampleState [5, 6, 7] [5, 6, 8]) :=
  ⟨exampleState_call rfl rfl, (arrayEquals_exact _ _ (exampleState_call rfl rfl)).1.mpr (Or.inl (by decide))⟩

/-- Equal arrays that end with 0 are reported as not passed. -/
theorem zero_is_not_passed :
    ¬ ∀ (address : Label → Word) (labelAt : Word → Option Label) (data : DataLabel → Word) (access : Access)
      (test : Fin 5) (xs ys : List Word) (s : State (List Output)), RunTestCall data access test xs ys s →
      Eventually (simulator address labelAt data) access (program.upTo (.runTest test .afterArrayEquals))
        (fun place s' => place = .label (.runTest test .afterArrayEquals) ∧ s'.get .t1 = if xs = ys then 1 else 0)
        (.label (.runTest test .afterHeapSort)) s ∧
      Eventually (simulator address labelAt data) access (program.upTo (.runTest test .afterRunTest))
        (fun place s' => place = .label (.runTest test .afterRunTest) ∧
          (s'.world = s.world ++ passedReport data (s.get .s3) ↔ xs = ys))
        (.label (.runTest test .afterHeapSort)) s := by
  intro all
  have call := @exampleState_call [5, 6, 0] [5, 6, 0] rfl rfl
  obtain ⟨-, right⟩ := all (fun _ => 0) (fun _ => none) _ _ _ _ _ _ call
  obtain ⟨place, s', ⟨rfl, passed⟩, -, world⟩ := right.meet (runTest_reports _ _ call)
    (fun place s' ends => ends.1 ▸ step_upTo) (fun place s' ends => ends.1 ▸ step_upTo)
  have different : report exampleData ((exampleState [5, 6, 0] [5, 6, 0]).get .s3) 0 ≠ passedReport exampleData ((exampleState [5, 6, 0] [5, 6, 0]).get .s3) := by
    rw [report, if_pos rfl]
    simp [passedReport, notPassedReport]
  rw [world, List.append_cancel_left_eq] at passed
  exact different (passed.mpr rfl)

end

end ArchCompSystems.Ihw1
