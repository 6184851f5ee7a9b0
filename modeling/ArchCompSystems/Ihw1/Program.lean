import ArchCompSystems.Library.RiscV

namespace ArchCompSystems.Ihw1

open Library Library.RiscV Library.RiscV.Instr

inductive HeapSortLabel where
  | heapSort
  | heapifyForInit
  | heapifyForIter
  | dontChangeSon1
  | sieveCurrentElemWhileCycle
  | sieveCurrentElemWhileCycleEnd
  | heapifyForEnd
  | heapSortForInit
  | heapSortForIter
  | dontChangeSon2
  | restoreHeapWhileCycle
  | restoreHeapWhileCycleEnd
  | heapSortForEnd
  | heapSortEnd
  deriving DecidableEq

/-- The labels of one expansion of `array_equals`; the first one stands before it. -/
inductive ArrayEqualsLabel where
  | arrayEquals
  | arrayEqualsWhileCycle
  | notEquals
  | arrayEqualsWhileCycleEnd
  deriving DecidableEq

/-- The labels of one expansion of `run_test`. The source has only `test_passed`. -/
inductive RunTestLabel where
  | runTest
  | afterHeapSort
  | arrayEquals (label : ArrayEqualsLabel)
  | afterArrayEquals
  | testPassed
  | afterRunTest
  deriving DecidableEq

inductive Label where
  | heapSort (label : HeapSortLabel)
  | runAutoTests
  | runTest (test : Fin 5) (label : RunTestLabel)
  | runAutoTestsEnd
  deriving DecidableEq

inductive DataLabel where
  | inputArrBegin (test : Fin 5)
  | inputArrEnd (test : Fin 5)
  | correctArrBegin (test : Fin 5)
  | literal (text : String)

abbrev Line := Instr Label DataLabel

section

variable {L : Type}

def push (reg : Reg) : List (Instr L DataLabel) := [addi .sp .sp (-4), .sw reg 0 .sp]

def pop (reg : Reg) : List (Instr L DataLabel) := [.lw reg 0 .sp, addi .sp .sp 4]

def printInt (regInt : Reg) : List (Instr L DataLabel) := [li .a7 1, mv .a0 regInt, .ecall]

def puts (outString : String) : List (Instr L DataLabel) := [li .a7 4, .la .a0 (.literal outString), .ecall]

def readAt (pointerReg indexReg ansReg : Reg) : List (Instr L DataLabel) := [
  slli ansReg indexReg 2,
  add ansReg pointerReg ansReg,
  .lw ansReg 0 ansReg]

def writeAt (pointerReg indexReg valueReg : Reg) : List (Instr L DataLabel) := push .ra ++ [
  slli .ra indexReg 2,
  add .ra pointerReg .ra,
  .sw valueReg 0 .ra] ++ pop .ra

/-- The macro with these registers; `expansion` are the labels of this expansion. -/
def ArrayEqualsLabel.block (firstArrayPointerReg secondArrayPointerReg lengthReg resultReg : Reg)
    (expansion : ArrayEqualsLabel → L) : ArrayEqualsLabel → List (Instr L DataLabel)
  | arrayEquals => push .s8 ++ push .s9 ++ push .s10 ++ push .s11 ++ push lengthReg ++ push firstArrayPointerReg ++
      push secondArrayPointerReg ++ [
      li resultReg 1,
      mv .s9 lengthReg,
      mv .s10 firstArrayPointerReg,
      mv .s11 secondArrayPointerReg]
  | arrayEqualsWhileCycle => [
      beqz .s9 (expansion arrayEqualsWhileCycleEnd),
      .lw .s8 0 .s10,
      .lw resultReg 0 .s11,
      bne .s8 resultReg (expansion notEquals),
      addi .s10 .s10 4,
      addi .s11 .s11 4,
      addi .s9 .s9 (-1),
      .j (expansion arrayEqualsWhileCycle)]
  | notEquals => [mv resultReg .zero]
  | arrayEqualsWhileCycleEnd => pop secondArrayPointerReg ++ pop firstArrayPointerReg ++ pop lengthReg ++ pop .s11 ++
      pop .s10 ++ pop .s9 ++ pop .s8

def ArrayEqualsLabel.next : ArrayEqualsLabel → Option ArrayEqualsLabel
  | arrayEquals => some arrayEqualsWhileCycle
  | arrayEqualsWhileCycle => some notEquals
  | notEquals => some arrayEqualsWhileCycleEnd
  | arrayEqualsWhileCycleEnd => none

end

namespace HeapSortLabel

def block : HeapSortLabel → List Line
  | heapSort => push .ra ++ [
      li .t0 1,
      bleu .a1 .t0 (.heapSort heapSortEnd)]
  | heapifyForInit => [srli .t1 .a1 1]
  | heapifyForIter => [
      beqz .t1 (.heapSort heapifyForEnd),
      addi .t1 .t1 (-1),
      mv .t2 .t1] ++
      readAt .a0 .t2 .t3 ++ [
      slli .t4 .t2 1,
      ori .t4 .t4 1] ++
      readAt .a0 .t4 .t5 ++ [
      addi .t6 .t4 1,
      bgeu .t6 .a1 (.heapSort dontChangeSon1)] ++
      readAt .a0 .t6 .t0 ++ [
      bge .t5 .t0 (.heapSort dontChangeSon1),
      mv .t5 .t0,
      mv .t4 .t6]
  | dontChangeSon1 => []
  | sieveCurrentElemWhileCycle => [bge .t3 .t5 (.heapSort heapifyForIter)] ++
      writeAt .a0 .t2 .t5 ++
      writeAt .a0 .t4 .t3 ++ [
      mv .t2 .t4,
      slli .t4 .t2 1,
      ori .t4 .t4 1,
      bgeu .t4 .a1 (.heapSort heapifyForIter)] ++
      readAt .a0 .t4 .t5 ++ [
      addi .t6 .t4 1,
      bgeu .t6 .a1 (.heapSort sieveCurrentElemWhileCycle)] ++
      readAt .a0 .t6 .t0 ++ [
      bge .t5 .t0 (.heapSort sieveCurrentElemWhileCycle),
      mv .t5 .t0,
      mv .t4 .t6,
      .j (.heapSort sieveCurrentElemWhileCycle)]
  | sieveCurrentElemWhileCycleEnd => []
  | heapifyForEnd => []
  | heapSortForInit => [mv .t1 .a1]
  | heapSortForIter => [
      li .t2 1,
      sub .t1 .t1 .t2,
      beq .t1 .t2 (.heapSort heapSortForEnd)] ++
      readAt .a0 .t1 .t2 ++ [
      .lw .t3 0 .a0] ++
      writeAt .a0 .t1 .t3 ++ [
      .sw .t2 0 .a0,
      mv .t3 .zero,
      li .t4 1,
      .lw .t5 4 .a0,
      li .t0 2,
      bleu .t1 .t0 (.heapSort dontChangeSon2),
      .lw .t6 8 .a0,
      bge .t5 .t6 (.heapSort dontChangeSon2),
      li .t4 2,
      mv .t5 .t6]
  | dontChangeSon2 => []
  | restoreHeapWhileCycle => [bge .t2 .t5 (.heapSort heapSortForIter)] ++
      writeAt .a0 .t3 .t5 ++
      writeAt .a0 .t4 .t2 ++ [
      mv .t3 .t4,
      slli .t4 .t3 1,
      ori .t4 .t4 1,
      bgeu .t4 .t1 (.heapSort heapSortForIter)] ++
      readAt .a0 .t4 .t5 ++ [
      addi .t6 .t4 1,
      beq .t6 .t1 (.heapSort restoreHeapWhileCycle)] ++
      readAt .a0 .t6 .t0 ++ [
      bge .t5 .t0 (.heapSort restoreHeapWhileCycle),
      mv .t4 .t6,
      mv .t5 .t0,
      .j (.heapSort restoreHeapWhileCycle)]
  | restoreHeapWhileCycleEnd => []
  | heapSortForEnd => [
      .lw .t0 0 .a0,
      .lw .t1 4 .a0,
      .sw .t1 0 .a0,
      .sw .t0 4 .a0]
  | heapSortEnd => pop .ra ++ [.ret]

def next : HeapSortLabel → Option HeapSortLabel
  | heapSort => some heapifyForInit
  | heapifyForInit => some heapifyForIter
  | heapifyForIter => some dontChangeSon1
  | dontChangeSon1 => some sieveCurrentElemWhileCycle
  | sieveCurrentElemWhileCycle => some sieveCurrentElemWhileCycleEnd
  | sieveCurrentElemWhileCycleEnd => some heapifyForEnd
  | heapifyForEnd => some heapSortForInit
  | heapSortForInit => some heapSortForIter
  | heapSortForIter => some dontChangeSon2
  | dontChangeSon2 => some restoreHeapWhileCycle
  | restoreHeapWhileCycle => some restoreHeapWhileCycleEnd
  | restoreHeapWhileCycleEnd => some heapSortForEnd
  | heapSortForEnd => some heapSortEnd
  | heapSortEnd => none

end HeapSortLabel

/-- `run_test` with the arrays of a test. -/
def RunTestLabel.block (test : Fin 5) (testNumberReg : Reg) : RunTestLabel → List Line
  | runTest => push .s1 ++ push .s2 ++ [
      .la .a0 (.inputArrBegin test),
      .la .a1 (.inputArrEnd test),
      sub .a1 .a1 .a0,
      srli .a1 .a1 2,
      mv .s1 .a0,
      mv .s2 .a1,
      .jal (.heapSort .heapSort)]
  | afterHeapSort => [.la .t0 (.correctArrBegin test)]
  | arrayEquals label => label.block .s1 .t0 .s2 .t1 fun label => .runTest test (arrayEquals label)
  | afterArrayEquals => [mv .s1 .t1] ++ puts "Test " ++ printInt testNumberReg ++ [
      bnez .s1 (.runTest test testPassed)] ++ puts " not"
  | testPassed => puts " passed.\n" ++ [addi testNumberReg testNumberReg 1] ++ pop .s2 ++ pop .s1
  | afterRunTest => []

def RunTestLabel.next : RunTestLabel → Option RunTestLabel
  | runTest => some afterHeapSort
  | afterHeapSort => some (arrayEquals .arrayEquals)
  | arrayEquals label => (label.next.map arrayEquals).getD afterArrayEquals
  | afterArrayEquals => some testPassed
  | testPassed => some afterRunTest
  | afterRunTest => none

def Label.block : Label → List Line
  | heapSort label => label.block
  | runAutoTests => push .ra ++ push .s3 ++ [li .s3 1]
  | runTest test label => label.block test .s3
  | runAutoTestsEnd => pop .s3 ++ pop .ra ++ [.ret]

def Label.next : Label → Option Label
  | heapSort label => label.next.map heapSort
  | runAutoTests => some (runTest 0 .runTest)
  | runTest test label => match label.next with
    | some label => some (runTest test label)
    | none => if test = 4 then some runAutoTestsEnd else some (runTest (test + 1) .runTest)
  | runAutoTestsEnd => none

def program : Code Label DataLabel := ⟨Label.block, Label.next⟩

end ArchCompSystems.Ihw1
