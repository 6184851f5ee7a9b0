import ArchCompSystems.Library.RiscV

namespace ArchCompSystems.Ihw3

open Library Library.RiscV Library.RiscV.Instr

inductive StrToolsLabel where
  | strReplaceDigits
  | loop1
  | notNeededDigit
  | loop2
  | loop2Iteration
  | strReplaceDigitsEpilogue
  | replaceDigit

inductive FileToolsLabel where
  | fread
  | readLoop
  | doNoShrinkReadSize
  | freadEpilogue
  | fileIsNotOpened
  | fwrite
  | fwriteEpilogue

/-- The labels of one expansion of `read_string_rwnd`. -/
inductive ReadStringLabel where
  | readLoop
  | noError
  | notEmptyInput
  | rstripNewlineLoop
  | notNewline
  | rsRwndMacroEnd

/-- The source has no labels where `main_loop` goes on after a call. -/
inductive MainLabel where
  | mainLoop
  | readInputFileName (label : ReadStringLabel)
  | afterFread
  | noPrintLabel1
  | noFreadFailure
  | noPrintLabel2
  | afterStrReplaceDigits
  | noPrintLabel3
  | readOutputFileName (label : ReadStringLabel)
  | afterFwrite
  | fwriteError
  | noPrintLabel4
  | mainLoopAns
  | mainEpilogue

inductive Label where
  | strTools (label : StrToolsLabel)
  | fileTools (label : FileToolsLabel)
  | main (label : MainLabel)

inductive DataLabel where
  | inputFileName
  | outputFileName
  | textBuffer
  | reversedReplacementsTable
  | replacementsLenTable
  | literal (text : String)

abbrev Line := Instr Label DataLabel

section

variable {L : Type}

def push (reg : Reg) : List (Instr L DataLabel) := [addi .sp .sp (-4), .sw reg 0 .sp]

def pop (reg : Reg) : List (Instr L DataLabel) := [.lw reg 0 .sp, addi .sp .sp 4]

end

/-- `.ascii` strings of four bytes. -/
def reversedReplacementsTable : List UInt8 := [
  73, 0, 0, 0,
  73, 73, 0, 0,
  73, 73, 73, 0,
  86, 73, 0, 0,
  86, 0, 0, 0,
  73, 86, 0, 0,
  73, 73, 86, 0,
  73, 73, 73, 86,
  88, 73, 0, 0]

def replacementsLenTable : List Word := [1, 2, 3, 2, 1, 2, 3, 4, 2]

def isReplaceableDigitT0 (reg : Reg) : List Line := [addi .t0 reg (-49), sltiu .t0 .t0 9]

namespace StrToolsLabel

def block : StrToolsLabel → List Line
  | strReplaceDigits => push .ra ++ push .s1 ++ [
      mv .t1 .a0,
      add .t2 .a0 .a1,
      mv .t3 .a1,
      .la .t4 .replacementsLenTable,
      beqz .a1 (.strTools strReplaceDigitsEpilogue)]
  | loop1 => [.lbu .t5 0 .t1] ++ isReplaceableDigitT0 .t5 ++ [
      beqz .t0 (.strTools notNeededDigit),
      addi .t5 .t5 (-49),
      slli .t5 .t5 2,
      add .s1 .t4 .t5,
      .lw .s1 0 .s1,
      addi .s1 .s1 (-1),
      add .t3 .t3 .s1]
  | notNeededDigit => [
      addi .t1 .t1 1,
      bne .t1 .t2 (.strTools loop1),
      add .t1 .a0 .a1,
      addi .t1 .t1 (-1),
      add .t2 .a0 .t3,
      addi .t2 .t2 (-1),
      .la .t6 .reversedReplacementsTable]
  | loop2 => [.lbu .t5 0 .t1] ++ isReplaceableDigitT0 .t5 ++ [
      bnez .t0 (.strTools replaceDigit),
      .sb .t5 0 .t2,
      addi .t2 .t2 (-1)]
  | loop2Iteration => [
      addi .t1 .t1 (-1),
      bge .t1 .a0 (.strTools loop2)]
  | strReplaceDigitsEpilogue => pop .s1 ++ pop .ra ++ [
      add .a0 .a0 .t3,
      .sb .zero 0 .a0,
      mv .a0 .t3,
      .ret]
  | replaceDigit => [
      addi .t5 .t5 (-49),
      slli .t5 .t5 2,
      add .s1 .t4 .t5,
      .lw .s1 0 .s1,
      add .t0 .t6 .t5,
      .lw .t0 0 .t0,
      .sb .t0 0 .t2,
      addi .t2 .t2 (-1),
      addi .s1 .s1 (-1),
      beqz .s1 (.strTools loop2Iteration),
      srli .t0 .t0 8,
      .sb .t0 0 .t2,
      addi .t2 .t2 (-1),
      addi .s1 .s1 (-1),
      beqz .s1 (.strTools loop2Iteration),
      srli .t0 .t0 8,
      .sb .t0 0 .t2,
      addi .t2 .t2 (-1),
      addi .s1 .s1 (-1),
      beqz .s1 (.strTools loop2Iteration),
      srli .t0 .t0 8,
      .sb .t0 0 .t2,
      addi .t2 .t2 (-1),
      b (.strTools loop2Iteration)]

def next : StrToolsLabel → Option StrToolsLabel
  | strReplaceDigits => some loop1
  | loop1 => some notNeededDigit
  | notNeededDigit => some loop2
  | loop2 => some loop2Iteration
  | loop2Iteration => some strReplaceDigitsEpilogue
  | strReplaceDigitsEpilogue => some replaceDigit
  | replaceDigit => none

end StrToolsLabel

def readChunkSize : Word := 512

namespace FileToolsLabel

def block : FileToolsLabel → List Line
  | fread => push .s1 ++ push .s2 ++ push .s3 ++ push .s4 ++ push .ra ++ [
      mv .s1 .a1,
      addi .s2 .a2 (-1),
      li .s3 (-1),
      li .a1 0,
      li .a7 1024,
      .ecall,
      beq .a0 .s3 (.fileTools freadEpilogue),
      mv .s3 .a0,
      li .s4 0]
  | readLoop => [
      mv .a0 .s3,
      add .a1 .s1 .s4,
      li .a2 readChunkSize,
      sub .t0 .s2 .s4,
      ble .a2 .t0 (.fileTools doNoShrinkReadSize),
      mv .a2 .t0]
  | doNoShrinkReadSize => [
      li .a7 63,
      .ecall,
      bltz .a0 (.fileTools freadEpilogue),
      add .s4 .s4 .a0,
      addi .a0 .a0 (-readChunkSize),
      seqz .a0 .a0,
      slt .a1 .s4 .s2,
      and .a0 .a0 .a1,
      bnez .a0 (.fileTools readLoop),
      mv .a0 .s4,
      add .s1 .s1 .s4,
      .sb .zero 0 .s1]
  | freadEpilogue => [
      bltz .s3 (.fileTools fileIsNotOpened),
      mv .s1 .a0,
      mv .a0 .s3,
      li .a7 57,
      .ecall,
      mv .a0 .s1]
  | fileIsNotOpened => pop .ra ++ pop .s4 ++ pop .s3 ++ pop .s2 ++ pop .s1 ++ [.ret]
  | fwrite => push .s1 ++ push .s2 ++ push .s3 ++ push .ra ++ [
      mv .s1 .a1,
      mv .s2 .a2,
      li .s3 (-1),
      li .a1 1,
      li .a7 1024,
      .ecall,
      beq .a0 .s3 (.fileTools fwriteEpilogue),
      mv .s3 .a0,
      mv .a1 .s1,
      mv .a2 .s2,
      li .a7 64,
      .ecall,
      sub .s2 .a0 .s2,
      mv .a0 .s3,
      li .a7 57,
      .ecall,
      mv .a0 .s2]
  | fwriteEpilogue => pop .ra ++ pop .s3 ++ pop .s2 ++ pop .s1 ++ [.ret]

def next : FileToolsLabel → Option FileToolsLabel
  | fread => some readLoop
  | readLoop => some doNoShrinkReadSize
  | doNoShrinkReadSize => some freadEpilogue
  | freadEpilogue => some fileIsNotOpened
  | fileIsNotOpened => some fwrite
  | fwrite => some fwriteEpilogue
  | fwriteEpilogue => none

end FileToolsLabel

section

variable {L : Type}

def writeLiteralErrorRwnd (errorString : String) : List (Instr L DataLabel) :=
  [.la .a0 (.literal errorString), li .a1 0, li .a7 55, .ecall]

def writeLiteralStringRwnd (infoString : String) : List (Instr L DataLabel) :=
  [.la .a0 (.literal infoString), li .a1 1, li .a7 55, .ecall]

def confirmLiteralMsgRwnd (literalString : String) : List (Instr L DataLabel) :=
  [.la .a0 (.literal literalString), li .a7 50, .ecall]

def exit : List (Instr L DataLabel) := [li .a7 93, li .a0 0, .ecall]

/-- `read_string_rwnd` up to its first label. -/
def readStringRwnd (bufferAddress bufferLenReg : Reg) : List (Instr L DataLabel) :=
  push .ra ++ push bufferAddress ++ push bufferLenReg

/-- `read_string_rwnd` from its first label on; `expansion` are the labels of this expansion. -/
def ReadStringLabel.block (promptString : String) (bufferAddress bufferLenReg : Reg) (expansion : ReadStringLabel → L) :
    ReadStringLabel → List (Instr L DataLabel)
  | readLoop => [
      mv .a1 bufferAddress,
      mv .a2 bufferLenReg,
      .la .a0 (.literal promptString),
      li .a7 54,
      .ecall,
      li .t0 (-4),
      bne .a1 .t0 (expansion noError)] ++ writeLiteralErrorRwnd "Input was too long" ++ [b (expansion readLoop)]
  | noError => pop bufferLenReg ++ pop bufferAddress ++ [
      beqz .a1 (expansion notEmptyInput),
      .sb .a1 0 bufferAddress,
      b (expansion rsRwndMacroEnd)]
  | notEmptyInput => [
      add .a0 bufferAddress bufferLenReg,
      li .a2 10]
  | rstripNewlineLoop => [
      addi .a0 .a0 (-1),
      .lbu .a1 0 .a0,
      bne .a1 .a2 (expansion notNewline),
      .sb .zero 0 .a0,
      b (expansion rsRwndMacroEnd)]
  | notNewline => [bgt .a0 bufferAddress (expansion rstripNewlineLoop)]
  | rsRwndMacroEnd => pop .ra

def ReadStringLabel.next : ReadStringLabel → Option ReadStringLabel
  | readLoop => some noError
  | noError => some notEmptyInput
  | notEmptyInput => some rstripNewlineLoop
  | rstripNewlineLoop => some notNewline
  | notNewline => some rsRwndMacroEnd
  | rsRwndMacroEnd => none

end

def fileNameSize : Nat := 260

def textBufferSize : Nat := 4096

def freadMacro (fileNameLabel bufferAddressLabel : DataLabel) (bufferSizeReg : Reg) : List Line :=
  [mv .a2 bufferSizeReg, .la .a0 fileNameLabel, .la .a1 bufferAddressLabel, .jal (.fileTools .fread)]

def fwriteMacro (fileNameLabel bufferAddressLabel : DataLabel) (bufferSizeReg : Reg) : List Line :=
  [mv .a2 bufferSizeReg, .la .a0 fileNameLabel, .la .a1 bufferAddressLabel, .jal (.fileTools .fwrite)]

def strReplaceDigitsMacro (strLabel : DataLabel) (strLenReg : Reg) : List Line :=
  [mv .a1 strLenReg, .la .a0 strLabel, .jal (.strTools .strReplaceDigits)]

namespace MainLabel

def block : MainLabel → List Line
  | mainLoop => [.la .t0 .inputFileName, li .t1 (BitVec.ofNat 32 fileNameSize)] ++ readStringRwnd .t0 .t1
  | readInputFileName .rsRwndMacroEnd => pop .ra ++ [li .a0 (BitVec.ofNat 32 textBufferSize)] ++
      freadMacro .inputFileName .textBuffer .a0
  | readInputFileName label => label.block "Input file name:" .t0 .t1 fun label => .main (readInputFileName label)
  | afterFread => [bgez .a0 (.main noFreadFailure), beqz .s2 (.main noPrintLabel1)] ++
      writeLiteralErrorRwnd "An error occured while reading the file"
  | noPrintLabel1 => [b (.main mainLoopAns)]
  | noFreadFailure => [mv .s1 .a0, beqz .s2 (.main noPrintLabel2)] ++ writeLiteralStringRwnd "Read file successfully"
  | noPrintLabel2 => strReplaceDigitsMacro .textBuffer .s1
  | afterStrReplaceDigits => [mv .s1 .a0, beqz .s2 (.main noPrintLabel3)] ++ writeLiteralStringRwnd "Processed text"
  | noPrintLabel3 => [.la .t0 .outputFileName, li .t1 (BitVec.ofNat 32 fileNameSize)] ++ readStringRwnd .t0 .t1
  | readOutputFileName .rsRwndMacroEnd => pop .ra ++ fwriteMacro .outputFileName .textBuffer .s1
  | readOutputFileName label => label.block "Output file name:" .t0 .t1 fun label => .main (readOutputFileName label)
  | afterFwrite => [beqz .s1 (.main noPrintLabel4), bltz .a0 (.main fwriteError)] ++
      writeLiteralStringRwnd "Saved processed text to the file" ++ [b (.main noPrintLabel4)]
  | fwriteError => writeLiteralStringRwnd "Was not able to save processed text to the file"
  | noPrintLabel4 => []
  | mainLoopAns => confirmLiteralMsgRwnd "Would you like to input another file?" ++ [beqz .a0 (.main mainLoop)]
  | mainEpilogue => pop .s2 ++ pop .s1 ++ exit

def next : MainLabel → Option MainLabel
  | mainLoop => some (readInputFileName .readLoop)
  | readInputFileName label => (label.next.map readInputFileName).getD afterFread
  | afterFread => some noPrintLabel1
  | noPrintLabel1 => some noFreadFailure
  | noFreadFailure => some noPrintLabel2
  | noPrintLabel2 => some afterStrReplaceDigits
  | afterStrReplaceDigits => some noPrintLabel3
  | noPrintLabel3 => some (readOutputFileName .readLoop)
  | readOutputFileName label => (label.next.map readOutputFileName).getD afterFwrite
  | afterFwrite => some fwriteError
  | fwriteError => some noPrintLabel4
  | noPrintLabel4 => some mainLoopAns
  | mainLoopAns => some mainEpilogue
  | mainEpilogue => none

end MainLabel

def program : Code Label DataLabel where
  block
    | .strTools label => label.block
    | .fileTools label => label.block
    | .main label => label.block
  next
    | .strTools label => label.next.map .strTools
    | .fileTools label => label.next.map .fileTools
    | .main label => label.next.map .main

end ArchCompSystems.Ihw3
