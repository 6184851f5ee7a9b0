import ArchCompSystems.Ihw3.Program

namespace ArchCompSystems.Ihw3

open Library Library.RiscV

structure OpenFile where
  name : List UInt8
  forReading : Bool
  unread : List UInt8
  deriving DecidableEq

/-- Files by their names, the descriptors, those that were closed so far, which of the reads to come fail,
    and what the user will answer: texts or cancel to input dialogs, a number to questions. -/
structure World where
  files : List UInt8 → Option (List UInt8)
  isWritable : List UInt8 → Bool
  opened : List (Word × OpenFile)
  closed : List Word
  readFails : List Bool
  dialogs : List (Option (List UInt8))
  confirmations : List Word

def stringAt (m : Memory) (address : Word) : Nat → List UInt8
  | 0 => []
  | count + 1 => if m address = 0 then [] else m address :: stringAt m (offset address 1) count

def memorySize : Nat := 2 ^ 32

namespace World

def find (world : World) (descriptor : Word) : Option OpenFile := world.opened.lookup descriptor

def freeDescriptor (world : World) : Option Word :=
  ((List.range 32).map (BitVec.ofNat 32)).find? fun descriptor => 3 ≤ descriptor.toNat && (world.find descriptor).isNone

def update (world : World) (descriptor : Word) (file : OpenFile) : World :=
  { world with opened := (descriptor, file) :: world.opened.filter (·.1 ≠ descriptor) }

end World

def answer (reg : Reg) (value : Word) (world : World) : Service World := ⟨[(reg, value)], 0, [], world⟩

def openService (name : List UInt8) (flags : Word) (world : World) : Service World :=
  match world.freeDescriptor with
  | none => answer .a0 (-1) world
  | some descriptor =>
    if flags = 0 then
      match world.files name with
      | none => answer .a0 (-1) world
      | some content => answer .a0 descriptor (world.update descriptor ⟨name, true, content⟩)
    else if world.isWritable name then
      answer .a0 descriptor
        { world.update descriptor ⟨name, false, []⟩ with files := Function.update world.files name (some []) }
    else answer .a0 (-1) world

def readService (descriptor buffer count : Word) (world : World) : Service World :=
  let after := { world with readFails := world.readFails.tail }
  if world.readFails.headD false then answer .a0 (-1) after
  else match world.find descriptor with
    | none => answer .a0 (-1) after
    | some file =>
      if file.forReading then
        let bytes := file.unread.take count.toNat
        ⟨[(.a0, BitVec.ofNat 32 bytes.length)], buffer, bytes,
          after.update descriptor { file with unread := file.unread.drop count.toNat }⟩
      else answer .a0 (-1) after

def writeService (descriptor : Word) (bytes : List UInt8) (world : World) : Service World :=
  match world.find descriptor with
  | none => answer .a0 (-1) world
  | some file =>
    if file.forReading then answer .a0 (-1) world
    else answer .a0 (BitVec.ofNat 32 bytes.length)
      { world with files := Function.update world.files file.name (some ((world.files file.name).getD [] ++ bytes)) }

def closeService (descriptor : Word) (world : World) : Service World :=
  ⟨[], 0, [], { world with
    opened := world.opened.filter (·.1 ≠ descriptor), closed := world.closed ++ [descriptor] }⟩

/-- What a text leaves in a buffer of `size` bytes: as much of it as there is room for, a newline if there is
    room for that too, and a zero. -/
def dialogBytes (text : List UInt8) (size : Nat) : List UInt8 :=
  if text.length < size - 1 then text ++ [10, 0] else text.take (size - 1) ++ [0]

/-- `a1` tells cancel, an empty and a too long text; the dialog waits for an answer. -/
def inputDialogString (buffer size : Word) (world : World) : Option (Service World) :=
  match world.dialogs with
  | [] => none
  | none :: rest => some (answer .a1 (-2) { world with dialogs := rest })
  | some [] :: rest => some (answer .a1 (-3) { world with dialogs := rest })
  | some text :: rest => some ⟨[(.a1, if text.length ≤ size.toNat - 1 then 0 else -4)], buffer,
      dialogBytes text size.toNat, { world with dialogs := rest }⟩

def confirmDialog (world : World) : Option (Service World) :=
  match world.confirmations with
  | [] => none
  | choice :: rest => some (answer .a0 choice { world with confirmations := rest })

/-- The services that the program uses, by their numbers; 55 only shows a message, and after 93 the program
    does not go on. -/
def systemCall (s : State World) : Option (Service World) :=
  match (s.get .a7).toNat with
  | 1024 => some (openService (stringAt s.mem (s.get .a0) memorySize) (s.get .a1) s.world)
  | 63 => some (readService (s.get .a0) (s.get .a1) (s.get .a2) s.world)
  | 64 => some (writeService (s.get .a0) (s.mem.load (s.get .a1) (s.get .a2).toNat) s.world)
  | 57 => some (closeService (s.get .a0) s.world)
  | 54 => inputDialogString (s.get .a1) (s.get .a2) s.world
  | 55 => some ⟨[], 0, [], s.world⟩
  | 50 => confirmDialog s.world
  | _ => none

/-- The simulator with labels at these addresses. -/
def simulator {L : Type} (address : L → Word) (labelAt : Word → Option L) (data : DataLabel → Word) :
    Platform L DataLabel World := ⟨address, labelAt, data, systemCall⟩

section

variable {L : Type} {address : L → Word} {labelAt : Word → Option L} {data : DataLabel → Word} {access : Access}
  {rest : List (Instr L DataLabel)} {post : Next L → State World → Prop} {s : State World}

theorem wp_service {reg : Reg} (result base : Word) (bytes : List UInt8) (world' : World) (nonzero : reg ≠ .zero)
    (called : systemCall s = some ⟨[(reg, result)], base, bytes, world'⟩) (stores : access.stores base bytes.length = true)
    (ends : ∀ s', SameBut [reg] s s' → s'.get reg = result → s'.mem = s.mem.store base bytes → s'.world = world' →
      wp (simulator address labelAt data) access rest s' post) :
    wp (simulator address labelAt data) access (.ecall :: rest) s post :=
  wp_ecall called stores (ends _ (SameBut.refl.set (List.mem_singleton.mpr rfl))
    (get_set_self (s := s.store base bytes) nonzero) rfl rfl)

theorem wp_quietService (world' : World) (called : systemCall s = some ⟨[], 0, [], world'⟩)
    (ends : ∀ s', SameBut [] s s' → s'.mem = s.mem → s'.world = world' →
      wp (simulator address labelAt data) access rest s' post) :
    wp (simulator address labelAt data) access (.ecall :: rest) s post :=
  wp_ecall_quiet called (ends _ SameBut.refl rfl rfl)

theorem wp_open (result : Word) (world' : World) (a7 : s.get .a7 = 1024)
    (opened : openService (stringAt s.mem (s.get .a0) memorySize) (s.get .a1) s.world = answer .a0 result world')
    (ends : ∀ s', SameBut [.a0] s s' → s'.get .a0 = result → s'.mem = s.mem → s'.world = world' →
      wp (simulator address labelAt data) access rest s' post) :
    wp (simulator address labelAt data) access (.ecall :: rest) s post := by
  refine wp_service result 0 [] world' (by decide) ?_ rfl ends
  rw [systemCall, a7]
  exact congrArg some opened

theorem wp_close (a7 : s.get .a7 = 57)
    (ends : ∀ s', SameBut [] s s' → s'.mem = s.mem → s'.world = (closeService (s.get .a0) s.world).world →
      wp (simulator address labelAt data) access rest s' post) :
    wp (simulator address labelAt data) access (.ecall :: rest) s post := by
  refine wp_quietService _ ?_ ends
  rw [systemCall, a7]
  rfl

theorem wp_read (result base : Word) (bytes : List UInt8) (world' : World) (a7 : s.get .a7 = 63)
    (read : readService (s.get .a0) (s.get .a1) (s.get .a2) s.world = ⟨[(.a0, result)], base, bytes, world'⟩)
    (stores : access.stores base bytes.length = true)
    (ends : ∀ s', SameBut [.a0] s s' → s'.get .a0 = result → s'.mem = s.mem.store base bytes → s'.world = world' →
      wp (simulator address labelAt data) access rest s' post) :
    wp (simulator address labelAt data) access (.ecall :: rest) s post := by
  refine wp_service result base bytes world' (by decide) ?_ stores ends
  rw [systemCall, a7]
  exact congrArg some read

theorem systemCall_inputDialog (a7 : s.get .a7 = 54) :
    systemCall s = inputDialogString (s.get .a1) (s.get .a2) s.world := by
  rw [systemCall, a7]
  rfl

theorem wp_message (a7 : s.get .a7 = 55)
    (ends : ∀ s', SameBut [] s s' → s'.mem = s.mem → s'.world = s.world →
      wp (simulator address labelAt data) access rest s' post) :
    wp (simulator address labelAt data) access (.ecall :: rest) s post := by
  refine wp_quietService _ ?_ ends
  rw [systemCall, a7]
  rfl

end

end ArchCompSystems.Ihw3
