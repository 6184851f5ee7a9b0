import ArchCompSystems.Ihw3.Fread

namespace ArchCompSystems.Ihw3

open Library Library.RiscV Library.RiscV.Instr

section

variable {address : Label → Word} {labelAt : Word → Option Label} {data : DataLabel → Word} {access : Access}
  {post : Place Label → State World → Prop} {s₀ s : State World} {top d : Word} {name bytes : List UInt8}

theorem wp_write {rest : List (Instr Label DataLabel)} {post : Next Label → State World → Prop} (result : Word)
    (world' : World) (a7 : s.get .a7 = 64)
    (written : writeService (s.get .a0) (s.mem.load (s.get .a1) (s.get .a2).toNat) s.world = answer .a0 result world')
    (ends : ∀ s', SameBut [.a0] s s' → s'.get .a0 = result → s'.mem = s.mem → s'.world = world' →
      wp (simulator address labelAt data) access rest s' post) :
    wp (simulator address labelAt data) access (.ecall :: rest) s post := by
  refine wp_service result 0 [] world' (by decide) ?_ rfl ends
  rw [systemCall, a7]
  exact congrArg some written

/-- What `fwrite` pushes, the last register first. -/
def fwriteSaved : List Reg := [.ra, .s3, .s2, .s1]

/-- The four words of stack that `fwrite` may use. -/
structure WriteStack (access : Access) (top : Word) : Prop where
  aligned : isAligned top = true
  loads : access.loads (below top 16) 16 = true
  stores : access.stores (below top 16) 16 = true

structure InFwrite (top : Word) (s₀ s : State World) : Prop where
  sp : s.get .sp = below top 16
  pushed : Pushed s.mem top (fwriteSaved.map s₀.get)
  kept : SameBut ([.sp, .s1, .s2, .s3] ++ fileToolsClobbered) s₀ s

theorem InFwrite.trans (inside : InFwrite top s₀ s) {s' : State World} {regs : List Reg} (same : SameBut regs s s')
    (allowed : regs ⊆ [Reg.s1, .s2, .s3] ++ fileToolsClobbered) (mem : s'.mem = s.mem) : InFwrite top s₀ s' := by
  have sp : s'.get .sp = s.get .sp := same .sp fun is_sp => by
    have := allowed is_sp
    revert this
    decide
  refine ⟨sp.trans inside.sp, mem ▸ inside.pushed, fun r outside => ?_⟩
  rw [same r fun changed => outside (List.mem_cons_of_mem _ (allowed changed))]
  exact inside.kept r outside

theorem InFwrite.set (inside : InFwrite top s₀ s) {r : Reg} {w : Word}
    (allowed : r ∈ [Reg.s1, .s2, .s3] ++ fileToolsClobbered) : InFwrite top s₀ (s.set r w) :=
  inside.trans (SameBut.refl.set (List.mem_singleton.mpr rfl)) (fun _ mem => List.mem_singleton.mp mem ▸ allowed) rfl

theorem fwriteEpilogue_ends (stack : WriteStack access top) (entered : s₀.get .sp = top) (inside : InFwrite top s₀ s)
    (done : ∀ s', SameBut fileToolsClobbered s₀ s' → s'.get .a0 = s.get .a0 → s'.mem = s.mem → s'.world = s.world →
      Eventually (simulator address labelAt data) access program post
        ((simulator address labelAt data).place (s₀.get .ra)) s') :
    Eventually (simulator address labelAt data) access program post (.label (.fileTools .fwriteEpilogue)) s := by
  have code : program.block (.fileTools .fwriteEpilogue) =
      fwriteSaved.flatMap (fun reg => [.lw reg 0 .sp, addi .sp .sp 4]) ++ [.ret] := rfl
  refine eventually_block ?_
  rw [code]
  refine wp_popAll fwriteSaved 16 (fwriteSaved.map s₀.get) [] (by decide) (by decide)
    (by decide) inside.sp (by rw [List.append_nil]; exact inside.pushed) rfl stack.loads (Nat.le_refl 16)
    stack.aligned ?_
  intro s' sp popped kept mem world
  have restored : ∀ r ∈ fwriteSaved, s'.get r = s₀.get r := List.map_inj_left.mp popped
  refine wp_ret ?_
  rw [restored .ra (by decide)]
  refine done s' (fun r outside => ?_) (kept .a0 (by decide) (by decide)) mem world
  by_cases mem : r ∈ fwriteSaved
  · exact restored r mem
  · by_cases is_sp : r = .sp
    · rw [is_sp, sp, entered]
      exact below_zero
    · rw [kept r is_sp mem]
      refine inside.kept r fun changed => ?_
      simp only [fwriteSaved, fileToolsClobbered, List.cons_append, List.nil_append, List.mem_cons, List.not_mem_nil,
        or_false, not_or] at mem outside changed
      simp_all

def World.saved (world : World) (d : Word) (name bytes : List UInt8) : World :=
  { world with files := Function.update world.files name (some bytes), closed := world.closed ++ [d] }

def World.created (world : World) (d : Word) (name : List UInt8) : World :=
  { world.update d ⟨name, false, []⟩ with files := Function.update world.files name (some []) }

theorem openService_created {world : World} (free : world.freeDescriptor = some d)
    (writable : world.isWritable name = true) : openService name 1 world = answer .a0 d (world.created d name) := by
  rw [openService, free]
  simp only [if_neg (show (1 : Word) ≠ 0 by decide), writable, if_true]
  rfl

theorem openService_refused {world : World} (refused : world.freeDescriptor = none ∨ world.isWritable name = false) :
    openService name 1 world = answer .a0 (-1) world := by
  cases free : world.freeDescriptor with
  | none => rw [openService, free]
  | some d =>
    have writable : world.isWritable name = false := refused.resolve_left (by simp [free])
    rw [openService, free]
    simp only [if_neg (show (1 : Word) ≠ 0 by decide), writable, Bool.false_eq_true, if_false]

theorem writeService_created {world : World} : writeService d bytes (world.created d name) =
    answer .a0 (BitVec.ofNat 32 bytes.length)
      { world.created d name with files := Function.update world.files name (some bytes) } := by
  have found : (world.created d name).find d = some ⟨name, false, []⟩ := World.find_update
  rw [writeService, found]
  simp [World.created, Function.update_self, Function.update_idem]

theorem closeService_created {world : World} (unused : world.find d = none) :
    (closeService d { world.created d name with files := Function.update world.files name (some bytes) }).world =
      world.saved d name bytes := by
  have others := World.filter_of_free unused
  simp only [closeService, World.created, World.update, World.saved, others]
  rw [List.filter_cons_of_neg (by simp), others]

theorem created_ends (stack : WriteStack access top) (entered : s₀.get .sp = top) (unused : s₀.world.find d = none)
    (inside : InFwrite top s₀ s) (a0 : s.get .a0 = d) (size : s.get .s2 = BitVec.ofNat 32 bytes.length)
    (buffer : s.mem.load (s.get .s1) (s.get .s2).toNat = bytes) (world : s.world = s₀.world.created d name)
    (done : ∀ s', SameBut fileToolsClobbered s₀ s' → s'.get .a0 = 0 → s'.world = s₀.world.saved d name bytes →
      Eventually (simulator address labelAt data) access program post
        ((simulator address labelAt data).place (s₀.get .ra)) s') :
    wp (simulator address labelAt data) access [mv .s3 .a0, mv .a1 .s1, mv .a2 .s2, li .a7 64, .ecall, sub .s2 .a0 .s2,
        mv .a0 .s3, li .a7 57, .ecall, mv .a0 .s2] s
      (GoesOn (simulator address labelAt data) access program post (.fileTools .fwrite)) := by
  refine wp_mv (wp_mv (wp_mv (wp_li (wp_write (BitVec.ofNat 32 bytes.length)
    { s₀.world.created d name with files := Function.update s₀.world.files name (some bytes) } (get_set_self (by decide)) ?_
    fun s' same a0' mem world' => wp_sub (wp_mv (wp_li (wp_close (get_set_self (by decide))
      fun s'' same' mem' world'' => wp_mv (wp_nil ⟨_, rfl, ?_⟩))))))))
  · simp only [get_set_self, get_set_of_ne, ne_eq, reduceCtorEq, not_false_eq_true, world_set, mem_set, a0, world, buffer]
    exact writeService_created
  have s2 : s'.get .s2 = BitVec.ofNat 32 bytes.length := by
    rw [same .s2 (by decide), ← size]
    simp
  have s3 : s'.get .s3 = d := by
    rw [same .s3 (by decide), ← a0]
    simp
  have at_write : ∀ v₁ v₂ v₃ v₄, InFwrite top s₀ ((((s.set .s3 v₁).set .a1 v₂).set .a2 v₃).set .a7 v₄) :=
    fun _ _ _ _ => (((inside.set (by decide)).set (by decide)).set (by decide)).set (by decide)
  have written : InFwrite top s₀ s' := (at_write _ _ _ _).trans same (by decide) mem
  have at_close : ∀ v₁ v₂ v₃, InFwrite top s₀ (((s'.set .s2 v₁).set .a0 v₂).set .a7 v₃) :=
    fun _ _ _ => ((written.set (by decide)).set (by decide)).set (by decide)
  have closed : InFwrite top s₀ s'' := (at_close _ _ _).trans same' (List.nil_subset _) mem'
  refine fwriteEpilogue_ends stack entered (closed.set (by decide)) fun e kept a0'' _ returned => done e kept ?_ ?_
  · rw [a0'', get_set_self (by decide), same' .s2 (List.not_mem_nil)]
    simp only [get_set_self, get_set_of_ne, ne_eq, reduceCtorEq, not_false_eq_true, a0', s2, sub_self]
  · rw [returned, world_set, world'']
    simp only [get_set_self, get_set_of_ne, ne_eq, reduceCtorEq, not_false_eq_true, world_set, world', s3]
    exact closeService_created unused

/-- A call with the name of a file in `a0` and its bytes in `a1` and `a2`, both apart from the four words that are
pushed. -/
structure FwriteRequest (name bytes : List UInt8) (s : State World) : Prop where
  holds : s.mem.Holds (s.get .a0) (name ++ [0])
  nonzero : ∀ c ∈ name, c ≠ 0
  short : name.length + 1 ≤ 2 ^ 32
  buffer : s.mem.Holds (s.get .a1) bytes
  size : (s.get .a2).toInt = bytes.length
  aligned : isAligned (s.get .sp) = true
  nameStack : Apart (s.get .a0) (name.length + 1) (below (s.get .sp) 16) 16
  bufferStack : Apart (s.get .a1) bytes.length (below (s.get .sp) 16) 16

theorem FwriteRequest.length (request : FwriteRequest name bytes s) :
    (s.get .a2).toNat = bytes.length ∧ bytes.length < 2 ^ 32 := by
  have size := request.size
  have value := BitVec.toInt_eq_toNat_cond (s.get .a2)
  have bound := (s.get .a2).isLt
  split at value <;> omega

/-- What a call does: there is no descriptor or the file is not writable, or the file is written and closed. -/
inductive FwriteEnds (name bytes : List UInt8) (s s' : State World) : Prop where
  | notOpened (refused : s.world.freeDescriptor = none ∨ s.world.isWritable name = false) (a0 : s'.get .a0 = -1)
      (world : s'.world = s.world)
  | written {d : Word} (free : s.world.freeDescriptor = some d) (writable : s.world.isWritable name = true)
      (a0 : s'.get .a0 = 0) (world : s'.world = s.world.saved d name bytes)

theorem fwrite_ends (request : FwriteRequest name bytes s) (stack : WriteStack access (s.get .sp))
    (done : ∀ s', SameBut fileToolsClobbered s s' → FwriteEnds name bytes s s' →
      Eventually (simulator address labelAt data) access program post
        ((simulator address labelAt data).place (s.get .ra)) s') :
    Eventually (simulator address labelAt data) access program post (.label (.fileTools .fwrite)) s := by
  have code : program.block (.fileTools .fwrite) =
      fwriteSaved.reverse.flatMap (fun reg => [addi .sp .sp (-4), .sw reg 0 .sp]) ++ [mv .s1 .a1, mv .s2 .a2,
        li .s3 (-1), li .a1 1, li .a7 1024, .ecall, beq .a0 .s3 (.fileTools .fwriteEpilogue), mv .s3 .a0, mv .a1 .s1,
        mv .a2 .s2, li .a7 64, .ecall, sub .s2 .a0 .s2, mv .a0 .s3, li .a7 57, .ecall, mv .a0 .s2] := rfl
  obtain ⟨size, bound⟩ := request.length
  refine eventually_block ?_
  rw [code]
  refine wp_pushAll fwriteSaved.reverse (s.get .sp) 16 [] (by decide) below_zero.symm .nil
    stack.stores (Nat.le_refl 16) (by decide) stack.aligned ?_
  intro s' sp kept pushed outside world
  have inside : InFwrite (s.get .sp) s s' := by
    refine ⟨sp, ?_, fun r other => kept r fun is_sp => other (is_sp ▸ List.mem_cons_self)⟩
    rwa [← List.map_reverse, List.reverse_reverse, List.append_nil] at pushed
  have named : stringAt s'.mem (s.get .a0) memorySize = name := by
    have length : (name ++ [0]).length = name.length + 1 := by rw [List.length_append, List.length_singleton]
    refine stringAt_of_holds (request.holds.congr (length ▸ request.short) fun address at_name => ?_) request.nonzero
      request.short
    exact outside address (request.nameStack address (length ▸ at_name))
  have buffer : s'.mem.load (s.get .a1) (s.get .a2).toNat = bytes := by
    rw [size]
    exact Memory.load_of_holds (request.buffer.congr (Nat.le_of_lt bound) fun address at_buffer =>
      outside address (request.bufferStack address at_buffer))
  refine wp_mv (wp_mv (wp_li (wp_li (wp_li ?_))))
  suffices opens : ∀ t : State World, InFwrite (s.get .sp) s t → t.get .s1 = s.get .a1 → t.get .s2 = s.get .a2 →
      t.get .s3 = -1 → t.get .a1 = 1 → t.get .a7 = 1024 → t.get .a0 = s.get .a0 → t.mem = s'.mem → t.world = s.world →
      wp (simulator address labelAt data) access [.ecall, beq .a0 .s3 (.fileTools .fwriteEpilogue), mv .s3 .a0,
          mv .a1 .s1, mv .a2 .s2, li .a7 64, .ecall, sub .s2 .a0 .s2, mv .a0 .s3, li .a7 57, .ecall, mv .a0 .s2] t
        (GoesOn (simulator address labelAt data) access program post (.fileTools .fwrite)) by
    refine opens _ ?_ ?_ ?_ ?_ ?_ ?_ ?_ ?_ ?_
    · exact ((((inside.set (by decide)).set (by decide)).set (by decide)).set (by decide)).set (by decide)
    · simp [kept]
    · simp [kept]
    · rw [get_set_of_ne (by decide), get_set_of_ne (by decide), get_set_self (by decide)]
    · rw [get_set_of_ne (by decide), get_set_self (by decide)]
    · rw [get_set_self (by decide)]
    · simp [kept]
    · rfl
    · simpa using world
  intro t inside s1 s2 s3 a1 a7 a0 mem world
  by_cases opened : ∃ d, s.world.freeDescriptor = some d ∧ s.world.isWritable name = true
  · obtain ⟨d, free, writable⟩ := opened
    obtain ⟨unused, small⟩ := World.freeDescriptor_spec free
    have size' : s.get .a2 = BitVec.ofNat 32 bytes.length := by rw [← size, BitVec.ofNat_toNat, BitVec.setWidth_eq]
    refine wp_open d (s.world.created d name) a7 (by rw [mem, a0, a1, world, named]; exact openService_created free writable)
      fun t' same a0' mem' world' => wp_beq (fun failed => ?_) fun _ => ?_
    · rw [a0', same .s3 (by decide), s3] at failed
      exact absurd (failed ▸ small) (by decide)
    have s1' : t'.get .s1 = s.get .a1 := (same .s1 (by decide)).trans s1
    have s2' : t'.get .s2 = s.get .a2 := (same .s2 (by decide)).trans s2
    refine created_ends stack rfl unused (inside.trans same (by decide) mem') a0' (s2'.trans size') ?_ world'
      fun e kept' a0'' world'' => done e kept' (.written free writable a0'' world'')
    rw [mem', mem, s1', s2', buffer]
  · have refused : s.world.freeDescriptor = none ∨ s.world.isWritable name = false := by
      cases free : s.world.freeDescriptor with
      | none => exact .inl rfl
      | some d => exact .inr (Bool.eq_false_iff.mpr fun writable => opened ⟨d, free, writable⟩)
    refine wp_open (-1) s.world a7 (by rw [mem, a0, a1, world, named]; exact openService_refused refused)
      fun t' same a0' mem' world' => wp_beq (fun _ => ?_) fun differ => ?_
    · refine fwriteEpilogue_ends stack rfl (inside.trans same (by decide) mem') fun s' kept' a0'' _ world'' =>
        done s' kept' (.notOpened refused (a0''.trans a0') (world''.trans world'))
    · exact absurd (a0'.trans (by rw [same .s3 (by decide), s3])) differ

/-- The accesses of a call: it loads from the stack and stores there. -/
def fwriteAccess (top : Word) : Access where
  mayLoad address := inRange (below top 16) 16 address
  mayStore address := inRange (below top 16) 16 address

/-- `fwrite` returns with the registers of the caller as they were. A file that it could open holds the bytes of the
buffer and nothing else, it is closed once, and nothing is stored but on the stack. -/
theorem fwrite_correct (address : Label → Word) (labelAt : Word → Option Label) (data : DataLabel → Word)
    (request : FwriteRequest name bytes s) :
    Eventually (simulator address labelAt data) (fwriteAccess (s.get .sp)) program
      (fun place s' => (place = (simulator address labelAt data).place (s.get .ra) ∧
          SameBut fileToolsClobbered s s' ∧ FwriteEnds name bytes s s') ∧
        ∀ address, inRange (below (s.get .sp) 16) 16 address = false → s'.mem address = s.mem address)
      (.label (.fileTools .fwrite)) s := by
  have stack : WriteStack (fwriteAccess (s.get .sp)) (s.get .sp) := {
    aligned := request.aligned
    loads := Access.loads_of_range (fun _ inside => inside) (by decide)
    stores := Access.stores_of_range (fun _ inside => inside) (by decide) }
  have returns : Eventually (simulator address labelAt data) (fwriteAccess (s.get .sp)) program
      (fun place s' => place = (simulator address labelAt data).place (s.get .ra) ∧
        SameBut fileToolsClobbered s s' ∧ FwriteEnds name bytes s s') (.label (.fileTools .fwrite)) s :=
    fwrite_ends request stack fun s' kept ends => .here ⟨rfl, kept, ends⟩
  refine returns.outside.mono ?_
  rintro place s' ⟨returned, kept⟩
  exact ⟨returned, fun address off_stack => kept address off_stack⟩

end

section

/-- A name at 0x10010000 and three bytes at 0x10010100; every file may be written. -/
def exampleFwrite : State World :=
  State.setAll ⟨fun _ => 0, Memory.store (Memory.store (fun _ => 0) 0x10010000 [65, 0]) 0x10010100 [66, 67, 68],
      ⟨fun _ => none, fun _ => true, [], [], [], [], []⟩⟩
    [(.a0, 0x10010000), (.a1, 0x10010100), (.a2, 3), (.sp, 0x7fffeff0)]

theorem exampleFwrite_request : FwriteRequest [65] [66, 67, 68] exampleFwrite := by
  have a0 : exampleFwrite.get .a0 = 0x10010000 := by simp [exampleFwrite]
  have a1 : exampleFwrite.get .a1 = 0x10010100 := by simp [exampleFwrite]
  have a2 : exampleFwrite.get .a2 = 3 := by simp [exampleFwrite]
  have sp : exampleFwrite.get .sp = 0x7fffeff0 := by simp [exampleFwrite]
  refine ⟨?_, by simp, by decide, ?_, ?_, ?_, ?_, ?_⟩
  · rw [a0]
    exact (Memory.holds_store (by decide)).store (by decide) (apart_of_le (by decide) (by decide))
  · rw [a1]
    exact Memory.holds_store (by decide)
  · rw [a2]
    decide
  · rw [sp]
    decide
  · rw [a0, sp]
    exact apart_of_le (by decide) (by decide)
  · rw [a1, sp]
    exact apart_of_le (by decide) (by decide)

theorem three_bytes_are_written : FwriteRequest [65] [66, 67, 68] exampleFwrite ∧
    Eventually (simulator (fun _ => 0) (fun _ => none) fun _ => 0) (fwriteAccess (exampleFwrite.get .sp)) program
      (fun place s' => (place = (simulator (fun _ => 0) (fun _ => none) fun _ => 0).place (exampleFwrite.get .ra) ∧
          SameBut fileToolsClobbered exampleFwrite s' ∧ FwriteEnds [65] [66, 67, 68] exampleFwrite s') ∧
        ∀ address, inRange (below (exampleFwrite.get .sp) 16) 16 address = false →
          s'.mem address = exampleFwrite.mem address)
      (.label (.fileTools .fwrite)) exampleFwrite :=
  ⟨exampleFwrite_request, fwrite_correct _ _ _ exampleFwrite_request⟩

end

end ArchCompSystems.Ihw3
