import ArchCompSystems.Ihw3.Simulator
import ArchCompSystems.Library.SignedWords

namespace ArchCompSystems.Ihw3

open Library Library.RiscV Library.RiscV.Instr

section

variable {world : World} {descriptor : Word} {file : OpenFile}

theorem stringAt_of_holds {m : Memory} {address : Word} {name : List UInt8} {count : Nat}
    (holds : m.Holds address (name ++ [0])) (nonzero : ∀ c ∈ name, c ≠ 0) (enough : name.length < count) :
    stringAt m address count = name := by
  induction name generalizing address count with
  | nil =>
    obtain ⟨count, rfl⟩ := Nat.exists_eq_succ_of_ne_zero (Nat.ne_of_gt enough)
    exact if_pos (Memory.holds_cons.mp holds).1
  | cons c rest ih =>
    obtain ⟨count, rfl⟩ := Nat.exists_eq_succ_of_ne_zero (Nat.ne_of_gt (Nat.lt_of_le_of_lt (Nat.zero_le _) enough))
    obtain ⟨first, holds'⟩ := Memory.holds_cons.mp holds
    rw [stringAt, first, if_neg (nonzero c List.mem_cons_self),
      ih holds' (fun c' mem => nonzero c' (List.mem_cons_of_mem _ mem)) (Nat.lt_of_succ_lt_succ enough)]

theorem World.freeDescriptor_spec (free : world.freeDescriptor = some descriptor) :
    world.find descriptor = none ∧ descriptor.toNat < 32 := by
  have found := List.find?_some free
  have mem := List.mem_of_find?_eq_some free
  simp only [Bool.and_eq_true, Option.isNone_iff_eq_none] at found
  obtain ⟨n, lower, rfl⟩ := List.mem_map.mp mem
  rw [List.mem_range] at lower
  refine ⟨found.2, ?_⟩
  rw [BitVec.toNat_ofNat]
  omega

theorem World.find_update : (world.update descriptor file).find descriptor = some file := by
  rw [World.find, World.update, List.lookup_cons_self]

theorem World.filter_of_free (free : world.find descriptor = none) :
    world.opened.filter (·.1 ≠ descriptor) = world.opened := by
  refine List.filter_eq_self.mpr fun entry mem => decide_eq_true fun same => ?_
  have absent := List.lookup_eq_none_iff.mp free entry mem
  simp [same] at absent

end

section

variable {address : Label → Word} {labelAt : Word → Option Label} {data : DataLabel → Word} {access : Access}
  {post : Place Label → State World → Prop} {s₀ s : State World} {base top d : Word} {size : Nat}
  {name content : List UInt8} {k n : Nat}

/-- The registers that a call of a function of file-tools.s need not keep. -/
def fileToolsClobbered : List Reg := [.t0, .a0, .a1, .a2, .a7]

/-- What `fread` pushes, the last register first. -/
def freadSaved : List Reg := [.ra, .s4, .s3, .s2, .s1]

/-- The buffer and the stack that `fread` may use. -/
structure Buffer (access : Access) (base : Word) (size : Nat) (top : Word) : Prop where
  positive : 0 < size
  bound : size < 2 ^ 31
  aligned : isAligned top = true
  apart : Apart (below top 20) 20 base size
  loadsStack : access.loads (below top 20) 20 = true
  storesStack : access.stores (below top 20) 20 = true
  storesBuffer : access.stores base size = true

structure InFread (top : Word) (s₀ s : State World) : Prop where
  sp : s.get .sp = below top 20
  pushed : Pushed s.mem top (freadSaved.map s₀.get)
  kept : SameBut ([.sp, .s1, .s2, .s3, .s4] ++ fileToolsClobbered) s₀ s

theorem InFread.trans (inside : InFread top s₀ s) {s' : State World} {regs : List Reg} (same : SameBut regs s s')
    (allowed : regs ⊆ [Reg.s1, .s2, .s3, .s4] ++ fileToolsClobbered) (mem : s'.mem = s.mem) : InFread top s₀ s' := by
  have sp : s'.get .sp = s.get .sp := same .sp fun is_sp => by
    have := allowed is_sp
    revert this
    decide
  refine ⟨sp.trans inside.sp, mem ▸ inside.pushed, fun r outside => ?_⟩
  rw [same r fun changed => outside (List.mem_cons_of_mem _ (allowed changed))]
  exact inside.kept r outside

theorem InFread.set (inside : InFread top s₀ s) {r : Reg} {w : Word}
    (allowed : r ∈ [Reg.s1, .s2, .s3, .s4] ++ fileToolsClobbered) : InFread top s₀ (s.set r w) :=
  inside.trans (SameBut.refl.set (List.mem_singleton.mpr rfl)) (fun _ mem => List.mem_singleton.mp mem ▸ allowed) rfl

theorem InFread.store (inside : InFread top s₀ s) {base' : Word} {bytes : List UInt8}
    (apart : Apart (below top 20) 20 base' bytes.length) : InFread top s₀ (s.store base' bytes) :=
  ⟨inside.sp, inside.pushed.store (show 4 * 5 ≤ 2 ^ 32 by decide) apart, inside.kept⟩

theorem Buffer.apart_part (buffer : Buffer access base size top) {i count : Nat} (fits : i + count ≤ size) :
    Apart (below top 20) 20 (offset base i) count := by
  have bound := buffer.bound
  have part := buffer.apart.part 0 20 i count (by decide) (by decide) fits (by omega)
  rwa [offset_zero] at part

theorem fileIsNotOpened_ends (buffer : Buffer access base size top) (entered : s₀.get .sp = top)
    (inside : InFread top s₀ s)
    (done : ∀ s', SameBut fileToolsClobbered s₀ s' → s'.get .a0 = s.get .a0 → s'.mem = s.mem → s'.world = s.world →
      Eventually (simulator address labelAt data) access program post
        ((simulator address labelAt data).place (s₀.get .ra)) s') :
    Eventually (simulator address labelAt data) access program post (.label (.fileTools .fileIsNotOpened)) s := by
  have code : program.block (.fileTools .fileIsNotOpened) =
      freadSaved.flatMap (fun reg => [.lw reg 0 .sp, addi .sp .sp 4]) ++ [.ret] := rfl
  refine eventually_block ?_
  rw [code]
  refine wp_popAll freadSaved 20 (freadSaved.map s₀.get) [] (by decide) (by decide)
    (by decide) inside.sp (by rw [List.append_nil]; exact inside.pushed) rfl buffer.loadsStack (Nat.le_refl 20)
    buffer.aligned ?_
  intro s' sp popped kept mem world
  have restored : ∀ r ∈ freadSaved, s'.get r = s₀.get r := List.map_inj_left.mp popped
  refine wp_ret ?_
  rw [restored .ra (by decide)]
  refine done s' (fun r outside => ?_) (kept .a0 (by decide) (by decide)) mem world
  by_cases mem : r ∈ freadSaved
  · exact restored r mem
  · by_cases is_sp : r = .sp
    · rw [is_sp, sp, entered]
      exact below_zero
    · rw [kept r is_sp mem]
      refine inside.kept r fun changed => ?_
      simp only [freadSaved, fileToolsClobbered, List.cons_append, List.nil_append, List.mem_cons, List.not_mem_nil,
        or_false, not_or] at mem outside changed
      simp_all

theorem freadEpilogue_ends (buffer : Buffer access base size top) (entered : s₀.get .sp = top) {fails : List Bool}
    {file : OpenFile} (free : s₀.world.find d = none) (small : d.toNat < 32) (inside : InFread top s₀ s) (s3 : s.get .s3 = d)
    (world : s.world = { s₀.world with opened := (d, file) :: s₀.world.opened, readFails := fails })
    (done : ∀ s', SameBut fileToolsClobbered s₀ s' → s'.get .a0 = s.get .a0 → s'.mem = s.mem →
      s'.world = { s₀.world with closed := s₀.world.closed ++ [d], readFails := fails } →
      Eventually (simulator address labelAt data) access program post
        ((simulator address labelAt data).place (s₀.get .ra)) s') :
    Eventually (simulator address labelAt data) access program post (.label (.fileTools .freadEpilogue)) s := by
  have opened : s.get .s3 = BitVec.ofNat 32 d.toNat := by rw [s3, BitVec.ofNat_toNat, BitVec.setWidth_eq]
  refine eventually_block (wp_bltz (fun negative => ?_) fun _ => ?_)
  · rw [opened, ofNat_not_negative (by omega)] at negative
    cases negative
  refine wp_mv (wp_mv (wp_li (wp_close (get_set_self (by decide)) fun s' same mem world' => wp_mv (wp_nil ⟨_, rfl, ?_⟩))))
  have inside' : InFread top s₀ s' := by
    refine InFread.trans (InFread.set (InFread.set (inside.set ?_) ?_) ?_) same (List.nil_subset _) mem <;> decide
  refine fileIsNotOpened_ends buffer entered (inside'.set (by decide)) fun s'' kept a0 mem' world'' =>
    done s'' kept ?_ (mem'.trans mem) ?_
  · rw [a0, get_set_self (by decide), same .s1 (List.not_mem_nil)]
    simp
  · rw [world'', world_set, world']
    simp only [get_set_self, get_set_of_ne, ne_eq, reduceCtorEq, not_false_eq_true, world_set, s3, world, closeService]
    rw [List.filter_cons_of_neg (by simp), World.filter_of_free free]

theorem mem_take_succ {fails : List Bool} (fails_now : (fails.drop n).headD false = true) : true ∈ fails.take (n + 1) := by
  rw [List.take_add_one, List.mem_append]
  right
  cases at_n : fails[n]? with
  | none =>
    rw [List.drop_eq_nil_of_le (List.getElem?_eq_none_iff.mp at_n)] at fails_now
    cases fails_now
  | some fail =>
    rw [List.headD_eq_head?_getD, List.head?_drop, at_n] at fails_now
    exact List.mem_singleton.mpr fails_now.symm

theorem not_mem_take_succ {fails : List Bool} (works : (fails.drop n).headD false = false) (before : true ∉ fails.take n) :
    true ∉ fails.take (n + 1) := by
  rw [List.take_add_one, List.mem_append, not_or]
  refine ⟨before, fun mem => ?_⟩
  obtain at_n := Option.mem_toList.mp mem
  rw [List.headD_eq_head?_getD, List.head?_drop, at_n] at works
  cases works

theorem whole_chunk_iff {r : Nat} (bound : r < 2 ^ 32) : BitVec.ofNat 32 r + -readChunkSize = 0 ↔ r = 512 := by
  rw [add_neg_eq_zero]
  exact ofNat_inj bound (by decide)

theorem and_flags {p q : Prop} [Decidable p] [Decidable q] :
    ((if p then 1 else 0 : Word) &&& if q then 1 else 0) = if p ∧ q then 1 else 0 := by
  by_cases hp : p <;> by_cases hq : q <;> simp [hp, hq]

/-- `k` bytes are in the buffer after `n` reads. -/
structure Reading (base top d : Word) (size : Nat) (name content : List UInt8) (k n : Nat) (s₀ s : State World) : Prop
    extends InFread top s₀ s where
  s1 : s.get .s1 = base
  s2 : s.get .s2 = BitVec.ofNat 32 (size - 1)
  s3 : s.get .s3 = d
  s4 : s.get .s4 = BitVec.ofNat 32 k
  world : s.world = { s₀.world with
    opened := (d, ⟨name, true, content.drop k⟩) :: s₀.world.opened, readFails := s₀.world.readFails.drop n }
  holds : s.mem.Holds base (content.take k)
  room : k ≤ size - 1
  within : k ≤ content.length
  quiet : true ∉ s₀.world.readFails.take n

/-- How many bytes `fread` returns. -/
def readLength (size : Nat) (content : List UInt8) : Nat := min (size - 1) content.length

/-- What `fread` leaves after `n` reads, when it could open the file as `d`. -/
structure FreadResult (base d : Word) (size : Nat) (content : List UInt8) (n : Nat) (s₀ s : State World) : Prop where
  world : s.world = { s₀.world with closed := s₀.world.closed ++ [d], readFails := s₀.world.readFails.drop n }
  failed : true ∈ s₀.world.readFails.take n → s.get .a0 = -1
  succeeded : true ∉ s₀.world.readFails.take n →
    s.get .a0 = BitVec.ofNat 32 (readLength size content) ∧ s.mem.Holds base (content.take (readLength size content) ++ [0])

theorem Reading.set (reading : Reading base top d size name content k n s₀ s) {r : Reg} {w : Word}
    (allowed : r ∈ fileToolsClobbered) : Reading base top d size name content k n s₀ (s.set r w) := by
  have kept : ∀ r' ∉ fileToolsClobbered, (s.set r w).get r' = s.get r' := fun r' outside => by
    have different : r' ≠ r := fun same => outside (same ▸ allowed)
    rw [get_set_of_ne different]
  refine ⟨reading.toInFread.set (List.mem_append_right _ allowed), ?_, ?_, ?_, ?_, reading.world, reading.holds,
    reading.room, reading.within, reading.quiet⟩
  · rw [kept .s1 (by decide), reading.s1]
  · rw [kept .s2 (by decide), reading.s2]
  · rw [kept .s3 (by decide), reading.s3]
  · rw [kept .s4 (by decide), reading.s4]

/-- The size of the next request. -/
def request (size k : Nat) : Nat := min 512 (size - 1 - k)

section

variable (buffer : Buffer access base size top) (entered : s₀.get .sp = top) (free : s₀.world.find d = none)
  (small : d.toNat < 32)
  (done : ∀ s' n, SameBut fileToolsClobbered s₀ s' → FreadResult base d size content n s₀ s' →
    Eventually (simulator address labelAt data) access program post ((simulator address labelAt data).place (s₀.get .ra)) s')

include buffer entered free small done

theorem failed_ends (inside : InFread top s₀ s) (s3 : s.get .s3 = d) (a0 : s.get .a0 = -1) {file : OpenFile}
    (world : s.world = { s₀.world with opened := (d, file) :: s₀.world.opened, readFails := s₀.world.readFails.drop n })
    (failed : true ∈ s₀.world.readFails.take n) :
    Eventually (simulator address labelAt data) access program post (.label (.fileTools .freadEpilogue)) s := by
  refine freadEpilogue_ends buffer entered free small inside s3 world fun s' same a0' _ world' => done s' n same
    ⟨world', fun _ => a0'.trans a0, fun works => absurd failed works⟩

theorem finished_ends (reading : Reading base top d size name content k n s₀ s) (last : k = readLength size content) :
    wp (simulator address labelAt data) access [mv .a0 .s4, add .s1 .s1 .s4, .sb .zero 0 .s1] s
      (GoesOn (simulator address labelAt data) access program post (.fileTools .doNoShrinkReadSize)) := by
  have positive := buffer.positive
  have bound := buffer.bound
  have room := reading.room
  have length : (content.take k).length = k := by rw [List.length_take, Nat.min_eq_left reading.within]
  have stores : access.stores (offset base k) 1 = true := Access.stores_part buffer.storesBuffer (by omega)
  have target : ((s.set .a0 (s.get .s4)).set .s1 (s.get .s1 + s.get .s4)).get .s1 + 0 = offset base k := by
    rw [get_set_self (by decide), add_zero, reading.s1, reading.s4]
    rfl
  refine wp_mv (wp_add ?_)
  rw [get_set_of_ne (by decide), get_set_of_ne (by decide)]
  refine wp_sb (by rw [target]; exact stores) ?_
  rw [target]
  refine wp_nil ⟨_, rfl, ?_⟩
  have inside : InFread top s₀ (((s.set .a0 (s.get .s4)).set .s1 (s.get .s1 + s.get .s4)).store (offset base k) [0]) := by
    refine InFread.store ((reading.toInFread.set (by decide)).set (by decide)) ?_
    exact buffer.apart_part (by rw [List.length_singleton]; omega)
  have front : Apart base k (offset base k) 1 := by
    have parts : Apart (offset base 0) k (offset base k) 1 := apart_parts (by omega) (by omega)
    rwa [offset_zero] at parts
  refine freadEpilogue_ends buffer entered free small inside (by simpa using reading.s3) reading.world
    fun s' same a0 mem world => done s' n same ⟨world, fun failed => absurd failed reading.quiet, fun _ => ⟨?_, ?_⟩⟩
  · rw [a0, ← last]
    simpa using reading.s4
  · rw [mem, ← last, Memory.holds_append, length]
    refine ⟨reading.holds.store (by omega) ?_, Memory.holds_store (show 1 ≤ 2 ^ 32 by decide)⟩
    rw [length]
    exact front

/-- How many bytes the next read brings. -/
def received (size k : Nat) (content : List UInt8) : Nat := min (request size k) (content.length - k)

omit entered free small done in
theorem Reading.advance (reading : Reading base top d size name content k n s₀ s) {s' : State World}
    (works : (s₀.world.readFails.drop n).headD false = false) (same : SameBut [.a0, .a7] s s')
    (a0 : s'.get .a0 = BitVec.ofNat 32 (received size k content))
    (mem : s'.mem = s.mem.store (offset base k) ((content.drop k).take (request size k)))
    (world : s'.world = { s₀.world with
      opened := (d, ⟨name, true, (content.drop k).drop (request size k)⟩) :: s₀.world.opened,
      readFails := s₀.world.readFails.drop (n + 1) }) :
    Reading base top d size name content (k + received size k content) (n + 1) s₀ (s'.set .s4 (s'.get .s4 + s'.get .a0)) := by
  have positive := buffer.positive
  have bound := buffer.bound
  have room := reading.room
  have within := reading.within
  have length : ((content.drop k).take (request size k)).length = received size k content := by
    rw [List.length_take, List.length_drop, received]
  have front : (content.take k).length = k := by rw [List.length_take, Nat.min_eq_left within]
  have fits : k + received size k content ≤ size - 1 := by
    unfold received request
    omega
  have bytes : (content.drop k).take (request size k) = (content.drop k).take (received size k content) := by
    refine List.take_eq_take_iff.mpr ?_
    rw [List.length_drop, received]
    omega
  have left : (content.drop k).drop (request size k) = content.drop (k + received size k content) := by
    rw [List.drop_drop]
    unfold received
    by_cases enough : request size k ≤ content.length - k
    · rw [Nat.min_eq_left enough]
    · rw [List.drop_eq_nil_of_le (by omega), List.drop_eq_nil_of_le (by omega)]
  have inside : InFread top s₀ s' := by
    have stored : InFread top s₀ (s.store (offset base k) ((content.drop k).take (request size k))) :=
      reading.toInFread.store (buffer.apart_part (by rw [length]; omega))
    have same' : SameBut [.a0, .a7] (s.store (offset base k) ((content.drop k).take (request size k))) s' := same
    exact stored.trans same' (by decide) mem
  have holds : s'.mem.Holds base (content.take (k + received size k content)) := by
    rw [mem, List.take_add, Memory.holds_append, front, ← bytes]
    refine ⟨reading.holds.store (by omega) ?_, Memory.holds_store (by omega)⟩
    have parts : Apart (offset base 0) k (offset base k) (received size k content) := apart_parts (by omega) (by omega)
    rw [front, length]
    rwa [offset_zero] at parts
  refine ⟨inside.set (by decide), ?_, ?_, ?_, ?_, ?_, holds, fits, ?_, not_mem_take_succ works reading.quiet⟩
  · rw [get_set_of_ne (by decide), same .s1 (by decide), reading.s1]
  · rw [get_set_of_ne (by decide), same .s2 (by decide), reading.s2]
  · rw [get_set_of_ne (by decide), same .s3 (by decide), reading.s3]
  · rw [get_set_self (by decide), same .s4 (by decide), reading.s4, a0, BitVec.ofNat_add]
  · rw [world_set, world, left]
  · unfold received
    omega

theorem again_or_finished (reading : Reading base top d size name content k n s₀ s) {r : Nat}
    (a0 : s.get .a0 = BitVec.ofNat 32 r) (few : r ≤ 512)
    (again : r = 512 ∧ k < size - 1 → ∀ s', Reading base top d size name content k n s₀ s' →
      Eventually (simulator address labelAt data) access program post (.label (.fileTools .readLoop)) s')
    (last : ¬ (r = 512 ∧ k < size - 1) → k = readLength size content) :
    wp (simulator address labelAt data) access [addi .a0 .a0 (-readChunkSize), seqz .a0 .a0, slt .a1 .s4 .s2, and .a0 .a0 .a1,
        bnez .a0 (.fileTools .readLoop), mv .a0 .s4, add .s1 .s1 .s4, .sb .zero 0 .s1] s
      (GoesOn (simulator address labelAt data) access program post (.fileTools .doNoShrinkReadSize)) := by
  have bound := buffer.bound
  have room := reading.room
  refine wp_addi (wp_seqz (wp_slt (wp_and ?_)))
  simp only [get_set_self, get_set_of_ne, ne_eq, reduceCtorEq, not_false_eq_true, a0, reading.s4, reading.s2,
    slt_ofNat (show k < 2 ^ 31 by omega) (show size - 1 < 2 ^ 31 by omega), decide_eq_true_eq,
    whole_chunk_iff (show r < 2 ^ 32 by omega), and_flags]
  have reading' : ∀ v₁ v₂ v₃ v₄, Reading base top d size name content k n s₀
      ((((s.set .a0 v₁).set .a0 v₂).set .a1 v₃).set .a0 v₄) := fun v₁ v₂ v₃ v₄ =>
    (((reading.set (by decide)).set (by decide)).set (by decide)).set (by decide)
  refine wp_bnez (fun more => ?_) fun finished => ?_
  · rw [get_set_self (by decide)] at more
    refine again ?_ _ (reading' _ _ _ _)
    by_contra ends
    exact more (if_neg ends)
  · rw [get_set_self (by decide)] at finished
    refine finished_ends buffer entered free small done (reading' _ _ _ _) (last fun more => ?_)
    rw [if_pos more] at finished
    revert finished
    decide

theorem doNoShrinkReadSize_ends (reading : Reading base top d size name content k n s₀ s) (a0 : s.get .a0 = d)
    (a1 : s.get .a1 = offset base k) (a2 : s.get .a2 = BitVec.ofNat 32 (request size k))
    (again : ∀ s' k', k < k' → Reading base top d size name content k' (n + 1) s₀ s' →
      Eventually (simulator address labelAt data) access program post (.label (.fileTools .readLoop)) s') :
    Eventually (simulator address labelAt data) access program post (.label (.fileTools .doNoShrinkReadSize)) s := by
  have positive := buffer.positive
  have bound := buffer.bound
  have room := reading.room
  have within := reading.within
  have asked : (BitVec.ofNat 32 (request size k)).toNat = request size k := by
    rw [BitVec.toNat_ofNat, Nat.mod_eq_of_lt (by unfold request; omega)]
  refine eventually_block (wp_li ?_)
  cases fails_now : (s₀.world.readFails.drop n).headD false with
  | true =>
    refine wp_read (-1) 0 [] { s.world with readFails := s.world.readFails.tail }
      (get_set_self (by decide)) ?_ rfl ?_
    · simp only [readService, get_set_of_ne, ne_eq, reduceCtorEq, not_false_eq_true, world_set, reading.world, fails_now,
        if_true, answer]
    intro s' same a0' mem world
    have world' : s'.world = { s₀.world with
        opened := (d, ⟨name, true, content.drop k⟩) :: s₀.world.opened, readFails := s₀.world.readFails.drop (n + 1) } := by
      rw [world, reading.world, ← List.tail_drop]
    refine wp_bltz (fun _ => ?_) fun nonnegative => absurd nonnegative (by rw [a0']; decide)
    refine failed_ends buffer entered free small done ?_ ?_ a0' world' (mem_take_succ fails_now)
    · exact InFread.trans (reading.toInFread.set (by decide)) same (by decide) mem
    · rw [same .s3 (by decide), get_set_of_ne (by decide), reading.s3]
  | false =>
    refine wp_read (BitVec.ofNat 32 (received size k content)) (offset base k) ((content.drop k).take (request size k))
      { s₀.world with
        opened := (d, ⟨name, true, (content.drop k).drop (request size k)⟩) :: s₀.world.opened,
        readFails := s₀.world.readFails.drop (n + 1) }
      (get_set_self (by decide)) ?_ ?_ ?_
    · simp only [readService, get_set_of_ne, ne_eq, reduceCtorEq, not_false_eq_true, world_set, reading.world, fails_now,
        Bool.false_eq_true, if_false, World.find, List.lookup_cons_self, if_true, a0, a1, a2, asked, World.update,
        List.tail_drop, List.length_take, List.length_drop, received]
      rw [List.filter_cons_of_neg (by simp), World.filter_of_free free]
    · exact Access.stores_part buffer.storesBuffer (by rw [List.length_take]; unfold request; omega)
    intro s' same a0' mem world
    have same' : SameBut [.a0, .a7] s s' := fun r outside => by
      simp only [List.mem_cons, List.not_mem_nil, or_false, not_or] at outside
      rw [same r (by simpa using outside.1), get_set_of_ne outside.2]
    have advanced := reading.advance buffer fails_now same' a0' mem world
    have few : received size k content ≤ 512 := by
      unfold received request
      omega
    refine wp_bltz (fun negative => ?_) fun _ => wp_add ?_
    · rw [a0', ofNat_not_negative (by omega)] at negative
      cases negative
    refine again_or_finished buffer entered free small done advanced ?_ few (fun more s'' reading' =>
      again s'' _ (by omega) reading') ?_
    · rw [get_set_of_ne (by decide), a0']
    · unfold received request readLength
      omega

theorem readLoop_ends (reading : Reading base top d size name content k n s₀ s) :
    Eventually (simulator address labelAt data) access program post (.label (.fileTools .readLoop)) s := by
  induction left : size - 1 - k using Nat.strong_induction_on generalizing k n s with
  | _ m ih =>
    have bound := buffer.bound
    have room := reading.room
    have again : ∀ s' k', k < k' → Reading base top d size name content k' (n + 1) s₀ s' →
        Eventually (simulator address labelAt data) access program post (.label (.fileTools .readLoop)) s' :=
      fun s' k' more reading' => ih (size - 1 - k') (by have := reading'.room; omega) reading' rfl
    have rest : BitVec.ofNat 32 (size - 1) - BitVec.ofNat 32 k = BitVec.ofNat 32 (size - 1 - k) := ofNat_sub_ofNat room
    refine eventually_block (wp_mv (wp_add (wp_li (wp_sub (wp_ble (fun whole => ?_) fun part => ?_)))))
    · simp only [get_set_self, get_set_of_ne, ne_eq, reduceCtorEq, not_false_eq_true, reading.s2, reading.s4, rest] at whole
      have enough := (slt_ofNat (n := 512) (show size - 1 - k < 2 ^ 31 by omega) (by decide)).symm.trans whole
      refine doNoShrinkReadSize_ends buffer entered free small done
        ((((reading.set (by decide)).set (by decide)).set (by decide)).set (by decide)) ?_ ?_ ?_ again
      · simpa using reading.s3
      · simp [reading.s1, reading.s4, offset]
      · rw [get_set_of_ne (by decide), get_set_self (by decide), request,
          Nat.min_eq_left (not_lt.mp (of_decide_eq_false enough))]
        rfl
    · simp only [get_set_self, get_set_of_ne, ne_eq, reduceCtorEq, not_false_eq_true, reading.s2, reading.s4, rest] at part
      have short := (slt_ofNat (n := 512) (show size - 1 - k < 2 ^ 31 by omega) (by decide)).symm.trans part
      refine wp_mv (wp_nil ⟨_, rfl, ?_⟩)
      refine doNoShrinkReadSize_ends buffer entered free small done
        (((((reading.set (by decide)).set (by decide)).set (by decide)).set (by decide)).set (by decide)) ?_ ?_ ?_ again
      · simpa using reading.s3
      · simp [reading.s1, reading.s4, offset]
      · simp only [get_set_self, get_set_of_ne, ne_eq, reduceCtorEq, not_false_eq_true, reading.s2, reading.s4, rest, request]
        rw [Nat.min_eq_right (Nat.le_of_lt (of_decide_eq_true short))]

end

/-- A call with the name of a file and a buffer, all apart from the five words that are pushed. -/
structure FreadCall (access : Access) (name : List UInt8) (s : State World) : Prop where
  holds : s.mem.Holds (s.get .a0) (name ++ [0])
  nonzero : ∀ c ∈ name, c ≠ 0
  short : name.length + 1 ≤ 2 ^ 32
  nameStack : Apart (s.get .a0) (name.length + 1) (below (s.get .sp) 20) 20
  buffer : Buffer access (s.get .a1) (s.get .a2).toNat (s.get .sp)

/-- What a call does: the file is not opened, or it is read and closed. -/
inductive FreadEnds (name : List UInt8) (s s' : State World) : Prop where
  | notOpened (missing : s.world.freeDescriptor = none ∨ s.world.files name = none) (a0 : s'.get .a0 = -1)
      (world : s'.world = s.world)
  | read {d : Word} {content : List UInt8} {n : Nat} (free : s.world.freeDescriptor = some d)
      (exists_file : s.world.files name = some content)
      (result : FreadResult (s.get .a1) d (s.get .a2).toNat content n s s')

theorem fread_ends (call : FreadCall access name s)
    (done : ∀ s', SameBut fileToolsClobbered s s' → FreadEnds name s s' →
      Eventually (simulator address labelAt data) access program post
        ((simulator address labelAt data).place (s.get .ra)) s') :
    Eventually (simulator address labelAt data) access program post (.label (.fileTools .fread)) s := by
  have buffer := call.buffer
  have code : program.block (.fileTools .fread) =
      freadSaved.reverse.flatMap (fun reg => [addi .sp .sp (-4), .sw reg 0 .sp]) ++ [mv .s1 .a1, addi .s2 .a2 (-1),
        li .s3 (-1), li .a1 0, li .a7 1024, .ecall, beq .a0 .s3 (.fileTools .freadEpilogue), mv .s3 .a0, li .s4 0] := rfl
  refine eventually_block ?_
  rw [code]
  refine wp_pushAll freadSaved.reverse (s.get .sp) 20 [] (by decide) below_zero.symm .nil
    buffer.storesStack (Nat.le_refl 20) (by decide) buffer.aligned ?_
  intro s' sp kept pushed outside world
  have inside : InFread (s.get .sp) s s' := by
    refine ⟨sp, ?_, fun r other => kept r fun is_sp => other (is_sp ▸ List.mem_cons_self)⟩
    rwa [← List.map_reverse, List.reverse_reverse, List.append_nil] at pushed
  have named : stringAt s'.mem (s.get .a0) memorySize = name := by
    have length : (name ++ [0]).length = name.length + 1 := by rw [List.length_append, List.length_singleton]
    refine stringAt_of_holds (call.holds.congr (length ▸ call.short) fun address at_name => ?_) call.nonzero call.short
    exact outside address (call.nameStack address (length ▸ at_name))
  refine wp_mv (wp_addi (wp_li (wp_li (wp_li ?_))))
  suffices opens : ∀ t : State World, InFread (s.get .sp) s t → t.get .s1 = s.get .a1 →
      t.get .s2 = s.get .a2 + (-1) → t.get .s3 = -1 → t.get .a1 = 0 → t.get .a7 = 1024 →
      stringAt t.mem (t.get .a0) memorySize = name → t.world = s.world →
      wp (simulator address labelAt data) access [.ecall, beq .a0 .s3 (.fileTools .freadEpilogue), mv .s3 .a0, li .s4 0] t
        (GoesOn (simulator address labelAt data) access program post (.fileTools .fread)) by
    refine opens _ ?_ ?_ ?_ ?_ ?_ ?_ ?_ ?_
    · exact ((((inside.set (by decide)).set (by decide)).set (by decide)).set (by decide)).set (by decide)
    · simp [kept]
    · simp only [get_set_self, get_set_of_ne, ne_eq, reduceCtorEq, not_false_eq_true, kept]
    · rw [get_set_of_ne (by decide), get_set_of_ne (by decide), get_set_self (by decide)]
    · rw [get_set_of_ne (by decide), get_set_self (by decide)]
    · rw [get_set_self (by decide)]
    · simpa [kept] using named
    · simpa using world
  intro t inside s1 s2 s3 a1 a7 named world
  have not_opened : s.world.freeDescriptor = none ∨ s.world.files name = none →
      openService name 0 s.world = answer .a0 (-1) s.world →
      wp (simulator address labelAt data) access [.ecall, beq .a0 .s3 (.fileTools .freadEpilogue), mv .s3 .a0, li .s4 0] t
        (GoesOn (simulator address labelAt data) access program post (.fileTools .fread)) := by
    intro missing opened
    refine wp_open (-1) s.world a7 (by rw [named, a1, world]; exact opened) fun t' same a0 mem world' => wp_beq (fun _ => ?_) fun differ => ?_
    · have s3' : t'.get .s3 = -1 := by rw [same .s3 (by decide), s3]
      refine eventually_block (wp_bltz (fun _ => ?_) fun nonnegative => absurd nonnegative (by rw [s3']; decide))
      refine fileIsNotOpened_ends buffer rfl (inside.trans same (by decide) mem) fun s' kept' a0' _ world'' =>
        done s' kept' (.notOpened missing (a0'.trans a0) (world''.trans world'))
    · exact absurd (a0.trans (by rw [same .s3 (by decide), s3])) differ
  cases free : s.world.freeDescriptor with
  | none => exact not_opened (.inl free) (by rw [openService, free])
  | some d =>
    cases existing : s.world.files name with
    | none => exact not_opened (.inr existing) (by simp only [openService, free, if_true, existing])
    | some content =>
      obtain ⟨unused, small⟩ := World.freeDescriptor_spec free
      refine wp_open d (s.world.update d ⟨name, true, content⟩) a7 ?_
        fun t' same a0 mem world' => wp_beq (fun failed => ?_) fun _ => wp_mv (wp_li (wp_nil ⟨_, rfl, ?_⟩))
      · rw [named, a1, world, openService, free]
        simp only [if_true, existing]
      · rw [a0, same .s3 (by decide), s3] at failed
        exact absurd (failed ▸ small) (by decide)
      · have inside' := inside.trans same (by decide) mem
        have reading : Reading (s.get .a1) (s.get .sp) d (s.get .a2).toNat name content 0 0 s
            ((t'.set .s3 (t'.get .a0)).set .s4 0) := by
          refine ⟨(inside'.set (by decide)).set (by decide), ?_, ?_, ?_, ?_, ?_, .nil, Nat.zero_le _, Nat.zero_le _, by simp⟩
          · simp only [get_set_of_ne, ne_eq, reduceCtorEq, not_false_eq_true]
            rw [same .s1 (by decide), s1]
          · simp only [get_set_of_ne, ne_eq, reduceCtorEq, not_false_eq_true]
            rw [same .s2 (by decide), s2, add_neg_one buffer.positive]
          · rw [get_set_of_ne (by decide), get_set_self (by decide), a0]
          · rw [get_set_self (by decide)]
            rfl
          · rw [world_set, world_set, world', World.update, World.filter_of_free unused]
            rfl
        exact readLoop_ends buffer rfl unused small
          (fun s' n kept' result => done s' kept' (.read free existing result)) reading

/-- The accesses of a call: it loads from the stack, and stores to the buffer and the stack. -/
def freadAccess (base : Word) (size : Nat) (top : Word) : Access where
  mayLoad address := inRange (below top 20) 20 address
  mayStore address := inRange base size address || inRange (below top 20) 20 address

/-- A call with the name of a file in `a0`, a buffer in `a1` and its size in `a2`; name and buffer are apart from the
stack. -/
structure FreadRequest (name : List UInt8) (s : State World) : Prop where
  holds : s.mem.Holds (s.get .a0) (name ++ [0])
  nonzero : ∀ c ∈ name, c ≠ 0
  short : name.length + 1 ≤ 2 ^ 32
  size : 1 ≤ (s.get .a2).toInt
  aligned : isAligned (s.get .sp) = true
  nameStack : Apart (s.get .a0) (name.length + 1) (below (s.get .sp) 20) 20
  bufferStack : Apart (below (s.get .sp) 20) 20 (s.get .a1) (s.get .a2).toNat

theorem FreadRequest.call (request : FreadRequest name s) :
    FreadCall (freadAccess (s.get .a1) (s.get .a2).toNat (s.get .sp)) name s := by
  have size := request.size
  have value := BitVec.toInt_eq_toNat_cond (s.get .a2)
  have positive : 0 < (s.get .a2).toNat ∧ (s.get .a2).toNat < 2 ^ 31 := by
    split at value <;> omega
  exact ⟨request.holds, request.nonzero, request.short, request.nameStack, {
    positive := positive.1
    bound := positive.2
    aligned := request.aligned
    apart := request.bufferStack
    loadsStack := Access.loads_of_range (fun _ inside => inside) (by decide)
    storesStack := Access.stores_of_range (fun _ inside => by simp [freadAccess, inside]) (by decide)
    storesBuffer := Access.stores_of_range (fun _ inside => by simp [freadAccess, inside]) (by omega) }⟩

/-- `fread` returns with the registers of the caller as they were. A file that it could open was read as far as there
is room and closed once, and nothing is stored but in the buffer and on the stack. -/
theorem fread_correct (address : Label → Word) (labelAt : Word → Option Label) (data : DataLabel → Word)
    (request : FreadRequest name s) :
    Eventually (simulator address labelAt data) (freadAccess (s.get .a1) (s.get .a2).toNat (s.get .sp)) program
      (fun place s' => (place = (simulator address labelAt data).place (s.get .ra) ∧
          SameBut fileToolsClobbered s s' ∧ FreadEnds name s s') ∧
        ∀ address, inRange (s.get .a1) (s.get .a2).toNat address = false →
          inRange (below (s.get .sp) 20) 20 address = false → s'.mem address = s.mem address)
      (.label (.fileTools .fread)) s := by
  have returns : Eventually (simulator address labelAt data) (freadAccess (s.get .a1) (s.get .a2).toNat (s.get .sp)) program
      (fun place s' => place = (simulator address labelAt data).place (s.get .ra) ∧
        SameBut fileToolsClobbered s s' ∧ FreadEnds name s s') (.label (.fileTools .fread)) s :=
    fread_ends request.call fun s' kept ends => .here ⟨rfl, kept, ends⟩
  refine returns.outside.mono ?_
  rintro place s' ⟨returned, kept⟩
  refine ⟨returned, fun address outside off_stack => kept address ?_⟩
  simp only [freadAccess, outside, off_stack, Bool.or_self]

end

section

/-- A name at 0x10010000, a buffer of eight bytes and one file. -/
def exampleFread : State World :=
  State.setAll ⟨fun _ => 0, Memory.store (fun _ => 0) 0x10010000 [65, 0],
      ⟨fun _ => some [66, 67, 68], fun _ => true, [], [], [], [], []⟩⟩
    [(.a0, 0x10010000), (.a1, 0x10010100), (.a2, 8), (.sp, 0x7fffeff0)]

theorem exampleFread_request : FreadRequest [65] exampleFread := by
  have a0 : exampleFread.get .a0 = 0x10010000 := by simp [exampleFread]
  have a1 : exampleFread.get .a1 = 0x10010100 := by simp [exampleFread]
  have a2 : exampleFread.get .a2 = 8 := by simp [exampleFread]
  have sp : exampleFread.get .sp = 0x7fffeff0 := by simp [exampleFread]
  refine ⟨?_, by simp, by decide, ?_, ?_, ?_, ?_⟩
  · rw [a0]
    exact Memory.holds_store (by decide)
  · rw [a2]
    decide
  · rw [sp]
    decide
  · rw [a0, sp]
    exact apart_of_le (by decide) (by decide)
  · have before : Apart (0x10010100 : Word) 8 (below 0x7fffeff0 20) 20 := apart_of_le (by decide) (by decide)
    rw [a1, a2, sp]
    exact before.symm

theorem fread_correct_three : FreadRequest [65] exampleFread ∧
    Eventually (simulator (fun _ => 0) (fun _ => none) fun _ => 0)
      (freadAccess (exampleFread.get .a1) (exampleFread.get .a2).toNat (exampleFread.get .sp)) program
      (fun place s' => (place = (simulator (fun _ => 0) (fun _ => none) fun _ => 0).place (exampleFread.get .ra) ∧
          SameBut fileToolsClobbered exampleFread s' ∧ FreadEnds [65] exampleFread s') ∧
        ∀ address, inRange (exampleFread.get .a1) (exampleFread.get .a2).toNat address = false →
          inRange (below (exampleFread.get .sp) 20) 20 address = false → s'.mem address = exampleFread.mem address)
      (.label (.fileTools .fread)) exampleFread :=
  ⟨exampleFread_request, fread_correct _ _ _ exampleFread_request⟩

end

end ArchCompSystems.Ihw3
