import ArchCompSystems.Library.RiscVRules

namespace ArchCompSystems.Library.RiscV

variable {L D ω : Type}

/-- The address `count` bytes below `top`. -/
def below (top : Word) (count : Nat) : Word := top - BitVec.ofNat 32 count

/-- The words that were pushed below `top`, the last one first. -/
def Pushed (m : Memory) (top : Word) (words : List Word) : Prop :=
  m.Holds (below top (4 * words.length)) (words.flatMap wordBytes)

section

variable {top address : Word} {n i : Nat} {m : Memory} {w : Word} {words : List Word}

@[simp] theorem below_zero : below top 0 = top := by
  exact BitVec.sub_zero top

theorem offset_below (inside : i ≤ n) : offset (below top n) i = below top (n - i) := by
  obtain ⟨rest, rfl⟩ := Nat.exists_eq_add_of_le inside
  rw [Nat.add_sub_cancel_left, below, below, offset, BitVec.ofNat_add, sub_add_eq_sub_sub_swap, sub_add_cancel]

theorem below_add_four : below top (n + 4) + 4 = below top n :=
  (offset_below (i := 4) (Nat.le_add_left _ _)).trans (by rw [Nat.add_sub_cancel])

theorem below_sub_four : below top n + (-4) = below top (n + 4) := by
  rw [← @below_add_four top n]
  exact add_neg_cancel_right _ _

theorem isAligned_offset (multiple : i % 4 = 0) : isAligned (offset address i) = isAligned address := by
  simp only [isAligned, offset, BitVec.toNat_add, BitVec.toNat_ofNat]
  exact decide_eq_decide.mpr (by omega)

theorem isAligned_below (multiple : n % 4 = 0) : isAligned (below top n) = isAligned top := by
  have back : offset (below top n) n = top := by rw [offset_below (Nat.le_refl _), Nat.sub_self, below_zero]
  rw [← @isAligned_offset (below top n) n multiple, back]

theorem Access.loads_below {access : Access} {size : Nat} (loads : access.loads (below top size) size = true)
    (fits : n + 4 ≤ size) : access.loads (below top (n + 4)) 4 = true := by
  rw [← Nat.sub_sub_self fits, ← offset_below (Nat.sub_le _ _)]
  exact Access.loads_part loads (by omega)

theorem Access.stores_below {access : Access} {size : Nat} (stores : access.stores (below top size) size = true)
    (fits : n + 4 ≤ size) : access.stores (below top (n + 4)) 4 = true := by
  rw [← Nat.sub_sub_self fits, ← offset_below (Nat.sub_le _ _)]
  exact Access.stores_part stores (by omega)

theorem apart_below {base : Word} {length size : Nat} (apart : Apart base length (below top size) size) (bound : size ≤ 2 ^ 32)
    (fits : n + 4 ≤ size) : Apart base length (below top (n + 4)) 4 := by
  rw [← Nat.sub_sub_self fits, ← offset_below (Nat.sub_le _ _)]
  intro address inside
  by_contra common
  have whole := apart address inside
  rw [inRange_of_part (Bool.of_not_eq_false common) (by omega) bound] at whole
  cases whole

theorem length_flatMap_wordBytes : (words.flatMap wordBytes).length = 4 * words.length := by
  induction words with
  | nil => rfl
  | cons w rest ih => rw [List.flatMap_cons, List.length_append, ih, length_wordBytes, List.length_cons, Nat.mul_add_one, Nat.add_comm]

theorem loadWord_of_holds_words {base : Word} (holds : m.Holds base (words.flatMap wordBytes)) {k : Nat}
    (inside : k < words.length) : m.loadWord (offset base (4 * k)) = words[k] := by
  have split : words.flatMap wordBytes = (words.take k).flatMap wordBytes ++ (wordBytes words[k] ++
      (words.drop (k + 1)).flatMap wordBytes) := by
    rw [← List.flatMap_cons, List.cons_getElem_drop_succ, ← List.flatMap_append, List.take_append_drop]
  rw [split, Memory.holds_append, Memory.holds_append, length_flatMap_wordBytes, List.length_take,
    Nat.min_eq_left (Nat.le_of_lt inside)] at holds
  exact Memory.loadWord_of_holds holds.2.1

theorem Pushed.push (pushed : Pushed m top words) (fits : 4 * words.length + 4 ≤ 2 ^ 32) :
    Pushed (m.store (below top (4 * words.length + 4)) (wordBytes w)) top (w :: words) := by
  have older : offset (below top (4 * words.length + 4)) 4 = below top (4 * words.length) := by
    rw [offset_below (by omega), Nat.add_sub_cancel]
  refine Memory.holds_append.mpr ⟨Memory.holds_store (by rw [length_wordBytes]; decide), ?_⟩
  show (m.store _ _).Holds (offset (below top (4 * words.length + 4)) 4) (words.flatMap wordBytes)
  have apart : Apart (offset (below top (4 * words.length + 4)) 0) 4 (offset (below top (4 * words.length + 4)) 4)
      (4 * words.length) := apart_parts (by omega) (by omega)
  rw [offset_zero] at apart
  rw [older] at apart ⊢
  refine Memory.Holds.store pushed (by rw [length_flatMap_wordBytes]; omega) ?_
  rw [length_flatMap_wordBytes, length_wordBytes]
  exact apart.symm

theorem Pushed.last (pushed : Pushed m top (w :: words)) : m.Holds (below top (4 * words.length + 4)) (wordBytes w) :=
  (Memory.holds_append.mp pushed).1

theorem Pushed.pop (pushed : Pushed m top (w :: words)) : Pushed m top words := by
  have rest := (Memory.holds_append.mp pushed).2
  rw [length_wordBytes, offset_below (by rw [List.length_cons]; omega), List.length_cons, Nat.mul_add_one,
    Nat.add_sub_cancel] at rest
  exact rest

theorem Pushed.store (pushed : Pushed m top words) {base : Word} {bytes : List UInt8} (fits : 4 * words.length ≤ 2 ^ 32)
    (apart : Apart (below top (4 * words.length)) (4 * words.length) base bytes.length) :
    Pushed (m.store base bytes) top words :=
  Memory.Holds.store pushed (by rw [length_flatMap_wordBytes]; omega) (by rwa [length_flatMap_wordBytes])

end

section

variable {P : Platform L D ω} {access : Access} {rest : List (Instr L D)} {s : State ω}
  {post : Next L → State ω → Prop} {reg : Reg} {w top : Word} {words : List Word} {n : Nat}

theorem wp_push (different : reg ≠ .sp) (at_top : s.get .sp = below top n)
    (stores : access.stores (below top (n + 4)) 4 = true) (aligned : isAligned (below top (n + 4)) = true)
    (ends : wp P access rest ((s.set .sp (below top (n + 4))).store (below top (n + 4)) (wordBytes (s.get reg))) post) :
    wp P access (Instr.addi .sp .sp (-4) :: .sw reg 0 .sp :: rest) s post := by
  have moved : s.get .sp + (-4) = below top (n + 4) := by rw [at_top, below_sub_four]
  refine wp_opImm ?_
  simp only [moved]
  have there : (s.set .sp (below top (n + 4))).get .sp + 0 = below top (n + 4) := by
    rw [add_zero, get_set_self (by decide)]
  refine wp_sw ?_ ?_ ?_
  · rw [there]
    exact stores
  · rw [there]
    exact aligned
  · rw [there, get_set_of_ne different]
    exact ends

theorem wp_pop (different : reg ≠ .sp) (at_top : s.get .sp = below top (n + 4))
    (loads : access.loads (below top (n + 4)) 4 = true) (aligned : isAligned (below top (n + 4)) = true)
    (holds : s.mem.Holds (below top (n + 4)) (wordBytes w))
    (ends : wp P access rest ((s.set reg w).set .sp (below top n)) post) :
    wp P access (.lw reg 0 .sp :: Instr.addi .sp .sp 4 :: rest) s post := by
  have there : s.get .sp + 0 = below top (n + 4) := by rw [add_zero, at_top]
  refine wp_lw ?_ ?_ (wp_opImm ?_)
  · rw [there]
    exact loads
  · rw [there]
    exact aligned
  · rw [there, Memory.loadWord_of_holds holds, get_set_of_ne different.symm, at_top, below_add_four]
    exact ends

theorem wp_pushAll (regs : List Reg) (top : Word) (size : Nat) (words : List Word) (no_sp : .sp ∉ regs)
    (at_top : s.get .sp = below top (4 * words.length))
    (pushed : Pushed s.mem top words) (stores : access.stores (below top size) size = true)
    (fits : 4 * (words.length + regs.length) ≤ size) (bound : size ≤ 2 ^ 32) (aligned : isAligned top = true)
    (ends : ∀ s', s'.get .sp = below top (4 * (words.length + regs.length)) → (∀ r, r ≠ .sp → s'.get r = s.get r) →
      Pushed s'.mem top ((regs.map s.get).reverse ++ words) →
      (∀ address, inRange (below top size) size address = false → s'.mem address = s.mem address) →
      s'.world = s.world → wp P access rest s' post) :
    wp P access (regs.flatMap (fun reg => [Instr.addi .sp .sp (-4), .sw reg 0 .sp]) ++ rest) s post := by
  induction regs generalizing s words with
  | nil => exact ends s at_top (fun _ _ => rfl) pushed (fun _ _ => rfl) rfl
  | cons reg regs ih =>
    obtain ⟨different, no_sp'⟩ : Reg.sp ≠ reg ∧ _ := not_or.mp (mt List.mem_cons.mpr no_sp)
    simp only [List.length_cons] at fits
    have stack := Access.stores_below (n := 4 * words.length) stores (by omega)
    refine wp_push different.symm at_top stack ((isAligned_below (by omega)).trans aligned) ?_
    refine ih _ no_sp' ?_ (pushed.push (by omega)) (by simp only [List.length_cons]; omega) ?_
    · rw [get_store, get_set_self (by decide), List.length_cons, Nat.mul_add_one]
    · intro s' sp kept pushed' outside world
      refine ends s' ?_ ?_ ?_ ?_ world
      · rw [sp, List.length_cons, List.length_cons, Nat.add_assoc, Nat.add_comm 1]
      · exact fun r other => (kept r other).trans (get_set_of_ne other)
      · have same : regs.map ((s.set .sp (below top (4 * words.length + 4))).store (below top (4 * words.length + 4))
            (wordBytes (s.get reg))).get = regs.map s.get :=
          List.map_congr_left fun r mem => get_set_of_ne fun is_sp => no_sp' (is_sp ▸ mem)
        rw [same] at pushed'
        simpa using pushed'
      · intro address off
        rw [outside address off]
        refine Memory.store_of_not_inRange ?_
        by_contra common
        have part : inRange (offset (below top size) (size - (4 * words.length + 4))) 4 address = true := by
          rw [offset_below (Nat.sub_le _ _), Nat.sub_sub_self (by omega)]
          exact Bool.of_not_eq_false common
        rw [inRange_of_part part (by omega) bound] at off
        cases off

theorem wp_popAll (regs : List Reg) (size : Nat) (values words : List Word) (no_sp : .sp ∉ regs) (nonzero : .zero ∉ regs)
    (distinct : regs.Nodup) (at_top : s.get .sp = below top (4 * (values.length + words.length)))
    (pushed : Pushed s.mem top (values ++ words)) (same_length : regs.length = values.length)
    (loads : access.loads (below top size) size = true) (fits : 4 * (values.length + words.length) ≤ size)
    (aligned : isAligned top = true)
    (ends : ∀ s', s'.get .sp = below top (4 * words.length) → regs.map s'.get = values →
      (∀ r, r ≠ .sp → r ∉ regs → s'.get r = s.get r) → s'.mem = s.mem → s'.world = s.world → wp P access rest s' post) :
    wp P access (regs.flatMap (fun reg => [.lw reg 0 .sp, Instr.addi .sp .sp 4]) ++ rest) s post := by
  induction regs generalizing s values with
  | nil =>
    obtain rfl := List.length_eq_zero_iff.mp same_length.symm
    rw [List.length_nil, Nat.zero_add] at at_top
    exact ends s at_top rfl (fun _ _ _ => rfl) rfl rfl
  | cons reg regs ih =>
    obtain ⟨value, values, rfl⟩ := List.exists_cons_of_length_pos (l := values) (by rw [← same_length]; exact Nat.succ_pos _)
    obtain ⟨different, no_sp'⟩ : Reg.sp ≠ reg ∧ _ := not_or.mp (mt List.mem_cons.mpr no_sp)
    obtain ⟨not_zero, nonzero'⟩ : Reg.zero ≠ reg ∧ _ := not_or.mp (mt List.mem_cons.mpr nonzero)
    obtain ⟨fresh, distinct'⟩ := List.nodup_cons.mp distinct
    simp only [List.length_cons, Nat.succ.injEq] at fits same_length
    have room : 4 * (values.length + 1 + words.length) = 4 * (values.length + words.length) + 4 := by omega
    have last : s.mem.Holds (below top (4 * (values ++ words).length + 4)) (wordBytes value) := pushed.last
    rw [List.length_append] at last
    refine wp_pop different.symm (by rw [at_top, List.length_cons, room]) (Access.loads_below loads (by omega))
      ((isAligned_below (by omega)).trans aligned) last ?_
    refine ih _ no_sp' nonzero' distinct' (get_set_self (by decide)) pushed.pop same_length (by omega) ?_
    intro s' sp popped kept mem world
    refine ends s' sp ?_ ?_ mem world
    · rw [List.map_cons, popped, kept reg different.symm fresh, get_set_of_ne different.symm, get_set_self not_zero.symm]
    · intro r other outside
      obtain ⟨not_reg, outside'⟩ : r ≠ reg ∧ _ := not_or.mp (mt List.mem_cons.mpr outside)
      rw [kept r other outside', get_set_of_ne other, get_set_of_ne not_reg]

end

structure WordsAt (access : Access) (m : Memory) (base : Word) (words : List Word) : Prop where
  holds : m.Holds base (words.flatMap wordBytes)
  loads : access.loads base (4 * words.length) = true
  aligned : isAligned base = true

section

variable {access : Access} {m m' : Memory} {base : Word} {w : Word} {words : List Word}

theorem WordsAt.first (array : WordsAt access m base (w :: words)) :
    m.loadWord base = w ∧ access.loads base 4 = true := by
  refine ⟨Memory.loadWord_of_holds (Memory.holds_append.mp array.holds).1, ?_⟩
  have part : access.loads (offset base 0) 4 = true := Access.loads_part array.loads (by rw [List.length_cons]; omega)
  rwa [offset_zero] at part

theorem WordsAt.rest (array : WordsAt access m base (w :: words)) : WordsAt access m (offset base 4) words := by
  refine ⟨(Memory.holds_append.mp array.holds).2, Access.loads_part array.loads ?_, ?_⟩
  · rw [List.length_cons]
    omega
  · rw [isAligned_offset (by decide)]
    exact array.aligned

theorem WordsAt.congr (array : WordsAt access m base words) (bound : 4 * words.length ≤ 2 ^ 32)
    (same : ∀ address, inRange base (4 * words.length) address = true → m' address = m address) :
    WordsAt access m' base words := by
  refine ⟨array.holds.congr ?_ ?_, array.loads, array.aligned⟩
  · rwa [length_flatMap_wordBytes]
  · rwa [length_flatMap_wordBytes]

end

end ArchCompSystems.Library.RiscV
