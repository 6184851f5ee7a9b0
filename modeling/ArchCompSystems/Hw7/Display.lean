import ArchCompSystems.Library.RiscV
import ArchCompSystems.Library.SignedWords

namespace ArchCompSystems.Hw7

open Library Library.RiscV Library.RiscV.Instr

/-- The labels, and what stands behind the calls. -/
inductive Label where
  | printToDlsim
  | clearDlsim
  | printDotDlsim
  | mainPrologue
  | printLoop
  | rightPrinted
  | leftCleared
  | leftPrinted
  | rightCleared
  | digitsPrinted
  | dotPrinted
  deriving DecidableEq

inductive DataLabel where
  | digitsLookupTable
  deriving DecidableEq

def digitsLookupTable : List UInt8 :=
  [0x3F, 0x06, 0x5B, 0x4F, 0x66, 0x6D, 0x7D, 0x07, 0x7F, 0x6F, 0x77, 0x7C, 0x39, 0x5E, 0x79, 0x71]

abbrev Line := Instr Label DataLabel

def push (reg : Reg) : List Line := [addi .sp .sp (-4), .sw reg 0 .sp]

def lui (rd : Reg) (imm : Word) : Line := li rd (imm <<< 12)

def snez (rd rs : Reg) : Line := .op (fun x y => if x.ult y then 1 else 0) rd .zero rs

namespace Label

def block : Label → List Line
  | printToDlsim => [srli .t1 .a0 4, snez .t1 .t1, slli .t1 .t1 7, andi .a0 .a0 0xF, .la .t0 .digitsLookupTable,
      add .t0 .t0 .a0, .lbu .a0 0 .t0, or .a0 .t1 .a0, lui .t0 0xFFFF0, andi .a1 .a1 1, add .a1 .t0 .a1,
      .sb .a0 0x10 .a1, .ret]
  | clearDlsim => [andi .a0 .a0 1, lui .t0 0xFFFF0, add .t0 .t0 .a0, .sb .zero 0x10 .t0, .ret]
  | printDotDlsim => [lui .t0 0xFFFF0, .sb .zero 0x11 .t0, li .t1 0x80, .sb .t1 0x10 .t0, .ret]
  | mainPrologue => push .s0 ++ push .s1 ++ push .s2 ++ [mv .s1 .zero, li .s2 16]
  | printLoop => [mv .a0 .s1, li .a1 0, .jal .printToDlsim]
  | rightPrinted => [li .a0 1, .jal .clearDlsim]
  | leftCleared => [li .a0 1000, li .a7 32, .ecall, mv .a0 .s1, li .a1 1, .jal .printToDlsim]
  | leftPrinted => [li .a0 0, .jal .clearDlsim]
  | rightCleared => [li .a0 1000, li .a7 32, .ecall, addi .s1 .s1 1, bne .s1 .s2 .printLoop]
  | digitsPrinted => [.jal .printDotDlsim]
  | dotPrinted => []

def next : Label → Option Label
  | printToDlsim => some clearDlsim
  | clearDlsim => some printDotDlsim
  | printDotDlsim => none
  | mainPrologue => some printLoop
  | printLoop => some rightPrinted
  | rightPrinted => some leftCleared
  | leftCleared => some leftPrinted
  | leftPrinted => some rightCleared
  | rightCleared => some digitsPrinted
  | digitsPrinted => some dotPrinted
  | dotPrinted => none

end Label

def displayCode : Code Label DataLabel := ⟨Label.block, Label.next⟩

def display : Word := 0xFFFF0010

abbrev Shown := UInt8 × UInt8

def shown (m : Memory) : Shown := (m display, m (offset display 1))

/-- The simulator: a program that sleeps is looked at. -/
def simulator (address : Label → Word) (labelAt : Word → Option Label) (data : DataLabel → Word) :
    Platform Label DataLabel (List Shown) where
  address := address
  labelAt := labelAt
  data := data
  ecall s := if s.get .a7 = 32 then some ⟨[], 0, [], s.world ++ [shown s.mem]⟩ else none

def digit (n : Nat) : UInt8 := digitsLookupTable.getD (n % 16) 0 ||| if 16 ≤ n then 0x80 else 0

theorem and_fifteen {w : Word} : w &&& 0xF = BitVec.ofNat 32 (w.toNat % 16) := by
  apply BitVec.eq_of_toNat_eq
  rw [BitVec.toNat_and, BitVec.toNat_ofNat, Nat.mod_eq_of_lt (by omega)]
  exact Nat.and_two_pow_sub_one_eq_mod w.toNat 4

theorem and_one {w : Word} : w &&& 1 = BitVec.ofNat 32 (w.toNat % 2) := by
  apply BitVec.eq_of_toNat_eq
  rw [BitVec.toNat_and, BitVec.toNat_ofNat, Nat.mod_eq_of_lt (by omega)]
  exact Nat.and_two_pow_sub_one_eq_mod w.toNat 1

theorem point_flag {w : Word} :
    (if (0 : Word).ult (w >>> (4 : Word)) then 1 else 0 : Word) = if 16 ≤ w.toNat then 1 else 0 := by
  have quotient : (w >>> (4 : Word)).toNat = w.toNat / 16 := by
    rw [BitVec.ushiftRight_eq', BitVec.toNat_ushiftRight, Nat.shiftRight_eq_div_pow]
    rfl
  have positive : (0 : Word).ult (w >>> (4 : Word)) = decide (16 ≤ w.toNat) := by
    rw [BitVec.ult_eq_decide, quotient]
    apply decide_eq_decide.mpr
    show 0 < w.toNat / 16 ↔ 16 ≤ w.toNat
    omega
  rw [positive]
  simp only [decide_eq_true_eq]

theorem digit_byte {n : Nat} : UInt8.ofNat ((if 16 ≤ n then 1 else 0 : Word) <<< (7 : Word) |||
    BitVec.ofNat 32 (digitsLookupTable.getD (n % 16) 0).toNat).toNat = digit n := by
  have all : ∀ i < 16, ∀ point : Prop, ∀ [Decidable point], UInt8.ofNat ((if point then 1 else 0 : Word) <<< (7 : Word) |||
      BitVec.ofNat 32 (digitsLookupTable.getD i 0).toNat).toNat =
        digitsLookupTable.getD i 0 ||| if point then 0x80 else 0 := by
    intro i inside point decidable
    by_cases holds : point
    · simp only [if_pos holds]
      revert i
      decide
    · simp only [if_neg holds]
      revert i
      decide
  exact all (n % 16) (Nat.mod_lt n (by decide)) (16 ≤ n)

section

variable {address : Label → Word} {labelAt : Word → Option Label} {data : DataLabel → Word} {access : Access}
  {post : Place Label → State (List Shown) → Prop} {s : State (List Shown)} {m : Memory} {c : UInt8}

theorem store_self {base : Word} : m.store base [c] base = c := by
  have stored := @Memory.store_offset base 0 m [c] Nat.one_pos (by simp)
  rwa [offset_zero] at stored

theorem shown_store_right : shown (m.store display [c]) = (c, (shown m).2) := by
  have left : m.store display [c] (offset display 1) = m (offset display 1) :=
    Memory.store_of_not_inRange (show inRange display 1 (offset display 1) = false by decide)
  rw [shown, store_self, left]
  rfl

theorem shown_store_left : shown (m.store (offset display 1) [c]) = ((shown m).1, c) := by
  have right : m.store (offset display 1) [c] display = m display :=
    Memory.store_of_not_inRange (show inRange (offset display 1) 1 display = false by decide)
  rw [shown, store_self, right]
  rfl

/-- The calls return behind themselves, and the table is not on the display. -/
structure Wired (address : Label → Word) (labelAt : Word → Option Label) (data : DataLabel → Word) (access : Access) :
    Prop where
  linked : ∀ label, labelAt (address label) = some label
  loads : access.loads (data .digitsLookupTable) 16 = true
  stores : access.stores display 2 = true
  apart : Apart (data .digitsLookupTable) 16 display 2

theorem indicator {w : Word} : (0xFFFF0000 : Word) + (w &&& 1) + 0x10 = offset display (w.toNat % 2) := by
  rw [and_one, add_right_comm]
  rfl

theorem Wired.store (wired : Wired address labelAt data access) {n : Nat} :
    access.stores (offset display (n % 2)) 1 = true := Access.stores_part wired.stores (by omega)

theorem wp_display {rest : List Line} {post : Next Label → State (List Shown) → Prop} {r value : Reg} {imm : Word}
    {n : Nat} (wired : Wired address labelAt data access) (target : s.get r + imm = offset display (n % 2))
    (byte : UInt8.ofNat (s.get value).toNat = c)
    (ends : wp (simulator address labelAt data) access rest (s.store (offset display (n % 2)) [c]) post) :
    wp (simulator address labelAt data) access (.sb value imm r :: rest) s post := by
  apply wp_sb
  · rw [target]
    exact wired.store
  · rw [target, byte]
    exact ends

theorem showByte_ends (wired : Wired address labelAt data access)
    (done : ∀ s', SameBut [.t0, .a0, .a1] s s' →
      s'.mem = s.mem.store (offset display ((s.get .a1).toNat % 2)) [UInt8.ofNat (s.get .t1 ||| s.get .a0).toNat] →
      s'.world = s.world → Eventually (simulator address labelAt data) access displayCode post
        ((simulator address labelAt data).place (s.get .ra)) s') :
    wp (simulator address labelAt data) access [or .a0 .t1 .a0, lui .t0 0xFFFF0, andi .a1 .a1 1, add .a1 .t0 .a1,
        .sb .a0 0x10 .a1, .ret] s
      (GoesOn (simulator address labelAt data) access displayCode post .printToDlsim) := by
  apply wp_or
  apply wp_li
  apply wp_andi
  apply wp_add
  refine wp_display wired indicator rfl (wp_ret (done _ ?_ rfl rfl))
  exact SameBut.set (SameBut.set (SameBut.set (SameBut.refl.set (by decide)) (by decide)) (by decide)) (by decide)

theorem printToDlsim_ends (wired : Wired address labelAt data access)
    (table : s.mem.Holds (data .digitsLookupTable) digitsLookupTable)
    (done : ∀ s', SameBut [.t0, .t1, .a0, .a1] s s' →
      s'.mem = s.mem.store (offset display ((s.get .a1).toNat % 2)) [digit (s.get .a0).toNat] → s'.world = s.world →
      Eventually (simulator address labelAt data) access displayCode post
        ((simulator address labelAt data).place (s.get .ra)) s') :
    Eventually (simulator address labelAt data) access displayCode post (.label .printToDlsim) s := by
  have entry : s.mem (offset (data .digitsLookupTable) ((s.get .a0).toNat % 16)) =
      digitsLookupTable.getD ((s.get .a0).toNat % 16) 0 := by
    have inside : (s.get .a0).toNat % 16 < digitsLookupTable.length := Nat.mod_lt _ (by decide)
    rw [table _ inside, List.getD_eq_getElem?_getD, List.getElem?_eq_getElem inside, Option.getD_some]
  have loads : access.loads (offset (data .digitsLookupTable) ((s.get .a0).toNat % 16)) 1 = true :=
    Access.loads_part wired.loads (by omega)
  apply eventually_block
  apply wp_srli
  apply wp_op
  apply wp_slli
  apply wp_andi
  apply wp_la
  apply wp_add
  suffices rest : ∀ t : State (List Shown), SameBut [.t0, .t1, .a0] s t → t.mem = s.mem → t.world = s.world →
      t.get .t1 = (if 16 ≤ (s.get .a0).toNat then 1 else 0 : Word) <<< (7 : Word) →
      t.get .t0 + 0 = offset (data .digitsLookupTable) ((s.get .a0).toNat % 16) →
      wp (simulator address labelAt data) access [.lbu .a0 0 .t0, or .a0 .t1 .a0, lui .t0 0xFFFF0, andi .a1 .a1 1,
          add .a1 .t0 .a1, .sb .a0 0x10 .a1, .ret] t
        (GoesOn (simulator address labelAt data) access displayCode post .printToDlsim) by
    apply rest
    · repeat (first | exact SameBut.refl | refine SameBut.set ?_ (by decide))
    · rfl
    · rfl
    · rw [get_set_of_ne (by decide), get_set_of_ne (by decide), get_set_of_ne (by decide), get_set_self (by decide),
        get_set_self (by decide), get_set_self (by decide), get_zero]
      exact congrArg (· <<< (7 : Word)) point_flag
    · rw [get_set_self (by decide), get_set_self (by decide), add_zero]
      exact congrArg (data .digitsLookupTable + ·) and_fifteen
  intro t same mem world t1 t0
  apply wp_lbu (by rw [t0]; exact loads)
  apply showByte_ends wired
  intro s' same' mem' world'
  rw [get_set_of_ne (by decide), same .ra (by decide)]
  refine done s' ?_ ?_ (world'.trans world)
  · intro r outside
    obtain ⟨t0, t1, a0, a1⟩ : r ≠ .t0 ∧ r ≠ .t1 ∧ r ≠ .a0 ∧ r ≠ .a1 := by
      simpa only [List.mem_cons, List.not_mem_nil, or_false, not_or] using outside
    rw [same' r (by simp [t0, a0, a1]), get_set_of_ne a0, same r (by simp [t0, t1, a0])]
  · rw [mem', mem_set, get_set_of_ne (by decide), get_set_of_ne (by decide), get_set_self (by decide), t1, t0, mem, entry,
      digit_byte, same .a1 (by decide)]

theorem clearDlsim_ends (wired : Wired address labelAt data access)
    (done : ∀ s', SameBut [.t0, .t1, .a0, .a1] s s' →
      s'.mem = s.mem.store (offset display ((s.get .a0).toNat % 2)) [0] → s'.world = s.world →
      Eventually (simulator address labelAt data) access displayCode post
        ((simulator address labelAt data).place (s.get .ra)) s') :
    Eventually (simulator address labelAt data) access displayCode post (.label .clearDlsim) s := by
  apply eventually_block
  apply wp_andi
  apply wp_li
  apply wp_add
  refine wp_display wired indicator rfl (wp_ret (done _ ?_ rfl rfl))
  exact SameBut.set (SameBut.set (SameBut.refl.set (by decide)) (by decide)) (by decide)

theorem printDotDlsim_ends (wired : Wired address labelAt data access)
    (done : ∀ s', shown s'.mem = (0x80, 0) → s'.world = s.world →
      Eventually (simulator address labelAt data) access displayCode post
        ((simulator address labelAt data).place (s.get .ra)) s') :
    Eventually (simulator address labelAt data) access displayCode post (.label .printDotDlsim) s := by
  apply eventually_block
  apply wp_li
  refine @wp_display _ _ _ _ _ _ _ _ _ _ _ 1 wired rfl rfl (wp_li ?_)
  refine @wp_display _ _ _ _ _ _ _ _ _ _ _ 0 wired rfl rfl (wp_ret (done _ ?_ rfl))
  exact (shown_store_right).trans (congrArg (Prod.mk 0x80) (congrArg Prod.snd shown_store_left))

/-- In the loop, with digit `k` and the displays at the sleeps so far. -/
structure Showing (data : DataLabel → Word) (k : Nat) (seen : List Shown) (s : State (List Shown)) : Prop where
  s1 : s.get .s1 = BitVec.ofNat 32 k
  s2 : s.get .s2 = 16
  table : s.mem.Holds (data .digitsLookupTable) digitsLookupTable
  world : s.world = seen

section

variable {k : Nat} {seen : List Shown} {s' : State (List Shown)}

/-- What the loop may change between two digits. -/
def clobbered : List Reg := [.t0, .t1, .a0, .a1, .ra, .a7]

theorem Showing.store (wired : Wired address labelAt data access) (showing : Showing data k seen s) {n : Nat}
    (same : SameBut clobbered s s') (mem : s'.mem = s.mem.store (offset display (n % 2)) [c])
    (world : s'.world = s.world) : Showing data k seen s' where
  s1 := (same .s1 (by decide)).trans showing.s1
  s2 := (same .s2 (by decide)).trans showing.s2
  table := by
    rw [mem]
    apply showing.table.store (by decide)
    have apart := wired.apart.part 0 16 (n % 2) 1 (by decide) (by decide) (by omega) (by decide)
    rwa [offset_zero] at apart
  world := world.trans showing.world

theorem sameBut_call {t : State (List Shown)} (before : SameBut clobbered s t) (same : SameBut [.t0, .t1, .a0, .a1] t s') :
    SameBut clobbered s s' := by
  have fewer : [Reg.t0, .t1, .a0, .a1] ⊆ clobbered := by decide
  exact fun r outside => (same r fun mem => outside (fewer mem)).trans (before r outside)

theorem Wired.back (wired : Wired address labelAt data access) {label : Label} :
    (simulator address labelAt data).place (address label) = .label label := by
  rw [Platform.place]
  simp only [simulator, wired.linked]

theorem print_call (wired : Wired address labelAt data access) (showing : Showing data k seen s) (small : k < 16)
    {t : State (List Shown)} (before : SameBut clobbered s t) (mem : t.mem = s.mem) (world : t.world = s.world)
    (a0 : t.get .a0 = s.get .s1) {n : Nat} (a1 : (t.get .a1).toNat = n) {label : Label} (ra : t.get .ra = address label)
    (rest : ∀ s', Showing data k seen s' → s'.mem = s.mem.store (offset display (n % 2)) [digit k] →
      Eventually (simulator address labelAt data) access displayCode post (.label label) s') :
    Eventually (simulator address labelAt data) access displayCode post (.label .printToDlsim) t := by
  have number : (t.get .a0).toNat = k := by
    rw [a0, showing.s1, BitVec.toNat_ofNat, Nat.mod_eq_of_lt (by omega)]
  apply printToDlsim_ends wired (by rw [mem]; exact showing.table)
  intro s' same mem' world'
  rw [a1, number, mem] at mem'
  rw [ra, wired.back]
  exact rest s' (showing.store wired (sameBut_call before same) mem' (world'.trans world)) mem'

theorem clear_call (wired : Wired address labelAt data access) (showing : Showing data k seen s)
    {t : State (List Shown)} (before : SameBut clobbered s t) (mem : t.mem = s.mem) (world : t.world = s.world)
    {n : Nat} (a0 : (t.get .a0).toNat = n) {label : Label} (ra : t.get .ra = address label)
    (rest : ∀ s', Showing data k seen s' → s'.mem = s.mem.store (offset display (n % 2)) [0] →
      Eventually (simulator address labelAt data) access displayCode post (.label label) s') :
    Eventually (simulator address labelAt data) access displayCode post (.label .clearDlsim) t := by
  apply clearDlsim_ends wired
  intro s' same mem' world'
  rw [a0, mem] at mem'
  rw [ra, wired.back]
  exact rest s' (showing.store wired (sameBut_call before same) mem' (world'.trans world)) mem'

theorem wp_sleep {rest : List Line} {post : Next Label → State (List Shown) → Prop} (a7 : s.get .a7 = 32)
    (ends : wp (simulator address labelAt data) access rest { s with world := s.world ++ [shown s.mem] } post) :
    wp (simulator address labelAt data) access (.ecall :: rest) s post :=
  wp_ecall_quiet (if_pos a7) ends

def sleeps (k : Nat) : List Shown := [(digit k, 0), (0, digit k)]

theorem printLoop_ends (wired : Wired address labelAt data access) (showing : Showing data k seen s) (small : k < 16)
    (rest : ∀ s', Showing data (k + 1) (seen ++ sleeps k) s' →
      Eventually (simulator address labelAt data) access displayCode post
        (.label (if k + 1 = 16 then .digitsPrinted else .printLoop)) s') :
    Eventually (simulator address labelAt data) access displayCode post (.label .printLoop) s := by
  have sets : ∀ (t : State (List Shown)) (r₁ r₂ : Reg) (v₁ v₂ v₃ : Word), r₁ ∈ clobbered → r₂ ∈ clobbered →
      SameBut clobbered t (((t.set r₁ v₁).set r₂ v₂).set .ra v₃) := fun t r₁ r₂ v₁ v₂ v₃ mem₁ mem₂ =>
    ((SameBut.refl.set mem₁).set mem₂).set (by decide)
  apply eventually_block
  apply wp_mv
  apply wp_li
  refine wp_jal ⟨.rightPrinted, rfl, print_call (n := 0) wired showing small (sets _ _ _ _ _ _ (by decide) (by decide))
    rfl rfl rfl rfl rfl fun s₁ showing₁ mem₁ => ?_⟩
  apply eventually_block
  apply wp_li
  refine wp_jal ⟨.leftCleared, rfl, clear_call (n := 1) wired showing₁ ((SameBut.refl.set (by decide)).set (by decide))
    rfl rfl rfl rfl fun s₂ showing₂ mem₂ => ?_⟩
  have right : shown s₂.mem = (digit k, 0) := by
    rw [mem₂, mem₁]
    exact shown_store_left.trans (congrArg (·, 0) (congrArg Prod.fst (shown_store_right (m := s.mem))))
  apply eventually_block
  apply wp_li
  apply wp_li
  apply wp_sleep (get_set_self (by decide))
  have showing₂' : Showing data k (seen ++ [(digit k, 0)])
      { (s₂.set .a0 1000).set .a7 32 with world := s₂.world ++ [shown s₂.mem] } :=
    ⟨showing₂.s1, showing₂.s2, showing₂.table, by rw [showing₂.world, right]⟩
  apply wp_mv
  apply wp_li
  refine wp_jal ⟨.leftPrinted, rfl, print_call (n := 1) wired showing₂' small (sets _ _ _ _ _ _ (by decide) (by decide))
    rfl rfl rfl rfl rfl fun s₃ showing₃ mem₃ => ?_⟩
  apply eventually_block
  apply wp_li
  refine wp_jal ⟨.rightCleared, rfl, clear_call (n := 0) wired showing₃ ((SameBut.refl.set (by decide)).set (by decide))
    rfl rfl rfl rfl fun s₄ showing₄ mem₄ => ?_⟩
  have left : shown s₄.mem = (0, digit k) := by
    rw [mem₄, mem₃]
    exact shown_store_right.trans (congrArg (Prod.mk 0) (congrArg Prod.snd (shown_store_left (m := s₂.mem))))
  apply eventually_block
  apply wp_li
  apply wp_li
  apply wp_sleep (get_set_self (by decide))
  apply wp_addi
  have showing₅ : ∀ v, v = BitVec.ofNat 32 (k + 1) → Showing data (k + 1) (seen ++ sleeps k)
      (State.set { (s₄.set .a0 1000).set .a7 32 with world := s₄.world ++ [shown s₄.mem] } .s1 v) := fun v value =>
    ⟨value, showing₄.s2, showing₄.table, by
      show s₄.world ++ [shown s₄.mem] = seen ++ sleeps k
      rw [showing₄.world, left, List.append_assoc]
      rfl⟩
  have next : s₄.get .s1 + 1 = BitVec.ofNat 32 (k + 1) := by
    rw [showing₄.s1, BitVec.ofNat_add]
    rfl
  have after := rest _ (showing₅ _ next)
  have last : BitVec.ofNat 32 (k + 1) = (16 : Word) ↔ k + 1 = 16 := ofNat_inj (by omega) (by decide)
  apply wp_bne
  · intro more
    have goes : k + 1 ≠ 16 := fun same => more (next.trans ((last.mpr same).trans showing₄.s2.symm))
    rw [if_neg goes] at after
    exact after
  · intro ends
    have stops : k + 1 = 16 := last.mp (next.symm.trans (ends.trans showing₄.s2))
    rw [if_pos stops] at after
    exact wp_nil ⟨.digitsPrinted, rfl, after⟩

theorem digits_end {n : Nat} (wired : Wired address labelAt data access) (showing : Showing data k seen s) (left : k + n = 15)
    (rest : ∀ s', Showing data 16 (seen ++ (List.range' k (n + 1)).flatMap sleeps) s' →
      Eventually (simulator address labelAt data) access displayCode post (.label .digitsPrinted) s') :
    Eventually (simulator address labelAt data) access displayCode post (.label .printLoop) s := by
  induction n generalizing k seen s with
  | zero =>
    apply printLoop_ends wired showing (by omega)
    intro s' showing'
    rw [if_pos (by omega)]
    apply rest
    have all : (List.range' k 1).flatMap sleeps = sleeps k := by simp
    rw [Nat.zero_add, all, show (16 : Nat) = k + 1 by omega]
    exact showing'
  | succ n ih =>
    apply printLoop_ends wired showing (by omega)
    intro s' showing'
    rw [if_neg (by omega)]
    apply ih showing' (by omega)
    intro s'' showing''
    apply rest
    rw [List.range'_succ, List.flatMap_cons, ← List.append_assoc]
    exact showing''

/-- The table, and three words of stack apart from it. -/
structure Started (data : DataLabel → Word) (access : Access) (s : State (List Shown)) : Prop where
  table : s.mem.Holds (data .digitsLookupTable) digitsLookupTable
  aligned : isAligned (s.get .sp) = true
  stores : access.stores (below (s.get .sp) 12) 12 = true
  apart : Apart (data .digitsLookupTable) 16 (below (s.get .sp) 12) 12

/-- Whoever looks while the program sleeps sees every digit alone, on the right and then on the left, and at the end
the point alone. -/
theorem digits_are_shown (wired : Wired address labelAt data access) (started : Started data access s) :
    Eventually (simulator address labelAt data) access displayCode (fun place s' => place = .label .dotPrinted ∧
      s'.world = s.world ++ (List.range 16).flatMap sleeps ∧ shown s'.mem = (0x80, 0)) (.label .mainPrologue) s := by
  have code : displayCode.block .mainPrologue =
      [Reg.s0, .s1, .s2].flatMap (fun reg => [addi .sp .sp (-4), .sw reg 0 .sp]) ++ [mv .s1 .zero, li .s2 16] := rfl
  apply eventually_block
  rw [code]
  refine wp_pushAll [.s0, .s1, .s2] (s.get .sp) 12 [] (by decide) below_zero.symm .nil started.stores (Nat.le_refl 12)
    (by decide) started.aligned ?_
  intro s' _ _ _ outside world
  apply wp_mv
  apply wp_li
  have showing : Showing data 0 s.world ((s'.set .s1 (s'.get .zero)).set .s2 16) := by
    refine ⟨rfl, rfl, ?_, world⟩
    exact started.table.congr (by decide) fun address in_table => outside address (started.apart address in_table)
  refine wp_nil ⟨.printLoop, rfl, digits_end (n := 15) wired showing rfl fun t showing' => ?_⟩
  apply eventually_block
  refine wp_jal ⟨.dotPrinted, rfl, printDotDlsim_ends wired fun t' point world' => ?_⟩
  rw [get_set_self (by decide)]
  refine .here ⟨wired.back, ?_, point⟩
  rw [world', world_set, showing'.world, List.range_eq_range']

end

end

section

/-- The labels at 0x400000 and on. -/
def exampleAddress : Label → Word
  | .printToDlsim => 0x400000
  | .clearDlsim => 0x400034
  | .printDotDlsim => 0x400048
  | .mainPrologue => 0x400060
  | .printLoop => 0x400080
  | .rightPrinted => 0x40008C
  | .leftCleared => 0x400094
  | .leftPrinted => 0x4000AC
  | .rightCleared => 0x4000B4
  | .digitsPrinted => 0x4000C8
  | .dotPrinted => 0x4000CC

def exampleLabels : List Label := [.printToDlsim, .clearDlsim, .printDotDlsim, .mainPrologue, .printLoop, .rightPrinted,
  .leftCleared, .leftPrinted, .rightCleared, .digitsPrinted, .dotPrinted]

def exampleLabelAt (address : Word) : Option Label := exampleLabels.find? (exampleAddress · = address)

def exampleData : DataLabel → Word := fun _ => 0x10010000

/-- The display, the stack and the table. -/
def exampleAccess : Access where
  mayLoad address := inRange 0x10010000 16 address
  mayStore address := inRange display 2 address || inRange (below 0x7fffeff0 12) 12 address

def exampleStart : State (List Shown) :=
  State.setAll ⟨fun _ => 0, Memory.store (fun _ => 0) 0x10010000 digitsLookupTable, []⟩ [(.sp, 0x7fffeff0)]

theorem exampleAccess_wired : Wired exampleAddress exampleLabelAt exampleData exampleAccess where
  linked label := by cases label <;> decide
  loads := Access.loads_of_range (fun _ inside => inside) (by decide)
  stores := Access.stores_of_range (fun _ inside => by simp [exampleAccess, inside]) (by decide)
  apart := apart_of_le (by decide) (by decide)

theorem exampleStart_started : Started exampleData exampleAccess exampleStart := by
  have sp : exampleStart.get .sp = 0x7fffeff0 := by simp [exampleStart]
  refine ⟨Memory.holds_store (by decide), ?_, ?_, ?_⟩
  · rw [sp]
    decide
  · rw [sp]
    exact Access.stores_of_range (fun _ inside => Bool.or_eq_true_iff.mpr (.inr inside)) (by decide)
  · rw [sp]
    exact apart_of_le (by decide) (by decide)

theorem thirty_two_displays_are_seen : Wired exampleAddress exampleLabelAt exampleData exampleAccess ∧
    Started exampleData exampleAccess exampleStart ∧
    Eventually (simulator exampleAddress exampleLabelAt exampleData) exampleAccess displayCode
      (fun place s' => place = .label .dotPrinted ∧
        s'.world = exampleStart.world ++ (List.range 16).flatMap sleeps ∧ shown s'.mem = (0x80, 0))
      (.label .mainPrologue) exampleStart :=
  ⟨exampleAccess_wired, exampleStart_started, digits_are_shown exampleAccess_wired exampleStart_started⟩

end

end ArchCompSystems.Hw7
