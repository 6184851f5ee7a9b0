import ArchCompSystems.Ihw1.Program

namespace ArchCompSystems.Ihw1

open Library Library.RiscV Library.RiscV.Instr

def comparison (xs ys : List Word) : Word := if xs = ys then ys.getLastD 1 else 0

section

variable {L ω : Type} {P : Platform L DataLabel ω} {access : Access} {C : Code L DataLabel}
  {expansion : ArrayEqualsLabel → L} {after : L} {post : Place L → State ω → Prop} {s₀ s : State ω}
  {top w : Word} {xs ys : List Word}

/-- The code has an expansion of `array_equals(s1, t0, s2, t1)`. -/
structure Expands (C : Code L DataLabel) (expansion : ArrayEqualsLabel → L) (after : L) : Prop where
  block : ∀ l, C.block (expansion l) = l.block .s1 .t0 .s2 .t1 expansion
  next : ∀ l, C.next (expansion l) = some ((l.next.map expansion).getD after)

def saved : List Reg := [.t0, .s1, .s2, .s11, .s10, .s9, .s8]

/-- What the loop leaves as it is. -/
structure Inside (top : Word) (s₀ s : State ω) : Prop where
  sp : s.get .sp = below top 28
  pushed : Pushed s.mem top (saved.map s₀.get)
  kept : SameBut [.sp, .s8, .s9, .s10, .s11, .t1] s₀ s
  mem : ∀ address, inRange (below top 28) 28 address = false → s.mem address = s₀.mem address
  world : s.world = s₀.world

structure Comparing (access : Access) (top : Word) (xs ys : List Word) (w : Word) (s₀ s : State ω) : Prop
    extends Inside top s₀ s where
  lengths : ys.length = xs.length
  bound : 4 * xs.length ≤ 2 ^ 32
  s9 : s.get .s9 = BitVec.ofNat 32 xs.length
  first : WordsAt access s.mem (s.get .s10) xs
  second : WordsAt access s.mem (s.get .s11) ys
  t1 : s.get .t1 = w

structure Compared (top : Word) (result : Word) (s₀ s : State ω) : Prop where
  t1 : s.get .t1 = result
  kept : SameBut [.t1] s₀ s
  mem : ∀ address, inRange (below top 28) 28 address = false → s.mem address = s₀.mem address
  world : s.world = s₀.world

theorem Inside.set (inside : Inside top s₀ s) {r : Reg} {v : Word}
    (allowed : r ∈ [Reg.s8, .s9, .s10, .s11, .t1]) : Inside top s₀ (s.set r v) := by
  have different : Reg.sp ≠ r := by
    rintro rfl
    revert allowed
    decide
  refine ⟨?_, inside.pushed, inside.kept.set (List.mem_cons_of_mem _ allowed), inside.mem, inside.world⟩
  rw [get_set_of_ne different]
  exact inside.sp

theorem arrayEqualsWhileCycleEnd_ends (expands : Expands C expansion after)
    (loads : access.loads (below top 28) 28 = true) (aligned : isAligned top = true) (entered : s₀.get .sp = top)
    (inside : Inside top s₀ s)
    (done : ∀ s', Compared top (s.get .t1) s₀ s' → Eventually P access C post (.label after) s') :
    Eventually P access C post (.label (expansion .arrayEqualsWhileCycleEnd)) s := by
  refine eventually_block ?_
  rw [expands.block]
  have code : ArrayEqualsLabel.block .s1 .t0 .s2 .t1 expansion .arrayEqualsWhileCycleEnd =
      saved.flatMap (fun reg => [.lw reg 0 .sp, addi .sp .sp 4]) ++ [] := rfl
  rw [code]
  refine wp_popAll saved 28 (saved.map s₀.get) [] (by decide) (by decide) (by decide)
    inside.sp (by rw [List.append_nil]; exact inside.pushed) rfl loads (Nat.le_refl 28) aligned ?_
  intro s' sp popped kept mem world
  refine wp_nil ⟨after, expands.next _, done s' ⟨kept .t1 (by decide) (by decide), fun r outside => ?_, ?_, ?_⟩⟩
  · by_cases restored : r ∈ saved
    · exact List.map_inj_left.mp popped r restored
    · by_cases is_sp : r = .sp
      · rw [is_sp, sp, entered]
        exact below_zero
      · rw [kept r is_sp restored]
        refine inside.kept r fun mem => ?_
        simp only [saved, List.mem_cons, List.not_mem_nil, or_false, not_or] at restored outside mem
        simp_all
  · rw [mem]
    exact inside.mem
  · rw [world]
    exact inside.world

theorem arrayEqualsWhileCycle_ends (expands : Expands C expansion after)
    (loads : access.loads (below top 28) 28 = true) (aligned : isAligned top = true) (entered : s₀.get .sp = top)
    (comparing : Comparing access top xs ys w s₀ s)
    (done : ∀ s', Compared top (if xs = ys then ys.getLastD w else 0) s₀ s' →
      Eventually P access C post (.label after) s') :
    Eventually P access C post (.label (expansion .arrayEqualsWhileCycle)) s := by
  induction xs generalizing ys w s with
  | nil =>
    obtain rfl : ys = [] := List.length_eq_zero_iff.mp comparing.lengths
    refine eventually_block ?_
    rw [expands.block]
    refine wp_beqz (fun _ => ?_) (fun more => absurd comparing.s9 more)
    refine arrayEqualsWhileCycleEnd_ends expands loads aligned entered comparing.toInside fun s' compared => done s' ?_
    rw [comparing.t1] at compared
    exact compared
  | cons x xs ih =>
    obtain ⟨y, ys, rfl⟩ := List.exists_cons_of_length_pos (l := ys) (by rw [comparing.lengths]; exact Nat.succ_pos _)
    have bound := comparing.bound
    rw [List.length_cons] at bound
    have lengths := Nat.succ.inj comparing.lengths
    obtain ⟨word, readable⟩ := comparing.first.first
    obtain ⟨word', readable'⟩ := comparing.second.first
    refine eventually_block ?_
    rw [expands.block]
    refine wp_beqz (fun none => ?_) (fun _ => ?_)
    · have nothing := congrArg BitVec.toNat (comparing.s9.symm.trans none)
      rw [BitVec.toNat_ofNat, List.length_cons, Nat.mod_eq_of_lt (by omega)] at nothing
      cases nothing
    refine wp_lw (by rw [add_zero]; exact readable) (by rw [add_zero]; exact comparing.first.aligned) ?_
    rw [add_zero, word]
    refine wp_lw ?_ ?_ ?_
    · rw [get_set_of_ne (by decide), add_zero]
      exact readable'
    · rw [get_set_of_ne (by decide), add_zero]
      exact comparing.second.aligned
    rw [get_set_of_ne (by decide), add_zero, mem_set, word']
    refine wp_bne (fun differ => ?_) (fun same => ?_)
    · simp only [get_set_self, get_set_of_ne, ne_eq, reduceCtorEq, not_false_eq_true] at differ
      refine eventually_block ?_
      rw [expands.block]
      refine wp_mv (wp_nil ⟨_, expands.next _, ?_⟩)
      refine arrayEqualsWhileCycleEnd_ends expands loads aligned entered
        (((comparing.toInside.set (by decide)).set (by decide)).set (by decide)) fun s' compared => done s' ?_
      rw [if_neg fun equal => differ (List.cons.inj equal).1]
      exact compared
    · simp only [get_set_self, get_set_of_ne, ne_eq, reduceCtorEq, not_false_eq_true] at same
      subst same
      refine wp_addi (wp_addi (wp_addi (wp_j ?_)))
      refine @ih _ x ys ⟨?_, lengths, by omega, ?_, ?_, ?_, ?_⟩ fun s' compared => done s' ?_
      · exact ((((comparing.toInside.set (by decide)).set (by decide)).set (by decide)).set (by decide)).set (by decide)
      · simp only [get_set_self, get_set_of_ne, ne_eq, reduceCtorEq, not_false_eq_true]
        rw [comparing.s9, List.length_cons]
        exact ofNat_succ_sub_one
      · simp only [get_set_self, get_set_of_ne, ne_eq, reduceCtorEq, not_false_eq_true, mem_set]
        exact comparing.first.rest
      · simp only [get_set_self, get_set_of_ne, ne_eq, reduceCtorEq, not_false_eq_true, mem_set]
        exact comparing.second.rest
      · simp
      · simp only [List.cons.injEq, true_and, List.getLastD_cons]
        exact compared

/-- Two arrays in memory, apart from the seven words below the stack pointer. -/
structure ArrayEqualsCall (access : Access) (xs ys : List Word) (s : State ω) : Prop where
  lengths : ys.length = xs.length
  bound : 4 * xs.length ≤ 2 ^ 32
  s2 : s.get .s2 = BitVec.ofNat 32 xs.length
  first : WordsAt access s.mem (s.get .s1) xs
  second : WordsAt access s.mem (s.get .t0) ys
  firstStack : Apart (s.get .s1) (4 * xs.length) (below (s.get .sp) 28) 28
  secondStack : Apart (s.get .t0) (4 * xs.length) (below (s.get .sp) 28) 28
  aligned : isAligned (s.get .sp) = true
  loads : access.loads (below (s.get .sp) 28) 28 = true
  stores : access.stores (below (s.get .sp) 28) 28 = true

theorem arrayEquals_ends (expands : Expands C expansion after) (call : ArrayEqualsCall access xs ys s)
    (done : ∀ s', Compared (s.get .sp) (comparison xs ys) s s' → Eventually P access C post (.label after) s') :
    Eventually P access C post (.label (expansion .arrayEquals)) s := by
  refine eventually_block ?_
  rw [expands.block]
  have code : ArrayEqualsLabel.block .s1 .t0 .s2 .t1 expansion .arrayEquals =
      saved.reverse.flatMap (fun reg => [addi .sp .sp (-4), .sw reg 0 .sp]) ++
        [li .t1 1, mv .s9 .s2, mv .s10 .s1, mv .s11 .t0] := rfl
  rw [code]
  refine wp_pushAll saved.reverse (s.get .sp) 28 [] (by decide) below_zero.symm .nil
    call.stores (Nat.le_refl 28) (by decide) call.aligned ?_
  intro s' sp kept pushed outside world
  refine wp_li (wp_mv (wp_mv (wp_mv (wp_nil ⟨_, expands.next _, ?_⟩))))
  have inside : Inside (s.get .sp) s s' := by
    refine ⟨sp, ?_, fun r other => kept r fun is_sp => other (is_sp ▸ List.mem_cons_self), outside, world⟩
    rwa [← List.map_reverse, List.reverse_reverse, List.append_nil] at pushed
  refine arrayEqualsWhileCycle_ends (w := 1) expands call.loads call.aligned rfl ⟨?_, call.lengths,
    call.bound, ?_, ?_, ?_, ?_⟩ done
  · exact (((inside.set (by decide)).set (by decide)).set (by decide)).set (by decide)
  · simp [kept, call.s2]
  · simp only [get_set_self, get_set_of_ne, ne_eq, reduceCtorEq, not_false_eq_true, mem_set, kept]
    exact call.first.congr call.bound fun address at_first => outside address (call.firstStack address at_first)
  · simp only [get_set_self, get_set_of_ne, ne_eq, reduceCtorEq, not_false_eq_true, mem_set, kept]
    refine call.second.congr (call.lengths ▸ call.bound) fun address at_second => ?_
    rw [call.lengths] at at_second
    exact outside address (call.secondStack address at_second)
  · simp

end

end ArchCompSystems.Ihw1
