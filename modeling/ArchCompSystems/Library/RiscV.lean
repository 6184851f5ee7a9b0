import ArchCompSystems.Library.RiscVStack

namespace ArchCompSystems.Library.RiscV

variable {L D ω : Type}

section

variable {P : Platform L D ω} {access : Access} {C : Code L D} {post weaker : Place L → State ω → Prop}
  {place : Place L} {s : State ω} {l : L}

theorem Eventually.bind {middle : Place L → State ω → Prop} (first : Eventually P access C middle place s)
    (rest : ∀ place s, middle place s → Eventually P access C post place s) : Eventually P access C post place s := by
  induction first with
  | here holds => exact rest _ _ holds
  | step stepped _ ih => exact .step stepped ih

theorem Eventually.mono (first : Eventually P access C post place s)
    (implies : ∀ place s, post place s → weaker place s) : Eventually P access C weaker place s :=
  first.bind fun _ _ holds => .here (implies _ _ holds)

/-- A run that ends where the machine stops goes through every place that the machine comes to. -/
theorem Eventually.through {other : Place L → State ω → Prop} (first : Eventually P access C post place s)
    (second : Eventually P access C other place s)
    (stops : ∀ place s, other place s → RiscV.step P access C place s = none) :
    ∃ place s, post place s ∧ Eventually P access C other place s := by
  induction first with
  | @here place s holds => exact ⟨place, s, holds, second⟩
  | @step place _ s _ stepped rest ih =>
    cases second with
    | here holds' =>
      rw [stops place s holds'] at stepped
      cases stepped
    | step stepped' rest' =>
      rw [stepped] at stepped'
      cases stepped'
      exact ih rest'

theorem Eventually.meet {other : Place L → State ω → Prop} (first : Eventually P access C post place s)
    (second : Eventually P access C other place s) (stops : ∀ place s, post place s → RiscV.step P access C place s = none)
    (stops' : ∀ place s, other place s → RiscV.step P access C place s = none) : ∃ place s, post place s ∧ other place s := by
  obtain ⟨place, s, holds, rest⟩ := first.through second stops'
  cases rest with
  | here holds' => exact ⟨place, s, holds, holds'⟩
  | step stepped =>
    rw [stops place s holds] at stepped
    cases stepped

theorem not_eventually (faults : run P access (C.block l) s = none) (elsewhere : ¬ post (.label l) s) :
    ¬ Eventually P access C post (.label l) s := by
  rintro (holds | stepped)
  · exact elsewhere holds
  · simp only [step, faults, reduceCtorEq] at stepped

@[simp] theorem block_upTo_of_ne [DecidableEq L] {l' : L} (different : l' ≠ l) : (C.upTo l).block l' = C.block l' :=
  if_neg different

@[simp] theorem next_upTo_of_ne [DecidableEq L] {l' : L} (different : l' ≠ l) : (C.upTo l).next l' = C.next l' :=
  if_neg different

theorem step_upTo [DecidableEq L] : step P access (C.upTo l) (.label l) s = none := by
  simp [step, Code.upTo, run]

theorem run_ecall_faults {service : Service ω} {rest : List (Instr L D)} (called : P.ecall s = some service)
    (nowhere : access.stores service.base service.bytes.length = false) : run P access (.ecall :: rest) s = none := by
  rw [run, exec_ecall called, if_neg (ne_true_of_eq_false nowhere)]

def GoesOn (P : Platform L D ω) (access : Access) (C : Code L D) (post : Place L → State ω → Prop) (l : L) :
    Next L → State ω → Prop
  | .fall, s => ∃ l', C.next l = some l' ∧ Eventually P access C post (.label l') s
  | .jump target, s => Eventually P access C post (.label target) s
  | .link target, s => ∃ back, C.next l = some back ∧
      Eventually P access C post (.label target) (s.set .ra (P.address back))
  | .back address, s => Eventually P access C post (P.place address) s

theorem eventually_block (ends : wp P access (C.block l) s (GoesOn P access C post l)) :
    Eventually P access C post (.label l) s := by
  obtain ⟨next, s', ran, goes⟩ := ends
  cases next with
  | fall =>
    obtain ⟨l', follows, rest⟩ := goes
    exact .step (by simp only [step, ran, follows, Option.map_some]) rest
  | jump target => exact .step (by simp only [step, ran]) goes
  | link target =>
    obtain ⟨back, follows, rest⟩ := goes
    exact .step (by simp only [step, ran, follows, Option.map_some]) rest
  | back address => exact .step (by simp only [step, ran]) goes

theorem exec_outside {i : Instr L D} {next : Next L} {s' : State ω} {address : Word}
    (executed : i.exec P access s = some (next, s')) (outside : access.mayStore address = false) :
    s'.mem address = s.mem address := by
  cases i with
  | op f rd rs1 rs2 => cases executed; rfl
  | opImm f rd rs imm => cases executed; rfl
  | la rd label => cases executed; rfl
  | lb rd imm rs =>
    obtain ⟨-, same⟩ := Option.ite_none_right_eq_some.mp executed
    cases same
    rfl
  | lbu rd imm rs =>
    obtain ⟨-, same⟩ := Option.ite_none_right_eq_some.mp executed
    cases same
    rfl
  | lw rd imm rs =>
    obtain ⟨-, same⟩ := Option.ite_none_right_eq_some.mp executed
    cases same
    rfl
  | sb value imm rs =>
    obtain ⟨stores, same⟩ := Option.ite_none_right_eq_some.mp executed
    cases same
    exact Access.store_outside stores outside
  | sw value imm rs =>
    obtain ⟨allowed, same⟩ := Option.ite_none_right_eq_some.mp executed
    cases same
    exact Access.store_outside (Bool.and_eq_true_iff.mp allowed).1 outside
  | branch holds rs1 rs2 target => cases executed; rfl
  | j target => cases executed; rfl
  | jal target => cases executed; rfl
  | ret => cases executed; rfl
  | ecall =>
    cases called : P.ecall s with
    | none =>
      have faults : (Instr.ecall : Instr L D).exec P access s = none := by simp only [Instr.exec, called]
      rw [faults] at executed
      cases executed
    | some service =>
      rw [exec_ecall called] at executed
      obtain ⟨stores, same⟩ := Option.ite_none_right_eq_some.mp executed
      cases same
      simp only [mem_setAll, mem_store]
      exact Access.store_outside stores outside

theorem run_outside {code : List (Instr L D)} {next : Next L} {s' : State ω} {address : Word}
    (ran : run P access code s = some (next, s')) (outside : access.mayStore address = false) :
    s'.mem address = s.mem address := by
  induction code generalizing s with
  | nil => cases ran; rfl
  | cons i rest ih =>
    simp only [run] at ran
    split at ran
    · cases ran
    · rename_i executed
      exact (ih ran).trans (exec_outside executed outside)
    · rename_i executed
      obtain ⟨-, same⟩ := Option.ite_none_right_eq_some.mp ran
      cases same
      exact exec_outside executed outside
    · rename_i executed
      cases ran
      exact exec_outside executed outside
    · rename_i executed
      cases ran
      exact exec_outside executed outside

theorem step_outside {place' : Place L} {s' : State ω} {address : Word}
    (stepped : step P access C place s = some (place', s')) (outside : access.mayStore address = false) :
    s'.mem address = s.mem address := by
  cases place with
  | outside w => cases stepped
  | label l =>
    simp only [step] at stepped
    split at stepped
    · cases stepped
    · rename_i ran
      obtain ⟨l', -, same⟩ := Option.map_eq_some_iff.mp stepped
      cases same
      exact run_outside ran outside
    · rename_i ran
      cases stepped
      exact run_outside ran outside
    · rename_i ran
      obtain ⟨l', -, same⟩ := Option.map_eq_some_iff.mp stepped
      cases same
      rw [mem_set]
      exact run_outside ran outside
    · rename_i ran
      cases stepped
      exact run_outside ran outside

theorem Eventually.outside (first : Eventually P access C post place s) :
    Eventually P access C (fun place s' => post place s' ∧
      ∀ address, access.mayStore address = false → s'.mem address = s.mem address) place s := by
  induction first with
  | here holds => exact .here ⟨holds, fun _ _ => rfl⟩
  | step stepped _ ih =>
    exact .step stepped (ih.mono fun place s ends => ⟨ends.1, fun address outside =>
      (ends.2 address outside).trans (step_outside stepped outside)⟩)

end

end ArchCompSystems.Library.RiscV
