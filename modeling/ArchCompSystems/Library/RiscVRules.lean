import ArchCompSystems.Library.RiscVMachine

namespace ArchCompSystems.Library.RiscV

variable {L D ω : Type}

section

variable {P : Platform L D ω} {access : Access} {rest : List (Instr L D)} {s : State ω}
  {post : Next L → State ω → Prop} {f : Word → Word → Word} {holds : Word → Word → Bool}
  {rd rs rs1 rs2 value : Reg} {imm : Word} {label : D} {target : L}

theorem wp_nil (ends : post .fall s) : wp P access [] s post := ⟨.fall, s, rfl, ends⟩

theorem wp_op (ends : wp P access rest (s.set rd (f (s.get rs1) (s.get rs2))) post) :
    wp P access (.op f rd rs1 rs2 :: rest) s post := ends

theorem wp_opImm (ends : wp P access rest (s.set rd (f (s.get rs) imm)) post) :
    wp P access (.opImm f rd rs imm :: rest) s post := ends

theorem wp_add (ends : wp P access rest (s.set rd (s.get rs1 + s.get rs2)) post) :
    wp P access (Instr.add rd rs1 rs2 :: rest) s post := ends

theorem wp_sub (ends : wp P access rest (s.set rd (s.get rs1 - s.get rs2)) post) :
    wp P access (Instr.sub rd rs1 rs2 :: rest) s post := ends

theorem wp_and (ends : wp P access rest (s.set rd (s.get rs1 &&& s.get rs2)) post) :
    wp P access (Instr.and rd rs1 rs2 :: rest) s post := ends

theorem wp_or (ends : wp P access rest (s.set rd (s.get rs1 ||| s.get rs2)) post) :
    wp P access (Instr.or rd rs1 rs2 :: rest) s post := ends

theorem wp_mul (ends : wp P access rest (s.set rd (s.get rs1 * s.get rs2)) post) :
    wp P access (Instr.mul rd rs1 rs2 :: rest) s post := ends

theorem wp_mulhu (ends : wp P access rest (s.set rd (BitVec.ofNat 32 ((s.get rs1).toNat * (s.get rs2).toNat / 2 ^ 32))) post) :
    wp P access (Instr.mulhu rd rs1 rs2 :: rest) s post := ends

theorem wp_slt (ends : wp P access rest (s.set rd (if (s.get rs1).slt (s.get rs2) then 1 else 0)) post) :
    wp P access (Instr.slt rd rs1 rs2 :: rest) s post := ends

theorem wp_sgt (ends : wp P access rest (s.set rd (if (s.get rs2).slt (s.get rs1) then 1 else 0)) post) :
    wp P access (Instr.sgt rd rs1 rs2 :: rest) s post := ends

theorem wp_sgtz (ends : wp P access rest (s.set rd (if (0 : Word).slt (s.get rs) then 1 else 0)) post) :
    wp P access (Instr.sgtz rd rs :: rest) s post := ends

theorem wp_xor (ends : wp P access rest (s.set rd (s.get rs1 ^^^ s.get rs2)) post) :
    wp P access (Instr.xor rd rs1 rs2 :: rest) s post := ends

theorem wp_sltz (ends : wp P access rest (s.set rd (if (s.get rs).slt 0 then 1 else 0)) post) :
    wp P access (Instr.sltz rd rs :: rest) s post := ends

theorem wp_addi (ends : wp P access rest (s.set rd (s.get rs + imm)) post) :
    wp P access (Instr.addi rd rs imm :: rest) s post := ends

theorem wp_andi (ends : wp P access rest (s.set rd (s.get rs &&& imm)) post) :
    wp P access (Instr.andi rd rs imm :: rest) s post := ends

theorem wp_xori (ends : wp P access rest (s.set rd (s.get rs ^^^ imm)) post) :
    wp P access (Instr.xori rd rs imm :: rest) s post := ends

theorem wp_slli (ends : wp P access rest (s.set rd (s.get rs <<< imm)) post) :
    wp P access (Instr.slli rd rs imm :: rest) s post := ends

theorem wp_srli (ends : wp P access rest (s.set rd (s.get rs >>> imm)) post) :
    wp P access (Instr.srli rd rs imm :: rest) s post := ends

theorem wp_srai (ends : wp P access rest (s.set rd ((s.get rs).sshiftRight imm.toNat)) post) :
    wp P access (Instr.srai rd rs imm :: rest) s post := ends

theorem wp_sltiu (ends : wp P access rest (s.set rd (if (s.get rs).ult imm then 1 else 0)) post) :
    wp P access (Instr.sltiu rd rs imm :: rest) s post := ends

theorem wp_mv (ends : wp P access rest (s.set rd (s.get rs)) post) : wp P access (Instr.mv rd rs :: rest) s post := by
  refine wp_addi ?_
  rw [add_zero]
  exact ends

theorem wp_li (ends : wp P access rest (s.set rd imm) post) : wp P access (Instr.li rd imm :: rest) s post := by
  refine wp_addi ?_
  rw [get_zero, zero_add]
  exact ends

theorem wp_seqz (ends : wp P access rest (s.set rd (if s.get rs = 0 then 1 else 0)) post) :
    wp P access (Instr.seqz rd rs :: rest) s post := by
  refine wp_sltiu ?_
  have least : (s.get rs).ult 1 = decide (s.get rs = 0) := by
    rw [BitVec.ult_eq_decide]
    refine decide_eq_decide.mpr ⟨fun small => BitVec.eq_of_toNat_eq ?_, fun zero => ?_⟩
    · exact Nat.lt_one_iff.mp small
    · rw [zero]
      exact Nat.one_pos
  rw [least]
  simpa only [decide_eq_true_eq] using ends

theorem wp_la (ends : wp P access rest (s.set rd (P.data label)) post) :
    wp P access (.la rd label :: rest) s post := ends

theorem wp_fall {i : Instr L D} {s' : State ω} (executed : i.exec P access s = some (.fall, s'))
    (ends : wp P access rest s' post) : wp P access (i :: rest) s post := by
  obtain ⟨next, last, ran, holds⟩ := ends
  refine ⟨next, last, ?_, holds⟩
  rw [run, executed]
  exact ran

theorem wp_lb (loads : access.loads (s.get rs + imm) 1 = true)
    (ends : wp P access rest (s.set rd ((s.mem (s.get rs + imm)).toBitVec.signExtend 32)) post) :
    wp P access (.lb rd imm rs :: rest) s post := wp_fall (if_pos loads) ends

theorem wp_lbu (loads : access.loads (s.get rs + imm) 1 = true)
    (ends : wp P access rest (s.set rd (BitVec.ofNat 32 (s.mem (s.get rs + imm)).toNat)) post) :
    wp P access (.lbu rd imm rs :: rest) s post := wp_fall (if_pos loads) ends

theorem wp_lw (loads : access.loads (s.get rs + imm) 4 = true) (aligned : isAligned (s.get rs + imm) = true)
    (ends : wp P access rest (s.set rd (s.mem.loadWord (s.get rs + imm))) post) :
    wp P access (.lw rd imm rs :: rest) s post := wp_fall (if_pos (Bool.and_eq_true_iff.mpr ⟨loads, aligned⟩)) ends

theorem wp_sb (stores : access.stores (s.get rs + imm) 1 = true)
    (ends : wp P access rest (s.store (s.get rs + imm) [UInt8.ofNat (s.get value).toNat]) post) :
    wp P access (.sb value imm rs :: rest) s post := wp_fall (if_pos stores) ends

theorem wp_sw (stores : access.stores (s.get rs + imm) 4 = true) (aligned : isAligned (s.get rs + imm) = true)
    (ends : wp P access rest (s.store (s.get rs + imm) (wordBytes (s.get value))) post) :
    wp P access (.sw value imm rs :: rest) s post := wp_fall (if_pos (Bool.and_eq_true_iff.mpr ⟨stores, aligned⟩)) ends

theorem wp_branch (taken : holds (s.get rs1) (s.get rs2) = true → post (.jump target) s)
    (passed : holds (s.get rs1) (s.get rs2) = false → wp P access rest s post) :
    wp P access (.branch holds rs1 rs2 target :: rest) s post := by
  have executed : (Instr.branch holds rs1 rs2 target : Instr L D).exec P access s =
      some (if holds (s.get rs1) (s.get rs2) then .jump target else .fall, s) := rfl
  cases decided : holds (s.get rs1) (s.get rs2) with
  | true =>
    rw [decided, if_pos rfl] at executed
    exact ⟨.jump target, s, by rw [run, executed], taken decided⟩
  | false =>
    rw [decided, if_neg Bool.false_ne_true] at executed
    exact wp_fall executed (passed decided)

theorem wp_beq (taken : s.get rs1 = s.get rs2 → post (.jump target) s)
    (passed : s.get rs1 ≠ s.get rs2 → wp P access rest s post) : wp P access (Instr.beq rs1 rs2 target :: rest) s post :=
  wp_branch (fun holds => taken (of_decide_eq_true holds)) fun holds => passed (of_decide_eq_false holds)

theorem wp_bne (taken : s.get rs1 ≠ s.get rs2 → post (.jump target) s)
    (passed : s.get rs1 = s.get rs2 → wp P access rest s post) : wp P access (Instr.bne rs1 rs2 target :: rest) s post :=
  wp_branch (fun holds => taken (of_decide_eq_true holds)) fun holds => passed (not_not.mp (of_decide_eq_false holds))

theorem wp_beqz (taken : s.get rs = 0 → post (.jump target) s) (passed : s.get rs ≠ 0 → wp P access rest s post) :
    wp P access (Instr.beqz rs target :: rest) s post := wp_beq taken passed

theorem wp_bnez (taken : s.get rs ≠ 0 → post (.jump target) s) (passed : s.get rs = 0 → wp P access rest s post) :
    wp P access (Instr.bnez rs target :: rest) s post := wp_bne taken passed

theorem wp_blt (taken : (s.get rs1).slt (s.get rs2) = true → post (.jump target) s)
    (passed : (s.get rs1).slt (s.get rs2) = false → wp P access rest s post) :
    wp P access (Instr.blt rs1 rs2 target :: rest) s post := wp_branch taken passed

theorem wp_bge (taken : (s.get rs1).slt (s.get rs2) = false → post (.jump target) s)
    (passed : (s.get rs1).slt (s.get rs2) = true → wp P access rest s post) :
    wp P access (Instr.bge rs1 rs2 target :: rest) s post :=
  wp_branch (fun holds => taken (Bool.not_eq_true' _ ▸ holds)) fun holds => passed (Bool.not_eq_false' _ ▸ holds)

theorem wp_bltz (taken : (s.get rs).slt 0 = true → post (.jump target) s)
    (passed : (s.get rs).slt 0 = false → wp P access rest s post) :
    wp P access (Instr.bltz rs target :: rest) s post := wp_blt taken passed

theorem wp_ble (taken : (s.get rs2).slt (s.get rs1) = false → post (.jump target) s)
    (passed : (s.get rs2).slt (s.get rs1) = true → wp P access rest s post) :
    wp P access (Instr.ble rs1 rs2 target :: rest) s post := wp_bge taken passed

theorem wp_bltu (taken : (s.get rs1).ult (s.get rs2) = true → post (.jump target) s)
    (passed : (s.get rs1).ult (s.get rs2) = false → wp P access rest s post) :
    wp P access (Instr.bltu rs1 rs2 target :: rest) s post := wp_branch taken passed

theorem wp_j (ends : post (.jump target) s) : wp P access (.j target :: rest) s post := ⟨_, s, rfl, ends⟩

theorem wp_jal (ends : post (.link target) s) : wp P access [.jal target] s post := ⟨_, s, rfl, ends⟩

theorem wp_ret (ends : post (.back (s.get .ra)) s) : wp P access (.ret :: rest) s post := ⟨_, s, rfl, ends⟩

theorem exec_ecall {service : Service ω} (called : P.ecall s = some service) :
    (Instr.ecall : Instr L D).exec P access s = if access.stores service.base service.bytes.length then
      some (.fall, { (s.store service.base service.bytes).setAll service.results with world := service.world })
    else none := by
  simp only [Instr.exec, called]

theorem wp_ecall {service : Service ω} (called : P.ecall s = some service)
    (stores : access.stores service.base service.bytes.length = true)
    (ends : wp P access rest { (s.store service.base service.bytes).setAll service.results with world := service.world } post) :
    wp P access (.ecall :: rest) s post := wp_fall ((exec_ecall called).trans (if_pos stores)) ends

theorem wp_ecall_quiet {base : Word} {world : ω} (called : P.ecall s = some ⟨[], base, [], world⟩)
    (ends : wp P access rest { s with world := world } post) : wp P access (.ecall :: rest) s post :=
  wp_ecall called rfl ends

end

end ArchCompSystems.Library.RiscV
