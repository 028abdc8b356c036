import Arm64Emu.FeBitfield

/-! Every word of the data-processing groups, and of the branch group without its
system instructions, is translated into IR with the interpreter's effect. -/
namespace Arm64Emu

variable {D : Type} {P : Platform D} {F : FpJit} {ir : IrBlock} {s₀ s : IrState D} {pc : U64}

@[simp] lemma Machine.forget_addIcount (m : Machine D) (n : U64) :
    (m.mapCpu (·.addIcount n)).forget = m.forget := rfl

lemma jitExec1_machine (m : Machine D) (insn : U32) : (jitExec1 P m pc insn).2 =
    (execA64 P (m.mapCpu (·.enterInsn pc)) insn).mapCpu (·.addIcount 1) := rfl

section Interpreted
variable (h : ir.exec P F s₀ = .ok s) (hs : s.skip = false) (insn : U32)

lemma exec_call1 (pc : U64) (h : ir.exec P F s₀ = .ok s) (hs : s.skip = false) (insn : U32) :
    (∃ m, (putCall1 ir pc insn).exec P F s₀ = .error m ∧
        m.forget = (execA64 P (s.m.mapCpu (·.enterInsn pc)) insn).forget) ∨
      ∃ t, (putCall1 ir pc insn).exec P F s₀ = .ok t ∧ t.skip = false ∧ t.m.cpu.pc = pc + 4 ∧
        t.m.forget = (execA64 P (s.m.mapCpu (·.enterInsn pc)) insn).forget := by
  rw [putCall1, exec_put_ok h]
  simp only [irStep, hs, Bool.false_eq_true, if_false]
  cases hstop : (jitExec1 P s.m pc insn).1 with
  | true =>
    refine .inl ⟨_, if_pos rfl, ?_⟩
    rw [Machine.forget_addIcount, jitExec1_machine, Machine.forget_addIcount]
  | false =>
    refine .inr ⟨_, if_neg Bool.false_ne_true, hs, ?_, ?_⟩
    · simp only [jitExec1, Bool.or_eq_false_iff, decide_eq_false_iff_not, not_not] at hstop
      exact hstop.2
    · rw [IrState.setM, jitExec1_machine, Machine.forget_addIcount]

include h hs in
lemma settles_call1 :
    Settles P F (putCall1 ir pc insn, .feCont) s₀ pc (execA64 P (s.m.mapCpu (·.enterInsn pc)) insn) := by
  unfold Settles
  obtain ⟨m, hrun, hm⟩ | ⟨t, hrun, -, hpc, ht⟩ := exec_call1 pc h hs insn <;> rw [hrun]
  · exact congrArg some hm
  · refine congrArg some (Eq.trans ?_ ht)
    simp only [← hpc]
    rfl

include h hs in
lemma settles_call1_jmp :
    Settles P F (putJmp (putCall1 ir pc insn) (pc + 4)) s₀ pc
      (execA64 P (s.m.mapCpu (·.enterInsn pc)) insn) := by
  unfold Settles
  obtain ⟨m, hrun, hm⟩ | ⟨t, hrun, hskip, hpc, ht⟩ := exec_call1 pc h hs insn
  · rw [putJmp, exec_put_error hrun]
    exact congrArg some hm
  · rw [putJmp, exec_put_ok hrun]
    simp only [irStep, hskip, Bool.false_eq_true, if_false]
    refine congrArg some (Eq.trans ?_ ht)
    rw [← hpc]
    rfl

end Interpreted

section Branches
variable (h : ir.exec P F s₀ = .ok s) (hs : s.skip = false)

include h hs in
lemma settles_putJmp (target : U64) {m : Machine D} (hm : m.forget = (s.m.mapCpu (·.setPc target)).forget) :
    Settles P F (putJmp ir target) s₀ pc m := by
  rw [Settles, putJmp, exec_put_ok h]
  simp only [irStep, hs, Bool.false_eq_true, if_false]
  exact congrArg some hm.symm

include h hs in
lemma settles_jmpind (a : Vreg) {m : Machine D} (hm : m.forget = (s.m.mapCpu (·.setPc (s.read a))).forget) :
    Settles P F (irPut ir (.jmpind a), .feEnd) s₀ pc m := by
  rw [Settles, exec_put_ok h]
  simp only [irStep, hs, Bool.false_eq_true, if_false]
  exact congrArg some hm.symm

include h hs in
lemma settles_condBranch {op : IrOp} {b : Bool} {off : U64}
    (hstep : irStep P F s ⟨op, ir.ninsns⟩ = if b then irJump ir.ninsns s (pc + off) else .ok s) :
    Settles P F (putJmp (irPut ir op) (pc + 4)) s₀ pc
      (s.m.mapCpu fun c => (c.enterInsn pc).jumpIf b off) := by
  cases b with
  | true =>
    rw [Settles, putJmp, exec_put_error ((exec_put_ok h).trans hstep)]
    rfl
  | false => exact settles_putJmp ((exec_put_ok h).trans hstep) hs _ rfl

end Branches

theorem settles_feBranch {e : PdEnt} (hr : e.InRange) (h : ir.exec P F s₀ = .ok s) (hs : s.skip = false)
    (hb : e.op.isBranch = true) :
    Settles P F (feBranch ir e pc) s₀ pc (s.m.mapCpu fun c => pdCpu e (c.enterInsn pc)) := by
  obtain ⟨insn, op, rd, rn, rm, imm⟩ := e
  have hcount : ir.count.exec P F s₀ = .ok s := h
  cases op
  case b => exact settles_putJmp hcount hs _ rfl
  case bl =>
    refine settles_putJmp (s := s.write (.x 30) (pc + 4)) ((exec_put_ok hcount).trans ?_) hs _ rfl
    simp [irStep, hs]
  case bcond =>
    -- `AL` and `NV` are folded into a plain jump
    by_cases hal : rd / 2 % 8 = 7
    · have hcond : condHolds s.m.cpu rd = true := by
        simp only [PdEnt.InRange] at hr
        obtain rfl | rfl : rd = 14 ∨ rd = 15 := by omega
        · rfl
        · rfl
      simp only [feBranch, if_pos hal]
      refine settles_putJmp hcount hs _ ?_
      simp only [pdCpu, Cpu.enterInsn_condHolds, Machine.mapCpu, hcond]
      rfl
    · simp only [feBranch, if_neg hal, pdCpu, Cpu.enterInsn_condHolds]
      exact settles_condBranch (b := condHolds s.m.cpu rd) hcount hs (if_neg (by simp [hs]))
  case cbz64 | cbz32 | cbnz64 | cbnz32 =>
    by_cases hrd : rd = 31
    · subst hrd
      exact settles_putJmp hcount hs _ rfl
    · simp only [feBranch, if_neg (mt (rx_eq_zero_iff rd).1 hrd)]
      refine settles_condBranch hcount hs ?_
      simp only [irStep, hs, Bool.false_eq_true, if_false, IrState.arg_rx]
      exact if_congr (by rw [decide_eq_true_iff]; simp) rfl rfl
  case tbz | tbnz =>
    by_cases hrd : rd = 31
    · subst hrd
      refine settles_putJmp hcount hs _ ?_
      simp [pdCpu, Cpu.regX, Cpu.jumpIf]
      rfl
    · simp only [feBranch, if_neg (mt (rx_eq_zero_iff rd).1 hrd)]
      refine settles_condBranch hcount hs ?_
      simp only [irStep, hs, Bool.false_eq_true, if_false, IrState.read_rx]
      exact if_congr (by simp) rfl rfl
  case br =>
    by_cases hrn : rn = 31
    · subst hrn
      refine settles_jmpind (s := s.write (.tmp 0) 0) ((exec_put_ok hcount).trans ?_) hs _ rfl
      simp [irStep, hs]
    · simp only [feBranch, if_neg (mt (rx_eq_zero_iff rn).1 hrn)]
      refine settles_jmpind hcount hs _ ?_
      rw [IrState.read_rx]
      rfl
  case blr =>
    have htmp : (irPut ir.count (if rx rn = .zero then .movi (.tmp 0) 0 else .mov true (.tmp 0) (rx rn))).exec P F s₀ =
        .ok (s.write (.tmp 0) (s.m.cpu.regX rn)) := by
      rw [exec_put_ok hcount]
      by_cases hrn : rn = 31
      · subst hrn
        simp [irStep, hs, rx, Cpu.regX]
      · simp [if_neg (mt (rx_eq_zero_iff rn).1 hrn), irStep, hs]
    refine settles_jmpind (s := (s.write (.tmp 0) (s.m.cpu.regX rn)).write (.x 30) (pc + 4))
      ((exec_put_ok htmp).trans ?_) hs _ ?_
    · simp [irStep, hs]
    · have hread : ((s.write (.tmp 0) (s.m.cpu.regX rn)).write (.x 30) (pc + 4)).read (.tmp 0) = s.m.cpu.regX rn :=
        s.read_write_tmp _ 0
      rw [hread]
      rfl
  all_goals exact absurd hb Bool.noConfusion

section InRange
variable (insn : U32)

/-- The operations whose fields `InRange` does not bound. -/
def PdOp.unbounded (op : PdOp) : Bool :=
  match op with
  | .lsl64i | .lsr64i | .asr64i | .ubfx64 | .ubfx32 | .ubfiz64 | .lsl32i | .lsr32i | .asr32i | .ubfiz32
  | .sbfx64 | .sbfx32 | .bcond => false
  | _ => true

lemma PdEnt.inRange_of_unbounded {e : PdEnt} (h : e.op.unbounded = true) : e.InRange := by
  obtain ⟨insn, op, rd, rn, rm, imm⟩ := e
  cases op
  case lsl64i | lsr64i | asr64i | ubfx64 | ubfx32 | ubfiz64 | lsl32i | lsr32i | asr32i | ubfiz32 | sbfx64 | sbfx32
      | bcond => exact absurd h Bool.noConfusion
  all_goals trivial

lemma unbounded_pick {sf : Bool} {op64 op32 : PdOp} (h64 : op64.unbounded = true) (h32 : op32.unbounded = true) :
    (pick sf op64 op32).unbounded = true := by
  cases sf
  · exact h32
  · exact h64

lemma inRange_fillBitfield : (fillBitfield (.ofInsn insn) insn).InRange := by
  have hr : bits insn 21 16 < 64 := bits_lt insn 21 16
  have hs : bits insn 15 10 < 64 := bits_lt insn 15 10
  unfold fillBitfield
  cases bit insn 31 with
  | true =>
    simp only [if_true, pick]
    split_ifs
    all_goals simp only [PdEnt.ofInsn, PdEnt.InRange]
    all_goals try rw [zext_toNat (by omega)]
    all_goals omega
  | false =>
    simp only [Bool.false_eq_true, if_false, pick, Bool.or_eq_true, decide_eq_true_eq]
    split_ifs
    all_goals simp only [PdEnt.ofInsn, PdEnt.InRange]
    all_goals try rw [zext_toNat (by omega)]
    all_goals omega

lemma unbounded_logicalImmId (opc : ℕ) (sf : Bool) : (logicalImmId opc sf).unbounded = true := by
  unfold logicalImmId
  split <;> exact unbounded_pick rfl rfl

lemma inRange_fillDpImm : (fillDpImm (.ofInsn insn) insn).InRange := by
  by_cases h26 : bits insn 28 23 = 0x26
  · have hfill : fillDpImm (.ofInsn insn) insn = fillBitfield (.ofInsn insn) insn := by simp [fillDpImm, h26]
    rw [hfill]
    exact inRange_fillBitfield insn
  refine PdEnt.inRange_of_unbounded ?_
  cases hm : pdBitmasks (bit insn 22) (bits insn 15 10) (bits insn 21 16) (bit insn 31) <;>
    simp only [fillDpImm, if_neg h26, hm, apply_ite PdEnt.op, apply_ite PdOp.unbounded, unbounded_logicalImmId, pick] <;>
    simp [PdEnt.ofInsn, PdOp.unbounded]

lemma unbounded_fillDpReg : (fillDpReg (.ofInsn insn) insn).op.unbounded = true := by
  have hpick {sf : Bool} {op64 op32 : PdOp} := @unbounded_pick sf op64 op32
  have hreg (opc : ℕ) (n sf : Bool) : (logicalRegId opc n sf).unbounded = true := by
    unfold logicalRegId
    split <;> split <;> exact hpick rfl rfl
  have hshift (opc : ℕ) (sf : Bool) : (logicalShiftId opc sf).unbounded = true := by
    unfold logicalShiftId
    split <;> exact hpick rfl rfl
  have haddsub (op s sf : Bool) : (addSubRegId op s sf).unbounded = true ∧
      (addSubShiftId op s sf).unbounded = true ∧ (addSubExtId op s sf).unbounded = true ∧
      (ccmpId op s sf).unbounded = true ∧ (cselId op s sf).unbounded = true := by
    cases op <;> cases s <;> cases sf <;> exact ⟨rfl, rfl, rfl, rfl, rfl⟩
  have hdp3 (key : ℕ) (sf : Bool) : (dp3Id key sf).unbounded = true := by
    unfold dp3Id
    split <;> first | rfl | exact hpick rfl rfl
  have hdp1 (opcode : ℕ) (sf : Bool) : (dp1Id opcode sf).unbounded = true := by
    unfold dp1Id
    split_ifs <;> first | rfl | exact hpick rfl rfl
  have hdp2 (opcode : ℕ) (sf : Bool) : (dp2Id opcode sf).unbounded = true := by
    unfold dp2Id
    split <;> first | rfl | exact hpick rfl rfl
  simp only [fillDpReg, apply_ite PdEnt.op, apply_ite PdOp.unbounded, hreg, hshift, haddsub, hdp3, hdp1, hdp2]
  simp [PdEnt.ofInsn, PdOp.unbounded]

lemma inRange_fillBranch : (fillBranch (.ofInsn insn) insn).InRange := by
  by_cases hcond : bits insn 31 24 = 0x54 ∧ !bit insn 4
  · have hb : bits insn 31 26 ≠ 0x05 ∧ bits insn 31 26 ≠ 0x25 := by
      have h := hcond.1
      simp only [bits, Nat.shiftRight_eq_div_pow] at h ⊢
      omega
    simp only [fillBranch, if_neg hb.1, if_neg hb.2, if_pos hcond]
    exact bits_lt insn 3 0
  refine PdEnt.inRange_of_unbounded ?_
  simp only [fillBranch, if_neg hcond, apply_ite PdEnt.op, apply_ite PdOp.unbounded, pick]
  simp [PdEnt.ofInsn, PdOp.unbounded]

end InRange

lemma inRange_pdFill {insn : U32} (h : isDpOrBranch insn = true) : (pdFill insn).InRange := by
  simp only [isDpOrBranch, List.mem_cons, List.not_mem_nil, or_false, decide_eq_true_eq] at h
  rcases h with h | h | h | h | h | h <;> simp only [pdFill, h]
  · exact inRange_fillDpImm insn
  · exact inRange_fillDpImm insn
  · exact PdEnt.inRange_of_unbounded (unbounded_fillDpReg insn)
  · exact PdEnt.inRange_of_unbounded (unbounded_fillDpReg insn)
  · exact inRange_fillBranch insn
  · exact inRange_fillBranch insn

section Generic
variable {insn : U32}

lemma declined_of_dpOrBranch (F : FpJit) (ir : IrBlock) (pc : U64) (hg : isDpOrBranch insn = true) :
    feAtomic ir insn pc = (ir, false) ∧ F.translate insn pc = none ∧ feLdstExtra ir insn pc = none ∧
      feLd1 ir insn pc = none ∧ insn &&& 0x3FA00000 ≠ 0x08800000 := by
  have hne (m v : U32) (hm : bits m 28 25 = 15) (hv : isDpOrBranch v = false) : insn &&& m ≠ v := by
    intro h
    have hb : bits insn 28 25 = bits v 28 25 := bits_of_and_eq h hm
    rw [isDpOrBranch, hb] at hg
    exact absurd (hg.symm.trans hv) (by decide)
  have hgrp : bits insn 28 25 ∈ [0x8, 0x9, 0x5, 0xd, 0xa, 0xb] := of_decide_eq_true hg
  simp only [List.mem_cons, List.not_mem_nil, or_false] at hgrp
  refine ⟨?_, ?_, ?_, ?_, hne _ _ rfl (by decide)⟩
  · rw [feAtomic, if_neg (hne _ _ rfl (by decide)), if_neg (hne _ _ rfl (by decide)),
      if_pos (hne _ _ rfl (by decide))]
  · by_contra hF
    have h7 := F.fp_group insn pc hF
    simp only [bits, Nat.shiftRight_eq_div_pow] at h7 hgrp
    omega
  · have hb : (bit insn 27 && !bit insn 25) = false := by
      simp only [bit_eq_decide, bits, Nat.shiftRight_eq_div_pow] at hgrp ⊢
      grind
    rw [feLdstExtra, if_pos (by rw [hb]; rfl)]
  · rw [feLd1, if_pos ⟨hne _ _ rfl (by decide), by simpa using hne _ _ rfl (by decide)⟩]

def carryOp (insn : U32) : AluOp :=
  if bit insn 30 then (if bit insn 29 then .sbcs else .sbc)
  else if bit insn 29 then .adcs else .adc

lemma feGeneric_of_dpOrBranch (env : FeEnv) (hg : isDpOrBranch insn = true) (hsys : bits insn 31 24 ≠ 0xd5) :
    feGeneric F env ir insn pc =
      match feBitfield ir insn with
      | some ir => (ir.count, .feCont)
      | none =>
        if insn &&& 0x7FFFFC00 = 0x5AC00000 then
          ((putX ir (bits insn 4 0) (.rbit (bit insn 31) (.x (bits insn 4 0)) (rx (bits insn 9 5)))).count,
            .feCont)
        else if insn &&& 0x1FE0FC00 = 0x1A000000 then
          ((putAlu ir (carryOp insn) (bit insn 31) (rx (bits insn 4 0)) (rx (bits insn 9 5))
            (rx (bits insn 20 16))).count, .feCont)
        else if bits insn 28 25 = 0xa ∨ bits insn 28 25 = 0xb then putJmp (putCall1 ir pc insn) (pc + 4)
        else (putCall1 ir pc insn, .feCont) := by
  obtain ⟨hat, hfp, hld, hld1, hlda⟩ := declined_of_dpOrBranch F ir pc hg
  simp only [feGeneric, hat, hfp, hld, hld1, if_neg hlda, if_neg hsys, Bool.false_eq_true, if_false]
  cases feBitfield ir insn <;> rfl

lemma execA64_enter_dpImmediate (m : Machine D) (pc : U64) (h : bits insn 28 23 = 0x26) :
    execA64 P (m.mapCpu (·.enterInsn pc)) insn = ⟨dpImmediate (m.cpu.enterInsn pc) insn, m.bus⟩ := by
  have hgrp : bits insn 28 25 = 0x9 := by
    simp only [bits, Nat.shiftRight_eq_div_pow] at h ⊢
    omega
  simp only [execA64, hgrp]
  rfl

lemma execA64_enter_dpRegister (m : Machine D) (pc : U64) (h : bits insn 28 24 = 0x1a) :
    execA64 P (m.mapCpu (·.enterInsn pc)) insn = ⟨dpRegister (m.cpu.enterInsn pc) insn, m.bus⟩ := by
  have hgrp : bits insn 28 25 = 0xd := by
    simp only [bits, Nat.shiftRight_eq_div_pow] at h ⊢
    omega
  simp only [execA64, hgrp]
  rfl

lemma feBitfield_group {ir' : IrBlock} (h : feBitfield ir insn = some ir') : bits insn 28 23 = 0x26 := by
  by_cases hgrp : insn &&& 0x1F800000 = 0x13000000
  · exact bits_of_and_eq hgrp rfl
  · rw [feBitfield, if_pos hgrp] at h
    exact absurd h (by simp)

lemma dpRegister_rbit (c : Cpu) (h : insn &&& 0x7FFFFC00 = 0x5AC00000) :
    dpRegister c insn = c.setX (bits insn 4 0)
      (sz (bit insn 31) (rbit (sz (bit insn 31) (c.regX (bits insn 9 5))) (if bit insn 31 then 64 else 32))) := by
  have h24 : bits insn 28 24 = 0x1a := bits_of_and_eq h rfl
  have h21 : bits insn 28 21 = 0xd6 := bits_of_and_eq h rfl
  have h15 : bits insn 15 10 = 0 := bits_of_and_eq h rfl
  have h30 : bit insn 30 = true := by
    have h30 : bits insn 30 30 = 1 := bits_of_and_eq h rfl
    rw [bits_self] at h30
    simpa using h30
  simp only [dpRegister, h24, h21, h15, h30, Nat.reduceEqDiff, if_true, if_false, dp1Source, Cpu.setXSz]

lemma dpRegister_carry (c : Cpu) (h : insn &&& 0x1FE0FC00 = 0x1A000000) :
    dpRegister c insn = c.aluX (carryOp insn) (bit insn 31) (bits insn 4 0) (c.regX (bits insn 9 5))
      (c.regX (bits insn 20 16)) := by
  have h24 : bits insn 28 24 = 0x1a := bits_of_and_eq h rfl
  have h21 : bits insn 28 21 = 0xd0 := bits_of_and_eq h rfl
  have h15 : bits insn 15 10 = 0 := bits_of_and_eq h rfl
  simp only [dpRegister, h24, h21, Nat.reduceEqDiff, if_true, if_false, dpCarry, h15, carryOp, Cpu.setXSz]
  cases bit insn 30 <;> cases bit insn 29 <;>
    simp [Cpu.aluX, AluOp.eval, AluOp.setsFlags, sz_addWithCarry]

variable (h : ir.exec P F s₀ = .ok s) (hs : s.skip = false)

include h hs in
lemma settles_feGeneric (env : FeEnv) (hg : isDpOrBranch insn = true) (hsys : bits insn 31 24 ≠ 0xd5) :
    Settles P F (feGeneric F env ir insn pc) s₀ pc (execA64 P (s.m.mapCpu (·.enterInsn pc)) insn) := by
  rw [feGeneric_of_dpOrBranch env hg hsys]
  cases hbf : feBitfield ir insn with
  | some ir' =>
    rw [execA64_enter_dpImmediate _ _ (feBitfield_group hbf)]
    exact (yields_feBitfield h hs hbf).settles
  | none =>
    simp only
    by_cases hrbit : insn &&& 0x7FFFFC00 = 0x5AC00000
    · rw [if_pos hrbit, execA64_enter_dpRegister _ _ (bits_of_and_eq hrbit rfl), dpRegister_rbit _ hrbit,
        Cpu.enterInsn_setX]
      refine (yields_putX h hs ?_).settles
      simp [irStep, hs]
    by_cases hcarry : insn &&& 0x1FE0FC00 = 0x1A000000
    · rw [if_neg hrbit, if_pos hcarry, execA64_enter_dpRegister _ _ (bits_of_and_eq hcarry rfl),
        dpRegister_carry _ hcarry, Cpu.enterInsn_aluX]
      have hy : IrBlock.Yields P F _ s₀ pc _ := yields_putAlu h hs (carryOp insn) (bit insn 31) (bits insn 4 0)
        (rx (bits insn 9 5)) (rx (bits insn 20 16))
      rw [IrState.read_rx, IrState.read_rx] at hy
      exact hy.settles
    rw [if_neg hrbit, if_neg hcarry]
    split
    · exact settles_call1_jmp h hs insn
    · exact settles_call1 h hs insn

end Generic

lemma feFpInsn_of_dpOrBranch {insn : U32} (hg : isDpOrBranch insn = true) {op : PdOp} (hm : op.isMem = false) :
    feFpInsn op insn = false := by
  have hgrp : bits insn 28 25 ∈ [0x8, 0x9, 0x5, 0xd, 0xa, 0xb] := of_decide_eq_true hg
  simp only [List.mem_cons, List.not_mem_nil, or_false] at hgrp
  have hword : (decide (bits insn 28 25 = 0x7) || decide (bits insn 28 25 = 0xf) ||
      (bit insn 27 && !bit insn 25 && bit insn 26)) = false := by
    simp only [bit_eq_decide, bits, Nat.shiftRight_eq_div_pow] at hgrp ⊢
    grind
  have hlast : op.ctorIdx ≤ PdOp.stpdpost.ctorIdx := by cases op <;> decide
  have hlit : op ≠ .ldrlitv := by
    rintro rfl
    exact absurd hm (by decide)
  have hvec : ¬ PdOp.ldrq.ctorIdx ≤ op.ctorIdx := by
    intro hle
    have hmem : op.isMem = true := by
      rw [PdOp.isMem, Bool.and_eq_true, decide_eq_true_iff, decide_eq_true_iff]
      exact ⟨le_trans (by decide) hle, hlast⟩
    exact absurd (hmem.symm.trans hm) (by decide)
  rw [feFpInsn, if_neg hlit, if_neg hvec]
  split
  · rfl
  · exact hword

theorem settles_feInsn_of_dpOrBranch (P : Platform D) (F : FpJit) (env : FeEnv) (insn : U32) (pc : U64)
    (ir : IrBlock) (s₀ s : IrState D) (h : ir.exec P F s₀ = .ok s) (hs : s.skip = false)
    (hg : isDpOrBranch insn = true) (hsys : bits insn 31 24 ≠ 0xd5) :
    Settles P F (feInsn F env ir (pdFill insn) pc) s₀ pc (execA64 P (s.m.mapCpu (·.enterInsn pc)) insn) := by
  have hag := agrees_dpOrBranch P hg fun hh => hsys hh.1
  have hmem : (pdFill insn).op.isMem = false := by
    rcases hag with hgen | hrun
    · rw [hgen]
      rfl
    · exact hrun.1
  rw [feInsn, if_neg (by rw [feFpInsn_of_dpOrBranch (by rwa [pdFill_insn]) hmem]; simp), pdFill_insn]
  rcases hag with hgen | ⟨-, hrun⟩
  · rw [if_pos hgen]
    exact settles_feGeneric h hs env hg hsys
  · by_cases hgen : (pdFill insn).op = .generic
    · rw [if_pos hgen]
      exact settles_feGeneric h hs env hg hsys
    have hr := inRange_pdFill hg
    have hcpu : (s.m.mapCpu (·.enterInsn pc)).mapCpu (pdCpu (pdFill insn)) =
        s.m.mapCpu fun c => pdCpu (pdFill insn) (c.enterInsn pc) := rfl
    rw [if_neg hgen, ← hrun, hcpu]
    cases hb : (pdFill insn).op.isBranch with
    | true => exact settles_feBranch hr h hs hb
    | false =>
      rw [hmem]
      exact (translated_feDp hr h hs hgen hb hmem).settles

theorem settles_feInsn_bfi :
    isDpOrBranch 0xB37C1C41 = true ∧
      Settles (.bare 0x1000) .none (feInsn .none ⟨false, false⟩ .empty (pdFill 0xB37C1C41) 0x40000000)
        (.start (.bare 0x40000000 1)) 0x40000000
        (execA64 (.bare 0x1000) ((IrState.start (.bare 0x40000000 1)).m.mapCpu (·.enterInsn 0x40000000))
          0xB37C1C41) :=
  ⟨by decide, settles_feInsn_of_dpOrBranch (.bare 0x1000) .none ⟨false, false⟩ 0xB37C1C41 0x40000000 .empty
    (.start (.bare 0x40000000 1)) (.start (.bare 0x40000000 1)) rfl rfl (by decide) (by decide)⟩

end Arm64Emu
