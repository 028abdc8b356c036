import Arm64Emu.PdDataProcessing

/-! The predecoded tier on the branch group, and its agreement with the
interpreter on every group that touches only the processor state. -/
namespace Arm64Emu

section ExceptionLevel

@[simp] lemma Cpu.setFlagsX_el (c : Cpu) (rd : ℕ) (is64 : Bool) (r : U64 × U32) :
    (c.setFlagsX rd is64 r).el = c.el := Cpu.setX_el _ _ _

@[simp] lemma Cpu.jumpIf_el (c : Cpu) (take : Bool) (off : U64) : (c.jumpIf take off).el = c.el := by
  unfold Cpu.jumpIf
  split <;> rfl

variable (e : PdEnt) (c : Cpu)

@[simp] lemma pdLogicalShift_el : (pdLogicalShift e c).el = c.el := by
  simp only [pdLogicalShift, Cpu.setX_el, apply_ite Cpu.el, Cpu.setNzcv_el, ite_self]

@[simp] lemma pdAddSubShift_el : (pdAddSubShift e c).el = c.el := by
  simp only [pdAddSubShift, Cpu.setXSz_el, apply_ite Cpu.el, Cpu.setNzcv_el, ite_self]

@[simp] lemma pdAddSubExt_el : (pdAddSubExt e c).el = c.el := by
  simp only [pdAddSubExt, Cpu.setXSz_el, Cpu.setXsp_el, apply_ite Cpu.el, Cpu.setNzcv_el, ite_self]

@[simp] lemma pdCsel_el : (pdCsel e c).el = c.el := Cpu.setXSz_el _ _ _ _

@[simp] lemma pdCcmp_el : (pdCcmp e c).el = c.el := by
  simp only [pdCcmp, apply_ite Cpu.el, Cpu.setNzcv_el, ite_self]

lemma pdCpu_el : (pdCpu e c).el = c.el := by
  obtain ⟨insn, op, rd, rn, rm, imm⟩ := e
  cases op <;> simp only [pdCpu, Cpu.setX_el, Cpu.setXsp_el, Cpu.setPc_el, Cpu.setNzcv_el,
    Cpu.setFlagsX_el, Cpu.jumpIf_el, pdLogicalShift_el, pdAddSubShift_el, pdAddSubExt_el, pdCsel_el,
    pdCcmp_el]

lemma undefined_el (c : Cpu) (h : c.el = 0) : (undefined c).el = 1 := by
  simp [undefined, cpuRaiseSync, exceptionTake, h, Cpu.refreshFpTrap]

end ExceptionLevel

variable {D : Type}

/-- The entry is left to the interpreter, or its handler acts on the processor
state alone and has the effect of `insn`. -/
def PdEnt.Agrees (P : Platform D) (e : PdEnt) (insn : U32) : Prop :=
  e.op = .generic ∨ (e.op.isMem = false ∧ ∀ s : Machine D, s.mapCpu (pdCpu e) = execA64 P s insn)

lemma PdEnt.Runs.agrees {P : Platform D} {e : PdEnt} {insn : U32} {f : Cpu → Cpu} (h : e.Runs f)
    (hx : ∀ s : Machine D, execA64 P s insn = s.mapCpu f) : e.Agrees P insn := by
  rcases h with h | ⟨hm, h⟩
  · exact .inl h
  · refine .inr ⟨hm, fun s => ?_⟩
    rw [hx, Machine.mapCpu, Machine.mapCpu, h]

lemma mapCpu_jumpIf (s : Machine D) (t : Cpu → Bool) (off : U64) :
    s.mapCpu (fun c => c.jumpIf (t c) off) =
      if t s.cpu then s.mapCpu (·.setPc (s.cpu.curInsnPc + off)) else s := by
  simp only [Machine.mapCpu, Cpu.jumpIf]
  split <;> rfl

lemma agrees_branch (P : Platform D) {insn : U32} (h : bits insn 28 25 = 0xa ∨ bits insn 28 25 = 0xb)
    (hh : ¬(bits insn 31 24 = 0xd5 ∧ isHint insn = true)) :
    (fillBranch (.ofInsn insn) insn).Agrees P insn := by
  have hx (s : Machine D) : execA64 P s insn = branchSystem P s insn := by
    rcases h with h | h <;> simp only [execA64, h]
  by_cases hb : bits insn 31 26 = 0x05
  · refine .inr ⟨by simp only [fillBranch, hb, if_true]; rfl, fun s => ?_⟩
    simp only [hx, fillBranch, branchSystem, hb, if_true]
    rfl
  by_cases hbl : bits insn 31 26 = 0x25
  · refine .inr ⟨by simp only [fillBranch, hbl]; rfl, fun s => ?_⟩
    simp only [hx, fillBranch, branchSystem, hbl, Nat.reduceEqDiff, if_true, if_false]
    rfl
  by_cases hcond : bits insn 31 24 = 0x54 ∧ (!bit insn 4) = true
  · refine .inr ⟨by simp only [fillBranch, hb, hbl, hcond, and_self, if_true, if_false]; rfl, fun s => ?_⟩
    simp only [hx, fillBranch, branchSystem, hb, hbl, hcond, and_self, if_true, if_false]
    exact mapCpu_jumpIf s (fun c => condHolds c (bits insn 3 0)) _
  by_cases hcb : bits insn 30 25 = 0x1a
  · simp only [fillBranch, hb, hbl, hcond, hcb, if_true, if_false]
    cases hsf : bit insn 31 <;> cases h24 : bit insn 24 <;> refine .inr ⟨rfl, fun s => ?_⟩ <;>
      simp only [hx, branchSystem, hb, hbl, hcond, hcb, hsf, h24, if_true, if_false, Bool.false_eq_true,
        Cpu.regXSz, sz_true, sz_false]
    · exact (mapCpu_jumpIf s (fun c => decide (lo32 (c.regX (bits insn 4 0)) = 0)) _).trans (by simp)
    · exact (mapCpu_jumpIf s (fun c => decide (lo32 (c.regX (bits insn 4 0)) ≠ 0)) _).trans (by simp)
    · exact (mapCpu_jumpIf s (fun c => decide (c.regX (bits insn 4 0) = 0)) _).trans (by simp)
    · exact (mapCpu_jumpIf s (fun c => decide (c.regX (bits insn 4 0) ≠ 0)) _).trans (by simp)
  by_cases htb : bits insn 30 25 = 0x1b
  · simp only [fillBranch, hb, hbl, hcond, htb, if_true, if_false]
    cases h24 : bit insn 24 <;> refine .inr ⟨rfl, fun s => ?_⟩ <;>
      simp only [hx, branchSystem, hb, hbl, hcond, htb, h24, if_true, if_false]
    · exact (mapCpu_jumpIf s (fun c => !(c.regX (bits insn 4 0)).getLsbD _) _).trans (by simp)
    · exact mapCpu_jumpIf s (fun c => (c.regX (bits insn 4 0)).getLsbD _) _
  by_cases hreg : bits insn 31 25 = 0x6b
  · have hexc : bits insn 31 24 ≠ 0xd4 := by
      simp only [bits, Nat.shiftRight_eq_div_pow] at hreg ⊢
      omega
    simp only [fillBranch, hb, hbl, hcond, hcb, htb, hreg, if_true, if_false]
    have hopc (s : Machine D) : execA64 P s insn = s.mapCpu (branchReg · insn) := by
      simp only [hx, branchSystem, hb, hbl, hcond, hcb, htb, hreg, hexc, if_true, if_false]
    split_ifs with h02 h1
    · refine .inr ⟨rfl, fun s => ?_⟩
      rcases h02 with h0 | h2
      · simp only [hopc, branchReg, h0]
        rfl
      · simp only [hopc, branchReg, h2]
        rfl
    · refine .inr ⟨rfl, fun s => ?_⟩
      simp only [hopc, branchReg, h1]
      rfl
    · exact .inl rfl
  refine .inl ?_
  simp only [fillBranch, hb, hbl, hcond, hcb, htb, hreg, if_false]
  split_ifs with hsys hhint
  · exact absurd ⟨hsys, hhint.1⟩ hh
  · rfl
  · rfl

def isDpOrBranch (insn : U32) : Bool :=
  bits insn 28 25 ∈ [0x8, 0x9, 0x5, 0xd, 0xa, 0xb]

lemma agrees_dpOrBranch (P : Platform D) {insn : U32} (h : isDpOrBranch insn = true)
    (hh : ¬(bits insn 31 24 = 0xd5 ∧ isHint insn = true)) : (pdFill insn).Agrees P insn := by
  simp only [isDpOrBranch, List.mem_cons, List.not_mem_nil, or_false, decide_eq_true_eq] at h
  rcases h with h | h | h | h | h | h <;> simp only [pdFill, h]
  · exact (runs_dpImmediate insn).agrees fun s => by simp only [execA64, h]
  · exact (runs_dpImmediate insn).agrees fun s => by simp only [execA64, h]
  · exact (runs_dpRegister insn).agrees fun s => by simp only [execA64, h]
  · exact (runs_dpRegister insn).agrees fun s => by simp only [execA64, h]
  · exact agrees_branch P (.inl h) hh
  · exact agrees_branch P (.inr h) hh

lemma PdOp.isMem_of_basedMem {op : PdOp} (h : op.basedMem = true) : op.isMem = true := by
  simp only [PdOp.basedMem, PdOp.isMem, Bool.and_eq_true] at h ⊢
  exact h.1.1.1

lemma pdFillTier_of_not_isMem {insn : U32} (h : (pdFill insn).op.isMem = false) :
    pdFillTier insn = pdFill insn := by
  refine if_neg fun hb => ?_
  rw [PdOp.isMem_of_basedMem hb.2] at h
  exact absurd h (by decide)

section Insn
variable (e : PdEnt) (insn : U32)

lemma fillDpImm_insn : (fillDpImm e insn).insn = e.insn := by
  cases h : pdBitmasks (bit insn 22) (bits insn 15 10) (bits insn 21 16) (bit insn 31) <;>
    simp only [fillDpImm, fillBitfield, h, apply_ite PdEnt.insn, ite_self]

lemma fillBranch_insn : (fillBranch e insn).insn = e.insn := by
  simp only [fillBranch, apply_ite PdEnt.insn, ite_self]

lemma fillDpReg_insn : (fillDpReg e insn).insn = e.insn := by
  simp only [fillDpReg, apply_ite PdEnt.insn, ite_self]

lemma fillPair_insn : (fillPair e insn).insn = e.insn := by
  simp only [fillPair]
  split
  · rfl
  · split <;> rfl

lemma fillLdst_insn : (fillLdst e insn).insn = e.insn := by
  simp only [fillLdst, fillLiteral, fillSingle, fillVec, fillPair_insn, apply_ite PdEnt.insn, ite_self]

end Insn

lemma pdFill_insn (insn : U32) : (pdFill insn).insn = insn := by
  unfold pdFill
  split <;> simp [fillDpImm_insn, fillBranch_insn, fillDpReg_insn, fillLdst_insn]

lemma pdFillTier_insn (insn : U32) : (pdFillTier insn).insn = insn := by
  simp only [pdFillTier, apply_ite PdEnt.insn, ite_self, pdFill_insn]

lemma PdEnt.Agrees.tier_eq {P : Platform D} {insn : U32} (h : (pdFill insn).Agrees P insn) :
    pdFillTier insn = pdFill insn := by
  rcases h with h | h
  · exact pdFillTier_of_not_isMem (by rw [h]; rfl)
  · exact pdFillTier_of_not_isMem h.1

lemma PdEnt.Agrees.handler_eq {P : Platform D} {insn : U32} (h : (pdFill insn).Agrees P insn)
    (s : Machine D) : pdHandler P (pdFillTier insn) s = execA64 P s insn := by
  rw [h.tier_eq, pdHandler, pdFill_insn]
  split
  · rfl
  · rcases h with h | ⟨hm, hrun⟩
    · exact absurd h ‹_›
    · rw [hm, ← hrun]
      rfl

theorem pdHandler_eq_execA64_of_dpOrBranch (P : Platform D) (insn : U32) (s : Machine D)
    (hg : isDpOrBranch insn = true) (hh : ¬(bits insn 31 24 = 0xd5 ∧ isHint insn = true)) :
    pdHandler P (pdFillTier insn) s = execA64 P s insn ∧
      ((∀ t : Machine D, execA64 P t insn = t.mapCpu undefined) → (pdFillTier insn).op = .generic) := by
  have hag := agrees_dpOrBranch P hg hh
  refine ⟨hag.handler_eq s, fun hundef => ?_⟩
  rw [hag.tier_eq]
  rcases hag with hgen | ⟨hm, hrun⟩
  · exact hgen
  · -- at EL0 an undefined instruction changes the level, and no handler does
    let t : Machine D := s.mapCpu fun c => { c with el := 0 }
    have h1 : (pdCpu (pdFill insn) t.cpu).el = 0 := pdCpu_el _ _
    have h2 := congrArg (fun m => m.cpu.el) ((hrun t).trans (hundef t))
    have h3 : (undefined t.cpu).el = 1 := undefined_el _ rfl
    exact absurd (h1.symm.trans (h2.trans h3)) (by decide)

theorem pdHandler_eq_execA64_add_imm :
    isDpOrBranch 0x91000420 = true ∧
      pdHandler (.bare 0x1000) (pdFillTier 0x91000420) (.bare 0x40000000 1) =
        execA64 (.bare 0x1000) (.bare 0x40000000 1) 0x91000420 :=
  ⟨by decide, (pdHandler_eq_execA64_of_dpOrBranch (.bare 0x1000) 0x91000420 (.bare 0x40000000 1)
    (by decide) (by decide)).1⟩

end Arm64Emu
