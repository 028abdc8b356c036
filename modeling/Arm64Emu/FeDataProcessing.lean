import Arm64Emu.IrRun
import Arm64Emu.PdBranch

/-! Data-processing words: the emitted IR computes what the predecoded handler
computes. Operands are truncated by every 32-bit operation, so the handler's own
operands may be used untruncated. -/
namespace Arm64Emu

section Values

lemma addWithCarry_lo32 (x y : U64) (cin : Bool) :
    addWithCarry (lo32 x) (lo32 y) cin false = addWithCarry x y cin false := by
  simp only [addWithCarry, lo32, Bool.false_eq_true, if_false, BitVec.setWidth_setWidth_of_le,
    Nat.reduceLeDiff]

@[simp] lemma sz_sz (w : Bool) (v : U64) : sz w (sz w v) = sz w v := by
  cases w <;> simp

lemma sz_addWithCarry (w : Bool) (x y : U64) (cin : Bool) :
    sz w (addWithCarry x y cin w).1 = (addWithCarry x y cin w).1 := by
  cases w
  · rw [addWithCarry_32]
    exact lo32_lo32 _
  · rfl

lemma AluOp.eval_sz (op : AluOp) (w : Bool) (x y : U64) (cin : Bool) :
    op.eval w (sz w x) (sz w y) cin = op.eval w x y cin := by
  cases w with
  | true => rfl
  | false =>
    have hnot (cin : Bool) :
        addWithCarry (lo32 x) (~~~lo32 y) cin false = addWithCarry x (~~~y) cin false := by
      rw [← addWithCarry_lo32, lo32_lo32, lo32_not_lo32, addWithCarry_lo32]
    have hlogic : lo32 (lo32 x &&& ~~~lo32 y) = lo32 (x &&& ~~~y) ∧
        lo32 (lo32 x ||| ~~~lo32 y) = lo32 (x ||| ~~~y) ∧
        lo32 (lo32 x ^^^ ~~~lo32 y) = lo32 (x ^^^ ~~~y) := by
      simp only [lo32_and, lo32_or, lo32_xor, lo32_lo32, lo32_not_lo32, and_self]
    cases op <;> simp only [AluOp.eval, sz_false, addWithCarry_lo32, hnot, hlogic]
    all_goals simp only [lo32_and, lo32_or, lo32_xor, lo32_lo32]

lemma ShiftOp.eval_sz (op : ShiftOp) (w : Bool) (x : U64) (k : ℕ) : op.eval w (sz w x) k = op.eval w x k := by
  cases w <;> simp [ShiftOp.eval, shiftReg]

lemma setWidth_lo32 (v : U64) : (lo32 v).setWidth 32 = (v.setWidth 32 : U32) := by simp [lo32]

@[simp] lemma lo32_lo32_shiftLeft (v : U64) (k : ℕ) : lo32 (lo32 v <<< k) = lo32 (v <<< k) := by
  rw [lo32_shiftLeft, lo32_shiftLeft, setWidth_lo32]

@[simp] lemma setWidth_lo32_shiftLeft (v : U64) (k : ℕ) : (lo32 (v <<< k)).setWidth 32 = (v.setWidth 32 : U32) <<< k := by
  rw [lo32_shiftLeft]
  simp

section Shifts
variable (v : U64) {k : ℕ}

lemma lsl_eval_64 (h : k < 64) : ShiftOp.lsl.eval true v k = v <<< k := by
  simp [ShiftOp.eval, ShiftOp.type, shiftReg, Nat.mod_eq_of_lt h]

lemma lsl_eval_32 (h : k < 32) : ShiftOp.lsl.eval false v k = lo32 (v <<< k) := by
  simp [ShiftOp.eval, ShiftOp.type, shiftReg, Nat.mod_eq_of_lt h, lo32]

lemma lsr_eval_64 (h : k < 64) : ShiftOp.lsr.eval true v k = v >>> k := by
  simp [ShiftOp.eval, ShiftOp.type, shiftReg, Nat.mod_eq_of_lt h]

lemma lsr_eval_32 (h : k < 32) : ShiftOp.lsr.eval false v k = ((v.setWidth 32 : U32) >>> k).setWidth 64 := by
  simp only [ShiftOp.eval, ShiftOp.type, shiftReg, Nat.mod_eq_of_lt h, sz_false, Bool.false_eq_true, if_false,
    setWidth_lo32, lo32_setWidth]

lemma asr_eval_64 (h : k < 64) : ShiftOp.asr.eval true v k = v.sshiftRight k := by
  simp [ShiftOp.eval, ShiftOp.type, shiftReg, Nat.mod_eq_of_lt h]

lemma asr_eval_32 (h : k < 32) :
    ShiftOp.asr.eval false v k = ((v.setWidth 32 : U32).sshiftRight k).setWidth 64 := by
  simp only [ShiftOp.eval, ShiftOp.type, shiftReg, Nat.mod_eq_of_lt h, sz_false, Bool.false_eq_true, if_false,
    setWidth_lo32, lo32_setWidth]

end Shifts

lemma extrEval_64 (hi lo : U64) {k : ℕ} (h : k ≠ 0) :
    extrEval true (sz true hi) (sz true lo) k = (hi <<< (64 - k)) ||| (lo >>> k) := by
  simp [extrEval, h]

lemma extrEval_32 (hi lo : U64) {k : ℕ} (h : k ≠ 0) :
    extrEval false (sz false hi) (sz false lo) k =
      (((hi.setWidth 32 : U32) <<< (32 - k)) ||| ((lo.setWidth 32 : U32) >>> k)).setWidth 64 := by
  have hshr : lo32 lo >>> k = ((lo.setWidth 32 : U32) >>> k).setWidth 64 := by simp [lo32]
  simp only [extrEval, if_neg h, sz_false, Bool.false_eq_true, if_false, lo32_or, lo32_lo32_shiftLeft, hshr,
    lo32_setWidth, BitVec.setWidth_or]
  rw [lo32_shiftLeft]

lemma MacOp.eval_sz (op : MacOp) (w : Bool) (x y ra : U64) :
    sz w (op.eval (sz w x) (sz w y) (sz w ra)) = sz w (op.eval x y ra) := by
  cases w with
  | true => rfl
  | false =>
    simp only [sz_false, lo32]
    refine congrArg (BitVec.setWidth 64) ?_
    cases op <;> simp [MacOp.eval, lo32, BitVec.sub_eq_add_neg, BitVec.setWidth_add, BitVec.setWidth_mul,
      BitVec.setWidth_neg_of_le]

lemma CselOp.eval_sz (op : CselOp) (w : Bool) (x : U64) : sz w (op.eval (sz w x)) = sz w (op.eval x) := by
  cases w with
  | true => rfl
  | false =>
    simp only [sz_false, lo32]
    refine congrArg (BitVec.setWidth 64) ?_
    cases op <;> simp [CselOp.eval, BitVec.setWidth_add, BitVec.setWidth_not, BitVec.setWidth_neg_of_le]

lemma div_lo32 (x y : U64) : udiv (lo32 x) (lo32 y) false = udiv x y false ∧
    sdiv (lo32 x) (lo32 y) false = sdiv x y false := by
  simp [udiv, sdiv, lo32]

end Values

variable {D : Type} {P : Platform D} {F : FpJit} {ir : IrBlock} {s₀ s : IrState D} {pc : U64}

/-- `rd = x op y` on the processor, with the flags when `op` defines them. -/
def Cpu.aluX (c : Cpu) (op : AluOp) (w : Bool) (rd : ℕ) (x y : U64) : Cpu :=
  let r := op.eval w x y (decide (c.nzcv &&& psC ≠ 0))
  (if op.setsFlags then c.setNzcv r.2 else c).setX rd r.1

/-- The same with the stack pointer as register 31; such operations set no flags. -/
def Cpu.aluXsp (c : Cpu) (op : AluOp) (w : Bool) (rd : ℕ) (x y : U64) : Cpu :=
  c.setXsp rd (op.eval w x y (decide (c.nzcv &&& psC ≠ 0))).1

section Emit
variable (h : ir.exec P F s₀ = .ok s) (hs : s.skip = false)

include h in
lemma yields_refl (hs : s.skip = false) : ir.Yields P F s₀ pc ⟨s.m.cpu.enterInsn pc, s.m.bus⟩ :=
  ⟨s, h, hs, rfl⟩

include h hs in
lemma yields_putX {rd : ℕ} {op : IrOp} {v : U64}
    (hstep : irStep P F s ⟨op, ir.ninsns⟩ = .ok (s.write (.x rd) v)) :
    (putX ir rd op).Yields P F s₀ pc ⟨(s.m.cpu.setX rd v).enterInsn pc, s.m.bus⟩ := by
  by_cases hrd : rd = 31
  · rw [putX, if_neg (by simpa [rx_eq_zero_iff] using hrd)]
    subst hrd
    exact yields_refl h hs
  · rw [putX, if_pos (by simpa [rx_eq_zero_iff] using hrd)]
    refine ⟨_, (exec_put_ok h).trans hstep, by simpa using hs, ?_⟩
    rw [← rx_of_ne hrd, IrState.write_rx_m]
    rfl

lemma IrState.alu_rx_m (s : IrState D) (op : AluOp) (w : Bool) (rd : ℕ) (x y : U64) :
    (s.alu op w (rx rd) x y).m = ⟨s.m.cpu.aluX op w rd x y, s.m.bus⟩ := by
  simp only [IrState.alu, Cpu.aluX, IrState.write_rx_m, IrState.carry]
  split <;> rfl

lemma IrState.alu_skip (s : IrState D) (op : AluOp) (w : Bool) (r : Vreg) (x y : U64) :
    (s.alu op w r x y).skip = s.skip := by
  simp only [IrState.alu, IrState.write_skip]
  split <;> rfl

include h hs in
lemma yields_aluOp {o : IrOp} {op : AluOp} {w : Bool} {rd : ℕ} {x y : U64}
    (hstep : irStep P F s ⟨o, ir.ninsns⟩ = .ok (s.alu op w (rx rd) x y)) :
    (if rx rd = .zero ∧ !op.setsFlags then ir else irPut ir o).Yields P F s₀ pc
      ⟨(s.m.cpu.aluX op w rd x y).enterInsn pc, s.m.bus⟩ := by
  split
  · rename_i hdrop
    have hrd : rd = 31 := (rx_eq_zero_iff rd).1 hdrop.1
    have hf : op.setsFlags = false := by simpa using hdrop.2
    rw [Cpu.aluX, hf, hrd]
    exact yields_refl h hs
  · refine ⟨_, (exec_put_ok h).trans hstep, by rw [IrState.alu_skip, hs], ?_⟩
    rw [IrState.alu_rx_m]
    rfl

include h hs in
lemma yields_putAlu (op : AluOp) (w : Bool) (rd : ℕ) (a b : Vreg) :
    (putAlu ir op w (rx rd) a b).Yields P F s₀ pc
      ⟨(s.m.cpu.aluX op w rd (s.read a) (s.read b)).enterInsn pc, s.m.bus⟩ := by
  refine yields_aluOp h hs ?_
  simp only [irStep, hs, Bool.false_eq_true, if_false, IrState.alu, IrState.arg, AluOp.eval_sz]

include h hs in
lemma yields_putAlui (op : AluOp) (w : Bool) (rd : ℕ) (a : Vreg) (imm : U64) :
    (putAlui ir op w (rx rd) a imm).Yields P F s₀ pc
      ⟨(s.m.cpu.aluX op w rd (s.read a) imm).enterInsn pc, s.m.bus⟩ := by
  refine yields_aluOp h hs ?_
  simp only [irStep, hs, Bool.false_eq_true, if_false, IrState.alu, IrState.arg, AluOp.eval_sz]

lemma IrState.alu_rsp_m (s : IrState D) {op : AluOp} (hf : op.setsFlags = false) (w : Bool) (rd : ℕ)
    (x y : U64) : (s.alu op w (rsp rd) x y).m = ⟨s.m.cpu.aluXsp op w rd x y, s.m.bus⟩ := by
  simp only [IrState.alu, hf, Bool.false_eq_true, if_false]
  rfl

include h hs in
lemma yields_putAlu_sp {op : AluOp} (hf : op.setsFlags = false) (w : Bool) (rd : ℕ) (a b : Vreg) :
    (putAlu ir op w (rsp rd) a b).Yields P F s₀ pc
      ⟨(s.m.cpu.aluXsp op w rd (s.read a) (s.read b)).enterInsn pc, s.m.bus⟩ := by
  rw [putAlu, if_neg (by simp [rsp])]
  refine ⟨s.alu op w (rsp rd) (s.read a) (s.read b), (exec_put_ok h).trans ?_, by rw [IrState.alu_skip, hs], ?_⟩
  · simp only [irStep, hs, Bool.false_eq_true, if_false, IrState.alu, IrState.arg, AluOp.eval_sz]
  · rw [IrState.alu_rsp_m s hf]
    rfl

include h hs in
lemma yields_putAlui_sp {op : AluOp} (hf : op.setsFlags = false) (w : Bool) (rd : ℕ) (a : Vreg) (imm : U64) :
    (putAlui ir op w (rsp rd) a imm).Yields P F s₀ pc
      ⟨(s.m.cpu.aluXsp op w rd (s.read a) imm).enterInsn pc, s.m.bus⟩ := by
  rw [putAlui, if_neg (by simp [rsp])]
  refine ⟨s.alu op w (rsp rd) (s.read a) imm, (exec_put_ok h).trans ?_, by rw [IrState.alu_skip, hs], ?_⟩
  · simp only [irStep, hs, Bool.false_eq_true, if_false, IrState.alu, IrState.arg, AluOp.eval_sz]
  · rw [IrState.alu_rsp_m s hf]
    rfl

end Emit

section Operands
variable (h : ir.exec P F s₀ = .ok s) (hs : s.skip = false)

/-- `ir'` runs on from `s` with only temporaries changed, and leaves `v` in `m`. -/
structure Stages (P : Platform D) (F : FpJit) (out : IrBlock × Vreg) (s₀ s t : IrState D) (v : U64) : Prop where
  exec : out.1.exec P F s₀ = .ok t
  machine : t.m = s.m
  skip : t.skip = false
  value : t.read out.2 = v

include h hs in
lemma stages_refl (r : Vreg) : Stages P F (ir, r) s₀ s s (s.read r) := ⟨h, rfl, hs, rfl⟩

include h hs in
lemma stages_put {op : IrOp} {v : U64} (hstep : irStep P F s ⟨op, ir.ninsns⟩ = .ok (s.write (.tmp 0) v)) :
    Stages P F (irPut ir op, .tmp 0) s₀ s (s.write (.tmp 0) v) v :=
  ⟨(exec_put_ok h).trans hstep, rfl, by simpa using hs, s.read_write_tmp v 0⟩

lemma Stages.trans {ir' : IrBlock} {r : Vreg} {out : IrBlock × Vreg} {t u : IrState D} {v v' : U64}
    (h₁ : Stages P F (ir', r) s₀ s t v) (h₂ : Stages P F out s₀ t u v') : Stages P F out s₀ s u v' :=
  ⟨h₂.exec, h₂.machine.trans h₁.machine, h₂.skip, h₂.value⟩

lemma ShiftOp.ofType_type {type : ℕ} (h : type < 4) : (ShiftOp.ofType type).type = type := by
  interval_cases type <;> rfl

lemma shiftReg_amount_zero (v : U64) {type : ℕ} (w : Bool) (h : type < 4) :
    sz w (shiftReg v type 0 w) = sz w v := by
  cases w <;> interval_cases type <;> simp [shiftReg, ror64, ror32, lo32]

lemma shiftReg_zero_left {type : ℕ} (amt : ℕ) (w : Bool) (h : type < 4) : sz w (shiftReg 0 type amt w) = 0 := by
  cases w <;> interval_cases type <;> simp [shiftReg, ror64, ror32, lo32]

include h hs in
lemma stages_feShifted (rm : ℕ) {type : ℕ} (amt : ℕ) (w : Bool) (ht : type < 4) :
    ∃ t v, Stages P F (feShifted ir rm type amt w) s₀ s t v ∧
      sz w v = sz w (shiftReg (s.m.cpu.regX rm) type amt w) := by
  unfold feShifted
  by_cases hrm : rm = 31
  · rw [if_pos ((rx_eq_zero_iff rm).2 hrm)]
    refine ⟨_, _, stages_put h hs (if_neg (by simp [hs])), ?_⟩
    rw [hrm, show s.m.cpu.regX 31 = 0 from rfl, shiftReg_zero_left _ _ ht]
    cases w <;> rfl
  rw [if_neg (mt (rx_eq_zero_iff rm).1 hrm)]
  by_cases hamt : amt = 0
  · rw [if_pos hamt]
    refine ⟨_, _, stages_refl h hs _, ?_⟩
    rw [IrState.read_rx, hamt, shiftReg_amount_zero _ _ ht]
  · rw [if_neg hamt]
    refine ⟨_, _, stages_put h hs (if_neg (by simp [hs])), ?_⟩
    simp only [IrState.arg_rx, ShiftOp.eval, ShiftOp.ofType_type ht, sz_sz]
    simp only [shiftReg, Nat.mod_mod, sz_sz]

lemma extendReg_zero_left {option : ℕ} (shift : ℕ) (h : option < 8) : extendReg 0 option shift = 0 := by
  interval_cases option <;> simp [extendReg, signExtend, lo32]

lemma extendReg_eq_shiftLeft (v : U64) (option shift : ℕ) :
    extendReg v option shift = extendReg v option 0 <<< shift := by
  simp [extendReg]

/-- The extension without its shift, as the frontend computes it. -/
def extendExpand (v : U64) (option : ℕ) : U64 :=
  let bits := 8 * 2 ^ (option % 4)
  if bits = 64 then v
  else if option / 4 % 2 = 1 then (v <<< (64 - bits)).sshiftRight (64 - bits)
  else if bits = 32 then lo32 v
  else v &&& (((1 : U64) <<< bits) - 1)

lemma extendExpand_eq (v : U64) {option : ℕ} (h : option < 8) : extendExpand v option = extendReg v option 0 := by
  have hsign (n : ℕ) (hn : 0 < n) (hlt : n < 64) :
      (v <<< (64 - n)).sshiftRight (64 - n) = signExtend ((v.setWidth n).setWidth 64) n := by
    rw [signExtend_setWidth v hn hlt, BitField.sshiftRight_shiftLeft v hn (by omega)]
  have hmask (n : ℕ) (hlt : n < 64) : v &&& (((1 : U64) <<< n) - 1) = (v.setWidth n).setWidth 64 := by
    rw [← BitField.and_mask, ← ones_eq_mask, ones, if_neg (by omega)]
  interval_cases option
  · exact (hmask 8 (by decide)).trans (by simp [extendReg])
  · exact (hmask 16 (by decide)).trans (by simp [extendReg])
  · simp [extendExpand, extendReg]
  · simp [extendExpand, extendReg]
  · exact (hsign 8 (by decide) (by decide)).trans (by simp [extendReg])
  · exact (hsign 16 (by decide) (by decide)).trans (by simp [extendReg])
  · exact (hsign 32 (by decide) (by decide)).trans (by simp [extendReg, lo32])
  · simp [extendExpand, extendReg, signExtend]

include h hs in
lemma stages_putExtend (rm : ℕ) {option : ℕ} (ho : option < 8) :
    ∃ t, Stages P F (putExtend ir (rx rm) option, .tmp 0) s₀ s t (extendReg (s.m.cpu.regX rm) option 0) := by
  rw [← extendExpand_eq _ ho]
  unfold putExtend extendExpand
  simp only
  split_ifs with h64 hsigned h32
  · exact ⟨_, by simpa using stages_put (v := s.m.cpu.regX rm) h hs (by simp [irStep, hs])⟩
  · have hpos : 0 < 2 ^ (option % 4) := Nat.two_pow_pos _
    have hlt : 64 - 8 * 2 ^ (option % 4) < 64 := by omega
    have h₁ : Stages P F (irPut ir (.shi .lsl true (.tmp 0) (rx rm) (64 - 8 * 2 ^ (option % 4))), .tmp 0) s₀ s _
        (s.m.cpu.regX rm <<< (64 - 8 * 2 ^ (option % 4))) :=
      stages_put h hs (by simp [irStep, hs, lsl_eval_64 _ hlt])
    exact ⟨_, h₁.trans (stages_put h₁.exec h₁.skip (by simp [irStep, hs, asr_eval_64 _ hlt]))⟩
  · exact ⟨_, stages_put h hs (by simp [irStep, hs])⟩
  · exact ⟨_, stages_put h hs (by simp [irStep, hs, AluOp.eval, IrState.alu, AluOp.setsFlags])⟩

include h hs in
lemma stages_feExtended (rm : ℕ) {option shift : ℕ} (ho : option < 8) (hshift : shift < 64) :
    ∃ t, Stages P F (feExtended ir rm option shift) s₀ s t (extendReg (s.m.cpu.regX rm) option shift) := by
  unfold feExtended
  simp only
  by_cases hrm : rm = 31
  · rw [if_pos ((rx_eq_zero_iff rm).2 hrm), hrm, show s.m.cpu.regX 31 = 0 from rfl, extendReg_zero_left _ ho]
    exact ⟨_, stages_put h hs (if_neg (by simp [hs]))⟩
  rw [if_neg (mt (rx_eq_zero_iff rm).1 hrm), extendReg_eq_shiftLeft]
  by_cases hpass : option % 4 = 3 ∧ shift = 0
  · rw [if_pos hpass, hpass.2, BitVec.shiftLeft_zero, ← extendExpand_eq _ ho, extendExpand, hpass.1,
      if_pos (by decide), ← s.read_rx]
    exact ⟨s, stages_refl h hs _⟩
  rw [if_neg hpass]
  obtain ⟨t, ht⟩ := stages_putExtend h hs rm ho
  by_cases h0 : shift = 0
  · rw [if_neg (not_not.2 h0), h0, BitVec.shiftLeft_zero]
    exact ⟨t, ht⟩
  · rw [if_pos h0]
    have hval : t.arg true (.tmp 0) = extendReg (s.m.cpu.regX rm) option 0 := ht.value
    exact ⟨_, ht.trans (stages_put ht.exec ht.skip (by simp [irStep, ht.skip, hval, lsl_eval_64 _ hshift]))⟩

end Operands

/-- The emitted IR does to the processor what the predecoded handler does. -/
def PdEnt.Translated (P : Platform D) (F : FpJit) (e : PdEnt) (ir' : IrBlock) (s₀ s : IrState D) (pc : U64) :
    Prop :=
  ir'.Yields P F s₀ pc (s.m.mapCpu fun c => pdCpu e (c.enterInsn pc))

@[simp] lemma Cpu.enterInsn_aluX (c : Cpu) (op : AluOp) (w : Bool) (rd : ℕ) (x y : U64) :
    (c.enterInsn pc).aluX op w rd x y = (c.aluX op w rd x y).enterInsn pc := by
  unfold Cpu.aluX
  split
  · exact Cpu.enterInsn_setX (c.setNzcv _) pc rd _
  · exact Cpu.enterInsn_setX c pc rd _

@[simp] lemma Cpu.enterInsn_aluXsp (c : Cpu) (op : AluOp) (w : Bool) (rd : ℕ) (x y : U64) :
    (c.enterInsn pc).aluXsp op w rd x y = (c.aluXsp op w rd x y).enterInsn pc :=
  c.enterInsn_setXsp pc rd _

section Families
variable {e : PdEnt} (h : ir.exec P F s₀ = .ok s) (hs : s.skip = false)

lemma IrBlock.Yields.translated {ir' : IrBlock} {c : Cpu} (hy : ir'.Yields P F s₀ pc ⟨c.enterInsn pc, s.m.bus⟩)
    (hc : pdCpu e (s.m.cpu.enterInsn pc) = c.enterInsn pc) : e.Translated P F ir' s₀ s pc := by
  rw [← hc] at hy
  exact hy

include h hs in
lemma translated_reg {op : AluOp} {w : Bool}
    (hfe : feDp ir e pc = putAlu ir op w (rx e.rd) (rx e.rn) (rx e.rm))
    (hpd : ∀ c, pdCpu e c = c.aluX op w e.rd (c.regX e.rn) (c.regX e.rm)) :
    e.Translated P F (feDp ir e pc) s₀ s pc := by
  rw [hfe]
  exact (yields_putAlu h hs op w e.rd (rx e.rn) (rx e.rm)).translated (by simp [hpd])

include h hs in
lemma translated_imm {op : AluOp} {w : Bool} {a : Vreg} {imm : U64} {r : Cpu → ℕ → U64}
    (hfe : feDp ir e pc = putAlui ir op w (rx e.rd) a imm) (ha : s.read a = r (s.m.cpu.enterInsn pc) e.rn)
    (hpd : ∀ c, pdCpu e c = c.aluX op w e.rd (r c e.rn) imm) :
    e.Translated P F (feDp ir e pc) s₀ s pc := by
  rw [hfe]
  exact (yields_putAlui h hs op w e.rd a imm).translated (by simp [hpd, ha])

include h hs in
lemma translated_imm_sp {op : AluOp} {w : Bool} {a : Vreg} {r : Cpu → ℕ → U64} (hf : op.setsFlags = false)
    (hfe : feDp ir e pc = putAlui ir op w (rsp e.rd) a e.imm) (ha : s.read a = r (s.m.cpu.enterInsn pc) e.rn)
    (hpd : ∀ c, pdCpu e c = c.aluXsp op w e.rd (r c e.rn) e.imm) :
    e.Translated P F (feDp ir e pc) s₀ s pc := by
  rw [hfe]
  exact (yields_putAlui_sp h hs hf w e.rd a e.imm).translated (by simp [hpd, ha])

include h hs in
lemma translated_putX₂ {op₁ op₂ : IrOp} {u v : U64} (hfe : feDp ir e pc = putX (putX ir e.rd op₁) e.rd op₂)
    (hstep₁ : irStep P F s ⟨op₁, ir.ninsns⟩ = .ok (s.write (.tmp 0) u))
    (hstep₂ : irStep P F (s.write (.tmp 0) u) ⟨op₂, ir.ninsns⟩ =
      .ok ((s.write (.tmp 0) u).write (.x e.rd) v))
    (hpd : pdCpu e (s.m.cpu.enterInsn pc) = (s.m.cpu.setX e.rd v).enterInsn pc) :
    e.Translated P F (feDp ir e pc) s₀ s pc := by
  rw [hfe]
  by_cases hrd : e.rd = 31
  · have hdrop (ir : IrBlock) (op : IrOp) : putX ir e.rd op = ir :=
      if_neg (by simpa [rx_eq_zero_iff] using hrd)
    rw [hdrop, hdrop]
    rw [hrd] at hpd
    exact (yields_refl h hs).translated hpd
  · have hemit : putX ir e.rd op₁ = irPut ir op₁ := if_pos (by simpa [rx_eq_zero_iff] using hrd)
    rw [hemit]
    have h₁ := (exec_put_ok h).trans hstep₁
    exact (yields_putX h₁ (by simpa using hs) hstep₂).translated hpd

include h hs in
lemma translated_putX {op : IrOp} {v : U64} (hfe : feDp ir e pc = putX ir e.rd op)
    (hstep : irStep P F s ⟨op, ir.ninsns⟩ = .ok (s.write (.x e.rd) v))
    (hpd : pdCpu e (s.m.cpu.enterInsn pc) = (s.m.cpu.setX e.rd v).enterInsn pc) :
    e.Translated P F (feDp ir e pc) s₀ s pc := by
  rw [hfe]
  exact (yields_putX h hs hstep).translated hpd

include h hs in
lemma translated_flags {op : IrOp} {f : U32} (hfe : feDp ir e pc = irPut ir op)
    (hstep : irStep P F s ⟨op, ir.ninsns⟩ = .ok (s.mapCpu (·.setNzcv f)))
    (hpd : pdCpu e (s.m.cpu.enterInsn pc) = (s.m.cpu.setNzcv f).enterInsn pc) :
    e.Translated P F (feDp ir e pc) s₀ s pc := by
  rw [hfe]
  exact IrBlock.Yields.translated ⟨_, (exec_put_ok h).trans hstep, hs, rfl⟩ hpd

lemma Cpu.aluX_congr (c : Cpu) (op : AluOp) {w : Bool} (rd : ℕ) (x : U64) {y y' : U64} (hy : sz w y = sz w y') :
    c.aluX op w rd x y = c.aluX op w rd x y' := by
  unfold Cpu.aluX
  rw [← AluOp.eval_sz op w x y, ← AluOp.eval_sz op w x y', hy]

def shiftedOp (e : PdEnt) (w : Bool) (c : Cpu) : U64 :=
  pdShiftReg (c.regX e.rm) ((e.imm >>> 6) &&& 3).toNat (e.imm &&& 63).toNat w

include h hs in
lemma translated_shifted {op : AluOp} {w : Bool}
    (hfe : feDp ir e pc = feAddSubShift ir e w op)
    (hpd : ∀ c, pdCpu e c = c.aluX op w e.rd (c.regX e.rn) (shiftedOp e w c)) :
    e.Translated P F (feDp ir e pc) s₀ s pc := by
  have ht : ((e.imm >>> 6) &&& 3).toNat < 4 := by
    rw [BitVec.toNat_and]
    exact Nat.lt_of_le_of_lt Nat.and_le_right (by decide)
  obtain ⟨t, v, hst, hv⟩ := stages_feShifted h hs e.rm (e.imm &&& 63).toNat w ht
  rw [hfe, feAddSubShift]
  generalize feShifted ir e.rm ((e.imm >>> 6) &&& 3).toNat (e.imm &&& 63).toNat w = out at hst ⊢
  have hy : IrBlock.Yields P F _ s₀ pc _ := yields_putAlu hst.exec hst.skip op w e.rd (rx e.rn) out.2
  rw [hst.value, IrState.read_rx, hst.machine] at hy
  refine hy.translated ?_
  rw [hpd, Cpu.enterInsn_aluX, Cpu.enterInsn_regX, s.m.cpu.aluX_congr op e.rd _ hv]
  rfl

def extendedOp (e : PdEnt) (c : Cpu) : U64 :=
  pdExtendReg (c.regX e.rm) ((e.imm >>> 3) &&& 7).toNat (e.imm &&& 7).toNat

include h hs in
lemma stages_extendedOp (e : PdEnt) :
    ∃ t, Stages P F (feExtended ir e.rm ((e.imm >>> 3) &&& 7).toNat (e.imm &&& 7).toNat) s₀ s t
      (extendedOp e s.m.cpu) := by
  have hlt (v : U64) : (v &&& 7).toNat < 8 := by
    rw [BitVec.toNat_and]
    exact Nat.lt_of_le_of_lt Nat.and_le_right (by decide)
  exact stages_feExtended h hs e.rm (hlt _) (Nat.lt_of_lt_of_le (hlt _) (by decide))

include h hs in
lemma translated_extended {op : AluOp} {w : Bool} (hfe : feDp ir e pc = feAddSubExt ir e w op)
    (hpd : ∀ c, pdCpu e c =
      if op.setsFlags then c.aluX op w e.rd (c.regXsp e.rn) (extendedOp e c)
      else c.aluXsp op w e.rd (c.regXsp e.rn) (extendedOp e c)) :
    e.Translated P F (feDp ir e pc) s₀ s pc := by
  obtain ⟨t, hst⟩ := stages_extendedOp h hs e
  rw [hfe, feAddSubExt]
  generalize feExtended ir e.rm ((e.imm >>> 3) &&& 7).toNat (e.imm &&& 7).toNat = out at hst ⊢
  cases hf : op.setsFlags with
  | true =>
    have hy : IrBlock.Yields P F _ s₀ pc _ := yields_putAlu hst.exec hst.skip op w e.rd (rsp e.rn) out.2
    rw [hst.value, IrState.read_rsp, hst.machine] at hy
    exact hy.translated (by simp [hpd, hf, extendedOp])
  | false =>
    have hy : IrBlock.Yields P F _ s₀ pc _ := yields_putAlu_sp hst.exec hst.skip hf w e.rd (rsp e.rn) out.2
    rw [hst.value, IrState.read_rsp, hst.machine] at hy
    exact hy.translated (by simp [hpd, hf, extendedOp])

end Families

/-- The shift amounts and the condition that an entry holds are in range. -/
def PdEnt.InRange (e : PdEnt) : Prop :=
  match e.op with
  | .lsl64i | .lsr64i | .asr64i | .ubfx64 | .ubfx32 | .ubfiz64 => e.rm < 64
  | .lsl32i | .lsr32i | .asr32i | .ubfiz32 => e.rm < 32
  | .sbfx64 => e.rm < 64 ∧ e.imm.toNat < 64
  | .sbfx32 => e.rm < 32 ∧ e.imm.toNat < 32
  | .bcond => e.rd < 16
  | _ => True

theorem translated_feDp {e : PdEnt} (hr : e.InRange) (h : ir.exec P F s₀ = .ok s) (hs : s.skip = false)
    (hg : e.op ≠ .generic) (hb : e.op.isBranch = false) (hm : e.op.isMem = false) :
    e.Translated P F (feDp ir e pc) s₀ s pc := by
  obtain ⟨insn, op, rd, rn, rm, imm⟩ := e
  cases op
  case and64 | and32 | bic64 | bic32 | orr64 | orr32 | orn64 | orn32 | eor64 | eor32 | eon64 | eon32
      | ands64 | ands32 | bics64 | bics32 | add64r | add32r | sub64r | sub32r =>
    refine translated_reg h hs rfl fun c => ?_
    simp [pdCpu, Cpu.aluX, AluOp.eval, AluOp.setsFlags, addWithCarry_add_64, addWithCarry_add_32,
      addWithCarry_sub_64, addWithCarry_sub_32, pdLogicalFlags]
  case adds64r | adds32r | subs64r | subs32r =>
    refine translated_reg h hs rfl fun c => ?_
    simp [pdCpu, Cpu.aluX, AluOp.eval, AluOp.setsFlags, pdAwc_eq, Cpu.setFlagsX, sz_addWithCarry]
  case add64i | add32i | sub64i | sub32i =>
    refine translated_imm_sp h hs rfl rfl (r := Cpu.regXsp) rfl fun c => ?_
    simp [pdCpu, Cpu.aluXsp, AluOp.eval, addWithCarry_add_64, addWithCarry_add_32, addWithCarry_sub_64,
      addWithCarry_sub_32]
  case adds64i | adds32i | subs64i | subs32i =>
    refine translated_imm h hs rfl (r := Cpu.regXsp) rfl fun c => ?_
    simp [pdCpu, Cpu.aluX, AluOp.eval, AluOp.setsFlags, pdAwc_eq, Cpu.setFlagsX, sz_addWithCarry]
  case and64i | and32i | orr64i | orr32i | eor64i | eor32i =>
    refine translated_imm_sp h hs rfl rfl (r := Cpu.regX) (s.read_rx rn) fun c => ?_
    simp [pdCpu, Cpu.aluXsp, AluOp.eval]
  case ands64i | ands32i =>
    refine translated_imm h hs rfl (r := Cpu.regX) (s.read_rx rn) fun c => ?_
    simp [pdCpu, Cpu.aluX, AluOp.eval, AluOp.setsFlags, pdLogicalFlags]
  case movi | adr | adrp => exact translated_putX h hs rfl (if_neg (by simp [hs])) (by simp [pdCpu])
  case movk64 | movk32 =>
    refine translated_putX h hs rfl (if_neg (by simp [hs])) ?_
    by_cases hrd : rd = 31
    · subst hrd
      simp [pdCpu, Cpu.setX]
    · simp [pdCpu, IrState.read_x_of_ne _ hrd]
  case smaddl | smsubl | umaddl | umsubl | madd64 | madd32 | msub64 | msub32 =>
    refine translated_putX h hs rfl (if_neg (by simp [hs])) ?_
    simp only [IrState.arg_rx, MacOp.eval_sz]
    simp [pdCpu, MacOp.eval]
  case smulh | umulh | rev64 | revw | udiv64 | udiv32 | sdiv64 | sdiv32 =>
    exact translated_putX h hs rfl (if_neg (by simp [hs])) (by simp [pdCpu, div_lo32])
  case clz64 | clz32 =>
    refine translated_putX h hs rfl (if_neg (by simp [hs])) ?_
    simp only [pdCpu, Cpu.enterInsn_regX, Cpu.enterInsn_setX, IrState.arg_rx]
    rfl
  case csel64 | csel32 | csinc64 | csinc32 | csinv64 | csinv32 | csneg64 | csneg32 =>
    refine translated_putX h hs rfl (if_neg (by simp [hs])) ?_
    by_cases hc : condHolds s.m.cpu imm.toNat
    · simp [pdCpu, pdCsel, Cpu.setXSz, hc]
    · simp only [hc, Bool.false_eq_true, if_false, IrState.arg_rx, CselOp.eval_sz]
      simp [pdCpu, pdCsel, Cpu.setXSz, hc, CselOp.eval]
  case lslv64 | lslv32 | lsrv64 | lsrv32 | asrv64 | asrv32 | rorv64 | rorv32 =>
    refine translated_putX h hs rfl (if_neg (by simp [hs])) ?_
    simp only [IrState.arg_rx, ShiftOp.eval_sz]
    simp [pdCpu, ShiftOp.eval, ShiftOp.type, pdShiftReg]
  case lsl64i | lsl32i | lsr64i | lsr32i | asr64i | asr32i =>
    refine translated_putX h hs rfl (if_neg (by simp [hs])) ?_
    simp only [PdEnt.InRange] at hr
    simp only [IrState.arg_rx, ShiftOp.eval_sz, lsl_eval_64, lsl_eval_32, lsr_eval_64, lsr_eval_32, asr_eval_64,
      asr_eval_32, hr]
    simp [pdCpu]
  case ubfx64 | ubfx32 =>
    simp only [PdEnt.InRange] at hr
    refine translated_putX₂ h hs rfl (if_neg (by simp [hs])) (if_neg (by simp [hs])) ?_
    simp [pdCpu, lsr_eval_64, hr, AluOp.eval]
  case ubfiz64 | ubfiz32 =>
    simp only [PdEnt.InRange] at hr
    refine translated_putX₂ h hs rfl (if_neg (by simp [hs])) (if_neg (by simp [hs])) ?_
    simp [pdCpu, lsl_eval_64, lsl_eval_32, hr, AluOp.eval]
  case sbfx64 | sbfx32 =>
    simp only [PdEnt.InRange] at hr
    refine translated_putX₂ h hs rfl (if_neg (by simp [hs])) (if_neg (by simp [hs])) ?_
    simp [pdCpu, lsl_eval_64, lsl_eval_32, asr_eval_64, asr_eval_32, hr]
  case ccmp64i | ccmp32i | ccmn64i | ccmn32i | ccmp64r | ccmp32r | ccmn64r | ccmn32r =>
    refine translated_flags h hs rfl (if_neg (by simp [hs])) ?_
    rw [← Cpu.enterInsn_condHolds _ pc]
    by_cases hc : condHolds (s.m.cpu.enterInsn pc) (imm &&& 15).toNat
    · simp only [pdCpu, pdCcmp, if_pos hc, IrState.arg_rx, AluOp.eval_sz]
      simp [AluOp.eval, pdAwc_eq]
    · simp only [pdCpu, pdCcmp, if_neg hc, Cpu.enterInsn_setNzcv]
  case and64s | and32s | orr64s | orr32s | eor64s | eor32s | ands64s | ands32s =>
    refine translated_shifted h hs rfl fun c => ?_
    by_cases hinv : imm &&& 256 ≠ 0
    · simp only [pdCpu, pdLogicalShift, if_pos hinv, shiftedOp]
      simp [Cpu.aluX, AluOp.eval, AluOp.setsFlags, pdLogicalFlags]
    · simp only [pdCpu, pdLogicalShift, if_neg hinv, shiftedOp]
      simp [Cpu.aluX, AluOp.eval, AluOp.setsFlags, pdLogicalFlags]
  case extr64 | extr32 =>
    by_cases h0 : imm = 0
    · subst h0
      exact translated_putX h hs rfl (if_neg (by simp [hs])) (by simp [pdCpu, lo32])
    · have hne : imm.toNat ≠ 0 := fun heq => h0 (BitVec.eq_of_toNat_eq heq)
      refine translated_putX h hs (congrArg (putX ir rd) (if_neg h0)) (if_neg (by simp [hs])) ?_
      simp only [pdCpu, if_pos hne, IrState.arg_rx, extrEval_64 _ _ hne, extrEval_32 _ _ hne, Cpu.enterInsn_regX,
        Cpu.enterInsn_setX]
  case add64rs | add32rs | sub64rs | sub32rs | adds64rs | adds32rs | subs64rs | subs32rs =>
    refine translated_shifted h hs rfl fun c => ?_
    simp [pdCpu, pdAddSubShift, shiftedOp, Cpu.aluX, AluOp.eval, AluOp.setsFlags, pdAwc_eq, Cpu.setXSz,
      sz_addWithCarry]
  case addx64 | addx32 | subx64 | subx32 | addsx64 | addsx32 | subsx64 | subsx32 =>
    refine translated_extended h hs rfl fun c => ?_
    simp [pdCpu, pdAddSubExt, extendedOp, Cpu.aluX, Cpu.aluXsp, AluOp.eval, AluOp.setsFlags, pdAwc_eq,
      Cpu.setXSz, sz_addWithCarry]
  case nop => exact (yields_refl h hs).translated rfl
  case generic => exact absurd rfl hg
  case b | bl | bcond | cbz64 | cbz32 | cbnz64 | cbnz32 | tbz | tbnz | br | blr => exact absurd hb Bool.noConfusion
  -- what is left are the memory operations
  all_goals exact absurd hm Bool.noConfusion

end Arm64Emu
