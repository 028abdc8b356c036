import Arm64Emu.Frontend
import Arm64Emu.AluFacts

/-! Running a block under construction: what one more operation adds to its run,
how virtual registers stand for guest registers, and how a native sequence is
compared with the interpreter. -/
namespace Arm64Emu

variable {D : Type} {P : Platform D} {F : FpJit} {ir : IrBlock} {s₀ s : IrState D}

def IrBlock.exec (P : Platform D) (F : FpJit) (ir : IrBlock) (s : IrState D) : IrRes D :=
  irRun P F ir.ops s

lemma exec_put (op : IrOp) :
    (irPut ir op).exec P F s₀ = (ir.exec P F s₀).bind (irStep P F · ⟨op, ir.ninsns⟩) := by
  simp only [IrBlock.exec, irPut, irRun, List.foldlM_append, List.foldlM_cons, List.foldlM_nil]
  cases List.foldlM (irStep P F) s₀ ir.ops with
  | error m => rfl
  | ok s =>
    simp only [bind_pure]
    rfl

lemma exec_put_ok {op : IrOp} (h : ir.exec P F s₀ = .ok s) :
    (irPut ir op).exec P F s₀ = irStep P F s ⟨op, ir.ninsns⟩ := by
  rw [exec_put, h]
  rfl

lemma exec_put_error {op : IrOp} {m : Machine D} (h : ir.exec P F s₀ = .error m) :
    (irPut ir op).exec P F s₀ = .error m := by
  rw [exec_put, h]
  rfl

@[simp] lemma exec_count : ir.count.exec P F s₀ = ir.exec P F s₀ := rfl

@[simp] lemma irPut_ninsns (op : IrOp) : (irPut ir op).ninsns = ir.ninsns := rfl

section Registers
variable (s : IrState D) (n : ℕ) (v : U64)

lemma rx_eq_zero_iff : rx n = .zero ↔ n = 31 := by
  unfold rx
  split <;> simp [*]

lemma rx_of_ne {n : ℕ} (h : n ≠ 31) : rx n = .x n := if_neg h

@[simp] lemma IrState.read_rx : s.read (rx n) = s.m.cpu.regX n := by
  unfold rx Cpu.regX
  split
  · rfl
  · simp only [IrState.read, Cpu.regXsp, if_neg ‹_›]

@[simp] lemma IrState.read_rsp : s.read (rsp n) = s.m.cpu.regXsp n := rfl

lemma IrState.read_x_of_ne {n : ℕ} (h : n ≠ 31) : s.read (.x n) = s.m.cpu.regX n := by
  rw [← rx_of_ne h, IrState.read_rx]

@[simp] lemma IrState.arg_rx (w : Bool) : s.arg w (rx n) = sz w (s.m.cpu.regX n) := by
  rw [IrState.arg, IrState.read_rx]

@[simp] lemma IrState.arg_rsp (w : Bool) : s.arg w (rsp n) = sz w (s.m.cpu.regXsp n) := rfl

@[simp] lemma IrState.write_rx_m : (s.write (rx n) v).m = s.m.setX n v := by
  unfold rx
  split
  · subst n
    rfl
  · rename_i h
    simp only [IrState.write, Machine.setXsp, Machine.setX, Cpu.setXsp, Cpu.setX, ne_eq, h, if_false,
      not_false_eq_true, if_true]

@[simp] lemma IrState.write_rsp_m : (s.write (rsp n) v).m = s.m.setXsp n v := rfl

@[simp] lemma IrState.write_skip (r : Vreg) : (s.write r v).skip = s.skip := by
  cases r <;> rfl

@[simp] lemma IrState.write_tmp_m (k : Fin 3) : (s.write (.tmp k) v).m = s.m := rfl

@[simp] lemma IrState.read_write_tmp (k : Fin 3) : (s.write (.tmp k) v).read (.tmp k) = v :=
  Function.update_self ..

@[simp] lemma IrState.arg_write_tmp (k : Fin 3) (w : Bool) : (s.write (.tmp k) v).arg w (.tmp k) = sz w v := by
  rw [IrState.arg, IrState.read_write_tmp]

@[simp] lemma IrState.read_tmp_of_ne {j k : Fin 3} (h : j ≠ k) :
    (s.write (.tmp k) v).read (.tmp j) = s.read (.tmp j) :=
  Function.update_of_ne h ..

end Registers

section Enter
variable (c : Cpu) (pc : U64) (n : ℕ) (v : U64)

@[simp] lemma Cpu.enterInsn_regX : (c.enterInsn pc).regX n = c.regX n := rfl

@[simp] lemma Cpu.enterInsn_regXsp : (c.enterInsn pc).regXsp n = c.regXsp n := rfl

@[simp] lemma Cpu.enterInsn_nzcv : (c.enterInsn pc).nzcv = c.nzcv := rfl

@[simp] lemma Cpu.enterInsn_curInsnPc : (c.enterInsn pc).curInsnPc = pc := rfl

@[simp] lemma Cpu.enterInsn_condHolds : condHolds (c.enterInsn pc) n = condHolds c n := rfl

@[simp] lemma Cpu.enterInsn_setNzcv (f : U32) :
    (c.enterInsn pc).setNzcv f = (c.setNzcv f).enterInsn pc := rfl

lemma Cpu.enterInsn_setGpr : (c.enterInsn pc).setGpr n v = (c.setGpr n v).enterInsn pc := by
  unfold Cpu.setGpr
  split <;> rfl

@[simp] lemma Cpu.enterInsn_setX : (c.enterInsn pc).setX n v = (c.setX n v).enterInsn pc := by
  unfold Cpu.setX
  split
  · exact c.enterInsn_setGpr pc n v
  · rfl

@[simp] lemma Cpu.enterInsn_setXsp : (c.enterInsn pc).setXsp n v = (c.setXsp n v).enterInsn pc := by
  unfold Cpu.setXsp
  split
  · rfl
  · exact c.enterInsn_setGpr pc n v

end Enter

/-- What native code leaves to its exits: the instruction count is committed
there, and the address of the current instruction is set only by its helpers. -/
def Machine.forget (m : Machine D) : Machine D := m.mapCpu fun c => { c with curInsnPc := 0, icount := 0 }

/-- The machine after the run of an instruction at `pc`. A block that goes on does
so at the next instruction; one that was ended must have been left. -/
def settle (pc : U64) (res : FeRes) (r : IrRes D) : Option (Machine D) :=
  match r, res with
  | .error m, _ => some m
  | .ok t, .feCont => some (t.m.mapCpu (·.setPc (pc + 4)))
  | .ok _, .feEnd => none

/-- The block falls through, at a machine that stands for `m` in the interpreter. -/
def IrBlock.Yields (P : Platform D) (F : FpJit) (ir : IrBlock) (s₀ : IrState D) (pc : U64) (m : Machine D) :
    Prop :=
  ∃ t, ir.exec P F s₀ = .ok t ∧ t.skip = false ∧ t.m.mapCpu (·.enterInsn pc) = m

/-- The block is left or goes on, and the machine is `m` up to what native code
does not keep. -/
def Settles (P : Platform D) (F : FpJit) (out : IrBlock × FeRes) (s₀ : IrState D) (pc : U64)
    (m : Machine D) : Prop :=
  (settle pc out.2 (out.1.exec P F s₀)).map Machine.forget = some m.forget

lemma IrBlock.Yields.settles {pc : U64} {m : Machine D} (h : ir.Yields P F s₀ pc m) :
    Settles P F (ir.count, .feCont) s₀ pc m := by
  obtain ⟨t, hrun, -, rfl⟩ := h
  simp only [Settles, exec_count, hrun, settle, Option.map_some]
  rfl

end Arm64Emu
