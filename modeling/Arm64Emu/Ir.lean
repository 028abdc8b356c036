import Arm64Emu.Decode

/-! The translator's intermediate representation (`ir.h`): its operations, their
meaning, and the helpers that generated code calls (`jit.c`). The inline D-TLB
probe of a memory operation is the fast path of `memRead` and `memWrite`. -/
namespace Arm64Emu

instance instNeZeroThree : NeZero 3 := ⟨by decide⟩

/-- `x n` is a guest register, with 31 the selected stack pointer. -/
inductive Vreg
  | x (n : ℕ)
  | tmp (k : Fin 3)
  | zero
  deriving DecidableEq, Repr

/-- `IRO_ADD` to `IRO_EON`; some also take an immediate second operand. -/
inductive AluOp
  | add | adds | sub | subs | adc | adcs | sbc | sbcs
  | and | ands | bic | bics | orr | orn | eor | eon
  deriving DecidableEq, Repr

inductive ShiftOp
  | lsl | lsr | asr | ror
  deriving DecidableEq, Repr

inductive MacOp
  | madd | msub | smaddl | smsubl | umaddl | umsubl
  deriving DecidableEq, Repr

inductive CselOp
  | csel | csinc | csinv | csneg
  deriving DecidableEq, Repr

/-- The fields of the CPU record that generated code reads and writes by offset. -/
inductive CpuField
  | tpidr (el : Fin 4) | tpidrroEl0 | spEl0 | daif | exclValid | exclAddr | exclSize
  | cntfrq | icount | timerSkip | cntvoff
  deriving DecidableEq, Repr

structure Vop where
  dst : Vreg
  a : Vreg
  imm : U64
  imm2pc : U64
  aux : U32
  deriving DecidableEq, Repr

/-- The translation of floating-point and vector words, which is not modelled:
the words that `fe_fpsimd` accepts (with whether the operation counts itself as
retired), and what the emitted operation does. -/
structure FpJit where
  translate : U32 → U64 → Option (Vop × Bool)
  run : Cpu → Vop → Cpu
  fp_group : ∀ insn pc, translate insn pc ≠ none → bits insn 27 25 = 7

/-- A frontend that leaves every floating-point word to the interpreter. -/
def FpJit.none : FpJit := ⟨fun _ _ => .none, fun c _ => c, fun _ _ h => absurd rfl h⟩

/-- One IR operation. `w` is the 64-bit flag; `pc` of a memory operation is the
guest address that a fault reports. -/
inductive IrOp
  | movi (dst : Vreg) (imm : U64)
  | mov (w : Bool) (dst a : Vreg)
  | movk (w : Bool) (dst a : Vreg) (imm : U64) (sh : ℕ)
  | alu (op : AluOp) (w : Bool) (dst a b : Vreg)
  | alui (op : AluOp) (w : Bool) (dst a : Vreg) (imm : U64)
  | shi (op : ShiftOp) (w : Bool) (dst a : Vreg) (amount : ℕ)
  | shv (op : ShiftOp) (w : Bool) (dst a b : Vreg)
  | extr (w : Bool) (dst hi lo : Vreg) (amount : ℕ)
  | mac (op : MacOp) (w : Bool) (dst a b ra : Vreg)
  | mulh (signed : Bool) (dst a b : Vreg)
  | div (signed : Bool) (w : Bool) (dst a b : Vreg)
  | clz (w : Bool) (dst a : Vreg)
  | rev64 (dst a : Vreg)
  | rev32 (dst a : Vreg)
  | rbit (w : Bool) (dst a : Vreg)
  | csel (op : CselOp) (w : Bool) (dst a b : Vreg) (cc : ℕ)
  | ccmpr (cmn w : Bool) (a b : Vreg) (cc : ℕ) (nzcv : U32)
  | ccmpi (cmn w : Bool) (a : Vreg) (imm : U64) (cc : ℕ) (nzcv : U32)
  | ld (dst a : Vreg) (off : U64) (szlog : ℕ) (sign is64 : Bool) (pc : U64)
  | st (a b : Vreg) (off : U64) (szlog : ℕ) (pc : U64)
  | ldv (rt : ℕ) (a : Vreg) (off : U64) (vszl : ℕ) (pc : U64)
  | stv (rt : ℕ) (a : Vreg) (off : U64) (vszl : ℕ) (pc : U64)
  | jmp (target : U64)
  | bcond (cc : ℕ) (target : U64)
  | cbz (nz w : Bool) (a : Vreg) (target : U64)
  | tbz (nz : Bool) (a : Vreg) (bit : ℕ) (target : U64)
  | jmpind (a : Vreg)
  | call1 (pc : U64) (insn : U32)
  | call1ic (pc : U64) (insn : U32)
  | cpuld (w : Bool) (dst : Vreg) (f : CpuField)
  | cpust (w : Bool) (f : CpuField) (a : Vreg)
  | fence
  | vop (v : Vop)
  | atomicExcl (a : Vreg) (pc : U64)
  | atomicCas (w : Bool) (a b : Vreg)
  | atomicEndExcl (dst : Vreg)
  | atomicEndCas (dst a : Vreg)
  deriving DecidableEq, Repr

/-- An operation in a block, with the count of guest instructions retired natively
if the block is left there. -/
structure IrEnt where
  op : IrOp
  icnt : ℕ
  deriving DecidableEq, Repr

def AluOp.setsFlags : AluOp → Bool
  | .adds | .subs | .adcs | .sbcs | .ands | .bics => true
  | _ => false

/-- Result and flags, on operands already truncated to the width. -/
def AluOp.eval (op : AluOp) (w : Bool) (a b : U64) (cin : Bool) : U64 × U32 :=
  let logic (r : U64) : U64 × U32 := (sz w r, logicalFlags (sz w r) w)
  match op with
  | .add | .adds => addWithCarry a b false w
  | .sub | .subs => addWithCarry a (~~~b) true w
  | .adc | .adcs => addWithCarry a b cin w
  | .sbc | .sbcs => addWithCarry a (~~~b) cin w
  | .and | .ands => logic (a &&& b)
  | .bic | .bics => logic (a &&& ~~~b)
  | .orr => logic (a ||| b)
  | .orn => logic (a ||| ~~~b)
  | .eor => logic (a ^^^ b)
  | .eon => logic (a ^^^ ~~~b)

def ShiftOp.type : ShiftOp → ℕ
  | .lsl => 0
  | .lsr => 1
  | .asr => 2
  | .ror => 3

def ShiftOp.eval (op : ShiftOp) (w : Bool) (a : U64) (amount : ℕ) : U64 :=
  sz w (shiftReg a op.type amount w)

def MacOp.eval (op : MacOp) (a b ra : U64) : U64 :=
  match op with
  | .madd => ra + a * b
  | .msub => ra - a * b
  | .smaddl => ra + (a.setWidth 32).signExtend 64 * (b.setWidth 32).signExtend 64
  | .smsubl => ra - (a.setWidth 32).signExtend 64 * (b.setWidth 32).signExtend 64
  | .umaddl => ra + lo32 a * lo32 b
  | .umsubl => ra - lo32 a * lo32 b

def CselOp.eval (op : CselOp) (b : U64) : U64 :=
  match op with
  | .csel => b
  | .csinc => b + 1
  | .csinv => ~~~b
  | .csneg => -b

/-- The funnel shift of `hi:lo`; at amount 0 it is `lo`. -/
def extrEval (w : Bool) (hi lo : U64) (amount : ℕ) : U64 :=
  if amount = 0 then lo
  else sz w ((hi <<< ((if w then 64 else 32) - amount)) ||| (lo >>> amount))

def clzEval (w : Bool) (a : U64) : U64 :=
  if w then (if a ≠ 0 then zext (clzBits a 64) else 64)
  else if a ≠ 0 then zext (clzBits a 32) else 32

def CpuField.get (f : CpuField) (c : Cpu) : U64 :=
  match f with
  | .tpidr el => c.tpidr el
  | .tpidrroEl0 => c.tpidrroEl0
  | .spEl0 => c.spEl 0
  | .daif => c.daif.setWidth 64
  | .exclValid => c.exclValid.setWidth 64
  | .exclAddr => c.exclAddr
  | .exclSize => c.exclSize
  | .cntfrq => c.cntfrq
  | .icount => c.icount
  | .timerSkip => c.timerSkip
  | .cntvoff => c.cntvoff

def CpuField.set (f : CpuField) (c : Cpu) (v : U64) : Cpu :=
  match f with
  | .tpidr el => { c with tpidr := Function.update c.tpidr el v }
  | .tpidrroEl0 => { c with tpidrroEl0 := v }
  | .spEl0 => { c with spEl := Function.update c.spEl 0 v }
  | .daif => { c with daif := v.setWidth 32 }
  | .exclValid => { c with exclValid := v.setWidth 32 }
  | .exclAddr => { c with exclAddr := v }
  | .exclSize => { c with exclSize := v }
  | .cntfrq => { c with cntfrq := v }
  | .icount => { c with icount := v }
  | .timerSkip => { c with timerSkip := v }
  | .cntvoff => { c with cntvoff := v }

section Helpers
variable {D : Type}

/-- `cur_insn_pc = pc; pc = pc + 4`. -/
def Cpu.enterInsn (c : Cpu) (pc : U64) : Cpu := { c with curInsnPc := pc, pc := pc + 4 }

def Cpu.setCurInsnPc (c : Cpu) (pc : U64) : Cpu := { c with curInsnPc := pc }

def Cpu.addIcount (c : Cpu) (n : U64) : Cpu := { c with icount := c.icount + n }

/-- Run one instruction in the interpreter; `true` when the block must stop. -/
def jitExec1 (P : Platform D) (s : Machine D) (pc : U64) (insn : U32) : Bool × Machine D :=
  let s := execA64 P (s.mapCpu (·.enterInsn pc)) insn
  let s := s.mapCpu (·.addIcount 1)
  (s.cpu.stop || s.cpu.halted || s.cpu.pc ≠ pc + 4, s)

def jitExec1Ic (P : Platform D) (s : Machine D) (pc : U64) (insn : U32) : Bool × Machine D :=
  let (_, s) := jitExec1 P s pc insn
  match mmuProbePa P s (s.cpu.regX (bits insn 4 0)) with
  | (none, s) => (true, s)
  | (some pa, s) => (true, { s with bus := { s.bus with dev := P.jitInvalidate s.bus.dev pa 1 } })

def jitSpCheck (s : Machine D) (pc : U64) : Bool × Machine D :=
  let s := s.mapCpu (·.setCurInsnPc pc)
  if spCheckOn s.cpu then (true, s.mapCpu fun c => (spAlignFault c).addIcount 1) else (false, s)

/-- The value a load of `2 ^ szlog` bytes commits. -/
def jitLoadValue (szlog : ℕ) (sign is64 : Bool) (v : U64) : U64 :=
  let b := 2 ^ szlog * 8
  sz is64 (if sign then (v <<< (64 - b)).sshiftRight (64 - b) else v)

def jitLd (P : Platform D) (s : Machine D) (va pc : U64) (szlog : ℕ) (sign is64 : Bool) :
    Option U64 × Machine D :=
  match memRead P (s.mapCpu (·.setCurInsnPc pc)) va (2 ^ szlog) with
  | (none, s) => (none, s.mapCpu (·.addIcount 1))
  | (some v, s) => (some (jitLoadValue szlog sign is64 v), s)

def jitSt (P : Platform D) (s : Machine D) (va val pc : U64) (szlog : ℕ) : Bool × Machine D :=
  match memWrite P (s.mapCpu (·.setCurInsnPc pc)) va (2 ^ szlog) val with
  | (false, s) => (false, s.mapCpu (·.addIcount 1))
  | (true, s) => (true, s)

def jitLdv (P : Platform D) (s : Machine D) (va pc : U64) (rt vszl : ℕ) : Bool × Machine D :=
  match vregLoad P (s.mapCpu (·.setCurInsnPc pc)) rt va (2 ^ vszl) with
  | (false, s) => (false, s.mapCpu (·.addIcount 1))
  | (true, s) => (true, s)

def jitStv (P : Platform D) (s : Machine D) (va pc : U64) (rt vszl : ℕ) : Bool × Machine D :=
  match vregStore P (s.mapCpu (·.setCurInsnPc pc)) rt va (2 ^ vszl) with
  | (false, s) => (false, s.mapCpu (·.addIcount 1))
  | (true, s) => (true, s)

end Helpers

/-- The state of a running block: the machine, the block's temporaries, and
whether a failed atomic bracket is being skipped. -/
structure IrState (D : Type) where
  m : Machine D
  tmp : Fin 3 → U64
  skip : Bool

namespace IrState
variable {D : Type} (s : IrState D)

/-- A block entered at `m`. -/
def start (m : Machine D) : IrState D := ⟨m, fun _ => 0, false⟩

def read : Vreg → U64
  | .x n => s.m.cpu.regXsp n
  | .tmp k => s.tmp k
  | .zero => 0

def write (v : Vreg) (x : U64) : IrState D :=
  match v with
  | .x n => { s with m := s.m.setXsp n x }
  | .tmp k => { s with tmp := Function.update s.tmp k x }
  | .zero => s

def arg (w : Bool) (v : Vreg) : U64 := sz w (s.read v)

def mapCpu (f : Cpu → Cpu) : IrState D := { s with m := s.m.mapCpu f }

def setM (m : Machine D) : IrState D := { s with m := m }

def carry : Bool := s.m.cpu.nzcv &&& psC ≠ 0

/-- `dst = x op y`, with the flags when the operation defines them. -/
def alu (op : AluOp) (w : Bool) (dst : Vreg) (x y : U64) : IrState D :=
  let r := op.eval w x y s.carry
  (if op.setsFlags then s.mapCpu (·.setNzcv r.2) else s).write dst r.1

end IrState

/-- How a block goes on: `ok` to the next operation, `error` out of the block. -/
abbrev IrRes (D : Type) := Except (Machine D) (IrState D)

section Step
variable {D : Type} (P : Platform D) (F : FpJit)

/-- Leave the block; the exit stub commits the native instruction count. -/
def irExit (icnt : ℕ) (m : Machine D) : IrRes D :=
  .error (m.mapCpu (·.addIcount (zext icnt)))

def irJump (icnt : ℕ) (s : IrState D) (target : U64) : IrRes D :=
  irExit icnt (s.m.mapCpu (·.setPc target))

/-- The alignment check in front of an access whose base is the stack pointer. -/
def irSpCheck (icnt : ℕ) (s : IrState D) (a : Vreg) (pc : U64) : IrRes D :=
  if a = .x 31 ∧ s.read a &&& 15 ≠ 0 then
    match jitSpCheck s.m pc with
    | (true, m) => irExit icnt m
    | (false, m) => .ok (s.setM m)
  else .ok s

def irHelper (icnt : ℕ) (s : IrState D) (r : Bool × Machine D) : IrRes D :=
  if r.1 then .ok (s.setM r.2) else irExit icnt r.2

def irStep (s : IrState D) (e : IrEnt) : IrRes D :=
  if s.skip then
    -- the bracket's fail label: nothing was stored
    match e.op with
    | .atomicEndExcl dst =>
      .ok (({ s with skip := false }.write dst 1).mapCpu fun c => { c with exclValid := 0 })
    | .atomicEndCas dst a => .ok ({ s with skip := false }.write dst (s.read a))
    | _ => .ok s
  else
    match e.op with
    | .movi dst imm => .ok (s.write dst imm)
    | .mov w dst a => .ok (s.write dst (s.arg w a))
    | .movk w dst a imm sh =>
      .ok (s.write dst (sz w ((s.read a &&& ~~~((0xffff : U64) <<< sh)) ||| imm)))
    | .alu op w dst a b => .ok (s.alu op w dst (s.arg w a) (s.arg w b))
    | .alui op w dst a imm => .ok (s.alu op w dst (s.arg w a) (sz w imm))
    | .shi op w dst a amount => .ok (s.write dst (op.eval w (s.arg w a) amount))
    | .shv op w dst a b =>
      .ok (s.write dst (op.eval w (s.arg w a) ((s.read b).setWidth 32 : U32).toNat))
    | .extr w dst hi lo amount => .ok (s.write dst (extrEval w (s.arg w hi) (s.arg w lo) amount))
    | .mac op w dst a b ra => .ok (s.write dst (sz w (op.eval (s.arg w a) (s.arg w b) (s.arg w ra))))
    | .mulh signed dst a b =>
      .ok (s.write dst ((if signed then smulh64 else umulh64) (s.read a) (s.read b)))
    | .div signed w dst a b => .ok (s.write dst ((if signed then sdiv else udiv) (s.arg w a) (s.arg w b) w))
    | .clz w dst a => .ok (s.write dst (clzEval w (s.arg w a)))
    | .rev64 dst a => .ok (s.write dst (bswap64 (s.read a)))
    | .rev32 dst a => .ok (s.write dst ((bswap32 ((s.read a).setWidth 32)).setWidth 64))
    | .rbit w dst a => .ok (s.write dst (sz w (rbit (s.arg w a) (if w then 64 else 32))))
    | .csel op w dst a b cc =>
      .ok (s.write dst (sz w (if condHolds s.m.cpu cc then s.arg w a else op.eval (s.arg w b))))
    | .ccmpr cmn w a b cc nzcv =>
      .ok (s.mapCpu (·.setNzcv (if condHolds s.m.cpu cc then
        ((if cmn then AluOp.adds else .subs).eval w (s.arg w a) (s.arg w b) false).2 else nzcv)))
    | .ccmpi cmn w a imm cc nzcv =>
      .ok (s.mapCpu (·.setNzcv (if condHolds s.m.cpu cc then
        ((if cmn then AluOp.adds else .subs).eval w (s.arg w a) (sz w imm) false).2 else nzcv)))
    | .ld dst a off szlog sign is64 pc =>
      (irSpCheck e.icnt s a pc).bind fun s =>
        match jitLd P s.m (s.read a + off) pc szlog sign is64 with
        | (none, m) => irExit e.icnt m
        | (some v, m) => .ok ((s.setM m).write dst v)
    | .st a b off szlog pc =>
      (irSpCheck e.icnt s a pc).bind fun s =>
        irHelper e.icnt s (jitSt P s.m (s.read a + off) (s.read b) pc szlog)
    | .ldv rt a off vszl pc =>
      (irSpCheck e.icnt s a pc).bind fun s =>
        irHelper e.icnt s (jitLdv P s.m (s.read a + off) pc rt vszl)
    | .stv rt a off vszl pc =>
      (irSpCheck e.icnt s a pc).bind fun s =>
        irHelper e.icnt s (jitStv P s.m (s.read a + off) pc rt vszl)
    | .jmp target => irJump e.icnt s target
    | .bcond cc target => if condHolds s.m.cpu cc then irJump e.icnt s target else .ok s
    | .cbz nz w a target =>
      if nz ↔ s.arg w a ≠ 0 then irJump e.icnt s target else .ok s
    | .tbz nz a bit target =>
      if (s.read a).getLsbD bit = nz then irJump e.icnt s target else .ok s
    | .jmpind a => irJump e.icnt s (s.read a)
    | .call1 pc insn =>
      let (stop, m) := jitExec1 P s.m pc insn
      if stop then irExit e.icnt m else .ok (s.setM m)
    | .call1ic pc insn => irExit e.icnt (jitExec1Ic P s.m pc insn).2
    | .cpuld w dst f => .ok (s.write dst (sz w (f.get s.m.cpu)))
    | .cpust w f a => .ok (s.mapCpu fun c => f.set c (s.arg w a))
    | .fence => .ok s
    | .vop v => .ok (s.mapCpu (F.run · v))
    | .atomicExcl a pc =>
      (irSpCheck e.icnt s a pc).bind fun s =>
        .ok { s with skip := !(decide (s.m.cpu.exclValid ≠ 0) && decide (s.m.cpu.exclAddr = s.read a)) }
    | .atomicCas w a b => .ok { s with skip := decide (s.arg w a ≠ s.arg w b) }
    | .atomicEndExcl dst => .ok ((s.write dst 0).mapCpu fun c => { c with exclValid := 0 })
    | .atomicEndCas dst a => .ok (s.write dst (s.read a))

def irRun (ops : List IrEnt) (s : IrState D) : Except (Machine D) (IrState D) :=
  ops.foldlM (irStep P F) s

end Step

end Arm64Emu
