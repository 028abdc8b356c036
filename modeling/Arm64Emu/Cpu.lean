import Arm64Emu.Words

/-! The processor state of `cpu.h`, its register helpers, and exception entry
and return (`exception.c`). -/
namespace Arm64Emu

def psN : U32 := 0x80000000
def psZ : U32 := 0x40000000
def psC : U32 := 0x20000000
def psV : U32 := 0x10000000

def psD : U32 := 0x200
def psA : U32 := 0x100
def psI : U32 := 0x80
def psF : U32 := 0x40

/-- The 128-bit SIMD register, seen as the two doublewords `d[0]`, `d[1]`. -/
structure V128 where
  d0 : U64
  d1 : U64
  deriving DecidableEq, Repr

inductive ExcKind
  | sync | irq | fiq | serror
  deriving DecidableEq, Repr

inductive StepResult
  | ok | halt
  deriving DecidableEq, Repr

/-- There are four exception levels, 31 general and 32 vector registers. -/
instance instNeZeroFour : NeZero 4 := ⟨by decide⟩
instance instNeZeroThirtyOne : NeZero 31 := ⟨by decide⟩
instance instNeZeroThirtyTwo : NeZero 32 := ⟨by decide⟩

/-- The `CPU` record. The interrupt input lines are driven by the interrupt
controller and live with the devices, on the bus side of the machine; `fpexc`
holds the floating-point flags (`g_fpexc`) not yet folded into `fpsr`. -/
structure Cpu where
  x : Fin 31 → U64
  pc : U64
  nzcv : U32
  daif : U32
  el : Fin 4
  spSel : Bool
  spEl : Fin 4 → U64
  v : Fin 32 → V128
  fpcr : U32
  fpsr : U32
  fpexc : U32
  fpTrapped : Bool
  ldstUnpriv : Bool
  sctlr : Fin 4 → U64
  ttbr0 : Fin 4 → U64
  ttbr1 : Fin 4 → U64
  tcr : Fin 4 → U64
  mair : Fin 4 → U64
  amair : Fin 4 → U64
  vbar : Fin 4 → U64
  esr : Fin 4 → U64
  far : Fin 4 → U64
  elr : Fin 4 → U64
  spsr : Fin 4 → U64
  tpidr : Fin 4 → U64
  tpidrroEl0 : U64
  contextidrEl1 : U64
  cpacrEl1 : U64
  mdscrEl1 : U64
  parEl1 : U64
  mpidr : U64
  cntfrq : U64
  cntpCtl : U64
  cntpCval : U64
  cntvCtl : U64
  cntvCval : U64
  cntkctlEl1 : U64
  cntvoff : U64
  cntpctBase : U64
  timerSkip : U64
  exclValid : U32
  exclAddr : U64
  exclSize : U64
  halted : Bool
  event : Bool
  stop : Bool
  reset : Bool
  icount : U64
  curInsnPc : U64

namespace Cpu

/-- The index of the selected stack pointer (`cpu_cur_sp`). -/
def curSp (c : Cpu) : Fin 4 := if c.spSel then c.el else 0

def sp (c : Cpu) : U64 := c.spEl c.curSp

def setSp (c : Cpu) (v : U64) : Cpu := { c with spEl := Function.update c.spEl c.curSp v }

def gpr (c : Cpu) (n : ℕ) : U64 := if h : n < 31 then c.x ⟨n, h⟩ else 0

def setGpr (c : Cpu) (n : ℕ) (v : U64) : Cpu :=
  if h : n < 31 then { c with x := Function.update c.x ⟨n, h⟩ v } else c

def regX (c : Cpu) (n : ℕ) : U64 := if n = 31 then 0 else c.gpr n

def setX (c : Cpu) (n : ℕ) (v : U64) : Cpu := if n ≠ 31 then c.setGpr n v else c

def regXsp (c : Cpu) (n : ℕ) : U64 := if n = 31 then c.sp else c.gpr n

def setXsp (c : Cpu) (n : ℕ) (v : U64) : Cpu := if n = 31 then c.setSp v else c.setGpr n v

def regXSz (c : Cpu) (n : ℕ) (is64 : Bool) : U64 := sz is64 (c.regX n)

def setXSz (c : Cpu) (n : ℕ) (is64 : Bool) (v : U64) : Cpu := c.setX n (sz is64 v)

def vreg (c : Cpu) (n : ℕ) : V128 := c.v (Fin.ofNat 32 n)

def setVreg (c : Cpu) (n : ℕ) (v : V128) : Cpu :=
  { c with v := Function.update c.v (Fin.ofNat 32 n) v }

def setNzcv (c : Cpu) (f : U32) : Cpu := { c with nzcv := f }

def setPc (c : Cpu) (a : U64) : Cpu := { c with pc := a }

/-- `cur_insn_pc = pc`, before the fetch. -/
def beginInsn (c : Cpu) : Cpu := { c with curInsnPc := c.pc }

/-- `icount++`. -/
def retire (c : Cpu) : Cpu := { c with icount := c.icount + 1 }

def packSpsr (c : Cpu) : U32 :=
  (c.nzcv &&& (psN ||| psZ ||| psC ||| psV)) ||| (c.daif &&& (psD ||| psA ||| psI ||| psF))
    ||| (BitVec.ofNat 32 (c.el : ℕ) <<< 2) ||| (if c.spSel then 1 else 0)

/-- The cached `CPACR_EL1.FPEN` predicate. -/
def fpTrap (cpacr : U64) (el : Fin 4) : Bool :=
  let fpen := (cpacr >>> 20) &&& 3
  if el = 0 then fpen ≠ 3
  else if el = 1 then fpen = 0 || fpen = 2
  else false

def refreshFpTrap (c : Cpu) : Cpu := { c with fpTrapped := fpTrap c.cpacrEl1 c.el }

def unpackSpsr (c : Cpu) (spsr : U32) : Cpu :=
  refreshFpTrap { c with
    nzcv := spsr &&& (psN ||| psZ ||| psC ||| psV)
    daif := spsr &&& (psD ||| psA ||| psI ||| psF)
    el := Fin.ofNat 4 (spsr.toNat >>> 2)
    spSel := spsr.getLsbD 0 }

end Cpu

section Frame
variable (c : Cpu) (n : ℕ) (v : U64)

@[simp] lemma Cpu.setGpr_el : (c.setGpr n v).el = c.el := by
  unfold Cpu.setGpr
  split <;> rfl

@[simp] lemma Cpu.setX_el : (c.setX n v).el = c.el := by
  unfold Cpu.setX
  split <;> simp

@[simp] lemma Cpu.setXsp_el : (c.setXsp n v).el = c.el := by
  unfold Cpu.setXsp
  split
  · rfl
  · simp

@[simp] lemma Cpu.setXSz_el (is64 : Bool) : (c.setXSz n is64 v).el = c.el := Cpu.setX_el _ _ _

@[simp] lemma Cpu.setNzcv_el (f : U32) : (c.setNzcv f).el = c.el := rfl

@[simp] lemma Cpu.setPc_el : (c.setPc v).el = c.el := rfl

end Frame

def ExcKind.code : ExcKind → ℕ
  | .sync => 0
  | .irq => 1
  | .fiq => 2
  | .serror => 3

/-- Every exception is routed to EL1, or stays at a higher current level. -/
def exceptionTake (c : Cpu) (kind : ExcKind) (esr far retAddr : U64) : Cpu :=
  let tel : Fin 4 := if c.el > 1 then c.el else 1
  let spsr := c.packSpsr
  let off : U64 := if c.el < tel then 0x400 else if c.spSel then 0x200 else 0
  let off := off + zext kind.code * 0x80
  let c := { c with
    spsr := Function.update c.spsr tel (spsr.setWidth 64)
    elr := Function.update c.elr tel retAddr
    esr := Function.update c.esr tel esr
    far := Function.update c.far tel far
    el := tel
    spSel := true }
  let c := c.refreshFpTrap
  { c with
    daif := c.daif ||| (psD ||| psA ||| psI ||| psF)
    pc := (c.vbar tel &&& ~~~0x7ff) + off
    halted := false
    exclValid := 0 }

def cpuRaiseSync (c : Cpu) (esr far : U64) : Cpu := exceptionTake c .sync esr far c.curInsnPc

/-- Exception classes of `esr.h` that the modelled code raises. -/
inductive Ec
  | unknown | fpSimdTrap | svc64 | iabortLower | iabortSame | pcAlign
  | dabortLower | dabortSame | spAlign | mop | brk64
  deriving DecidableEq, Repr

def Ec.code : Ec → U64
  | .unknown => 0x00
  | .fpSimdTrap => 0x07
  | .svc64 => 0x15
  | .iabortLower => 0x20
  | .iabortSame => 0x21
  | .pcAlign => 0x22
  | .dabortLower => 0x24
  | .dabortSame => 0x25
  | .spAlign => 0x26
  | .mop => 0x27
  | .brk64 => 0x3C

def esrMake (ec : Ec) (iss : U64) : U64 :=
  ((ec.code &&& 0x3f) <<< 26) ||| ((1 : U64) <<< 25) ||| (iss &&& 0x1ffffff)

def cpuFpTrap (c : Cpu) : Cpu := cpuRaiseSync c (esrMake .fpSimdTrap 0x01E00000) 0

/-- An undefined instruction raises `EC_UNKNOWN`. -/
def undefined (c : Cpu) : Cpu := cpuRaiseSync c (esrMake .unknown 0) 0

def condHolds (c : Cpu) (cond : ℕ) : Bool :=
  let n := c.nzcv &&& psN ≠ 0
  let z := c.nzcv &&& psZ ≠ 0
  let cf := c.nzcv &&& psC ≠ 0
  let v := c.nzcv &&& psV ≠ 0
  let r : Bool := match cond >>> 1 with
    | 0 => z
    | 1 => cf
    | 2 => n
    | 3 => v
    | 4 => cf && !z
    | 5 => n == v
    | 6 => (n == v) && !z
    | _ => true
  if cond % 2 = 1 ∧ cond ≠ 0xf then !r else r

section Registers
variable (c : Cpu) {m n : ℕ} (v w : U64)

@[simp] lemma Cpu.gpr_setGpr_self (h : n < 31) : (c.setGpr n v).gpr n = v := by
  simp [Cpu.gpr, Cpu.setGpr, h]

@[simp] lemma Cpu.gpr_setGpr_of_ne (h : m ≠ n) : (c.setGpr n v).gpr m = c.gpr m := by
  by_cases hn : n < 31 <;> simp [Cpu.gpr, Cpu.setGpr, hn, Function.update, h]

@[simp] lemma Cpu.setGpr_setGpr_self : (c.setGpr n v).setGpr n w = c.setGpr n w := by
  unfold Cpu.setGpr
  split <;> simp

lemma Cpu.setX_eq_setGpr : c.setX n v = c.setGpr n v := by
  unfold Cpu.setX
  split
  · rfl
  · rw [Cpu.setGpr, dif_neg (by omega)]

lemma Cpu.setXsp_eq_setGpr (h : n ≠ 31) : c.setXsp n v = c.setGpr n v := if_neg h

lemma Cpu.setGpr_inj_iff (h : n ≤ 31) : c.setGpr n v = c.setGpr n w ↔ v = w ∨ n = 31 := by
  constructor
  · intro heq
    by_cases hn : n = 31
    · exact .inr hn
    · have hlt : n < 31 := by omega
      left
      rw [← Cpu.gpr_setGpr_self c v hlt, heq, Cpu.gpr_setGpr_self c w hlt]
  · rintro (rfl | rfl) <;> rfl

end Registers

end Arm64Emu
