import Arm64Emu.DataProcessing
import Arm64Emu.VectorStructure
import Arm64Emu.Mops
import Arm64Emu.Sysreg

/-! Branches, exception generation, hints and barriers of `decode.c`, the
top-level dispatch, and the reference interpreter's step (`cpu_step`). The
per-instruction debug hooks are off. -/
namespace Arm64Emu

variable {D : Type}

def loadsStores (P : Platform D) (s : Machine D) (insn : U32) : Machine D :=
  let b2927 := bits insn 29 27
  if b2927 = 0x7 then ldstRegister P s insn
  else if b2927 = 0x5 then ldstPair P s insn
  else if b2927 = 0x3 ∧ bits insn 25 24 = 0 then ldstLiteral P s insn
  else if b2927 = 0x1 ∧ bits insn 26 24 = 0 then ldstExclusive P s insn
  else if b2927 = 0x1 ∧ bit insn 26 ∧ !bit insn 25 ∧ !bit insn 24 then ldstVectorMulti P s insn
  else if b2927 = 0x1 ∧ bit insn 26 ∧ !bit insn 25 ∧ bit insn 24 then ldstVectorSingle P s insn
  else if b2927 = 0x3 ∧ !bit insn 26 ∧ bits insn 25 24 = 1 ∧ !bit insn 21 ∧ bits insn 11 10 = 0 then
    ldstRcpcUnscaled P s insn
  else if b2927 = 0x3 ∧ bits insn 25 24 = 1 ∧ !bit insn 21 ∧ bits insn 11 10 = 1 then mops P s insn
  else s.mapCpu undefined

/-- A branch displacement: `hi..lo` of the word, sign-extended and scaled. -/
def branchOff (insn : U32) (hi lo : ℕ) : U64 :=
  signExtend (zext (bits insn hi lo)) (hi - lo + 1) <<< 2

def exceptionGen (c : Cpu) (insn : U32) : Cpu :=
  let opc := bits insn 23 21
  let ll := bits insn 1 0
  let imm16 := zext (bits insn 20 5)
  if opc = 0 ∧ ll = 1 then exceptionTake c .sync (esrMake .svc64 imm16) 0 c.pc
  else if opc = 0 ∧ (ll = 2 ∨ ll = 3) then (if c.el = 0 then undefined c else smcccConduit c)
  else if opc = 1 ∧ ll = 0 then cpuRaiseSync c (esrMake .brk64 imm16) 0
  else if opc = 2 ∧ ll = 0 then { c with stop := true }
  else undefined c

def branchReg (c : Cpu) (insn : U32) : Cpu :=
  let tgt := c.regX (bits insn 9 5)
  match bits insn 24 21 with
  | 0 => c.setPc tgt
  | 1 => (c.setX 30 (c.curInsnPc + 4)).setPc tgt
  | 2 => c.setPc tgt
  | 4 => (c.unpackSpsr ((c.spsr c.el).setWidth 32)).setPc (c.elr c.el)
  | _ => undefined c

def isHint (insn : U32) : Bool :=
  !bit insn 21 && bits insn 20 19 = 0 && bits insn 18 16 = 3 && bits insn 15 12 = 2
    && bits insn 4 0 = 31

def hint (c : Cpu) (insn : U32) : Cpu :=
  let crm := bits insn 11 8
  let op2 := bits insn 7 5
  if crm = 0 ∧ op2 = 2 then (if c.event then { c with event := false } else { c with halted := true })
  else if crm = 0 ∧ op2 = 3 then { c with halted := true }
  else if crm = 0 ∧ (op2 = 4 ∨ op2 = 5) then { c with event := true }
  else c

def isBarrier (insn : U32) : Bool :=
  !bit insn 21 && bits insn 20 19 = 0 && bits insn 18 16 = 3 && bits insn 15 12 = 3
    && bits insn 4 0 = 31

def branchSystem (P : Platform D) (s : Machine D) (insn : U32) : Machine D :=
  let c := s.cpu
  let goto (off : U64) : Machine D := s.mapCpu (·.setPc (c.curInsnPc + off))
  let top6 := bits insn 31 26
  if top6 = 0x05 then goto (branchOff insn 25 0)
  else if top6 = 0x25 then
    s.mapCpu fun c => (c.setX 30 (c.curInsnPc + 4)).setPc (c.curInsnPc + branchOff insn 25 0)
  else if bits insn 31 24 = 0x54 ∧ !bit insn 4 then
    if condHolds c (bits insn 3 0) then goto (branchOff insn 23 5) else s
  else if bits insn 30 25 = 0x1a then
    let v := c.regXSz (bits insn 4 0) (bit insn 31)
    if (if bit insn 24 then v ≠ 0 else v = 0) then goto (branchOff insn 23 5) else s
  else if bits insn 30 25 = 0x1b then
    let bitpos := bits insn 31 31 * 32 + bits insn 23 19
    if (c.regX (bits insn 4 0)).getLsbD bitpos = bit insn 24 then goto (branchOff insn 18 5) else s
  else if bits insn 31 24 = 0xd4 then s.mapCpu (exceptionGen · insn)
  else if bits insn 31 25 = 0x6b then s.mapCpu (branchReg · insn)
  else if bits insn 31 24 = 0xd5 then
    if isHint insn then s.mapCpu (hint · insn)
    else if isBarrier insn then (if bits insn 7 5 = 2 then clearExcl s else s)
    else sysregExec P s insn
  else s.mapCpu undefined

def execA64 (P : Platform D) (s : Machine D) (insn : U32) : Machine D :=
  match bits insn 28 25 with
  | 0x8 | 0x9 => s.mapCpu (dpImmediate · insn)
  | 0xa | 0xb => branchSystem P s insn
  | 0x4 | 0x6 | 0xc | 0xe => loadsStores P s insn
  | 0x5 | 0xd => s.mapCpu (dpRegister · insn)
  | 0x7 | 0xf =>
    if s.cpu.fpTrapped then s.mapCpu cpuFpTrap else s.mapCpu (P.execFpsimd · insn)
  | _ => s.mapCpu undefined

def fiqPending (s : Machine D) : Bool := s.bus.fiqLine && s.cpu.daif &&& psF = 0

def irqPending (s : Machine D) : Bool := s.bus.irqLine && s.cpu.daif &&& psI = 0

def cpuStep (P : Platform D) (s : Machine D) : StepResult × Machine D :=
  if s.cpu.stop then (.halt, s)
  else if fiqPending s then (.ok, s.mapCpu fun c => exceptionTake c .fiq 0 0 c.pc)
  else if irqPending s then (.ok, s.mapCpu fun c => exceptionTake c .irq 0 0 c.pc)
  else if s.cpu.halted then (.ok, s)
  else
    let s := s.mapCpu Cpu.beginInsn
    match memIfetch P s s.cpu.pc with
    | (none, s) => (.ok, s)
    | (some insn, s) =>
      let s := execA64 P (s.mapCpu fun c => c.setPc (c.pc + 4)) insn
      let s := s.mapCpu Cpu.retire
      (if s.cpu.stop then .halt else .ok, s)

/-- A machine with RAM and no devices, translator or floating-point unit. -/
def Platform.bare (ramSize : U64) : Platform Unit where
  ramSize := ramSize
  devs := []
  jitCode := fun _ _ => false
  jitInvalidate := fun d _ _ => d
  execFpsimd := fun c _ => undefined c
  rtclock := false
  hostNs := fun d => (0, d)
  timerLines := fun b _ _ _ => b

def Machine.bare (entry : U64) (resetEl : Fin 4) : Machine Unit :=
  ⟨cpuReset entry resetEl, .powerOn (fun _ => 0) (fun _ => 0xff) ()⟩

end Arm64Emu
