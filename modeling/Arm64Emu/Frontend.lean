import Arm64Emu.Ir
import Arm64Emu.PdHandler

/-! The translator's frontend (`frontend.c`): a classified instruction becomes IR
operations appended to the block under construction. The bisection knobs and the
debugger are off. -/
namespace Arm64Emu

structure IrBlock where
  ops : List IrEnt
  /-- Guest instructions retired natively so far. -/
  ninsns : ℕ
  ctxSpx : ℕ
  deriving DecidableEq, Repr

def IrBlock.empty : IrBlock := ⟨[], 0, 0⟩

inductive FeRes
  | feCont | feEnd
  deriving DecidableEq, Repr

/-- What the frontend knows about the block: the trap state of the FP unit, and
whether the counters read the host clock. -/
structure FeEnv where
  fpTrap : Bool
  rtclock : Bool
  deriving DecidableEq, Repr

def irPut (ir : IrBlock) (op : IrOp) : IrBlock := { ir with ops := ir.ops ++ [⟨op, ir.ninsns⟩] }

/-- `ninsns++`. -/
def IrBlock.count (ir : IrBlock) : IrBlock := { ir with ninsns := ir.ninsns + 1 }

def rx (r : ℕ) : Vreg := if r = 31 then .zero else .x r

def rsp (r : ℕ) : Vreg := .x r

/-- A write to the zero register has no effect unless the flags are set. -/
def putAlu (ir : IrBlock) (op : AluOp) (w : Bool) (dst a b : Vreg) : IrBlock :=
  if dst = .zero ∧ !op.setsFlags then ir else irPut ir (.alu op w dst a b)

def putAlui (ir : IrBlock) (op : AluOp) (w : Bool) (dst a : Vreg) (imm : U64) : IrBlock :=
  if dst = .zero ∧ !op.setsFlags then ir else irPut ir (.alui op w dst a imm)

def putX (ir : IrBlock) (rd : ℕ) (op : IrOp) : IrBlock := if rx rd ≠ .zero then irPut ir op else ir

def ShiftOp.ofType : ℕ → ShiftOp
  | 0 => .lsl
  | 1 => .lsr
  | 2 => .asr
  | _ => .ror

def feShifted (ir : IrBlock) (rm type amt : ℕ) (w : Bool) : IrBlock × Vreg :=
  if rx rm = .zero then (irPut ir (.movi (.tmp 0) 0), .tmp 0)
  else if amt = 0 then (ir, rx rm)
  else (irPut ir (.shi (.ofType type) w (.tmp 0) (rx rm) (amt % if w then 64 else 32)), .tmp 0)

/-- The extension of `m` into the first temporary: a shift pair, a 32-bit move or a mask. -/
def putExtend (ir : IrBlock) (m : Vreg) (option : ℕ) : IrBlock :=
  let t : Vreg := .tmp 0
  let bits := 8 * 2 ^ (option % 4)
  if bits = 64 then irPut ir (.mov true t m)
  else if option / 4 % 2 = 1 then
    irPut (irPut ir (.shi .lsl true t m (64 - bits))) (.shi .asr true t t (64 - bits))
  else if bits = 32 then irPut ir (.mov false t m)
  else irPut ir (.alui .and true t m (((1 : U64) <<< bits) - 1))

def feExtended (ir : IrBlock) (rm option shift : ℕ) : IrBlock × Vreg :=
  let m := rx rm
  let t : Vreg := .tmp 0
  if m = .zero then (irPut ir (.movi t 0), t)
  else if option % 4 = 3 ∧ shift = 0 then (ir, m)
  else
    let ir := putExtend ir m option
    (if shift ≠ 0 then irPut ir (.shi .lsl true t t shift) else ir, t)

def putCall1 (ir : IrBlock) (pc : U64) (insn : U32) : IrBlock := irPut ir (.call1 pc insn)

def putLd (ir : IrBlock) (base : Vreg) (off : U64) (rt szlog : ℕ) (sign is64 : Bool) (pc : U64) :
    IrBlock :=
  irPut ir (.ld (rx rt) base off szlog sign is64 pc)

def putSt (ir : IrBlock) (base : Vreg) (off : U64) (val : Vreg) (szlog : ℕ) (pc : U64) : IrBlock :=
  irPut ir (.st base val off szlog pc)

def putLdv (ir : IrBlock) (base : Vreg) (off : U64) (rt vszl : ℕ) (pc : U64) : IrBlock :=
  irPut ir (.ldv rt base off vszl pc)

def putStv (ir : IrBlock) (base : Vreg) (off : U64) (rt vszl : ℕ) (pc : U64) : IrBlock :=
  irPut ir (.stv rt base off vszl pc)

def putWb (ir : IrBlock) (rn : ℕ) (imm : U64) : IrBlock :=
  irPut ir (.alui .add true (.x rn) (.x rn) imm)

def putLdTmp (ir : IrBlock) (base : Vreg) (off : U64) (k : Fin 3) (szlog : ℕ) (sign is64 : Bool)
    (pc : U64) : IrBlock :=
  irPut ir (.ld (.tmp k) base off szlog sign is64 pc)

/-- The base in a temporary, so that a destination may alias it; never for the
stack pointer, whose accesses are checked. -/
def baseStage (ir : IrBlock) (rn : ℕ) : IrBlock × Vreg :=
  if rn = 31 then (ir, rsp rn) else (irPut ir (.mov true (.tmp 2) (rsp rn)), .tmp 2)

def putLdWb (ir : IrBlock) (rn : ℕ) (imm : U64) (rt szlog : ℕ) (sign is64 pre : Bool) (pc : U64) :
    IrBlock :=
  let off := if pre then imm else 0
  if rt = rn ∧ rt ≠ 31 then
    let ir := irPut ir (.mov true (.tmp 2) (rsp rn))
    let ir := putLd ir (.tmp 2) off rt szlog sign is64 pc
    irPut ir (.alui .add true (.x rn) (.tmp 2) imm)
  else putWb (putLd ir (rsp rn) off rt szlog sign is64 pc) rn imm

/-- `IRO_JMP` to `target`, ending the block. -/
def putJmp (ir : IrBlock) (target : U64) : IrBlock × FeRes := (irPut ir (.jmp target), .feEnd)

section Atomics

def memopAlu : ℕ → AluOp
  | 0 => .add
  | 1 => .bic
  | 2 => .eor
  | _ => .orr

def minmaxCc : ℕ → ℕ
  | 4 => 12
  | 5 => 11
  | 6 => 8
  | _ => 3

/-- Whether the word was taken; what was emitted before giving up stays. -/
def feLseMemop (ir : IrBlock) (insn : U32) (pc : U64) : IrBlock × Bool :=
  let szl := bits insn 31 30
  let o3 := bit insn 15
  let opc := bits insn 14 12
  let rs := bits insn 20 16
  let rn := bits insn 9 5
  let rt := bits insn 4 0
  let w := decide (szl = 3)
  if o3 ∧ opc ≠ 0 then
    if opc = 4 then ((putLd ir (rsp rn) 0 rt szl false w pc).count, true) else (ir, false)
  else
    let (ir, abase) := baseStage ir rn
    let ir := putLdTmp ir abase 0 1 szl false w pc
    let commit (ir : IrBlock) : IrBlock × Bool :=
      ((if rt ≠ 31 then irPut ir (.mov true (.x rt) (.tmp 1)) else ir).count, true)
    if o3 then commit (putSt ir abase 0 (rx rs) szl pc)
    else if opc ≤ 3 then
      let ir := putAlu ir (memopAlu opc) w (.tmp 0) (.tmp 1) (rx rs)
      commit (putSt ir abase 0 (.tmp 0) szl pc)
    else if szl < 2 then (ir, false)
    else
      let ir := putAlu ir .subs w .zero (.tmp 1) (rx rs)
      let ir := irPut ir (.csel .csel w (.tmp 0) (.tmp 1) (rx rs) (minmaxCc opc))
      commit (putSt ir abase 0 (.tmp 0) szl pc)

def feLseCas (ir : IrBlock) (insn : U32) (pc : U64) : IrBlock :=
  let szl := bits insn 31 30
  let rs := bits insn 20 16
  let rn := bits insn 9 5
  let rt := bits insn 4 0
  let w := decide (szl = 3)
  let (ir, cbase) := baseStage ir rn
  let ir := putLdTmp ir cbase 0 1 szl false w pc
  let (ir, exp) : IrBlock × Vreg :=
    if szl < 2 then
      (irPut ir (.alui .and true (.tmp 0) (rx rs) (if szl = 0 then 0xff else 0xffff)), .tmp 0)
    else (ir, rx rs)
  let ir := irPut ir (.atomicCas w (.tmp 1) exp)
  let ir := putSt ir cbase 0 (rx rt) szl pc
  (irPut ir (.atomicEndCas (rx rs) (.tmp 1))).count

def feLoadExcl (ir : IrBlock) (insn : U32) (pc : U64) : IrBlock :=
  let szl := bits insn 31 30
  let bytes := 2 ^ szl
  let o1 := bit insn 21
  let rt := bits insn 4 0
  let rn := bits insn 9 5
  let rt2 := bits insn 14 10
  let w := decide (szl = 3)
  let (ir, xbase) := baseStage ir rn
  let ir :=
    if !o1 then putLd ir xbase 0 rt szl false w pc
    else
      let ir := putLdTmp ir xbase 0 0 szl false w pc
      let ir := putLdTmp ir xbase (zext bytes) 1 szl false w pc
      let ir := if rt ≠ 31 then irPut ir (.mov true (.x rt) (.tmp 0)) else ir
      if rt2 ≠ 31 then irPut ir (.mov true (.x rt2) (.tmp 1)) else ir
  let bytes := if o1 then bytes * 2 else bytes
  let ir := irPut ir (.movi (.tmp 0) 1)
  let ir := irPut ir (.cpust false .exclValid (.tmp 0))
  let ir := irPut ir (.cpust true .exclAddr xbase)
  let ir := irPut ir (.movi (.tmp 0) (zext bytes))
  (irPut ir (.cpust true .exclSize (.tmp 0))).count

def feStoreExcl (ir : IrBlock) (insn : U32) (pc : U64) : IrBlock :=
  let szl := bits insn 31 30
  let rt := bits insn 4 0
  let rn := bits insn 9 5
  let rt2 := bits insn 14 10
  let rs := bits insn 20 16
  let ir := irPut ir (.atomicExcl (rsp rn) pc)
  let ir := putSt ir (rsp rn) 0 (rx rt) szl pc
  let ir := if bit insn 21 then putSt ir (rsp rn) (zext (2 ^ szl)) (rx rt2) szl pc else ir
  (irPut ir (.atomicEndExcl (rx rs))).count

def feAtomic (ir : IrBlock) (insn : U32) (pc : U64) : IrBlock × Bool :=
  if insn &&& 0x3F200C00 = 0x38200000 then feLseMemop ir insn pc
  else if insn &&& 0x3FA00000 = 0x08A00000 then (feLseCas ir insn pc, true)
  else if insn &&& 0x3F800000 ≠ 0x08000000 then (ir, false)
  else if bit insn 21 ∧ !bit insn 31 then (ir, false)
  else if bit insn 22 then (feLoadExcl ir insn pc, true)
  else (feStoreExcl ir insn pc, true)

end Atomics

section LoadStore

def feLdstPair (ir : IrBlock) (insn : U32) (pc : U64) : Option IrBlock :=
  let rt := bits insn 4 0
  let rn := bits insn 9 5
  let rt2 := bits insn 14 10
  let opc := bits insn 31 30
  let mode := bits insn 25 23
  let l := bit insn 22
  let imm7 := signExtend (zext (bits insn 21 15)) 7
  let wb := decide (mode = 1) || decide (mode = 3)
  if 3 < mode then none
  else if bit insn 26 then
    if 2 < opc then none
    else
      let vszl := opc + 2
      let imm := imm7 <<< vszl
      let a0 := if mode = 1 then 0 else imm
      let put := if l then putLdv else putStv
      let ir := put ir (rsp rn) a0 rt vszl pc
      let ir := put ir (rsp rn) (a0 + zext (2 ^ vszl)) rt2 vszl pc
      some (if wb then putWb ir rn imm else ir)
  else
    let szl := if opc = 2 then 3 else 2
    let esz := zext (2 ^ szl)
    let sign := decide (opc = 1)
    let imm := imm7 <<< szl
    if opc = 3 ∨ sign ∧ (!l ∨ mode = 0) then none
    else if l then
      let a0 := if mode = 1 then 0 else imm
      let stage := wb && decide (rn ≠ 31)
      let ir :=
        if stage then
          let ir := if a0 ≠ 0 then irPut ir (.alui .add true (.tmp 2) (rsp rn) a0)
            else irPut ir (.mov true (.tmp 2) (rsp rn))
          putLdTmp (putLdTmp ir (.tmp 2) 0 0 szl sign true pc) (.tmp 2) esz 1 szl sign true pc
        else
          putLdTmp (putLdTmp ir (rsp rn) a0 0 szl sign true pc) (rsp rn) (a0 + esz) 1 szl sign true pc
      let w := sign || decide (opc = 2)
      let ir := if rt ≠ 31 then irPut ir (.mov w (.x rt) (.tmp 0)) else ir
      let ir := if rt2 ≠ 31 then irPut ir (.mov w (.x rt2) (.tmp 1)) else ir
      some <|
        if wb then
          if stage then irPut ir (.alui .add true (rsp rn) (.tmp 2) (if mode = 1 then imm else 0))
          else irPut ir (.alui .add true (rsp rn) (rsp rn) imm)
        else ir
    else if mode ≠ 0 then none
    else some (putSt (putSt ir (rsp rn) imm (rx rt) szl pc) (rsp rn) (imm + esz) (rx rt2) szl pc)

def feLdstExtra (ir : IrBlock) (insn : U32) (pc : U64) : Option IrBlock :=
  let b2927 := bits insn 29 27
  let rt := bits insn 4 0
  let rn := bits insn 9 5
  let size := bits insn 31 30
  let opc := bits insn 23 22
  let v := bit insn 26
  if !(bit insn 27 && !bit insn 25) then none
  else if b2927 = 3 ∧ bits insn 25 24 = 0 then
    if v then none
    else if size = 2 then
      let ir := irPut ir (.movi (.tmp 0) (pc + branchOff insn 23 5))
      some (putLd ir (.tmp 0) 0 rt 2 true true pc)
    else if size = 3 then some ir
    else none
  else if b2927 = 5 then feLdstPair ir insn pc
  else if b2927 ≠ 7 ∨ bit insn 24 then none
  else if bit insn 21 then
    let scale := if v then (if 2 ≤ opc then 4 else size) else size
    if bits insn 11 10 ≠ 2 then none
    else if v ∧ 2 ≤ opc ∧ size ≠ 0 then none
    else if !v ∧ opc = 2 ∧ size = 3 then some ir
    else if !v ∧ opc = 3 ∧ 2 ≤ size then none
    else
      let (ir, idx) := feExtended ir (bits insn 20 16) (bits insn 15 13) (if bit insn 12 then scale else 0)
      let ir := irPut ir (.alu .add true (.tmp 1) (rsp rn) idx)
      if v then
        let vszl := if 2 ≤ opc then 4 else size
        some ((if opc % 2 = 1 then putLdv else putStv) ir (.tmp 1) 0 rt vszl pc)
      else if opc = 0 then some (putSt ir (.tmp 1) 0 (rx rt) size pc)
      else some (putLd ir (.tmp 1) 0 rt size (2 ≤ opc) (opc ≠ 3) pc)
  else
    let mode := bits insn 11 10
    let pre := decide (mode = 3)
    let imm9 := signExtend (zext (bits insn 20 12)) 9
    let off := if pre then imm9 else 0
    if mode ≠ 1 ∧ mode ≠ 3 then none
    else if v then
      if 2 ≤ opc then none
      else some (putWb ((if opc % 2 = 1 then putLdv else putStv) ir (rsp rn) off rt size pc) rn imm9)
    else if opc = 0 then some (putWb (putSt ir (rsp rn) off (rx rt) size pc) rn imm9)
    else if opc = 2 ∧ size = 3 then none
    else if opc = 3 ∧ 2 ≤ size then none
    else some (putLdWb ir rn imm9 rt size (2 ≤ opc) (opc ≠ 3) pre pc)

def ld1Regs : ℕ → Option ℕ
  | 0x2 => some 4
  | 0x6 => some 3
  | 0x7 => some 1
  | 0xa => some 2
  | _ => none

/-- Contiguous LD1/ST1 of `n` whole registers, from register `r` at offset `off`. -/
def putContig (l : Bool) (rn vszl : ℕ) (pc : U64) : ℕ → IrBlock → ℕ → ℕ → IrBlock
  | 0, ir, _, _ => ir
  | n + 1, ir, r, off =>
    let ir := (if l then putLdv else putStv) ir (rsp rn) (zext off) (r % 32) vszl pc
    putContig l rn vszl pc n ir (r + 1) (off + 2 ^ vszl)

def feLd1 (ir : IrBlock) (insn : U32) (pc : U64) : Option IrBlock :=
  let post := decide (insn &&& 0xBFA00000 = 0x0C800000)
  if insn &&& 0xBFBF0000 ≠ 0x0C000000 ∧ !post then none
  else
    match ld1Regs (bits insn 15 12) with
    | none => none
    | some nregs =>
      let rm := bits insn 20 16
      let rn := bits insn 9 5
      let vszl := if bit insn 30 then 4 else 3
      let ir := putContig (bit insn 22) rn vszl pc nregs ir (bits insn 4 0) 0
      some <|
        if post then
          if rm = 31 then putWb ir rn (zext (nregs * 2 ^ vszl))
          else irPut ir (.alu .add true (rsp rn) (rsp rn) (.x rm))
        else ir

end LoadStore

def feBitfield (ir : IrBlock) (insn : U32) : Option IrBlock :=
  let w := bit insn 31
  let opc := bits insn 30 29
  let n := bit insn 22
  let immr := bits insn 21 16
  let imms := bits insn 15 10
  let rd := bits insn 4 0
  let rn := bits insn 9 5
  let width := if w then 64 else 32
  if insn &&& 0x1F800000 ≠ 0x13000000 then none
  else if (if w then !n else n || decide (32 ≤ immr) || decide (32 ≤ imms)) then none
  else if opc = 0 ∧ imms < immr then
    if rd = 31 then some ir
    else
      let ir := irPut ir (.shi .lsl w (.tmp 0) (rx rn) (width - 1 - imms))
      some (irPut ir (.shi .asr w (.x rd) (.tmp 0) (immr - imms - 1)))
  else if opc = 1 then
    if rd = 31 then some ir
    else if immr ≤ imms then
      let mask := ones (imms - immr + 1)
      let ir :=
        if immr ≠ 0 then irPut ir (.shi .lsr w (.tmp 0) (rx rn) immr)
        else if rn = 31 then irPut ir (.movi (.tmp 0) 0)
        else irPut ir (.mov true (.tmp 0) (.x rn))
      let ir := irPut ir (.alui .and true (.tmp 0) (.tmp 0) mask)
      let ir := irPut ir (.alui .and true (.tmp 1) (rx rd) (~~~mask))
      some (irPut ir (.alu .orr w (.x rd) (.tmp 0) (.tmp 1)))
    else
      let lsb := width - immr
      let mask := ((1 : U64) <<< (imms + 1)) - 1
      let ir := irPut ir (.alui .and true (.tmp 0) (rx rn) mask)
      let ir := irPut ir (.shi .lsl true (.tmp 0) (.tmp 0) lsb)
      let ir := irPut ir (.alui .and true (.tmp 1) (rx rd) (~~~(mask <<< lsb)))
      some (irPut ir (.alu .orr w (.x rd) (.tmp 0) (.tmp 1)))
  else none

/-- The virtual or physical count, or its frequency, of the deterministic clock. -/
def feCounter (ir : IrBlock) (rt op2 : ℕ) : IrBlock :=
  if rt = 31 then ir
  else if op2 = 0 then irPut ir (.cpuld true (.x rt) .cntfrq)
  else
    let batch := ir.ninsns
    let ir := irPut ir (.cpuld true (.x rt) .icount)
    let ir := if batch ≠ 0 then putAlui ir .add true (.x rt) (.x rt) (zext batch) else ir
    let ir := irPut ir (.cpuld true (.tmp 0) .timerSkip)
    let ir := putAlu ir .add true (.x rt) (.x rt) (.tmp 0)
    if op2 = 2 then
      putAlu (irPut ir (.cpuld true (.tmp 0) .cntvoff)) .sub true (.x rt) (.x rt) (.tmp 0)
    else ir

def putZvaStores (pc : U64) : ℕ → IrBlock → ℕ → IrBlock
  | 0, ir, _ => ir
  | n + 1, ir, off => putZvaStores pc n (putSt ir (.tmp 2) (zext off) .zero 3 pc) (off + 8)

def daifMask : U64 := (psD ||| psA ||| psI ||| psF).setWidth 64

/-- The system instructions. All but the inlined ones run in the interpreter and
end the block. -/
def feSystem (env : FeEnv) (ir : IrBlock) (insn : U32) (pc : U64) : IrBlock × FeRes :=
  let rt := bits insn 4 0
  let next := pc + 4
  let cont (ir : IrBlock) : IrBlock × FeRes := (ir.count, .feCont)
  let mrs (f : CpuField) : IrBlock × FeRes := cont (putX ir rt (.cpuld true (.x rt) f))
  let msr (f : CpuField) : IrBlock × FeRes := cont (irPut ir (.cpust true f (rx rt)))
  let daifImm : U64 := zext (bits insn 11 8) <<< 6
  let reg := insn &&& 0xFFFFFFE0
  let crm := insn &&& 0xFFFFF0FF
  if reg = 0xD53BD040 then mrs (.tpidr 0)
  else if reg = 0xD53BD060 then mrs .tpidrroEl0
  else if reg = 0xD51BD040 then msr (.tpidr 0)
  else if reg = 0xD5384100 ∧ ir.ctxSpx ≠ 0 then mrs .spEl0
  else if reg = 0xD5184100 ∧ ir.ctxSpx ≠ 0 then msr .spEl0
  else if reg = 0xD538D080 then mrs (.tpidr 1)
  else if reg = 0xD518D080 then msr (.tpidr 1)
  else if reg = 0xD53B4220 then
    cont (putX (putX ir rt (.cpuld false (.x rt) .daif)) rt (.alui .and true (.x rt) (.x rt) daifMask))
  else if reg = 0xD51B4220 then
    let ir := irPut ir (.alui .and true (.tmp 0) (rx rt) daifMask)
    putJmp (irPut ir (.cpust false .daif (.tmp 0))).count next
  else if crm = 0xD50340DF then
    let ir := irPut ir (.cpuld false (.tmp 0) .daif)
    let ir := irPut ir (.alui .orr true (.tmp 0) (.tmp 0) daifImm)
    cont (irPut ir (.cpust false .daif (.tmp 0)))
  else if crm = 0xD50340FF then
    let ir := irPut ir (.cpuld false (.tmp 0) .daif)
    let ir := irPut ir (.alui .and true (.tmp 0) (.tmp 0) (~~~daifImm))
    putJmp (irPut ir (.cpust false .daif (.tmp 0))).count next
  else if crm = 0xD503305F then
    cont (irPut (irPut ir (.movi (.tmp 0) 0)) (.cpust false .exclValid (.tmp 0)))
  else if reg = 0xD50B7B20 then cont ir
  else if !env.rtclock ∧ insn &&& 0xFFFFFF00 = 0xD53BE000 ∧ bits insn 7 5 ≤ 2 then
    cont (feCounter ir rt (bits insn 7 5))
  else if reg = 0xD53B00E0 then cont (putX ir rt (.movi (.x rt) 4))
  else if crm = 0xD50330BF ∨ crm = 0xD503309F then cont (irPut ir .fence)
  else if reg = 0xD50B7420 then
    cont (putZvaStores pc 8 (irPut ir (.alui .and true (.tmp 2) (rx rt) (~~~63))) 0)
  else if crm = 0xD50330DF then putJmp ir.count next
  else putJmp (putCall1 ir pc insn) next

/-- The words without a predecoded form, in the order the families are tried. -/
def feGeneric (F : FpJit) (env : FeEnv) (ir : IrBlock) (insn : U32) (pc : U64) : IrBlock × FeRes :=
  let (ir, done) := feAtomic ir insn pc
  if done then (ir, .feCont)
  else
    match F.translate insn pc, feLdstExtra ir insn pc, feBitfield ir insn, feLd1 ir insn pc with
    | some (v, selfCounted), _, _, _ =>
      let ir := irPut ir (.vop v)
      (if selfCounted then ir else ir.count, .feCont)
    | none, some ir, _, _ => (ir.count, .feCont)
    | none, none, some ir, _ => (ir.count, .feCont)
    | none, none, none, some ir => (ir.count, .feCont)
    | none, none, none, none =>
      if insn &&& 0x7FFFFC00 = 0x5AC00000 then
        ((putX ir (bits insn 4 0) (.rbit (bit insn 31) (.x (bits insn 4 0)) (rx (bits insn 9 5)))).count,
          .feCont)
      else if insn &&& 0x1FE0FC00 = 0x1A000000 then
        let op : AluOp := if bit insn 30 then (if bit insn 29 then .sbcs else .sbc)
          else if bit insn 29 then .adcs else .adc
        ((putAlu ir op (bit insn 31) (rx (bits insn 4 0)) (rx (bits insn 9 5))
          (rx (bits insn 20 16))).count, .feCont)
      else if insn &&& 0x3FA00000 = 0x08800000 then
        let szl := bits insn 31 30
        let rt := bits insn 4 0
        let rn := bits insn 9 5
        ((if bit insn 22 then putLd ir (rsp rn) 0 rt szl false (szl = 3) pc
          else putSt ir (rsp rn) 0 (rx rt) szl pc).count, .feCont)
      else if bits insn 31 24 = 0xd5 then feSystem env ir insn pc
      else
        let ir := putCall1 ir pc insn
        if bits insn 28 25 = 0xa ∨ bits insn 28 25 = 0xb then putJmp ir (pc + 4) else (ir, .feCont)

def feBranch (ir : IrBlock) (e : PdEnt) (pc : U64) : IrBlock × FeRes :=
  let ir := ir.count
  let next := pc + 4
  let target := pc + e.imm
  let t := rx e.rd
  let unless31 (op : IrOp) (target31 : U64) : IrBlock × FeRes :=
    if t = .zero then putJmp ir target31 else putJmp (irPut ir op) next
  match e.op with
  | .b => putJmp ir target
  | .bl => putJmp (irPut ir (.movi (.x 30) next)) target
  | .bcond =>
    if e.rd / 2 % 8 = 7 then putJmp ir target else putJmp (irPut ir (.bcond e.rd target)) next
  | .cbz64 => unless31 (.cbz false true t target) target
  | .cbz32 => unless31 (.cbz false false t target) target
  | .cbnz64 => unless31 (.cbz true true t target) next
  | .cbnz32 => unless31 (.cbz true false t target) next
  | .tbz => unless31 (.tbz false t e.rm target) target
  | .tbnz => unless31 (.tbz true t e.rm target) next
  | .br =>
    let t := rx e.rn
    if t = .zero then (irPut (irPut ir (.movi (.tmp 0) 0)) (.jmpind (.tmp 0)), .feEnd)
    else (irPut ir (.jmpind t), .feEnd)
  | _ =>
    let t := rx e.rn
    let ir := irPut ir (if t = .zero then .movi (.tmp 0) 0 else .mov true (.tmp 0) t)
    (irPut (irPut ir (.movi (.x 30) next)) (.jmpind (.tmp 0)), .feEnd)

/-- Logical operation on a shifted register; `inv` selects the inverted form. -/
def feLogicalShift (ir : IrBlock) (e : PdEnt) (w : Bool) (op opInv : AluOp) : IrBlock :=
  let (ir, m) := feShifted ir e.rm ((e.imm >>> 6) &&& 3).toNat (e.imm &&& 63).toNat w
  putAlu ir (if e.imm &&& 256 ≠ 0 then opInv else op) w (rx e.rd) (rx e.rn) m

def feAddSubShift (ir : IrBlock) (e : PdEnt) (w : Bool) (op : AluOp) : IrBlock :=
  let (ir, m) := feShifted ir e.rm ((e.imm >>> 6) &&& 3).toNat (e.imm &&& 63).toNat w
  putAlu ir op w (rx e.rd) (rx e.rn) m

def feAddSubExt (ir : IrBlock) (e : PdEnt) (w : Bool) (op : AluOp) : IrBlock :=
  let (ir, m) := feExtended ir e.rm ((e.imm >>> 3) &&& 7).toNat (e.imm &&& 7).toNat
  putAlu ir op w (if op.setsFlags then rx e.rd else rsp e.rd) (rsp e.rn) m

def feDp (ir : IrBlock) (e : PdEnt) (pc : U64) : IrBlock :=
  let rd := e.rd
  let d : Vreg := .x e.rd
  let n := rx e.rn
  let m := rx e.rm
  let imm (op : AluOp) (w : Bool) := putAlui ir op w (rsp rd) (rsp e.rn) e.imm
  let logImm (op : AluOp) (w : Bool) := putAlui ir op w (rsp rd) n e.imm
  let reg (op : AluOp) (w : Bool) := putAlu ir op w (rx rd) n m
  let mac (op : MacOp) (w : Bool) := putX ir rd (.mac op w d n m (rx e.imm.toNat))
  let sel (op : CselOp) (w : Bool) := putX ir rd (.csel op w d n m e.imm.toNat)
  let cond := (e.imm &&& 15).toNat
  let flags : U32 := (e.imm >>> 32).setWidth 32
  let ccmpi (cmn w : Bool) := irPut ir (.ccmpi cmn w n ((e.imm >>> 8) &&& 31) cond flags)
  let ccmpr (cmn w : Bool) := irPut ir (.ccmpr cmn w n m cond flags)
  let ubfx := putX (putX ir rd (.shi .lsr true (.tmp 0) n e.rm)) rd (.alui .and true d (.tmp 0) e.imm)
  let ubfiz (w : Bool) :=
    putX (putX ir rd (.alui .and true (.tmp 0) n e.imm)) rd (.shi .lsl w d (.tmp 0) e.rm)
  let sbfx (w : Bool) :=
    putX (putX ir rd (.shi .lsl w (.tmp 0) n e.rm)) rd (.shi .asr w d (.tmp 0) e.imm.toNat)
  let extr (w : Bool) :=
    putX ir rd (if e.imm = 0 then .mov w d m else .extr w d n m e.imm.toNat)
  match e.op with
  | .add64i => imm .add true
  | .add32i => imm .add false
  | .sub64i => imm .sub true
  | .sub32i => imm .sub false
  | .adds64i => putAlui ir .adds true (rx rd) (rsp e.rn) e.imm
  | .adds32i => putAlui ir .adds false (rx rd) (rsp e.rn) e.imm
  -- the entry holds the inverted immediate
  | .subs64i => putAlui ir .subs true (rx rd) (rsp e.rn) (~~~e.imm)
  | .subs32i => putAlui ir .subs false (rx rd) (rsp e.rn) (~~~e.imm)
  | .and64i => logImm .and true
  | .and32i => logImm .and false
  | .orr64i => logImm .orr true
  | .orr32i => logImm .orr false
  | .eor64i => logImm .eor true
  | .eor32i => logImm .eor false
  | .ands64i => putAlui ir .ands true (rx rd) n e.imm
  | .ands32i => putAlui ir .ands false (rx rd) n e.imm
  | .movi => putX ir rd (.movi d e.imm)
  | .movk64 => putX ir rd (.movk true d d e.imm e.rm)
  | .movk32 => putX ir rd (.movk false d d e.imm e.rm)
  | .adr => putX ir rd (.movi d (pc + e.imm))
  | .adrp => putX ir rd (.movi d ((pc &&& ~~~(0xfff : U64)) + e.imm))
  | .lsl64i => putX ir rd (.shi .lsl true d n e.rm)
  | .lsl32i => putX ir rd (.shi .lsl false d n e.rm)
  | .lsr64i => putX ir rd (.shi .lsr true d n e.rm)
  | .lsr32i => putX ir rd (.shi .lsr false d n e.rm)
  | .asr64i => putX ir rd (.shi .asr true d n e.rm)
  | .asr32i => putX ir rd (.shi .asr false d n e.rm)
  | .ubfx64 | .ubfx32 => ubfx
  | .ubfiz64 => ubfiz true
  | .ubfiz32 => ubfiz false
  | .sbfx64 => sbfx true
  | .sbfx32 => sbfx false
  | .extr64 => extr true
  | .extr32 => extr false
  | .and64 => reg .and true
  | .and32 => reg .and false
  | .bic64 => reg .bic true
  | .bic32 => reg .bic false
  | .orr64 => reg .orr true
  | .orr32 => reg .orr false
  | .orn64 => reg .orn true
  | .orn32 => reg .orn false
  | .eor64 => reg .eor true
  | .eor32 => reg .eor false
  | .eon64 => reg .eon true
  | .eon32 => reg .eon false
  | .ands64 => reg .ands true
  | .ands32 => reg .ands false
  | .bics64 => reg .bics true
  | .bics32 => reg .bics false
  | .and64s => feLogicalShift ir e true .and .bic
  | .and32s => feLogicalShift ir e false .and .bic
  | .orr64s => feLogicalShift ir e true .orr .orn
  | .orr32s => feLogicalShift ir e false .orr .orn
  | .eor64s => feLogicalShift ir e true .eor .eon
  | .eor32s => feLogicalShift ir e false .eor .eon
  | .ands64s => feLogicalShift ir e true .ands .bics
  | .ands32s => feLogicalShift ir e false .ands .bics
  | .add64r => reg .add true
  | .add32r => reg .add false
  | .sub64r => reg .sub true
  | .sub32r => reg .sub false
  | .adds64r => reg .adds true
  | .adds32r => reg .adds false
  | .subs64r => reg .subs true
  | .subs32r => reg .subs false
  | .add64rs => feAddSubShift ir e true .add
  | .add32rs => feAddSubShift ir e false .add
  | .sub64rs => feAddSubShift ir e true .sub
  | .sub32rs => feAddSubShift ir e false .sub
  | .adds64rs => feAddSubShift ir e true .adds
  | .adds32rs => feAddSubShift ir e false .adds
  | .subs64rs => feAddSubShift ir e true .subs
  | .subs32rs => feAddSubShift ir e false .subs
  | .addx64 => feAddSubExt ir e true .add
  | .addx32 => feAddSubExt ir e false .add
  | .subx64 => feAddSubExt ir e true .sub
  | .subx32 => feAddSubExt ir e false .sub
  | .addsx64 => feAddSubExt ir e true .adds
  | .addsx32 => feAddSubExt ir e false .adds
  | .subsx64 => feAddSubExt ir e true .subs
  | .subsx32 => feAddSubExt ir e false .subs
  | .madd64 => mac .madd true
  | .madd32 => mac .madd false
  | .msub64 => mac .msub true
  | .msub32 => mac .msub false
  | .smaddl => mac .smaddl true
  | .smsubl => mac .smsubl true
  | .umaddl => mac .umaddl true
  | .umsubl => mac .umsubl true
  | .smulh => putX ir rd (.mulh true d n m)
  | .umulh => putX ir rd (.mulh false d n m)
  | .csel64 => sel .csel true
  | .csel32 => sel .csel false
  | .csinc64 => sel .csinc true
  | .csinc32 => sel .csinc false
  | .csinv64 => sel .csinv true
  | .csinv32 => sel .csinv false
  | .csneg64 => sel .csneg true
  | .csneg32 => sel .csneg false
  | .ccmp64i => ccmpi false true
  | .ccmp32i => ccmpi false false
  | .ccmn64i => ccmpi true true
  | .ccmn32i => ccmpi true false
  | .ccmp64r => ccmpr false true
  | .ccmp32r => ccmpr false false
  | .ccmn64r => ccmpr true true
  | .ccmn32r => ccmpr true false
  | .rev64 => putX ir rd (.rev64 d n)
  | .revw => putX ir rd (.rev32 d n)
  | .clz64 => putX ir rd (.clz true d n)
  | .clz32 => putX ir rd (.clz false d n)
  | .udiv64 => putX ir rd (.div false true d n m)
  | .udiv32 => putX ir rd (.div false false d n m)
  | .sdiv64 => putX ir rd (.div true true d n m)
  | .sdiv32 => putX ir rd (.div true false d n m)
  | .lslv64 => putX ir rd (.shv .lsl true d n m)
  | .lslv32 => putX ir rd (.shv .lsl false d n m)
  | .lsrv64 => putX ir rd (.shv .lsr true d n m)
  | .lsrv32 => putX ir rd (.shv .lsr false d n m)
  | .asrv64 => putX ir rd (.shv .asr true d n m)
  | .asrv32 => putX ir rd (.shv .asr false d n m)
  | .rorv64 => putX ir rd (.shv .ror true d n m)
  | .rorv32 => putX ir rd (.shv .ror false d n m)
  | _ => ir

/-- `__builtin_ctz`. -/
def ctz (n : ℕ) : ℕ := Nat.log2 (n ^^^ (n - 1))

/-- Store pair of elements `2 ^ szl` bytes wide. -/
def feStp (ir : IrBlock) (e : PdEnt) (pc : U64) (szl : ℕ) (k : PairKind) : IrBlock :=
  let a0 := if k = .post then 0 else e.imm
  let ir := putSt ir (rsp e.rn) a0 (rx e.rd) szl pc
  let ir := putSt ir (rsp e.rn) (a0 + zext (2 ^ szl)) (rx e.rm) szl pc
  if k = .off then ir else putWb ir e.rn e.imm

/-- Load pair; the base is staged only when a destination aliases it. -/
def feLdp (ir : IrBlock) (e : PdEnt) (pc : U64) (is64 : Bool) (k : PairKind) : IrBlock :=
  let szl := if is64 then 3 else 2
  let esz := zext (2 ^ szl)
  let a0 := if k = .post then 0 else e.imm
  let aliased := decide (e.rn ≠ 31 ∧ (e.rd = e.rn ∨ e.rm = e.rn))
  let ir :=
    if aliased then
      let ir := if a0 ≠ 0 then irPut ir (.alui .add true (.tmp 2) (rsp e.rn) a0)
        else irPut ir (.mov true (.tmp 2) (rsp e.rn))
      putLdTmp (putLdTmp ir (.tmp 2) 0 0 szl false is64 pc) (.tmp 2) esz 1 szl false is64 pc
    else
      putLdTmp (putLdTmp ir (rsp e.rn) a0 0 szl false is64 pc) (rsp e.rn) (a0 + esz) 1 szl false is64 pc
  let ir := if e.rd ≠ 31 then irPut ir (.mov is64 (.x e.rd) (.tmp 0)) else ir
  let ir := if e.rm ≠ 31 then irPut ir (.mov is64 (.x e.rm) (.tmp 1)) else ir
  if k = .off then ir
  else if aliased then
    irPut ir (.alui .add true (rsp e.rn) (.tmp 2) (if k = .post then e.imm else 0))
  else irPut ir (.alui .add true (rsp e.rn) (rsp e.rn) e.imm)

def feVecPair (put : IrBlock → Vreg → U64 → ℕ → ℕ → U64 → IrBlock) (ir : IrBlock) (e : PdEnt) (pc : U64)
    (vszl : ℕ) (k : PairKind) : IrBlock :=
  let a0 := if k = .post then 0 else e.imm
  let ir := put ir (rsp e.rn) a0 e.rd vszl pc
  let ir := put ir (rsp e.rn) (a0 + zext (2 ^ vszl)) e.rm vszl pc
  if k = .off then ir else putWb ir e.rn e.imm

def feRegOffset (ir : IrBlock) (e : PdEnt) (pc : U64) : IrBlock :=
  let (ir, idx) := feExtended ir e.rm ((e.imm >>> 3) &&& 7).toNat (e.imm &&& 7).toNat
  let ir := irPut ir (.alu .add true (.tmp 1) (rsp e.rn) idx)
  match e.op with
  | .ldr64ro => putLd ir (.tmp 1) 0 e.rd 3 false true pc
  | .ldr32ro => putLd ir (.tmp 1) 0 e.rd 2 false false pc
  | .ldrbro => putLd ir (.tmp 1) 0 e.rd 0 false true pc
  | .ldrhro => putLd ir (.tmp 1) 0 e.rd 1 false true pc
  | .str64ro => putSt ir (.tmp 1) 0 (rx e.rd) 3 pc
  | .str32ro => putSt ir (.tmp 1) 0 (rx e.rd) 2 pc
  | .strbro => putSt ir (.tmp 1) 0 (rx e.rd) 0 pc
  | _ => putSt ir (.tmp 1) 0 (rx e.rd) 1 pc

def feMem (ir : IrBlock) (e : PdEnt) (pc : U64) : IrBlock :=
  let base := rsp e.rn
  let ld (szl : ℕ) (sign is64 : Bool) := putLd ir base e.imm e.rd szl sign is64 pc
  let st (szl : ℕ) := putSt ir base e.imm (rx e.rd) szl pc
  let stPre (szl : ℕ) := putWb (putSt ir base e.imm (rx e.rd) szl pc) e.rn e.imm
  let stPost (szl : ℕ) := putWb (putSt ir base 0 (rx e.rd) szl pc) e.rn e.imm
  let lit := irPut ir (.movi (.tmp 0) (pc + e.imm))
  match e.op with
  | .ldr64u => ld 3 false true
  | .ldr32u => ld 2 false false
  | .ldrb => ld 0 false true
  | .ldrh => ld 1 false true
  | .ldrsb64 => ld 0 true true
  | .ldrsb32 => ld 0 true false
  | .ldrsh64 => ld 1 true true
  | .ldrsh32 => ld 1 true false
  | .ldrsw => ld 2 true true
  | .str64u => st 3
  | .str32u => st 2
  | .strb => st 0
  | .strh => st 1
  | .ldr64pre => putLdWb ir e.rn e.imm e.rd 3 false true true pc
  | .ldr64post => putLdWb ir e.rn e.imm e.rd 3 false true false pc
  | .ldr32pre => putLdWb ir e.rn e.imm e.rd 2 false false true pc
  | .ldr32post => putLdWb ir e.rn e.imm e.rd 2 false false false pc
  | .str64pre => stPre 3
  | .str64post => stPost 3
  | .str32pre => stPre 2
  | .str32post => stPost 2
  | .ldrbpost => putLdWb ir e.rn e.imm e.rd 0 false true false pc
  | .strbpost => stPost 0
  | .ldr64ro | .ldr32ro | .ldrbro | .ldrhro | .str64ro | .str32ro | .strbro | .strhro =>
    feRegOffset ir e pc
  | .ldrlit64 => putLd lit (.tmp 0) 0 e.rd 3 false true pc
  | .ldrlit32 => putLd lit (.tmp 0) 0 e.rd 2 false false pc
  | .ldrlitv => putLdv lit (.tmp 0) 0 e.rd (ctz e.rm) pc
  | .stp64 => feStp ir e pc 3 .off
  | .stp64pre => feStp ir e pc 3 .pre
  | .stp64post => feStp ir e pc 3 .post
  | .stp32 => feStp ir e pc 2 .off
  | .stp32pre => feStp ir e pc 2 .pre
  | .stp32post => feStp ir e pc 2 .post
  | .ldp64 => feLdp ir e pc true .off
  | .ldp64pre => feLdp ir e pc true .pre
  | .ldp64post => feLdp ir e pc true .post
  | .ldp32 => feLdp ir e pc false .off
  | .ldp32pre => feLdp ir e pc false .pre
  | .ldp32post => feLdp ir e pc false .post
  | .ldrq => putLdv ir base e.imm e.rd 4 pc
  | .strq => putStv ir base e.imm e.rd 4 pc
  | .ldrv => putLdv ir base e.imm e.rd (ctz e.rm) pc
  | .strv => putStv ir base e.imm e.rd (ctz e.rm) pc
  | .ldrqpre => putWb (putLdv ir base e.imm e.rd 4 pc) e.rn e.imm
  | .ldrqpost => putWb (putLdv ir base 0 e.rd 4 pc) e.rn e.imm
  | .strqpre => putWb (putStv ir base e.imm e.rd 4 pc) e.rn e.imm
  | .strqpost => putWb (putStv ir base 0 e.rd 4 pc) e.rn e.imm
  | .ldpq => feVecPair putLdv ir e pc 4 .off
  | .ldpqpre => feVecPair putLdv ir e pc 4 .pre
  | .ldpqpost => feVecPair putLdv ir e pc 4 .post
  | .stpq => feVecPair putStv ir e pc 4 .off
  | .stpqpre => feVecPair putStv ir e pc 4 .pre
  | .stpqpost => feVecPair putStv ir e pc 4 .post
  | .ldpd => feVecPair putLdv ir e pc 3 .off
  | .ldpdpre => feVecPair putLdv ir e pc 3 .pre
  | .ldpdpost => feVecPair putLdv ir e pc 3 .post
  | .stpd => feVecPair putStv ir e pc 3 .off
  | .stpdpre => feVecPair putStv ir e pc 3 .pre
  | .stpdpost => feVecPair putStv ir e pc 3 .post
  | _ => ir

/-- Instructions that the trap of the floating-point unit covers. -/
def feFpInsn (op : PdOp) (insn : U32) : Bool :=
  if op = .ldrlitv then true
  else if PdOp.ldrq.ctorIdx ≤ op.ctorIdx then true
  else if op ≠ .generic then false
  else
    let grp := bits insn 28 25
    grp = 0x7 || grp = 0xf || (bit insn 27 && !bit insn 25 && bit insn 26)

/-- `PD_B` to `PD_BLR`. -/
def PdOp.isBranch (op : PdOp) : Bool :=
  decide (PdOp.b.ctorIdx ≤ op.ctorIdx) && decide (op.ctorIdx ≤ PdOp.blr.ctorIdx)

def feInsn (F : FpJit) (env : FeEnv) (ir : IrBlock) (e : PdEnt) (pc : U64) : IrBlock × FeRes :=
  if env.fpTrap ∧ feFpInsn e.op e.insn then putJmp (putCall1 ir pc e.insn) (pc + 4)
  else if e.op = .generic then feGeneric F env ir e.insn pc
  else if e.op.isBranch then feBranch ir e pc
  else if e.op.isMem then ((feMem ir e pc).count, .feCont)
  else ((feDp ir e pc).count, .feCont)

end Arm64Emu
