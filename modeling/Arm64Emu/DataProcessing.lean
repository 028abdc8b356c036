import Arm64Emu.Alu

/-! The data-processing groups of `decode.c`. -/
namespace Arm64Emu

/-- The logical operation of a shifted-register or immediate form. -/
def logicalOp (opc : ℕ) (n op2 : U64) : U64 :=
  match opc with
  | 0 => n &&& op2
  | 1 => n ||| op2
  | 2 => n ^^^ op2
  | _ => n &&& op2

def dpImmediate (c : Cpu) (insn : U32) : Cpu :=
  let t := bits insn 28 23
  let sf := bit insn 31
  let rd := bits insn 4 0
  let rn := bits insn 9 5
  if t = 0x20 ∨ t = 0x21 then
    let immlo := zext (bits insn 30 29)
    let immhi := zext (bits insn 23 5)
    let imm := signExtend ((immhi <<< 2) ||| immlo) 21
    if !bit insn 31 then c.setX rd (c.curInsnPc + imm)
    else c.setX rd ((c.curInsnPc &&& ~~~(0xfff : U64)) + (imm <<< 12))
  else if t = 0x22 then
    let op := bit insn 30
    let s := bit insn 29
    let sh := bit insn 22
    let imm := zext (bits insn 21 10)
    let imm := if sh then imm <<< 12 else imm
    let n := c.regXsp rn
    let (r, fl) := if op then addWithCarry n (~~~imm) true sf else addWithCarry n imm false sf
    if s then (c.setNzcv fl).setXSz rd sf r else c.setXsp rd (sz sf r)
  else if t = 0x24 then
    let opc := bits insn 30 29
    match decodeBitmasks (bit insn 22) (bits insn 15 10) (bits insn 21 16) sf with
    | none => undefined c
    | some (wmask, _) =>
      let r := sz sf (logicalOp opc (c.regX rn) wmask)
      if opc = 3 then (c.setNzcv (logicalFlags r sf)).setX rd r else c.setXsp rd r
  else if t = 0x25 then
    let opc := bits insn 30 29
    let hw := bits insn 22 21
    let imm16 := zext (bits insn 20 5)
    if !sf ∧ 2 ≤ hw then undefined c
    else
      let shift := hw * 16
      if opc = 0 then c.setXSz rd sf (~~~(imm16 <<< shift))
      else if opc = 2 then c.setXSz rd sf (imm16 <<< shift)
      else if opc = 3 then
        let cur := c.regX rd
        c.setXSz rd sf ((cur &&& ~~~((0xffff : U64) <<< shift)) ||| (imm16 <<< shift))
      else undefined c
  else if t = 0x26 then
    let opc := bits insn 30 29
    let n := bit insn 22
    let immr := bits insn 21 16
    let imms := bits insn 15 10
    if opc = 3 ∨ n ≠ sf then undefined c
    else
      match decodeBitmasks n imms immr sf with
      | none => undefined c
      | some (wmask, tmask) =>
        let src := c.regX rn
        let ror := rorWithin src immr (if sf then 64 else 32)
        let bot := if opc = 1 then (c.regX rd &&& ~~~wmask) ||| (ror &&& wmask) else ror &&& wmask
        let top : U64 :=
          if opc = 0 then (if src.getLsbD imms then ~~~0 else 0)
          else if opc = 2 then 0
          else c.regX rd
        c.setXSz rd sf ((top &&& ~~~tmask) ||| (bot &&& tmask))
  else if t = 0x27 then
    let rm := bits insn 20 16
    let lsb := bits insn 15 10
    if bits insn 30 29 ≠ 0 ∨ bit insn 22 ≠ sf ∨ bit insn 21 ∨ (!sf ∧ 32 ≤ lsb) then undefined c
    else
      let hi := c.regX rn
      let lo := c.regX rm
      let r : U64 :=
        if sf then (if lsb ≠ 0 then (hi <<< (64 - lsb)) ||| (lo >>> lsb) else lo)
        else
          let h : U32 := hi.setWidth 32
          let l : U32 := lo.setWidth 32
          (if lsb ≠ 0 then (h <<< (32 - lsb)) ||| (l >>> lsb) else l).setWidth 64
      c.setXSz rd sf r
  else undefined c

def crcPoly : U32 := 0xEDB88320
def crcCPoly : U32 := 0x82F63B78

def dp3Source (op31 : ℕ) (o0 : Bool) (n m a : U64) : Option U64 :=
  match op31 * 2 + o0.toNat with
  | 0x0 => some (a + n * m)
  | 0x1 => some (a - n * m)
  | 0x2 => some (a + (n.setWidth 32).signExtend 64 * (m.setWidth 32).signExtend 64)
  | 0x3 => some (a - (n.setWidth 32).signExtend 64 * (m.setWidth 32).signExtend 64)
  | 0x4 => some ((n.signExtend 128 * m.signExtend 128).sshiftRight 64 |>.setWidth 64)
  | 0xa => some (a + lo32 n * lo32 m)
  | 0xb => some (a - lo32 n * lo32 m)
  | 0xc => some ((n.setWidth 128 * m.setWidth 128) >>> 64 |>.setWidth 64)
  | _ => none

def dp1Source (opcode : ℕ) (n : U64) (sf : Bool) : Option U64 :=
  match opcode with
  | 0x00 => some (rbit (sz sf n) (if sf then 64 else 32))
  | 0x01 => some (rev16 n (if sf then 8 else 4))
  | 0x02 => some (if sf then rev32 n else (bswap32 (n.setWidth 32)).setWidth 64)
  | 0x03 => some (bswap64 n)
  | 0x04 =>
    some (if sf then (if n ≠ 0 then zext (clzBits n 64) else 64)
      else if lo32 n ≠ 0 then zext (clzBits (lo32 n) 32) else 32)
  | 0x05 => some (zext (clsBits (sz sf n) (if sf then 64 else 32)))
  | _ => none

def dp2Source (opcode : ℕ) (n m : U64) (sf : Bool) : Option U64 :=
  let amount := (m.setWidth 32).toNat
  match opcode with
  | 0x02 => some (udiv n m sf)
  | 0x03 => some (sdiv n m sf)
  | 0x08 => some (shiftReg n 0 amount sf)
  | 0x09 => some (shiftReg n 1 amount sf)
  | 0x0a => some (shiftReg n 2 amount sf)
  | 0x0b => some (shiftReg n 3 amount sf)
  | 0x10 => some ((crc32Step (n.setWidth 32) m 1 crcPoly).setWidth 64)
  | 0x11 => some ((crc32Step (n.setWidth 32) m 2 crcPoly).setWidth 64)
  | 0x12 => some ((crc32Step (n.setWidth 32) m 4 crcPoly).setWidth 64)
  | 0x13 => some ((crc32Step (n.setWidth 32) m 8 crcPoly).setWidth 64)
  | 0x14 => some ((crc32Step (n.setWidth 32) m 1 crcCPoly).setWidth 64)
  | 0x15 => some ((crc32Step (n.setWidth 32) m 2 crcCPoly).setWidth 64)
  | 0x16 => some ((crc32Step (n.setWidth 32) m 4 crcCPoly).setWidth 64)
  | 0x17 => some ((crc32Step (n.setWidth 32) m 8 crcCPoly).setWidth 64)
  | _ => none

/-- The flag word of an `nzcv` immediate. -/
def nzcvImm (n : ℕ) : U32 :=
  flagWord (n / 8 % 2 = 1) (n / 4 % 2 = 1) (n / 2 % 2 = 1) (n % 2 = 1)

/-- Add/subtract with carry, `RMIF` and `SETF8`/`SETF16`. -/
def dpCarry (c : Cpu) (insn : U32) : Cpu :=
  let sf := bit insn 31
  let rd := bits insn 4 0
  let rn := bits insn 9 5
  let rm := bits insn 20 16
  if bits insn 15 10 = 0 then
    let cin := decide (c.nzcv &&& psC ≠ 0)
    let m := c.regX rm
    let n := c.regX rn
    let (r, fl) := if bit insn 30 then addWithCarry n (~~~m) cin sf else addWithCarry n m cin sf
    let c := if bit insn 29 then c.setNzcv fl else c
    c.setXSz rd sf r
  else if bit insn 31 ∧ !bit insn 30 ∧ bit insn 29 ∧ bits insn 14 10 = 1 ∧ !bit insn 4 then
    let imm6 := bits insn 20 15
    let mask := BitVec.ofNat 32 (bits insn 3 0)
    let t := c.regX rn
    let t := if imm6 ≠ 0 then (t >>> imm6) ||| (t <<< (64 - imm6)) else t
    let nib := (((c.nzcv >>> 28) &&& 0xf) &&& ~~~mask) ||| (t.setWidth 32 &&& mask)
    c.setNzcv (nib <<< 28)
  else if !bit insn 31 ∧ !bit insn 30 ∧ bit insn 29 ∧ bits insn 20 16 = 0 ∧
      (bits insn 15 10 = 0x02 ∨ bits insn 15 10 = 0x12) ∧ bits insn 4 0 = 0x0d then
    let msb := if bit insn 14 then 15 else 7
    let w := c.regX rn
    let f := c.nzcv &&& psC
    let f := if w.getLsbD msb then f ||| psN else f
    let f := if w &&& (((2 : U64) <<< msb) - 1) = 0 then f ||| psZ else f
    let f := if w.getLsbD (msb + 1) ^^ w.getLsbD msb then f ||| psV else f
    c.setNzcv f
  else undefined c

def dpRegister (c : Cpu) (insn : U32) : Cpu :=
  let sf := bit insn 31
  let rd := bits insn 4 0
  let rn := bits insn 9 5
  let rm := bits insn 20 16
  let op24 := bits insn 28 24
  if op24 = 0x0a then
    let opc := bits insn 30 29
    let imm6 := bits insn 15 10
    if !sf ∧ 32 ≤ imm6 then undefined c
    else
      let op2 := shiftReg (c.regX rm) (bits insn 23 22) imm6 sf
      let op2 := if bit insn 21 then ~~~op2 else op2
      let r := sz sf (logicalOp opc (c.regX rn) op2)
      (if opc = 3 then c.setNzcv (logicalFlags r sf) else c).setX rd r
  else if op24 = 0x0b then
    let op := bit insn 30
    let s := bit insn 29
    if bit insn 21 then
      let imm3 := bits insn 12 10
      if 4 < imm3 ∨ bits insn 23 22 ≠ 0 then undefined c
      else
        let op2 := extendReg (c.regX rm) (bits insn 15 13) imm3
        let n := c.regXsp rn
        let (r, fl) := if op then addWithCarry n (~~~op2) true sf else addWithCarry n op2 false sf
        if s then (c.setNzcv fl).setXSz rd sf r else c.setXsp rd (sz sf r)
    else
      let shift := bits insn 23 22
      let imm6 := bits insn 15 10
      if shift = 3 ∨ (!sf ∧ 32 ≤ imm6) then undefined c
      else
        let op2 := shiftReg (c.regX rm) shift imm6 sf
        let n := c.regX rn
        let (r, fl) := if op then addWithCarry n (~~~op2) true sf else addWithCarry n op2 false sf
        if s then (c.setNzcv fl).setXSz rd sf r else c.setXSz rd sf r
  else if op24 = 0x1b then
    let op31 := bits insn 23 21
    if bits insn 30 29 ≠ 0 then undefined c
    else if !sf ∧ op31 ≠ 0 then undefined c
    else
      match dp3Source op31 (bit insn 15) (c.regX rn) (c.regX rm) (c.regX (bits insn 14 10)) with
      | none => undefined c
      | some r => c.setXSz rd sf r
  else if op24 = 0x1a then
    let op21 := bits insn 28 21
    if op21 = 0xd0 then dpCarry c insn
    else if op21 = 0xd2 then
      if !bit insn 29 ∨ bit insn 10 ∨ bit insn 4 then undefined c
      else
        let n := c.regX rn
        let m := if bit insn 11 then zext (bits insn 20 16) else c.regX rm
        if condHolds c (bits insn 15 12) then
          c.setNzcv (if bit insn 30 then addWithCarry n (~~~m) true sf else addWithCarry n m false sf).2
        else c.setNzcv (nzcvImm (bits insn 3 0))
    else if op21 = 0xd4 then
      if bit insn 29 ∨ bit insn 11 then undefined c
      else
        let op := bit insn 30
        let o2 := bit insn 10
        let n := c.regX rn
        let m := c.regX rm
        let r :=
          if condHolds c (bits insn 15 12) then n
          else if !op && !o2 then m
          else if !op && o2 then m + 1
          else if op && !o2 then ~~~m
          else -m
        c.setXSz rd sf r
    else if op21 = 0xd6 then
      let r := if bit insn 30 then dp1Source (bits insn 15 10) (c.regX rn) sf
        else dp2Source (bits insn 15 10) (c.regX rn) (c.regX rm) sf
      match r with
      | none => undefined c
      | some r => c.setXSz rd sf r
    else undefined c
  else undefined c

end Arm64Emu
