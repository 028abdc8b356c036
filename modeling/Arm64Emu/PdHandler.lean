import Arm64Emu.Predecode

/-! The handlers of the predecoded tier (`pd_step`), one per operation id. -/
namespace Arm64Emu

/-- Add with carry; at 64 bits the carry and overflow are recovered from the
truncated sums. -/
def pdAwc (x y : U64) (cin : Bool) (is64 : Bool) : U64 × U32 :=
  if is64 then
    let t := x + y
    let res := t + (if cin then 1 else 0)
    let cf := decide (t < x) || decide (res < t)
    let v := (~~~(x ^^^ y) &&& (x ^^^ res)).getLsbD 63
    (res, flagWord (res.getLsbD 63) (res = 0) cf v)
  else addWithCarry x y cin false

def pdLogicalFlags := logicalFlags

def pdShiftReg := shiftReg

def pdExtendReg := extendReg

def Cpu.setFlagsX (c : Cpu) (rd : ℕ) (is64 : Bool) (r : U64 × U32) : Cpu :=
  (c.setNzcv r.2).setX rd (sz is64 r.1)

def Cpu.jumpIf (c : Cpu) (take : Bool) (off : U64) : Cpu :=
  if take then c.setPc (c.curInsnPc + off) else c

def pdLogicalShift (e : PdEnt) (c : Cpu) : Cpu :=
  let is64 := e.op = .and64s || e.op = .orr64s || e.op = .eor64s || e.op = .ands64s
  let op2 := pdShiftReg (c.regX e.rm) ((e.imm >>> 6) &&& 3).toNat (e.imm &&& 63).toNat is64
  let op2 := if e.imm &&& 256 ≠ 0 then ~~~op2 else op2
  let n := c.regX e.rn
  let flags := e.op = .ands64s ∨ e.op = .ands32s
  let r :=
    if e.op = .and64s ∨ e.op = .and32s ∨ flags then n &&& op2
    else if e.op = .orr64s ∨ e.op = .orr32s then n ||| op2
    else n ^^^ op2
  let r := sz is64 r
  (if flags then c.setNzcv (pdLogicalFlags r is64) else c).setX e.rd r

def pdAddSubShift (e : PdEnt) (c : Cpu) : Cpu :=
  let is64 := e.op = .add64rs || e.op = .sub64rs || e.op = .adds64rs || e.op = .subs64rs
  let sub := e.op = .sub64rs || e.op = .sub32rs || e.op = .subs64rs || e.op = .subs32rs
  let s := e.op = .adds64rs || e.op = .adds32rs || e.op = .subs64rs || e.op = .subs32rs
  let op2 := pdShiftReg (c.regX e.rm) ((e.imm >>> 6) &&& 3).toNat (e.imm &&& 63).toNat is64
  let n := c.regX e.rn
  let (r, fl) := if sub then pdAwc n (~~~op2) true is64 else pdAwc n op2 false is64
  (if s then c.setNzcv fl else c).setXSz e.rd is64 r

def pdAddSubExt (e : PdEnt) (c : Cpu) : Cpu :=
  let is64 := e.op = .addx64 || e.op = .subx64 || e.op = .addsx64 || e.op = .subsx64
  let sub := e.op = .subx64 || e.op = .subx32 || e.op = .subsx64 || e.op = .subsx32
  let s := e.op = .addsx64 || e.op = .addsx32 || e.op = .subsx64 || e.op = .subsx32
  let op2 := pdExtendReg (c.regX e.rm) ((e.imm >>> 3) &&& 7).toNat (e.imm &&& 7).toNat
  let n := c.regXsp e.rn
  let (r, fl) := if sub then pdAwc n (~~~op2) true is64 else pdAwc n op2 false is64
  if s then (c.setNzcv fl).setXSz e.rd is64 r else c.setXsp e.rd (sz is64 r)

def pdCsel (e : PdEnt) (c : Cpu) : Cpu :=
  let is64 := e.op = .csel64 || e.op = .csinc64 || e.op = .csinv64 || e.op = .csneg64
  let r :=
    if condHolds c e.imm.toNat then c.regX e.rn
    else
      let m := c.regX e.rm
      if e.op = .csel64 ∨ e.op = .csel32 then m
      else if e.op = .csinc64 ∨ e.op = .csinc32 then m + 1
      else if e.op = .csinv64 ∨ e.op = .csinv32 then ~~~m
      else -m
  c.setXSz e.rd is64 r

def pdCcmp (e : PdEnt) (c : Cpu) : Cpu :=
  let is64 := e.op = .ccmp64i || e.op = .ccmp64r || e.op = .ccmn64i || e.op = .ccmn64r
  let cmp := e.op = .ccmp64i || e.op = .ccmp32i || e.op = .ccmp64r || e.op = .ccmp32r
  let isImm := e.op = .ccmp64i || e.op = .ccmp32i || e.op = .ccmn64i || e.op = .ccmn32i
  if condHolds c (e.imm &&& 15).toNat then
    let n := c.regX e.rn
    let m := if isImm then (e.imm >>> 8) &&& 31 else c.regX e.rm
    c.setNzcv (if cmp then pdAwc n (~~~m) true is64 else pdAwc n m false is64).2
  else c.setNzcv ((e.imm >>> 32).setWidth 32)

def pdCpu (e : PdEnt) (c : Cpu) : Cpu :=
  let n := c.regX e.rn
  let m := c.regX e.rm
  let a := c.regX e.imm.toNat
  let nsp := c.regXsp e.rn
  let n32 : U32 := n.setWidth 32
  let m32 : U32 := m.setWidth 32
  let amount := m32.toNat
  match e.op with
  | .b => c.jumpIf true e.imm
  | .bl => (c.setX 30 (c.curInsnPc + 4)).setPc (c.curInsnPc + e.imm)
  | .bcond => c.jumpIf (condHolds c e.rd) e.imm
  | .cbz64 => c.jumpIf (c.regX e.rd = 0) e.imm
  | .cbz32 => c.jumpIf (lo32 (c.regX e.rd) = 0) e.imm
  | .cbnz64 => c.jumpIf (c.regX e.rd ≠ 0) e.imm
  | .cbnz32 => c.jumpIf (lo32 (c.regX e.rd) ≠ 0) e.imm
  | .tbz => c.jumpIf (!(c.regX e.rd).getLsbD e.rm) e.imm
  | .tbnz => c.jumpIf ((c.regX e.rd).getLsbD e.rm) e.imm
  | .br => c.setPc n
  | .blr => (c.setX 30 (c.curInsnPc + 4)).setPc n
  | .add64i => c.setXsp e.rd (nsp + e.imm)
  | .add32i => c.setXsp e.rd (lo32 (nsp + e.imm))
  | .sub64i => c.setXsp e.rd (nsp - e.imm)
  | .sub32i => c.setXsp e.rd (lo32 (nsp - e.imm))
  | .adds64i => c.setFlagsX e.rd true (pdAwc nsp e.imm false true)
  | .adds32i => c.setFlagsX e.rd false (pdAwc nsp e.imm false false)
  | .subs64i => c.setFlagsX e.rd true (pdAwc nsp e.imm true true)
  | .subs32i => c.setFlagsX e.rd false (pdAwc nsp e.imm true false)
  | .and64i => c.setXsp e.rd (n &&& e.imm)
  | .and32i => c.setXsp e.rd (lo32 (n &&& e.imm))
  | .orr64i => c.setXsp e.rd (n ||| e.imm)
  | .orr32i => c.setXsp e.rd (lo32 (n ||| e.imm))
  | .eor64i => c.setXsp e.rd (n ^^^ e.imm)
  | .eor32i => c.setXsp e.rd (lo32 (n ^^^ e.imm))
  | .ands64i => (c.setNzcv (pdLogicalFlags (n &&& e.imm) true)).setX e.rd (n &&& e.imm)
  | .ands32i =>
    (c.setNzcv (pdLogicalFlags (lo32 (n &&& e.imm)) false)).setX e.rd (lo32 (n &&& e.imm))
  | .movi => c.setX e.rd e.imm
  | .movk64 => c.setX e.rd ((c.regX e.rd &&& ~~~((0xffff : U64) <<< e.rm)) ||| e.imm)
  | .movk32 => c.setX e.rd (lo32 ((c.regX e.rd &&& ~~~((0xffff : U64) <<< e.rm)) ||| e.imm))
  | .adr => c.setX e.rd (c.curInsnPc + e.imm)
  | .adrp => c.setX e.rd ((c.curInsnPc &&& ~~~(0xfff : U64)) + e.imm)
  | .lsl64i => c.setX e.rd (n <<< e.rm)
  | .lsl32i => c.setX e.rd (lo32 (n <<< e.rm))
  | .lsr64i => c.setX e.rd (n >>> e.rm)
  | .lsr32i => c.setX e.rd ((n32 >>> e.rm).setWidth 64)
  | .asr64i => c.setX e.rd (n.sshiftRight e.rm)
  | .asr32i => c.setX e.rd ((n32.sshiftRight e.rm).setWidth 64)
  | .ubfx64 | .ubfx32 => c.setX e.rd ((n >>> e.rm) &&& e.imm)
  | .ubfiz64 => c.setX e.rd ((n &&& e.imm) <<< e.rm)
  | .ubfiz32 => c.setX e.rd (lo32 ((n &&& e.imm) <<< e.rm))
  | .sbfx64 => c.setX e.rd ((n <<< e.rm).sshiftRight e.imm.toNat)
  | .sbfx32 => c.setX e.rd (((n32 <<< e.rm).sshiftRight e.imm.toNat).setWidth 64)
  | .extr64 =>
    let lsb := e.imm.toNat
    c.setX e.rd (if lsb ≠ 0 then (n <<< (64 - lsb)) ||| (m >>> lsb) else m)
  | .extr32 =>
    let lsb := e.imm.toNat
    c.setX e.rd ((if lsb ≠ 0 then (n32 <<< (32 - lsb)) ||| (m32 >>> lsb) else m32).setWidth 64)
  | .and64 => c.setX e.rd (n &&& m)
  | .and32 => c.setX e.rd (lo32 (n &&& m))
  | .bic64 => c.setX e.rd (n &&& ~~~m)
  | .bic32 => c.setX e.rd (lo32 (n &&& ~~~m))
  | .orr64 => c.setX e.rd (n ||| m)
  | .orr32 => c.setX e.rd (lo32 (n ||| m))
  | .orn64 => c.setX e.rd (n ||| ~~~m)
  | .orn32 => c.setX e.rd (lo32 (n ||| ~~~m))
  | .eor64 => c.setX e.rd (n ^^^ m)
  | .eor32 => c.setX e.rd (lo32 (n ^^^ m))
  | .eon64 => c.setX e.rd (n ^^^ ~~~m)
  | .eon32 => c.setX e.rd (lo32 (n ^^^ ~~~m))
  | .ands64 => (c.setNzcv (pdLogicalFlags (n &&& m) true)).setX e.rd (n &&& m)
  | .ands32 => (c.setNzcv (pdLogicalFlags (lo32 (n &&& m)) false)).setX e.rd (lo32 (n &&& m))
  | .bics64 => (c.setNzcv (pdLogicalFlags (n &&& ~~~m) true)).setX e.rd (n &&& ~~~m)
  | .bics32 => (c.setNzcv (pdLogicalFlags (lo32 (n &&& ~~~m)) false)).setX e.rd (lo32 (n &&& ~~~m))
  | .and64s | .and32s | .orr64s | .orr32s | .eor64s | .eor32s | .ands64s | .ands32s =>
    pdLogicalShift e c
  | .add64r => c.setX e.rd (n + m)
  | .add32r => c.setX e.rd (lo32 (n + m))
  | .sub64r => c.setX e.rd (n - m)
  | .sub32r => c.setX e.rd (lo32 (n - m))
  | .adds64r => c.setFlagsX e.rd true (pdAwc n m false true)
  | .adds32r => c.setFlagsX e.rd false (pdAwc n m false false)
  | .subs64r => c.setFlagsX e.rd true (pdAwc n (~~~m) true true)
  | .subs32r => c.setFlagsX e.rd false (pdAwc n (~~~m) true false)
  | .add64rs | .add32rs | .sub64rs | .sub32rs | .adds64rs | .adds32rs | .subs64rs | .subs32rs =>
    pdAddSubShift e c
  | .addx64 | .addx32 | .subx64 | .subx32 | .addsx64 | .addsx32 | .subsx64 | .subsx32 =>
    pdAddSubExt e c
  | .madd64 => c.setX e.rd (a + n * m)
  | .madd32 => c.setX e.rd (lo32 (a + n * m))
  | .msub64 => c.setX e.rd (a - n * m)
  | .msub32 => c.setX e.rd (lo32 (a - n * m))
  | .smaddl => c.setX e.rd (a + n32.signExtend 64 * m32.signExtend 64)
  | .smsubl => c.setX e.rd (a - n32.signExtend 64 * m32.signExtend 64)
  | .umaddl => c.setX e.rd (a + lo32 n * lo32 m)
  | .umsubl => c.setX e.rd (a - lo32 n * lo32 m)
  | .smulh => c.setX e.rd (smulh64 n m)
  | .umulh => c.setX e.rd (umulh64 n m)
  | .csel64 | .csel32 | .csinc64 | .csinc32 | .csinv64 | .csinv32 | .csneg64 | .csneg32 =>
    pdCsel e c
  | .ccmp64i | .ccmp32i | .ccmp64r | .ccmp32r | .ccmn64i | .ccmn32i | .ccmn64r | .ccmn32r =>
    pdCcmp e c
  | .rev64 => c.setX e.rd (bswap64 n)
  | .revw => c.setX e.rd ((bswap32 n32).setWidth 64)
  | .clz64 => c.setX e.rd (if n ≠ 0 then zext (clzBits n 64) else 64)
  | .clz32 => c.setX e.rd (if lo32 n ≠ 0 then zext (clzBits (lo32 n) 32) else 32)
  | .udiv64 => c.setX e.rd (udiv n m true)
  | .udiv32 => c.setX e.rd (udiv n m false)
  | .sdiv64 => c.setX e.rd (sdiv n m true)
  | .sdiv32 => c.setX e.rd (sdiv n m false)
  | .lslv64 => c.setX e.rd (pdShiftReg n 0 amount true)
  | .lslv32 => c.setX e.rd (lo32 (pdShiftReg n 0 amount false))
  | .lsrv64 => c.setX e.rd (pdShiftReg n 1 amount true)
  | .lsrv32 => c.setX e.rd (lo32 (pdShiftReg n 1 amount false))
  | .asrv64 => c.setX e.rd (pdShiftReg n 2 amount true)
  | .asrv32 => c.setX e.rd (lo32 (pdShiftReg n 2 amount false))
  | .rorv64 => c.setX e.rd (pdShiftReg n 3 amount true)
  | .rorv32 => c.setX e.rd (lo32 (pdShiftReg n 3 amount false))
  | _ => c

variable {D : Type}

/-- Load `bytes` at `va` into `Xt` through `f`, then write `wb` to the base. -/
def pdLoad (P : Platform D) (e : PdEnt) (s : Machine D) (va : U64) (bytes : ℕ) (f : U64 → U64)
    (wb : Option U64) : Machine D :=
  match memRead P s va bytes with
  | (none, s) => s
  | (some v, s) => writeBack (s.setX e.rd (f v)) e.rn wb

def pdStore (P : Platform D) (e : PdEnt) (s : Machine D) (va : U64) (bytes : ℕ)
    (wb : Option U64) : Machine D :=
  match memWrite P s va bytes (s.cpu.regX e.rd) with
  | (false, s) => s
  | (true, s) => writeBack s e.rn wb

def pdLoadQ (P : Platform D) (e : PdEnt) (s : Machine D) (va : U64) (wb : Option U64) : Machine D :=
  match memRead128 P s va with
  | (none, s) => s
  | (some v, s) => writeBack (s.mapCpu (·.setVreg e.rd v)) e.rn wb

def pdStoreQ (P : Platform D) (e : PdEnt) (s : Machine D) (va : U64) (wb : Option U64) : Machine D :=
  match memWrite128 P s va (s.cpu.vreg e.rd) with
  | (false, s) => s
  | (true, s) => writeBack s e.rn wb

/-- Register offset: the extend option and shift are packed in `imm`. -/
def pdRegOffset (P : Platform D) (e : PdEnt) (s : Machine D) : Machine D :=
  let va := s.cpu.regXsp e.rn +
    pdExtendReg (s.cpu.regX e.rm) ((e.imm >>> 3) &&& 7).toNat (e.imm &&& 7).toNat
  match e.op with
  | .ldr64ro => pdLoad P e s va 8 id none
  | .ldr32ro => pdLoad P e s va 4 lo32 none
  | .ldrbro => pdLoad P e s va 1 id none
  | .ldrhro => pdLoad P e s va 2 id none
  | .str64ro => pdStore P e s va 8 none
  | .str32ro => pdStore P e s va 4 none
  | .strbro => pdStore P e s va 1 none
  | _ => pdStore P e s va 2 none

def pdPairAddr (e : PdEnt) (s : Machine D) (wb post : Bool) : U64 × Option U64 :=
  let base := s.cpu.regXsp e.rn
  (if post then base else base + e.imm, if wb then some (base + e.imm) else none)

def pdLdp (P : Platform D) (e : PdEnt) (s : Machine D) : Machine D :=
  let is64 := e.op = .ldp64 || e.op = .ldp64pre || e.op = .ldp64post
  let post := e.op = .ldp64post || e.op = .ldp32post
  let wb := post || e.op = .ldp64pre || e.op = .ldp32pre
  let esz := if is64 then 8 else 4
  let (addr, wbval) := pdPairAddr e s wb post
  match memRead P s addr esz with
  | (none, s) => s
  | (some a, s) =>
    match memRead P s (addr + zext esz) esz with
    | (none, s) => s
    | (some b, s) => writeBack ((s.setX e.rd (sz is64 a)).setX e.rm (sz is64 b)) e.rn wbval

def pdStp (P : Platform D) (e : PdEnt) (s : Machine D) : Machine D :=
  let is64 := e.op = .stp64 || e.op = .stp64pre || e.op = .stp64post
  let post := e.op = .stp64post || e.op = .stp32post
  let wb := post || e.op = .stp64pre || e.op = .stp32pre
  let esz := if is64 then 8 else 4
  let (addr, wbval) := pdPairAddr e s wb post
  match memWrite P s addr esz (s.cpu.regX e.rd) with
  | (false, s) => s
  | (true, s) =>
    match memWrite P s (addr + zext esz) esz (s.cpu.regX e.rm) with
    | (false, s) => s
    | (true, s) => writeBack s e.rn wbval

def pdLdpq (P : Platform D) (e : PdEnt) (s : Machine D) : Machine D :=
  let post := decide (e.op = .ldpqpost)
  let (addr, wbval) := pdPairAddr e s (post || e.op = .ldpqpre) post
  match memRead128 P s addr with
  | (none, s) => s
  | (some v, s) =>
    match memRead128 P (s.mapCpu (·.setVreg e.rd v)) (addr + 16) with
    | (none, s) => s
    | (some v, s) => writeBack (s.mapCpu (·.setVreg e.rm v)) e.rn wbval

def pdStpq (P : Platform D) (e : PdEnt) (s : Machine D) : Machine D :=
  let post := decide (e.op = .stpqpost)
  let (addr, wbval) := pdPairAddr e s (post || e.op = .stpqpre) post
  match memWrite128 P s addr (s.cpu.vreg e.rd) with
  | (false, s) => s
  | (true, s) =>
    match memWrite128 P s (addr + 16) (s.cpu.vreg e.rm) with
    | (false, s) => s
    | (true, s) => writeBack s e.rn wbval

def pdLdpd (P : Platform D) (e : PdEnt) (s : Machine D) : Machine D :=
  let post := decide (e.op = .ldpdpost)
  let (addr, wbval) := pdPairAddr e s (post || e.op = .ldpdpre) post
  match memRead P s addr 8 with
  | (none, s) => s
  | (some t, s) =>
    match memRead P (s.mapCpu (·.setVreg e.rd ⟨t, 0⟩)) (addr + 8) 8 with
    | (none, s) => s
    | (some t, s) => writeBack (s.mapCpu (·.setVreg e.rm ⟨t, 0⟩)) e.rn wbval

def pdStpd (P : Platform D) (e : PdEnt) (s : Machine D) : Machine D :=
  let post := decide (e.op = .stpdpost)
  let (addr, wbval) := pdPairAddr e s (post || e.op = .stpdpre) post
  match memWrite P s addr 8 (s.cpu.vreg e.rd).d0 with
  | (false, s) => s
  | (true, s) =>
    match memWrite P s (addr + 8) 8 (s.cpu.vreg e.rm).d0 with
    | (false, s) => s
    | (true, s) => writeBack s e.rn wbval

/-- `FP_GUARD()`. -/
def fpGuard (s : Machine D) (k : Machine D) : Machine D :=
  if s.cpu.fpTrapped then s.mapCpu cpuFpTrap else k

def pdMem (P : Platform D) (e : PdEnt) (s : Machine D) : Machine D :=
  let base := s.cpu.regXsp e.rn
  let va := base + e.imm
  let lit := s.cpu.curInsnPc + e.imm
  match e.op with
  | .ldr64u => pdLoad P e s va 8 id none
  | .ldr32u => pdLoad P e s va 4 lo32 none
  | .ldrb => pdLoad P e s va 1 id none
  | .ldrh => pdLoad P e s va 2 id none
  | .ldrsb64 => pdLoad P e s va 1 (signExtend · 8) none
  | .ldrsb32 => pdLoad P e s va 1 (fun v => lo32 (signExtend v 8)) none
  | .ldrsh64 => pdLoad P e s va 2 (signExtend · 16) none
  | .ldrsh32 => pdLoad P e s va 2 (fun v => lo32 (signExtend v 16)) none
  | .ldrsw => pdLoad P e s va 4 (signExtend · 32) none
  | .str64u => pdStore P e s va 8 none
  | .str32u => pdStore P e s va 4 none
  | .strb => pdStore P e s va 1 none
  | .strh => pdStore P e s va 2 none
  | .ldr64pre => pdLoad P e s va 8 id (some va)
  | .ldr64post => pdLoad P e s base 8 id (some va)
  | .ldr32pre => pdLoad P e s va 4 lo32 (some va)
  | .ldr32post => pdLoad P e s base 4 lo32 (some va)
  | .str64pre => pdStore P e s va 8 (some va)
  | .str64post => pdStore P e s base 8 (some va)
  | .str32pre => pdStore P e s va 4 (some va)
  | .str32post => pdStore P e s base 4 (some va)
  | .ldrbpost => pdLoad P e s base 1 id (some va)
  | .strbpost => pdStore P e s base 1 (some va)
  | .ldr64ro | .ldr32ro | .ldrbro | .ldrhro | .str64ro | .str32ro | .strbro | .strhro =>
    pdRegOffset P e s
  | .ldrlit64 => pdLoad P e s lit 8 id none
  | .ldrlit32 => pdLoad P e s lit 4 lo32 none
  | .ldrlitv =>
    fpGuard s <|
      if e.rm = 16 then pdLoadQ P e s lit none
      else
        match memRead P s lit e.rm with
        | (none, s) => s
        | (some t, s) => s.mapCpu (·.setVreg e.rd ⟨t, 0⟩)
  | .ldp64 | .ldp64pre | .ldp64post | .ldp32 | .ldp32pre | .ldp32post => pdLdp P e s
  | .stp64 | .stp64pre | .stp64post | .stp32 | .stp32pre | .stp32post => pdStp P e s
  | .ldrq => fpGuard s (pdLoadQ P e s va none)
  | .strq => fpGuard s (pdStoreQ P e s va none)
  | .ldrv =>
    fpGuard s <|
      match memRead P s va e.rm with
      | (none, s) => s
      | (some t, s) => s.mapCpu (·.setVreg e.rd ⟨t, 0⟩)
  | .strv => fpGuard s (memWrite P s va e.rm (s.cpu.vreg e.rd).d0).2
  | .ldrqpre => fpGuard s (pdLoadQ P e s va (some va))
  | .ldrqpost => fpGuard s (pdLoadQ P e s base (some va))
  | .strqpre => fpGuard s (pdStoreQ P e s va (some va))
  | .strqpost => fpGuard s (pdStoreQ P e s base (some va))
  | .ldpq | .ldpqpre | .ldpqpost => fpGuard s (pdLdpq P e s)
  | .stpq | .stpqpre | .stpqpost => fpGuard s (pdStpq P e s)
  | .ldpd | .ldpdpre | .ldpdpost => fpGuard s (pdLdpd P e s)
  | .stpd | .stpdpre | .stpdpost => fpGuard s (pdStpd P e s)
  | _ => s

def PdOp.isMem (op : PdOp) : Bool :=
  decide (PdOp.ldr64u.ctorIdx ≤ op.ctorIdx) && decide (op.ctorIdx ≤ PdOp.stpdpost.ctorIdx)

/-- The handler that `pd_tab` selects for an entry. -/
def pdHandler (P : Platform D) (e : PdEnt) (s : Machine D) : Machine D :=
  if e.op = .generic then execA64 P s e.insn
  else if e.op.isMem then pdMem P e s
  else s.mapCpu (pdCpu e)

end Arm64Emu
