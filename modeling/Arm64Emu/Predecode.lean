import Arm64Emu.Decode

/-! The pre-decode classifier of `predecode.c`: one instruction word becomes a
dense operation id with extracted operands. -/
namespace Arm64Emu

/-- The `PD_*` ids, in the order of `predecode.h`. -/
inductive PdOp
  | generic | nop
  | b | bl | bcond | cbz64 | cbz32 | cbnz64 | cbnz32 | tbz | tbnz | br | blr
  | add64i | add32i | sub64i | sub32i | adds64i | adds32i | subs64i | subs32i
  | and64i | and32i | orr64i | orr32i | eor64i | eor32i | ands64i | ands32i
  | movi | movk64 | movk32 | adr | adrp
  | lsl64i | lsl32i | lsr64i | lsr32i | asr64i | asr32i
  | ubfx64 | ubfx32 | ubfiz64 | ubfiz32 | sbfx64 | sbfx32 | extr64 | extr32
  | and64 | and32 | bic64 | bic32 | orr64 | orr32 | orn64 | orn32
  | eor64 | eor32 | eon64 | eon32 | ands64 | ands32 | bics64 | bics32
  | and64s | and32s | orr64s | orr32s | eor64s | eor32s | ands64s | ands32s
  | add64r | add32r | sub64r | sub32r | adds64r | adds32r | subs64r | subs32r
  | add64rs | add32rs | sub64rs | sub32rs | adds64rs | adds32rs | subs64rs | subs32rs
  | addx64 | addx32 | subx64 | subx32 | addsx64 | addsx32 | subsx64 | subsx32
  | madd64 | madd32 | msub64 | msub32 | smaddl | smsubl | umaddl | umsubl | smulh | umulh
  | csel64 | csel32 | csinc64 | csinc32 | csinv64 | csinv32 | csneg64 | csneg32
  | ccmp64i | ccmp32i | ccmp64r | ccmp32r | ccmn64i | ccmn32i | ccmn64r | ccmn32r
  | rev64 | revw | clz64 | clz32
  | udiv64 | udiv32 | sdiv64 | sdiv32 | lslv64 | lslv32 | lsrv64 | lsrv32
  | asrv64 | asrv32 | rorv64 | rorv32
  | ldr64u | ldr32u | ldrb | ldrh | ldrsb64 | ldrsb32 | ldrsh64 | ldrsh32 | ldrsw
  | str64u | str32u | strb | strh
  | ldr64pre | ldr64post | ldr32pre | ldr32post | str64pre | str64post | str32pre | str32post
  | ldrbpost | strbpost
  | ldr64ro | ldr32ro | ldrbro | ldrhro | str64ro | str32ro | strbro | strhro
  | ldrlit64 | ldrlit32 | ldrlitv
  | ldp64 | ldp64pre | ldp64post | ldp32 | ldp32pre | ldp32post
  | stp64 | stp64pre | stp64post | stp32 | stp32pre | stp32post
  | ldrq | strq | ldrv | strv | ldrqpre | ldrqpost | strqpre | strqpost
  | ldpq | ldpqpre | ldpqpost | stpq | stpqpre | stpqpost
  | ldpd | ldpdpre | ldpdpost | stpd | stpdpre | stpdpost
  deriving DecidableEq, Repr

structure PdEnt where
  insn : U32
  op : PdOp
  rd : ℕ
  rn : ℕ
  rm : ℕ
  imm : U64
  deriving DecidableEq, Repr

def pick (sf : Bool) (op64 op32 : PdOp) : PdOp := if sf then op64 else op32

/-- The wrap mask of a logical immediate, computed apart from the interpreter's. -/
def pdBitmasks (immN : Bool) (imms immr : ℕ) (is64 : Bool) : Option U64 :=
  let width := if is64 then 64 else 32
  let nimms := immN.toNat * 64 + (63 - imms % 64)
  if nimms = 0 then none
  else
    let len := Nat.log2 nimms
    if len < 1 then none
    else if width < 2 ^ len then none
    else
      let esize := 2 ^ len
      let s := imms % esize
      let r := immr % esize
      let emask := elemMask esize
      let welem := ones (s + 1) &&& emask
      let w := rorElem welem (r % esize) esize emask
      some (sz is64 (replicate w esize))

def logicalImmId (opc : ℕ) (sf : Bool) : PdOp :=
  match opc with
  | 0 => pick sf .and64i .and32i
  | 1 => pick sf .orr64i .orr32i
  | 2 => pick sf .eor64i .eor32i
  | _ => pick sf .ands64i .ands32i

def fillBitfield (e : PdEnt) (insn : U32) : PdEnt :=
  let sf := bit insn 31
  let opc := bits insn 30 29
  let n := bit insn 22
  let immr := bits insn 21 16
  let imms := bits insn 15 10
  let width := if sf then 64 else 32
  if (if sf then !n else n || decide (32 ≤ immr) || decide (32 ≤ imms)) then e
  else if opc = 2 then
    if imms = width - 1 then { e with op := pick sf .lsr64i .lsr32i, rm := immr }
    else if immr = imms + 1 then { e with op := pick sf .lsl64i .lsl32i, rm := width - 1 - imms }
    else if immr ≤ imms then
      { e with op := pick sf .ubfx64 .ubfx32, rm := immr, imm := ones (imms - immr + 1) }
    else { e with op := pick sf .ubfiz64 .ubfiz32, rm := width - immr, imm := ones (imms + 1) }
  else if opc = 0 then
    if imms = width - 1 then { e with op := pick sf .asr64i .asr32i, rm := immr }
    else if immr ≤ imms then
      { e with op := pick sf .sbfx64 .sbfx32, rm := width - 1 - imms,
               imm := zext (width - 1 - imms + immr) }
    else e
  else e

def fillDpImm (e : PdEnt) (insn : U32) : PdEnt :=
  let t := bits insn 28 23
  let sf := bit insn 31
  if t = 0x20 ∨ t = 0x21 then
    let imm := signExtend ((zext (bits insn 23 5) <<< 2) ||| zext (bits insn 30 29)) 21
    if !sf then { e with op := .adr, imm := imm } else { e with op := .adrp, imm := imm <<< 12 }
  else if t = 0x22 then
    let op := bit insn 30
    let imm := zext (bits insn 21 10)
    let imm := if bit insn 22 then imm <<< 12 else imm
    if bit insn 29 then
      { e with op := if op then pick sf .subs64i .subs32i else pick sf .adds64i .adds32i,
               imm := if op then ~~~imm else imm }
    else { e with op := if op then pick sf .sub64i .sub32i else pick sf .add64i .add32i, imm := imm }
  else if t = 0x24 then
    match pdBitmasks (bit insn 22) (bits insn 15 10) (bits insn 21 16) sf with
    | none => e
    | some wmask => { e with op := logicalImmId (bits insn 30 29) sf, imm := wmask }
  else if t = 0x25 then
    let opc := bits insn 30 29
    let hw := bits insn 22 21
    let imm16 := zext (bits insn 20 5)
    let shift := hw * 16
    if !sf ∧ 2 ≤ hw then e
    else if opc = 0 then { e with op := .movi, imm := sz sf (~~~(imm16 <<< shift)) }
    else if opc = 2 then { e with op := .movi, imm := sz sf (imm16 <<< shift) }
    else if opc = 3 then { e with op := pick sf .movk64 .movk32, rm := shift, imm := imm16 <<< shift }
    else e
  else if t = 0x26 then fillBitfield e insn
  else if t = 0x27 then
    let imms := bits insn 15 10
    if bits insn 30 29 ≠ 0 ∨ bit insn 22 ≠ sf ∨ bit insn 21 then e
    else if sf then { e with op := .extr64, imm := zext imms }
    else if imms < 32 then { e with op := .extr32, imm := zext imms }
    else e
  else e

def fillBranch (e : PdEnt) (insn : U32) : PdEnt :=
  let top6 := bits insn 31 26
  if top6 = 0x05 then { e with op := .b, imm := branchOff insn 25 0 }
  else if top6 = 0x25 then { e with op := .bl, imm := branchOff insn 25 0 }
  else if bits insn 31 24 = 0x54 ∧ !bit insn 4 then
    { e with op := .bcond, rd := bits insn 3 0, imm := branchOff insn 23 5 }
  else if bits insn 30 25 = 0x1a then
    let sf := bit insn 31
    { e with op := if bit insn 24 then pick sf .cbnz64 .cbnz32 else pick sf .cbz64 .cbz32,
             imm := branchOff insn 23 5 }
  else if bits insn 30 25 = 0x1b then
    { e with op := if bit insn 24 then .tbnz else .tbz,
             rm := bits insn 31 31 * 32 + bits insn 23 19, imm := branchOff insn 18 5 }
  else if bits insn 31 25 = 0x6b then
    let opc := bits insn 24 21
    if opc = 0 ∨ opc = 2 then { e with op := .br }
    else if opc = 1 then { e with op := .blr }
    else e
  else if bits insn 31 24 = 0xd5 then
    let crm := bits insn 11 8
    let op2 := bits insn 7 5
    if isHint insn ∧ ¬(crm = 0 ∧ (op2 = 2 ∨ op2 = 3)) then { e with op := .nop } else e
  else e

/-- The id of an integer single-register form; `generic` when not covered. -/
def ldstIntId (size opc : ℕ) : PdOp :=
  match size * 4 + opc with
  | 0x0 => .strb
  | 0x1 => .ldrb
  | 0x2 => .ldrsb64
  | 0x3 => .ldrsb32
  | 0x4 => .strh
  | 0x5 => .ldrh
  | 0x6 => .ldrsh64
  | 0x7 => .ldrsh32
  | 0x8 => .str32u
  | 0x9 => .ldr32u
  | 0xa => .ldrsw
  | 0xc => .str64u
  | 0xd => .ldr64u
  | 0xe => .nop
  | _ => .generic

def ldstRoId (size opc : ℕ) : PdOp :=
  match size * 4 + opc with
  | 0x0 => .strbro
  | 0x1 => .ldrbro
  | 0x4 => .strhro
  | 0x5 => .ldrhro
  | 0x8 => .str32ro
  | 0x9 => .ldr32ro
  | 0xc => .str64ro
  | 0xd => .ldr64ro
  | _ => .generic

def ldstWbId (size opc : ℕ) (post : Bool) : PdOp :=
  if size = 3 ∧ opc = 1 then (if post then .ldr64post else .ldr64pre)
  else if size = 3 ∧ opc = 0 then (if post then .str64post else .str64pre)
  else if size = 2 ∧ opc = 1 then (if post then .ldr32post else .ldr32pre)
  else if size = 2 ∧ opc = 0 then (if post then .str32post else .str32pre)
  else if size = 0 ∧ opc = 1 ∧ post then .ldrbpost
  else if size = 0 ∧ opc = 0 ∧ post then .strbpost
  else .generic

/-- Addressing of a pair: plain offset, pre-index or post-index. -/
inductive PairKind
  | off | pre | post
  deriving DecidableEq, Repr

def PairKind.sel (k : PairKind) (off pre post : PdOp) : PdOp :=
  match k with
  | .off => off
  | .pre => pre
  | .post => post

def pairId (v l : Bool) (opc : ℕ) (k : PairKind) : Option (PdOp × ℕ) :=
  if v then
    if opc = 2 then
      some (if l then k.sel .ldpq .ldpqpre .ldpqpost else k.sel .stpq .stpqpre .stpqpost, 4)
    else if opc = 1 then
      some (if l then k.sel .ldpd .ldpdpre .ldpdpost else k.sel .stpd .stpdpre .stpdpost, 3)
    else none
  else if opc = 2 then
    some (if l then k.sel .ldp64 .ldp64pre .ldp64post else k.sel .stp64 .stp64pre .stp64post, 3)
  else if opc = 0 then
    some (if l then k.sel .ldp32 .ldp32pre .ldp32post else k.sel .stp32 .stp32pre .stp32post, 2)
  else none

def fillLiteral (e : PdEnt) (insn : U32) : PdEnt :=
  let opc := bits insn 31 30
  let imm := branchOff insn 23 5
  if bit insn 26 then
    if opc = 3 then e else { e with op := .ldrlitv, rm := 4 * 2 ^ opc, imm := imm }
  else if opc = 0 then { e with op := .ldrlit32, imm := imm }
  else if opc = 1 then { e with op := .ldrlit64, imm := imm }
  else if opc = 3 then { e with op := .nop, imm := imm }
  else { e with imm := imm }

def fillPair (e : PdEnt) (insn : U32) : PdEnt :=
  let mode := bits insn 25 23
  if 3 < mode then e
  else
    let kind : PairKind := if mode = 1 then .post else if mode = 3 then .pre else .off
    match pairId (bit insn 26) (bit insn 22) (bits insn 31 30) kind with
    | none => e
    | some (op, scale) =>
      { e with op := op, rm := bits insn 14 10,
               imm := signExtend (zext (bits insn 21 15)) 7 <<< scale }

/-- A vector form with an immediate offset : `immQ` for the Q form, else `imm`. -/
def fillVec (e : PdEnt) (size opc : ℕ) (immQ imm : U64) : PdEnt :=
  if 2 ≤ opc then
    if size ≠ 0 then e
    else { e with op := if opc % 2 = 1 then .ldrq else .strq, imm := immQ }
  else { e with op := if opc % 2 = 1 then .ldrv else .strv, rm := 2 ^ size, imm := imm }

def fillSingle (e : PdEnt) (insn : U32) : PdEnt :=
  let size := bits insn 31 30
  let opc := bits insn 23 22
  let v := bit insn 26
  if bit insn 24 then
    let imm12 := zext (bits insn 21 10)
    if v then fillVec e size opc (imm12 <<< 4) (imm12 <<< size)
    else if ldstIntId size opc = .generic then e
    else { e with op := ldstIntId size opc, imm := imm12 <<< size }
  else if bit insn 21 then
    if bits insn 11 10 ≠ 2 ∨ v then e
    else if ldstRoId size opc = .generic then e
    else
      { e with op := ldstRoId size opc,
               imm := zext (bits insn 15 13 * 8 + if bit insn 12 then size else 0) }
  else
    let mode := bits insn 11 10
    let imm9 := signExtend (zext (bits insn 20 12)) 9
    if mode = 2 then e
    else if mode = 0 then
      if v then fillVec e size opc imm9 imm9
      else if ldstIntId size opc = .generic then e
      else { e with op := ldstIntId size opc, imm := imm9 }
    else
      let post := decide (mode = 1)
      if v then
        if 2 ≤ opc ∧ size = 0 then
          { e with op := if opc % 2 = 1 then (if post then .ldrqpost else .ldrqpre)
                     else if post then .strqpost else .strqpre, imm := imm9 }
        else e
      else if ldstWbId size opc post = .generic then e
      else { e with op := ldstWbId size opc post, imm := imm9 }

def fillLdst (e : PdEnt) (insn : U32) : PdEnt :=
  let b2927 := bits insn 29 27
  if b2927 = 0x3 ∧ bits insn 25 24 = 0 then fillLiteral e insn
  else if b2927 = 0x5 then fillPair e insn
  else if b2927 = 0x7 then fillSingle e insn
  else e

def logicalRegId (opc : ℕ) (n sf : Bool) : PdOp :=
  match opc with
  | 0 => if n then pick sf .bic64 .bic32 else pick sf .and64 .and32
  | 1 => if n then pick sf .orn64 .orn32 else pick sf .orr64 .orr32
  | 2 => if n then pick sf .eon64 .eon32 else pick sf .eor64 .eor32
  | _ => if n then pick sf .bics64 .bics32 else pick sf .ands64 .ands32

def logicalShiftId (opc : ℕ) (sf : Bool) : PdOp :=
  match opc with
  | 0 => pick sf .and64s .and32s
  | 1 => pick sf .orr64s .orr32s
  | 2 => pick sf .eor64s .eor32s
  | _ => pick sf .ands64s .ands32s

def addSubRegId (op s sf : Bool) : PdOp :=
  if op then (if s then pick sf .subs64r .subs32r else pick sf .sub64r .sub32r)
  else if s then pick sf .adds64r .adds32r else pick sf .add64r .add32r

def addSubShiftId (op s sf : Bool) : PdOp :=
  if op then (if s then pick sf .subs64rs .subs32rs else pick sf .sub64rs .sub32rs)
  else if s then pick sf .adds64rs .adds32rs else pick sf .add64rs .add32rs

def addSubExtId (op s sf : Bool) : PdOp :=
  if op then (if s then pick sf .subsx64 .subsx32 else pick sf .subx64 .subx32)
  else if s then pick sf .addsx64 .addsx32 else pick sf .addx64 .addx32

def dp3Id (key : ℕ) (sf : Bool) : PdOp :=
  match key with
  | 0x0 => pick sf .madd64 .madd32
  | 0x1 => pick sf .msub64 .msub32
  | 0x2 => pick sf .smaddl .generic
  | 0x3 => pick sf .smsubl .generic
  | 0x4 => pick sf .smulh .generic
  | 0xa => pick sf .umaddl .generic
  | 0xb => pick sf .umsubl .generic
  | 0xc => pick sf .umulh .generic
  | _ => .generic

def ccmpId (op isImm sf : Bool) : PdOp :=
  if op then (if isImm then pick sf .ccmp64i .ccmp32i else pick sf .ccmp64r .ccmp32r)
  else if isImm then pick sf .ccmn64i .ccmn32i else pick sf .ccmn64r .ccmn32r

def cselId (op o2 sf : Bool) : PdOp :=
  if op then (if o2 then pick sf .csneg64 .csneg32 else pick sf .csinv64 .csinv32)
  else if o2 then pick sf .csinc64 .csinc32 else pick sf .csel64 .csel32

def dp1Id (opcode : ℕ) (sf : Bool) : PdOp :=
  if opcode = 0x02 ∧ !sf then .revw
  else if opcode = 0x03 ∧ sf then .rev64
  else if opcode = 0x04 then pick sf .clz64 .clz32
  else .generic

def dp2Id (opcode : ℕ) (sf : Bool) : PdOp :=
  match opcode with
  | 0x02 => pick sf .udiv64 .udiv32
  | 0x03 => pick sf .sdiv64 .sdiv32
  | 0x08 => pick sf .lslv64 .lslv32
  | 0x09 => pick sf .lsrv64 .lsrv32
  | 0x0a => pick sf .asrv64 .asrv32
  | 0x0b => pick sf .rorv64 .rorv32
  | _ => .generic

def fillDpReg (e : PdEnt) (insn : U32) : PdEnt :=
  let sf := bit insn 31
  let op24 := bits insn 28 24
  if op24 = 0x0a then
    let opc := bits insn 30 29
    let shift := bits insn 23 22
    let n := bit insn 21
    let imm6 := bits insn 15 10
    if !sf ∧ 32 ≤ imm6 then e
    else if shift = 0 ∧ imm6 = 0 then { e with op := logicalRegId opc n sf }
    else { e with op := logicalShiftId opc sf, imm := zext (n.toNat * 256 + shift * 64 + imm6) }
  else if op24 = 0x0b then
    let op := bit insn 30
    let s := bit insn 29
    if bit insn 21 then
      if 4 < bits insn 12 10 ∨ bits insn 23 22 ≠ 0 then e
      else
        { e with op := addSubExtId op s sf, imm := zext (bits insn 15 13 * 8 + bits insn 12 10) }
    else
      let shift := bits insn 23 22
      let imm6 := bits insn 15 10
      if shift = 3 then e
      else if !sf ∧ 32 ≤ imm6 then e
      else if shift = 0 ∧ imm6 = 0 then { e with op := addSubRegId op s sf }
      else { e with op := addSubShiftId op s sf, imm := zext (shift * 64 + imm6) }
  else if op24 = 0x1b then
    if bits insn 30 29 ≠ 0 then e
    else
      let op := dp3Id (bits insn 23 21 * 2 + bits insn 15 15) sf
      if op = .generic then e else { e with op := op, imm := zext (bits insn 14 10) }
  else if op24 = 0x1a then
    let op21 := bits insn 28 21
    if op21 = 0xd2 then
      if !bit insn 29 ∨ bit insn 10 ∨ bit insn 4 then e
      else
        { e with op := ccmpId (bit insn 30) (bit insn 11) sf,
                 imm := zext (bits insn 15 12) ||| (zext (bits insn 20 16) <<< 8)
                   ||| ((nzcvImm (bits insn 3 0)).setWidth 64 <<< 32) }
    else if op21 = 0xd4 then
      if bit insn 29 ∨ bit insn 11 then e
      else { e with op := cselId (bit insn 30) (bit insn 10) sf, imm := zext (bits insn 15 12) }
    else if op21 = 0xd6 then
      { e with op := if bit insn 30 then dp1Id (bits insn 15 10) sf else dp2Id (bits insn 15 10) sf }
    else e
  else e

/-- The entry every word starts from: generic, with the common register fields. -/
def PdEnt.ofInsn (insn : U32) : PdEnt :=
  ⟨insn, .generic, bits insn 4 0, bits insn 9 5, bits insn 20 16, 0⟩

def pdFill (insn : U32) : PdEnt :=
  let e := PdEnt.ofInsn insn
  match bits insn 28 25 with
  | 0x8 | 0x9 => fillDpImm e insn
  | 0xa | 0xb => fillBranch e insn
  | 0x4 | 0x6 | 0xc | 0xe => fillLdst e insn
  | 0x5 | 0xd => fillDpReg e insn
  | _ => e

/-- The memory ids, `PD_LDR64U` to `PD_STPDPOST`, without the literals. -/
def PdOp.basedMem (op : PdOp) : Bool :=
  decide (PdOp.ldr64u.ctorIdx ≤ op.ctorIdx) && decide (op.ctorIdx ≤ PdOp.stpdpost.ctorIdx)
    && op ≠ .ldrlit64 && op ≠ .ldrlit32 && op ≠ .ldrlitv

/-- The predecoded tier leaves stack-based memory operations to the interpreter. -/
def pdFillTier (insn : U32) : PdEnt :=
  let e := pdFill insn
  if e.rn = 31 ∧ e.op.basedMem then { e with op := .generic } else e

end Arm64Emu
