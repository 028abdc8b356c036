import Arm64Emu.Mmu
import Arm64Emu.Alu

/-! The scalar load/store groups of `decode.c`: single registers, pairs,
literals, exclusives and the LSE atomics. -/
namespace Arm64Emu

variable {D : Type}

def Machine.mapCpu (s : Machine D) (f : Cpu → Cpu) : Machine D := { s with cpu := f s.cpu }

def Machine.setX (s : Machine D) (n : ℕ) (v : U64) : Machine D := s.mapCpu (·.setX n v)

def Machine.setXsp (s : Machine D) (n : ℕ) (v : U64) : Machine D := s.mapCpu (·.setXsp n v)

def Machine.setUnpriv (s : Machine D) (u : Bool) : Machine D :=
  s.mapCpu fun c => { c with ldstUnpriv := u }

def ldstExtendedOffset (c : Cpu) (insn : U32) (size : ℕ) : U64 :=
  extendReg (c.regX (bits insn 20 16)) (bits insn 15 13) (if bit insn 12 then size else 0)

/-- The value a load of `2 ^ size` bytes leaves in its register. -/
def loadValue (size opc : ℕ) (raw : U64) : U64 :=
  let sign := opc = 2 ∨ opc = 3
  let ext64 := if opc = 2 then true else if opc = 3 then false else size = 3
  sz ext64 (if sign then signExtend raw (2 ^ size * 8) else raw)

def doLoad (P : Platform D) (s : Machine D) (rt : ℕ) (va : U64) (size opc : ℕ) : Bool × Machine D :=
  if opc = 2 ∧ size = 3 then (true, s)
  else
    match memRead P s va (2 ^ size) with
    | (none, s) => (false, s)
    | (some raw, s) => (true, s.setX rt (loadValue size opc raw))

def vregLoad (P : Platform D) (s : Machine D) (vt : ℕ) (va : U64) (bytes : ℕ) : Bool × Machine D :=
  if bytes = 16 then
    match memRead128 P s va with
    | (none, s) => (false, s)
    | (some v, s) => (true, s.mapCpu (·.setVreg vt v))
  else
    match memRead P s va bytes with
    | (none, s) => (false, s)
    | (some t, s) => (true, s.mapCpu (·.setVreg vt ⟨t, 0⟩))

def vregStore (P : Platform D) (s : Machine D) (vt : ℕ) (va : U64) (bytes : ℕ) : Bool × Machine D :=
  if bytes = 16 then memWrite128 P s va (s.cpu.vreg vt)
  else memWrite P s va bytes (s.cpu.vreg vt).d0

/-- The mask of an access of `bytes` bytes. -/
def emaskOf (bytes : ℕ) : U64 := if bytes = 8 then ~~~0 else ((1 : U64) <<< (8 * bytes)) - 1

def atomicResult (opc esize : ℕ) (old operand : U64) : U64 :=
  let so := signExtend old esize
  let sn := signExtend operand esize
  match opc with
  | 0 => old + operand
  | 1 => old &&& ~~~operand
  | 2 => old ^^^ operand
  | 3 => old ||| operand
  | 4 => if sn.slt so then old else operand
  | 5 => if so.slt sn then old else operand
  | 6 => if operand < old then old else operand
  | _ => if old < operand then old else operand

def ldstAtomic (P : Platform D) (s : Machine D) (insn : U32) : Machine D :=
  let bytes := 2 ^ bits insn 31 30
  let rs := bits insn 20 16
  let o3 := bit insn 15
  let opc := bits insn 14 12
  let rt := bits insn 4 0
  let va := s.cpu.regXsp (bits insn 9 5)
  if o3 ∧ opc ≠ 0 then
    if opc = 4 then
      match memRead P s va bytes with
      | (none, s) => s
      | (some v, s) => s.setX rt v
    else s.mapCpu undefined
  else
    let emask := emaskOf bytes
    let operand := s.cpu.regX rs &&& emask
    match memRead P s va bytes with
    | (none, s) => s
    | (some old, s) =>
      let res := if o3 then operand else atomicResult opc (8 * bytes) old operand
      match memWrite P s va bytes (res &&& emask) with
      | (false, s) => s
      | (true, s) => s.setX rt old

def ldstCas (P : Platform D) (s : Machine D) (insn : U32) : Machine D :=
  let rs := bits insn 20 16
  let rt := bits insn 4 0
  let bytes := 2 ^ bits insn 31 30
  let emask := emaskOf bytes
  let va := s.cpu.regXsp (bits insn 9 5)
  match memRead P s va bytes with
  | (none, s) => s
  | (some old, s) =>
    if old = s.cpu.regX rs &&& emask then
      match memWrite P s va bytes (s.cpu.regX rt &&& emask) with
      | (false, s) => s
      | (true, s) => s.setX rs old
    else s.setX rs old

/-- `reg_x(c, Rs + 1)`: register 32 is past the array of the source. -/
def ldstCasp (P : Platform D) (s : Machine D) (insn : U32) : Machine D :=
  let wide := bit insn 30
  let rs := bits insn 20 16
  let rt := bits insn 4 0
  let bytes := if wide then 8 else 4
  let emask : U64 := if wide then ~~~0 else 0xffffffff
  let va := s.cpu.regXsp (bits insn 9 5)
  match memRead P s va bytes with
  | (none, s) => s
  | (some lo, s) =>
    match memRead P s (va + zext bytes) bytes with
    | (none, s) => s
    | (some hi, s) =>
      let finish (s : Machine D) := (s.setX rs lo).setX (rs + 1) hi
      if lo = s.cpu.regX rs &&& emask ∧ hi = s.cpu.regX (rs + 1) &&& emask then
        match memWrite P s va bytes (s.cpu.regX rt &&& emask) with
        | (false, s) => s
        | (true, s) =>
          match memWrite P s (va + zext bytes) bytes (s.cpu.regX (rt + 1) &&& emask) with
          | (false, s) => s
          | (true, s) => finish s
      else finish s

/-- `SCTLR_EL1.SA0` at EL0 and `SCTLR_EL1.SA` above. -/
def spCheckOn (c : Cpu) : Bool := (c.sctlr 1).getLsbD (if c.el = 0 then 4 else 3)

/-- A load/store may use base register `rn`. -/
def spAlignOk (c : Cpu) (rn : ℕ) : Bool :=
  if rn ≠ 31 then true
  else if c.regXsp 31 &&& 15 = 0 then true
  else !spCheckOn c

def spAlignFault (c : Cpu) : Cpu := cpuRaiseSync c (esrMake .spAlign 0) 0

def ldstRcpcUnscaled (P : Platform D) (s : Machine D) (insn : U32) : Machine D :=
  let size := bits insn 31 30
  let opc := bits insn 23 22
  let rn := bits insn 9 5
  let rt := bits insn 4 0
  if (opc = 2 ∧ size = 3) ∨ (opc = 3 ∧ 2 ≤ size) then s.mapCpu undefined
  else if !spAlignOk s.cpu rn then s.mapCpu spAlignFault
  else
    let va := s.cpu.regXsp rn + signExtend (zext (bits insn 20 12)) 9
    if opc = 0 then (memWrite P s va (2 ^ size) (s.cpu.regX rt)).2
    else (doLoad P s rt va size opc).2

/-- What the addressing fields of a single-register form select: the address,
the writeback value if any, and the unprivileged flag of `LDTR`/`STTR`. -/
inductive LdstAddr
  | undef
  | atomic
  | access (va : U64) (wb : Option U64) (unpriv : Bool)
  deriving DecidableEq, Repr

def ldstAddress (c : Cpu) (insn : U32) (v : Bool) (scale : ℕ) : LdstAddr :=
  let base := c.regXsp (bits insn 9 5)
  if bit insn 24 then .access (base + (zext (bits insn 21 10) <<< scale)) none false
  else if bit insn 21 then
    if bits insn 11 10 = 0 ∧ !v then .atomic
    else if bits insn 11 10 ≠ 2 then .undef
    else .access (base + ldstExtendedOffset c insn scale) none false
  else
    let imm9 := signExtend (zext (bits insn 20 12)) 9
    match bits insn 11 10 with
    | 0 => .access (base + imm9) none false
    | 2 => if v then .undef else .access (base + imm9) none (c.el = 1)
    | 1 => .access base (some (base + imm9)) false
    | _ => .access (base + imm9) (some (base + imm9)) false

def writeBack (s : Machine D) (rn : ℕ) : Option U64 → Machine D
  | none => s
  | some w => s.setXsp rn w

def ldstAccess (P : Platform D) (s : Machine D) (insn : U32) (va : U64) : Bool × Machine D :=
  let size := bits insn 31 30
  let opc := bits insn 23 22
  let rt := bits insn 4 0
  if bit insn 26 then
    let bytes := if 2 ≤ opc then 16 else 2 ^ size
    if opc % 2 = 1 then vregLoad P s rt va bytes else vregStore P s rt va bytes
  else if opc ≠ 0 then doLoad P s rt va size opc
  else memWrite P s va (2 ^ size) (s.cpu.regX rt)

def ldstRegister (P : Platform D) (s : Machine D) (insn : U32) : Machine D :=
  let size := bits insn 31 30
  let opc := bits insn 23 22
  let rn := bits insn 9 5
  let v := bit insn 26
  let q := v && decide (2 ≤ opc)
  if q ∧ size ≠ 0 then s.mapCpu undefined
  else if v ∧ s.cpu.fpTrapped then s.mapCpu cpuFpTrap
  else if !spAlignOk s.cpu rn then s.mapCpu spAlignFault
  else
    match ldstAddress s.cpu insn v (if q then 4 else size) with
    | .undef => s.mapCpu undefined
    | .atomic => ldstAtomic P s insn
    | .access va wb unpriv =>
      if !v ∧ opc = 3 ∧ 2 ≤ size then s.mapCpu undefined
      else
        let (ok, s) := ldstAccess P (s.setUnpriv unpriv) insn va
        let s := s.setUnpriv false
        if !ok then s else writeBack s rn wb

/-- The two accesses of an integer pair; `none` when one of them faults. -/
def pairLoad (P : Platform D) (s : Machine D) (addr : U64) (esz : ℕ) : Option (U64 × U64) × Machine D :=
  if esz = 8 then
    match memRead128 P s addr with
    | (none, s) => (none, s)
    | (some v, s) => (some (v.d0, v.d1), s)
  else
    match memRead P s addr esz with
    | (none, s) => (none, s)
    | (some a, s) =>
      match memRead P s (addr + zext esz) esz with
      | (none, s) => (none, s)
      | (some b, s) => (some (a, b), s)

def pairStore (P : Platform D) (s : Machine D) (addr : U64) (esz : ℕ) (a b : U64) : Bool × Machine D :=
  if esz = 8 then memWrite128 P s addr ⟨a, b⟩
  else
    match memWrite P s addr esz a with
    | (false, s) => (false, s)
    | (true, s) => memWrite P s (addr + zext esz) esz b

def ldstPair (P : Platform D) (s : Machine D) (insn : U32) : Machine D :=
  let opc := bits insn 31 30
  let v := bit insn 26
  let mode := bits insn 25 23
  let l := bit insn 22
  let imm7 := signExtend (zext (bits insn 21 15)) 7
  let rt2 := bits insn 14 10
  let rn := bits insn 9 5
  let rt := bits insn 4 0
  if opc = 3 then s.mapCpu undefined
  else
    let scale := if v then opc + 2 else if opc = 2 then 3 else 2
    let esz := 2 ^ scale
    let signedWord := !v && opc = 1
    let offset := imm7 <<< scale
    let base := s.cpu.regXsp rn
    if !spAlignOk s.cpu rn then s.mapCpu spAlignFault
    else if 3 < mode then s.mapCpu undefined
    else
      let addr := if mode = 1 then base else base + offset
      let wb := if mode = 1 ∨ mode = 3 then some (base + offset) else none
      if v then
        if s.cpu.fpTrapped then s.mapCpu cpuFpTrap
        else
          let one := if l then vregLoad P else vregStore P
          match one s rt addr esz with
          | (false, s) => s
          | (true, s) =>
            match one s rt2 (addr + zext esz) esz with
            | (false, s) => s
            | (true, s) => writeBack s rn wb
      else if l then
        match pairLoad P s addr esz with
        | (none, s) => s
        | (some (a, b), s) =>
          let ext (a : U64) := if esz = 8 then a else if signedWord then signExtend a 32 else lo32 a
          writeBack ((s.setX rt (ext a)).setX rt2 (ext b)) rn wb
      else
        match pairStore P s addr esz (s.cpu.regX rt) (s.cpu.regX rt2) with
        | (false, s) => s
        | (true, s) => writeBack s rn wb

def ldstLiteral (P : Platform D) (s : Machine D) (insn : U32) : Machine D :=
  let opc := bits insn 31 30
  let rt := bits insn 4 0
  let off := signExtend (zext (bits insn 23 5)) 19 <<< 2
  let va := s.cpu.curInsnPc + off
  let load (bytes : ℕ) (f : U64 → U64) : Machine D :=
    match memRead P s va bytes with
    | (none, s) => s
    | (some raw, s) => s.setX rt (f raw)
  if bit insn 26 then
    if opc = 3 then s.mapCpu undefined
    else if s.cpu.fpTrapped then s.mapCpu cpuFpTrap
    else (vregLoad P s rt va (4 * 2 ^ opc)).2
  else
    match opc with
    | 0 => load 4 lo32
    | 1 => load 8 id
    | 2 => load 4 (signExtend · 32)
    | _ => s

def setExcl (s : Machine D) (addr size : U64) : Machine D :=
  s.mapCpu fun c => { c with exclValid := 1, exclAddr := addr, exclSize := size }

def clearExcl (s : Machine D) : Machine D := s.mapCpu fun c => { c with exclValid := 0 }

def ldstExclusive (P : Platform D) (s : Machine D) (insn : U32) : Machine D :=
  let bytes := 2 ^ bits insn 31 30
  let o2 := bit insn 23
  let l := bit insn 22
  let o1 := bit insn 21
  let rs := bits insn 20 16
  let rt2 := bits insn 14 10
  let rn := bits insn 9 5
  let rt := bits insn 4 0
  let va := s.cpu.regXsp rn
  let held := decide (s.cpu.exclValid ≠ 0 ∧ s.cpu.exclAddr = va)
  if !spAlignOk s.cpu rn then s.mapCpu spAlignFault
  else if o2 ∧ o1 then ldstCas P s insn
  else if !o2 ∧ o1 ∧ !bit insn 31 then ldstCasp P s insn
  else if o2 then
    if l then
      match memRead P s va bytes with
      | (none, s) => s
      | (some v, s) => s.setX rt v
    else (memWrite P s va bytes (s.cpu.regX rt)).2
  else if !o1 then
    if l then
      match memRead P s va bytes with
      | (none, s) => s
      | (some v, s) => setExcl (s.setX rt v) va (zext bytes)
    else if held then
      match memWrite P s va bytes (s.cpu.regX rt) with
      | (false, s) => s
      | (true, s) => clearExcl (s.setX rs 0)
    else clearExcl (s.setX rs 1)
  else if l then
    match memRead P s va bytes with
    | (none, s) => s
    | (some a, s) =>
      match memRead P s (va + zext bytes) bytes with
      | (none, s) => s
      | (some b, s) => setExcl ((s.setX rt a).setX rt2 b) va (zext (bytes * 2))
  else if held then
    match memWrite P s va bytes (s.cpu.regX rt) with
    | (false, s) => s
    | (true, s) =>
      match memWrite P s (va + zext bytes) bytes (s.cpu.regX rt2) with
      | (false, s) => s
      | (true, s) => clearExcl (s.setX rs 0)
  else clearExcl (s.setX rs 1)

end Arm64Emu
