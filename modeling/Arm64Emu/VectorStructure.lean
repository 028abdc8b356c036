import Arm64Emu.LoadStore

/-! AdvSIMD structure loads and stores of `decode.c`. -/
namespace Arm64Emu

variable {D : Type}

/-- `ebytes` bytes at byte offset `off`; an element never crosses a doubleword. -/
def V128.lane (v : V128) (off ebytes : ℕ) : U64 :=
  ((if off < 8 then v.d0 else v.d1) >>> (8 * (off % 8))) &&& ones (8 * ebytes)

def setLane64 (w : U64) (off ebytes : ℕ) (t : U64) : U64 :=
  let m := ones (8 * ebytes) <<< (8 * off)
  (w &&& ~~~m) ||| ((t <<< (8 * off)) &&& m)

def V128.setLane (v : V128) (off ebytes : ℕ) (t : U64) : V128 :=
  if off < 8 then { v with d0 := setLane64 v.d0 off ebytes t }
  else { v with d1 := setLane64 v.d1 (off % 8) ebytes t }

/-- Whole registers `rt`, `rt + 1`, ... of `LD1`/`ST1`. -/
def multiContig (P : Platform D) (l q : Bool) :
    ℕ → Machine D → ℕ → U64 → Bool × Machine D
  | 0, s, _, _ => (true, s)
  | n + 1, s, r, addr =>
    let vt := r % 32
    let bytes := if q then 16 else 8
    match (if l then vregLoad P s vt addr bytes else vregStore P s vt addr bytes) with
    | (false, s) => (false, s)
    | (true, s) => multiContig P l q n s (r + 1) (addr + zext bytes)

/-- One element of each register, at byte offset `off`. -/
def multiElem (P : Platform D) (l : Bool) (off ebytes : ℕ) :
    ℕ → Machine D → ℕ → U64 → Bool × Machine D
  | 0, s, _, _ => (true, s)
  | n + 1, s, r, addr =>
    let vt := r % 32
    if l then
      match memRead P s addr ebytes with
      | (none, s) => (false, s)
      | (some t, s) =>
        multiElem P l off ebytes n (s.mapCpu fun c => c.setVreg vt ((c.vreg vt).setLane off ebytes t))
          (r + 1) (addr + zext ebytes)
    else
      match memWrite P s addr ebytes ((s.cpu.vreg vt).lane off ebytes) with
      | (false, s) => (false, s)
      | (true, s) => multiElem P l off ebytes n s (r + 1) (addr + zext ebytes)

def multiInterleaved (P : Platform D) (l : Bool) (ebytes nregs rt : ℕ) :
    ℕ → ℕ → Machine D → U64 → Bool × Machine D
  | 0, _, s, _ => (true, s)
  | n + 1, e, s, addr =>
    match multiElem P l (e * ebytes) ebytes nregs s rt addr with
    | (false, s) => (false, s)
    | (true, s) => multiInterleaved P l ebytes nregs rt n (e + 1) s (addr + zext (nregs * ebytes))

def zeroVregs (s : Machine D) (rt : ℕ) : ℕ → Machine D
  | 0 => s
  | n + 1 => zeroVregs (s.mapCpu (·.setVreg (rt % 32) ⟨0, 0⟩)) (rt + 1) n

def multiShape (opcode : ℕ) : Option (ℕ × ℕ) :=
  match opcode with
  | 0x0 => some (4, 4)
  | 0x2 => some (4, 1)
  | 0x4 => some (3, 3)
  | 0x6 => some (3, 1)
  | 0x7 => some (1, 1)
  | 0x8 => some (2, 2)
  | 0xa => some (2, 1)
  | _ => none

/-- Post-indexed writeback by the transfer size or by a register. -/
def vecPost (s : Machine D) (post : Bool) (rn rm : ℕ) (base : U64) (total : ℕ) : Machine D :=
  if post then s.setXsp rn (base + if rm = 31 then zext total else s.cpu.regX rm) else s

def ldstVectorMulti (P : Platform D) (s : Machine D) (insn : U32) : Machine D :=
  let q := bit insn 30
  let l := bit insn 22
  let rn := bits insn 9 5
  let rt := bits insn 4 0
  if s.cpu.fpTrapped then s.mapCpu cpuFpTrap
  else
    match multiShape (bits insn 15 12) with
    | none => s.mapCpu undefined
    | some (nregs, sel) =>
      let regbytes := if q then 16 else 8
      let base := s.cpu.regXsp rn
      if !spAlignOk s.cpu rn then s.mapCpu spAlignFault
      else
        let ebytes := 2 ^ bits insn 11 10
        let (ok, s) :=
          if sel = 1 then multiContig P l q nregs s rt base
          else
            multiInterleaved P l ebytes nregs rt (regbytes / ebytes) 0
              (if l then zeroVregs s rt nregs else s) base
        if !ok then s
        else vecPost s (bit insn 23) rn (bits insn 20 16) base (nregs * regbytes)

/-- Element size and lane of the single-structure forms; `none` when unallocated. -/
def singleShape (insn : U32) : Option (ℕ × ℕ × Bool) :=
  let q := bits insn 30 30
  let s := bits insn 12 12
  let size := bits insn 11 10
  match bits insn 15 13 / 2 with
  | 0 => some (1, q * 8 + s * 4 + size, false)
  | 1 => if size % 2 = 1 then none else some (2, q * 4 + s * 2 + size / 2, false)
  | 2 =>
    if 2 ≤ size then none
    else if size % 2 = 0 then some (4, q * 2 + s, false)
    else if s = 1 then none
    else some (8, q, false)
  | _ => if !bit insn 22 ∨ s = 1 then none else some (2 ^ size, 0, true)

def replicateLanes (elem : U64) (ebytes : ℕ) : ℕ → V128
  | 0 => ⟨0, 0⟩
  | n + 1 => (replicateLanes elem ebytes n).setLane (n * ebytes) ebytes elem

def singleRegs (P : Platform D) (l q rep : Bool) (index ebytes : ℕ) :
    ℕ → Machine D → ℕ → U64 → Bool × Machine D
  | 0, s, _, _ => (true, s)
  | n + 1, s, r, addr =>
    let vt := r % 32
    if rep ∨ l then
      match memRead P s addr ebytes with
      | (none, s) => (false, s)
      | (some elem, s) =>
        let s := s.mapCpu fun c => c.setVreg vt
          (if rep then replicateLanes elem ebytes ((if q then 16 else 8) / ebytes)
           else (c.vreg vt).setLane (index * ebytes) ebytes elem)
        singleRegs P l q rep index ebytes n s (r + 1) (addr + zext ebytes)
    else
      match memWrite P s addr ebytes ((s.cpu.vreg vt).lane (index * ebytes) ebytes) with
      | (false, s) => (false, s)
      | (true, s) => singleRegs P l q rep index ebytes n s (r + 1) (addr + zext ebytes)

def ldstVectorSingle (P : Platform D) (s : Machine D) (insn : U32) : Machine D :=
  let rn := bits insn 9 5
  let selem := bits insn 13 13 * 2 + bits insn 21 21 + 1
  if s.cpu.fpTrapped then s.mapCpu cpuFpTrap
  else
    match singleShape insn with
    | none => s.mapCpu undefined
    | some (ebytes, index, rep) =>
      let base := s.cpu.regXsp rn
      if !spAlignOk s.cpu rn then s.mapCpu spAlignFault
      else
        match singleRegs P (bit insn 22) (bit insn 30) rep index ebytes selem s (bits insn 4 0) base with
        | (false, s) => s
        | (true, s) => vecPost s (bit insn 23) rn (bits insn 20 16) base (selem * ebytes)

end Arm64Emu
