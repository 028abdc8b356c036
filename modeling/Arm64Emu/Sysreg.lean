import Arm64Emu.LoadStore

/-! System registers and system instructions (`sysreg.c`), with the generic-timer
counter of `timer.c` and the PSCI conduit of `psci.c`. -/
namespace Arm64Emu

variable {D : Type}

/-- The generic-timer count, from the host clock or from retired instructions. -/
def gtCount (P : Platform D) (s : Machine D) (virt : Bool) : U64 × Machine D :=
  let view (ticks : U64) := if virt then ticks - s.cpu.cntvoff else ticks
  if P.rtclock then
    let (now, dev) := P.hostNs s.bus.dev
    let base := if s.cpu.cntpctBase = 0 then now else s.cpu.cntpctBase
    let d : BitVec 128 := (now - base).setWidth 128 * s.cpu.cntfrq.setWidth 128
    (view ((d / 1000000000).setWidth 64),
      ⟨{ s.cpu with cntpctBase := base }, { s.bus with dev := dev }⟩)
  else (view (s.cpu.icount + s.cpu.timerSkip), s)

def timerFires (ctl count cval : U64) : Bool :=
  ctl.getLsbD 0 && !ctl.getLsbD 1 && decide (cval ≤ count)

def timerDeadline (c : Cpu) : U64 :=
  let best : U64 := if c.cntpCtl.getLsbD 0 && !c.cntpCtl.getLsbD 1 then c.cntpCval else ~~~0
  if c.cntvCtl.getLsbD 0 && !c.cntvCtl.getLsbD 1 then
    let d := c.cntvCval + c.cntvoff
    if d < best then d else best
  else best

def timerUpdate (P : Platform D) (s : Machine D) : Machine D :=
  let (pc, s) := gtCount P s false
  let (vc, s) := gtCount P s true
  let pf := timerFires s.cpu.cntpCtl pc s.cpu.cntpCval
  let vf := timerFires s.cpu.cntvCtl vc s.cpu.cntvCval
  { s with bus := P.timerLines s.bus pf vf (timerDeadline s.cpu) }

def fpsrSync (c : Cpu) : Cpu := { c with fpsr := c.fpsr ||| c.fpexc, fpexc := 0 }

/-- `KEY(op0, op1, CRn, CRm, op2)`. -/
def sysKey (op0 op1 crn crm op2 : ℕ) : ℕ := op0 * 65536 + op1 * 8192 + crn * 512 + crm * 32 + op2

def msrImmediate (c : Cpu) (insn : U32) : Cpu :=
  let op1 := bits insn 18 16
  let op2 := bits insn 7 5
  let crm := bits insn 11 8
  let zf := decide (c.nzcv &&& psZ ≠ 0)
  let cf := decide (c.nzcv &&& psC ≠ 0)
  let vf := decide (c.nzcv &&& psV ≠ 0)
  if op1 = 0 ∧ op2 = 5 then { c with spSel := crm % 2 = 1 }
  else if op1 = 0 ∧ crm = 0 ∧ op2 = 0 then c.setNzcv (c.nzcv ^^^ psC)
  else if op1 = 0 ∧ crm = 0 ∧ op2 = 1 then
    c.setNzcv (flagWord (!cf && !zf) (zf && cf) (cf || zf) (!cf && zf))
  else if op1 = 0 ∧ crm = 0 ∧ op2 = 2 then c.setNzcv (flagWord false (zf || vf) (cf && !vf) false)
  else if op1 = 3 ∧ op2 = 6 then { c with daif := c.daif ||| (BitVec.ofNat 32 crm <<< 6) }
  else if op1 = 3 ∧ op2 = 7 then { c with daif := c.daif &&& ~~~(BitVec.ofNat 32 crm <<< 6) }
  else c

/-- The eight doubleword stores of `DC ZVA`, from offset `i`. -/
def dcZvaLoop (P : Platform D) (base : U64) : ℕ → ℕ → Machine D → Machine D
  | 0, _, s => s
  | n + 1, i, s =>
    match memWrite P s (base + zext i) 8 0 with
    | (false, s) => s
    | (true, s) => dcZvaLoop P base n (i + 8) s

def dcZva (P : Platform D) (s : Machine D) (base : U64) : Machine D :=
  let de := s.bus.dtlb (tlbIdx base)
  if de.tag = dtlbTag s.cpu s.bus base ∧ de.w then
    let p := de.page + pageOff base
    { s with bus := { s.bus with ram := fun i => if p ≤ i ∧ i < p + 64 then 0 else s.bus.ram i } }
  else dcZvaLoop P base 8 0 s

def sysOp (P : Platform D) (s : Machine D) (op1 crn crm op2 rt : ℕ) : Machine D :=
  if crn = 8 then
    if op1 = 0 ∧ (crm = 3 ∨ crm = 7) ∧ op2 % 2 = 1 then
      let va := (s.cpu.regX rt &&& 0xFFFFFFFFFFF) <<< 12
      let va := if va.getLsbD 55 then va ||| 0xFF00000000000000 else va
      { s with bus := tlbFlushPage s.bus va }
    else { s with bus := tlbFlushAll s.bus }
  else if crn = 7 then
    if crm = 8 ∧ op1 = 0 ∧ op2 ≤ 3 then
      let (par, s) := mmuAtS1 P s (s.cpu.regX rt) (op2 % 2 = 1) (2 ≤ op2)
      s.mapCpu fun c => { c with parEl1 := par }
    else if crm = 4 ∧ op2 = 1 then dcZva P s (s.cpu.regX rt &&& ~~~63)
    else s
  else s

/-- `(u64)(s32)v`. -/
def sext32 (v : U64) : U64 := (v.setWidth 32).signExtend 64

def timerCtl (ctl count cval : U64) : U64 :=
  (ctl &&& 3) ||| (if ctl.getLsbD 0 ∧ cval ≤ count then 4 else 0)

/-- The registers whose read needs nothing but the processor state. -/
def mrsValue (c : Cpu) (key : ℕ) : U64 :=
  if key = sysKey 3 0 0 0 0 then 0x411fd070
  else if key = sysKey 3 0 0 0 5 then c.mpidr
  else if key = sysKey 3 3 0 0 1 then 0x8444c004
  else if key = sysKey 3 3 0 0 7 then 4
  else if key = sysKey 3 0 0 4 0 then 0x110022
  else if key = sysKey 3 0 0 5 0 then 0x10305106
  else if key = sysKey 3 0 0 6 0 then 0x21100110212120
  else if key = sysKey 3 0 0 6 1 then 0x211000
  else if key = sysKey 3 0 0 6 2 then 0x10000
  else if key = sysKey 3 0 0 7 0 then 0x0F001124
  else if key = sysKey 3 0 1 0 0 then c.sctlr 1
  else if key = sysKey 3 0 1 0 2 then c.cpacrEl1
  else if key = sysKey 3 0 2 0 0 then c.ttbr0 1
  else if key = sysKey 3 0 2 0 1 then c.ttbr1 1
  else if key = sysKey 3 0 2 0 2 then c.tcr 1
  else if key = sysKey 3 0 10 2 0 then c.mair 1
  else if key = sysKey 3 0 10 3 0 then c.amair 1
  else if key = sysKey 3 0 12 0 0 then c.vbar 1
  else if key = sysKey 3 0 5 2 0 then c.esr 1
  else if key = sysKey 3 0 6 0 0 then c.far 1
  else if key = sysKey 3 0 7 4 0 then c.parEl1
  else if key = sysKey 3 0 13 0 1 then c.contextidrEl1
  else if key = sysKey 3 0 13 0 4 then c.tpidr 1
  else if key = sysKey 3 3 13 0 2 then c.tpidr 0
  else if key = sysKey 3 3 13 0 3 then c.tpidrroEl0
  else if key = sysKey 2 0 0 2 2 then c.mdscrEl1
  else if key = sysKey 3 0 4 2 2 then zext c.el <<< 2
  else if key = sysKey 3 0 4 2 0 then zext c.spSel.toNat
  else if key = sysKey 3 3 4 2 0 then (c.nzcv &&& 0xf0000000).setWidth 64
  else if key = sysKey 3 3 4 2 1 then (c.daif &&& (psD ||| psA ||| psI ||| psF)).setWidth 64
  else if key = sysKey 3 3 4 4 0 then c.fpcr.setWidth 64
  else if key = sysKey 3 3 4 4 1 then c.fpsr.setWidth 64
  else if key = sysKey 3 0 4 0 0 then c.spsr 1
  else if key = sysKey 3 0 4 0 1 then c.elr 1
  else if key = sysKey 3 0 4 1 0 then c.spEl 0
  else if key = sysKey 3 3 14 0 0 then c.cntfrq
  else if key = sysKey 3 3 14 2 2 then c.cntpCval
  else if key = sysKey 3 3 14 3 2 then c.cntvCval
  else if key = sysKey 3 0 14 1 0 then c.cntkctlEl1
  else 0

def isFpReg (key : ℕ) : Bool := key = sysKey 3 3 4 4 0 || key = sysKey 3 3 4 4 1

def doMrs (P : Platform D) (s : Machine D) (key rt : ℕ) : Machine D :=
  let count (virt : Bool) (f : Cpu → U64 → U64) : Machine D :=
    let (n, s) := gtCount P s virt
    s.setX rt (f s.cpu n)
  if isFpReg key ∧ s.cpu.fpTrapped then s.mapCpu cpuFpTrap
  else if key = sysKey 3 3 4 4 1 then
    let s := s.mapCpu fpsrSync
    s.setX rt (mrsValue s.cpu key)
  else if key = sysKey 3 3 14 0 1 then count false fun _ n => n
  else if key = sysKey 3 3 14 0 2 then count true fun _ n => n
  else if key = sysKey 3 3 14 2 0 then count false fun c n => sext32 (c.cntpCval - n)
  else if key = sysKey 3 3 14 2 1 then
    if s.cpu.cntpCtl.getLsbD 0 then count false fun c n => timerCtl c.cntpCtl n c.cntpCval
    else s.setX rt (s.cpu.cntpCtl &&& 3)
  else if key = sysKey 3 3 14 3 0 then count true fun c n => sext32 (c.cntvCval - n)
  else if key = sysKey 3 3 14 3 1 then
    if s.cpu.cntvCtl.getLsbD 0 then count true fun c n => timerCtl c.cntvCtl n c.cntvCval
    else s.setX rt (s.cpu.cntvCtl &&& 3)
  else s.setX rt (mrsValue s.cpu key)

def set1 (f : Fin 4 → U64) (v : U64) : Fin 4 → U64 := Function.update f 1 v

/-- The register writes that touch nothing but the processor state. -/
def msrCpu (c : Cpu) (key : ℕ) (v : U64) : Cpu :=
  if key = sysKey 3 0 1 0 0 then { c with sctlr := set1 c.sctlr v }
  else if key = sysKey 3 0 1 0 2 then Cpu.refreshFpTrap { c with cpacrEl1 := v }
  else if key = sysKey 3 0 2 0 0 then { c with ttbr0 := set1 c.ttbr0 v }
  else if key = sysKey 3 0 2 0 1 then { c with ttbr1 := set1 c.ttbr1 v }
  else if key = sysKey 3 0 2 0 2 then { c with tcr := set1 c.tcr v }
  else if key = sysKey 3 0 10 2 0 then { c with mair := set1 c.mair v }
  else if key = sysKey 3 0 10 3 0 then { c with amair := set1 c.amair v }
  else if key = sysKey 3 0 12 0 0 then { c with vbar := set1 c.vbar v }
  else if key = sysKey 3 0 5 2 0 then { c with esr := set1 c.esr v }
  else if key = sysKey 3 0 6 0 0 then { c with far := set1 c.far v }
  else if key = sysKey 3 0 7 4 0 then { c with parEl1 := v }
  else if key = sysKey 3 0 13 0 1 then { c with contextidrEl1 := v }
  else if key = sysKey 3 0 13 0 4 then { c with tpidr := set1 c.tpidr v }
  else if key = sysKey 3 3 13 0 2 then { c with tpidr := Function.update c.tpidr 0 v }
  else if key = sysKey 3 3 13 0 3 then { c with tpidrroEl0 := v }
  else if key = sysKey 2 0 0 2 2 then { c with mdscrEl1 := v }
  else if key = sysKey 3 0 4 2 0 then { c with spSel := v.getLsbD 0 }
  else if key = sysKey 3 3 4 2 0 then { c with nzcv := (v &&& 0xf0000000).setWidth 32 }
  else if key = sysKey 3 3 4 2 1 then
    { c with daif := v.setWidth 32 &&& (psD ||| psA ||| psI ||| psF) }
  else if key = sysKey 3 3 4 4 0 then { c with fpcr := v.setWidth 32 }
  else if key = sysKey 3 3 4 4 1 then { fpsrSync c with fpsr := v.setWidth 32 }
  else if key = sysKey 3 0 4 0 0 then { c with spsr := set1 c.spsr v }
  else if key = sysKey 3 0 4 0 1 then { c with elr := set1 c.elr v }
  else if key = sysKey 3 0 4 1 0 then { c with spEl := Function.update c.spEl 0 v }
  else if key = sysKey 3 3 14 0 0 then { c with cntfrq := v }
  else if key = sysKey 3 3 14 2 1 then { c with cntpCtl := v }
  else if key = sysKey 3 3 14 2 2 then { c with cntpCval := v }
  else if key = sysKey 3 3 14 3 1 then { c with cntvCtl := v }
  else if key = sysKey 3 3 14 3 2 then { c with cntvCval := v }
  else if key = sysKey 3 0 14 1 0 then { c with cntkctlEl1 := v }
  else c

/-- `SCTLR_EL1`, `TTBR0_EL1`, `TTBR1_EL1` and `TCR_EL1` writes flush the TLBs. -/
def msrFlushes (key : ℕ) : Bool :=
  key = sysKey 3 0 1 0 0 || key = sysKey 3 0 2 0 0 || key = sysKey 3 0 2 0 1 || key = sysKey 3 0 2 0 2

def doMsr (P : Platform D) (s : Machine D) (key rt : ℕ) : Machine D :=
  let v := s.cpu.regX rt
  if isFpReg key ∧ s.cpu.fpTrapped then s.mapCpu cpuFpTrap
  else
    let s :=
      if key = sysKey 3 3 14 2 0 then
        let (n, s) := gtCount P s false
        s.mapCpu fun c => { c with cntpCval := n + sext32 v }
      else if key = sysKey 3 3 14 3 0 then
        let (n, s) := gtCount P s true
        s.mapCpu fun c => { c with cntvCval := n + sext32 v }
      else s.mapCpu (msrCpu · key v)
    let s := if msrFlushes key then { s with bus := tlbFlushAll s.bus } else s
    if key / 512 % 16 = 14 then timerUpdate P s else s

def sysregExec (P : Platform D) (s : Machine D) (insn : U32) : Machine D :=
  let l := bit insn 21
  let op0 := bits insn 20 19
  let op1 := bits insn 18 16
  let crn := bits insn 15 12
  let crm := bits insn 11 8
  let op2 := bits insn 7 5
  let rt := bits insn 4 0
  if op0 = 0 then s.mapCpu (msrImmediate · insn)
  else if op0 = 1 then
    if !l then sysOp P s op1 crn crm op2 rt else s.setX rt 0
  else if l then doMrs P s (sysKey op0 op1 crn crm op2) rt
  else doMsr P s (sysKey op0 op1 crn crm op2) rt

def psciFeature (q : U32) : Bool :=
  q = 0xc4000003 || q = 0x84000008 || q = 0x84000009 || q = 0x84000000 || q = 0xc4000001
    || q = 0xc4000004

/-- The PSCI firmware call behind `HVC` and `SMC`; every function is handled. -/
def smcccConduit (c : Cpu) : Cpu :=
  let fn : U32 := (c.gpr 0).setWidth 32
  let notSupported : U64 := ~~~0
  if fn = 0x84000000 then c.setGpr 0 0x00010000
  else if fn = 0x8400000a then
    c.setGpr 0 (if psciFeature ((c.gpr 1).setWidth 32) then 0 else notSupported)
  else if fn = 0xc4000001 then { c with halted := true }.setGpr 0 0
  else if fn = 0xc4000004 then c.setGpr 0 (if c.gpr 1 = 0 then 0 else 1)
  else if fn = 0x84000006 then c.setGpr 0 2
  else if fn = 0x84000008 then { c with stop := true }
  else if fn = 0x84000009 then { c with reset := true, stop := true }
  else c.setGpr 0 notSupported

def sysregInit (c : Cpu) : Cpu :=
  { Cpu.refreshFpTrap { c with
      sctlr := Function.update c.sctlr 1 0x00C50838
      cpacrEl1 := 0x300000 } with
    mdscrEl1 := 0
    fpexc := 0
    fpsr := 0 }

def cpuReset (entry : U64) (resetEl : Fin 4) : Cpu :=
  let z : Fin 4 → U64 := fun _ => 0
  sysregInit
    { x := fun _ => 0, pc := entry, nzcv := 0, daif := psD ||| psA ||| psI ||| psF, el := resetEl,
      spSel := true, spEl := z, v := fun _ => ⟨0, 0⟩, fpcr := 0, fpsr := 0, fpexc := 0,
      fpTrapped := false, ldstUnpriv := false, sctlr := z, ttbr0 := z, ttbr1 := z, tcr := z,
      mair := z, amair := z, vbar := z, esr := z, far := z, elr := z, spsr := z, tpidr := z,
      tpidrroEl0 := 0, contextidrEl1 := 0, cpacrEl1 := 0, mdscrEl1 := 0, parEl1 := 0,
      mpidr := 0x80000000, cntfrq := 24000000, cntpCtl := 0, cntpCval := 0, cntvCtl := 0,
      cntvCval := 0, cntkctlEl1 := 0, cntvoff := 0, cntpctBase := 0, timerSkip := 0,
      exclValid := 0, exclAddr := 0, exclSize := 0, halted := false, event := false, stop := false,
      reset := false, icount := 0, curInsnPc := 0 }

end Arm64Emu
