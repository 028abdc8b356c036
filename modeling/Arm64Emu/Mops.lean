import Arm64Emu.LoadStore

/-! Memory copy and set instructions of `decode.c`. A loop carries as fuel the
number of bytes it still has to move, and every completed step moves at least one. -/
namespace Arm64Emu

variable {D : Type}

def mopsPageLimit (addr : U64) : U64 := ((addr + 0x1000) &&& ~~~0xfff) - addr

def mopsPageLimitRev (addr : U64) : U64 := (addr &&& 0xfff) + 1

def minU (a b : U64) : U64 := if b < a then b else a

def mopsIss (insn : U32) (wrongOption : Bool) : U64 :=
  let isSet := decide (bits insn 23 22 = 3)
  let options := if isSet then bits insn 13 12 else bits insn 15 12
  let epilogue := if isSet then decide (bits insn 15 14 = 2) else decide (bits insn 23 22 = 2)
  (zext isSet.toNat <<< 24) ||| (zext options <<< 19) ||| (zext epilogue.toNat <<< 18)
    ||| (zext wrongOption.toNat <<< 17) ||| ((1 : U64) <<< 16) ||| (zext (bits insn 4 0) <<< 10)
    ||| (zext (bits insn 20 16) <<< 5) ||| zext (bits insn 9 5)

def mopsMismatch (s : Machine D) (insn : U32) (wrongOption : Bool) : Machine D :=
  s.mapCpu fun c => cpuRaiseSync c (esrMake .mop (mopsIss insn wrongOption)) 0

/-- `memset` in host memory. -/
def fillBytes (m : ℕ → U8) (p n : ℕ) (data : U8) : ℕ → U8 := fun i =>
  if p ≤ i ∧ i < p + n then data else m i

/-- `memmove` in host memory. -/
def moveBytes (m : ℕ → U8) (dst src n : ℕ) : ℕ → U8 := fun i =>
  if dst ≤ i ∧ i < dst + n then m (src + (i - dst)) else m i

def mopsSetStep (P : Platform D) (s : Machine D) (toaddr setsize : U64) (data : U8) (unpriv : Bool) :
    U64 × Machine D :=
  let n := minU (mopsPageLimit toaddr) setsize
  let s := s.setUnpriv unpriv
  let e := s.bus.dtlb (tlbIdx toaddr)
  if e.tag = dtlbTag s.cpu s.bus toaddr ∧ e.w then
    let ram := fillBytes s.bus.ram (e.page + pageOff toaddr) n.toNat data
    (n, ({ s with bus := { s.bus with ram := ram } }).setUnpriv false)
  else
    let (ok, s) := memWrite P s toaddr 1 (data.setWidth 64)
    (if ok then 1 else 0, s.setUnpriv false)

def mopsCopyStep (P : Platform D) (s : Machine D) (toaddr fromaddr copysize : U64)
    (wunpriv runpriv rev : Bool) : U64 × Machine D :=
  let limit := if rev then mopsPageLimitRev else mopsPageLimit
  let n := minU (minU (limit toaddr) (limit fromaddr)) copysize
  let s := s.setUnpriv wunpriv
  let we := s.bus.dtlb (tlbIdx toaddr)
  let whit := decide (we.tag = dtlbTag s.cpu s.bus toaddr) && we.w
  let s := s.setUnpriv runpriv
  let re := s.bus.dtlb (tlbIdx fromaddr)
  let rhit := decide (re.tag = dtlbTag s.cpu s.bus fromaddr) && re.r
  if whit && rhit then
    let back := if rev then n.toNat - 1 else 0
    let ram := moveBytes s.bus.ram (we.page + pageOff toaddr - back)
      (re.page + pageOff fromaddr - back) n.toNat
    (n, ({ s with bus := { s.bus with ram := ram } }).setUnpriv false)
  else
    match memRead P s fromaddr 1 with
    | (none, s) => (0, s.setUnpriv false)
    | (some byte, s) =>
      let (ok, s) := memWrite P (s.setUnpriv wunpriv) toaddr 1 byte
      (if ok then 1 else 0, s.setUnpriv false)

/-- The prologue loop of `SETP`; the registers keep the input format meanwhile. -/
def setpLoop (P : Platform D) (rd rn : ℕ) (data : U8) (unpriv : Bool) :
    ℕ → Machine D → U64 → U64 → U64 → Option (U64 × U64) × Machine D
  | 0, s, toaddr, setsize, _ => (some (toaddr, setsize), s)
  | fuel + 1, s, toaddr, setsize, stage =>
    if stage = 0 then (some (toaddr, setsize), s)
    else
      let s := (s.setX rd toaddr).setX rn setsize
      let (step, s) := mopsSetStep P s toaddr stage data unpriv
      if step = 0 then (none, s)
      else setpLoop P rd rn data unpriv fuel s (toaddr + step) (setsize - step) (stage - step)

def setmLoop (P : Platform D) (rn : ℕ) (data : U8) (unpriv : Bool) :
    ℕ → Machine D → U64 → U64 → U64 → Machine D
  | 0, s, _, _, _ => s
  | fuel + 1, s, toaddr, setsize, stage =>
    if stage = 0 then s
    else
      let (step, s) := mopsSetStep P s toaddr setsize data unpriv
      if step = 0 then s
      else
        let stage := if stage ≤ step then 0 else stage - step
        setmLoop P rn data unpriv fuel (s.setX rn (0 - (setsize - step))) (toaddr + step)
          (setsize - step) stage

def mopsSet (P : Platform D) (s : Machine D) (insn : U32) (stage : ℕ) : Machine D :=
  let rd := bits insn 4 0
  let rn := bits insn 9 5
  let unpriv := bit insn 12 && s.cpu.el = 1
  let data : U8 := (s.cpu.regX (bits insn 20 16)).setWidth 8
  if stage = 0 then
    let toaddr := s.cpu.regX rd
    let setsize := minU (s.cpu.regX rn) 0x7fffffffffffffff
    let stagesize := minU (mopsPageLimit toaddr) setsize
    match setpLoop P rd rn data unpriv stagesize.toNat s toaddr setsize stagesize with
    | (none, s) => s
    | (some (toaddr, setsize), s) =>
      ((s.setX rd (toaddr + setsize)).setX rn (0 - setsize)).mapCpu (·.setNzcv 0)
  else
    let xn := s.cpu.regX rn
    if xn = 0 then s
    else if s.cpu.nzcv &&& psC ≠ 0 then mopsMismatch s insn true
    else
      let toaddr := s.cpu.regX rd + xn
      let setsize := 0 - xn
      if stage = 2 ∧ 0x1000 ≤ setsize then mopsMismatch s insn false
      else
        let stagesize := if stage = 1 then setsize &&& ~~~0xfff else setsize
        setmLoop P rn data unpriv stagesize.toNat s toaddr setsize stagesize

def cpypFwdLoop (P : Platform D) (rd rs rn : ℕ) (wunpriv runpriv : Bool) :
    ℕ → Machine D → U64 → U64 → U64 → U64 → Option (U64 × U64 × U64) × Machine D
  | 0, s, toaddr, fromaddr, copysize, _ => (some (toaddr, fromaddr, copysize), s)
  | fuel + 1, s, toaddr, fromaddr, copysize, stage =>
    if stage = 0 then (some (toaddr, fromaddr, copysize), s)
    else
      let s := ((s.setX rd toaddr).setX rs fromaddr).setX rn copysize
      let (step, s) := mopsCopyStep P s toaddr fromaddr stage wunpriv runpriv false
      if step = 0 then (none, s)
      else cpypFwdLoop P rd rs rn wunpriv runpriv fuel s (toaddr + step) (fromaddr + step)
        (copysize - step) (stage - step)

def cpypRevLoop (P : Platform D) (rn : ℕ) (wunpriv runpriv : Bool) :
    ℕ → Machine D → U64 → U64 → U64 → U64 → Option U64 × Machine D
  | 0, s, _, _, copysize, _ => (some copysize, s)
  | fuel + 1, s, t, f, copysize, stage =>
    if stage = 0 then (some copysize, s)
    else
      let s := s.setX rn copysize
      let (step, s) := mopsCopyStep P s t f stage wunpriv runpriv true
      if step = 0 then (none, s)
      else cpypRevLoop P rn wunpriv runpriv fuel s (t - step) (f - step) (copysize - step) (stage - step)

def cpypPlan (move : Bool) (toaddr fromaddr copysize : U64) : Bool × U64 :=
  if move then
    let copysize := minU copysize 0x007fffffffffffff
    let fs := fromaddr &&& 0xffffffffffffff
    let ts := toaddr &&& 0xffffffffffffff
    let fe := (fromaddr + copysize) &&& 0xffffffffffffff
    (!(decide (fs < ts) && decide (ts < fe)), copysize)
  else (true, minU copysize 0x7fffffffffffffff)

/-- The main and epilogue loop: whole pages for `M`, everything for `E`. -/
def cpymLoop (P : Platform D) (rn stage : ℕ) (fwd wunpriv runpriv : Bool) :
    ℕ → Machine D → U64 → U64 → U64 → Machine D
  | 0, s, _, _, _ => s
  | fuel + 1, s, toaddr, fromaddr, copysize =>
    if (if stage = 1 then 0x1000 ≤ copysize else 0 < copysize) then
      let (step, s) := mopsCopyStep P s toaddr fromaddr copysize wunpriv runpriv (!fwd)
      if step = 0 then s
      else
        let move (a : U64) := if fwd then a + step else a - step
        let copysize := copysize - step
        cpymLoop P rn stage fwd wunpriv runpriv fuel
          (s.setX rn (if fwd then 0 - copysize else copysize)) (move toaddr) (move fromaddr) copysize
    else s

def mopsCpy (P : Platform D) (s : Machine D) (insn : U32) (stage : ℕ) (move : Bool) : Machine D :=
  let rd := bits insn 4 0
  let rn := bits insn 9 5
  let rs := bits insn 20 16
  let wunpriv := bit insn 12 && s.cpu.el = 1
  let runpriv := bit insn 13 && s.cpu.el = 1
  if stage = 0 then
    let toaddr := s.cpu.regX rd
    let fromaddr := s.cpu.regX rs
    let (fwd, copysize) := cpypPlan move toaddr fromaddr (s.cpu.regX rn)
    if fwd then
      let n := minU (minU (mopsPageLimit toaddr) (mopsPageLimit fromaddr)) copysize
      match cpypFwdLoop P rd rs rn wunpriv runpriv n.toNat s toaddr fromaddr copysize n with
      | (none, s) => s
      | (some (toaddr, fromaddr, copysize), s) =>
        (((s.setX rd (toaddr + copysize)).setX rs (fromaddr + copysize)).setX rn (0 - copysize)).mapCpu
          (·.setNzcv 0)
    else
      let t := toaddr + copysize - 1
      let f := fromaddr + copysize - 1
      let n := minU (minU (mopsPageLimitRev t) (mopsPageLimitRev f)) copysize
      match cpypRevLoop P rn wunpriv runpriv n.toNat s t f copysize n with
      | (none, s) => s
      | (some copysize, s) => (s.setX rn copysize).mapCpu (·.setNzcv 0)
  else
    let xn := s.cpu.regX rn
    if xn = 0 then s
    else if s.cpu.nzcv &&& psC ≠ 0 then mopsMismatch s insn true
    else
      let fwd := !move || xn.getLsbD 63
      let copysize := if fwd then 0 - xn else xn
      let toaddr := if fwd then s.cpu.regX rd + xn else s.cpu.regX rd + copysize - 1
      let fromaddr := if fwd then s.cpu.regX rs + xn else s.cpu.regX rs + copysize - 1
      if stage = 2 ∧ 0x1000 ≤ copysize then mopsMismatch s insn false
      else cpymLoop P rn stage fwd wunpriv runpriv copysize.toNat s toaddr fromaddr copysize

def mops (P : Platform D) (s : Machine D) (insn : U32) : Machine D :=
  let op1 := bits insn 23 22
  let rd := bits insn 4 0
  let rn := bits insn 9 5
  let rs := bits insn 20 16
  let enabled := !(decide (s.cpu.el = 0) && !(s.cpu.sctlr 1).getLsbD 33)
  if bits insn 31 30 ≠ 0 then s.mapCpu undefined
  else if op1 = 3 then
    let stage := bits insn 15 14
    if bit insn 26 ∨ stage = 3 ∨ rs = rn ∨ rs = rd ∨ rn = rd ∨ rd = 31 ∨ rn = 31 then
      s.mapCpu undefined
    else if !enabled then s.mapCpu undefined
    else mopsSet P s insn stage
  else if rs = rn ∨ rs = rd ∨ rn = rd ∨ rd = 31 ∨ rs = 31 ∨ rn = 31 then s.mapCpu undefined
  else if !enabled then s.mapCpu undefined
  else mopsCpy P s insn op1 (bit insn 26)

end Arm64Emu
