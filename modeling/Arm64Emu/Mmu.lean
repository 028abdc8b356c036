import Arm64Emu.Bus

/-! Stage-1 address translation and typed guest memory accesses (`mmu.c`).
The watchpoint hooks are off: they disable the fast engines. -/
namespace Arm64Emu

structure Machine (D : Type) where
  cpu : Cpu
  bus : Bus D

inductive AccType
  | read | write | exec
  deriving DecidableEq, Repr

def fscTransL0 : ℕ := 0x04
def fscTransL3 : ℕ := 0x07
def fscAccessL0 : ℕ := 0x08
def fscPermL3 : ℕ := 0x0F
def fscExternal : ℕ := 0x10

variable {D : Type}

def tlbIdx (va : U64) : BitVec 12 := va.extractLsb' 12 12

def pageOf (va : U64) : U64 := va &&& ~~~0xfff

def vaNotag (va : U64) : U64 := va &&& 0x00FFFFFFFFFFFFFF

def lpCover (a b : U64) : ℕ → U64 → U64
  | 0, m => m
  | fuel + 1, m => if a &&& m ≠ b &&& m then lpCover a b fuel (m <<< 1) else m

/-- Grow the recorded range of block-mapped translations to cover `va`'s block.
The mask is empty after at most 64 shifts. -/
def lpRecord (b : Bus D) (va : U64) (blkShift : ℕ) : Bus D :=
  let bmask := ~~~(((1 : U64) <<< blkShift) - 1) &&& 0x00FFFFFFFFFFFFFF
  let bbase := vaNotag va &&& bmask
  if b.lpBase = ~~~0 then { b with lpBase := bbase, lpMask := bmask }
  else
    let m := lpCover b.lpBase bbase 64 (b.lpMask &&& bmask)
    { b with lpMask := m, lpBase := b.lpBase &&& m }

def emptyDtlbEnt : DtlbEnt := ⟨0, 0, false, false⟩

def emptyTlbEntry : TlbEntry := ⟨0, 0, 0, false, 0, false, false, false⟩

def clearFetch (b : Bus D) : Bus D :=
  { b with fcache := fun i => { b.fcache i with host := none } }

/-- Empty translation caches over the given memory contents and device state. -/
def Bus.powerOn (ram flash : ℕ → U8) (dev : D) : Bus D where
  ram := ram
  flash := flash
  flashCfi := fun _ => ⟨.array, .none, 0x80, 0, 0, 0⟩
  dev := dev
  irqLine := false
  fiqLine := false
  lastBusStatus := .ok
  tlb := fun _ => emptyTlbEntry
  dtlb := fun _ => emptyDtlbEnt
  fcache := fun _ => ⟨0, 0, none, false⟩
  tlbGen := 1
  tlbiVaSeq := 0
  lpBase := ~~~0
  lpMask := ~~~0

def tlbFlushAll (b : Bus D) : Bus D :=
  let gen := b.tlbGen + 1
  let b := { b with tlbGen := gen }
  let b := if gen &&& 0x3ff = 0 then
      let b := { b with dtlb := fun _ => emptyDtlbEnt }
      if gen = 0 then { b with tlb := fun _ => emptyTlbEntry, tlbGen := 1 } else b
    else b
  clearFetch { b with lpBase := ~~~0, lpMask := ~~~0 }

def tlbFlushPage (b : Bus D) (va : U64) : Bus D :=
  if vaNotag va &&& b.lpMask = b.lpBase then tlbFlushAll b
  else
    let b := { b with
      tlb := Function.update b.tlb (tlbIdx va) { b.tlb (tlbIdx va) with valid := false }
      dtlb := Function.update b.dtlb (tlbIdx va) emptyDtlbEnt }
    { clearFetch b with tlbiVaSeq := b.tlbiVaSeq + 1 }

def issDabort (write : Bool) (dfsc : ℕ) : U64 :=
  (zext dfsc &&& 0x3f) ||| (if write then (1 : U64) <<< 6 else 0)

def raiseAbort (c : Cpu) (va : U64) (acc : AccType) (fsc : ℕ) : Cpu :=
  let same := decide (1 ≤ c.el)
  match acc with
  | .exec => cpuRaiseSync c (esrMake (if same then .iabortSame else .iabortLower) (zext fsc &&& 0x3f)) va
  | _ => cpuRaiseSync c (esrMake (if same then .dabortSame else .dabortLower)
      (issDabort (acc = .write) fsc)) va

def permOkEl (acc : AccType) (ap : ℕ) (uxn pxn el0 : Bool) : Bool :=
  let canRead := match ap % 4 with
    | 0 => !el0
    | 1 => true
    | 2 => !el0
    | _ => true
  let canWrite := match ap % 4 with
    | 0 => !el0
    | 1 => true
    | 2 => false
    | _ => false
  let canExec := if el0 then !uxn else !pxn
  match acc with
  | .read => canRead
  | .write => canWrite
  | .exec => canExec && canRead

def accEl0 (c : Cpu) : Bool := c.el = 0 || c.ldstUnpriv

/-- A successful table walk: the output page and the leaf's attributes;
`blkShift` is 0 for a level-3 page. -/
structure Leaf where
  paPage : U64
  ap : ℕ
  uxn : Bool
  pxn : Bool
  attridx : ℕ
  sh : ℕ
  blkShift : ℕ
  deriving DecidableEq, Repr

def oaMask : U64 := 0x0000FFFFFFFFF000

def leafOf (desc paPage : U64) (blkShift : ℕ) : Leaf where
  paPage := paPage
  ap := ((desc >>> 6) &&& 3).toNat
  uxn := desc.getLsbD 54
  pxn := desc.getLsbD 53
  attridx := ((desc >>> 2) &&& 7).toNat
  sh := ((desc >>> 8) &&& 3).toNat
  blkShift := blkShift

/-- The walk with `n` levels left, at level `4 - n`. -/
def walkLevels (P : Platform D) (va : U64) : ℕ → Bus D → U64 → Except ℕ Leaf × Bus D
  | 0, b, _ => (.error fscTransL3, b)
  | n + 1, b, table =>
    let level := 3 - n
    let shift := 12 + 9 * (3 - level)
    let idx := (va >>> shift) &&& 0x1ff
    let (desc, b) := physRead P b (table + idx * 8) 8
    if b.lastBusStatus ≠ .ok then (.error fscExternal, b)
    else if desc &&& 1 = 0 then (.error (fscTransL0 + level), b)
    else if desc &&& 3 = 1 then
      if level = 3 then (.error (fscTransL0 + level), b)
      else
        let blkMask : U64 := ((1 : U64) <<< shift) - 1
        let oa := desc &&& oaMask &&& ~~~blkMask
        if (desc >>> 10) &&& 1 = 0 then (.error (fscAccessL0 + level), b)
        else (.ok (leafOf desc ((oa ||| (va &&& blkMask)) &&& ~~~0xfff) shift), b)
    else if level = 3 then
      if (desc >>> 10) &&& 1 = 0 then (.error (fscAccessL0 + level), b)
      else (.ok (leafOf desc (desc &&& oaMask) 0), b)
    else walkLevels P va n b (desc &&& oaMask)

def walk (P : Platform D) (c : Cpu) (b : Bus D) (va : U64) : Except ℕ Leaf × Bus D :=
  let tcr := c.tcr 1
  let sel := va.getLsbD 55
  let tbi := if sel then tcr.getLsbD 38 else tcr.getLsbD 37
  let epd := if sel then tcr.getLsbD 23 else tcr.getLsbD 7
  let top := if tbi then 55 else 63
  let ttbr := if sel then c.ttbr1 1 else c.ttbr0 1
  let txsz := if sel then ((tcr >>> 16) &&& 0x3f).toNat else (tcr &&& 0x3f).toNat
  let txsz := if txsz < 16 then 16 else txsz
  let txsz := if 39 < txsz then 39 else txsz
  let vaSize := 64 - txsz
  if epd then (.error fscTransL0, b)
  else
    let chk := (~~~0 : U64) <<< vaSize
    let chk := if top < 63 then chk &&& (((1 : U64) <<< (top + 1)) - 1) else chk
    if va &&& chk ≠ (if sel then chk else 0) then (.error fscTransL0, b)
    else
      let n := (vaSize - 12 + 8) / 9
      walkLevels P va (min n 4) b (ttbr &&& oaMask)

def mmuOn (c : Cpu) : Bool := (c.sctlr 1).getLsbD 0

def mmuTranslate (P : Platform D) (s : Machine D) (va : U64) (acc : AccType) :
    Option U64 × Machine D :=
  if !mmuOn s.cpu then (some va, s)
  else
    let e := s.bus.tlb (tlbIdx va)
    let page := pageOf va
    let el0 := accEl0 s.cpu
    if e.valid ∧ e.gen = s.bus.tlbGen ∧ e.vaPage = page ∧ e.el0 = el0 ∧
        permOkEl acc e.ap e.uxn e.pxn el0 then
      (some (e.paPage ||| (va &&& 0xfff)), s)
    else
      match walk P s.cpu s.bus va with
      | (.error fsc, b) => (none, ⟨raiseAbort s.cpu va acc fsc, b⟩)
      | (.ok leaf, b) =>
        let b := if leaf.blkShift ≠ 0 then lpRecord b va leaf.blkShift else b
        let e := ⟨page, leaf.paPage, b.tlbGen, true, leaf.ap, leaf.uxn, leaf.pxn, el0⟩
        let b := { b with tlb := Function.update b.tlb (tlbIdx va) e }
        if !permOkEl acc leaf.ap leaf.uxn leaf.pxn el0 then
          (none, ⟨raiseAbort s.cpu va acc fscPermL3, b⟩)
        else (some (leaf.paPage ||| (va &&& 0xfff)), ⟨s.cpu, b⟩)

def dtlbTag (c : Cpu) (b : Bus D) (va : U64) : U64 :=
  pageOf va ||| ((b.tlbGen &&& 0x3ff).setWidth 64 <<< 2)
    ||| (if mmuOn c then 2 else 0) ||| (if accEl0 c then 1 else 0)

/-- `pa_page` lies in guest RAM. -/
def ramPage (P : Platform D) (paPage : U64) : Bool :=
  decide (ramBase ≤ paPage) && decide (paPage - ramBase < P.ramSize)

def pfnOf (paPage : U64) : U64 := (paPage - ramBase) >>> 12

def dtlbFill (P : Platform D) (s : Machine D) (va pa : U64) : Machine D :=
  let paPage := pageOf pa
  if !ramPage P paPage then s
  else
    let t := s.bus.tlb (tlbIdx va)
    let el0 := accEl0 s.cpu
    if mmuOn s.cpu ∧ (t.vaPage ≠ pageOf va ∨ t.el0 ≠ el0) then s
    else
      let r := if mmuOn s.cpu then permOkEl .read t.ap t.uxn t.pxn el0 else true
      let w := if mmuOn s.cpu then permOkEl .write t.ap t.uxn t.pxn el0 else true
      let w := w && !P.jitCode s.bus.dev (pfnOf paPage)
      let de := ⟨dtlbTag s.cpu s.bus va, (paPage - ramBase).toNat, r, w⟩
      { s with bus := { s.bus with dtlb := Function.update s.bus.dtlb (tlbIdx va) de } }

def pageOff (va : U64) : ℕ := (va &&& 0xfff).toNat

def memReadPage (P : Platform D) (s : Machine D) (va : U64) (size : ℕ) : Option U64 × Machine D :=
  let off := pageOff va
  let de := s.bus.dtlb (tlbIdx va)
  if off + size ≤ 0x1000 ∧ de.tag = dtlbTag s.cpu s.bus va ∧ de.r then
    (some (ldLe s.bus.ram (de.page + off) size), s)
  else
    match mmuTranslate P s va .read with
    | (none, s) => (none, s)
    | (some pa, s) =>
      let (v, b) := physRead P s.bus pa size
      if b.lastBusStatus ≠ .ok then (none, ⟨raiseAbort s.cpu va .read fscExternal, b⟩)
      else (some v, dtlbFill P ⟨s.cpu, b⟩ va pa)

/-- With the MMU on, an access that spans two pages is made in two parts. -/
def memRead (P : Platform D) (s : Machine D) (va : U64) (size : ℕ) : Option U64 × Machine D :=
  let off := pageOff va
  if 0x1000 < off + size ∧ mmuOn s.cpu then
    let first := 0x1000 - off
    match memReadPage P s va first with
    | (none, s) => (none, s)
    | (some lo, s) =>
      match memReadPage P s (va + zext first) (size - first) with
      | (none, s) => (none, s)
      | (some hi, s) => (some (lo ||| (hi <<< (first * 8))), s)
  else memReadPage P s va size

def memWritePage (P : Platform D) (s : Machine D) (va : U64) (size : ℕ) (val : U64) :
    Bool × Machine D :=
  let off := pageOff va
  let de := s.bus.dtlb (tlbIdx va)
  if off + size ≤ 0x1000 ∧ de.tag = dtlbTag s.cpu s.bus va ∧ de.w then
    (true, { s with bus := { s.bus with ram := stLe s.bus.ram (de.page + off) size val } })
  else
    match mmuTranslate P s va .write with
    | (none, s) => (false, s)
    | (some pa, s) =>
      let b := physWrite P s.bus pa size val
      if b.lastBusStatus ≠ .ok then (false, ⟨raiseAbort s.cpu va .write fscExternal, b⟩)
      else
        -- the store has committed: drop the translations of a code page
        let paPage := pageOf pa
        let b := if ramPage P paPage && P.jitCode b.dev (pfnOf paPage) then
            { b with dev := P.jitInvalidate b.dev pa (zext size) }
          else b
        (true, dtlbFill P ⟨s.cpu, b⟩ va pa)

def memWrite (P : Platform D) (s : Machine D) (va : U64) (size : ℕ) (val : U64) :
    Bool × Machine D :=
  let off := pageOff va
  if 0x1000 < off + size ∧ mmuOn s.cpu then
    let first := 0x1000 - off
    match memWritePage P s va first val with
    | (false, s) => (false, s)
    | (true, s) => memWritePage P s (va + zext first) (size - first) (val >>> (first * 8))
  else memWritePage P s va size val

def memRead128 (P : Platform D) (s : Machine D) (va : U64) : Option V128 × Machine D :=
  let off := pageOff va
  let de := s.bus.dtlb (tlbIdx va)
  if off ≤ 0xff0 ∧ de.tag = dtlbTag s.cpu s.bus va ∧ de.r then
    (some ⟨ldLe s.bus.ram (de.page + off) 8, ldLe s.bus.ram (de.page + off + 8) 8⟩, s)
  else
    match memRead P s va 8 with
    | (none, s) => (none, s)
    | (some lo, s) =>
      match memRead P s (va + 8) 8 with
      | (none, s) => (none, s)
      | (some hi, s) => (some ⟨lo, hi⟩, s)

def memWrite128 (P : Platform D) (s : Machine D) (va : U64) (val : V128) : Bool × Machine D :=
  let off := pageOff va
  let de := s.bus.dtlb (tlbIdx va)
  if off ≤ 0xff0 ∧ de.tag = dtlbTag s.cpu s.bus va ∧ de.w then
    (true, { s with bus := { s.bus with
      ram := stLe (stLe s.bus.ram (de.page + off) 8 val.d0) (de.page + off + 8) 8 val.d1 } })
  else
    match memWrite P s va 8 val.d0 with
    | (false, s) => (false, s)
    | (true, s) => memWrite P s (va + 8) 8 val.d1

/-- Non-faulting translation used by the cache-maintenance hooks. -/
def mmuProbePa (P : Platform D) (s : Machine D) (va : U64) : Option U64 × Machine D :=
  if !mmuOn s.cpu then (some va, s)
  else
    let e := s.bus.tlb (tlbIdx va)
    if e.valid ∧ e.gen = s.bus.tlbGen ∧ e.vaPage = pageOf va ∧ e.el0 = decide (s.cpu.el = 0) then
      (some (e.paPage ||| (va &&& 0xfff)), s)
    else
      match walk P s.cpu s.bus va with
      | (.error _, b) => (none, ⟨s.cpu, b⟩)
      | (.ok leaf, b) => (some (leaf.paPage ||| (va &&& 0xfff)), ⟨s.cpu, b⟩)

def mmuAtS1 (P : Platform D) (s : Machine D) (va : U64) (isWrite asEl0 : Bool) : U64 × Machine D :=
  if !mmuOn s.cpu then ((va &&& oaMask) ||| ((1 : U64) <<< 9), s)
  else
    let par (fsc : ℕ) : U64 := 1 ||| ((zext fsc &&& 0x3f) <<< 1) ||| ((1 : U64) <<< 11)
    match walk P s.cpu s.bus va with
    | (.error fsc, b) => (par fsc, ⟨s.cpu, b⟩)
    | (.ok leaf, b) =>
      if !permOkEl (if isWrite then .write else .read) leaf.ap leaf.uxn leaf.pxn asEl0 then
        (par fscPermL3, ⟨s.cpu, b⟩)
      else
        let mairByte := (s.cpu.mair 1 >>> (leaf.attridx * 8)) &&& 0xff
        ((leaf.paPage &&& oaMask) ||| (zext leaf.sh <<< 7) ||| ((1 : U64) <<< 9) ||| (mairByte <<< 56),
          ⟨s.cpu, b⟩)

def hostPagePtr (P : Platform D) (paPage : U64) : Option HostPage :=
  if inRam P paPage 0x1000 then some (.ram (paPage - ramBase).toNat)
  else if inFlash paPage 0x1000 then some (.flash (paPage - flashBase).toNat)
  else none

def hostWord (b : Bus D) (h : HostPage) (off : ℕ) : U32 :=
  match h with
  | .ram p => (ldLe b.ram (p + off) 4).setWidth 32
  | .flash p => (ldLe b.flash (p + off) 4).setWidth 32

def memIfetchSlow (P : Platform D) (s : Machine D) (va : U64) : Option U32 × Machine D :=
  if va &&& 3 ≠ 0 then (none, { s with cpu := cpuRaiseSync s.cpu (esrMake .pcAlign 0) va })
  else
    match mmuTranslate P s va .exec with
    | (none, s) => (none, s)
    | (some pa, s) =>
      match hostPagePtr P (pageOf pa) with
      | some hp =>
        let f : FetchCache := ⟨pageOf va, pageOf pa, some hp, mmuOn s.cpu⟩
        (some (hostWord s.bus hp (pageOff va)),
          { s with bus := { s.bus with
              fcache := Function.update s.bus.fcache (decide (s.cpu.el = 0)) f } })
      | none =>
        let (v, b) := physRead P s.bus pa 4
        if b.lastBusStatus ≠ .ok then (none, ⟨raiseAbort s.cpu va .exec fscExternal, b⟩)
        else (some (v.setWidth 32), ⟨s.cpu, b⟩)

def memIfetch (P : Platform D) (s : Machine D) (va : U64) : Option U32 × Machine D :=
  let f := s.bus.fcache (decide (s.cpu.el = 0))
  match f.host with
  | some h =>
    if f.page = pageOf va ∧ va &&& 3 = 0 ∧ f.mmu = mmuOn s.cpu then
      (some (hostWord s.bus h (pageOff va)), s)
    else memIfetchSlow P s va
  | none => memIfetchSlow P s va

end Arm64Emu
