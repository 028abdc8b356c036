import Arm64Emu.Cpu

/-! The physical bus of `memory.c`: RAM, the NOR flash with its Intel command
set, and the memory-mapped devices. Devices are a parameter of the model: a
state type and the table of callbacks registered at start-up. -/
namespace Arm64Emu

inductive BusStatus
  | ok | fault
  deriving DecidableEq, Repr

inductive FlashMode
  | array | status | id | cfi
  deriving DecidableEq, Repr

inductive FlashProg
  | none | word | erase | bufcnt | bufdata | bufconf
  deriving DecidableEq, Repr

structure FlashCfi where
  mode : FlashMode
  prog : FlashProg
  status : U8
  bufBase : U32
  bufCnt : U32
  bufSeen : U32
  deriving DecidableEq, Repr

structure TlbEntry where
  vaPage : U64
  paPage : U64
  gen : U32
  valid : Bool
  ap : ℕ
  uxn : Bool
  pxn : Bool
  el0 : Bool
  deriving DecidableEq, Repr

/-- A page of host memory that backs guest RAM or flash, by its byte offset. -/
inductive HostPage
  | ram (off : ℕ)
  | flash (off : ℕ)
  deriving DecidableEq, Repr

/-- An entry of the data TLB: the tag word, and the host RAM page with the two
permission bits that the `pte` word packs. -/
structure DtlbEnt where
  tag : U64
  page : ℕ
  r : Bool
  w : Bool
  deriving DecidableEq, Repr

structure FetchCache where
  page : U64
  paPage : U64
  host : Option HostPage
  mmu : Bool
  deriving DecidableEq, Repr

/-- Everything outside the processor: memory, devices, interrupt lines and the
translation caches. `D` is the state of the devices and of the translator. -/
structure Bus (D : Type) where
  ram : ℕ → U8
  flash : ℕ → U8
  flashCfi : Bool → FlashCfi
  dev : D
  irqLine : Bool
  fiqLine : Bool
  lastBusStatus : BusStatus
  tlb : BitVec 12 → TlbEntry
  dtlb : BitVec 12 → DtlbEnt
  fcache : Bool → FetchCache
  tlbGen : U32
  tlbiVaSeq : U32
  lpBase : U64
  lpMask : U64

structure MmioDev (D : Type) where
  base : U64
  size : U64
  read : Option (Bus D → U64 → ℕ → U64 × Bus D)
  write : Option (Bus D → U64 → ℕ → U64 → Bus D)

def ramBase : U64 := 0x40000000
def flashBase : U64 := 0
def flashSize : U64 := 0x08000000
def flashBank : U64 := 0x04000000

/-- The fixed part of a machine, and the code that is not modelled: RAM size and
device table; the two hooks by which memory accesses consult the translator (the
code-page bitmap by page number, and `jit_invalidate_phys_range`); the
floating-point unit; the host clock behind the generic timer, and the update of
its interrupt lines and cached deadline. -/
structure Platform (D : Type) where
  ramSize : U64
  devs : List (MmioDev D)
  jitCode : D → U64 → Bool
  jitInvalidate : D → U64 → U64 → D
  execFpsimd : Cpu → U32 → Cpu
  rtclock : Bool
  hostNs : D → U64 × D
  timerLines : Bus D → (phys virt : Bool) → (deadline : U64) → Bus D

variable {D : Type}

/-- `size` bytes at `p`, little endian. -/
def ldLe (m : ℕ → U8) (p : ℕ) : ℕ → U64
  | 0 => 0
  | size + 1 => (m p).setWidth 64 ||| (ldLe m (p + 1) size <<< 8)

def stLe (m : ℕ → U8) (p : ℕ) : ℕ → U64 → (ℕ → U8)
  | 0, _ => m
  | size + 1, v => stLe (Function.update m p (v.setWidth 8)) (p + 1) size (v >>> 8)

def flashProgramBytes (m : ℕ → U8) (p : ℕ) : ℕ → U64 → (ℕ → U8)
  | 0, _ => m
  | size + 1, v =>
    flashProgramBytes (Function.update m p (m p &&& v.setWidth 8)) (p + 1) size (v >>> 8)

def flashProgram (P : Platform D) (b : Bus D) (off : U64) (size : ℕ) (val : U64) : Bus D :=
  { b with
    dev := P.jitInvalidate b.dev (flashBase + off) (zext size)
    flash := flashProgramBytes b.flash off.toNat size val }

def setCfi (b : Bus D) (bank : Bool) (s : FlashCfi) : Bus D :=
  { b with flashCfi := Function.update b.flashCfi bank s }

def flBlock : U64 := 0x40000

def flashCfiWrite (P : Platform D) (b : Bus D) (off : U64) (size : ℕ) (val : U64) : Bus D :=
  let bank := decide (flashBank ≤ off)
  let s := b.flashCfi bank
  let cmd := val &&& 0xff
  match s.prog with
  | .word => setCfi (flashProgram P b off size val) bank { s with prog := .none, mode := .status }
  | .bufcnt =>
    setCfi b bank { s with
      bufCnt := ((val &&& 0xffff) + 1).setWidth 32, bufSeen := 0
      bufBase := off.setWidth 32, prog := .bufdata }
  | .bufdata =>
    let seen := s.bufSeen + 1
    setCfi (flashProgram P b off size val) bank { s with
      bufSeen := seen, prog := if s.bufCnt ≤ seen then .bufconf else .bufdata }
  | .bufconf =>
    if cmd = 0xd0 then setCfi b bank { s with prog := .none, mode := .status } else b
  | .erase =>
    if cmd = 0xd0 then
      let base := (off &&& ~~~(flBlock - 1)).toNat
      setCfi { b with flash := fun i => if base ≤ i ∧ i < base + flBlock.toNat then 0xff else b.flash i }
        bank { s with status := 0x80, prog := .none, mode := .status }
    else b
  | .none =>
    if cmd = 0xff ∨ cmd = 0xf0 then setCfi b bank { s with mode := .array }
    else if cmd = 0x70 then setCfi b bank { s with mode := .status }
    else if cmd = 0x50 then setCfi b bank { s with status := 0x80 }
    else if cmd = 0x90 then setCfi b bank { s with mode := .id }
    else if cmd = 0x98 then setCfi b bank { s with mode := .cfi }
    else if cmd = 0x10 ∨ cmd = 0x40 then setCfi b bank { s with prog := .word, mode := .status }
    else if cmd = 0x20 then setCfi b bank { s with prog := .erase, mode := .status }
    else if cmd = 0xe8 then setCfi b bank { s with prog := .bufcnt, mode := .status }
    else b

def cfiQueryByte (wordOff : ℕ) : U8 :=
  match wordOff with
  | 0x10 => 0x51
  | 0x11 => 0x52
  | 0x12 => 0x59
  | 0x13 => 0x01
  | 0x27 => 0x1a
  | 0x28 => 0x02
  | 0x2a => 0x05
  | 0x2c => 0x01
  | 0x2d => 0xff
  | 0x30 => 0x04
  | _ => 0

/-- The byte at `bank_off + i` in a mode other than read-array. -/
def cfiByte (s : FlashCfi) (bankOff i : ℕ) : U8 :=
  match s.mode with
  | .status => if i % 2 = 1 then 0 else s.status
  | .id =>
    if (bankOff + i) % 2 = 1 then 0
    else if (bankOff + i) / 2 = 0 then 0x89 else if (bankOff + i) / 2 = 1 then 0x18 else 0
  | _ => if (bankOff + i) % 2 = 1 then 0 else cfiQueryByte ((bankOff + i) / 2)

def flashCfiRead (b : Bus D) (off : U64) (size : ℕ) : Option U64 :=
  let s := b.flashCfi (decide (flashBank ≤ off))
  if s.mode = .array then none
  else some (ldLe (cfiByte s (off &&& (flashBank - 1)).toNat) 0 size)

def findDev (P : Platform D) (pa : U64) : Option (MmioDev D) :=
  P.devs.find? fun d => decide (d.base ≤ pa) && decide (pa < d.base + d.size)

def inRam (P : Platform D) (pa : U64) (len : U64) : Bool :=
  decide (ramBase ≤ pa) && decide (pa + len ≤ ramBase + P.ramSize)

def inFlash (pa : U64) (len : U64) : Bool :=
  decide (flashBase ≤ pa) && decide (pa + len ≤ flashBase + flashSize)

def physRead (P : Platform D) (b : Bus D) (pa : U64) (size : ℕ) : U64 × Bus D :=
  let b := { b with lastBusStatus := .ok }
  if inRam P pa (zext size) then (ldLe b.ram (pa - ramBase).toNat size, b)
  else if inFlash pa (zext size) then
    match flashCfiRead b (pa - flashBase) size with
    | some v => (v, b)
    | none => (ldLe b.flash (pa - flashBase).toNat size, b)
  else
    match findDev P pa with
    | some ⟨base, _, some read, _⟩ => read b (pa - base) size
    | _ => (0, { b with lastBusStatus := .fault })

def physWrite (P : Platform D) (b : Bus D) (pa : U64) (size : ℕ) (value : U64) : Bus D :=
  let b := { b with lastBusStatus := .ok }
  if inRam P pa (zext size) then { b with ram := stLe b.ram (pa - ramBase).toNat size value }
  else if inFlash pa (zext size) then flashCfiWrite P b (pa - flashBase) size value
  else
    match findDev P pa with
    | some ⟨base, _, _, some write⟩ => write b (pa - base) size value
    | _ => { b with lastBusStatus := .fault }

def ramPtr (P : Platform D) (pa len : U64) : Option ℕ :=
  if inRam P pa len then some (pa - ramBase).toNat else none

def physWriteBlk (P : Platform D) (b : Bus D) (pa : U64) (src : List U8) : Bus D :=
  let b := { b with dev := P.jitInvalidate b.dev pa (zext src.length) }
  if inRam P pa (zext src.length) then
    { b with ram := copyBytes b.ram (pa - ramBase).toNat src }
  else if inFlash pa (zext src.length) then
    { b with flash := copyBytes b.flash (pa - flashBase).toNat src }
  else
    (src.zipIdx).foldl (fun b s => physWrite P b (pa + zext s.2) 1 (s.1.setWidth 64)) b

def physReadBytes (P : Platform D) (b : Bus D) (pa : U64) : ℕ → List U8 × Bus D
  | 0 => ([], b)
  | len + 1 =>
    let (v, b) := physRead P b pa 1
    let (rest, b) := physReadBytes P b (pa + 1) len
    (v.setWidth 8 :: rest, b)

def physReadBlk (P : Platform D) (b : Bus D) (pa : U64) (len : ℕ) : List U8 × Bus D :=
  if inRam P pa (zext len) then ((List.range len).map fun i => b.ram ((pa - ramBase).toNat + i), b)
  else if inFlash pa (zext len) then ((List.range len).map fun i => b.flash ((pa - flashBase).toNat + i), b)
  else physReadBytes P b pa len

end Arm64Emu
