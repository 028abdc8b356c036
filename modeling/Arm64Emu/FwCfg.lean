import Arm64Emu.Board
import Arm64Emu.PrimeCell

/-! The fw_cfg device (`fwcfg.c`), with its data port and its DMA interface, and the
board that `platform_build` makes without network, disks, shares or virtio console. -/
namespace Arm64Emu

structure FwItem where
  key : U16
  data : List U8
  name : List U8
  isFile : Bool

structure FwCfg where
  items : List FwItem
  nextFileKey : U16
  sel : U16
  offset : U32
  dmaHi : U32

namespace FwCfg

def find (f : FwCfg) (key : U16) : Option FwItem := f.items.find? fun it => it.key = key

/-- Replace the item of a key, or append it while the table has room. -/
def setItem (f : FwCfg) (key : U16) (data : List U8) (name : Option (List U8)) : FwCfg :=
  let it : FwItem := ⟨key, data, (name.getD []).take 55, name.isSome⟩
  match f.find key with
  | some _ => { f with items := f.items.map fun old => if old.key = key then
      { it with name := if name.isSome then it.name else old.name } else old }
  | none => if 96 ≤ f.items.length then f else { f with items := f.items ++ [it] }

def be32 (v : U32) : List U8 := [(v >>> 24).setWidth 8, (v >>> 16).setWidth 8, (v >>> 8).setWidth 8, v.setWidth 8]

def le32 (v : U32) : List U8 := [v.setWidth 8, (v >>> 8).setWidth 8, (v >>> 16).setWidth 8, (v >>> 24).setWidth 8]

def dirEntry (it : FwItem) : List U8 :=
  be32 (BitVec.ofNat 32 it.data.length) ++ [(it.key >>> 8).setWidth 8, it.key.setWidth 8, 0, 0] ++
    it.name ++ List.replicate (56 - it.name.length) 0

def rebuildDir (f : FwCfg) : FwCfg :=
  let files := f.items.filter (·.isFile)
  f.setItem 0x0019 (be32 (BitVec.ofNat 32 files.length) ++ (files.map dirEntry).flatten) none

def addFile (f : FwCfg) (name data : List U8) : FwCfg :=
  ({ f with nextFileKey := f.nextFileKey + 1 }.setItem f.nextFileKey data (some name)).rebuildDir

/-- What `fwcfg_set_legacy_kernel` stores, in this order. The command line ends in a zero
byte; without one the item is empty. -/
def legacyItems (kernel initrd : List U8) (cmdline : Option (List U8)) : List (U16 × List U8) :=
  let text := cmdline.elim [] (· ++ [0])
  [(0x0008, le32 (BitVec.ofNat 32 kernel.length)), (0x0011, kernel),
   (0x000b, le32 (BitVec.ofNat 32 initrd.length)), (0x0012, initrd),
   (0x0014, le32 (BitVec.ofNat 32 text.length)), (0x0015, text), (0x0017, [0, 0, 0, 0])]

def setLegacyKernel (f : FwCfg) (kernel initrd : List U8) (cmdline : Option (List U8)) : FwCfg :=
  (legacyItems kernel initrd cmdline).foldl (fun f it => f.setItem it.1 it.2 none) f

/-- The device as `fwcfg_create` leaves it. -/
def initial : FwCfg :=
  let f : FwCfg := ⟨[], 0x0020, 0, 0, 0⟩
  let f := f.setItem 0x0000 [0x51, 0x45, 0x4d, 0x55] none
  let f := f.setItem 0x0001 [3, 0, 0, 0] none
  (f.setItem 0x0005 [1, 0] none).rebuildDir

/-- The byte of an item under the cursor: zero past the end or without an item. -/
def byte (f : FwCfg) (it : Option FwItem) : U8 := (it.bind fun it => it.data[f.offset.toNat]?).getD 0

def advance (f : FwCfg) : FwCfg := { f with offset := f.offset + 1 }

def select (f : FwCfg) (key : U16) : FwCfg := { f with sel := key, offset := 0 }

def reset (f : FwCfg) : FwCfg := { f with sel := 0, offset := 0, dmaHi := 0 }

/-- `size` bytes of an item from the cursor on, little endian. -/
def stream (it : Option FwItem) (f : FwCfg) : ℕ → U64 × FwCfg
  | 0 => (0, f)
  | size + 1 =>
    let (rest, f') := stream it f.advance size
    ((f.byte it).setWidth 64 ||| (rest <<< 8), f')

end FwCfg

section Device
variable {D : Type} (P : Platform D) (fw : Lens D FwCfg)

def setFwcfg (b : Bus D) (f : FwCfg) : Bus D := { b with dev := fw.set b.dev f }

/-- The copy of a DMA read: one byte at a time, each through the bus. -/
def fwcfgCopy (it : Option FwItem) (b : Bus D) (target : U64) : ℕ → Bus D
  | 0 => b
  | length + 1 =>
    let b := physWrite P b target 1 (((fw.get b.dev).byte it).setWidth 64)
    -- the cursor is read again: the store may have come back to this device
    fwcfgCopy it (setFwcfg fw b (fw.get b.dev).advance) (target + 1) length

def beWord (bytes : List U8) : U64 := bytes.foldl (fun v x => (v <<< 8) ||| x.setWidth 64) 0

def doDma (b : Bus D) (addr : U64) : Bus D :=
  let (hdr, b) := physReadBlk P b addr 16
  let control := (beWord (hdr.take 4)).setWidth 32
  let length : U32 := (beWord ((hdr.drop 4).take 4)).setWidth 32
  let target := beWord (hdr.drop 8)
  let b := if control &&& 8 ≠ 0 then setFwcfg fw b ((fw.get b.dev).select ((control >>> 16).setWidth 16)) else b
  let b :=
    if control &&& 2 ≠ 0 then
      let f := fw.get b.dev
      fwcfgCopy P fw (f.find f.sel) b target length.toNat
    else if control &&& 20 ≠ 0 then
      let f := fw.get b.dev
      setFwcfg fw b { f with offset := f.offset + length }
    else b
  -- the completion is signalled at the address the guest gave
  physWriteBlk P b addr [0, 0, 0, 0]

def fwcfgRead (b : Bus D) (off : U64) (size : ℕ) : U64 × Bus D :=
  if off = 0 then
    let f := fw.get b.dev
    let (v, f) := FwCfg.stream (f.find f.sel) f size
    (v, setFwcfg fw b f)
  else (0, b)

def bswap (n : ℕ) (v : U64) : U64 := beWord ((List.range n).map fun i => (v >>> (8 * i)).setWidth 8)

def fwcfgWrite (b : Bus D) (off : U64) (size : ℕ) (val : U64) : Bus D :=
  let f := fw.get b.dev
  if off = 0x08 then setFwcfg fw b (f.select (((val >>> 8) ||| (val <<< 8)).setWidth 16))
  else if off = 0x10 then
    if size = 8 then doDma P fw b (bswap 8 val)
    else setFwcfg fw b { f with dmaHi := (bswap 4 val).setWidth 32 }
  else if off = 0x14 then doDma P fw b ((f.dmaHi.setWidth 64 <<< 32) ||| bswap 4 val)
  else b

end Device

/-- The devices of the board, the cached deadline of its timer and the host's clock. -/
structure Devices where
  gic : Gic
  uart : Pl011
  tty : Tty
  rtc : Pl031
  fwcfg : FwCfg
  timerDeadline : U64
  hostSeconds : U32

namespace Devices

def gicL : Lens Devices Gic := ⟨gic, fun d g => { d with gic := g }, fun _ _ => rfl, fun _ => rfl, fun _ _ _ => rfl⟩

def uartL : Lens Devices Pl011 := ⟨uart, fun d p => { d with uart := p }, fun _ _ => rfl, fun _ => rfl, fun _ _ _ => rfl⟩

def ttyL : Lens Devices Tty := ⟨tty, fun d t => { d with tty := t }, fun _ _ => rfl, fun _ => rfl, fun _ _ _ => rfl⟩

def rtcL : Lens Devices Pl031 := ⟨rtc, fun d p => { d with rtc := p }, fun _ _ => rfl, fun _ => rfl, fun _ _ _ => rfl⟩

def fwcfgL : Lens Devices FwCfg := ⟨fwcfg, fun d f => { d with fwcfg := f }, fun _ _ => rfl, fun _ => rfl, fun _ _ _ => rfl⟩

/-- The devices as `platform_build` makes them. -/
def initial : Devices := ⟨.initial, .initial, ⟨[], false, false⟩, .initial, .initial, 0, 1735689600⟩

/-- The device table, over the platform that the devices' own bus accesses see. -/
def table (P : Platform Devices) : List (MmioDev Devices) :=
  [⟨0x08000000, 0x10000, some (gicdRead gicL), some (gicdWrite gicL)⟩,
   ⟨0x08010000, 0x10000, some (giccRead gicL), some (giccWrite gicL)⟩,
   ⟨0x09000000, 0x1000, some (uartRead gicL uartL), some (uartWrite gicL uartL ttyL)⟩,
   ⟨0x09010000, 0x1000, some (rtcRead rtcL hostSeconds), some (rtcWrite gicL rtcL hostSeconds)⟩,
   ⟨0x09020000, 0x18, some (fwcfgRead fwcfgL), some (fwcfgWrite P fwcfgL)⟩] ++ absentDevices

/-- `timer_update`: the two lines and the deadline. -/
def timerLines (b : Bus Devices) (phys virt : Bool) (deadline : U64) : Bus Devices :=
  let b := gicSetIrq gicL (gicSetIrq gicL b 30 phys) 27 virt
  { b with dev := { b.dev with timerDeadline := deadline } }

end Devices

/-- The board with its devices, without translator or floating-point unit. A device that
accesses the bus may reach a device again, `depth` times at most. -/
def Platform.board (ramSize : U64) : ℕ → Platform Devices
  | 0 => {
      ramSize := ramSize
      devs := []
      jitCode := fun _ _ => false
      jitInvalidate := fun d _ _ => d
      execFpsimd := fun c _ => undefined c
      rtclock := false
      hostNs := fun d => (0, d)
      timerLines := Devices.timerLines }
  | depth + 1 => { Platform.board ramSize depth with devs := Devices.table (Platform.board ramSize depth) }

end Arm64Emu
