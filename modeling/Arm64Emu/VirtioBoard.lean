import Arm64Emu.FwCfg
import Arm64Emu.VirtioBlk
import Arm64Emu.VirtioConsole
import Arm64Emu.VirtioFs
import Arm64Emu.VirtioNet

/-! The virtio devices on the bus: how a device's calls are carried out, and the board that
`platform_build` makes with network, disks, shares and virtio console. -/
namespace Arm64Emu

/-- Where a device is attached: its state and the interrupt controller among the devices of
the board, its interrupt, and its backend. -/
structure VirtioPort (D B : Type) {H : Type} (R : H → Type) where
  dev : Lens D (Virtio B)
  gic : Lens D Gic
  irq : ℕ
  host : D → (h : H) → R h × D

namespace VirtioPort
variable {D B H : Type} {R : H → Type} (P : Platform D) (port : VirtioPort D B R)

def queue (i : Fin 2) (b : Bus D) : Virtq := (port.dev.get b.dev).q i

def advance (i : Fin 2) (v : Virtio B) : Virtio B :=
  { v with q := Function.update v.q i { v.q i with lastAvail := (v.q i).lastAvail + 1 } }

def perform (b : Bus D) : (c : DevCall B H) → c.Reply R × Bus D
  | .availIdx i =>
    let (idx, b) := physRead P b ((port.queue i b).avail + 2) 2
    ((idx.setWidth 16 : U16), b)
  | .availHead i =>
    let (hd, b) := availHead P (port.queue i b) b
    ((hd.setWidth 16 : U16), b)
  | .advance i => ((), { b with dev := port.dev.modify (advance i) b.dev })
  | .desc i idx => readDesc P (port.queue i b).desc idx b
  | .pushUsed i id len => ((), pushUsed P (port.queue i) id len b)
  | .read pa n => physRead P b pa n
  | .readBlk pa n => physReadBlk P b pa n
  | .write pa n x => ((), physWrite P b pa n x)
  | .writeBlk pa src => ((), physWriteBlk P b pa src)
  | .get => (port.dev.get b.dev, b)
  | .put v => ((), { b with dev := port.dev.set b.dev v })
  | .line level => ((), gicSetIrq port.gic b port.irq level)
  | .host h => ((port.host b.dev h).1, { b with dev := (port.host b.dev h).2 })

def exec {α : Type} (p : DevProg B R α) (b : Bus D) : Bus D := (p.run (port.perform P) b).2.2

/-- The device in the table of `slot`; `K` are its registers. -/
def mmio (K : VirtioKind B R) (slot : ℕ) : MmioDev D where
  base := 0x0a000000 + zext slot * 0x200
  size := 0x200
  read := some fun b off n => (virtioRead K (port.dev.get b.dev) off n, b)
  write := some fun b off _ x => port.exec P (virtioWrite K off x) b

end VirtioPort

/-- The devices of the board, with the host behind the virtio devices. -/
structure VirtDevices (W : Type) where
  base : Devices
  net : Virtio Net
  blk : ℕ → Virtio Blk
  fs : ℕ → Virtio Share
  con : Virtio Console
  world : W

/-- The host: disks by index, the user-mode network, shares by index, the terminal. -/
structure VirtioHost (W : Type) where
  blk : ℕ → W → (c : BlkCall) → c.Reply × W
  net : W → (c : NetCall) → c.Reply × W
  fs : ℕ → W → (c : HostCall) → c.Reply × W
  con : W → (c : ConCall) → c.Reply × W

/-- What the command line asks for. There are 31 slots next to that of the network. -/
structure BoardConfig where
  net : Bool
  drives : ℕ
  shares : ℕ
  console : Bool
  fits : drives + shares + console.toNat ≤ 31
  deriving DecidableEq, Repr

def intidVirtio0 : ℕ := 48

namespace VirtDevices
variable {W : Type}

def baseL : Lens (VirtDevices W) Devices :=
  ⟨base, fun d x => { d with base := x }, fun _ _ => rfl, fun _ => rfl, fun _ _ _ => rfl⟩

def gicL : Lens (VirtDevices W) Gic := baseL.comp Devices.gicL

def netL : Lens (VirtDevices W) (Virtio Net) :=
  ⟨net, fun d x => { d with net := x }, fun _ _ => rfl, fun _ => rfl, fun _ _ _ => rfl⟩

def conL : Lens (VirtDevices W) (Virtio Console) :=
  ⟨con, fun d x => { d with con := x }, fun _ _ => rfl, fun _ => rfl, fun _ _ _ => rfl⟩

def blkL (i : ℕ) : Lens (VirtDevices W) (Virtio Blk) :=
  ⟨fun d => d.blk i, fun d x => { d with blk := Function.update d.blk i x }, by simp, by simp, by simp⟩

def fsL (i : ℕ) : Lens (VirtDevices W) (Virtio Share) :=
  ⟨fun d => d.fs i, fun d x => { d with fs := Function.update d.fs i x }, by simp, by simp, by simp⟩

/-- The devices as `platform_build` makes them, over given disks and shares. -/
def created (disk : ℕ → Blk) (share : ℕ → Share) (world : W) : VirtDevices W where
  base := .initial
  net := .cleared .initial
  blk i := .cleared (disk i)
  fs i := .cleared (share i)
  con := .cleared .initial
  world := world

def ask {α : Type} (d : VirtDevices W) (f : W → α × W) : α × VirtDevices W :=
  ((f d.world).1, { d with world := (f d.world).2 })

variable (host : VirtioHost W) (cfg : BoardConfig)

def netPort : VirtioPort (VirtDevices W) Net NetCall.Reply where
  dev := netL
  gic := gicL
  irq := intidVirtio0
  host d c := d.ask fun w => host.net w c

def blkSlot (i : ℕ) : ℕ := i + 1

def blkPort (i : ℕ) : VirtioPort (VirtDevices W) Blk BlkCall.Reply where
  dev := blkL i
  gic := gicL
  irq := intidVirtio0 + blkSlot i
  host d c := d.ask fun w => host.blk i w c

def fsSlot (i : ℕ) : ℕ := cfg.drives + 1 + i

def fsPort (i : ℕ) : VirtioPort (VirtDevices W) Share HostCall.Reply where
  dev := fsL i
  gic := gicL
  irq := intidVirtio0 + fsSlot cfg i
  host d c := d.ask fun w => host.fs i w c

def conSlot : ℕ := 1 + cfg.drives + cfg.shares

def conPort : VirtioPort (VirtDevices W) Console ConCall.Reply where
  dev := conL
  gic := gicL
  irq := intidVirtio0 + conSlot cfg
  host d c :=
    match c with
    | .write chunk => ((), { d with base.tty.output := d.base.tty.output ++ chunk })
    | .activate => ((), { d with base.tty.consoleActiveVirtio := true })
    | c => d.ask fun w => host.con w c

/-- How a virtio device is put into the table, given its port, its registers and its slot. -/
abbrev Attach (W : Type) : Type 1 :=
  ∀ {B H : Type} {R : H → Type}, VirtioPort (VirtDevices W) B R → VirtioKind B R → ℕ → MmioDev (VirtDevices W)

def onBus (P : Platform (VirtDevices W)) : Attach W := fun port K slot => port.mmio P K slot

section Table
variable (rounds : ℕ) (attach : Attach W) (P : Platform (VirtDevices W))

def virtioTable : List (MmioDev (VirtDevices W)) :=
  (if cfg.net then [attach (netPort host) (netKind rounds) 0] else []) ++
  (List.range cfg.drives).map (fun i => attach (blkPort host i) (blkKind rounds) (blkSlot i)) ++
  (List.range cfg.shares).map (fun i => attach (fsPort host cfg i) (fsKind rounds) (fsSlot cfg i)) ++
  (if cfg.console then [attach (conPort host cfg) (conKind rounds) (conSlot cfg)] else [])

/-- The device table: a device stands before the stub that covers its slot. -/
def table : List (MmioDev (VirtDevices W)) :=
  [⟨0x08000000, 0x10000, some (gicdRead gicL), some (gicdWrite gicL)⟩,
   ⟨0x08010000, 0x10000, some (giccRead gicL), some (giccWrite gicL)⟩,
   ⟨0x09000000, 0x1000, some (uartRead gicL (baseL.comp Devices.uartL)),
    some (uartWrite gicL (baseL.comp Devices.uartL) (baseL.comp Devices.ttyL))⟩,
   ⟨0x09010000, 0x1000, some (rtcRead (baseL.comp Devices.rtcL) fun d => d.base.hostSeconds),
    some (rtcWrite gicL (baseL.comp Devices.rtcL) fun d => d.base.hostSeconds)⟩,
   ⟨0x09020000, 0x18, some (fwcfgRead (baseL.comp Devices.fwcfgL)), some (fwcfgWrite P (baseL.comp Devices.fwcfgL))⟩,
   stubDevice stubZeroRead 0x08020000 0x1000,
   stubDevice stubZeroRead 0x09030000 0x1000] ++
  virtioTable host cfg rounds attach ++
  (if cfg.net then [] else [stubDevice virtioMmioRead 0x0a000000 0x200]) ++
  (if cfg.drives = 0 ∧ cfg.shares = 0 ∧ cfg.console = false then [stubDevice virtioMmioRead 0x0a000200 0x200] else []) ++
  [stubDevice virtioMmioRead 0x0a000400 0x3c00,
   stubDevice stubOnesRead 0x3eff0000 0x10000,
   stubDevice stubOnesRead 0x10000000 0x2eff0000,
   stubDevice stubOnesRead 0x4010000000 0x10000000]

/-- `timer_update`: the two lines and the deadline. -/
def timerLines (b : Bus (VirtDevices W)) (phys virt : Bool) (deadline : U64) : Bus (VirtDevices W) :=
  let b := gicSetIrq gicL (gicSetIrq gicL b 30 phys) 27 virt
  { b with dev := { b.dev with base.timerDeadline := deadline } }

end Table

end VirtDevices

/-- The board, without translator or floating-point unit. A device that accesses the bus
may reach a device again, `depth` times at most. -/
def Platform.virtio {W : Type} (host : VirtioHost W) (cfg : BoardConfig) (rounds : ℕ) (ramSize : U64) :
    ℕ → Platform (VirtDevices W)
  | 0 => {
      ramSize := ramSize
      devs := []
      jitCode := fun _ _ => false
      jitInvalidate := fun d _ _ => d
      execFpsimd := fun c _ => undefined c
      rtclock := false
      hostNs := fun d => (0, d)
      timerLines := VirtDevices.timerLines }
  | depth + 1 => { Platform.virtio host cfg rounds ramSize depth with
      devs :=
        let P := Platform.virtio host cfg rounds ramSize depth
        VirtDevices.table host cfg rounds (VirtDevices.onBus P) P }

end Arm64Emu
