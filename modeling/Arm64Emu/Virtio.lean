import Arm64Emu.Dialogue
import Arm64Emu.P9Wire
import Arm64Emu.Virtqueue

/-! The virtio-mmio devices as programs. What a device does to the machine around it is a
call: it looks at its rings and descriptors, moves data, reads and changes its registers,
sets its interrupt line and asks its backend on the host. Any access to the bus may come
back to the device's own registers, so these are read anew wherever the code reads them. -/
namespace Arm64Emu

/-- The registers of a device, and what lies behind them. A device with one queue uses
queue 0. -/
structure Virtio (B : Type) where
  status : U32
  isr : U32
  devFeatSel : U32
  drvFeatSel : U32
  drvFeat : U64
  queueSel : U32
  q : Fin 2 → Virtq
  back : B

inductive DevCall (B H : Type)
  | availIdx (i : Fin 2)
  | availHead (i : Fin 2)
  | advance (i : Fin 2)
  | desc (i : Fin 2) (idx : U32)
  | pushUsed (i : Fin 2) (id len : U32)
  | read (pa : U64) (size : ℕ)
  | readBlk (pa : U64) (len : ℕ)
  | write (pa : U64) (size : ℕ) (val : U64)
  | writeBlk (pa : U64) (src : Bytes)
  | get
  | put (v : Virtio B)
  | line (level : Bool)
  | host (h : H)

def DevCall.Reply {B H : Type} (R : H → Type) : DevCall B H → Type
  | availIdx _ => U16
  | availHead _ => U16
  | desc .. => Desc
  | read .. => U64
  | readBlk .. => Bytes
  | get => Virtio B
  | host h => R h
  | _ => Unit

abbrev DevProg (B : Type) {H : Type} (R : H → Type) (α : Type) : Type :=
  Dialogue (DevCall.Reply (B := B) R) α

namespace DevProg
variable {B H : Type} {R : H → Type}

def getDev : DevProg B R (Virtio B) := .call .get .ret

def putDev (v : Virtio B) : DevProg B R Unit := .call (.put v) .ret

def modifyDev (f : Virtio B → Virtio B) : DevProg B R Unit := do putDev (f (← getDev))

def availIdx (i : Fin 2) : DevProg B R U16 := .call (.availIdx i) .ret

/-- The entry of the available ring under the cursor `last_avail`. -/
def nextHead (i : Fin 2) : DevProg B R U16 := .call (.availHead i) .ret

/-- `last_avail++`. -/
def advance (i : Fin 2) : DevProg B R Unit := .call (.advance i) .ret

def desc (i : Fin 2) (idx : U32) : DevProg B R Desc := .call (.desc i idx) .ret

def pushUsed (i : Fin 2) (id len : U32) : DevProg B R Unit := .call (.pushUsed i id len) .ret

def read (pa : U64) (size : ℕ) : DevProg B R U64 := .call (.read pa size) .ret

def readBlk (pa : U64) (len : ℕ) : DevProg B R Bytes := .call (.readBlk pa len) .ret

def write (pa : U64) (size : ℕ) (val : U64) : DevProg B R Unit := .call (.write pa size val) .ret

def writeBlk (pa : U64) (src : Bytes) : DevProg B R Unit := .call (.writeBlk pa src) .ret

def setLine (level : Bool) : DevProg B R Unit := .call (.line level) .ret

def host (h : H) : DevProg B R (R h) := .call (.host h) .ret

def lift {α : Type} : Dialogue R α → DevProg B R α
  | .ret a => .ret a
  | .call c k => .call (.host c) fun r => lift (k r)

def raise (cause : U32) : DevProg B R Unit := do
  modifyDev fun v => { v with isr := v.isr ||| cause }
  setLine true

section Rings
-- a bound on the rounds of a loop over a ring; the laws hold for every bound
variable (rounds : ℕ) (i : Fin 2) (round : DevProg B R Unit)

/-- The loop over the entries up to an index that was read once. -/
def drain (availIdx : U16) : ℕ → Bool → DevProg B R Bool
  | 0, did => return did
  | k + 1, did => do
    let v ← getDev
    if (v.q i).lastAvail = availIdx then return did
    else
      round
      drain availIdx k true

/-- The requests of a queue are served, and the end of them is signalled. -/
def process (finish : DevProg B R Unit) : DevProg B R Unit := do
  let v ← getDev
  if (v.q i).ready = 0 ∨ (v.q i).num = 0 then return ()
  else
    let did ← drain i round (← availIdx i) rounds false
    if did then finish

/-- The loop that fills buffers of the guest while there is something to deliver. -/
def fill (pending : Virtio B → Bool) : ℕ → Bool → DevProg B R Bool
  | 0, did => return did
  | k + 1, did => do
    let v ← getDev
    if pending v then
      let idx ← availIdx i
      let v ← getDev
      if (v.q i).lastAvail = idx then return did
      else
        round
        fill pending k true
    else return did

def flush (pending : Virtio B → Bool) : DevProg B R Unit := do
  let v ← getDev
  if (v.q i).ready = 0 ∨ (v.q i).num = 0 then return ()
  else
    let did ← fill i round pending rounds false
    if did then raise 1

end Rings

section Chains
variable (i : Fin 2)

/-- The walk along a chain that collects its descriptors; `n` of them have been taken and
`k` more fit the arrays. The queue size is read again for each. -/
def collect : (k n : ℕ) → U32 → DevProg B R (List Desc)
  | 0, _, _ => return []
  | k + 1, n, idx => do
    let v ← getDev
    if (v.q i).num.toNat ≤ n then return []
    else
      let d ← desc i idx
      if d.hasNext then return d :: (← collect k (n + 1) (d.next.setWidth 32))
      else return [d]

/-- The walk along a chain that works on each descriptor as it goes, over `n` descriptors
at most; `more` and `stop` are the other reasons to end it. -/
def walk {σ : Type} (more : σ → Bool) (stop : DevProg B R Bool) (body : Desc → σ → DevProg B R σ) :
    (n : ℕ) → U32 → σ → DevProg B R σ
  | 0, _, s => return s
  | n + 1, idx, s => do
    if more s then
      let d ← desc i idx
      let s ← body d s
      if d.hasNext then
        if ← stop then return s else walk more stop body n (d.next.setWidth 32) s
      else return s
    else return s

/-- `(uint16_t)v->q_num[q]`. -/
def queueNum (v : Virtio B) : ℕ := ((v.q i).num.setWidth 16 : U16).toNat

end Chains

end DevProg

/-- The registers that do something when written, or that read as something. -/
inductive VirtioReg
  | magic | version | deviceId | vendorId | deviceFeatures | deviceFeaturesSel | driverFeatures
  | driverFeaturesSel | queueSel | queueNumMax | queueNum | queueReady | queueNotify | interruptStatus
  | interruptAck | status | queueDescLow | queueDescHigh | queueDriverLow | queueDriverHigh
  | queueDeviceLow | queueDeviceHigh
  deriving DecidableEq, Repr

def VirtioReg.ofOffset (off : U64) : Option VirtioReg :=
  match off.toNat with
  | 0x000 => some .magic
  | 0x004 => some .version
  | 0x008 => some .deviceId
  | 0x00c => some .vendorId
  | 0x010 => some .deviceFeatures
  | 0x014 => some .deviceFeaturesSel
  | 0x020 => some .driverFeatures
  | 0x024 => some .driverFeaturesSel
  | 0x030 => some .queueSel
  | 0x034 => some .queueNumMax
  | 0x038 => some .queueNum
  | 0x044 => some .queueReady
  | 0x050 => some .queueNotify
  | 0x060 => some .interruptStatus
  | 0x064 => some .interruptAck
  | 0x070 => some .status
  | 0x080 => some .queueDescLow
  | 0x084 => some .queueDescHigh
  | 0x090 => some .queueDriverLow
  | 0x094 => some .queueDriverHigh
  | 0x0a0 => some .queueDeviceLow
  | 0x0a4 => some .queueDeviceHigh
  | _ => none

/-- What distinguishes the devices: identification, features and configuration space, the
number of queues and the queue that a value of `QueueSel` stands for, and the programs
behind `Status` and `QueueNotify`. -/
structure VirtioKind (B : Type) {H : Type} (R : H → Type) where
  deviceId : U64
  features : B → U64
  config : B → Bytes
  queues : ℕ
  select : U32 → Option (Fin 2)
  reset : DevProg B R Unit
  notify : U32 → DevProg B R Unit

/-- The only queue of a disk or a share, and the queue from which the others receive. -/
abbrev queue0 : Fin 2 := 0

abbrev queue1 : Fin 2 := 1

def oneQueue (_sel : U32) : Option (Fin 2) := some 0

def twoQueues (sel : U32) : Option (Fin 2) := if sel = 0 then some 0 else if sel = 1 then some 1 else none

def queueNumMax : U32 := 256

def setLow (x : U64) (v : U32) : U64 := (x &&& ~~~0xffffffff) ||| v.setWidth 64

def setHigh (x : U64) (v : U32) : U64 := (x &&& 0xffffffff) ||| (v.setWidth 64 <<< 32)

section Registers
variable {B H : Type} {R : H → Type} (K : VirtioKind B R)

def Virtio.cleared (back : B) : Virtio B := ⟨0, 0, 0, 0, 0, 0, fun _ => ⟨0, 0, 0, 0, 0, 0⟩, back⟩

def Virtio.setQueue (v : Virtio B) (f : Virtq → Virtq) : Virtio B :=
  match K.select v.queueSel with
  | some i => { v with q := Function.update v.q i (f (v.q i)) }
  | none => v

def virtioRead (v : Virtio B) (off : U64) (size : ℕ) : U64 :=
  if 0x100 ≤ off then ldLe (fun i => ((K.config v.back)[i]?).getD 0) (off - 0x100).toNat size
  else
    match VirtioReg.ofOffset off with
    | some .magic => 0x74726976
    | some .version => 2
    | some .deviceId => K.deviceId
    | some .vendorId => 0x554d4551
    | some .deviceFeatures => if v.devFeatSel = 1 then K.features v.back >>> 32 else lo32 (K.features v.back)
    | some .queueNumMax => if v.queueSel.toNat < K.queues then queueNumMax.setWidth 64 else 0
    | some .queueReady => ((K.select v.queueSel).elim 0 fun i => (v.q i).ready).setWidth 64
    | some .interruptStatus => v.isr.setWidth 64
    | some .status => v.status.setWidth 64
    | _ => 0

open DevProg in
def virtioWrite (off val : U64) : DevProg B R Unit :=
  let v32 : U32 := val.setWidth 32
  match VirtioReg.ofOffset off with
  | some .deviceFeaturesSel => modifyDev fun v => { v with devFeatSel := v32 }
  | some .driverFeatures => modifyDev fun v =>
    { v with drvFeat := if v.drvFeatSel = 1 then setHigh v.drvFeat v32 else setLow v.drvFeat v32 }
  | some .driverFeaturesSel => modifyDev fun v => { v with drvFeatSel := v32 }
  | some .queueSel => modifyDev fun v => { v with queueSel := v32 }
  | some .queueNum => modifyDev fun v =>
    v.setQueue K fun q => { q with num := if queueNumMax < v32 then queueNumMax else v32 }
  | some .queueReady => modifyDev fun v => v.setQueue K fun q => { q with ready := v32 }
  | some .queueNotify => K.notify v32
  | some .interruptAck => do
    modifyDev fun v => { v with isr := v.isr &&& ~~~v32 }
    if (← getDev).isr = 0 then setLine false
  | some .status => if v32 = 0 then K.reset else modifyDev fun v => { v with status := v32 }
  | some .queueDescLow => modifyDev fun v => v.setQueue K fun q => { q with desc := setLow q.desc v32 }
  | some .queueDescHigh => modifyDev fun v => v.setQueue K fun q => { q with desc := setHigh q.desc v32 }
  | some .queueDriverLow => modifyDev fun v => v.setQueue K fun q => { q with avail := setLow q.avail v32 }
  | some .queueDriverHigh => modifyDev fun v => v.setQueue K fun q => { q with avail := setHigh q.avail v32 }
  | some .queueDeviceLow => modifyDev fun v => v.setQueue K fun q => { q with used := setLow q.used v32 }
  | some .queueDeviceHigh => modifyDev fun v => v.setQueue K fun q => { q with used := setHigh q.used v32 }
  | _ => return ()

end Registers

end Arm64Emu
