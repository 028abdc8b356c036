import Arm64Emu.Virtio

/-! The block device (`virtio_blk.c`). -/
namespace Arm64Emu

open DevProg

/-- The disk behind the registers; the capacity is in sectors of 512 bytes. -/
structure Blk where
  index : ℕ
  capacity : U64
  ro : Bool
  deriving DecidableEq, Repr

inductive BlkCall
  | pread (off : U64) (len : ℕ)
  | pwrite (off : U64) (data : Bytes)
  | fsync
  deriving DecidableEq, Repr

/-- `none` is a failed call. A read may give fewer bytes than asked for, a write may take
fewer. -/
def BlkCall.Reply : BlkCall → Type
  | pread .. => Option Bytes
  | pwrite .. => Option ℕ
  | fsync => Unit

abbrev BlkProg (α : Type) : Type := DevProg Blk BlkCall.Reply α

namespace BlkProg

def pread (off : U64) (len : ℕ) : BlkProg (Option Bytes) := host (BlkCall.pread off len)

def pwrite (off : U64) (data : Bytes) : BlkProg (Option ℕ) := host (BlkCall.pwrite off data)

def fsync : BlkProg Unit := host BlkCall.fsync

end BlkProg

inductive BlkStatus
  | ok | ioerr | unsupp
  deriving DecidableEq, Repr

def BlkStatus.code : BlkStatus → U64
  | ok => 0
  | ioerr => 1
  | unsupp => 2

inductive BlkType
  | read | write | flush | getId
  deriving DecidableEq, Repr

def BlkType.ofCode (type : U32) : Option BlkType :=
  if type = 0 then some .read
  else if type = 1 then some .write
  else if type = 4 then some .flush
  else if type = 8 then some .getId
  else none

def sectorSize : ℕ := 512

/-- Where a transfer stands: the offset in the image, the bytes given to the guest and the
status so far. -/
structure Transfer where
  off : U64
  usedLen : U32
  status : BlkStatus
  deriving DecidableEq, Repr

def blkChunkMax : U32 := 4096

/-- The buffer after a `pread` that gave these bytes: what is missing stays zero. -/
def readBuf (data : Bytes) (len : ℕ) : Bytes := data.take len ++ List.replicate (len - data.length) 0

/-- A chunk of a read, or `none` when the host fails. -/
def readChunk (gpa : U64) (chunk : U32) (t : Transfer) : BlkProg (Option Transfer) := do
  match ← BlkProg.pread t.off chunk.toNat with
  | none => return none
  | some data =>
    writeBlk gpa (readBuf data chunk.toNat)
    return some { t with usedLen := t.usedLen + chunk }

/-- A chunk of a write; a failure is noted and the transfer goes on. -/
def writeChunk (gpa : U64) (chunk : U32) (t : Transfer) : BlkProg (Option Transfer) := do
  let data ← readBlk gpa chunk.toNat
  let n ← BlkProg.pwrite t.off data
  return some { t with status := if n = some chunk.toNat then t.status else .ioerr }

/-- The loop over one descriptor, of which `rem` bytes are left. Every round takes at least
one byte, so `k = rem` rounds are enough. The flag says that the transfer was given up. -/
def blkChunks (step : U64 → U32 → Transfer → BlkProg (Option Transfer)) :
    (k : ℕ) → (gpa : U64) → (rem : U32) → Transfer → BlkProg (Bool × Transfer)
  | 0, _, _, t => return (false, t)
  | k + 1, gpa, rem, t => do
    if rem = 0 then return (false, t)
    else
      let chunk := if rem < blkChunkMax then rem else blkChunkMax
      match ← step gpa chunk t with
      | none => return (true, { t with status := .ioerr })
      | some t =>
        blkChunks step k (gpa + chunk.setWidth 64) (rem - chunk) { t with off := t.off + chunk.setWidth 64 }

def blkData (step : U64 → U32 → Transfer → BlkProg (Option Transfer)) : List Desc → Transfer → BlkProg Transfer
  | [], t => return t
  | d :: ds, t => do
    let (stop, t) ← blkChunks step d.len.toNat d.addr d.len t
    if stop then return t else blkData step ds t

/-- `total`, in 64 bits. -/
def dataTotal (data : List Desc) : U64 := (data.map fun d => d.len.setWidth 64).sum

def blkTransfer (step : U64 → U32 → Transfer → BlkProg (Option Transfer)) (sector : U64) (data : List Desc)
    (t : Transfer) : BlkProg Transfer := do
  let v ← getDev
  if v.back.capacity < sector ∨ (v.back.capacity - sector) * zext sectorSize < dataTotal data then
    return { t with status := .ioerr }
  else blkData step data t

/-- The text "arm64emu-vblk" with the index, in the 20 bytes of an identifier. -/
def blkId (index : ℕ) : Bytes :=
  let text : Bytes := ("arm64emu-vblk".toList ++ (toString index).toList).map fun c => BitVec.ofNat 8 c.toNat
  text.take 19 ++ List.replicate (20 - (text.take 19).length) 0

/-- What a request of a given type does between its header and its status byte. The data
descriptors are those between the first and the last of the chain. -/
def blkServe (type : Option BlkType) (sector : U64) (data : List Desc) (t : Transfer) : BlkProg Transfer := do
  let v ← getDev
  match type with
  | some .write => if v.back.ro then return { t with status := .ioerr } else blkTransfer writeChunk sector data t
  | some .read => blkTransfer readChunk sector data t
  | some .getId =>
    match data with
    | [] => return t
    | d :: _ =>
      let cap := if d.len < 20 then d.len else 20
      writeBlk d.addr ((blkId v.back.index).take cap.toNat)
      return { t with usedLen := t.usedLen + cap }
  | some .flush =>
    BlkProg.fsync
    return t
  | none => return { t with status := .unsupp }

def blkVirtqMax : ℕ := 256

/-- `blk_request` after the walk along the chain. -/
def blkComplete (head : U32) (hdr : Desc) (data : List Desc) (last : Desc) : BlkProg Unit := do
  let type ← read hdr.addr 4
  let sector ← read (hdr.addr + 8) 8
  let t ← blkServe (BlkType.ofCode (type.setWidth 32)) sector data ⟨sector * zext sectorSize, 0, .ok⟩
  write last.addr 1 t.status.code
  DevProg.pushUsed queue0 head (t.usedLen + 1)

/-- The header, the data and the status descriptor of a chain of at least two. -/
def blkParts : List Desc → Option (Desc × List Desc × Desc)
  | hdr :: d :: ds => some (hdr, (d :: ds).dropLast, (d :: ds).getLast (by simp))
  | _ => none

def blkRequest (head : U32) : BlkProg Unit := do
  match blkParts (← collect queue0 blkVirtqMax 0 head) with
  | none => return ()
  | some (hdr, data, last) => blkComplete head hdr data last

def blkRound : BlkProg Unit := do
  let hd ← nextHead queue0
  blkRequest (hd.setWidth 32)
  advance queue0

def virtioBlkProcess (rounds : ℕ) : BlkProg Unit := process rounds queue0 blkRound (raise 1)

def blkReset : BlkProg Unit := do
  modifyDev fun v => .cleared v.back
  setLine false

def blkFeatures (v : Blk) : U64 := (1 <<< 32) ||| (1 <<< 9) ||| (if v.ro then 1 <<< 5 else 0)

/-- The first eight bytes of the configuration space; the others read as zero. -/
def blkConfig (v : Blk) : Bytes := (List.range 8).map fun i => (v.capacity >>> (8 * i)).setWidth 8

def blkKind (rounds : ℕ) : VirtioKind Blk BlkCall.Reply where
  deviceId := 2
  features := blkFeatures
  config := blkConfig
  queues := 1
  select := oneQueue
  reset := blkReset
  notify n := if n = 0 then virtioBlkProcess rounds else return ()

def blkRead (v : Virtio Blk) (off : U64) (size : ℕ) : U64 := virtioRead (blkKind 0) v off size

def blkWrite (rounds : ℕ) (off val : U64) : BlkProg Unit := virtioWrite (blkKind rounds) off val

end Arm64Emu
