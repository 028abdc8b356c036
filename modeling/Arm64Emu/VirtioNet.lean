import Arm64Emu.Virtio

/-! The network device (`virtio_net.c`). Queue 0 receives, queue 1 transmits. -/
namespace Arm64Emu

open DevProg

def rxRingSize : ℕ := 64

structure Net where
  rxBuf : ℕ → ℕ → U8
  rxLen : ℕ → U32
  rxHead : ℕ
  rxTail : ℕ
  head_lt : rxHead < rxRingSize
  tail_lt : rxTail < rxRingSize

def Net.initial : Net := ⟨fun _ _ => 0, fun _ => 0, 0, 0, by decide, by decide⟩

/-- The calls of the user-mode network. While it works on one, it hands over frames. -/
inductive NetCall
  | input (frame : Bytes)
  | poll
  | guestReset
  deriving DecidableEq, Repr

def NetCall.Reply : NetCall → Type
  | guestReset => Unit
  | _ => List Bytes

abbrev NetProg (α : Type) : Type := DevProg Net NetCall.Reply α

namespace NetProg

def usernetInput (frame : Bytes) : NetProg (List Bytes) := host (NetCall.input frame)

def usernetPoll : NetProg (List Bytes) := host NetCall.poll

def usernetGuestReset : NetProg Unit := host NetCall.guestReset

end NetProg

def netHdrLen : ℕ := 12

def maxEthFrame : ℕ := 1518

def netQueueRx : Fin 2 := queue0

def netQueueTx : Fin 2 := queue1

/-- A header with `num_buffers` 1, and the frame; nothing while the ring is full. -/
def netDeliverFrame (n : Net) (frame : Bytes) : Net :=
  if maxEthFrame < frame.length then n
  else if (n.rxTail + 1) % rxRingSize = n.rxHead then n
  else
    let hdr : Bytes := [0, 0, 0, 0, 0, 0, 0, 0, 0, 0, 1, 0]
    { n with
      rxTail := (n.rxTail + 1) % rxRingSize
      rxBuf := Function.update n.rxBuf n.rxTail (copyBytes (n.rxBuf n.rxTail) 0 (hdr ++ frame))
      rxLen := Function.update n.rxLen n.rxTail (BitVec.ofNat 32 (netHdrLen + frame.length))
      tail_lt := Nat.mod_lt _ (by decide) }

/-- What `net_deliver_frame` returns: a frame that is too long is dropped without telling. -/
def netDeliverReturns (n : Net) (frame : Bytes) : Bool :=
  maxEthFrame < frame.length ∨ (n.rxTail + 1) % rxRingSize ≠ n.rxHead

def netTakeFrame (n : Net) : Net :=
  { n with rxHead := (n.rxHead + 1) % rxRingSize, head_lt := Nat.mod_lt _ (by decide) }

def netDropFrames (n : Net) : Net := { n with rxHead := 0, rxTail := 0, head_lt := by decide, tail_lt := by decide }

def netDeliver (frames : List Bytes) : NetProg Unit :=
  modifyDev fun v => { v with back := frames.foldl netDeliverFrame v.back }

/-- A descriptor of a receive chain: a writable one takes what fits of the frame. -/
def netRxBody (slot : ℕ) (flen : U32) (d : Desc) (written : U32) : NetProg U32 := do
  if d.isWrite then
    let chunk := if d.len < flen - written then d.len else flen - written
    let v ← getDev
    writeBlk d.addr (bytesAt (v.back.rxBuf slot) written.toNat chunk.toNat)
    return written + chunk
  else return written

def netRxRound : NetProg Unit := do
  let n := queueNum netQueueRx (← getDev)
  let hd ← nextHead netQueueRx
  advance netQueueRx
  let v ← getDev
  let slot := v.back.rxHead
  let flen := v.back.rxLen slot
  putDev { v with back := netTakeFrame v.back }
  let written ← DevProg.walk netQueueRx (fun w => w < flen) (return false) (netRxBody slot flen) n (hd.setWidth 32) 0
  DevProg.pushUsed netQueueRx (hd.setWidth 32) written

def netPending (v : Virtio Net) : Bool := v.back.rxHead ≠ v.back.rxTail

def netFlushRx (rounds : ℕ) : NetProg Unit := flush rounds netQueueRx netRxRound netPending

structure TxPacket where
  pkt : ℕ → U8
  plen : U32

def netTxBody (d : Desc) (p : TxPacket) : NetProg TxPacket := do
  let chunk := if netPktSize < (p.plen + d.len).toNat then BitVec.ofNat 32 netPktSize - p.plen else d.len
  let data ← readBlk d.addr chunk.toNat
  return ⟨copyBytes p.pkt p.plen.toNat data, p.plen + chunk⟩

/-- A packet of the guest goes to the network, without its header. -/
def netTxRound : NetProg Unit := do
  let n := queueNum netQueueTx (← getDev)
  let hd ← nextHead netQueueTx
  advance netQueueTx
  let p ← DevProg.walk netQueueTx (fun _ => true) (return false) netTxBody n (hd.setWidth 32) ⟨fun _ => 0, 0⟩
  if netHdrLen < p.plen.toNat then
    netDeliver (← NetProg.usernetInput (bytesAt p.pkt netHdrLen (p.plen.toNat - netHdrLen)))
  DevProg.pushUsed netQueueTx (hd.setWidth 32) 0

def netTxProcess (rounds : ℕ) : NetProg Unit := process rounds netQueueTx netTxRound (raise 1)

def netReset : NetProg Unit := do
  NetProg.usernetGuestReset
  modifyDev fun v => .cleared (netDropFrames v.back)
  setLine false

/-- Called from `machine_tick`. -/
def virtioNetPoll (rounds : ℕ) : NetProg Unit := do
  netDeliver (← NetProg.usernetPoll)
  netFlushRx rounds

def netConfig (_n : Net) : Bytes := [0x52, 0x54, 0x00, 0x12, 0x34, 0x56, 1, 0]

def netFeatures (_n : Net) : U64 := (1 <<< 32) ||| (1 <<< 5) ||| (1 <<< 16)

def netKind (rounds : ℕ) : VirtioKind Net NetCall.Reply where
  deviceId := 1
  features := netFeatures
  config := netConfig
  queues := 2
  select := twoQueues
  reset := netReset
  notify n := if n = 1 then netTxProcess rounds else if n = 0 then netFlushRx rounds else return ()

def netRead (v : Virtio Net) (off : U64) (size : ℕ) : U64 := virtioRead (netKind 0) v off size

def netWrite (rounds : ℕ) (off val : U64) : NetProg Unit := virtioWrite (netKind rounds) off val

end Arm64Emu
