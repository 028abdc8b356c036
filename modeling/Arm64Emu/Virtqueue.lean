import Arm64Emu.Bus
import Arm64Emu.ClampedCopy

/-! Virtqueues as the virtio devices use them: descriptors, the used ring, and the
transmit queue of the network device (`virtio_net.c`). The queue registers are part of the
device state, which a device reached by an access may change, so they are read anew. -/
namespace Arm64Emu

variable {D : Type}

structure Virtq where
  num : U32
  ready : U32
  desc : U64
  avail : U64
  used : U64
  lastAvail : U16
  deriving DecidableEq, Repr

structure Desc where
  addr : U64
  len : U32
  flags : U16
  next : U16
  deriving DecidableEq, Repr

namespace Desc

def hasNext (d : Desc) : Bool := d.flags.getLsbD 0

def isWrite (d : Desc) : Bool := d.flags.getLsbD 1

end Desc

def readDesc (P : Platform D) (table : U64) (idx : U32) (b : Bus D) : Desc × Bus D :=
  let d := table + idx.setWidth 64 * 16
  let (addr, b) := physRead P b d 8
  let (len, b) := physRead P b (d + 8) 4
  let (flags, b) := physRead P b (d + 12) 2
  let (next, b) := physRead P b (d + 14) 2
  (⟨addr, len.setWidth 32, flags.setWidth 16, next.setWidth 16⟩, b)

def availHead (P : Platform D) (q : Virtq) (b : Bus D) : U32 × Bus D :=
  let (hd, b) := physRead P b (q.avail + 4 + zext (q.lastAvail.toNat % q.num.toNat) * 2) 2
  ((hd.setWidth 16 : U16).setWidth 32, b)

/-- `push_used`. -/
def pushUsed (P : Platform D) (q : Bus D → Virtq) (id len : U32) (b : Bus D) : Bus D :=
  let (idx, b) := physRead P b ((q b).used + 2) 2
  let usedIdx : U16 := idx.setWidth 16
  let e := (q b).used + 4 + zext (usedIdx.toNat % (q b).num.toNat) * 8
  let b := physWrite P b e 4 (id.setWidth 64)
  let b := physWrite P b (e + 4) 4 (len.setWidth 64)
  physWrite P b ((q b).used + 2) 2 ((usedIdx + 1).setWidth 64)

/-- The packet buffer of `net_tx_process`: header and Ethernet frame. -/
def netPktSize : ℕ := 12 + 1518

/-- A packet that is being gathered: the buffer with the host memory after it, the length
so far, and the descriptors taken, with the copies made for them. -/
structure NetPacket where
  pkt : ℕ → U8
  plen : U32
  descs : List Desc
  copies : List (ℕ × ℕ)

/-- The gather loop of `net_tx_process`; the queue size bounds the chain. -/
def netGather (P : Platform D) (q : Bus D → Virtq) : ℕ → U32 → NetPacket → Bus D → NetPacket × Bus D
  | 0, _, g, b => (g, b)
  | n + 1, idx, g, b =>
    let (d, b) := readDesc P (q b).desc idx b
    let chunk := if netPktSize < (g.plen + d.len).toNat then BitVec.ofNat 32 netPktSize - g.plen else d.len
    let r := physReadBlk P b d.addr chunk.toNat
    let g : NetPacket :=
      { pkt := copyBytes g.pkt g.plen.toNat r.1
        plen := g.plen + chunk
        descs := g.descs ++ [d]
        copies := g.copies ++ [(g.plen.toNat, chunk.toNat)] }
    if d.hasNext then netGather P q n (d.next.setWidth 32) g r.2 else (g, r.2)

def netPacket (P : Platform D) (q : Bus D → Virtq) (head : U32) (pkt : ℕ → U8) (b : Bus D) : NetPacket × Bus D :=
  netGather P q ((q b).num.setWidth 16 : U16).toNat head ⟨pkt, 0, [], []⟩ b

lemma netGather_copies (P : Platform D) (q : Bus D → Virtq) (n : ℕ) (idx : U32) (g : NetPacket) (b : Bus D) :
    ∃ ds, (netGather P q n idx g b).1.descs = g.descs ++ ds ∧
      (netGather P q n idx g b).1.copies = g.copies ++ ClampedCopy.spans false netPktSize g.plen (ds.map Desc.len) := by
  induction n generalizing idx g b with
  | zero => exact ⟨[], by simp [netGather, ClampedCopy.spans]⟩
  | succ n ih =>
    unfold netGather
    dsimp only
    split
    · obtain ⟨ds, hdescs, hcopies⟩ := ih _ _ _
      refine ⟨_ :: ds, hdescs.trans (List.append_assoc ..), hcopies.trans ?_⟩
      rw [List.append_assoc]
      rfl
    · exact ⟨[_], rfl, rfl⟩

end Arm64Emu
