import Arm64Emu.Lens
import Arm64Emu.P9
import Arm64Emu.Virtqueue

/-! The request queue of the 9p device: a chain of descriptors is gathered into a message,
the message is served, and the reply is scattered over the writable descriptors. -/
namespace Arm64Emu

variable {D : Type}

/-- The device behind its registers, with the reply buffer and the host memory after it. -/
structure Virtio9p where
  p9 : P9
  resp : ℕ → U8
  isr : U32
  q : Virtq

section Queue
variable (P : Platform D) (L : Lens D Virtio9p)

def p9q (b : Bus D) : Virtq := (L.get b.dev).q

def virtqMax : ℕ := 512

/-- The walk along a chain; `n` descriptors have been taken, `k` more fit the arrays. -/
def p9Chain : (k n : ℕ) → U32 → Bus D → List Desc × Bus D
  | 0, _, _, b => ([], b)
  | k + 1, n, idx, b =>
    if (p9q L b).num.toNat ≤ n then ([], b)
    else
      let (d, b) := readDesc P (p9q L b).desc idx b
      if d.hasNext then
        let rest := p9Chain k (n + 1) (d.next.setWidth 32) b
        (d :: rest.1, rest.2)
      else ([d], b)

def storeReq (pos : ℕ) (bytes : Bytes) (b : Bus D) : Bus D :=
  { b with dev := L.modify (fun v => { v with p9.req := copyBytes v.p9.req pos bytes }) b.dev }

/-- The readable descriptors are copied into the request buffer. The result holds the
copies made, by offset and length, and the length of the request. -/
def p9Gather : List Desc → U32 → Bus D → (List (ℕ × ℕ) × U32) × Bus D
  | [], reqlen, b => (([], reqlen), b)
  | d :: ds, reqlen, b =>
    if reqlen.toNat < p9MsizeMax then
      let take := if p9MsizeMax < (reqlen + d.len).toNat then BitVec.ofNat 32 p9MsizeMax - reqlen else d.len
      let r := physReadBlk P b d.addr take.toNat
      let g := p9Gather ds (reqlen + take) (storeReq L reqlen.toNat r.1 r.2)
      (((reqlen.toNat, take.toNat) :: g.1.1, g.1.2), g.2)
    else (([], reqlen), b)

def p9Scatter (resplen : U32) : List Desc → U32 → Bus D → List (ℕ × ℕ) × Bus D
  | [], _, b => ([], b)
  | d :: ds, off, b =>
    if off.toNat < resplen.toNat then
      let chunk := if resplen.toNat < (off + d.len).toNat then resplen - off else d.len
      let b := physWriteBlk P b d.addr (bytesAt (L.get b.dev).resp off.toNat chunk.toNat)
      let g := p9Scatter resplen ds (off + chunk) b
      ((off.toNat, chunk.toNat) :: g.1, g.2)
    else ([], b)

structure P9Request (D : Type) where
  reads : List Desc
  writes : List Desc
  copies : List (ℕ × ℕ)
  reqlen : U32
  bus : Bus D

def p9Request (head : U32) (b : Bus D) : P9Request D :=
  let chain := p9Chain P L virtqMax 0 head b
  let reads := chain.1.filter fun d => !d.isWrite
  let g := p9Gather P L reads 0 chain.2
  ⟨reads, chain.1.filter Desc.isWrite, g.1.1, g.1.2, g.2⟩

def P9Request.wcap (r : P9Request D) : U32 := (r.writes.map Desc.len).sum

def storeReply (reply : Bytes) (v : P9) (b : Bus D) : Bus D :=
  { b with dev := L.modify (fun w => { w with p9 := v, resp := copyBytes w.resp 0 reply }) b.dev }

def p9Respond (head : U32) (writes : List Desc) (reply : Bytes) (v : P9) (b : Bus D) : List (ℕ × ℕ) × Bus D :=
  let resplen := BitVec.ofNat 32 reply.length
  let s := p9Scatter P L resplen writes 0 (storeReply L reply v b)
  (s.1, pushUsed P (p9q L) head resplen s.2)

/-- `p9_handle`. -/
def p9Handle (head : U32) (b : Bus D) : Host (Bus D) :=
  let r := p9Request P L head b
  (p9Dispatch (L.get r.bus.dev).p9 r.reqlen.toNat r.wcap.toNat).bind fun (reply, v) =>
  .ret (p9Respond P L head r.writes reply v r.bus).2

/-- The loop of `virtio_9p_process`. The ring index moves on with each round, so the 16
bits of an index bound the rounds. -/
def p9Drain (availIdx : U16) : ℕ → Bool → Bus D → Host (Bool × Bus D)
  | 0, did, b => .ret (did, b)
  | k + 1, did, b =>
    if (p9q L b).lastAvail = availIdx then .ret (did, b)
    else
      let (head, b) := availHead P (p9q L b) b
      (p9Handle P L head b).bind fun b =>
      let v := L.get b.dev
      p9Drain availIdx k true { b with dev := L.set b.dev { v with q.lastAvail := v.q.lastAvail + 1 } }

/-- `virtio_9p_process`; `raise` sets the interrupt line of the device. -/
def virtio9pProcess (raise : Bus D → Bus D) (b : Bus D) : Host (Bus D) :=
  if (p9q L b).ready = 0 ∨ (p9q L b).num = 0 then .ret b
  else
    let (idx, b) := physRead P b ((p9q L b).avail + 2) 2
    (p9Drain P L (idx.setWidth 16) 65536 false b).bind fun (did, b) =>
    if did then
      let v := L.get b.dev
      .ret (raise { b with dev := L.set b.dev { v with isr := v.isr ||| 1 } })
    else .ret b

end Queue

end Arm64Emu
