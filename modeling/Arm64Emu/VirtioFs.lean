import Arm64Emu.P9Queue
import Arm64Emu.Virtio

/-! The 9p device (`virtio_9p.c`) behind its registers. -/
namespace Arm64Emu

open DevProg

/-- The file server with its reply buffer, and the tag that the guest mounts it by. -/
structure Share where
  p9 : P9
  resp : ℕ → U8
  tag : Bytes

abbrev FsProg (α : Type) : Type := DevProg Share HostCall.Reply α

/-- The readable descriptors go into the request buffer; the result is its length. -/
def fsGather : List Desc → U32 → FsProg U32
  | [], reqlen => return reqlen
  | d :: ds, reqlen => do
    if reqlen.toNat < p9MsizeMax then
      let take := if p9MsizeMax < (reqlen + d.len).toNat then BitVec.ofNat 32 p9MsizeMax - reqlen else d.len
      let data ← readBlk d.addr take.toNat
      modifyDev fun v => { v with back.p9.req := copyBytes v.back.p9.req reqlen.toNat data }
      fsGather ds (reqlen + take)
    else return reqlen

def fsScatter (resplen : U32) : List Desc → U32 → FsProg Unit
  | [], _ => return ()
  | d :: ds, off => do
    if off.toNat < resplen.toNat then
      let chunk := if resplen.toNat < (off + d.len).toNat then resplen - off else d.len
      let v ← getDev
      writeBlk d.addr (bytesAt v.back.resp off.toNat chunk.toNat)
      fsScatter resplen ds (off + chunk)
    else return ()

/-- `p9_dispatch`: the server runs on the request, and its reply is in the buffer. -/
def fsDispatch (reqlen wcap : ℕ) : FsProg U32 := do
  let v ← getDev
  let (reply, p9) ← lift (p9Dispatch v.back.p9 reqlen wcap)
  modifyDev fun v => { v with back.p9 := p9, back.resp := copyBytes v.back.resp 0 reply }
  return BitVec.ofNat 32 reply.length

/-- `p9_handle`. -/
def fsHandle (head : U32) : FsProg Unit := do
  let ds ← collect queue0 virtqMax 0 head
  let writes := ds.filter Desc.isWrite
  let reqlen ← fsGather (ds.filter fun d => !d.isWrite) 0
  let resplen ← fsDispatch reqlen.toNat (writes.map Desc.len).sum.toNat
  fsScatter resplen writes 0
  DevProg.pushUsed queue0 head resplen

def fsRound : FsProg Unit := do
  let hd ← nextHead queue0
  fsHandle (hd.setWidth 32)
  advance queue0

/-- `virtio_9p_process`. -/
def fsProcess (rounds : ℕ) : FsProg Unit := process rounds queue0 fsRound (raise 1)

/-- `fs_reset`. -/
def fsClear : FsProg Unit := do
  modifyDev fun v => .cleared v.back
  let v ← getDev
  let p9 ← lift (fsReset v.back.p9)
  modifyDev fun v => { v with back.p9 := p9 }
  setLine false

def fsConfig (s : Share) : Bytes :=
  [BitVec.ofNat 8 s.tag.length, BitVec.ofNat 8 (s.tag.length / 256)] ++ s.tag

def fsFeatures (_s : Share) : U64 := (1 <<< 32) ||| 1

def fsKind (rounds : ℕ) : VirtioKind Share HostCall.Reply where
  deviceId := 9
  features := fsFeatures
  config := fsConfig
  queues := 1
  select := oneQueue
  reset := fsClear
  notify n := if n = 0 then fsProcess rounds else return ()

def fsRead (v : Virtio Share) (off : U64) (size : ℕ) : U64 := virtioRead (fsKind 0) v off size

def fsWrite (rounds : ℕ) (off val : U64) : FsProg Unit := virtioWrite (fsKind rounds) off val

end Arm64Emu
