import Arm64Emu.Bus
import Arm64Emu.Dialogue
import Arm64Emu.P9Wire
import Arm64Emu.RingBuffer

/-! The TCP proxy of the user-mode network (`usernet_tcp.c`). A connection is a program of
calls: segments to the guest, the calls on its host socket and, once it has no more to do,
a question for the next event. A call on behalf of a connection shows the connection as it
is then. -/
namespace Arm64Emu

def tfFin : U8 := 0x01
def tfSyn : U8 := 0x02
def tfRst : U8 := 0x04
def tfPsh : U8 := 0x08
def tfAck : U8 := 0x10

/-- Some bit of `f` is set. -/
def hasFlag (fl f : U8) : Bool := fl &&& f != 0

def unTcpMax : ℕ := 128
def unTcpH2g : U32 := 65536
def unTcpG2h : U32 := 32768
def unTcpMss : U32 := 1460
def unTcpRtoMs : ℕ := 500
def unTcpRtoShots : U8 := 8
def unTcpSynTmoMs : ℕ := 30000
def unTcpLingerMs : ℕ := 5000

def unIpHost : U32 := 0x0a000202
def unIpDns : U32 := 0x0a000203
def unIpGuest : U32 := 0x0a00020f

def seqLt (a b : U32) : Bool := (a - b).msb

def umin (a b : U32) : U32 := if a < b then a else b

def ringPut (buf : ℕ → U8) (cap head len : U32) (src : Bytes) (n : U32) : ℕ → U8 :=
  let tail := (head + len) % cap
  let first := umin n (cap - tail)
  copyBytes (copyBytes buf tail.toNat (src.take first.toNat)) 0 ((src.drop first.toNat).take (n - first).toNat)

def ringGet (buf : ℕ → U8) (cap pos n : U32) : Bytes :=
  let pos := pos % cap
  let first := umin n (cap - pos)
  bytesAt buf pos.toNat first.toNat ++ bytesAt buf 0 (n - first).toNat

inductive TcpState
  | synWait | synRcvd | synSent | est | linger
  deriving DecidableEq, Repr

structure TcpConn where
  state : TcpState
  isHostfwd : Bool := false
  rIp : U32
  rPort : U16
  gPort : U16
  fd : ℤ
  iss : U32
  sndUna : U32
  sndNxt : U32
  rcvNxt : U32 := 0
  mss : U32
  peerWnd : U32 := 0
  synackSent : Bool := false
  finSent : Bool := false
  finAcked : Bool := false
  guestFinRcvd : Bool := false
  hostEof : Bool := false
  hostWrShut : Bool := false
  h2g : ℕ → U8 := fun _ => 0
  g2h : ℕ → U8 := fun _ => 0
  h2gHead : U32 := 0
  h2gLen : U32 := 0
  g2hHead : U32 := 0
  g2hLen : U32 := 0
  rtoAt : ℕ := 0
  rtoShots : U8 := 0
  expireAt : ℕ := 0

structure Segment where
  rIp : U32
  rPort : U16
  gPort : U16
  seq : U32
  ack : U32
  flags : U8
  wnd : U16
  withMss : Bool
  payload : Bytes
  deriving DecidableEq, Repr

/-- A segment from the guest; `mss` is what `parse_mss` makes of its options. -/
structure GuestSegment where
  gPort : U16
  rPort : U16
  seq : U32
  ack : U32
  fl : U8
  wnd : U32
  mss : U16
  payload : Bytes
  deriving DecidableEq, Repr

def GuestSegment.plen (s : GuestSegment) : U32 := BitVec.ofNat 32 s.payload.length

/-- What `poll` reports of a socket. -/
structure Revents where
  pollin : Bool
  pollout : Bool
  pollerr : Bool
  pollhup : Bool
  deriving DecidableEq, Repr

inductive ConnEvent
  | segment (s : GuestSegment)
  | poll (revents : Revents)
  | tick
  | emit
  | reset
  deriving DecidableEq, Repr

/-- What `send` answers to `n` bytes: that it took some of them, that it would block, or
anything else. -/
inductive SendReply (n : ℕ)
  | sent (k : ℕ) (bounds : 0 < k ∧ k ≤ n)
  | again
  | failed

inductive ReadReply (want : ℕ)
  | data (bytes : Bytes) (bounds : 0 < bytes.length ∧ bytes.length ≤ want)
  | eof
  | again
  | failed

inductive ConnectReply
  | done | inProgress | failed
  deriving DecidableEq, Repr

inductive TcpCall
  | emit (c : TcpConn) (seg : Segment)
  | rstRaw (c : Option TcpConn) (seg : Segment)
  | send (c : TcpConn) (data : Bytes)
  | read (c : TcpConn) (want : ℕ)
  | shutdown (c : TcpConn)
  | resetOnClose (c : TcpConn)
  | soError (c : TcpConn)
  | close (c : TcpConn)
  | socket
  | connect (fd : ℤ) (ip : U32) (port : U16)
  | accept (listener : ℤ)
  | alloc
  | closeSocket (fd : ℤ)
  | dnsServer
  | next (c : TcpConn)

def TcpCall.Reply : TcpCall → Type
  | emit _ _ => Bool
  | send _ data => SendReply data.length
  | read _ want => ReadReply want
  | soError _ => Bool
  | socket => ℤ
  | connect _ _ _ => ConnectReply
  | accept _ => ℤ × U32 × U16
  | alloc => Bool
  | dnsServer => U32
  | next _ => ℕ × ConnEvent
  | _ => Unit

/-- The header fields that `tcp_emit` fills in. -/
def TcpConn.segment (c : TcpConn) (flags : U8) (seq : U32) (payload : Bytes) (withMss : Bool) : Segment where
  rIp := c.rIp
  rPort := c.rPort
  gPort := c.gPort
  seq := seq
  ack := if hasFlag flags tfAck then c.rcvNxt else 0
  flags := flags
  wnd := (umin (unTcpG2h - c.g2hLen) 65535).setWidth 16
  withMss := withMss
  payload := payload

abbrev TcpProg (α : Type) : Type := Dialogue TcpCall.Reply α

namespace TcpProg

def connFree (c : TcpConn) : TcpProg (Option TcpConn) :=
  if 0 ≤ c.fd then .call (.close c) fun _ => .ret none else .ret none

def tcpEmit (c : TcpConn) (flags : U8) (seq : U32) (payload : Bytes) (withMss : Bool) : TcpProg Bool :=
  .call (.emit c (c.segment flags seq payload withMss)) .ret

/-- A reset for a segment that belongs to no connection, or to `c` before the guest has an
answer to its SYN. -/
def tcpRstRaw (c : Option TcpConn) (rIp : U32) (rPort gPort : U16) (seq ack : U32) (withAck : Bool) : TcpProg Unit :=
  .call (.rstRaw c
    { rIp := rIp, rPort := rPort, gPort := gPort, seq := seq, ack := if withAck then ack else 0,
      flags := tfRst ||| (if withAck then tfAck else 0), wnd := 0, withMss := false, payload := [] }) .ret

def connAbort (c : TcpConn) : TcpProg (Option TcpConn) := do
  match c.state with
  | .synRcvd | .est | .synSent =>
    let _ ← tcpEmit c (tfRst ||| tfAck) c.sndNxt [] false
    connFree c
  | .synWait =>
    tcpRstRaw (some c) c.rIp c.rPort c.gPort 0 c.rcvNxt true
    connFree c
  | .linger => connFree c

def trySendSynack (now : ℕ) (c : TcpConn) : TcpProg TcpConn := do
  if ← tcpEmit c (tfSyn ||| tfAck) c.iss [] true then
    return { c with synackSent := true, sndNxt := c.iss + 1, rtoAt := now + unTcpRtoMs }
  else
    return c

def connLinger (now : ℕ) (c : TcpConn) : TcpProg TcpConn := do
  let _ ← tcpEmit c tfAck c.sndNxt [] false
  if 0 ≤ c.fd then
    .call (.close c) fun _ =>
      .ret { c with fd := -1, state := .linger, expireAt := now + unTcpLingerMs, rtoAt := 0 }
  else
    return { c with state := .linger, expireAt := now + unTcpLingerMs, rtoAt := 0 }

def maybeFinish (now : ℕ) (c : TcpConn) : TcpProg TcpConn :=
  if c.state = .est ∧ c.guestFinRcvd = true ∧ c.finSent = true ∧ c.finAcked = true ∧ c.g2hLen = 0 then
    connLinger now c
  else
    .ret c

/-- The loop of `drain_g2h`. It ends with whether something was sent, or with the
connection gone. Every round that goes on has sent a byte. -/
def drainLoop : ℕ → TcpConn → Bool → TcpProg (Option (TcpConn × Bool))
  | 0, c, drained => .ret (some (c, drained))
  | rounds + 1, c, drained =>
    if 0 < c.g2hLen then
      let chunk := umin c.g2hLen (unTcpG2h - c.g2hHead)
      .call (.send c (bytesAt c.g2h c.g2hHead.toNat chunk.toNat)) fun
        | .sent n _ =>
          drainLoop rounds { c with
            g2hHead := (c.g2hHead + BitVec.ofNat 32 n) % unTcpG2h
            g2hLen := c.g2hLen - BitVec.ofNat 32 n } true
        | .again => .ret (some (c, drained))
        | .failed => do
          let _ ← connAbort c
          return none
    else
      .ret (some (c, drained))

def ackDrained (c : TcpConn) (drained : Bool) : TcpProg Unit :=
  if drained = true ∧ c.state = .est then do
    let _ ← tcpEmit c tfAck c.sndNxt [] false
    return ()
  else
    .ret ()

def shutHost (c : TcpConn) : TcpProg TcpConn :=
  if c.g2hLen = 0 ∧ c.guestFinRcvd = true ∧ c.hostWrShut = false ∧ 0 ≤ c.fd then
    .call (.shutdown c) fun _ => .ret { c with hostWrShut := true }
  else
    .ret c

def drainG2h (now : ℕ) (c : TcpConn) : TcpProg (Option TcpConn) := do
  match ← drainLoop c.g2hLen.toNat c false with
  | none => return none
  | some (c, drained) =>
    ackDrained c drained
    let c ← shutHost c
    let c ← maybeFinish now c
    return some c

/-- The size of the buffer of `host_read`. -/
def readChunk : U32 := 16384

/-- Every round that goes on has read a byte or found the end of the stream. -/
def hostReadLoop : ℕ → TcpConn → TcpProg (Option TcpConn)
  | 0, c => .ret (some c)
  | rounds + 1, c =>
    if c.hostEof = false ∧ c.h2gLen < unTcpH2g then
      let want := umin readChunk (unTcpH2g - c.h2gLen)
      .call (.read c want.toNat) fun
        | .data bytes _ =>
          let n := BitVec.ofNat 32 bytes.length
          let c := { c with
            h2g := ringPut c.h2g unTcpH2g c.h2gHead c.h2gLen bytes n
            h2gLen := c.h2gLen + n }
          if n < want then .ret (some c) else hostReadLoop rounds c
        | .eof => hostReadLoop rounds { c with hostEof := true }
        | .again => .ret (some c)
        | .failed => do
          let _ ← connAbort c
          return none
    else
      .ret (some c)

def hostRead (c : TcpConn) : TcpProg (Option TcpConn) := hostReadLoop ((unTcpH2g - c.h2gLen).toNat + 1) c

/-- The loop of `emit_conn`, and whether it came to its end: a refused segment ends the
function. A segment is not empty, so that every round sends a byte. -/
def emitLoop (now : ℕ) : ℕ → TcpConn → TcpProg (TcpConn × Bool)
  | 0, c => .ret (c, true)
  | rounds + 1, c =>
    let sentOff := c.sndNxt - c.sndUna
    if c.h2gLen ≤ sentOff then .ret (c, true)
    else if c.peerWnd ≤ sentOff then .ret (c, true)
    else do
      let n := umin (umin c.mss (c.h2gLen - sentOff)) (c.peerWnd - sentOff)
      let seg := ringGet c.h2g unTcpH2g (c.h2gHead + sentOff) n
      if ← tcpEmit c (tfAck ||| tfPsh) c.sndNxt seg false then
        emitLoop now rounds { c with
          sndNxt := c.sndNxt + n
          rtoAt := if c.rtoAt = 0 then now + unTcpRtoMs else c.rtoAt }
      else
        return (c, false)

def emitFin (now : ℕ) (c : TcpConn) : TcpProg TcpConn := do
  if c.hostEof = true ∧ c.finSent = false ∧ c.sndNxt - c.sndUna = c.h2gLen then
    if ← tcpEmit c (tfFin ||| tfAck) c.sndNxt [] false then
      return { c with
        finSent := true
        sndNxt := c.sndNxt + 1
        rtoAt := if c.rtoAt = 0 then now + unTcpRtoMs else c.rtoAt }
    else
      return c
  else
    return c

def emitConn (now : ℕ) (c : TcpConn) : TcpProg TcpConn := do
  if c.state = .synRcvd ∧ c.synackSent = false then
    trySendSynack now c
  else if c.state ≠ .est ∨ c.finSent = true then
    return c
  else
    let (c, ended) ← emitLoop now c.h2gLen.toNat c
    if ended then emitFin now c else return c

end TcpProg

def unRd16 (t : Bytes) (i : ℕ) : U16 := (t[i]?).getD 0 ++ (t[i + 1]?).getD 0

def unRd32 (t : Bytes) (i : ℕ) : U32 := unRd16 t i ++ unRd16 t (i + 2)

/-- The walk of `parse_mss` over the options, from offset `o` to `doff`; each round passes
at least one byte. -/
def parseMssFrom (t : Bytes) (doff : ℕ) : ℕ → ℕ → U16
  | 0, _ => 536
  | rounds + 1, o =>
    let kind := (t[o]?).getD 0
    let len := (t[o + 1]?).getD 0
    if doff ≤ o ∨ kind = 0 then 536
    else if kind = 1 then parseMssFrom t doff rounds (o + 1)
    else if doff < o + 2 ∨ len < 2 ∨ doff < o + len.toNat then 536
    else if kind = 2 ∧ len = 4 then unRd16 t (o + 2)
    else parseMssFrom t doff rounds (o + len.toNat)

def parseMss (t : Bytes) (doff : ℕ) : U16 := parseMssFrom t doff doff 20

def clampMss (mss : U16) : U32 :=
  let m := umin (mss.setWidth 32) unTcpMss
  if m < 64 then 536 else m

/-- The header checks of `un_tcp_input`. -/
def GuestSegment.parse (t : Bytes) : Option GuestSegment :=
  let doff := ((t[12]?).getD 0 >>> 4).toNat * 4
  if t.length < 20 then none
  else if doff < 20 ∨ t.length < doff then none
  else some
    { gPort := unRd16 t 0, rPort := unRd16 t 2, seq := unRd32 t 4, ack := unRd32 t 8, fl := (t[13]?).getD 0
      wnd := (unRd16 t 14).setWidth 32, mss := parseMss t doff, payload := t.drop doff }

namespace TcpConn

/-- An acknowledgement that is taken: it moves the send queue on. -/
def acknowledged (now : ℕ) (c : TcpConn) (ack : U32) : TcpConn :=
  let data := umin (ack - c.sndUna) c.h2gLen
  { c with
    h2gHead := (c.h2gHead + data) % unTcpH2g
    h2gLen := c.h2gLen - data
    sndUna := ack
    rtoShots := 0
    rtoAt := if c.sndNxt ≠ ack then now + unTcpRtoMs else 0
    finAcked := c.finAcked || (c.finSent && ack == c.sndNxt) }

def taken (c : TcpConn) (s : GuestSegment) : U32 :=
  let skip := c.rcvNxt - s.seq
  if skip < s.plen then umin (s.plen - skip) (unTcpG2h - c.g2hLen) else 0

def store (c : TcpConn) (s : GuestSegment) : TcpConn :=
  let skip := c.rcvNxt - s.seq
  let n := c.taken s
  { c with
    g2h := ringPut c.g2h unTcpG2h c.g2hHead c.g2hLen (s.payload.drop skip.toNat) n
    g2hLen := c.g2hLen + n
    rcvNxt := c.rcvNxt + n }

def finishes (c : TcpConn) (s : GuestSegment) : Bool :=
  hasFlag s.fl tfFin && !c.guestFinRcvd && s.seq + s.plen == c.rcvNxt

def takeFin (c : TcpConn) (s : GuestSegment) : TcpConn :=
  if c.finishes s then { c with guestFinRcvd := true, rcvNxt := c.rcvNxt + 1 } else c

def answeredBy (c : TcpConn) (s : GuestSegment) : Bool :=
  s.fl &&& (tfSyn ||| tfAck) == tfSyn ||| tfAck && c.sndNxt == c.iss + 1 && s.ack == c.sndNxt

def establish (c : TcpConn) (ack : U32) : TcpConn :=
  { c with sndUna := ack, rtoAt := 0, rtoShots := 0, state := .est }

def rtoDue (now : ℕ) (c : TcpConn) : Bool := c.rtoAt != 0 && decide (c.rtoAt ≤ now)

def backOff (now : ℕ) (c : TcpConn) (shots : U8) : TcpConn :=
  { c with rtoShots := shots, rtoAt := now + unTcpRtoMs <<< min shots.toNat 6 }

end TcpConn

namespace TcpProg

/-- Acknowledgement processing. Freed space is filled from the host right away. -/
def ackInput (now : ℕ) (c : TcpConn) (s : GuestSegment) : TcpProg (Option TcpConn) :=
  if hasFlag s.fl tfAck = true ∧ seqLt c.sndUna s.ack = true ∧ seqLt c.sndNxt s.ack = false then
    let c := c.acknowledged now s.ack
    if c.hostEof = false then hostRead c else .ret (some c)
  else
    .ret (some c)

/-- The end of `un_tcp_input`. -/
def answerInput (now : ℕ) (c : TcpConn) (answer : Bool) : TcpProg (Option TcpConn) := do
  if answer then
    let _ ← tcpEmit c tfAck c.sndNxt [] false
  let c ← emitConn now c
  let c ← maybeFinish now c
  return some c

/-- Payload and FIN. What carried payload or ended the stream is acknowledged. -/
def dataInput (now : ℕ) (c : TcpConn) (s : GuestSegment) : TcpProg (Option TcpConn) := do
  if 0 < s.plen ∧ seqLt c.rcvNxt s.seq = true then
    let _ ← tcpEmit c tfAck c.sndNxt [] false
    return some c
  else
    let stored := c.store s
    let answer := 0 < s.plen ∨ stored.finishes s = true
    let c := stored.takeFin s
    if 0 < c.g2hLen ∨ c.guestFinRcvd = true then
      match ← drainG2h now c with
      | none => return none
      | some c => if c.state ≠ .est then return some c else answerInput now c answer
    else
      answerInput now c answer

def estInput (now : ℕ) (c : TcpConn) (s : GuestSegment) : TcpProg (Option TcpConn) := do
  match ← ackInput now c s with
  | none => return none
  | some c => dataInput now c s

def abortInput (c : TcpConn) : TcpProg (Option TcpConn) :=
  -- the host peer of a forwarded connection is to see a reset
  if c.isHostfwd = true ∧ 0 ≤ c.fd then .call (.resetOnClose c) fun _ => connFree c else connFree c

/-- `un_tcp_input` once it has found the connection. -/
def connInput (now : ℕ) (c : TcpConn) (s : GuestSegment) : TcpProg (Option TcpConn) :=
  if hasFlag s.fl tfRst then abortInput c
  else
    let c := { c with peerWnd := s.wnd }
    match c.state with
    | .synWait => .ret (some c)
    | .synSent =>
      if c.answeredBy s then do
        let c := { c.establish s.ack with rcvNxt := s.seq + 1, mss := clampMss s.mss }
        let _ ← tcpEmit c tfAck c.sndNxt [] false
        return some c
      else
        .ret (some c)
    | .synRcvd =>
      if hasFlag s.fl tfSyn then
        if c.synackSent then do
          let _ ← tcpEmit c (tfSyn ||| tfAck) c.iss [] true
          return some c
        else do
          let c ← trySendSynack now c
          return some c
      else if hasFlag s.fl tfAck = true ∧ c.synackSent = true ∧ s.ack = c.sndNxt then
        estInput now (c.establish s.ack) s
      else
        .ret (some c)
    | .linger => do
      let _ ← tcpEmit c tfAck c.sndNxt [] false
      return some c
    | .est => estInput now c s

/-- `un_tcp_event`. -/
def connEvent (now : ℕ) (c : TcpConn) (revents : Revents) : TcpProg (Option TcpConn) := do
  match c.state with
  | .synWait =>
    .call (.soError c) fun (err : Bool) =>
      if err then connAbort c
      else do
        let c ← trySendSynack now { c with state := .synRcvd }
        return some c
  | .est =>
    if revents.pollerr then connAbort c
    else
      let readable := (revents.pollin || revents.pollhup) && !c.hostEof && decide (c.h2gLen < unTcpH2g)
      match ← (if readable then hostRead c else .ret (some c)) with
      | none => return none
      | some c => if revents.pollout then drainG2h now c else return some c
  | _ => return some c

/-- The retransmission of `un_tcp_tick`. -/
def retransmit (c : TcpConn) : TcpProg Unit := do
  if c.state = .synRcvd then
    let _ ← tcpEmit c (tfSyn ||| tfAck) c.iss [] true
  else if c.sndNxt ≠ c.sndUna then
    if 0 < c.h2gLen then
      let n := umin c.mss c.h2gLen
      let _ ← tcpEmit c (tfAck ||| tfPsh) c.sndUna (ringGet c.h2g unTcpH2g c.h2gHead n) false
    else if c.finSent = true ∧ c.finAcked = false then
      let _ ← tcpEmit c (tfFin ||| tfAck) (c.sndNxt - 1) [] false

/-- One connection in `un_tcp_tick`. -/
def connTick (now : ℕ) (c : TcpConn) : TcpProg (Option TcpConn) :=
  match c.state with
  | .synWait => if c.expireAt ≤ now then connAbort c else .ret (some c)
  | .synSent =>
    if c.expireAt ≤ now then connAbort c
    else if c.rtoDue now then do
      let delivered ← tcpEmit c tfSyn c.iss [] true
      return some ((if delivered then { c with sndNxt := c.iss + 1 } else c).backOff now (c.rtoShots + 1))
    else .ret (some c)
  | .linger => if c.expireAt ≤ now then connFree c else .ret (some c)
  | _ =>
    if c.rtoDue now then
      if unTcpRtoShots < c.rtoShots + 1 then connAbort { c with rtoShots := c.rtoShots + 1 }
      else do
        retransmit { c with rtoShots := c.rtoShots + 1 }
        return some (c.backOff now (c.rtoShots + 1))
    else .ret (some c)

/-- One connection in `un_tcp_emit_all`. -/
def connEmit (now : ℕ) (c : TcpConn) : TcpProg (Option TcpConn) := do
  let c ← emitConn now c
  let c ← maybeFinish now c
  return some c

def connStep (now : ℕ) (c : TcpConn) : ConnEvent → TcpProg (Option TcpConn)
  | .segment s => connInput now c s
  | .poll revents => connEvent now c revents
  | .tick => connTick now c
  | .emit => connEmit now c
  | .reset => connFree c

def connRun : ℕ → TcpConn → TcpProg (Option TcpConn)
  | 0, c => .ret (some c)
  | events + 1, c =>
    .call (.next c) fun (now, e) => do
      match ← connStep now c e with
      | none => return none
      | some c => connRun events c

end TcpProg

/-- How a connection comes about: the guest's SYN, to a host that is connected at once or
not yet, or a connection of a host to a forwarded port. -/
inductive Opening
  | guest (dst : U32) (s : GuestSegment) (connected : Bool)
  | host (ip : U32) (port guestPort : U16)

namespace Opening

/-- The connection that `guest_open` or `un_tcp_accept` sets up. -/
def conn (now : ℕ) (iss : U32) (fd : ℤ) : Opening → TcpConn
  | guest dst s connected =>
    { state := if connected then .synRcvd else .synWait
      rIp := dst, rPort := s.rPort, gPort := s.gPort, fd := fd
      iss := iss, sndUna := iss, sndNxt := iss, rcvNxt := s.seq + 1
      mss := clampMss s.mss, peerWnd := s.wnd
      expireAt := if connected then 0 else now + unTcpSynTmoMs }
  | host ip port guestPort =>
    { state := .synSent, isHostfwd := true
      rIp := ip, rPort := port, gPort := guestPort, fd := fd
      iss := iss, sndUna := iss, sndNxt := iss
      mss := unTcpMss, expireAt := now + unTcpSynTmoMs }

def start (now : ℕ) (iss : U32) (fd : ℤ) (o : Opening) : TcpProg TcpConn := do
  let c := o.conn now iss fd
  match o with
  | guest _ _ true => TcpProg.trySendSynack now c
  | guest _ _ false => return c
  | host _ _ _ =>
    let delivered ← TcpProg.tcpEmit c tfSyn c.iss [] true
    return { (if delivered then { c with sndNxt := c.iss + 1 } else c) with rtoAt := now + unTcpRtoMs }

def life (o : Opening) (now : ℕ) (iss : U32) (fd : ℤ) (events : ℕ) : TcpProg (Option TcpConn) := do
  let c ← o.start now iss fd
  TcpProg.connRun events c

end Opening

end Arm64Emu
