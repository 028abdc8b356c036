import Arm64Emu.Tcp

/-! The two byte streams of a connection. What the proxy holds for the guest is a part of
what it has read from the host, and what it holds for the host is a part of what the guest
has sent; the sequence numbers of the connection say which. -/
namespace Arm64Emu

open RingBuffer

section Words

lemma toNat_umin (a b : U32) : (umin a b).toNat = min a.toNat b.toNat := by
  unfold umin
  split
  · next h => rw [BitVec.lt_def] at h; omega
  · next h => rw [BitVec.lt_def] at h; omega

lemma toNat_ofNat_of_lt {n : ℕ} (h : n < 2 ^ 32) : (BitVec.ofNat 32 n).toNat = n := by
  rw [BitVec.toNat_ofNat, Nat.mod_eq_of_lt h]

lemma toNat_sub_of_toNat_le {a b : U32} (h : b.toNat ≤ a.toNat) : (a - b).toNat = a.toNat - b.toNat :=
  BitVec.toNat_sub_of_le (BitVec.le_def.2 h)

lemma toNat_add_of_lt {a b : U32} (h : a.toNat + b.toNat < 2 ^ 32) : (a + b).toNat = a.toNat + b.toNat :=
  BitVec.toNat_add_of_lt h

@[simp] lemma toNat_unTcpH2g : unTcpH2g.toNat = 65536 := rfl

@[simp] lemma toNat_unTcpG2h : unTcpG2h.toNat = 32768 := rfl

lemma seqLt_iff (a b : U32) : seqLt a b = true ↔ 2 ^ 31 ≤ (a - b).toNat := by
  unfold seqLt
  rw [BitVec.msb_eq_decide, decide_eq_true_iff]

lemma seq_between_iff {una nxt : U32} (hflight : (nxt - una).toNat < 2 ^ 31) (ack : U32) :
    (seqLt una ack = true ∧ seqLt nxt ack = false) ↔ 0 < (ack - una).toNat ∧ (ack - una).toNat ≤ (nxt - una).toNat := by
  rw [← Bool.not_eq_true, seqLt_iff, seqLt_iff]
  have h1 : una - ack = 0 - (ack - una) := by rw [zero_sub, neg_sub]
  have h2 : nxt - ack = (nxt - una) - (ack - una) := (sub_sub_sub_cancel_right nxt ack una).symm
  rw [h1, h2]
  generalize ack - una = d
  generalize nxt - una = f at hflight
  rw [BitVec.toNat_sub, BitVec.toNat_sub, show (0 : U32).toNat = 0 from rfl]
  have hd := d.isLt
  have hf := f.isLt
  omega

end Words

section Rings
variable {buf : ℕ → U8} {cap head len n : U32} {src : Bytes}

lemma ringPut_eq_put (hhead : head.toNat < cap.toNat) (hlen : len.toNat + n.toNat ≤ cap.toNat) (hcap : cap.toNat ≤ 2 ^ 31)
    (hsrc : n.toNat ≤ src.length) :
    ringPut buf cap head len src n = put buf cap.toNat ((head.toNat + len.toNat) % cap.toNat) (src.take n.toNat) := by
  have htail : ((head + len) % cap).toNat = (head.toNat + len.toNat) % cap.toNat := by
    rw [BitVec.toNat_umod, toNat_add_of_lt (by omega)]
  have hlt : (head.toNat + len.toNat) % cap.toNat < cap.toNat := Nat.mod_lt _ (by omega)
  have hroom : (cap - (head + len) % cap).toNat = cap.toNat - (head.toNat + len.toNat) % cap.toNat := by
    rw [toNat_sub_of_toNat_le (by rw [htail]; exact hlt.le), htail]
  unfold ringPut put
  dsimp only
  rw [htail, toNat_umin, hroom, List.length_take, Nat.min_eq_left hsrc]
  set first := min n.toNat (cap.toNat - (head.toNat + len.toNat) % cap.toNat) with hfirst
  have hrest : (n - umin n (cap - (head + len) % cap)).toNat = n.toNat - first := by
    rw [toNat_sub_of_toNat_le (by rw [toNat_umin]; omega), toNat_umin, hroom]
  rw [hrest, List.take_take, Nat.min_eq_left (by omega), List.drop_take]
  rfl

lemma ringGet_eq_get {pos : U32} (hcap : 0 < cap.toNat) : ringGet buf cap pos n = RingBuffer.get buf cap.toNat (pos.toNat % cap.toNat) n.toNat := by
  have hlt : pos.toNat % cap.toNat < cap.toNat := Nat.mod_lt _ hcap
  have hroom : (cap - pos % cap).toNat = cap.toNat - pos.toNat % cap.toNat := by
    rw [toNat_sub_of_toNat_le (by rw [BitVec.toNat_umod]; exact hlt.le), BitVec.toNat_umod]
  have hrest : (n - umin n (cap - pos % cap)).toNat = n.toNat - min n.toNat (cap.toNat - pos.toNat % cap.toNat) := by
    rw [toNat_sub_of_toNat_le (by rw [toNat_umin]; omega), toNat_umin, hroom]
  unfold ringGet RingBuffer.get
  dsimp only
  rw [hrest, toNat_umin, hroom, BitVec.toNat_umod]
  rfl

structure ByteRing where
  buf : ℕ → U8
  head : U32
  len : U32

inductive RingOp
  | put (src : Bytes) (n : U32)
  | drop (n : U32)

namespace ByteRing
variable {r : ByteRing}

def apply (cap : U32) (r : ByteRing) : RingOp → ByteRing
  | .put src n => { r with buf := ringPut r.buf cap r.head r.len src n, len := r.len + n }
  | .drop n => { r with head := (r.head + n) % cap, len := r.len - n }

def InRange (r : ByteRing) (cap : U32) : Prop := r.head < cap ∧ r.len ≤ cap

def Fits (cap : U32) (r : ByteRing) : RingOp → Prop
  | .put src n => n ≤ cap - r.len ∧ n.toNat ≤ src.length
  | .drop n => n ≤ r.len

def FitsAll (cap : U32) : ByteRing → List RingOp → Prop
  | _, [] => True
  | r, op :: ops => r.Fits cap op ∧ FitsAll cap (r.apply cap op) ops

instance (r : ByteRing) (cap : U32) : Decidable (r.InRange cap) := inferInstanceAs (Decidable (_ ∧ _))

instance (cap : U32) (r : ByteRing) : (op : RingOp) → Decidable (r.Fits cap op)
  | .put _ _ => inferInstanceAs (Decidable (_ ∧ _))
  | .drop n => inferInstanceAs (Decidable (n ≤ r.len))

def queue (r : ByteRing) (cap : U32) : Bytes := contents r.buf cap.toNat r.head.toNat r.len.toNat

def queueAfter (q : Bytes) : RingOp → Bytes
  | .put src n => q ++ src.take n.toNat
  | .drop n => q.drop n.toNat

lemma room (hr : r.InRange cap) (hn : n ≤ cap - r.len) : r.len.toNat + n.toNat ≤ cap.toNat := by
  have hlen := BitVec.le_def.1 hr.2
  have := BitVec.le_def.1 hn
  rw [toNat_sub_of_toNat_le hlen] at this
  omega

lemma apply_queue (hcap : cap.toNat ≤ 2 ^ 31) (hr : r.InRange cap) (op : RingOp) (hop : r.Fits cap op) :
    (r.apply cap op).InRange cap ∧ (r.apply cap op).queue cap = queueAfter (r.queue cap) op := by
  have hhead := BitVec.lt_def.1 hr.1
  have hlen := BitVec.le_def.1 hr.2
  cases op with
  | put src n =>
    obtain ⟨hn, hsrc⟩ := hop
    have hroom := room hr hn
    have hlen' : (r.len + n).toNat = r.len.toNat + n.toNat := toNat_add_of_lt (by omega)
    refine ⟨⟨hr.1, BitVec.le_def.2 (hlen'.trans_le hroom)⟩, ?_⟩
    have hput := @contents_put _ r.buf _ _ r.len.toNat (src.take n.toNat) hhead (by simp; omega)
    simp only [apply, queue, queueAfter]
    rw [ringPut_eq_put hhead hroom hcap hsrc, hlen', ← hput, List.length_take, Nat.min_eq_left hsrc]
  | drop n =>
    have hn : n.toNat ≤ r.len.toNat := BitVec.le_def.1 hop
    have hhead' : ((r.head + n) % cap).toNat = (r.head.toNat + n.toNat) % cap.toNat := by
      rw [BitVec.toNat_umod, toNat_add_of_lt (by omega)]
    have hlen' : (r.len - n).toNat = r.len.toNat - n.toNat := toNat_sub_of_toNat_le hn
    refine ⟨⟨BitVec.lt_def.2 ?_, BitVec.le_def.2 ?_⟩, ?_⟩
    · exact hhead'.trans_lt (Nat.mod_lt _ (by omega))
    · exact hlen'.trans_le (by omega)
    · simp only [apply, queue, queueAfter]
      rw [hhead', hlen', contents_advance hn]

lemma run_queue (hcap : cap.toNat ≤ 2 ^ 31) (ops : List RingOp) (hr : r.InRange cap) (hops : r.FitsAll cap ops) :
    (ops.foldl (apply cap) r).InRange cap ∧
      (ops.foldl (apply cap) r).queue cap = ops.foldl queueAfter (r.queue cap) := by
  induction ops generalizing r with
  | nil => exact ⟨hr, rfl⟩
  | cons op ops ih =>
    obtain ⟨hr', hq⟩ := apply_queue hcap hr op hops.1
    rw [List.foldl_cons, List.foldl_cons, ← hq]
    exact ih hr' hops.2

lemma ringGet_queue (hcap : cap.toNat ≤ 2 ^ 31) (hr : r.InRange cap) {off k : U32}
    (hk : off.toNat + k.toNat ≤ r.len.toNat) :
    ringGet r.buf cap (r.head + off) k = ((r.queue cap).drop off.toNat).take k.toNat := by
  have hhead := BitVec.lt_def.1 hr.1
  have hlen := BitVec.le_def.1 hr.2
  rw [ringGet_eq_get (by omega), toNat_add_of_lt (by omega)]
  exact get_eq_slice hhead hlen hk

/-- After any puts and head advances that fit, a read gives the bytes of the queue, and a
put changes no byte but the next ones behind it. -/
theorem ring_refines_queue (hcap : cap.toNat ≤ 2 ^ 31) (r : ByteRing) (hr : r.InRange cap) (ops : List RingOp)
    (hops : r.FitsAll cap ops) :
    (ops.foldl (apply cap) r).queue cap = ops.foldl queueAfter (r.queue cap) ∧
      (∀ off k : U32, off.toNat + k.toNat ≤ (ops.foldl (apply cap) r).len.toNat →
        ringGet (ops.foldl (apply cap) r).buf cap ((ops.foldl (apply cap) r).head + off) k =
          ((ops.foldl queueAfter (r.queue cap)).drop off.toNat).take k.toNat) ∧
      ∀ src n, (ops.foldl (apply cap) r).Fits cap (.put src n) → ∀ x,
        (∀ i < n.toNat, ((ops.foldl (apply cap) r).head.toNat + (ops.foldl (apply cap) r).len.toNat + i) % cap.toNat ≠ x) →
          ((ops.foldl (apply cap) r).apply cap (.put src n)).buf x = (ops.foldl (apply cap) r).buf x := by
  obtain ⟨hr', hq⟩ := run_queue hcap ops hr hops
  generalize ops.foldl (apply cap) r = r' at hr' hq ⊢
  rw [← hq]
  refine ⟨rfl, fun off k hk => ringGet_queue hcap hr' hk, fun src n hput x hx => ?_⟩
  have hhead := BitVec.lt_def.1 hr'.1
  have hroom := room hr' hput.1
  have hsrc : (src.take n.toNat).length = n.toNat := by simp [hput.2]
  simp only [apply]
  rw [ringPut_eq_put hhead hroom hcap hput.2]
  apply put_of_ne (Nat.mod_lt _ (by omega)) (by omega)
  intro i hi
  rw [Nat.mod_add_mod]
  exact hx i (by omega)

/-- Two bytes and then two more, in a ring of three with the first dropped. -/
theorem ring_refines_queue_wraps :
    ringGet ([.put [1, 2] 2, .drop 1, .put [3, 4] 2].foldl (apply 3) ⟨fun _ => 0, 1, 0⟩).buf 3 (2 + 0) 3 = [2, 3, 4] :=
  (ring_refines_queue (by decide) ⟨fun _ => 0, 1, 0⟩ (by decide) [.put [1, 2] 2, .drop 1, .put [3, 4] 2]
    ⟨by decide, by decide, by decide, trivial⟩).2.1 0 3 (by decide)

/-- The sum of head and length has 32 bits: a byte put into a ring of more than `2 ^ 31`
bytes falls on the second of the queue. -/
theorem ring_put_past_32_bits : ∃ (cap : U32) (r : ByteRing) (src : Bytes) (n off k : U32),
    r.InRange cap ∧ r.Fits cap (.put src n) ∧ off.toNat + k.toNat ≤ (r.apply cap (.put src n)).len.toNat ∧
      ringGet (r.apply cap (.put src n)).buf cap ((r.apply cap (.put src n)).head + off) k ≠
        ((queueAfter (r.queue cap) (.put src n)).drop off.toNat).take k.toNat := by
  refine ⟨0xc0000000, ⟨fun _ => 0, 0xbfffffff, 0x40000001⟩, [1], 1, 1, 1, by decide, ⟨by decide, by decide⟩, by decide, ?_⟩
  intro h
  have hget := congrArg (·[0]?) h
  simp only [queueAfter, List.getElem?_take_of_lt (show 0 < (1 : U32).toNat by decide), List.getElem?_drop] at hget
  rw [List.getElem?_append_left (by simp [queue]), queue, getElem?_contents (by decide)] at hget
  exact absurd hget (by decide)

end ByteRing

end Rings

namespace TcpConn

/-- What waits for the guest: from its next unacknowledged byte on. -/
def toGuest (c : TcpConn) : Bytes := contents c.h2g unTcpH2g.toNat c.h2gHead.toNat c.h2gLen.toNat

def toHost (c : TcpConn) : Bytes := contents c.g2h unTcpG2h.toNat c.g2hHead.toNat c.g2hLen.toNat

def key (c : TcpConn) : U16 × U32 × U16 := (c.gPort, c.rIp, c.rPort)

def finBit (c : TcpConn) : ℕ := c.guestFinRcvd.toNat

def inFlight (c : TcpConn) : ℕ := (c.sndNxt - c.sndUna).toNat

def stores (c : TcpConn) (s : GuestSegment) : Bool :=
  c.state == .est && !hasFlag s.fl tfRst && decide (0 < s.plen) && !seqLt c.rcvNxt s.seq && c.taken s != 0

/-- A tick that comes now sends no byte again that was not sent yet, and none outside the
guest's window. -/
def modest (now : ℕ) (c : TcpConn) : Bool :=
  let n := umin c.mss c.h2gLen
  !(c.state == .est && c.rtoDue now && decide (c.rtoShots + 1 ≤ unTcpRtoShots)) ||
    (decide (n ≤ c.sndNxt - c.sndUna) && decide (n ≤ c.peerWnd))

end TcpConn

def Segment.span (seg : Segment) : ℕ :=
  seg.payload.length + (hasFlag seg.flags tfSyn).toNat + (hasFlag seg.flags tfFin).toNat

def Segment.stop (seg : Segment) : U32 := seg.seq + BitVec.ofNat 32 seg.span

structure TcpLog where
  iss : U32
  key : U16 × U32 × U16
  /-- The open socket. -/
  socket : Option ℤ
  /-- The bytes read from the host. -/
  host : Bytes := []
  eof : Bool := false
  /-- The segments of the guest, and its initial sequence number. -/
  segs : List GuestSegment := []
  irs : Option U32
  /-- How many bytes the host has taken. -/
  passed : ℕ := 0
  /-- The last right edge of the window that the guest was told, from its first byte on. -/
  edge : ℕ := 0
  /-- The next sequence number and the bytes stored, when the guest's FIN was taken. -/
  fin : Option (U32 × ℕ) := none
  shut : Bool := false
  /-- No payload has been stored behind the guest's FIN. -/
  quiet : Bool := true
  /-- The sequence number behind what the guest has received. -/
  top : U32
  /-- The last acknowledgement of what the guest has received. -/
  paid : U32
  /-- Every tick so far was modest. -/
  tame : Bool := true

namespace TcpLog

def see (g : TcpLog) (c : TcpConn) : TcpLog :=
  { g with fin := g.fin <|> if c.guestFinRcvd then some (c.rcvNxt, g.passed + c.g2hLen.toNat) else none }

def emitted (g : TcpLog) (c : TcpConn) (seg : Segment) (delivered : Bool) : TcpLog :=
  { g.see c with
    edge := if hasFlag seg.flags tfAck then g.passed + unTcpG2h.toNat + c.finBit else g.edge
    top := if delivered = true ∧ g.top - c.sndUna < seg.stop - c.sndUna then seg.stop else g.top }

def arrive (g : TcpLog) (now : ℕ) (c : TcpConn) : ConnEvent → TcpLog
  | .segment s =>
    { g.see c with
      segs := s :: g.segs
      irs := if c.state = .synSent ∧ hasFlag s.fl tfRst = false ∧ c.answeredBy s = true then some s.seq else g.irs
      paid := if hasFlag s.fl tfRst = false ∧ hasFlag s.fl tfAck = true ∧ s.ack - c.sndUna ≤ g.top - c.sndUna then s.ack else g.paid
      quiet := g.quiet && !(c.guestFinRcvd && c.stores s) }
  | .tick => { g.see c with tame := g.tame && c.modest now }
  | _ => g.see c

def after (g : TcpLog) : (call : TcpCall) → call.Reply → TcpLog
  | .emit c seg, delivered => g.emitted c seg delivered
  | .send c _, r => match r with
    | .sent n _ => { g.see c with passed := g.passed + n }
    | _ => g.see c
  | .read c _, r => match r with
    | .data bytes _ => { g.see c with host := g.host ++ bytes }
    | .eof => { g.see c with eof := true }
    | _ => g.see c
  | .shutdown c, _ => { g.see c with shut := true }
  | .close c, _ => { g.see c with socket := none }
  | .next c, (now, e) => g.arrive now c e
  | .resetOnClose c, _ => g.see c
  | .soError c, _ => g.see c
  | _, _ => g

end TcpLog

/-- The guest sent this byte under the sequence number of position `p`. -/
def Carried (segs : List GuestSegment) (irs : U32) (p : ℕ) (b : U8) : Prop :=
  ∃ s ∈ segs, ∃ j, s.payload[j]? = some b ∧ s.seq + BitVec.ofNat 32 j = irs + 1 + BitVec.ofNat 32 p

structure Handshaking (host : Bytes) (eof : Bool) (passed edge : ℕ) (c : TcpConn) : Prop where
  una : c.sndUna = c.iss
  nxt : c.sndNxt = c.iss ∨ c.sndNxt = c.iss + 1
  waits : c.state = .synWait → c.sndNxt = c.iss ∧ edge = 0
  synack : c.state ≠ .synSent → (c.synackSent = true ↔ c.sndNxt = c.iss + 1)
  armed : c.state ≠ .synSent → c.rtoAt ≠ 0 → c.sndNxt = c.iss + 1
  unanswered : c.state = .synSent → c.rcvNxt = 0
  toGuest : c.h2gLen = 0
  toHost : c.g2hLen = 0
  finSent : c.finSent = false
  finAcked : c.finAcked = false
  guestFin : c.guestFinRcvd = false
  host : host = []
  eof : eof = false
  passed : passed = 0

/-- The host's stream: `a` of its bytes, and perhaps the FIN behind the last one, are
acknowledged. -/
structure HostSide (host : Bytes) (eof : Bool) (c : TcpConn) (a : ℕ) : Prop where
  una : c.sndUna = c.iss + 1 + BitVec.ofNat 32 a
  queue : c.toGuest = host.drop a
  unsent : c.finSent = false → a + c.inFlight ≤ host.length
  sent : c.finSent = true → eof = true ∧ a + c.inFlight = host.length + 1
  finAcked : c.finAcked = true → c.finSent = true ∧ c.sndNxt = c.sndUna

/-- The guest's stream: what is stored and not yet passed on. -/
structure GuestSide (segs : List GuestSegment) (quiet : Bool) (passed : ℕ) (c : TcpConn) (i : U32) : Prop where
  rcvNxt : c.rcvNxt = i + 1 + BitVec.ofNat 32 (passed + c.g2hLen.toNat + c.finBit)
  bytes : quiet = true → ∀ k b, c.toHost[k]? = some b → Carried segs i (passed + k) b

structure TcpInv (g : TcpLog) (c : TcpConn) : Prop where
  iss : c.iss = g.iss
  key : c.key = g.key
  mss : 64 ≤ c.mss.toNat ∧ c.mss.toNat ≤ 1460
  h2gHead : c.h2gHead.toNat < 65536
  h2gLen : c.h2gLen.toNat ≤ 65536
  g2hHead : c.g2hHead.toNat < 32768
  g2hLen : c.g2hLen.toNat ≤ 32768
  socket : g.socket = if c.state = .linger then none else some c.fd
  fd : c.state = .linger ↔ c.fd < 0
  eof : c.hostEof = g.eof
  shut : c.hostWrShut = g.shut
  edge : g.edge ≤ g.passed + 32768 + c.finBit
  fin : ∀ f, g.fin = some f →
    c.guestFinRcvd = true ∧ (g.quiet = true → f = (c.rcvNxt, g.passed + c.g2hLen.toNat))
  rto : c.state = .est → c.rtoAt ≠ 0 → c.sndNxt ≠ c.sndUna
  fresh : c.state = .synWait ∨ c.state = .synRcvd ∨ c.state = .synSent → Handshaking g.host g.eof g.passed g.edge c
  hostSide : c.state = .est ∨ c.state = .linger → ∃ a, HostSide g.host g.eof c a
  synSent : c.state = .synSent → g.irs = none
  guestSide : c.state ≠ .synSent → ∃ i, g.irs = some i ∧ GuestSide g.segs g.quiet g.passed c i
  linger : c.state = .linger → c.guestFinRcvd = true ∧ c.finAcked = true ∧ c.g2hLen = 0

/-- In a tame run the guest has received what is sent, and its acknowledgements are taken. -/
structure Sends (g : TcpLog) (c : TcpConn) : Prop where
  top : g.tame = true → g.top = c.sndNxt
  paid : g.tame = true → c.state = .est → g.paid = c.sndUna

structure Good (g : TcpLog) (c : TcpConn) : Prop extends TcpInv g c, Sends g c

section Steps
variable {g : TcpLog} {c : TcpConn}

lemma TcpInv.see (h : TcpInv g c) : TcpInv (g.see c) c :=
  { h with
    fin := by
      intro f hf
      unfold TcpLog.see at hf
      dsimp only at hf
      cases hg : g.fin with
      | some f' =>
        rw [hg] at hf
        obtain rfl : f' = f := by simpa using hf
        exact h.fin f' hg
      | none =>
        rw [hg] at hf
        by_cases hfin : c.guestFinRcvd = true
        · rw [if_pos hfin] at hf
          exact ⟨hfin, fun _ => (Option.some.inj hf).symm⟩
        · rw [if_neg hfin] at hf
          simp at hf }

lemma TcpInv.emitted (h : TcpInv g c) (hstate : c.state ≠ .synWait) (seg : Segment) (delivered : Bool) :
    TcpInv (g.emitted c seg delivered) c :=
  { h.see with
    edge := by
      have hedge := h.edge
      unfold TcpLog.emitted
      dsimp only
      split
      · exact le_rfl
      · exact hedge
    fresh := fun hs => { h.fresh hs with waits := fun hwait => absurd hwait hstate } }

lemma TcpInv.timers (h : TcpInv g c) (wnd : U32) (shots : U8) {rto : ℕ}
    (hrto : c.state ≠ .synSent → rto ≠ 0 → c.rtoAt ≠ 0) :
    TcpInv g { c with peerWnd := wnd, rtoShots := shots, rtoAt := rto } :=
  { h with
    rto := fun hs harmed => h.rto hs (hrto (by rw [show c.state = .est from hs]; simp) harmed)
    fresh := fun hs => { h.fresh hs with armed := fun hno harmed => (h.fresh hs).armed hno (hrto hno harmed) }
    hostSide := fun hs => (h.hostSide hs).imp fun _ ha => { ha with }
    guestSide := fun hs => (h.guestSide hs).imp fun _ hi => ⟨hi.1, { hi.2 with }⟩ }

lemma length_toGuest (c : TcpConn) : c.toGuest.length = c.h2gLen.toNat := length_contents _ _ _ _

lemma length_toHost (c : TcpConn) : c.toHost.length = c.g2hLen.toNat := length_contents _ _ _ _

lemma HostSide.length {host : Bytes} {eof : Bool} {a : ℕ} (h : HostSide host eof c a) : c.h2gLen.toNat = host.length - a := by
  rw [← length_toGuest, h.queue, List.length_drop]

lemma HostSide.inFlight_le {host : Bytes} {eof : Bool} {a : ℕ} (h : HostSide host eof c a) :
    c.inFlight ≤ c.h2gLen.toNat + c.finSent.toNat := by
  have hlen := h.length
  cases hfin : c.finSent with
  | false =>
    have := h.unsent hfin
    simp only [Bool.toNat_false]
    omega
  | true =>
    have := (h.sent hfin).2
    simp only [Bool.toNat_true]
    omega

lemma TcpInv.pass {n : ℕ} (h : TcpInv g c) (hstate : c.state = .est) (hn : n ≤ c.g2hLen.toNat) :
    TcpInv { g with passed := g.passed + n }
      { c with g2hHead := (c.g2hHead + BitVec.ofNat 32 n) % unTcpG2h, g2hLen := c.g2hLen - BitVec.ofNat 32 n } := by
  have hlen := h.g2hLen
  have hhead := h.g2hHead
  have hn32 : (BitVec.ofNat 32 n).toNat = n := toNat_ofNat_of_lt (by omega)
  have hlen' : (c.g2hLen - BitVec.ofNat 32 n).toNat = c.g2hLen.toNat - n := by
    rw [toNat_sub_of_toNat_le (by omega), hn32]
  have hhead' : ((c.g2hHead + BitVec.ofNat 32 n) % unTcpG2h).toNat = (c.g2hHead.toNat + n) % 32768 := by
    rw [BitVec.toNat_umod, toNat_add_of_lt (by omega), hn32, toNat_unTcpG2h]
  refine
    { h with
      g2hHead := by rw [hhead']; exact Nat.mod_lt _ (by omega)
      g2hLen := by rw [hlen']; omega
      edge := ?_
      fin := ?_
      fresh := fun hs => absurd hs (by simp [hstate])
      hostSide := fun hs => (h.hostSide hs).imp fun _ ha => { ha with }
      guestSide := fun hs => ?_
      linger := fun hs => absurd hs (by simp [hstate]) }
  · have hedge := h.edge
    change g.edge ≤ g.passed + n + 32768 + c.finBit
    omega
  · intro f hf
    obtain ⟨hfin, hval⟩ := h.fin f hf
    refine ⟨hfin, fun hq => ?_⟩
    rw [hval hq]
    dsimp only
    rw [hlen']
    congr 1
    omega
  · obtain ⟨i, hirs, hi⟩ := h.guestSide hs
    refine ⟨i, hirs, ?_, fun hq k b hb => ?_⟩
    · have hsum : g.passed + n + (c.g2hLen.toNat - n) = g.passed + c.g2hLen.toNat := by omega
      dsimp only
      rw [hlen', hsum]
      exact hi.rcvNxt
    · have hqueue : TcpConn.toHost { c with
          g2hHead := (c.g2hHead + BitVec.ofNat 32 n) % unTcpG2h
          g2hLen := c.g2hLen - BitVec.ofNat 32 n } = c.toHost.drop n := by
        unfold TcpConn.toHost
        rw [← contents_advance hn]
        dsimp only
        rw [hlen', hhead', toNat_unTcpG2h]
      rw [hqueue, List.getElem?_drop] at hb
      have := hi.bytes hq _ b hb
      rwa [← Nat.add_assoc] at this

lemma TcpInv.read (h : TcpInv g c) (hstate : c.state = .est) (heof : c.hostEof = false) (bytes : Bytes)
    (hroom : c.h2gLen.toNat + bytes.length ≤ 65536) :
    TcpInv { g with host := g.host ++ bytes }
      { c with
        h2g := ringPut c.h2g unTcpH2g c.h2gHead c.h2gLen bytes (BitVec.ofNat 32 bytes.length)
        h2gLen := c.h2gLen + BitVec.ofNat 32 bytes.length } := by
  have hhead := h.h2gHead
  have hn32 : (BitVec.ofNat 32 bytes.length).toNat = bytes.length := toNat_ofNat_of_lt (by omega)
  have hlen' : (c.h2gLen + BitVec.ofNat 32 bytes.length).toNat = c.h2gLen.toNat + bytes.length := by
    rw [toNat_add_of_lt (by omega), hn32]
  refine
    { h with
      h2gLen := by rw [hlen']; omega
      fresh := fun hs => absurd hs (by simp [hstate])
      hostSide := fun hs => ?_
      guestSide := fun hs => (h.guestSide hs).imp fun _ hi => ⟨hi.1, { hi.2 with }⟩ }
  obtain ⟨a, ha⟩ := h.hostSide hs
  -- no FIN before the end of the stream
  have hfin : c.finSent = false := by
    by_contra hsent
    have hend := (ha.sent (by simpa using hsent)).1
    rw [← h.eof, heof] at hend
    exact Bool.false_ne_true hend
  have hle := ha.unsent hfin
  have hqueue : TcpConn.toGuest { c with
      h2g := ringPut c.h2g unTcpH2g c.h2gHead c.h2gLen bytes (BitVec.ofNat 32 bytes.length)
      h2gLen := c.h2gLen + BitVec.ofNat 32 bytes.length } = c.toGuest ++ bytes := by
    unfold TcpConn.toGuest
    dsimp only
    rw [hlen', ringPut_eq_put (by rw [toNat_unTcpH2g]; exact hhead) (by rw [hn32, toNat_unTcpH2g]; exact hroom)
      (by rw [toNat_unTcpH2g]; omega) hn32.le, hn32, List.take_length]
    exact contents_put (by rw [toNat_unTcpH2g]; exact hhead) (by rw [toNat_unTcpH2g]; exact hroom)
  refine ⟨a, ha.una, ?_, fun _ => ?_, fun hsent => absurd hsent (by simp [hfin]), ha.finAcked⟩
  · rw [hqueue, ha.queue, List.drop_append_of_le_length (by omega)]
  · rw [List.length_append]
    exact hle.trans (Nat.le_add_right _ _)

lemma TcpInv.readEof (h : TcpInv g c) (hstate : c.state = .est) :
    TcpInv { g with eof := true } { c with hostEof := true } :=
  { h with
    eof := rfl
    fresh := fun hs => absurd hs (by simp [hstate])
    hostSide := fun hs => (h.hostSide hs).imp fun _ ha => { ha with sent := fun hsent => ⟨rfl, (ha.sent hsent).2⟩ }
    guestSide := fun hs => (h.guestSide hs).imp fun _ hi => ⟨hi.1, { hi.2 with }⟩ }

lemma inFlight_lt {host : Bytes} {eof : Bool} {a : ℕ} (h : TcpInv g c) (ha : HostSide host eof c a) : c.inFlight < 2 ^ 31 := by
  have hflight := ha.inFlight_le
  have hlen := h.h2gLen
  have hfin : c.finSent.toNat ≤ 1 := Bool.toNat_le _
  omega

lemma TcpInv.sendData {n : U32} {rto : ℕ} (h : TcpInv g c) (hstate : c.state = .est) (hfin : c.finSent = false)
    (hpos : 0 < n.toNat) (hn : c.inFlight + n.toNat ≤ c.h2gLen.toNat) :
    TcpInv g { c with sndNxt := c.sndNxt + n, rtoAt := rto } := by
  obtain ⟨a, ha⟩ := h.hostSide (.inl hstate)
  have hlen := h.h2gLen
  have hflight' : (c.sndNxt + n - c.sndUna).toNat = c.inFlight + n.toNat := by
    rw [add_sub_right_comm]
    exact toNat_add_of_lt (by change c.inFlight + n.toNat < _; omega)
  refine
    { h with
      rto := fun _ _ hsame => ?_
      fresh := fun hs => absurd hs (by simp [hstate])
      hostSide := fun _ => ⟨a, ha.una, ha.queue, fun _ => ?_, fun hsent => absurd hsent (by simp [hfin]), fun hacked => ?_⟩
      guestSide := fun hs => (h.guestSide hs).imp fun _ hi => ⟨hi.1, { hi.2 with }⟩ }
  · have hzero : (c.sndNxt + n - c.sndUna).toNat = 0 := by
      rw [show c.sndNxt + n = c.sndUna from hsame, sub_self]
      rfl
    omega
  · have hle := ha.unsent hfin
    have hqueue := ha.length
    change a + (c.sndNxt + n - c.sndUna).toNat ≤ _
    omega
  · exact absurd (ha.finAcked hacked).1 (by simp [hfin])

lemma TcpInv.sendFin {rto : ℕ} (h : TcpInv g c) (hstate : c.state = .est) (heof : c.hostEof = true)
    (hfin : c.finSent = false) (hall : c.sndNxt - c.sndUna = c.h2gLen) :
    TcpInv g { c with finSent := true, sndNxt := c.sndNxt + 1, rtoAt := rto } := by
  obtain ⟨a, ha⟩ := h.hostSide (.inl hstate)
  have hlen := h.h2gLen
  have hflight : c.inFlight = c.h2gLen.toNat := congrArg BitVec.toNat hall
  have hflight' : (c.sndNxt + 1 - c.sndUna).toNat = c.inFlight + 1 := by
    rw [add_sub_right_comm]
    exact toNat_add_of_lt (by change c.inFlight + 1 < _; omega)
  refine
    { h with
      rto := fun _ _ hsame => ?_
      fresh := fun hs => absurd hs (by simp [hstate])
      hostSide := fun _ => ⟨a, ha.una, ha.queue, fun hunsent => absurd hunsent (by simp), fun _ => ⟨?_, ?_⟩, fun hacked => ?_⟩
      guestSide := fun hs => (h.guestSide hs).imp fun _ hi => ⟨hi.1, { hi.2 with }⟩ }
  · have hzero : (c.sndNxt + 1 - c.sndUna).toNat = 0 := by
      rw [show c.sndNxt + 1 = c.sndUna from hsame, sub_self]
      rfl
    omega
  · rw [← h.eof, heof]
  · have hle := ha.unsent hfin
    have hqueue := ha.length
    change a + (c.sndNxt + 1 - c.sndUna).toNat = _
    omega
  · exact absurd (ha.finAcked hacked).1 (by simp [hfin])

lemma TcpInv.acknowledged {ack : U32} (h : TcpInv g c) (hstate : c.state = .est) (now : ℕ)
    (hpos : 0 < (ack - c.sndUna).toNat) (hle : (ack - c.sndUna).toNat ≤ c.inFlight) :
    TcpInv g (c.acknowledged now ack) := by
  obtain ⟨a, ha⟩ := h.hostSide (.inl hstate)
  have hlen := h.h2gLen
  have hhead := h.h2gHead
  have hqueue := ha.length
  set rel := (ack - c.sndUna).toNat with hrel
  have hdata : (umin (ack - c.sndUna) c.h2gLen).toNat = min rel c.h2gLen.toNat := toNat_umin _ _
  have hlen' : (c.h2gLen - umin (ack - c.sndUna) c.h2gLen).toNat = c.h2gLen.toNat - min rel c.h2gLen.toNat := by
    rw [toNat_sub_of_toNat_le (by omega), hdata]
  have hhead' : ((c.h2gHead + umin (ack - c.sndUna) c.h2gLen) % unTcpH2g).toNat =
      (c.h2gHead.toNat + min rel c.h2gLen.toNat) % 65536 := by
    rw [BitVec.toNat_umod, toNat_add_of_lt (by omega), hdata, toNat_unTcpH2g]
  have hflight' : (c.sndNxt - ack).toNat = c.inFlight - rel := by
    rw [← sub_sub_sub_cancel_right c.sndNxt ack c.sndUna]
    exact toNat_sub_of_toNat_le hle
  refine
    { h with
      h2gHead := lt_of_eq_of_lt hhead' (Nat.mod_lt _ (by omega))
      h2gLen := hlen'.trans_le (by omega)
      rto := fun _ harmed hsame => harmed (if_neg (not_not.2 hsame))
      fresh := fun hs => absurd hs (by simp [TcpConn.acknowledged, hstate])
      hostSide := fun _ => ⟨a + rel, ?_, ?_, fun hunsent => ?_, fun hsent => ⟨(ha.sent hsent).1, ?_⟩, fun hacked => ?_⟩
      guestSide := fun hs => (h.guestSide hs).imp fun _ hi => ⟨hi.1, { hi.2 with }⟩
      linger := fun hs => absurd hs (by simp [TcpConn.acknowledged, hstate]) }
  · change ack = c.iss + 1 + BitVec.ofNat 32 (a + rel)
    rw [BitVec.ofNat_add, ← add_assoc, ← ha.una, hrel, BitVec.ofNat_toNat, BitVec.setWidth_eq, add_sub_cancel]
  · have hdrop : (c.acknowledged now ack).toGuest = c.toGuest.drop (min rel c.h2gLen.toNat) := by
      unfold TcpConn.toGuest
      rw [← contents_advance (Nat.min_le_right _ _)]
      unfold TcpConn.acknowledged
      dsimp only
      rw [hlen', hhead', toNat_unTcpH2g]
    rw [hdrop, ha.queue, List.drop_drop]
    by_cases hshort : rel ≤ c.h2gLen.toNat
    · rw [Nat.min_eq_left hshort]
    · rw [List.drop_eq_nil_of_le (by omega), List.drop_eq_nil_of_le (by omega)]
  · have := ha.unsent hunsent
    change a + rel + (c.sndNxt - ack).toNat ≤ _
    omega
  · have := (ha.sent hsent).2
    change a + rel + (c.sndNxt - ack).toNat = _
    omega
  · obtain hbefore | hnow := Bool.or_eq_true_iff.1 hacked
    · -- nothing was in flight any more
      have hzero : c.inFlight = 0 := by
        unfold TcpConn.inFlight
        rw [(ha.finAcked hbefore).2, sub_self]
        rfl
      omega
    · obtain ⟨hsent, hack⟩ := Bool.and_eq_true_iff.1 hnow
      exact ⟨hsent, (eq_of_beq hack).symm⟩

lemma toNat_taken_le (c : TcpConn) (s : GuestSegment) :
    (c.taken s).toNat ≤ s.payload.length - (c.rcvNxt - s.seq).toNat ∧ (c.taken s).toNat ≤ (unTcpG2h - c.g2hLen).toNat := by
  unfold TcpConn.taken
  dsimp only
  split
  · next hskip =>
    have hplen : s.plen.toNat ≤ s.payload.length := by
      unfold GuestSegment.plen
      rw [BitVec.toNat_ofNat]
      exact Nat.mod_le _ _
    rw [BitVec.lt_def] at hskip
    rw [toNat_umin, toNat_sub_of_toNat_le hskip.le]
    omega
  · exact ⟨Nat.zero_le _, Nat.zero_le _⟩

lemma TcpInv.store {s : GuestSegment} (h : TcpInv g c) (hstate : c.state = .est) (hs : s ∈ g.segs)
    (hquiet : g.quiet = true → c.guestFinRcvd = true → c.taken s = 0) : TcpInv g (c.store s) := by
  have hlen := h.g2hLen
  have hhead := h.g2hHead
  obtain ⟨hpayload, hroom⟩ := toNat_taken_le c s
  rw [toNat_sub_of_toNat_le (by rw [toNat_unTcpG2h]; exact hlen), toNat_unTcpG2h] at hroom
  set n := c.taken s with hn
  have hlen' : (c.g2hLen + n).toNat = c.g2hLen.toNat + n.toNat := toNat_add_of_lt (by omega)
  set payload := s.payload.drop (c.rcvNxt - s.seq).toNat with hdrop
  have hsrc : n.toNat ≤ payload.length := by
    rw [hdrop, List.length_drop]
    exact hpayload
  have hqueue : (c.store s).toHost = c.toHost ++ payload.take n.toNat := by
    have hfits : c.g2hLen.toNat + (payload.take n.toNat).length ≤ unTcpG2h.toNat := by
      rw [List.length_take, Nat.min_eq_left hsrc, toNat_unTcpG2h]
      omega
    have hput : contents (put c.g2h unTcpG2h.toNat ((c.g2hHead.toNat + c.g2hLen.toNat) % unTcpG2h.toNat) (payload.take n.toNat))
        unTcpG2h.toNat c.g2hHead.toNat (c.g2hLen.toNat + (payload.take n.toNat).length) = _ :=
      contents_put (by rw [toNat_unTcpG2h]; exact hhead) hfits
    rw [List.length_take, Nat.min_eq_left hsrc] at hput
    unfold TcpConn.toHost TcpConn.store
    dsimp only
    rw [hlen', ringPut_eq_put (by rw [toNat_unTcpG2h]; exact hhead) (by rw [toNat_unTcpG2h]; omega)
      (by rw [toNat_unTcpG2h]; omega) hsrc]
    exact hput
  refine
    { h with
      g2hLen := hlen'.trans_le (by omega)
      fin := ?_
      fresh := fun hs => absurd hs (by simp [TcpConn.store, hstate])
      hostSide := fun hs => (h.hostSide hs).imp fun _ ha => { ha with }
      guestSide := fun hstate' => ?_
      linger := fun hs => absurd hs (by simp [TcpConn.store, hstate]) }
  · intro f hf
    obtain ⟨hfin, hval⟩ := h.fin f hf
    refine ⟨hfin, fun hq => ?_⟩
    have hzero : n = 0 := hquiet hq hfin
    rw [hval hq]
    change _ = (c.rcvNxt + n, g.passed + (c.g2hLen + n).toNat)
    rw [hlen', hzero, add_zero]
    rfl
  · obtain ⟨i, hirs, hi⟩ := h.guestSide hstate'
    refine ⟨i, hirs, ?_, fun hq k b hb => ?_⟩
    · change c.rcvNxt + n = i + 1 + BitVec.ofNat 32 (g.passed + (c.g2hLen + n).toNat + c.finBit)
      have hsum : g.passed + (c.g2hLen.toNat + n.toNat) + c.finBit = g.passed + c.g2hLen.toNat + c.finBit + n.toNat := by omega
      rw [hlen', hsum, BitVec.ofNat_add, ← add_assoc, ← hi.rcvNxt, BitVec.ofNat_toNat, BitVec.setWidth_eq]
    · rw [hqueue] at hb
      by_cases hk : k < c.toHost.length
      · rw [List.getElem?_append_left hk] at hb
        exact hi.bytes hq k b hb
      · rw [List.getElem?_append_right (by omega), length_toHost] at hb
        rw [length_toHost] at hk
        have hlt : k - c.g2hLen.toNat < n.toNat := by
          by_contra hge
          rw [List.getElem?_take, if_neg hge] at hb
          cases hb
        rw [List.getElem?_take_of_lt hlt] at hb
        -- a byte was taken, so the FIN was not
        have hbit : c.finBit = 0 := by
          by_contra hbit
          have hfin : c.guestFinRcvd = true := by
            by_contra hno
            rw [Bool.not_eq_true] at hno
            exact hbit (by rw [TcpConn.finBit, hno]; rfl)
          rw [hquiet hq hfin] at hlt
          exact absurd hlt (Nat.not_lt_zero _)
        rw [hdrop, List.getElem?_drop] at hb
        refine ⟨s, hs, _, hb, ?_⟩
        have hpos : g.passed + k = g.passed + c.g2hLen.toNat + c.finBit + (k - c.g2hLen.toNat) := by omega
        rw [hpos, BitVec.ofNat_add, BitVec.ofNat_add (g.passed + c.g2hLen.toNat + c.finBit), ← add_assoc (i + 1),
          ← hi.rcvNxt, BitVec.ofNat_toNat, BitVec.setWidth_eq, ← add_assoc, add_sub_cancel]

lemma TcpInv.takeFin {s : GuestSegment} (h : TcpInv g c) (hstate : c.state = .est) : TcpInv g (c.takeFin s) := by
  unfold TcpConn.takeFin
  split
  · next hfin =>
    have hnot : c.guestFinRcvd = false := by
      unfold TcpConn.finishes at hfin
      simp only [Bool.and_eq_true, Bool.not_eq_true'] at hfin
      exact hfin.1.2
    have hbit : c.finBit = 0 := by rw [TcpConn.finBit, hnot]; rfl
    refine
      { h with
        edge := h.edge.trans (by rw [hbit]; exact Nat.le_add_right _ _)
        fin := fun f hf => absurd (h.fin f hf).1 (by simp [hnot])
        fresh := fun hs => absurd hs (by simp [hstate])
        hostSide := fun hs => (h.hostSide hs).imp fun _ ha => { ha with }
        guestSide := fun hs => (h.guestSide hs).imp fun i hi => ⟨hi.1, ?_, hi.2.bytes⟩
        linger := fun hs => absurd hs (by simp [hstate]) }
    have hrcv := hi.2.rcvNxt
    rw [hbit] at hrcv
    change c.rcvNxt + 1 = i + 1 + BitVec.ofNat 32 (g.passed + c.g2hLen.toNat + 1)
    rw [hrcv, Nat.add_zero, BitVec.ofNat_add (g.passed + c.g2hLen.toNat), ← add_assoc]
    rfl
  · exact h

lemma toGuest_eq_nil (hlen : c.h2gLen = 0) : c.toGuest = [] := by
  unfold TcpConn.toGuest
  rw [hlen]
  rfl

lemma TcpInv.toLinger (h : TcpInv g c) (hstate : c.state = .est) (hguest : c.guestFinRcvd = true)
    (hacked : c.finAcked = true) (hempty : c.g2hLen = 0) (expire : ℕ) :
    TcpInv { g with socket := none } { c with fd := -1, state := .linger, expireAt := expire, rtoAt := 0 } :=
  { h with
    socket := rfl
    fd := ⟨fun _ => by simp, fun _ => rfl⟩
    rto := fun hs => by cases hs
    fresh := fun hs => absurd hs (by simp)
    hostSide := fun _ => (h.hostSide (.inl hstate)).imp fun _ ha => { ha with }
    synSent := fun hs => by cases hs
    guestSide := fun _ => (h.guestSide (by simp [hstate])).imp fun _ hi => ⟨hi.1, { hi.2 with }⟩
    linger := fun _ => ⟨hguest, hacked, hempty⟩ }

lemma Carried.mono {segs segs' : List GuestSegment} {i : U32} {p : ℕ} {b : U8} (h : Carried segs i p b)
    (hsub : segs ⊆ segs') : Carried segs' i p b := by
  obtain ⟨s, hs, hbyte⟩ := h
  exact ⟨s, hsub hs, hbyte⟩

lemma TcpInv.arrive {now : ℕ} {s : GuestSegment} (h : TcpInv g c) (hirs : (g.arrive now c (.segment s)).irs = g.irs) :
    TcpInv (g.arrive now c (.segment s)) c :=
  { h.see with
    fin := fun f hf => ⟨(h.see.fin f hf).1, fun hq => (h.see.fin f hf).2 (Bool.and_eq_true_iff.1 hq).1⟩
    synSent := fun hs => hirs.trans (h.synSent hs)
    guestSide := fun hs => (h.guestSide hs).imp fun _ hi =>
      ⟨hirs.trans hi.1, { hi.2 with
        bytes := fun hq k b hb => (hi.2.bytes (Bool.and_eq_true_iff.1 hq).1 k b hb).mono (List.subset_cons_self _ _) }⟩ }

lemma TcpInv.establish {s : GuestSegment} {i rcv mss : U32} (h : TcpInv g c) (now : ℕ)
    (hstate : c.state = .synRcvd ∨ c.state = .synSent) (hack : s.ack = c.sndNxt) (hnxt : c.sndNxt = c.iss + 1)
    (hmss : 64 ≤ mss.toNat ∧ mss.toNat ≤ 1460) (hirs : (g.arrive now c (.segment s)).irs = some i) (hrcv : rcv = i + 1) :
    TcpInv (g.arrive now c (.segment s))
      { c with
        peerWnd := s.wnd, sndUna := s.ack, rtoAt := 0, rtoShots := 0, state := .est, rcvNxt := rcv, mss := mss } := by
  have hf := h.fresh (hstate.elim (fun hs => .inr (.inl hs)) fun hs => .inr (.inr hs))
  have hlinger : c.state ≠ .linger := by
    rintro hs
    rw [hs] at hstate
    exact hstate.elim (by simp) (by simp)
  have hbit : c.finBit = 0 := by rw [TcpConn.finBit, hf.guestFin]; rfl
  refine
    { h.see with
      mss := hmss
      socket := by
        have hsocket := h.socket
        rw [if_neg hlinger] at hsocket
        exact hsocket
      fd := ⟨(by rintro ⟨⟩), fun hneg => absurd (h.fd.2 hneg) hlinger⟩
      fin := fun f hfin => absurd (h.see.fin f hfin).1 (by simp [hf.guestFin])
      rto := fun _ harmed => absurd rfl harmed
      fresh := fun hs => absurd hs (by simp)
      hostSide := fun _ => ⟨0, ?_, ?_, fun _ => ?_, fun hsent => ?_, fun hacked => ?_⟩
      synSent := (by rintro ⟨⟩)
      guestSide := fun _ => ⟨i, hirs, ?_, fun _ k b hb => ?_⟩
      linger := (by rintro ⟨⟩) }
  · change s.ack = c.iss + 1 + BitVec.ofNat 32 0
    rw [hack, hnxt]
    exact (add_zero _).symm
  · change c.toGuest = g.host.drop 0
    rw [toGuest_eq_nil hf.toGuest, hf.host]
    rfl
  · change 0 + (c.sndNxt - s.ack).toNat ≤ _
    rw [hack, sub_self]
    exact Nat.zero_le _
  · exact absurd hsent (by simp [hf.finSent])
  · exact absurd hacked (by simp [hf.finAcked])
  · change rcv = i + 1 + BitVec.ofNat 32 (g.passed + c.g2hLen.toNat + c.finBit)
    rw [hf.passed, hf.toHost, hbit, hrcv]
    exact (add_zero _).symm
  · change c.toHost[k]? = some b at hb
    unfold TcpConn.toHost at hb
    rw [hf.toHost] at hb
    cases hb

end Steps

end Arm64Emu
