import Arm64Emu.OnesComplement
import Arm64Emu.Tcp

/-! The frames that the user-mode network sends to the guest (`usernet_core.c`,
`usernet_tcp.c`, `usernet_udp.c`), and what a receiver reads in them. -/
namespace Arm64Emu

open OnesComplement

def unMtu : ℕ := 1500

def unEthIp : U16 := 0x0800

def unIppTcp : U8 := 6
def unIppUdp : U8 := 17

abbrev Mac := { m : Bytes // m.length = 6 }

def unHostMac : Mac := ⟨[0x52, 0x55, 0x0a, 0x00, 0x02, 0x02], rfl⟩

def unWr16 (v : U16) : Bytes := [(v >>> 8).setWidth 8, v.setWidth 8]

def unWr32 (v : U32) : Bytes := [(v >>> 24).setWidth 8, (v >>> 16).setWidth 8, (v >>> 8).setWidth 8, v.setWidth 8]

def unCksumAdd (sum : U32) : Bytes → U32
  | a :: b :: rest => unCksumAdd (sum + (a ++ b).setWidth 32) rest
  | [a] => sum + (a ++ (0 : U8)).setWidth 32
  | [] => sum

/-- The loop of `un_cksum_fin`. -/
def unCksumFold : ℕ → U32 → U32
  | 0, sum => sum
  | rounds + 1, sum => if sum >>> 16 ≠ 0 then unCksumFold rounds ((sum &&& (0xffff : U32)) + (sum >>> 16)) else sum

/-- Two rounds are enough (`unCksumFold_done`). -/
def unCksumFin (sum : U32) : U16 := (~~~unCksumFold 2 sum).setWidth 16

/-- The addresses, the protocol and the length, which the checksum of a payload covers. -/
def pseudoHeader (src dst : U32) (proto : U8) (l4 : Bytes) : Bytes :=
  unWr32 src ++ unWr32 dst ++ [0, proto] ++ unWr16 (BitVec.ofNat 16 l4.length)

def unL4Cksum (src dst : U32) (proto : U8) (l4 : Bytes) : U16 :=
  unCksumFin (unCksumAdd (unCksumAdd 0 (pseudoHeader src dst proto l4)) l4)

structure Wire where
  guestMac : Mac
  ipId : U16

namespace Wire

/-- The header without options that both builders write, around a checksum. -/
def ipHeader (len id : U16) (proto : U8) (src dst : U32) (cksum : U16) : Bytes :=
  [0x45, 0] ++ unWr16 len ++ unWr16 id ++ unWr16 0 ++ [64, proto] ++ unWr16 cksum ++ unWr32 src ++ unWr32 dst

def frame (w : Wire) (ethDst : Mac) (proto : U8) (src dst : U32) (l4 : Bytes) : Bytes × Wire :=
  let ip := ipHeader (BitVec.ofNat 16 (20 + l4.length)) w.ipId proto src dst
  (ethDst.1 ++ unHostMac.1 ++ unWr16 unEthIp ++ ip (unCksumFin (unCksumAdd 0 (ip 0))) ++ l4, { w with ipId := w.ipId + 1 })

def unEmitIp (w : Wire) (proto : U8) (src dst : U32) (l4 : Bytes) : Option Bytes × Wire :=
  if unMtu - 20 < l4.length then (none, w)
  else
    let (f, w) := w.frame w.guestMac proto src dst l4
    (some f, w)

end Wire

namespace Segment

def headerLength (s : Segment) : ℕ := if s.withMss then 24 else 20

def front (s : Segment) : Bytes :=
  unWr16 s.rPort ++ unWr16 s.gPort ++ unWr32 s.seq ++ unWr32 s.ack ++ [BitVec.ofNat 8 (s.headerLength / 4) <<< 4, s.flags] ++
    unWr16 s.wnd

def options (s : Segment) : Bytes := if s.withMss then [2, 4] ++ unWr16 1460 else []

/-- The bytes of a segment around a checksum, as `tcp_emit` and `tcp_rst_raw` write them. -/
def l4 (s : Segment) (cksum : U16) : Bytes := s.front ++ (unWr16 cksum ++ (unWr16 0 ++ s.options ++ s.payload))

end Segment

def udpFront (srcPort dstPort : U16) (payload : Bytes) : Bytes :=
  unWr16 srcPort ++ unWr16 dstPort ++ unWr16 (BitVec.ofNat 16 (8 + payload.length))

def udpL4 (srcPort dstPort : U16) (payload : Bytes) (cksum : U16) : Bytes :=
  udpFront srcPort dstPort payload ++ (unWr16 cksum ++ payload)

namespace Wire

def emitSegment (w : Wire) (s : Segment) : Option Bytes × Wire :=
  w.unEmitIp unIppTcp s.rIp unIpGuest (s.l4 (unL4Cksum s.rIp unIpGuest unIppTcp (s.l4 0)))

def tcpEmit (w : Wire) (c : TcpConn) (flags : U8) (seq : U32) (payload : Bytes) (withMss : Bool) : Option Bytes × Wire :=
  w.emitSegment (c.segment flags seq payload withMss)

def unEmitUdp (w : Wire) (ethDst : Option Mac) (srcIp : U32) (srcPort : U16) (dstIp : U32) (dstPort : U16)
    (payload : Bytes) : Option Bytes × Wire :=
  if unMtu - 28 < payload.length then (none, w)
  else
    let udp := udpL4 srcPort dstPort payload
    let ck := unL4Cksum srcIp dstIp unIppUdp (udp 0)
    let (f, w) := w.frame (ethDst.getD w.guestMac) unIppUdp srcIp dstIp (udp (if ck ≠ 0 then ck else 0xffff))
    (some f, w)

end Wire

/-! ### What a receiver reads -/

structure EthHeader where
  dst : Mac
  src : Mac
  etherType : U16
  deriving DecidableEq

structure IpHeader where
  tos : U8
  id : U16
  fragment : U16
  ttl : U8
  proto : U8
  src : U32
  dst : U32
  options : Bytes
  deriving DecidableEq

structure TcpHeader where
  srcPort : U16
  dstPort : U16
  seq : U32
  ack : U32
  reserved : U8
  flags : U8
  wnd : U16
  urgent : U16
  options : Bytes
  deriving DecidableEq

structure UdpHeader where
  srcPort : U16
  dstPort : U16
  deriving DecidableEq

/-- The byte at `i`, and zero beyond the end. -/
def byteAt (b : Bytes) (i : ℕ) : U8 := (b[i]?).getD 0

def EthHeader.parse (b : Bytes) : Option (EthHeader × Bytes) :=
  if h : 14 ≤ b.length then
    some ({ dst := ⟨b.take 6, by rw [List.length_take]; omega⟩
            src := ⟨(b.drop 6).take 6, by rw [List.length_take, List.length_drop]; omega⟩
            etherType := unRd16 b 12 }, b.drop 14)
  else none

/-- Version 4, a header with its checksum, and as many bytes as the length field has. -/
def IpHeader.parse (b : Bytes) : Option (IpHeader × Bytes) :=
  let ihl := (byteAt b 0 &&& 0xf).toNat * 4
  if 20 ≤ ihl ∧ ihl ≤ b.length ∧ byteAt b 0 >>> 4 = 4 ∧ (unRd16 b 2).toNat = b.length ∧ Verifies (pairs (b.take ihl)) then
    some ({ tos := byteAt b 1, id := unRd16 b 4, fragment := unRd16 b 6, ttl := byteAt b 8, proto := byteAt b 9
            src := unRd32 b 12, dst := unRd32 b 16, options := (b.take ihl).drop 20 }, b.drop ihl)
  else none

/-- The checksum covers the payload and parts of the header before it. -/
def IpHeader.Covers (ip : IpHeader) (l4 : Bytes) : Prop := Verifies (pairs (pseudoHeader ip.src ip.dst ip.proto l4 ++ l4))

instance (ip : IpHeader) (l4 : Bytes) : Decidable (ip.Covers l4) := inferInstanceAs (Decidable (Verifies _))

def TcpHeader.parse (ip : IpHeader) (b : Bytes) : Option (TcpHeader × Bytes) :=
  let doff := (byteAt b 12 >>> 4).toNat * 4
  if ip.proto = unIppTcp ∧ 20 ≤ doff ∧ doff ≤ b.length ∧ ip.Covers b then
    some ({ srcPort := unRd16 b 0, dstPort := unRd16 b 2, seq := unRd32 b 4, ack := unRd32 b 8
            reserved := byteAt b 12 &&& 0xf, flags := byteAt b 13, wnd := unRd16 b 14, urgent := unRd16 b 18
            options := (b.take doff).drop 20 }, b.drop doff)
  else none

def UdpHeader.parse (ip : IpHeader) (b : Bytes) : Option (UdpHeader × Bytes) :=
  if ip.proto = unIppUdp ∧ 8 ≤ b.length ∧ (unRd16 b 4).toNat = b.length ∧ unRd16 b 6 ≠ 0 ∧ ip.Covers b then
    some ({ srcPort := unRd16 b 0, dstPort := unRd16 b 2 }, b.drop 8)
  else none

def receive {α : Type} (parse : IpHeader → Bytes → Option (α × Bytes)) (b : Bytes) :
    Option (EthHeader × IpHeader × α × Bytes) := do
  let (eth, packet) ← EthHeader.parse b
  if eth.etherType ≠ unEthIp then none
  let (ip, l4) ← IpHeader.parse packet
  let (head, payload) ← parse ip l4
  return (eth, ip, head, payload)

/-! ### Checksums -/

section Checksums

lemma toNat_wordOf (a b : U8) : ((a ++ b).setWidth 32 : U32).toNat = (a ++ b).toNat := by
  rw [BitVec.toNat_setWidth, Nat.mod_eq_of_lt (by have := (a ++ b).isLt; omega)]

lemma toNat_unCksumAdd (sum : U32) (p : Bytes) (h : sum.toNat + total (pairs p) < 2 ^ 32) :
    (unCksumAdd sum p).toNat = sum.toNat + total (pairs p) := by
  induction p using pairs.induct generalizing sum with
  | case1 a b rest ih =>
    rw [pairs, total_cons] at h
    have hstep : (sum + (a ++ b).setWidth 32).toNat = sum.toNat + (a ++ b).toNat := by
      rw [BitVec.toNat_add, toNat_wordOf, Nat.mod_eq_of_lt (by omega)]
    rw [unCksumAdd, ih _ (by rw [hstep]; omega), hstep, pairs, total_cons]
    omega
  | case2 a =>
    rw [pairs, total_cons, total_nil] at h
    rw [unCksumAdd, pairs, total_cons, total_nil, BitVec.toNat_add, toNat_wordOf, Nat.mod_eq_of_lt (by omega)]
    rfl
  | case3 => rfl

lemma toNat_unCksumAdd_zero (p : Bytes) (h : total (pairs p) < 2 ^ 32) : (unCksumAdd 0 p).toNat = total (pairs p) := by
  have hsum := toNat_unCksumAdd 0 p (by rwa [show (0 : U32).toNat = 0 from rfl, Nat.zero_add])
  rwa [show (0 : U32).toNat = 0 from rfl, Nat.zero_add] at hsum

lemma total_pairs_le (p : Bytes) : total (pairs p) ≤ (p.length + 1) / 2 * 65535 := by
  have := total_le (pairs p)
  rwa [length_pairs] at this

lemma toNat_foldOnce (sum : U32) : ((sum &&& (0xffff : U32)) + (sum >>> 16)).toNat = sum.toNat % 2 ^ 16 + sum.toNat / 2 ^ 16 := by
  have := sum.isLt
  rw [BitVec.toNat_add, BitVec.toNat_and, BitVec.toNat_ushiftRight, Nat.shiftRight_eq_div_pow,
    show (0xffff : U32).toNat = 2 ^ 16 - 1 from rfl, Nat.and_two_pow_sub_one_eq_mod, Nat.mod_eq_of_lt (by omega)]

lemma shift_eq_zero_iff (sum : U32) : sum >>> 16 = 0 ↔ sum.toNat < 2 ^ 16 := by
  rw [← BitVec.toNat_inj, BitVec.toNat_ushiftRight, Nat.shiftRight_eq_div_pow]
  change sum.toNat / 2 ^ 16 = 0 ↔ _
  omega

lemma unCksumFold_two (sum : U32) : (unCksumFold 2 sum).toNat = residue 16 sum.toNat := by
  have hsum := sum.isLt
  simp only [unCksumFold]
  split
  · next h =>
    rw [Ne, shift_eq_zero_iff] at h
    split
    · next h' =>
      rw [Ne, shift_eq_zero_iff, toNat_foldOnce] at h'
      rw [toNat_foldOnce, toNat_foldOnce, ← residue_fold 16 sum.toNat,
        ← residue_fold 16 (sum.toNat % 2 ^ 16 + sum.toNat / 2 ^ 16), residue_of_lt (n := _ + _) (by omega)]
    · next h' =>
      rw [not_not, shift_eq_zero_iff, toNat_foldOnce] at h'
      rw [toNat_foldOnce, ← residue_fold 16 sum.toNat, residue_of_lt h']
  · next h =>
    rw [not_not, shift_eq_zero_iff] at h
    rw [residue_of_lt h]

lemma toNat_unCksumFin (sum : U32) : (unCksumFin sum).toNat = 65535 - residue 16 sum.toNat := by
  have hlt := residue_lt (w := 16) (by decide) sum.toNat
  rw [unCksumFin, BitVec.toNat_setWidth, BitVec.toNat_not, unCksumFold_two]
  omega

lemma append_unWr16 (v : U16) : ((v >>> 8).setWidth 8 ++ v.setWidth 8 : U16) = v := append_halves (n := 8) (m := 8) v

lemma total_unWr16 {u : Bytes} (hu : u.length % 2 = 0) (ck : U16) (v : Bytes) :
    total (pairs (u ++ (unWr16 ck ++ v))) = total (pairs (u ++ (unWr16 0 ++ v))) + ck.toNat := by
  have hfield (c : U16) : total (pairs (u ++ (unWr16 c ++ v))) = total (pairs u ++ pairs v) + c.toNat := by
    rw [unWr16, List.cons_append, List.cons_append, List.nil_append, total_pairs_field hu, append_unWr16]
  rw [hfield, hfield]
  rfl

lemma verifies_field {u v : Bytes} (hu : u.length % 2 = 0) (ck : U16)
    (h : ck.toNat = 65535 - residue 16 (total (pairs (u ++ (unWr16 0 ++ v))))) : Verifies (pairs (u ++ (unWr16 ck ++ v))) := by
  rw [verifies_iff (by decide), total_unWr16 hu, h]
  exact residue_complement (by decide) _

lemma length_unWr16 (v : U16) : (unWr16 v).length = 2 := rfl

lemma length_pseudoHeader (src dst : U32) (proto : U8) (l4 : Bytes) : (pseudoHeader src dst proto l4).length = 12 := rfl

lemma toNat_unL4Cksum (src dst : U32) (proto : U8) (l4 : Bytes) (h : l4.length ≤ unMtu) :
    (unL4Cksum src dst proto l4).toNat = 65535 - residue 16 (total (pairs (pseudoHeader src dst proto l4 ++ l4))) := by
  have hlen : l4.length ≤ 1500 := h
  have hhead := total_pairs_le (pseudoHeader src dst proto l4)
  have hbody := total_pairs_le l4
  have hroom : (l4.length + 1) / 2 * 65535 ≤ 750 * 65535 := Nat.mul_le_mul_right _ (by omega)
  rw [length_pseudoHeader] at hhead
  have hsum := toNat_unCksumAdd_zero (pseudoHeader src dst proto l4) (by omega)
  rw [unL4Cksum, toNat_unCksumFin, toNat_unCksumAdd _ _ (by rw [hsum]; omega), hsum,
    pairs_append (by rw [length_pseudoHeader]), total_append]

section Covers
variable {ip : IpHeader} {u v : Bytes}

lemma pseudoHeader_field (src dst : U32) (proto : U8) (u v : Bytes) (ck : U16) :
    pseudoHeader src dst proto (u ++ (unWr16 ck ++ v)) = pseudoHeader src dst proto (u ++ (unWr16 0 ++ v)) := by
  unfold pseudoHeader
  rw [List.length_append, List.length_append, List.length_append, List.length_append, length_unWr16, length_unWr16]

lemma covers_iff (hu : u.length % 2 = 0) (ck : U16) : ip.Covers (u ++ (unWr16 ck ++ v)) ↔
    residue 16 (total (pairs (pseudoHeader ip.src ip.dst ip.proto (u ++ (unWr16 0 ++ v)) ++ (u ++ (unWr16 0 ++ v)))) + ck.toNat) =
      65535 := by
  have heven : (pseudoHeader ip.src ip.dst ip.proto (u ++ (unWr16 0 ++ v)) ++ u).length % 2 = 0 := by
    rw [List.length_append, length_pseudoHeader]
    omega
  rw [IpHeader.Covers, pseudoHeader_field, ← List.append_assoc, verifies_iff (by decide), total_unWr16 heven, List.append_assoc]
  rfl

lemma covers_unL4Cksum (hu : u.length % 2 = 0) (hlen : (u ++ (unWr16 0 ++ v)).length ≤ unMtu) :
    ip.Covers (u ++ (unWr16 (unL4Cksum ip.src ip.dst ip.proto (u ++ (unWr16 0 ++ v))) ++ v)) := by
  rw [covers_iff hu, toNat_unL4Cksum _ _ _ _ hlen]
  exact residue_complement (by decide) _

lemma covers_allOnes (hu : u.length % 2 = 0) (hlen : (u ++ (unWr16 0 ++ v)).length ≤ unMtu)
    (hzero : unL4Cksum ip.src ip.dst ip.proto (u ++ (unWr16 0 ++ v)) = 0) : ip.Covers (u ++ (unWr16 0xffff ++ v)) := by
  have hck := toNat_unL4Cksum ip.src ip.dst ip.proto _ hlen
  have hlt := residue_lt (w := 16) (by decide)
    (total (pairs (pseudoHeader ip.src ip.dst ip.proto (u ++ (unWr16 0 ++ v)) ++ (u ++ (unWr16 0 ++ v)))))
  rw [hzero, show (0 : U16).toNat = 0 from rfl] at hck
  rw [covers_iff hu]
  exact residue_add_allOnes (by decide) (by omega)

end Covers

end Checksums

/-! ### What is sent is what is received -/

section Received
variable (len id : U16) (proto : U8) (src dst : U32) (l4 : Bytes)

lemma append_unWr32 (v : U32) : (((v >>> 24).setWidth 8 ++ (v >>> 16).setWidth 8 : U16) ++
    ((v >>> 8).setWidth 8 ++ v.setWidth 8 : U16) : U32) = v := by
  have hhigh : ((v >>> 24).setWidth 8 ++ (v >>> 16).setWidth 8 : U16) = (v >>> 16).setWidth 16 := by
    have := append_unWr16 ((v >>> 16).setWidth 16)
    rwa [setWidth_shift_setWidth _ (by decide), BitVec.setWidth_setWidth_of_le _ (by decide), ← BitVec.shiftRight_add] at this
  have hlow : ((v >>> 8).setWidth 8 ++ v.setWidth 8 : U16) = v.setWidth 16 := by
    have := append_unWr16 (v.setWidth 16)
    rwa [setWidth_shift_setWidth _ (by decide), BitVec.setWidth_setWidth_of_le _ (by decide)] at this
  rw [hhigh, hlow]
  exact append_halves (n := 16) (m := 16) v

lemma length_ipHeader (ck : U16) : (Wire.ipHeader len id proto src dst ck).length = 20 := rfl

lemma verifies_ipHeader :
    Verifies (pairs (Wire.ipHeader len id proto src dst (unCksumFin (unCksumAdd 0 (Wire.ipHeader len id proto src dst 0))))) := by
  have hsplit (ck : U16) : Wire.ipHeader len id proto src dst ck =
      ([0x45, 0] ++ unWr16 len ++ unWr16 id ++ unWr16 0 ++ [64, proto]) ++ (unWr16 ck ++ (unWr32 src ++ unWr32 dst)) := rfl
  rw [hsplit]
  have heven : ([0x45, 0] ++ unWr16 len ++ unWr16 id ++ unWr16 0 ++ [64, proto]).length = 10 := rfl
  refine verifies_field (by rw [heven]) _ ?_
  have hroom := total_pairs_le (Wire.ipHeader len id proto src dst 0)
  rw [length_ipHeader] at hroom
  rw [toNat_unCksumFin, toNat_unCksumAdd_zero _ (by omega), ← hsplit]

lemma parse_ipHeader (hlen : 20 + l4.length < 2 ^ 16) :
    IpHeader.parse (Wire.ipHeader (BitVec.ofNat 16 (20 + l4.length)) id proto src dst
      (unCksumFin (unCksumAdd 0 (Wire.ipHeader (BitVec.ofNat 16 (20 + l4.length)) id proto src dst 0))) ++ l4) =
    some ({ tos := 0, id := id, fragment := 0, ttl := 64, proto := proto, src := src, dst := dst, options := [] }, l4) := by
  have hver := verifies_ipHeader (BitVec.ofNat 16 (20 + l4.length)) id proto src dst
  generalize unCksumFin _ = ck at hver ⊢
  set head := Wire.ipHeader (BitVec.ofNat 16 (20 + l4.length)) id proto src dst ck with hhead
  have hlength : head.length = 20 := rfl
  have hfirst : byteAt (head ++ l4) 0 = 0x45 := rfl
  have hihl : (byteAt (head ++ l4) 0 &&& 0xf).toNat * 4 = 20 := by rw [hfirst]; decide
  have htotal : unRd16 (head ++ l4) 2 = BitVec.ofNat 16 (20 + l4.length) := append_unWr16 _
  have hid : unRd16 (head ++ l4) 4 = id := append_unWr16 id
  have hfragment : unRd16 (head ++ l4) 6 = 0 := append_unWr16 0
  have hsrc : unRd32 (head ++ l4) 12 = src := append_unWr32 src
  have hdst : unRd32 (head ++ l4) 16 = dst := append_unWr32 dst
  have hroom : (head ++ l4).length = 20 + l4.length := by rw [List.length_append, hlength]
  unfold IpHeader.parse
  simp only [hihl]
  have hmatch : (unRd16 (head ++ l4) 2).toNat = (head ++ l4).length := by
    rw [htotal, BitVec.toNat_ofNat, Nat.mod_eq_of_lt hlen, hroom]
  rw [if_pos ⟨le_rfl, by omega, by rw [hfirst]; decide, hmatch, by rwa [List.take_left' hlength]⟩, List.take_left' hlength,
    List.drop_left' hlength, hid, hfragment, hsrc, hdst]
  rfl

lemma unRd16_append {u v : Bytes} {n : ℕ} (h : u.length = n) (i : ℕ) : unRd16 (u ++ v) (n + i) = unRd16 v i := by
  subst h
  simp [unRd16, List.getElem?_append_right, Nat.add_assoc]

lemma parse_eth (mac : Mac) (packet : Bytes) : EthHeader.parse (mac.1 ++ unHostMac.1 ++ unWr16 unEthIp ++ packet) =
    some ({ dst := mac, src := unHostMac, etherType := unEthIp }, packet) := by
  have hassoc : mac.1 ++ unHostMac.1 ++ unWr16 unEthIp ++ packet = mac.1 ++ (unHostMac.1 ++ (unWr16 unEthIp ++ packet)) := by
    rw [List.append_assoc, List.append_assoc]
  have htype : unRd16 (mac.1 ++ (unHostMac.1 ++ (unWr16 unEthIp ++ packet))) 12 = unEthIp :=
    (unRd16_append mac.2 6).trans (append_unWr16 _)
  have hrest : (mac.1 ++ (unHostMac.1 ++ (unWr16 unEthIp ++ packet))).drop 14 = packet := by
    rw [show 14 = 6 + 8 from rfl, ← List.drop_drop, List.drop_left' mac.2]
    rfl
  rw [EthHeader.parse, dif_pos (by simp [mac.2, unHostMac, unWr16]; omega)]
  simp only [hassoc, htype, hrest, List.take_left' mac.2, List.drop_left' mac.2]
  rfl

lemma length_front (s : Segment) : s.front.length = 16 := rfl

lemma length_l4 (s : Segment) (ck : U16) : (s.l4 ck).length = s.headerLength + s.payload.length := by
  rw [Segment.l4, List.length_append, List.length_append, List.length_append, List.length_append, length_front, length_unWr16,
    length_unWr16, Segment.options, Segment.headerLength]
  split
  · simp only [List.length_append, length_unWr16, List.length_cons, List.length_nil]
    omega
  · simp only [List.length_nil]
    omega

lemma l4_split (s : Segment) (ck : U16) : ∃ head : Bytes, s.l4 ck = head ++ s.payload ∧ head.length = s.headerLength ∧
    head.drop 20 = s.options := by
  have heq : s.l4 ck = (s.front ++ (unWr16 ck ++ (unWr16 0 ++ s.options))) ++ s.payload := by
    simp only [Segment.l4, List.append_assoc]
  have hlength := length_l4 s ck
  rw [heq, List.length_append] at hlength
  exact ⟨_, heq, by omega, rfl⟩

lemma parse_l4 (ip : IpHeader) (hproto : ip.proto = unIppTcp) (s : Segment) (hlen : (s.l4 0).length ≤ unMtu) :
    TcpHeader.parse ip (s.l4 (unL4Cksum ip.src ip.dst ip.proto (s.l4 0))) =
    some ({ srcPort := s.rPort, dstPort := s.gPort, seq := s.seq, ack := s.ack, reserved := 0, flags := s.flags, wnd := s.wnd
            urgent := 0, options := s.options }, s.payload) := by
  have hcovers : ip.Covers (s.l4 (unL4Cksum ip.src ip.dst ip.proto (s.l4 0))) :=
    covers_unL4Cksum (by rw [length_front]) hlen
  generalize unL4Cksum ip.src ip.dst ip.proto (s.l4 0) = ck at hcovers ⊢
  have hoff : byteAt (s.l4 ck) 12 = BitVec.ofNat 8 (s.headerLength / 4) <<< 4 := rfl
  have hrPort : unRd16 (s.l4 ck) 0 = s.rPort := append_unWr16 _
  have hgPort : unRd16 (s.l4 ck) 2 = s.gPort := append_unWr16 _
  have hseq : unRd32 (s.l4 ck) 4 = s.seq := append_unWr32 _
  have hack : unRd32 (s.l4 ck) 8 = s.ack := append_unWr32 _
  have hflags : byteAt (s.l4 ck) 13 = s.flags := rfl
  have hwnd : unRd16 (s.l4 ck) 14 = s.wnd := append_unWr16 _
  have hurgent : unRd16 (s.l4 ck) 18 = 0 := append_unWr16 0
  have hdoff : (byteAt (s.l4 ck) 12 >>> 4).toNat * 4 = s.headerLength := by
    rw [hoff, Segment.headerLength]
    cases s.withMss <;> decide
  have hreserved : byteAt (s.l4 ck) 12 &&& 0xf = 0 := by
    rw [hoff, Segment.headerLength]
    cases s.withMss <;> decide
  have hleast : 20 ≤ s.headerLength := by
    rw [Segment.headerLength]
    split <;> decide
  obtain ⟨head, heq, hhead, hoptions⟩ := l4_split s ck
  unfold TcpHeader.parse
  simp only [hdoff, hrPort, hgPort, hseq, hack, hflags, hwnd, hurgent, hreserved]
  rw [if_pos ⟨hproto, hleast, by rw [length_l4]; omega, hcovers⟩, heq, List.take_left' hhead, List.drop_left' hhead, hoptions]

lemma length_udpFront (srcPort dstPort : U16) (payload : Bytes) : (udpFront srcPort dstPort payload).length = 6 := rfl

lemma length_udpL4 (srcPort dstPort : U16) (payload : Bytes) (ck : U16) :
    (udpL4 srcPort dstPort payload ck).length = 8 + payload.length := by
  rw [udpL4, List.length_append, List.length_append, length_udpFront, length_unWr16]
  omega

lemma parse_udpL4 (ip : IpHeader) (hproto : ip.proto = unIppUdp) (srcPort dstPort : U16) (payload : Bytes) (ck : U16)
    (hck : ck = unL4Cksum ip.src ip.dst ip.proto (udpL4 srcPort dstPort payload 0)) (hlen : 8 + payload.length ≤ unMtu) :
    UdpHeader.parse ip (udpL4 srcPort dstPort payload (if ck ≠ 0 then ck else 0xffff)) =
    some ({ srcPort := srcPort, dstPort := dstPort }, payload) := by
  have hroom : (udpL4 srcPort dstPort payload 0).length ≤ unMtu := (length_udpL4 _ _ _ _).trans_le hlen
  have hcovers : ip.Covers (udpL4 srcPort dstPort payload (if ck ≠ 0 then ck else 0xffff)) := by
    split
    · rw [hck]
      exact covers_unL4Cksum (by rw [length_udpFront]) hroom
    · next hzero =>
      rw [not_not, hck] at hzero
      exact covers_allOnes (by rw [length_udpFront]) hroom hzero
  have hne : (if ck ≠ 0 then ck else 0xffff) ≠ 0 := by
    split
    · assumption
    · decide
  generalize (if ck ≠ 0 then ck else 0xffff) = field at hcovers hne ⊢
  have hsrc : unRd16 (udpL4 srcPort dstPort payload field) 0 = srcPort := append_unWr16 _
  have hdst : unRd16 (udpL4 srcPort dstPort payload field) 2 = dstPort := append_unWr16 _
  have hlen16 : unRd16 (udpL4 srcPort dstPort payload field) 4 = BitVec.ofNat 16 (8 + payload.length) := append_unWr16 _
  have hfield : unRd16 (udpL4 srcPort dstPort payload field) 6 = field := append_unWr16 _
  have hmatch : (unRd16 (udpL4 srcPort dstPort payload field) 4).toNat = (udpL4 srcPort dstPort payload field).length := by
    have hmtu : 8 + payload.length ≤ 1500 := hlen
    rw [hlen16, BitVec.toNat_ofNat, Nat.mod_eq_of_lt (by omega), length_udpL4]
  unfold UdpHeader.parse
  rw [if_pos ⟨hproto, by rw [length_udpL4]; omega, hmatch, by rwa [hfield], hcovers⟩, hsrc, hdst]
  rfl

lemma receive_frame {α : Type} (parse : IpHeader → Bytes → Option (α × Bytes)) (w : Wire) (mac : Mac)
    (hlen : 20 + l4.length < 2 ^ 16) :
    let ip : IpHeader :=
      { tos := 0, id := w.ipId, fragment := 0, ttl := 64, proto := proto, src := src, dst := dst, options := [] }
    receive parse (w.frame mac proto src dst l4).1 =
      (parse ip l4).map fun r => ({ dst := mac, src := unHostMac, etherType := unEthIp }, ip, r.1, r.2) := by
  intro ip
  have heth := parse_eth mac (Wire.ipHeader (BitVec.ofNat 16 (20 + l4.length)) w.ipId proto src dst
    (unCksumFin (unCksumAdd 0 (Wire.ipHeader (BitVec.ofNat 16 (20 + l4.length)) w.ipId proto src dst 0))) ++ l4)
  rw [← List.append_assoc] at heth
  have hip := parse_ipHeader w.ipId proto src dst l4 hlen
  unfold receive Wire.frame
  rw [heth]
  simp only [Option.bind_eq_bind, Option.bind_some, ne_eq, not_true_eq_false, if_false, hip]
  cases parse ip l4 <;> rfl

end Received

/-- Every frame that `tcp_emit` and `un_emit_udp` hand out is received with the fields and the
payload that were given, and the payloads that are refused are those that do not fit. -/
theorem emitted_frames_received (w : Wire) :
    (∀ (c : TcpConn) (flags : U8) (seq : U32) (payload : Bytes) (withMss : Bool),
      (w.tcpEmit c flags seq payload withMss).1.map (receive TcpHeader.parse) =
        if (if withMss then 24 else 20) + payload.length ≤ 1480 then
          some (some ({ dst := w.guestMac, src := unHostMac, etherType := 0x0800 },
            { tos := 0, id := w.ipId, fragment := 0, ttl := 64, proto := 6, src := c.rIp, dst := unIpGuest, options := [] },
            { srcPort := c.rPort, dstPort := c.gPort, seq := seq, ack := if hasFlag flags tfAck then c.rcvNxt else 0
              reserved := 0, flags := flags, wnd := (umin (unTcpG2h - c.g2hLen) 65535).setWidth 16, urgent := 0
              options := if withMss then [2, 4, 0x05, 0xb4] else [] }, payload))
        else none) ∧
    ∀ (ethDst : Option Mac) (srcIp : U32) (srcPort : U16) (dstIp : U32) (dstPort : U16) (payload : Bytes),
      (w.unEmitUdp ethDst srcIp srcPort dstIp dstPort payload).1.map (receive UdpHeader.parse) =
        if payload.length ≤ 1472 then
          some (some ({ dst := ethDst.getD w.guestMac, src := unHostMac, etherType := 0x0800 },
            { tos := 0, id := w.ipId, fragment := 0, ttl := 64, proto := 17, src := srcIp, dst := dstIp, options := [] },
            { srcPort := srcPort, dstPort := dstPort }, payload))
        else none := by
  refine ⟨fun c flags seq payload withMss => ?_, fun ethDst srcIp srcPort dstIp dstPort payload => ?_⟩
  · have hlen (ck : U16) : ((c.segment flags seq payload withMss).l4 ck).length = (if withMss then 24 else 20) + payload.length :=
      length_l4 _ ck
    rw [Wire.tcpEmit, Wire.emitSegment, Wire.unEmitIp, hlen]
    by_cases hfits : (if withMss then 24 else 20) + payload.length ≤ 1480
    · rw [if_neg (by rw [unMtu]; omega), if_pos hfits, Option.map_some, receive_frame _ _ _ _ _ _ _ (by rw [hlen]; omega),
        parse_l4 _ rfl _ (by rw [hlen, unMtu]; omega)]
      cases withMss <;> rfl
    · rw [if_pos (by rw [unMtu]; omega), if_neg hfits]
      rfl
  · rw [Wire.unEmitUdp]
    by_cases hfits : payload.length ≤ 1472
    · rw [if_neg (by rw [unMtu]; omega), if_pos hfits]
      dsimp only
      rw [Option.map_some, receive_frame _ _ _ _ _ _ _ (by rw [length_udpL4]; omega),
        parse_udpL4 _ rfl srcPort dstPort payload _ rfl (by rw [unMtu]; omega)]
      rfl
    · rw [if_pos (by rw [unMtu]; omega), if_neg hfits]
      rfl

end Arm64Emu
