import Arm64Emu.TcpFlows

/-! What a connection does to its two ends, said once: each call shows a connection that
keeps the invariant of its streams, each segment is lawful, and the socket is used as long
as it is open. The laws of the proxy are read off from this contract. -/
namespace Arm64Emu

open Dialogue TcpProg RingBuffer

structure Lawful (g : TcpLog) (c : TcpConn) (seg : Segment) : Prop where
  ack : hasFlag seg.flags tfAck = true → seg.ack = c.rcvNxt
  wnd : seg.wnd.toNat = 32768 - c.g2hLen.toNat
  data : ∀ i b, seg.payload[i]? = some b →
    ∃ p, g.host[p]? = some b ∧ seg.seq + BitVec.ofNat 32 i = g.iss + 1 + BitVec.ofNat 32 p
  fin : hasFlag seg.flags tfFin = true →
    g.eof = true ∧ seg.payload = [] ∧ seg.seq = g.iss + 1 + BitVec.ofNat 32 g.host.length
  window : g.tame = true → seg.payload ≠ [] → (seg.seq - c.sndUna).toNat + seg.payload.length ≤ c.peerWnd.toNat

def tcpProtocol : Protocol TcpCall.Reply TcpLog where
  allowed g call :=
    match call with
    | .emit c seg => Good g c ∧ c.state ≠ .synWait ∧ Lawful g c seg
    | .rstRaw (some c) seg => Good g c ∧ c.state = .synWait ∧ seg.ack = c.rcvNxt ∧ seg.payload = []
    | .send c data => Good g c ∧ c.state = .est ∧ data <+: c.toHost
    | .read c _ => Good g c ∧ c.state = .est
    | .shutdown c => Good g c ∧ 0 ≤ c.fd ∧ g.shut = false ∧ c.guestFinRcvd = true ∧ c.g2hLen = 0
    | .close c => Good g c ∧ 0 ≤ c.fd
    | .resetOnClose c => Good g c ∧ 0 ≤ c.fd
    | .soError c => Good g c ∧ 0 ≤ c.fd
    | .next c => Good g c
    | _ => False
  answers _ _ _ := True
  next g call r := g.after call r

/-- The connection is gone with its socket, or it keeps the invariant. -/
def Alive (g : TcpLog) : Option TcpConn → Prop
  | none => g.socket = none
  | some c => Good g c

section Rules
variable {g : TcpLog} {c : TcpConn}

lemma Good.emitted (h : Good g c) (hstate : c.state ≠ .synWait) (seg : Segment) (delivered : Bool)
    (hstop : g.tame = true → delivered = true → seg.stop - c.sndUna ≤ c.sndNxt - c.sndUna) :
    Good (g.emitted c seg delivered) c where
  toTcpInv := h.toTcpInv.emitted hstate seg delivered
  top htame := by
    have htop := h.top htame
    unfold TcpLog.emitted
    dsimp only
    rw [if_neg, htop]
    rintro ⟨hdelivered, hlt⟩
    rw [htop] at hlt
    exact absurd (hstop htame hdelivered) (BitVec.not_le.2 hlt)
  paid := h.paid

lemma TcpInv.fd_nonneg (h : TcpInv g c) (hstate : c.state ≠ .linger) : 0 ≤ c.fd := by
  by_contra hneg
  exact hstate (h.fd.2 (not_le.1 hneg))

lemma emitted_top {seg : Segment} (htop : g.top = c.sndNxt) (hstop : c.sndNxt - c.sndUna < seg.stop - c.sndUna) :
    (g.emitted c seg true).top = seg.stop := by
  unfold TcpLog.emitted
  dsimp only
  rw [htop, if_pos ⟨rfl, hstop⟩]

lemma wnd_segment (h : TcpInv g c) (flags : U8) (seq : U32) (payload : Bytes) (withMss : Bool) :
    (c.segment flags seq payload withMss).wnd.toNat = 32768 - c.g2hLen.toNat := by
  have hlen := h.g2hLen
  unfold TcpConn.segment
  dsimp only
  rw [BitVec.toNat_setWidth, toNat_umin, toNat_sub_of_toNat_le (by rw [toNat_unTcpG2h]; exact hlen), toNat_unTcpG2h,
    show (65535 : U32).toNat = 65535 from rfl]
  omega

lemma Lawful.plain (h : TcpInv g c) {flags : U8} (hfin : hasFlag flags tfFin = false) (seq : U32) (withMss : Bool) :
    Lawful g c (c.segment flags seq [] withMss) where
  ack hack := if_pos hack
  wnd := wnd_segment h _ _ _ _
  data i b hb := by cases hb
  fin hf := absurd hf (by rw [show hasFlag (c.segment flags seq [] withMss).flags tfFin = false from hfin]; simp)
  window _ hne := absurd rfl hne

lemma meets_emit {flags : U8} {seq : U32} {payload : Bytes} {withMss : Bool} {Q : TcpLog → Bool → Prop} (h : Good g c)
    (hstate : c.state ≠ .synWait) (hlaw : Lawful g c (c.segment flags seq payload withMss))
    (hQ : ∀ delivered, Q (g.emitted c (c.segment flags seq payload withMss) delivered) delivered) :
    (tcpEmit c flags seq payload withMss).Meets tcpProtocol g Q :=
  (meets_ask _).2 ⟨⟨h, hstate, hlaw⟩, fun r _ => hQ r⟩

lemma meets_emit_plain {flags : U8} {Q : TcpLog → Bool → Prop} (h : Good g c) (hstate : c.state ≠ .synWait)
    (hflags : flags = tfAck ∨ flags = tfRst ||| tfAck)
    (hQ : ∀ delivered g', g' = g.emitted c (c.segment flags c.sndNxt [] false) delivered → Good g' c → Q g' delivered) :
    (tcpEmit c flags c.sndNxt [] false).Meets tcpProtocol g Q := by
  have hfin : hasFlag flags tfFin = false := by rcases hflags with rfl | rfl <;> rfl
  have hsyn : hasFlag flags tfSyn = false := by rcases hflags with rfl | rfl <;> rfl
  have hstop : (c.segment flags c.sndNxt [] false).stop = c.sndNxt := by
    unfold Segment.stop Segment.span TcpConn.segment
    dsimp only
    rw [hfin, hsyn]
    exact add_zero _
  refine meets_emit h hstate (Lawful.plain h.toTcpInv hfin _ _) fun delivered => ?_
  exact hQ delivered _ rfl (h.emitted hstate _ _ fun _ _ => by rw [hstop]; exact BitVec.le_refl _)

lemma connFree_meets (h : Good g c) : (connFree c).Meets tcpProtocol g fun g' r => r = none ∧ g'.socket = none := by
  unfold connFree
  split
  · next hfd => exact (meets_call _ _).2 ⟨⟨h, hfd⟩, fun _ _ => (meets_ret _).2 ⟨rfl, rfl⟩⟩
  · next hfd =>
    refine (meets_ret _).2 ⟨rfl, ?_⟩
    rw [h.socket, if_pos (h.fd.2 (by omega))]

lemma connAbort_meets (h : Good g c) : (connAbort c).Meets tcpProtocol g fun g' r => r = none ∧ g'.socket = none := by
  have hemit (hstate : c.state ≠ .synWait) :
      (tcpEmit c (tfRst ||| tfAck) c.sndNxt [] false >>= fun _ => connFree c).Meets tcpProtocol g
        fun g' r => r = none ∧ g'.socket = none :=
    (meets_monad_bind _ _).2 (meets_emit_plain h hstate (.inr rfl) fun _ _ _ hg => connFree_meets hg)
  unfold connAbort
  split
  · next hs => exact hemit (by simp [hs])
  · next hs => exact hemit (by simp [hs])
  · next hs => exact hemit (by simp [hs])
  · next hs =>
    refine (meets_monad_bind _ _).2 ((meets_ask _).2 ⟨⟨h, hs, rfl, rfl⟩, fun _ _ => ?_⟩)
    exact connFree_meets h
  · exact connFree_meets h

lemma Good.see (h : Good g c) : Good (g.see c) c := ⟨h.toTcpInv.see, h.top, h.paid⟩

lemma stop_syn {flags : U8} (c : TcpConn) (seq : U32) (withMss : Bool) (hsyn : hasFlag flags tfSyn = true)
    (hfin : hasFlag flags tfFin = false) : (c.segment flags seq [] withMss).stop = seq + 1 := by
  unfold Segment.stop Segment.span TcpConn.segment
  dsimp only
  rw [hsyn, hfin]
  rfl

lemma emitted_syn_top {flags : U8} {withMss : Bool} (h : Good g c) (hfresh : Handshaking g.host g.eof g.passed g.edge c)
    (hsyn : hasFlag flags tfSyn = true) (hfin : hasFlag flags tfFin = false) (htame : g.tame = true) :
    (g.emitted c (c.segment flags c.iss [] withMss) true).top = c.iss + 1 := by
  have htop := h.top htame
  have hstop := stop_syn c c.iss withMss hsyn hfin
  obtain hnxt | hnxt := hfresh.nxt
  · rw [emitted_top htop, hstop]
    rw [hstop, hfresh.una, hnxt, sub_self, add_sub_cancel_left]
    decide
  · unfold TcpLog.emitted
    dsimp only
    rw [if_neg, htop, hnxt]
    rintro ⟨-, hlt⟩
    rw [htop, hnxt, hstop] at hlt
    exact absurd hlt (BitVec.lt_irrefl _)

lemma trySendSynack_meets (h : Good g c) (hstate : c.state = .synRcvd) (now : ℕ) :
    (trySendSynack now c).Meets tcpProtocol g fun g' c' => Good g' c' := by
  have hwait : c.state ≠ .synWait := by simp [hstate]
  have hfresh := h.fresh (.inr (.inl hstate))
  refine (meets_monad_bind _ _).2 (meets_emit h hwait (Lawful.plain h.toTcpInv rfl _ _) fun delivered => ?_)
  cases delivered with
  | false =>
    refine (meets_pure _).2 (h.emitted hwait _ _ (by rintro _ ⟨⟩))
  | true =>
    have hinv := h.toTcpInv.emitted hwait (c.segment (tfSyn ||| tfAck) c.iss [] true) true
    refine (meets_pure _).2 ⟨?_, fun htame => emitted_syn_top h hfresh rfl rfl htame, fun _ hs => absurd hs (by simp [hstate])⟩
    exact
      { hinv with
        rto := fun hs => absurd hs (by simp [hstate])
        fresh := fun hs => { hinv.fresh hs with
          nxt := .inr rfl
          waits := fun hs => absurd hs hwait
          synack := fun _ => ⟨fun _ => rfl, fun _ => rfl⟩
          armed := fun _ _ => rfl }
        hostSide := fun hs => absurd hs (by simp [hstate])
        guestSide := fun hs => (hinv.guestSide hs).imp fun _ hi => ⟨hi.1, { hi.2 with }⟩ }

lemma connLinger_meets (h : Good g c) (hstate : c.state = .est) (hguest : c.guestFinRcvd = true)
    (hacked : c.finAcked = true) (hempty : c.g2hLen = 0) (now : ℕ) :
    (connLinger now c).Meets tcpProtocol g fun g' c' => Good g' c' := by
  have hfd : 0 ≤ c.fd := h.fd_nonneg (by simp [hstate])
  refine (meets_monad_bind _ _).2 (meets_emit_plain h (by simp [hstate]) (.inl rfl) fun _ g' _ hg => ?_)
  rw [if_pos hfd]
  refine (meets_call _ _).2 ⟨⟨hg, hfd⟩, fun _ _ => (meets_ret _).2 ⟨?_, hg.top, fun _ hs => by cases hs⟩⟩
  exact hg.see.toTcpInv.toLinger hstate hguest hacked hempty _

lemma maybeFinish_meets (h : Good g c) (now : ℕ) :
    (maybeFinish now c).Meets tcpProtocol g fun g' c' => Good g' c' := by
  unfold maybeFinish
  split
  · next hdone =>
    obtain ⟨hstate, hguest, -, hacked, hempty⟩ := hdone
    exact connLinger_meets h hstate hguest hacked hempty now
  · exact (meets_ret _).2 h

lemma bytesAt_prefix_toHost (h : TcpInv g c) :
    bytesAt c.g2h c.g2hHead.toNat (umin c.g2hLen (unTcpG2h - c.g2hHead)).toNat <+: c.toHost := by
  have hhead := h.g2hHead
  have hchunk : (umin c.g2hLen (unTcpG2h - c.g2hHead)).toNat = min c.g2hLen.toNat (32768 - c.g2hHead.toNat) := by
    rw [toNat_umin, toNat_sub_of_toNat_le (by rw [toNat_unTcpG2h]; omega), toNat_unTcpG2h]
  have hread : bytesAt c.g2h c.g2hHead.toNat (umin c.g2hLen (unTcpG2h - c.g2hHead)).toNat =
      c.toHost.take (umin c.g2hLen (unTcpG2h - c.g2hHead)).toNat :=
    read_head (by omega) (by rw [toNat_unTcpG2h]; omega)
  rw [hread]
  exact List.take_prefix _ _

lemma drainLoop_meets (h : Good g c) (hstate : c.state = .est) (rounds : ℕ) (drained : Bool) :
    (drainLoop rounds c drained).Meets tcpProtocol g fun g' r =>
      match r with
      | none => g'.socket = none
      | some (c', _) => Good g' c' ∧ c'.state = .est := by
  induction rounds generalizing g c drained with
  | zero => exact (meets_ret _).2 ⟨h, hstate⟩
  | succ rounds ih =>
    unfold drainLoop
    split
    · refine (meets_call _ _).2 ⟨⟨h, hstate, bytesAt_prefix_toHost h.toTcpInv⟩, fun r _ => ?_⟩
      cases r with
      | sent n hn =>
        have hle : n ≤ c.g2hLen.toNat := by
          have hlen := (bytesAt_prefix_toHost h.toTcpInv).length_le
          rw [length_toHost] at hlen
          exact hn.2.trans hlen
        exact ih ⟨h.see.toTcpInv.pass hstate hle, h.top, h.paid⟩ hstate true
      | again => exact (meets_ret _).2 ⟨h.see, hstate⟩
      | failed => exact (meets_monad_bind _ _).2 (Meets.mono (connAbort_meets h.see) fun _ _ hgone => (meets_pure _).2 hgone.2)
    · exact (meets_ret _).2 ⟨h, hstate⟩

lemma ackDrained_meets (h : Good g c) (hstate : c.state = .est) (drained : Bool) :
    (ackDrained c drained).Meets tcpProtocol g fun g' _ => Good g' c := by
  unfold ackDrained
  split
  · exact (meets_monad_bind _ _).2 (meets_emit_plain h (by simp [hstate]) (.inl rfl) fun _ _ _ hg => (meets_pure _).2 hg)
  · exact (meets_ret _).2 h

lemma shutHost_meets (h : Good g c) : (shutHost c).Meets tcpProtocol g fun g' c' => Good g' c' := by
  unfold shutHost
  split
  · next hshut =>
    obtain ⟨hempty, hguest, hopen, hfd⟩ := hshut
    have hinv := h.see.toTcpInv
    refine (meets_call _ _).2 ⟨⟨h, hfd, by rw [← h.shut, hopen], hguest, hempty⟩, fun _ _ => (meets_ret _).2 ⟨?_, h.top, h.paid⟩⟩
    exact
      { hinv with
        shut := rfl
        fresh := fun hs => { hinv.fresh hs with }
        hostSide := fun hs => (hinv.hostSide hs).imp fun _ ha => { ha with }
        guestSide := fun hs => (hinv.guestSide hs).imp fun _ hi => ⟨hi.1, { hi.2 with }⟩ }
  · exact (meets_ret _).2 h

lemma drainG2h_meets (h : Good g c) (hstate : c.state = .est) (now : ℕ) :
    (drainG2h now c).Meets tcpProtocol g Alive := by
  refine (meets_monad_bind _ _).2 (Meets.mono (drainLoop_meets h hstate _ _) fun g' r hr => ?_)
  cases r with
  | none => exact (meets_pure _).2 hr
  | some r =>
    obtain ⟨c', drained⟩ := r
    obtain ⟨hg', hstate'⟩ := hr
    refine (meets_monad_bind _ _).2 (Meets.mono (ackDrained_meets hg' hstate' drained) fun _ _ hg => ?_)
    refine (meets_monad_bind _ _).2 (Meets.mono (shutHost_meets hg) fun _ _ hg => ?_)
    exact (meets_monad_bind _ _).2 (Meets.mono (maybeFinish_meets hg now) fun _ _ hg => (meets_pure _).2 hg)

/-- A segment that has arrived and whose payload is still to be stored. -/
def Pending (g : TcpLog) (c : TcpConn) (s : GuestSegment) : Prop :=
  s ∈ g.segs ∧ (g.quiet = true → c.guestFinRcvd = true → 0 < s.plen → seqLt c.rcvNxt s.seq = false → c.taken s = 0)

lemma hostReadLoop_meets (h : Good g c) (hstate : c.state = .est) (rounds : ℕ) :
    (hostReadLoop rounds c).Meets tcpProtocol g fun g' r =>
      match r with
      | none => g'.socket = none
      | some c' => Good g' c' ∧ c'.state = .est ∧ ∀ s, Pending g c s → Pending g' c' s := by
  induction rounds generalizing g c with
  | zero => exact (meets_ret _).2 ⟨h, hstate, fun _ => id⟩
  | succ rounds ih =>
    unfold hostReadLoop
    split
    · next hroom =>
      obtain ⟨heof, hroom⟩ := hroom
      rw [BitVec.lt_def, toNat_unTcpH2g] at hroom
      refine (meets_call _ _).2 ⟨⟨h, hstate⟩, fun r _ => ?_⟩
      cases r with
      | data bytes hbytes =>
        have hle := hbytes.2
        rw [toNat_umin, toNat_sub_of_toNat_le (by rw [toNat_unTcpH2g]; exact hroom.le), toNat_unTcpH2g] at hle
        have hg := Good.mk (h.see.toTcpInv.read hstate heof bytes (by omega)) ⟨h.top, h.paid⟩
        dsimp only
        split
        · exact (meets_ret _).2 ⟨hg, hstate, fun _ => id⟩
        · exact Meets.mono (ih hg hstate) fun _ r hr => by
            cases r with
            | none => exact hr
            | some c' => exact ⟨hr.1, hr.2.1, fun s hs => hr.2.2 s hs⟩
      | eof =>
        exact Meets.mono (ih (Good.mk (h.see.toTcpInv.readEof hstate) ⟨h.top, h.paid⟩) hstate) fun _ r hr => by
          cases r with
          | none => exact hr
          | some c' => exact ⟨hr.1, hr.2.1, fun s hs => hr.2.2 s hs⟩
      | again => exact (meets_ret _).2 ⟨h.see, hstate, fun _ => id⟩
      | failed => exact (meets_monad_bind _ _).2 (Meets.mono (connAbort_meets h.see) fun _ _ hgone => (meets_pure _).2 hgone.2)
    · exact (meets_ret _).2 ⟨h, hstate, fun _ => id⟩

lemma Lawful.part (h : TcpInv g c) (hstate : c.state = .est) (off n : U32) (hn : off.toNat + n.toNat ≤ c.h2gLen.toNat)
    (hwindow : g.tame = true → off.toNat + n.toNat ≤ c.peerWnd.toNat) :
    Lawful g c (c.segment (tfAck ||| tfPsh) (c.sndUna + off) (ringGet c.h2g unTcpH2g (c.h2gHead + off) n) false) := by
  obtain ⟨a, ha⟩ := h.hostSide (.inl hstate)
  have hhead := h.h2gHead
  have hlen := h.h2gLen
  have hpart : ringGet c.h2g unTcpH2g (c.h2gHead + off) n = (g.host.drop (a + off.toNat)).take n.toNat := by
    rw [ringGet_eq_get (by rw [toNat_unTcpH2g]; omega), toNat_add_of_lt (by omega), ← List.drop_drop, ← ha.queue]
    exact get_eq_slice (by rw [toNat_unTcpH2g]; exact hhead) (by rw [toNat_unTcpH2g]; exact hlen) hn
  refine ⟨fun _ => rfl, wnd_segment h _ _ _ _, fun i b hb => ?_, fun hf => absurd hf (by simp [TcpConn.segment, hasFlag, tfAck, tfPsh, tfFin]), fun htame _ => ?_⟩
  · change (ringGet c.h2g unTcpH2g (c.h2gHead + off) n)[i]? = some b at hb
    rw [hpart] at hb
    have hi : i < n.toNat := by
      by_contra hge
      rw [List.getElem?_take, if_neg hge] at hb
      cases hb
    rw [List.getElem?_take_of_lt hi, List.getElem?_drop] at hb
    refine ⟨_, hb, ?_⟩
    change c.sndUna + off + BitVec.ofNat 32 i = _
    rw [ha.una, h.iss, BitVec.ofNat_add, BitVec.ofNat_add, BitVec.ofNat_toNat, BitVec.setWidth_eq, ← add_assoc, ← add_assoc]
  · change (c.sndUna + off - c.sndUna).toNat + (ringGet c.h2g unTcpH2g (c.h2gHead + off) n).length ≤ _
    rw [add_sub_cancel_left, ringGet_eq_get (by rw [toNat_unTcpH2g]; omega), length_get]
    exact hwindow htame

lemma stop_part (c : TcpConn) (seq pos n : U32) :
    (c.segment (tfAck ||| tfPsh) seq (ringGet c.h2g unTcpH2g pos n) false).stop = seq + n := by
  unfold Segment.stop Segment.span TcpConn.segment
  dsimp only
  rw [ringGet_eq_get (by rw [toNat_unTcpH2g]; omega), length_get]
  change seq + BitVec.ofNat 32 n.toNat = _
  rw [BitVec.ofNat_toNat, BitVec.setWidth_eq]

lemma stop_fin (c : TcpConn) (seq : U32) : (c.segment (tfFin ||| tfAck) seq [] false).stop = seq + 1 := by
  unfold Segment.stop Segment.span TcpConn.segment
  rw [show hasFlag (tfFin ||| tfAck) tfSyn = false from rfl, show hasFlag (tfFin ||| tfAck) tfFin = true from rfl]
  rfl

lemma emitLoop_meets (h : Good g c) (hstate : c.state = .est) (hfin : c.finSent = false) (now rounds : ℕ) :
    (emitLoop now rounds c).Meets tcpProtocol g fun g' r => Good g' r.1 ∧ r.1.state = .est ∧ r.1.finSent = false := by
  induction rounds generalizing g c with
  | zero => exact (meets_ret _).2 ⟨h, hstate, hfin⟩
  | succ rounds ih =>
    unfold emitLoop
    dsimp only
    split
    · exact (meets_ret _).2 ⟨h, hstate, hfin⟩
    split
    · exact (meets_ret _).2 ⟨h, hstate, hfin⟩
    next hmore hopen =>
    rw [BitVec.le_def, not_le] at hmore hopen
    set off := c.sndNxt - c.sndUna with hoff
    set n := umin (umin c.mss (c.h2gLen - off)) (c.peerWnd - off) with hn
    have hlen := h.h2gLen
    have hmss := h.mss
    have hn' : n.toNat = min (min c.mss.toNat (c.h2gLen.toNat - off.toNat)) (c.peerWnd.toNat - off.toNat) := by
      rw [hn, toNat_umin, toNat_umin, toNat_sub_of_toNat_le hmore.le, toNat_sub_of_toNat_le hopen.le]
    have hseq : c.sndNxt = c.sndUna + off := (add_sub_cancel c.sndUna c.sndNxt).symm
    have hlaw := Lawful.part h.toTcpInv hstate off n (by omega) fun _ => by omega
    rw [← hseq] at hlaw
    have hstop := stop_part c c.sndNxt (c.h2gHead + off) n
    refine (meets_monad_bind _ _).2 (meets_emit h (by simp [hstate]) hlaw fun delivered => ?_)
    cases delivered with
    | false => exact (meets_pure _).2 ⟨h.emitted (by simp [hstate]) _ _ (by rintro _ ⟨⟩), hstate, hfin⟩
    | true =>
      refine ih ⟨?_, fun htame => ?_, h.paid⟩ hstate hfin
      · exact (h.toTcpInv.emitted (by simp [hstate]) _ _).sendData hstate hfin (by omega)
          (by change off.toNat + n.toNat ≤ _; omega)
      · rw [emitted_top (h.top htame), hstop]
        rw [hstop, BitVec.lt_def, add_sub_right_comm, ← hoff, toNat_add_of_lt (by omega)]
        omega

lemma emitFin_meets (h : Good g c) (hstate : c.state = .est) (now : ℕ) :
    (emitFin now c).Meets tcpProtocol g fun g' c' => Good g' c' := by
  unfold emitFin
  split
  · next hdone =>
    obtain ⟨heof, hfin, hall⟩ := hdone
    obtain ⟨a, ha⟩ := h.hostSide (.inl hstate)
    have hlen := h.h2gLen
    have hflight : c.inFlight = c.h2gLen.toNat := congrArg BitVec.toNat hall
    have hlaw : Lawful g c (c.segment (tfFin ||| tfAck) c.sndNxt [] false) := by
      refine ⟨fun _ => rfl, wnd_segment h.toTcpInv _ _ _ _, (by rintro i b ⟨⟩), fun _ => ⟨?_, rfl, ?_⟩, fun _ hne => absurd rfl hne⟩
      · rw [← h.eof, heof]
      · have hle := ha.unsent hfin
        have hqueue := ha.length
        change c.sndNxt = _
        rw [← add_sub_cancel c.sndUna c.sndNxt, hall, ha.una, h.iss, add_assoc, ← BitVec.setWidth_eq c.h2gLen,
          ← BitVec.ofNat_toNat, ← BitVec.ofNat_add]
        congr 2
        omega
    refine (meets_monad_bind _ _).2 (meets_emit h (by simp [hstate]) hlaw fun delivered => ?_)
    cases delivered with
    | false => exact (meets_pure _).2 (h.emitted (by simp [hstate]) _ _ (by rintro _ ⟨⟩))
    | true =>
      refine (meets_pure _).2 ⟨?_, fun htame => ?_, h.paid⟩
      · exact (h.toTcpInv.emitted (by simp [hstate]) _ _).sendFin hstate heof hfin hall
      · rw [emitted_top (h.top htame), stop_fin]
        rw [stop_fin, BitVec.lt_def, add_sub_right_comm, hall, toNat_add_of_lt (by change _ + 1 < _; omega)]
        exact Nat.lt_succ_self _
  · exact (meets_pure _).2 h

lemma emitConn_meets (h : Good g c) (now : ℕ) : (emitConn now c).Meets tcpProtocol g fun g' c' => Good g' c' := by
  unfold emitConn
  split
  · next hsyn => exact trySendSynack_meets h hsyn.1 now
  split
  · exact (meets_pure _).2 h
  next hest =>
  rw [not_or, not_not, Bool.not_eq_true] at hest
  refine (meets_monad_bind _ _).2 (Meets.mono (emitLoop_meets h hest.1 hest.2 now _) fun g' r hr => ?_)
  obtain ⟨c', ended⟩ := r
  cases ended with
  | true => exact emitFin_meets hr.1 hr.2.1 now
  | false => exact (meets_pure _).2 hr.1

lemma connEmit_meets (h : Good g c) (now : ℕ) : (connEmit now c).Meets tcpProtocol g Alive :=
  (meets_monad_bind _ _).2 (Meets.mono (emitConn_meets h now) fun _ _ hg =>
    (meets_monad_bind _ _).2 (Meets.mono (maybeFinish_meets hg now) fun _ _ hg => (meets_pure _).2 hg))

lemma Lawful.finAgain (h : TcpInv g c) (hstate : c.state = .est) (hempty : c.h2gLen.toNat = 0) (hfin : c.finSent = true)
    (hsent : c.sndNxt ≠ c.sndUna) : Lawful g c (c.segment (tfFin ||| tfAck) (c.sndNxt - 1) [] false) := by
  obtain ⟨a, ha⟩ := h.hostSide (.inl hstate)
  obtain ⟨heof, htotal⟩ := ha.sent hfin
  have hqueue := ha.length
  have hpos : c.inFlight ≠ 0 := fun hzero => hsent (sub_eq_zero.1 (BitVec.eq_of_toNat_eq hzero))
  have hone : c.sndNxt - c.sndUna = 1 := BitVec.eq_of_toNat_eq (by change c.inFlight = 1; omega)
  refine ⟨fun _ => rfl, wnd_segment h _ _ _ _, (by rintro i b ⟨⟩), fun _ => ⟨heof, rfl, ?_⟩, fun _ hne => absurd rfl hne⟩
  change c.sndNxt - 1 = _
  rw [← h.iss, show g.host.length = a by omega, ← ha.una, ← hone, sub_sub_cancel]

lemma retransmit_meets (h : Good g c) (hstate : c.state = .synRcvd ∨ c.state = .est)
    (hsyn : c.state = .synRcvd → c.sndNxt = c.iss + 1)
    (hmodest : g.tame = true → c.state = .est →
      umin c.mss c.h2gLen ≤ c.sndNxt - c.sndUna ∧ umin c.mss c.h2gLen ≤ c.peerWnd) :
    (retransmit c).Meets tcpProtocol g fun g' _ => Good g' c := by
  have hwait : c.state ≠ .synWait := by
    rintro hs
    rw [hs] at hstate
    exact hstate.elim (by simp) (by simp)
  unfold retransmit
  split
  · next hs =>
    refine (meets_monad_bind _ _).2 (meets_emit h hwait (Lawful.plain h.toTcpInv rfl _ _) fun delivered => (meets_pure _).2 ?_)
    refine h.emitted hwait _ _ fun _ _ => ?_
    rw [stop_syn _ _ _ rfl rfl, hsyn hs]
    exact BitVec.le_refl _
  next hs =>
  have hest := hstate.resolve_left hs
  split
  · next hsent =>
    split
    · next hmore =>
      set n := umin c.mss c.h2gLen with hn
      have hn' : n.toNat = min c.mss.toNat c.h2gLen.toNat := toNat_umin _ _
      have hlaw := Lawful.part h.toTcpInv hest 0 n (by change 0 + _ ≤ _; omega) fun htame => by
        have hle := BitVec.le_def.1 (hmodest htame hest).2
        change 0 + _ ≤ _
        omega
      rw [add_zero, add_zero] at hlaw
      refine (meets_monad_bind _ _).2 (meets_emit h hwait hlaw fun delivered => (meets_pure _).2 ?_)
      refine h.emitted hwait _ _ fun htame _ => ?_
      rw [stop_part, add_sub_cancel_left]
      exact (hmodest htame hest).1
    split
    · next hempty hfin =>
      rw [BitVec.lt_def, not_lt] at hempty
      have hlaw := Lawful.finAgain h.toTcpInv hest (Nat.le_zero.1 hempty) hfin.1 hsent
      refine (meets_monad_bind _ _).2 (meets_emit h hwait hlaw fun delivered => (meets_pure _).2 ?_)
      refine h.emitted hwait _ _ fun _ _ => ?_
      rw [stop_fin, sub_add_cancel]
      exact BitVec.le_refl _
    · exact (meets_pure _).2 h
  · exact (meets_pure _).2 h

lemma Good.timers (h : Good g c) (wnd : U32) (shots : U8) {rto : ℕ} (hrto : c.state ≠ .synSent → rto ≠ 0 → c.rtoAt ≠ 0) :
    Good g { c with peerWnd := wnd, rtoShots := shots, rtoAt := rto } :=
  ⟨h.toTcpInv.timers wnd shots hrto, h.top, h.paid⟩

lemma rtoAt_of_rtoDue {now : ℕ} (hdue : c.rtoDue now = true) : c.rtoAt ≠ 0 := by
  unfold TcpConn.rtoDue at hdue
  rw [Bool.and_eq_true, bne_iff_ne] at hdue
  exact hdue.1

lemma synTick_meets (h : Good g c) (hstate : c.state = .synSent) (now : ℕ) :
    (tcpEmit c tfSyn c.iss [] true >>= fun delivered =>
      (.ret (some ((if delivered then { c with sndNxt := c.iss + 1 } else c).backOff now (c.rtoShots + 1))) :
        TcpProg (Option TcpConn))).Meets tcpProtocol g Alive := by
  have hwait : c.state ≠ .synWait := by simp [hstate]
  have hfresh := h.fresh (.inr (.inr hstate))
  refine (meets_monad_bind _ _).2 (meets_emit h hwait (Lawful.plain h.toTcpInv rfl _ _) fun delivered => (meets_ret _).2 ?_)
  cases delivered with
  | false => exact (h.emitted hwait _ _ (by rintro _ ⟨⟩)).timers _ _ fun hno => absurd hstate hno
  | true =>
    have hinv := h.toTcpInv.emitted hwait (c.segment tfSyn c.iss [] true) true
    refine ⟨?_, fun htame => emitted_syn_top h hfresh rfl rfl htame, fun _ hs => absurd hs ?_⟩
    · exact
        { hinv with
          rto := fun hs => absurd (hstate.symm.trans hs) (by simp)
          fresh := fun hs => { hinv.fresh hs with
            nxt := .inr rfl
            waits := fun hs => absurd hs hwait
            synack := fun hno => absurd hstate hno
            armed := fun hno => absurd hstate hno }
          hostSide := fun hs => absurd hs (by simp [TcpConn.backOff, hstate])
          guestSide := fun hno => absurd hstate hno }
    · simp [TcpConn.backOff, hstate]

lemma connTick_meets {now : ℕ} (h : Good g c) (hmodest : g.tame = true → c.modest now = true) :
    (connTick now c).Meets tcpProtocol g Alive := by
  have hgone : (connAbort c).Meets tcpProtocol g Alive :=
    Meets.mono (connAbort_meets h) fun _ r hr => by rw [hr.1]; exact hr.2
  have hrto (hs : c.state = .synRcvd ∨ c.state = .est) :
      (if c.rtoDue now then
        if unTcpRtoShots < c.rtoShots + 1 then connAbort { c with rtoShots := c.rtoShots + 1 }
        else do
          retransmit { c with rtoShots := c.rtoShots + 1 }
          return some (c.backOff now (c.rtoShots + 1))
      else .ret (some c) : TcpProg (Option TcpConn)).Meets tcpProtocol g Alive := by
    split
    · next hdue =>
      have hg : Good g { c with rtoShots := c.rtoShots + 1 } := h.timers c.peerWnd (c.rtoShots + 1) fun _ => id
      split
      · exact Meets.mono (connAbort_meets hg) fun _ r hr => by rw [hr.1]; exact hr.2
      · next hshots =>
        refine (meets_monad_bind _ _).2 (Meets.mono (retransmit_meets hg hs ?_ ?_) fun g' _ hg' => (meets_pure _).2 ?_)
        · intro hs
          exact (h.fresh (.inr (.inl hs))).armed (by rw [show c.state = .synRcvd from hs]; simp) (rtoAt_of_rtoDue hdue)
        · intro htame hest
          have hmod := hmodest htame
          unfold TcpConn.modest at hmod
          simp only [show c.state = .est from hest, hdue, BitVec.not_lt.1 hshots, beq_self_eq_true, decide_true,
            Bool.and_self, Bool.not_true, Bool.false_or, Bool.and_eq_true, decide_eq_true_eq] at hmod
          exact hmod
        · exact hg'.timers _ _ fun _ _ => rtoAt_of_rtoDue hdue
    · exact (meets_ret _).2 h
  unfold connTick
  split
  · split
    · exact hgone
    · exact (meets_ret _).2 h
  · next hs =>
    split
    · exact hgone
    split
    · exact synTick_meets h hs now
    · exact (meets_ret _).2 h
  · split
    · exact Meets.mono (connFree_meets h) fun _ r hr => by rw [hr.1]; exact hr.2
    · exact (meets_ret _).2 h
  · next hwait hsent hlinger =>
    refine hrto ?_
    cases hs : c.state with
    | synWait => exact absurd hs hwait
    | synSent => exact absurd hs hsent
    | linger => exact absurd hs hlinger
    | synRcvd => exact .inl rfl
    | est => exact .inr rfl

lemma ackInput_meets {s : GuestSegment} (h : TcpInv g c) (hstate : c.state = .est)
    (htop : g.tame = true → g.top = c.sndNxt) (hpaid : g.tame = true → g.paid =
      if hasFlag s.fl tfAck = true ∧ s.ack - c.sndUna ≤ c.sndNxt - c.sndUna then s.ack else c.sndUna)
    (hs : Pending g c s) (now : ℕ) :
    (ackInput now c s).Meets tcpProtocol g fun g' r =>
      match r with
      | none => g'.socket = none
      | some c' => Good g' c' ∧ c'.state = .est ∧ Pending g' c' s := by
  obtain ⟨a, ha⟩ := h.hostSide (.inl hstate)
  have hbetween := seq_between_iff (inFlight_lt h ha) s.ack
  unfold ackInput
  split
  · next hack =>
    obtain ⟨hflag, hseq⟩ := hack
    obtain ⟨hpos, hle⟩ := hbetween.1 hseq
    have hg : Good g (c.acknowledged now s.ack) :=
      ⟨h.acknowledged hstate now hpos hle, htop, fun htame _ => by
        rw [hpaid htame, if_pos ⟨hflag, BitVec.le_def.2 hle⟩]
        rfl⟩
    dsimp only
    split
    · refine Meets.mono (hostReadLoop_meets hg hstate _) fun g' r hr => ?_
      cases r with
      | none => exact hr
      | some c' => exact ⟨hr.1, hr.2.1, hr.2.2 s hs⟩
    · exact (meets_ret _).2 ⟨hg, hstate, hs⟩
  · next hack =>
    refine (meets_ret _).2 ⟨⟨h, htop, fun htame _ => ?_⟩, hstate, hs⟩
    rw [hpaid htame]
    split
    · next hle =>
      -- the same number once more
      have hzero : (s.ack - c.sndUna).toNat = 0 := by
        by_contra hne
        exact hack ⟨hle.1, hbetween.2 ⟨Nat.pos_of_ne_zero hne, BitVec.le_def.1 hle.2⟩⟩
      exact sub_eq_zero.1 (BitVec.eq_of_toNat_eq hzero)
    · rfl

lemma answerInput_meets (h : Good g c) (hstate : c.state = .est) (now : ℕ) (answer : Bool) :
    (answerInput now c answer).Meets tcpProtocol g Alive := by
  unfold answerInput
  cases answer with
  | true =>
    refine (meets_monad_bind _ _).2 (meets_emit_plain h (by simp [hstate]) (.inl rfl) fun _ _ _ hg => ?_)
    exact connEmit_meets hg now
  | false => exact connEmit_meets h now

lemma taken_of_plen {s : GuestSegment} (hs : ¬ 0 < s.plen) : c.taken s = 0 := by
  refine if_neg fun hlt => hs ?_
  rw [BitVec.lt_def] at hlt ⊢
  exact (Nat.zero_le _).trans_lt hlt

lemma Good.takeFin {s : GuestSegment} (h : Good g c) (hstate : c.state = .est) :
    Good g (c.takeFin s) ∧ (c.takeFin s).state = .est := by
  refine ⟨⟨h.toTcpInv.takeFin hstate, ?_, ?_⟩, ?_⟩
  all_goals
    unfold TcpConn.takeFin
    split
  · exact h.top
  · exact h.top
  · exact h.paid
  · exact h.paid
  · exact hstate
  · exact hstate

lemma dataInput_meets {s : GuestSegment} (h : Good g c) (hstate : c.state = .est) (hs : Pending g c s) (now : ℕ) :
    (dataInput now c s).Meets tcpProtocol g Alive := by
  unfold dataInput
  split
  · exact (meets_monad_bind _ _).2 (meets_emit_plain h (by simp [hstate]) (.inl rfl) fun _ _ _ hg => (meets_pure _).2 hg)
  next hturn =>
  have hquiet : g.quiet = true → c.guestFinRcvd = true → c.taken s = 0 := by
    intro hq hfin
    by_cases hlen : 0 < s.plen
    · exact hs.2 hq hfin hlen (by rw [← Bool.not_eq_true]; exact fun hfuture => hturn ⟨hlen, hfuture⟩)
    · exact taken_of_plen hlen
  have hstored : Good g (c.store s) := ⟨h.toTcpInv.store hstate hs.1 hquiet, h.top, h.paid⟩
  obtain ⟨hg, hest⟩ := hstored.takeFin (s := s) hstate
  dsimp only
  generalize hanswer : decide (0 < s.plen ∨ (c.store s).finishes s = true) = answer
  split
  · refine (meets_monad_bind _ _).2 (Meets.mono (drainG2h_meets hg hest now) fun g' r hr => ?_)
    cases r with
    | none => exact (meets_pure _).2 hr
    | some c' =>
      dsimp only
      split
      · exact (meets_pure _).2 hr
      · next hstate' => exact answerInput_meets hr (not_not.1 hstate') now answer
  · exact answerInput_meets hg hest now answer

lemma estInput_meets {s : GuestSegment} (h : TcpInv g c) (hstate : c.state = .est)
    (htop : g.tame = true → g.top = c.sndNxt) (hpaid : g.tame = true → g.paid =
      if hasFlag s.fl tfAck = true ∧ s.ack - c.sndUna ≤ c.sndNxt - c.sndUna then s.ack else c.sndUna)
    (hs : Pending g c s) (now : ℕ) : (estInput now c s).Meets tcpProtocol g Alive := by
  refine (meets_monad_bind _ _).2 (Meets.mono (ackInput_meets h hstate htop hpaid hs now) fun g' r hr => ?_)
  cases r with
  | none => exact (meets_pure _).2 hr
  | some c' => exact dataInput_meets hr.1 hr.2.1 hr.2.2 now

lemma abortInput_meets (h : Good g c) : (abortInput c).Meets tcpProtocol g Alive := by
  have hfree {g : TcpLog} (h : Good g c) : (connFree c).Meets tcpProtocol g Alive :=
    Meets.mono (connFree_meets h) fun _ r hr => by rw [hr.1]; exact hr.2
  unfold abortInput
  split
  · next hreset => exact (meets_call _ _).2 ⟨⟨h, hreset.2⟩, fun _ _ => hfree h.see⟩
  · exact hfree h

lemma clampMss_bounds (mss : U16) : 64 ≤ (clampMss mss).toNat ∧ (clampMss mss).toNat ≤ 1460 := by
  unfold clampMss
  dsimp only
  split
  · decide
  · next hsmall =>
    rw [BitVec.lt_def, not_lt] at hsmall
    refine ⟨hsmall, ?_⟩
    rw [toNat_umin]
    exact Nat.min_le_right _ _

lemma arrive_irs {now : ℕ} {s : GuestSegment}
    (h : c.state ≠ .synSent ∨ hasFlag s.fl tfRst = true ∨ c.answeredBy s = false) :
    (g.arrive now c (.segment s)).irs = g.irs := by
  refine if_neg ?_
  rintro ⟨hs, hrst, hanswer⟩
  rcases h with h | h | h
  · exact h hs
  · rw [hrst] at h
    cases h
  · rw [hanswer] at h
    cases h

lemma arrive_paid {now : ℕ} {s : GuestSegment} (hrst : hasFlag s.fl tfRst = false) (hflag : hasFlag s.fl tfAck = true)
    (hack : s.ack = g.top) : (g.arrive now c (.segment s)).paid = s.ack :=
  if_pos ⟨hrst, hflag, by rw [hack]; exact BitVec.le_refl _⟩

lemma hasFlag_ack_of_answeredBy {s : GuestSegment} (h : c.answeredBy s = true) :
    hasFlag s.fl tfAck = true ∧ c.sndNxt = c.iss + 1 ∧ s.ack = c.sndNxt := by
  unfold TcpConn.answeredBy at h
  simp only [Bool.and_eq_true, beq_iff_eq] at h
  obtain ⟨⟨hflags, hnxt⟩, hack⟩ := h
  refine ⟨?_, hnxt, hack⟩
  have hbit : s.fl &&& tfAck = tfAck := by
    have : s.fl &&& (tfSyn ||| tfAck) &&& tfAck = (tfSyn ||| tfAck) &&& tfAck := by rw [hflags]
    rwa [BitVec.and_assoc] at this
  unfold hasFlag
  rw [hbit]
  decide

lemma connInput_meets (h : Good g c) (now : ℕ) (s : GuestSegment) :
    (connInput now c s).Meets tcpProtocol (g.arrive now c (.segment s)) Alive := by
  unfold connInput
  split
  · next hrst =>
    refine abortInput_meets ⟨h.toTcpInv.arrive (arrive_irs (.inr (.inl hrst))), h.top, fun htame hs => ?_⟩
    refine Eq.trans (if_neg ?_) (h.paid htame hs)
    rintro ⟨hno, -⟩
    rw [hrst] at hno
    cases hno
  next hrst =>
  rw [Bool.not_eq_true] at hrst
  have hwnd (hstate : c.state ≠ .synSent ∨ c.answeredBy s = false) :
      TcpInv (g.arrive now c (.segment s)) { c with peerWnd := s.wnd } :=
    (h.toTcpInv.arrive (arrive_irs (hstate.imp id .inr))).timers s.wnd c.rtoShots fun _ => id
  have hgood (hstate : c.state ≠ .synSent ∨ c.answeredBy s = false) (hest : c.state ≠ .est) :
      Good (g.arrive now c (.segment s)) { c with peerWnd := s.wnd } :=
    ⟨hwnd hstate, h.top, fun _ hs => absurd hs hest⟩
  dsimp only
  split
  · next hs => exact (meets_ret _).2 (hgood (.inl (by simp [hs])) (by simp [hs]))
  · next hs =>
    split
    · next hanswer =>
      -- the guest's initial sequence number is known from here on
      obtain ⟨hflag, hnxt, hack⟩ := hasFlag_ack_of_answeredBy (c := c) hanswer
      have hinv := h.toTcpInv.establish now (.inr hs) hack hnxt (clampMss_bounds s.mss)
        (if_pos ⟨hs, hrst, hanswer⟩) rfl
      refine (meets_monad_bind _ _).2 (meets_emit_plain ⟨hinv, h.top, fun htame _ => ?_⟩ (by simp [TcpConn.establish]) (.inl rfl)
        fun _ _ _ hg => (meets_pure _).2 hg)
      exact arrive_paid hrst hflag (hack.trans (h.top htame).symm)
    · next hanswer =>
      refine (meets_ret _).2 (hgood (.inr ?_) (by simp [hs]))
      rw [← Bool.not_eq_true]
      exact hanswer
  · next hs =>
    have hg := hgood (.inl (by simp [hs])) (by simp [hs])
    have hfresh := h.fresh (.inr (.inl hs))
    split
    · split
      · next hsent =>
        refine (meets_monad_bind _ _).2 (meets_emit hg (by simp [hs]) (Lawful.plain hg.toTcpInv rfl _ _) fun delivered => (meets_pure _).2 ?_)
        refine hg.emitted (by simp [hs]) _ _ fun _ _ => ?_
        rw [stop_syn _ _ _ rfl rfl, show c.sndNxt = c.iss + 1 from (hfresh.synack (by simp [hs])).1 hsent]
        exact BitVec.le_refl _
      · exact (meets_monad_bind _ _).2 (Meets.mono (trySendSynack_meets hg hs now) fun _ _ hg => (meets_pure _).2 hg)
    split
    · next hack =>
      obtain ⟨hflag, hsent, hack⟩ := hack
      have hnxt := (hfresh.synack (by simp [hs])).1 hsent
      obtain ⟨i, hirs, hi⟩ := h.guestSide (by simp [hs])
      have hrcv : c.rcvNxt = i + 1 := by
        rw [hi.rcvNxt, hfresh.passed, hfresh.toHost, TcpConn.finBit, hfresh.guestFin]
        exact add_zero _
      have hinv := h.toTcpInv.establish now (.inl hs) hack hnxt h.mss
        ((arrive_irs (.inl (by simp [hs]))).trans hirs) hrcv
      refine estInput_meets hinv rfl h.top (fun htame => ?_) ⟨List.mem_cons_self, fun _ hfin => ?_⟩ now
      · rw [arrive_paid hrst hflag (hack.trans (h.top htame).symm)]
        exact (ite_self s.ack).symm
      · exact absurd hfin (by simp [hfresh.guestFin])
    · exact (meets_ret _).2 hg
  · next hs =>
    have hg := hgood (.inl (by simp [hs])) (by simp [hs])
    exact (meets_monad_bind _ _).2 (meets_emit_plain hg (by simp [hs]) (.inl rfl) fun _ _ _ hg => (meets_pure _).2 hg)
  · next hs =>
    refine estInput_meets (hwnd (.inl (by simp [hs]))) hs h.top (fun htame => ?_) ⟨List.mem_cons_self, ?_⟩ now
    · have htop := h.top htame
      have hpaid := h.paid htame hs
      change (if hasFlag s.fl tfRst = false ∧ hasFlag s.fl tfAck = true ∧ s.ack - c.sndUna ≤ g.top - c.sndUna then s.ack
        else g.paid) = _
      rw [htop, hpaid]
      simp only [hrst, true_and]
    · intro hq hfin hlen hturn
      obtain ⟨-, hq⟩ := Bool.and_eq_true_iff.1 hq
      by_contra hne
      have hstores : c.stores s = true := by
        unfold TcpConn.stores
        simp only [hs, hrst, hlen, show seqLt c.rcvNxt s.seq = false from hturn, beq_self_eq_true, decide_true, Bool.not_false,
          Bool.and_self, Bool.true_and, bne_iff_ne]
        exact hne
      rw [show c.guestFinRcvd = true from hfin, hstores] at hq
      cases hq

lemma connEvent_meets (h : Good g c) (now : ℕ) (revents : Revents) :
    (connEvent now c revents).Meets tcpProtocol g Alive := by
  have hgone {g : TcpLog} (h : Good g c) : (connAbort c).Meets tcpProtocol g Alive :=
    Meets.mono (connAbort_meets h) fun _ r hr => by rw [hr.1]; exact hr.2
  unfold connEvent
  split
  · next hs =>
    refine (meets_call _ _).2 ⟨⟨h, h.fd_nonneg (by simp [hs])⟩, fun err _ => ?_⟩
    split
    · exact hgone h.see
    · have hfresh := h.see.fresh (.inl hs)
      have hg : Good (g.see c) { c with state := .synRcvd } :=
        { h.see with
          socket := by
            have hsocket := h.see.socket
            rw [if_neg (by simp [hs])] at hsocket
            exact hsocket
          fd := ⟨(by rintro ⟨⟩), fun hneg => absurd (h.fd.2 hneg) (by simp [hs])⟩
          rto := (by rintro ⟨⟩)
          fresh := fun _ => { hfresh with
            waits := (by rintro ⟨⟩)
            synack := fun _ => hfresh.synack (by simp [hs])
            armed := fun _ => hfresh.armed (by simp [hs])
            unanswered := (by rintro ⟨⟩) }
          hostSide := fun hs => absurd hs (by simp)
          synSent := (by rintro ⟨⟩)
          guestSide := fun _ => (h.see.guestSide (by simp [hs])).imp fun _ hi => ⟨hi.1, { hi.2 with }⟩
          linger := (by rintro ⟨⟩)
          paid := fun _ hs => (by cases hs) }
      exact (meets_monad_bind _ _).2 (Meets.mono (trySendSynack_meets hg rfl now) fun _ _ hg => (meets_pure _).2 hg)
  · next hs =>
    split
    · exact hgone h
    dsimp only
    refine (meets_monad_bind _ _).2 (Meets.mono (Q := fun g' r => match r with
      | none => g'.socket = none
      | some c' => Good g' c' ∧ c'.state = .est) ?_ fun g' r hr => ?_)
    · split
      · refine Meets.mono (hostReadLoop_meets h hs _) fun g' r hr => ?_
        cases r with
        | none => exact hr
        | some c' => exact ⟨hr.1, hr.2.1⟩
      · exact (meets_ret _).2 ⟨h, hs⟩
    · cases r with
      | none => exact (meets_pure _).2 hr
      | some c' =>
        dsimp only
        split
        · exact drainG2h_meets hr.1 hr.2 now
        · exact (meets_pure _).2 hr.1
  · exact (meets_pure _).2 h

theorem connStep_meets (h : Good g c) (now : ℕ) (e : ConnEvent) :
    (connStep now c e).Meets tcpProtocol (g.arrive now c e) Alive := by
  cases e with
  | segment s => exact connInput_meets h now s
  | poll revents => exact connEvent_meets h.see now revents
  | tick =>
    refine connTick_meets (g := { g.see c with tame := g.tame && c.modest now }) ?_ fun htame => (Bool.and_eq_true_iff.1 htame).2
    exact ⟨{ h.see.toTcpInv with }, fun htame => h.top (Bool.and_eq_true_iff.1 htame).1,
      fun htame => h.paid (Bool.and_eq_true_iff.1 htame).1⟩
  | emit => exact connEmit_meets h.see now
  | reset => exact Meets.mono (connFree_meets h.see) fun _ r hr => by rw [hr.1]; exact hr.2

theorem connRun_meets (h : Good g c) (events : ℕ) : (connRun events c).Meets tcpProtocol g Alive := by
  induction events generalizing g c with
  | zero => exact (meets_ret _).2 h
  | succ events ih =>
    refine (meets_call _ _).2 ⟨h, fun r _ => (meets_monad_bind _ _).2 ?_⟩
    obtain ⟨now, e⟩ := r
    refine Meets.mono (connStep_meets h now e) fun g' r hr => ?_
    cases r with
    | none => exact (meets_pure _).2 hr
    | some c' => exact ih hr

end Rules

def Opening.log (o : Opening) (now : ℕ) (iss : U32) (fd : ℤ) : TcpLog where
  iss := iss
  key := (o.conn now iss fd).key
  socket := some fd
  irs := match o with
    | guest _ s _ => some s.seq
    | host _ _ _ => none
  top := iss
  paid := iss

lemma Good.new (c : TcpConn) (irs : Option U32) (hstate : c.state = .synWait ∨ c.state = .synRcvd ∨ c.state = .synSent)
    (hfresh : Handshaking [] false 0 0 c) (hfd : 0 ≤ c.fd) (hmss : 64 ≤ c.mss.toNat ∧ c.mss.toNat ≤ 1460)
    (hheads : c.h2gHead = 0 ∧ c.g2hHead = 0) (hflags : c.hostEof = false ∧ c.hostWrShut = false)
    (hsent : c.state = .synSent → irs = none) (hrcvd : c.state ≠ .synSent → irs = some (c.rcvNxt - 1)) :
    Good { iss := c.iss, key := c.key, socket := some c.fd, irs := irs, top := c.sndNxt, paid := c.sndUna } c := by
  have hlinger : c.state ≠ .linger := by rcases hstate with h | h | h <;> simp [h]
  have hest : c.state ≠ .est := by rcases hstate with h | h | h <;> simp [h]
  have hguest : GuestSide [] true 0 c (c.rcvNxt - 1) := by
    refine ⟨?_, fun _ k b hb => ?_⟩
    · rw [hfresh.toHost, TcpConn.finBit, hfresh.guestFin, sub_add_cancel]
      exact (add_zero _).symm
    · unfold TcpConn.toHost at hb
      rw [hfresh.toHost] at hb
      cases hb
  exact
    { iss := rfl
      key := rfl
      mss := hmss
      h2gHead := by rw [hheads.1]; decide
      h2gLen := by rw [hfresh.toGuest]; decide
      g2hHead := by rw [hheads.2]; decide
      g2hLen := by rw [hfresh.toHost]; decide
      socket := (if_neg hlinger).symm
      fd := ⟨fun h => absurd h hlinger, fun h => absurd hfd (not_le.2 h)⟩
      eof := hflags.1
      shut := hflags.2
      edge := Nat.zero_le _
      fin := (by rintro _ ⟨⟩)
      rto := fun h => absurd h hest
      fresh := fun _ => hfresh
      hostSide := fun h => absurd h (not_or.2 ⟨hest, hlinger⟩)
      synSent := hsent
      guestSide := fun h => ⟨_, hrcvd h, hguest⟩
      linger := fun h => absurd h hlinger
      top := fun _ => rfl
      paid := fun _ h => absurd h hest }

lemma Opening.good (o : Opening) (now : ℕ) (iss : U32) {fd : ℤ} (hfd : 0 ≤ fd) :
    Good (o.log now iss fd) (o.conn now iss fd) := by
  have hne : iss ≠ iss + 1 := by
    intro h
    have hone : (1 : U32) = 0 := by rwa [left_eq_add] at h
    exact absurd hone (by decide)
  cases o with
  | guest dst s connected =>
    have hirs : some s.seq = some (s.seq + 1 - 1) := by rw [add_sub_cancel_right]
    cases connected with
    | true =>
      refine Good.new (Opening.conn now iss fd (.guest dst s true)) (some s.seq) (.inr (.inl rfl)) ?_ hfd (clampMss_bounds _) ⟨rfl, rfl⟩ ⟨rfl, rfl⟩ nofun fun _ => hirs
      exact ⟨rfl, .inl rfl, nofun, fun _ => ⟨nofun, fun h => absurd h hne⟩, fun _ h => absurd rfl h, nofun,
        rfl, rfl, rfl, rfl, rfl, rfl, rfl, rfl⟩
    | false =>
      refine Good.new (Opening.conn now iss fd (.guest dst s false)) (some s.seq) (.inl rfl) ?_ hfd (clampMss_bounds _) ⟨rfl, rfl⟩ ⟨rfl, rfl⟩ nofun fun _ => hirs
      exact ⟨rfl, .inl rfl, fun _ => ⟨rfl, rfl⟩, fun _ => ⟨nofun, fun h => absurd h hne⟩, fun _ h => absurd rfl h, nofun,
        rfl, rfl, rfl, rfl, rfl, rfl, rfl, rfl⟩
  | host ip port guestPort =>
    refine Good.new (Opening.conn now iss fd (.host ip port guestPort)) none (.inr (.inr rfl)) ?_ hfd ⟨?_, ?_⟩ ⟨rfl, rfl⟩ ⟨rfl, rfl⟩ (fun _ => rfl) fun h => absurd rfl h
    · exact ⟨rfl, .inl rfl, nofun, fun h => absurd rfl h, fun h => absurd rfl h, fun _ => rfl,
        rfl, rfl, rfl, rfl, rfl, rfl, rfl, rfl⟩
    · change 64 ≤ unTcpMss.toNat
      decide
    · change unTcpMss.toNat ≤ 1460
      decide

lemma Opening.start_meets (o : Opening) (now : ℕ) (iss : U32) {fd : ℤ} (hfd : 0 ≤ fd) :
    (o.start now iss fd).Meets tcpProtocol (o.log now iss fd) fun g c => Good g c := by
  have h := o.good now iss hfd
  unfold Opening.start
  split
  · exact trySendSynack_meets h rfl now
  · exact (meets_pure _).2 h
  · next ip port guestPort =>
    have hwait : (Opening.conn now iss fd (.host ip port guestPort)).state ≠ .synWait := by rintro ⟨⟩
    refine (meets_monad_bind _ _).2 (meets_emit h hwait (Lawful.plain h.toTcpInv rfl _ _) fun delivered => (meets_pure _).2 ?_)
    cases delivered with
    | false => exact (h.emitted hwait _ _ (by rintro _ ⟨⟩)).timers _ _ fun hno => absurd rfl hno
    | true =>
      have hinv := h.toTcpInv.emitted hwait
        (TcpConn.segment (Opening.conn now iss fd (.host ip port guestPort)) tfSyn iss [] true) true
      refine ⟨?_, fun htame => emitted_syn_top h (h.fresh (.inr (.inr rfl))) rfl rfl htame, (by rintro _ ⟨⟩)⟩
      exact
        { hinv with
          rto := (by rintro ⟨⟩)
          fresh := fun hs => { hinv.fresh hs with
            nxt := .inr rfl
            waits := (by rintro ⟨⟩)
            synack := fun hno => absurd rfl hno
            armed := fun hno => absurd rfl hno }
          hostSide := fun hs => hs.elim nofun nofun
          guestSide := fun hno => absurd rfl hno }

theorem Opening.life_meets (o : Opening) (now : ℕ) (iss : U32) (fd events : ℕ) :
    (o.life now iss fd events).Meets tcpProtocol (o.log now iss fd) Alive :=
  (meets_monad_bind _ _).2 (Meets.mono (o.start_meets now iss (Int.natCast_nonneg fd)) fun _ _ hg => connRun_meets hg events)

end Arm64Emu
