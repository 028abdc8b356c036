import Arm64Emu.TcpContract

/-! The laws of a connection of the TCP proxy, each with the history that it speaks of: the
stream of the host, the stream of the guest, what is sent again and the end of both
directions. -/
namespace Arm64Emu

open Dialogue TcpProg

def TcpCall.shown : TcpCall → Option TcpConn
  | emit c _ => some c
  | rstRaw c _ => c
  | send c _ => some c
  | read c _ => some c
  | shutdown c => some c
  | resetOnClose c => some c
  | soError c => some c
  | close c => some c
  | next c => some c
  | _ => none

lemma good_of_shown {g : TcpLog} {call : TcpCall} (h : tcpProtocol.allowed g call) {c : TcpConn} (hc : call.shown = some c) :
    Good g c := by
  cases call with
  | rstRaw c' seg =>
    obtain rfl : c' = some c := hc
    exact h.1
  | next =>
    cases hc
    exact h
  | emit | send | read | shutdown | close | resetOnClose | soError =>
    cases hc
    exact h.1
  | _ => cases hc

structure HostStream where
  iss : U32
  bytes : Bytes := []
  eof : Bool := false

/-- A byte for the guest is the byte of the host's stream that its sequence number says, and
the FIN stands behind the last byte of a stream that has ended. -/
def hostStreamLaw : Protocol TcpCall.Reply HostStream where
  allowed g call :=
    match call with
    | .emit _ seg =>
      (∀ i b, seg.payload[i]? = some b →
        ∃ p, g.bytes[p]? = some b ∧ seg.seq + BitVec.ofNat 32 i = g.iss + 1 + BitVec.ofNat 32 p) ∧
      (hasFlag seg.flags tfFin = true →
        g.eof = true ∧ seg.payload = [] ∧ seg.seq = g.iss + 1 + BitVec.ofNat 32 g.bytes.length)
    | .rstRaw _ seg => seg.payload = []
    | _ => True
  answers _ _ _ := True
  next g call r :=
    match call, r with
    | .read _ _, r => match r with
      | .data bytes _ => { g with bytes := g.bytes ++ bytes }
      | .eof => { g with eof := true }
      | _ => g
    | _, _ => g

/-- Whatever the host and the guest do, the guest gets the stream of the host. -/
theorem host_stream_reaches_guest (o : Opening) (now : ℕ) (iss : U32) (fd events : ℕ) :
    (o.life now iss fd events).Meets hostStreamLaw { iss := iss } fun _ _ => True := by
  refine Meets.project (J := fun _ => True) (fun g : TcpLog => (⟨g.iss, g.host, g.eof⟩ : HostStream))
    (Meets.mono (o.life_meets now iss fd events) fun _ _ _ _ => trivial) trivial ?_ ?_
  · intro g call _ h
    cases call with
    | emit c seg => exact ⟨h.2.2.data, h.2.2.fin⟩
    | rstRaw c seg =>
      cases c with
      | none => exact h.elim
      | some c => exact h.2.2.2
    | _ => trivial
  · intro g call r _ _ _
    refine ⟨trivial, trivial, ?_⟩
    cases call with
    | send => cases r <;> rfl
    | read => cases r <;> rfl
    | next => obtain ⟨now, e⟩ := r; cases e <;> rfl
    | _ => rfl

/-- What the guest has sent and how far it got: the segments, its initial sequence number
once the proxy has it, the bytes that the host has taken, the last right edge that the guest
was told, and whether no payload was stored behind the guest's FIN. Before the FIN is taken
there is nothing behind it. -/
structure GuestStream where
  segs : List GuestSegment := []
  irs : Option U32
  passed : ℕ := 0
  edge : ℕ := 0
  quiet : Bool := true

/-- The next byte for the host is the next byte of the guest's stream. A segment acknowledges
what is stored, which the host has taken or will be offered, and the window ends where the
buffer does, no earlier than the guest was told before. A FIN that is taken counts as one. -/
def guestStreamLaw : Protocol TcpCall.Reply GuestStream where
  allowed g call :=
    match call with
    | .emit c seg => hasFlag seg.flags tfAck = true →
      match g.irs with
      | some i =>
        seg.ack = i + 1 + BitVec.ofNat 32 (g.passed + c.g2hLen.toNat + c.finBit) ∧
        g.edge ≤ g.passed + 32768 + c.finBit ∧
        seg.ack + seg.wnd.setWidth 32 = i + 1 + BitVec.ofNat 32 (g.passed + 32768 + c.finBit)
      | none => c.state = .synSent ∧ seg.ack = 0
    | .rstRaw (some c) seg =>
      ∃ i, g.irs = some i ∧ seg.ack = i + 1 + BitVec.ofNat 32 (g.passed + c.g2hLen.toNat + c.finBit) ∧ g.edge = 0
    | .send _ data => g.quiet = true →
      ∃ i, g.irs = some i ∧ ∀ k b, data[k]? = some b → Carried g.segs i (g.passed + k) b
    | _ => True
  answers _ _ _ := True
  next g call r :=
    match call, r with
    | .emit c seg, _ => { g with edge := if hasFlag seg.flags tfAck then g.passed + 32768 + c.finBit else g.edge }
    | .send _ _, r => match r with
      | .sent n _ => { g with passed := g.passed + n }
      | _ => g
    | .next c, (_, .segment s) =>
      { g with
        segs := s :: g.segs
        irs := if c.state = .synSent ∧ hasFlag s.fl tfRst = false ∧ c.answeredBy s = true then some s.seq else g.irs
        quiet := g.quiet && !(c.guestFinRcvd && c.stores s) }
    | _, _ => g

lemma ack_add_wnd {g : TcpLog} {c : TcpConn} {seg : Segment} {i : U32} (h : TcpInv g c) (hwnd : seg.wnd.toNat = 32768 - c.g2hLen.toNat)
    (hack : seg.ack = i + 1 + BitVec.ofNat 32 (g.passed + c.g2hLen.toNat + c.finBit)) :
    seg.ack + seg.wnd.setWidth 32 = i + 1 + BitVec.ofNat 32 (g.passed + 32768 + c.finBit) := by
  have hlen := h.g2hLen
  have hwide : seg.wnd.setWidth 32 = BitVec.ofNat 32 (32768 - c.g2hLen.toNat) := by
    refine BitVec.eq_of_toNat_eq ?_
    rw [BitVec.toNat_setWidth, BitVec.toNat_ofNat, hwnd]
  have hsum : g.passed + 32768 + c.finBit = g.passed + c.g2hLen.toNat + c.finBit + (32768 - c.g2hLen.toNat) := by omega
  rw [hack, hwide, hsum, BitVec.ofNat_add (g.passed + c.g2hLen.toNat + c.finBit), add_assoc (i + 1)]

/-- Whatever the guest sends and whatever the host takes of it, the host gets the stream of
the guest. -/
theorem guest_stream_reaches_host (o : Opening) (now : ℕ) (iss : U32) (fd events : ℕ) :
    (o.life now iss fd events).Meets guestStreamLaw { irs := (o.log now iss fd).irs } fun _ _ => True := by
  refine Meets.project (J := fun _ => True) (fun g : TcpLog => (⟨g.segs, g.irs, g.passed, g.edge, g.quiet⟩ : GuestStream))
    (Meets.mono (o.life_meets now iss fd events) fun _ _ _ _ => trivial) trivial ?_ ?_
  · intro g call _ h
    cases call with
    | emit c seg =>
      obtain ⟨hg, -, hlaw⟩ := h
      intro hflag
      have hack := hlaw.ack hflag
      by_cases hs : c.state = .synSent
      · change match g.irs with
          | some i => _
          | none => _
        rw [hg.synSent hs]
        exact ⟨hs, hack.trans ((hg.fresh (.inr (.inr hs))).unanswered hs)⟩
      · obtain ⟨i, hirs, hi⟩ := hg.guestSide hs
        change match g.irs with
          | some i => _
          | none => _
        rw [hirs]
        have hack' := hack.trans hi.rcvNxt
        exact ⟨hack', hg.edge, ack_add_wnd hg.toTcpInv hlaw.wnd hack'⟩
    | rstRaw c seg =>
      cases c with
      | none => exact h.elim
      | some c =>
        obtain ⟨hg, hs, hack, -⟩ := h
        obtain ⟨i, hirs, hi⟩ := hg.guestSide (by simp [hs])
        exact ⟨i, hirs, hack.trans hi.rcvNxt, ((hg.fresh (.inl hs)).waits hs).2⟩
    | send c data =>
      obtain ⟨hg, hs, hpart⟩ := h
      intro hquiet
      obtain ⟨i, hirs, hi⟩ := hg.guestSide (by simp [hs])
      refine ⟨i, hirs, fun k b hb => hi.bytes hquiet k b ?_⟩
      obtain ⟨hk, -⟩ := List.getElem?_eq_some_iff.1 hb
      obtain ⟨rest, hrest⟩ := hpart
      rw [← hrest, List.getElem?_append_left hk]
      exact hb
    | _ => trivial
  · intro g call r _ _ _
    refine ⟨trivial, trivial, ?_⟩
    cases call with
    | send => cases r <;> rfl
    | read => cases r <;> rfl
    | next => obtain ⟨now, e⟩ := r; cases e <;> rfl
    | _ => rfl

/-- What the guest has received and acknowledged, and whether every tick was modest. -/
structure SendSide where
  top : U32
  paid : U32
  tame : Bool := true

/-- As long as every tick was modest: what the guest has received lies below `snd_nxt`, every
acknowledgement of some of it is taken, and while all of it is acknowledged no timer runs. -/
def SendSide.Holds (g : SendSide) (c : TcpConn) : Prop :=
  g.tame = true → c.state = .est →
    g.top - c.sndUna ≤ c.sndNxt - c.sndUna ∧
    (∀ ack, 0 < ack - c.sndUna → ack - c.sndUna ≤ g.top - c.sndUna →
      seqLt c.sndUna ack = true ∧ seqLt c.sndNxt ack = false) ∧
    (g.paid = g.top → ∀ now, c.rtoDue now = false)

def SendSide.emitted (g : SendSide) (c : TcpConn) (seg : Segment) (delivered : Bool) : SendSide :=
  { g with top := if delivered = true ∧ g.top - c.sndUna < seg.stop - c.sndUna then seg.stop else g.top }

/-- That at every call, and payload goes within the guest's window. -/
def sendLaw : Protocol TcpCall.Reply SendSide where
  allowed g call :=
    (∀ c, call.shown = some c → g.Holds c) ∧
    ∀ c seg, call = .emit c seg → g.tame = true → seg.payload ≠ [] →
      (seg.seq - c.sndUna).toNat + seg.payload.length ≤ c.peerWnd.toNat
  answers _ _ _ := True
  next g call r :=
    match call, r with
    | .emit c seg, delivered => g.emitted c seg delivered
    | .next c, (now, e) => match e with
      | .segment s =>
        { g with
          paid := if hasFlag s.fl tfRst = false ∧ hasFlag s.fl tfAck = true ∧ s.ack - c.sndUna ≤ g.top - c.sndUna then s.ack
            else g.paid }
      | .tick => { g with tame := g.tame && c.modest now }
      | _ => g
    | _, _ => g

lemma Good.sendSide {g : TcpLog} {c : TcpConn} (h : Good g c) : (⟨g.top, g.paid, g.tame⟩ : SendSide).Holds c := by
  intro htame hest
  have htop : g.top = c.sndNxt := h.top htame
  have hpaid : g.paid = c.sndUna := h.paid htame hest
  obtain ⟨a, ha⟩ := h.hostSide (.inl hest)
  dsimp only
  rw [htop, hpaid]
  refine ⟨BitVec.le_refl _, fun ack hpos hle => ?_, fun hall now => ?_⟩
  · exact (seq_between_iff (inFlight_lt h.toTcpInv ha) ack).2 ⟨BitVec.lt_def.1 hpos, BitVec.le_def.1 hle⟩
  · by_contra hdue
    rw [Bool.not_eq_false] at hdue
    exact h.rto hest (rtoAt_of_rtoDue hdue) hall.symm

theorem tame_sends (o : Opening) (now : ℕ) (iss : U32) (fd events : ℕ) :
    (o.life now iss fd events).Meets sendLaw { top := iss, paid := iss } fun g r => ∀ c, r = some c → g.Holds c := by
  refine Meets.project (J := fun _ => True) (fun g : TcpLog => (⟨g.top, g.paid, g.tame⟩ : SendSide))
    (Meets.mono (o.life_meets now iss fd events) fun g r hr _ c hc => ?_) trivial ?_ ?_
  · subst hc
    exact Good.sendSide hr
  · intro g call _ h
    refine ⟨fun c hc => (good_of_shown h hc).sendSide, ?_⟩
    rintro c seg rfl
    exact h.2.2.window
  · intro g call r _ _ _
    refine ⟨trivial, trivial, ?_⟩
    cases call with
    | send => cases r <;> rfl
    | read => cases r <;> rfl
    | next => obtain ⟨now, e⟩ := r; cases e <;> rfl
    | _ => rfl

/-- What the two ends of a connection do in a run: the events, and the bytes that the host
has for each read. The guest gets every segment and the host takes every byte. -/
structure Script where
  events : List (ℕ × ConnEvent)
  reads : List Bytes := []

def Script.reply (w : Script) : (call : TcpCall) → call.Reply × Script
  | .emit _ _ => (true, w)
  | .send _ data => (if h : 0 < data.length then .sent data.length ⟨h, le_rfl⟩ else .again, w)
  | .read _ want => match w.reads with
    | [] => (.again, w)
    | bytes :: rest =>
      if h : 0 < bytes.length ∧ bytes.length ≤ want then (.data bytes h, { w with reads := rest }) else (.again, w)
  | .soError _ => (false, w)
  | .socket => ((3 : ℤ), w)
  | .connect _ _ _ => (.done, w)
  | .accept _ => ((-1, 0, 0), w)
  | .alloc => (true, w)
  | .dnsServer => ((0 : U32), w)
  | .next _ => match w.events with
    | [] => ((0, .emit), w)
    | e :: rest => (e, { w with events := rest })
  | .rstRaw _ _ => ((), w)
  | .shutdown _ => ((), w)
  | .resetOnClose _ => ((), w)
  | .close _ => ((), w)
  | .closeSocket _ => ((), w)

def guestSyn : GuestSegment :=
  { gPort := 40000, rPort := 80, seq := 1000, ack := 0, fl := tfSyn, wnd := 4, mss := 1460, payload := [] }

def guestAck (ack wnd : U32) : ConnEvent := .segment { guestSyn with seq := 1001, ack := ack, fl := tfAck, wnd := wnd }

/-- The host sends 8 bytes. The timer sends all of them again at its first shot, and the guest
acknowledges all that it gets. -/
def overrunScript : Script where
  events := [(0, guestAck 1 4), (0, .poll ⟨true, false, false, false⟩), (0, .emit)] ++
    (List.range 9).flatMap fun k => [(1000000 * (k + 1), .tick), (1000000 * (k + 1), guestAck 9 0)]
  reads := [[1, 2, 3, 4, 5, 6, 7, 8]]

def TcpCall.segmentView : TcpCall → Option (U8 × U32 × ℕ)
  | emit _ seg => some (seg.flags, seg.seq, seg.payload.length)
  | _ => none

def TcpCall.sendView : TcpCall → Option (U32 × U32)
  | next c => some (c.sndUna, c.sndNxt)
  | _ => none

/-- The guest gets 8 bytes, of which the window took 4 and `snd_nxt` says 4. It acknowledges
all of them, which is never taken, and the connection is reset after the last shot. -/
theorem unsent_bytes_sent_again :
    let run := (Opening.life (.guest 0x01020304 guestSyn true) 0 0 3 21).run Script.reply overrunScript
    run.1.filterMap TcpCall.segmentView = [(tfSyn ||| tfAck, 0, 0), (tfAck ||| tfPsh, 1, 4)] ++
      List.replicate 8 (tfAck ||| tfPsh, 1, 8) ++ [(tfRst ||| tfAck, 5, 0)] ∧
    run.1.filterMap TcpCall.sendView = [(0, 1), (1, 1), (1, 1)] ++ List.replicate 17 (1, 5) ∧
    run.2.1.isNone = true := by
  decide +kernel

structure HalfClose where
  iss : U32
  host : Bytes := []
  eof : Bool := false
  passed : ℕ := 0
  fin : Option (U32 × ℕ) := none
  shut : Bool := false
  quiet : Bool := true

/-- Behind the guest's FIN nothing is stored and its number stays, as long as the guest sends
no payload there. A connection lingers when the guest's FIN is taken, the host's stream and
the FIN behind it are acknowledged and nothing waits any more. -/
def HalfClose.Holds (g : HalfClose) (c : TcpConn) : Prop :=
  (g.quiet = true → ∀ f, g.fin = some f → c.guestFinRcvd = true ∧ f = (c.rcvNxt, g.passed + c.g2hLen.toNat)) ∧
  (c.state = .linger → c.guestFinRcvd = true ∧ g.eof = true ∧
    c.sndUna = g.iss + 1 + BitVec.ofNat 32 (g.host.length + 1) ∧ c.h2gLen = 0 ∧ c.g2hLen = 0)

def HalfClose.see (g : HalfClose) (c : TcpConn) : HalfClose :=
  { g with fin := g.fin <|> if c.guestFinRcvd then some (c.rcvNxt, g.passed + c.g2hLen.toNat) else none }

/-- The host socket is shut once, and when the host has taken all that is stored. -/
def halfCloseLaw : Protocol TcpCall.Reply HalfClose where
  allowed g call :=
    (∀ c, call.shown = some c → g.Holds c) ∧
    ∀ c, call = .shutdown c → g.shut = false ∧ c.guestFinRcvd = true ∧ c.g2hLen = 0
  answers _ _ _ := True
  next g call r :=
    match call, r with
    | .emit c _, _ => g.see c
    | .send c _, r => match r with
      | .sent n _ => { g.see c with passed := g.passed + n }
      | _ => g.see c
    | .read c _, r => match r with
      | .data bytes _ => { g.see c with host := g.host ++ bytes }
      | .eof => { g.see c with eof := true }
      | _ => g.see c
    | .shutdown c, _ => { g.see c with shut := true }
    | .close c, _ => g.see c
    | .resetOnClose c, _ => g.see c
    | .soError c, _ => g.see c
    | .next c, (_, e) => match e with
      | .segment s => { g.see c with quiet := g.quiet && !(c.guestFinRcvd && c.stores s) }
      | _ => g.see c
    | _, _ => g

lemma Good.halfClose {g : TcpLog} {c : TcpConn} (h : Good g c) :
    (⟨g.iss, g.host, g.eof, g.passed, g.fin, g.shut, g.quiet⟩ : HalfClose).Holds c := by
  refine ⟨fun hquiet f hf => ⟨(h.fin f hf).1, (h.fin f hf).2 hquiet⟩, fun hs => ?_⟩
  obtain ⟨hguest, hacked, hempty⟩ := h.linger hs
  obtain ⟨a, ha⟩ := h.hostSide (.inr hs)
  obtain ⟨hsent, hsame⟩ := ha.finAcked hacked
  obtain ⟨heof, htotal⟩ := ha.sent hsent
  have hnone : c.inFlight = 0 := by
    unfold TcpConn.inFlight
    rw [hsame, sub_self]
    rfl
  have hall : a = g.host.length + 1 := by omega
  refine ⟨hguest, heof, ?_, BitVec.eq_of_toNat_eq ?_, hempty⟩
  · dsimp only
    rw [ha.una, h.iss, hall]
  · rw [ha.length, hall]
    exact Nat.sub_eq_zero_of_le (Nat.le_succ _)

theorem quiet_half_close (o : Opening) (now : ℕ) (iss : U32) (fd events : ℕ) :
    (o.life now iss fd events).Meets halfCloseLaw { iss := iss } fun g r => ∀ c, r = some c → g.Holds c := by
  refine Meets.project (J := fun _ => True) (fun g : TcpLog => (⟨g.iss, g.host, g.eof, g.passed, g.fin, g.shut, g.quiet⟩ : HalfClose))
    (Meets.mono (o.life_meets now iss fd events) fun g r hr _ c hc => ?_) trivial ?_ ?_
  · subst hc
    exact Good.halfClose hr
  · intro g call _ h
    refine ⟨fun c hc => (good_of_shown h hc).halfClose, ?_⟩
    rintro c rfl
    exact h.2.2
  · intro g call r _ _ _
    refine ⟨trivial, trivial, ?_⟩
    cases call with
    | send => cases r <;> rfl
    | read => cases r <;> rfl
    | next => obtain ⟨now, e⟩ := r; cases e <;> rfl
    | _ => rfl

def lateScript : Script where
  events := [(0, guestAck 1 4), (0, .segment { guestSyn with seq := 1001, ack := 1, fl := tfFin ||| tfAck }),
    (0, .segment { guestSyn with seq := 1002, ack := 1, fl := tfAck, payload := [0x41] })]

/-- The guest's FIN and the next sequence number between two events. -/
def TcpCall.finView : TcpCall → Option (Bool × U32)
  | next c => some (c.guestFinRcvd, c.rcvNxt)
  | _ => none

def TcpCall.hostView : TcpCall → Option (Option Bytes)
  | send _ data => some (some data)
  | shutdown _ => some none
  | _ => none

/-- The byte is stored, acknowledged and sent to a socket that is shut. -/
theorem payload_stored_behind_fin :
    let run := (Opening.life (.guest 0x01020304 guestSyn true) 0 0 3 4).run Script.reply lateScript
    run.1.filterMap TcpCall.finView = [(false, 1001), (false, 1001), (true, 1002), (true, 1003)] ∧
    run.1.filterMap TcpCall.hostView = [none, some [0x41]] := by
  decide +kernel

end Arm64Emu
