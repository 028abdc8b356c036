import Arm64Emu.TcpContract

/-! The table of connections (`usernet_tcp.c`): how connections come into it and leave it, and
what holds of it over any sequence of events. -/
namespace Arm64Emu

open Dialogue

/-- The part of `UserNet` that the TCP proxy keeps. -/
structure UserNet where
  tcp : List TcpConn := []
  nTcp : ℤ := 0
  tcpIss : U32

inductive NetEvent
  | segment (src dst : U32) (t : Bytes)
  | accept (listener : ℤ) (guestPort : U16) (rounds : ℕ)
  | poll (i : ℕ) (revents : Revents)
  | tick
  | emitAll
  | reset

namespace UserNet

def connFind (un : UserNet) (gPort : U16) (rIp : U32) (rPort : U16) : Option ℕ :=
  un.tcp.findIdx? fun c => c.key == (gPort, rIp, rPort)

def put (un : UserNet) (i : ℕ) : Option TcpConn → UserNet
  | some c => { un with tcp := un.tcp.set i c }
  | none => { un with tcp := un.tcp.eraseIdx i, nTcp := un.nTcp - 1 }

/-- A new connection is linked; its initial sequence number came from the counter. -/
def link (un : UserNet) (c : TcpConn) : UserNet :=
  { tcp := c :: un.tcp, nTcp := un.nTcp + 1, tcpIss := un.tcpIss + 0x10000 }

/-- The real target: the gateway is the host's loopback, the virtual DNS server the host's
resolver, anything else is itself. -/
def target (dst : U32) : TcpProg U32 :=
  if dst = unIpHost then .ret 0x7f000001
  else if dst = unIpDns then .call .dnsServer .ret
  else .ret dst

def guestOpen (now : ℕ) (un : UserNet) (dst : U32) (s : GuestSegment) : TcpProg UserNet := do
  let refuse := TcpProg.tcpRstRaw none dst s.rPort s.gPort 0 (s.seq + 1) true
  if (unTcpMax : ℤ) ≤ un.nTcp then
    refuse
    return un
  else
    let tIp ← target dst
    .call .socket fun (fd : ℤ) =>
      if fd < 0 then do
        refuse
        return un
      else
        .call (.connect fd tIp s.rPort) fun (rc : ConnectReply) => match rc with
          | .failed =>
            .call (.closeSocket fd) fun _ => do
              refuse
              return un
          | rc =>
            .call .alloc fun (allocated : Bool) =>
              if allocated then do
                let c ← (Opening.guest dst s (decide (rc = .done))).start now un.tcpIss fd
                return un.link c
              else
                .call (.closeSocket fd) fun _ => .ret un

/-- `un_tcp_accept`, as long as the listener has connections. -/
def unTcpAccept (now : ℕ) (listener : ℤ) (guestPort : U16) : ℕ → UserNet → TcpProg UserNet
  | 0, un => .ret un
  | rounds + 1, un =>
    .call (.accept listener) fun (fd, peerIp, port) =>
      if fd < 0 then .ret un
      else
        -- a loopback peer is shown as the gateway
        let ip := if peerIp >>> 24 = 127 ∨ peerIp = 0 then unIpHost else peerIp
        if (unTcpMax : ℤ) ≤ un.nTcp ∨ (un.connFind guestPort ip port).isSome = true then
          .call (.closeSocket fd) fun _ => unTcpAccept now listener guestPort rounds un
        else
          .call .alloc fun (allocated : Bool) =>
            if allocated then do
              let c ← (Opening.host ip port guestPort).start now un.tcpIss fd
              unTcpAccept now listener guestPort rounds (un.link c)
            else
              .call (.closeSocket fd) fun _ => .ret un

def strayInput (now : ℕ) (un : UserNet) (dst : U32) (s : GuestSegment) : TcpProg UserNet :=
  if hasFlag s.fl tfRst then .ret un
  else if hasFlag s.fl tfSyn = true ∧ hasFlag s.fl tfAck = false then guestOpen now un dst s
  else if hasFlag s.fl tfAck then do
    TcpProg.tcpRstRaw none dst s.rPort s.gPort s.ack 0 false
    return un
  else do
    TcpProg.tcpRstRaw none dst s.rPort s.gPort 0 (s.seq + s.plen + if hasFlag s.fl tfFin then 1 else 0) true
    return un

def unTcpInput (now : ℕ) (un : UserNet) (src dst : U32) (t : Bytes) : TcpProg UserNet :=
  if src ≠ unIpGuest then .ret un
  else match GuestSegment.parse t with
    | none => .ret un
    | some s => match un.connFind s.gPort dst s.rPort with
      | none => strayInput now un dst s
      | some i => match un.tcp[i]? with
        | none => .ret un
        | some c =>
          -- a fresh SYN onto a lingering pair: the old connection is done
          if c.state = .linger ∧ hasFlag s.fl tfSyn = true ∧ hasFlag s.fl tfAck = false then do
            let r ← TcpProg.connFree c
            strayInput now (un.put i r) dst s
          else do
            let r ← TcpProg.connInput now c s
            return un.put i r

/-- The event of the connection at place `i`. -/
def unTcpEvent (now : ℕ) (un : UserNet) (i : ℕ) (revents : Revents) : TcpProg UserNet :=
  match un.tcp[i]? with
  | none => .ret un
  | some c => do
    let r ← TcpProg.connEvent now c revents
    return un.put i r

/-- One connection after the other; the ones that are left, and how many are gone. -/
def forConns (f : TcpConn → TcpProg (Option TcpConn)) : List TcpConn → TcpProg (List TcpConn × ℤ)
  | [] => .ret ([], 0)
  | c :: rest => do
    let r ← f c
    let (left, gone) ← forConns f rest
    match r with
    | some c => return (c :: left, gone)
    | none => return (left, gone + 1)

def eachConn (un : UserNet) (f : TcpConn → TcpProg (Option TcpConn)) : TcpProg UserNet := do
  let (left, gone) ← forConns f un.tcp
  return { un with tcp := left, nTcp := un.nTcp - gone }

def unTcpTick (now : ℕ) (un : UserNet) : TcpProg UserNet := un.eachConn (TcpProg.connTick now)

def unTcpEmitAll (now : ℕ) (un : UserNet) : TcpProg UserNet := un.eachConn (TcpProg.connEmit now)

def unTcpReset (un : UserNet) : TcpProg UserNet := un.eachConn TcpProg.connFree

def step (now : ℕ) (un : UserNet) : NetEvent → TcpProg UserNet
  | .segment src dst t => un.unTcpInput now src dst t
  | .accept listener guestPort rounds => unTcpAccept now listener guestPort rounds un
  | .poll i revents => un.unTcpEvent now i revents
  | .tick => un.unTcpTick now
  | .emitAll => un.unTcpEmitAll now
  | .reset => un.unTcpReset

def run : List (ℕ × NetEvent) → UserNet → TcpProg UserNet
  | [], un => .ret un
  | (now, e) :: events, un => do
    let un ← un.step now e
    run events un

end UserNet

def withSocket (g : Finset ℤ) (fd : ℤ) : Finset ℤ := if 0 ≤ fd then insert fd g else g

/-- The open sockets. The host gives a descriptor that is not open; a call is made on one that
is, and closing it ends that. -/
def socketLaw : Protocol TcpCall.Reply (Finset ℤ) where
  allowed g call :=
    match call with
    | .send c _ => c.fd ∈ g
    | .read c _ => c.fd ∈ g
    | .shutdown c => c.fd ∈ g
    | .resetOnClose c => c.fd ∈ g
    | .soError c => c.fd ∈ g
    | .close c => c.fd ∈ g
    | .connect fd _ _ => fd ∈ g
    | .closeSocket fd => fd ∈ g
    | _ => True
  answers g call r :=
    match call, r with
    | .socket, fd => fd ∉ g
    | .accept _, r => r.1 ∉ g
    | _, _ => True
  next g call r :=
    match call, r with
    | .socket, fd => withSocket g fd
    | .accept _, r => withSocket g r.1
    | .close c, _ => g.erase c.fd
    | .closeSocket fd, _ => g.erase fd
    | _, _ => g

def socks (l : List TcpConn) : List ℤ := (l.map TcpConn.fd).filter fun fd => decide (0 ≤ fd)

/-- Each connection is in order and owns a socket of its own, and no other socket is open. -/
structure Owns (open' : Finset ℤ) (l : List TcpConn) : Prop where
  good : ∀ c ∈ l, ∃ g, Good g c
  nodup : (socks l).Nodup
  eq : open' = (socks l).toFinset

section Sockets
variable {g : TcpLog} {c : TcpConn} {l l' : List TcpConn} {H : Finset ℤ}

lemma socks_cons (c : TcpConn) (l : List TcpConn) : socks (c :: l) = if 0 ≤ c.fd then c.fd :: socks l else socks l := by
  unfold socks
  rw [List.map_cons, List.filter_cons]
  simp only [decide_eq_true_eq]

lemma Owns.perm (h : Owns H l) (hp : l.Perm l') : Owns H l' where
  good c hc := h.good c (hp.mem_iff.2 hc)
  nodup := ((hp.map _).filter _).nodup_iff.1 h.nodup
  eq := h.eq.trans (List.toFinset_eq_of_perm _ _ ((hp.map _).filter _))

def TcpLog.beside (g : TcpLog) (H : Finset ℤ) : Finset ℤ :=
  match g.socket with
  | some fd => insert fd H
  | none => H

lemma Good.socket_eq (h : Good g c) (hfd : 0 ≤ c.fd) : g.socket = some c.fd := by
  rw [h.socket, if_neg fun hs => absurd (h.fd.1 hs) (not_lt.2 hfd)]

lemma beside_cons (h : Good g c) (l : List TcpConn) : g.beside (socks l).toFinset = (socks (c :: l)).toFinset := by
  unfold TcpLog.beside
  rw [socks_cons]
  by_cases hfd : 0 ≤ c.fd
  · rw [h.socket_eq hfd, if_pos hfd, List.toFinset_cons]
  · rw [h.socket, if_pos (h.fd.2 (not_le.1 hfd)), if_neg hfd]

lemma meets_beside {α : Type} {p : TcpProg α} {Q : TcpLog → α → Prop} (hp : p.Meets tcpProtocol g Q)
    (hfresh : ∀ fd, g.socket = some fd → fd ∉ H) :
    p.Meets socketLaw (g.beside H) fun H' a =>
      ∃ g', H' = g'.beside H ∧ g'.key = g.key ∧ (g'.socket = none ∨ g'.socket = g.socket) ∧ Q g' a := by
  have hmem {g' : TcpLog} {c : TcpConn} (h : Good g' c) (hfd : 0 ≤ c.fd) : c.fd ∈ g'.beside H := by
    unfold TcpLog.beside
    rw [h.socket_eq hfd]
    exact Finset.mem_insert_self _ _
  have hend : p.Meets tcpProtocol g fun g' a => g'.key = g.key ∧ (g'.socket = none ∨ g'.socket = g.socket) →
      ∃ g'', g'.beside H = g''.beside H ∧ g''.key = g.key ∧ (g''.socket = none ∨ g''.socket = g.socket) ∧ Q g'' a :=
    Meets.mono hp fun g' a hq hJ => ⟨g', rfl, hJ.1, hJ.2, hq⟩
  refine Meets.project (J := fun g' => g'.key = g.key ∧ (g'.socket = none ∨ g'.socket = g.socket))
    (S := fun H' a => ∃ g'', H' = TcpLog.beside g'' H ∧ g''.key = g.key ∧ (g''.socket = none ∨ g''.socket = g.socket) ∧ Q g'' a)
    (fun g' : TcpLog => g'.beside H) hend ⟨rfl, .inr rfl⟩ ?_ ?_
  · intro g' call _ h
    cases call with
    | send c data => exact hmem h.1 (h.1.fd_nonneg (by simp [h.2.1]))
    | read c want => exact hmem h.1 (h.1.fd_nonneg (by simp [h.2]))
    | shutdown c => exact hmem h.1 h.2.1
    | resetOnClose c => exact hmem h.1 h.2
    | soError c => exact hmem h.1 h.2
    | close c => exact hmem h.1 h.2
    | connect | closeSocket => exact h.elim
    | _ => trivial
  · intro g' call r hJ h _
    refine ⟨trivial, ?_⟩
    cases call with
    | close c =>
      refine ⟨⟨hJ.1, .inl rfl⟩, ?_⟩
      have hsocket := h.1.socket_eq h.2
      have hfd : c.fd ∉ H := by
        refine hfresh _ (hJ.2.elim (fun hnone => ?_) fun hsame => hsame ▸ hsocket)
        rw [hsocket] at hnone
        cases hnone
      change H = (g'.beside H).erase c.fd
      unfold TcpLog.beside
      rw [hsocket]
      exact (Finset.erase_insert hfd).symm
    | send => cases r <;> exact ⟨hJ, rfl⟩
    | read => cases r <;> exact ⟨hJ, rfl⟩
    | next => obtain ⟨now, e⟩ := r; cases e <;> exact ⟨hJ, rfl⟩
    | socket | accept | closeSocket => exact h.elim
    | _ => exact ⟨hJ, rfl⟩

/-- The connections of a list after something was done with the first of them. -/
def After (c : TcpConn) (l : List TcpConn) (H : Finset ℤ) : Option TcpConn → Prop
  | none => Owns H l
  | some c' => Owns H (c' :: l) ∧ c'.key = c.key

lemma Owns.tail (h : Owns H (c :: l)) : Owns (socks l).toFinset l := by
  refine ⟨fun c' hc' => h.good c' (List.mem_cons_of_mem _ hc'), ?_, rfl⟩
  have hnodup := h.nodup
  rw [socks_cons] at hnodup
  split at hnodup
  · exact hnodup.of_cons
  · exact hnodup

lemma Owns.notMem (h : Owns H (c :: l)) (hg : Good g c) : ∀ fd, g.socket = some fd → fd ∉ (socks l).toFinset := by
  intro fd hfd
  have hnodup := h.nodup
  by_cases hpos : 0 ≤ c.fd
  · rw [hg.socket_eq hpos] at hfd
    cases hfd
    rw [socks_cons, if_pos hpos] at hnodup
    rw [List.mem_toFinset]
    exact hnodup.notMem
  · rw [hg.socket, if_pos (hg.fd.2 (not_le.1 hpos))] at hfd
    cases hfd

lemma Owns.cons {g' : TcpLog} {c' : TcpConn} (h : Owns (socks l).toFinset l) (hg : Good g' c')
    (hfresh : ∀ fd, g'.socket = some fd → fd ∉ (socks l).toFinset) : Owns (g'.beside (socks l).toFinset) (c' :: l) where
  good c hc := by
    rcases List.mem_cons.1 hc with rfl | hc
    · exact ⟨g', hg⟩
    · exact h.good c hc
  nodup := by
    rw [socks_cons]
    split
    · next hfd => exact List.nodup_cons.2 ⟨fun hmem => hfresh _ (hg.socket_eq hfd) (List.mem_toFinset.2 hmem), h.nodup⟩
    · exact h.nodup
  eq := beside_cons hg l

lemma connStep_owns (h : Owns H (c :: l)) (now : ℕ) (e : ConnEvent) :
    (TcpProg.connStep now c e).Meets socketLaw H (After c l) := by
  obtain ⟨g, hg⟩ := h.good c List.mem_cons_self
  have hsocket : (g.arrive now c e).socket = g.socket := by cases e <;> rfl
  have hkey : (g.arrive now c e).key = g.key := by cases e <;> rfl
  have hbeside : (g.arrive now c e).beside (socks l).toFinset = H := by
    rw [h.eq, ← beside_cons hg l]
    unfold TcpLog.beside
    rw [hsocket]
  rw [← hbeside]
  refine Meets.mono (meets_beside (connStep_meets hg now e) (by rw [hsocket]; exact h.notMem hg)) ?_
  rintro H' r ⟨g', rfl, hkey', hsocket', hr⟩
  cases r with
  | none =>
    have hnone : g'.socket = none := hr
    unfold TcpLog.beside
    rw [hnone]
    exact h.tail
  | some c' =>
    have hg' : Good g' c' := hr
    refine ⟨h.tail.cons hg' fun fd hfd => ?_, ?_⟩
    · refine h.notMem hg fd ?_
      rw [hfd, hsocket] at hsocket'
      exact (hsocket'.resolve_left (by simp)).symm
    · rw [hg'.key, hkey', hkey, hg.key]

lemma connFree_owns (h : Owns H (c :: l)) : (TcpProg.connFree c).Meets socketLaw H fun H' r => r = none ∧ Owns H' l := by
  have hsocks := socks_cons c l
  have hrest := h.tail
  unfold TcpProg.connFree
  split
  · next hfd =>
    rw [if_pos hfd] at hsocks
    have hnodup := h.nodup
    rw [hsocks] at hnodup
    have hH : H = insert c.fd (socks l).toFinset := by rw [h.eq, hsocks, List.toFinset_cons]
    refine (meets_call _ _).2 ⟨?_, fun _ _ => (meets_ret _).2 ⟨rfl, ?_⟩⟩
    · rw [hH]
      exact Finset.mem_insert_self _ _
    · change Owns (H.erase c.fd) l
      rw [hH, Finset.erase_insert fun hmem => hnodup.notMem (List.mem_toFinset.1 hmem)]
      exact hrest
  · next hfd =>
    rw [if_neg hfd] at hsocks
    refine (meets_ret _).2 ⟨rfl, ?_⟩
    rw [h.eq, hsocks]
    exact hrest

lemma start_owns {fd : ℤ} (h : Owns H l) (hfd : 0 ≤ fd) (hfresh : fd ∉ H) (o : Opening) (now : ℕ) (iss : U32) :
    (o.start now iss fd).Meets socketLaw (insert fd H) fun H' c => Owns H' (c :: l) ∧ c.key = (o.conn now iss fd).key := by
  have hH := h.eq
  subst hH
  refine Meets.mono (meets_beside (g := o.log now iss fd) (o.start_meets now iss hfd) (by rintro _ ⟨⟩; exact hfresh)) ?_
  rintro H' c ⟨g', rfl, hkey, hsocket, hg⟩
  refine ⟨h.cons hg fun fd' hfd' => ?_, ?_⟩
  · rw [hfd'] at hsocket
    obtain rfl : fd' = fd := Option.some.inj (hsocket.resolve_left (by simp))
    exact hfresh
  · rw [hg.key, hkey]
    rfl

end Sockets

structure TableInv (H : Finset ℤ) (un : UserNet) : Prop where
  owns : Owns H un.tcp
  keys : (un.tcp.map TcpConn.key).Nodup
  count : un.nTcp = un.tcp.length
  max : un.tcp.length ≤ unTcpMax

section Table
variable {H : Finset ℤ} {un : UserNet}

lemma TableInv.link {c : TcpConn} {H' : Finset ℤ} (h : TableInv H un) (hroom : ¬ (unTcpMax : ℤ) ≤ un.nTcp)
    (howns : Owns H' (c :: un.tcp)) (hkey : c.key ∉ un.tcp.map TcpConn.key) : TableInv H' (un.link c) where
  owns := howns
  keys := List.nodup_cons.2 ⟨hkey, h.keys⟩
  count := by
    change un.nTcp + 1 = _
    rw [h.count]
    exact (Nat.cast_succ _).symm
  max := by
    rw [h.count, not_le, Nat.cast_lt] at hroom
    exact hroom

lemma TableInv.put {i : ℕ} {c : TcpConn} {H' : Finset ℤ} {r : Option TcpConn} (h : TableInv H un) (hi : un.tcp[i]? = some c)
    (hr : After c (un.tcp.eraseIdx i) H' r) : TableInv H' (un.put i r) := by
  obtain ⟨hlt, rfl⟩ := List.getElem?_eq_some_iff.1 hi
  cases r with
  | none =>
    have hlen : (un.tcp.eraseIdx i).length + 1 = un.tcp.length := by
      rw [List.length_eraseIdx_of_lt hlt]
      omega
    refine ⟨hr, h.keys.sublist ((List.eraseIdx_sublist _ _).map _), ?_, ?_⟩
    · change un.nTcp - 1 = ((un.tcp.eraseIdx i).length : ℤ)
      rw [h.count, ← hlen]
      push_cast
      ring
    · change (un.tcp.eraseIdx i).length ≤ _
      have hmax := h.max
      omega
  | some c' =>
    obtain ⟨howns, hkey⟩ := hr
    have hperm := List.set_perm_cons_eraseIdx hlt c'
    refine ⟨howns.perm hperm.symm, ?_, ?_, ?_⟩
    · change ((un.tcp.set i c').map TcpConn.key).Nodup
      rw [(hperm.map TcpConn.key).nodup_iff, List.map_cons, hkey, ← List.map_cons,
        ((List.getElem_cons_eraseIdx_perm hlt).map TcpConn.key).nodup_iff]
      exact h.keys
    · change un.nTcp = ((un.tcp.set i c').length : ℤ)
      rw [List.length_set]
      exact h.count
    · change (un.tcp.set i c').length ≤ _
      rw [List.length_set]
      exact h.max

lemma TableInv.split {i : ℕ} {c : TcpConn} (h : TableInv H un) (hi : un.tcp[i]? = some c) : Owns H (c :: un.tcp.eraseIdx i) := by
  obtain ⟨hlt, rfl⟩ := List.getElem?_eq_some_iff.1 hi
  exact h.owns.perm (List.getElem_cons_eraseIdx_perm hlt).symm

lemma meets_rstRaw {rIp seq ack : U32} {rPort gPort : U16} {withAck : Bool} {Q : Finset ℤ → Unit → Prop} (hQ : Q H ()) :
    (TcpProg.tcpRstRaw none rIp rPort gPort seq ack withAck).Meets socketLaw H Q :=
  (meets_ask _).2 ⟨trivial, fun _ _ => hQ⟩

lemma meets_closeSocket {α : Type} {fd : ℤ} {p : TcpProg α} {Q : Finset ℤ → α → Prop} (hfd : fd ∉ H)
    (hp : p.Meets socketLaw H Q) : (Dialogue.call (.closeSocket fd) fun _ => p : TcpProg α).Meets socketLaw (insert fd H) Q := by
  refine (meets_call _ _).2 ⟨Finset.mem_insert_self _ _, fun _ _ => ?_⟩
  change p.Meets socketLaw ((insert fd H).erase fd) Q
  rwa [Finset.erase_insert hfd]

lemma target_meets {dst : U32} {Q : Finset ℤ → U32 → Prop} (hQ : ∀ ip, Q H ip) :
    (UserNet.target dst).Meets socketLaw H Q := by
  unfold UserNet.target
  split
  · exact (meets_ret _).2 (hQ _)
  split
  · exact (meets_ask _).2 ⟨trivial, fun ip _ => hQ ip⟩
  · exact (meets_ret _).2 (hQ _)

lemma guestOpen_meets {dst : U32} {s : GuestSegment} (h : TableInv H un)
    (hkey : (s.gPort, dst, s.rPort) ∉ un.tcp.map TcpConn.key) (now : ℕ) :
    (UserNet.guestOpen now un dst s).Meets socketLaw H TableInv := by
  unfold UserNet.guestOpen
  dsimp only
  split
  · exact (meets_monad_bind _ _).2 (meets_rstRaw ((meets_pure _).2 h))
  next hroom =>
  refine (meets_monad_bind _ _).2 (target_meets fun ip => ?_)
  refine (meets_call _ _).2 ⟨trivial, fun fd hfd => ?_⟩
  change Meets socketLaw _ (withSocket H fd) _
  unfold withSocket
  split
  · next hneg =>
    rw [if_neg (not_le.2 hneg)]
    exact (meets_monad_bind _ _).2 (meets_rstRaw ((meets_pure _).2 h))
  next hneg =>
  have hpos := not_lt.1 hneg
  rw [if_pos hpos]
  have hopen (connected : Bool) :
      (Dialogue.call .alloc fun (allocated : Bool) =>
        if allocated then do
          let c ← (Opening.guest dst s connected).start now un.tcpIss fd
          return un.link c
        else .call (.closeSocket fd) fun _ => .ret un : TcpProg UserNet).Meets socketLaw (insert fd H) TableInv := by
    refine (meets_call _ _).2 ⟨trivial, fun allocated _ => ?_⟩
    change Meets socketLaw _ (insert fd H) _
    split
    · refine (meets_monad_bind _ _).2 (Meets.mono (start_owns h.owns hpos hfd _ now un.tcpIss) fun H' c hc => (meets_pure _).2 ?_)
      exact h.link hroom hc.1 (hc.2 ▸ hkey)
    · exact meets_closeSocket hfd ((meets_ret _).2 h)
  refine (meets_call _ _).2 ⟨Finset.mem_insert_self _ _, fun rc _ => ?_⟩
  cases rc with
  | failed => exact meets_closeSocket hfd ((meets_monad_bind _ _).2 (meets_rstRaw ((meets_pure _).2 h)))
  | done => exact hopen true
  | inProgress => exact hopen false

lemma key_notMem_of_connFind {gPort rPort : U16} {rIp : U32} (hnone : un.connFind gPort rIp rPort = none) :
    (gPort, rIp, rPort) ∉ un.tcp.map TcpConn.key := by
  intro hmem
  obtain ⟨c, hc, hkey⟩ := List.mem_map.1 hmem
  have := List.findIdx?_eq_none_iff.1 hnone c hc
  rw [hkey, beq_self_eq_true] at this
  cases this

lemma unTcpAccept_meets (h : TableInv H un) (now : ℕ) (listener : ℤ) (guestPort : U16) (rounds : ℕ) :
    (UserNet.unTcpAccept now listener guestPort rounds un).Meets socketLaw H TableInv := by
  induction rounds generalizing H un with
  | zero => exact (meets_ret _).2 h
  | succ rounds ih =>
    refine (meets_call _ _).2 ⟨trivial, fun r hfd => ?_⟩
    obtain ⟨fd, peerIp, port⟩ := r
    change Meets socketLaw _ (withSocket H fd) _
    unfold withSocket
    dsimp only
    generalize (if peerIp >>> 24 = 127 ∨ peerIp = 0 then unIpHost else peerIp) = ip
    split
    · next hneg =>
      rw [if_neg (not_le.2 hneg)]
      exact (meets_ret _).2 h
    next hneg =>
    have hpos := not_lt.1 hneg
    rw [if_pos hpos]
    split
    · exact meets_closeSocket hfd (ih h)
    next hroom =>
    rw [not_or] at hroom
    refine (meets_call _ _).2 ⟨trivial, fun allocated _ => ?_⟩
    change Meets socketLaw _ (insert fd H) _
    split
    · refine (meets_monad_bind _ _).2 (Meets.mono (start_owns h.owns hpos hfd _ now un.tcpIss) fun H' c hc => ih ?_)
      refine h.link hroom.1 hc.1 (hc.2 ▸ key_notMem_of_connFind (Option.not_isSome_iff_eq_none.1 hroom.2))
    · exact meets_closeSocket hfd ((meets_ret _).2 h)

lemma strayInput_meets {dst : U32} {s : GuestSegment} (h : TableInv H un)
    (hkey : (s.gPort, dst, s.rPort) ∉ un.tcp.map TcpConn.key) (now : ℕ) :
    (UserNet.strayInput now un dst s).Meets socketLaw H TableInv := by
  unfold UserNet.strayInput
  split
  · exact (meets_ret _).2 h
  split
  · exact guestOpen_meets h hkey now
  split
  · exact (meets_monad_bind _ _).2 (meets_rstRaw ((meets_pure _).2 h))
  · exact (meets_monad_bind _ _).2 (meets_rstRaw ((meets_pure _).2 h))

lemma key_notMem_eraseIdx {i : ℕ} {c : TcpConn} (h : TableInv H un) (hi : un.tcp[i]? = some c) :
    c.key ∉ (un.tcp.eraseIdx i).map TcpConn.key := by
  obtain ⟨hlt, rfl⟩ := List.getElem?_eq_some_iff.1 hi
  have hnodup := ((List.getElem_cons_eraseIdx_perm hlt).map TcpConn.key).nodup_iff.2 h.keys
  rw [List.map_cons] at hnodup
  exact hnodup.notMem

lemma unTcpInput_meets (h : TableInv H un) (now : ℕ) (src dst : U32) (t : Bytes) :
    (UserNet.unTcpInput now un src dst t).Meets socketLaw H TableInv := by
  unfold UserNet.unTcpInput
  split
  · exact (meets_ret _).2 h
  split
  · exact (meets_ret _).2 h
  next s hs =>
  split
  · next hnone => exact strayInput_meets h (key_notMem_of_connFind hnone) now
  next i hfind =>
  split
  · exact (meets_ret _).2 h
  next c hi =>
  split
  · refine (meets_monad_bind _ _).2 (Meets.mono (connFree_owns (h.split hi)) ?_)
    rintro H' _ ⟨rfl, howns⟩
    refine strayInput_meets (h.put hi (r := none) howns) ?_ now
    obtain ⟨hlt, hfound, -⟩ := List.findIdx?_eq_some_iff_getElem.1 hfind
    obtain ⟨_, hc⟩ := List.getElem?_eq_some_iff.1 hi
    rw [hc, beq_iff_eq] at hfound
    rw [← hfound]
    exact key_notMem_eraseIdx h hi
  · exact (meets_monad_bind _ _).2 (Meets.mono (connStep_owns (h.split hi) now (.segment s)) fun H' r hr =>
      (meets_pure _).2 (h.put hi hr))

lemma forConns_meets {f : TcpConn → TcpProg (Option TcpConn)}
    (hf : ∀ c l H, Owns H (c :: l) → (f c).Meets socketLaw H (After c l)) (rest pre : List TcpConn) (h : Owns H (pre ++ rest)) :
    (UserNet.forConns f rest).Meets socketLaw H fun H' r =>
      Owns H' (pre ++ r.1) ∧ (r.1.map TcpConn.key).Sublist (rest.map TcpConn.key) ∧ (r.1.length : ℤ) + r.2 = rest.length := by
  induction rest generalizing pre H with
  | nil => exact (meets_ret _).2 ⟨h, List.Sublist.refl _, rfl⟩
  | cons c rest ih =>
    refine (meets_monad_bind _ _).2 (Meets.mono (hf c (pre ++ rest) H (h.perm List.perm_middle)) fun H' r hr => ?_)
    cases r with
    | none =>
      refine (meets_monad_bind _ _).2 (Meets.mono (ih pre hr) fun H' left hleft => (meets_pure _).2 ?_)
      refine ⟨hleft.1, hleft.2.1.trans (List.sublist_cons_self _ _), ?_⟩
      have hcount := hleft.2.2
      rw [List.length_cons]
      push_cast
      omega
    | some c' =>
      obtain ⟨howns, hkey⟩ := hr
      have hplace : Owns H' ((pre ++ [c']) ++ rest) := by
        rw [List.append_assoc]
        exact howns.perm List.perm_middle.symm
      refine (meets_monad_bind _ _).2 (Meets.mono (ih (pre ++ [c']) hplace) fun H' left hleft => (meets_pure _).2 ?_)
      refine ⟨?_, ?_, ?_⟩
      · have := hleft.1
        rwa [List.append_assoc] at this
      · rw [List.map_cons, List.map_cons, hkey]
        exact hleft.2.1.cons_cons _
      · have hcount := hleft.2.2
        rw [List.length_cons, List.length_cons]
        push_cast
        omega

lemma eachConn_meets {f : TcpConn → TcpProg (Option TcpConn)}
    (hf : ∀ c l H, Owns H (c :: l) → (f c).Meets socketLaw H (After c l)) (h : TableInv H un) :
    (un.eachConn f).Meets socketLaw H TableInv := by
  refine (meets_monad_bind _ _).2 (Meets.mono (forConns_meets hf un.tcp [] h.owns) fun H' r hr => (meets_pure _).2 ?_)
  obtain ⟨howns, hkeys, hcount⟩ := hr
  refine ⟨howns, h.keys.sublist hkeys, ?_, ?_⟩
  · dsimp only
    rw [h.count]
    omega
  · have hlen := hkeys.length_le
    rw [List.length_map, List.length_map] at hlen
    exact hlen.trans h.max

theorem step_meets (h : TableInv H un) (now : ℕ) (e : NetEvent) : (un.step now e).Meets socketLaw H TableInv := by
  cases e with
  | segment src dst t => exact unTcpInput_meets h now src dst t
  | accept listener guestPort rounds => exact unTcpAccept_meets h now listener guestPort rounds
  | poll i revents =>
    change (UserNet.unTcpEvent now un i revents).Meets _ _ _
    unfold UserNet.unTcpEvent
    split
    · exact (meets_ret _).2 h
    · next c hi =>
      exact (meets_monad_bind _ _).2 (Meets.mono (connStep_owns (h.split hi) now (.poll revents)) fun H' r hr =>
        (meets_pure _).2 (h.put hi hr))
  | tick => exact eachConn_meets (fun c l H hc => connStep_owns hc now .tick) h
  | emitAll => exact eachConn_meets (fun c l H hc => connStep_owns hc now .emit) h
  | reset => exact eachConn_meets (fun c l H hc => connStep_owns hc now .reset) h

theorem run_meets (h : TableInv H un) (events : List (ℕ × NetEvent)) : (un.run events).Meets socketLaw H TableInv := by
  induction events generalizing H un with
  | nil => exact (meets_ret _).2 h
  | cons e events ih => exact (meets_monad_bind _ _).2 (Meets.mono (step_meets h e.1 e.2) fun _ _ hr => ih hr)

end Table

/-- The rings, the numbers in flight, the keys, the count and the sockets of the table. -/
structure TableSound (open' : Finset ℤ) (un : UserNet) : Prop where
  rings : ∀ c ∈ un.tcp, c.h2gLen.toNat ≤ 65536 ∧ c.g2hLen.toNat ≤ 32768 ∧ c.h2gHead.toNat < 65536 ∧ c.g2hHead.toNat < 32768
  flight : ∀ c ∈ un.tcp, c.state = .est → (c.sndNxt - c.sndUna).toNat ≤ c.h2gLen.toNat + if c.finSent then 1 else 0
  keys : (un.tcp.map TcpConn.key).Nodup
  count : un.nTcp = un.tcp.length ∧ un.tcp.length ≤ unTcpMax
  sockets : (socks un.tcp).Nodup ∧ open' = (socks un.tcp).toFinset

/-- Over any sequence of events every call is made on an open socket, and between the events
the open sockets are those that the connections own, each its own. -/
theorem tcp_table_sound (tcpIss : U32) (events : List (ℕ × NetEvent)) :
    (UserNet.run events { tcpIss := tcpIss }).Meets socketLaw ∅ TableSound := by
  have hstart : TableInv ∅ { tcpIss := tcpIss } :=
    ⟨⟨(by rintro c ⟨⟩), List.nodup_nil, rfl⟩, List.nodup_nil, rfl, Nat.zero_le _⟩
  refine Meets.mono (run_meets hstart events) fun H un h => ?_
  refine ⟨fun c hc => ?_, fun c hc hstate => ?_, h.keys, ⟨h.count, h.max⟩, h.owns.nodup, h.owns.eq⟩
  · obtain ⟨g, hg⟩ := h.owns.good c hc
    exact ⟨hg.h2gLen, hg.g2hLen, hg.h2gHead, hg.g2hHead⟩
  · obtain ⟨g, hg⟩ := h.owns.good c hc
    obtain ⟨a, ha⟩ := hg.hostSide (.inl hstate)
    have hle := ha.inFlight_le
    cases hfin : c.finSent with
    | false => rwa [hfin] at hle
    | true => rwa [hfin] at hle

end Arm64Emu
