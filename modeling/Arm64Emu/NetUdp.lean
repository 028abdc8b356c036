import Arm64Emu.NetOptions
import Arm64Emu.Ownership
import Arm64Emu.Packets

/-! UDP in the user-mode network (`usernet_udp.c`): the DHCP server and the table of flows. The
replies of the host during one input are part of the input, and what the network does to the host
and to the guest is a list of actions. -/
namespace Arm64Emu

def unUdpMax : ℕ := 64
def unUdpTtlMs : ℤ := 60000
def unDnsTtlMs : ℤ := 10000
def unNet : U32 := 0x0a000200
def unNetmask : U32 := 0xffffff00

structure UdpFlow where
  inUse : Bool := false
  isDns : Bool := false
  gPort : U16 := 0
  rPort : U16 := 0
  rIp : U32 := 0
  fd : ℤ := 0
  lastMs : ℤ := 0
  deriving DecidableEq

structure HostFwd where
  isUdp : Bool
  guestPort : U16
  fd : ℤ

/-- An action, with the reply of the host where it has one. -/
inductive UdpAct
  | socket (fd : ℤ)
  | connect (fd : ℤ) (ip : U32) (port : U16)
  | close (fd : ℤ)
  | send (fd : ℤ) (payload : Bytes)
  | sendTo (fd : ℤ) (ip : U32) (port : U16) (payload : Bytes)
  | recv (fd : ℤ) (payload : Bytes)
  /-- A call of `un_emit_udp`. -/
  | emit (ethDst : Option Mac) (srcIp : U32) (srcPort : U16) (dstIp : U32) (dstPort : U16) (payload : Bytes)
  deriving DecidableEq

/-- What the host answers while a datagram of the guest is handled. -/
structure UdpHost where
  dnsServer : U32
  socket : ℤ
  connect : Bool

structure UdpNet where
  udp : Fin unUdpMax → UdpFlow := fun _ => {}
  sweepMs : ℤ := 0
  fwd : List HostFwd := []

/-! ### DHCP -/

def slice (b : Bytes) (i n : ℕ) : Bytes := (b.drop i).take n

def macAt (b : Bytes) (i : ℕ) : Mac :=
  ⟨[byteAt b i, byteAt b (i + 1), byteAt b (i + 2), byteAt b (i + 3), byteAt b (i + 4), byteAt b (i + 5)], rfl⟩

def broadcastMac : Mac := ⟨[0xff, 0xff, 0xff, 0xff, 0xff, 0xff], rfl⟩

def dhcpMagic : U32 := 0x63825363
def dhcpDiscover : U8 := 1
def dhcpOffer : U8 := 2
def dhcpRequest : U8 := 3
def dhcpAck : U8 := 5
def dhcpNak : U8 := 6

def dhcpAnswer (p opts : Bytes) : Option (U8 × U32) := do
  let mt ← (dhcpOpt opts 53).join
  if byteAt opts (mt + 1) < 1 then none
  else if byteAt opts (mt + 2) = dhcpDiscover then some (dhcpOffer, unIpGuest)
  else if byteAt opts (mt + 2) = dhcpRequest then
    let requested := match (dhcpOpt opts 50).join with
      | some rip => if byteAt opts (rip + 1) = 4 then unRd32 opts (rip + 2) else unRd32 p 12
      | none => unRd32 p 12
    if requested ≠ 0 ∧ requested ≠ unIpGuest then some (dhcpNak, 0) else some (dhcpAck, unIpGuest)
  else none

def dhcpReply (p : Bytes) (type : U8) (yiaddr : U32) : Bytes :=
  let lease := [51, 4] ++ unWr32 86400 ++ [1, 4] ++ unWr32 unNetmask ++ [3, 4] ++ unWr32 unIpHost ++ [6, 4] ++ unWr32 unIpDns
  let r := [2, 1, 6, 0] ++ slice p 4 4 ++ [0, 0] ++ slice p 10 2 ++ [0, 0, 0, 0] ++ unWr32 yiaddr ++ unWr32 unIpHost ++
    slice p 24 4 ++ slice p 28 16 ++ List.replicate 192 0 ++ unWr32 dhcpMagic ++
    [53, 1, type] ++ [54, 4] ++ unWr32 unIpHost ++ (if type ≠ dhcpNak then lease else []) ++ [255]
  r ++ List.replicate (300 - r.length) 0

def dhcpInput (p : Bytes) : List UdpAct :=
  if p.length < 240 ∨ byteAt p 0 ≠ 1 ∨ byteAt p 1 ≠ 1 ∨ byteAt p 2 ≠ 6 then []
  else if unRd32 p 236 ≠ dhcpMagic then []
  else match dhcpAnswer p (p.drop 240) with
    | none => []
    | some (type, yiaddr) =>
      let ciaddr := unRd32 p 12
      let bcast := unRd16 p 10 &&& 0x8000 ≠ 0 ∨ type = dhcpNak
      let dstIp := if ciaddr ≠ 0 ∧ type = dhcpAck then ciaddr else if bcast then 0xffffffff else yiaddr
      let ethDst := if dstIp = 0xffffffff then broadcastMac else macAt p 28
      [.emit (some ethDst) unIpHost 67 dstIp 68 (dhcpReply p type yiaddr)]

/-! ### The table of flows -/

abbrev FlowKey := U16 × U32 × U16

namespace UdpFlow

def key (f : UdpFlow) : FlowKey := (f.gPort, f.rIp, f.rPort)

/-- `flow_close`, and the action it makes. -/
def closed (f : UdpFlow) : UdpFlow := { f with fd := -1, inUse := false }

def closing (f : UdpFlow) : List UdpAct := if 0 ≤ f.fd then [.close f.fd] else []

def expired (now : ℤ) (f : UdpFlow) : Bool :=
  f.inUse && decide ((if f.isDns then unDnsTtlMs else unUdpTtlMs) < now - f.lastMs)

end UdpFlow

namespace UdpNet

def set (net : UdpNet) (i : Fin unUdpMax) (f : UdpFlow) : UdpNet := { net with udp := Function.update net.udp i f }

def flowLookup (net : UdpNet) (k : FlowKey) : Option (Fin unUdpMax) :=
  (List.finRange unUdpMax).find? fun i => (net.udp i).inUse && (net.udp i).key == k

def oldest (net : UdpNet) : Fin unUdpMax :=
  (List.finRange unUdpMax).foldl (fun f i => if (net.udp i).lastMs < (net.udp f).lastMs then i else f) ⟨0, by decide⟩

def flowSlot (net : UdpNet) : Fin unUdpMax × UdpNet × List UdpAct :=
  match (List.finRange unUdpMax).find? fun i => !(net.udp i).inUse with
  | some i => (i, net, [])
  | none =>
    let i := net.oldest
    (i, net.set i (net.udp i).closed, (net.udp i).closing)

/-- The real target: the virtual DNS server is the host's resolver, the gateway its loopback. -/
def flowTarget (host : UdpHost) (rIp : U32) (isDns : Bool) : U32 :=
  if isDns then host.dnsServer else if rIp = unIpHost then 0x7f000001 else rIp

def flowCreate (host : UdpHost) (now : ℤ) (net : UdpNet) (gPort : U16) (rIp : U32) (rPort : U16) :
    Option (Fin unUdpMax) × UdpNet × List UdpAct :=
  let (i, net, acts) := net.flowSlot
  let isDns := decide (rIp = unIpDns ∧ rPort = 53)
  let tIp := flowTarget host rIp isDns
  if tIp = 0 then (none, net, acts)
  else if host.socket < 0 then (none, net, acts)
  else if host.connect then
    (some i, net.set i { inUse := true, isDns, gPort, rPort, rIp, fd := host.socket, lastMs := now },
      acts ++ [.socket host.socket, .connect host.socket tIp rPort])
  else (none, net, acts ++ [.socket host.socket, .connect host.socket tIp rPort, .close host.socket])

/-- `un_udp_readable`: the datagrams that the socket has, each with whether the guest takes it. -/
def udpReadable (now : ℤ) (i : Fin unUdpMax) : ℕ → List (Bytes × Bool) → UdpNet → UdpNet × List UdpAct
  | 0, _, net => (net, [])
  | _, [], net => (net, [])
  | burst + 1, (data, taken) :: rest, net =>
    let f := net.udp i
    let net := net.set i { f with lastMs := now }
    let acts := [.recv f.fd data, .emit none f.rIp f.rPort unIpGuest f.gPort data]
    if data.length ≤ unMtu - 28 ∧ taken = true then
      let (net, more) := udpReadable now i burst rest net
      (net, acts ++ more)
    else (net, acts)

/-- The flows that `due` names are closed. -/
def closeWhere (net : UdpNet) (due : UdpFlow → Bool) : UdpNet × List UdpAct :=
  ({ net with udp := fun i => if due (net.udp i) then (net.udp i).closed else net.udp i },
    ((List.finRange unUdpMax).filter fun i => due (net.udp i)).flatMap fun i => (net.udp i).closing)

def unUdpTick (now : ℤ) (net : UdpNet) : UdpNet × List UdpAct :=
  if now - net.sweepMs < 1000 then (net, [])
  else ({ net with sweepMs := now }).closeWhere (UdpFlow.expired now)

def unUdpReset (net : UdpNet) : UdpNet × List UdpAct := net.closeWhere UdpFlow.inUse

def unUdpFwdInput (net : UdpNet) (sport : U16) : Option HostFwd := net.fwd.find? fun w => w.isUdp && w.guestPort == sport

def flowSend (now : ℤ) (net : UdpNet) (i : Fin unUdpMax) (payload : Bytes) : UdpNet × List UdpAct :=
  (net.set i { net.udp i with lastMs := now }, [.send (net.udp i).fd payload])

def flowInput (host : UdpHost) (now : ℤ) (net : UdpNet) (sport : U16) (dst : U32) (dport : U16) (payload : Bytes) :
    UdpNet × List UdpAct :=
  match net.flowLookup (sport, dst, dport) with
  | some i => net.flowSend now i payload
  | none =>
    match net.flowCreate host now sport dst dport with
    | (some i, net, acts) =>
      let (net, sent) := net.flowSend now i payload
      (net, acts ++ sent)
    | (none, net, acts) => (net, acts)

def unUdpInput (host : UdpHost) (now : ℤ) (net : UdpNet) (dst : U32) (udp : Bytes) : UdpNet × List UdpAct :=
  let sport := unRd16 udp 0
  let dport := unRd16 udp 2
  let ulen := (unRd16 udp 4).toNat
  let payload := slice udp 8 (ulen - 8)
  if udp.length < 8 then (net, [])
  else if ulen < 8 ∨ udp.length < ulen then (net, [])
  else if dport = 67 then (net, dhcpInput payload)
  else match net.unUdpFwdInput sport with
    | some w => (net, [.sendTo w.fd (if dst = unIpHost then 0x7f000001 else dst) dport payload])
    | none =>
      -- no flows for broadcast and multicast
      if dst = 0xffffffff ∨ dst = unNet ||| ~~~unNetmask ∨ dst >>> 28 = 0xe then (net, [])
      else net.flowInput host now sport dst dport payload

end UdpNet

inductive UdpEvent
  | guest (host : UdpHost) (dst : U32) (udp : Bytes)
  /-- The poll finds the socket of flow `i` readable. -/
  | reply (i : Fin unUdpMax) (data : List (Bytes × Bool))
  | tick
  | reset

namespace UdpNet

def step (now : ℤ) (net : UdpNet) : UdpEvent → UdpNet × List UdpAct
  | .guest host dst udp => net.unUdpInput host now dst udp
  -- the poll set has the flows that are in use
  | .reply i data => if (net.udp i).inUse then udpReadable now i 32 data net else (net, [])
  | .tick => net.unUdpTick now
  | .reset => net.unUdpReset

def run : List (ℤ × UdpEvent) → UdpNet → UdpNet × List UdpAct
  | [], net => (net, [])
  | (now, e) :: events, net =>
    let (net, acts) := net.step now e
    let (net, more) := run events net
    (net, acts ++ more)

end UdpNet

/-! ### Sockets -/

namespace UdpAct

def next (held : Set ℤ) : UdpAct → Set ℤ
  | .socket fd => insert fd held
  | .close fd => held \ {fd}
  | _ => held

def answers (held : Set ℤ) : UdpAct → Prop
  | .socket fd => fd ∉ held
  | _ => True

def duty (held : Set ℤ) : UdpAct → Prop
  | .connect fd _ _ => fd ∈ held
  | .close fd => fd ∈ held
  | .send fd _ => fd ∈ held
  | .recv fd _ => fd ∈ held
  | _ => True

/-- A law on the open sockets and the next action, along a list of actions. -/
def Lawful (law : Set ℤ → UdpAct → Prop) : Set ℤ → List UdpAct → Prop
  | _, [] => True
  | held, a :: acts => law held a ∧ Lawful law (a.next held) acts

variable {law : Set ℤ → UdpAct → Prop} {held : Set ℤ} {acts more : List UdpAct}

lemma lawful_append : Lawful law held (acts ++ more) ↔ Lawful law held acts ∧ Lawful law (acts.foldl next held) more := by
  induction acts generalizing held with
  | nil => simp [Lawful]
  | cons a acts ih => simp only [List.cons_append, Lawful, ih, and_assoc, List.foldl_cons]

lemma lawful_of_forall (h : ∀ a ∈ acts, a.next held = held ∧ law held a) :
    Lawful law held acts ∧ acts.foldl next held = held := by
  induction acts with
  | nil => exact ⟨trivial, rfl⟩
  | cons a acts ih =>
    obtain ⟨ha, hrest⟩ := List.forall_mem_cons.1 h
    rw [Lawful, List.foldl_cons, ha.1]
    exact ⟨⟨ha.2, (ih hrest).1⟩, (ih hrest).2⟩

/-- Each socket is closed as often as it was opened, but for being open at the start or at the end. -/
lemma count_socket (hanswers : Lawful answers held acts) (hduty : Lawful duty held acts) (fd : ℤ) :
    ∃ before after : ℕ, (before = 1 ∧ fd ∈ held ∨ before = 0 ∧ fd ∉ held) ∧
      (after = 1 ∧ fd ∈ acts.foldl next held ∨ after = 0 ∧ fd ∉ acts.foldl next held) ∧
      acts.count (.socket fd) + before = acts.count (.close fd) + after := by
  induction acts generalizing held with
  | nil =>
    by_cases hfd : fd ∈ held
    · exact ⟨1, 1, .inl ⟨rfl, hfd⟩, .inl ⟨rfl, hfd⟩, rfl⟩
    · exact ⟨0, 0, .inr ⟨rfl, hfd⟩, .inr ⟨rfl, hfd⟩, rfl⟩
  | cons a acts ih =>
    obtain ⟨mid, after, hmid, hafter, hcount⟩ := ih hanswers.2 hduty.2
    suffices h : ∃ before : ℕ, (before = 1 ∧ fd ∈ held ∨ before = 0 ∧ fd ∉ held) ∧
        (a :: acts).count (.socket fd) + before + acts.count (.close fd) =
          acts.count (.socket fd) + mid + (a :: acts).count (.close fd) by
      obtain ⟨before, hbefore, hsum⟩ := h
      exact ⟨before, after, hbefore, hafter, by omega⟩
    cases a with
    | socket fd' =>
      by_cases hfd : fd = fd'
      · subst hfd
        exact ⟨0, .inr ⟨rfl, hanswers.1⟩, by simp [next] at hmid; simp; omega⟩
      · exact ⟨mid, by simpa [next, hfd] using hmid, by simp [Ne.symm hfd]⟩
    | close fd' =>
      by_cases hfd : fd = fd'
      · subst hfd
        exact ⟨1, .inl ⟨rfl, hduty.1⟩, by simp [next] at hmid; simp; omega⟩
      · exact ⟨mid, by simpa [next, hfd] using hmid, by simp [Ne.symm hfd]⟩
    | _ => exact ⟨mid, hmid, by simp⟩

end UdpAct

open UdpAct

def UdpFlow.socket (f : UdpFlow) : Option ℤ := if f.inUse then some f.fd else none

namespace UdpNet

/-- Live flows have different keys and sockets, and these are the open sockets. -/
structure Sound (held : Set ℤ) (net : UdpNet) : Prop where
  keys : ∀ i j, (net.udp i).inUse = true → (net.udp j).inUse = true → (net.udp i).key = (net.udp j).key → i = j
  sockets : Owns (fun i => (net.udp i).socket) held
  nonneg : ∀ i, (net.udp i).inUse = true → 0 ≤ (net.udp i).fd

/-- If the host keeps its law then the network keeps its own, and is sound at the end. -/
def Keeps (held : Set ℤ) (r : UdpNet × List UdpAct) : Prop :=
  Lawful answers held r.2 → Lawful duty held r.2 ∧ Sound (r.2.foldl next held) r.1

section Steps
variable {held : Set ℤ} {net : UdpNet} {i : Fin unUdpMax}

lemma socket_set (net : UdpNet) (i : Fin unUdpMax) (f : UdpFlow) :
    (fun j => ((net.set i f).udp j).socket) = Function.update (fun j => (net.udp j).socket) i f.socket := by
  funext j
  exact Function.apply_update (fun _ => UdpFlow.socket) net.udp i f j

lemma Sound.mem (h : Sound held net) (hi : (net.udp i).inUse = true) : (net.udp i).fd ∈ held :=
  (h.sockets.mem_iff _).2 ⟨i, if_pos hi⟩

lemma Sound.keeps (h : Sound held net) {acts : List UdpAct} (hacts : ∀ a ∈ acts, a.next held = held ∧ a.duty held) :
    Keeps held (net, acts) := fun _ => by
  obtain ⟨hduty, hheld⟩ := lawful_of_forall hacts
  refine ⟨hduty, ?_⟩
  rwa [hheld]

lemma Keeps.append {r r' : UdpNet × List UdpAct} (h : Keeps held r) (h' : ∀ held', Sound held' r.1 → Keeps held' r') :
    Keeps held (r'.1, r.2 ++ r'.2) := fun hanswers => by
  obtain ⟨hfirst, hthen⟩ := lawful_append.1 hanswers
  obtain ⟨hduty, hsound⟩ := h hfirst
  obtain ⟨hduty', hsound'⟩ := h' _ hsound hthen
  refine ⟨lawful_append.2 ⟨hduty, hduty'⟩, ?_⟩
  rwa [List.foldl_append]

lemma Sound.set (h : Sound held net) {held' : Set ℤ} {f : UdpFlow}
    (hkey : f.inUse = true → ∀ j ≠ i, (net.udp j).inUse = true → (net.udp j).key ≠ f.key)
    (hsockets : Owns (Function.update (fun j => (net.udp j).socket) i f.socket) held')
    (hfd : f.inUse = true → 0 ≤ f.fd) : Sound held' (net.set i f) := by
  refine ⟨fun j k hj hk hjk => ?_, socket_set net i f ▸ hsockets, fun j hj => ?_⟩
  · by_contra hne
    by_cases hji : j = i
    · subst hji
      simp only [UdpNet.set, Function.update_self, Function.update_of_ne (Ne.symm hne)] at hj hk hjk
      exact hkey hj k (Ne.symm hne) hk hjk.symm
    · by_cases hki : k = i
      · subst hki
        simp only [UdpNet.set, Function.update_self, Function.update_of_ne hne] at hj hk hjk
        exact hkey hk j hne hj hjk
      · simp only [UdpNet.set, Function.update_of_ne hji, Function.update_of_ne hki] at hj hk hjk
        exact hne (h.keys j k hj hk hjk)
  · by_cases hji : j = i
    · subst hji
      simp only [UdpNet.set, Function.update_self] at hj ⊢
      exact hfd hj
    · simp only [UdpNet.set, Function.update_of_ne hji] at hj ⊢
      exact h.nonneg j hj

lemma Sound.touch (h : Sound held net) (hi : (net.udp i).inUse = true) (now : ℤ) :
    Sound held (net.set i { net.udp i with lastMs := now }) := by
  refine h.set (fun _ j hj hlive hkey => hj (h.keys j i hlive hi hkey)) ?_ (h.nonneg i)
  exact (Function.update_eq_self i fun j => (net.udp j).socket).symm ▸ h.sockets

lemma close_keeps (h : Sound held net) (hi : (net.udp i).inUse = true) :
    Keeps held (net.set i (net.udp i).closed, (net.udp i).closing) := fun _ => by
  rw [UdpFlow.closing, if_pos (h.nonneg i hi)]
  exact ⟨⟨h.mem hi, trivial⟩, h.set (by rintro ⟨⟩) (h.sockets.release (if_pos hi)) (by rintro ⟨⟩)⟩

lemma closeEach_keeps {places : List (Fin unUdpMax)} (h : Sound held net) (hnodup : places.Nodup)
    (hlive : ∀ i ∈ places, (net.udp i).inUse = true) :
    Keeps held ({ net with udp := fun j => if j ∈ places then (net.udp j).closed else net.udp j },
      places.flatMap fun i => (net.udp i).closing) := by
  induction places generalizing held net with
  | nil => simpa using h.keeps (List.forall_mem_nil _)
  | cons i places ih =>
    obtain ⟨hi, hrest⟩ := List.nodup_cons.1 hnodup
    have hother {j : Fin unUdpMax} (hj : j ∈ places) : (net.set i (net.udp i).closed).udp j = net.udp j :=
      Function.update_of_ne (fun hji : j = i => hi (hji ▸ hj)) _ _
    have hall := (close_keeps h (hlive i (by simp))).append fun held' h' =>
      ih h' hrest fun j hj => by rw [hother hj]; exact hlive j (by simp [hj])
    have hudp : (fun j => if j ∈ places then ((net.set i (net.udp i).closed).udp j).closed
        else (net.set i (net.udp i).closed).udp j) = fun j => if j ∈ i :: places then (net.udp j).closed else net.udp j := by
      funext j
      by_cases hji : j = i
      · subst hji
        simp [hi, UdpNet.set]
      · simp [hji, UdpNet.set]
    rw [List.flatMap_cons]
    have hacts : (places.flatMap fun j => ((net.set i (net.udp i).closed).udp j).closing) =
        places.flatMap fun j => (net.udp j).closing :=
      List.flatMap_congr fun j hj => by rw [hother hj]
    rw [hudp, hacts] at hall
    exact hall

lemma closeWhere_keeps (h : Sound held net) {due : UdpFlow → Bool} (hdue : ∀ f, due f = true → f.inUse = true) :
    Keeps held (net.closeWhere due) := by
  have hkeeps := closeEach_keeps h ((List.nodup_finRange unUdpMax).filter fun i => due (net.udp i))
    fun i hi => hdue _ (List.mem_filter.1 hi).2
  simpa [closeWhere] using hkeeps

lemma flowSend_keeps (h : Sound held net) (hi : (net.udp i).inUse = true) (now : ℤ) (payload : Bytes) :
    Keeps held (net.flowSend now i payload) :=
  (h.touch hi now).keeps fun a ha => by
    rw [List.mem_singleton.1 ha]
    exact ⟨rfl, h.mem hi⟩

lemma foldl_oldest_le {α : Type} (t : α → ℤ) (l : List α) (a : α) :
    t (l.foldl (fun f i => if t i < t f then i else f) a) ≤ t a ∧
      ∀ x ∈ l, t (l.foldl (fun f i => if t i < t f then i else f) a) ≤ t x := by
  induction l generalizing a with
  | nil => simp
  | cons b l ih =>
    rw [List.foldl_cons]
    obtain ⟨hstart, hrest⟩ := ih (if t b < t a then b else a)
    refine ⟨hstart.trans (by split_ifs <;> omega), List.forall_mem_cons.2 ⟨hstart.trans (by split_ifs <;> omega), hrest⟩⟩

lemma oldest_le (net : UdpNet) (j : Fin unUdpMax) : (net.udp net.oldest).lastMs ≤ (net.udp j).lastMs :=
  (foldl_oldest_le (fun i => (net.udp i).lastMs) _ _).2 j (List.mem_finRange j)

lemma flowSlot_spec (h : Sound held net) {p : Fin unUdpMax} {net' : UdpNet} {acts : List UdpAct}
    (hslot : net.flowSlot = (p, net', acts)) : Keeps held (net', acts) ∧ (net'.udp p).inUse = false ∧
      (∀ j ≠ p, net'.udp j = net.udp j) ∧
      ((net.udp p).inUse = false ∨ (∀ j, (net.udp j).inUse = true) ∧ p = net.oldest) := by
  unfold flowSlot at hslot
  split at hslot
  · next i hi =>
    cases hslot
    have hfree := List.find?_some hi
    exact ⟨h.keeps (by simp), by simpa using hfree, fun _ _ => rfl, .inl (by simpa using hfree)⟩
  · next hnone =>
    have hfull (j : Fin unUdpMax) : (net.udp j).inUse = true := by
      simpa using List.find?_eq_none.1 hnone j (List.mem_finRange j)
    cases hslot
    refine ⟨close_keeps h (hfull _), ?_, fun j hj => Function.update_of_ne hj _ _, .inr ⟨hfull, rfl⟩⟩
    simp [UdpNet.set, UdpFlow.closed]

lemma open_keeps (h : Sound held net) (hi : (net.udp i).inUse = false) {f : UdpFlow} (hf : f.inUse = true) (hfd : 0 ≤ f.fd)
    (hkey : ∀ j, (net.udp j).inUse = true → (net.udp j).key ≠ f.key) (ip : U32) (port : U16) :
    Keeps held (net.set i f, [.socket f.fd, .connect f.fd ip port]) := fun hanswers => by
  refine ⟨⟨trivial, Set.mem_insert _ _, trivial⟩, h.set (fun _ j _ => hkey j) ?_ fun _ => hfd⟩
  have hnone : (net.udp i).socket = none := by simp [UdpFlow.socket, hi]
  rw [UdpFlow.socket, if_pos hf]
  exact h.sockets.acquire hnone hanswers.1

lemma refused_keeps (h : Sound held net) (fd : ℤ) (ip : U32) (port : U16) :
    Keeps held (net, [.socket fd, .connect fd ip port, .close fd]) := fun hanswers => by
  have hheld : insert fd held \ {fd} = held := by
    rw [Set.insert_sdiff_of_mem _ (Set.mem_singleton fd), Set.sdiff_singleton_eq_self hanswers.1]
  refine ⟨⟨trivial, Set.mem_insert _ _, Set.mem_insert _ _, trivial⟩, ?_⟩
  show Sound (insert fd held \ {fd}) net
  rwa [hheld]

lemma flowLookup_none {k : FlowKey} (hk : net.flowLookup k = none) (j : Fin unUdpMax) (hj : (net.udp j).inUse = true) :
    (net.udp j).key ≠ k := by
  simpa [hj] using List.find?_eq_none.1 hk j (List.mem_finRange j)

end Steps

def Kept (f f' : UdpFlow) : Prop := f'.inUse = true ∧ f'.key = f.key ∧ f'.fd = f.fd

/-- A flow that is gone was the oldest of a full table, and `k` is not in the table. -/
def Evicts (k : FlowKey) (net net' : UdpNet) : Prop :=
  ∀ i, (net.udp i).inUse = true → ¬Kept (net.udp i) (net'.udp i) →
    i = net.oldest ∧ ∀ j, (net.udp j).inUse = true ∧ (net.udp j).key ≠ k ∧ (net.udp i).lastMs ≤ (net.udp j).lastMs

section Input
variable {held : Set ℤ} {net : UdpNet}

lemma Evicts.refl (k : FlowKey) (net : UdpNet) : Evicts k net net := fun _ hi hgone => absurd ⟨hi, rfl, rfl⟩ hgone

lemma flowCreate_spec (h : Sound held net) (host : UdpHost) (now : ℤ) {gPort rPort : U16} {rIp : U32}
    (hk : net.flowLookup (gPort, rIp, rPort) = none) {place : Option (Fin unUdpMax)} {net' : UdpNet} {acts : List UdpAct}
    (hcreate : net.flowCreate host now gPort rIp rPort = (place, net', acts)) : Keeps held (net', acts) ∧
      (∀ p ∈ place, (net'.udp p).inUse = true) ∧ Evicts (gPort, rIp, rPort) net net' := by
  rcases hslot : net.flowSlot with ⟨p, net₁, closing⟩
  obtain ⟨hkeeps, hfree, hrest, hwhy⟩ := flowSlot_spec h hslot
  have hevicts {net₂ : UdpNet} (hother : ∀ j ≠ p, net₂.udp j = net₁.udp j) : Evicts (gPort, rIp, rPort) net net₂ := by
    intro i hi hgone
    by_cases hip : i = p
    · subst hip
      rcases hwhy with hunused | ⟨hfull, hold⟩
      · rw [hunused] at hi
        cases hi
      · exact ⟨hold, fun j => ⟨hfull j, flowLookup_none hk j (hfull j), hold ▸ oldest_le net j⟩⟩
    · rw [hother i hip, hrest i hip] at hgone
      exact absurd ⟨hi, rfl, rfl⟩ hgone
  have hnew (j : Fin unUdpMax) (hj : (net₁.udp j).inUse = true) : (net₁.udp j).key ≠ (gPort, rIp, rPort) := by
    have hjp : j ≠ p := by
      rintro rfl
      rw [hfree] at hj
      cases hj
    rw [hrest j hjp] at hj ⊢
    exact flowLookup_none hk j hj
  simp only [flowCreate, hslot] at hcreate
  split at hcreate
  · cases hcreate
    exact ⟨hkeeps, by simp, hevicts fun _ _ => rfl⟩
  split at hcreate
  · cases hcreate
    exact ⟨hkeeps, by simp, hevicts fun _ _ => rfl⟩
  next hfd =>
  split at hcreate
  · cases hcreate
    let f : UdpFlow :=
      { inUse := true, isDns := decide (rIp = unIpDns ∧ rPort = 53), gPort, rPort, rIp, fd := host.socket, lastMs := now }
    refine ⟨hkeeps.append fun held' h' => open_keeps (f := f) h' hfree rfl (not_lt.1 hfd) hnew _ _, ?_,
      hevicts fun j hj => Function.update_of_ne hj _ _⟩
    rintro _ ⟨⟩
    simp [UdpNet.set]
  · cases hcreate
    exact ⟨hkeeps.append fun held' h' => refused_keeps h' _ _ _, by simp, hevicts fun _ _ => rfl⟩

lemma Evicts.touch {k : FlowKey} {net' : UdpNet} (h : Evicts k net net') (i : Fin unUdpMax) (now : ℤ) :
    Evicts k net (net'.set i { net'.udp i with lastMs := now }) := fun j hj hgone => h j hj fun hkept => hgone (by
  by_cases hji : j = i
  · subst hji
    simpa [UdpNet.set, Kept, UdpFlow.key] using hkept
  · simpa [UdpNet.set, hji] using hkept)

lemma flowInput_spec (h : Sound held net) (host : UdpHost) (now : ℤ) (sport dport : U16) (dst : U32) (payload : Bytes) :
    Keeps held (net.flowInput host now sport dst dport payload) ∧
      Evicts (sport, dst, dport) net (net.flowInput host now sport dst dport payload).1 := by
  unfold flowInput
  split
  · next i hi =>
    unfold flowLookup at hi
    have hlive : (net.udp i).inUse = true := (Bool.and_eq_true_iff.1 (List.find?_some hi :)).1
    exact ⟨flowSend_keeps h hlive now payload, (Evicts.refl _ net).touch i now⟩
  · next hnone =>
    split
    · next i net' acts hcreate =>
      obtain ⟨hkeeps, hlive, hevicts⟩ := flowCreate_spec h host now hnone hcreate
      exact ⟨hkeeps.append fun held' h' => flowSend_keeps h' (hlive i rfl) now payload, hevicts.touch i now⟩
    · next net' acts hcreate =>
      obtain ⟨hkeeps, -, hevicts⟩ := flowCreate_spec h host now hnone hcreate
      exact ⟨hkeeps, hevicts⟩

lemma dhcpInput_quiet (held : Set ℤ) (p : Bytes) : ∀ a ∈ dhcpInput p, a.next held = held ∧ a.duty held := by
  unfold dhcpInput
  split_ifs
  · simp
  · simp
  · split
    · simp
    · intro a ha
      rw [List.mem_singleton.1 ha]
      exact ⟨rfl, trivial⟩

lemma unUdpInput_spec (h : Sound held net) (host : UdpHost) (now : ℤ) (dst : U32) (udp : Bytes) :
    Keeps held (net.unUdpInput host now dst udp) ∧
      Evicts (unRd16 udp 0, dst, unRd16 udp 2) net (net.unUdpInput host now dst udp).1 := by
  have hquiet {acts : List UdpAct} (hacts : ∀ a ∈ acts, a.next held = held ∧ a.duty held) :
      Keeps held (net, acts) ∧ Evicts (unRd16 udp 0, dst, unRd16 udp 2) net net := ⟨h.keeps hacts, Evicts.refl _ net⟩
  unfold unUdpInput
  dsimp only
  split
  · exact hquiet (by simp)
  split
  · exact hquiet (by simp)
  split
  · exact hquiet (dhcpInput_quiet held _)
  split
  · exact hquiet (by simp [next, duty])
  split
  · exact hquiet (by simp)
  · exact flowInput_spec h host now _ _ dst _

end Input

/-! ### Replies of the host -/

/-- A datagram from the socket of a flow goes to the guest port of the flow. -/
def delivery (f : UdpFlow) (data : Bytes) : List UdpAct :=
  [.recv f.fd data, .emit none f.rIp f.rPort unIpGuest f.gPort data]

lemma udpReadable_spec (now : ℤ) (i : Fin unUdpMax) (burst : ℕ) (data : List (Bytes × Bool)) (net : UdpNet) :
    (∃ taken, taken <+: data.map Prod.fst ∧ (udpReadable now i burst data net).2 = taken.flatMap (delivery (net.udp i))) ∧
      ∃ t, (udpReadable now i burst data net).1 = net.set i { net.udp i with lastMs := t } := by
  have hnone : net = net.set i { net.udp i with lastMs := (net.udp i).lastMs } := by simp [UdpNet.set]
  induction burst generalizing data net with
  | zero => exact ⟨⟨[], List.nil_prefix, rfl⟩, _, hnone⟩
  | succ burst ih =>
    rcases data with _ | ⟨⟨d, taken⟩, rest⟩
    · exact ⟨⟨[], List.nil_prefix, rfl⟩, _, hnone⟩
    · obtain ⟨⟨ds, hds, hacts⟩, t, hnet⟩ := ih rest (net.set i { net.udp i with lastMs := now }) (by simp [UdpNet.set])
      have hsame : (net.set i { net.udp i with lastMs := now }).udp i = { net.udp i with lastMs := now } :=
        Function.update_self ..
      rw [hsame] at hacts hnet
      rw [udpReadable]
      split_ifs
      · refine ⟨⟨d :: ds, (List.prefix_cons_inj d).2 hds, ?_⟩, t, by simpa [UdpNet.set] using hnet⟩
        dsimp only
        rw [hacts]
        rfl
      · exact ⟨⟨[d], by simp, rfl⟩, now, rfl⟩

lemma delivery_quiet {held : Set ℤ} {f : UdpFlow} (hf : f.fd ∈ held) (ds : List Bytes) :
    ∀ a ∈ ds.flatMap (delivery f), a.next held = held ∧ a.duty held := by
  intro a ha
  obtain ⟨d, -, hd⟩ := List.mem_flatMap.1 ha
  rcases List.mem_pair.1 hd with rfl | rfl
  · exact ⟨rfl, hf⟩
  · exact ⟨rfl, trivial⟩

/-! ### Whole runs -/

def StepSound (now : ℤ) (net : UdpNet) (e : UdpEvent) : Prop :=
  let r := net.step now e
  match e with
  | .guest _ dst udp => Evicts (unRd16 udp 0, dst, unRd16 udp 2) net r.1
  | .reply i data => (∀ j, (net.udp j).inUse = true → Kept (net.udp j) (r.1.udp j)) ∧
      ∃ taken, taken <+: data.map Prod.fst ∧ r.2 = taken.flatMap (delivery (net.udp i)) ∧
        (r.2 ≠ [] → (net.udp i).inUse = true)
  | .tick => ∀ j, (net.udp j).inUse = true → ¬Kept (net.udp j) (r.1.udp j) → (net.udp j).expired now = true
  | .reset => ∀ j, (r.1.udp j).inUse = false

lemma reply_spec {held : Set ℤ} {net : UdpNet} (h : Sound held net) (now : ℤ) (i : Fin unUdpMax) (data : List (Bytes × Bool)) :
    Keeps held (net.step now (.reply i data)) ∧ StepSound now net (.reply i data) := by
  unfold StepSound
  simp only [step]
  split_ifs with hi
  · obtain ⟨⟨taken, htaken, hacts⟩, t, hnet⟩ := udpReadable_spec now i 32 data net
    have hquiet := delivery_quiet (h.mem hi) taken
    rw [← hacts] at hquiet
    have hkeeps := (h.touch hi t).keeps hquiet
    rw [← hnet] at hkeeps
    refine ⟨hkeeps, fun j hj => ?_, taken, htaken, hacts, fun _ => hi⟩
    rw [hnet]
    by_cases hji : j = i
    · subst hji
      simpa [UdpNet.set, Kept, UdpFlow.key] using hj
    · simpa [UdpNet.set, hji, Kept] using hj
  · exact ⟨h.keeps (by simp), fun j hj => ⟨hj, rfl, rfl⟩, [], List.nil_prefix, rfl, fun hne => absurd rfl hne⟩

lemma step_spec {held : Set ℤ} {net : UdpNet} (h : Sound held net) (now : ℤ) (e : UdpEvent) :
    Keeps held (net.step now e) ∧ StepSound now net e := by
  cases e with
  | guest host dst udp => exact unUdpInput_spec h host now dst udp
  | reply i data => exact reply_spec h now i data
  | tick =>
    unfold StepSound
    simp only [step, unUdpTick]
    split_ifs
    · exact ⟨h.keeps (by simp), fun j hj hgone => absurd ⟨hj, rfl, rfl⟩ hgone⟩
    · have hswept : Sound held { net with sweepMs := now } := ⟨h.keys, h.sockets, h.nonneg⟩
      refine ⟨closeWhere_keeps hswept fun f hf => (Bool.and_eq_true_iff.1 hf).1, fun j hj hgone => ?_⟩
      by_contra hdue
      exact hgone (by simpa [closeWhere, hdue, Kept] using hj)
  | reset =>
    refine ⟨closeWhere_keeps h fun f hf => hf, fun j => ?_⟩
    cases hj : (net.udp j).inUse <;> simp [step, unUdpReset, closeWhere, hj, UdpFlow.closed]

lemma run_keeps {held : Set ℤ} {net : UdpNet} (h : Sound held net) (events : List (ℤ × UdpEvent)) :
    Keeps held (run events net) := by
  induction events generalizing held net with
  | nil => exact h.keeps (by simp)
  | cons e events ih => exact (step_spec h e.1 e.2).1.append fun _ h' => ih h'

lemma sound_fresh (fwd : List HostFwd) : Sound ∅ { fwd := fwd } := ⟨nofun, Owns.empty, nofun⟩

/-- Over any events, with a host that gives descriptors that are not open: live flows have keys and
sockets of their own, each socket is closed once unless it is that of a live flow, an eviction takes
the oldest flow of a full table for a new key, and replies go to the flow that they came through. -/
theorem udp_flow_table (fwd : List HostFwd) (events : List (ℤ × UdpEvent))
    (hhost : Lawful answers ∅ (run events { fwd := fwd }).2) :
    let net := (run events { fwd := fwd }).1
    let acts := (run events { fwd := fwd }).2
    Lawful duty ∅ acts ∧ Sound (acts.foldl next ∅) net ∧
      (∀ fd, acts.count (.socket fd) = acts.count (.close fd) + 1 ∧ (∃ i, (net.udp i).socket = some fd) ∨
        acts.count (.socket fd) = acts.count (.close fd) ∧ ¬∃ i, (net.udp i).socket = some fd) ∧
      ∀ now e, StepSound now net e := by
  intro net acts
  obtain ⟨hduty, hsound⟩ := run_keeps (sound_fresh fwd) events hhost
  refine ⟨hduty, hsound, fun fd => ?_, fun now e => (step_spec hsound now e).2⟩
  obtain ⟨before, after, hbefore, hafter, hcount⟩ := count_socket hhost hduty fd
  change acts.count _ + before = acts.count _ + after at hcount
  rw [hsound.sockets.mem_iff] at hafter
  have hnone : before = 0 := by simpa using hbefore
  rcases hafter with ⟨rfl, hlive⟩ | ⟨rfl, hgone⟩
  · exact .inl ⟨by omega, hlive⟩
  · exact .inr ⟨by omega, hgone⟩

def nameQuery : List (ℤ × UdpEvent) :=
  [(0, .guest { dnsServer := 0, socket := 3, connect := true } 0x08080808 [0x04, 0, 0, 53, 0, 9, 0, 0, 1]), (60001, .tick)]

lemma run_nameQuery : (run nameQuery {}).2 = [.socket 3, .connect 3 0x08080808 53, .send 3 [1], .close 3] := by
  decide +kernel

theorem udp_flow_table_expires : [UdpAct.socket 3, .connect 3 0x08080808 53, .send 3 [1], .close 3].foldl next ∅ =
    {fd | ∃ i, ((run nameQuery {}).1.udp i).socket = some fd} := by
  have hhost : Lawful answers ∅ (run nameQuery {}).2 := by
    rw [run_nameQuery]
    exact ⟨Set.notMem_empty 3, trivial, trivial, trivial, trivial⟩
  obtain ⟨-, hsound, -⟩ := udp_flow_table [] nameQuery hhost
  rw [← run_nameQuery]
  exact Set.ext hsound.sockets.mem_iff

end UdpNet

/-! ### Peers of the guest -/

/-- `un_udp_fwd_readable`: the datagrams that the socket has, each with its peer and whether the guest takes it. -/
def unUdpFwdReadable (w : HostFwd) : ℕ → List (U32 × U16 × Bytes × Bool) → List UdpAct
  | 0, _ => []
  | _, [] => []
  | burst + 1, (ip, port, data, taken) :: rest =>
    -- the gateway stands for the host's own addresses
    let ip := if ip >>> 24 = 127 ∨ ip = 0 then unIpHost else ip
    [.recv w.fd data, .emit none ip port unIpGuest w.guestPort data] ++
      if data.length ≤ unMtu - 28 ∧ taken = true then unUdpFwdReadable w burst rest else []

inductive PeerEvent
  | flow (e : UdpEvent)
  /-- The poll finds the socket of the `n`-th rule for UDP readable. -/
  | rule (n : ℕ) (data : List (U32 × U16 × Bytes × Bool))

/-- The flow that a datagram of the guest asks for. -/
def PeerEvent.asks : PeerEvent → Set FlowKey
  | .flow (.guest _ dst udp) => {k | k = (unRd16 udp 0, dst, unRd16 udp 2) ∧ unRd16 udp 2 ≠ 67 ∧
      ¬(dst = 0xffffffff ∨ dst = unNet ||| ~~~unNetmask ∨ dst >>> 28 = 0xe)}
  | _ => ∅

/-- The guest hears the DHCP server, the peers of its flows and those of its forwarded ports. -/
def UdpAct.Allowed (fwd : List HostFwd) (asked : Set FlowKey) : UdpAct → Prop
  | .emit none srcIp srcPort dstIp dstPort _ => dstIp = unIpGuest ∧
      ((dstPort, srcIp, srcPort) ∈ asked ∨ ∃ w ∈ fwd, w.isUdp = true ∧ w.guestPort = dstPort)
  | .emit (some _) srcIp srcPort _ dstPort _ => srcIp = unIpHost ∧ srcPort = 67 ∧ dstPort = 68
  | .connect _ ip port => ip ≠ 0 ∧ ∃ gPort dst, (gPort, dst, port) ∈ asked ∧
      (ip = dst ∨ dst = unIpDns ∧ port = 53 ∨ dst = unIpHost ∧ ip = 0x7f000001)
  | _ => True

namespace UdpNet

def peerStep (now : ℤ) (net : UdpNet) : PeerEvent → UdpNet × List UdpAct
  | .flow e => net.step now e
  | .rule n data => (net, ((net.fwd.filter HostFwd.isUdp)[n]?.map fun w => unUdpFwdReadable w 32 data).getD [])

def peerRun : List (ℤ × PeerEvent) → UdpNet → UdpNet × List UdpAct
  | [], net => (net, [])
  | (now, e) :: events, net =>
    let (net, acts) := net.peerStep now e
    let (net, more) := peerRun events net
    (net, acts ++ more)

/-- The rules are as given, the live flows and the actions as the guest asked for. -/
structure Within (fwd : List HostFwd) (asked : Set FlowKey) (r : UdpNet × List UdpAct) : Prop where
  rules : r.1.fwd = fwd
  flows : ∀ i, (r.1.udp i).inUse = true → (r.1.udp i).key ∈ asked
  acts : ∀ a ∈ r.2, a.Allowed fwd asked

section Peers
variable {fwd : List HostFwd} {asked : Set FlowKey} {net : UdpNet} {acts more : List UdpAct}

lemma Within.append (h : Within fwd asked (net, acts)) (hmore : ∀ a ∈ more, a.Allowed fwd asked) :
    Within fwd asked (net, acts ++ more) := ⟨h.rules, h.flows, List.forall_mem_append.2 ⟨h.acts, hmore⟩⟩

lemma Within.set (h : Within fwd asked (net, acts)) {i : Fin unUdpMax} {f : UdpFlow}
    (hf : f.inUse = true → f.key ∈ asked) (hmore : ∀ a ∈ more, a.Allowed fwd asked) :
    Within fwd asked (net.set i f, acts ++ more) :=
  ⟨h.rules, (Function.forall_update_iff net.udp fun _ f => f.inUse = true → f.key ∈ asked).2 ⟨hf, fun j _ => h.flows j⟩,
    (h.append hmore).acts⟩

lemma closing_allowed (f : UdpFlow) : ∀ a ∈ f.closing, a.Allowed fwd asked := by
  unfold UdpFlow.closing
  split_ifs <;> simp [Allowed]

lemma closeWhere_within (h : Within fwd asked (net, acts)) (due : UdpFlow → Bool) : Within fwd asked (net.closeWhere due) := by
  refine ⟨h.rules, fun i hi => ?_, fun a ha => ?_⟩
  · by_cases hdue : due (net.udp i) = true
    · simp [closeWhere, hdue, UdpFlow.closed] at hi
    · simp only [closeWhere, hdue] at hi ⊢
      exact h.flows i hi
  · obtain ⟨i, -, hi⟩ := List.mem_flatMap.1 ha
    exact closing_allowed _ a hi

lemma flowCreate_within (h : Within fwd asked (net, [])) (host : UdpHost) (now : ℤ) {gPort rPort : U16} {rIp : U32}
    (hk : (gPort, rIp, rPort) ∈ asked) : Within fwd asked (net.flowCreate host now gPort rIp rPort).2 := by
  have hslot : Within fwd asked net.flowSlot.2 := by
    unfold flowSlot
    split
    · exact h
    · exact h.set nofun (closing_allowed _)
  have htarget : flowTarget host rIp (decide (rIp = unIpDns ∧ rPort = 53)) = rIp ∨ rIp = unIpDns ∧ rPort = 53 ∨
      rIp = unIpHost ∧ flowTarget host rIp (decide (rIp = unIpDns ∧ rPort = 53)) = 0x7f000001 := by
    grind [flowTarget]
  unfold flowCreate
  dsimp only
  split_ifs with hip
  · exact hslot
  · exact hslot
  · refine hslot.set (fun _ => hk) ?_
    simp only [List.forall_mem_cons]
    exact ⟨trivial, ⟨hip, gPort, rIp, hk, htarget⟩, List.forall_mem_nil _⟩
  · refine hslot.append ?_
    simp only [List.forall_mem_cons]
    exact ⟨trivial, ⟨hip, gPort, rIp, hk, htarget⟩, trivial, List.forall_mem_nil _⟩

lemma dhcpInput_allowed (p : Bytes) : ∀ a ∈ dhcpInput p, a.Allowed fwd asked := by
  unfold dhcpInput
  split_ifs
  · simp
  · simp
  · split
    · simp
    · intro a ha
      rw [List.mem_singleton.1 ha]
      exact ⟨rfl, rfl, rfl⟩

lemma unUdpInput_within (h : Within fwd asked (net, [])) (now : ℤ) (host : UdpHost) (dst : U32) (udp : Bytes)
    (he : (PeerEvent.flow (.guest host dst udp)).asks ⊆ asked) : Within fwd asked (net.unUdpInput host now dst udp) := by
  unfold unUdpInput
  dsimp only
  split
  · exact h
  split
  · exact h
  split
  · exact h.append (dhcpInput_allowed _)
  next hport =>
  split
  · exact h.append (by simp [Allowed])
  split
  · exact h
  next hgroup =>
  unfold flowInput
  split
  · exact h.set (h.flows _) (by simp [Allowed])
  · have hcreate := flowCreate_within h host now (he ⟨rfl, hport, hgroup⟩)
    split
    · next hmade =>
      rw [hmade] at hcreate
      exact hcreate.set (hcreate.flows _) (by simp [Allowed])
    · next hmade =>
      rw [hmade] at hcreate
      exact hcreate

lemma fwdReadable_allowed {w : HostFwd} (hw : w ∈ fwd) (hudp : w.isUdp = true) (burst : ℕ)
    (data : List (U32 × U16 × Bytes × Bool)) : ∀ a ∈ unUdpFwdReadable w burst data, a.Allowed fwd asked := by
  induction burst generalizing data with
  | zero => simp [unUdpFwdReadable]
  | succ burst ih =>
    rcases data with _ | ⟨⟨ip, port, d, taken⟩, rest⟩
    · simp [unUdpFwdReadable]
    · refine List.forall_mem_append.2 ⟨by simpa [Allowed] using .inr ⟨w, hw, hudp, rfl⟩, ?_⟩
      split_ifs
      · exact ih rest
      · exact List.forall_mem_nil _

lemma peerStep_within (h : Within fwd asked (net, [])) (now : ℤ) (e : PeerEvent) (he : e.asks ⊆ asked) :
    Within fwd asked (net.peerStep now e) := by
  cases e with
  | rule n data =>
    refine h.append ?_
    cases hw : (net.fwd.filter HostFwd.isUdp)[n]? with
    | none => exact List.forall_mem_nil _
    | some w =>
      obtain ⟨hmem, hudp⟩ := List.mem_filter.1 (List.mem_of_getElem? hw)
      exact fwdReadable_allowed (h.rules ▸ hmem) hudp 32 data
  | flow e =>
    cases e with
    | guest host dst udp => exact unUdpInput_within h now host dst udp he
    | reply i data =>
      simp only [peerStep, step]
      split_ifs with hi
      · obtain ⟨⟨taken, -, hacts⟩, t, hnet⟩ := udpReadable_spec now i 32 data net
        rw [← Prod.mk.eta (p := udpReadable now i 32 data net), hacts, hnet]
        refine h.set (h.flows i) fun a ha => ?_
        obtain ⟨d, -, hd⟩ := List.mem_flatMap.1 ha
        rcases List.mem_pair.1 hd with rfl | rfl
        · trivial
        · exact ⟨rfl, .inl (h.flows i hi)⟩
      · exact h
    | tick =>
      simp only [peerStep, step, unUdpTick]
      split_ifs
      · exact h
      · have hswept : Within fwd asked ({ net with sweepMs := now }, []) := ⟨h.rules, h.flows, h.acts⟩
        exact closeWhere_within hswept _
    | reset => exact closeWhere_within h _

lemma peerRun_within (events : List (ℤ × PeerEvent)) (h : Within fwd asked (net, [])) (he : ∀ e ∈ events, e.2.asks ⊆ asked) :
    Within fwd asked (peerRun events net) := by
  induction events generalizing net with
  | nil => exact h
  | cons e events ih =>
    obtain ⟨hfirst, hrest⟩ := List.forall_mem_cons.1 he
    have hstep := peerStep_within h e.1 e.2 hfirst
    have hrun := ih ⟨hstep.rules, hstep.flows, List.forall_mem_nil _⟩ hrest
    exact ⟨hrun.rules, hrun.flows, List.forall_mem_append.2 ⟨hstep.acts, hrun.acts⟩⟩

end Peers

/-- Over any events a datagram for the guest is from the DHCP server, from a peer that the guest wrote to, or for a
forwarded port, and a socket is connected only to where the guest wrote to, and never to a group. -/
theorem guest_peers (fwd : List HostFwd) (events : List (ℤ × PeerEvent)) :
    Within fwd {k | ∃ e ∈ events, k ∈ e.2.asks} (peerRun events { fwd := fwd }) := by
  have hfresh : Within fwd {k | ∃ e ∈ events, k ∈ e.2.asks} ({ fwd := fwd }, []) := ⟨rfl, nofun, List.forall_mem_nil _⟩
  exact peerRun_within events hfresh fun e he _ hk => ⟨e, he, hk⟩

end UdpNet

end Arm64Emu
