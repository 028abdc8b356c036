import Arm64Emu.Receive
import Arm64Emu.RingBuffer
import Arm64Emu.VirtqLaws

/-! The receive ring of the network device is a queue of frames: they come from the
user-mode network and go to the guest, one to a chain. -/
namespace Arm64Emu

open Dialogue DevProg

def Net.waiting (n : Net) : ℕ := (n.rxTail + rxRingSize - n.rxHead) % rxRingSize

lemma waiting_netTakeFrame {n : Net} (h : n.rxHead ≠ n.rxTail) : (netTakeFrame n).waiting + 1 = n.waiting := by
  have hhead := n.head_lt
  have htail := n.tail_lt
  simp only [Net.waiting, netTakeFrame, rxRingSize] at *
  omega

/-- A frame as the guest gets it: `num_buffers` is 1 and the rest of the header 0. -/
def rxPacket (frame : Bytes) : Bytes := [0, 0, 0, 0, 0, 0, 0, 0, 0, 0, 1, 0] ++ frame

/-- Why a walk ends: nothing is left, the chain ends, or the bound is reached. -/
def Exhausts (es : List (U32 × Desc)) (data : Bytes) (bound : ℕ) : Prop :=
  storedBytes (spread (es.map Prod.snd) data) = data ∨ (∃ e, es.getLast? = some e ∧ e.2.hasNext = false) ∨
    es.length = bound

/-- A chain that carries a packet: its writable descriptors are filled in turn, and the walk
along it stops only with the packet, with the chain, or at the size of the queue. -/
structure Handover.Carries (h : Handover) (packet : Bytes) : Prop where
  linked : Linked h.id h.chain
  stores : h.stores = spread (h.chain.map Prod.snd) packet
  len : h.len.toNat = (storedBytes h.stores).length
  complete : Exhausts h.chain packet h.size

/-- The queue of frames as it should be: one that comes is refused while there are 63, and
the guest is handed the first. -/
inductive FrameFifo : List (RxEvent Bytes) → List Bytes → Prop
  | start : FrameFifo [] []
  | came {es : List (RxEvent Bytes)} {q : List Bytes} (h : FrameFifo es q) (frame : Bytes) :
      FrameFifo (es ++ [.came frame]) (if frame.length ≤ maxEthFrame ∧ q.length < 63 then q ++ [frame] else q)
  | handed {es : List (RxEvent Bytes)} {q : List Bytes} {frame : Bytes} (h : FrameFifo es (frame :: q)) (c : Handover)
      (carries : c.Carries (rxPacket frame)) : FrameFifo (es ++ [.handed c]) q

namespace Net

def slot (n : Net) (s : ℕ) : Bytes := bytesAt (n.rxBuf s) 0 (n.rxLen s).toNat

def packets (n : Net) : List Bytes := RingBuffer.contents n.slot rxRingSize n.rxHead n.waiting

lemma length_packets (n : Net) : n.packets.length = n.waiting := RingBuffer.length_contents ..

lemma waiting_lt (n : Net) : n.waiting < 64 := RingBuffer.count_lt n.head_lt n.rxTail

lemma tail_eq (n : Net) : n.rxTail = (n.rxHead + n.waiting) % rxRingSize := (RingBuffer.add_count n.head_lt n.tail_lt).symm

lemma full_iff (n : Net) : (n.rxTail + 1) % rxRingSize = n.rxHead ↔ n.waiting = 63 :=
  (RingBuffer.full_iff n.head_lt n.tail_lt).trans Nat.succ_inj

end Net

lemma netDeliverReturns_iff (n : Net) (frame : Bytes) :
    netDeliverReturns n frame = false ↔ frame.length ≤ maxEthFrame ∧ n.packets.length = 63 := by
  rw [n.length_packets, ← n.full_iff]
  simp [netDeliverReturns]

section Accepted
variable {n : Net} {frame : Bytes} (hlen : frame.length ≤ maxEthFrame) (hroom : n.waiting < 63)
include hlen hroom

lemma netDeliverFrame_head : (netDeliverFrame n frame).rxHead = n.rxHead := by
  unfold netDeliverFrame
  rw [if_neg (Nat.not_lt.2 hlen), if_neg (fun h => (n.full_iff.1 h).not_lt hroom)]

lemma netDeliverFrame_waiting : (netDeliverFrame n frame).waiting = n.waiting + 1 := by
  have hnotFull : (n.rxTail + 1) % rxRingSize ≠ n.rxHead := fun h => (n.full_iff.1 h).not_lt hroom
  unfold netDeliverFrame
  rw [if_neg (Nat.not_lt.2 hlen), if_neg hnotFull]
  exact RingBuffer.count_put n.head_lt n.tail_lt hnotFull

lemma netDeliverFrame_slot : (netDeliverFrame n frame).slot = Function.update n.slot n.rxTail (rxPacket frame) := by
  have hsize : netHdrLen + frame.length = (rxPacket frame).length := by
    simp [rxPacket, netHdrLen]
    omega
  have hfits : (rxPacket frame).length < 2 ^ 32 := by
    rw [← hsize, netHdrLen]
    rw [maxEthFrame] at hlen
    omega
  unfold netDeliverFrame
  rw [if_neg (Nat.not_lt.2 hlen), if_neg (fun h => (n.full_iff.1 h).not_lt hroom)]
  funext s
  by_cases hs : s = n.rxTail
  · subst hs
    simp only [Net.slot, Function.update_self, hsize, BitVec.toNat_ofNat, Nat.mod_eq_of_lt hfits]
    exact bytesAt_copyBytes 0 (rxPacket frame)
  · simp only [Net.slot, Function.update_of_ne hs]

end Accepted

lemma packets_netDeliverFrame (n : Net) (frame : Bytes) : (netDeliverFrame n frame).packets =
    if frame.length ≤ maxEthFrame ∧ n.packets.length < 63 then n.packets ++ [rxPacket frame] else n.packets := by
  rw [n.length_packets]
  split
  · next h =>
    obtain ⟨hlen, hroom⟩ := h
    rw [Net.packets, netDeliverFrame_slot hlen hroom, netDeliverFrame_head hlen hroom, netDeliverFrame_waiting hlen hroom,
      ← RingBuffer.put_singleton n.tail_lt, n.tail_eq]
    exact RingBuffer.contents_put n.head_lt (by simp only [rxRingSize, List.length_singleton]; omega)
  · next h =>
    have hsame : netDeliverFrame n frame = n := by
      have hlt := n.waiting_lt
      unfold netDeliverFrame
      split
      · rfl
      · next hlen => rw [if_pos (n.full_iff.2 (by omega))]
    rw [hsame]

lemma packets_netTakeFrame {n : Net} (h : n.rxHead ≠ n.rxTail) : (netTakeFrame n).packets = n.packets.drop 1 := by
  have hpos := waiting_netTakeFrame h
  have hwaiting : (netTakeFrame n).waiting = n.waiting - 1 := by omega
  rw [Net.packets, hwaiting]
  exact RingBuffer.contents_advance (by omega)

lemma packets_head {n : Net} (h : n.rxHead ≠ n.rxTail) : n.packets.head? = some (n.slot n.rxHead) := by
  have hpos := waiting_netTakeFrame h
  rw [List.head?_eq_getElem?, Net.packets, RingBuffer.getElem?_contents (by omega), Nat.add_zero,
    Nat.mod_eq_of_lt n.head_lt]

def netTell : (c : NetCall) → c.Reply → List Bytes
  | .input _, frames => frames
  | .poll, frames => frames
  | .guestReset, _ => []

abbrev netReceives : Protocol (DevCall.Reply (B := Net) NetCall.Reply) (Receiving Net Bytes) :=
  receiveProtocol NetCall.Reply netTell fun _ => True

def NetQueue (n : Net) (es : List (RxEvent Bytes)) : Prop := ∃ q, FrameFifo es q ∧ n.packets = q.map rxPacket

lemma NetQueue.deliver {n : Net} {es : List (RxEvent Bytes)} (h : NetQueue n es) (frames : List Bytes) :
    NetQueue (frames.foldl netDeliverFrame n) (es ++ frames.map .came) := by
  induction frames generalizing n es with
  | nil => simpa using h
  | cons frame frames ih =>
    obtain ⟨q, hfifo, hpackets⟩ := h
    rw [List.foldl_cons, List.map_cons, List.append_cons]
    refine ih ⟨_, hfifo.came frame, ?_⟩
    rw [packets_netDeliverFrame, hpackets, List.length_map]
    split
    · rw [List.map_append, List.map_singleton]
    · rfl

section Walk
variable {g : Receiving Net Bytes} {slot : ℕ} {flen : U32}

lemma netRxBody_receives {d : Desc} {written : U32} (hle : written ≤ flen) {data : Bytes}
    (hdata : data = (bytesAt (g.dev.back.rxBuf slot) 0 flen.toNat).drop written.toNat) :
    (netRxBody slot flen d written).Meets netReceives g fun g' w =>
      g' = g.more [] (spread [d] data) ∧ w.toNat = written.toNat + (storedBytes (spread [d] data)).length := by
  have hrest : (flen - written).toNat = flen.toNat - written.toNat := BitVec.toNat_sub_of_le hle
  unfold netRxBody
  split
  · next hwrite =>
    refine (meets_monad_bind _ _).2 (recv_getDev ((meets_monad_bind _ _).2 (recv_writeBlk ((meets_ret _).2 ?_))))
    have hchunk : (if d.len < flen - written then d.len else flen - written).toNat =
        min d.len.toNat (flen.toNat - written.toNat) := by
      rw [toNat_lesser, hrest]
    have hspread : spread [d] data =
        [(d.addr, bytesAt (g.dev.back.rxBuf slot) written.toNat (min d.len.toNat (flen.toNat - written.toNat)))] := by
      rw [spread, if_pos hwrite, hdata, bytesAt_drop_take, spread]
    have hlt := flen.isLt
    rw [hspread, BitVec.toNat_add, hchunk]
    refine ⟨rfl, ?_⟩
    rw [storedBytes_cons, storedBytes_nil, List.append_nil, length_bytesAt]
    exact Nat.mod_eq_of_lt (by omega)
  · next hwrite =>
    refine (meets_ret _).2 ?_
    rw [spread, if_neg hwrite, spread]
    exact ⟨g.more_nil.symm, rfl⟩

lemma Exhausts.cons {e : U32 × Desc} {es : List (U32 × Desc)} {data : Bytes} {bound : ℕ}
    (h : Exhausts es (data.drop (storedBytes (spread [e.2] data)).length) bound) : Exhausts (e :: es) data (bound + 1) := by
  obtain h | ⟨e', he', hnext⟩ | h := h
  · left
    rw [List.map_cons, spread_cons, storedBytes_append, h, storedBytes_spread, List.length_take]
    rcases Nat.le_total (room [e.2]) data.length with hle | hle
    · rw [min_eq_left hle, List.take_append_drop]
    · rw [min_eq_right hle, List.drop_length, List.append_nil, List.take_of_length_le hle]
  · exact .inr (.inl ⟨e', by rw [List.getLast?_cons, he']; rfl, hnext⟩)
  · exact .inr (.inr (by rw [List.length_cons, h]))

lemma netRxWalk_receives (n : ℕ) (idx written : U32) (hle : written ≤ flen) (data : Bytes)
    (hdata : data = (bytesAt (g.dev.back.rxBuf slot) 0 flen.toNat).drop written.toNat) :
    (DevProg.walk netQueueRx (fun w => w < flen) (return false) (netRxBody slot flen) n idx written).Meets netReceives g
      fun g' w => ∃ es, g' = g.more es (spread (es.map Prod.snd) data) ∧ Linked idx es ∧ Exhausts es data n ∧
        w.toNat = written.toNat + (storedBytes (spread (es.map Prod.snd) data)).length := by
  induction n generalizing g idx written data with
  | zero => exact (meets_ret _).2 ⟨[], by simp [spread], trivial, .inr (.inr rfl), rfl⟩
  | succ n ih =>
    unfold DevProg.walk
    split
    · refine (meets_monad_bind _ _).2 (recv_desc fun d => ?_)
      refine (meets_monad_bind _ _).2 ((netRxBody_receives hle (by exact hdata)).mono ?_)
      rintro g' w ⟨rfl, hw⟩
      have hlen : (storedBytes (spread [d] data)).length ≤ data.length := by
        rw [storedBytes_spread, List.length_take]
        exact min_le_right _ _
      split
      · next hnext =>
        refine (meets_monad_bind _ _).2 ((meets_ret _).2 ?_)
        rw [if_neg (by simp)]
        have hwle : w ≤ flen := by
          rw [hdata, List.length_drop, length_bytesAt, ← hdata] at hlen
          rw [BitVec.le_def] at hle ⊢
          omega
        refine (ih _ w hwle (data.drop (storedBytes (spread [d] data)).length) ?_).mono ?_
        · rw [hw, Receiving.more_dev, Receiving.more_dev, ← List.drop_drop, ← hdata]
        · rintro g'' w' ⟨es, rfl, hlinked, hends, hw'⟩
          have hspread : spread (((idx, d) :: es).map Prod.snd) data = spread [d] data ++
              spread (es.map Prod.snd) (data.drop (storedBytes (spread [d] data)).length) := spread_cons d _ data
          refine ⟨(idx, d) :: es, ?_, ⟨rfl, .inr hnext, hlinked⟩, Exhausts.cons (e := (idx, d)) hends, ?_⟩
          · rw [hspread, Receiving.more_more, Receiving.more_more]
            rfl
          · rw [hspread, storedBytes_append, List.length_append]
            omega
      · next hnext =>
        refine (meets_ret _).2 ⟨[(idx, d)], by simp, ⟨rfl, .inl rfl, trivial⟩, .inr (.inl ⟨_, rfl, by simpa using hnext⟩), hw⟩
    · next hdone =>
      have hempty : data = [] := by
        have hend : flen.toNat ≤ written.toNat := by simpa [BitVec.lt_def] using hdone
        rw [hdata]
        exact List.drop_eq_nil_of_le (by rw [length_bytesAt]; exact hend)
      exact (meets_ret _).2 ⟨[], by simp [spread], trivial, .inl (by rw [hempty]; rfl), by simp [spread]⟩

end Walk

section Device
variable (rounds : ℕ)

lemma netRxRound_receives (g : Receiving Net Bytes) (hg : Rests NetQueue g) (hpending : netPending g.dev = true) :
    netRxRound.Meets netReceives g fun g _ => Rests NetQueue g := by
  obtain ⟨dev, events, chain, stores⟩ := g
  obtain ⟨rfl, rfl, q, hfifo, hpackets⟩ := hg
  have hne : dev.back.rxHead ≠ dev.back.rxTail := of_decide_eq_true hpending
  obtain ⟨frame, q, rfl⟩ : ∃ frame q', q = frame :: q' := by
    cases q with
    | nil => exact absurd (packets_head hne) (by rw [hpackets]; simp)
    | cons frame q => exact ⟨frame, q, rfl⟩
  have hslot : dev.back.slot dev.back.rxHead = rxPacket frame := by
    have := packets_head hne
    rw [hpackets] at this
    simpa using this.symm
  refine (meets_monad_bind _ _).2 (recv_getDev ((meets_monad_bind _ _).2 (recv_nextHead fun hd => ?_)))
  refine (meets_monad_bind _ _).2 (recv_advance ((meets_monad_bind _ _).2 (recv_getDev ?_)))
  refine (meets_monad_bind _ _).2 (recv_putDev ((meets_monad_bind _ _).2 ?_))
  refine (netRxWalk_receives _ _ 0 (Nat.zero_le _) (rxPacket frame) ?_).mono ?_
  · exact hslot.symm
  · rintro _ w ⟨es, rfl, hlinked, hends, hw⟩
    refine recv_pushUsed ⟨rfl, rfl, q, hfifo.handed _ ⟨hlinked, rfl, ?_, ?_⟩, ?_⟩
    · exact hw.trans (Nat.zero_add _)
    · exact hends
    · exact (packets_netTakeFrame hne).trans (by rw [hpackets]; rfl)

lemma netDeliver_receives {g : Receiving Net Bytes} (hg : Rests NetQueue g) (frames : List Bytes) :
    (netDeliver frames).Meets netReceives (g.told frames) fun g _ => Rests NetQueue g :=
  recv_modifyDev ⟨hg.chain, hg.stores, hg.holds.deliver frames⟩

lemma netTxRound_receives : KeepsRest netTell (fun _ => True) NetQueue netTxRound := by
  have hqueue : netQueueTx ≠ queue0 := by decide
  refine .bind .getDev fun _ => .bind .nextHead fun _ => .bind .advance fun _ =>
    .bind (.walk hqueue (.ret _) (fun _ _ => .bind .readBlk fun _ => .ret _) _ _ _) fun p => .ite (fun g hg => ?_) (.pushUsed hqueue)
  refine (meets_monad_bind _ _).2 (recv_host fun frames => (meets_monad_bind _ _).2 ?_)
  exact (netDeliver_receives hg frames).mono fun g' _ hg' => KeepsRest.pushUsed hqueue g' hg'

lemma netFlushRx_receives : KeepsRest netTell (fun _ => True) NetQueue (netFlushRx rounds) :=
  .flush netRxRound_receives rounds

lemma net_notify_receives (x : U32) : KeepsRest netTell (fun _ => True) NetQueue ((netKind rounds).notify x) :=
  .ite (.process netTxRound_receives (.raise 1) rounds) (.ite (netFlushRx_receives rounds) (.ret ()))

lemma virtioNetPoll_receives : KeepsRest netTell (fun _ => True) NetQueue (virtioNetPoll rounds) := by
  refine fun g hg => (meets_monad_bind _ _).2 (recv_host fun frames => (meets_monad_bind _ _).2 ?_)
  exact (netDeliver_receives hg frames).mono fun g' _ hg' => netFlushRx_receives rounds g' hg'

/-- Whatever the guest does with its queues and registers short of a reset, and whatever
comes from the network: as long as only the device's own program changes its registers, a
frame is refused exactly while 63 wait, and the guest is handed the others in the order in
which they came, each once and behind its header, cut off at the room in its chain only. -/
theorem net_frames_in_order (steps : List DevStep) :
    (runDevice (netKind rounds) (virtioNetPoll rounds) steps).Meets netReceives ⟨.cleared .initial, [], [], []⟩ fun g _ =>
      g.dev.back.rxHead < 64 ∧ g.dev.back.rxTail < 64 ∧ ∃ q, FrameFifo g.events q ∧
        g.dev.back.packets = q.map rxPacket ∧
        ∀ frame, netDeliverReturns g.dev.back frame = false ↔ frame.length ≤ maxEthFrame ∧ q.length = 63 := by
  have hstart : Rests NetQueue (⟨.cleared .initial, [], [], []⟩ : Receiving Net Bytes) := ⟨rfl, rfl, [], .start, rfl⟩
  refine (runDevice_keepsRest (net_notify_receives rounds) (virtioNetPoll_receives rounds) steps _ hstart).mono ?_
  rintro g _ ⟨-, -, q, hfifo, hpackets⟩
  refine ⟨g.dev.back.head_lt, g.dev.back.tail_lt, q, hfifo, hpackets, fun frame => ?_⟩
  rw [netDeliverReturns_iff, hpackets, List.length_map]

end Device

section Nested

def netBoard : Platform (VirtDevices Unit) := .virtio silentHost ⟨true, 0, 0, false, by decide⟩ 64 0x400000 2

/-- Two chains in RAM. The first descriptor of the first chain is a byte long and lies on
the register `QueueNotify` of the device; those of the rest lie in RAM. -/
def loopedChains (i : ℕ) : U8 :=
  if i = 0x1002 then 2 else if i = 0x1006 then 2
  else ([0x50, 0, 0, 0x0a, 0, 0, 0, 0, 1, 0, 0, 0, 3, 0, 1, 0,
    0, 0x30, 0, 0x40, 0, 0, 0, 0, 64, 0, 0, 0, 2, 0, 0, 0,
    0, 0x40, 0, 0x40, 0, 0, 0, 0, 64, 0, 0, 0, 2, 0, 0, 0] : List U8).getD i 0

/-- The board with a queue of four entries and two frames that wait. -/
def netBus : Bus (VirtDevices Unit) :=
  .powerOn loopedChains (fun _ => 0xff)
    { VirtDevices.created (fun _ => ⟨0, 0, false⟩) (fun _ => ⟨freshDevice, fun _ => 0, []⟩) () with
      net := { Virtio.cleared (netDeliverFrame (netDeliverFrame .initial [0xa1]) [0xb2]) with
        q := fun _ => ⟨4, 1, ramBase, 0x40001000, 0x40002000, 0⟩ } }

/-- The guest says that it has buffers. The first byte of the first frame's header notifies
the device once more, and the second frame overtakes the first. -/
theorem net_frames_swapped :
    let b' := physWrite netBoard netBus 0x0a000050 4 0
    let q := b'.dev.net.q queue0
    netBus.dev.net.back.packets = [rxPacket [0xa1], rxPacket [0xb2]] ∧ usedIdx q b' = 2 ∧
      usedElem q 0 b' = (2, 13) ∧ bytesAt b'.ram 0x4000 13 = rxPacket [0xb2] ∧
      usedElem q 1 b' = (0, 13) ∧ bytesAt b'.ram 0x3000 12 = (rxPacket [0xa1]).drop 1 := by
  decide +kernel

end Nested

end Arm64Emu
