import Arm64Emu.Decode
import Arm64Emu.P9Queue

/-! Where the virtio devices copy to and from when the guest chooses the descriptors. -/
namespace Arm64Emu

open ClampedCopy

variable {D : Type}

section Copies
variable (P : Platform D) (L : Lens D Virtio9p)

lemma p9Gather_eq (ds : List Desc) (reqlen : U32) (b : Bus D) :
    (p9Gather P L ds reqlen b).1 =
      (spans true p9MsizeMax reqlen (ds.map Desc.len), finish true p9MsizeMax reqlen (ds.map Desc.len)) := by
  induction ds generalizing reqlen b with
  | nil => rfl
  | cons d ds ih =>
    unfold p9Gather
    rw [List.map_cons, spans, finish]
    by_cases hroom : reqlen.toNat < p9MsizeMax
    · have hgo : ¬ (true && decide (p9MsizeMax ≤ reqlen.toNat)) = true := by simpa using hroom
      rw [if_pos hroom, if_neg hgo, if_neg hgo]
      dsimp only
      rw [ih]
      rfl
    · have hstop : (true && decide (p9MsizeMax ≤ reqlen.toNat)) = true := by simpa using hroom
      rw [if_neg hroom, if_pos hstop, if_pos hstop]

lemma p9Scatter_copies (resplen : U32) (ds : List Desc) (off : U32) (b : Bus D) :
    (p9Scatter P L resplen ds off b).1 = spans true resplen.toNat off (ds.map Desc.len) := by
  induction ds generalizing off b with
  | nil => rfl
  | cons d ds ih =>
    have hclamp : (if resplen.toNat < (off + d.len).toNat then resplen - off else d.len) =
        clamp resplen.toNat off d.len := by
      rw [clamp, BitVec.ofNat_toNat, BitVec.setWidth_eq]
    unfold p9Scatter
    rw [List.map_cons, spans]
    by_cases hroom : off.toNat < resplen.toNat
    · have hgo : ¬ (true && decide (resplen.toNat ≤ off.toNat)) = true := by simpa using hroom
      rw [if_pos hroom, if_neg hgo, hclamp]
      exact congrArg (_ :: ·) (ih _ _)
    · have hstop : (true && decide (resplen.toNat ≤ off.toNat)) = true := by simpa using hroom
      rw [if_neg hroom, if_pos hstop]

lemma p9Request_copies (head : U32) (b : Bus D) :
    (p9Request P L head b).copies = spans true p9MsizeMax 0 ((p9Request P L head b).reads.map Desc.len) :=
  congrArg Prod.fst (p9Gather_eq P L _ 0 _)

lemma netPacket_copies (q : Bus D → Virtq) (head : U32) (pkt : ℕ → U8) (b : Bus D) :
    (netPacket P q head pkt b).1.copies =
      spans false netPktSize 0 ((netPacket P q head pkt b).1.descs.map Desc.len) := by
  obtain ⟨ds, hdescs, hcopies⟩ := netGather_copies P q ((q b).num.setWidth 16 : U16).toNat head ⟨pkt, 0, [], []⟩ b
  rw [List.nil_append] at hdescs hcopies
  unfold netPacket
  rw [hdescs, hcopies]

end Copies

/-- The copies that the guest's descriptors ask for stay inside the buffers exactly if none
that a loop comes to makes its 32-bit sum overflow. The room for the reply is never
overestimated. -/
theorem queue_copies_inside (P : Platform D) (L : Lens D Virtio9p) (q : Bus D → Virtq) (head resplen : U32)
    (writes : List Desc) (pkt : ℕ → U8) (b : Bus D) :
    ((∀ s ∈ (p9Request P L head b).copies, s.1 + s.2 ≤ p9MsizeMax) ↔
        NoOverflow true p9MsizeMax ((p9Request P L head b).reads.map Desc.len)) ∧
    ((∀ s ∈ (p9Scatter P L resplen writes 0 b).1, s.1 + s.2 ≤ resplen.toNat) ↔
        NoOverflow true resplen.toNat (writes.map Desc.len)) ∧
    ((∀ s ∈ (netPacket P q head pkt b).1.copies, s.1 + s.2 ≤ netPktSize) ↔
        NoOverflow false netPktSize ((netPacket P q head pkt b).1.descs.map Desc.len)) ∧
    (p9Request P L head b).wcap.toNat ≤ natSum ((p9Request P L head b).writes.map Desc.len) := by
  refine ⟨?_, ?_, ?_, toNat_sum_le _⟩
  · rw [p9Request_copies]
    exact spans_zero_inside_iff (by decide)
  · rw [p9Scatter_copies]
    exact spans_zero_inside_iff resplen.isLt
  · rw [netPacket_copies]
    exact spans_zero_inside_iff (by decide)

/-- A board with RAM and nothing else, whose device state is that of one 9p device. -/
def p9Board : Platform Virtio9p where
  ramSize := 0x400000
  devs := []
  jitCode := fun _ _ => false
  jitInvalidate := fun d _ _ => d
  execFpsimd := fun c _ => undefined c
  rtclock := false
  hostNs := fun d => (0, d)
  timerLines := fun b _ _ _ => b

def p9Lens : Lens Virtio9p Virtio9p := ⟨id, fun _ a => a, fun _ _ => rfl, fun _ => rfl, fun _ _ _ => rfl⟩

/-- A queue of two descriptors at the start of RAM, in guest memory given byte by byte. -/
def p9Bus (v : P9) (mem : List U8) : Bus Virtio9p :=
  .powerOn (fun i => mem.getD i 0) (fun _ => 0xff) ⟨v, fun _ => 0, 0, ⟨2, 1, ramBase, 0x40001000, 0x40002000, 0⟩⟩

/-- The share `/s`, attached by nobody. -/
def freshDevice : P9 := P9.created [slash, 0x73] length_slash_s false

def longChain : List U8 :=
  [0, 0x10, 0, 0x40, 0, 0, 0, 0, 1, 0, 0, 0, 1, 0, 1, 0,
    0, 0x10, 0, 0x40, 0, 0, 0, 0, 0xff, 0xff, 0xff, 0xff, 0, 0, 0, 0]

/-- The second copy goes on for 4 GiB behind the request buffer, and behind the packet. -/
theorem long_piece_overruns :
    (p9Request p9Board p9Lens 0 (p9Bus freshDevice longChain)).copies = [(0, 1), (1, 0xffffffff)] ∧
    (netPacket p9Board (p9q p9Lens) 0 (fun _ => 0) (p9Bus freshDevice longChain)).1.copies = [(0, 1), (1, 0xffffffff)] := by
  rw [p9Request_copies, netPacket_copies]
  exact ⟨by decide +kernel, by decide +kernel⟩

end Arm64Emu
