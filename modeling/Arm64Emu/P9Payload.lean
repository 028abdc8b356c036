import Arm64Emu.P9Sessions
import Arm64Emu.QueueBounds

/-! What a `Twrite` hands to the host. The count is held against the bytes that were
gathered by a sum of 32 bits. -/
namespace Arm64Emu

variable {D : Type}

namespace Twrite

/-- The cursor behind the fields of a `Twrite`: the payload. -/
def payload (c : Cur) : Cur := (cU32 (cU64 (cU32 c).2).2).2

def count (c : Cur) : U32 := (cU32 (cU64 (cU32 c).2).2).1

def off (c : Cur) : U64 := (cU64 (cU32 c).2).1

/-- The message is complete, and it may write to the descriptor `fd`. -/
def Reaches (v : P9) (c : Cur) (fd : ℕ) : Prop :=
  (payload c).err = false ∧ v.ro = false ∧ ∃ f, v.fidFind (cU32 c).1 = some f ∧ f.fd = some fd

lemma payload_reads (c : Cur) : c.Reads 16 (payload c) := ((cU32_reads c).trans (cU64_reads _)).trans (cU32_reads _)

end Twrite

/-- The bytes that `h_write` hands to `pwrite`. -/
def writtenBytes (c : Cur) : Bytes :=
  let p := Twrite.payload c
  bytesAt p.b p.pos (if p.cap < (p.pos + (Twrite.count c).toNat) % 2 ^ 32 then p.cap - p.pos else (Twrite.count c).toNat)

lemma hWrite_meets_iff {v : P9} {c : Cur} {tag : U16} {cap : ℕ} {held : Set Handle}
    {allowed : Set Handle → HostCall → Prop} :
    (hWrite v c tag cap).Meets (kernelProtocol allowed) held (fun _ _ => True) ↔
      ∀ fd, Twrite.Reaches v c fd → allowed held (.pwrite fd (writtenBytes c) (Twrite.off c)) := by
  have hparse : (do
      let fid ← cU32
      let off ← cU64
      let count ← cU32
      return (fid, off, count) : Parse (U32 × U64 × U32)) c =
        (((cU32 c).1, Twrite.off c, Twrite.count c), Twrite.payload c) := rfl
  rw [hWrite, reading, hparse]
  dsimp only
  unfold failIf withFid Twrite.Reaches
  split
  · rename_i herr
    exact ⟨fun _ fd h => absurd herr (by simp [h.1]), fun _ => (Dialogue.meets_ret _).2 trivial⟩
  split
  · rename_i hro
    exact ⟨fun _ fd h => absurd hro (by simp [h.2.1]), fun _ => (Dialogue.meets_ret _).2 trivial⟩
  rename_i herr hro
  split
  · rename_i hnone
    refine ⟨fun _ fd h => ?_, fun _ => (Dialogue.meets_ret _).2 trivial⟩
    obtain ⟨-, -, f, hf, -⟩ := h
    rw [hnone] at hf
    cases hf
  rename_i f hf
  dsimp only
  split
  · rename_i hnone
    refine ⟨fun _ fd h => ?_, fun _ => (Dialogue.meets_ret _).2 trivial⟩
    obtain ⟨-, -, f', hf', hfd⟩ := h
    cases hf.symm.trans hf'
    cases hnone.symm.trans hfd
  rename_i fd hfd
  rw [Dialogue.meets_call]
  constructor
  · rintro ⟨h, -⟩ fd' ⟨-, -, f', hf', hfd'⟩
    cases hf.symm.trans hf'
    cases hfd.symm.trans hfd'
    exact h
  · intro h
    refine ⟨h fd ⟨by simpa using herr, by simpa using hro, f, hf, hfd⟩, fun r _ => ?_⟩
    cases r with
    | error e => exact (Dialogue.meets_ret _).2 trivial
    | ok n => exact (Dialogue.meets_ret _).2 trivial

lemma bytesAt_take {b : ℕ → U8} {p n k : ℕ} : (bytesAt b p n).take k = bytesAt b p (min k n) := by
  rw [bytesAt, bytesAt, ← List.map_take, List.take_range]

lemma writtenBytes_eq_iff {c : Cur} (hpos : c.pos = 7) (hcap : c.cap ≤ p9MsizeMax) (hle : c.pos ≤ c.cap)
    (herr : (Twrite.payload c).err = false) :
    writtenBytes c = (bytesAt c.b 23 (c.cap - 23)).take (Twrite.count c).toNat ↔ 23 + (Twrite.count c).toNat < 2 ^ 32 := by
  have hreads := Twrite.payload_reads c
  have hp : (Twrite.payload c).pos = 23 := by
    have := (hreads.pos_eq herr).2
    omega
  have hend : 23 ≤ c.cap := by
    have := hreads.le hle
    rw [hreads.cap_eq, hp] at this
    exact this
  have hcount := (Twrite.count c).isLt
  unfold p9MsizeMax at hcap
  rw [writtenBytes, hreads.b_eq, hreads.cap_eq, hp, bytesAt_take]
  constructor
  · intro h
    have hlen := congrArg List.length h
    rw [length_bytesAt, length_bytesAt] at hlen
    split at hlen <;> omega
  · intro h
    rw [Nat.mod_eq_of_lt h]
    congr 1
    split <;> omega

namespace P9Request

/-- The device that a request finds, and the event that it is to it. -/
def device (L : Lens D Virtio9p) (r : P9Request D) : P9 := (L.get r.bus.dev).p9

def event (L : Lens D Virtio9p) (r : P9Request D) : P9Event := .message (r.device L).req r.reqlen.toNat r.wcap.toNat

end P9Request

lemma p9Handle_meets_iff {P : Platform D} {L : Lens D Virtio9p} {head : U32} {b : Bus D}
    {π : Protocol HostCall.Reply (Set Handle)} {held : Set Handle} :
    (p9Handle P L head b).Meets π held (fun _ _ => True) ↔
      (p9Event ((p9Request P L head b).device L) ((p9Request P L head b).event L)).Meets π held (fun _ _ => True) := by
  unfold p9Handle P9Request.event p9Event
  dsimp only
  rw [Dialogue.meets_bind, Dialogue.meets_bind]
  exact Dialogue.meets_congr fun _ _ => iff_of_true ((Dialogue.meets_ret _).2 trivial) ((Dialogue.meets_ret _).2 trivial)

lemma p9Request_reqlen_le (P : Platform D) (L : Lens D Virtio9p) (head : U32) (b : Bus D) :
    (p9Request P L head b).reqlen.toNat ≤ p9MsizeMax := by
  have hlen := congrArg Prod.snd (p9Gather_eq P L (p9Request P L head b).reads 0 (p9Chain P L virtqMax 0 head b).2)
  rw [show (p9Request P L head b).reqlen = _ from hlen]
  exact ClampedCopy.finish_le (by decide) (by decide)

lemma P9Event.cur_of_asks {req : ℕ → U8} {reqlen wcap : ℕ} {t : TMsg} {c : Cur}
    (h : (P9Event.message req reqlen wcap).asks = some (t, c)) : c.b = req ∧ c.cap = reqlen ∧ c.pos = 7 ∧ c.pos ≤ c.cap := by
  rw [P9Event.asks] at h
  by_cases herr : (p9Header req reqlen).2.err = true
  · rw [if_pos herr] at h
    cases h
  rw [if_neg herr] at h
  obtain ⟨t', -, htc⟩ := Option.map_eq_some_iff.1 h
  obtain rfl : (p9Header req reqlen).2 = c := congrArg Prod.snd htc
  have hreads : Cur.Reads 7 ⟨req, reqlen, 0, false⟩ (p9Header req reqlen).2 :=
    ((cU32_reads _).trans (cU8_reads _)).trans (cU16_reads _)
  exact ⟨hreads.b_eq, hreads.cap_eq, ((hreads.pos_eq (by simpa using herr)).2).trans (by simp), hreads.le (Nat.zero_le _)⟩

/-- What a `Twrite` hands to `pwrite` is the payload that was gathered, up to the count, and
no more, unless the message gets there with a count that overflows the sum. -/
theorem write_payload_in_order (P : Platform D) (L : Lens D Virtio9p) (head : U32) (b : Bus D) (held : Set Handle) (c : Cur)
    (hasks : ((p9Request P L head b).event L).asks = some (.write, c)) :
    (p9Handle P L head b).Meets
        (kernelProtocol fun _ call => ∀ data, call.written = some data →
          data = (bytesAt ((p9Request P L head b).device L).req 23 ((p9Request P L head b).reqlen.toNat - 23)).take
            (Twrite.count c).toNat)
        held (fun _ _ => True) ↔
      ¬ ∃ fd, Twrite.Reaches ((p9Request P L head b).device L) c fd ∧ 2 ^ 32 ≤ 23 + (Twrite.count c).toNat := by
  obtain ⟨hb, hcap, hpos, hle⟩ := P9Event.cur_of_asks hasks
  have hmax := p9Request_reqlen_le P L head b
  rw [p9Handle_meets_iff]
  refine (p9Event_of_asks hasks).trans ?_
  refine hWrite_meets_iff.trans ?_
  rw [not_exists]
  refine forall_congr' fun fd => ?_
  rw [not_and, not_le]
  refine forall_congr' fun hreach => ?_
  have hwritten := writtenBytes_eq_iff hpos (hcap ▸ hmax) hle hreach.1
  rw [hb, hcap] at hwritten
  rw [← hwritten]
  constructor
  · intro h
    exact h _ rfl
  · rintro h data ⟨⟩
    exact h

def openFileDevice : P9 := freshDevice.insertFid ⟨1, some 5, none, [slash, 0x73, slash, 0x66]⟩

/-- A chain of one descriptor, and the `Twrite` of one byte that it points to. -/
def oneByteTwrite : List U8 :=
  [0x10, 0, 0, 0x40, 0, 0, 0, 0, 24, 0, 0, 0, 0, 0, 0, 0,
    24, 0, 0, 0, 118, 1, 0, 1, 0, 0, 0, 0, 0, 0, 0, 0, 0, 0, 0, 1, 0, 0, 0, 0x61]

theorem write_payload_in_order_one_byte :
    (p9Handle p9Board p9Lens 0 (p9Bus openFileDevice oneByteTwrite)).Meets
      (kernelProtocol fun _ call => ∀ data, call.written = some data → data = [0x61]) ∅ (fun _ _ => True) := by
  let r := p9Request p9Board p9Lens 0 (p9Bus openFileDevice oneByteTwrite)
  let c := (p9Header (r.device p9Lens).req r.reqlen.toNat).2
  have hasks : (r.event p9Lens).asks = some (.write, c) := by with_unfolding_all rfl
  have hcount : (Twrite.count c).toNat = 1 := by decide +kernel
  have hdata : (bytesAt (r.device p9Lens).req 23 (r.reqlen.toNat - 23)).take (Twrite.count c).toNat = [0x61] := by
    decide +kernel
  have h := (write_payload_in_order p9Board p9Lens 0 (p9Bus openFileDevice oneByteTwrite) ∅ c hasks).2 fun ⟨_, _, hge⟩ => by
    omega
  rw [hdata] at h
  exact h

def hugeTwrite : Bytes := [23, 0, 0, 0, 118, 1, 0, 1, 0, 0, 0, 0, 0, 0, 0, 0, 0, 0, 0, 0xff, 0xff, 0xff, 0xff]

/-- A `Twrite` of 23 bytes, so without payload, and with the count 0xffffffff makes the host
write 4 GiB of memory from behind the message. -/
theorem huge_count_hands_out_memory :
    ∃ data : Bytes, ((p9Event openFileDevice (.message (fun i => hugeTwrite.getD i 0) 23 4096)).run
      (fun _ c => (HostCall.refused c, ())) ()).1 = [.pwrite 5 data 0] ∧ data.length = 0xffffffff :=
  ⟨bytesAt (fun i => hugeTwrite.getD i 0) 23 0xffffffff, by with_unfolding_all rfl, length_bytesAt⟩

end Arm64Emu
