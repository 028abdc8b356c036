import Arm64Emu.QueueRounds
import Arm64Emu.VirtioBlk
import Arm64Emu.VirtioConsole
import Arm64Emu.VirtioFs
import Arm64Emu.VirtioNet

/-! What each virtio device does with an entry of its available rings: the descriptors it
visits, the stores it makes, and what it puts into the used ring. -/
namespace Arm64Emu

open Dialogue DevProg

def Desc.Covers (d : Desc) (w : U64 × ℕ) : Prop := ∃ k, w.1 = d.addr + BitVec.ofNat 64 k ∧ k + w.2 ≤ d.len.toNat

def bytesOf (ws : List (U64 × ℕ)) : ℕ := (ws.map Prod.snd).sum

@[simp] lemma bytesOf_nil : bytesOf [] = 0 := rfl

@[simp] lemma bytesOf_cons (w : U64 × ℕ) (ws : List (U64 × ℕ)) : bytesOf (w :: ws) = w.2 + bytesOf ws := by
  simp [bytesOf]

@[simp] lemma bytesOf_append (ws ws' : List (U64 × ℕ)) : bytesOf (ws ++ ws') = bytesOf ws + bytesOf ws' := by
  simp [bytesOf]

namespace Round

def written (r : Round) : ℕ := bytesOf r.writes

/-- The cursor moved past the entry once, and one element with its head was put into the
used ring. -/
def Completed (r : Round) : Prop := r.taken = 1 ∧ ∃ len, r.pushes = [(r.head, len)]

def InWritable (r : Round) (w : U64 × ℕ) : Prop := ∃ d ∈ r.descs, d.isWrite = true ∧ d.Covers w

def Confined (r : Round) : Prop := ∀ w ∈ r.writes, r.InWritable w

/-- The length in the used element is the number of bytes stored. -/
def Reported (r : Round) : Prop := ∀ p ∈ r.pushes, p.2.toNat = r.written

end Round

section Blk
variable {ok : Virtio Blk → Prop}

lemma length_readBuf (data : Bytes) (len : ℕ) : (readBuf data len).length = len := by
  simp [readBuf]
  omega

lemma length_blkId (index : ℕ) : (blkId index).length = 20 := by
  simp only [blkId, List.length_append, List.length_replicate, List.length_take]
  omega

/-- A chunk of a transfer stores the chunk or nothing, and counts what it stored. -/
def ChunkStep (ok : Virtio Blk → Prop) (step : U64 → U32 → Transfer → BlkProg (Option Transfer)) : Prop :=
  ∀ gpa chunk t, Within ok queue0 (step gpa chunk t) fun ds ws o => ds = [] ∧ (ws = [] ∨ ws = [(gpa, chunk.toNat)]) ∧
    match o with
    | none => ws = []
    | some t' => t'.usedLen = t.usedLen + BitVec.ofNat 32 (bytesOf ws)

lemma chunkStep_readChunk : ChunkStep ok readChunk := by
  intro gpa chunk t
  refine Within.host_bind fun data => ?_
  cases data with
  | none => exact Within.ret ⟨rfl, .inl rfl, rfl⟩
  | some data =>
    refine Within.writeBlk_bind (Within.ret ⟨rfl, .inr ?_, ?_⟩)
    · rw [length_readBuf]
    · simp [length_readBuf]

lemma chunkStep_writeChunk : ChunkStep ok writeChunk := by
  intro gpa chunk t
  exact Within.readBlk_bind fun data => Within.host_bind fun n => Within.ret ⟨rfl, .inl rfl, by simp⟩

/-- Stores inside the `rem` bytes at an address, counted by a transfer. -/
structure Chunked (gpa : U64) (rem : ℕ) (t : Transfer) (ws : List (U64 × ℕ)) (t' : Transfer) : Prop where
  inside : ∀ w ∈ ws, ∃ j, w.1 = gpa + BitVec.ofNat 64 j ∧ j + w.2 ≤ rem
  counted : t'.usedLen = t.usedLen + BitVec.ofNat 32 (bytesOf ws)

lemma Chunked.nil {gpa : U64} {rem : ℕ} {t t' : Transfer} (ht : t'.usedLen = t.usedLen) : Chunked gpa rem t [] t' :=
  ⟨fun w hw => absurd hw List.not_mem_nil, by simp [ht]⟩

lemma Chunked.cons {gpa : U64} {rem chunk : U32} {t t₁ t₂ t₃ : Transfer} {ws ws' : List (U64 × ℕ)}
    (hchunk : chunk.toNat ≤ rem.toNat) (hws : ws = [] ∨ ws = [(gpa, chunk.toNat)])
    (hlen : t₁.usedLen = t.usedLen + BitVec.ofNat 32 (bytesOf ws))
    (h : Chunked (gpa + chunk.setWidth 64) (rem - chunk).toNat t₂ ws' t₃) (ht : t₂.usedLen = t₁.usedLen) :
    Chunked gpa rem.toNat t (ws ++ ws') t₃ := by
  constructor
  · intro w hw
    obtain hw | hw := List.mem_append.1 hw
    · obtain rfl | rfl := hws
      · cases hw
      · cases List.mem_singleton.1 hw
        exact ⟨0, by simp, by simpa using hchunk⟩
    · obtain ⟨j, hj, hle⟩ := h.inside w hw
      refine ⟨chunk.toNat + j, ?_, ?_⟩
      · rw [hj, BitVec.ofNat_add, ← BitVec.add_assoc]
        congr 2
        exact BitVec.eq_of_toNat_eq (by simp)
      · rw [BitVec.toNat_sub_of_le hchunk] at hle
        omega
  · rw [h.counted, ht, hlen, bytesOf_append, BitVec.ofNat_add, BitVec.add_assoc]

lemma blkChunks_within {step : U64 → U32 → Transfer → BlkProg (Option Transfer)} (hstep : ChunkStep ok step) (k : ℕ)
    (gpa : U64) (rem : U32) (t : Transfer) :
    Within ok 0 (blkChunks step k gpa rem t) fun ds ws a => ds = [] ∧ Chunked gpa rem.toNat t ws a.2 := by
  induction k generalizing gpa rem t with
  | zero => exact Within.ret ⟨rfl, .nil rfl⟩
  | succ k ih =>
    refine Within.ite (fun _ => Within.ret ⟨rfl, .nil rfl⟩) fun hrem => ?_
    have hchunk : (if rem < blkChunkMax then rem else blkChunkMax).toNat ≤ rem.toNat := by
      split <;> simp_all [BitVec.le_def]
    refine Within.bind (hstep gpa _ t) ?_
    rintro _ ws (_ | t') ⟨rfl, hws, hlen⟩
    · cases hlen
      exact Within.ret ⟨rfl, .nil rfl⟩
    · refine (ih _ _ _).mono ?_
      rintro _ ws' a ⟨rfl, h⟩
      exact ⟨rfl, .cons hchunk hws hlen h rfl⟩

/-- Stores inside the data descriptors, counted by a transfer. -/
structure Placed (data : List Desc) (t : Transfer) (ws : List (U64 × ℕ)) (t' : Transfer) : Prop where
  inside : ∀ w ∈ ws, ∃ d ∈ data, d.Covers w
  counted : t'.usedLen = t.usedLen + BitVec.ofNat 32 (bytesOf ws)

lemma Placed.nil {data : List Desc} {t t' : Transfer} (ht : t'.usedLen = t.usedLen) : Placed data t [] t' :=
  ⟨fun w hw => absurd hw List.not_mem_nil, by simp [ht]⟩

lemma blkData_within {step : U64 → U32 → Transfer → BlkProg (Option Transfer)} (hstep : ChunkStep ok step)
    (data : List Desc) (t : Transfer) :
    Within ok 0 (blkData step data t) fun ds ws t' => ds = [] ∧ Placed data t ws t' := by
  induction data generalizing t with
  | nil => exact Within.ret ⟨rfl, .nil rfl⟩
  | cons d data ih =>
    refine Within.bind (blkChunks_within hstep d.len.toNat d.addr d.len t) ?_
    rintro _ ws ⟨stop, t'⟩ ⟨rfl, h⟩
    refine Within.ite (fun _ => Within.ret ⟨rfl, ?_, ?_⟩) fun _ => (ih t').mono ?_
    · intro w hw
      exact ⟨d, List.mem_cons_self, h.inside w (by simpa using hw)⟩
    · simpa using h.counted
    · rintro _ ws' t'' ⟨rfl, h'⟩
      refine ⟨rfl, ?_, ?_⟩
      · intro w hw
        obtain hw | hw := List.mem_append.1 hw
        · exact ⟨d, List.mem_cons_self, h.inside w hw⟩
        · obtain ⟨d', hd', hw⟩ := h'.inside w hw
          exact ⟨d', List.mem_cons_of_mem d hd', hw⟩
      · rw [h'.counted, h.counted, bytesOf_append, BitVec.ofNat_add, BitVec.add_assoc]

lemma blkTransfer_within {step : U64 → U32 → Transfer → BlkProg (Option Transfer)} (hstep : ChunkStep ok step)
    (sector : U64) (data : List Desc) (t : Transfer) :
    Within ok 0 (blkTransfer step sector data t) fun ds ws t' => ds = [] ∧ Placed data t ws t' :=
  Within.getDev_bind fun _ _ => Within.ite (fun _ => Within.ret ⟨rfl, .nil rfl⟩) fun _ => blkData_within hstep data t

lemma blkServe_within (type : Option BlkType) (sector : U64) (data : List Desc) (t : Transfer) :
    Within ok 0 (blkServe type sector data t) fun ds ws t' => ds = [] ∧ Placed data t ws t' := by
  refine Within.getDev_bind fun v hv => ?_
  match type with
  | some .write =>
    exact Within.ite (fun _ => Within.ret ⟨rfl, .nil rfl⟩) fun _ => blkTransfer_within chunkStep_writeChunk sector data t
  | some .read => exact blkTransfer_within chunkStep_readChunk sector data t
  | some .flush => exact Within.host_bind fun _ => Within.ret ⟨rfl, .nil rfl⟩
  | none => exact Within.ret ⟨rfl, .nil rfl⟩
  | some .getId =>
    cases data with
    | nil => exact Within.ret ⟨rfl, .nil rfl⟩
    | cons d data =>
      have hcap : (if d.len < 20 then d.len else 20).toNat ≤ 20 ∧ (if d.len < 20 then d.len else 20).toNat ≤ d.len.toNat := by
        split
        · exact ⟨BitVec.le_of_lt ‹_›, le_rfl⟩
        · exact ⟨le_rfl, BitVec.not_lt.1 ‹_›⟩
      have hid : ((blkId v.back.index).take (if d.len < 20 then d.len else 20).toNat).length =
          (if d.len < 20 then d.len else 20).toNat := by
        rw [List.length_take, length_blkId]
        exact Nat.min_eq_left hcap.1
      refine Within.writeBlk_bind (Within.ret ⟨rfl, ?_, ?_⟩)
      · intro w hw
        cases List.mem_singleton.1 hw
        exact ⟨d, List.mem_cons_self, 0, by simp, by simpa only [hid, Nat.zero_add] using hcap.2⟩
      · simp only [hid, bytesOf_cons, bytesOf_nil, Nat.add_zero, BitVec.ofNat_toNat, BitVec.setWidth_eq]

/-- A round of the block device. A chain of fewer than two descriptors is passed over
without a word; otherwise the data comes first, into data descriptors, and the status byte
last, and the element counts both. -/
structure BlkLaw (N : Fin 2 → ℕ) (r : Round) : Prop where
  taken : r.taken = 1
  bounded : r.descs.length ≤ N r.queue
  short : blkParts r.descs = none → r.writes = [] ∧ r.pushes = []
  served : ∀ hdr data last, blkParts r.descs = some (hdr, data, last) →
    (∃ ws, r.writes = ws ++ [(last.addr, 1)] ∧ ∀ w ∈ ws, ∃ d ∈ data, d.Covers w) ∧
    r.pushes = [(r.head, BitVec.ofNat 32 r.written)]

lemma blkRound_serves {N : Fin 2 → ℕ} (hok : ∀ v, ok v → (v.q 0).num.toNat ≤ N 0) :
    ServesRound ok blkRound (BlkLaw N) := by
  intro rs
  simp only [blkRound, blkRequest, meets_monad_bind, rounds_nextHead]
  intro hd
  refine (Within.collect hok blkVirtqMax 0 _ (.start 0 hd) rs rfl).mono ?_
  rintro _ ds ⟨_, _, rfl, rfl, rfl, hlen⟩
  cases hparts : blkParts ds with
  | none =>
    refine (meets_ret _).2 (rounds_advance.2 ⟨rfl, _, rfl, rfl, hlen, fun _ => ⟨rfl, rfl⟩, fun _ _ _ h => ?_⟩)
    exact absurd (hparts.symm.trans h) (by simp)
  | some parts =>
    obtain ⟨hdr, data, last⟩ := parts
    simp only [blkComplete, meets_monad_bind, rounds_read]
    intro type sector
    refine (blkServe_within _ sector data _ _ rs rfl).mono ?_
    rintro _ t ⟨_, ws, rfl, rfl, hws⟩
    refine rounds_write.2 (rounds_pushUsed.2 ⟨rfl, rounds_advance.2 ⟨rfl, _, rfl, rfl, ?_, ?_, ?_⟩⟩)
    · simpa using hlen
    · simp [hparts]
    · intro hdr' data' last' h
      obtain ⟨rfl, rfl, rfl⟩ : hdr = hdr' ∧ data = data' ∧ last = last' := by simpa [hparts] using h
      exact ⟨⟨ws, by simp, hws.inside⟩, by simp [Round.written, hws.counted, BitVec.ofNat_add]⟩

end Blk

section Chains

structure VirtqLaw (N : Fin 2 → ℕ) (r : Round) : Prop where
  completed : r.Completed
  bounded : r.descs.length ≤ N r.queue
  confined : r.Confined
  reported : r.Reported

def Inside (ds : List Desc) (ws : List (U64 × ℕ)) : Prop := ∀ w ∈ ws, ∃ d ∈ ds, d.isWrite = true ∧ d.Covers w

lemma Inside.skip {ds : List Desc} {ws : List (U64 × ℕ)} (h : Inside ds ws) (d : Desc) : Inside (ds ++ [d]) ws := by
  intro w hw
  obtain ⟨d', hd', hcov⟩ := h w hw
  exact ⟨d', List.mem_append_left _ hd', hcov⟩

lemma Inside.store {ds : List Desc} {ws ws' : List (U64 × ℕ)} {d : Desc} (h : Inside ds ws) (hd : d.isWrite = true)
    (hws : ∀ w ∈ ws', d.Covers w) : Inside (ds ++ [d]) (ws ++ ws') := by
  intro w hw
  obtain hw | hw := List.mem_append.1 hw
  · exact h.skip d w hw
  · exact ⟨d, by simp, hd, hws w hw⟩

lemma rounds_finish {B H : Type} {R : H → Type} {ok : Virtio B → Prop} {i : Fin 2} {hd : U16} {ds : List Desc}
    {ws : List (U64 × ℕ)} {len : U32} {rs : List Round} {Law : Round → Prop}
    (h : Law ⟨i, hd.setWidth 32, ds, ws, [(hd.setWidth 32, len)], 1⟩) :
    (DevProg.pushUsed i (hd.setWidth 32) len : DevProg B R _).Meets (roundsProtocol R ok)
      ((Round.start i hd).take.more ds ws :: rs) fun g _ => ∃ r, g = r :: rs ∧ Law r :=
  rounds_pushUsed.2 ⟨rfl, _, rfl, h⟩

lemma queueNum_le {B : Type} (i : Fin 2) (v : Virtio B) : queueNum i v ≤ (v.q i).num.toNat := by
  rw [queueNum, BitVec.toNat_setWidth]
  exact Nat.mod_le _ _

lemma VirtqLaw.silent {N : Fin 2 → ℕ} {i : Fin 2} {hd : U32} {ds : List Desc} (hlen : ds.length ≤ N i) :
    VirtqLaw N ⟨i, hd, ds, [], [(hd, 0)], 1⟩ :=
  ⟨⟨rfl, _, rfl⟩, hlen, fun w hw => absurd hw List.not_mem_nil, by simp [Round.Reported, Round.written]⟩

end Chains

section Net
variable {ok : Virtio Net → Prop} {N : Fin 2 → ℕ}

lemma netRxBody_within (slot : ℕ) (flen : U32) (d : Desc) {ds : List Desc} {ws : List (U64 × ℕ)} {written : U32}
    (hws : Inside ds ws) (hwritten : written.toNat = bytesOf ws) (hle : written ≤ flen) :
    Within ok netQueueRx (netRxBody slot flen d written) fun ds' ws' a => ds' = [] ∧
      Inside (ds ++ [d]) (ws ++ ws') ∧ a.toNat = bytesOf (ws ++ ws') ∧ a ≤ flen := by
  refine Within.ite (fun hd => ?_) fun _ => Within.ret ⟨rfl, by simpa using hws.skip d, by simpa using hwritten, hle⟩
  refine Within.getDev_bind fun v hv => Within.writeBlk_bind (Within.ret ⟨rfl, ?_, ?_, ?_⟩)
  · refine hws.store hd fun w hw => ?_
    cases List.mem_singleton.1 hw
    refine ⟨0, by simp, ?_⟩
    rw [length_bytesAt]
    split <;> bv_omega
  · rw [bytesOf_append, bytesOf_cons, length_bytesAt, ← hwritten]
    split <;> simp <;> bv_omega
  · split <;> bv_omega

lemma netRxRound_serves (hok : ∀ v, ok v → (v.q netQueueRx).num.toNat ≤ N netQueueRx)
    (hput : ∀ v n, ok v → ok { v with back := n }) : ServesRound ok netRxRound (VirtqLaw N) := by
  intro rs
  simp only [netRxRound, meets_monad_bind, rounds_getDev, rounds_nextHead, rounds_advance, rounds_putDev]
  refine fun v₀ hv₀ hd => ⟨rfl, fun v hv => ⟨hput v _ hv, ?_⟩⟩
  generalize v.back.rxHead = slot, v.back.rxLen v.back.rxHead = flen
  refine Meets.mono (Within.walk (J := fun ds ws w => Inside ds ws ∧ w.toNat = bytesOf ws ∧ w ≤ flen)
    (Within.ret ⟨rfl, rfl⟩) (fun d ds ws s h => netRxBody_within slot flen d h.1 h.2.1 h.2.2) _ _
    ⟨fun w hw => absurd hw List.not_mem_nil, rfl, by bv_omega⟩ _ rs rfl) ?_
  rintro _ written ⟨ds, ws, rfl, hlen, hinside, hwritten, -⟩
  refine rounds_finish ⟨⟨rfl, _, rfl⟩, ?_, hinside, ?_⟩
  · exact hlen.trans ((queueNum_le _ _).trans (hok v₀ hv₀))
  · simpa [Round.Reported, Round.written] using hwritten

lemma netTxRound_serves (hok : ∀ v, ok v → (v.q netQueueTx).num.toNat ≤ N netQueueTx)
    (hput : ∀ v n, ok v → ok { v with back := n }) : ServesRound ok netTxRound (VirtqLaw N) := by
  intro rs
  simp only [netTxRound, meets_monad_bind, rounds_getDev, rounds_nextHead, rounds_advance]
  refine fun v₀ hv₀ hd => ⟨rfl, ?_⟩
  refine Meets.mono (Within.walk (J := fun _ ws _ => ws = []) (Within.ret ⟨rfl, rfl⟩) (fun d ds ws p h =>
    Within.readBlk_bind fun _ => Within.ret ⟨rfl, by simpa using h⟩) _ _ rfl _ rs rfl) ?_
  rintro _ p ⟨ds, _, rfl, hlen, rfl⟩
  have hlen := hlen.trans ((queueNum_le _ _).trans (hok v₀ hv₀))
  split
  · simp only [meets_monad_bind]
    refine (meets_ask _).2 ⟨trivial, fun frames _ => ?_⟩
    refine rounds_modifyDev.2 fun v hv => ⟨hput v _ hv, rounds_finish (.silent hlen)⟩
  · exact rounds_finish (.silent hlen)

end Net

section Console
variable {ok : Virtio Console → Prop} {N : Fin 2 → ℕ}

lemma rxFifoRun_le (c : Console) : (BitVec.ofNat 32 (rxFifoRun c)).toNat ≤ rxFifoSize := by
  have htail := c.tail_lt
  have hsize : rxFifoSize = 1024 := rfl
  unfold rxFifoRun
  rw [BitVec.toNat_ofNat]
  split <;> omega

lemma conRxCopy_within (hput : ∀ v n, ok v → ok { v with back := n }) (d : Desc) (k : ℕ) (off written : U32) :
    Within ok conQueueRx (conRxCopy d k off written) fun ds ws a => ds = [] ∧ (∀ w ∈ ws, d.Covers w) ∧
      a = written + BitVec.ofNat 32 (bytesOf ws) ∧ bytesOf ws ≤ k * rxFifoSize := by
  induction k generalizing off written with
  | zero => exact Within.ret ⟨rfl, by simp, by simp, by simp⟩
  | succ k ih =>
    refine Within.getDev_bind fun v hv => Within.ite (fun h => ?_) fun _ => Within.ret ⟨rfl, by simp, by simp, by simp⟩
    have hrun := rxFifoRun_le v.back
    generalize BitVec.ofNat 32 (rxFifoRun v.back) = run at hrun
    obtain ⟨c, hc⟩ : ∃ c, c = if run < d.len - off then run else d.len - off := ⟨_, rfl⟩
    have hle : c ≤ run ∧ off.toNat + c.toNat ≤ d.len.toNat := by
      rw [hc]
      obtain ⟨hoff, -⟩ := h
      split <;> bv_omega
    dsimp only
    rw [← hc]
    refine Within.writeBlk_bind (Within.modifyDev_bind (fun v hv => hput v _ hv) ((ih (off + c) (written + c)).mono ?_))
    rintro _ ws a ⟨rfl, hws, ha, hbytes⟩
    rw [length_bytesAt]
    refine ⟨rfl, List.forall_mem_cons.2 ⟨⟨off.toNat, ?_, hle.2⟩, hws⟩, ?_, ?_⟩
    · exact congrArg (d.addr + ·) (BitVec.eq_of_toNat_eq (by simp))
    · rw [ha, bytesOf_cons, BitVec.ofNat_add, BitVec.add_assoc, BitVec.ofNat_toNat, BitVec.setWidth_eq]
    · have hc : c.toNat ≤ rxFifoSize := le_trans hle.1 hrun
      rw [bytesOf_cons]
      linarith [Nat.succ_mul k rxFifoSize]

/-- A receive round of the console; its length is counted in 32 bits. -/
structure ConLaw (N : Fin 2 → ℕ) (r : Round) : Prop where
  taken : r.taken = 1
  pushes : r.pushes = [(r.head, BitVec.ofNat 32 r.written)]
  bounded : r.descs.length ≤ N r.queue
  confined : r.Confined
  written_le : r.written ≤ r.descs.length * (rxFifoSize * rxFifoSize)

lemma ConLaw.silent {i : Fin 2} {hd : U32} {ds : List Desc} (hlen : ds.length ≤ N i) :
    ConLaw N ⟨i, hd, ds, [], [(hd, 0)], 1⟩ :=
  ⟨rfl, rfl, hlen, fun _ hw => absurd hw List.not_mem_nil, Nat.zero_le _⟩

lemma conRxRound_serves (hok : ∀ v, ok v → (v.q conQueueRx).num.toNat ≤ N conQueueRx)
    (hput : ∀ v n, ok v → ok { v with back := n }) : ServesRound ok conRxRound (ConLaw N) := by
  intro rs
  simp only [conRxRound, meets_monad_bind, rounds_getDev, rounds_nextHead, rounds_advance]
  refine fun v₀ hv₀ hd => ⟨rfl, ?_⟩
  refine Meets.mono (Within.walk (J := fun ds ws w => Inside ds ws ∧ w = BitVec.ofNat 32 (bytesOf ws) ∧
      bytesOf ws ≤ ds.length * (rxFifoSize * rxFifoSize)) (Within.getDev_bind fun _ _ => Within.ret ⟨rfl, rfl⟩) ?_ _ _
    ⟨fun w hw => absurd hw List.not_mem_nil, rfl, by simp⟩ _ rs rfl) ?_
  · rintro d ds ws w ⟨hws, rfl, hle⟩
    refine Within.ite (fun hd => ?_) fun _ => Within.ret ⟨rfl, by simpa using hws.skip d, by simp, ?_⟩
    · refine (conRxCopy_within hput d rxFifoSize 0 _).mono ?_
      rintro _ ws' a ⟨rfl, hws', rfl, hle'⟩
      refine ⟨rfl, hws.store hd hws', by rw [bytesOf_append, BitVec.ofNat_add], ?_⟩
      rw [bytesOf_append, List.length_append, List.length_singleton, Nat.succ_mul]
      exact Nat.add_le_add hle hle'
    · rw [List.append_nil, List.length_append, Nat.add_mul]
      exact hle.trans (Nat.le_add_right _ _)
  · rintro _ written ⟨ds, ws, rfl, hlen, hinside, rfl, hle⟩
    exact rounds_finish ⟨rfl, rfl, hlen.trans ((queueNum_le _ _).trans (hok v₀ hv₀)), hinside, hle⟩

lemma conTxCopy_within (d : Desc) (k : ℕ) (off : U32) :
    Within ok conQueueTx (conTxCopy d k off) fun ds ws _ => ds = [] ∧ ws = [] := by
  induction k generalizing off with
  | zero => exact Within.ret ⟨rfl, rfl⟩
  | succ k ih =>
    exact Within.ite (fun _ => Within.readBlk_bind fun _ => Within.host_bind fun _ => ih _) fun _ => Within.ret ⟨rfl, rfl⟩

lemma conTxRound_serves (hok : ∀ v, ok v → (v.q conQueueTx).num.toNat ≤ N conQueueTx) :
    ServesRound ok conTxRound (ConLaw N) := by
  intro rs
  simp only [conTxRound, meets_monad_bind, rounds_getDev, rounds_nextHead, rounds_advance]
  refine fun v₀ hv₀ hd => ⟨rfl, ?_⟩
  refine Meets.mono (Within.walk (J := fun _ ws _ => ws = []) (Within.ret ⟨rfl, rfl⟩) (fun d ds ws _ h =>
    (conTxCopy_within d _ 0).mono ?_) _ _ rfl _ rs rfl) ?_
  · rintro _ _ _ ⟨rfl, rfl⟩
    exact ⟨rfl, by simpa using h⟩
  · rintro _ _ ⟨ds, _, rfl, hlen, rfl⟩
    exact rounds_finish (.silent (hlen.trans ((queueNum_le _ _).trans (hok v₀ hv₀))))

end Console

section Share
open ClampedCopy

variable {ok : Virtio Share → Prop} {N : Fin 2 → ℕ}

/-- The stores of a reply: the writable descriptors take it in turn, each as much as the
clamped copy gives it. -/
def scattered (resplen : U32) (ds : List Desc) (off : U32) : List (U64 × ℕ) :=
  List.zipWith (fun d s => (d.addr, s.2)) ds (spans true resplen.toNat off (ds.map Desc.len))

lemma fsScatter_within (resplen : U32) (ds : List Desc) (off : U32) :
    Within ok 0 (fsScatter resplen ds off) fun ds' ws _ => ds' = [] ∧ ws = scattered resplen ds off := by
  induction ds generalizing off with
  | nil => exact Within.ret ⟨rfl, rfl⟩
  | cons d ds ih =>
    have hclamp : (if resplen.toNat < (off + d.len).toNat then resplen - off else d.len) =
        clamp resplen.toNat off d.len := by
      rw [clamp, BitVec.ofNat_toNat, BitVec.setWidth_eq]
    refine Within.ite (fun hroom => ?_) fun hfull => Within.ret ⟨rfl, ?_⟩
    · dsimp only
      rw [hclamp]
      refine Within.getDev_bind fun v hv => Within.writeBlk_bind ((ih _).mono ?_)
      rintro _ _ _ ⟨rfl, rfl⟩
      refine ⟨rfl, ?_⟩
      rw [length_bytesAt, scattered, scattered, List.map_cons, spans, if_neg (by simpa using hroom), List.zipWith_cons_cons]
    · rw [scattered, List.map_cons, spans, if_pos (by simpa using hfull), List.zipWith_nil_right]

lemma fsGather_within (hput : ∀ v n, ok v → ok { v with back := n }) (ds : List Desc) (reqlen : U32) :
    Within ok 0 (fsGather ds reqlen) fun ds ws _ => ds = [] ∧ ws = [] := by
  induction ds generalizing reqlen with
  | nil => exact Within.ret ⟨rfl, rfl⟩
  | cons d ds ih =>
    exact Within.ite (fun _ => Within.readBlk_bind fun _ => Within.modifyDev_bind (fun v hv => hput v _ hv) (ih _))
      fun _ => Within.ret ⟨rfl, rfl⟩

lemma fsDispatch_within (hput : ∀ v n, ok v → ok { v with back := n }) (reqlen wcap : ℕ) :
    Within ok 0 (fsDispatch reqlen wcap) fun ds ws _ => ds = [] ∧ ws = [] := by
  refine Within.getDev_bind fun v hv => Within.bind (Q := fun ds ws _ => ds = [] ∧ ws = []) (Within.lift fun _ => ⟨rfl, rfl⟩) ?_
  rintro _ _ a ⟨rfl, rfl⟩
  exact Within.modifyDev_bind (fun v hv => hput v _ hv) (Within.ret ⟨rfl, rfl⟩)

/-- A round of the 9p device: the element has the length of the reply, the stores are what
the writable descriptors took of it. -/
structure FsLaw (N : Fin 2 → ℕ) (r : Round) : Prop where
  taken : r.taken = 1
  bounded : r.descs.length ≤ N r.queue
  served : ∃ resplen, r.pushes = [(r.head, resplen)] ∧ r.writes = scattered resplen (r.descs.filter Desc.isWrite) 0

lemma fsRound_serves (hok : ∀ v, ok v → (v.q 0).num.toNat ≤ N 0) (hput : ∀ v n, ok v → ok { v with back := n }) :
    ServesRound ok fsRound (FsLaw N) := by
  intro rs
  simp only [fsRound, fsHandle, meets_monad_bind, rounds_nextHead]
  intro hd
  refine Meets.mono (Within.collect hok virtqMax 0 _ (.start 0 hd) rs rfl) ?_
  rintro _ ds ⟨_, _, rfl, rfl, rfl, hlen⟩
  refine Meets.mono (fsGather_within hput _ 0 _ rs rfl) ?_
  rintro _ reqlen ⟨_, _, rfl, rfl, rfl⟩
  refine Meets.mono (fsDispatch_within hput _ _ _ rs rfl) ?_
  rintro _ resplen ⟨_, _, rfl, rfl, rfl⟩
  refine Meets.mono (fsScatter_within resplen _ 0 _ rs rfl) ?_
  rintro _ _ ⟨_, _, rfl, rfl, rfl⟩
  refine rounds_pushUsed.2 ⟨rfl, rounds_advance.2 ⟨rfl, _, rfl, rfl, ?_, resplen, ?_, ?_⟩⟩
  · simpa using hlen
  · simp
  · simp

end Share

end Arm64Emu
