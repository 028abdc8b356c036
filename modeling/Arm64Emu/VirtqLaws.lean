import Arm64Emu.P9Sessions
import Arm64Emu.QueueBounds
import Arm64Emu.UsedRing
import Arm64Emu.VirtioBoard
import Arm64Emu.VirtioRounds

/-! Two contracts of the virtio devices with their drivers: every entry taken from an
available ring is completed once, and guest memory is stored to only where the driver
asked for it. -/
namespace Arm64Emu

open Dialogue DevProg ClampedCopy

def QueuesWithin {B : Type} (N : Fin 2 → ℕ) (v : Virtio B) : Prop := ∀ i, (v.q i).num.toNat ≤ N i

/-- The rounds of a run in which the registers keep within these bounds. -/
abbrev ringProtocol {B H : Type} (R : H → Type) (N : Fin 2 → ℕ) : Protocol (DevCall.Reply (B := B) R) (List Round) :=
  roundsProtocol R (QueuesWithin N)

/-- Every entry was completed, in the order taken, after a walk within the queue's size. -/
def Balanced (N : Fin 2 → ℕ) (rs : List Round) : Prop := ∀ r ∈ rs, r.Completed ∧ r.descs.length ≤ N r.queue

section Registers
variable {B H : Type} {R : H → Type} {N : Fin 2 → ℕ} {K : VirtioKind B R} {Law : Round → Prop}

lemma QueuesWithin.setQueue {v : Virtio B} (hv : QueuesWithin N v) {f : Virtq → Virtq}
    (hf : ∀ i q, q.num.toNat ≤ N i → (f q).num.toNat ≤ N i) : QueuesWithin N (v.setQueue K f) := by
  unfold Virtio.setQueue
  split
  · rename_i i hi
    intro j
    by_cases hj : j = i
    · subst hj
      simpa using hf j _ (hv j)
    · simpa [hj] using hv j
  · exact hv

lemma rounds_after {α : Type} {p : DevProg B R α} {q : α → DevProg B R Unit} {ok : Virtio B → Prop}
    (hp : LeavesRounds ok p) (hq : ∀ a, (q a).Meets (roundsProtocol R ok) [] fun rs _ => ∀ r ∈ rs, Law r) :
    (p >>= q).Meets (roundsProtocol R ok) [] fun rs _ => ∀ r ∈ rs, Law r := by
  rw [meets_monad_bind]
  refine (hp []).mono ?_
  rintro g a rfl
  exact hq a

lemma rounds_none {p : DevProg B R Unit} {ok : Virtio B → Prop} (hp : LeavesRounds ok p) :
    p.Meets (roundsProtocol R ok) [] fun rs _ => ∀ r ∈ rs, Law r := by
  refine (hp []).mono ?_
  rintro g _ rfl
  exact fun r hr => absurd hr List.not_mem_nil

lemma virtioWrite_rounds (hN : ∀ i, queueNumMax.toNat ≤ N i) (hreset : LeavesRounds (QueuesWithin N) K.reset)
    (hnotify : ∀ n, (K.notify n).Meets (ringProtocol R N) [] fun rs _ => ∀ r ∈ rs, Law r) (off val : U64) :
    (virtioWrite K off val).Meets (ringProtocol R N) [] fun rs _ => ∀ r ∈ rs, Law r := by
  have hkeep {f : Virtio B → Virtio B} (hf : ∀ v, QueuesWithin N v → QueuesWithin N (f v)) :
      (modifyDev f : DevProg B R _).Meets (ringProtocol R N) [] fun rs _ => ∀ r ∈ rs, Law r :=
    rounds_none (.modifyDev hf)
  have hqueue {f : Virtq → Virtq} (hf : ∀ q, (f q).num = q.num) :
      (modifyDev fun v => v.setQueue K f : DevProg B R _).Meets (ringProtocol R N) [] fun rs _ => ∀ r ∈ rs, Law r :=
    hkeep fun v hv => hv.setQueue fun i q hq => (hf q).symm ▸ hq
  unfold virtioWrite
  dsimp only
  split
  · exact hkeep fun _ hv => hv
  · exact hkeep fun _ hv => hv
  · exact hkeep fun _ hv => hv
  · exact hkeep fun _ hv => hv
  · refine hkeep fun v hv => hv.setQueue fun i q _ => ?_
    have hi := hN i
    dsimp only
    split
    · exact hi
    · exact le_trans (BitVec.not_lt.1 ‹_›) hi
  · exact hqueue fun q => rfl
  · exact hnotify _
  · exact rounds_none (.bind (.modifyDev fun _ hv => hv) fun _ => .getDev_bind fun _ _ => .ite .setLine (.ret ()))
  · split
    · exact rounds_none hreset
    · exact hkeep fun _ hv => hv
  · exact hqueue fun q => rfl
  · exact hqueue fun q => rfl
  · exact hqueue fun q => rfl
  · exact hqueue fun q => rfl
  · exact hqueue fun q => rfl
  · exact hqueue fun q => rfl
  · exact rounds_none (.ret ())

end Registers

section Devices
variable {N : Fin 2 → ℕ} (rounds : ℕ)

lemma queuesWithin_cleared {B : Type} (back : B) : QueuesWithin N (Virtio.cleared back) := fun _ => Nat.zero_le _

lemma blk_notify_rounds (n : U32) :
    ((blkKind rounds).notify n).Meets (ringProtocol BlkCall.Reply N) [] fun rs _ => ∀ r ∈ rs, BlkLaw N r := by
  change (if n = 0 then virtioBlkProcess rounds else return ()).Meets _ _ _
  split
  · exact process_rounds (blkRound_serves fun _ hv => hv 0) (.raise fun _ _ hv => hv) rounds
  · exact rounds_none (.ret ())

lemma fs_notify_rounds (n : U32) :
    ((fsKind rounds).notify n).Meets (ringProtocol HostCall.Reply N) [] fun rs _ => ∀ r ∈ rs, FsLaw N r := by
  change (if n = 0 then fsProcess rounds else return ()).Meets _ _ _
  split
  · exact process_rounds (fsRound_serves (fun _ hv => hv 0) fun _ _ hv => hv) (.raise fun _ _ hv => hv) rounds
  · exact rounds_none (.ret ())

lemma netFlushRx_rounds :
    (netFlushRx rounds).Meets (ringProtocol NetCall.Reply N) [] fun rs _ => ∀ r ∈ rs, VirtqLaw N r :=
  flush_rounds (netRxRound_serves (fun _ hv => hv _) fun _ _ hv => hv) (fun _ _ hv => hv) rounds netPending

lemma net_notify_rounds (n : U32) :
    ((netKind rounds).notify n).Meets (ringProtocol NetCall.Reply N) [] fun rs _ => ∀ r ∈ rs, VirtqLaw N r := by
  change (if n = 1 then netTxProcess rounds else if n = 0 then netFlushRx rounds else return ()).Meets _ _ _
  split
  · exact process_rounds (netTxRound_serves (fun _ hv => hv _) fun _ _ hv => hv) (.raise fun _ _ hv => hv) rounds
  · split
    · exact netFlushRx_rounds rounds
    · exact rounds_none (.ret ())

lemma net_poll_rounds :
    (virtioNetPoll rounds).Meets (ringProtocol NetCall.Reply N) [] fun rs _ => ∀ r ∈ rs, VirtqLaw N r :=
  rounds_after (.host NetCall.poll) fun _ => rounds_after (.modifyDev fun _ hv => hv) fun _ => netFlushRx_rounds rounds

lemma conUpdateWinsize_leaves : LeavesRounds (QueuesWithin N) conUpdateWinsize :=
  .bind (.host ConCall.getWinsize) fun _ => .getDev_bind fun _ hv => .ite (.ret _) (.bind (.putDev hv) fun _ => .ret _)

lemma conSyncSize_leaves : LeavesRounds (QueuesWithin N) conSyncSize :=
  .getDev_bind fun _ hv => .ite (.ret _)
    (.bind (.putDev hv) fun _ => .bind conUpdateWinsize_leaves fun _ => .raise fun _ _ hv => hv)

lemma conPull_leaves (k : ℕ) : LeavesRounds (QueuesWithin N) (conPull k) := by
  induction k with
  | zero => exact .ret _
  | succ k ih =>
    refine .getDev_bind fun _ _ => .ite (.ret _) (.bind (.host ConCall.getchar) fun ch => ?_)
    cases ch with
    | none => exact .ret _
    | some ch => exact .bind (.modifyDev fun _ hv => hv) fun _ => ih

lemma conFlushRx_rounds :
    (conFlushRx rounds).Meets (ringProtocol ConCall.Reply N) [] fun rs _ => ∀ r ∈ rs, ConLaw N r :=
  flush_rounds (conRxRound_serves (fun _ hv => hv _) fun _ _ hv => hv) (fun _ _ hv => hv) rounds conPending

lemma con_notify_rounds (n : U32) :
    ((conKind rounds).notify n).Meets (ringProtocol ConCall.Reply N) [] fun rs _ => ∀ r ∈ rs, ConLaw N r := by
  change (conNotify rounds n).Meets _ _ _
  unfold conNotify
  split
  · exact process_rounds (conTxRound_serves fun _ hv => hv _)
      (.bind (.host ConCall.activate) fun _ => .raise fun _ _ hv => hv) rounds
  · split
    · rw [meets_monad_bind]
      refine (conFlushRx_rounds rounds).mono fun rs _ hrs => (conSyncSize_leaves rs).mono ?_
      rintro g _ rfl
      exact hrs
    · exact rounds_none (.ret ())

lemma con_poll_rounds :
    (virtioConsolePoll rounds).Meets (ringProtocol ConCall.Reply N) [] fun rs _ => ∀ r ∈ rs, ConLaw N r := by
  have hrest : (do conPull rxFifoSize; conFlushRx rounds : ConProg Unit).Meets (ringProtocol ConCall.Reply N) []
      fun rs _ => ∀ r ∈ rs, ConLaw N r := rounds_after (conPull_leaves _) fun _ => conFlushRx_rounds rounds
  refine rounds_after conSyncSize_leaves fun _ => rounds_after (.host ConCall.takeWinch) fun resized => ?_
  split
  · refine rounds_after conUpdateWinsize_leaves fun changed => ?_
    split
    · exact rounds_after (.raise fun _ _ hv => hv) fun _ => hrest
    · exact hrest
  · exact hrest

end Devices

lemma blkParts_eq_none {ds : List Desc} : blkParts ds = none ↔ ds.length < 2 := by
  match ds with
  | [] => simp [blkParts]
  | [_] => simp [blkParts]
  | _ :: _ :: _ => simp [blkParts]

lemma BlkLaw.completed_iff {N : Fin 2 → ℕ} {r : Round} (h : BlkLaw N r) :
    r.Completed ∧ r.descs.length ≤ N r.queue ↔ 2 ≤ r.descs.length := by
  constructor
  · rintro ⟨⟨-, len, hlen⟩, -⟩
    by_contra hshort
    have hnone := (h.short (blkParts_eq_none.2 (by omega))).2
    exact absurd (hnone.symm.trans hlen) (by simp)
  · intro hlong
    obtain ⟨⟨hdr, data, last⟩, hparts⟩ := Option.ne_none_iff_exists'.1 (mt blkParts_eq_none.1 (by omega : ¬ r.descs.length < 2))
    exact ⟨⟨h.taken, _, (h.served hdr data last hparts).2⟩, h.bounded⟩

def silentHost : VirtioHost Unit where
  blk _ w c :=
    match c with
    | .pread .. => (none, w)
    | .pwrite .. => (none, w)
    | .fsync => ((), w)
  net w c :=
    match c with
    | .input _ => ([], w)
    | .poll => ([], w)
    | .guestReset => ((), w)
  fs _ w c := (c.refused, w)
  con w c :=
    match c with
    | .getWinsize => ((0, 0), w)
    | .takeWinch => (false, w)
    | .getchar => (none, w)
    | .write _ => ((), w)
    | .activate => ((), w)

/-- A board with one disk of one sector, whose queue of two entries lies in RAM: descriptors
at the start, available and used ring one and two pages on. -/
def diskBus (ram : ℕ → U8) : Bus (VirtDevices Unit) :=
  .powerOn ram (fun _ => 0xff)
    { VirtDevices.created (fun _ => ⟨0, 1, false⟩) (fun _ => ⟨freshDevice, fun _ => 0, []⟩) () with
      blk := fun _ => { Virtio.cleared ⟨0, 1, false⟩ with q := fun _ => ⟨2, 1, ramBase, 0x40001000, 0x40002000, 0⟩ } }

def diskBoard : Platform (VirtDevices Unit) := .virtio silentHost ⟨false, 1, 0, false, by decide⟩ 65536 0x400000 2

section Stores

abbrev anySize : Fin 2 → ℕ := fun _ => queueNumMax.toNat

/-- Only writable descriptors were stored to, and the bytes stored are the bytes reported. -/
def Faithful (rs : List Round) : Prop := ∀ r ∈ rs, r.Confined ∧ r.Reported

/-- A chain for the block device whose status byte lies in a writable descriptor, as does
every piece of data given to the guest, and all of them together are less than 4 GiB. -/
def Round.blkWritable (r : Round) : Prop :=
  ∀ hdr data last, blkParts r.descs = some (hdr, data, last) →
    r.InWritable (last.addr, 1) ∧ (∀ w ∈ r.writes.dropLast, r.InWritable w) ∧ r.written < 2 ^ 32

lemma BlkLaw.faithful_iff {N : Fin 2 → ℕ} {r : Round} (h : BlkLaw N r) : r.Confined ∧ r.Reported ↔ r.blkWritable := by
  cases hparts : blkParts r.descs with
  | none =>
    obtain ⟨hw, hp⟩ := h.short hparts
    have hfaithful : r.Confined ∧ r.Reported := by simp [Round.Confined, Round.Reported, hw, hp]
    exact iff_of_true hfaithful fun _ _ _ h => absurd (hparts.symm.trans h) (by simp)
  | some parts =>
    obtain ⟨hdr, data, last⟩ := parts
    obtain ⟨⟨ws, hws, -⟩, hpush⟩ := h.served hdr data last hparts
    have hlen : r.Reported ↔ r.written < 2 ^ 32 := by
      simp only [Round.Reported, hpush, List.mem_singleton, forall_eq, BitVec.toNat_ofNat]
      exact Nat.mod_eq_iff_lt (by norm_num)
    have hconf : r.Confined ↔ r.InWritable (last.addr, 1) ∧ ∀ w ∈ r.writes.dropLast, r.InWritable w := by
      rw [Round.Confined, hws, List.dropLast_concat, and_comm]
      simp [or_imp, forall_and]
    rw [hconf, hlen, and_assoc]
    constructor
    · intro hc hdr' data' last' h'
      obtain ⟨rfl, rfl, rfl⟩ : hdr = hdr' ∧ data = data' ∧ last = last' := by simpa [hparts] using h'
      exact hc
    · exact fun hc => hc hdr data last hparts

/-- A reply that the writable descriptors of its chain can take, and whose copying does not
overflow. -/
def Round.replyFits (r : Round) : Prop :=
  ∀ p ∈ r.pushes, p.2.toNat ≤ natSum ((r.descs.filter Desc.isWrite).map Desc.len) ∧
    NoOverflow true p.2.toNat ((r.descs.filter Desc.isWrite).map Desc.len)

lemma bytesOf_scattered (resplen : U32) (ds : List Desc) (off : U32) :
    bytesOf (scattered resplen ds off) = ((spans true resplen.toNat off (ds.map Desc.len)).map Prod.snd).sum := by
  induction ds generalizing off with
  | nil => rfl
  | cons d ds ih =>
    rw [scattered, List.map_cons, spans]
    split
    · rfl
    · rw [List.zipWith_cons_cons, bytesOf_cons, List.map_cons, List.sum_cons, ← ih]
      rfl

lemma scattered_covers {resplen : U32} {ds : List Desc} {off : U32} (hoff : off.toNat ≤ resplen.toNat) :
    ∀ w ∈ scattered resplen ds off, ∃ d ∈ ds, d.Covers w := by
  induction ds generalizing off with
  | nil => exact fun w hw => absurd hw List.not_mem_nil
  | cons d ds ih =>
    rw [scattered, List.map_cons, spans]
    split
    · exact fun w hw => absurd hw (by simp)
    · rw [List.zipWith_cons_cons, List.forall_mem_cons]
      refine ⟨⟨d, List.mem_cons_self, 0, by simp, ?_⟩, fun w hw => ?_⟩
      · simpa using toNat_clamp_le resplen.isLt hoff
      · obtain ⟨d', hd', hw⟩ := ih (toNat_add_clamp_le resplen.isLt hoff) w hw
        exact ⟨d', List.mem_cons_of_mem d hd', hw⟩

lemma FsLaw.faithful_iff {N : Fin 2 → ℕ} {r : Round} (h : FsLaw N r) : r.Confined ∧ r.Reported ↔ r.replyFits := by
  obtain ⟨resplen, hpush, hws⟩ := h.served
  have hconf : r.Confined := by
    intro w hw
    obtain ⟨d, hd, hcov⟩ := scattered_covers (Nat.zero_le _) w (hws ▸ hw)
    obtain ⟨hd, hwrite⟩ := List.mem_filter.1 hd
    exact ⟨d, hd, hwrite, hcov⟩
  have hsum : r.written = ((spans true resplen.toNat 0 ((r.descs.filter Desc.isWrite).map Desc.len)).map Prod.snd).sum := by
    rw [Round.written, hws, bytesOf_scattered]
  rw [and_iff_right hconf]
  simp only [Round.Reported, Round.replyFits, hpush, List.mem_singleton, forall_eq]
  rw [hsum, eq_comm]
  exact sum_spans_zero_iff resplen.isLt

lemma ConLaw.faithful {r : Round} (h : ConLaw anySize r) : r.Confined ∧ r.Reported := by
  refine ⟨h.confined, ?_⟩
  have hle : r.written ≤ 256 * (rxFifoSize * rxFifoSize) := h.written_le.trans (Nat.mul_le_mul_right _ h.bounded)
  have hlt : r.written < 2 ^ 32 := lt_of_le_of_lt hle (by decide)
  simp only [Round.Reported, h.pushes, List.mem_singleton, forall_eq, BitVec.toNat_ofNat]
  exact Nat.mod_eq_of_lt hlt

lemma fsClear_leaves {N : Fin 2 → ℕ} : LeavesRounds (QueuesWithin N) fsClear :=
  .bind (.modifyDev fun _ _ => queuesWithin_cleared _) fun _ => .getDev_bind fun _ _ => .bind (.lift _) fun _ =>
    .bind (.modifyDev fun _ hv => hv) fun _ => .setLine

lemma conReset_leaves {N : Fin 2 → ℕ} : LeavesRounds (QueuesWithin N) conReset :=
  .bind (.modifyDev fun _ _ => queuesWithin_cleared _) fun _ => .bind conUpdateWinsize_leaves fun _ => .setLine

/-- A header of zeros and a status descriptor of no bytes, neither of them writable, and
another byte where the status will go. -/
def plainChain (i : ℕ) : U8 :=
  if i = 0x1002 then 1 else if i = 0x4000 then 0xaa
  else ([0, 0x30, 0, 0x40, 0, 0, 0, 0, 16, 0, 0, 0, 1, 0, 1, 0,
    0, 0x40, 0, 0x40, 0, 0, 0, 0, 0, 0, 0, 0, 0, 0, 0, 0] : List U8).getD i 0

end Stores

end Arm64Emu
