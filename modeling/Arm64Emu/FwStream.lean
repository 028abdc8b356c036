import Arm64Emu.FwCfg

/-! The byte stream of fw_cfg. A select puts the cursor on the first byte of an item; reads
of the data port, DMA reads and DMA skips then share the cursor, which has 32 bits. -/
namespace Arm64Emu

/-- Byte `k` of an item, as the guest is to see it. -/
def itemByte (it : Option FwItem) (k : ℕ) : U8 := (it.bind fun it => it.data[k]?).getD 0

structure FwDma where
  control : U32
  length : U32
  target : U64

namespace FwDma

def parse (hdr : List U8) : FwDma :=
  ⟨(beWord (hdr.take 4)).setWidth 32, (beWord ((hdr.drop 4).take 4)).setWidth 32, beWord (hdr.drop 8)⟩

def selects (c : FwDma) : Option U16 := if c.control &&& 8 ≠ 0 then some ((c.control >>> 16).setWidth 16) else none

def reads (c : FwDma) : Bool := c.control &&& 2 ≠ 0

def skips (c : FwDma) : Bool := c.control &&& 20 ≠ 0

def moves (c : FwDma) : ℕ := if c.reads ∨ c.skips then c.length.toNat else 0

end FwDma

namespace FwCfg

def selectBy (f : FwCfg) (key : Option U16) : FwCfg := key.elim f f.select

def skip (f : FwCfg) (n : ℕ) : FwCfg := { f with offset := f.offset + BitVec.ofNat 32 n }

def dmaAddress (f : FwCfg) (off : U64) (size : ℕ) (val : U64) : Option U64 :=
  if off = 0x10 ∧ size = 8 then some (bswap 8 val)
  else if off = 0x14 then some ((f.dmaHi.setWidth 64 <<< 32) ||| bswap 4 val)
  else none

end FwCfg

def placed : Option (U16 × ℕ) × List U8 → List (U16 × ℕ × U8)
  | (none, _) => []
  | (some (key, pos), bytes) => (bytes.zipIdx pos).map fun (v, k) => (key, k, v)

lemma mem_placed {d : Option (U16 × ℕ) × List U8} {key : U16} {k : ℕ} {v : U8} (h : (key, k, v) ∈ placed d) :
    ∃ pos, d.1 = some (key, pos) ∧ pos ≤ k ∧ d.2[k - pos]? = some v := by
  obtain ⟨_ | ⟨key', pos⟩, bytes⟩ := d
  · cases h
  · obtain ⟨⟨v', k'⟩, hmem, heq⟩ := List.mem_map.1 h
    cases heq
    exact ⟨pos, rfl, List.mk_mem_zipIdx_iff_le_and_getElem?_sub.1 hmem⟩

/-- What a guest does with the device, and what happens elsewhere meanwhile. -/
inductive FwEvent (D : Type)
  | read (off : U64) (size : ℕ)
  | write (off : U64) (size : ℕ) (val : U64)
  | elsewhere (b : Bus D)

section Stream
variable {D : Type} (P : Platform D) (fw : Lens D FwCfg)

def fwcfgCopied (it : Option FwItem) (b : Bus D) (target : U64) : ℕ → List U8
  | 0 => []
  | length + 1 =>
    let b' := physWrite P b target 1 (((fw.get b.dev).byte it).setWidth 64)
    (fw.get b.dev).byte it :: fwcfgCopied it (setFwcfg fw b' (fw.get b'.dev).advance) (target + 1) length

def CopyApart (it : Option FwItem) (b : Bus D) (target : U64) : ℕ → Prop
  | 0 => True
  | length + 1 =>
    let b' := physWrite P b target 1 (((fw.get b.dev).byte it).setWidth 64)
    fw.get b'.dev = fw.get b.dev ∧ CopyApart it (setFwcfg fw b' (fw.get b'.dev).advance) (target + 1) length

/-- The command of a DMA, and the bus once it is read and its select is done. -/
def fwcfgCommand (b : Bus D) (addr : U64) : FwDma × Bus D :=
  let (hdr, b) := physReadBlk P b addr 16
  let c := FwDma.parse hdr
  (c, setFwcfg fw b ((fw.get b.dev).selectBy c.selects))

/-- The bus once the command is carried out, before its completion is signalled. -/
def fwcfgTransfer (c : FwDma) (b : Bus D) : Bus D :=
  let f := fw.get b.dev
  if c.reads then fwcfgCopy P fw (f.find f.sel) b c.target c.length.toNat
  else if c.skips then setFwcfg fw b (f.skip c.length.toNat)
  else b

/-- The accesses of a DMA to the bus leave the device alone. -/
structure DmaApart (b : Bus D) (addr : U64) : Prop where
  header : fw.get (physReadBlk P b addr 16).2.dev = fw.get b.dev
  copy : (fwcfgCommand P fw b addr).1.reads →
    CopyApart P fw ((fw.get (fwcfgCommand P fw b addr).2.dev).find (fw.get (fwcfgCommand P fw b addr).2.dev).sel)
      (fwcfgCommand P fw b addr).2 (fwcfgCommand P fw b addr).1.target (fwcfgCommand P fw b addr).1.length.toNat
  completion :
    fw.get (physWriteBlk P (fwcfgTransfer P fw (fwcfgCommand P fw b addr).1 (fwcfgCommand P fw b addr).2) addr
        [0, 0, 0, 0]).dev =
      fw.get (fwcfgTransfer P fw (fwcfgCommand P fw b addr).1 (fwcfgCommand P fw b addr).2).dev

namespace FwEvent

def apply (b : Bus D) : FwEvent D → Bus D
  | read off size => (fwcfgRead fw b off size).2
  | write off size val => fwcfgWrite P fw b off size val
  | elsewhere b' => { b' with dev := fw.set b'.dev (fw.get b.dev) }

/-- The cursor as the guest counts it, from its last select on: the key and the position,
a number without bound. -/
def cursor (b : Bus D) (c : Option (U16 × ℕ)) : FwEvent D → Option (U16 × ℕ)
  | read off size => if off = 0 then c.map fun (key, pos) => (key, pos + size) else c
  | write off size val =>
    if off = 8 then some (((val >>> 8) ||| (val <<< 8)).setWidth 16, 0)
    else
      match (fw.get b.dev).dmaAddress off size val with
      | some addr =>
        let cmd := FwDma.parse (physReadBlk P b addr 16).1
        (cmd.selects.elim c fun key => some (key, 0)).map fun (key, pos) => (key, pos + cmd.moves)
      | none => c
  | elsewhere _ => c

/-- The key and the position of the first byte that the event delivers, and the bytes. -/
def delivers (b : Bus D) (c : Option (U16 × ℕ)) : FwEvent D → Option (U16 × ℕ) × List U8
  | read off size =>
    let v := (fwcfgRead fw b off size).1
    (c, if off = 0 then (List.range size).map fun i => (v >>> (8 * i)).setWidth 8 else [])
  | write off size val =>
    match (fw.get b.dev).dmaAddress off size val with
    | some addr =>
      let (cmd, b) := fwcfgCommand P fw b addr
      let f := fw.get b.dev
      (cmd.selects.elim c fun key => some (key, 0),
        if cmd.reads then fwcfgCopied P fw (f.find f.sel) b cmd.target cmd.length.toNat else [])
    | none => (c, [])
  | elsewhere _ => (c, [])

def Sized : FwEvent D → Prop
  | read _ size => size ≤ 8
  | _ => True

/-- The DMA that the event starts leaves the device alone on the bus. -/
def Apart (b : Bus D) : FwEvent D → Prop
  | write off size val => ∀ addr, (fw.get b.dev).dmaAddress off size val = some addr → DmaApart P fw b addr
  | _ => True

/-- The bytes of a run, each with the key and the position it is delivered at. -/
def stream (b : Bus D) (c : Option (U16 × ℕ)) : List (FwEvent D) → List (U16 × ℕ × U8)
  | [] => []
  | e :: es => placed (e.delivers P fw b c) ++ stream (e.apply P fw b) (e.cursor P fw b c) es

def ApartRun (b : Bus D) : List (FwEvent D) → Prop
  | [] => True
  | e :: es => e.Apart P fw b ∧ ApartRun (e.apply P fw b) es

end FwEvent

/-- Every byte that is delivered after a select is that of the item, at the position counted
without bound. -/
def StreamLaw (b : Bus D) (es : List (FwEvent D)) : Prop :=
  ∀ key k v, (key, k, v) ∈ FwEvent.stream P fw b none es → v = itemByte ((fw.get b.dev).find key) k

end Stream

section Device
variable {D : Type} {P : Platform D} {fw : Lens D FwCfg}

@[simp] lemma get_setFwcfg (b : Bus D) (f : FwCfg) : fw.get (setFwcfg fw b f).dev = f := fw.get_set _ _

lemma setFwcfg_get (b : Bus D) : setFwcfg fw b (fw.get b.dev) = b := by rw [setFwcfg, fw.set_get]

lemma setFwcfg_selectBy (b : Bus D) (c : FwDma) :
    setFwcfg fw b ((fw.get b.dev).selectBy c.selects) =
      if c.control &&& 8 ≠ 0 then setFwcfg fw b ((fw.get b.dev).select ((c.control >>> 16).setWidth 16)) else b := by
  unfold FwDma.selects
  split
  · rfl
  · exact setFwcfg_get b

lemma doDma_eq (b : Bus D) (addr : U64) :
    doDma P fw b addr =
      physWriteBlk P (fwcfgTransfer P fw (fwcfgCommand P fw b addr).1 (fwcfgCommand P fw b addr).2) addr [0, 0, 0, 0] := by
  simp only [doDma, fwcfgCommand, setFwcfg_selectBy, fwcfgTransfer, FwDma.reads, FwDma.skips, FwDma.parse,
    FwCfg.skip, BitVec.ofNat_toNat, BitVec.setWidth_eq, decide_eq_true_eq]

namespace FwCfg

lemma skip_zero (f : FwCfg) : f.skip 0 = f := by simp [skip]

lemma skip_advance (f : FwCfg) (n : ℕ) : f.advance.skip n = f.skip (n + 1) := by
  have h : f.offset + 1 + BitVec.ofNat 32 n = f.offset + BitVec.ofNat 32 (n + 1) := by
    rw [BitVec.ofNat_add, BitVec.add_assoc, BitVec.add_comm 1]
    rfl
  simp only [skip, advance, h]

lemma find_selectBy (f : FwCfg) (sel : Option U16) (key : U16) : (f.selectBy sel).find key = f.find key := by
  cases sel <;> rfl

lemma offset_skip {f : FwCfg} {pos : ℕ} (h : f.offset = BitVec.ofNat 32 pos) (i : ℕ) :
    (f.skip i).offset = BitVec.ofNat 32 (pos + i) := by
  rw [skip, h, BitVec.ofNat_add]

lemma byte_skip {f : FwCfg} {pos : ℕ} (h : f.offset = BitVec.ofNat 32 pos) (it : Option FwItem) (i : ℕ) :
    (f.skip i).byte it = itemByte it ((pos + i) % 2 ^ 32) := by
  show itemByte it (f.skip i).offset.toNat = _
  rw [offset_skip h, BitVec.toNat_ofNat]

lemma stream_cursor (it : Option FwItem) (f : FwCfg) (n : ℕ) : (stream it f n).2 = f.skip n := by
  induction n generalizing f with
  | zero => exact f.skip_zero.symm
  | succ n ih => rw [stream, ih, skip_advance]

lemma stream_byte (it : Option FwItem) (f : FwCfg) {n i : ℕ} (hi : i < n) (hn : n ≤ 8) :
    ((stream it f n).1 >>> (8 * i)).setWidth 8 = (f.skip i).byte it := by
  induction n generalizing f i with
  | zero => omega
  | succ n ih =>
    cases i with
    | zero =>
      rw [stream, skip_zero, Nat.mul_zero, BitVec.ushiftRight_zero]
      ext j hj
      simp
    | succ i =>
      rw [← skip_advance, ← ih f.advance (by omega) (by omega), stream]
      refine BitVec.eq_of_getLsbD_eq fun j hj => ?_
      have hsub : 8 * (i + 1) + j - 8 = 8 * i + j := by omega
      simp [hsub, hj, show 8 * (i + 1) + j < 64 by omega, show 8 ≤ 8 * (i + 1) + j by omega,
        BitVec.getLsbD_eq_getElem (show 8 * i + j < 64 by omega)]

end FwCfg

lemma fwcfgCopy_apart {it : Option FwItem} {b : Bus D} {target : U64} {n : ℕ} (h : CopyApart P fw it b target n) :
    fw.get (fwcfgCopy P fw it b target n).dev = (fw.get b.dev).skip n ∧
      fwcfgCopied P fw it b target n = (List.range n).map fun i => ((fw.get b.dev).skip i).byte it := by
  induction n generalizing b target with
  | zero => exact ⟨(FwCfg.skip_zero _).symm, rfl⟩
  | succ n ih =>
    obtain ⟨hkeep, hrest⟩ := h
    obtain ⟨hdev, hbytes⟩ := ih hrest
    rw [get_setFwcfg, hkeep] at hdev hbytes
    simp only [FwCfg.skip_advance] at hdev hbytes
    refine ⟨?_, ?_⟩
    · rw [fwcfgCopy, hkeep]
      exact hkeep ▸ hdev
    · rw [fwcfgCopied, hkeep, List.range_succ_eq_map, List.map_cons, List.map_map, FwCfg.skip_zero]
      exact congrArg _ (hkeep ▸ hbytes)

def Tracks (f : FwCfg) (c : Option (U16 × ℕ)) : Prop :=
  ∀ key pos, c = some (key, pos) → f.sel = key ∧ f.offset = BitVec.ofNat 32 pos

lemma Tracks.skip {f : FwCfg} {c : Option (U16 × ℕ)} (h : Tracks f c) (n : ℕ) :
    Tracks (f.skip n) (c.map fun (key, pos) => (key, pos + n)) := by
  rintro key pos hc
  obtain ⟨⟨key', pos'⟩, rfl, heq⟩ := Option.map_eq_some_iff.1 hc
  cases heq
  exact ⟨(h _ _ rfl).1, FwCfg.offset_skip (h _ _ rfl).2 n⟩

lemma Tracks.select (f : FwCfg) (key : U16) : Tracks (f.select key) (some (key, 0)) := by
  rintro _ _ ⟨⟩
  exact ⟨rfl, rfl⟩

lemma Tracks.selectBy {f : FwCfg} {c : Option (U16 × ℕ)} (h : Tracks f c) (sel : Option U16) :
    Tracks (f.selectBy sel) (sel.elim c fun key => some (key, 0)) := by
  cases sel with
  | none => exact h
  | some key => exact .select f key

lemma get_fwcfgCommand {b : Bus D} {addr : U64} (h : DmaApart P fw b addr) :
    fw.get (fwcfgCommand P fw b addr).2.dev = (fw.get b.dev).selectBy (fwcfgCommand P fw b addr).1.selects := by
  simp only [fwcfgCommand, get_setFwcfg, h.header]

lemma get_doDma {b : Bus D} {addr : U64} (h : DmaApart P fw b addr) :
    fw.get (doDma P fw b addr).dev =
      ((fw.get b.dev).selectBy (fwcfgCommand P fw b addr).1.selects).skip (fwcfgCommand P fw b addr).1.moves := by
  rw [doDma_eq, h.completion, ← get_fwcfgCommand h]
  have hcopy := h.copy
  generalize fwcfgCommand P fw b addr = cb at hcopy ⊢
  obtain ⟨c, b'⟩ := cb
  unfold fwcfgTransfer FwDma.moves
  dsimp only
  cases hr : c.reads with
  | true => simpa using (fwcfgCopy_apart (hcopy hr)).1
  | false =>
    cases hs : c.skips with
    | true => simp
    | false => simp [FwCfg.skip_zero]

namespace FwEvent
variable {b : Bus D} {e : FwEvent D} {c : Option (U16 × ℕ)}

lemma fwcfgWrite_eq (b : Bus D) (off : U64) (size : ℕ) (val : U64) :
    fwcfgWrite P fw b off size val =
      if off = 8 then setFwcfg fw b ((fw.get b.dev).select (((val >>> 8) ||| (val <<< 8)).setWidth 16))
      else
        match (fw.get b.dev).dmaAddress off size val with
        | some addr => doDma P fw b addr
        | none =>
          if off = 0x10 then setFwcfg fw b { fw.get b.dev with dmaHi := (bswap 4 val).setWidth 32 } else b := by
  unfold fwcfgWrite FwCfg.dmaAddress
  dsimp only
  by_cases h8 : off = 8
  · simp only [h8, if_true]
  · simp only [h8, if_false]
    by_cases h10 : off = 0x10
    · by_cases hs : size = 8
      · simp only [h10, hs, and_self, if_true]
      · simp [h10, hs]
    · by_cases h14 : off = 0x14
      · simp [h14]
      · rw [if_neg h10, if_neg h14, if_neg fun h => h10 h.1, if_neg h14]
        exact (if_neg h10).symm

lemma tracks_apply (he : e.Apart P fw b) (hc : Tracks (fw.get b.dev) c) :
    Tracks (fw.get (e.apply P fw b).dev) (e.cursor P fw b c) ∧
      (fw.get (e.apply P fw b).dev).items = (fw.get b.dev).items := by
  cases e with
  | read off size =>
    simp only [apply, cursor, fwcfgRead]
    by_cases h0 : off = 0
    · simp only [h0, if_true, get_setFwcfg, FwCfg.stream_cursor]
      exact ⟨hc.skip size, rfl⟩
    · simp only [h0, if_false]
      exact ⟨hc, trivial⟩
  | write off size val =>
    simp only [apply, cursor, fwcfgWrite_eq]
    by_cases h8 : off = 8
    · simp only [h8, if_true, get_setFwcfg]
      exact ⟨.select _ _, rfl⟩
    · simp only [h8, if_false]
      cases ha : (fw.get b.dev).dmaAddress off size val with
      | some addr =>
        simp only [get_doDma (he addr ha)]
        exact ⟨(hc.selectBy _).skip _, by cases (fwcfgCommand P fw b addr).1.selects <;> rfl⟩
      | none =>
        dsimp only
        split
        · rw [get_setFwcfg]
          exact ⟨hc, rfl⟩
        · exact ⟨hc, rfl⟩
  | elsewhere b' =>
    simp only [apply, cursor, fw.get_set]
    exact ⟨hc, trivial⟩

lemma eq_itemByte_of_range {f : FwCfg} {key : U16} {pos n i : ℕ} {v : U8} (hf : Tracks f (some (key, pos)))
    (hv : ((List.range n).map fun i => (f.skip i).byte (f.find f.sel))[i]? = some v) :
    v = itemByte (f.find key) ((pos + i) % 2 ^ 32) := by
  obtain ⟨hsel, hpos⟩ := hf _ _ rfl
  rw [List.getElem?_map] at hv
  obtain ⟨j, hj, rfl⟩ := Option.map_eq_some_iff.1 hv
  obtain ⟨hlt, hij⟩ := List.getElem?_eq_some_iff.1 hj
  rw [List.getElem_range] at hij
  subst hij
  rw [FwCfg.byte_skip hpos, hsel]

lemma delivers_byte (hs : e.Sized) (he : e.Apart P fw b) (hc : Tracks (fw.get b.dev) c) {key : U16} {pos i : ℕ} {v : U8}
    (hat : (e.delivers P fw b c).1 = some (key, pos)) (hv : (e.delivers P fw b c).2[i]? = some v) :
    v = itemByte ((fw.get b.dev).find key) ((pos + i) % 2 ^ 32) := by
  cases e with
  | read off size =>
    by_cases h0 : off = 0
    · have hbytes : (delivers P fw b c (.read off size)).2 =
          (List.range size).map fun i => ((fw.get b.dev).skip i).byte ((fw.get b.dev).find (fw.get b.dev).sel) := by
        simp only [delivers, fwcfgRead, h0, if_true]
        refine List.map_congr_left fun i hi => ?_
        exact FwCfg.stream_byte _ _ (List.mem_range.1 hi) hs
      rw [hbytes] at hv
      have hcur : c = some (key, pos) := hat
      exact eq_itemByte_of_range (hcur ▸ hc) hv
    · rw [delivers, if_neg h0] at hv
      cases hv
  | write off size val =>
    simp only [delivers] at hat hv
    cases ha : (fw.get b.dev).dmaAddress off size val with
    | some addr =>
      have hapart := he addr ha
      have htrack := hc.selectBy (fwcfgCommand P fw b addr).1.selects
      rw [← get_fwcfgCommand hapart] at htrack
      simp only [ha] at hat hv
      split at hv
      · rename_i hr
        rw [(fwcfgCopy_apart (hapart.copy hr)).2] at hv
        have hbyte := eq_itemByte_of_range (hat ▸ htrack) hv
        rwa [get_fwcfgCommand hapart, FwCfg.find_selectBy] at hbyte
      · cases hv
    | none =>
      rw [ha] at hv
      cases hv
  | elsewhere b' => cases hv

/-- Along a run whose DMA leaves the device alone, the byte at position `k` is that of the
item at `k` modulo `2 ^ 32`. -/
lemma stream_byte {es : List (FwEvent D)} (hs : ∀ e ∈ es, e.Sized) (hes : ApartRun P fw b es)
    (hc : Tracks (fw.get b.dev) c) {key : U16} {k : ℕ} {v : U8} (hv : (key, k, v) ∈ stream P fw b c es) :
    v = itemByte ((fw.get b.dev).find key) (k % 2 ^ 32) := by
  induction es generalizing b c with
  | nil => cases hv
  | cons e es ih =>
    obtain ⟨he, hrest⟩ := hes
    obtain ⟨htrack, hitems⟩ := tracks_apply he hc
    rw [stream] at hv
    rcases List.mem_append.1 hv with hnow | hlater
    · obtain ⟨pos, hat, hle, hget⟩ := mem_placed hnow
      have hbyte := delivers_byte (hs e (by simp)) he hc hat hget
      rwa [Nat.add_sub_cancel' hle] at hbyte
    · have := ih (fun e' he' => hs e' (by simp [he'])) hrest htrack hlater
      rwa [FwCfg.find, hitems] at this

end FwEvent

lemma itemByte_of_length_le {it : Option FwItem} {k : ℕ} (h : ∀ x ∈ it, x.data.length ≤ k) : itemByte it k = 0 := by
  cases it with
  | none => rfl
  | some x =>
    show (x.data[k]?).getD 0 = 0
    rw [List.getElem?_eq_none (h x rfl), Option.getD_none]

theorem stream_law_iff_no_wrap {b : Bus D} {es : List (FwEvent D)}
    (hlen : ∀ it ∈ (fw.get b.dev).items, it.data.length < 2 ^ 32) (hs : ∀ e ∈ es, e.Sized)
    (hes : FwEvent.ApartRun P fw b es) :
    StreamLaw P fw b es ↔ ∀ key k v, (key, k, v) ∈ FwEvent.stream P fw b none es → 2 ^ 32 ≤ k →
      itemByte ((fw.get b.dev).find key) (k % 2 ^ 32) = 0 := by
  have hbyte : ∀ key k v, (key, k, v) ∈ FwEvent.stream P fw b none es →
      v = itemByte ((fw.get b.dev).find key) (k % 2 ^ 32) :=
    fun key k v hv => FwEvent.stream_byte hs hes (by rintro _ _ ⟨⟩) hv
  have hpast : ∀ key k, 2 ^ 32 ≤ k → itemByte ((fw.get b.dev).find key) k = 0 := by
    refine fun key k hk => itemByte_of_length_le fun it hit => ?_
    have := hlen it (List.mem_of_find?_eq_some hit)
    omega
  constructor
  · intro h key k v hv hk
    rw [← hbyte key k v hv, h key k v hv, hpast key k hk]
  · intro h key k v hv
    by_cases hk : 2 ^ 32 ≤ k
    · rw [hbyte key k v hv, h key k v hv hk, hpast key k hk]
    · rw [hbyte key k v hv, Nat.mod_eq_of_lt (by omega)]

end Device

section Ram
variable {D : Type} {P : Platform D} {fw : Lens D FwCfg} {b : Bus D}

lemma copyApart_of_ram {it : Option FwItem} {target : U64} {n : ℕ} (h : ∀ i < n, inRam P (target + zext i) 1 = true) :
    CopyApart P fw it b target n := by
  induction n generalizing b target with
  | zero => trivial
  | succ n ih =>
    have h0 : inRam P target (zext 1) = true := by simpa [zext] using h 0 (by omega)
    refine ⟨by simp only [physWrite, h0, if_true], ih fun i hi => ?_⟩
    have := h (i + 1) (by omega)
    rwa [show target + zext (i + 1) = target + 1 + zext i by
      rw [BitVec.add_assoc, BitVec.add_comm 1, zext, BitVec.ofNat_add]; rfl] at this

lemma dmaApart_of_ram (hook : ∀ d pa len, fw.get (P.jitInvalidate d pa len) = fw.get d) {addr : U64}
    (h16 : inRam P addr 16 = true) (h4 : inRam P addr 4 = true)
    (htarget : (fwcfgCommand P fw b addr).1.reads → ∀ i < (fwcfgCommand P fw b addr).1.length.toNat,
      inRam P ((fwcfgCommand P fw b addr).1.target + zext i) 1 = true) : DmaApart P fw b addr where
  header := by
    have h : inRam P addr (zext 16) = true := h16
    simp only [physReadBlk, h, if_true]
  copy hr := copyApart_of_ram (htarget hr)
  completion := by
    have h : inRam P addr (zext [(0 : U8), 0, 0, 0].length) = true := h4
    simp only [physWriteBlk, h, if_true, hook]

end Ram

/-- A board whose RAM holds `bytes` at its start. -/
def fwBus (bytes : List U8) : Bus Devices := .powerOn (fun i => (bytes[i]?).getD 0) (fun _ => 0xff) .initial

def fwCommand (control length : U32) (target : U64) : List U8 :=
  FwCfg.be32 control ++ FwCfg.be32 length ++ FwCfg.be32 (target >>> 32 |>.setWidth 32) ++ FwCfg.be32 (target.setWidth 32)

/-- Select the signature and read its first two bytes by DMA, then the rest from the port. -/
theorem stream_law_of_signature :
    FwEvent.ApartRun (Platform.board 0x400000 1) Devices.fwcfgL (fwBus (fwCommand 0xa 2 0x40000100))
        [.write 0x10 8 0x4000000000, .read 0 2] ∧
      StreamLaw (Platform.board 0x400000 1) Devices.fwcfgL (fwBus (fwCommand 0xa 2 0x40000100))
        [.write 0x10 8 0x4000000000, .read 0 2] := by
  have hapart : FwEvent.ApartRun (Platform.board 0x400000 1) Devices.fwcfgL (fwBus (fwCommand 0xa 2 0x40000100))
      [.write 0x10 8 0x4000000000, .read 0 2] := by
    refine ⟨fun addr haddr => ?_, trivial, trivial⟩
    cases haddr
    refine dmaApart_of_ram (fun _ _ _ => rfl) (by decide) (by decide) ?_
    decide +kernel
  refine ⟨hapart, (stream_law_iff_no_wrap ?_ ?_ hapart).2 ?_⟩
  · decide +kernel
  · simp [FwEvent.Sized]
  · have hpos : ∀ x ∈ FwEvent.stream (Platform.board 0x400000 1) Devices.fwcfgL (fwBus (fwCommand 0xa 2 0x40000100)) none
        [.write 0x10 8 0x4000000000, .read 0 2], x.2.1 < 2 ^ 32 := by decide +kernel
    intro key k v hv hk
    exact absurd (hpos _ hv) (by simpa using hk)

/-- After two skips of `2 ^ 31` bytes the port delivers the first byte of the signature
again. A DMA read of the signature whose target runs over the selector register delivers
its second byte as the third. -/
theorem wrapped_cursor_delivers_again :
    ¬ StreamLaw (Platform.board 0x400000 1) Devices.fwcfgL
      (fwBus (fwCommand 4 0x80000000 0 ++ fwCommand 4 0x80000000 0))
      [.write 8 2 0, .write 0x10 8 0x4000000000, .write 0x10 8 0x1000004000000000, .read 0 1] ∧
    ¬ StreamLaw (Platform.board 0x400000 1) Devices.fwcfgL (fwBus (fwCommand 0xa 3 0x09020007))
      [.write 0x10 8 0x4000000000] := by
  constructor
  · intro h
    exact absurd (h 0 (2 ^ 32) 0x51 (by decide +kernel)) (by decide +kernel)
  · intro h
    exact absurd (h 0 2 0x45 (by decide +kernel)) (by decide +kernel)

end Arm64Emu
