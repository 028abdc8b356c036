import Arm64Emu.ClampedCopy
import Arm64Emu.FlatMemory
import Arm64Emu.VirtioBlk

/-! What a request does to guest memory and to the image of a disk, when its rings and
buffers are in memory and the host reads and writes in full. -/
namespace Arm64Emu

open Dialogue DevProg FlatMemory

/-- Guest memory without the used ring, the image, the chain as far as it has been walked
along, and the reads and writes of the image. -/
structure DiskRun where
  mem : U64 → U8
  image : ℕ → U8
  descs : List Desc
  io : List BlkCall

def DiskRun.visit (g : DiskRun) (d : Desc) : DiskRun := { g with descs := g.descs ++ [d] }

def memLe (m : U64 → U8) (pa : U64) (n : ℕ) : U64 := ldLe (fun i => m (pa + zext i)) 0 n

def leBytes (x : U64) (n : ℕ) : Bytes := (List.range n).map fun i => (x >>> (8 * i)).setWidth 8

namespace Blk

def limit (bk : Blk) : ℕ := bk.capacity.toNat * sectorSize

end Blk

/-- Accesses to the image stay inside it, and there are no writes to a read-only one. -/
def diskProtocol (bk : Blk) : Protocol (DevCall.Reply (B := Blk) BlkCall.Reply) DiskRun where
  allowed _ c :=
    match c with
    | .host (.pread off len) => off.toNat + len ≤ bk.limit
    | .host (.pwrite off data) => bk.ro = false ∧ off.toNat + data.length ≤ bk.limit
    | _ => True
  answers g c r :=
    match c, r with
    | .get, v => v.back = bk
    | .read pa n, x => x = memLe g.mem pa n
    | .readBlk pa n, data => data = load g.mem pa n
    | .host (.pread off len), data => data = some (bytesAt g.image off.toNat len)
    | .host (.pwrite _ data), n => n = some data.length
    | _, _ => True
  next g c r :=
    match c, r with
    | .desc .., d => g.visit d
    | .write pa n x, _ => { g with mem := store g.mem pa (leBytes x n) }
    | .writeBlk pa src, _ => { g with mem := store g.mem pa src }
    | .host (.pread off len), _ => { g with io := g.io ++ [.pread off len] }
    | .host (.pwrite off data), _ =>
      { g with image := copyBytes g.image off.toNat data, io := g.io ++ [.pwrite off data] }
    | _, _ => g

def places (data : List Desc) : List (U64 × ℕ) := data.map fun d => (d.addr, d.len.toNat)

def dataLen (data : List Desc) : ℕ := (data.map fun d => d.len.toNat).sum

@[simp] lemma places_cons (d : Desc) (data : List Desc) : places (d :: data) = (d.addr, d.len.toNat) :: places data := rfl

@[simp] lemma dataLen_cons (d : Desc) (data : List Desc) : dataLen (d :: data) = d.len.toNat + dataLen data := rfl

/-- What becomes of a request: read into the data descriptors in turn, write what they hold,
or refuse. The status byte comes last. -/
structure Served (bk : Blk) (mem : U64 → U8) (image : ℕ → U8) (type : U32) (sector : ℕ) (data : List Desc) (last : Desc)
    (g : DiskRun) : Prop where
  read : type = 0 → sector * sectorSize + dataLen data ≤ bk.limit → g.image = image ∧
    g.mem = store (scatter mem (places data) (bytesAt image (sector * sectorSize) (dataLen data))) last.addr [0]
  write : type = 1 → bk.ro = false → sector * sectorSize + dataLen data ≤ bk.limit →
    g.image = copyBytes image (sector * sectorSize) (gather mem (places data)) ∧ g.mem = store mem last.addr [0]
  outside : type = 0 ∨ type = 1 → bk.limit < sector * sectorSize + dataLen data →
    g.io = [] ∧ g.image = image ∧ g.mem = store mem last.addr [1]
  readOnly : type = 1 → bk.ro = true → g.io = [] ∧ g.image = image ∧ g.mem = store mem last.addr [1]

section Steps
variable {bk : Blk} {g : DiskRun}

lemma disk_getDev {Q : DiskRun → Virtio Blk → Prop} (h : ∀ v, v.back = bk → Q g v) :
    (getDev : BlkProg _).Meets (diskProtocol bk) g Q := (meets_ask _).2 ⟨trivial, h⟩

lemma disk_desc {i : Fin 2} {idx : U32} {Q : DiskRun → Desc → Prop} (h : ∀ d, Q (g.visit d) d) :
    (desc i idx : BlkProg _).Meets (diskProtocol bk) g Q := (meets_ask _).2 ⟨trivial, fun d _ => h d⟩

lemma disk_read {pa : U64} {n : ℕ} {Q : DiskRun → U64 → Prop} (h : Q g (memLe g.mem pa n)) :
    (DevProg.read pa n : BlkProg _).Meets (diskProtocol bk) g Q :=
  (meets_ask _).2 ⟨trivial, by rintro _ rfl; exact h⟩

lemma disk_readBlk {pa : U64} {n : ℕ} {Q : DiskRun → Bytes → Prop} (h : Q g (load g.mem pa n)) :
    (readBlk pa n : BlkProg _).Meets (diskProtocol bk) g Q :=
  (meets_ask _).2 ⟨trivial, by rintro _ rfl; exact h⟩

lemma disk_write {pa : U64} {n : ℕ} {x : U64} {Q : DiskRun → Unit → Prop}
    (h : Q { g with mem := store g.mem pa (leBytes x n) } ()) :
    (DevProg.write pa n x : BlkProg _).Meets (diskProtocol bk) g Q := (meets_ask _).2 ⟨trivial, fun _ _ => h⟩

lemma disk_writeBlk {pa : U64} {src : Bytes} {Q : DiskRun → Unit → Prop} (h : Q { g with mem := store g.mem pa src } ()) :
    (writeBlk pa src : BlkProg _).Meets (diskProtocol bk) g Q := (meets_ask _).2 ⟨trivial, fun _ _ => h⟩

lemma disk_pushUsed {i : Fin 2} {id len : U32} {Q : DiskRun → Unit → Prop} (h : Q g ()) :
    (DevProg.pushUsed i id len : BlkProg _).Meets (diskProtocol bk) g Q := (meets_ask _).2 ⟨trivial, fun _ _ => h⟩

lemma disk_pread {off : U64} {len : ℕ} {Q : DiskRun → Option Bytes → Prop} (hin : off.toNat + len ≤ bk.limit)
    (h : Q { g with io := g.io ++ [.pread off len] } (some (bytesAt g.image off.toNat len))) :
    (BlkProg.pread off len).Meets (diskProtocol bk) g Q := (meets_ask _).2 ⟨hin, by rintro _ rfl; exact h⟩

lemma disk_pwrite {off : U64} {data : Bytes} {Q : DiskRun → Option ℕ → Prop} (hro : bk.ro = false)
    (hin : off.toNat + data.length ≤ bk.limit)
    (h : Q { g with image := copyBytes g.image off.toNat data, io := g.io ++ [.pwrite off data] } (some data.length)) :
    (BlkProg.pwrite off data).Meets (diskProtocol bk) g Q := (meets_ask _).2 ⟨⟨hro, hin⟩, by rintro _ rfl; exact h⟩

end Steps

section Bytes

@[simp] lemma copyBytes_nil (m : ℕ → U8) (p : ℕ) : copyBytes m p [] = m := by
  funext i
  simp [copyBytes]

lemma copyBytes_append (m : ℕ → U8) (p : ℕ) (src src' : Bytes) :
    copyBytes m p (src ++ src') = copyBytes (copyBytes m p src) (p + src.length) src' := by
  funext i
  unfold copyBytes
  by_cases h : p ≤ i
  · by_cases h' : p + src.length ≤ i
    · rw [if_pos h, if_pos h', if_pos h, List.getElem?_append_right (by omega), List.getElem?_eq_none (by omega : src.length ≤ i - p),
        Nat.sub_sub]
      rfl
    · rw [if_pos h, if_neg h', if_pos h, List.getElem?_append_left (by omega)]
  · rw [if_neg h, if_neg (by omega), if_neg h]

lemma readBuf_eq {data : Bytes} {len : ℕ} (h : data.length = len) : readBuf data len = data := by
  simp [readBuf, ← h]

end Bytes

section Chunks
variable {bk : Blk}

lemma chunk_bounds {rem : U32} (hrem : rem ≠ 0) :
    0 < (if rem < blkChunkMax then rem else blkChunkMax).toNat ∧
      (if rem < blkChunkMax then rem else blkChunkMax).toNat ≤ rem.toNat := by
  have hpos : 0 < rem.toNat := Nat.pos_of_ne_zero fun h => hrem (BitVec.eq_of_toNat_eq h)
  split
  · exact ⟨hpos, le_rfl⟩
  · exact ⟨by decide, BitVec.not_lt.1 ‹_›⟩

lemma readChunk_disk {gpa : U64} {chunk : U32} {t : Transfer} {g : DiskRun} {Q : DiskRun → Option Transfer → Prop}
    (hin : t.off.toNat + chunk.toNat ≤ bk.limit)
    (hQ : Q { g with mem := store g.mem gpa (bytesAt g.image t.off.toNat chunk.toNat)
                     io := g.io ++ [.pread t.off chunk.toNat] } (some { t with usedLen := t.usedLen + chunk })) :
    (readChunk gpa chunk t).Meets (diskProtocol bk) g Q := by
  rw [readChunk, meets_monad_bind]
  refine disk_pread hin ?_
  dsimp only
  rw [meets_monad_bind]
  refine disk_writeBlk ((meets_ret _).2 ?_)
  rw [readBuf_eq length_bytesAt]
  exact hQ

lemma writeChunk_disk {gpa : U64} {chunk : U32} {t : Transfer} {g : DiskRun} {Q : DiskRun → Option Transfer → Prop}
    (hro : bk.ro = false) (hin : t.off.toNat + chunk.toNat ≤ bk.limit)
    (hQ : Q { g with image := copyBytes g.image t.off.toNat (load g.mem gpa chunk.toNat)
                     io := g.io ++ [.pwrite t.off (load g.mem gpa chunk.toNat)] } (some t)) :
    (writeChunk gpa chunk t).Meets (diskProtocol bk) g Q := by
  rw [writeChunk, meets_monad_bind]
  refine disk_readBlk ?_
  rw [meets_monad_bind]
  refine disk_pwrite hro (by rwa [length_load]) ((meets_ret _).2 ?_)
  rw [length_load, if_pos rfl]
  exact hQ

/-- What moving `n` bytes between an address and an offset of the image does to a run: it
can be done in parts. -/
structure Moving (F : DiskRun → (gpa : U64) → (off n : ℕ) → DiskRun → Prop) : Prop where
  none : ∀ g gpa off, F g gpa off 0 g
  parts : ∀ {g g' g'' gpa off n k}, n + k < 2 ^ 32 → F g gpa off n g' →
    F g' (gpa + BitVec.ofNat 64 n) (off + n) k g'' → F g gpa off (n + k) g''

/-- A chunk moves its bytes and leaves offset and status of the transfer to the loop. -/
def ChunkMoves (bk : Blk) (F : DiskRun → U64 → ℕ → ℕ → DiskRun → Prop)
    (step : U64 → U32 → Transfer → BlkProg (Option Transfer)) : Prop :=
  ∀ {gpa chunk t g Q}, t.off.toNat + chunk.toNat ≤ bk.limit →
    (∀ g' u, F g gpa t.off.toNat chunk.toNat g' → Q g' (some { t with usedLen := u })) →
    (step gpa chunk t).Meets (diskProtocol bk) g Q

section Loops
variable {F : DiskRun → (gpa : U64) → (off n : ℕ) → DiskRun → Prop}
  {step : U64 → U32 → Transfer → BlkProg (Option Transfer)} (hF : Moving F) (hstep : ChunkMoves bk F step)
include hF hstep

lemma blkChunks_disk (hlimit : bk.limit < 2 ^ 64) (k : ℕ) (gpa : U64) (rem : U32) (t : Transfer) (g : DiskRun)
    {Q : DiskRun → Bool × Transfer → Prop} (hk : rem.toNat ≤ k) (hin : t.off.toNat + rem.toNat ≤ bk.limit)
    (hQ : ∀ g' u, F g gpa t.off.toNat rem.toNat g' → Q g' (false, ⟨t.off + rem.setWidth 64, u, t.status⟩)) :
    (blkChunks step k gpa rem t).Meets (diskProtocol bk) g Q := by
  have hnone {gpa : U64} {t : Transfer} {g : DiskRun} (hQ : ∀ g' u, F g gpa t.off.toNat (0 : U32).toNat g' →
      Q g' (false, ⟨t.off + (0 : U32).setWidth 64, u, t.status⟩)) : Q g (false, t) := by
    simpa using hQ g t.usedLen (hF.none g gpa _)
  induction k generalizing gpa rem t g with
  | zero =>
    obtain rfl : rem = 0 := BitVec.eq_of_toNat_eq (by simpa using hk)
    exact (meets_ret _).2 (hnone hQ)
  | succ k ih =>
    unfold blkChunks
    split
    · rename_i hrem
      subst hrem
      exact (meets_ret _).2 (hnone hQ)
    · rename_i hrem
      obtain ⟨hpos, hle⟩ := chunk_bounds hrem
      generalize (if rem < blkChunkMax then rem else blkChunkMax) = chunk at hpos hle
      have hrest : (rem - chunk).toNat = rem.toNat - chunk.toNat := BitVec.toNat_sub_of_le hle
      have hoff : (t.off + chunk.setWidth 64).toNat = t.off.toNat + chunk.toNat := by
        rw [BitVec.toNat_add, BitVec.toNat_setWidth]
        have := chunk.isLt
        omega
      dsimp only
      rw [meets_monad_bind]
      refine hstep (by omega) fun g' u hg' => ?_
      refine ih _ _ _ _ (by omega) (by dsimp only; omega) fun g'' u' hg'' => ?_
      have hmoved : F g gpa t.off.toNat (chunk.toNat + (rem.toNat - chunk.toNat)) g'' := by
        refine hF.parts (by have := rem.isLt; omega) hg' ?_
        rw [← hrest, ← hoff]
        convert hg'' using 2
        exact BitVec.eq_of_toNat_eq (by simp)
      rw [Nat.add_sub_cancel' hle] at hmoved
      have hsplit : chunk.setWidth 64 + (rem - chunk).setWidth 64 = (rem.setWidth 64 : U64) := by
        apply BitVec.eq_of_toNat_eq
        rw [BitVec.toNat_add, BitVec.toNat_setWidth, BitVec.toNat_setWidth, BitVec.toNat_setWidth, hrest]
        have := rem.isLt
        omega
      rw [BitVec.add_assoc, hsplit]
      exact hQ g'' u' hmoved

def movedAll (F : DiskRun → U64 → ℕ → ℕ → DiskRun → Prop) : List Desc → DiskRun → ℕ → DiskRun → Prop
  | [], g, _, g' => g' = g
  | d :: ds, g, off, g' => ∃ g₁, F g d.addr off d.len.toNat g₁ ∧ movedAll F ds g₁ (off + d.len.toNat) g'

lemma blkData_disk (hlimit : bk.limit < 2 ^ 64) (data : List Desc) (t : Transfer) (g : DiskRun)
    {Q : DiskRun → Transfer → Prop} (hin : t.off.toNat + dataLen data ≤ bk.limit)
    (hQ : ∀ g' off u, movedAll F data g t.off.toNat g' → Q g' ⟨off, u, t.status⟩) :
    (blkData step data t).Meets (diskProtocol bk) g Q := by
  induction data generalizing t g with
  | nil => exact (meets_ret _).2 (hQ g t.off t.usedLen rfl)
  | cons d data ih =>
    rw [dataLen_cons] at hin
    rw [blkData, meets_monad_bind]
    refine blkChunks_disk hF hstep hlimit _ _ _ _ _ le_rfl (by omega) fun g₁ u hg₁ => ?_
    have hoff : (t.off + d.len.setWidth 64).toNat = t.off.toNat + d.len.toNat := by
      rw [BitVec.toNat_add, BitVec.toNat_setWidth]
      have := d.len.isLt
      omega
    refine ih _ _ ?_ fun g' off u' hg' => hQ g' off u' ⟨g₁, hg₁, ?_⟩
    · rw [hoff]
      omega
    · rwa [hoff] at hg'

end Loops

def readsTo (g : DiskRun) (gpa : U64) (off n : ℕ) (g' : DiskRun) : Prop :=
  g'.descs = g.descs ∧ g'.image = g.image ∧ g'.mem = store g.mem gpa (bytesAt g.image off n)

def writesFrom (g : DiskRun) (gpa : U64) (off n : ℕ) (g' : DiskRun) : Prop :=
  g'.descs = g.descs ∧ g'.image = copyBytes g.image off (load g.mem gpa n) ∧ g'.mem = g.mem

lemma moving_readsTo : Moving readsTo where
  none g gpa off := ⟨rfl, rfl, by simp [bytesAt]⟩
  parts {g g' g'' gpa off n k} hlt := by
    rintro ⟨hd, hi, hm⟩ ⟨hd', hi', hm'⟩
    refine ⟨hd'.trans hd, hi'.trans hi, ?_⟩
    rw [hm', hm, hi, bytesAt_add, store_append, length_bytesAt]
    rw [length_bytesAt, length_bytesAt]
    omega

lemma moving_writesFrom : Moving writesFrom where
  none g gpa off := ⟨rfl, by simp, rfl⟩
  parts {g g' g'' gpa off n k} _ := by
    rintro ⟨hd, hi, hm⟩ ⟨hd', hi', hm'⟩
    refine ⟨hd'.trans hd, ?_, hm'.trans hm⟩
    rw [hi', hi, hm, load_add, copyBytes_append, length_load]

lemma chunkMoves_readChunk : ChunkMoves bk readsTo readChunk :=
  fun hin hQ => readChunk_disk hin (hQ _ _ ⟨rfl, rfl, rfl⟩)

lemma chunkMoves_writeChunk (hro : bk.ro = false) : ChunkMoves bk writesFrom writeChunk :=
  fun hin hQ => writeChunk_disk hro hin (hQ _ _ ⟨rfl, rfl, rfl⟩)

lemma movedAll_readsTo {data : List Desc} {g g' : DiskRun} {off : ℕ} (h : movedAll readsTo data g off g') :
    g'.descs = g.descs ∧ g'.image = g.image ∧
      g'.mem = scatter g.mem (places data) (bytesAt g.image off (dataLen data)) := by
  induction data generalizing g off with
  | nil => exact ⟨by rw [h], by rw [h], by rw [h]; rfl⟩
  | cons d data ih =>
    obtain ⟨g₁, ⟨hd, hi, hm⟩, h⟩ := h
    obtain ⟨hd', hi', hm'⟩ := ih h
    refine ⟨hd'.trans hd, hi'.trans hi, ?_⟩
    rw [hm', hm, hi, dataLen_cons, bytesAt_add, places_cons, scatter, List.take_left' length_bytesAt,
      List.drop_left' length_bytesAt]

lemma movedAll_writesFrom {data : List Desc} {g g' : DiskRun} {off : ℕ} (h : movedAll writesFrom data g off g') :
    g'.descs = g.descs ∧ g'.image = copyBytes g.image off (gather g.mem (places data)) ∧ g'.mem = g.mem := by
  induction data generalizing g off with
  | nil => exact ⟨by rw [h], by rw [h]; simp [places, gather], by rw [h]⟩
  | cons d data ih =>
    obtain ⟨g₁, ⟨hd, hi, hm⟩, h⟩ := h
    obtain ⟨hd', hi', hm'⟩ := ih h
    refine ⟨hd'.trans hd, ?_, hm'.trans hm⟩
    rw [hi', hi, hm, places_cons, gather_cons, copyBytes_append, length_load]

end Chunks

section Range
variable {bk : Blk}

lemma toNat_dataTotal {data : List Desc} (h : data.length ≤ blkVirtqMax) : (dataTotal data).toNat = dataLen data := by
  have hbound : ∀ data : List Desc, dataLen data ≤ data.length * 2 ^ 32 := by
    intro data
    induction data with
    | nil => simp [dataLen]
    | cons d data ih =>
      have := d.len.isLt
      rw [dataLen_cons, List.length_cons]
      omega
  induction data with
  | nil => rfl
  | cons d data ih =>
    rw [List.length_cons] at h
    have hle := hbound data
    have hd := d.len.isLt
    have hsum : dataTotal (d :: data) = d.len.setWidth 64 + dataTotal data := rfl
    have h256 : data.length < 256 := h
    rw [hsum, BitVec.toNat_add, BitVec.toNat_setWidth, ih (by omega), dataLen_cons]
    omega

lemma outside_iff {data : List Desc} (sector : U64) (hlimit : bk.limit < 2 ^ 64) (h : data.length ≤ blkVirtqMax) :
    bk.capacity < sector ∨ (bk.capacity - sector) * zext sectorSize < dataTotal data ↔
      bk.limit < sector.toNat * sectorSize + dataLen data := by
  unfold Blk.limit sectorSize at *
  by_cases hle : bk.capacity < sector
  · have hlt : bk.capacity.toNat < sector.toNat := hle
    simp only [hle, true_or, true_iff]
    omega
  · have hle' : sector.toNat ≤ bk.capacity.toNat := BitVec.not_lt.1 hle
    have hroom : ((bk.capacity - sector) * zext 512).toNat = (bk.capacity.toNat - sector.toNat) * 512 := by
      rw [BitVec.toNat_mul, BitVec.toNat_sub_of_le (BitVec.not_lt.1 hle), show (zext 512 : U64).toNat = 512 from rfl]
      omega
    rw [or_iff_right hle, BitVec.lt_def, hroom, toNat_dataTotal h]
    omega

lemma blkTransfer_disk {F : DiskRun → U64 → ℕ → ℕ → DiskRun → Prop}
    {step : U64 → U32 → Transfer → BlkProg (Option Transfer)} (hF : Moving F) (hstep : ChunkMoves bk F step)
    (hlimit : bk.limit < 2 ^ 64) {sector : U64} {data : List Desc} {usedLen : U32} {g : DiskRun}
    {Q : DiskRun → Transfer → Prop} (h : data.length ≤ blkVirtqMax)
    (hout : bk.limit < sector.toNat * sectorSize + dataLen data →
      Q g ⟨sector * zext sectorSize, usedLen, .ioerr⟩)
    (hin : sector.toNat * sectorSize + dataLen data ≤ bk.limit → ∀ g' off u,
      movedAll F data g (sector.toNat * sectorSize) g' → Q g' ⟨off, u, .ok⟩) :
    (blkTransfer step sector data ⟨sector * zext sectorSize, usedLen, .ok⟩).Meets (diskProtocol bk) g Q := by
  rw [blkTransfer, meets_monad_bind]
  refine disk_getDev fun v hv => ?_
  rw [hv]
  split
  · rename_i hrange
    exact (meets_ret _).2 (hout ((outside_iff sector hlimit h).1 hrange))
  · rename_i hrange
    have hle := Nat.not_lt.1 fun hlt => hrange ((outside_iff sector hlimit h).2 hlt)
    have hoff : (sector * zext sectorSize).toNat = sector.toNat * sectorSize := by
      rw [BitVec.toNat_mul, show (zext sectorSize : U64).toNat = sectorSize from rfl]
      exact Nat.mod_eq_of_lt (by omega)
    exact blkData_disk hF hstep hlimit _ _ _ (by rwa [hoff]) (by rw [hoff]; exact hin hle)

end Range

section Requests
variable {bk : Blk}

/-- What is known of a run after a request has been served and before its status is
stored. -/
structure Serving (bk : Blk) (g : DiskRun) (type : U32) (sector : U64) (data : List Desc) (g' : DiskRun) (t : Transfer) :
    Prop where
  descs : g'.descs = g.descs
  read : type = 0 → sector.toNat * sectorSize + dataLen data ≤ bk.limit → t.status = .ok ∧ g'.image = g.image ∧
    g'.mem = scatter g.mem (places data) (bytesAt g.image (sector.toNat * sectorSize) (dataLen data))
  write : type = 1 → bk.ro = false → sector.toNat * sectorSize + dataLen data ≤ bk.limit → t.status = .ok ∧
    g'.image = copyBytes g.image (sector.toNat * sectorSize) (gather g.mem (places data)) ∧ g'.mem = g.mem
  refused : (type = 0 ∨ type = 1) → bk.limit < sector.toNat * sectorSize + dataLen data ∨ type = 1 ∧ bk.ro = true →
    t.status = .ioerr ∧ g' = g

lemma blkServe_disk (hlimit : bk.limit < 2 ^ 64) (type : U32) (sector : U64) (data : List Desc) (g : DiskRun)
    (h : data.length ≤ blkVirtqMax) :
    (blkServe (BlkType.ofCode type) sector data ⟨sector * zext sectorSize, 0, .ok⟩).Meets (diskProtocol bk) g
      (Serving bk g type sector data) := by
  rw [blkServe, meets_monad_bind]
  refine disk_getDev fun v hv => ?_
  by_cases h0 : type = 0
  · subst h0
    refine blkTransfer_disk moving_readsTo chunkMoves_readChunk hlimit h (fun hout => ?_) fun hin g' off u hg' => ?_
    · exact ⟨rfl, fun _ hin => absurd hin (by omega), fun h1 => absurd h1 (by decide), fun _ _ => ⟨rfl, rfl⟩⟩
    · obtain ⟨hd, hi, hm⟩ := movedAll_readsTo hg'
      refine ⟨hd, fun _ _ => ⟨rfl, hi, hm⟩, fun h1 => absurd h1 (by decide), fun _ hout => ?_⟩
      exact absurd hout (by rintro (hout | ⟨h1, -⟩) <;> [omega; exact absurd h1 (by decide)])
  by_cases h1 : type = 1
  · subst h1
    change (if v.back.ro = true then _ else _ : BlkProg Transfer).Meets _ _ _
    rw [hv]
    split
    · rename_i hro
      exact (meets_ret _).2 ⟨rfl, fun h0 => absurd h0 (by decide), fun _ hro' => absurd (hro.symm.trans hro') (by decide),
        fun _ _ => ⟨rfl, rfl⟩⟩
    · rename_i hro
      have hro := Bool.eq_false_of_not_eq_true hro
      refine blkTransfer_disk moving_writesFrom (chunkMoves_writeChunk hro) hlimit h (fun hout => ?_)
        fun hin g' off u hg' => ?_
      · exact ⟨rfl, fun h0 => absurd h0 (by decide), fun _ _ hin => absurd hin (by omega), fun _ _ => ⟨rfl, rfl⟩⟩
      · obtain ⟨hd, hi, hm⟩ := movedAll_writesFrom hg'
        refine ⟨hd, fun h0 => absurd h0 (by decide), fun _ _ _ => ⟨rfl, hi, hm⟩, fun _ hout => ?_⟩
        exact absurd hout (by rintro (hout | ⟨-, hro'⟩) <;> [omega; exact absurd (hro.symm.trans hro') (by decide)])
  -- the other types only have to leave the chain alone
  have hother {g' : DiskRun} {t : Transfer} (hd : g'.descs = g.descs) : Serving bk g type sector data g' t :=
    ⟨hd, fun h => absurd h h0, fun h => absurd h h1, fun h => absurd h (not_or.2 ⟨h0, h1⟩)⟩
  rw [BlkType.ofCode, if_neg h0, if_neg h1]
  by_cases h4 : type = 4
  · rw [if_pos h4]
    dsimp only
    rw [meets_monad_bind]
    exact (meets_ask _).2 ⟨trivial, fun _ _ => (meets_ret _).2 (hother rfl)⟩
  rw [if_neg h4]
  by_cases h8 : type = 8
  · rw [if_pos h8]
    cases data with
    | nil => exact (meets_ret _).2 (hother rfl)
    | cons d data =>
      dsimp only
      rw [meets_monad_bind]
      exact disk_writeBlk ((meets_ret _).2 (hother rfl))
  · rw [if_neg h8]
    exact (meets_ret _).2 (hother rfl)

lemma collect_disk (k n : ℕ) (idx : U32) (g : DiskRun) :
    (DevProg.collect 0 k n idx : BlkProg _).Meets (diskProtocol bk) g fun g' ds =>
      g' = { g with descs := g.descs ++ ds } ∧ ds.length ≤ k := by
  induction k generalizing n idx g with
  | zero => exact (meets_ret _).2 ⟨by simp, le_rfl⟩
  | succ k ih =>
    rw [DevProg.collect, meets_monad_bind]
    refine disk_getDev fun v _ => ?_
    split
    · exact (meets_ret _).2 ⟨by simp, Nat.zero_le _⟩
    rw [meets_monad_bind]
    refine disk_desc fun d => ?_
    split
    · rw [meets_monad_bind]
      refine (ih _ _ _).mono ?_
      rintro _ ds ⟨rfl, hlen⟩
      exact (meets_ret _).2 ⟨by simp [DiskRun.visit], Nat.succ_le_succ hlen⟩
    · exact (meets_ret _).2 ⟨rfl, Nat.succ_le_succ (Nat.zero_le _)⟩

lemma length_blkParts {ds data : List Desc} {hdr last : Desc} (h : blkParts ds = some (hdr, data, last)) :
    data.length ≤ ds.length := by
  unfold blkParts at h
  split at h
  · obtain ⟨rfl, rfl, rfl⟩ := h
    simp only [List.length_dropLast, List.length_cons]
    omega
  · cases h

lemma blkComplete_disk (hlimit : bk.limit < 2 ^ 64) (head : U32) (hdr last : Desc) (data : List Desc) (g : DiskRun)
    (hio : g.io = []) (h : data.length ≤ blkVirtqMax) :
    (blkComplete head hdr data last).Meets (diskProtocol bk) g fun g' _ => g'.descs = g.descs ∧
      Served bk g.mem g.image ((memLe g.mem hdr.addr 4).setWidth 32) (memLe g.mem (hdr.addr + 8) 8).toNat data last g' := by
  rw [blkComplete, meets_monad_bind]
  refine disk_read ?_
  rw [meets_monad_bind]
  refine disk_read ?_
  rw [meets_monad_bind]
  refine (blkServe_disk hlimit _ _ data g h).mono fun g' t hserve => ?_
  rw [meets_monad_bind]
  refine disk_write (disk_pushUsed ⟨hserve.descs, ?_⟩)
  have hstored {s : BlkStatus} (hs : t.status = s) : leBytes t.status.code 1 = [s.code.setWidth 8] := by
    rw [hs]
    simp [leBytes]
  constructor
  · intro h0 hin
    obtain ⟨hs, hi, hm⟩ := hserve.read h0 hin
    exact ⟨hi, by rw [hstored hs, hm]; rfl⟩
  · intro h1 hro hin
    obtain ⟨hs, hi, hm⟩ := hserve.write h1 hro hin
    exact ⟨hi, by rw [hstored hs, hm]; rfl⟩
  · intro htype hout
    obtain ⟨hs, rfl⟩ := hserve.refused htype (.inl hout)
    exact ⟨hio, rfl, by rw [hstored hs]; rfl⟩
  · intro h1 hro
    obtain ⟨hs, rfl⟩ := hserve.refused (.inr h1) (.inr ⟨h1, hro⟩)
    exact ⟨hio, rfl, by rw [hstored hs]; rfl⟩

end Requests

/-- A disk of `size` bytes serves the requests of every chain inside its whole sectors. -/
theorem disk_requests (index : ℕ) (size : U64) (ro : Bool) (head : U32) (mem : U64 → U8) (image : ℕ → U8) :
    (blkRequest head).Meets (diskProtocol ⟨index, size / 512, ro⟩) ⟨mem, image, [], []⟩ fun g _ =>
      match blkParts g.descs with
      | none => g.mem = mem ∧ g.image = image ∧ g.io = []
      | some (hdr, data, last) => Served ⟨index, size / 512, ro⟩ mem image ((memLe mem hdr.addr 4).setWidth 32)
          (memLe mem (hdr.addr + 8) 8).toNat data last g := by
  have hlimit : Blk.limit ⟨index, size / 512, ro⟩ < 2 ^ 64 := by
    have := size.isLt
    simp only [Blk.limit, sectorSize, BitVec.toNat_udiv, show (512 : U64).toNat = 512 from rfl]
    omega
  rw [blkRequest, meets_monad_bind]
  refine (collect_disk blkVirtqMax 0 head _).mono ?_
  rintro _ ds ⟨rfl, hlen⟩
  rw [List.nil_append]
  cases hparts : blkParts ds with
  | none => exact (meets_ret _).2 (by simp [hparts])
  | some parts =>
    obtain ⟨hdr, data, last⟩ := parts
    refine (blkComplete_disk hlimit head hdr last data _ rfl ((length_blkParts hparts).trans hlen)).mono ?_
    rintro g - ⟨hd, hserved⟩
    rw [hd, hparts]
    exact hserved

end Arm64Emu
