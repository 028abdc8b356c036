import Arm64Emu.Words

/-! Marshalling of 9P messages (`virtio_9p.c`). A request is read through a cursor that
remembers having run past the end; a reply is built in a buffer that remembers having run
out of room. -/
namespace Arm64Emu

abbrev Bytes := List U8

abbrev Errno := U32

def eBADF : Errno := 9
def eACCES : Errno := 13
def eINVAL : Errno := 22
def eROFS : Errno := 30
def eNAMETOOLONG : Errno := 36
def eMSGSIZE : Errno := 90
def eOPNOTSUPP : Errno := 95

/-- The request cursor: the buffer (and the host memory after it), the bytes gathered, the
position and the sticky error. -/
structure Cur where
  b : ℕ → U8
  cap : ℕ
  pos : ℕ
  err : Bool

abbrev Parse (α : Type) := StateM Cur α

def cU8 : Parse U8 := fun c =>
  if c.cap < c.pos + 1 then (0, { c with err := true }) else (c.b c.pos, { c with pos := c.pos + 1 })

def cU16 : Parse U16 := do
  let lo ← cU8
  let hi ← cU8
  return hi ++ lo

def cU32 : Parse U32 := do
  let lo ← cU16
  let hi ← cU16
  return hi ++ lo

def cU64 : Parse U64 := do
  let lo ← cU32
  let hi ← cU32
  return hi ++ lo

/-- The `n` bytes of host memory from `p`. -/
def bytesAt (b : ℕ → U8) (p n : ℕ) : Bytes := (List.range n).map fun i => b (p + i)

lemma length_bytesAt {b : ℕ → U8} {p n : ℕ} : (bytesAt b p n).length = n := by simp [bytesAt]

lemma bytesAt_add (b : ℕ → U8) (p n k : ℕ) : bytesAt b p (n + k) = bytesAt b p n ++ bytesAt b (p + n) k := by
  simp only [bytesAt, List.range_add, List.map_append, List.map_map]
  congr 1
  exact List.map_congr_left fun i _ => congrArg b (Nat.add_assoc p n i).symm

lemma bytesAt_copyBytes {m : ℕ → U8} (p : ℕ) (src : List U8) : bytesAt (copyBytes m p src) p src.length = src := by
  refine List.ext_getElem length_bytesAt fun i _ hi => ?_
  simp [bytesAt, copyBytes, hi]

lemma bytesAt_drop_take (b : ℕ → U8) (n off k : ℕ) :
    ((bytesAt b 0 n).drop off).take k = bytesAt b off (min k (n - off)) := by
  refine List.ext_getElem ?_ fun i hi _ => ?_
  · simp only [List.length_take, List.length_drop, length_bytesAt]
  · simp [bytesAt]

def cRaw : Parse Bytes := do
  let len ← cU16
  fun c =>
    if c.err then ([], c)
    else if c.cap < c.pos + len.toNat then ([], { c with err := true })
    else (bytesAt c.b c.pos len.toNat, { c with pos := c.pos + len.toNat })

abbrev CStr := { s : Bytes // (0 : U8) ∉ s }

lemma zero_notMem_takeWhile (s : Bytes) : (0 : U8) ∉ s.takeWhile (· ≠ 0) := by
  intro h
  simpa using List.mem_takeWhile_imp h

/-- The C string that a copy of at most `size - 1` bytes leaves in a buffer. -/
def cName (size : ℕ) (raw : Bytes) : CStr := ⟨(raw.take (size - 1)).takeWhile (· ≠ 0), zero_notMem_takeWhile _⟩

/-- A string field as the handlers see it: cut to the buffer, and ended by a NUL. -/
def cStr (size : ℕ) : Parse CStr := do
  let raw ← cRaw
  return cName size raw

def leWord (v : U32) : Bytes :=
  [v.setWidth 8, (v >>> 8).setWidth 8, (v >>> 16).setWidth 8, (v >>> 24).setWidth 8]

@[simp] lemma length_leWord (v : U32) : (leWord v).length = 4 := rfl

section Halves

lemma append_halves {n m : ℕ} (v : BitVec (n + m)) : (v >>> m).setWidth n ++ v.setWidth m = v := by
  apply BitVec.eq_of_getLsbD_eq
  intro i hi
  rw [BitVec.getLsbD_append]
  split
  · rename_i h
    rw [BitVec.getLsbD_setWidth]
    simp [h]
  · rename_i h
    have hi' : m + (i - m) = i := by omega
    have hn : i - m < n := by omega
    rw [BitVec.getLsbD_setWidth, BitVec.getLsbD_ushiftRight, hi']
    simp [hn]

lemma setWidth_shift_setWidth {w a b k : ℕ} (v : BitVec w) (h : k + b ≤ a) :
    ((v.setWidth a) >>> k).setWidth b = (v >>> k).setWidth b := by
  apply BitVec.eq_of_getLsbD_eq
  intro i hi
  have hk : k + i < a := by omega
  simp [BitVec.getLsbD_setWidth, BitVec.getLsbD_ushiftRight, hk]

end Halves

/-- The cursor has passed over `n` bytes of the same message, unless it has run past the
end. -/
structure Cur.Reads (n : ℕ) (c c' : Cur) : Prop where
  b_eq : c'.b = c.b
  cap_eq : c'.cap = c.cap
  le : c.pos ≤ c.cap → c'.pos ≤ c'.cap
  pos_eq : c'.err = false → c.err = false ∧ c'.pos = c.pos + n

namespace Cur.Reads

variable {n m : ℕ} {c c' c'' : Cur}

lemma trans (h : Reads n c c') (h' : Reads m c' c'') : Reads (n + m) c c'' where
  b_eq := h'.b_eq.trans h.b_eq
  cap_eq := h'.cap_eq.trans h.cap_eq
  le := fun hc => h'.le (h.le hc)
  pos_eq := fun he => by
    obtain ⟨he', hp'⟩ := h'.pos_eq he
    obtain ⟨he, hp⟩ := h.pos_eq he'
    exact ⟨he, by omega⟩

end Cur.Reads

lemma cU8_reads (c : Cur) : c.Reads 1 (cU8 c).2 := by
  unfold cU8
  split
  · exact ⟨rfl, rfl, fun h => h, fun h => by cases h⟩
  · exact ⟨rfl, rfl, fun _ => by dsimp only; omega, fun h => ⟨h, rfl⟩⟩

lemma cU16_reads (c : Cur) : c.Reads 2 (cU16 c).2 := (cU8_reads c).trans (cU8_reads _)

-- the fields of a message are read by name; nothing about handlers depends on how
attribute [irreducible] cU16

lemma cU32_reads (c : Cur) : c.Reads 4 (cU32 c).2 := (cU16_reads c).trans (cU16_reads _)

attribute [irreducible] cU32

lemma cU64_reads (c : Cur) : c.Reads 8 (cU64 c).2 := (cU32_reads c).trans (cU32_reads _)

attribute [irreducible] cU64 cRaw cStr

structure Out where
  bytes : Bytes
  cap : ℕ
  err : Bool

namespace Out

def u8 (o : Out) (v : U8) : Out :=
  if o.cap < o.bytes.length + 1 then { o with err := true } else { o with bytes := o.bytes ++ [v] }

def u16 (o : Out) (v : U16) : Out := (o.u8 (v.setWidth 8)).u8 ((v >>> 8).setWidth 8)

def u32 (o : Out) (v : U32) : Out := (o.u16 (v.setWidth 16)).u16 ((v >>> 16).setWidth 16)

def u64 (o : Out) (v : U64) : Out := (o.u32 (v.setWidth 32)).u32 ((v >>> 32).setWidth 32)

def str (o : Out) (s : Bytes) : Out :=
  let n := min s.length 0xffff
  let o := o.u16 (BitVec.ofNat 16 n)
  if o.cap < o.bytes.length + n then { o with err := true } else { o with bytes := o.bytes ++ s.take n }

def append (o : Out) (s : Bytes) : Out := { o with bytes := o.bytes ++ s }

/-- `patch_size` at a position of the buffer. -/
def patch (o : Out) (pos : ℕ) (sz : U32) : Out :=
  { o with bytes := o.bytes.take pos ++ leWord sz ++ o.bytes.drop (pos + 4) }

section Room
variable {o : Out}

@[simp] lemma err_append (s : Bytes) : (o.append s).err = o.err := rfl

end Room

end Out

def respBegin (type : U8) (tag : U16) (cap : ℕ) : Out := (((⟨[], cap, false⟩ : Out).u32 0).u8 type).u16 tag

def p9Rlerror : U8 := 7

/-- The error reply; it takes eleven bytes whatever room there is. -/
def mkLerror (tag : U16) (ec : Errno) (cap : ℕ) : Bytes :=
  let o := (respBegin p9Rlerror tag (max cap 11)).u32 ec
  (o.patch 0 (BitVec.ofNat 32 o.bytes.length)).bytes

def respFinish (o : Out) (tag : U16) (cap : ℕ) : Bytes :=
  if o.err then mkLerror tag eMSGSIZE cap else (o.patch 0 (BitVec.ofNat 32 o.bytes.length)).bytes

end Arm64Emu
