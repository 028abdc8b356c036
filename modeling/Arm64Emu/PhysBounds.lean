import Arm64Emu.CpuStep

/-! The host memory behind a physical access. The bus compares 64-bit sums, so a range
that wraps around the address space can pass for RAM or flash; every other range lies
inside. -/
namespace Arm64Emu

variable {D : Type}

/-- The host memory that the bus uses for `len` bytes at `pa`. -/
def hostPtr (P : Platform D) (pa len : U64) : Option HostPage :=
  if inRam P pa len then some (.ram (pa - ramBase).toNat)
  else if inFlash pa len then some (.flash (pa - flashBase).toNat)
  else none

namespace HostPage

/-- The `n` bytes from here lie inside guest RAM or flash. -/
def Inside (P : Platform D) (n : ℕ) : HostPage → Prop
  | ram off => off + n ≤ P.ramSize.toNat
  | flash off => off + n ≤ flashSize.toNat

instance (P : Platform D) (n : ℕ) (h : HostPage) : Decidable (h.Inside P n) := by
  cases h
  · exact inferInstanceAs (Decidable (_ ≤ _))
  · exact inferInstanceAs (Decidable (_ ≤ _))

/-- `n` bytes from here, as a value; a flash bank that is not in read-array mode answers
for itself. -/
def load (b : Bus D) (n : ℕ) : HostPage → U64
  | ram off => ldLe b.ram off n
  | flash off => (flashCfiRead b (zext off) n).getD (ldLe b.flash off n)

/-- `n` bytes of a value stored here; flash takes it as a command or as data. -/
def store (P : Platform D) (b : Bus D) (n : ℕ) (v : U64) : HostPage → Bus D
  | ram off => { b with ram := stLe b.ram off n v }
  | flash off => flashCfiWrite P b (zext off) n v

def loadBytes (b : Bus D) (n : ℕ) : HostPage → List U8
  | ram off => (List.range n).map fun i => b.ram (off + i)
  | flash off => (List.range n).map fun i => b.flash (off + i)

def storeBytes (b : Bus D) (src : List U8) : HostPage → Bus D
  | ram off => { b with ram := copyBytes b.ram off src }
  | flash off => { b with flash := copyBytes b.flash off src }

end HostPage

def mmioRead (P : Platform D) (b : Bus D) (pa : U64) (size : ℕ) : U64 × Bus D :=
  match findDev P pa with
  | some ⟨base, _, some read, _⟩ => read b (pa - base) size
  | _ => (0, { b with lastBusStatus := .fault })

def mmioWrite (P : Platform D) (b : Bus D) (pa : U64) (size : ℕ) (value : U64) : Bus D :=
  match findDev P pa with
  | some ⟨base, _, _, some write⟩ => write b (pa - base) size value
  | _ => { b with lastBusStatus := .fault }

/-- What the six functions of the bus do with the `len` bytes at `pa` when `host` is their
host memory: with none they go to a device, or byte by byte through the bus. -/
structure BusUses (P : Platform D) (b : Bus D) (pa len : U64) (host : Option HostPage) : Prop where
  read : physRead P b pa len.toNat =
    host.elim (mmioRead P { b with lastBusStatus := .ok } pa len.toNat)
      fun h => (h.load { b with lastBusStatus := .ok } len.toNat, { b with lastBusStatus := .ok })
  write (v : U64) : physWrite P b pa len.toNat v =
    host.elim (mmioWrite P { b with lastBusStatus := .ok } pa len.toNat v)
      (HostPage.store P { b with lastBusStatus := .ok } len.toNat v)
  readBlk : physReadBlk P b pa len.toNat =
    host.elim (physReadBytes P b pa len.toNat) fun h => (h.loadBytes b len.toNat, b)
  writeBlk (src : List U8) (hsrc : src.length = len.toNat) : physWriteBlk P b pa src =
    host.elim ((src.zipIdx).foldl (fun b s => physWrite P b (pa + zext s.2) 1 (s.1.setWidth 64))
        { b with dev := P.jitInvalidate b.dev pa len })
      (HostPage.storeBytes { b with dev := P.jitInvalidate b.dev pa len } src)
  ramPtr (off : ℕ) : ramPtr P pa len = some off ↔ host = some (.ram off)
  page : len = 0x1000 → hostPagePtr P pa = host

section Uses
variable {P : Platform D} {pa len : U64}

lemma zext_of_toNat (a : U64) : zext a.toNat = a := by
  rw [zext, BitVec.ofNat_toNat, BitVec.setWidth_eq]

lemma busUses_ram (b : Bus D) (hram : inRam P pa len = true) :
    BusUses P b pa len (some (.ram (pa - ramBase).toNat)) where
  read := by simp only [physRead, zext_of_toNat, hram, if_true, Option.elim_some, HostPage.load]
  write v := by simp only [physWrite, zext_of_toNat, hram, if_true, Option.elim_some, HostPage.store]
  readBlk := by simp only [physReadBlk, zext_of_toNat, hram, if_true, Option.elim_some, HostPage.loadBytes]
  writeBlk src hsrc := by
    simp only [physWriteBlk, hsrc, zext_of_toNat, hram, if_true, Option.elim_some, HostPage.storeBytes]
  ramPtr off := by simp [Arm64Emu.ramPtr, hram]
  page hlen := if_pos (hlen ▸ hram)

lemma busUses_flash (b : Bus D) (hram : ¬ inRam P pa len = true) (hflash : inFlash pa len = true) :
    BusUses P b pa len (some (.flash (pa - flashBase).toNat)) where
  read := by
    simp only [physRead, zext_of_toNat, if_neg hram, if_pos hflash, Option.elim_some, HostPage.load]
    cases flashCfiRead { b with lastBusStatus := .ok } (pa - flashBase) len.toNat <;> rfl
  write v := by
    simp only [physWrite, zext_of_toNat, if_neg hram, if_pos hflash, Option.elim_some, HostPage.store]
  readBlk := by
    simp only [physReadBlk, zext_of_toNat, if_neg hram, if_pos hflash, Option.elim_some, HostPage.loadBytes]
  writeBlk src hsrc := by
    simp only [physWriteBlk, hsrc, zext_of_toNat, if_neg hram, if_pos hflash, Option.elim_some, HostPage.storeBytes]
  ramPtr off := by simp [Arm64Emu.ramPtr, hram]
  page hlen := by
    subst hlen
    exact (if_neg hram).trans (if_pos hflash)

lemma busUses_none (b : Bus D) (hram : ¬ inRam P pa len = true) (hflash : ¬ inFlash pa len = true) :
    BusUses P b pa len none where
  read := by
    simp only [physRead, zext_of_toNat, if_neg hram, if_neg hflash, Option.elim_none]
    rfl
  write v := by
    simp only [physWrite, zext_of_toNat, if_neg hram, if_neg hflash, Option.elim_none]
    rfl
  readBlk := by simp only [physReadBlk, zext_of_toNat, if_neg hram, if_neg hflash, Option.elim_none]
  writeBlk src hsrc := by
    simp only [physWriteBlk, hsrc, zext_of_toNat, if_neg hram, if_neg hflash, Option.elim_none]
  ramPtr off := by simp [Arm64Emu.ramPtr, hram]
  page hlen := by
    subst hlen
    exact (if_neg hram).trans (if_neg hflash)

lemma busUses_hostPtr (b : Bus D) : BusUses P b pa len (hostPtr P pa len) := by
  unfold hostPtr
  split
  · exact busUses_ram b ‹_›
  · split
    · exact busUses_flash b ‹_› ‹_›
    · exact busUses_none b ‹_› ‹_›

/-- The range wraps around the address space and ends below the end of RAM or of flash. -/
def WrapsInto (P : Platform D) (pa len : U64) : Prop :=
  2 ^ 64 ≤ pa.toNat + len.toNat ∧
    (ramBase ≤ pa ∧ pa + len ≤ ramBase + P.ramSize ∨ pa + len ≤ flashBase + flashSize)

lemma hostPtr_cases {h : HostPage} (hp : hostPtr P pa len = some h) :
    (ramBase ≤ pa ∧ pa + len ≤ ramBase + P.ramSize ∧ h = .ram (pa - ramBase).toNat) ∨
      (pa + len ≤ flashBase + flashSize ∧ h = .flash (pa - flashBase).toNat) := by
  unfold hostPtr inRam inFlash at hp
  split_ifs at hp with hram hflash
  · cases hp
    have hr : ramBase ≤ pa ∧ pa + len ≤ ramBase + P.ramSize := by simpa using hram
    exact .inl ⟨hr.1, hr.2, rfl⟩
  · cases hp
    have hf : flashBase ≤ pa ∧ pa + len ≤ flashBase + flashSize := by simpa using hflash
    exact .inr ⟨hf.2, rfl⟩

lemma inside_of_lt {h : HostPage} (hlt : pa.toNat + len.toNat < 2 ^ 64) (hp : hostPtr P pa len = some h) :
    h.Inside P len.toNat := by
  have hsum : (pa + len).toNat = pa.toNat + len.toNat := by
    rw [BitVec.toNat_add, Nat.mod_eq_of_lt hlt]
  obtain ⟨hbase, hend, rfl⟩ | ⟨hend, rfl⟩ := hostPtr_cases hp
  · -- a sum of the RAM's base and size that wraps is below the base, and so admits nothing
    rw [BitVec.le_def] at hbase hend
    rw [hsum, BitVec.toNat_add] at hend
    have hoff : (pa - ramBase).toNat = pa.toNat - ramBase.toNat := BitVec.toNat_sub_of_le hbase
    show (pa - ramBase).toNat + len.toNat ≤ P.ramSize.toNat
    have hsize := P.ramSize.isLt
    have hb : ramBase.toNat = 0x40000000 := rfl
    omega
  · rw [BitVec.le_def, hsum] at hend
    have hoff : (pa - flashBase).toNat = pa.toNat := by simp [flashBase]
    show (pa - flashBase).toNat + len.toNat ≤ flashSize.toNat
    rw [hoff]
    exact hend

lemma hostPtr_isSome_of_wrapsInto (hw : WrapsInto P pa len) : ∃ h, hostPtr P pa len = some h := by
  obtain ⟨-, ⟨hbase, hend⟩ | hend⟩ := hw
  · exact ⟨_, if_pos (by simp [inRam, hbase, hend])⟩
  · unfold hostPtr
    split
    · exact ⟨_, rfl⟩
    · have hbase : flashBase ≤ pa := BitVec.le_def.2 (Nat.zero_le _)
      exact ⟨_, if_pos (by simp [inFlash, hbase, hend])⟩

end Uses

/-- A range that is taken for RAM or flash lies inside it and does not wrap, unless it
wraps around the address space to an end below that of RAM or of flash. -/
theorem physical_bounds (P : Platform D) (pa len : U64) :
    (∀ b, BusUses P b pa len (hostPtr P pa len)) ∧
      ((∀ h, hostPtr P pa len = some h → h.Inside P len.toNat ∧ pa.toNat + len.toNat < 2 ^ 64) ↔
        ¬ WrapsInto P pa len) := by
  refine ⟨busUses_hostPtr, fun hall hw => ?_, fun hw h hp => ?_⟩
  · obtain ⟨h, hp⟩ := hostPtr_isSome_of_wrapsInto hw
    exact absurd (hall h hp).2 (by have := hw.1; omega)
  · have hlt : pa.toNat + len.toNat < 2 ^ 64 := by
      by_contra hge
      refine hw ⟨by omega, ?_⟩
      obtain ⟨hbase, hend, -⟩ | ⟨hend, -⟩ := hostPtr_cases hp
      · exact .inl ⟨hbase, hend⟩
      · exact .inr hend
    exact ⟨inside_of_lt hlt hp, hlt⟩

/-- `movn x0, #0; ldrb w1, [x0]` with the MMU off: the byte at the top of the address
space is taken from host memory far beyond the 4 MiB of RAM. -/
theorem top_byte_outside_ram :
    hostPtr (Platform.bare 0x400000) 0xffffffffffffffff 1 = some (.ram 0xffffffffbfffffff) ∧
    ¬ (HostPage.ram 0xffffffffbfffffff).Inside (Platform.bare 0x400000) 1 ∧
    WrapsInto (Platform.bare 0x400000) 0xffffffffffffffff 1 ∧
    (bareSteps 1 [(0, [0x92800000, 0x39400001]), (0xffffffffbfffffff, [0xab])] 2).cpu.regX 1 = 0xab := by
  refine ⟨by decide, by decide, ⟨by decide, .inr (by decide)⟩, by decide +kernel⟩

end Arm64Emu
