import Arm64Emu.PdDataProcessing
import Arm64Emu.PhysBounds

/-! What writes do to the NOR flash. A bank takes stores as commands or as data; the block
copy of the bus goes straight into the array. -/
namespace Arm64Emu

variable {D : Type} {P : Platform D} {b : Bus D}

def bankAt (i : ℕ) : Bool := decide (flashBank.toNat ≤ i)

def FlashProg.Programs (p : FlashProg) : Prop := p = .word ∨ p = .bufdata

instance (p : FlashProg) : Decidable p.Programs := inferInstanceAs (Decidable (_ ∨ _))

/-- What happens to a machine, as far as its flash can tell: `phys_write`, `phys_write_blk`,
and anything that leaves the flash alone. -/
inductive FlashEvent (D : Type)
  | store (pa : U64) (size : ℕ) (val : U64)
  | dma (pa : U64) (src : List U8)
  | elsewhere (b : Bus D)

namespace FlashEvent

def apply (P : Platform D) (b : Bus D) : FlashEvent D → Bus D
  | store pa size val => physWrite P b pa size val
  | dma pa src => physWriteBlk P b pa src
  | elsewhere b' => { b' with flash := b.flash, flashCfi := b.flashCfi }

def run (P : Platform D) (b : Bus D) (es : List (FlashEvent D)) : Bus D := es.foldl (apply P) b

/-- A write reaches the flash if the bus takes its bytes for flash; the lengths of stores
and of device transfers are 32-bit numbers. -/
def Reaches (P : Platform D) : FlashEvent D → Prop
  | store pa size _ => size < 2 ^ 32 ∧ hostPtr P pa (zext size) = some (.flash pa.toNat)
  | dma pa src => src.length < 2 ^ 32 ∧ hostPtr P pa (zext src.length) = some (.flash pa.toNat)
  | elsewhere _ => True

def addresses (bank : Bool) : FlashEvent D → Bool
  | store pa _ _ => bankAt pa.toNat == bank
  | dma pa _ => bankAt pa.toNat == bank
  | elsewhere _ => false

/-- The write confirms an erase of the block of byte `i`. -/
def Confirms (b : Bus D) (i : ℕ) : FlashEvent D → Prop
  | store pa _ val =>
    (b.flashCfi (bankAt pa.toNat)).prog = .erase ∧ val &&& 0xff = 0xd0 ∧
      i / flBlock.toNat = pa.toNat / flBlock.toNat
  | _ => False

/-- One event obeys the flash: bits rise in a block whose erase is confirmed, bits fall
in a program data phase, and only in a bank in such a phase does a byte change. -/
structure Lawful (P : Platform D) (b : Bus D) (e : FlashEvent D) : Prop where
  rise : ∀ i < flashSize.toNat, ∀ j, (b.flash i).getLsbD j = false → ((e.apply P b).flash i).getLsbD j = true →
    e.Confirms b i
  fall : ∀ i < flashSize.toNat, ∀ j, (b.flash i).getLsbD j = true → ((e.apply P b).flash i).getLsbD j = false →
    (b.flashCfi (bankAt i)).prog.Programs
  bank : ∀ i < flashSize.toNat, (e.apply P b).flash i ≠ b.flash i →
    (b.flashCfi (bankAt i)).prog.Programs ∨ (b.flashCfi (bankAt i)).prog = .erase

/-- Byte `i` may become `v` without a command: it already is, or its bank is programming
and `v` only clears bits. -/
def MayBecome (b : Bus D) (i : ℕ) (v : U8) : Prop :=
  v = b.flash i ∨ (b.flashCfi (bankAt i)).prog.Programs ∧ v &&& b.flash i = v

/-- The byte `k` places into a stored value. -/
def dataByte (val : U64) (k : ℕ) : U8 := (val >>> (8 * k)).setWidth 8

/-- A store that is taken as data reaches bytes of the other bank, and a block copy
reaches any byte, only where they may change. -/
def Tame (b : Bus D) : FlashEvent D → Prop
  | store pa size val =>
    (b.flashCfi (bankAt pa.toNat)).prog.Programs → ∀ k < size, bankAt (pa.toNat + k) ≠ bankAt pa.toNat →
      MayBecome b (pa.toNat + k) (b.flash (pa.toNat + k) &&& dataByte val k)
  | dma pa src => ∀ k, (h : k < src.length) → MayBecome b (pa.toNat + k) src[k]
  | elsewhere _ => True

end FlashEvent

open FlashEvent

section Array

lemma flashProgramBytes_apply (m : ℕ → U8) (p size : ℕ) (v : U64) (i : ℕ) :
    flashProgramBytes m p size v i =
      if p ≤ i ∧ i < p + size then m i &&& dataByte v (i - p) else m i := by
  induction size generalizing m p v with
  | zero => simp [flashProgramBytes, show ¬ (p ≤ i ∧ i < p) by omega]
  | succ size ih =>
    rw [flashProgramBytes, ih]
    by_cases hi : i = p
    · subst hi
      simp [dataByte, show ¬ (i + 1 ≤ i) by omega]
    · have hiff : (p + 1 ≤ i ∧ i < p + 1 + size) ↔ (p ≤ i ∧ i < p + (size + 1)) := by omega
      simp only [Function.update_of_ne hi, hiff]
      split
      · have hk : i - p = (i - (p + 1)) + 1 := by omega
        simp only [dataByte, hk, Nat.mul_add, Nat.mul_one, ← BitVec.shiftRight_add, Nat.add_comm 8]
      · rfl

lemma toNat_block (off : U64) :
    (off &&& ~~~(flBlock - 1)).toNat = off.toNat / flBlock.toNat * flBlock.toNat := by
  have hmask : flBlock - 1 = (BitVec.allOnes 18).setWidth 64 := by decide
  have hshift : off &&& ~~~(flBlock - 1) = off >>> 18 <<< 18 := by
    rw [hmask]
    ext j hj
    by_cases h : j < 18
    · simp only [BitVec.getElem_and, BitVec.getElem_not, BitVec.getElem_setWidth, BitVec.getLsbD_allOnes, h,
        BitVec.getElem_shiftLeft]
      simp
    · simp only [BitVec.getElem_and, BitVec.getElem_not, BitVec.getElem_setWidth, BitVec.getLsbD_allOnes, h,
        BitVec.getElem_shiftLeft, BitVec.getElem_ushiftRight]
      simp [show 18 + (j - 18) = j by omega, BitVec.getLsbD_eq_getElem hj]
  have hlt : off.toNat / 2 ^ 18 * 2 ^ 18 < 2 ^ 64 := by have := off.isLt; omega
  rw [hshift, BitVec.toNat_shiftLeft, BitVec.toNat_ushiftRight, Nat.shiftRight_eq_div_pow,
    Nat.shiftLeft_eq, Nat.mod_eq_of_lt hlt]
  rfl

lemma bank_eq_bankAt (off : U64) : decide (flashBank ≤ off) = bankAt off.toNat := by
  simp [bankAt, BitVec.le_def]

@[simp] lemma flash_setCfi (b : Bus D) (bank : Bool) (s : FlashCfi) : (setCfi b bank s).flash = b.flash := rfl

lemma flash_flashCfiWrite (b : Bus D) (off : U64) (size : ℕ) (val : U64) (i : ℕ) :
    (flashCfiWrite P b off size val).flash i =
      if (b.flashCfi (bankAt off.toNat)).prog.Programs then
        if off.toNat ≤ i ∧ i < off.toNat + size then b.flash i &&& dataByte val (i - off.toNat) else b.flash i
      else if (b.flashCfi (bankAt off.toNat)).prog = .erase ∧ val &&& 0xff = 0xd0 ∧
          i / flBlock.toNat = off.toNat / flBlock.toNat then 0xff
      else b.flash i := by
  have hdata : (flashProgram P b off size val).flash i =
      if off.toNat ≤ i ∧ i < off.toNat + size then b.flash i &&& dataByte val (i - off.toNat) else b.flash i :=
    flashProgramBytes_apply b.flash off.toNat size val i
  have hblock : off.toNat / flBlock.toNat * flBlock.toNat ≤ i ∧
      i < off.toNat / flBlock.toNat * flBlock.toNat + flBlock.toNat ↔
        i / flBlock.toNat = off.toNat / flBlock.toNat := by
    have h : flBlock.toNat = 0x40000 := rfl
    rw [h]
    omega
  unfold flashCfiWrite
  simp only [bank_eq_bankAt, toNat_block]
  cases (b.flashCfi (bankAt off.toNat)).prog with
  | word => exact hdata
  | bufdata => exact hdata
  | bufcnt => rfl
  | bufconf =>
    show Bus.flash (if _ then _ else _) i = b.flash i
    split <;> rfl
  | erase =>
    by_cases hc : val &&& 0xff = 0xd0
    · show Bus.flash (if _ then _ else _) i = if _ ∧ _ ∧ _ then _ else _
      rw [if_pos hc]
      simp only [flash_setCfi, hblock, hc, true_and]
    · show Bus.flash (if _ then _ else _) i = if _ ∧ _ ∧ _ then _ else _
      rw [if_neg hc, if_neg fun h => hc h.2.1]
  | none =>
    show Bus.flash (if _ then _ else _) i = b.flash i
    split_ifs <;> rfl

end Array

section Commands

def FlashCfi.next (s : FlashCfi) (off val : U64) : FlashCfi :=
  let cmd := val &&& 0xff
  match s.prog with
  | .word => { s with prog := .none, mode := .status }
  | .bufcnt =>
    { s with
      bufCnt := ((val &&& 0xffff) + 1).setWidth 32, bufSeen := 0
      bufBase := off.setWidth 32, prog := .bufdata }
  | .bufdata =>
    { s with bufSeen := s.bufSeen + 1, prog := if s.bufCnt ≤ s.bufSeen + 1 then .bufconf else .bufdata }
  | .bufconf => if cmd = 0xd0 then { s with prog := .none, mode := .status } else s
  | .erase => if cmd = 0xd0 then { s with status := 0x80, prog := .none, mode := .status } else s
  | .none =>
    if cmd = 0xff ∨ cmd = 0xf0 then { s with mode := .array }
    else if cmd = 0x70 then { s with mode := .status }
    else if cmd = 0x50 then { s with status := 0x80 }
    else if cmd = 0x90 then { s with mode := .id }
    else if cmd = 0x98 then { s with mode := .cfi }
    else if cmd = 0x10 ∨ cmd = 0x40 then { s with prog := .word, mode := .status }
    else if cmd = 0x20 then { s with prog := .erase, mode := .status }
    else if cmd = 0xe8 then { s with prog := .bufcnt, mode := .status }
    else s

lemma flashCfi_flashCfiWrite (b : Bus D) (off : U64) (size : ℕ) (val : U64) :
    (flashCfiWrite P b off size val).flashCfi =
      Function.update b.flashCfi (bankAt off.toNat) ((b.flashCfi (bankAt off.toNat)).next off val) := by
  unfold flashCfiWrite FlashCfi.next
  simp only [bank_eq_bankAt]
  cases (b.flashCfi (bankAt off.toNat)).prog with
  | word | bufcnt | bufdata => rfl
  | bufconf =>
    show Bus.flashCfi (if _ then _ else _) = Function.update _ _ (if _ then _ else _)
    split
    · rfl
    · exact (Function.update_eq_self _ _).symm
  | erase =>
    show Bus.flashCfi (if _ then _ else _) = Function.update _ _ (if _ then _ else _)
    split
    · rfl
    · exact (Function.update_eq_self _ _).symm
  | none =>
    show Bus.flashCfi (if _ then _ else _) = Function.update _ _ (if _ then _ else _)
    split_ifs <;> first | rfl | exact (Function.update_eq_self _ _).symm

end Commands

section Reach

variable (hram : ramBase.toNat + P.ramSize.toNat < 2 ^ 64)
include hram

/-- A range that wraps around the address space passes for RAM before it passes for flash. -/
lemma inside_of_hostPtr_flash {pa : U64} {len : ℕ} (hlen : len < 2 ^ 32)
    (h : hostPtr P pa (zext len) = some (.flash pa.toNat)) :
    inRam P pa (zext len) = false ∧ inFlash pa (zext len) = true ∧ pa.toNat + len ≤ flashSize.toNat := by
  have hz : (zext len).toNat = len := zext_toNat (by omega)
  unfold hostPtr at h
  split_ifs at h with hr hf
  · cases h
  refine ⟨by simpa using hr, hf, ?_⟩
  simp only [inRam, inFlash, Bool.and_eq_true, decide_eq_true_eq, BitVec.le_def, BitVec.toNat_add, hz] at hr hf
  have hbase : ramBase.toNat = 0x40000000 := rfl
  have hflash : (flashBase.toNat + flashSize.toNat) % 2 ^ 64 = 0x08000000 := rfl
  have hsize : flashSize.toNat = 0x08000000 := rfl
  have hpa := pa.isLt
  rw [hflash] at hf
  rw [Nat.mod_eq_of_lt hram] at hr
  omega

end Reach

section Bytes

lemma mayBecome_iff {i : ℕ} {v : U8} :
    MayBecome b i v ↔ (∀ j, (b.flash i).getLsbD j = false → v.getLsbD j = false) ∧
      ∀ j, (b.flash i).getLsbD j = true → v.getLsbD j = false → (b.flashCfi (bankAt i)).prog.Programs := by
  constructor
  · rintro (rfl | ⟨hprog, hand⟩)
    · exact ⟨fun _ h => h, fun j h h' => absurd (h.symm.trans h') (by decide)⟩
    · refine ⟨fun j h => ?_, fun _ _ _ => hprog⟩
      rw [← hand, BitVec.getLsbD_and, h, Bool.and_false]
  · rintro ⟨hrise, hfall⟩
    have hand : v &&& b.flash i = v := by
      refine BitVec.eq_of_getLsbD_eq fun j _ => ?_
      rw [BitVec.getLsbD_and]
      cases hbit : (b.flash i).getLsbD j with
      | true => exact Bool.and_true _
      | false => rw [hrise j hbit, Bool.and_false]
    by_cases hv : v = b.flash i
    · exact .inl hv
    · -- the bit in which they differ has fallen
      obtain ⟨j, -, hj⟩ : ∃ j, j < 8 ∧ v.getLsbD j ≠ (b.flash i).getLsbD j := by
        by_contra hall
        push Not at hall
        exact hv (BitVec.eq_of_getLsbD_eq hall)
      cases hbit : (b.flash i).getLsbD j with
      | true => exact .inr ⟨hfall j hbit (by simpa [hbit] using hj), hand⟩
      | false => exact absurd ((hrise j hbit).trans hbit.symm) hj

lemma bankAt_of_block {i off : ℕ} (h : i / flBlock.toNat = off / flBlock.toNat) : bankAt i = bankAt off := by
  have hb : flBlock.toNat = 0x40000 := rfl
  have hf : flashBank.toNat = 0x04000000 := rfl
  rw [hb] at h
  rw [bankAt, bankAt, hf, decide_eq_decide]
  omega

lemma FlashEvent.Confirms.erase {e : FlashEvent D} {i : ℕ} (h : e.Confirms b i) :
    (b.flashCfi (bankAt i)).prog = .erase := by
  cases e with
  | store pa size val => exact (bankAt_of_block h.2.2) ▸ h.1
  | dma pa src => exact h.elim
  | elsewhere b' => exact h.elim

/-- An event is lawful exactly if each byte of the flash may become what it becomes, or is
in a block whose erase is confirmed and loses no bit. -/
lemma lawful_iff {e : FlashEvent D} :
    e.Lawful P b ↔ ∀ i < flashSize.toNat, MayBecome b i ((e.apply P b).flash i) ∨
      e.Confirms b i ∧ ∀ j, (b.flash i).getLsbD j = true → ((e.apply P b).flash i).getLsbD j = true := by
  constructor
  · intro h i hi
    by_cases hc : e.Confirms b i
    · refine .inr ⟨hc, fun j hj => ?_⟩
      by_contra hfell
      have hprog := h.fall i hi j hj (by simpa using hfell)
      rw [hc.erase] at hprog
      exact absurd hprog (by decide)
    · refine .inl (mayBecome_iff.2 ⟨fun j hj => ?_, h.fall i hi⟩)
      by_contra hrose
      exact hc (h.rise i hi j hj (by simpa using hrose))
  · intro h
    refine ⟨fun i hi j hj hj' => ?_, fun i hi j hj hj' => ?_, fun i hi hne => ?_⟩
    · rcases h i hi with hmay | hc
      · exact absurd ((mayBecome_iff.1 hmay).1 j hj) (by simp [hj'])
      · exact hc.1
    · rcases h i hi with hmay | hc
      · exact (mayBecome_iff.1 hmay).2 j hj hj'
      · exact absurd (hc.2 j hj) (by simp [hj'])
    · rcases h i hi with (heq | hprog) | hc
      · exact absurd heq hne
      · exact .inl hprog.1
      · exact .inr hc.1.erase

end Bytes

section Steps

variable (hram : ramBase.toNat + P.ramSize.toNat < 2 ^ 64)
include hram

lemma apply_store {pa : U64} {size : ℕ} {val : U64} (h : (store pa size val : FlashEvent D).Reaches P) :
    (store pa size val).apply P b = flashCfiWrite P { b with lastBusStatus := .ok } pa size val := by
  obtain ⟨hr, hf, -⟩ := inside_of_hostPtr_flash hram h.1 h.2
  have hsub : pa - flashBase = pa := BitVec.sub_zero pa
  simp only [FlashEvent.apply, physWrite, hr, hf, hsub, if_true, Bool.false_eq_true, if_false]

lemma flash_dma {pa : U64} {src : List U8} (h : (dma pa src : FlashEvent D).Reaches P) :
    ((dma pa src).apply P b).flash = copyBytes b.flash pa.toNat src := by
  obtain ⟨hr, hf, -⟩ := inside_of_hostPtr_flash hram h.1 h.2
  have hsub : pa - flashBase = pa := BitVec.sub_zero pa
  simp only [FlashEvent.apply, physWriteBlk, hr, hf, hsub, if_true, Bool.false_eq_true, if_false]

lemma flashCfi_dma {pa : U64} {src : List U8} (h : (dma pa src : FlashEvent D).Reaches P) :
    ((dma pa src).apply P b).flashCfi = b.flashCfi := by
  obtain ⟨hr, hf, -⟩ := inside_of_hostPtr_flash hram h.1 h.2
  simp only [FlashEvent.apply, physWriteBlk, hr, hf, if_true, Bool.false_eq_true, if_false]

lemma lawful_store_iff {pa : U64} {size : ℕ} {val : U64} (h : (store pa size val : FlashEvent D).Reaches P) :
    (store pa size val).Lawful P b ↔ (store pa size val : FlashEvent D).Tame b := by
  obtain ⟨-, -, hin⟩ := inside_of_hostPtr_flash hram h.1 h.2
  rw [lawful_iff, apply_store hram h]
  simp only [flash_flashCfiWrite]
  by_cases hprog : (b.flashCfi (bankAt pa.toNat)).prog.Programs
  · -- data: the byte changes in the range only, and there it only loses bits
    simp only [if_pos hprog]
    constructor
    · intro hall _ k hk _
      rcases hall (pa.toNat + k) (by omega) with hmay | ⟨hc, -⟩
      · simpa [hk] using hmay
      · rw [hc.1] at hprog
        exact absurd hprog (by decide)
    · intro htame i hi
      split
      · rename_i hrange
        left
        by_cases hbank : bankAt i = bankAt pa.toNat
        · refine .inr ⟨hbank ▸ hprog, ?_⟩
          rw [BitVec.and_assoc, BitVec.and_comm (dataByte val (i - pa.toNat)), ← BitVec.and_assoc, BitVec.and_self]
        · have hi' : pa.toNat + (i - pa.toNat) = i := by omega
          have := htame hprog (i - pa.toNat) (by omega) (by rwa [hi'])
          rwa [hi'] at this
      · exact .inl (.inl rfl)
  · simp only [if_neg hprog]
    refine iff_of_true (fun i _ => ?_) (fun hp => absurd hp hprog)
    split
    · rename_i hc
      refine .inr ⟨hc, fun j hj => ?_⟩
      have hj8 : j < 8 := BitVec.lt_of_getLsbD hj
      show (BitVec.allOnes 8).getLsbD j = true
      rw [BitVec.getLsbD_allOnes, decide_eq_true hj8]
    · exact .inl (.inl rfl)

lemma lawful_dma_iff {pa : U64} {src : List U8} (h : (dma pa src : FlashEvent D).Reaches P) :
    (dma pa src).Lawful P b ↔ (dma pa src : FlashEvent D).Tame b := by
  obtain ⟨-, -, hin⟩ := inside_of_hostPtr_flash hram h.1 h.2
  rw [lawful_iff, flash_dma hram h]
  constructor
  · intro hall k hk
    rcases hall (pa.toNat + k) (by omega) with hmay | ⟨hc, -⟩
    · simpa [copyBytes, hk] using hmay
    · exact hc.elim
  · intro htame i _
    left
    by_cases hrange : pa.toNat ≤ i ∧ i < pa.toNat + src.length
    · have hk : i - pa.toNat < src.length := by omega
      have hi' : pa.toNat + (i - pa.toNat) = i := by omega
      have := htame (i - pa.toNat) hk
      rw [hi'] at this
      simpa [copyBytes, hrange.1, hk] using this
    · left
      unfold copyBytes
      split
      · rw [List.getElem?_eq_none (by omega), Option.getD_none]
      · rfl

lemma lawful_iff_tame {e : FlashEvent D} (h : e.Reaches P) : e.Lawful P b ↔ e.Tame b := by
  cases e with
  | store pa size val => exact lawful_store_iff hram h
  | dma pa src => exact lawful_dma_iff hram h
  | elsewhere b' => exact iff_of_true (lawful_iff.2 fun _ _ => .inl (.inl rfl)) trivial

lemma flashCfi_apply_congr {e : FlashEvent D} (h : e.Reaches P) {bank : Bool} {b₁ b₂ : Bus D}
    (heq : b₁.flashCfi bank = b₂.flashCfi bank) :
    (e.apply P b₁).flashCfi bank = if e.addresses bank then (e.apply P b₂).flashCfi bank else b₂.flashCfi bank := by
  cases e with
  | store pa size val =>
    rw [apply_store hram h, apply_store hram h, flashCfi_flashCfiWrite, flashCfi_flashCfiWrite]
    by_cases hbank : bankAt pa.toNat = bank
    · simp [addresses, hbank, heq]
    · simp [addresses, hbank, heq, Function.update_of_ne (Ne.symm hbank)]
  | dma pa src => rw [flashCfi_dma hram h, flashCfi_dma hram h, ite_self, heq]
  | elsewhere b' => exact heq

lemma flashCfi_run_filter (bank : Bool) {es : List (FlashEvent D)} (h : ∀ e ∈ es, e.Reaches P) {b₁ b₂ : Bus D}
    (heq : b₁.flashCfi bank = b₂.flashCfi bank) :
    (run P b₁ es).flashCfi bank = (run P b₂ (es.filter (addresses bank))).flashCfi bank := by
  induction es generalizing b₁ b₂ with
  | nil => exact heq
  | cons e es ih =>
    have hstep := flashCfi_apply_congr hram (h e (by simp)) heq
    have htail : ∀ e' ∈ es, e'.Reaches P := fun e' he' => h e' (by simp [he'])
    by_cases ha : e.addresses bank
    · rw [List.filter_cons_of_pos ha]
      exact ih htail (by rw [hstep, if_pos ha])
    · rw [List.filter_cons_of_neg ha]
      exact ih htail (by rw [hstep, if_neg ha])

end Steps

/-- The flash keeps its law along a run: each event is lawful where it happens, and the
command state of each bank is what the writes addressed to that bank alone make it. -/
structure FlashLaw (P : Platform D) (b : Bus D) (es : List (FlashEvent D)) : Prop where
  lawful : ∀ pre e, pre ++ [e] <+: es → e.Lawful P (run P b pre)
  banks : ∀ bank, (run P b es).flashCfi bank = (run P b (es.filter (addresses bank))).flashCfi bank

theorem flash_law_iff_tame (hram : ramBase.toNat + P.ramSize.toNat < 2 ^ 64) (b : Bus D) {es : List (FlashEvent D)}
    (hes : ∀ e ∈ es, e.Reaches P) :
    FlashLaw P b es ↔ ∀ pre e, pre ++ [e] <+: es → e.Tame (run P b pre) := by
  have hreach : ∀ pre e, pre ++ [e] <+: es → e.Reaches P := fun pre e h => hes e (h.subset (by simp))
  constructor
  · intro h pre e hpre
    exact (lawful_iff_tame hram (hreach pre e hpre)).1 (h.lawful pre e hpre)
  · intro h
    refine ⟨fun pre e hpre => ?_, fun bank => flashCfi_run_filter hram bank hes rfl⟩
    exact (lawful_iff_tame hram (hreach pre e hpre)).2 (h pre e hpre)

def wordProgram : List (FlashEvent Unit) := [.store 0x03ffffff 1 0x40, .store 0x03ffffff 1 0x0f]

theorem flash_law_word_program :
    (∀ e ∈ wordProgram, e.Reaches (Platform.bare 0x400000)) ∧
      (FlashLaw (Platform.bare 0x400000) (.powerOn (fun _ => 0) (fun _ => 0xff) ()) wordProgram ↔
        ∀ pre e, pre ++ [e] <+: wordProgram →
          e.Tame (run (Platform.bare 0x400000) (.powerOn (fun _ => 0) (fun _ => 0xff) ()) pre)) := by
  have hreach : ∀ e ∈ wordProgram, e.Reaches (Platform.bare 0x400000) := by
    simp only [wordProgram, List.forall_mem_cons, FlashEvent.Reaches]
    exact ⟨by decide, by decide, by simp⟩
  exact ⟨hreach, flash_law_iff_tame (by decide) _ hreach⟩

/-- A transfer of one byte by a device sets bits of a zeroed block of flash that no command
was ever sent to; a half-word stored as the data of a word program of the last byte of
bank 0 programs the first byte of bank 1 as well. -/
theorem transfer_and_crossing_store_break_flash :
    ¬ FlashLaw (Platform.bare 0x400000) (.powerOn (fun _ => 0) (fun _ => 0) ()) [.dma 0x1000 [0xff]] ∧
    ¬ FlashLaw (Platform.bare 0x400000) (.powerOn (fun _ => 0) (fun _ => 0xff) ())
      [.store 0x03ffffff 1 0x40, .store 0x03ffffff 2 0] := by
  constructor
  · intro h
    exact (h.lawful [] _ (List.prefix_refl _)).rise 0x1000 (by decide) 0 (by decide) (by decide)
  · intro h
    have hfall := (h.lawful [.store 0x03ffffff 1 0x40] _ (List.prefix_refl _)).fall 0x04000000 (by decide) 0
      (by decide +kernel) (by decide +kernel)
    exact absurd hfall (by decide +kernel)

end Arm64Emu
