import Arm64Emu.LittleEndian
import Arm64Emu.Virtqueue

/-! The used ring in RAM. -/
namespace Arm64Emu

section Used
variable {D : Type} {P : Platform D} {b : Bus D} {pa : U64} {n : ℕ}

structure RingInRam (P : Platform D) (q : Virtq) : Prop where
  num_pos : 0 < q.num.toNat
  ram_lt : ramBase.toNat + P.ramSize.toNat < 2 ^ 64
  low : ramBase.toNat ≤ q.used.toNat
  high : q.used.toNat + 4 + 8 * q.num.toNat ≤ ramBase.toNat + P.ramSize.toNat

def usedIdx (q : Virtq) (b : Bus D) : U16 := (ldLe b.ram (q.used + 2 - ramBase).toNat 2).setWidth 16

/-- The element of a used ring in RAM at a position: identifier and length. -/
def usedElem (q : Virtq) (pos : ℕ) (b : Bus D) : U32 × U32 :=
  let e := (q.used + 4 + zext pos * 8 - ramBase).toNat
  ((ldLe b.ram e 4).setWidth 32, (ldLe b.ram (e + 4) 4).setWidth 32)

section Addresses
variable {q : Virtq} {pa : U64} {k : ℕ} (hring : RingInRam P q)
include hring

lemma RingInRam.inRam (hn : n ≤ 4) (hlow : q.used.toNat ≤ pa.toNat)
    (hhigh : pa.toNat + n ≤ q.used.toNat + 4 + 8 * q.num.toNat) : inRam P pa (zext n) = true := by
  have hram := hring.ram_lt
  have := hring.low
  have := hring.high
  rw [Arm64Emu.inRam, Bool.and_eq_true, decide_eq_true_iff, decide_eq_true_iff, BitVec.le_def, BitVec.le_def,
    BitVec.toNat_add, BitVec.toNat_add, zext, BitVec.toNat_ofNat]
  omega

lemma RingInRam.sub_toNat (hlow : q.used.toNat ≤ pa.toNat) : (pa - ramBase).toNat = pa.toNat - ramBase.toNat :=
  BitVec.toNat_sub_of_le (le_trans hring.low hlow)

lemma RingInRam.idx_toNat : (q.used + 2).toNat = q.used.toNat + 2 := by
  have hram := hring.ram_lt
  have := hring.high
  rw [BitVec.toNat_add, show (2 : U64).toNat = 2 from rfl]
  omega

lemma RingInRam.elem_toNat (hk : k < q.num.toNat) : (q.used + 4 + zext k * 8).toNat = q.used.toNat + 4 + 8 * k := by
  have hram := hring.ram_lt
  have := hring.high
  rw [BitVec.toNat_add, BitVec.toNat_add, BitVec.toNat_mul, zext, BitVec.toNat_ofNat, show (4 : U64).toNat = 4 from rfl,
    show (8 : U64).toNat = 8 from rfl]
  omega

lemma RingInRam.len_toNat (hk : k < q.num.toNat) : (q.used + 4 + zext k * 8 + 4).toNat = q.used.toNat + 8 + 8 * k := by
  have hram := hring.ram_lt
  have := hring.high
  rw [BitVec.toNat_add, hring.elem_toNat hk, show (4 : U64).toNat = 4 from rfl]
  omega

end Addresses

lemma pushUsed_eq {q : D → Virtq} (hring : RingInRam P (q b.dev)) {k : ℕ}
    (hk : (usedIdx (q b.dev) b).toNat % (q b.dev).num.toNat = k) (id len : U32) :
    pushUsed P (fun b => q b.dev) id len b = { b with
      ram := stLe (stLe (stLe b.ram ((q b.dev).used.toNat + 4 + 8 * k - ramBase.toNat) 4 (id.setWidth 64))
        ((q b.dev).used.toNat + 8 + 8 * k - ramBase.toNat) 4 (len.setWidth 64))
        ((q b.dev).used.toNat + 2 - ramBase.toNat) 2 ((usedIdx (q b.dev) b + 1).setWidth 64)
      lastBusStatus := .ok } := by
  have hpos := hring.num_pos
  have hlt : k < (q b.dev).num.toNat := hk ▸ Nat.mod_lt _ hpos
  have hidx := hring.idx_toNat
  have helem := hring.elem_toNat hlt
  have hlen := hring.len_toNat hlt
  have hread : (BitVec.setWidth 16 (ldLe b.ram ((q b.dev).used + 2 - ramBase).toNat 2) : U16) = usedIdx (q b.dev) b := rfl
  have hin : inRam P ((q b.dev).used + 2) (zext 2) = true := hring.inRam (by omega) (by omega) (by omega)
  have hin₁ : inRam P ((q b.dev).used + 4 + zext k * 8) (zext 4) = true := hring.inRam (by omega) (by omega) (by omega)
  have hin₂ : inRam P ((q b.dev).used + 4 + zext k * 8 + 4) (zext 4) = true := hring.inRam (by omega) (by omega) (by omega)
  simp only [pushUsed, physRead_ram hin, hread, hk, physWrite_ram hin₁, physWrite_ram hin₂, physWrite_ram hin]
  rw [hring.sub_toNat (by omega), hring.sub_toNat (by omega), hring.sub_toNat (by omega), hidx, helem, hlen]

theorem pushUsed_ram {q : D → Virtq} (hring : RingInRam P (q b.dev)) (id len : U32) :
    usedIdx (q b.dev) (pushUsed P (fun b => q b.dev) id len b) = usedIdx (q b.dev) b + 1 ∧
    usedElem (q b.dev) ((usedIdx (q b.dev) b).toNat % (q b.dev).num.toNat) (pushUsed P (fun b => q b.dev) id len b) =
      (id, len) ∧
    (pushUsed P (fun b => q b.dev) id len b).dev = b.dev := by
  obtain ⟨k, hk⟩ : ∃ k, (usedIdx (q b.dev) b).toNat % (q b.dev).num.toNat = k := ⟨_, rfl⟩
  have hlt : k < (q b.dev).num.toNat := hk ▸ Nat.mod_lt _ hring.num_pos
  have hidx := hring.idx_toNat
  have helem := hring.elem_toNat hlt
  have hlow := hring.low
  rw [pushUsed_eq hring hk, hk]
  refine ⟨?_, ?_, rfl⟩
  · rw [usedIdx, hring.sub_toNat (by omega), hidx, setWidth_ldLe_stLe (w := 16) rfl (by omega), BitVec.setWidth_setWidth_of_le _ (by omega),
      BitVec.setWidth_eq]
  · have hnext : (q b.dev).used.toNat + 4 + 8 * k - ramBase.toNat + 4 = (q b.dev).used.toNat + 8 + 8 * k - ramBase.toNat := by
      omega
    rw [usedElem]
    dsimp only
    rw [hring.sub_toNat (by omega), helem, hnext, ldLe_stLe_of_disjoint (by omega), ldLe_stLe_of_disjoint (by omega),
      setWidth_ldLe_stLe (w := 32) rfl (by omega), ldLe_stLe_of_disjoint (by omega),
      setWidth_ldLe_stLe (w := 32) rfl (by omega), BitVec.setWidth_setWidth_of_le _ (by omega),
      BitVec.setWidth_setWidth_of_le _ (by omega), BitVec.setWidth_eq, BitVec.setWidth_eq]

theorem pushUsed_frame {q : D → Virtq} (hring : RingInRam P (q b.dev)) (id len : U32) {j : ℕ}
    (hj : j < (q b.dev).used.toNat - ramBase.toNat ∨
      (q b.dev).used.toNat - ramBase.toNat + 4 + 8 * (q b.dev).num.toNat ≤ j) :
    (pushUsed P (fun b => q b.dev) id len b).ram j = b.ram j := by
  obtain ⟨k, hk⟩ : ∃ k, (usedIdx (q b.dev) b).toNat % (q b.dev).num.toNat = k := ⟨_, rfl⟩
  have hlt : k < (q b.dev).num.toNat := hk ▸ Nat.mod_lt _ hring.num_pos
  have hlow := hring.low
  have hout {p n : ℕ} (h : j < p ∨ p + n ≤ j) : j ∉ (List.range n).map (p + ·) := by
    intro hmem
    obtain ⟨i, hi, rfl⟩ := List.mem_map.1 hmem
    rw [List.mem_range] at hi
    omega
  rw [pushUsed_eq hring hk]
  dsimp only
  rw [stLe_of_notMem (hout (by omega)), stLe_of_notMem (hout (by omega)), stLe_of_notMem (hout (by omega))]

end Used
end Arm64Emu
