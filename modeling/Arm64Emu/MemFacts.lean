import Arm64Emu.Mmu

/-! Page arithmetic and the data TLB's fast path: a 16-byte access is its two
8-byte halves, whichever path each of them takes. -/
namespace Arm64Emu

variable {D : Type}

lemma pageOff_eq_mod (va : U64) : pageOff va = va.toNat % 0x1000 := by
  rw [pageOff, BitVec.toNat_and]
  exact Nat.and_two_pow_sub_one_eq_mod _ 12

lemma pageOff_add {va : U64} {k : ℕ} (h : pageOff va + k < 0x1000) :
    pageOff (va + zext k) = pageOff va + k := by
  simp only [pageOff_eq_mod, zext, BitVec.toNat_add, BitVec.toNat_ofNat] at h ⊢
  omega

lemma ushiftRight_add {va : U64} {k : ℕ} (h : pageOff va + k < 0x1000) :
    (va + zext k) >>> 12 = va >>> 12 := by
  rw [pageOff_eq_mod] at h
  have := va.isLt
  apply BitVec.eq_of_toNat_eq
  simp only [zext, BitVec.toNat_ushiftRight, BitVec.toNat_add, BitVec.toNat_ofNat, Nat.shiftRight_eq_div_pow]
  omega

lemma tlbIdx_eq (va : U64) : tlbIdx va = (va >>> 12).setWidth 12 := by
  apply BitVec.eq_of_getLsbD_eq
  intro i hi
  simp [tlbIdx, hi]

lemma pageOf_eq (va : U64) : pageOf va = (va >>> 12) <<< 12 := by
  have hmask : ∀ i : Fin 64, (~~~(0xfff : U64)).getLsbD i = decide (12 ≤ i.val) := by decide
  apply BitVec.eq_of_getLsbD_eq
  intro i hi
  rw [pageOf, BitVec.getLsbD_and, hmask ⟨i, hi⟩]
  simp only [BitVec.getLsbD_shiftLeft, hi, BitVec.getLsbD_ushiftRight]
  by_cases h : 12 ≤ i
  · simp [h, show ¬ i < 12 by omega]
  · simp [h, show i < 12 by omega]

lemma pageOf_toNat (va : U64) : (pageOf va).toNat = va.toNat / 0x1000 * 0x1000 := by
  rw [pageOf_eq, BitVec.toNat_shiftLeft, BitVec.toNat_ushiftRight, Nat.shiftRight_eq_div_pow, Nat.shiftLeft_eq]
  have := va.isLt
  omega

lemma pageOf_eq_self {a : U64} : pageOf a = a ↔ a.toNat % 0x1000 = 0 := by
  rw [← BitVec.toNat_inj, pageOf_toNat]
  omega

lemma pageOf_pageOf (a : U64) : pageOf (pageOf a) = pageOf a := by
  rw [pageOf_eq_self, pageOf_toNat]
  omega

lemma pageOf_add_page (a : U64) (i : ℕ) : pageOf (pageOf a + (zext i <<< 12)) = pageOf a + (zext i <<< 12) := by
  rw [pageOf_eq_self, BitVec.toNat_add, BitVec.toNat_shiftLeft, pageOf_toNat, Nat.shiftLeft_eq]
  omega

lemma tlbIdx_add {va : U64} {k : ℕ} (h : pageOff va + k < 0x1000) : tlbIdx (va + zext k) = tlbIdx va := by
  rw [tlbIdx_eq, tlbIdx_eq, ushiftRight_add h]

lemma dtlbTag_add (c : Cpu) (b : Bus D) {va : U64} {k : ℕ} (h : pageOff va + k < 0x1000) :
    dtlbTag c b (va + zext k) = dtlbTag c b va := by
  rw [dtlbTag, dtlbTag, pageOf_eq, pageOf_eq, ushiftRight_add h]

section Access
variable (P : Platform D) (s : Machine D) (va : U64)

lemma memRead_hit {P : Platform D} {s : Machine D} {va : U64} {n : ℕ} (hn : pageOff va + n ≤ 0x1000)
    (ht : (s.bus.dtlb (tlbIdx va)).tag = dtlbTag s.cpu s.bus va) (hr : (s.bus.dtlb (tlbIdx va)).r = true) :
    memRead P s va n = (some (ldLe s.bus.ram ((s.bus.dtlb (tlbIdx va)).page + pageOff va) n), s) := by
  rw [memRead, if_neg (by omega), memReadPage, if_pos ⟨hn, ht, hr⟩]

lemma memWrite_hit {P : Platform D} {s : Machine D} {va : U64} {n : ℕ} {v : U64}
    (hn : pageOff va + n ≤ 0x1000) (ht : (s.bus.dtlb (tlbIdx va)).tag = dtlbTag s.cpu s.bus va) (hw : (s.bus.dtlb (tlbIdx va)).w = true) :
    memWrite P s va n v = (true, { s with bus := { s.bus with
      ram := stLe s.bus.ram ((s.bus.dtlb (tlbIdx va)).page + pageOff va) n v } }) := by
  rw [memWrite, if_neg (by omega), memWritePage, if_pos ⟨hn, ht, hw⟩]

lemma memRead128_eq : memRead128 P s va =
    match memRead P s va 8 with
    | (none, s) => (none, s)
    | (some lo, s) =>
      match memRead P s (va + 8) 8 with
      | (none, s) => (none, s)
      | (some hi, s) => (some ⟨lo, hi⟩, s) := by
  by_cases h : pageOff va ≤ 0xff0 ∧ (s.bus.dtlb (tlbIdx va)).tag = dtlbTag s.cpu s.bus va ∧ (s.bus.dtlb (tlbIdx va)).r = true
  · rw [memRead128, if_pos h]
    obtain ⟨hoff, ht, hr⟩ := h
    have hk : pageOff va + 8 < 0x1000 := by omega
    have hlo : memRead P s va 8 = _ := memRead_hit (by omega) ht hr
    have hhi : memRead P s (va + zext 8) 8 = _ := memRead_hit
      (by rw [pageOff_add hk]; omega) (by rw [tlbIdx_add hk, dtlbTag_add _ _ hk, ht])
      (by rw [tlbIdx_add hk, hr])
    rw [tlbIdx_add hk, pageOff_add hk, ← Nat.add_assoc] at hhi
    change memRead P s (va + 8) 8 = _ at hhi
    simp only [hlo, hhi]
  · unfold memRead128
    exact if_neg h

lemma memWrite128_eq (v : V128) : memWrite128 P s va v =
    match memWrite P s va 8 v.d0 with
    | (false, s) => (false, s)
    | (true, s) => memWrite P s (va + 8) 8 v.d1 := by
  by_cases h : pageOff va ≤ 0xff0 ∧ (s.bus.dtlb (tlbIdx va)).tag = dtlbTag s.cpu s.bus va ∧ (s.bus.dtlb (tlbIdx va)).w = true
  · rw [memWrite128, if_pos h]
    obtain ⟨hoff, ht, hw⟩ := h
    have hk : pageOff va + 8 < 0x1000 := by omega
    have hlo : memWrite P s va 8 v.d0 = _ := memWrite_hit (by omega) ht hw
    rw [hlo]
    have hhi : memWrite P { s with bus := { s.bus with
        ram := stLe s.bus.ram ((s.bus.dtlb (tlbIdx va)).page + pageOff va) 8 v.d0 } } (va + zext 8) 8 v.d1 = _ :=
      memWrite_hit (by rw [pageOff_add hk]; omega)
        (by rw [tlbIdx_add hk]; exact ht.trans (dtlbTag_add _ _ hk).symm)
        (by rw [tlbIdx_add hk]; exact hw)
    rw [tlbIdx_add hk, pageOff_add hk, ← Nat.add_assoc] at hhi
    exact hhi.symm
  · unfold memWrite128
    exact if_neg h

end Access

end Arm64Emu
