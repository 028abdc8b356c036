import Arm64Emu.BitField
import Arm64Emu.PdHandler

/-! Facts about the arithmetic helpers: the two add-with-carry routines agree, and
the mask decoders give the wrap and test masks of a field move. -/
namespace Arm64Emu
open BitField

lemma ones_eq_mask (n : ℕ) : ones n = mask 64 n := by
  unfold ones
  split
  · rename_i h
    rw [mask_of_le h]
    rfl
  · rename_i h
    apply BitVec.eq_of_toNat_eq
    have h1 : 2 ^ n < 2 ^ 64 := Nat.pow_lt_pow_right (by decide) (by omega)
    have h2 : 1 ≤ 2 ^ n := Nat.one_le_two_pow
    have h3 : (1 : U64).toNat = 1 := rfl
    simp only [mask, BitVec.toNat_sub, BitVec.toNat_shiftLeft, BitVec.toNat_ofNat, Nat.shiftLeft_eq, h3]
    omega

lemma elemMask_eq_mask (n : ℕ) (h : n ≤ 64) : elemMask n = mask 64 n := by
  rw [← ones_eq_mask, elemMask, ones]
  by_cases h64 : n = 64
  · simp [h64]
  · rw [if_neg h64, if_neg (by omega)]

lemma ror64_eq_rotateRight (x : U64) (n : ℕ) : ror64 x n = x.rotateRight n := by
  rw [BitVec.rotateRight_def, ror64]
  split
  · rfl
  · rename_i h
    simp only [ne_eq, not_not] at h
    simp [h]

lemma ror32_eq_rotateRight (x : U32) (n : ℕ) : ror32 x n = x.rotateRight n := by
  rw [BitVec.rotateRight_def, ror32]
  split
  · rfl
  · rename_i h
    simp only [ne_eq, not_not] at h
    simp [h]

lemma rorElem_setWidth (y : U32) {r : ℕ} (hr : r < 32) :
    rorElem (y.setWidth 64) r 32 (mask 64 32) = (y.rotateRight r).setWidth 64 := by
  apply BitVec.eq_of_getLsbD_eq
  intro i hi
  rw [BitVec.getLsbD_setWidth]
  unfold rorElem
  by_cases h0 : r = 0
  · subst h0
    simp [hi, BitVec.rotateRight_def]
  · simp only [ne_eq, h0, not_false_eq_true, if_true, BitVec.getLsbD_and, BitVec.getLsbD_or,
      BitVec.getLsbD_ushiftRight, BitVec.getLsbD_shiftLeft, BitVec.getLsbD_setWidth, getLsbD_mask, hi,
      decide_true, Bool.true_and]
    by_cases h : i < 32
    · rw [getLsbD_rotateRight_of_lt y hr h, rotSrc]
      by_cases h2 : r + i < 32
      · simp [h, h2, show r + i < 64 by omega, show i < 32 - r by omega]
      · have h3 : y.getLsbD (r + i) = false := BitVec.getLsbD_of_ge y _ (by omega)
        simp [h, h2, h3, show ¬ i < 32 - r by omega, show r + i - 32 < 64 by omega,
          show i - (32 - r) = r + i - 32 by omega]
    · simp [h, BitVec.getLsbD_of_ge (y.rotateRight r) i (by omega)]

lemma rorWithin_64 (v : U64) (r : ℕ) : rorWithin v r 64 = v.rotateRight r := by
  rw [rorWithin, if_pos rfl, ror64_eq_rotateRight]

lemma rorWithin_32 (v : U64) {r : ℕ} (hr : r < 32) :
    rorWithin v r 32 = ((v.setWidth 32).rotateRight r).setWidth 64 := by
  have hm : (0xffffffff : U64) = mask 64 32 := by decide
  rw [← rorElem_setWidth _ hr, rorWithin, if_neg (by decide), Nat.mod_eq_of_lt hr, rorElem, ← hm]
  rfl

lemma log2_of_bounds {n k : ℕ} (h1 : 2 ^ k ≤ n) (h2 : n < 2 ^ (k + 1)) : Nat.log2 n = k := by
  have h0 : n ≠ 0 := by have := Nat.two_pow_pos k; omega
  exact (Nat.log2_eq_iff h0).2 ⟨h1, h2⟩

lemma replicate_64 (w : U64) : replicate w 64 = w := by
  simp [replicate, List.range_succ]

lemma lo32_replicate_32 (y : U32) : lo32 (replicate (y.setWidth 64) 32) = y.setWidth 64 := by
  have h : replicate (y.setWidth 64) 32 = (y.setWidth 64 : U64) ||| (y.setWidth 64 : U64) <<< 32 := by
    simp [replicate, List.range_succ]
  rw [h]
  apply BitVec.eq_of_getLsbD_eq
  intro i hi
  simp only [lo32, BitVec.getLsbD_setWidth, BitVec.getLsbD_or, BitVec.getLsbD_shiftLeft, hi,
    decide_true, Bool.true_and]
  by_cases h : i < 32
  · simp [h]
  · simp [h, BitVec.getLsbD_of_ge y i (by omega)]

lemma diff_eq_fieldTop {k s r : ℕ} (hk : k ≤ 6) (hs : s < 2 ^ k) (hr : r < 2 ^ k) :
    (s + 2 ^ 32 - r) % 2 ^ 32 % 2 ^ k = fieldTop (2 ^ k) r s := by
  have h6 : 2 ^ k ≤ 2 ^ 6 := Nat.pow_le_pow_right (by decide) hk
  rw [Nat.mod_mod_of_dvd _ (Nat.pow_dvd_pow 2 (by omega : k ≤ 32)), fieldTop]
  obtain ⟨q, hq⟩ := Nat.pow_dvd_pow 2 (by omega : k ≤ 32)
  split
  · rename_i h
    rw [show s + 2 ^ 32 - r = (s - r) + 2 ^ k * q by omega, Nat.add_mul_mod_self_left,
      Nat.mod_eq_of_lt (by omega)]
  · rename_i h
    have hq1 : 1 ≤ q := by
      rcases Nat.eq_zero_or_pos q with h0 | h0
      · rw [h0] at hq; omega
      · exact h0
    have hmul : 2 ^ k * q = 2 ^ k * (q - 1) + 2 ^ k := by
      rw [← Nat.mul_succ, Nat.succ_eq_add_one, Nat.sub_add_cancel hq1]
    rw [show s + 2 ^ 32 - r = (s + 2 ^ k - r) + 2 ^ k * (q - 1) by omega, Nat.add_mul_mod_self_left,
      Nat.mod_eq_of_lt (by omega)]

lemma decodeBitmasksSlow_eq {immN : Bool} {imms len : ℕ} (immr : ℕ) (hlen : 1 ≤ len) (hle : len ≤ 6)
    (hn : Nat.log2 (immN.toNat * 64 + (63 - imms % 64)) = len) :
    decodeBitmasksSlow immN imms immr =
      some (replicate (rorElem (mask 64 (imms % 2 ^ len + 1) &&& mask 64 (2 ^ len)) (immr % 2 ^ len)
          (2 ^ len) (mask 64 (2 ^ len))) (2 ^ len),
        replicate (mask 64 (fieldTop (2 ^ len) (immr % 2 ^ len) (imms % 2 ^ len) + 1)
          &&& mask 64 (2 ^ len)) (2 ^ len)) := by
  have h0 : immN.toNat * 64 + (63 - imms % 64) ≠ 0 := by
    intro h
    rw [h] at hn
    simp at hn
    omega
  have hpow : 2 ^ len ≤ 64 := Nat.pow_le_pow_right (by decide) hle
  have hdiff := diff_eq_fieldTop hle (Nat.mod_lt imms (Nat.two_pow_pos len))
    (Nat.mod_lt immr (Nat.two_pow_pos len))
  simp only [decodeBitmasksSlow, hn, if_neg h0, if_neg (show ¬ len < 1 by omega), hdiff,
    ones_eq_mask, elemMask_eq_mask _ hpow, Nat.mod_mod]

theorem decodeBitmasks_64 {imms immr : ℕ} (hs : imms < 64) (hr : immr < 64) :
    decodeBitmasks true imms immr true = some (wrapMask 64 immr imms, testMask 64 immr imms) := by
  have hn : Nat.log2 (Bool.toNat true * 64 + (63 - imms % 64)) = 6 := by
    apply log2_of_bounds
    all_goals simp
    omega
  have hall (v : U64) : v &&& mask 64 64 = v := by
    rw [mask_of_le (le_refl 64), BitVec.and_allOnes]
  have hror : rorElem (mask 64 (imms + 1)) immr 64 (mask 64 64) = wrapMask 64 immr imms := by
    rw [wrapMask, BitVec.rotateRight_def, Nat.mod_eq_of_lt hr, rorElem, hall]
    split
    · rfl
    · rename_i h
      simp only [ne_eq, not_not] at h
      simp [h]
  have h := decodeBitmasksSlow_eq immr (by decide) (le_refl 6) hn
  norm_num only [Nat.reducePow, Nat.mod_eq_of_lt hs, Nat.mod_eq_of_lt hr, hall, hror, replicate_64] at h
  simp [decodeBitmasks, h, testMask]

theorem decodeBitmasks_32 {imms immr : ℕ} (hs : imms < 32) (hr : immr < 32) :
    decodeBitmasks false imms immr false =
      some ((wrapMask 32 immr imms).setWidth 64, (testMask 32 immr imms).setWidth 64) := by
  have hn : Nat.log2 (Bool.toNat false * 64 + (63 - imms % 64)) = 5 := by
    apply log2_of_bounds <;> simp <;> omega
  have hsub (n : ℕ) : mask 64 n &&& mask 64 32 = (mask 32 n).setWidth 64 := by
    apply BitVec.eq_of_getLsbD_eq
    intro i hi
    simp only [BitVec.getLsbD_and, getLsbD_mask, BitVec.getLsbD_setWidth, hi, decide_true,
      Bool.true_and]
    exact Bool.and_comm _ _
  have h := decodeBitmasksSlow_eq immr (by decide) (by decide : 5 ≤ 6) hn
  norm_num only [Nat.reducePow, Nat.mod_eq_of_lt hs, Nat.mod_eq_of_lt hr, hsub] at h
  rw [rorElem_setWidth _ hr] at h
  simp [decodeBitmasks, h, lo32_replicate_32, testMask, wrapMask]

theorem pdBitmasks_eq (immN : Bool) (imms immr : ℕ) (is64 : Bool) :
    pdBitmasks immN imms immr is64 = (decodeBitmasks immN imms immr is64).map Prod.fst := by
  unfold pdBitmasks decodeBitmasks decodeBitmasksSlow
  by_cases h0 : immN.toNat * 64 + (63 - imms % 64) = 0
  · simp [h0]
  by_cases h1 : Nat.log2 (immN.toNat * 64 + (63 - imms % 64)) < 1
  · simp only [if_neg h0, if_pos h1, Option.map_none]
  simp only [if_neg h0, if_neg h1]
  -- the width test of one is the N test of the other
  have hlen : Nat.log2 (immN.toNat * 64 + (63 - imms % 64)) ≤ 5 ∨
      Nat.log2 (immN.toNat * 64 + (63 - imms % 64)) = 6 := by
    have : Nat.log2 (immN.toNat * 64 + (63 - imms % 64)) < 7 := by
      rw [Nat.log2_lt h0]
      have := Bool.toNat_le immN
      omega
    omega
  have hN : Nat.log2 (immN.toNat * 64 + (63 - imms % 64)) = 6 ↔ immN = true := by
    rw [Nat.log2_eq_iff h0]
    cases immN <;> simp <;> omega
  generalize Nat.log2 (immN.toNat * 64 + (63 - imms % 64)) = len at *
  rcases hlen with hlen | rfl
  · have hw : 2 ^ len ≤ 2 ^ 5 := Nat.pow_le_pow_right (by decide) hlen
    have hf : immN = false := by
      cases immN
      · rfl
      · have := hN.2 rfl; omega
    cases is64 <;> simp [hf] <;> omega
  · rw [hN.1 rfl]
    cases is64 <;> simp

lemma addWithCarry_64 (x y : U64) (cin : Bool) :
    (addWithCarry x y cin true).1 = x + y + (if cin then 1 else 0) := by
  apply BitVec.eq_of_toNat_eq
  cases cin <;> simp [addWithCarry, BitVec.toNat_add, BitVec.toNat_setWidth]

lemma addWithCarry_32 (x y : U64) (cin : Bool) :
    (addWithCarry x y cin false).1 = lo32 (x + y + (if cin then 1 else 0)) := by
  apply BitVec.eq_of_toNat_eq
  cases cin
  · simp [addWithCarry, lo32, BitVec.toNat_add, BitVec.toNat_setWidth]
  · simp [addWithCarry, lo32, BitVec.toNat_add, BitVec.toNat_setWidth]
    omega

lemma toInt_sum_128 (x y : U64) (cin : Bool) :
    (x.signExtend 128 + y.signExtend 128 + (if cin then 1 else 0)).toInt =
      x.toInt + y.toInt + cin.toNat := by
  have hx := x.isLt
  have hy := y.isLt
  have h1 : ((if cin then 1 else 0 : BitVec 128)).toInt = cin.toNat := by cases cin <;> rfl
  have hc := Bool.toNat_le cin
  rw [BitVec.toInt_add, BitVec.toInt_add, BitVec.toInt_signExtend_of_le (by decide),
    BitVec.toInt_signExtend_of_le (by decide), h1, Int.bmod_add_bmod]
  have hbx := BitVec.toInt_eq_toNat_cond x
  have hby := BitVec.toInt_eq_toNat_cond y
  apply Int.bmod_eq_of_le <;> split at hbx <;> split at hby <;> omega

lemma getLsbD_63_eq (x : U64) : x.getLsbD 63 = decide (2 ^ 63 ≤ x.toNat) := by
  rw [← BitVec.msb_eq_getLsbD_last, BitVec.msb_eq_decide]

theorem pdAwc_eq (x y : U64) (cin is64 : Bool) :
    pdAwc x y cin is64 = addWithCarry x y cin is64 := by
  cases is64
  · rfl
  have hx := x.isLt
  have hy := y.isLt
  have hci : ((if cin then 1 else 0 : U64)).toNat = cin.toNat := by cases cin <;> rfl
  have hci2 : ((if cin then 1 else 0 : BitVec 128)).toNat = cin.toNat := by cases cin <;> rfl
  have hc := Bool.toNat_le cin
  have hres : ((x.setWidth 128 + y.setWidth 128 + (if cin then 1 else 0) : BitVec 128).setWidth 64 : U64) =
      x + y + (if cin then 1 else 0) := by
    apply BitVec.eq_of_toNat_eq
    simp only [BitVec.toNat_add, BitVec.toNat_setWidth, hci, hci2]
    omega
  have hcarry : (x.setWidth 128 + y.setWidth 128 + (if cin then 1 else 0) : BitVec 128).getLsbD 64 =
      (decide (x + y < x) || decide (x + y + (if cin then 1 else 0) < x + y)) := by
    rw [BitVec.getLsbD, Nat.testBit_eq_decide_div_mod_eq]
    simp only [BitVec.lt_def, BitVec.toNat_add, BitVec.toNat_setWidth, hci, hci2, ← Bool.decide_or]
    apply decide_eq_decide.2
    omega
  have hover : decide ((x + y + (if cin then 1 else 0)).signExtend 128 ≠
      x.signExtend 128 + y.signExtend 128 + (if cin then 1 else 0)) =
      (~~~(x ^^^ y) &&& (x ^^^ (x + y + (if cin then 1 else 0)))).getLsbD 63 := by
    have h : ((x + y + (if cin then 1 else 0)).signExtend 128 ≠
        x.signExtend 128 + y.signExtend 128 + (if cin then 1 else 0)) ↔
        (x + y + (if cin then 1 else 0)).toInt ≠ x.toInt + y.toInt + cin.toNat := by
      rw [← toInt_sum_128, Ne, Ne, ← BitVec.toInt_inj, BitVec.toInt_signExtend_of_le (by decide)]
    apply Bool.eq_iff_iff.2
    rw [decide_eq_true_iff, h]
    simp only [BitVec.getLsbD_and, BitVec.getLsbD_not, BitVec.getLsbD_xor]
    simp only [getLsbD_63_eq, BitVec.toInt_eq_toNat_cond, BitVec.toNat_add, hci]
    by_cases hxs : 2 ^ 63 ≤ x.toNat <;> by_cases hys : 2 ^ 63 ≤ y.toNat <;>
      by_cases hrs : 2 ^ 63 ≤ ((x.toNat + y.toNat) % 2 ^ 64 + cin.toNat) % 2 ^ 64 <;>
      simp only [hxs, hys, hrs, decide_true, decide_false, Bool.xor_self, Bool.not_false, Bool.and_true,
        Bool.not_true, Bool.and_false, Bool.xor_false, Bool.xor_true, Nat.reduceLT] <;> simp <;> omega
  simp only [pdAwc, addWithCarry, if_true, hres, hcarry, hover]

lemma signExtend_setWidth (v : U64) {n : ℕ} (hn : 0 < n) (h : n < 64) :
    signExtend ((v.setWidth n).setWidth 64) n = (v.setWidth n).signExtend 64 := by
  have hm : (1 : U64) <<< (n - 1) = BitVec.twoPow 64 (n - 1) := rfl
  rw [signExtend, if_neg (by omega), hm]
  exact BitField.xor_sub_twoPow v hn (by omega)

end Arm64Emu
