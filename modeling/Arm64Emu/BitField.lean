import Mathlib

/-! Bit fields of machine words of any width. A field move rotates a word to the
right and keeps what lies under a wrap mask (the rotated image of the source
field) and a test mask (the part of the result that the field may reach). -/
namespace BitField

variable {w : ℕ}

/-- The `n` low bits. -/
def mask (w n : ℕ) : BitVec w := BitVec.ofNat w (2 ^ n - 1)

@[simp] lemma getLsbD_mask (n i : ℕ) : (mask w n).getLsbD i = (decide (i < w) && decide (i < n)) := by
  rw [mask, BitVec.getLsbD_ofNat, Nat.testBit_two_pow_sub_one]

lemma and_mask (x : BitVec w) (n : ℕ) : x &&& mask w n = (x.setWidth n).setWidth w := by
  apply BitVec.eq_of_getLsbD_eq
  intro i hi
  simp only [BitVec.getLsbD_and, getLsbD_mask, hi, decide_true, Bool.true_and, BitVec.getLsbD_setWidth]
  exact Bool.and_comm _ _

lemma mask_of_le {n : ℕ} (h : w ≤ n) : mask w n = BitVec.allOnes w := by
  apply BitVec.eq_of_getLsbD_eq
  intro i hi
  simp [hi, show i < n by omega]

/-- The source position of result bit `i` under a right rotation by `r`. -/
def rotSrc (w r i : ℕ) : ℕ := if r + i < w then r + i else r + i - w

lemma getLsbD_rotateRight_of_lt (x : BitVec w) {r i : ℕ} (hr : r < w) (hi : i < w) :
    (x.rotateRight r).getLsbD i = x.getLsbD (rotSrc w r i) := by
  rw [BitVec.getLsbD_rotateRight, Nat.mod_eq_of_lt hr, rotSrc]
  by_cases h : r + i < w
  · simp [h, show i < w - r by omega]
  · simp [h, show ¬ i < w - r by omega, hi, show i - (w - r) = r + i - w by omega]

def wrapMask (w r s : ℕ) : BitVec w := (mask w (s + 1)).rotateRight r

def fieldTop (w r s : ℕ) : ℕ := if r ≤ s then s - r else s + w - r

def testMask (w r s : ℕ) : BitVec w := mask w (fieldTop w r s + 1)

lemma getLsbD_wrapMask {r s i : ℕ} (hr : r < w) (hi : i < w) :
    (wrapMask w r s).getLsbD i = decide (rotSrc w r i ≤ s) := by
  rw [wrapMask, getLsbD_rotateRight_of_lt _ hr hi, getLsbD_mask]
  have h : rotSrc w r i < w := by unfold rotSrc; split <;> omega
  simp [h]

lemma getLsbD_testMask {r s i : ℕ} (hi : i < w) :
    (testMask w r s).getLsbD i = decide (i ≤ fieldTop w r s) := by
  rw [testMask, getLsbD_mask]
  simp [hi]

/-- A field move over `dst`, filling above the field from `top`. -/
def move (top dst x : BitVec w) (r s : ℕ) : BitVec w :=
  (top &&& ~~~testMask w r s) |||
    (((dst &&& ~~~wrapMask w r s) ||| (x.rotateRight r &&& wrapMask w r s)) &&& testMask w r s)

/-- Bit `i` of a field move: `top` above the field's reach, below it the rotated
source where the wrap mask is set and `dst` elsewhere. -/
lemma getLsbD_move (top dst x : BitVec w) {r s i : ℕ} (hr : r < w) (hi : i < w) :
    (move top dst x r s).getLsbD i =
      if i ≤ fieldTop w r s then
        if rotSrc w r i ≤ s then x.getLsbD (rotSrc w r i) else dst.getLsbD i
      else top.getLsbD i := by
  simp only [move, BitVec.getLsbD_or, BitVec.getLsbD_and, BitVec.getLsbD_not, getLsbD_testMask hi,
    getLsbD_wrapMask hr hi, getLsbD_rotateRight_of_lt x hr hi, hi, decide_true, Bool.true_and]
  by_cases h1 : i ≤ fieldTop w r s <;> by_cases h2 : rotSrc w r i ≤ s <;> simp [h1, h2]

def moveU (x : BitVec w) (r s : ℕ) : BitVec w := move 0 0 x r s

def moveS (x : BitVec w) (r s : ℕ) : BitVec w :=
  move (if x.getLsbD s then BitVec.allOnes w else 0) 0 x r s

theorem moveU_extract (x : BitVec w) {r s : ℕ} (hrs : r ≤ s) (hs : s < w) :
    moveU x r s = (x >>> r) &&& mask w (s - r + 1) := by
  apply BitVec.eq_of_getLsbD_eq
  intro i hi
  rw [moveU, getLsbD_move _ _ _ (by omega) hi]
  simp only [BitVec.getLsbD_and, BitVec.getLsbD_ushiftRight, getLsbD_mask, fieldTop, hrs, rotSrc,
    if_true, hi, decide_true, Bool.true_and]
  by_cases h : i ≤ s - r
  · simp [h, show r + i < w by omega, show r + i ≤ s by omega, show i < s - r + 1 by omega]
  · simp [h, show ¬ i < s - r + 1 by omega]

theorem moveU_insert (x : BitVec w) {r s : ℕ} (hsr : s < r) (hr : r < w) :
    moveU x r s = (x &&& mask w (s + 1)) <<< (w - r) := by
  apply BitVec.eq_of_getLsbD_eq
  intro i hi
  rw [moveU, getLsbD_move _ _ _ hr hi]
  simp only [BitVec.getLsbD_shiftLeft, BitVec.getLsbD_and, getLsbD_mask, fieldTop,
    show ¬ r ≤ s by omega, rotSrc, if_false, hi, decide_true, Bool.true_and]
  by_cases h1 : r + i < w
  · simp [h1, show ¬ r + i ≤ s by omega, show i < w - r by omega]
  · simp only [h1, if_false, show r + i - w = i - (w - r) by omega, show ¬ i < w - r by omega,
      decide_false, Bool.not_false, Bool.true_and, show i - (w - r) < w by omega, decide_true]
    by_cases h2 : i ≤ s + w - r
    · simp [h2, show i - (w - r) ≤ s by omega, show i - (w - r) < s + 1 by omega]
    · simp [h2, show ¬ i - (w - r) < s + 1 by omega]

theorem moveU_lsr (x : BitVec w) {r : ℕ} (hr : r < w) : moveU x r (w - 1) = x >>> r := by
  rw [moveU_extract x (by omega) (by omega)]
  apply BitVec.eq_of_getLsbD_eq
  intro i hi
  simp only [BitVec.getLsbD_and, BitVec.getLsbD_ushiftRight, getLsbD_mask, hi, decide_true,
    Bool.true_and]
  by_cases h : i < w - 1 - r + 1
  · simp [h]
  · simp [BitVec.getLsbD_of_ge x (r + i) (by omega)]

theorem moveU_lsl (x : BitVec w) {s : ℕ} (hs : s + 1 < w) :
    moveU x (s + 1) s = x <<< (w - 1 - s) := by
  rw [moveU_insert x (by omega) hs]
  apply BitVec.eq_of_getLsbD_eq
  intro i hi
  simp only [BitVec.getLsbD_shiftLeft, BitVec.getLsbD_and, getLsbD_mask, hi, decide_true,
    Bool.true_and, show w - (s + 1) = w - 1 - s by omega]
  by_cases h : i < w - 1 - s
  · simp [h]
  · simp [h, show i - (w - 1 - s) < w by omega, show i - (w - 1 - s) < s + 1 by omega]

theorem moveS_extract (x : BitVec w) {r s : ℕ} (hrs : r ≤ s) (hs : s < w) :
    moveS x r s = (x <<< (w - 1 - s)).sshiftRight (w - 1 - s + r) := by
  apply BitVec.eq_of_getLsbD_eq
  intro i hi
  rw [moveS, getLsbD_move _ _ _ (by omega) hi, BitVec.getLsbD_sshiftRight]
  have hmsb : (x <<< (w - 1 - s)).msb = x.getLsbD s := by
    rw [BitVec.msb_eq_getLsbD_last, BitVec.getLsbD_shiftLeft]
    simp [show w - 1 < w by omega, show ¬ w - 1 < w - 1 - s by omega, show w - 1 - (w - 1 - s) = s by omega]
  simp only [hmsb, BitVec.getLsbD_shiftLeft, fieldTop, hrs, rotSrc, if_true]
  by_cases h : i ≤ s - r
  · simp [h, show r + i < w by omega, show r + i ≤ s by omega, show ¬ w ≤ i by omega,
      show w - 1 - s + r + i < w by omega, show ¬ w - 1 - s + r + i < w - 1 - s by omega,
      show w - 1 - s + r + i - (w - 1 - s) = r + i by omega]
  · simp only [h, if_false, show ¬ w ≤ i by omega, decide_false, Bool.not_false, Bool.true_and,
      show ¬ w - 1 - s + r + i < w by omega]
    cases x.getLsbD s <;> simp [hi]

theorem moveS_asr (x : BitVec w) {r : ℕ} (hr : r < w) : moveS x r (w - 1) = x.sshiftRight r := by
  rw [moveS_extract x (by omega) (by omega)]
  simp

theorem moveS_insert (x : BitVec w) {r s : ℕ} (hsr : s < r) (hr : r < w) :
    moveS x r s = (x <<< (w - 1 - s)).sshiftRight (r - s - 1) := by
  apply BitVec.eq_of_getLsbD_eq
  intro i hi
  rw [moveS, getLsbD_move _ _ _ hr hi, BitVec.getLsbD_sshiftRight]
  have hmsb : (x <<< (w - 1 - s)).msb = x.getLsbD s := by
    rw [BitVec.msb_eq_getLsbD_last, BitVec.getLsbD_shiftLeft]
    simp [show w - 1 < w by omega, show ¬ w - 1 < w - 1 - s by omega, show w - 1 - (w - 1 - s) = s by omega]
  simp only [hmsb, BitVec.getLsbD_shiftLeft, fieldTop, show ¬ r ≤ s by omega, rotSrc, if_false]
  by_cases htop : i ≤ s + w - r
  · by_cases hlow : r + i < w
    · simp [htop, hlow, show ¬ r + i ≤ s by omega, show ¬ w ≤ i by omega, show r - s - 1 + i < w by omega,
        show r - s - 1 + i < w - 1 - s by omega]
    · simp [htop, hlow, show r + i - w ≤ s by omega, show ¬ w ≤ i by omega, show r - s - 1 + i < w by omega,
        show ¬ r - s - 1 + i < w - 1 - s by omega, show r - s - 1 + i - (w - 1 - s) = r + i - w by omega]
  · simp only [htop, if_false, show ¬ w ≤ i by omega, decide_false, Bool.not_false, Bool.true_and,
      show ¬ r - s - 1 + i < w by omega]
    cases x.getLsbD s <;> simp [hi]

theorem move_extract (d x : BitVec w) {r s : ℕ} (hrs : r ≤ s) (hs : s < w) :
    move d d x r s = ((x >>> r) &&& mask w (s - r + 1)) ||| (d &&& ~~~mask w (s - r + 1)) := by
  apply BitVec.eq_of_getLsbD_eq
  intro i hi
  rw [getLsbD_move _ _ _ (by omega) hi]
  simp only [BitVec.getLsbD_or, BitVec.getLsbD_and, BitVec.getLsbD_not, BitVec.getLsbD_ushiftRight, getLsbD_mask,
    fieldTop, hrs, rotSrc, if_true, hi, decide_true, Bool.true_and]
  by_cases h : i ≤ s - r
  · simp [h, show r + i < w by omega, show r + i ≤ s by omega, show i < s - r + 1 by omega]
  · simp [h, show ¬ i < s - r + 1 by omega]

theorem move_insert (d x : BitVec w) {r s : ℕ} (hsr : s < r) (hr : r < w) :
    move d d x r s =
      ((x &&& mask w (s + 1)) <<< (w - r)) ||| (d &&& ~~~(mask w (s + 1) <<< (w - r))) := by
  apply BitVec.eq_of_getLsbD_eq
  intro i hi
  rw [getLsbD_move _ _ _ hr hi]
  simp only [BitVec.getLsbD_or, BitVec.getLsbD_and, BitVec.getLsbD_not, BitVec.getLsbD_shiftLeft, getLsbD_mask,
    fieldTop, show ¬ r ≤ s by omega, rotSrc, if_false, hi, decide_true, Bool.true_and]
  by_cases h1 : r + i < w
  · simp [h1, show ¬ r + i ≤ s by omega, show i < w - r by omega]
  · simp only [h1, if_false, show r + i - w = i - (w - r) by omega, show ¬ i < w - r by omega,
      decide_false, Bool.not_false, Bool.true_and, show i - (w - r) < w by omega, decide_true]
    by_cases h2 : i ≤ s + w - r
    · simp [h2, show i - (w - r) ≤ s by omega, show i - (w - r) < s + 1 by omega]
    · simp [h2, show ¬ i - (w - r) < s + 1 by omega]
section SignExtension

theorem sshiftRight_shiftLeft (x : BitVec w) {n : ℕ} (hn : 0 < n) (hw : n ≤ w) :
    (x <<< (w - n)).sshiftRight (w - n) = (x.setWidth n).signExtend w := by
  apply BitVec.eq_of_getLsbD_eq
  intro i hi
  rw [BitVec.getLsbD_sshiftRight, BitVec.getLsbD_signExtend, BitVec.msb_eq_getLsbD_last,
    BitVec.msb_eq_getLsbD_last]
  simp only [BitVec.getLsbD_shiftLeft, BitVec.getLsbD_setWidth, hi]
  by_cases hin : i < n
  · have h1 : w - n + i < w := by omega
    have h2 : ¬ w - n + i < w - n := by omega
    have h3 : w - n + i - (w - n) = i := by omega
    have h4 : ¬ w ≤ i := by omega
    simp only [h1, h2, h3, h4, hin]
    simp
  · have h1 : ¬ w - n + i < w := by omega
    have h2 : w - 1 < w := by omega
    have h3 : ¬ w - 1 < w - n := by omega
    have h4 : w - 1 - (w - n) = n - 1 := by omega
    have h5 : n - 1 < n := by omega
    have h6 : ¬ w ≤ i := by omega
    simp only [h1, h2, h3, h4, h5, h6, hin]
    simp

lemma xor_twoPow_of_getLsbD_eq_false {x : BitVec w} {i : ℕ} (h : x.getLsbD i = false) :
    x ^^^ BitVec.twoPow w i = x + BitVec.twoPow w i := by
  have hand : x &&& BitVec.twoPow w i = 0#w := by rw [BitVec.and_twoPow, h]; rfl
  rw [BitVec.add_eq_or_of_and_eq_zero _ _ hand]
  apply BitVec.eq_of_getLsbD_eq
  intro j hj
  have hj' := congrArg (·.getLsbD j) hand
  simp only [BitVec.getLsbD_and, BitVec.getLsbD_zero] at hj'
  rw [BitVec.getLsbD_xor, BitVec.getLsbD_or]
  revert hj'
  cases x.getLsbD j <;> cases (BitVec.twoPow w i).getLsbD j <;> simp

theorem xor_sub_twoPow (x : BitVec w) {n : ℕ} (hn : 0 < n) (hw : n ≤ w) :
    ((x.setWidth n).setWidth w ^^^ BitVec.twoPow w (n - 1)) - BitVec.twoPow w (n - 1) =
      (x.setWidth n).signExtend w := by
  have hmsb : ((x.setWidth n).setWidth w).getLsbD (n - 1) = (x.setWidth n).msb := by
    rw [BitVec.msb_eq_getLsbD_last, BitVec.getLsbD_setWidth]
    simp [show n - 1 < w by omega]
  cases hb : (x.setWidth n).msb with
  | false =>
    rw [xor_twoPow_of_getLsbD_eq_false (hmsb.trans hb), BitVec.add_sub_cancel,
      BitVec.signExtend_eq_setWidth_of_msb_false hb]
  | true =>
    -- the flipped word has the bit clear, and adding it back gives the field
    generalize hy : (x.setWidth n).setWidth w = y at hmsb
    have hz : (y ^^^ BitVec.twoPow w (n - 1)) + BitVec.twoPow w (n - 1) = y := by
      rw [← xor_twoPow_of_getLsbD_eq_false, BitVec.xor_assoc, BitVec.xor_self, BitVec.xor_zero]
      simp [hmsb, hb, show n - 1 < w by omega]
    have hsub : (y ^^^ BitVec.twoPow w (n - 1)) - BitVec.twoPow w (n - 1) =
        y - BitVec.twoPow w (n - 1) - BitVec.twoPow w (n - 1) := by
      conv_rhs => rw [← hz]
      rw [BitVec.add_sub_cancel]
    rw [hsub]
    apply BitVec.eq_of_toNat_eq
    have hpow : 2 ^ (n - 1) + 2 ^ (n - 1) = 2 ^ n := by
      rw [← two_mul, ← Nat.pow_succ', Nat.succ_eq_add_one, Nat.sub_add_cancel hn]
    have hle : 2 ^ n ≤ 2 ^ w := Nat.pow_le_pow_right (by decide) hw
    have hynat : y.toNat = (x.setWidth n).toNat := by
      rw [← hy, BitVec.toNat_setWidth, Nat.mod_eq_of_lt]
      exact Nat.lt_of_lt_of_le (x.setWidth n).isLt hle
    have hlt := (x.setWidth n).isLt
    have htw : (BitVec.twoPow w (n - 1)).toNat = 2 ^ (n - 1) := by
      rw [BitVec.toNat_twoPow, Nat.mod_eq_of_lt (Nat.pow_lt_pow_right (by decide) (by omega))]
    have hge := BitVec.toNat_ge_of_msb_true hb
    rw [BitVec.toNat_signExtend, hb, hy, hynat]
    simp only [BitVec.toNat_sub, htw, hynat, if_true]
    have h2 : (2 ^ w - 2 ^ (n - 1) + (x.setWidth n).toNat) % 2 ^ w = (x.setWidth n).toNat - 2 ^ (n - 1) := by
      rw [show 2 ^ w - 2 ^ (n - 1) + (x.setWidth n).toNat = (x.setWidth n).toNat - 2 ^ (n - 1) + 2 ^ w by omega,
        Nat.add_mod_right, Nat.mod_eq_of_lt (by omega)]
    rw [h2, Nat.mod_eq_of_lt (by omega)]
    omega
end SignExtension

end BitField
