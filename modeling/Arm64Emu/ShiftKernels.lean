import Arm64Emu.AluFacts
import Arm64Emu.Saturation
import Arm64Emu.SimdInt

/-! The register shift of elements is the exact shift of integers, rounded down or to the nearest
one, then truncated or saturated. -/
namespace Arm64Emu

open Saturation BitField

section Words

variable {e : ℕ}

lemma toNat_one_shiftLeft {k : ℕ} (hk : k < 64) : ((1 : U64) <<< k).toNat = 2 ^ k := by
  rw [BitVec.toNat_shiftLeft, show (1 : U64).toNat = 1 from rfl, Nat.shiftLeft_eq, one_mul]
  exact Nat.mod_eq_of_lt (Nat.pow_lt_pow_right (by norm_num) hk)

lemma toNat_one_shiftLeft_sub {k : ℕ} (hk : k < 64) : (((1 : U64) <<< k) - 1).toNat = 2 ^ k - 1 := by
  have hpos := Nat.two_pow_pos k
  have hlt : 2 ^ k < 2 ^ 64 := Nat.pow_lt_pow_right (by norm_num) hk
  rw [BitVec.toNat_sub, toNat_one_shiftLeft hk, show (1 : U64).toNat = 1 from rfl]
  omega

lemma toInt_one_shiftLeft {k : ℕ} (hk : k < 63) : ((1 : U64) <<< k).toInt = 2 ^ k := by
  have hlt : 2 ^ k < 2 ^ 63 := Nat.pow_lt_pow_right (by norm_num) hk
  have hnat := toNat_one_shiftLeft (show k < 64 by omega)
  rw [BitVec.toInt_eq_toNat_of_lt (by omega), hnat]
  push_cast
  rfl

lemma toNat_ones (he : e ≤ 64) : (ones e).toNat = 2 ^ e - 1 := by
  rw [ones]
  split_ifs with h
  · obtain rfl : e = 64 := by omega
    rfl
  · exact toNat_one_shiftLeft_sub (by omega)

lemma and_ones (v : U64) (e : ℕ) : v &&& ones e = (v.setWidth e).setWidth 64 := by
  rw [ones_eq_mask, and_mask]

lemma setWidth_64_setWidth (he : e ≤ 64) (x : BitVec e) : (x.setWidth 64).setWidth e = x := by
  rw [BitVec.setWidth_setWidth_of_le _ he, BitVec.setWidth_eq]

lemma toInt_sx (h0 : 0 < e) (he : e ≤ 64) (x : BitVec e) : (sx (x.setWidth 64) e).toInt = x.toInt := by
  rcases Nat.lt_or_eq_of_le he with h | rfl
  · have hsx := signExtend_setWidth (x.setWidth 64) h0 h
    rw [setWidth_64_setWidth he] at hsx
    rw [sx, hsx, BitVec.toInt_signExtend_of_le he]
  · simp [sx, signExtend]

lemma toInt_sMax (h0 : 0 < e) (he : e ≤ 64) : (sMax e).toInt = hi true e := by
  rw [sMax]
  split_ifs with h
  · obtain rfl : e = 64 := by omega
    rfl
  · have hlt : 2 ^ (e - 1) < 2 ^ 63 := Nat.pow_lt_pow_right (by norm_num) (by omega)
    have hnat := toNat_one_shiftLeft_sub (show e - 1 < 64 by omega)
    rw [BitVec.toInt_eq_toNat_of_lt (by omega), hnat, hi, if_pos rfl]
    push_cast [Nat.one_le_two_pow]
    rfl

lemma toInt_sMin (h0 : 0 < e) (he : e ≤ 64) : (sMin e).toInt = lo true e := by
  rw [sMin]
  split_ifs with h
  · obtain rfl : e = 64 := by omega
    rfl
  · have hlt : (2 : ℤ) ^ (e - 1) < 2 ^ 63 := pow_lt_pow_right₀ (by norm_num) (by omega)
    have hpos : (0 : ℤ) < 2 ^ (e - 1) := by positivity
    rw [BitVec.toInt_neg, toInt_one_shiftLeft (by omega), lo, if_pos rfl]
    exact Int.bmod_eq_of_le (by omega) (by omega)

lemma slt_zero_iff (v : U64) : v.slt 0 = true ↔ v.toInt < 0 := by
  rw [BitVec.slt_iff_toInt_lt, show (0 : U64).toInt = 0 from rfl]

lemma num_ones (he : e ≤ 64) : num false (ones e) = hi false e := by
  have hpos := Nat.two_pow_pos e
  rw [num, if_neg Bool.false_ne_true, toNat_ones he, hi, if_neg Bool.false_ne_true]
  push_cast [hpos]
  rfl

end Words

section Elements

variable {e : ℕ}

/-- The element of the number `y`, as the word a kernel returns. -/
def element (e : ℕ) (y : ℤ) : U64 := (BitVec.ofInt e y).setWidth 64

lemma ofInt_and_ones (he : e ≤ 64) (y : ℤ) : BitVec.ofInt 64 y &&& ones e = element e y := by
  rw [and_ones, setWidth_ofInt he, element]

lemma and_ones_eq (he : e ≤ 64) (signed : Bool) (w : U64) : w &&& ones e = element e (num signed w) := by
  rw [← ofInt_and_ones he, ofInt_num]

lemma shiftLeft_and_ones (he : e ≤ 64) (signed : Bool) (w : U64) (n : ℕ) :
    (w <<< n) &&& ones e = element e (num signed w * 2 ^ n) := by
  rw [shiftLeft_eq_ofInt signed, ofInt_and_ones he]

lemma element_zero (e : ℕ) : element e 0 = 0 := by
  simp [element]

lemma eq_element (he : e ≤ 64) {w : U64} (hw : w.toNat < 2 ^ e) : w = element e w.toNat := by
  apply BitVec.eq_of_toNat_eq
  rw [element, BitVec.toNat_setWidth_of_le he, BitVec.toNat_ofInt]
  norm_cast
  exact (Nat.mod_eq_of_lt hw).symm

/-- The value and the flag that a shift gives for the exact result `y`. -/
structure Shifts (sgn sat : Bool) (e : ℕ) (y : ℤ) (v : U64 × Bool) : Prop where
  value : v.1 = element e (if sat then clamp sgn e y else y)
  flag : v.2 = true ↔ sat = true ∧ clamp sgn e y ≠ y

lemma Shifts.exact {sgn sat : Bool} {y : ℤ} (hlo : lo sgn e ≤ y) (hhi : y ≤ hi sgn e) {w : U64} (hw : w = element e y) :
    Shifts sgn sat e y (w, false) where
  value := by rw [clamp_of_mem hlo hhi, ite_self, hw]
  flag := by simp [clamp_of_mem hlo hhi]

lemma Shifts.above {sgn : Bool} {y : ℤ} (h : hi sgn e < y) {w : U64} (hw : w = element e (hi sgn e)) :
    Shifts sgn true e y (w, true) where
  value := by rw [if_pos rfl, clamp_of_hi_lt h, hw]
  flag := by simp [clamp_of_hi_lt h, h.ne]

lemma Shifts.below {sgn : Bool} {y : ℤ} (h : y < lo sgn e) {w : U64} (hw : w = element e (lo sgn e)) :
    Shifts sgn true e y (w, true) where
  value := by rw [if_pos rfl, clamp_of_lt_lo h, hw]
  flag := by simp [clamp_of_lt_lo h, h.ne']

end Elements

section Left

variable {e : ℕ} (h0 : 0 < e) (he : e ≤ 64) (x : BitVec e)

include h0 he

lemma sMax_eq_element : sMax e = element e (hi true e) ∧ sMax e &&& ones e = element e (hi true e) ∧
    sMin e &&& ones e = element e (lo true e) := by
  have hmax := toInt_sMax h0 he
  have hand : sMax e &&& ones e = element e (hi true e) := (and_ones_eq he true _).trans (congrArg _ hmax)
  refine ⟨?_, hand, (and_ones_eq he true _).trans (congrArg _ (toInt_sMin h0 he))⟩
  have hnat : (sMax e).toNat < 2 ^ e := by
    have hhalf := two_mul_half h0
    have hpos : (0 : ℤ) < 2 ^ (e - 1) := by positivity
    have hcond := BitVec.toInt_eq_toNat_cond (sMax e)
    have hlt := (sMax e).isLt
    have hcast : ((2 ^ e : ℕ) : ℤ) = 2 ^ e := by push_cast; rfl
    rw [hmax, hi, if_pos rfl] at hcond
    split_ifs at hcond <;> omega
  rw [← hand, and_ones]
  apply BitVec.eq_of_toNat_eq
  rw [BitVec.toNat_setWidth_of_le he, BitVec.toNat_setWidth, Nat.mod_eq_of_lt hnat]

omit he in
lemma out_of_range {n : ℕ} (hn : e ≤ n) {v : ℤ} (sgn : Bool) :
    (0 < v → hi sgn e < v * 2 ^ n) ∧ (v < 0 → v * 2 ^ n < lo true e) := by
  have hhalf := two_mul_half h0
  have hpos : (0 : ℤ) < 2 ^ (e - 1) := by positivity
  have hpow : (2 : ℤ) ^ e ≤ 2 ^ n := pow_le_pow_right₀ (by norm_num) hn
  constructor
  · intro h
    have hmul : (2 : ℤ) ^ n ≤ v * 2 ^ n := le_mul_of_one_le_left (by positivity) (by omega)
    cases sgn <;> simp only [hi, if_true, Bool.false_eq_true, if_false] <;> omega
  · intro h
    have hmul : v * 2 ^ n ≤ -2 ^ n := by nlinarith [pow_pos (show (0 : ℤ) < 2 by norm_num) n]
    simp only [lo, if_true]
    omega

omit h0 in
lemma vregShiftLeft_plain (n : ℕ) (sgn : Bool) :
    Shifts sgn false e (num sgn x * 2 ^ n) (vregShiftLeft (x.setWidth 64) n e sgn false) := by
  refine ⟨?_, by simp [vregShiftLeft]⟩
  have hnum : num false (x.setWidth 64) = num false x := by
    rw [num, num, if_neg Bool.false_ne_true, if_neg Bool.false_ne_true, BitVec.toNat_setWidth_of_le he]
  have hsame : element e (num sgn x * 2 ^ n) = element e (num false x * 2 ^ n) := by
    rw [element, element, BitVec.ofInt_mul, BitVec.ofInt_mul, ofInt_num, ofInt_num]
  rw [if_neg Bool.false_ne_true, hsame, vregShiftLeft]
  simp only [Bool.false_eq_true, not_false_eq_true, if_true]
  split_ifs with hn
  · rw [element, ← shiftLeft_eq_ofInt false, BitVec.shiftLeft_eq_zero (by omega), BitVec.setWidth_zero]
    rfl
  · rw [shiftLeft_and_ones he false, hnum]

/-- The saturating shift of a signed element: beyond the width every nonzero number saturates, and
below it the bound is shifted down instead. -/
lemma vregShiftLeft_signed (n : ℕ) : Shifts true true e (x.toInt * 2 ^ n) (vregShiftLeft (x.setWidth 64) n e true true) := by
  obtain ⟨hmax, hmaxAnd, hminAnd⟩ := sMax_eq_element h0 he
  have hsv := toInt_sx h0 he x
  have hzero : (0 : U64).toInt = 0 := rfl
  have hsvZero : sx (x.setWidth 64) e = 0 ↔ x.toInt = 0 := by
    rw [← hsv, ← hzero, BitVec.toInt_inj]
  have hshl : (sx (x.setWidth 64) e <<< n) &&& ones e = element e (x.toInt * 2 ^ n) := by
    rw [shiftLeft_and_ones he true, ← hsv]
    rfl
  have hpow : (0 : ℤ) < 2 ^ n := by positivity
  have hends : lo true e < 0 ∧ 0 ≤ hi true e := by
    have hpos : (0 : ℤ) < 2 ^ (e - 1) := by positivity
    simp only [lo, hi, if_true]
    omega
  rw [vregShiftLeft]
  simp only [not_true_eq_false, if_false, if_true, hsvZero, BitVec.slt_iff_toInt_lt, hsv, hzero, hminAnd, hshl,
    BitVec.toInt_sshiftRight, toInt_sMax h0 he, toInt_sMin h0 he, Int.shiftRight_eq_div_pow]
  by_cases hx0 : x.toInt = 0
  · rw [if_pos hx0, hx0, zero_mul]
    exact Shifts.exact hends.1.le hends.2 (element_zero e).symm
  rw [if_neg hx0]
  by_cases hn : e ≤ n ∨ 64 ≤ n
  · rw [if_pos hn]
    obtain ⟨hpos, hneg⟩ := out_of_range h0 (show e ≤ n by omega) (v := x.toInt) true
    by_cases hx : 0 < x.toInt
    · rw [if_pos hx, hmaxAnd]
      exact Shifts.above (hpos hx) rfl
    · rw [if_neg hx, hminAnd]
      exact Shifts.below (hneg (by omega)) rfl
  rw [if_neg hn]
  by_cases hx : 0 < x.toInt
  · have hover : hi true e / (2 ^ n : ℕ) < x.toInt ↔ hi true e < x.toInt * 2 ^ n := by
      push_cast
      exact Int.ediv_lt_iff_lt_mul hpow
    rw [if_pos hx]
    by_cases h : hi true e / (2 ^ n : ℕ) < x.toInt
    · rw [if_pos h]
      exact Shifts.above (hover.1 h) hmax
    · rw [if_neg h]
      exact Shifts.exact (hends.1.le.trans (by positivity)) (not_lt.1 (mt hover.2 h)) rfl
  · -- the least number is a multiple of the power, so its shift is exact
    have hdvd : (2 : ℤ) ^ n ∣ lo true e := by
      rw [lo, if_pos rfl]
      exact (pow_dvd_pow 2 (by omega)).neg_right
    have hover : x.toInt < lo true e / (2 ^ n : ℕ) ↔ x.toInt * 2 ^ n < lo true e := by
      push_cast
      rw [← mul_lt_mul_iff_left₀ hpow, Int.ediv_mul_cancel hdvd]
    rw [if_neg hx]
    by_cases h : x.toInt < lo true e / (2 ^ n : ℕ)
    · rw [if_pos h]
      exact Shifts.below (hover.1 h) rfl
    · rw [if_neg h]
      refine Shifts.exact (not_lt.1 (mt hover.2 h)) (le_trans ?_ hends.2) rfl
      exact mul_nonpos_of_nonpos_of_nonneg (by omega) hpow.le

lemma vregShiftLeft_unsigned (n : ℕ) :
    Shifts false true e (x.toNat * 2 ^ n) (vregShiftLeft (x.setWidth 64) n e false true) := by
  have huv : (x.setWidth 64 &&& ones e).toNat = x.toNat := by
    rw [and_ones, setWidth_64_setWidth he, BitVec.toNat_setWidth_of_le he]
  have huvZero : x.setWidth 64 &&& ones e = 0 ↔ x.toNat = 0 := by
    rw [← huv, ← BitVec.toNat_inj]
    rfl
  have hshl : ((x.setWidth 64 &&& ones e) <<< n) &&& ones e = element e (x.toNat * 2 ^ n) := by
    rw [shiftLeft_and_ones he false, num, if_neg Bool.false_ne_true, huv]
  have hones : ones e = element e (hi false e) := by
    have hnat := toNat_ones he
    have hpos := Nat.two_pow_pos e
    rw [eq_element he (w := ones e) (by omega)]
    exact congrArg _ (num_ones he)
  have hhi : hi false e = ((2 ^ e - 1 : ℕ) : ℤ) := by
    rw [hi, if_neg Bool.false_ne_true]
    push_cast [Nat.one_le_two_pow]
    rfl
  rw [vregShiftLeft]
  simp only [not_true_eq_false, if_false, Bool.false_eq_true, huvZero, BitVec.lt_def, BitVec.toNat_ushiftRight, toNat_ones he, huv,
    hshl, Nat.shiftRight_eq_div_pow]
  by_cases hx0 : x.toNat = 0
  · rw [if_pos hx0, hx0, Nat.cast_zero, zero_mul]
    exact Shifts.exact le_rfl (hhi ▸ Int.natCast_nonneg _) (element_zero e).symm
  rw [if_neg hx0]
  by_cases hn : 64 ≤ n
  · rw [if_pos hn]
    exact Shifts.above ((out_of_range h0 (show e ≤ n by omega) false).1 (by omega)) hones
  rw [if_neg hn]
  have hover : (2 ^ e - 1) / 2 ^ n < x.toNat ↔ hi false e < x.toNat * 2 ^ n := by
    rw [hhi, Nat.div_lt_iff_lt_mul (Nat.two_pow_pos n)]
    norm_cast
  by_cases h : (2 ^ e - 1) / 2 ^ n < x.toNat
  · rw [if_pos h]
    exact Shifts.above (hover.1 h) hones
  · rw [if_neg h]
    exact Shifts.exact (by positivity) (not_lt.1 (mt hover.2 h)) rfl

end Left

section Right

variable {e : ℕ}

/-- The result of a right shift: the quotient, and for rounding the last bit shifted out. -/
def quotient (round : Bool) (v : ℤ) (n : ℕ) : ℤ := v / 2 ^ (n + 1) + if round then v / 2 ^ n % 2 else 0

lemma ediv_pow_succ (v : ℤ) (n : ℕ) : v / 2 ^ (n + 1) = v / 2 ^ n / 2 := by
  rw [pow_succ, Int.ediv_ediv_of_nonneg (by positivity)]

lemma shifted_eq_quotient (round : Bool) (v : ℤ) (n : ℕ) : shifted round v (-(n + 1 : ℕ)) = quotient round v n := by
  cases round
  · rw [shifted_right, quotient, if_neg Bool.false_ne_true, add_zero]
  · rw [shifted_right_round, quotient, if_pos rfl]

lemma quotient_mem (h2 : 2 ≤ e) (sgn round : Bool) (x : BitVec e) (n : ℕ) :
    lo sgn e ≤ quotient round (num sgn x) n ∧ quotient round (num sgn x) n ≤ hi sgn e := by
  have hlo := lo_le_num sgn x
  have hhi := num_le_hi sgn x
  generalize num sgn x = v at *
  have hbit : 0 ≤ (if round then v / 2 ^ n % 2 else 0 : ℤ) ∧ (if round then v / 2 ^ n % 2 else 0 : ℤ) ≤ 1 := by
    split_ifs <;> omega
  have hends : lo sgn e ≤ 0 ∧ 1 ≤ hi sgn e := by
    have hhalf := two_mul_half (show 0 < e by omega)
    have hpow : (2 : ℤ) ^ 1 ≤ 2 ^ (e - 1) := pow_le_pow_right₀ (by norm_num) (by omega)
    cases sgn <;> simp only [lo, hi, if_true, Bool.false_eq_true, if_false] <;> omega
  rw [quotient, ediv_pow_succ]
  rcases lt_or_ge v 0 with hv | hv
  · have hge : v ≤ v / 2 ^ n := Int.le_ediv_of_mul_le (by positivity) (by nlinarith [pow_pos (show (0 : ℤ) < 2 by norm_num) n])
    have hlt : v / 2 ^ n < 0 := Int.ediv_neg_of_neg_of_pos hv (by positivity)
    omega
  · have hle : v / 2 ^ n ≤ v := Int.ediv_le_self _ hv
    have hge : 0 ≤ v / 2 ^ n := Int.ediv_nonneg hv (by positivity)
    omega

lemma toNat_and_one (w : U64) : (w &&& 1).toNat = w.toNat % 2 := by
  rw [BitVec.toNat_and, show (1 : U64).toNat = 1 from rfl, Nat.and_one_is_mod]

lemma toInt_and_one (w : U64) : (w &&& 1).toInt = w.toInt % 2 := by
  have hnat := toNat_and_one w
  have hcond := BitVec.toInt_eq_toNat_cond w
  rw [BitVec.toInt_eq_toNat_of_lt (by omega), hnat]
  split_ifs at hcond <;> omega

lemma toInt_rounded (v : U64) (n : ℕ) (round : Bool) :
    (if round = true then v.sshiftRight (n + 1) + (v.sshiftRight n &&& 1) else v.sshiftRight (n + 1)).toInt =
      quotient round v.toInt n := by
  have hshift (k : ℕ) : (v.sshiftRight k).toInt = v.toInt / 2 ^ k := by
    rw [BitVec.toInt_sshiftRight, Int.shiftRight_eq_div_pow]
    norm_cast
  rw [quotient]
  cases round
  · simpa using hshift (n + 1)
  · have hquot := ediv_pow_succ v.toInt n
    have hlt := BitVec.toInt_lt (x := v.sshiftRight n)
    have hle := BitVec.le_toInt (v.sshiftRight n)
    rw [hshift] at hlt hle
    rw [if_pos rfl, if_pos rfl, BitVec.toInt_add, toInt_and_one, hshift, hshift]
    exact Int.bmod_eq_of_le (by omega) (by omega)

lemma toNat_rounded (v : U64) (n : ℕ) (round : Bool) :
    ((if round = true then v >>> (n + 1) + ((v >>> n) &&& 1) else v >>> (n + 1)).toNat : ℤ) = quotient round v.toNat n := by
  have hshift (k : ℕ) : (v >>> k).toNat = v.toNat / 2 ^ k := by
    rw [BitVec.toNat_ushiftRight, Nat.shiftRight_eq_div_pow]
  rw [quotient]
  cases round
  · simp [hshift]
  · have hlt := v.isLt
    have hle : v.toNat / 2 ^ (n + 1) ≤ v.toNat / 2 := by
      rw [pow_succ', ← Nat.div_div_eq_div_mul]
      exact Nat.div_le_self _ _
    rw [if_pos rfl, if_pos rfl, BitVec.toNat_add, toNat_and_one, hshift, hshift, Nat.mod_eq_of_lt (by omega)]
    push_cast
    rfl

lemma quotient_signed_large {v : ℤ} (hlo : -2 ^ 63 ≤ v) (hhi : v < 2 ^ 63) {n : ℕ} (hn : 63 ≤ n) (round : Bool) :
    quotient round v n = if round then 0 else if v < 0 then -1 else 0 := by
  have hpow : (2 : ℤ) ^ 63 ≤ 2 ^ n := pow_le_pow_right₀ (by norm_num) hn
  have hsign : v / 2 ^ n = if v < 0 then -1 else 0 := by
    split_ifs with h
    · exact Int.ediv_eq_neg_one_of_neg_of_le h (by omega)
    · exact Int.ediv_eq_zero_of_lt (by omega) (by omega)
  rw [quotient, ediv_pow_succ, hsign]
  cases round <;> simp only [if_true, Bool.false_eq_true, if_false] <;> split_ifs <;> omega

lemma vregShiftRight_signed (h0 : 0 < e) (he : e ≤ 64) (x : BitVec e) (n : ℕ) (round : Bool) :
    vregShiftRight (x.setWidth 64) (n + 1) e true round = element e (quotient round x.toInt n) := by
  have hsv := toInt_sx h0 he x
  have hlt := BitVec.toInt_lt (x := sx (x.setWidth 64) e)
  have hle := BitVec.le_toInt (sx (x.setWidth 64) e)
  rw [hsv] at hlt hle
  rw [vregShiftRight]
  simp only [if_true]
  by_cases hn : 64 ≤ n + 1
  · rw [if_pos hn, quotient_signed_large (by omega) (by omega) (by omega)]
    simp only [slt_zero_iff, hsv]
    cases round
    · simp only [Bool.false_eq_true, if_false]
      rw [and_ones_eq he true]
      split_ifs <;> rfl
    · exact (element_zero e).symm
  · rw [if_neg hn, and_ones_eq he true, num, if_pos rfl, Nat.add_sub_cancel, ← hsv, ← toInt_rounded]
    simp only [Nat.le_add_left, and_true]

lemma vregShiftRight_unsigned (he : e ≤ 64) (x : BitVec e) (n : ℕ) (round : Bool) :
    vregShiftRight (x.setWidth 64) (n + 1) e false round = element e (quotient round x.toNat n) := by
  have huv : (x.setWidth 64 &&& ones e).toNat = x.toNat := by
    rw [and_ones, setWidth_64_setWidth he, BitVec.toNat_setWidth_of_le he]
  have hlt := (x.setWidth 64 &&& ones e).isLt
  rw [huv] at hlt
  rw [vregShiftRight]
  simp only [if_false, Bool.false_eq_true]
  generalize x.setWidth 64 &&& ones e = uv at *
  have hshift (k : ℕ) : (uv >>> k).toNat = x.toNat / 2 ^ k := by
    rw [BitVec.toNat_ushiftRight, huv, Nat.shiftRight_eq_div_pow]
  have hquot : quotient round x.toNat n = ((x.toNat / 2 ^ (n + 1) + if round then x.toNat / 2 ^ n % 2 else 0 : ℕ) : ℤ) := by
    cases round <;> simp [quotient]
  by_cases hn : 64 ≤ n + 1
  · have hpow : 2 ^ 64 ≤ 2 ^ (n + 1) := Nat.pow_le_pow_right (by norm_num) hn
    have hzero : x.toNat / 2 ^ (n + 1) = 0 := Nat.div_eq_of_lt (by omega)
    rw [if_pos hn, hquot, hzero, Nat.zero_add]
    cases round
    · exact (element_zero e).symm
    · by_cases h64 : n + 1 = 64
      · obtain rfl : n = 63 := by omega
        simp only [not_true_eq_false, if_false, if_true]
        rw [and_ones_eq he false, num, if_neg Bool.false_ne_true, toNat_and_one, hshift]
      · have hpow' : 2 ^ 64 ≤ 2 ^ n := Nat.pow_le_pow_right (by norm_num) (by omega)
        have hzero' : x.toNat / 2 ^ n = 0 := Nat.div_eq_of_lt (by omega)
        simp only [not_true_eq_false, if_false, if_true, h64, hzero']
        exact (element_zero e).symm
  · rw [if_neg hn, and_ones_eq he false, num, if_neg Bool.false_ne_true, Nat.add_sub_cancel, ← huv, ← toNat_rounded]
    simp only [Nat.le_add_left, and_true]

end Right

lemma vregShift_shifts {e : ℕ} (h2 : 2 ≤ e) (he : e ≤ 64) (x : BitVec e) (sh : ℤ) (sgn round sat : Bool) :
    Shifts sgn sat e (shifted round (num sgn x) sh) (vregShift (x.setWidth 64) sh e sgn round sat) := by
  have h0 : 0 < e := by omega
  rw [vregShift]
  rcases lt_or_ge sh 0 with hsh | hsh
  · obtain ⟨n, rfl⟩ : ∃ n : ℕ, sh = -(n + 1 : ℕ) := ⟨(-sh).toNat - 1, by omega⟩
    obtain ⟨hlo, hhi⟩ := quotient_mem h2 sgn round x n
    rw [if_neg (by omega), neg_neg, Int.toNat_natCast, shifted_eq_quotient]
    cases sgn
    · exact Shifts.exact hlo hhi (vregShiftRight_unsigned he x n round)
    · exact Shifts.exact hlo hhi (vregShiftRight_signed h0 he x n round)
  · obtain ⟨n, rfl⟩ := Int.eq_ofNat_of_zero_le hsh
    rw [if_pos hsh, Int.toNat_natCast, shifted_left]
    cases sat
    · exact vregShiftLeft_plain he x n sgn
    · cases sgn
      · exact vregShiftLeft_unsigned h0 he x n
      · exact vregShiftLeft_signed h0 he x n

/-- For elements of 8 to 64 bits, all values and all shift amounts, the kernel returns the exact
shift, rounded as asked, truncated or saturated, with the flag raised exactly when the clamp changed
the value. -/
theorem register_shift_exact {e : ℕ} (h8 : 8 ≤ e) (h64 : e ≤ 64) (x : BitVec e) (amount : BitVec 8) (sgn round sat : Bool) :
    let exact := shifted round (num sgn x) amount.toInt
    let v := vregShift (x.setWidth 64) amount.toInt e sgn round sat
    v.1 = (BitVec.ofInt e (if sat then clamp sgn e exact else exact)).setWidth 64 ∧
      (v.2 = true ↔ sat = true ∧ clamp sgn e exact ≠ exact) := by
  obtain ⟨hvalue, hflag⟩ := vregShift_shifts (by omega) h64 x amount.toInt sgn round sat
  exact ⟨hvalue, hflag⟩

/-- The word -1 shifted left by 42 places saturates. -/
theorem register_shift_exact_minus_one :
    let exact := shifted false (num true (0xffffffff : U32)) (42 : BitVec 8).toInt
    let v := vregShift ((0xffffffff : U32).setWidth 64) (42 : BitVec 8).toInt 32 true false true
    v.1 = (BitVec.ofInt 32 (clamp true 32 exact)).setWidth 64 ∧ (v.2 = true ↔ true = true ∧ clamp true 32 exact ≠ exact) :=
  register_shift_exact (by decide) (by decide) _ _ _ _ _

example : vregShift 0xffffffff 42 32 true false true = (0x80000000, true) := by decide

end Arm64Emu
