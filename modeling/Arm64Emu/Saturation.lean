import Mathlib

/-! Exact results of integer operations on words of a fixed width: shifts rounded down or to the
nearest integer, and the clamp to the range of a width. -/
namespace Saturation

def num (signed : Bool) {e : ℕ} (x : BitVec e) : ℤ := if signed then x.toInt else x.toNat

def lo (signed : Bool) (e : ℕ) : ℤ := if signed then -2 ^ (e - 1) else 0

def hi (signed : Bool) (e : ℕ) : ℤ := if signed then 2 ^ (e - 1) - 1 else 2 ^ e - 1

def clamp (signed : Bool) (e : ℕ) (x : ℤ) : ℤ := max (lo signed e) (min x (hi signed e))

/-- `v * 2 ^ sh`, rounded down or to the nearest integer with halves upward. -/
def shifted (round : Bool) (v sh : ℤ) : ℤ := ⌊(v : ℚ) * 2 ^ sh + if round then 1 / 2 else 0⌋

section Range

variable {signed : Bool} {e : ℕ}

lemma lo_le_hi (signed : Bool) (e : ℕ) : lo signed e ≤ hi signed e := by
  have h1 : (0 : ℤ) < 2 ^ (e - 1) := by positivity
  have h2 : (0 : ℤ) < 2 ^ e := by positivity
  cases signed <;> simp only [lo, hi, Bool.false_eq_true, if_true, if_false] <;> omega

lemma two_mul_half (he : 0 < e) : (2 : ℤ) * 2 ^ (e - 1) = 2 ^ e := by
  rw [← pow_succ', Nat.sub_add_cancel he]

lemma lo_le_num (signed : Bool) (x : BitVec e) : lo signed e ≤ num signed x := by
  cases signed
  · exact Int.natCast_nonneg _
  · exact BitVec.le_toInt x

lemma num_le_hi (signed : Bool) (x : BitVec e) : num signed x ≤ hi signed e := by
  cases signed
  · have hlt := x.isLt
    have hcast : ((2 ^ e : ℕ) : ℤ) = 2 ^ e := by push_cast; rfl
    simp only [num, hi, Bool.false_eq_true, if_false]
    omega
  · have hlt := BitVec.toInt_lt (x := x)
    simp only [num, hi, if_true]
    omega

lemma ofInt_num (signed : Bool) (x : BitVec e) : BitVec.ofInt e (num signed x) = x := by
  cases signed
  · simp [num]
  · simp [num]

lemma setWidth_ofInt {n : ℕ} (h : e ≤ n) (x : ℤ) : (BitVec.ofInt n x).setWidth e = BitVec.ofInt e x := by
  have hdvd : ((2 ^ e : ℕ) : ℤ) ∣ ((2 ^ n : ℕ) : ℤ) := by exact_mod_cast Nat.pow_dvd_pow 2 h
  have hnonneg (k : ℕ) : 0 ≤ x % (2 ^ k : ℕ) := Int.emod_nonneg _ (by positivity)
  apply BitVec.eq_of_toNat_eq
  rw [BitVec.toNat_setWidth, BitVec.toNat_ofInt, BitVec.toNat_ofInt]
  apply Int.natCast_inj.1
  rw [Int.natCast_emod, Int.toNat_of_nonneg (hnonneg n), Int.toNat_of_nonneg (hnonneg e), Int.emod_emod_of_dvd _ hdvd]

lemma shiftLeft_eq_ofInt (signed : Bool) (v : BitVec e) (n : ℕ) : v <<< n = BitVec.ofInt e (num signed v * 2 ^ n) := by
  rw [BitVec.ofInt_mul, ofInt_num, BitVec.shiftLeft_eq_mul_twoPow]
  congr 1
  apply BitVec.eq_of_toNat_eq
  rw [BitVec.toNat_twoPow, BitVec.toNat_ofInt]
  norm_cast

lemma clamp_of_mem {x : ℤ} (hlo : lo signed e ≤ x) (hhi : x ≤ hi signed e) : clamp signed e x = x := by
  rw [clamp, min_eq_left hhi, max_eq_right hlo]

lemma clamp_of_hi_lt {x : ℤ} (h : hi signed e < x) : clamp signed e x = hi signed e := by
  rw [clamp, min_eq_right h.le, max_eq_right (lo_le_hi signed e)]

lemma clamp_of_lt_lo {x : ℤ} (h : x < lo signed e) : clamp signed e x = lo signed e := by
  rw [clamp, min_eq_left (h.le.trans (lo_le_hi signed e)), max_eq_left h.le]

end Range

section Shift

lemma shifted_left (round : Bool) (v : ℤ) (n : ℕ) : shifted round v n = v * 2 ^ n := by
  have hcast : (v : ℚ) * 2 ^ (n : ℤ) = ((v * 2 ^ n : ℤ) : ℚ) := by push_cast; rw [zpow_natCast]
  rw [shifted, hcast]
  cases round
  · rw [if_neg Bool.false_ne_true, add_zero, Int.floor_intCast]
  · rw [if_pos rfl, Int.floor_intCast_add]
    norm_num

lemma shifted_right (v : ℤ) (n : ℕ) : shifted false v (-n) = v / 2 ^ n := by
  rw [shifted, if_neg Bool.false_ne_true, add_zero, zpow_neg, zpow_natCast, ← div_eq_mul_inv]
  exact_mod_cast Rat.floor_intCast_div_natCast v (2 ^ n)

lemma shifted_right_round (v : ℤ) (n : ℕ) :
    shifted true v (-(n + 1 : ℕ)) = v / 2 ^ (n + 1) + v / 2 ^ n % 2 := by
  have hsum : (v : ℚ) * 2 ^ (-(n + 1 : ℕ) : ℤ) + 1 / 2 = (v + 2 ^ n : ℤ) / (2 ^ (n + 1) : ℕ) := by
    rw [zpow_neg, zpow_natCast]
    push_cast
    rw [pow_succ]
    field_simp
  rw [shifted, if_pos rfl, hsum, Rat.floor_intCast_div_natCast]
  have hpow : (0 : ℤ) < 2 ^ n := by positivity
  push_cast
  rw [pow_succ, ← Int.ediv_ediv_of_nonneg hpow.le, ← Int.ediv_ediv_of_nonneg hpow.le,
    Int.add_ediv_of_dvd_right dvd_rfl, Int.ediv_self hpow.ne']
  omega

end Shift

end Saturation
