import Mathlib

/-! Bit vectors as polynomials over the field of two elements: exclusive or is the sum, a shift
multiplies by a power of `X`. -/
namespace Gf2

open Polynomial

variable {w : ℕ}

/-- Bit `i` is the coefficient of `X ^ i`. -/
noncomputable def poly (v : BitVec w) : (ZMod 2)[X] := ∑ i ∈ Finset.range w, if v.getLsbD i then X ^ i else 0

/-- The polynomial of the lower `k` bits. -/
noncomputable def low (v : BitVec w) (k : ℕ) : (ZMod 2)[X] := ∑ i ∈ Finset.range k, if v.getLsbD i then X ^ i else 0

lemma coeff_poly (v : BitVec w) (k : ℕ) : (poly v).coeff k = if v.getLsbD k then 1 else 0 := by
  have hterm (i : ℕ) : (if v.getLsbD i then (X : (ZMod 2)[X]) ^ i else 0).coeff k =
      if i = k then (if v.getLsbD k then 1 else 0) else 0 := by
    by_cases hik : i = k
    · subst hik
      cases v.getLsbD i <;> simp
    · cases v.getLsbD i <;> simp [coeff_X_pow, hik, Ne.symm hik]
  rw [poly, finsetSum_coeff, Finset.sum_congr rfl fun i _ => hterm i, Finset.sum_ite_eq']
  by_cases hk : k < w
  · rw [if_pos (Finset.mem_range.mpr hk)]
  · rw [if_neg (by simpa using hk), BitVec.getLsbD_of_ge v k (Nat.le_of_not_lt hk)]
    rfl

lemma poly_injective : Function.Injective (poly (w := w)) := by
  intro a b h
  refine BitVec.eq_of_getLsbD_eq fun i _ => ?_
  have hc := congrArg (coeff · i) h
  simp only [coeff_poly] at hc
  cases ha : a.getLsbD i <;> cases hb : b.getLsbD i <;> simp_all

@[simp] lemma poly_zero : poly (0#w) = 0 := by
  ext k
  simp [coeff_poly]

lemma poly_xor (a b : BitVec w) : poly (a ^^^ b) = poly a + poly b := by
  have htwo : (1 : ZMod 2) + 1 = 0 := by decide
  ext k
  rw [coeff_add, coeff_poly, coeff_poly, coeff_poly, BitVec.getLsbD_xor]
  cases a.getLsbD k <;> cases b.getLsbD k <;> simp [htwo]

lemma poly_setWidth {m : ℕ} (hm : w ≤ m) (v : BitVec w) : poly (v.setWidth m) = poly v := by
  ext k
  rw [coeff_poly, coeff_poly, BitVec.getLsbD_setWidth]
  by_cases hk : k < m
  · simp [hk]
  · simp [hk, BitVec.getLsbD_of_ge v k (by omega)]

lemma poly_shiftLeft (v : BitVec w) {k : ℕ} (hk : k ≤ w) :
    poly (v <<< k) + X ^ w * poly (v >>> (w - k)) = X ^ k * poly v := by
  ext i
  rw [coeff_add, coeff_X_pow_mul', coeff_X_pow_mul', coeff_poly, coeff_poly, coeff_poly, BitVec.getLsbD_shiftLeft,
    BitVec.getLsbD_ushiftRight]
  by_cases hi : i < w
  · rw [if_neg (by omega : ¬w ≤ i)]
    by_cases hik : i < k
    · rw [if_neg (by omega : ¬k ≤ i)]
      simp [hik]
    · rw [if_pos (by omega : k ≤ i)]
      simp [hi, hik]
  · rw [if_pos (by omega : w ≤ i), if_pos (by omega : k ≤ i), show w - k + (i - w) = i - k by omega]
    simp [hi]

lemma poly_shiftLeft_setWidth {m : ℕ} (v : BitVec w) {k : ℕ} (hk : w + k ≤ m) :
    poly (v.setWidth m <<< k) = X ^ k * poly v := by
  ext i
  rw [coeff_X_pow_mul', coeff_poly, coeff_poly, BitVec.getLsbD_shiftLeft, BitVec.getLsbD_setWidth]
  by_cases hik : i < k
  · rw [if_neg (by omega : ¬k ≤ i)]
    simp [hik]
  · rw [if_pos (by omega : k ≤ i)]
    by_cases hi : i < m
    · simp [hi, hik, show i - k < m by omega]
    · simp [hi, BitVec.getLsbD_of_ge v (i - k) (by omega)]

lemma poly_append {m : ℕ} (hi : BitVec m) (lo : BitVec w) : poly (hi ++ lo) = poly lo + X ^ w * poly hi := by
  ext i
  rw [coeff_add, coeff_X_pow_mul', coeff_poly, coeff_poly, coeff_poly, BitVec.getLsbD_append]
  by_cases h : i < w
  · simp [h]
  · simp [h, BitVec.getLsbD_of_ge lo i (by omega)]

lemma low_succ (v : BitVec w) (k : ℕ) :
    low v (k + 1) = (if v.getLsbD 0 then (1 : (ZMod 2)[X]) else 0) + X * low (v >>> 1) k := by
  rw [low, low, Finset.sum_range_succ', Finset.mul_sum, add_comm, pow_zero]
  refine congrArg _ (Finset.sum_congr rfl fun i _ => ?_)
  rw [BitVec.getLsbD_ushiftRight, Nat.add_comm 1 i]
  split_ifs
  · rw [pow_succ, mul_comm]
  · rw [mul_zero]

lemma degree_poly_lt (v : BitVec w) : (poly v).degree < w := by
  rw [degree_lt_iff_coeff_zero]
  intro k hk
  rw [coeff_poly, BitVec.getLsbD_of_ge v k hk]
  rfl

lemma poly_concat (v : BitVec w) (b : Bool) : poly (v.concat b) = C (if b then 1 else 0) + X * poly v := by
  ext i
  rw [coeff_poly, BitVec.getLsbD_concat, coeff_add]
  cases i with
  | zero => cases b <;> simp
  | succ i =>
    rw [coeff_C_succ, coeff_X_mul, coeff_poly, zero_add]
    simp

lemma exists_poly_eq : ∀ (w : ℕ) (q : (ZMod 2)[X]), q.degree < w → ∃ v : BitVec w, poly v = q
  | 0, q, hq => ⟨0#0, by
      rw [poly_zero]
      exact (degree_eq_bot.mp (Nat.WithBot.lt_zero_iff.mp hq)).symm⟩
  | w + 1, q, hq => by
    have hdiv : q.divX.degree < w := by
      rw [degree_lt_iff_coeff_zero] at hq ⊢
      intro k hk
      rw [coeff_divX]
      exact hq (k + 1) (by omega)
    obtain ⟨v, hv⟩ := exists_poly_eq w q.divX hdiv
    have hbit : ∀ c : ZMod 2, (if decide (c = 1) then 1 else 0 : ZMod 2) = c := by decide
    refine ⟨v.concat (decide (q.coeff 0 = 1)), ?_⟩
    rw [poly_concat, hv, hbit, add_comm, X_mul_divX_add]

end Gf2
