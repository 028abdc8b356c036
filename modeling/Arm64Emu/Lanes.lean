import Mathlib

/-! The elements of one width in a bit vector: reading and replacing an element, and a loop
that fills consecutive elements. -/
namespace Lanes

variable {n e : ℕ}

/-- Element `i` of width `e`. -/
def lane (e : ℕ) (v : BitVec n) (i : ℕ) : BitVec e := (v >>> (e * i)).setWidth e

def setLane (v : BitVec n) (i : ℕ) (x : BitVec e) : BitVec n :=
  (v &&& ~~~((BitVec.allOnes e).setWidth n <<< (e * i))) ||| (x.setWidth n <<< (e * i))

/-- The elements `base`, `base + 1`, ... are replaced by the first `k` values of `f`. -/
def fill (f : ℕ → BitVec e) (base : ℕ) (v : BitVec n) : ℕ → BitVec n
  | 0 => v
  | k + 1 => setLane (fill f base v k) (base + k) (f k)

@[simp] lemma getLsbD_lane (v : BitVec n) (i k : ℕ) :
    (lane e v i).getLsbD k = (decide (k < e) && v.getLsbD (e * i + k)) := by
  rw [lane, BitVec.getLsbD_setWidth, BitVec.getLsbD_ushiftRight]

lemma getLsbD_setLane (v : BitVec n) {i : ℕ} (hi : e * i + e ≤ n) (x : BitVec e) (k : ℕ) :
    (setLane v i x).getLsbD k = if e * i ≤ k ∧ k < e * i + e then x.getLsbD (k - e * i) else v.getLsbD k := by
  by_cases hk : k < n
  · by_cases h : e * i ≤ k ∧ k < e * i + e
    · rw [if_pos h]
      simp [setLane, hk, Nat.not_lt.mpr h.1, show k - e * i < e by omega]
    · rw [if_neg h]
      by_cases hlow : k < e * i
      · simp [setLane, hk, hlow]
      · simp [setLane, hk, hlow, show ¬k - e * i < e by omega, BitVec.getLsbD_of_ge x (k - e * i) (by omega)]
  · rw [BitVec.getLsbD_of_ge _ _ (Nat.le_of_not_lt hk), if_neg (by omega), BitVec.getLsbD_of_ge _ _ (Nat.le_of_not_lt hk)]

lemma lane_setLane_self (v : BitVec n) {i : ℕ} (hi : e * i + e ≤ n) (x : BitVec e) : lane e (setLane v i x) i = x := by
  refine BitVec.eq_of_getLsbD_eq fun k hk => ?_
  rw [getLsbD_lane, getLsbD_setLane v hi, if_pos (by omega), Nat.add_sub_cancel_left, decide_eq_true hk, Bool.true_and]

lemma lane_setLane_ne (v : BitVec n) {i j : ℕ} (hi : e * i + e ≤ n) (hij : j ≠ i) (x : BitVec e) :
    lane e (setLane v i x) j = lane e v j := by
  refine BitVec.eq_of_getLsbD_eq fun k hk => ?_
  have hout : ¬(e * i ≤ e * j + k ∧ e * j + k < e * i + e) := by
    rintro ⟨hle, hlt⟩
    rcases Nat.lt_or_gt_of_ne hij with h | h
    · have := Nat.mul_le_mul_left e (Nat.succ_le_of_lt h)
      rw [Nat.mul_succ] at this
      omega
    · have := Nat.mul_le_mul_left e (Nat.succ_le_of_lt h)
      rw [Nat.mul_succ] at this
      omega
  rw [getLsbD_lane, getLsbD_lane, getLsbD_setLane v hi, if_neg hout]

lemma ext_lane (he : 0 < e) {m : ℕ} (hn : n = e * m) {v w : BitVec n} (h : ∀ i < m, lane e v i = lane e w i) : v = w := by
  refine BitVec.eq_of_getLsbD_eq fun k hk => ?_
  have hlane := congrArg (BitVec.getLsbD · (k % e)) (h (k / e) (Nat.div_lt_of_lt_mul (hn ▸ hk)))
  have hmod := Nat.mod_lt k he
  simpa only [getLsbD_lane, hmod, decide_true, Bool.true_and, Nat.div_add_mod] using hlane

lemma fill_congr {f g : ℕ → BitVec e} {k : ℕ} (h : ∀ i < k, f i = g i) (base : ℕ) (v : BitVec n) :
    fill f base v k = fill g base v k := by
  induction k with
  | zero => rfl
  | succ k ih => rw [fill, fill, ih fun i hi => h i (by omega), h k (by omega)]

lemma lane_fill (f : ℕ → BitVec e) {base k : ℕ} (hk : e * (base + k) ≤ n) (v : BitVec n) (j : ℕ) :
    lane e (fill f base v k) j = if base ≤ j ∧ j < base + k then f (j - base) else lane e v j := by
  induction k with
  | zero => rw [if_neg (by omega)]; rfl
  | succ k ih =>
    have hin : e * (base + k) + e ≤ n := by
      rw [← Nat.mul_succ]
      exact hk
    rw [fill]
    by_cases hj : j = base + k
    · subst hj
      rw [lane_setLane_self _ hin, if_pos (by omega), Nat.add_sub_cancel_left]
    · rw [lane_setLane_ne _ hin hj, ih (by omega)]
      exact if_congr (by omega) rfl rfl

lemma getLsbD_fill (he : 0 < e) (f : ℕ → BitVec e) {k : ℕ} (hk : e * k ≤ n) (v : BitVec n) (i : ℕ) :
    (fill f 0 v k).getLsbD i = if i < e * k then (f (i / e)).getLsbD (i % e) else v.getLsbD i := by
  induction k with
  | zero => rfl
  | succ k ih =>
    rw [Nat.mul_succ] at hk ⊢
    rw [fill, Nat.zero_add, getLsbD_setLane _ hk, ih (by omega)]
    by_cases hi : e * k ≤ i ∧ i < e * k + e
    · have hdiv : i / e = k := Nat.div_eq_of_lt_le (by rw [Nat.mul_comm]; exact hi.1) (by rw [Nat.mul_comm, Nat.mul_succ]; exact hi.2)
      have hmod : i % e = i - e * k := by rw [Nat.mod_eq_sub, hdiv]
      rw [if_pos hi, if_pos hi.2, hdiv, hmod]
    · rw [if_neg hi]
      exact if_congr (by omega) rfl rfl

end Lanes
