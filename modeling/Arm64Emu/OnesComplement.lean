import Mathlib

/-! One's-complement sums: the carry out of the top comes in at the bottom. Such a sum is a
residue modulo `2 ^ w - 1` that is zero only when every summand is. -/
namespace OnesComplement

variable {w : ℕ}

def add (a b : BitVec w) : BitVec w := a + b + if 2 ^ w ≤ a.toNat + b.toNat then 1#w else 0#w

def sum (words : List (BitVec w)) : BitVec w := words.foldl add 0#w

/-- Words among which there is a right checksum add up to all ones. -/
def Verifies (words : List (BitVec w)) : Prop := sum words = BitVec.allOnes w

instance (words : List (BitVec w)) : Decidable (Verifies words) := inferInstanceAs (Decidable (_ = _))

def total (words : List (BitVec w)) : ℕ := (words.map BitVec.toNat).sum

/-- From 1 to `2 ^ w - 1`, and zero for zero. -/
def residue (w n : ℕ) : ℕ := if n = 0 then 0 else (n - 1) % (2 ^ w - 1) + 1

lemma residue_pos {n : ℕ} (h : 0 < n) : residue w n = (n - 1) % (2 ^ w - 1) + 1 := if_neg h.ne'

lemma residue_of_lt {n : ℕ} (h : n < 2 ^ w) : residue w n = n := by
  rcases Nat.eq_zero_or_pos n with rfl | hn
  · rfl
  · rw [residue_pos hn, Nat.mod_eq_of_lt (by omega)]
    omega

lemma residue_lt (hw : 0 < w) (n : ℕ) : residue w n < 2 ^ w := by
  have hbig : 1 < 2 ^ w := Nat.one_lt_two_pow hw.ne'
  unfold residue
  split
  · omega
  · have := Nat.mod_lt (n - 1) (show 0 < 2 ^ w - 1 by omega)
    omega

lemma residue_add (m n : ℕ) : residue w (residue w m + n) = residue w (m + n) := by
  rcases Nat.eq_zero_or_pos m with rfl | hm
  · rfl
  rw [residue_pos hm, residue_pos (by omega), residue_pos (by omega)]
  congr 1
  calc ((m - 1) % (2 ^ w - 1) + 1 + n - 1) % (2 ^ w - 1)
      = ((m - 1) % (2 ^ w - 1) + n) % (2 ^ w - 1) := by congr 1; omega
    _ = (m - 1 + n) % (2 ^ w - 1) := Nat.mod_add_mod _ _ _
    _ = (m + n - 1) % (2 ^ w - 1) := by congr 1; omega

lemma residue_fold (w n : ℕ) : residue w (n % 2 ^ w + n / 2 ^ w) = residue w n := by
  have hsplit := Nat.mod_add_div n (2 ^ w)
  have hpos : 0 < 2 ^ w := Nat.two_pow_pos w
  rcases Nat.eq_zero_or_pos n with rfl | hn
  · simp
  have hmul : 2 ^ w * (n / 2 ^ w) = (2 ^ w - 1) * (n / 2 ^ w) + n / 2 ^ w := by
    rw [← Nat.succ_mul, Nat.succ_eq_add_one, Nat.sub_add_cancel hpos]
  have hparts : 0 < n % 2 ^ w + n / 2 ^ w := by
    rcases Nat.eq_zero_or_pos (n / 2 ^ w) with h | h
    · rw [h] at hsplit ⊢
      omega
    · omega
  rw [residue_pos hparts, residue_pos hn]
  congr 1
  rw [show n - 1 = (n % 2 ^ w + n / 2 ^ w - 1) + (2 ^ w - 1) * (n / 2 ^ w) by omega, Nat.add_mul_mod_self_left]

lemma toNat_add (hw : 0 < w) (a b : BitVec w) : (add a b).toNat = residue w (a.toNat + b.toNat) := by
  have ha := a.isLt
  have hb := b.isLt
  have hbig : 1 < 2 ^ w := Nat.one_lt_two_pow hw.ne'
  unfold add
  split
  · next hcarry =>
    have hword : (a + b + 1#w).toNat = a.toNat + b.toNat + 1 - 2 ^ w := by
      rw [BitVec.toNat_add, BitVec.toNat_add, BitVec.toNat_one hw, Nat.mod_add_mod, Nat.mod_eq_sub_mod (by omega),
        Nat.mod_eq_of_lt (by omega)]
    rw [hword, residue_pos (by omega), Nat.mod_eq_sub_mod (by omega), Nat.mod_eq_of_lt (by omega)]
    omega
  · next hfits =>
    rw [residue_of_lt (by omega), BitVec.add_zero, BitVec.toNat_add, Nat.mod_eq_of_lt (by omega)]

lemma toNat_foldl_add (hw : 0 < w) (words : List (BitVec w)) (a : BitVec w) :
    (words.foldl add a).toNat = residue w (a.toNat + total words) := by
  induction words generalizing a with
  | nil => exact (residue_of_lt a.isLt).symm
  | cons b words ih =>
    rw [List.foldl_cons, ih, toNat_add hw, residue_add, total, total, List.map_cons, List.sum_cons, Nat.add_assoc]

lemma toNat_sum (hw : 0 < w) (words : List (BitVec w)) : (sum words).toNat = residue w (total words) := by
  rw [sum, toNat_foldl_add hw, BitVec.toNat_zero, Nat.zero_add]

lemma residue_complement (hw : 0 < w) (n : ℕ) : residue w (n + (2 ^ w - 1 - residue w n)) = 2 ^ w - 1 := by
  have hlt := residue_lt hw n
  rw [← residue_add, Nat.add_sub_cancel' (by omega), residue_of_lt (by omega)]

lemma residue_add_allOnes (hw : 0 < w) {n : ℕ} (h : residue w n = 2 ^ w - 1) : residue w (n + (2 ^ w - 1)) = 2 ^ w - 1 := by
  have hbig : 1 < 2 ^ w := Nat.one_lt_two_pow hw.ne'
  rw [← residue_add, h, residue_pos (by omega), show 2 ^ w - 1 + (2 ^ w - 1) - 1 = 2 ^ w - 1 - 1 + (2 ^ w - 1) by omega,
    Nat.add_mod_right, Nat.mod_eq_of_lt (by omega)]
  omega

lemma verifies_iff (hw : 0 < w) (words : List (BitVec w)) : Verifies words ↔ residue w (total words) = 2 ^ w - 1 := by
  rw [Verifies, ← BitVec.toNat_inj, toNat_sum hw, BitVec.toNat_allOnes]

@[simp] lemma total_nil : total ([] : List (BitVec w)) = 0 := rfl

@[simp] lemma total_cons (a : BitVec w) (words : List (BitVec w)) : total (a :: words) = a.toNat + total words := rfl

lemma total_append (u v : List (BitVec w)) : total (u ++ v) = total u + total v := by
  rw [total, List.map_append, List.sum_append]
  rfl

lemma total_le (words : List (BitVec w)) : total words ≤ words.length * (2 ^ w - 1) := by
  induction words with
  | nil => exact Nat.zero_le _
  | cons a words ih =>
    have := a.isLt
    rw [total_cons, List.length_cons, Nat.succ_mul]
    omega

/-- Bytes taken two by two, the first of two the higher; a last one has a zero after it. -/
def pairs : List (BitVec 8) → List (BitVec 16)
  | a :: b :: rest => (a ++ b) :: pairs rest
  | [a] => [a ++ (0 : BitVec 8)]
  | [] => []

lemma length_pairs (bytes : List (BitVec 8)) : (pairs bytes).length = (bytes.length + 1) / 2 := by
  induction bytes using pairs.induct with
  | case1 a b rest ih => rw [pairs, List.length_cons, ih, List.length_cons, List.length_cons]; omega
  | case2 a => simp [pairs]
  | case3 => rfl

lemma pairs_append {u : List (BitVec 8)} (h : u.length % 2 = 0) (v : List (BitVec 8)) : pairs (u ++ v) = pairs u ++ pairs v := by
  induction u using pairs.induct with
  | case1 a b rest ih =>
    rw [List.length_cons, List.length_cons] at h
    rw [List.cons_append, List.cons_append, pairs, pairs, List.cons_append, ih (by omega)]
  | case2 a => rw [List.length_singleton] at h; cases h
  | case3 => rfl

lemma total_pairs_field {u : List (BitVec 8)} (h : u.length % 2 = 0) (a b : BitVec 8) (v : List (BitVec 8)) :
    total (pairs (u ++ a :: b :: v)) = total (pairs u ++ pairs v) + (a ++ b).toNat := by
  rw [pairs_append h, pairs, total_append, total_append, total_cons]
  omega

end OnesComplement
