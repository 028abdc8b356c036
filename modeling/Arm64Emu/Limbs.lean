import Mathlib

/-! Numbers of several words, the least significant word first, and sums with a carry that
goes from word to word. -/
namespace Limbs

variable {w : ℕ}

def value (l : List (BitVec w)) : ℕ := Nat.ofDigits (2 ^ w) (l.map BitVec.toNat)

def signed (l : List (BitVec w)) : ℤ :=
  if 2 * value l < 2 ^ (w * l.length) then value l else value l - 2 ^ (w * l.length)

/-- One word of a sum: the word `r`, the carry and the signed overflow. -/
structure FullAdd (x y r : BitVec w) (c c' v : Bool) : Prop where
  sum : r.toNat + 2 ^ w * c'.toNat = x.toNat + y.toNat + c.toNat
  overflow : v = true ↔ r.toInt ≠ x.toInt + y.toInt + c.toNat

section Carry

variable {n : ℕ}

def carryIn (c : Bool) : BitVec n := if c then 1 else 0

def carries (a b : BitVec n) (c : Bool) : Bool := 2 ^ n ≤ a.toNat + b.toNat + c.toNat

def overflows (a b : BitVec n) (c : Bool) : Bool := (a + b + carryIn c).toInt ≠ a.toInt + b.toInt + c.toNat

lemma toNat_carryIn (hn : 0 < n) (c : Bool) : (carryIn c : BitVec n).toNat = c.toNat := by
  cases c
  · rfl
  · simp only [carryIn, if_true, Bool.toNat_true]
    exact Nat.mod_eq_of_lt (Nat.one_lt_two_pow hn.ne')

lemma toInt_carryIn (hn : 1 < n) (c : Bool) : (carryIn c : BitVec n).toInt = c.toNat := by
  cases c
  · exact BitVec.toInt_zero
  · exact BitVec.toInt_one hn

section Wide
variable {m : ℕ} (a b : BitVec n) (c : Bool)

lemma setWidth_add_carryIn (h : n ≤ m) : (a.setWidth m + b.setWidth m + carryIn c).setWidth n = a + b + carryIn c := by
  rw [BitVec.setWidth_add _ _ h, BitVec.setWidth_add _ _ h, BitVec.setWidth_setWidth_of_le _ h,
    BitVec.setWidth_setWidth_of_le _ h, BitVec.setWidth_eq, BitVec.setWidth_eq]
  cases c
  · simp [carryIn]
  · simp [carryIn, BitVec.setWidth_ofNat_of_le h]

lemma carries_eq (h : n < m) : carries a b c = (a.setWidth m + b.setWidth m + carryIn c).getLsbD n := by
  have ha := a.isLt
  have hb := b.isLt
  have hc := Bool.toNat_le c
  have hpow : 2 ^ (n + 1) ≤ 2 ^ m := Nat.pow_le_pow_right (by decide) h
  have hsucc : 2 ^ (n + 1) = 2 * 2 ^ n := by rw [pow_succ, Nat.mul_comm]
  have hwide (x : BitVec n) : (x.setWidth m).toNat = x.toNat := by
    rw [BitVec.toNat_setWidth]
    exact Nat.mod_eq_of_lt (by have := x.isLt; omega)
  have hsum : (a.setWidth m + b.setWidth m + carryIn c).toNat = a.toNat + b.toNat + c.toNat := by
    rw [BitVec.toNat_add, BitVec.toNat_add, toNat_carryIn (by omega), hwide, hwide, Nat.mod_add_mod]
    exact Nat.mod_eq_of_lt (by omega)
  rw [BitVec.getLsbD, hsum, Nat.testBit_eq_decide_div_mod_eq]
  refine decide_eq_decide.2 ?_
  have hdiv : (a.toNat + b.toNat + c.toNat) / 2 ^ n ≤ 1 := by
    rw [← Nat.lt_succ_iff, Nat.div_lt_iff_lt_mul (by positivity)]
    omega
  have hone : 1 ≤ (a.toNat + b.toNat + c.toNat) / 2 ^ n ↔ 2 ^ n ≤ a.toNat + b.toNat + c.toNat := by
    rw [Nat.le_div_iff_mul_le (by positivity), Nat.one_mul]
  rw [← hone]
  generalize (a.toNat + b.toNat + c.toNat) / 2 ^ n = d at hdiv
  omega

lemma overflows_eq (hn : 1 < n) (h : n < m) : overflows a b c =
    decide ((a + b + carryIn c).signExtend m ≠ a.signExtend m + b.signExtend m + carryIn c) := by
  have hpow : (2 : ℤ) ^ (n + 1) ≤ 2 ^ m := pow_le_pow_right₀ (by norm_num) h
  have hsucc : (2 : ℤ) ^ (n + 1) = 2 * 2 ^ n := by rw [pow_succ, mul_comm]
  have hc : (c.toNat : ℤ) ≤ 1 := by exact_mod_cast Bool.toNat_le c
  have hhalf : (2 : ℤ) ^ n = 2 * 2 ^ (n - 1) := by rw [mul_comm, ← pow_succ, Nat.sub_add_cancel (by omega)]
  have hal := a.le_toInt
  have hau := BitVec.toInt_lt (x := a)
  have hbl := b.le_toInt
  have hbu := BitVec.toInt_lt (x := b)
  have hsum : (a.signExtend m + b.signExtend m + carryIn c).toInt = a.toInt + b.toInt + c.toNat := by
    rw [BitVec.toInt_add, BitVec.toInt_add, BitVec.toInt_signExtend_of_le h.le, BitVec.toInt_signExtend_of_le h.le,
      toInt_carryIn (by omega), Int.bmod_add_bmod]
    refine Int.bmod_eq_of_le ?_ ?_ <;> push_cast <;> omega
  refine decide_eq_decide.2 (not_congr ?_)
  rw [← hsum, ← BitVec.toInt_inj, BitVec.toInt_signExtend_of_le h.le]

end Wide

lemma fullAdd_add (hn : 0 < n) (a b : BitVec n) (c : Bool) :
    FullAdd a b (a + b + carryIn c) c (carries a b c) (overflows a b c) where
  sum := by
    have ha := a.isLt
    have hb := b.isLt
    have hc := Bool.toNat_le c
    rw [BitVec.toNat_add, BitVec.toNat_add, toNat_carryIn hn, Nat.mod_add_mod, carries]
    by_cases h : 2 ^ n ≤ a.toNat + b.toNat + c.toNat
    · rw [Nat.mod_eq_sub_mod h, Nat.mod_eq_of_lt (by omega), decide_eq_true h, Bool.toNat_true]
      omega
    · rw [Nat.mod_eq_of_lt (by omega), decide_eq_false h, Bool.toNat_false]
      omega
  overflow := decide_eq_true_iff

end Carry

/-- The words of a sum, each with the carry of the one before; the flags are the last word's. -/
inductive AddChain : Bool → List (BitVec w × BitVec w) → List (BitVec w) → Bool → Bool → Prop
  | last {x y r c c' v} (h : FullAdd x y r c c' v) : AddChain c [(x, y)] [r] c' v
  | next {x y r c c' v l rs c'' v'} (h : FullAdd x y r c c' v) (hl : AddChain c' l rs c'' v') :
      AddChain c ((x, y) :: l) (r :: rs) c'' v'

@[simp] lemma value_nil : value ([] : List (BitVec w)) = 0 := rfl

@[simp] lemma value_cons (x : BitVec w) (l : List (BitVec w)) : value (x :: l) = x.toNat + 2 ^ w * value l := rfl

lemma value_lt (l : List (BitVec w)) : value l < 2 ^ (w * l.length) := by
  induction l with
  | nil => simp
  | cons x l ih =>
    calc value (x :: l) = x.toNat + 2 ^ w * value l := rfl
      _ < 2 ^ w + 2 ^ w * value l := by gcongr; exact x.isLt
      _ = 2 ^ w * (value l + 1) := by ring
      _ ≤ 2 ^ w * 2 ^ (w * l.length) := by gcongr; exact ih
      _ = 2 ^ (w * (x :: l).length) := by rw [List.length_cons, Nat.mul_succ, pow_add, mul_comm]

lemma signed_cons (hw : 0 < w) (x : BitVec w) {l : List (BitVec w)} (hl : l ≠ []) :
    signed (x :: l) = x.toNat + 2 ^ w * signed l := by
  obtain ⟨k, hk⟩ : ∃ k, w * l.length = k + 1 :=
    Nat.exists_eq_succ_of_ne_zero (Nat.mul_pos hw (List.length_pos_iff.mpr hl)).ne'
  have hx := x.isLt
  have hlen : 2 ^ (w * (x :: l).length) = 2 ^ w * 2 ^ (k + 1) := by
    rw [List.length_cons, Nat.mul_succ, hk, pow_add, mul_comm]
  have hhalf : 2 * (x.toNat + 2 ^ w * value l) < 2 ^ w * 2 ^ (k + 1) ↔ 2 * value l < 2 ^ (k + 1) := by
    rw [pow_succ 2 k, show 2 ^ w * (2 ^ k * 2) = 2 * (2 ^ w * 2 ^ k) by ring, mul_comm (2 ^ k) 2]
    constructor
    · intro h
      have : 2 ^ w * value l < 2 ^ w * 2 ^ k := by omega
      have := Nat.lt_of_mul_lt_mul_left this
      omega
    · intro h
      have : 2 ^ w * (value l + 1) ≤ 2 ^ w * 2 ^ k := Nat.mul_le_mul_left _ (by omega)
      rw [Nat.mul_succ] at this
      omega
  have hlenZ : (2 : ℤ) ^ (w * (x :: l).length) = 2 ^ w * 2 ^ (k + 1) := by exact_mod_cast hlen
  unfold signed
  rw [hlen, hlenZ, hk, value_cons]
  simp only [hhalf]
  split_ifs <;> push_cast <;> ring

lemma signed_singleton (x : BitVec w) : signed [x] = x.toInt := by
  rw [signed, BitVec.toInt]
  simp

lemma signed_eq_iff {l : List (BitVec w)} {k : ℕ} (hk : w * l.length = k + 1) {s : ℤ}
    (hs : (value l : ℤ) ≡ s [ZMOD 2 ^ (k + 1)]) : signed l = s ↔ -2 ^ k ≤ s ∧ s < 2 ^ k := by
  have hlt : (value l : ℤ) < 2 ^ (k + 1) := by
    have := value_lt l
    rw [hk] at this
    exact_mod_cast this
  obtain ⟨q, hq⟩ := hs.dvd
  have hbound : -2 ^ k ≤ signed l ∧ signed l < 2 ^ k ∧ ∃ q, s = signed l + 2 ^ (k + 1) * q := by
    have hif : signed l = if 2 * (value l : ℤ) < 2 ^ (k + 1) then (value l : ℤ) else value l - 2 ^ (k + 1) := by
      rw [signed, hk]
      norm_cast
    rw [hif]
    rw [pow_succ] at hq hlt ⊢
    split_ifs with h
    · exact ⟨by omega, by omega, q, by omega⟩
    · exact ⟨by omega, by omega, q + 1, by rw [mul_add]; omega⟩
  obtain ⟨hlo, hhi, q, hq⟩ := hbound
  constructor
  · rintro rfl
    exact ⟨hlo, hhi⟩
  · rintro ⟨hslo, hshi⟩
    rw [pow_succ] at hq
    have h1 : (2 : ℤ) ^ k * (2 * q) < 2 ^ k * 2 := by
      linarith
    have h2 : (2 : ℤ) ^ k * (-2) < 2 ^ k * (2 * q) := by
      linarith
    have hpos : (0 : ℤ) < 2 ^ k := by positivity
    have h1 := lt_of_mul_lt_mul_left h1 hpos.le
    have h2 := lt_of_mul_lt_mul_left h2 hpos.le
    have : q = 0 := by omega
    rw [hq, this]
    ring

namespace AddChain
variable {c c' v : Bool} {l : List (BitVec w × BitVec w)} {rs : List (BitVec w)}

lemma ne_nil (h : AddChain c l rs c' v) : l ≠ [] ∧ rs.length = l.length := by
  induction h with
  | last => simp
  | next _ _ ih => simp [ih.2]

lemma value_add (h : AddChain c l rs c' v) : value rs + 2 ^ (w * l.length) * c'.toNat =
    value (l.map Prod.fst) + value (l.map Prod.snd) + c.toNat := by
  induction h with
  | last h => simpa using h.sum
  | @next x y r c c₁ v l rs c₂ v' h _ ih =>
    calc value (r :: rs) + 2 ^ (w * ((x, y) :: l).length) * c₂.toNat
        = r.toNat + 2 ^ w * (value rs + 2 ^ (w * l.length) * c₂.toNat) := by
          rw [List.length_cons, Nat.mul_succ, pow_add, value_cons]
          ring
      _ = (r.toNat + 2 ^ w * c₁.toNat) + 2 ^ w * (value (l.map Prod.fst) + value (l.map Prod.snd)) := by
          rw [ih]
          ring
      _ = _ := by
          rw [h.sum]
          simp only [List.map_cons, value_cons]
          ring

lemma signed_add (hw : 0 < w) (h : AddChain c l rs c' v) : v = true ↔
    signed rs ≠ signed (l.map Prod.fst) + signed (l.map Prod.snd) + c.toNat := by
  induction h with
  | last h => simpa [signed_singleton] using h.overflow
  | @next x y r c c₁ v l rs c₂ v' h hl ih =>
    have hne := hl.ne_nil.1
    have hrs : rs ≠ [] := List.ne_nil_of_length_pos (hl.ne_nil.2 ▸ List.length_pos_iff.mpr hne)
    have hsum : (r.toNat : ℤ) + 2 ^ w * c₁.toNat = x.toNat + y.toNat + c.toNat := by exact_mod_cast h.sum
    rw [ih, List.map_cons, List.map_cons, signed_cons hw _ hrs, signed_cons hw _ (by simpa using hne),
      signed_cons hw _ (by simpa using hne)]
    refine not_congr ⟨fun e => ?_, fun e => ?_⟩
    · rw [e]
      linear_combination hsum
    · have hpos : (2 : ℤ) ^ w ≠ 0 := by positivity
      refine mul_left_cancel₀ hpos ?_
      linear_combination e - hsum

theorem exact_add (hw : 0 < w) (h : AddChain c l rs c' v) {k : ℕ} (hk : w * l.length = k + 1) :
    value rs = (value (l.map Prod.fst) + value (l.map Prod.snd) + c.toNat) % 2 ^ (k + 1) ∧
    (c' = true ↔ 2 ^ (k + 1) ≤ value (l.map Prod.fst) + value (l.map Prod.snd) + c.toNat) ∧
    (v = true ↔ ¬(-2 ^ k ≤ signed (l.map Prod.fst) + signed (l.map Prod.snd) + c.toNat ∧
      signed (l.map Prod.fst) + signed (l.map Prod.snd) + c.toNat < 2 ^ k)) := by
  have hadd := h.value_add
  have hlt := value_lt rs
  rw [h.ne_nil.2, hk] at hlt
  rw [hk] at hadd
  refine ⟨?_, ?_, ?_⟩
  · rw [← hadd, Nat.add_mul_mod_self_left, Nat.mod_eq_of_lt hlt]
  · cases c'
    · simp only [Bool.toNat_false, Nat.mul_zero, Nat.add_zero] at hadd
      simp only [Bool.false_eq_true, false_iff, not_le]
      omega
    · simp only [Bool.toNat_true, Nat.mul_one] at hadd
      simp only [true_iff]
      omega
  · have hmod (m : List (BitVec w)) (hm : m.length = l.length) : (value m : ℤ) ≡ signed m [ZMOD 2 ^ (k + 1)] := by
      unfold signed
      rw [hm, hk]
      split_ifs
      · exact Int.ModEq.refl _
      · exact (Int.modEq_iff_dvd.mpr ⟨-1, by ring⟩)
    rw [h.signed_add hw, Ne, signed_eq_iff (by rw [h.ne_nil.2, hk])]
    calc (value rs : ℤ) ≡ value rs + 2 ^ (k + 1) * c'.toNat [ZMOD 2 ^ (k + 1)] :=
          (Int.modEq_iff_dvd.mpr ⟨c'.toNat, by ring⟩)
      _ = value (l.map Prod.fst) + value (l.map Prod.snd) + c.toNat := by exact_mod_cast hadd
      _ ≡ signed (l.map Prod.fst) + signed (l.map Prod.snd) + c.toNat [ZMOD 2 ^ (k + 1)] :=
          ((hmod _ (by simp)).add (hmod _ (by simp))).add_right _

end AddChain

section Complement

lemma value_not (l : List (BitVec w)) : value (l.map (~~~·)) + value l + 1 = 2 ^ (w * l.length) := by
  induction l with
  | nil => simp
  | cons x l ih =>
    have hx : (~~~x).toNat + x.toNat + 1 = 2 ^ w := by
      have := x.isLt
      rw [BitVec.toNat_not]
      omega
    calc value ((x :: l).map (~~~·)) + value (x :: l) + 1
        = ((~~~x).toNat + x.toNat + 1) + 2 ^ w * (value (l.map (~~~·)) + value l) := by
          rw [List.map_cons, value_cons, value_cons]
          ring
      _ = 2 ^ w * (value (l.map (~~~·)) + value l + 1) := by rw [hx]; ring
      _ = 2 ^ (w * (x :: l).length) := by rw [ih, List.length_cons, Nat.mul_succ, pow_add, mul_comm]

lemma signed_not {l : List (BitVec w)} {k : ℕ} (hk : w * l.length = k + 1) :
    signed (l.map (~~~·)) = -1 - signed l := by
  have hnot := value_not l
  have hnotZ : (value (l.map (~~~·)) : ℤ) + value l + 1 = 2 ^ (w * l.length) := by exact_mod_cast hnot
  unfold signed
  rw [List.length_map, hk] at *
  rw [pow_succ] at hnot
  split_ifs <;> omega

theorem AddChain.exact_sub (hw : 0 < w) {l : List (BitVec w × BitVec w)} {rs : List (BitVec w)} {c' v : Bool}
    (h : AddChain true (l.map fun p => (p.1, ~~~p.2)) rs c' v) {k : ℕ} (hk : w * l.length = k + 1) :
    (value rs : ℤ) = (value (l.map Prod.fst) - value (l.map Prod.snd)) % 2 ^ (k + 1) ∧
    (c' = true ↔ value (l.map Prod.snd) ≤ value (l.map Prod.fst)) ∧
    (v = true ↔ ¬(-2 ^ k ≤ signed (l.map Prod.fst) - signed (l.map Prod.snd) ∧
      signed (l.map Prod.fst) - signed (l.map Prod.snd) < 2 ^ k)) := by
  obtain ⟨hval, hcarry, hover⟩ := h.exact_add hw (k := k) (by simpa using hk)
  have hfst : (l.map fun p => (p.1, ~~~p.2)).map Prod.fst = l.map Prod.fst := by simp
  have hsnd : (l.map fun p => (p.1, ~~~p.2)).map Prod.snd = (l.map Prod.snd).map (~~~·) := by simp
  have hnot := value_not (l.map Prod.snd)
  have hsigned := signed_not (l := l.map Prod.snd) (k := k) (by simpa using hk)
  rw [List.length_map, hk] at hnot
  rw [hfst, hsnd] at hval hcarry hover
  rw [hsigned] at hover
  simp only [Bool.toNat_true] at hval hcarry hover
  refine ⟨?_, ?_, ?_⟩
  · have hnotZ : (value ((l.map Prod.snd).map (~~~·)) : ℤ) = 2 ^ (k + 1) - value (l.map Prod.snd) - 1 := by
      have : (value ((l.map Prod.snd).map (~~~·)) : ℤ) + value (l.map Prod.snd) + 1 = 2 ^ (k + 1) := by exact_mod_cast hnot
      linarith
    rw [hval]
    push_cast
    rw [hnotZ, show ∀ a b m : ℤ, a + (m - b - 1) + 1 = a - b + m by intro a b m; ring, Int.add_emod_right]
  · rw [hcarry]
    omega
  · rw [hover]
    push_cast
    rw [show ∀ a b : ℤ, a + (-1 - b) + 1 = a - b by intro a b; ring]

end Complement

end Limbs
