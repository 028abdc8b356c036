import Arm64Emu.AluFacts
import Arm64Emu.Predecode
import Arm64Emu.Limbs

/-! Arithmetic on numbers of several words: sums and differences by `add_with_carry` with the
carry of the word before, and the high half of a product from halves of words. -/
namespace Arm64Emu

open Limbs (value signed FullAdd AddChain carryIn carries overflows fullAdd_add)

section Chains

abbrev limbBits (is64 : Bool) : ℕ := if is64 then 64 else 32

/-- The word of an operand that the 32-bit or 64-bit form works on. -/
def limb (is64 : Bool) (x : U64) : BitVec (limbBits is64) := x.setWidth (limbBits is64)

def carryFlag (f : U32) : Bool := f &&& psC ≠ 0

def overflowFlag (f : U32) : Bool := f &&& psV ≠ 0

/-- Calls of `add_with_carry`, or of `pd_awc`, each with the carry of the call before: the
results and the flags of the last one. -/
def awcChain (awc : U64 → U64 → Bool → Bool → U64 × U32) (is64 : Bool) :
    Bool → U32 → List (U64 × U64) → List U64 × U32
  | _, f, [] => ([], f)
  | cin, _, (x, y) :: l =>
    let (r, f) := awc x y cin is64
    let (rs, f) := awcChain awc is64 (carryFlag f) f l
    (r :: rs, f)

/-- `ADDS` on the first words, then `ADCS`. -/
def addsAdcs (awc : U64 → U64 → Bool → Bool → U64 × U32) (is64 : Bool) (l : List (U64 × U64)) : List U64 × U32 :=
  awcChain awc is64 false 0 l

/-- `SUBS` on the first words, then `SBCS`, with the second operand inverted. -/
def subsSbcs (awc : U64 → U64 → Bool → Bool → U64 × U32) (is64 : Bool) (l : List (U64 × U64)) : List U64 × U32 :=
  awcChain awc is64 true 0 (l.map fun p => (p.1, ~~~p.2))

lemma flagWord_carry : ∀ n z c v, carryFlag (flagWord n z c v) = c ∧ overflowFlag (flagWord n z c v) = v := by decide

lemma limb_true (x : U64) : limb true x = x := BitVec.setWidth_eq x

lemma addWithCarry_flags (is64 : Bool) (x y : U64) (c : Bool) : ∃ n z, (addWithCarry x y c is64).2 =
    flagWord n z (carries (limb is64 x) (limb is64 y) c) (overflows (limb is64 x) (limb is64 y) c) := by
  cases is64 with
  | true =>
    have hres := Limbs.setWidth_add_carryIn x y c (m := 128) (by decide)
    have hc := Limbs.carries_eq x y c (m := 128) (by decide)
    have hv := Limbs.overflows_eq x y c (m := 128) (by decide) (by decide)
    rw [← hres] at hv
    rw [limb_true, limb_true, hc, hv]
    exact ⟨_, _, rfl⟩
  | false =>
    have hres := Limbs.setWidth_add_carryIn (x.setWidth 32) (y.setWidth 32) c (m := 64) (by decide)
    have hc := Limbs.carries_eq (x.setWidth 32) (y.setWidth 32) c (m := 64) (by decide)
    have hv := Limbs.overflows_eq (x.setWidth 32) (y.setWidth 32) c (m := 64) (by decide) (by decide)
    rw [← hres] at hv
    exact ⟨_, _, congrArg₂ (flagWord _ _) hc.symm hv.symm⟩

lemma addWithCarry_fullAdd (is64 : Bool) (x y : U64) (c : Bool) :
    FullAdd (limb is64 x) (limb is64 y) (limb is64 (addWithCarry x y c is64).1) c
      (carryFlag (addWithCarry x y c is64).2) (overflowFlag (addWithCarry x y c is64).2) ∧
    (addWithCarry x y c is64).1 = (limb is64 (addWithCarry x y c is64).1).setWidth 64 := by
  obtain ⟨n, z, hflags⟩ := addWithCarry_flags is64 x y c
  rw [hflags, (flagWord_carry _ _ _ _).1, (flagWord_carry _ _ _ _).2]
  cases is64 with
  | true =>
    rw [addWithCarry_64, limb_true, limb_true, limb_true]
    exact ⟨fullAdd_add (by decide) x y c, (BitVec.setWidth_eq _).symm⟩
  | false =>
    have hsum : (addWithCarry x y c false).1.setWidth 32 = x.setWidth 32 + y.setWidth 32 + carryIn c := by
      rw [addWithCarry_32]
      cases c <;> simp [lo32, carryIn, BitVec.setWidth_add]
    have hlo : (addWithCarry x y c false).1 = ((addWithCarry x y c false).1.setWidth 32).setWidth 64 := by
      rw [addWithCarry_32]
      simp [lo32]
    have hadd := fullAdd_add (by decide) (x.setWidth 32) (y.setWidth 32) c
    rw [← hsum] at hadd
    exact ⟨hadd, hlo⟩

lemma awcChain_addChain (is64 : Bool) (p : U64 × U64) (l : List (U64 × U64)) (c : Bool) (f : U32) :
    AddChain c ((p :: l).map fun p => (limb is64 p.1, limb is64 p.2))
      ((awcChain addWithCarry is64 c f (p :: l)).1.map (limb is64)) (carryFlag (awcChain addWithCarry is64 c f (p :: l)).2)
      (overflowFlag (awcChain addWithCarry is64 c f (p :: l)).2) := by
  induction l generalizing p c f with
  | nil => exact .last (addWithCarry_fullAdd is64 p.1 p.2 c).1
  | cons q l ih =>
    exact .next (addWithCarry_fullAdd is64 p.1 p.2 c).1 (ih q _ (addWithCarry p.1 p.2 c is64).2)

lemma awcChain_words (is64 : Bool) (l : List (U64 × U64)) (c : Bool) (f : U32) :
    ∀ r ∈ (awcChain addWithCarry is64 c f l).1, r = (limb is64 r).setWidth 64 := by
  induction l generalizing c f with
  | nil => simp [awcChain]
  | cons p l ih =>
    intro r hr
    rcases List.mem_cons.mp hr with rfl | hr
    · exact (addWithCarry_fullAdd is64 p.1 p.2 c).2
    · exact ih _ _ r hr

lemma awcChain_pdAwc (is64 : Bool) (l : List (U64 × U64)) (c : Bool) (f : U32) :
    awcChain pdAwc is64 c f l = awcChain addWithCarry is64 c f l := by
  rw [show pdAwc = addWithCarry from funext fun x => funext fun y => funext fun c => funext fun w => pdAwc_eq x y c w]

lemma limb_not (is64 : Bool) (x : U64) : limb is64 (~~~x) = ~~~limb is64 x := by
  cases is64 <;> exact BitVec.setWidth_not (by decide)

lemma limbBits_pos (is64 : Bool) : 0 < limbBits is64 := by cases is64 <;> decide

/-- The calls on numbers of one or more words give the words of the sum and of the difference,
the carry, which is clear after a borrow, and the overflow of the whole operation; `pd_awc` gives
the same. -/
theorem multiword_arithmetic (is64 : Bool) (p : U64 × U64) (l : List (U64 × U64)) :
    let xs := (p :: l).map fun q => limb is64 q.1
    let ys := (p :: l).map fun q => limb is64 q.2
    let k := limbBits is64 * (p :: l).length
    let sum := addsAdcs addWithCarry is64 (p :: l)
    let diff := subsSbcs addWithCarry is64 (p :: l)
    (sum.1.length = (p :: l).length ∧ diff.1.length = (p :: l).length) ∧
    (∀ r ∈ sum.1 ++ diff.1, r = (limb is64 r).setWidth 64) ∧
    value (sum.1.map (limb is64)) = (value xs + value ys) % 2 ^ k ∧
    (carryFlag sum.2 = true ↔ 2 ^ k ≤ value xs + value ys) ∧
    (overflowFlag sum.2 = true ↔
      ¬(-2 ^ (k - 1) ≤ signed xs + signed ys ∧ signed xs + signed ys < 2 ^ (k - 1))) ∧
    (value (diff.1.map (limb is64)) : ℤ) = (value xs - value ys) % 2 ^ k ∧
    (carryFlag diff.2 = true ↔ value ys ≤ value xs) ∧
    (overflowFlag diff.2 = true ↔
      ¬(-2 ^ (k - 1) ≤ signed xs - signed ys ∧ signed xs - signed ys < 2 ^ (k - 1))) ∧
    addsAdcs pdAwc is64 (p :: l) = sum ∧ subsSbcs pdAwc is64 (p :: l) = diff := by
  intro xs ys k sum diff
  have hpos := limbBits_pos is64
  obtain ⟨j, hj⟩ : ∃ j, k = j + 1 := Nat.exists_eq_succ_of_ne_zero (Nat.mul_pos hpos (by simp)).ne'
  have hsum : AddChain false _ (sum.1.map (limb is64)) (carryFlag sum.2) (overflowFlag sum.2) :=
    awcChain_addChain is64 p l false 0
  have hdiff : AddChain true _ (diff.1.map (limb is64)) (carryFlag diff.2) (overflowFlag diff.2) :=
    awcChain_addChain is64 (p.1, ~~~p.2) (l.map fun q => (q.1, ~~~q.2)) true 0
  have hlen : ∀ q : List (U64 × U64), (q.map fun q => (limb is64 q.1, limb is64 q.2)).length = q.length := by simp
  have hnot : ((p.1, ~~~p.2) :: l.map fun q => (q.1, ~~~q.2)).map (fun q => (limb is64 q.1, limb is64 q.2)) =
      ((p :: l).map fun q => (limb is64 q.1, limb is64 q.2)).map fun q => (q.1, ~~~q.2) := by
    simp [limb_not]
  rw [hnot] at hdiff
  have hxs : ((p :: l).map fun q => (limb is64 q.1, limb is64 q.2)).map Prod.fst = xs := by simp [xs]
  have hys : ((p :: l).map fun q => (limb is64 q.1, limb is64 q.2)).map Prod.snd = ys := by simp [ys]
  obtain ⟨hsv, hsc, hso⟩ := hsum.exact_add hpos (k := j) (by rw [hlen]; exact hj)
  obtain ⟨hdv, hdc, hdo⟩ := hdiff.exact_sub hpos (k := j) (by rw [hlen]; exact hj)
  rw [hxs, hys, ← hj] at hsv hsc hdv
  rw [hxs, hys] at hso hdc hdo
  simp only [Bool.toNat_false, Int.natCast_zero, add_zero] at hsv hsc hso
  rw [hj, Nat.add_sub_cancel, ← hj]
  refine ⟨⟨?_, ?_⟩, ?_, hsv, hsc, hso, hdv, hdc, hdo, awcChain_pdAwc .., awcChain_pdAwc ..⟩
  · simpa using hsum.ne_nil.2
  · simpa using hdiff.ne_nil.2
  · intro r hr
    rcases List.mem_append.mp hr with hr | hr
    · exact awcChain_words is64 _ _ _ r hr
    · exact awcChain_words is64 _ _ _ r hr

end Chains

section Products

/-- `umulh64` without 128-bit integers, from the products of halves. -/
def umulh64Limbs (a b : U64) : U64 :=
  let al := lo32 a
  let ah := a >>> 32
  let bl := lo32 b
  let bh := b >>> 32
  let ll := al * bl
  let lh := al * bh
  let hl := ah * bl
  let hh := ah * bh
  let mid := lh + (ll >>> 32)
  let carry : U64 := if mid < lh then 1 <<< 32 else 0
  let mid := mid + hl
  let carry := if mid < hl then carry + 1 <<< 32 else carry
  hh + (mid >>> 32) + carry

/-- `smulh64` without 128-bit integers. -/
def smulh64Limbs (a b : U64) : U64 :=
  let h := umulh64Limbs a b
  let h := if a.toInt < 0 then h - b else h
  if b.toInt < 0 then h - a else h

lemma toNat_mul_half {x y : U64} (hx : x.toNat < 2 ^ 32) (hy : y.toNat < 2 ^ 32) :
    (x * y).toNat = x.toNat * y.toNat ∧ x.toNat * y.toNat ≤ (2 ^ 32 - 1) * (2 ^ 32 - 1) := by
  have hle : x.toNat * y.toNat ≤ (2 ^ 32 - 1) * (2 ^ 32 - 1) := Nat.mul_le_mul (by omega) (by omega)
  refine ⟨?_, hle⟩
  rw [BitVec.toNat_mul, Nat.mod_eq_of_lt]
  omega

lemma highWord_toNat {ll lh hl hh : U64} (hll : ll.toNat ≤ (2 ^ 32 - 1) * (2 ^ 32 - 1))
    (hlh : lh.toNat ≤ (2 ^ 32 - 1) * (2 ^ 32 - 1)) (hhl : hl.toNat ≤ (2 ^ 32 - 1) * (2 ^ 32 - 1))
    (hhh : hh.toNat ≤ (2 ^ 32 - 1) * (2 ^ 32 - 1)) :
    (let mid := lh + (ll >>> 32)
      let carry : U64 := if mid < lh then 1 <<< 32 else 0
      let mid := mid + hl
      let carry := if mid < hl then carry + 1 <<< 32 else carry
      hh + (mid >>> 32) + carry).toNat =
      (hh.toNat * 2 ^ 64 + (hl.toNat + lh.toNat) * 2 ^ 32 + ll.toNat) / 2 ^ 64 := by
  have hmid : (lh + (ll >>> 32)).toNat = lh.toNat + ll.toNat / 2 ^ 32 := by
    rw [BitVec.toNat_add, BitVec.toNat_ushiftRight, Nat.shiftRight_eq_div_pow, Nat.mod_eq_of_lt]
    omega
  have hnocarry : ¬lh + (ll >>> 32) < lh := by
    rw [BitVec.lt_def, hmid]
    omega
  dsimp only
  rw [if_neg hnocarry]
  have hmid2 : (lh + (ll >>> 32) + hl).toNat = (lh.toNat + ll.toNat / 2 ^ 32 + hl.toNat) % 2 ^ 64 := by
    rw [BitVec.toNat_add, hmid]
  split_ifs with hc
  all_goals
    rw [BitVec.lt_def, hmid2] at hc
    rw [BitVec.toNat_add, BitVec.toNat_add, BitVec.toNat_ushiftRight, Nat.shiftRight_eq_div_pow, hmid2]
  · rw [show ((0 : U64) + 1 <<< 32).toNat = 2 ^ 32 by decide]
    omega
  · rw [show (0 : U64).toNat = 0 by decide]
    omega

lemma umulh64Limbs_toNat (a b : U64) : (umulh64Limbs a b).toNat = a.toNat * b.toNat / 2 ^ 64 := by
  have hlo (x : U64) : (lo32 x).toNat = x.toNat % 2 ^ 32 := by
    rw [lo32, BitVec.toNat_setWidth_of_le (by decide), BitVec.toNat_setWidth]
  have hhi (x : U64) : (x >>> 32).toNat = x.toNat / 2 ^ 32 := by rw [BitVec.toNat_ushiftRight, Nat.shiftRight_eq_div_pow]
  have hlolt (x : U64) : (lo32 x).toNat < 2 ^ 32 := hlo x ▸ Nat.mod_lt _ (by decide)
  have hhilt (x : U64) : (x >>> 32).toNat < 2 ^ 32 := by
    have := x.isLt
    rw [hhi]
    omega
  obtain ⟨hll, hllb⟩ := toNat_mul_half (hlolt a) (hlolt b)
  obtain ⟨hlh, hlhb⟩ := toNat_mul_half (hlolt a) (hhilt b)
  obtain ⟨hhl, hhlb⟩ := toNat_mul_half (hhilt a) (hlolt b)
  obtain ⟨hhh, hhhb⟩ := toNat_mul_half (hhilt a) (hhilt b)
  have hsplit (x : U64) : x.toNat = (x >>> 32).toNat * 2 ^ 32 + (lo32 x).toNat := by
    rw [hhi, hlo]
    omega
  have hprod : a.toNat * b.toNat = (a >>> 32).toNat * (b >>> 32).toNat * 2 ^ 64 +
      ((a >>> 32).toNat * (lo32 b).toNat + (lo32 a).toNat * (b >>> 32).toNat) * 2 ^ 32 +
      (lo32 a).toNat * (lo32 b).toNat := by
    rw [hsplit a, hsplit b]
    ring
  rw [hprod, ← hll, ← hlh, ← hhl, ← hhh]
  exact highWord_toNat (hll ▸ hllb) (hlh ▸ hlhb) (hhl ▸ hhlb) (hhh ▸ hhhb)

lemma abs_toInt_mul_le (a b : U64) : |a.toInt * b.toInt| ≤ 2 ^ 126 := by
  have hle (x : U64) : |x.toInt| ≤ 2 ^ 63 := abs_le.mpr ⟨x.le_toInt, x.toInt_lt.le⟩
  calc |a.toInt * b.toInt| = |a.toInt| * |b.toInt| := abs_mul _ _
    _ ≤ 2 ^ 63 * 2 ^ 63 := mul_le_mul (hle a) (hle b) (abs_nonneg _) (by positivity)
    _ = 2 ^ 126 := by norm_num

lemma toInt_mul_eq (a b : U64) : a.toInt * b.toInt = a.toNat * b.toNat -
    2 ^ 64 * ((if a.toInt < 0 then (b.toNat : ℤ) else 0) + (if b.toInt < 0 then (a.toNat : ℤ) else 0)) +
    2 ^ 128 * (if a.toInt < 0 ∧ b.toInt < 0 then 1 else 0) := by
  have hcase (x : U64) : x.toInt = if x.toInt < 0 then (x.toNat : ℤ) - 2 ^ 64 else (x.toNat : ℤ) := by
    have := x.isLt
    rw [BitVec.toInt_eq_toNat_cond]
    split_ifs <;> omega
  have ha := hcase a
  have hb := hcase b
  by_cases hna : a.toInt < 0 <;> by_cases hnb : b.toInt < 0 <;>
    simp only [hna, hnb, if_true, if_false, and_true, and_false] at ha hb ⊢ <;> rw [ha, hb] <;> ring

lemma smulh64Limbs_toInt (a b : U64) : (smulh64Limbs a b).toInt = a.toInt * b.toInt / 2 ^ 64 := by
  have hu := umulh64Limbs_toNat a b
  have huZ : ((umulh64Limbs a b).toNat : ℤ) = (a.toNat * b.toNat : ℤ) / 2 ^ 64 := by exact_mod_cast hu
  obtain ⟨hlo, hhi⟩ := abs_le.mp (abs_toInt_mul_le a b)
  have hmul := toInt_mul_eq a b
  have hA := a.isLt
  have hB := b.isLt
  have hU := (umulh64Limbs a b).isLt
  unfold smulh64Limbs
  generalize umulh64Limbs a b = h at *
  generalize (a.toNat * b.toNat : ℤ) = p at *
  generalize a.toInt * b.toInt = t at *
  rw [BitVec.toInt_eq_toNat_cond]
  by_cases hna : a.toInt < 0 <;> by_cases hnb : b.toInt < 0 <;>
    simp only [hna, hnb, if_true, if_false, and_true, and_false, BitVec.toNat_sub] at hmul ⊢ <;>
    split_ifs <;> push_cast <;> omega

lemma umulh64_toNat (a b : U64) : (umulh64 a b).toNat = a.toNat * b.toNat / 2 ^ 64 := by
  have hlt : a.toNat * b.toNat < 2 ^ 64 * 2 ^ 64 := Nat.mul_lt_mul'' a.isLt b.isLt
  have hmul : (a.setWidth 128 * b.setWidth 128).toNat = a.toNat * b.toNat := by
    rw [BitVec.toNat_mul, BitVec.toNat_setWidth_of_le (by decide), BitVec.toNat_setWidth_of_le (by decide),
      Nat.mod_eq_of_lt (by omega)]
  rw [umulh64, BitVec.toNat_setWidth, BitVec.toNat_ushiftRight, hmul, Nat.shiftRight_eq_div_pow, Nat.mod_eq_of_lt]
  omega

lemma smulh64_toInt (a b : U64) : (smulh64 a b).toInt = a.toInt * b.toInt / 2 ^ 64 := by
  obtain ⟨hlo, hhi⟩ := abs_le.mp (abs_toInt_mul_le a b)
  have hmul : (a.signExtend 128 * b.signExtend 128).toInt = a.toInt * b.toInt := by
    rw [BitVec.toInt_mul, BitVec.toInt_signExtend_of_le (by decide), BitVec.toInt_signExtend_of_le (by decide)]
    exact Int.bmod_eq_of_le (by omega) (by omega)
  have hshift : ((a.signExtend 128 * b.signExtend 128).sshiftRight 64).toInt = a.toInt * b.toInt / 2 ^ 64 := by
    rw [BitVec.toInt_sshiftRight, hmul, Int.shiftRight_eq_div_pow]
    norm_cast
  rw [smulh64, BitVec.toInt_setWidth]
  rw [BitVec.toInt_eq_toNat_cond] at hshift
  rw [Int.bmod]
  split_ifs at hshift ⊢ <;> omega

/-- The high words of the exact products; with the low word, which `MUL` gives, they are the
whole of them. -/
theorem high_multiply (a b : U64) :
    (umulh64Limbs a b).toNat = a.toNat * b.toNat / 2 ^ 64 ∧
    (smulh64Limbs a b).toInt = a.toInt * b.toInt / 2 ^ 64 ∧
    (umulh64Limbs a b).toNat * 2 ^ 64 + (a * b).toNat = a.toNat * b.toNat ∧
    (smulh64Limbs a b).toInt * 2 ^ 64 + (a * b).toNat = a.toInt * b.toInt ∧
    umulh64Limbs a b = umulh64 a b ∧ smulh64Limbs a b = smulh64 a b := by
  have hu := umulh64Limbs_toNat a b
  have hs := smulh64Limbs_toInt a b
  have hlow : ((a * b).toNat : ℤ) = a.toInt * b.toInt % 2 ^ 64 := by
    rw [toInt_mul_eq, BitVec.toNat_mul]
    push_cast
    omega
  refine ⟨hu, hs, ?_, ?_, ?_, ?_⟩
  · rw [hu, BitVec.toNat_mul, mul_comm, Nat.div_add_mod]
  · rw [hs, hlow, mul_comm, Int.mul_ediv_add_emod]
  · exact BitVec.eq_of_toNat_eq (hu.trans (umulh64_toNat a b).symm)
  · exact BitVec.eq_of_toInt_eq (hs.trans (smulh64_toInt a b).symm)

end Products

end Arm64Emu
