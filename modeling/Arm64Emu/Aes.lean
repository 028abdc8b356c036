import Arm64Emu.Crypto
import Arm64Emu.Gf2

/-! The AES instructions: the multiplication of bytes, and the inversion of the rounds. -/
namespace Arm64Emu

open Polynomial Gf2

section Field

noncomputable def aesPoly : (ZMod 2)[X] := X ^ 8 + X ^ 4 + X ^ 3 + X + 1

noncomputable def aesElem (a : U8) : AdjoinRoot aesPoly := AdjoinRoot.mk aesPoly (poly a)

/-- The class of `X`. -/
noncomputable abbrev aesRoot : AdjoinRoot aesPoly := AdjoinRoot.root aesPoly

lemma aesPoly_monic : aesPoly.Monic := by
  unfold aesPoly
  monicity!

lemma aesPoly_degree : aesPoly.degree = 8 := by
  unfold aesPoly
  compute_degree!

lemma two_eq_zero : (2 : AdjoinRoot aesPoly) = 0 := by
  rw [← map_ofNat (AdjoinRoot.of aesPoly) 2, show (2 : ZMod 2) = 0 from rfl, map_zero]

lemma aesElem_xor (a b : U8) : aesElem (a ^^^ b) = aesElem a + aesElem b := by
  rw [aesElem, poly_xor, map_add]
  rfl

lemma aesElem_zero : aesElem 0 = 0 := by
  show AdjoinRoot.mk aesPoly (poly 0#8) = 0
  rw [poly_zero, map_zero]

lemma aesElem_injective : Function.Injective aesElem := by
  intro a b h
  have hmk : AdjoinRoot.mk aesPoly (poly (a ^^^ b)) = 0 := by
    show aesElem (a ^^^ b) = 0
    rw [aesElem_xor, h, ← two_mul, two_eq_zero, zero_mul]
  have hdeg : (poly (a ^^^ b)).degree < aesPoly.degree := by
    rw [aesPoly_degree]
    exact degree_poly_lt (a ^^^ b)
  have hzero := eq_zero_of_dvd_of_degree_lt (AdjoinRoot.mk_eq_zero.mp hmk) hdeg
  have hxor : a ^^^ b = 0#8 := poly_injective (hzero.trans poly_zero.symm)
  exact BitVec.xor_eq_zero_iff.mp hxor

lemma aesRoot_pow_eight : aesRoot ^ 8 = aesRoot ^ 4 + aesRoot ^ 3 + aesRoot + 1 := by
  have h : AdjoinRoot.mk aesPoly (X ^ 8 + X ^ 4 + X ^ 3 + X + 1) = 0 := AdjoinRoot.mk_self
  simp only [map_add, map_pow, map_one, AdjoinRoot.mk_X] at h
  linear_combination h - (aesRoot ^ 4 + aesRoot ^ 3 + aesRoot + 1) * two_eq_zero

lemma aesElem_const : aesElem 1 = 1 ∧ aesElem 2 = aesRoot ∧ aesElem 3 = aesRoot + 1 ∧ aesElem 9 = aesRoot ^ 3 + 1 ∧
    aesElem 11 = aesRoot ^ 3 + aesRoot + 1 ∧ aesElem 13 = aesRoot ^ 3 + aesRoot ^ 2 + 1 ∧
    aesElem 14 = aesRoot ^ 3 + aesRoot ^ 2 + aesRoot ∧ aesElem 0x1b = aesRoot ^ 4 + aesRoot ^ 3 + aesRoot + 1 := by
  refine ⟨?_, ?_, ?_, ?_, ?_, ?_, ?_, ?_⟩ <;>
    simp [aesElem, poly, Finset.sum_range_succ, add_comm, add_assoc]

lemma aesElem_double (a : U8) : aesElem (if a.getLsbD 7 then (a <<< 1) ^^^ 0x1b else a <<< 1) = aesRoot * aesElem a := by
  have htop : ∀ a : U8, a >>> 7 = if a.getLsbD 7 then 1#8 else 0#8 := by decide
  have hshift := congrArg (AdjoinRoot.mk aesPoly) (poly_shiftLeft a (show 1 ≤ 8 by decide))
  rw [htop, map_add, map_mul, map_mul, map_pow, map_pow, AdjoinRoot.mk_X, pow_one, aesRoot_pow_eight] at hshift
  cases hbit : a.getLsbD 7 with
  | false =>
    rw [hbit, if_neg (by decide), poly_zero, map_zero, mul_zero, add_zero] at hshift
    exact hshift
  | true =>
    rw [hbit, if_pos rfl] at hshift
    change aesElem (a <<< 1) + _ * aesElem 1 = aesRoot * aesElem a at hshift
    rw [aesElem_const.1, mul_one] at hshift
    rw [if_pos rfl, aesElem_xor, aesElem_const.2.2.2.2.2.2.2, hshift]

lemma aesGfmulLoop_elem (k : ℕ) (p a b : U8) :
    aesElem (aesGfmulLoop k p a b) = aesElem p + aesElem a * AdjoinRoot.mk aesPoly (low b k) := by
  induction k generalizing p a b with
  | zero => simp [aesGfmulLoop, low]
  | succ k ih =>
    rw [aesGfmulLoop, ih, aesElem_double, low_succ]
    cases hbit : b.getLsbD 0 with
    | false =>
      simp only [Bool.false_eq_true, if_false, map_add, map_zero, map_mul, AdjoinRoot.mk_X]
      ring
    | true =>
      simp only [if_true, map_add, map_one, map_mul, AdjoinRoot.mk_X, aesElem_xor]
      ring

lemma aesElem_gfmul (a b : U8) : aesElem (aesGfmul a b) = aesElem a * aesElem b := by
  rw [aesGfmul, aesGfmulLoop_elem, aesElem_zero, zero_add]
  rfl

lemma aesElem_surjective : Function.Surjective aesElem := by
  intro y
  obtain ⟨g, rfl⟩ := AdjoinRoot.mk_surjective y
  have hdeg : (g %ₘ aesPoly).degree < (8 : ℕ) := by
    have := degree_modByMonic_lt g aesPoly_monic
    rwa [aesPoly_degree] at this
  obtain ⟨a, ha⟩ := exists_poly_eq 8 _ hdeg
  refine ⟨a, ?_⟩
  rw [aesElem, ha]
  refine AdjoinRoot.mk_eq_mk.mpr ⟨-(g /ₘ aesPoly), ?_⟩
  linear_combination modByMonic_add_div g aesPoly

end Field

section Mix
variable {R : Type*} [CommRing R]

/-- The first byte of a mixed column, and of one that is mixed back, over any ring. -/
def mixElem (inv : Bool) (x a b c d : R) : R :=
  if inv then (x ^ 3 + x ^ 2 + x) * a + (x ^ 3 + x + 1) * b + (x ^ 3 + x ^ 2 + 1) * c + (x ^ 3 + 1) * d
  else x * a + (x + 1) * b + c + d

lemma mixElem_mixElem (htwo : (2 : R) = 0) (inv : Bool) (x a b c d : R) :
    mixElem (!inv) x (mixElem inv x a b c d) (mixElem inv x b c d a) (mixElem inv x c d a b) (mixElem inv x d a b c) = a := by
  cases inv <;> simp only [mixElem, Bool.not_false, Bool.not_true, if_true, if_false, Bool.false_eq_true] <;>
    linear_combination ((1 + x + x ^ 2 + 2 * x ^ 3 + x ^ 4) * a + (1 + x + 2 * x ^ 2 + 2 * x ^ 3 + x ^ 4) * b +
      (1 + 2 * x + x ^ 2 + 2 * x ^ 3 + x ^ 4) * c + (1 + 2 * x + x ^ 2 + 2 * x ^ 3 + x ^ 4) * d) * htwo

lemma aesMixByte_elem (inv : Bool) (a b c d : U8) :
    aesElem (aesMixByte inv a b c d 0) = mixElem inv aesRoot (aesElem a) (aesElem b) (aesElem c) (aesElem d) ∧
    aesElem (aesMixByte inv a b c d 1) = mixElem inv aesRoot (aesElem b) (aesElem c) (aesElem d) (aesElem a) ∧
    aesElem (aesMixByte inv a b c d 2) = mixElem inv aesRoot (aesElem c) (aesElem d) (aesElem a) (aesElem b) ∧
    aesElem (aesMixByte inv a b c d 3) = mixElem inv aesRoot (aesElem d) (aesElem a) (aesElem b) (aesElem c) := by
  obtain ⟨-, h2, h3, h9, h11, h13, h14, -⟩ := aesElem_const
  cases inv <;> refine ⟨?_, ?_, ?_, ?_⟩ <;>
    simp only [aesMixByte, mixElem, Bool.not_false, Bool.not_true, if_true, if_false, Bool.false_eq_true, aesElem_xor,
      aesElem_gfmul, h2, h3, h9, h11, h13, h14] <;> ring

lemma aesMixByte_inverse (inv : Bool) (a b c d : U8) {i : ℕ} (hi : i < 4) :
    aesMixByte (!inv) (aesMixByte inv a b c d 0) (aesMixByte inv a b c d 1) (aesMixByte inv a b c d 2)
      (aesMixByte inv a b c d 3) i = [a, b, c, d].getD i 0 := by
  obtain ⟨h0, h1, h2, h3⟩ := aesMixByte_elem inv a b c d
  obtain ⟨k0, k1, k2, k3⟩ := aesMixByte_elem (!inv) (aesMixByte inv a b c d 0) (aesMixByte inv a b c d 1)
    (aesMixByte inv a b c d 2) (aesMixByte inv a b c d 3)
  apply aesElem_injective
  interval_cases i
  · rw [k0, h0, h1, h2, h3]
    exact mixElem_mixElem two_eq_zero inv ..
  · rw [k1, h0, h1, h2, h3]
    exact mixElem_mixElem two_eq_zero inv ..
  · rw [k2, h0, h1, h2, h3]
    exact mixElem_mixElem two_eq_zero inv ..
  · rw [k3, h0, h1, h2, h3]
    exact mixElem_mixElem two_eq_zero inv ..

lemma aesMixByte_xor (inv : Bool) (a b c d a' b' c' d' : U8) (i : ℕ) :
    aesMixByte inv (a ^^^ a') (b ^^^ b') (c ^^^ c') (d ^^^ d') i = aesMixByte inv a b c d i ^^^ aesMixByte inv a' b' c' d' i := by
  apply aesElem_injective
  cases inv <;> rcases i with _ | _ | _ | i <;>
    simp only [aesMixByte, Bool.not_false, Bool.not_true, if_true, if_false, Bool.false_eq_true, aesElem_xor,
      aesElem_gfmul] <;> ring

end Mix

section Rounds

lemma V128.ext_b {u v : V128} (h : ∀ i < 16, u.b i = v.b i) : u = v := V128.ext_elem (by decide) (by decide) h

lemma V128.b_xor (u v : V128) (i : ℕ) : (u.xor v).b i = u.b i ^^^ v.b i := V128.elem_xor u v i

lemma aesMixcols_b (v : V128) (inv : Bool) {i : ℕ} (hi : i < 16) : (aesMixcols v inv).b i =
    aesMixByte inv (v.b (i / 4 * 4)) (v.b (i / 4 * 4 + 1)) (v.b (i / 4 * 4 + 2)) (v.b (i / 4 * 4 + 3)) (i % 4) :=
  V128.b_ofB _ hi

lemma aesMixcols_inverse (v : V128) (inv : Bool) : aesMixcols (aesMixcols v inv) (!inv) = v := by
  refine V128.ext_b fun i hi => ?_
  have hcol (j : ℕ) (hj : j < 4) : (aesMixcols v inv).b (i / 4 * 4 + j) =
      aesMixByte inv (v.b (i / 4 * 4)) (v.b (i / 4 * 4 + 1)) (v.b (i / 4 * 4 + 2)) (v.b (i / 4 * 4 + 3)) j := by
    rw [aesMixcols_b v inv (by omega), show (i / 4 * 4 + j) / 4 = i / 4 by omega, show (i / 4 * 4 + j) % 4 = j by omega]
  have hmod : i % 4 < 4 := Nat.mod_lt i (by decide)
  have hrow : [v.b (i / 4 * 4), v.b (i / 4 * 4 + 1), v.b (i / 4 * 4 + 2), v.b (i / 4 * 4 + 3)].getD (i % 4) 0 = v.b i := by
    have hi' : i / 4 * 4 + i % 4 = i := by omega
    conv_rhs => rw [← hi']
    interval_cases i % 4 <;> rfl
  have h0 := hcol 0 (by decide)
  rw [Nat.add_zero] at h0
  rw [aesMixcols_b _ _ hi, h0, hcol 1 (by decide), hcol 2 (by decide), hcol 3 (by decide), aesMixByte_inverse inv _ _ _ _ hmod,
    hrow]

lemma aesMixcols_xor (u v : V128) (inv : Bool) : aesMixcols (u.xor v) inv = (aesMixcols u inv).xor (aesMixcols v inv) := by
  refine V128.ext_b fun i hi => ?_
  rw [V128.b_xor, aesMixcols_b _ _ hi, aesMixcols_b _ _ hi, aesMixcols_b _ _ hi]
  simp only [V128.b_xor]
  exact aesMixByte_xor ..

lemma aesInvSbox_sbox : ∀ x : U8, aesInvSbox (aesSbox x) = x := by decide +kernel

lemma aesShift_inverse : ∀ i < 16, aesInvShiftTable.getD i 0 < 16 ∧
    aesShiftTable.getD (aesInvShiftTable.getD i 0) 0 = i := by decide

lemma V128.ofB_xor (u v : V128) : V128.ofB (fun i => u.b i ^^^ v.b i) = u.xor v :=
  V128.ext_b fun i hi => (V128.b_ofB _ hi).trans (V128.b_xor u v i).symm

lemma aesd_eq (x k : V128) : aesd x k = aesd (x.xor k) .zero := by
  rw [aesd, aesd, V128.ofB_xor, V128.ofB_xor, V128.xor_zero]

lemma V128.xor_cancel (x k : V128) : (x.xor k).xor k = x := by
  rw [V128.xor_assoc, V128.xor_self, V128.xor_zero]

lemma aesd_aese (x k : V128) : aesd (aese x k) .zero = x.xor k := by
  refine V128.ext_b fun i hi => ?_
  obtain ⟨hlt, hshift⟩ := aesShift_inverse i hi
  rw [aesd, V128.ofB_xor, V128.xor_zero, V128.b_ofB _ hi, aese, V128.ofB_xor, V128.b_ofB _ hlt, hshift, aesInvSbox_sbox]

/-- The instructions of an encryption: `AESE`, then `AESMC` and `AESE` with each of the keys, and
the last key added. -/
def aesEncrypt (k0 : V128) (ks : List V128) (kl x : V128) : V128 :=
  (ks.foldl (fun s k => aese (aesmc s) k) (aese x k0)).xor kl

/-- The instructions of the decryption, with the keys in the other direction and the middle
ones passed through `AESIMC`. -/
def aesDecrypt (k0 : V128) (ks : List V128) (kl y : V128) : V128 :=
  (ks.reverse.foldl (fun s k => aesd (aesimc s) (aesimc k)) (aesd y kl)).xor k0

lemma aesd_round (s k : V128) : aesd (aesimc (aesd (aese (aesmc s) k) .zero)) (aesimc k) = aesd s .zero := by
  have hmix : aesimc (aesmc s) = s := aesMixcols_inverse s false
  rw [aesd_aese, aesimc, aesMixcols_xor, aesd_eq]
  change aesd (((aesimc (aesmc s)).xor (aesimc k)).xor (aesimc k)) .zero = _
  rw [V128.xor_cancel, hmix]

lemma aesDecrypt_rounds (ks : List V128) (s : V128) :
    ks.reverse.foldl (fun s k => aesd (aesimc s) (aesimc k)) (aesd (ks.foldl (fun s k => aese (aesmc s) k) s) .zero) =
      aesd s .zero := by
  -- from the last round back to the first
  induction ks using List.reverseRecOn with
  | nil => rfl
  | append_singleton ks k ih =>
    rw [List.reverse_append, List.reverse_singleton, List.singleton_append, List.foldl_cons, List.foldl_append,
      List.foldl_cons, List.foldl_nil, aesd_round, ih]

lemma aesDecrypt_encrypt (k0 : V128) (ks : List V128) (kl x : V128) : aesDecrypt k0 ks kl (aesEncrypt k0 ks kl x) = x := by
  rw [aesDecrypt, aesEncrypt, aesd_eq, V128.xor_cancel, aesDecrypt_rounds, aesd_aese, V128.xor_cancel]

end Rounds

/-- `aes_gfmul` multiplies in the field of 256 elements, the instructions for the columns are
inverse to each other, `AESD` takes back `AESE`, and so a decryption takes back an encryption of
any number of rounds. -/
theorem aes_rounds_invert :
    (Function.Bijective aesElem ∧ aesElem 1 = 1 ∧ (∀ a b, aesElem (a ^^^ b) = aesElem a + aesElem b) ∧
      ∀ a b, aesElem (aesGfmul a b) = aesElem a * aesElem b) ∧
    (∀ x, aesimc (aesmc x) = x) ∧ (∀ x, aesmc (aesimc x) = x) ∧
    (∀ x k, aesd (aese x k) .zero = x.xor k) ∧
    ∀ (k0 : V128) (ks : List V128) (kl x : V128), aesDecrypt k0 ks kl (aesEncrypt k0 ks kl x) = x :=
  ⟨⟨⟨aesElem_injective, aesElem_surjective⟩, aesElem_const.1, aesElem_xor, aesElem_gfmul⟩,
    fun x => aesMixcols_inverse x false, fun x => aesMixcols_inverse x true, aesd_aese, aesDecrypt_encrypt⟩

end Arm64Emu
