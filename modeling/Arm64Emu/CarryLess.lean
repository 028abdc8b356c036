import Arm64Emu.Crypto
import Arm64Emu.Gf2

/-! The carry-less products are products of polynomials over the field of two elements. -/
namespace Arm64Emu

open Polynomial Gf2

section Products

def wide (p : U64 × U64) : BitVec 128 := p.2 ++ p.1

lemma poly_wide (p : U64 × U64) : poly (wide p) = poly p.1 + X ^ 64 * poly p.2 := poly_append p.2 p.1

lemma pmull64Loop_poly (a b : U64) {k : ℕ} (hk : k ≤ 64) : poly (wide (pmull64Loop a b k)) = low a k * poly b := by
  induction k with
  | zero => simp [poly_wide, pmull64Loop, low]
  | succ i ih =>
    have ih := ih (by omega)
    have hlow : low a (i + 1) = low a i + if a.getLsbD i then X ^ i else 0 := Finset.sum_range_succ _ _
    -- at the first bit nothing leaves the word, and the source skips a shift by 64
    have hhigh : (if i ≠ 0 then (pmull64Loop a b i).2 ^^^ (b >>> (64 - i)) else (pmull64Loop a b i).2) =
        (pmull64Loop a b i).2 ^^^ (b >>> (64 - i)) := by
      split_ifs with hi
      · rfl
      · rw [not_not.mp hi, BitVec.ushiftRight_eq_zero (by decide), BitVec.xor_zero]
    rw [pmull64Loop, hlow]
    cases hbit : a.getLsbD i with
    | false => simpa using ih
    | true =>
      simp only [if_true, hhigh]
      rw [poly_wide, poly_xor, poly_xor, add_mul, ← ih, poly_wide, ← poly_shiftLeft b (show i ≤ 64 by omega)]
      ring

lemma pmull64_poly (a b : U64) : poly (wide (pmull64 a b)) = poly a * poly b := pmull64Loop_poly a b le_rfl

lemma pmull8Loop_poly (a b : U8) {k : ℕ} (hk : k ≤ 8) : poly (pmull8Loop a b k) = low a k * poly b := by
  induction k with
  | zero => simp [pmull8Loop, low]
  | succ i ih =>
    have ih := ih (by omega)
    have hlow : low a (i + 1) = low a i + if a.getLsbD i then X ^ i else 0 := Finset.sum_range_succ _ _
    rw [pmull8Loop, hlow]
    cases hbit : a.getLsbD i with
    | false => simpa using ih
    | true =>
      simp only [if_true]
      rw [poly_xor, add_mul, ← ih, poly_shiftLeft_setWidth b (show 8 + i ≤ 16 by omega)]

lemma pmull8_poly (a b : U8) : poly (pmull8 a b) = poly a * poly b := pmull8Loop_poly a b le_rfl

lemma wide_injective : Function.Injective wide := by
  intro p q h
  have hv : (⟨p.1, p.2⟩ : V128) = ⟨q.1, q.2⟩ := V128.bits_injective h
  exact Prod.ext (congrArg V128.d0 hv) (congrArg V128.d1 hv)

end Products

/-- The product of 128-bit polynomials from four products of their words. -/
def schoolbook (a1 a0 b1 b0 : U64) : BitVec 256 :=
  (wide (pmull64 a0 b0)).setWidth 256 ^^^ ((wide (pmull64 a1 b0) ^^^ wide (pmull64 a0 b1)).setWidth 256 <<< 64)
    ^^^ ((wide (pmull64 a1 b1)).setWidth 256 <<< 128)

lemma schoolbook_poly (a1 a0 b1 b0 : U64) : poly (schoolbook a1 a0 b1 b0) = poly (a1 ++ a0) * poly (b1 ++ b0) := by
  rw [schoolbook, poly_xor, poly_xor, poly_setWidth (by decide), poly_shiftLeft_setWidth _ (by decide),
    poly_shiftLeft_setWidth _ (by decide), poly_xor, pmull64_poly, pmull64_poly, pmull64_poly, pmull64_poly, poly_append,
    poly_append]
  ring

/-- `pmull64` and `pmull8` multiply polynomials. So they are commutative and distribute over
exclusive or, and four of the products make the product of polynomials of twice the length. -/
theorem carryless_multiply :
    (∀ a b : U64, poly (wide (pmull64 a b)) = poly a * poly b) ∧
    (∀ a b : U8, poly (pmull8 a b) = poly a * poly b) ∧
    (∀ a b : U64, pmull64 a b = pmull64 b a) ∧
    (∀ a b : U8, pmull8 a b = pmull8 b a) ∧
    (∀ a b c : U64, wide (pmull64 a (b ^^^ c)) = wide (pmull64 a b) ^^^ wide (pmull64 a c)) ∧
    (∀ a b c : U8, pmull8 a (b ^^^ c) = pmull8 a b ^^^ pmull8 a c) ∧
    (∀ a1 a0 b1 b0 : U64, poly (schoolbook a1 a0 b1 b0) = poly (a1 ++ a0) * poly (b1 ++ b0)) := by
  refine ⟨pmull64_poly, pmull8_poly, fun a b => ?_, fun a b => ?_, fun a b c => ?_, fun a b c => ?_, schoolbook_poly⟩
  · exact wide_injective (poly_injective (by rw [pmull64_poly, pmull64_poly, mul_comm]))
  · exact poly_injective (by rw [pmull8_poly, pmull8_poly, mul_comm])
  · exact poly_injective (by rw [poly_xor, pmull64_poly, pmull64_poly, pmull64_poly, poly_xor, mul_add])
  · exact poly_injective (by rw [poly_xor, pmull8_poly, pmull8_poly, pmull8_poly, poly_xor, mul_add])

example : wide (pmull64 0x8000000000000001 3) = 0x18000000000000003 := by decide

end Arm64Emu
