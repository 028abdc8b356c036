import Arm64Emu.Cpu
import Arm64Emu.Lanes

/-! The SIMD registers as rows of elements: the union `V128`, `velem_get` and `velem_set`. -/
namespace Arm64Emu

namespace V128

def bits (v : V128) : BitVec 128 := v.d1 ++ v.d0

def ofBits (b : BitVec 128) : V128 := ⟨b.setWidth 64, (b >>> 64).setWidth 64⟩

def zero : V128 := ⟨0, 0⟩

/-- Element `i` of width `e`: `b[i]`, `h[i]`, `s[i]` or `d[i]`. -/
def elem (v : V128) (e i : ℕ) : BitVec e := Lanes.lane e v.bits i

/-- The loop that stores `f 0`, `f 1`, ... to the elements from `base` on. -/
def fill {e : ℕ} (v : V128) (f : ℕ → BitVec e) (base k : ℕ) : V128 := ofBits (Lanes.fill f base v.bits k)

def xor (v u : V128) : V128 := ⟨v.d0 ^^^ u.d0, v.d1 ^^^ u.d1⟩

@[simp] lemma bits_ofBits (b : BitVec 128) : (ofBits b).bits = b := by
  refine BitVec.eq_of_getLsbD_eq fun i hi => ?_
  rw [bits, ofBits, BitVec.getLsbD_append]
  by_cases h : i < 64
  · simp [h]
  · simp [h, show i - 64 < 64 by omega, show 64 + (i - 64) = i by omega]

@[simp] lemma ofBits_bits (v : V128) : ofBits v.bits = v := by
  have h0 : (v.d1 ++ v.d0).setWidth 64 = v.d0 := by
    refine BitVec.eq_of_getLsbD_eq fun i hi => ?_
    rw [BitVec.getLsbD_setWidth, BitVec.getLsbD_append, if_pos hi, decide_eq_true hi, Bool.true_and]
  have h1 : ((v.d1 ++ v.d0) >>> 64).setWidth 64 = v.d1 := by
    refine BitVec.eq_of_getLsbD_eq fun i hi => ?_
    rw [BitVec.getLsbD_setWidth, BitVec.getLsbD_ushiftRight, BitVec.getLsbD_append, if_neg (by omega), decide_eq_true hi,
      Bool.true_and, Nat.add_sub_cancel_left]
  rw [ofBits, bits, h0, h1]

lemma bits_injective : Function.Injective bits := fun u v h => by
  rw [← ofBits_bits u, h, ofBits_bits]

@[simp] lemma bits_zero : zero.bits = 0 := rfl

lemma bits_xor (v u : V128) : (v.xor u).bits = v.bits ^^^ u.bits := by
  refine BitVec.eq_of_getLsbD_eq fun i _ => ?_
  rw [BitVec.getLsbD_xor, bits, bits, bits, BitVec.getLsbD_append, BitVec.getLsbD_append, BitVec.getLsbD_append]
  split_ifs <;> exact BitVec.getLsbD_xor

lemma ext_elem {e m : ℕ} (he : 0 < e) (hm : 128 = e * m) {u v : V128} (h : ∀ i < m, u.elem e i = v.elem e i) : u = v :=
  bits_injective (Lanes.ext_lane he hm h)

lemma elem_xor {e : ℕ} (v u : V128) (i : ℕ) : (v.xor u).elem e i = v.elem e i ^^^ u.elem e i := by
  refine BitVec.eq_of_getLsbD_eq fun k hk => ?_
  rw [elem, bits_xor, BitVec.getLsbD_xor, elem, elem, Lanes.getLsbD_lane, Lanes.getLsbD_lane, Lanes.getLsbD_lane,
    BitVec.getLsbD_xor]
  simp [hk]

lemma elem_fill {e : ℕ} (v : V128) (f : ℕ → BitVec e) {base k : ℕ} (hk : e * (base + k) ≤ 128) (j : ℕ) :
    (v.fill f base k).elem e j = if base ≤ j ∧ j < base + k then f (j - base) else v.elem e j := by
  rw [elem, fill, bits_ofBits]
  exact Lanes.lane_fill f hk v.bits j

lemma fill_congr {e : ℕ} (v : V128) {f g : ℕ → BitVec e} {k : ℕ} (h : ∀ i < k, f i = g i) (base : ℕ) :
    v.fill f base k = v.fill g base k := congrArg ofBits (Lanes.fill_congr h base v.bits)

lemma elem_fill_all {e : ℕ} (v : V128) (f : ℕ → BitVec e) {k j : ℕ} (hk : e * k ≤ 128) (hj : j < k) :
    (v.fill f 0 k).elem e j = f j := by
  rw [elem_fill v f (by simpa using hk), if_pos (by omega), Nat.sub_zero]

lemma xor_assoc (a b c : V128) : (a.xor b).xor c = a.xor (b.xor c) := by
  simp [xor, BitVec.xor_assoc]

@[simp] lemma xor_self (a : V128) : a.xor a = zero := by
  simp [xor, zero]

@[simp] lemma xor_zero (a : V128) : a.xor zero = a := by
  simp [xor, zero]

end V128

def regbytes (q : Bool) : ℕ := if q then 16 else 8

lemma Cpu.vreg_setVreg (c : Cpu) (i j : ℕ) (v : V128) :
    (c.setVreg i v).vreg j = if j % 32 = i % 32 then v else c.vreg j := by
  simp only [Cpu.vreg, Cpu.setVreg, Function.update_apply, Fin.ext_iff, Fin.ofNat]

end Arm64Emu
