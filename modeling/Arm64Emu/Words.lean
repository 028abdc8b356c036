import Arm64Emu.BitField
import Arm64Emu.DirectCache

/-! Machine words, the field-extraction macros of the decoders and the small
arithmetic helpers of `types.h`. -/
namespace Arm64Emu

abbrev U8 := BitVec 8
abbrev U16 := BitVec 16
abbrev U32 := BitVec 32
abbrev U64 := BitVec 64

/-- `BIT(i)` of an instruction word. -/
def bit (insn : U32) (i : ℕ) : Bool := insn.getLsbD i

/-- `BITS(hi, lo)` of an instruction word, as an unsigned number. -/
def bits (insn : U32) (hi lo : ℕ) : ℕ := (insn.toNat >>> lo) % 2 ^ (hi - lo + 1)

/-- A C `unsigned` or `u8` value widened to `u64`. -/
def zext (n : ℕ) : U64 := BitVec.ofNat 64 n

lemma zext_toNat {n : ℕ} (h : n < 2 ^ 64) : (zext n).toNat = n := by
  rw [zext, BitVec.toNat_ofNat, Nat.mod_eq_of_lt h]

/-- The cast `(u64)(u32)v`. -/
def lo32 (v : U64) : U64 := (v.setWidth 32).setWidth 64

/-- `sf ? v : (u32)v`. -/
def sz (is64 : Bool) (v : U64) : U64 := if is64 then v else lo32 v

def signExtend (x : U64) (n : ℕ) : U64 :=
  if n = 0 ∨ 64 ≤ n then x
  else
    let m : U64 := (1 : U64) <<< (n - 1)
    (x ^^^ m) - m

def ones (n : ℕ) : U64 := if 64 ≤ n then ~~~0 else ((1 : U64) <<< n) - 1

def ror32 (x : U32) (n : ℕ) : U32 :=
  let n := n % 32
  if n ≠ 0 then (x >>> n) ||| (x <<< (32 - n)) else x

def ror64 (x : U64) (n : ℕ) : U64 :=
  let n := n % 64
  if n ≠ 0 then (x >>> n) ||| (x <<< (64 - n)) else x

def umulh64 (a b : U64) : U64 :=
  ((a.setWidth 128 * b.setWidth 128) >>> 64).setWidth 64

def smulh64 (a b : U64) : U64 :=
  ((a.signExtend 128 * b.signExtend 128).sshiftRight 64).setWidth 64

lemma bits_lt (insn : U32) (hi lo : ℕ) : bits insn hi lo < 2 ^ (hi - lo + 1) :=
  Nat.mod_lt _ (Nat.two_pow_pos _)

lemma bit_eq_decide (insn : U32) (i : ℕ) : bit insn i = decide (insn.toNat >>> i % 2 = 1) := by
  rw [bit, BitVec.getLsbD, Nat.testBit_eq_decide_div_mod_eq, Nat.shiftRight_eq_div_pow]

lemma bits_self (insn : U32) (i : ℕ) : bits insn i i = (bit insn i).toNat := by
  rw [bit_eq_decide, bits, Nat.sub_self, Nat.zero_add, pow_one]
  rcases Nat.mod_two_eq_zero_or_one (insn.toNat >>> i) with h | h <;> simp [h]

lemma bits_and (x m : U32) (hi lo : ℕ) : bits (x &&& m) hi lo = bits x hi lo &&& bits m hi lo := by
  rw [bits, bits, bits, BitVec.toNat_and, Nat.shiftRight_and_distrib, Nat.and_mod_two_pow]

lemma bits_of_and_eq {x m v : U32} (h : x &&& m = v) {hi lo : ℕ} (hm : bits m hi lo = 2 ^ (hi - lo + 1) - 1) :
    bits x hi lo = bits v hi lo := by
  rw [← h, bits_and, hm, Nat.and_two_pow_sub_one_eq_mod, Nat.mod_eq_of_lt (bits_lt x hi lo)]

@[simp] lemma lo32_lo32 (v : U64) : lo32 (lo32 v) = lo32 v := by
  simp [lo32]

@[simp] lemma lo32_setWidth (v : U32) : lo32 (v.setWidth 64) = v.setWidth 64 := by
  simp [lo32]

@[simp] lemma sz_true (v : U64) : sz true v = v := rfl

@[simp] lemma sz_false (v : U64) : sz false v = lo32 v := rfl

lemma lo32_eq_self_iff (v : U64) : lo32 v = v ↔ v.toNat < 2 ^ 32 := by
  constructor
  · intro h
    rw [← h]
    simp only [lo32, BitVec.toNat_setWidth]
    omega
  · intro h
    apply BitVec.eq_of_toNat_eq
    simp only [lo32, BitVec.toNat_setWidth]
    omega

/-- `memcpy` of a byte list into host memory. -/
def copyBytes (m : ℕ → U8) (p : ℕ) (src : List U8) : ℕ → U8 := fun i =>
  if p ≤ i then (src[i - p]?).getD (m i) else m i

end Arm64Emu
