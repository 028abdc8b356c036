import Mathlib.Data.List.Basic
import Mathlib.Tactic.NthRewrite

/-! Reflected cyclic redundancy checks of any width and polynomial, bit by bit: the remainder
is linear, so a step over many bits comes apart into steps over the parts of a word. -/

namespace Crc

variable {w : ℕ} (poly : BitVec w)

/-- One bit of input: the lowest bit of the remainder and the input bit say whether the
polynomial is added. -/
def step (c : BitVec w) (b : Bool) : BitVec w := (c >>> 1) ^^^ (if c.getLsbD 0 ^^ b then poly else 0)

def serial (c : BitVec w) (bs : List Bool) : BitVec w := bs.foldl (step poly) c

/-- The remainder after `n` zero bits. -/
def shift : ℕ → BitVec w → BitVec w
  | 0, c => c
  | n + 1, c => shift n (step poly c false)

@[simp] lemma serial_nil (c : BitVec w) : serial poly c [] = c := rfl

@[simp] lemma serial_cons (c : BitVec w) (b : Bool) (bs : List Bool) :
    serial poly c (b :: bs) = serial poly (step poly c b) bs := rfl

lemma serial_append (c : BitVec w) (bs bs' : List Bool) :
    serial poly c (bs ++ bs') = serial poly (serial poly c bs) bs' := List.foldl_append

lemma step_xor (c c' : BitVec w) (b b' : Bool) : step poly (c ^^^ c') (b ^^ b') = step poly c b ^^^ step poly c' b' := by
  have hbit : ((c ^^^ c').getLsbD 0 ^^ (b ^^ b')) = ((c.getLsbD 0 ^^ b) ^^ (c'.getLsbD 0 ^^ b')) := by
    rw [BitVec.getLsbD_xor]
    cases c.getLsbD 0 <;> cases c'.getLsbD 0 <;> cases b <;> cases b' <;> rfl
  rw [step, hbit, step, step, BitVec.ushiftRight_xor_distrib]
  cases c.getLsbD 0 ^^ b <;> cases c'.getLsbD 0 ^^ b'
  · simp
  · simp [BitVec.xor_assoc]
  · simp only [Bool.xor_false, if_true, Bool.false_eq_true, if_false, BitVec.ofNat_eq_ofNat, BitVec.xor_zero]
    rw [BitVec.xor_assoc, BitVec.xor_assoc, BitVec.xor_comm poly]
  · have hself : ∀ x y : BitVec w, x ^^^ poly ^^^ (y ^^^ poly) = x ^^^ y := by
      intro x y
      rw [BitVec.xor_comm y poly, BitVec.xor_assoc, ← BitVec.xor_assoc poly poly y, BitVec.xor_self, BitVec.zero_xor]
    simp [hself]

lemma shift_xor (n : ℕ) (c c' : BitVec w) : shift poly n (c ^^^ c') = shift poly n c ^^^ shift poly n c' := by
  induction n generalizing c c' with
  | zero => rfl
  | succ n ih => rw [shift, shift, shift, ← ih, ← step_xor, Bool.xor_false]

lemma shift_add (n k : ℕ) (c : BitVec w) : shift poly (n + k) c = shift poly k (shift poly n c) := by
  induction n generalizing c with
  | zero => rw [Nat.zero_add, shift]
  | succ n ih => rw [Nat.succ_add, shift, shift, ih]

lemma shift_of_low_zero {n : ℕ} {c : BitVec w} (h : ∀ i < n, c.getLsbD i = false) : shift poly n c = c >>> n := by
  induction n generalizing c with
  | zero => rw [shift, BitVec.ushiftRight_zero]
  | succ n ih =>
    have hstep : step poly c false = c >>> 1 := by simp [step, h 0 (Nat.succ_pos n)]
    rw [shift, hstep, ih fun i hi => ?_, ← BitVec.shiftRight_add, Nat.add_comm]
    rw [BitVec.getLsbD_ushiftRight]
    exact h (1 + i) (by omega)

lemma shift_split {k : ℕ} (n : ℕ) {low c : BitVec w} (hlow : ∀ i, low.getLsbD i = (decide (i < k) && c.getLsbD i)) :
    shift poly (k + n) c = shift poly (k + n) low ^^^ shift poly n (c >>> k) := by
  have hhigh : ∀ i < k, (low ^^^ c).getLsbD i = false := by
    intro i hi
    simp [hlow, hi]
  have hmoved : (low ^^^ c) >>> k = c >>> k := by
    apply BitVec.eq_of_getLsbD_eq
    intro i _
    simp [hlow, Nat.not_lt.2 (Nat.le_add_right k i)]
  have hsum : c = low ^^^ (low ^^^ c) := by rw [← BitVec.xor_assoc, BitVec.xor_self, BitVec.zero_xor]
  nth_rewrite 1 [hsum]
  rw [shift_xor, shift_add poly k n (low ^^^ c), shift_of_low_zero poly hhigh, hmoved]

lemma serial_eq_shift {bs : List Bool} {c d : BitVec w} (hd : ∀ i, d.getLsbD i = bs.getD i false) :
    serial poly c bs = shift poly bs.length (c ^^^ d) := by
  induction bs generalizing c d with
  | nil =>
    have hzero : d = 0#w := BitVec.eq_of_getLsbD_eq fun i _ => by simp [hd]
    rw [serial_nil, hzero, BitVec.xor_zero]
    rfl
  | cons b bs ih =>
    have hnext : ∀ i, (d >>> 1).getLsbD i = bs.getD i false := by
      intro i
      rw [BitVec.getLsbD_ushiftRight, hd, Nat.add_comm, List.getD_cons_succ]
    have hb : d.getLsbD 0 = b := hd 0
    have hstep : step poly (c ^^^ d) false = step poly c b ^^^ d >>> 1 := by
      have hsplit := step_xor poly c d b b
      have hzero : step poly d b = d >>> 1 := by simp [step, hb]
      rw [Bool.xor_self, hzero] at hsplit
      exact hsplit
    rw [serial_cons, ih hnext, List.length_cons, shift, hstep]

end Crc
