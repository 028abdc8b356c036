import Mathlib

/-! Copying pieces of 32-bit length into a buffer, one after the other: a piece that would
run past the limit is cut short. The sum that is compared with the limit is taken in 32
bits, so a long enough piece passes uncut. -/
namespace ClampedCopy

def clamp (limit : ℕ) (pos len : BitVec 32) : BitVec 32 :=
  if limit < (pos + len).toNat then BitVec.ofNat 32 limit - pos else len

/-- The copies made, by position and length; `stop` says that the loop ends when the buffer
is full. -/
def spans (stop : Bool) (limit : ℕ) : BitVec 32 → List (BitVec 32) → List (ℕ × ℕ)
  | _, [] => []
  | pos, len :: lens =>
    if stop && decide (limit ≤ pos.toNat) then []
    else (pos.toNat, (clamp limit pos len).toNat) :: spans stop limit (pos + clamp limit pos len) lens

def finish (stop : Bool) (limit : ℕ) : BitVec 32 → List (BitVec 32) → BitVec 32
  | pos, [] => pos
  | pos, len :: lens =>
    if stop && decide (limit ≤ pos.toNat) then pos else finish stop limit (pos + clamp limit pos len) lens

def natSum (lens : List (BitVec 32)) : ℕ := (lens.map BitVec.toNat).sum

/-- No piece that a loop from position 0 comes to makes the sum of its position and its
length overflow. -/
def NoOverflow (stop : Bool) (limit : ℕ) (lens : List (BitVec 32)) : Prop :=
  ∀ i len, lens[i]? = some len → (stop = true → natSum (lens.take i) < limit) →
    min limit (natSum (lens.take i)) + len.toNat < 2 ^ 32

section Facts
variable {stop : Bool} {limit : ℕ} {pos len : BitVec 32} {lens : List (BitVec 32)}

@[simp] lemma natSum_nil : natSum [] = 0 := rfl

@[simp] lemma natSum_cons : natSum (len :: lens) = len.toNat + natSum lens := by simp [natSum]

lemma toNat_ofNat_sub (hlimit : limit < 2 ^ 32) (hpos : pos.toNat ≤ limit) :
    (BitVec.ofNat 32 limit - pos).toNat = limit - pos.toNat := by
  have hle : pos ≤ BitVec.ofNat 32 limit := by
    rw [BitVec.le_def, BitVec.toNat_ofNat, Nat.mod_eq_of_lt hlimit]
    exact hpos
  rw [BitVec.toNat_sub_of_le hle, BitVec.toNat_ofNat, Nat.mod_eq_of_lt hlimit]

lemma toNat_clamp_of_lt (hlimit : limit < 2 ^ 32) (hpos : pos.toNat ≤ limit) (hsum : pos.toNat + len.toNat < 2 ^ 32) :
    pos.toNat + (clamp limit pos len).toNat = min limit (pos.toNat + len.toNat) := by
  unfold clamp
  rw [BitVec.toNat_add, Nat.mod_eq_of_lt hsum]
  split
  · rw [toNat_ofNat_sub hlimit hpos]
    omega
  · omega

lemma clamp_of_le (hpos : pos.toNat ≤ limit) (hsum : 2 ^ 32 ≤ pos.toNat + len.toNat) : clamp limit pos len = len := by
  have hmod : (pos + len).toNat = pos.toNat + len.toNat - 2 ^ 32 := by
    have hlen := len.isLt
    have hlt := pos.isLt
    rw [BitVec.toNat_add]
    omega
  refine if_neg ?_
  have hlen := len.isLt
  omega

lemma toNat_add_clamp_le (hlimit : limit < 2 ^ 32) (hpos : pos.toNat ≤ limit) :
    (pos + clamp limit pos len).toNat ≤ limit := by
  rw [BitVec.toNat_add]
  by_cases hsum : pos.toNat + len.toNat < 2 ^ 32
  · rw [toNat_clamp_of_lt hlimit hpos hsum]
    exact (Nat.mod_le _ _).trans (Nat.min_le_left _ _)
  · rw [clamp_of_le hpos (by omega)]
    have hlen := len.isLt
    have hlt := pos.isLt
    omega

lemma finish_le (hlimit : limit < 2 ^ 32) (hpos : pos.toNat ≤ limit) : (finish stop limit pos lens).toNat ≤ limit := by
  induction lens generalizing pos with
  | nil => exact hpos
  | cons len lens ih =>
    unfold finish
    split
    · exact hpos
    · exact ih (toNat_add_clamp_le hlimit hpos)

lemma toNat_clamp_le (hlimit : limit < 2 ^ 32) (hpos : pos.toNat ≤ limit) : (clamp limit pos len).toNat ≤ len.toNat := by
  by_cases hsum : pos.toNat + len.toNat < 2 ^ 32
  · have := toNat_clamp_of_lt hlimit hpos hsum
    omega
  · rw [clamp_of_le hpos (by omega)]

lemma toNat_add_clamp (hlimit : limit < 2 ^ 32) (hpos : pos.toNat ≤ limit) (hsum : pos.toNat + len.toNat < 2 ^ 32) :
    (pos + clamp limit pos len).toNat = min limit (pos.toNat + len.toNat) := by
  rw [BitVec.toNat_add, toNat_clamp_of_lt hlimit hpos hsum]
  exact Nat.mod_eq_of_lt (by omega)

theorem spans_inside_iff (hlimit : limit < 2 ^ 32) (hpos : pos.toNat ≤ limit) :
    (∀ s ∈ spans stop limit pos lens, s.1 + s.2 ≤ limit) ↔
      ∀ i len, lens[i]? = some len → (stop = true → pos.toNat + natSum (lens.take i) < limit) →
        min limit (pos.toNat + natSum (lens.take i)) + len.toNat < 2 ^ 32 := by
  induction lens generalizing pos with
  | nil => simp [spans]
  | cons len lens ih =>
    unfold spans
    split
    · rename_i hfull
      rw [Bool.and_eq_true, decide_eq_true_iff] at hfull
      refine ⟨fun _ i x _ hroom => ?_, fun _ s hs => ?_⟩
      · exact absurd (hroom hfull.1) (by omega)
      · cases hs
    · rename_i hroom
      have hgo : stop = true → pos.toNat < limit := by
        intro h
        simpa [h] using hroom
      rw [List.forall_mem_cons]
      by_cases hsum : pos.toNat + len.toNat < 2 ^ 32
      · -- the loop goes on at the position that the lengths say
        have hnext := toNat_add_clamp hlimit hpos hsum
        rw [ih (toNat_add_clamp_le hlimit hpos), hnext, toNat_clamp_of_lt hlimit hpos hsum]
        constructor
        · rintro ⟨-, h⟩ i x hx hi
          cases i with
          | zero =>
            cases hx
            simpa using lt_of_le_of_lt (by omega) hsum
          | succ i =>
            simp only [List.take_succ_cons, natSum_cons] at hi ⊢
            have := h i x hx fun hs => by
              have := hi hs
              omega
            omega
        · intro h
          refine ⟨Nat.min_le_left _ _, fun i x hx hi => ?_⟩
          have hnat : natSum ((len :: lens).take (i + 1)) = len.toNat + natSum (lens.take i) := by
            rw [List.take_succ_cons, natSum_cons]
          have := h (i + 1) x hx fun hs => by
            have := hi hs
            omega
          omega
      · -- the copy runs over, and the first condition fails
        constructor
        · rintro ⟨h, -⟩
          rw [clamp_of_le hpos (by omega)] at h
          dsimp only at h
          omega
        · intro h
          have h0 := h 0 len rfl hgo
          simp only [List.take_zero, natSum_nil] at h0
          omega

theorem sum_spans_eq_iff (hlimit : limit < 2 ^ 32) (hpos : pos.toNat ≤ limit) :
    pos.toNat + ((spans true limit pos lens).map Prod.snd).sum = limit ↔
      limit ≤ pos.toNat + natSum lens ∧ ∀ s ∈ spans true limit pos lens, s.1 + s.2 ≤ limit := by
  induction lens generalizing pos with
  | nil =>
    simp only [spans, List.map_nil, List.sum_nil, natSum_nil, List.not_mem_nil, false_imp_iff, implies_true, and_true]
    omega
  | cons len lens ih =>
    unfold spans
    split
    · rename_i hfull
      rw [Bool.true_and, decide_eq_true_iff] at hfull
      simp only [List.map_nil, List.sum_nil, List.not_mem_nil, false_imp_iff, implies_true, and_true]
      omega
    rw [List.map_cons, List.sum_cons, List.forall_mem_cons, natSum_cons]
    dsimp only
    by_cases hsum : pos.toNat + len.toNat < 2 ^ 32
    · -- the loop goes on at the position that the lengths say
      have hnext := toNat_add_clamp hlimit hpos hsum
      have hfirst := toNat_clamp_of_lt hlimit hpos hsum
      have hrest := ih (toNat_add_clamp_le hlimit hpos : (pos + clamp limit pos len).toNat ≤ limit)
      rw [hnext] at hrest
      rw [← Nat.add_assoc, hfirst, hrest]
      have hiff : limit ≤ min limit (pos.toNat + len.toNat) + natSum lens ↔ limit ≤ pos.toNat + (len.toNat + natSum lens) := by
        omega
      rw [hiff]
      exact and_congr_right fun _ => (and_iff_right (Nat.min_le_left _ _)).symm
    · -- a piece that overflows the sum is copied whole
      rw [clamp_of_le hpos (by omega)]
      exact ⟨fun h => by omega, fun h => by omega⟩

theorem spans_zero_inside_iff (hlimit : limit < 2 ^ 32) :
    (∀ s ∈ spans stop limit 0 lens, s.1 + s.2 ≤ limit) ↔ NoOverflow stop limit lens := by
  have hzero : (0 : BitVec 32).toNat ≤ limit := Nat.zero_le limit
  rw [spans_inside_iff hlimit hzero]
  simp [NoOverflow]

theorem sum_spans_zero_iff (hlimit : limit < 2 ^ 32) :
    ((spans true limit 0 lens).map Prod.snd).sum = limit ↔ limit ≤ natSum lens ∧ NoOverflow true limit lens := by
  have hzero : (0 : BitVec 32).toNat ≤ limit := Nat.zero_le limit
  rw [← spans_zero_inside_iff hlimit]
  simpa using sum_spans_eq_iff hlimit hzero

lemma toNat_sum_le (lens : List (BitVec 32)) : lens.sum.toNat ≤ natSum lens := by
  induction lens with
  | nil => simp
  | cons len lens ih =>
    rw [List.sum_cons, BitVec.toNat_add, natSum_cons]
    exact (Nat.mod_le _ _).trans (by omega)

end Facts

end ClampedCopy
