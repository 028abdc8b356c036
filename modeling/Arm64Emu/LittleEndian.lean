import Arm64Emu.Bus
import Arm64Emu.Lanes

/-! Little-endian loads and stores in a byte array. -/
namespace Arm64Emu

lemma stLe_of_notMem {k : ℕ} {m : ℕ → U8} {p size : ℕ} {val : U64} (hk : k ∉ (List.range size).map (p + ·)) :
    stLe m p size val k = m k := by
  induction size generalizing m p val with
  | zero => rfl
  | succ size ih =>
    have hne : k ≠ p := fun h => hk (List.mem_map.2 ⟨0, by simp, by omega⟩)
    rw [stLe, ih, Function.update_of_ne hne]
    intro h
    obtain ⟨i, hi, heq⟩ := List.mem_map.1 h
    exact hk (List.mem_map.2 ⟨i + 1, List.mem_range.2 (by have := List.mem_range.1 hi; omega), by omega⟩)

lemma ldLe_congr {f f' : ℕ → U8} {p size : ℕ} (h : ∀ k ∈ (List.range size).map (p + ·), f k = f' k) :
    ldLe f p size = ldLe f' p size := by
  induction size generalizing p with
  | zero => rfl
  | succ size ih =>
    have hhead : f p = f' p := h p (List.mem_map.2 ⟨0, by simp, rfl⟩)
    have htail : ∀ k ∈ (List.range size).map (p + 1 + ·), f k = f' k := by
      intro k hk
      obtain ⟨i, hi, rfl⟩ := List.mem_map.1 hk
      refine h _ (List.mem_map.2 ⟨i + 1, List.mem_range.2 ?_, by omega⟩)
      have := List.mem_range.1 hi
      omega
    rw [ldLe, ldLe, hhead, ih htail]

lemma getLsbD_ldLe_stLe (m : ℕ → U8) (p n : ℕ) (v : U64) (j : ℕ) (hj : j < 64) :
    (ldLe (stLe m p n v) p n).getLsbD j = (decide (j < 8 * n) && v.getLsbD j) := by
  induction n generalizing m p v j with
  | zero => simp [ldLe]
  | succ n ih =>
    have hhead : stLe m p (n + 1) v p = v.setWidth 8 := by
      rw [stLe, stLe_of_notMem, Function.update_self]
      simp
      omega
    rw [ldLe, hhead, stLe, BitVec.getLsbD_or, BitVec.getLsbD_shiftLeft, BitVec.getLsbD_setWidth, BitVec.getLsbD_setWidth]
    by_cases h8 : j < 8
    · simp [h8, hj, show j < 8 * (n + 1) by omega]
    · rw [ih _ _ _ _ (by omega), BitVec.getLsbD_ushiftRight, show 8 + (j - 8) = j by omega]
      simp [h8, hj, show j - 8 < 8 * n ↔ j < 8 * (n + 1) by omega]

lemma ldLe_stLe_of_disjoint {m : ℕ → U8} {p p' n n' : ℕ} {v : U64} (h : p' + n' ≤ p ∨ p + n ≤ p') :
    ldLe (stLe m p n v) p' n' = ldLe m p' n' := by
  refine ldLe_congr fun k hk => stLe_of_notMem fun hk' => ?_
  obtain ⟨i, hi, rfl⟩ := List.mem_map.1 hk
  obtain ⟨j, hj, hij⟩ := List.mem_map.1 hk'
  rw [List.mem_range] at hi hj
  omega

lemma setWidth_ldLe_stLe {m : ℕ → U8} {p n : ℕ} {v : U64} {w : ℕ} (hw : w = 8 * n) (hn : n ≤ 8) :
    (ldLe (stLe m p n v) p n).setWidth w = v.setWidth w := by
  apply BitVec.eq_of_getLsbD_eq
  intro j hj
  rw [BitVec.getLsbD_setWidth, BitVec.getLsbD_setWidth, getLsbD_ldLe_stLe _ _ _ _ _ (by omega)]
  simp [← hw, hj]

lemma lane_ldLe (m : ℕ → U8) (p : ℕ) {n : ℕ} (hn : n ≤ 8) (k : ℕ) :
    Lanes.lane 8 (ldLe m p n) k = if k < n then m (p + k) else 0 := by
  induction n generalizing p k with
  | zero => simp [ldLe, Lanes.lane]
  | succ n ih =>
    apply BitVec.eq_of_getLsbD_eq
    intro j hj
    cases k with
    | zero =>
      rw [Lanes.getLsbD_lane, ldLe, BitVec.getLsbD_or, BitVec.getLsbD_setWidth, BitVec.getLsbD_shiftLeft]
      simp [hj, show j < 64 by omega]
    | succ k =>
      have hrest := congrArg (BitVec.getLsbD · j) (ih (p + 1) (by omega) k)
      simp only [Lanes.getLsbD_lane, hj, decide_true, Bool.true_and] at hrest ⊢
      rw [ldLe, BitVec.getLsbD_or, BitVec.getLsbD_setWidth, BitVec.getLsbD_of_ge (m p) _ (by omega), Bool.and_false,
        Bool.false_or, BitVec.getLsbD_shiftLeft, show 8 * (k + 1) + j - 8 = 8 * k + j by omega, hrest,
        show p + 1 + k = p + (k + 1) by omega]
      by_cases hk : k < n
      · simp [hk, show 8 * (k + 1) + j < 64 by omega, show ¬8 * (k + 1) + j < 8 by omega]
      · simp [hk]

lemma stLe_apply (m : ℕ → U8) (p n : ℕ) (v : U64) (k : ℕ) :
    stLe m p n v k = if p ≤ k ∧ k < p + n then Lanes.lane 8 v (k - p) else m k := by
  induction n generalizing m p v with
  | zero => rw [if_neg (by omega)]; rfl
  | succ n ih =>
    rw [stLe, ih]
    by_cases hk : k = p
    · subst hk
      simp [Lanes.lane]
    · by_cases hin : p + 1 ≤ k ∧ k < p + 1 + n
      · rw [if_pos hin, if_pos (by omega), Lanes.lane, Lanes.lane, ← BitVec.shiftRight_add,
          show 8 + 8 * (k - (p + 1)) = 8 * (k - p) by omega]
      · rw [if_neg hin, if_neg (by omega), Function.update_of_ne hk]

section Ram
variable {D : Type} {P : Platform D} {b : Bus D} {pa : U64} {n : ℕ}

lemma physRead_ram (h : inRam P pa (zext n) = true) :
    physRead P b pa n = (ldLe b.ram (pa - ramBase).toNat n, { b with lastBusStatus := .ok }) := by
  simp [physRead, h]

lemma physWrite_ram (h : inRam P pa (zext n) = true) (v : U64) :
    physWrite P b pa n v = { b with ram := stLe b.ram (pa - ramBase).toNat n v, lastBusStatus := .ok } := by
  simp [physWrite, h]

end Ram

end Arm64Emu
