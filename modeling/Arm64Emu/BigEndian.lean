import Arm64Emu.FwCfg

/-! Big-endian words as numbers. -/
namespace Arm64Emu

def beNat (bytes : List U8) : ℕ := bytes.foldl (fun n x => n * 256 + x.toNat) 0

lemma beNat_append_singleton (bytes : List U8) (x : U8) : beNat (bytes ++ [x]) = beNat bytes * 256 + x.toNat := by
  rw [beNat, List.foldl_append]
  rfl

lemma beNat_lt (bytes : List U8) : beNat bytes < 256 ^ bytes.length := by
  induction bytes using List.reverseRecOn with
  | nil => decide
  | append_singleton bytes x ih =>
    rw [beNat_append_singleton, List.length_append, List.length_singleton, Nat.pow_succ]
    have := x.isLt
    omega

lemma toNat_beWord {bytes : List U8} (h : bytes.length ≤ 8) : (beWord bytes).toNat = beNat bytes := by
  induction bytes using List.reverseRecOn with
  | nil => rfl
  | append_singleton bytes x ih =>
    rw [List.length_append, List.length_singleton] at h
    have hlow := ih (by omega)
    have hlt : beNat bytes < 256 ^ 7 := (beNat_lt bytes).trans_le (Nat.pow_le_pow_right (by decide) (by omega))
    have hx := x.isLt
    have hword : beWord (bytes ++ [x]) = (beWord bytes <<< 8) ||| x.setWidth 64 := by
      rw [beWord, List.foldl_append]
      rfl
    rw [hword, beNat_append_singleton, BitVec.toNat_or, BitVec.toNat_shiftLeft, BitVec.toNat_setWidth, hlow,
      Nat.shiftLeft_eq, Nat.mod_eq_of_lt (a := x.toNat) (by omega), Nat.mod_eq_of_lt (by omega), Nat.mul_comm,
      ← Nat.two_pow_add_eq_or_of_lt hx]

lemma beNat_be32 (v : U32) : beNat (FwCfg.be32 v) = v.toNat := by
  have := v.isLt
  simp only [beNat, FwCfg.be32, List.foldl_cons, List.foldl_nil, BitVec.toNat_setWidth, BitVec.toNat_ushiftRight,
    Nat.shiftRight_eq_div_pow]
  omega

end Arm64Emu
