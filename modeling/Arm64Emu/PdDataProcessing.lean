import Arm64Emu.AluFacts

/-! The predecoded tier on the data-processing groups: each class of
`fill_dp_imm` and `fill_dp_reg` is compared with the interpreter's decoder. -/
namespace Arm64Emu
open BitField

@[simp] lemma PdEnt.ofInsn_op (insn : U32) : (PdEnt.ofInsn insn).op = .generic := rfl
@[simp] lemma PdEnt.ofInsn_rd (insn : U32) : (PdEnt.ofInsn insn).rd = bits insn 4 0 := rfl
@[simp] lemma PdEnt.ofInsn_rn (insn : U32) : (PdEnt.ofInsn insn).rn = bits insn 9 5 := rfl
@[simp] lemma PdEnt.ofInsn_rm (insn : U32) : (PdEnt.ofInsn insn).rm = bits insn 20 16 := rfl
@[simp] lemma PdEnt.ofInsn_insn (insn : U32) : (PdEnt.ofInsn insn).insn = insn := rfl

/-- The entry is left to the interpreter, or its handler is `f` on the processor state. -/
def PdEnt.Runs (e : PdEnt) (f : Cpu → Cpu) : Prop :=
  e.op = .generic ∨ (e.op.isMem = false ∧ ∀ c, pdCpu e c = f c)

section Packing

lemma zext_low {n : ℕ} (k : ℕ) (hk : k ≤ 63) (h : n < 2 ^ 64) :
    (zext n &&& BitVec.ofNat 64 (2 ^ k - 1)).toNat = n % 2 ^ k := by
  have hlt : 2 ^ k - 1 < 2 ^ 64 := by
    have := Nat.pow_le_pow_right (show 0 < 2 by decide) hk
    omega
  rw [BitVec.toNat_and, zext_toNat h, BitVec.toNat_ofNat, Nat.mod_eq_of_lt hlt,
    Nat.and_two_pow_sub_one_eq_mod]

lemma zext_high {n : ℕ} (j k : ℕ) (hk : k ≤ 63) (h : n < 2 ^ 64) :
    ((zext n >>> j) &&& BitVec.ofNat 64 (2 ^ k - 1)).toNat = n / 2 ^ j % 2 ^ k := by
  have hz : zext n >>> j = zext (n / 2 ^ j) := by
    apply BitVec.eq_of_toNat_eq
    rw [BitVec.toNat_ushiftRight, zext_toNat h, zext_toNat (lt_of_le_of_lt (Nat.div_le_self _ _) h),
      Nat.shiftRight_eq_div_pow]
  rw [hz, zext_low k hk (lt_of_le_of_lt (Nat.div_le_self _ _) h)]

lemma unpack_shift {t n s : ℕ} (ht : t < 4) (hs : s < 64) (hn : n < 2) :
    ((zext (n * 256 + t * 64 + s) >>> 6) &&& 3).toNat = t ∧
      (zext (n * 256 + t * 64 + s) &&& 63).toNat = s ∧
      (zext (n * 256 + t * 64 + s) &&& 256 ≠ 0 ↔ n = 1) := by
  have h1 := zext_high (n := n * 256 + t * 64 + s) 6 2 (by decide) (by omega)
  have h2 := zext_low (n := n * 256 + t * 64 + s) 6 (by decide) (by omega)
  refine ⟨h1.trans (by omega), h2.trans (by omega), ?_⟩
  have h3 : zext (n * 256 + t * 64 + s) &&& 256 ≠ 0 ↔
      (zext (n * 256 + t * 64 + s)).getLsbD 8 = true := by
    rw [show (256 : U64) = BitVec.twoPow 64 8 by decide, BitVec.and_twoPow]
    cases (zext (n * 256 + t * 64 + s)).getLsbD 8 <;> decide
  rw [h3, BitVec.getLsbD, zext_toNat (by omega), Nat.testBit_eq_decide_div_mod_eq,
    decide_eq_true_iff]
  omega

lemma unpack_extend {t s : ℕ} (ht : t < 8) (hs : s < 8) :
    ((zext (t * 8 + s) >>> 3) &&& 7).toNat = t ∧ (zext (t * 8 + s) &&& 7).toNat = s := by
  have h1 := zext_high (n := t * 8 + s) 3 3 (by decide) (by omega)
  have h2 := zext_low (n := t * 8 + s) 3 (by decide) (by omega)
  exact ⟨h1.trans (by omega), h2.trans (by omega)⟩

end Packing

section Immediate

lemma addWithCarry_sub_64 (x y : U64) : (addWithCarry x (~~~y) true true).1 = x - y := by
  rw [addWithCarry_64, BitVec.sub_eq_add_neg, BitVec.neg_eq_not_add, ← BitVec.add_assoc]
  rfl

lemma addWithCarry_sub_32 (x y : U64) : (addWithCarry x (~~~y) true false).1 = lo32 (x - y) := by
  rw [addWithCarry_32, BitVec.sub_eq_add_neg, BitVec.neg_eq_not_add, ← BitVec.add_assoc]
  rfl

lemma addWithCarry_add_64 (x y : U64) : (addWithCarry x y false true).1 = x + y := by
  rw [addWithCarry_64]
  exact BitVec.add_zero _

lemma addWithCarry_add_32 (x y : U64) : (addWithCarry x y false false).1 = lo32 (x + y) := by
  rw [addWithCarry_32]
  exact congrArg lo32 (BitVec.add_zero _)

attribute [local simp] addWithCarry_sub_64 addWithCarry_sub_32 addWithCarry_add_64
  addWithCarry_add_32 pdAwc_eq

lemma runs_adr {insn : U32} (h : bits insn 28 23 = 0x20 ∨ bits insn 28 23 = 0x21) :
    (fillDpImm (.ofInsn insn) insn).Runs (dpImmediate · insn) := by
  simp only [fillDpImm, dpImmediate, h, if_true]
  cases bit insn 31
  · exact .inr ⟨rfl, fun c => rfl⟩
  · exact .inr ⟨rfl, fun c => rfl⟩

lemma runs_addSubImm {insn : U32} (h : bits insn 28 23 = 0x22) :
    (fillDpImm (.ofInsn insn) insn).Runs (dpImmediate · insn) := by
  simp only [fillDpImm, dpImmediate, h, Nat.reduceEqDiff, or_self, if_false, if_true]
  cases bit insn 31 <;> cases bit insn 30 <;> cases bit insn 29 <;> refine .inr ⟨rfl, fun c => ?_⟩ <;>
    simp [pdCpu, pick, Cpu.setFlagsX, Cpu.setXSz]

lemma runs_logicalImm {insn : U32} (h : bits insn 28 23 = 0x24) :
    (fillDpImm (.ofInsn insn) insn).Runs (dpImmediate · insn) := by
  simp only [fillDpImm, dpImmediate, h, Nat.reduceEqDiff, or_self, if_false, if_true, pdBitmasks_eq]
  cases decodeBitmasks (bit insn 22) (bits insn 15 10) (bits insn 21 16) (bit insn 31) with
  | none => exact .inl rfl
  | some m =>
    obtain ⟨wmask, tmask⟩ := m
    have hopc := bits_lt insn 30 29
    simp only [Option.map_some]
    generalize bits insn 30 29 = opc at hopc
    have : opc = 0 ∨ opc = 1 ∨ opc = 2 ∨ opc = 3 := by omega
    rcases this with rfl | rfl | rfl | rfl <;> cases bit insn 31 <;> exact .inr ⟨rfl, fun c => rfl⟩

lemma runs_movWide {insn : U32} (h : bits insn 28 23 = 0x25) :
    (fillDpImm (.ofInsn insn) insn).Runs (dpImmediate · insn) := by
  simp only [fillDpImm, dpImmediate, h, Nat.reduceEqDiff, or_self, if_false, if_true]
  split_ifs
  · exact .inl rfl
  · exact .inr ⟨rfl, fun c => rfl⟩
  · exact .inr ⟨rfl, fun c => rfl⟩
  · cases bit insn 31 <;> exact .inr ⟨rfl, fun c => rfl⟩
  · exact .inl rfl

lemma runs_extr {insn : U32} (h : bits insn 28 23 = 0x27) :
    (fillDpImm (.ofInsn insn) insn).Runs (dpImmediate · insn) := by
  have hz : (zext (bits insn 15 10)).toNat = bits insn 15 10 :=
    zext_toNat ((bits_lt insn 15 10).trans (by decide))
  simp only [fillDpImm, dpImmediate, h, Nat.reduceEqDiff, or_self, if_false, if_true]
  by_cases hu : bits insn 30 29 ≠ 0 ∨ bit insn 22 ≠ bit insn 31 ∨ bit insn 21
  · exact .inl (by rw [if_pos hu]; rfl)
  obtain ⟨h1, h2, h3⟩ : bits insn 30 29 = 0 ∧ bit insn 22 = bit insn 31 ∧ bit insn 21 = false := by
    simpa using hu
  simp only [h1, h2, h3, ne_eq, not_true_eq_false, Bool.false_eq_true, or_self, false_or, if_false]
  cases bit insn 31 with
  | true =>
    refine .inr ⟨rfl, fun c => ?_⟩
    simp only [if_true, pdCpu, hz]
    rfl
  | false =>
    by_cases hlt : bits insn 15 10 < 32
    · simp only [if_pos hlt, show ¬ 32 ≤ bits insn 15 10 by omega, and_false, if_false,
        Bool.false_eq_true]
      refine .inr ⟨rfl, fun c => ?_⟩
      simp only [pdCpu, hz, Cpu.setXSz, sz_false, lo32_setWidth]
      rfl
    · exact .inl (by simp [hlt])

lemma dpImmediate_bitfield_64 {insn : U32} (c : Cpu) (h : bits insn 28 23 = 0x26)
    (hsf : bit insn 31 = true) (hn : bit insn 22 = true) (hopc : bits insn 30 29 ≠ 3) :
    dpImmediate c insn = c.setX (bits insn 4 0)
      (move (if bits insn 30 29 = 0 then
            (if (c.regX (bits insn 9 5)).getLsbD (bits insn 15 10) then BitVec.allOnes 64 else 0)
          else if bits insn 30 29 = 2 then 0 else c.regX (bits insn 4 0))
        (if bits insn 30 29 = 1 then c.regX (bits insn 4 0) else 0)
        (c.regX (bits insn 9 5)) (bits insn 21 16) (bits insn 15 10)) := by
  simp only [dpImmediate, h, Nat.reduceEqDiff, or_self, if_false, if_true, hsf, hn, hopc, ne_eq,
    not_true_eq_false, decodeBitmasks_64 (bits_lt insn 15 10) (bits_lt insn 21 16), rorWithin_64,
    Cpu.setXSz, sz_true, move]
  congr 3
  split
  · rfl
  · simp

lemma dpImmediate_bitfield_32 {insn : U32} (c : Cpu) (h : bits insn 28 23 = 0x26)
    (hsf : bit insn 31 = false) (hn : bit insn 22 = false) (hopc : bits insn 30 29 ≠ 3)
    (hr : bits insn 21 16 < 32) (hs : bits insn 15 10 < 32) :
    dpImmediate c insn = c.setX (bits insn 4 0)
      ((move (if bits insn 30 29 = 0 then
            (if ((c.regX (bits insn 9 5)).setWidth 32).getLsbD (bits insn 15 10)
              then BitVec.allOnes 32 else 0)
          else if bits insn 30 29 = 2 then 0 else (c.regX (bits insn 4 0)).setWidth 32)
        (if bits insn 30 29 = 1 then (c.regX (bits insn 4 0)).setWidth 32 else 0)
        ((c.regX (bits insn 9 5)).setWidth 32) (bits insn 21 16) (bits insn 15 10)).setWidth 64) := by
  simp only [dpImmediate, h, Nat.reduceEqDiff, or_self, if_false, if_true, hsf, hn, hopc, ne_eq,
    not_true_eq_false, decodeBitmasks_32 hs hr, rorWithin_32 _ hr, Cpu.setXSz, sz_false, move,
    Bool.false_eq_true]
  congr 1
  rw [lo32]
  congr 1
  simp only [BitVec.setWidth_or, BitVec.setWidth_and, BitVec.setWidth_not (by decide : 32 ≤ 64),
    BitVec.setWidth_setWidth_of_le _ (by decide : 32 ≤ 64), BitVec.setWidth_eq]
  congr 2
  · simp only [BitVec.getLsbD_setWidth, hs, decide_true, Bool.true_and]
    split_ifs <;> rfl
  · split_ifs
    · simp only [BitVec.setWidth_or, BitVec.setWidth_and, BitVec.setWidth_not (by decide : 32 ≤ 64),
        BitVec.setWidth_setWidth_of_le _ (by decide : 32 ≤ 64), BitVec.setWidth_eq]
    · simp

lemma lo32_shiftLeft (v : U64) (k : ℕ) : lo32 (v <<< k) = ((v.setWidth 32) <<< k).setWidth 64 := by
  rw [lo32, BitVec.setWidth_shiftLeft_of_le (by decide)]

lemma lo32_and_mask_shiftLeft (v : U64) (k j : ℕ) :
    lo32 ((v &&& mask 64 k) <<< j) = ((v.setWidth 32 &&& mask 32 k) <<< j).setWidth 64 := by
  rw [lo32_shiftLeft]
  congr 2
  apply BitVec.eq_of_getLsbD_eq
  intro i hi
  simp only [BitVec.getLsbD_setWidth, BitVec.getLsbD_and, getLsbD_mask, hi, show i < 64 by omega,
    decide_true, Bool.true_and]

lemma shiftRight_and_mask {r k : ℕ} (v : U64) (h : r + k ≤ 32) :
    (v >>> r) &&& mask 64 k = ((v.setWidth 32 >>> r) &&& mask 32 k).setWidth 64 := by
  apply BitVec.eq_of_getLsbD_eq
  intro i hi
  simp only [BitVec.getLsbD_setWidth, BitVec.getLsbD_and, getLsbD_mask, hi, decide_true,
    Bool.true_and, BitVec.getLsbD_ushiftRight]
  by_cases hk : i < k
  · simp [hk, show i < 32 by omega, show r + i < 32 by omega]
  · simp [hk]

lemma runs_ubfm_64 {insn : U32} (hsf : bit insn 31 = true) (hn : bit insn 22 = true)
    (hopc : bits insn 30 29 = 2) :
    (fillBitfield (.ofInsn insn) insn).Runs fun c =>
      c.setX (bits insn 4 0) (moveU (c.regX (bits insn 9 5)) (bits insn 21 16) (bits insn 15 10)) := by
  have hr : bits insn 21 16 < 64 := bits_lt insn 21 16
  have hs : bits insn 15 10 < 64 := bits_lt insn 15 10
  simp only [fillBitfield, hsf, hn, hopc, Bool.not_true, Bool.false_eq_true, if_false, if_true]
  split_ifs with ha hb hc <;> refine .inr ⟨rfl, fun c => ?_⟩ <;> beta_reduce
  · rw [ha, moveU_lsr _ hr]
    rfl
  · rw [hb, moveU_lsl _ (by omega)]
    rfl
  · rw [moveU_extract _ hc hs, ← ones_eq_mask]
    rfl
  · rw [moveU_insert _ (by omega) hr, ← ones_eq_mask]
    rfl

lemma runs_ubfm_32 {insn : U32} (hsf : bit insn 31 = false) (hn : bit insn 22 = false)
    (hopc : bits insn 30 29 = 2) (hr : bits insn 21 16 < 32) (hs : bits insn 15 10 < 32) :
    (fillBitfield (.ofInsn insn) insn).Runs fun c =>
      c.setX (bits insn 4 0)
        ((moveU ((c.regX (bits insn 9 5)).setWidth 32) (bits insn 21 16) (bits insn 15 10)).setWidth 64) := by
  simp only [fillBitfield, hsf, hn, hopc, Bool.false_eq_true, if_false, if_true, Bool.false_or,
    decide_eq_true_eq, Bool.or_eq_true, show ¬ 32 ≤ bits insn 21 16 by omega,
    show ¬ 32 ≤ bits insn 15 10 by omega, or_self]
  split_ifs with ha hb hc <;> refine .inr ⟨rfl, fun c => ?_⟩ <;> beta_reduce
  · rw [ha, moveU_lsr _ hr]
    rfl
  · rw [hb, moveU_lsl _ (by omega), ← lo32_shiftLeft]
    rfl
  · rw [moveU_extract _ hc hs, ← shiftRight_and_mask _ (by omega), ← ones_eq_mask]
    rfl
  · rw [moveU_insert _ (by omega) hr, ← lo32_and_mask_shiftLeft, ← ones_eq_mask]
    rfl

lemma runs_sbfm_64 {insn : U32} (hsf : bit insn 31 = true) (hn : bit insn 22 = true)
    (hopc : bits insn 30 29 = 0) :
    (fillBitfield (.ofInsn insn) insn).Runs fun c =>
      c.setX (bits insn 4 0) (moveS (c.regX (bits insn 9 5)) (bits insn 21 16) (bits insn 15 10)) := by
  have hr : bits insn 21 16 < 64 := bits_lt insn 21 16
  have hs : bits insn 15 10 < 64 := bits_lt insn 15 10
  simp only [fillBitfield, hsf, hn, hopc, Bool.not_true, Bool.false_eq_true, if_false, if_true,
    OfNat.zero_ne_ofNat]
  split_ifs with ha hc
  · refine .inr ⟨rfl, fun c => ?_⟩
    beta_reduce
    rw [ha, moveS_asr _ hr]
    rfl
  · refine .inr ⟨rfl, fun c => ?_⟩
    have hz := zext_toNat (n := 64 - 1 - bits insn 15 10 + bits insn 21 16) (by omega)
    simp only [pdCpu, pick, if_true, hz, moveS_extract _ hc hs]
    rfl
  · exact .inl rfl

lemma runs_sbfm_32 {insn : U32} (hsf : bit insn 31 = false) (hn : bit insn 22 = false)
    (hopc : bits insn 30 29 = 0) (hr : bits insn 21 16 < 32) (hs : bits insn 15 10 < 32) :
    (fillBitfield (.ofInsn insn) insn).Runs fun c =>
      c.setX (bits insn 4 0)
        ((moveS ((c.regX (bits insn 9 5)).setWidth 32) (bits insn 21 16) (bits insn 15 10)).setWidth 64) := by
  simp only [fillBitfield, hsf, hn, hopc, Bool.false_eq_true, if_false, if_true, Bool.false_or,
    decide_eq_true_eq, Bool.or_eq_true, show ¬ 32 ≤ bits insn 21 16 by omega,
    show ¬ 32 ≤ bits insn 15 10 by omega, or_self, OfNat.zero_ne_ofNat]
  split_ifs with ha hc
  · refine .inr ⟨rfl, fun c => ?_⟩
    beta_reduce
    rw [ha, moveS_asr _ hr]
    rfl
  · refine .inr ⟨rfl, fun c => ?_⟩
    have hz := zext_toNat (n := 32 - 1 - bits insn 15 10 + bits insn 21 16) (by omega)
    simp only [pdCpu, pick, Bool.false_eq_true, if_false, hz, moveS_extract _ hc hs]
    rfl
  · exact .inl rfl

lemma runs_bitfield {insn : U32} (h : bits insn 28 23 = 0x26) :
    (fillDpImm (.ofInsn insn) insn).Runs (dpImmediate · insn) := by
  have hfill : fillDpImm (.ofInsn insn) insn = fillBitfield (.ofInsn insn) insn := by
    simp [fillDpImm, h]
  rw [hfill]
  by_cases hopc : bits insn 30 29 = 0 ∨ bits insn 30 29 = 2
  swap
  · push Not at hopc
    refine .inl ?_
    simp only [fillBitfield, hopc, if_false, ite_self]
    rfl
  cases hsf : bit insn 31 <;> cases hn : bit insn 22
  · by_cases hlt : bits insn 21 16 < 32 ∧ bits insn 15 10 < 32
    · rcases hopc with hopc | hopc
      · convert runs_sbfm_32 hsf hn hopc hlt.1 hlt.2 using 2 with c
        rw [dpImmediate_bitfield_32 c h hsf hn (by omega) hlt.1 hlt.2]
        simp [hopc, moveS]
      · convert runs_ubfm_32 hsf hn hopc hlt.1 hlt.2 using 2 with c
        rw [dpImmediate_bitfield_32 c h hsf hn (by omega) hlt.1 hlt.2]
        simp [hopc, moveU]
    · refine .inl ?_
      have : 32 ≤ bits insn 21 16 ∨ 32 ≤ bits insn 15 10 := by omega
      simp [fillBitfield, hsf, hn, this]
  · exact .inl (by simp [fillBitfield, hsf, hn])
  · exact .inl (by simp [fillBitfield, hsf, hn])
  · rcases hopc with hopc | hopc
    · convert runs_sbfm_64 hsf hn hopc using 2 with c
      rw [dpImmediate_bitfield_64 c h hsf hn (by omega)]
      simp [hopc, moveS]
    · convert runs_ubfm_64 hsf hn hopc using 2 with c
      rw [dpImmediate_bitfield_64 c h hsf hn (by omega)]
      simp [hopc, moveU]

theorem runs_dpImmediate (insn : U32) : (fillDpImm (.ofInsn insn) insn).Runs (dpImmediate · insn) := by
  by_cases h : bits insn 28 23 = 0x20 ∨ bits insn 28 23 = 0x21
  · exact runs_adr h
  by_cases h22 : bits insn 28 23 = 0x22
  · exact runs_addSubImm h22
  by_cases h24 : bits insn 28 23 = 0x24
  · exact runs_logicalImm h24
  by_cases h25 : bits insn 28 23 = 0x25
  · exact runs_movWide h25
  by_cases h26 : bits insn 28 23 = 0x26
  · exact runs_bitfield h26
  by_cases h27 : bits insn 28 23 = 0x27
  · exact runs_extr h27
  refine .inl ?_
  simp only [fillDpImm, h, h22, h24, h25, h26, h27, if_false]
  rfl

end Immediate

section Register

lemma lo32_and (a b : U64) : lo32 (a &&& b) = lo32 a &&& lo32 b := by
  simp [lo32, BitVec.setWidth_and]

lemma lo32_or (a b : U64) : lo32 (a ||| b) = lo32 a ||| lo32 b := by
  simp [lo32, BitVec.setWidth_or]

lemma lo32_xor (a b : U64) : lo32 (a ^^^ b) = lo32 a ^^^ lo32 b := by
  simp [lo32, BitVec.setWidth_xor]

lemma lo32_not_lo32 (a : U64) : lo32 (~~~lo32 a) = lo32 (~~~a) := by
  simp [lo32, BitVec.setWidth_not]

lemma addWithCarry_congr_32 {x y y' : U64} (cin : Bool) (h : lo32 y = lo32 y') :
    addWithCarry x y cin false = addWithCarry x y' cin false := by
  have h32 : (y.setWidth 32 : U32) = y'.setWidth 32 := by
    have := congrArg (BitVec.setWidth 32) h
    simpa [lo32] using this
  simp only [addWithCarry, h32, Bool.false_eq_true, if_false]

lemma shiftReg_zero (v : U64) (sf : Bool) : shiftReg v 0 0 sf = sz sf v := by
  cases sf <;> simp [shiftReg]

lemma runs_logicalReg {insn : U32} (h : bits insn 28 24 = 0x0a) :
    (fillDpReg (.ofInsn insn) insn).Runs (dpRegister · insn) := by
  have hopc : bits insn 30 29 < 4 := bits_lt insn 30 29
  obtain ⟨hp1, hp2, hp3⟩ := unpack_shift (bits_lt insn 23 22) (bits_lt insn 15 10)
    (Bool.toNat_lt (bit insn 21))
  rw [Bool.toNat_eq_one] at hp3
  simp only [fillDpReg, dpRegister, h, if_true]
  by_cases hu : (!bit insn 31) = true ∧ 32 ≤ bits insn 15 10
  · exact .inl (by rw [if_pos hu]; rfl)
  simp only [if_neg hu]
  have hcase : bits insn 30 29 = 0 ∨ bits insn 30 29 = 1 ∨ bits insn 30 29 = 2 ∨ bits insn 30 29 = 3 := by
    omega
  by_cases hz : bits insn 23 22 = 0 ∧ bits insn 15 10 = 0
  · -- no shift: one handler per operation and inversion
    simp only [hz, and_self, if_true, shiftReg_zero]
    rcases hcase with ho | ho | ho | ho <;> cases bit insn 31 <;> cases bit insn 21 <;>
      simp only [ho] <;> refine .inr ⟨rfl, fun c => ?_⟩ <;>
      simp [pdCpu, logicalRegId, pick, logicalOp, pdLogicalFlags, lo32_and, lo32_or, lo32_xor, lo32_not_lo32]
  · simp only [if_neg hz]
    rcases hcase with ho | ho | ho | ho <;> cases bit insn 31 <;>
      simp only [ho] <;> refine .inr ⟨rfl, fun c => ?_⟩ <;>
      simp only [pdCpu, pdLogicalShift, logicalShiftId, pick, pdShiftReg, hp1, hp2, hp3,
        Bool.false_eq_true, if_true, if_false] <;> rfl

lemma runs_addSubExt {insn : U32} (h : bits insn 28 24 = 0x0b) (hx : bit insn 21 = true) :
    (fillDpReg (.ofInsn insn) insn).Runs (dpRegister · insn) := by
  obtain ⟨hp1, hp2⟩ := unpack_extend (bits_lt insn 15 13) (bits_lt insn 12 10)
  simp only [fillDpReg, dpRegister, h, hx, if_true, Nat.reduceEqDiff, if_false]
  by_cases hu : 4 < bits insn 12 10 ∨ bits insn 23 22 ≠ 0
  · exact .inl (by rw [if_pos hu]; rfl)
  simp only [if_neg hu]
  cases bit insn 31 <;> cases bit insn 30 <;> cases bit insn 29 <;> refine .inr ⟨rfl, fun c => ?_⟩ <;>
    simp only [pdCpu, pdAddSubExt, addSubExtId, pick, pdExtendReg, hp1, hp2, pdAwc_eq,
      Bool.false_eq_true, if_true, if_false] <;> rfl

lemma runs_addSubReg {insn : U32} (h : bits insn 28 24 = 0x0b) (hx : bit insn 21 = false) :
    (fillDpReg (.ofInsn insn) insn).Runs (dpRegister · insn) := by
  obtain ⟨hp1, hp2, -⟩ := unpack_shift (bits_lt insn 23 22) (bits_lt insn 15 10) (by decide : 0 < 2)
  rw [Nat.zero_mul, Nat.zero_add] at hp1 hp2
  simp only [fillDpReg, dpRegister, h, hx, if_true, Nat.reduceEqDiff, if_false, Bool.false_eq_true]
  by_cases h3 : bits insn 23 22 = 3
  · exact .inl (by rw [if_pos h3]; rfl)
  by_cases hu : (!bit insn 31) = true ∧ 32 ≤ bits insn 15 10
  · exact .inl (by rw [if_neg h3, if_pos hu]; rfl)
  simp only [h3, hu, or_self, if_false]
  by_cases hz : bits insn 23 22 = 0 ∧ bits insn 15 10 = 0
  · simp only [hz, and_self, if_true, shiftReg_zero]
    have hadd (x y : U64) := addWithCarry_congr_32 (x := x) false (lo32_lo32 y)
    have hsub (x y : U64) := addWithCarry_congr_32 (x := x) true (lo32_not_lo32 y)
    cases bit insn 31 <;> cases bit insn 30 <;> cases bit insn 29 <;> refine .inr ⟨rfl, fun c => ?_⟩ <;>
      simp [pdCpu, addSubRegId, pick, Cpu.setFlagsX, Cpu.setXSz, pdAwc_eq, hadd, hsub,
        addWithCarry_add_64, addWithCarry_add_32, addWithCarry_sub_64, addWithCarry_sub_32]
  · simp only [if_neg hz]
    cases bit insn 31 <;> cases bit insn 30 <;> cases bit insn 29 <;> refine .inr ⟨rfl, fun c => ?_⟩ <;>
      simp only [pdCpu, pdAddSubShift, addSubShiftId, pick, pdShiftReg, hp1, hp2, pdAwc_eq,
        Bool.false_eq_true, if_true, if_false] <;> rfl

lemma runs_dp3 {insn : U32} (h : bits insn 28 24 = 0x1b) :
    (fillDpReg (.ofInsn insn) insn).Runs (dpRegister · insn) := by
  have hz : (zext (bits insn 14 10)).toNat = bits insn 14 10 :=
    zext_toNat ((bits_lt insn 14 10).trans (by decide))
  have hop : bits insn 23 21 < 8 := bits_lt insn 23 21
  simp only [fillDpReg, dpRegister, h, if_true, Nat.reduceEqDiff, if_false, bits_self insn 15]
  by_cases hu : bits insn 30 29 ≠ 0
  · exact .inl (by rw [if_pos hu]; rfl)
  simp only [if_neg hu]
  generalize bits insn 23 21 = op31 at hop
  interval_cases op31 <;> cases bit insn 31 <;> cases bit insn 15 <;>
    simp only [dp3Id, pick, Bool.toNat_true, Bool.toNat_false, Nat.reduceMul, Nat.reduceAdd,
      Bool.false_eq_true, if_true, if_false, reduceCtorEq] <;> first
    | exact .inl rfl
    | exact .inr ⟨rfl, fun c => by simp only [pdCpu, hz]; rfl⟩

lemma unpack_ccmp {cond m : ℕ} (f : U32) (hc : cond < 16) (hm : m < 32) :
    ((zext cond ||| (zext m <<< 8) ||| (f.setWidth 64 <<< 32)) &&& 15).toNat = cond ∧
      ((zext cond ||| (zext m <<< 8) ||| (f.setWidth 64 <<< 32)) >>> 8) &&& 31 = zext m ∧
      ((zext cond ||| (zext m <<< 8) ||| (f.setWidth 64 <<< 32)) >>> 32).setWidth 32 = f := by
  have hcond (i : ℕ) (hi : 4 ≤ i) : (zext cond).getLsbD i = false := by
    have : cond < 2 ^ i := lt_of_lt_of_le hc (Nat.pow_le_pow_right (n := 2) (by decide) hi)
    rw [BitVec.getLsbD, zext_toNat (by omega), Nat.testBit_lt_two_pow this]
  have hop (i : ℕ) (hi : 5 ≤ i) : (zext m).getLsbD i = false := by
    have : m < 2 ^ i := lt_of_lt_of_le hm (Nat.pow_le_pow_right (n := 2) (by decide) hi)
    rw [BitVec.getLsbD, zext_toNat (by omega), Nat.testBit_lt_two_pow this]
  refine ⟨?_, ?_, ?_⟩
  · have h : (zext cond ||| (zext m <<< 8) ||| (f.setWidth 64 <<< 32)) &&& 15 = zext cond := by
      apply BitVec.eq_of_getLsbD_eq
      intro i hi
      rw [show (15 : U64) = mask 64 4 by decide]
      simp only [BitVec.getLsbD_and, BitVec.getLsbD_or, BitVec.getLsbD_shiftLeft, getLsbD_mask, hi]
      by_cases h4 : i < 4
      · simp [h4, show i < 8 by omega, show i < 32 by omega]
      · simp [h4, hcond i (by omega)]
    rw [h, zext_toNat (by omega)]
  · apply BitVec.eq_of_getLsbD_eq
    intro i hi
    rw [show (31 : U64) = mask 64 5 by decide]
    simp only [BitVec.getLsbD_and, BitVec.getLsbD_or, BitVec.getLsbD_shiftLeft, getLsbD_mask, hi,
      BitVec.getLsbD_ushiftRight, hcond (8 + i) (by omega)]
    by_cases h5 : i < 5
    · simp [h5, show 8 + i < 32 by omega, show 8 + i < 64 by omega]
    · simp [h5, hop i (by omega)]
  · apply BitVec.eq_of_getLsbD_eq
    intro i hi
    simp only [BitVec.getLsbD_or, BitVec.getLsbD_shiftLeft, hi, BitVec.getLsbD_setWidth,
      BitVec.getLsbD_ushiftRight, hcond (32 + i) (by omega), hop (32 + i - 8) (by omega)]
    simp [show i < 64 by omega, show 32 + i < 64 by omega]

lemma runs_ccmp {insn : U32} (h : bits insn 28 24 = 0x1a) (h21 : bits insn 28 21 = 0xd2) :
    (fillDpReg (.ofInsn insn) insn).Runs (dpRegister · insn) := by
  obtain ⟨hp1, hp2, hp3⟩ := unpack_ccmp (nzcvImm (bits insn 3 0)) (bits_lt insn 15 12) (bits_lt insn 20 16)
  simp only [fillDpReg, dpRegister, h, h21, if_true, Nat.reduceEqDiff, if_false]
  by_cases hu : (!bit insn 29) = true ∨ bit insn 10 = true ∨ bit insn 4 = true
  · exact .inl (by rw [if_pos hu]; rfl)
  simp only [if_neg hu]
  cases bit insn 31 <;> cases bit insn 30 <;> cases bit insn 11 <;> refine .inr ⟨rfl, fun c => ?_⟩ <;>
    simp only [pdCpu, pdCcmp, ccmpId, pick, hp1, hp2, hp3, pdAwc_eq, Bool.false_eq_true, if_true,
      if_false] <;> rfl

lemma runs_csel {insn : U32} (h : bits insn 28 24 = 0x1a) (h21 : bits insn 28 21 = 0xd4) :
    (fillDpReg (.ofInsn insn) insn).Runs (dpRegister · insn) := by
  have hz : (zext (bits insn 15 12)).toNat = bits insn 15 12 :=
    zext_toNat ((bits_lt insn 15 12).trans (by decide))
  simp only [fillDpReg, dpRegister, h, h21, if_true, Nat.reduceEqDiff, if_false]
  by_cases hu : bit insn 29 = true ∨ bit insn 11 = true
  · exact .inl (by rw [if_pos hu]; rfl)
  simp only [if_neg hu]
  cases bit insn 31 <;> cases bit insn 30 <;> cases bit insn 10 <;> refine .inr ⟨rfl, fun c => ?_⟩ <;>
    simp only [pdCpu, pdCsel, cselId, pick, hz, Bool.false_eq_true, if_true, if_false] <;> rfl

lemma lo32_zext {n : ℕ} (h : n < 2 ^ 32) : lo32 (zext n) = zext n := by
  rw [lo32_eq_self_iff, zext_toNat (by omega)]
  exact h

lemma lo32_clz (v : U64) :
    lo32 (if v ≠ 0 then zext (clzBits v 32) else 32) = if v ≠ 0 then zext (clzBits v 32) else 32 := by
  split
  · exact lo32_zext (by unfold clzBits; omega)
  · rfl

lemma lo32_udiv (n m : U64) : lo32 (udiv n m false) = udiv n m false := lo32_setWidth _

lemma lo32_sdiv (n m : U64) : lo32 (sdiv n m false) = sdiv n m false := lo32_setWidth _

lemma runs_dp1 {insn : U32} (h : bits insn 28 24 = 0x1a) (h21 : bits insn 28 21 = 0xd6)
    (h30 : bit insn 30 = true) : (fillDpReg (.ofInsn insn) insn).Runs (dpRegister · insn) := by
  simp only [fillDpReg, dpRegister, h, h21, h30, if_true, Nat.reduceEqDiff, if_false, dp1Id]
  split_ifs with hrevw hrev hclz
  · obtain ⟨ho, hsf⟩ := hrevw
    rw [Bool.not_eq_true'] at hsf
    refine .inr ⟨rfl, fun c => ?_⟩
    simp only [ho, hsf, dp1Source, Bool.false_eq_true, if_false, Cpu.setXSz, sz_false, lo32_setWidth]
    rfl
  · obtain ⟨ho, hsf⟩ := hrev
    refine .inr ⟨rfl, fun c => ?_⟩
    simp only [ho, hsf, dp1Source]
    rfl
  · rw [hclz]
    cases bit insn 31
    · refine .inr ⟨rfl, fun c => ?_⟩
      simp only [dp1Source, Bool.false_eq_true, if_false, Cpu.setXSz, sz_false, lo32_clz]
      rfl
    · exact .inr ⟨rfl, fun c => rfl⟩
  · exact .inl rfl

lemma runs_dp2 {insn : U32} (h : bits insn 28 24 = 0x1a) (h21 : bits insn 28 21 = 0xd6)
    (h30 : bit insn 30 = false) : (fillDpReg (.ofInsn insn) insn).Runs (dpRegister · insn) := by
  simp only [fillDpReg, dpRegister, h, h21, h30, if_true, Nat.reduceEqDiff, if_false,
    Bool.false_eq_true]
  generalize bits insn 15 10 = opcode
  unfold dp2Id
  split
  case h_7 => exact .inl rfl
  all_goals
    cases bit insn 31 <;> refine .inr ⟨rfl, fun c => ?_⟩ <;>
      simp only [pdCpu, pick, dp2Source, Cpu.setXSz, sz_true, sz_false, lo32_udiv, lo32_sdiv,
        Bool.false_eq_true, if_true, if_false] <;> rfl

theorem runs_dpRegister (insn : U32) : (fillDpReg (.ofInsn insn) insn).Runs (dpRegister · insn) := by
  by_cases ha : bits insn 28 24 = 0x0a
  · exact runs_logicalReg ha
  by_cases hb : bits insn 28 24 = 0x0b
  · cases hx : bit insn 21
    · exact runs_addSubReg hb hx
    · exact runs_addSubExt hb hx
  by_cases h1b : bits insn 28 24 = 0x1b
  · exact runs_dp3 h1b
  by_cases h1a : bits insn 28 24 = 0x1a
  · by_cases hd2 : bits insn 28 21 = 0xd2
    · exact runs_ccmp h1a hd2
    by_cases hd4 : bits insn 28 21 = 0xd4
    · exact runs_csel h1a hd4
    by_cases hd6 : bits insn 28 21 = 0xd6
    · cases h30 : bit insn 30
      · exact runs_dp2 h1a hd6 h30
      · exact runs_dp1 h1a hd6 h30
    refine .inl ?_
    simp only [fillDpReg, h1a, hd2, hd4, hd6, Nat.reduceEqDiff, if_true, if_false]
    rfl
  · refine .inl ?_
    simp only [fillDpReg, ha, hb, h1a, h1b, if_false]
    rfl

end Register

end Arm64Emu
