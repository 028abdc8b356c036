import Arm64Emu.FeDataProcessing

/-! The bitfield words that predecoding leaves generic: SBFIZ as a shift pair, and
BFXIL and BFI as a staged field merged into the destination. -/
namespace Arm64Emu
open BitField

variable {D : Type} {P : Platform D} {F : FpJit} {ir : IrBlock} {s₀ s : IrState D} {pc : U64}

section Bitfields
variable (h : ir.exec P F s₀ = .ok s) (hs : s.skip = false)

include h hs in
lemma yields_put_of_ne {rd : ℕ} (hrd : rd ≠ 31) {op : IrOp} {v : U64}
    (hstep : irStep P F s ⟨op, ir.ninsns⟩ = .ok (s.write (.x rd) v)) :
    (irPut ir op).Yields P F s₀ pc ⟨(s.m.cpu.setX rd v).enterInsn pc, s.m.bus⟩ := by
  have hput : putX ir rd op = irPut ir op := if_pos (by simpa [rx_eq_zero_iff] using hrd)
  rw [← hput]
  exact yields_putX h hs hstep

lemma yields_merge {ir' : IrBlock} {t : IrState D} {u : U64} {rd : ℕ} (hrd : rd ≠ 31)
    (hst : Stages P F (ir', .tmp 0) s₀ s t u) (w : Bool) (m : U64) :
    (irPut (irPut ir' (.alui .and true (.tmp 1) (rx rd) m)) (.alu .orr w (.x rd) (.tmp 0) (.tmp 1))).Yields P F s₀
      pc ⟨(s.m.cpu.setX rd (sz w (u ||| (s.m.cpu.regX rd &&& m)))).enterInsn pc, s.m.bus⟩ := by
  have h₁ : (irPut ir' (.alui .and true (.tmp 1) (rx rd) m)).exec P F s₀ =
      .ok (t.write (.tmp 1) (s.m.cpu.regX rd &&& m)) := by
    rw [exec_put_ok hst.exec]
    simp [irStep, hst.skip, IrState.alu, AluOp.eval, AluOp.setsFlags, hst.machine]
  have hread : (t.write (.tmp 1) (s.m.cpu.regX rd &&& m)).read (.tmp 0) = u :=
    (t.read_tmp_of_ne _ (by decide)).trans hst.value
  have hstep : irStep P F (t.write (.tmp 1) (s.m.cpu.regX rd &&& m))
        ⟨.alu .orr w (.x rd) (.tmp 0) (.tmp 1), ir'.ninsns⟩ =
      .ok ((t.write (.tmp 1) (s.m.cpu.regX rd &&& m)).write (.x rd) (sz w (u ||| (s.m.cpu.regX rd &&& m)))) := by
    simp only [irStep, IrState.write_skip, hst.skip, Bool.false_eq_true, if_false, IrState.alu, AluOp.setsFlags,
      IrState.arg, AluOp.eval_sz, IrState.read_write_tmp, hread]
    rfl
  have hy : IrBlock.Yields P F _ s₀ pc _ := yields_put_of_ne h₁ (by simpa using hst.skip) hrd hstep
  rwa [IrState.write_tmp_m, hst.machine] at hy

/-- The source of `BFXIL`, shifted into the first temporary. -/
def putBfxilSource (ir : IrBlock) (w : Bool) (rn r : ℕ) : IrBlock :=
  if r ≠ 0 then irPut ir (.shi .lsr w (.tmp 0) (rx rn) r)
  else if rn = 31 then irPut ir (.movi (.tmp 0) 0)
  else irPut ir (.mov true (.tmp 0) (.x rn))

include h hs in
lemma stages_bfxil {w : Bool} (rn : ℕ) {r n : ℕ} (hr : r + n ≤ if w then 64 else 32) (hn : 0 < n) :
    ∃ t, Stages P F (irPut (putBfxilSource ir w rn r) (.alui .and true (.tmp 0) (.tmp 0) (mask 64 n)), .tmp 0) s₀ s t
      ((s.m.cpu.regX rn >>> r) &&& mask 64 n) := by
  have hand {ir' : IrBlock} {t : IrState D} {v : U64} (hst : Stages P F (ir', .tmp 0) s₀ s t v)
      (hv : v &&& mask 64 n = (s.m.cpu.regX rn >>> r) &&& mask 64 n) :
      ∃ t, Stages P F (irPut ir' (.alui .and true (.tmp 0) (.tmp 0) (mask 64 n)), .tmp 0) s₀ s t
        ((s.m.cpu.regX rn >>> r) &&& mask 64 n) := by
    refine ⟨_, hst.trans (stages_put hst.exec hst.skip ?_)⟩
    have hread : t.read (.tmp 0) = v := hst.value
    simp [irStep, hst.skip, IrState.alu, AluOp.eval, AluOp.setsFlags, IrState.arg, hread, hv]
  unfold putBfxilSource
  split_ifs with h0 h31
  · refine hand (stages_put h hs (if_neg (by simp [hs]))) ?_
    rw [IrState.arg_rx, ShiftOp.eval_sz]
    cases w with
    | true => rw [lsr_eval_64 _ (by simp at hr; omega)]
    | false =>
      simp only [Bool.false_eq_true, if_false] at hr
      rw [lsr_eval_32 _ (by omega), shiftRight_and_mask _ hr]
      apply BitVec.eq_of_getLsbD_eq
      intro i hi
      simp only [BitVec.getLsbD_and, BitVec.getLsbD_setWidth, getLsbD_mask, hi, decide_true, Bool.true_and]
      by_cases hin : i < n
      · simp [hin, show i < 32 by omega]
      · simp [hin]
  · refine hand (stages_put h hs (if_neg (by simp [hs]))) ?_
    simp [h31, Cpu.regX]
  · refine hand (stages_put h hs (if_neg (by simp [hs]))) ?_
    have hr0 : r = 0 := not_not.1 h0
    simp [hr0, IrState.arg, IrState.read_x_of_ne s h31]

include h hs in
lemma stages_bfi (rn : ℕ) {k n : ℕ} (hk : k < 64) :
    ∃ t, Stages P F (irPut (irPut ir (.alui .and true (.tmp 0) (rx rn) (mask 64 n)))
        (.shi .lsl true (.tmp 0) (.tmp 0) k), .tmp 0) s₀ s t ((s.m.cpu.regX rn &&& mask 64 n) <<< k) := by
  have h₁ : Stages P F (irPut ir (.alui .and true (.tmp 0) (rx rn) (mask 64 n)), .tmp 0) s₀ s _
      (s.m.cpu.regX rn &&& mask 64 n) :=
    stages_put h hs (by simp [irStep, hs, IrState.alu, AluOp.eval, AluOp.setsFlags])
  exact ⟨_, h₁.trans (stages_put h₁.exec h₁.skip (by simp [irStep, hs, lsl_eval_64 _ hk]))⟩

end Bitfields

section BitfieldValues
variable (d x : U64) {r k : ℕ}

lemma setWidth_mask (n : ℕ) : (mask 64 n).setWidth 32 = mask 32 n := by
  apply BitVec.eq_of_getLsbD_eq
  intro i hi
  rw [BitVec.getLsbD_setWidth, getLsbD_mask, getLsbD_mask]
  simp [hi, show i < 64 by omega]

lemma move_extract_32 (hrk : r ≤ k) (hk : k < 32) :
    (move (d.setWidth 32) (d.setWidth 32) (x.setWidth 32) r k).setWidth 64 =
      lo32 (((x >>> r) &&& mask 64 (k - r + 1)) ||| (d &&& ~~~mask 64 (k - r + 1))) := by
  rw [move_extract _ _ hrk hk, shiftRight_and_mask _ (by omega), lo32]
  simp only [BitVec.setWidth_or, BitVec.setWidth_and, BitVec.setWidth_not (by decide : 32 ≤ 64), setWidth_mask,
    BitVec.setWidth_setWidth_of_le _ (by decide : 32 ≤ 64), BitVec.setWidth_eq]

lemma move_insert_32 (hkr : k < r) (hr : r < 32) :
    (move (d.setWidth 32) (d.setWidth 32) (x.setWidth 32) r k).setWidth 64 =
      lo32 (((x &&& mask 64 (k + 1)) <<< (32 - r)) ||| (d &&& ~~~(mask 64 (k + 1) <<< (32 - r)))) := by
  rw [move_insert _ _ hkr hr, lo32]
  simp only [BitVec.setWidth_or, BitVec.setWidth_and, BitVec.setWidth_not (by decide : 32 ≤ 64), setWidth_mask,
    BitVec.setWidth_shiftLeft_of_le (by decide : 32 ≤ 64)]

end BitfieldValues

section FeBitfield
variable {insn : U32} {ir' : IrBlock} (h : ir.exec P F s₀ = .ok s) (hs : s.skip = false)

lemma yields_bitfield_31 {v : U64} (h : ir.exec P F s₀ = .ok s) (hs : s.skip = false) {rd : ℕ} (hrd : rd = 31) :
    ir.Yields P F s₀ pc ⟨(s.m.cpu.setX rd v).enterInsn pc, s.m.bus⟩ := by
  subst hrd
  exact yields_refl h hs

include h hs in
lemma yields_shiftPair {w : Bool} {rd rn k j : ℕ} {v : U64} (hrd : rd ≠ 31)
    (hv : ShiftOp.asr.eval w (ShiftOp.lsl.eval w (s.m.cpu.regX rn) k) j = v) :
    (irPut (irPut ir (.shi .lsl w (.tmp 0) (rx rn) k)) (.shi .asr w (.x rd) (.tmp 0) j)).Yields P F s₀ pc
      ⟨(s.m.cpu.setX rd v).enterInsn pc, s.m.bus⟩ := by
  have h₁ : Stages P F (irPut ir (.shi .lsl w (.tmp 0) (rx rn) k), .tmp 0) s₀ s _
      (ShiftOp.lsl.eval w (s.m.cpu.regX rn) k) :=
    stages_put h hs (by simp [irStep, hs, ShiftOp.eval_sz])
  exact yields_put_of_ne h₁.exec h₁.skip hrd (by simp [irStep, hs, ShiftOp.eval_sz, hv])

lemma ones_of_lt {n : ℕ} (h : n < 64) : ((1 : U64) <<< n) - 1 = mask 64 n := by
  rw [← ones_eq_mask, ones, if_neg (by omega)]

include h hs in
lemma yields_feBitfield_64 (hsf : bit insn 31 = true) (hfe : feBitfield ir insn = some ir') :
    ir'.Yields P F s₀ pc ⟨dpImmediate (s.m.cpu.enterInsn pc) insn, s.m.bus⟩ := by
  have hr : bits insn 21 16 < 64 := bits_lt insn 21 16
  have hk : bits insn 15 10 < 64 := bits_lt insn 15 10
  simp only [feBitfield, hsf, if_true] at hfe
  rw [← putBfxilSource] at hfe
  split_ifs at hfe with hgrp hn hsb hrd hopc hrd hle <;> try contradiction
  all_goals
    obtain rfl := Option.some.inj hfe
    have h26 : bits insn 28 23 = 0x26 := bits_of_and_eq (not_not.1 hgrp) rfl
    have hopc3 : bits insn 30 29 ≠ 3 := by omega
    rw [dpImmediate_bitfield_64 _ h26 hsf (by simpa using hn) hopc3, Cpu.enterInsn_setX]
  · exact yields_bitfield_31 h hs hrd
  · refine yields_shiftPair h hs hrd ?_
    rw [lsl_eval_64 _ (by omega), asr_eval_64 _ (by omega), ← moveS_insert _ hsb.2 hr, moveS]
    simp only [hsb.1, Cpu.enterInsn_regX]
    rfl
  · exact yields_bitfield_31 h hs hrd
  · obtain ⟨t, hst⟩ := stages_bfxil (w := true) h hs (bits insn 9 5) (r := bits insn 21 16)
      (n := bits insn 15 10 - bits insn 21 16 + 1) (by simp; omega) (by omega)
    rw [ones_eq_mask]
    convert yields_merge hrd hst true _ using 4
    simp [hopc, move_extract _ _ hle hk]
  · obtain ⟨t, hst⟩ := stages_bfi h hs (bits insn 9 5) (k := 64 - bits insn 21 16)
      (n := bits insn 15 10 + 1) (by omega)
    rw [ones_of_lt (by omega)]
    convert yields_merge hrd hst true _ using 4
    simp [hopc, move_insert _ _ (not_le.1 hle) hr]

include h hs in
lemma yields_feBitfield_32 (hsf : bit insn 31 = false) (hfe : feBitfield ir insn = some ir') :
    ir'.Yields P F s₀ pc ⟨dpImmediate (s.m.cpu.enterInsn pc) insn, s.m.bus⟩ := by
  simp only [feBitfield, hsf, Bool.false_eq_true, if_false, Bool.or_eq_true, decide_eq_true_eq] at hfe
  rw [← putBfxilSource] at hfe
  split_ifs at hfe with hgrp hn hsb hrd hopc hrd hle <;> try contradiction
  all_goals
    obtain rfl := Option.some.inj hfe
    have h26 : bits insn 28 23 = 0x26 := bits_of_and_eq (not_not.1 hgrp) rfl
    have hopc3 : bits insn 30 29 ≠ 3 := by omega
    push Not at hn
    obtain ⟨⟨h22, hr⟩, hk⟩ := hn
    rw [dpImmediate_bitfield_32 _ h26 hsf (by simpa using h22) hopc3 hr hk, Cpu.enterInsn_setX]
  · exact yields_bitfield_31 h hs hrd
  · refine yields_shiftPair h hs hrd ?_
    rw [lsl_eval_32 _ (by omega), asr_eval_32 _ (by omega), setWidth_lo32_shiftLeft, ← moveS_insert _ hsb.2 hr, moveS]
    simp only [hsb.1, Cpu.enterInsn_regX]
    rfl
  · exact yields_bitfield_31 h hs hrd
  · obtain ⟨t, hst⟩ := stages_bfxil (w := false) h hs (bits insn 9 5) (r := bits insn 21 16)
      (n := bits insn 15 10 - bits insn 21 16 + 1) (by simp; omega) (by omega)
    rw [ones_eq_mask]
    convert yields_merge hrd hst false _ using 4
    simp [hopc, move_extract_32 _ _ hle hk]
  · obtain ⟨t, hst⟩ := stages_bfi h hs (bits insn 9 5) (k := 32 - bits insn 21 16)
      (n := bits insn 15 10 + 1) (by omega)
    rw [ones_of_lt (by omega)]
    convert yields_merge hrd hst false _ using 4
    simp [hopc, move_insert_32 _ _ (not_le.1 hle) hr]

include h hs in
theorem yields_feBitfield (hfe : feBitfield ir insn = some ir') :
    ir'.Yields P F s₀ pc ⟨dpImmediate (s.m.cpu.enterInsn pc) insn, s.m.bus⟩ := by
  cases hsf : bit insn 31 with
  | true => exact yields_feBitfield_64 h hs hsf hfe
  | false => exact yields_feBitfield_32 h hs hsf hfe

end FeBitfield

end Arm64Emu
