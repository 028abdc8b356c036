import Arm64Emu.FeShape

/-! Translating a basic block (`jit_fe_block`): the loop over its instructions, and
whether the operations fit in the buffer `ops[IR_MAX_OPS]`. -/
namespace Arm64Emu

def jitMaxBlockInsns : ℕ := 128

def dczvaStores : ℕ := 8

def irMaxOpsPerInsn : ℕ := dczvaStores + 1

def irMaxOps : ℕ := jitMaxBlockInsns * 4 + 8

def isIcIvau (insn : U32) : Bool := insn &&& 0xffffffe0 = 0xd50b7520

/-- Translate the word at `p`. -/
def feWord (F : FpJit) (env : FeEnv) (ir : IrBlock) (insn : U32) (p : U64) : IrBlock × FeRes :=
  if isIcIvau insn then putJmp (irPut ir (.call1ic p insn)) (p + 4) else feInsn F env ir (pdFill insn) p

section Block
variable {σ : Type} (fetch : σ → U64 → Option U32 × σ) (F : FpJit) (env : FeEnv)

/-- The loop, with `left` instructions to the limit and `guestN` taken. Words come
from `fetch`; `ops` is the buffer as if it had no end. -/
def feBlockLoop : ℕ → IrBlock → ℕ → U64 → σ → (IrBlock × ℕ) × σ
  | 0, ir, guestN, _, s => ((ir, guestN), s)
  | left + 1, ir, guestN, p, s =>
    match fetch s p with
    | (none, s) => if guestN = 0 then ((ir, 0), s) else ((irPut ir (.jmp p), guestN), s)
    | (some insn, s) =>
      let (ir, r) := feWord F env ir insn p
      let p := p + 4
      if r = .feEnd then ((ir, guestN + 1), s)
      -- room for the longest instruction and the jump
      else if left = 0 ∨ p &&& 0xfff = 0 ∨ irMaxOps < ir.ops.length + irMaxOpsPerInsn + 1 then
        ((irPut ir (.jmp p), guestN + 1), s)
      else feBlockLoop left ir (guestN + 1) p s

/-- The operations of the block at `pc`, and how many instructions it takes: 0 when
its first fetch faults. -/
def feBlock (ctxSpx : ℕ) (pc : U64) (maxInsns : ℕ) (s : σ) : (IrBlock × ℕ) × σ :=
  let maxInsns := if maxInsns = 0 ∨ jitMaxBlockInsns < maxInsns then jitMaxBlockInsns else maxInsns
  feBlockLoop fetch F env maxInsns ⟨[], 0, ctxSpx⟩ 0 pc s

end Block

/-- `jit_fe_block`, fetching from guest memory. -/
def jitFeBlock {D : Type} (P : Platform D) (F : FpJit) (s : Machine D) (pc : U64) (maxInsns : ℕ) :
    (IrBlock × ℕ) × Machine D :=
  feBlock (memIfetch P) F ⟨s.cpu.fpTrapped, P.rtclock⟩ s.cpu.curSp pc maxInsns s

def fetchWords (ws : List U32) (_ : U64) : Option U32 × List U32 :=
  match ws with
  | [] => (none, [])
  | w :: ws => (some w, ws)

@[simp] lemma length_irPut (ir : IrBlock) (op : IrOp) : (irPut ir op).ops.length = ir.ops.length + 1 := by
  simp [irPut]

section Fits
variable {σ : Type} {fetch : σ → U64 → Option U32 × σ} (F : FpJit) (env : FeEnv)

lemma shape_feWord (ir : IrBlock) (insn : U32) (pc : U64) {k : ℕ} (hk : wideLoadPair insn = true → 10 ≤ k)
    (hk' : 9 ≤ k) : FeShape F k ir insn pc (feWord F env ir insn pc) := by
  unfold feWord
  split
  · exact .callIc (by omega)
  · have h := shape_feInsn F env ir pc (pdFill insn) (k := k)
    rw [pdFill_insn] at h
    exact h hk hk'

lemma length_feWord_le (ir : IrBlock) {insn : U32} (pc : U64) (hw : wideLoadPair insn = false) :
    (feWord F env ir insn pc).1.ops.length ≤ ir.ops.length + irMaxOpsPerInsn := by
  refine (shape_feWord F env ir insn pc ?_ (le_refl 9)).length_le
  rw [hw]
  exact fun h => absurd h Bool.noConfusion

lemma length_feBlockLoop_le {Q : σ → Prop}
    (hQ : ∀ s p, Q s → Q (fetch s p).2 ∧ ∀ w ∈ (fetch s p).1, wideLoadPair w = false) (left : ℕ) (ir : IrBlock)
    (guestN : ℕ) (p : U64) (s : σ) (hs : Q s) (hroom : ir.ops.length + irMaxOpsPerInsn + 1 ≤ irMaxOps) :
    (feBlockLoop fetch F env left ir guestN p s).1.1.ops.length ≤ irMaxOps := by
  induction left generalizing ir guestN p s with
  | zero => exact (Nat.le_add_right ..).trans ((Nat.le_add_right ..).trans hroom)
  | succ left ih =>
    obtain ⟨hs', hw⟩ := hQ s p hs
    have h9 : irMaxOpsPerInsn = 9 := rfl
    rw [feBlockLoop]
    split
    · split
      · exact (Nat.le_add_right ..).trans ((Nat.le_add_right ..).trans hroom)
      · rw [length_irPut]
        omega
    · rename_i insn s' hf
      rw [hf] at hs' hw
      have hlen := length_feWord_le F env ir p (hw insn rfl)
      simp only
      split_ifs with hend hstop
      · exact hlen.trans (by omega)
      · rw [length_irPut]
        omega
      · exact ih _ _ _ _ hs' (by omega)

lemma feInsn_exclusive (ir : IrBlock) (insn : U32) (pc : U64) (h : insn &&& 0x3F800000 = 0x08000000) :
    feInsn F env ir (pdFill insn) pc = feGeneric F env ir insn pc := by
  have hgrp : bits insn 28 25 = 0x4 := bits_of_and_eq h rfl
  have h29 : bits insn 29 27 = 1 := bits_of_and_eq h rfl
  have h26 : bit insn 26 = false := by
    have : bits insn 26 26 = 0 := bits_of_and_eq h rfl
    rwa [bits_self, Bool.toNat_eq_zero] at this
  have hfill : pdFill insn = PdEnt.ofInsn insn := by
    simp [pdFill, hgrp, fillLdst, h29]
  have hfp : feFpInsn .generic insn = false := by
    have hidx : ¬PdOp.ldrq.ctorIdx ≤ PdOp.generic.ctorIdx := by decide
    simp [feFpInsn, hidx, hgrp, h26]
  simp [feInsn, hfill, hfp]

lemma length_feInsn_wideLoadPair (ir : IrBlock) (insn : U32) (pc : U64) (h : wideLoadPair insn = true) :
    (feInsn F env ir (pdFill insn) pc).1.ops.length = ir.ops.length + 10 := by
  simp only [wideLoadPair, Bool.and_eq_true, decide_eq_true_eq] at h
  obtain ⟨⟨⟨⟨⟨⟨hgrp, h21⟩, h22⟩, h31⟩, hrn⟩, hrt⟩, hrt2⟩ := h
  have h29 : bits insn 29 23 = 0x10 := bits_of_and_eq hgrp rfl
  have hlse : insn &&& 0x3F200C00 ≠ 0x38200000 := fun h => by
    have h24 : bits insn 29 24 = 0x38 := bits_of_and_eq h rfl
    simp only [bits, Nat.shiftRight_eq_div_pow] at h24 h29
    omega
  have hcas : insn &&& 0x3FA00000 ≠ 0x08A00000 := fun h => by
    have h24 : bits insn 29 23 = 0x11 := bits_of_and_eq h rfl
    omega
  have hat : feAtomic ir insn pc = (feLoadExcl ir insn pc, true) := by
    rw [feAtomic, if_neg hlse, if_neg hcas, if_neg (not_not.2 hgrp), if_neg (by simp [h31]), if_pos h22]
  rw [feInsn_exclusive F env ir insn pc hgrp]
  simp only [feGeneric, hat, if_true]
  simp [feLoadExcl, baseStage, hrn, h21, hrt, hrt2, IrBlock.count, putLdTmp]

/-- For a sequence of instruction words, each translation keeps to its share of the
buffer and every block made of the sequence fits, unless the sequence holds a pair
load-exclusive with a staged base and two destinations. -/
theorem feBlock_fits_iff (ws : List U32) :
    (∀ w ∈ ws, wideLoadPair w = false) ↔
      (∀ w ∈ ws, ∀ ir pc,
        (feInsn F env ir (pdFill w) pc).1.ops.length ≤ ir.ops.length + irMaxOpsPerInsn) ∧
      ∀ ctxSpx pc, ∀ maxInsns ≤ jitMaxBlockInsns,
        (feBlock fetchWords F env ctxSpx pc maxInsns ws).1.1.ops.length ≤ irMaxOps := by
  constructor
  · intro hws
    refine ⟨fun w hw ir pc => ?_, fun ctxSpx pc maxInsns _ => ?_⟩
    · refine (shape_feInsn F env ir pc (pdFill w) ?_ (le_refl 9)).length_le
      rw [pdFill_insn, hws w hw]
      exact fun h => absurd h Bool.noConfusion
    · refine length_feBlockLoop_le F env (Q := fun ws => ∀ w ∈ ws, wideLoadPair w = false) ?_ _ _ _ _ _ hws
        (show 0 + irMaxOpsPerInsn + 1 ≤ irMaxOps by decide)
      intro ws _ hws
      cases ws with
      | nil => exact ⟨hws, by simp [fetchWords]⟩
      | cons w ws => simpa [fetchWords, and_comm] using hws
  · rintro ⟨hlen, -⟩ w hw
    by_contra hwide
    have := hlen w hw .empty 0
    rw [length_feInsn_wideLoadPair F env _ w 0 (by simpa using hwide)] at this
    exact absurd this (by decide)

/-- Fifty-two `ldxp x1, x2, [x0]` from the start of a page: each one takes ten
operations, and the jump that ends the block is put past the end of the buffer. -/
theorem feBlock_ldxp_overflow :
    (feInsn .none ⟨false, false⟩ .empty (pdFill 0xc87f0801) 0).1.ops.length = irMaxOpsPerInsn + 1 ∧
      (feBlock fetchWords .none ⟨false, false⟩ 0 0 jitMaxBlockInsns (.replicate 52 0xc87f0801)).1.1.ops.length =
        irMaxOps + 1 := by
  decide +kernel

end Fits

end Arm64Emu
