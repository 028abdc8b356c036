import Arm64Emu.Board
import Arm64Emu.PdSingle

/-! Literals and pairs, and the predecoded tier on the whole load/store group. -/
namespace Arm64Emu

variable {D : Type}

section Literal
variable (P : Platform D) (s : Machine D) (insn : U32)

lemma literal_eq : (fillLiteral (.ofInsn insn) insn).op = .generic ∨
    (fillLiteral (.ofInsn insn) insn).op.basedMem = false ∧
      pdHandler P (fillLiteral (.ofInsn insn) insn) s = ldstLiteral P s insn := by
  have ho := bits_lt insn 31 30
  unfold fillLiteral ldstLiteral
  generalize bits insn 31 30 = opc at *
  cases hv : bit insn 26 with
  | true =>
    simp only [if_true, ← fpGuard_eq, ← commit_none (bits insn 9 5) (vregLoad _ _ _ _ _)]
    interval_cases opc
    · exact .inr ⟨rfl, congrArg (fpGuard s) (ldrv_eq P s _ (by decide : 4 ≠ 16) _ _)⟩
    · exact .inr ⟨rfl, congrArg (fpGuard s) (ldrv_eq P s _ (by decide : 8 ≠ 16) _ _)⟩
    · exact .inr ⟨rfl, congrArg (fpGuard s) (pdLoadQ_eq P _ s _ none)⟩
    · exact .inl rfl
  | false =>
    simp only [Bool.false_eq_true, if_false]
    interval_cases opc
    · exact .inr ⟨rfl, rfl⟩
    · exact .inr ⟨rfl, rfl⟩
    · exact .inl rfl
    · exact .inr ⟨rfl, rfl⟩

end Literal

section Pair
variable (P : Platform D) (s : Machine D)

def PairKind.addr (k : PairKind) (base off : U64) : U64 := k.casesOn (base + off) (base + off) base

def PairKind.wb (k : PairKind) (base off : U64) : Option U64 :=
  k.casesOn none (some (base + off)) (some (base + off))

lemma pairLoad_eq {esz : ℕ} (addr : U64) : pairLoad P s addr esz =
    match memRead P s addr esz with
    | (none, s) => (none, s)
    | (some a, s) =>
      match memRead P s (addr + zext esz) esz with
      | (none, s) => (none, s)
      | (some b, s) => (some (a, b), s) := by
  unfold pairLoad
  split
  next h =>
    subst h
    rw [memRead128_eq]
    change _ = match memRead P s addr 8 with
      | (none, s) => (none, s)
      | (some a, s) =>
        match memRead P s (addr + 8) 8 with
        | (none, s) => (none, s)
        | (some b, s) => (some (a, b), s)
    rcases memRead P s addr 8 with ⟨_ | a, t⟩
    · rfl
    · simp only
      rcases memRead P t (addr + 8) 8 with ⟨_ | b, u⟩ <;> rfl
  next => rfl

lemma pairStore_eq {esz : ℕ} (addr a b : U64) : pairStore P s addr esz a b =
    match memWrite P s addr esz a with
    | (false, s) => (false, s)
    | (true, s) => memWrite P s (addr + zext esz) esz b := by
  unfold pairStore
  split
  next h =>
    subst h
    rw [memWrite128_eq]
    rfl
  next => rfl

variable (k : PairKind) (e : PdEnt)

lemma pdLdp_eq (is64 : Bool)
    (he : e.op = k.sel (pick is64 .ldp64 .ldp32) (pick is64 .ldp64pre .ldp32pre)
      (pick is64 .ldp64post .ldp32post)) :
    pdMem P e s = match pairLoad P s (k.addr (s.cpu.regXsp e.rn) e.imm) (if is64 then 8 else 4) with
      | (none, s) => s
      | (some (a, b), t) => writeBack ((t.setX e.rd (sz is64 a)).setX e.rm (sz is64 b)) e.rn
          (k.wb (s.cpu.regXsp e.rn) e.imm) := by
  have hd : pdMem P e s =
      match memRead P s (k.addr (s.cpu.regXsp e.rn) e.imm) (if is64 then 8 else 4) with
      | (none, s) => s
      | (some a, t) =>
        match memRead P t (k.addr (s.cpu.regXsp e.rn) e.imm + zext (if is64 then 8 else 4))
          (if is64 then 8 else 4) with
        | (none, s) => s
        | (some b, t) => writeBack ((t.setX e.rd (sz is64 a)).setX e.rm (sz is64 b)) e.rn
            (k.wb (s.cpu.regXsp e.rn) e.imm) := by
    cases k <;> cases is64 <;> simp only [pdMem, pdLdp, he] <;> rfl
  rw [hd, pairLoad_eq]
  rcases memRead P s (k.addr (s.cpu.regXsp e.rn) e.imm) (if is64 then 8 else 4) with ⟨_ | a, t⟩
  · rfl
  · simp only
    rcases memRead P t (k.addr (s.cpu.regXsp e.rn) e.imm + zext (if is64 then 8 else 4))
      (if is64 then 8 else 4) with ⟨_ | b, u⟩ <;> rfl

lemma pdStp_eq (is64 : Bool)
    (he : e.op = k.sel (pick is64 .stp64 .stp32) (pick is64 .stp64pre .stp32pre)
      (pick is64 .stp64post .stp32post)) :
    pdMem P e s = match pairStore P s (k.addr (s.cpu.regXsp e.rn) e.imm) (if is64 then 8 else 4)
        (s.cpu.regX e.rd) (s.cpu.regX e.rm) with
      | (false, s) => s
      | (true, t) => writeBack t e.rn (k.wb (s.cpu.regXsp e.rn) e.imm) := by
  have hd : pdMem P e s =
      match memWrite P s (k.addr (s.cpu.regXsp e.rn) e.imm) (if is64 then 8 else 4) (s.cpu.regX e.rd) with
      | (false, s) => s
      | (true, t) =>
        match memWrite P t (k.addr (s.cpu.regXsp e.rn) e.imm + zext (if is64 then 8 else 4))
          (if is64 then 8 else 4) (t.cpu.regX e.rm) with
        | (false, s) => s
        | (true, t) => writeBack t e.rn (k.wb (s.cpu.regXsp e.rn) e.imm) := by
    cases k <;> cases is64 <;> simp only [pdMem, pdStp, he] <;> rfl
  rw [hd, pairStore_eq]
  rcases h : memWrite P s (k.addr (s.cpu.regXsp e.rn) e.imm) (if is64 then 8 else 4) (s.cpu.regX e.rd)
    with ⟨_ | _, t⟩
  · rfl
  · simp only [memWrite_true h]

def vregPair (one : Machine D → ℕ → U64 → ℕ → Bool × Machine D) (s : Machine D) (rt rt2 : ℕ)
    (addr : U64) (esz rn : ℕ) (wb : Option U64) : Machine D :=
  match one s rt addr esz with
  | (false, s) => s
  | (true, s) =>
    match one s rt2 (addr + zext esz) esz with
    | (false, s) => s
    | (true, s) => writeBack s rn wb

lemma pdLdpq_kind (he : e.op = k.sel .ldpq .ldpqpre .ldpqpost) : pdLdpq P e s =
    match memRead128 P s (k.addr (s.cpu.regXsp e.rn) e.imm) with
    | (none, s) => s
    | (some v, t) =>
      match memRead128 P (t.mapCpu (·.setVreg e.rd v)) (k.addr (s.cpu.regXsp e.rn) e.imm + 16) with
      | (none, s) => s
      | (some v, t) => writeBack (t.mapCpu (·.setVreg e.rm v)) e.rn (k.wb (s.cpu.regXsp e.rn) e.imm) := by
  cases k <;> simp only [pdLdpq, he] <;> rfl

lemma pdLdpq_eq (he : e.op = k.sel .ldpq .ldpqpre .ldpqpost) :
    pdMem P e s = fpGuard s (vregPair (vregLoad P) s e.rd e.rm (k.addr (s.cpu.regXsp e.rn) e.imm) 16 e.rn
      (k.wb (s.cpu.regXsp e.rn) e.imm)) := by
  have hd := pdLdpq_kind P s k e he
  have hm : pdMem P e s = fpGuard s (pdLdpq P e s) := by
    cases k <;> simp only [pdMem, he, PairKind.sel]
  rw [hm]
  congr 1
  have hz : zext 16 = 16 := rfl
  rcases h : memRead128 P s (k.addr (s.cpu.regXsp e.rn) e.imm) with ⟨_ | v, t⟩
  · simp only [hd, vregPair, vregLoad, h, if_true]
  · rcases h2 : memRead128 P (t.mapCpu (·.setVreg e.rd v)) (k.addr (s.cpu.regXsp e.rn) e.imm + 16)
      with ⟨_ | w, u⟩ <;> simp only [hd, vregPair, vregLoad, h, h2, hz, if_true]

lemma pdLdpd_eq (he : e.op = k.sel .ldpd .ldpdpre .ldpdpost) :
    pdMem P e s = fpGuard s (vregPair (vregLoad P) s e.rd e.rm (k.addr (s.cpu.regXsp e.rn) e.imm) 8 e.rn
      (k.wb (s.cpu.regXsp e.rn) e.imm)) := by
  have hd : pdLdpd P e s =
      match memRead P s (k.addr (s.cpu.regXsp e.rn) e.imm) 8 with
      | (none, s) => s
      | (some v, t) =>
        match memRead P (t.mapCpu (·.setVreg e.rd ⟨v, 0⟩)) (k.addr (s.cpu.regXsp e.rn) e.imm + 8) 8 with
        | (none, s) => s
        | (some v, t) => writeBack (t.mapCpu (·.setVreg e.rm ⟨v, 0⟩)) e.rn
            (k.wb (s.cpu.regXsp e.rn) e.imm) := by
    cases k <;> simp only [pdLdpd, he] <;> rfl
  have hm : pdMem P e s = fpGuard s (pdLdpd P e s) := by
    cases k <;> simp only [pdMem, he, PairKind.sel]
  rw [hm]
  congr 1
  have hz : zext 8 = 8 := rfl
  rcases h : memRead P s (k.addr (s.cpu.regXsp e.rn) e.imm) 8 with ⟨_ | v, t⟩
  · simp only [hd, vregPair, vregLoad, h, Nat.reduceEqDiff, if_false]
  · rcases h2 : memRead P (t.mapCpu (·.setVreg e.rd ⟨v, 0⟩)) (k.addr (s.cpu.regXsp e.rn) e.imm + 8) 8
      with ⟨_ | w, u⟩ <;> simp only [hd, vregPair, vregLoad, h, h2, hz, Nat.reduceEqDiff, if_false]

lemma pdStpq_eq (he : e.op = k.sel .stpq .stpqpre .stpqpost) :
    pdMem P e s = fpGuard s (vregPair (vregStore P) s e.rd e.rm (k.addr (s.cpu.regXsp e.rn) e.imm) 16 e.rn
      (k.wb (s.cpu.regXsp e.rn) e.imm)) := by
  cases k <;> simp only [pdMem, pdStpq, he] <;> rfl

lemma pdStpd_eq (he : e.op = k.sel .stpd .stpdpre .stpdpost) :
    pdMem P e s = fpGuard s (vregPair (vregStore P) s e.rd e.rm (k.addr (s.cpu.regXsp e.rn) e.imm) 8 e.rn
      (k.wb (s.cpu.regXsp e.rn) e.imm)) := by
  cases k <;> simp only [pdMem, pdStpd, he] <;> rfl

def pairKind (mode : ℕ) : PairKind := if mode = 1 then .post else if mode = 3 then .pre else .off

lemma pairKind_addr (mode : ℕ) (base off : U64) :
    (pairKind mode).addr base off = if mode = 1 then base else base + off := by
  unfold pairKind
  split_ifs <;> rfl

lemma pairKind_wb (mode : ℕ) (base off : U64) :
    (pairKind mode).wb base off = if mode = 1 ∨ mode = 3 then some (base + off) else none := by
  unfold pairKind
  split_ifs <;> first | rfl | omega

lemma basedMem_sel {off pre post : PdOp} (h : off.basedMem = true) (h' : pre.basedMem = true)
    (h'' : post.basedMem = true) : (k.sel off pre post).basedMem = true := by
  cases k <;> assumption

variable {insn : U32}

lemma fillPair_some {op : PdOp} {scale : ℕ} (hm : ¬3 < bits insn 25 23)
    (h : pairId (bit insn 26) (bit insn 22) (bits insn 31 30) (pairKind (bits insn 25 23)) = some (op, scale)) :
    fillPair (.ofInsn insn) insn = { PdEnt.ofInsn insn with
      op := op, rm := bits insn 14 10, imm := signExtend (zext (bits insn 21 15)) 7 <<< scale } := by
  unfold pairKind at h
  simp only [fillPair, if_neg hm, h]

lemma fillPair_none (insn : U32)
    (h : pairId (bit insn 26) (bit insn 22) (bits insn 31 30) (pairKind (bits insn 25 23)) = none) :
    fillPair (.ofInsn insn) insn = .ofInsn insn := by
  unfold pairKind at h
  simp only [fillPair, h, ite_self]

lemma ldstPair_eq (hrn : bits insn 9 5 ≠ 31) (hm : ¬3 < bits insn 25 23) (ho : bits insn 31 30 ≠ 3) :
    let v := bit insn 26
    let opc := bits insn 31 30
    let scale := if v then opc + 2 else if opc = 2 then 3 else 2
    let base := s.cpu.regXsp (bits insn 9 5)
    let off := signExtend (zext (bits insn 21 15)) 7 <<< scale
    let addr := (pairKind (bits insn 25 23)).addr base off
    let wb := (pairKind (bits insn 25 23)).wb base off
    ldstPair P s insn =
      if v then
        fpGuard s (vregPair (if bit insn 22 then vregLoad P else vregStore P) s (bits insn 4 0)
          (bits insn 14 10) addr (2 ^ scale) (bits insn 9 5) wb)
      else if bit insn 22 then
        match pairLoad P s addr (2 ^ scale) with
        | (none, s) => s
        | (some (a, b), s) =>
          let ext (a : U64) := if 2 ^ scale = 8 then a else if !v && opc = 1 then signExtend a 32 else lo32 a
          writeBack ((s.setX (bits insn 4 0) (ext a)).setX (bits insn 14 10) (ext b)) (bits insn 9 5) wb
      else
        match pairStore P s addr (2 ^ scale) (s.cpu.regX (bits insn 4 0)) (s.cpu.regX (bits insn 14 10)) with
        | (false, s) => s
        | (true, s) => writeBack s (bits insn 9 5) wb := by
  have hsp : spAlignOk s.cpu (bits insn 9 5) = true := if_pos hrn
  simp only [ldstPair, if_neg ho, if_neg hm, hsp, pairKind_addr, pairKind_wb]
  rfl

lemma pair_eq (insn : U32) :
    (fillPair (.ofInsn insn) insn).op = .generic ∨
      (fillPair (.ofInsn insn) insn).op.basedMem = true ∧
        (bits insn 9 5 ≠ 31 → pdMem P (fillPair (.ofInsn insn) insn) s = ldstPair P s insn) := by
  by_cases hm : 3 < bits insn 25 23
  · exact .inl (by rw [fillPair, if_pos hm]; rfl)
  have hopc := bits_lt insn 31 30
  have hsome {op : PdOp} {scale : ℕ}
      (h : pairId (bit insn 26) (bit insn 22) (bits insn 31 30) (pairKind (bits insn 25 23)) = some (op, scale)) :=
    fillPair_some hm h
  have hnone := fillPair_none insn
  by_cases h3 : bits insn 31 30 = 3
  · exact .inl (by rw [hnone (by simp [pairId, h3])]; rfl)
  have heq (hrn : bits insn 9 5 ≠ 31) := ldstPair_eq P s hrn hm h3
  simp only at heq
  generalize bits insn 31 30 = opc at *
  generalize pairKind (bits insn 25 23) = k at *
  cases hv : bit insn 26 <;> cases hl : bit insn 22 <;> simp only [hv, hl] at hsome hnone heq <;>
    interval_cases opc
  · rw [hsome rfl]; exact .inr ⟨basedMem_sel k rfl rfl rfl, fun hrn => (pdStp_eq P s k _ false rfl).trans (heq hrn).symm⟩
  · rw [hnone rfl]; exact .inl rfl
  · rw [hsome rfl]; exact .inr ⟨basedMem_sel k rfl rfl rfl, fun hrn => (pdStp_eq P s k _ true rfl).trans (heq hrn).symm⟩
  · exact absurd rfl h3
  · rw [hsome rfl]; exact .inr ⟨basedMem_sel k rfl rfl rfl, fun hrn => (pdLdp_eq P s k _ false rfl).trans (heq hrn).symm⟩
  · rw [hnone rfl]; exact .inl rfl
  · rw [hsome rfl]; exact .inr ⟨basedMem_sel k rfl rfl rfl, fun hrn => (pdLdp_eq P s k _ true rfl).trans (heq hrn).symm⟩
  · exact absurd rfl h3
  · rw [hnone rfl]; exact .inl rfl
  · rw [hsome rfl]; exact .inr ⟨basedMem_sel k rfl rfl rfl, fun hrn => (pdStpd_eq P s k _ rfl).trans (heq hrn).symm⟩
  · rw [hsome rfl]; exact .inr ⟨basedMem_sel k rfl rfl rfl, fun hrn => (pdStpq_eq P s k _ rfl).trans (heq hrn).symm⟩
  · exact absurd rfl h3
  · rw [hnone rfl]; exact .inl rfl
  · rw [hsome rfl]; exact .inr ⟨basedMem_sel k rfl rfl rfl, fun hrn => (pdLdpd_eq P s k _ rfl).trans (heq hrn).symm⟩
  · rw [hsome rfl]; exact .inr ⟨basedMem_sel k rfl rfl rfl, fun hrn => (pdLdpq_eq P s k _ rfl).trans (heq hrn).symm⟩
  · exact absurd rfl h3

end Pair

section Tier
variable (P : Platform D) (s : Machine D) {insn : U32}

def isLdst (insn : U32) : Bool := bits insn 28 25 ∈ [0x4, 0x6, 0xc, 0xe]

lemma fillLdst_rn (e : PdEnt) : (fillLdst e insn).rn = e.rn := by
  have hpair : (fillPair e insn).rn = e.rn := by
    simp only [fillPair]
    split
    · rfl
    · split <;> rfl
  simp only [fillLdst, fillLiteral, fillSingle, fillVec, hpair, apply_ite PdEnt.rn, ite_self]

lemma pdFill_ldst (h : isLdst insn = true) : pdFill insn = fillLdst (.ofInsn insn) insn := by
  simp only [isLdst, List.mem_cons, List.not_mem_nil, or_false, decide_eq_true_eq] at h
  rcases h with h | h | h | h <;> simp only [pdFill, h]

lemma execA64_ldst (h : isLdst insn = true) : execA64 P s insn = loadsStores P s insn := by
  simp only [isLdst, List.mem_cons, List.not_mem_nil, or_false, decide_eq_true_eq] at h
  rcases h with h | h | h | h <;> simp only [execA64, h]

lemma pdHandler_of_generic {e : PdEnt} (h : e.op = .generic) : pdHandler P e s = execA64 P s e.insn :=
  if_pos h

lemma pdHandler_of_basedMem {e : PdEnt} (h : e.op.basedMem = true) : pdHandler P e s = pdMem P e s := by
  rw [pdHandler, if_neg (PdOp.ne_of_basedMem h rfl), if_pos (PdOp.isMem_of_basedMem h)]

lemma tier_generic (h : (pdFill insn).op = .generic ∨ (pdFill insn).rn = 31 ∧ (pdFill insn).op.basedMem = true) :
    pdHandler P (pdFillTier insn) s = execA64 P s insn := by
  have hop : (pdFillTier insn).op = .generic := by
    unfold pdFillTier
    dsimp only
    split
    · rfl
    · exact h.resolve_right ‹_›
  rw [pdHandler_of_generic P s hop, pdFillTier_insn]

lemma tier_basedMem (h : (pdFill insn).op.basedMem = true) (hrn : (pdFill insn).rn ≠ 31) :
    pdHandler P (pdFillTier insn) s = pdMem P (pdFill insn) s := by
  rw [pdFillTier, if_neg fun hb => hrn hb.1, pdHandler_of_basedMem P s h]

end Tier

/-- The load is narrow and the bus answers it with more than 32 bits, which then
survive in a register. -/
def OverwideLoad (P : Platform D) (s : Machine D) (insn : U32) : Prop :=
  isNarrowLoad insn = true ∧ bits insn 9 5 ≠ 31 ∧ bits insn 4 0 ≠ 31 ∧
    ∃ va wb v, ldstAddress s.cpu insn false (bits insn 31 30) = .access va wb false ∧
      (wb ≠ none → bits insn 4 0 ≠ bits insn 9 5) ∧
      (memRead P s va (2 ^ bits insn 31 30)).1 = some v ∧ 2 ^ 32 ≤ v.toNat

lemma not_overwideLoad (P : Platform D) (s : Machine D) {insn : U32} (h : isNarrowLoad insn = false) :
    ¬ OverwideLoad P s insn := by
  rintro ⟨hn, -⟩
  exact Bool.noConfusion (hn.symm.trans h)

lemma isNarrowLoad_fields {insn : U32} (h : isNarrowLoad insn = true) :
    bits insn 29 27 = 7 ∧ bit insn 26 = false ∧ bits insn 31 30 ≤ 1 ∧ bits insn 23 22 = 1 := by
  simp only [isNarrowLoad, Bool.and_eq_true, decide_eq_true_eq, Bool.not_eq_true'] at h
  exact ⟨h.1.1.1.1, h.1.1.1.2, h.1.1.2, h.1.2⟩

lemma single_iff (P : Platform D) (s : Machine D) {insn : U32} (hg : isLdst insn = true)
    (h7 : bits insn 29 27 = 7) (hp : isPrfm insn = false) (hu : s.cpu.ldstUnpriv = false) :
    pdHandler P (pdFillTier insn) s = execA64 P s insn ↔ ¬ OverwideLoad P s insn := by
  have hfill : pdFill insn = fillSingle (.ofInsn insn) insn := by
    simp [pdFill_ldst hg, fillLdst, h7]
  have hrn : (pdFill insn).rn = bits insn 9 5 := by rw [pdFill_ldst hg, fillLdst_rn]; rfl
  have hex : execA64 P s insn = ldstRegister P s insn := by
    rw [execA64_ldst P s hg, loadsStores, if_pos h7]
  rcases makesAccess_single P s h7 hp with hgen | ⟨va, wb, hm, hq, halloc, haddr, hrun⟩
  · -- the interpreter runs the word: a narrow load is not in one of the tier's forms
    refine iff_of_true (tier_generic P s (.inl (by rw [hfill, hgen]))) ?_
    rintro ⟨hn, -⟩
    obtain ⟨-, hv, hs, ho⟩ := isNarrowLoad_fields hn
    rw [(fillSingle_narrow h7 hv hs ho).1 hgen] at hn
    exact absurd hn (by decide)
  by_cases h31 : bits insn 9 5 = 31
  · refine iff_of_true (tier_generic P s (.inr ⟨by rw [hrn, h31], by rw [hfill, hm]⟩)) ?_
    exact fun h => h.2.1 h31
  rw [tier_basedMem P s (by rw [hfill, hm]) (by rwa [hrn]), hfill, hrun, hex,
    ldstRegister_access P hu h31 hq (fun h => by have := halloc h.1; omega) haddr]
  by_cases hn : bit insn 26 = false ∧ bits insn 31 30 ≤ 1 ∧ bits insn 23 22 = 1
  · obtain ⟨hv, hs, ho⟩ := hn
    have hnarrow : isNarrowLoad insn = true := by
      by_contra hc
      have := (fillSingle_narrow h7 hv hs ho).2 (by simpa using hc)
      exact PdOp.ne_of_basedMem hm rfl this
    have haddr' : ldstAddress s.cpu insn false (bits insn 31 30) = .access va wb false := by
      simpa [hv] using haddr
    simp only [hv, Bool.false_eq_true, false_and, if_false, commit_pdAccess_iff P s va wb h31 hv hs ho]
    refine not_congr ⟨?_, ?_⟩
    · rintro ⟨h1, h2, v, h3, h4⟩
      exact ⟨hnarrow, h31, h1, va, wb, v, haddr', h2, h3, h4⟩
    · rintro ⟨-, -, h1, va', wb', v, ha, h2, h3, h4⟩
      rw [haddr'] at ha
      obtain ⟨rfl, rfl, -⟩ := LdstAddr.access.inj ha
      exact ⟨h1, h2, v, h3, h4⟩
  · rw [pdAccess_eq P s va halloc hn]
    exact iff_of_true rfl fun h => hn (isNarrowLoad_fields h.1).2

theorem pdHandler_eq_execA64_ldst_iff (P : Platform D) (insn : U32) (s : Machine D)
    (hg : isLdst insn = true) (hp : isPrfm insn = false) (hu : s.cpu.ldstUnpriv = false) :
    pdHandler P (pdFillTier insn) s = execA64 P s insn ↔ ¬ OverwideLoad P s insn := by
  by_cases h7 : bits insn 29 27 = 7
  · exact single_iff P s hg h7 hp hu
  refine iff_of_true ?_ (not_overwideLoad P s (by simp [isNarrowLoad, h7]))
  have hrn : (pdFill insn).rn = bits insn 9 5 := by rw [pdFill_ldst hg, fillLdst_rn]; rfl
  by_cases h5 : bits insn 29 27 = 5
  · have hfill : pdFill insn = fillPair (.ofInsn insn) insn := by
      simp [pdFill_ldst hg, fillLdst, h5]
    rcases pair_eq P s insn with hgen | ⟨hm, hrun⟩
    · exact tier_generic P s (.inl (by rw [hfill, hgen]))
    · by_cases h31 : bits insn 9 5 = 31
      · exact tier_generic P s (.inr ⟨by rw [hrn, h31], by rw [hfill, hm]⟩)
      · rw [tier_basedMem P s (by rw [hfill, hm]) (by rwa [hrn]), hfill, hrun h31,
          execA64_ldst P s hg, loadsStores, if_neg h7, if_pos h5]
  by_cases h3 : bits insn 29 27 = 3 ∧ bits insn 25 24 = 0
  · have hfill : pdFill insn = fillLiteral (.ofInsn insn) insn := by
      simp [pdFill_ldst hg, fillLdst, h3]
    rcases literal_eq P s insn with hgen | ⟨hm, hrun⟩
    · exact tier_generic P s (.inl (by rw [hfill, hgen]))
    · rw [pdFillTier, if_neg fun hb => absurd hb.2 (by rw [hfill, hm]; decide), hfill, hrun,
        execA64_ldst P s hg, loadsStores, if_neg h7, if_neg h5, if_pos h3]
  · exact tier_generic P s (.inl (by simp only [pdFill_ldst hg, fillLdst, h7, h5, h3, if_false]; rfl))

theorem pdHandler_eq_execA64_ldr :
    isLdst 0xf9400020 = true ∧ isPrfm 0xf9400020 = false ∧
      pdHandler (.virt 0x10000) (pdFillTier 0xf9400020) (.bare 0x40000000 1) =
        execA64 (.virt 0x10000) (.bare 0x40000000 1) 0xf9400020 :=
  ⟨by decide, by decide, (pdHandler_eq_execA64_ldst_iff (.virt 0x10000) 0xf9400020 (.bare 0x40000000 1)
    (by decide) (by decide) rfl).2 (not_overwideLoad _ _ (by decide))⟩

/-- At EL1 with the MMU on: page 0 is RAM and page 1 the first virtio transport. -/
def splitPages (x1 : U64) : Machine Unit :=
  let ram := stLe (stLe (stLe (fun _ => 0) 0 8 0x40001003) 0x1000 8 0x40002403) 0x1008 8 0x0a000403
  let c := cpuReset 0x40000000 1
  ⟨{ c.setX 1 x1 with
      sctlr := Function.update c.sctlr 1 1, tcr := Function.update c.tcr 1 39,
      ttbr0 := Function.update c.ttbr0 1 0x40000000 },
    .powerOn ram (fun _ => 0xff) ()⟩

/-- `LDRH W0, [X1]` over the page boundary: the tier keeps the transport's magic
value above bit 31, the interpreter drops it. -/
theorem pdHandler_ldrh_ne_execA64 :
    isLdst 0x79400020 = true ∧ isPrfm 0x79400020 = false ∧ (splitPages 0xfff).cpu.ldstUnpriv = false ∧
      (pdHandler (.virt 0x10000) (pdFillTier 0x79400020) (splitPages 0xfff)).cpu.x 0 = 0x7472697600 ∧
      (execA64 (.virt 0x10000) (splitPages 0xfff) 0x79400020).cpu.x 0 = 0x72697600 := by
  decide +kernel

end Arm64Emu
