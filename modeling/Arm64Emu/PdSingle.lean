import Arm64Emu.MemFacts
import Arm64Emu.Frame
import Arm64Emu.PdBranch

/-! The single-register loads and stores of the predecoded tier. Each handler
makes the access of the interpreter's addressing form; the value a load leaves
in its register is compared at the end. -/
namespace Arm64Emu

variable {D : Type}

section Commit

def commit (rn : ℕ) (wb : Option U64) (r : Bool × Machine D) : Machine D :=
  if r.1 then writeBack r.2 rn wb else r.2

/-- A load that passes its raw value through `f`. -/
def loadWith (P : Platform D) (s : Machine D) (rt : ℕ) (va : U64) (bytes : ℕ) (f : U64 → U64) :
    Bool × Machine D :=
  match memRead P s va bytes with
  | (none, s) => (false, s)
  | (some raw, s) => (true, s.setX rt (f raw))

variable (P : Platform D) (e : PdEnt) (s : Machine D) (va : U64) (wb : Option U64)

lemma commit_none (rn : ℕ) (r : Bool × Machine D) : commit rn none r = r.2 := by
  unfold commit
  split <;> rfl

lemma doLoad_eq {rt size opc : ℕ} (h : ¬(opc = 2 ∧ size = 3)) :
    doLoad P s rt va size opc = loadWith P s rt va (2 ^ size) (loadValue size opc) := by
  rw [doLoad, if_neg h]
  rfl

lemma pdLoad_eq (n : ℕ) (f : U64 → U64) :
    pdLoad P e s va n f wb = commit e.rn wb (loadWith P s e.rd va n f) := by
  unfold pdLoad loadWith
  rcases memRead P s va n with ⟨_ | v, t⟩ <;> rfl

lemma pdStore_eq (n : ℕ) :
    pdStore P e s va n wb = commit e.rn wb (memWrite P s va n (s.cpu.regX e.rd)) := by
  unfold pdStore
  rcases memWrite P s va n (s.cpu.regX e.rd) with ⟨_ | _, t⟩ <;> rfl

lemma pdLoadQ_eq : pdLoadQ P e s va wb = commit e.rn wb (vregLoad P s e.rd va 16) := by
  unfold pdLoadQ vregLoad
  rcases memRead128 P s va with ⟨_ | v, t⟩ <;> rfl

lemma pdStoreQ_eq : pdStoreQ P e s va wb = commit e.rn wb (vregStore P s e.rd va 16) := by
  unfold pdStoreQ vregStore
  rw [if_pos rfl]
  rcases memWrite128 P s va (s.cpu.vreg e.rd) with ⟨_ | _, t⟩ <;> rfl

lemma ldrv_eq {n : ℕ} (hn : n ≠ 16) (rn rt : ℕ) :
    (match memRead P s va n with
      | (none, s) => s
      | (some t, s) => s.mapCpu (·.setVreg rt ⟨t, 0⟩)) = commit rn none (vregLoad P s rt va n) := by
  rw [vregLoad, if_neg hn]
  rcases memRead P s va n with ⟨_ | v, t⟩ <;> rfl

lemma strv_eq {n : ℕ} (hn : n ≠ 16) (rn rt : ℕ) :
    (memWrite P s va n (s.cpu.vreg rt).d0).2 = commit rn none (vregStore P s rt va n) := by
  rw [vregStore, if_neg hn]
  rcases memWrite P s va n (s.cpu.vreg rt).d0 with ⟨_ | _, t⟩ <;> rfl

end Commit

/-- What the tier's handlers leave in the register: as `loadValue`, but the
unsigned byte and halfword forms take the whole bus value. -/
def pdLoadValue (size opc : ℕ) : U64 → U64 :=
  if size ≤ 1 ∧ opc = 1 then id else loadValue size opc

def pdAccess (P : Platform D) (s : Machine D) (insn : U32) (va : U64) : Bool × Machine D :=
  let size := bits insn 31 30
  let opc := bits insn 23 22
  let rt := bits insn 4 0
  if bit insn 26 then ldstAccess P s insn va
  else if opc ≠ 0 then loadWith P s rt va (2 ^ size) (pdLoadValue size opc)
  else memWrite P s va (2 ^ size) (s.cpu.regX rt)

lemma Machine.setUnpriv_self {s : Machine D} (h : s.cpu.ldstUnpriv = false) : s.setUnpriv false = s := by
  rw [Machine.setUnpriv, Machine.mapCpu, ← h]

lemma ldstRegister_access (P : Platform D) {s : Machine D} {insn : U32} {va : U64} {wb : Option U64}
    (hu : s.cpu.ldstUnpriv = false) (hrn : bits insn 9 5 ≠ 31)
    (hq : ¬(bit insn 26 = true ∧ 2 ≤ bits insn 23 22 ∧ bits insn 31 30 ≠ 0))
    (h3 : ¬(bit insn 26 = false ∧ bits insn 23 22 = 3 ∧ 2 ≤ bits insn 31 30))
    (haddr : ldstAddress s.cpu insn (bit insn 26)
      (if bit insn 26 && decide (2 ≤ bits insn 23 22) then 4 else bits insn 31 30) = .access va wb false) :
    ldstRegister P s insn =
      if bit insn 26 ∧ s.cpu.fpTrapped then s.mapCpu cpuFpTrap
      else commit (bits insn 9 5) wb (ldstAccess P s insn va) := by
  have hsp : spAlignOk s.cpu (bits insn 9 5) = true := if_pos hrn
  have hq' : ¬((bit insn 26 && decide (2 ≤ bits insn 23 22)) = true ∧ bits insn 31 30 ≠ 0) := by
    simpa [and_assoc] using hq
  have h3' : ¬((!bit insn 26) = true ∧ bits insn 23 22 = 3 ∧ 2 ≤ bits insn 31 30) := by
    simpa using h3
  simp only [ldstRegister, hsp, if_neg hq', haddr, if_neg h3', Machine.setUnpriv_self hu]
  split
  · rfl
  · rcases h : ldstAccess P s insn va with ⟨ok, t⟩
    have hb := congrArg Held.ldstUnpriv (ldstAccess_held h)
    have ht : t.setUnpriv false = t := Machine.setUnpriv_self (hb.trans hu)
    cases ok <;> simp [commit, ht]


section Single
variable (P : Platform D) (s : Machine D) {insn : U32}

def PdEnt.form (insn : U32) (op : PdOp) (imm : U64) : PdEnt := { PdEnt.ofInsn insn with op := op, imm := imm }

lemma pdMem_int (imm : U64) (hv : bit insn 26 = false)
    (hg : ldstIntId (bits insn 31 30) (bits insn 23 22) ≠ .generic)
    (hn : ldstIntId (bits insn 31 30) (bits insn 23 22) ≠ .nop) :
    pdMem P (.form insn (ldstIntId (bits insn 31 30) (bits insn 23 22)) imm) s =
      commit (bits insn 9 5) none (pdAccess P s insn (s.cpu.regXsp (bits insn 9 5) + imm)) := by
  have hs := bits_lt insn 31 30
  have ho := bits_lt insn 23 22
  simp only [pdAccess, hv, Bool.false_eq_true, if_false]
  generalize bits insn 31 30 = size at *
  generalize bits insn 23 22 = opc at *
  interval_cases size <;> interval_cases opc <;> first
    | exact absurd rfl hg
    | exact absurd rfl hn
    | exact pdLoad_eq _ _ _ _ _ _ _
    | exact pdStore_eq _ _ _ _ _ _

lemma pdMem_ro (imm : U64) (hv : bit insn 26 = false)
    (hg : ldstRoId (bits insn 31 30) (bits insn 23 22) ≠ .generic) :
    pdMem P (.form insn (ldstRoId (bits insn 31 30) (bits insn 23 22)) imm) s =
      commit (bits insn 9 5) none (pdAccess P s insn (s.cpu.regXsp (bits insn 9 5) +
        pdExtendReg (s.cpu.regX (bits insn 20 16)) ((imm >>> 3) &&& 7).toNat (imm &&& 7).toNat)) := by
  have hs := bits_lt insn 31 30
  have ho := bits_lt insn 23 22
  simp only [pdAccess, hv, Bool.false_eq_true, if_false]
  generalize bits insn 31 30 = size at *
  generalize bits insn 23 22 = opc at *
  interval_cases size <;> interval_cases opc <;> first
    | exact absurd rfl hg
    | exact pdLoad_eq _ _ _ _ _ _ _
    | exact pdStore_eq _ _ _ _ _ _

lemma pdMem_wb (imm : U64) (post : Bool) (hv : bit insn 26 = false)
    (hg : ldstWbId (bits insn 31 30) (bits insn 23 22) post ≠ .generic) :
    pdMem P (.form insn (ldstWbId (bits insn 31 30) (bits insn 23 22) post) imm) s =
      commit (bits insn 9 5) (some (s.cpu.regXsp (bits insn 9 5) + imm))
        (pdAccess P s insn (if post then s.cpu.regXsp (bits insn 9 5)
          else s.cpu.regXsp (bits insn 9 5) + imm)) := by
  have hs := bits_lt insn 31 30
  have ho := bits_lt insn 23 22
  simp only [pdAccess, hv, Bool.false_eq_true, if_false]
  generalize bits insn 31 30 = size at *
  generalize bits insn 23 22 = opc at *
  cases post <;> interval_cases size <;> interval_cases opc <;> first
    | exact absurd rfl hg
    | exact pdLoad_eq _ _ _ _ _ _ _
    | exact pdStore_eq _ _ _ _ _ _

lemma fpGuard_eq (k : Machine D) :
    fpGuard s k = if s.cpu.fpTrapped then s.mapCpu cpuFpTrap else k := rfl

lemma pdMem_vec (immQ imm : U64) (hv : bit insn 26 = true)
    (hq : ¬(2 ≤ bits insn 23 22 ∧ bits insn 31 30 ≠ 0)) :
    pdMem P (fillVec (.ofInsn insn) (bits insn 31 30) (bits insn 23 22) immQ imm) s =
      if s.cpu.fpTrapped then s.mapCpu cpuFpTrap
      else commit (bits insn 9 5) none (pdAccess P s insn
        (s.cpu.regXsp (bits insn 9 5) + if 2 ≤ bits insn 23 22 then immQ else imm)) := by
  have hn : 2 ^ bits insn 31 30 ≠ 16 := by
    have hs := bits_lt insn 31 30
    exact fun h => absurd (Nat.pow_right_injective (le_refl 2) (h.trans (by norm_num : 16 = 2 ^ 4))) (by omega)
  simp only [pdAccess, ldstAccess, hv, if_true, ← fpGuard_eq, fillVec]
  by_cases ho : 2 ≤ bits insn 23 22 <;> by_cases hl : bits insn 23 22 % 2 = 1
  · simp only [ho, hl, if_true, if_neg fun h => hq ⟨ho, h⟩]
    exact congrArg (fpGuard s) (pdLoadQ_eq P (.form insn _ _) s _ none)
  · simp only [ho, hl, if_true, if_false, if_neg fun h => hq ⟨ho, h⟩]
    exact congrArg (fpGuard s) (pdStoreQ_eq P (.form insn _ _) s _ none)
  · simp only [ho, hl, if_true, if_false]
    exact congrArg (fpGuard s) (ldrv_eq P s _ hn _ _)
  · simp only [ho, hl, if_false]
    exact congrArg (fpGuard s) (strv_eq P s _ hn _ _)

lemma pdMem_vecWb (imm : U64) (post : Bool) (hv : bit insn 26 = true)
    (ho : 2 ≤ bits insn 23 22) :
    pdMem P (.form insn (if bits insn 23 22 % 2 = 1 then (if post then .ldrqpost else .ldrqpre)
        else if post then .strqpost else .strqpre) imm) s =
      if s.cpu.fpTrapped then s.mapCpu cpuFpTrap
      else commit (bits insn 9 5) (some (s.cpu.regXsp (bits insn 9 5) + imm))
        (pdAccess P s insn (if post then s.cpu.regXsp (bits insn 9 5)
          else s.cpu.regXsp (bits insn 9 5) + imm)) := by
  simp only [pdAccess, ldstAccess, hv, if_true, if_pos ho, ← fpGuard_eq]
  cases post <;> by_cases hl : bits insn 23 22 % 2 = 1 <;> simp only [hl, if_true, if_false] <;> first
    | exact congrArg (fpGuard s) (pdLoadQ_eq _ _ _ _ _)
    | exact congrArg (fpGuard s) (pdStoreQ_eq _ _ _ _ _)

end Single

/-- `PRFM` with an unsigned, unscaled or register offset. -/
def isPrfm (insn : U32) : Bool :=
  bits insn 29 27 = 7 && !bit insn 26 && bits insn 31 30 = 3 && bits insn 23 22 = 2
    && (bit insn 24 || (bit insn 21 && bits insn 11 10 = 2) || (!bit insn 21 && bits insn 11 10 = 0))

lemma ldstIntId_cases {size opc : ℕ} (ho : opc < 4) :
    ldstIntId size opc = .generic ∨ size = 3 ∧ opc = 2 ∨
      (ldstIntId size opc).basedMem = true ∧ size + opc ≤ 4 := by
  unfold ldstIntId
  split <;> first | exact .inl rfl | exact .inr (.inr ⟨rfl, by omega⟩) | exact .inr (.inl (by omega))

lemma ldstRoId_cases {size opc : ℕ} (ho : opc < 4) :
    ldstRoId size opc = .generic ∨ (ldstRoId size opc).basedMem = true ∧ size + opc ≤ 4 := by
  unfold ldstRoId
  split <;> first | exact .inl rfl | exact .inr ⟨rfl, by omega⟩

lemma ldstWbId_cases (size opc : ℕ) (post : Bool) :
    ldstWbId size opc post = .generic ∨
      (ldstWbId size opc post).basedMem = true ∧ size + opc ≤ 4 := by
  unfold ldstWbId
  cases post <;> simp only [if_true, if_false, Bool.false_eq_true] <;> split_ifs <;>
    first | exact .inl rfl | exact .inr ⟨rfl, by omega⟩

/-- The tier leaves the word to the interpreter, or its handler makes the access
of the form's address and commits the form's writeback. -/
def PdEnt.MakesAccess (P : Platform D) (e : PdEnt) (insn : U32) (s : Machine D) : Prop :=
  e.op = .generic ∨ ∃ va wb, e.op.basedMem = true ∧
    ¬(bit insn 26 = true ∧ 2 ≤ bits insn 23 22 ∧ bits insn 31 30 ≠ 0) ∧
    (bit insn 26 = false → bits insn 31 30 + bits insn 23 22 ≤ 4) ∧
    ldstAddress s.cpu insn (bit insn 26)
      (if bit insn 26 && decide (2 ≤ bits insn 23 22) then 4 else bits insn 31 30) = .access va wb false ∧
    pdMem P e s = if bit insn 26 ∧ s.cpu.fpTrapped then s.mapCpu cpuFpTrap
      else commit (bits insn 9 5) wb (pdAccess P s insn va)

section MakesAccess
variable (P : Platform D) (s : Machine D) {insn : U32}

lemma PdOp.ne_of_basedMem {op op' : PdOp} (h : op.basedMem = true) (h' : op'.basedMem = false) :
    op ≠ op' := by
  rintro rfl
  exact Bool.noConfusion (h.symm.trans h')

lemma makesAccess_int {imm : U64} (hv : bit insn 26 = false)
    (hp : ¬(bits insn 31 30 = 3 ∧ bits insn 23 22 = 2))
    (haddr : ldstAddress s.cpu insn false (bits insn 31 30) =
      .access (s.cpu.regXsp (bits insn 9 5) + imm) none false) :
    (if ldstIntId (bits insn 31 30) (bits insn 23 22) = .generic then PdEnt.ofInsn insn
      else .form insn (ldstIntId (bits insn 31 30) (bits insn 23 22)) imm).MakesAccess P insn s := by
  split
  · exact .inl rfl
  next hg =>
    rcases ldstIntId_cases (bits_lt insn 23 22) with h | h | ⟨hm, h3⟩
    · exact absurd h hg
    · exact absurd h hp
    · refine .inr ⟨_, _, hm, by simp [hv], fun _ => h3, by simpa [hv] using haddr, ?_⟩
      rw [pdMem_int P s imm hv hg (PdOp.ne_of_basedMem hm rfl)]
      simp [hv]

lemma makesAccess_ro {imm : U64} (hv : bit insn 26 = false)
    (haddr : ldstAddress s.cpu insn false (bits insn 31 30) =
      .access (s.cpu.regXsp (bits insn 9 5) +
        pdExtendReg (s.cpu.regX (bits insn 20 16)) ((imm >>> 3) &&& 7).toNat (imm &&& 7).toNat) none false) :
    (if ldstRoId (bits insn 31 30) (bits insn 23 22) = .generic then PdEnt.ofInsn insn
      else .form insn (ldstRoId (bits insn 31 30) (bits insn 23 22)) imm).MakesAccess P insn s := by
  split
  · exact .inl rfl
  next hg =>
    obtain ⟨hm, h3⟩ := (ldstRoId_cases (bits_lt insn 23 22)).resolve_left hg
    refine .inr ⟨_, _, hm, by simp [hv], fun _ => h3, by simpa [hv] using haddr, ?_⟩
    rw [pdMem_ro P s imm hv hg]
    simp [hv]

lemma makesAccess_wb {imm : U64} {post : Bool} (hv : bit insn 26 = false)
    (haddr : ldstAddress s.cpu insn false (bits insn 31 30) =
      .access (if post then s.cpu.regXsp (bits insn 9 5) else s.cpu.regXsp (bits insn 9 5) + imm)
        (some (s.cpu.regXsp (bits insn 9 5) + imm)) false) :
    (if ldstWbId (bits insn 31 30) (bits insn 23 22) post = .generic then PdEnt.ofInsn insn
      else .form insn (ldstWbId (bits insn 31 30) (bits insn 23 22) post) imm).MakesAccess P insn s := by
  split
  · exact .inl rfl
  next hg =>
    obtain ⟨hm, h3⟩ := (ldstWbId_cases (bits insn 31 30) (bits insn 23 22) post).resolve_left hg
    refine .inr ⟨_, _, hm, by simp [hv], fun _ => h3, by simpa [hv] using haddr, ?_⟩
    rw [pdMem_wb P s imm post hv hg]
    simp [hv]

lemma makesAccess_vec {immQ imm : U64} (hv : bit insn 26 = true)
    (haddr : ∀ scale, scale = (if 2 ≤ bits insn 23 22 then 4 else bits insn 31 30) →
      ldstAddress s.cpu insn true scale =
        .access (s.cpu.regXsp (bits insn 9 5) + if 2 ≤ bits insn 23 22 then immQ else imm) none false) :
    (fillVec (.ofInsn insn) (bits insn 31 30) (bits insn 23 22) immQ imm).MakesAccess P insn s := by
  by_cases hq : 2 ≤ bits insn 23 22 ∧ bits insn 31 30 ≠ 0
  · exact .inl (by simp only [fillVec, if_pos hq.1, if_pos hq.2]; rfl)
  refine .inr ⟨_, none, ?_, by simpa [hv] using hq, by simp [hv],
    by rw [hv, haddr _ (by simp)], ?_⟩
  · simp only [fillVec]
    split_ifs with h1 h2 h3
    · exact absurd ⟨h1, h2⟩ hq
    all_goals rfl
  · rw [pdMem_vec P s immQ imm hv hq]
    simp [hv]

lemma makesAccess_vecWb {imm : U64} {post : Bool} (hv : bit insn 26 = true)
    (haddr : ldstAddress s.cpu insn true 4 =
      .access (if post then s.cpu.regXsp (bits insn 9 5) else s.cpu.regXsp (bits insn 9 5) + imm)
        (some (s.cpu.regXsp (bits insn 9 5) + imm)) false) :
    (if 2 ≤ bits insn 23 22 ∧ bits insn 31 30 = 0 then
      PdEnt.form insn (if bits insn 23 22 % 2 = 1 then (if post then .ldrqpost else .ldrqpre)
        else if post then .strqpost else .strqpre) imm
      else .ofInsn insn).MakesAccess P insn s := by
  split
  next h =>
    refine .inr ⟨_, _, ?_, by simp [h.2], by simp [hv], by simpa [hv, h.1] using haddr, ?_⟩
    · cases post <;> simp only [PdEnt.form] <;> split <;> rfl
    · rw [pdMem_vecWb P s imm post hv h.1]
      simp [hv]
  next => exact .inl rfl

lemma makesAccess_single (h7 : bits insn 29 27 = 7) (hp : isPrfm insn = false) :
    (fillSingle (.ofInsn insn) insn).MakesAccess P insn s := by
  simp only [isPrfm, h7, decide_true, Bool.true_and] at hp
  unfold fillSingle
  cases h24 : bit insn 24 with
  | true =>
    cases hv : bit insn 26 with
    | true =>
      refine makesAccess_vec P s hv fun scale hsc => ?_
      simp only [ldstAddress, h24, if_true, hsc]
      split <;> rfl
    | false =>
      refine makesAccess_int P s hv (fun h => ?_) (by simp only [ldstAddress, h24, if_true])
      simp [h24, hv, h.1, h.2] at hp
  | false =>
    cases h21 : bit insn 21 with
    | true =>
      simp only [Bool.false_eq_true, if_false, if_true]
      split
      · exact .inl rfl
      next h =>
        obtain ⟨hm, hv⟩ : bits insn 11 10 = 2 ∧ bit insn 26 = false := by simpa using h
        refine makesAccess_ro P s hv ?_
        have ht := bits_lt insn 15 13
        have hs := bits_lt insn 31 30
        obtain ⟨hu, hl⟩ := unpack_extend (t := bits insn 15 13)
          (s := if bit insn 12 then bits insn 31 30 else 0) ht (by split <;> omega)
        simp only [hu, hl, ldstAddress, h24, h21, hm, ldstExtendedOffset, Bool.false_eq_true, if_false, if_true]
        rfl
    | false =>
      simp only [Bool.false_eq_true, if_false]
      have hmode := bits_lt insn 11 10
      by_cases h2 : bits insn 11 10 = 2
      · exact .inl (by simp only [if_pos h2]; rfl)
      by_cases h0 : bits insn 11 10 = 0
      · simp only [if_neg h2, if_pos h0]
        cases hv : bit insn 26 with
        | true =>
          refine makesAccess_vec P s hv fun scale hsc => ?_
          simp only [ldstAddress, h24, h21, h0, Bool.false_eq_true, if_false, ite_self]
        | false =>
          refine makesAccess_int P s hv (fun h => ?_)
            (by simp only [ldstAddress, h24, h21, h0, Bool.false_eq_true, if_false])
          simp [h21, hv, h.1, h.2, h0] at hp
      · simp only [if_neg h2, if_neg h0]
        have haddr (v : Bool) (scale : ℕ) : ldstAddress s.cpu insn v scale =
            .access (if decide (bits insn 11 10 = 1) then s.cpu.regXsp (bits insn 9 5)
              else s.cpu.regXsp (bits insn 9 5) + signExtend (zext (bits insn 20 12)) 9)
              (some (s.cpu.regXsp (bits insn 9 5) + signExtend (zext (bits insn 20 12)) 9)) false := by
          simp only [ldstAddress, h24, h21, Bool.false_eq_true, if_false]
          have : bits insn 11 10 = 1 ∨ bits insn 11 10 = 3 := by omega
          rcases this with h | h <;> simp [h]
        cases hv : bit insn 26 with
        | true => exact makesAccess_vecWb P s hv (haddr _ _)
        | false => exact makesAccess_wb P s hv (haddr _ _)

end MakesAccess

section Narrow

/-- An unsigned byte or halfword load in a form that the tier runs itself. -/
def isNarrowLoad (insn : U32) : Bool :=
  bits insn 29 27 = 7 && !bit insn 26 && decide (bits insn 31 30 ≤ 1) && bits insn 23 22 = 1
    && (bit insn 24 || (bit insn 21 && bits insn 11 10 = 2)
      || (!bit insn 21 && (bits insn 11 10 = 0 || (bits insn 11 10 = 1 && bits insn 31 30 = 0))))

lemma fillSingle_narrow {insn : U32} (h7 : bits insn 29 27 = 7) (hv : bit insn 26 = false)
    (hs : bits insn 31 30 ≤ 1) (ho : bits insn 23 22 = 1) :
    (fillSingle (.ofInsn insn) insn).op = .generic ↔ isNarrowLoad insn = false := by
  have hmode := bits_lt insn 11 10
  simp only [isNarrowLoad, fillSingle, h7, hv, ho]
  generalize bits insn 31 30 = size at *
  generalize bits insn 11 10 = mode at *
  cases bit insn 24 <;> cases bit insn 21 <;> interval_cases size <;> interval_cases mode <;>
    simp [ldstIntId, ldstRoId, ldstWbId, PdEnt.ofInsn]

lemma writeBack_setX_inj {t : Machine D} {rt rn : ℕ} {wb : Option U64} {a b : U64} (hrn : rn ≠ 31)
    (hrt : rt ≤ 31) : writeBack (t.setX rt a) rn wb = writeBack (t.setX rt b) rn wb ↔
      a = b ∨ rt = 31 ∨ wb ≠ none ∧ rt = rn := by
  have hcpu (f g : Cpu) : (⟨f, t.bus⟩ : Machine D) = ⟨g, t.bus⟩ ↔ f = g := by simp
  cases wb with
  | none =>
    simp only [writeBack, Machine.setX, Machine.mapCpu, hcpu, Cpu.setX_eq_setGpr,
      Cpu.setGpr_inj_iff _ _ _ hrt, ne_eq, not_true_eq_false, false_and, or_false]
  | some w =>
    simp only [writeBack, Machine.setXsp, Machine.setX, Machine.mapCpu, hcpu, Cpu.setX_eq_setGpr,
      Cpu.setXsp_eq_setGpr _ _ hrn]
    by_cases hr : rt = rn
    · simp [hr]
    · simp only [hr, and_false, or_false, ← Cpu.setGpr_inj_iff t.cpu a b hrt]
      refine ⟨fun h => (Cpu.setGpr_inj_iff t.cpu a b hrt).2 ?_, fun h => by rw [h]⟩
      by_cases h31 : rt = 31
      · exact .inr h31
      · have hg := congrArg (·.gpr rt) h
        simp only [Cpu.gpr_setGpr_of_ne _ _ hr, Cpu.gpr_setGpr_self _ _ (show rt < 31 by omega)] at hg
        exact .inl hg

lemma pdAccess_eq (P : Platform D) (s : Machine D) {insn : U32} (va : U64)
    (halloc : bit insn 26 = false → bits insn 31 30 + bits insn 23 22 ≤ 4)
    (h : ¬(bit insn 26 = false ∧ bits insn 31 30 ≤ 1 ∧ bits insn 23 22 = 1)) :
    pdAccess P s insn va = ldstAccess P s insn va := by
  unfold pdAccess
  cases hv : bit insn 26 with
  | true => rfl
  | false =>
    have hlt := halloc hv
    have hn : ¬(bits insn 31 30 ≤ 1 ∧ bits insn 23 22 = 1) := fun hn => h ⟨hv, hn⟩
    simp only [ldstAccess, hv, pdLoadValue, if_neg hn, Bool.false_eq_true, if_false,
      doLoad_eq P s va (show ¬(bits insn 23 22 = 2 ∧ bits insn 31 30 = 3) by omega)]

lemma commit_pdAccess_iff (P : Platform D) (s : Machine D) {insn : U32} (va : U64) (wb : Option U64)
    (hrn : bits insn 9 5 ≠ 31) (hv : bit insn 26 = false) (hs : bits insn 31 30 ≤ 1)
    (ho : bits insn 23 22 = 1) :
    commit (bits insn 9 5) wb (pdAccess P s insn va) = commit (bits insn 9 5) wb (ldstAccess P s insn va) ↔
      ¬(bits insn 4 0 ≠ 31 ∧ (wb ≠ none → bits insn 4 0 ≠ bits insn 9 5) ∧
        ∃ v, (memRead P s va (2 ^ bits insn 31 30)).1 = some v ∧ 2 ^ 32 ≤ v.toNat) := by
  have hrt := bits_lt insn 4 0
  have hlo (v : U64) : loadValue (bits insn 31 30) 1 v = lo32 v := by
    simp only [loadValue, show ¬ bits insn 31 30 = 3 by omega]
    rfl
  simp only [pdAccess, ldstAccess, hv, ho, pdLoadValue, hs, Bool.false_eq_true, if_false, if_true,
    and_self, ne_eq, one_ne_zero, not_false_eq_true,
    doLoad_eq P s va (show ¬((1 : ℕ) = 2 ∧ bits insn 31 30 = 3) by omega)]
  unfold loadWith
  rcases memRead P s va (2 ^ bits insn 31 30) with ⟨_ | v, t⟩
  · simp
  · simp only [commit, if_true, hlo, id_eq, writeBack_setX_inj hrn (show bits insn 4 0 ≤ 31 by omega)]
    have hiff : v = lo32 v ↔ ¬ 2 ^ 32 ≤ v.toNat := by rw [eq_comm, lo32_eq_self_iff, not_le]
    simp only [hiff, Option.some.injEq, exists_eq_left', ne_eq]
    tauto

end Narrow

end Arm64Emu
