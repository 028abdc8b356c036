import Arm64Emu.JitReach

/-! The keys of blocks. A key packs the pc, shifted left by three, with five bits of
context, and both the hash table and the indirect-branch cache compare nothing else. -/
namespace Arm64Emu

variable {D : Type}

section Key

lemma jitCtx_lt (c : Cpu) : (jitCtx c).toNat < 32 := ctxOf_lt c.el (mmuOn c) c.spSel c.fpTrapped

lemma jitTag_toNat {pc ctx : U64} (ha : pc &&& 3 = 0) (hc : ctx.toNat < 32) :
    (jitTag pc ctx).toNat = pc.toNat % 2 ^ 61 * 8 + ctx.toNat := by
  rw [aligned_iff] at ha
  have h : pc.toNat % 2 ^ 61 * 8 = (pc.toNat % 2 ^ 61 / 4) <<< 5 := by
    rw [Nat.shiftLeft_eq]
    omega
  rw [h, Nat.shiftLeft_add_eq_or_of_lt hc, ← h, jitTag, BitVec.toNat_or, BitVec.toNat_shiftLeft, Nat.shiftLeft_eq]
  congr 1
  omega

lemma top_bits_eq {a b : U64} : (a ^^^ b) >>> 61 = 0 ↔ a.toNat / 2 ^ 61 = b.toNat / 2 ^ 61 := by
  rw [BitVec.ushiftRight_xor_distrib]
  refine BitVec.xor_eq_zero_iff.trans ?_
  rw [← BitVec.toNat_inj, BitVec.toNat_ushiftRight, BitVec.toNat_ushiftRight, Nat.shiftRight_eq_div_pow,
    Nat.shiftRight_eq_div_pow]

/-- Two keys that agree, one of them made for an aligned pc, come from the same pc and
context exactly if the other pc is aligned and has the same top bits. -/
lemma jitTag_eq_iff {pc₁ pc ctx₁ ctx : U64} (ha : pc₁ &&& 3 = 0) (hc₁ : ctx₁.toNat < 32) (hc : ctx.toNat < 32)
    (hkey : jitTag pc₁ ctx₁ = jitTag pc ctx) :
    (pc₁ = pc ∧ ctx₁ = ctx) ↔ pc &&& 3 = 0 ∧ (pc ^^^ pc₁) >>> 61 = 0 := by
  constructor
  · rintro ⟨rfl, -⟩
    refine ⟨ha, ?_⟩
    rw [BitVec.xor_self]
    rfl
  · rintro ⟨ha', htop⟩
    have hnat := congrArg BitVec.toNat hkey
    rw [jitTag_toNat ha hc₁, jitTag_toNat ha' hc] at hnat
    rw [top_bits_eq] at htop
    rw [aligned_iff] at ha ha'
    constructor
    · apply BitVec.eq_of_toNat_eq
      omega
    · apply BitVec.eq_of_toNat_eq
      omega

lemma jitTag_ctx {pc ctx : U64} (ha : pc &&& 3 = 0) (hc : ctx.toNat < 32) : jitTag pc ctx &&& 0x1f = ctx := by
  apply BitVec.eq_of_toNat_eq
  rw [BitVec.toNat_and, jitTag_toNat ha hc]
  rw [aligned_iff] at ha
  refine (Nat.and_two_pow_sub_one_eq_mod _ 5).trans ?_
  omega
end Key

/-- The blocks in the table were translated at aligned addresses, under their own keys. -/
def JitEnv.Keyed (env : JitEnv) : Prop :=
  ∀ i, env.Live i → (env.arena i).pc &&& 3 = 0 ∧ ∃ c, (env.arena i).tag = jitTag (env.arena i).pc (jitCtx c)

lemma Translated.pc_aligned {P : Platform (Jitted D)} {F : FpJit} {m : JitMachine D} {b : JCode} (h : Translated P F m b) :
    b.pc &&& 3 = 0 := by
  obtain ⟨m₀, n, ir, hb, -⟩ := h.code
  by_contra ha
  obtain ⟨ir', h'⟩ := jitFeBlock_misaligned (P := P) (F := F) (m := m₀) ha n
  rw [hb] at h'
  exact h.pos.ne' (congrArg (fun r => r.1.2) h')

namespace JitEnv.Keyed
variable {env env' : JitEnv}

lemma shrinks (h : env.Keyed) (hs : env.Shrinks env') : env'.Keyed := by
  intro i hi
  rw [hs.code i]
  exact h i (hs.live hi)

lemma addBlock (h : env.Keyed) (ht : env.Tables) {b : JCode} (ha : b.pc &&& 3 = 0)
    (hb : ∃ c, b.tag = jitTag b.pc (jitCtx c)) (henv : env'.toJTable = env.toJTable.addBlock b) : env'.Keyed := by
  intro i hi
  rw [henv] at hi ⊢
  obtain rfl | hi := JTable.live_addBlock.mp hi
  · rw [JTable.addBlock_arena_self]
    exact ⟨ha, hb⟩
  · rw [JTable.addBlock_arena (ht.live_lt hi).ne]
    exact h i hi

end JitEnv.Keyed

section Run
variable {P : Platform (Jitted D)} {F : FpJit} {H : JitHost} (hP : P.Tame) {p : JitPhase D}
  {C : JTable → ℕ → Bool → ℕ → Prop} {Ok : JitPhase D → Prop}

include hP

lemma JitChange.keyed {m m' : JitMachine D} (hc : JitChange P.jit F H C m m') (ht : m.env.Tables) (h : m.env.Keyed) :
    m'.env.Keyed := by
  cases hc with
  | deeds hd => exact h.shrinks ((deeds_env hP hd).shrinks ht)
  | @note env he =>
    intro i hi
    rw [show (m.setEnv env).env.toJTable = m.env.toJTable from he] at hi ⊢
    exact h i hi
  | purge => exact h
  | flush => exact fun i hi => absurd hi List.not_mem_nil
  | @add b hl hb => exact h.addBlock ht hb.pc_aligned hb.tag (markCodePage_table (m.addBlock b) b.hostPage b.paPage).1
  | @chain prev slot i hi =>
    intro j hj
    have hj' := h j (JTable.live_chain.mp hj)
    rw [← JTable.chain_code m.env.toJTable prev slot i j] at hj'
    exact hj'
  | fill => exact h

lemma JitReach.keyed (h : JitReach P F H Ok p) : p.machine.env.Keyed := by
  refine h.machine_invariant hP (C := fun _ _ _ _ => True) (I := fun m => m.env.Keyed)
    (fun _ _ _ _ _ _ _ _ _ _ _ _ _ _ _ => trivial) (fun m hm => ?_) (fun m m' hc ht _ hm => hc.keyed hP ht hm)
    (fun m b hb ht hm => hm.shrinks (hb.2.shrinks ht)) fun m _ _ i hi => absurd hi List.not_mem_nil
  rw [hm]
  exact fun i hi => absurd hi List.not_mem_nil

omit hP in
/-- A lookup of `(pc, ctx)` that finds the block `i` of the machine `m`: by the dispatcher,
or by the probe at the end of a block that leaves by an indirect branch. -/
inductive Hit (P : Platform (Jitted D)) (F : FpJit) (H : JitHost) :
    JitPhase D → (pc ctx : U64) → JitMachine D → ℕ → Prop
  | dispatch {l l' : JitLoop D} {i : ℕ} : jitHead P F H l = .enter l' i →
      Hit P F H (.head l) l.m.cpu.pc (jitCtx l.m.cpu) l'.m i
  | probe {l : JitLoop D} {i : ℕ} {v : Vreg} {m : JitMachine D} :
      irLeave P F (l.m.env.arena i).ops (.start l.m) = some (.jmpind v, m) →
      (m.env.jcache (jcIdx m.cpu.pc)).tag = jitTag m.cpu.pc m.env.ctx →
      Hit P F H (.enter l i) m.cpu.pc m.env.ctx m (m.env.jcache (jcIdx m.cpu.pc)).code

lemma Hit.key {pc ctx : U64} {m : JitMachine D} {i : ℕ} (h : Hit P.jit F H p pc ctx m i)
    (hr : JitReach P F H (fun _ => True) p) :
    m.env.Live i ∧ m.env.Keyed ∧ (m.env.arena i).tag = jitTag pc ctx ∧ ∃ c, ctx = jitCtx c := by
  have hs := hr.sound hP
  cases h with
  | @dispatch l l' i he =>
    have hk := (hr.move trivial).keyed hP
    have hh := headed_jitHead (F := F) (H := H) (C := fun _ _ _ _ => True) hP hs.fetch
      fun _ _ _ _ _ _ _ _ _ _ _ _ _ => trivial
    rw [jitMove, he] at hk
    rw [he] at hh
    cases hh with
    | enter _ hent =>
      refine ⟨hent.live, hk, ?_, _, rfl⟩
      rw [hent.tag]
      obtain hc | hc := hent.cpu
      · rw [hc]
      · rw [hc]
        rfl
  | @probe l i v _ hleave htag =>
    have henv := deeds_env hP (Deeds.irLeave (P := P.jit) hP.fp _ (.start l.m) hleave)
    obtain ⟨-, c, hctx⟩ := hs.enters
    have hctx' : m.env.ctx = jitCtx c := (congrArg Notes.ctx henv.notes).trans hctx
    obtain ⟨hlive, ht⟩ := (henv.tables hs.tables).jcache (jcIdx m.cpu.pc) (by
      rw [htag, hctx']
      exact jitTag_ne_empty _ c)
    exact ⟨hlive, (hr.keyed hP).shrinks (henv.shrinks hs.tables), ht.trans htag, c, hctx'⟩

omit hP in
/-- The PC-alignment exception that `mem_ifetch_slow` raises at the pc of `c`; the
dispatcher need not have recorded the pc as that of the current instruction. -/
def RaisesAlign (c c' : Cpu) : Prop :=
  c' = cpuRaiseSync c (esrMake .pcAlign 0) c.pc ∨ c' = cpuRaiseSync (c.setCurInsnPc c.pc) (esrMake .pcAlign 0) c.pc

omit hP in
lemma cpuStep_misaligned {m : JitMachine D} (hstop : m.cpu.stop = false) (hhalt : m.cpu.halted = false)
    (hirq : irqPending m = false) (hfiq : fiqPending m = false) (ha : m.cpu.pc &&& 3 ≠ 0) :
    (cpuStep P m).2.cpu = cpuRaiseSync (m.cpu.setCurInsnPc m.cpu.pc) (esrMake .pcAlign 0) m.cpu.pc := by
  have hf : memIfetch P (m.mapCpu Cpu.beginInsn) (m.mapCpu Cpu.beginInsn).cpu.pc =
      (none, ⟨cpuRaiseSync (m.cpu.setCurInsnPc m.cpu.pc) (esrMake .pcAlign 0) m.cpu.pc, m.bus⟩) := memIfetch_misaligned ha
  simp only [cpuStep, hstop, hhalt, hirq, hfiq, Bool.false_eq_true, if_false, hf]

omit hP in
/-- A misaligned pc on a page that the fetch cache holds: the lookup takes it for another
pc, or the translator's first fetch faults. -/
lemma dispatch_misaligned {l : JitLoop D} (hp : HostPage) (pa : U64) (hon : l.m.env.on = true) (ha : l.m.cpu.pc &&& 3 ≠ 0) :
    (∃ l' i, l.dispatch P F H l.m.cpu.pc hp pa = .enter l' i) ∨
      (l.dispatch P F H l.m.cpu.pc hp pa).machine.cpu = cpuRaiseSync l.m.cpu (esrMake .pcAlign 0) l.m.cpu.pc := by
  obtain ⟨m₀, hm₀⟩ : ∃ m₀ : JitMachine D, m₀ = l.m.mapEnv fun env => { env with
    ctx := jitCtx l.m.cpu, dtlbCtxgen := dtlbCtxgenOf l.m.bus.tlbGen (jitCtx l.m.cpu) } := ⟨_, rfl⟩
  have hcpu₀ : m₀.cpu = l.m.cpu := by rw [hm₀]; rfl
  have hon₀ : m₀.env.on = true := by rw [hm₀]; exact hon
  unfold JitLoop.dispatch
  dsimp only
  rw [← hm₀]
  cases hlook : m₀.env.jitLookup (jitTag l.m.cpu.pc (jitCtx l.m.cpu)) hp with
  | some i => exact .inl ⟨_, i, rfl⟩
  | none =>
    right
    obtain ⟨m₁, -, hcpu₁, hon₁, htr⟩ := jitTranslate_misaligned (P := P) (F := F) (H := H) (C := fun _ _ _ _ => True)
      (jitTag l.m.cpu.pc (jitCtx l.m.cpu)) pa hp ha (show jitMaxBlockInsns ≠ 0 by decide) jitMaxBlockInsns m₀
    rw [htr]
    dsimp only
    rw [if_neg]
    · dsimp only [JitPhase.machine]
      rw [(seeFlush_m _).1, hcpu₁, hcpu₀]
    · rw [Bool.not_eq_true']
      exact ne_of_eq_of_ne (hon₁.trans hon₀) (by decide)

omit hP in
/-- A misaligned pc that the lookup does not take for another one raises the exception,
at once or, on a thrashing page, in the interpreter. -/
lemma raises_misaligned {l : JitLoop D} (hrun : l.Runs) (hon : l.m.env.on = true) (ha : l.m.cpu.pc &&& 3 ≠ 0)
    (hmiss : ¬ ∃ l' i, jitHead P F H l = .enter l' i) :
    RaisesAlign l.m.cpu (jitHead P F H l).machine.cpu ∨
      ∃ l' page, jitHead P F H l = .interp l' page ∧ RaisesAlign l.m.cpu (jitInterp P l' page).machine.cpu := by
  obtain ⟨hs, -, -, -⟩ := synced_sync (P := P) (F := F) (H := H) (C := fun _ _ _ _ => True) l
  rw [jitHead_eq hrun] at hmiss ⊢
  obtain ⟨env, henv⟩ := hs.bus
  have hcpu := hs.cpu
  have hon' : (l.sync H).m.env.on = true := hs.on.trans hon
  have hpend : irqPending (l.sync H).m = false ∧ fiqPending (l.sync H).m = false := by
    rw [henv]
    exact ⟨hrun.irq, hrun.fiq⟩
  clear henv hs
  generalize l.sync H = l₁ at *
  rw [← hcpu] at ha
  cases hf : fetchHit l₁.m l₁.m.cpu.pc with
  | none =>
    have hres : resolveCodePage P l₁.m l₁.m.cpu.pc =
        (.abort, ⟨cpuRaiseSync (l₁.m.cpu.setCurInsnPc l₁.m.cpu.pc) (esrMake .pcAlign 0) l₁.m.cpu.pc, l₁.m.bus⟩) := by
      rw [resolveCodePage, hf]
      simp only [memIfetchSlow, ha, ne_eq, not_false_eq_true, if_true]
      rfl
    rw [hres]
    left
    right
    rw [← hcpu]
    rfl
  | some h =>
    obtain ⟨hp, pa⟩ := h
    have hres : resolveCodePage P l₁.m l₁.m.cpu.pc = (.host hp pa, l₁.m) := by
      rw [resolveCodePage, hf]
    rw [hres] at hmiss ⊢
    dsimp only at hmiss ⊢
    split
    · -- the page is interpreted
      right
      refine ⟨_, _, rfl, ?_⟩
      have hstep : (cpuStep P l₁.m).2.cpu = cpuRaiseSync (l₁.m.cpu.setCurInsnPc l₁.m.cpu.pc) (esrMake .pcAlign 0) l₁.m.cpu.pc :=
        cpuStep_misaligned (by rw [hcpu]; exact hrun.stop) (by rw [hcpu]; exact hrun.halted) hpend.1 hpend.2 ha
      right
      rw [← hcpu, ← hstep]
      unfold jitInterp
      dsimp only
      split
      · rfl
      · rfl
    · left
      left
      rename_i hhot
      rw [if_neg hhot] at hmiss
      obtain ⟨l', i, henter⟩ | hraise := dispatch_misaligned (P := P) (F := F) (H := H) hp pa hon' ha
      · exact absurd ⟨l', i, henter⟩ hmiss
      · rw [← hcpu]
        exact hraise

/-- A lookup finds the block that was made for its pc and context exactly if the pc is
aligned and has the top three bits of the block's; the key of an empty entry is never
found; and a misaligned pc for which nothing is found raises the exception. -/
theorem block_identity_iff :
    (∀ p pc ctx m i, JitReach P F H (fun _ => True) p → Hit P.jit F H p pc ctx m i →
      (m.env.arena i).tag ≠ ~~~0 ∧
      (((m.env.arena i).pc = pc ∧ (m.env.arena i).tag &&& 0x1f = ctx) ↔
        pc &&& 3 = 0 ∧ (pc ^^^ (m.env.arena i).pc) >>> 61 = 0)) ∧
    ∀ l : JitLoop D, l.Runs → l.m.env.on = true → l.m.cpu.pc &&& 3 ≠ 0 →
      (¬ ∃ l' i, jitHead P.jit F H l = .enter l' i) →
      RaisesAlign l.m.cpu (jitHead P.jit F H l).machine.cpu ∨
        ∃ l' page, jitHead P.jit F H l = .interp l' page ∧
          RaisesAlign l.m.cpu (jitInterp P.jit l' page).machine.cpu := by
  refine ⟨fun p pc ctx m i hr hhit => ?_, fun l hrun hon ha hmiss => raises_misaligned hrun hon ha hmiss⟩
  obtain ⟨hlive, hkeyed, htag, c, rfl⟩ := hhit.key hP hr
  obtain ⟨hal, c₁, htag₁⟩ := hkeyed i hlive
  refine ⟨?_, ?_⟩
  · rw [htag₁]
    exact jitTag_ne_empty _ c₁
  · rw [htag₁, jitTag_ctx hal (jitCtx_lt c₁)]
    exact jitTag_eq_iff hal (jitCtx_lt c₁) (jitCtx_lt c) (htag₁.symm.trans htag)

end Run

section BranchProgram

/-- `br x1`, to its own address with another top bit pattern. -/
def branchOut : List (ℕ × List U32) := [(0, [0xd61f0020])]

def branchStart : Cpu := { cpuReset 0x40000000 1 with x := fun i => if i = 1 then 0x2000000040000000 else 0 }

/-- The block about to run leaves by an indirect branch, and the probe hits a block made
for another pc. -/
def probesOther : JitPhase Unit → Bool
  | .enter l i =>
    match irLeave (Platform.bareJit 0x400000).jit .none (l.m.env.arena i).ops (.start l.m) with
    | some (.jmpind _, m) =>
      let e := m.env.jcache (jcIdx m.cpu.pc)
      e.tag = jitTag m.cpu.pc m.env.ctx ∧ (m.env.arena e.code).pc ≠ m.cpu.pc
    | _ => false
  | _ => false

/-- A branch to an address outside the virtual address space re-enters the block of the
branch itself. -/
theorem other_block_hit_by_branch : ∃ l i pc ctx m j,
    JitReach (.bareJit 0x400000) .none .plain (fun _ => True) (.enter l i) ∧
    Hit (Platform.bareJit 0x400000).jit .none .plain (.enter l i) pc ctx m j ∧ (m.env.arena j).pc ≠ pc := by
  have hreach := reachable_bareRun branchStart branchOut 1
  have hprobe : probesOther (bareRun branchStart branchOut 1) = true := by decide +kernel
  generalize bareRun branchStart branchOut 1 = p at hreach hprobe
  cases p with
  | enter l i =>
    unfold probesOther at hprobe
    dsimp only at hprobe
    split at hprobe
    · rename_i v m hleave
      obtain ⟨htag, hpc⟩ := of_decide_eq_true hprobe
      exact ⟨l, i, _, _, m, _, hreach, .probe hleave htag, hpc⟩
    · cases hprobe
  | head l => cases hprobe
  | interp l page => cases hprobe
  | done r m => cases hprobe

def findsOwn : JitPhase Unit → Bool
  | .head l =>
    match jitHead (Platform.bareJit 0x400000).jit .none .plain l with
    | .enter l' i => l.m.cpu.pc &&& 3 = 0 ∧ (l.m.cpu.pc ^^^ (l'.m.env.arena i).pc) >>> 61 = 0
    | _ => false
  | _ => false

theorem block_identity_branchOut : ∃ l l' i,
    JitReach (.bareJit 0x400000) .none .plain (fun _ => True) (.head l) ∧
    Hit (Platform.bareJit 0x400000).jit .none .plain (.head l) l.m.cpu.pc (jitCtx l.m.cpu) l' i ∧
    (l'.env.arena i).pc = l.m.cpu.pc := by
  have hreach := reachable_bareRun branchStart branchOut 0
  have hown : findsOwn (bareRun branchStart branchOut 0) = true := by decide +kernel
  generalize bareRun branchStart branchOut 0 = p at hreach hown
  cases p with
  | head l =>
    unfold findsOwn at hown
    dsimp only at hown
    split at hown
    · rename_i l' i henter
      have hhit : Hit (Platform.bareJit 0x400000).jit .none .plain (.head l) _ _ l'.m i := .dispatch henter
      exact ⟨l, l'.m, i, hreach, hhit,
        (((block_identity_iff (Platform.tame_bareJit _)).1 _ _ _ _ _ hreach hhit).2.mpr (of_decide_eq_true hown)).1⟩
    · cases hown
  | enter l i => cases hown
  | interp l page => cases hown
  | done r m => cases hown

end BranchProgram

end Arm64Emu
