import Arm64Emu.Isolation
import Arm64Emu.JitReach
import Arm64Emu.PdStep

/-! What the three engines keep. A property of the processor that every change of it keeps,
an exception return perhaps only from some states, is kept by the interpreter, by the
predecoded tier and by every move of the translator. -/
namespace Arm64Emu

variable {D : Type}

/-- The level, and what decides about floating-point traps. -/
structure Mode where
  el : Fin 4
  cpacrEl1 : U64
  fpTrapped : Bool
  deriving DecidableEq, Repr

def Cpu.mode (c : Cpu) : Mode := ⟨c.el, c.cpacrEl1, c.fpTrapped⟩

/-- Every change keeps `J`, an exception return from the states with `E`. -/
structure ModeKept (J : Mode → Prop) (E : Cpu → Prop) : Prop where
  change {A : Scope} {c d : Cpu} : CpuChange A c d → (A.eret → E c) → J c.mode → J d.mode
  fetched {c : Cpu} : E c → ∀ pc cur : U64, E { c with pc := pc, curInsnPc := cur }

/-- Every return of the next step is from a state with `E`. -/
def ReturnsNext (E : Cpu → Prop) (P : Platform D) (s : Machine D) : Prop :=
  ∀ insn u, Executes P s insn u → isEret insn = true → E s.cpu

lemma of_mode {J : Mode → Prop} {c d : Cpu} (h : J c.mode) (e : d.mode = c.mode) : J d.mode := by
  rw [e]
  exact h

lemma setGpr_mode (c : Cpu) (n : ℕ) (v : U64) : (c.setGpr n v).mode = c.mode := by
  unfold Cpu.setGpr
  split <;> rfl

lemma setXsp_mode (c : Cpu) (n : ℕ) (v : U64) : (c.setXsp n v).mode = c.mode := by
  unfold Cpu.setXsp
  split
  · rfl
  · exact setGpr_mode c n v

section Exec
variable {J : Mode → Prop} {E : Cpu → Prop} (hk : ModeKept J E) {P : Platform D} {A : Scope} {s t : Machine D} {c d : Cpu}
include hk

lemma ModeKept.ops (h : CpuOps c d) (hc : J c.mode) : J d.mode :=
  h.invariant (fun _ _ ho => hk.change (A := .plain) (.op ho) False.elim) hc

lemma ModeKept.take (kind : ExcKind) (esr far ret : U64) (hc : J c.mode) : J (exceptionTake c kind esr far ret).mode :=
  hk.ops (.exceptionTake (.refl c) kind esr far ret) hc

lemma ModeKept.changes (hA : ¬A.eret) (h : CpuChanges A c d) (hc : J c.mode) : J d.mode :=
  h.invariant (fun _ _ ho => hk.change ho fun hr => absurd hr hA) hc

lemma ModeKept.plain (h : Ops P .plain s t) (hs : J s.cpu.mode) : J t.cpu.mode := hk.changes id (h.changes False.elim) hs

lemma execA64_kept (hfp : ∀ c insn, CpuOps c (P.execFpsimd c insn)) (s : Machine D) {insn : U32}
    (hok : isEret insn = true → E s.cpu) (hs : J s.cpu.mode) : J (execA64 P s insn).cpu.mode := by
  by_cases he : isEret insn = true
  · rw [execA64_eret s he]
    exact hk.change (A := scopeOf insn) (.eret s.cpu he) (fun _ => hok he) hs
  · exact hk.changes he (changes_execA64 hfp s insn) hs

lemma memIfetch_kept {va : U64} {o : Option U32} (h : memIfetch P s va = (o, t)) (hs : J s.cpu.mode) : J t.cpu.mode := by
  cases o with
  | none =>
    obtain ⟨esr, far, ret, ht⟩ := memIfetch_none h
    rw [ht]
    exact hk.take _ _ _ _ hs
  | some insn =>
    rw [memIfetch_some h]
    exact hs

lemma memIfetchSlow_kept {va : U64} {o : Option U32} (h : memIfetchSlow P s va = (o, t)) (hs : J s.cpu.mode) : J t.cpu.mode := by
  cases o with
  | none =>
    obtain ⟨esr, far, ret, ht⟩ := memIfetchSlow_none h
    rw [ht]
    exact hk.take _ _ _ _ hs
  | some insn =>
    rw [memIfetchSlow_some h]
    exact hs

lemma cpuStep_kept (hfp : ∀ c insn, CpuOps c (P.execFpsimd c insn)) {s : Machine D} (hok : ReturnsNext E P s)
    (hs : J s.cpu.mode) : J (cpuStep P s).2.cpu.mode := by
  have hstep := stepped_cpuStep P s
  generalize (cpuStep P s).2 = t at hstep
  cases hstep with
  | idle => exact hs
  | interrupt kind => exact hk.take _ _ _ _ hs
  | fault hf => exact memIfetch_kept hk hf hs
  | @exec insn u hx =>
    exact execA64_kept hk hfp ⟨s.cpu.entered, u.bus⟩ (fun he => hk.fetched (hok insn u hx he) _ _) hs

end Exec

/-! The predecoded tier. -/
section Predecoded
variable {P : Platform D} {s t u : Machine D}

section Mode
variable (e : PdEnt) (c : Cpu)

lemma setX_mode (n : ℕ) (v : U64) : (c.setX n v).mode = c.mode := by
  unfold Cpu.setX
  exact ite_view (f := Cpu.mode) (setGpr_mode c n v) rfl

lemma setXSz_mode (n : ℕ) (is64 : Bool) (v : U64) : (c.setXSz n is64 v).mode = c.mode := setX_mode c n _

lemma setNzcv_mode (f : U32) : (c.setNzcv f).mode = c.mode := rfl

lemma setPc_mode (v : U64) : (c.setPc v).mode = c.mode := rfl

lemma setFlagsX_mode (rd : ℕ) (is64 : Bool) (r : U64 × U32) : (c.setFlagsX rd is64 r).mode = c.mode := setX_mode _ rd _

lemma jumpIf_mode (take : Bool) (off : U64) : (c.jumpIf take off).mode = c.mode := ite_view (f := Cpu.mode) rfl rfl

lemma pdLogicalShift_mode : (pdLogicalShift e c).mode = c.mode := by
  simp only [pdLogicalShift, setX_mode, apply_ite Cpu.mode, setNzcv_mode, ite_self]

lemma pdAddSubShift_mode : (pdAddSubShift e c).mode = c.mode := by
  simp only [pdAddSubShift, setXSz_mode, apply_ite Cpu.mode, setNzcv_mode, ite_self]

lemma pdAddSubExt_mode : (pdAddSubExt e c).mode = c.mode := by
  simp only [pdAddSubExt, apply_ite Cpu.mode, setXSz_mode, setXsp_mode, setNzcv_mode, ite_self]

lemma pdCcmp_mode : (pdCcmp e c).mode = c.mode := by simp only [pdCcmp, apply_ite Cpu.mode, setNzcv_mode, ite_self]

lemma pdCpu_mode : (pdCpu e c).mode = c.mode := by
  obtain ⟨insn, op, rd, rn, rm, imm⟩ := e
  cases op <;> simp only [pdCpu, setX_mode, setXsp_mode, setPc_mode, setNzcv_mode, setFlagsX_mode, jumpIf_mode,
    pdLogicalShift_mode, pdAddSubShift_mode, pdAddSubExt_mode, pdCsel, setXSz_mode, pdCcmp_mode]

end Mode

namespace Ops
variable {A : Scope}

lemma pdLoad (h : Ops P A s t) (e : PdEnt) (va : U64) (n : ℕ) (f : U64 → U64) (wb : Option U64) :
    Ops P A s (pdLoad P e t va n f wb) := by
  unfold Arm64Emu.pdLoad
  exact h.read_bind fun _ _ hu => (hu.setX _ _).writeBack _ _

lemma pdStore (h : Ops P A s t) (e : PdEnt) (va : U64) (n : ℕ) (wb : Option U64) :
    Ops P A s (pdStore P e t va n wb) := by
  unfold Arm64Emu.pdStore
  exact h.write_bind fun _ hu => hu.writeBack _ _

lemma read128_bind {va : U64} {k : V128 → Machine D → Machine D} (h : Ops P A s t)
    (hk : ∀ v u, Ops P A s u → Ops P A s (k v u)) :
    Ops P A s (match Arm64Emu.memRead128 P t va with | (none, s) => s | (some v, s) => k v s) := by
  split
  · exact h.memRead128 ‹_›
  · exact hk _ _ (h.memRead128 ‹_›)

lemma write128_bind {va : U64} {v : V128} {k : Machine D → Machine D} (h : Ops P A s t)
    (hk : ∀ u, Ops P A s u → Ops P A s (k u)) :
    Ops P A s (match Arm64Emu.memWrite128 P t va v with | (false, s) => s | (true, s) => k s) := by
  split
  · exact h.memWrite128 ‹_›
  · exact hk _ (h.memWrite128 ‹_›)

lemma pdLoadQ (h : Ops P A s t) (e : PdEnt) (va : U64) (wb : Option U64) : Ops P A s (pdLoadQ P e t va wb) := by
  unfold Arm64Emu.pdLoadQ
  exact h.read128_bind fun _ _ hu => (hu.setVreg _ _).writeBack _ _

lemma pdStoreQ (h : Ops P A s t) (e : PdEnt) (va : U64) (wb : Option U64) : Ops P A s (pdStoreQ P e t va wb) := by
  unfold Arm64Emu.pdStoreQ
  exact h.write128_bind fun _ hu => hu.writeBack _ _

lemma fpGuard (h : Ops P A s t) (hu : Ops P A s u) : Ops P A s (fpGuard t u) := .ite h.fpTrap hu

lemma pdRegOffset (h : Ops P A s t) (e : PdEnt) : Ops P A s (pdRegOffset P e t) := by
  unfold Arm64Emu.pdRegOffset
  dsimp only
  split
  all_goals first
    | exact h.pdLoad _ _ _ _ _
    | exact h.pdStore _ _ _ _

lemma pdPairs (h : Ops P A s t) (e : PdEnt) :
    Ops P A s (pdLdp P e t) ∧ Ops P A s (pdStp P e t) ∧ Ops P A s (pdLdpq P e t) ∧ Ops P A s (pdStpq P e t) ∧
      Ops P A s (pdLdpd P e t) ∧ Ops P A s (pdStpd P e t) := by
  refine ⟨?_, ?_, ?_, ?_, ?_, ?_⟩
  · exact h.read_bind fun _ _ h₁ => h₁.read_bind fun _ _ h₂ => ((h₂.setX _ _).setX _ _).writeBack _ _
  · exact h.write_bind fun _ h₁ => h₁.write_bind fun _ h₂ => h₂.writeBack _ _
  · exact h.read128_bind fun _ _ h₁ => (h₁.setVreg _ _).read128_bind fun _ _ h₂ => (h₂.setVreg _ _).writeBack _ _
  · exact h.write128_bind fun _ h₁ => h₁.write128_bind fun _ h₂ => h₂.writeBack _ _
  · exact h.read_bind fun _ _ h₁ => (h₁.setVreg _ _).read_bind fun _ _ h₂ => (h₂.setVreg _ _).writeBack _ _
  · exact h.write_bind fun _ h₁ => h₁.write_bind fun _ h₂ => h₂.writeBack _ _

lemma pdLoadV (h : Ops P A s t) (rd : ℕ) (va : U64) (n : ℕ) : Ops P A s (match Arm64Emu.memRead P t va n with
    | (none, s) => s
    | (some v, s) => s.mapCpu (·.setVreg rd ⟨v, 0⟩)) :=
  h.read_bind fun _ _ hu => hu.setVreg _ _

lemma pdMem (h : Ops P A s t) (e : PdEnt) : Ops P A s (pdMem P e t) := by
  obtain ⟨hldp, hstp, hldpq, hstpq, hldpd, hstpd⟩ := h.pdPairs e
  unfold Arm64Emu.pdMem
  dsimp only
  split
  all_goals first
    | exact h.pdLoad _ _ _ _ _
    | exact h.pdStore _ _ _ _
    | exact h.pdRegOffset e
    | exact hldp
    | exact hstp
    | exact h
    | exact h.fpGuard (h.pdLoadQ _ _ _)
    | exact h.fpGuard (h.pdStoreQ _ _ _)
    | exact h.fpGuard (.ite (h.pdLoadQ _ _ _) (h.pdLoadV _ _ _))
    | exact h.fpGuard (h.pdLoadV _ _ _)
    | exact h.fpGuard (h.memWrite rfl)
    | exact h.fpGuard hldpq
    | exact h.fpGuard hstpq
    | exact h.fpGuard hldpd
    | exact h.fpGuard hstpd

end Ops

/-- One iteration of the slice: an event that is served before the first fetch, as in the
interpreter, or an instruction. -/
def pdNext (P : Platform D) (s : Machine D) (cache : PdCache) : Machine D × PdCache :=
  if s.cpu.stop || fiqPending s || irqPending s || s.cpu.halted then ((cpuStep P s).2, cache)
  else
    match pdInsn P (pdHandler P) s cache with
    | (none, t) => (t, cache)
    | (some cache, t) => (t, cache)

section Slice
variable {J : Mode → Prop} {E : Cpu → Prop} (hk : ModeKept J E)
include hk

lemma pdHandler_kept {e : PdEnt} (he : e.op ≠ .generic) (hs : J s.cpu.mode) : J (pdHandler P e s).cpu.mode := by
  unfold pdHandler
  rw [if_neg he]
  split
  · exact hk.plain (Ops.pdMem (.refl s) e) hs
  · exact of_mode hs (pdCpu_mode e s.cpu)

lemma pdNext_kept (hfp : ∀ c insn, CpuOps c (P.execFpsimd c insn)) (cache : PdCache) (hok : ReturnsNext E P s)
    (hs : J s.cpu.mode) : J (pdNext P s cache).1.cpu.mode := by
  unfold pdNext
  split
  · exact cpuStep_kept hk hfp hok hs
  rename_i hev
  simp only [Bool.or_eq_true, not_or, Bool.not_eq_true] at hev
  obtain ⟨⟨⟨hstop, hfiq⟩, hirq⟩, hhalt⟩ := hev
  unfold pdInsn
  rcases hf : memIfetch P (s.mapCpu Cpu.beginInsn) (s.mapCpu Cpu.beginInsn).cpu.pc with ⟨_ | insn, u⟩
  · simp only [hf]
    exact memIfetch_kept hk hf hs
  · have hx : Executes P s insn u := ⟨hstop, hfiq, hirq, hhalt, hf⟩
    have hu : u.cpu = s.cpu.beginInsn := hx.cpu
    have hlow : J (u.mapCpu fun c => c.setPc (c.pc + 4)).cpu.mode := by
      rw [Machine.mapCpu_cpu, hu]
      exact hs
    have heret (he : isEret insn = true) : E (u.mapCpu fun c => c.setPc (c.pc + 4)).cpu := by
      rw [Machine.mapCpu_cpu, hu]
      exact hk.fetched (hok insn u hx he) _ _
    simp only [hf]
    show J (if (pdLookup cache _ insn).1.op = .generic then execA64 P _ insn else pdHandler P _ _).cpu.mode
    split
    · exact execA64_kept hk hfp _ heret hlow
    · exact pdHandler_kept hk ‹_› hlow

end Slice

end Predecoded

/-! The translator. -/
section Translator
variable {P : Platform D} {F : FpJit} {J : Mode → Prop} {E : Cpu → Prop} (hk : ModeKept J E)

def ReturnsCalled (E : Cpu → Prop) (s : IrState D) (e : IrEnt) : Prop :=
  s.skip = false → ∀ pc insn, e.op = .call1 pc insn ∨ e.op = .call1ic pc insn → isEret insn = true → E s.m.cpu

lemma IrState.write_mode (s : IrState D) (v : Vreg) (x : U64) : (s.write v x).m.cpu.mode = s.m.cpu.mode := by
  cases v
  · exact setXsp_mode _ _ _
  · rfl
  · rfl

lemma IrState.alu_mode (s : IrState D) (op : AluOp) (w : Bool) (dst : Vreg) (x y : U64) :
    (s.alu op w dst x y).m.cpu.mode = s.m.cpu.mode := by
  unfold IrState.alu
  dsimp only
  split
  · exact IrState.write_mode (s.mapCpu _) dst _
  · exact IrState.write_mode s dst _

lemma CpuField.set_mode (f : CpuField) (c : Cpu) (v : U64) : (f.set c v).mode = c.mode := by
  cases f <;> rfl

lemma mmuProbePa_cpu (P : Platform D) (s : Machine D) (va : U64) : (mmuProbePa P s va).2.cpu = s.cpu := by
  unfold mmuProbePa
  dsimp only
  split
  · rfl
  split
  · rfl
  · split <;> rfl

include hk in
lemma jitExec1_kept (hfp : ∀ c insn, CpuOps c (P.execFpsimd c insn)) {s : Machine D} {pc : U64} {insn : U32}
    (hok : isEret insn = true → E s.cpu) (hs : J s.cpu.mode) : J (jitExec1 P s pc insn).2.cpu.mode :=
  execA64_kept hk hfp (s.mapCpu (·.enterInsn pc)) (fun he => hk.fetched (hok he) _ _) hs

include hk in
lemma jitExec1Ic_kept (hfp : ∀ c insn, CpuOps c (P.execFpsimd c insn)) {s : Machine D} {pc : U64} {insn : U32}
    (hok : isEret insn = true → E s.cpu) (hs : J s.cpu.mode) : J (jitExec1Ic P s pc insn).2.cpu.mode := by
  have h : J (jitExec1 P s pc insn).2.cpu.mode := jitExec1_kept hk hfp hok hs
  have hp := mmuProbePa_cpu P (jitExec1 P s pc insn).2 ((jitExec1 P s pc insn).2.cpu.regX (bits insn 4 0))
  unfold jitExec1Ic
  dsimp only
  split
  · rename_i heq
    rw [heq] at hp
    exact hp ▸ h
  · rename_i heq
    rw [heq] at hp
    exact hp ▸ h

include hk in
lemma irSpCheck_kept {s : IrState D} (n : ℕ) (a : Vreg) (pc : U64) (hs : J s.m.cpu.mode) :
    J (irSpCheck n s a pc).machine.cpu.mode := by
  have hfault : J (spAlignFault (s.m.cpu.setCurInsnPc pc)).mode := hk.take _ _ _ _ hs
  unfold irSpCheck
  split
  · unfold jitSpCheck
    dsimp only
    by_cases hc : spCheckOn (s.m.mapCpu (·.setCurInsnPc pc)).cpu = true
    · rw [if_pos hc]
      exact hfault
    · rw [if_neg hc]
      exact hs
  · exact hs

lemma bind_kept {r : IrRes D} {f : IrState D → IrRes D} (h : J r.machine.cpu.mode)
    (hf : ∀ s : IrState D, J s.m.cpu.mode → J (f s).machine.cpu.mode) : J (IrRes.machine (r.bind f)).cpu.mode := by
  cases r with
  | error m => exact h
  | ok s => exact hf s h

lemma irHelper_kept (n : ℕ) (s : IrState D) {r : Bool × Machine D} (h : J r.2.cpu.mode) :
    J (irHelper n s r).machine.cpu.mode := by
  unfold irHelper
  split
  · exact h
  · exact h

include hk in
lemma irStep_kept (hfp : ∀ c insn, CpuOps c (P.execFpsimd c insn)) (hF : ∀ c v, CpuOps c (F.run c v)) {s : IrState D}
    {e : IrEnt} (hok : ReturnsCalled E s e) (hs : J s.m.cpu.mode) : J (irStep P F s e).machine.cpu.mode := by
  obtain ⟨op, n⟩ := e
  have hw (s' : IrState D) (h : J s'.m.cpu.mode) (v : Vreg) (x : U64) : J (s'.write v x).m.cpu.mode :=
    of_mode h (IrState.write_mode s' v x)
  have hjump (target : U64) : J (irJump n s target).machine.cpu.mode := hs
  unfold irStep
  split
  · cases op <;> first
      | exact hs
      | exact hw { s with skip := false } hs _ _
  rename_i hskip
  have hcall {pc : U64} {insn : U32} (h : op = .call1 pc insn ∨ op = .call1ic pc insn) (he : isEret insn = true) :
      E s.m.cpu := hok (by simpa using hskip) pc insn h he
  cases op with
  | alu op w dst a b => exact of_mode hs (IrState.alu_mode s op w dst _ _)
  | alui op w dst a imm => exact of_mode hs (IrState.alu_mode s op w dst _ _)
  | ccmpr | ccmpi => exact hs
  | ld dst a off szlog sign is64 pc =>
    refine bind_kept (irSpCheck_kept hk n a pc hs) fun s' hs' => ?_
    unfold jitLd
    rcases hr : memRead P (s'.m.mapCpu (·.setCurInsnPc pc)) (s'.read a + off) (2 ^ szlog) with ⟨_ | v, m⟩
    · have hm : J m.cpu.mode := hk.plain (Ops.memRead (.refl (s'.m.mapCpu (·.setCurInsnPc pc))) hr) hs'
      exact hm
    · have hm : J m.cpu.mode := hk.plain (Ops.memRead (.refl (s'.m.mapCpu (·.setCurInsnPc pc))) hr) hs'
      exact hw (s'.setM m) hm _ _
  | st a b off szlog pc =>
    refine bind_kept (irSpCheck_kept hk n a pc hs) fun s' hs' => irHelper_kept n s' ?_
    unfold jitSt
    rcases hr : memWrite P (s'.m.mapCpu (·.setCurInsnPc pc)) (s'.read a + off) (2 ^ szlog) (s'.read b) with ⟨_ | _, m⟩
    all_goals
      have hm : J m.cpu.mode := hk.plain (Ops.memWrite (.refl (s'.m.mapCpu (·.setCurInsnPc pc))) hr) hs'
      exact hm
  | ldv rt a off vszl pc =>
    refine bind_kept (irSpCheck_kept hk n a pc hs) fun s' hs' => irHelper_kept n s' ?_
    unfold jitLdv
    rcases hr : vregLoad P (s'.m.mapCpu (·.setCurInsnPc pc)) rt (s'.read a + off) (2 ^ vszl) with ⟨_ | _, m⟩
    all_goals
      have hm : J m.cpu.mode := hk.plain (Ops.vregLoad (.refl (s'.m.mapCpu (·.setCurInsnPc pc))) hr) hs'
      exact hm
  | stv rt a off vszl pc =>
    refine bind_kept (irSpCheck_kept hk n a pc hs) fun s' hs' => irHelper_kept n s' ?_
    unfold jitStv
    rcases hr : vregStore P (s'.m.mapCpu (·.setCurInsnPc pc)) rt (s'.read a + off) (2 ^ vszl) with ⟨_ | _, m⟩
    all_goals
      have hm : J m.cpu.mode := hk.plain (Ops.vregStore (.refl (s'.m.mapCpu (·.setCurInsnPc pc))) hr) hs'
      exact hm
  | jmp | jmpind => exact hs
  | bcond | cbz | tbz =>
    dsimp only
    split
    · exact hjump _
    · exact hs
  | call1 pc insn =>
    have h : J (jitExec1 P s.m pc insn).2.cpu.mode := jitExec1_kept hk hfp (hcall (.inl rfl)) hs
    dsimp only
    split
    · exact h
    · exact h
  | call1ic pc insn => exact jitExec1Ic_kept hk hfp (hcall (.inr rfl)) hs
  | cpust w f a => exact of_mode hs (CpuField.set_mode f _ _)
  | fence => exact hs
  | vop v => exact hk.ops (hF s.m.cpu v) hs
  | atomicExcl a pc => exact bind_kept (irSpCheck_kept hk n a pc hs) fun _ hs' => hs'
  | atomicCas => exact hs
  | atomicEndExcl dst => exact hw s hs _ _
  | _ => exact hw s hs _ _

/-- Every return that a run of the operations hands to the interpreter. -/
def ReturnsIn (E : Cpu → Prop) (P : Platform D) (F : FpJit) : List IrEnt → IrState D → Prop
  | [], _ => True
  | e :: es, s => ReturnsCalled E s e ∧ ∀ s', irStep P F s e = .ok s' → ReturnsIn E P F es s'

end Translator

section Moves
variable {P : Platform (Jitted D)} {F : FpJit} {H : JitHost} {J : Mode → Prop} {E : Cpu → Prop} (hk : ModeKept J E)
  (hfp : ∀ c insn, CpuOps c (P.execFpsimd c insn)) (hF : ∀ c v, CpuOps c (F.run c v))

include hk hfp hF in
lemma irLeave_kept {es : List IrEnt} {s : IrState (Jitted D)} (hok : ReturnsIn E P F es s) (hs : J s.m.cpu.mode) {op : IrOp}
    {m : JitMachine D} (h : irLeave P F es s = some (op, m)) : J m.cpu.mode := by
  induction es generalizing s with
  | nil => cases h
  | cons e es ih =>
    have hstep := irStep_kept hk hfp hF hok.1 hs
    unfold irLeave at h
    rcases hr : irStep P F s e with m' | s'
    · simp only [hr] at h hstep
      cases h
      exact hstep
    · simp only [hr] at h hstep
      exact ih (hok.2 s' hr) hstep h

def ReturnsEntered (E : Cpu → Prop) (P : Platform (Jitted D)) (F : FpJit) (m : JitMachine D) (i : ℕ) : Prop :=
  ¬(m.env.interrupt = true ∨ m.env.icountDeadline ≤ m.cpu.icount) → ReturnsIn E P F (m.env.arena i).ops (.start m)

include hk hfp hF in
lemma runBlock_kept {m : JitMachine D} {i : ℕ} (hok : ReturnsEntered E P F m i) (hs : J m.cpu.mode) :
    J (runBlock P F m i).2.cpu.mode := by
  by_cases hsafe : m.env.interrupt = true ∨ m.env.icountDeadline ≤ m.cpu.icount
  · rw [runBlock, if_pos hsafe]
    exact hs
  have hran := ran_runBlock (P := P) (F := F) m i
  generalize runBlock P F m i = r at hran
  have hleave {op : IrOp} {m' : JitMachine D} (h : irLeave P F (m.env.arena i).ops (.start m) = some (op, m')) :
      J m'.cpu.mode := irLeave_kept hk hfp hF (s := .start m) (hok hsafe) hs h
  cases hran with
  | safepoint h => exact absurd h hsafe
  | stuck => exact hs
  | direct h => exact hleave h
  | indirect h => exact hleave h
  | stub h => exact hleave h
  | out h => exact hleave h

include hk in
lemma feBlockLoop_kept (env : FeEnv) (left : ℕ) (ir : IrBlock) (n : ℕ) (p : U64) {m : JitMachine D} (hm : J m.cpu.mode) :
    J (feBlockLoop (memIfetch P) F env left ir n p m).2.cpu.mode := by
  induction left generalizing ir n p m with
  | zero => exact hm
  | succ left ih =>
    rcases hf : memIfetch P m p with ⟨_ | insn, t⟩
    · have ht := memIfetch_kept hk hf hm
      simp only [feBlockLoop, hf]
      split
      · exact ht
      · exact ht
    · have ht := memIfetch_kept hk hf hm
      simp only [feBlockLoop, hf]
      split_ifs
      · exact ht
      · exact ht
      · exact ih _ _ _ ht

lemma markCodePage_cpu (m : JitMachine D) (hp : HostPage) (pa : U64) : (markCodePage P m hp pa).cpu = m.cpu := by
  unfold markCodePage
  dsimp only
  split_ifs <;> rfl

include hk in
lemma jitTranslate_kept {pc tag : U64} {hp : HostPage} {pa : U64} (tries n : ℕ) {m : JitMachine D} (hm : J m.cpu.mode) :
    J (jitTranslate P F H pc tag hp pa tries n m).2.cpu.mode := by
  induction tries generalizing n m with
  | zero => exact hm
  | succ tries ih =>
    have hmake {m' : JitMachine D} (hm' : J m'.cpu.mode) : J (jitFeBlock P F m' pc n).2.cpu.mode := feBlockLoop_kept hk _ _ _ _ _ hm'
    have hflush : J (if jitMaxBlocks ≤ m.env.nblocks ∨ 2 * jitMaxBlocks < m.env.nedges + 2 ∨
        H.cacheSize - m.env.ptr < jitBlockMaxBytes then m.mapEnv (·.jitFlushAll H) else m).cpu.mode := by
      split
      · exact hm
      · exact hm
    have hfe := hmake hflush
    unfold jitTranslate
    dsimp only
    generalize jitFeBlock P F _ pc n = r at hfe
    obtain ⟨⟨ir, _ | k⟩, t⟩ := r
    · exact hfe
    · dsimp only
      split
      · split
        · exact ih _ hfe
        · exact hfe
      · exact (markCodePage_cpu (t.addBlock _) hp pa) ▸ hfe

include hk in
lemma resolveCodePage_kept {m : JitMachine D} (pc : U64) (hm : J m.cpu.mode) : J (resolveCodePage P m pc).2.cpu.mode := by
  unfold resolveCodePage
  split
  · exact hm
  · rcases hf : memIfetchSlow P (m.mapCpu (·.setCurInsnPc pc)) pc with ⟨_ | w, t⟩
    · exact memIfetchSlow_kept hk hf hm
    · have ht := memIfetchSlow_kept hk hf hm
      dsimp only
      split
      · exact ht
      · exact ht

lemma sync_cpu (l : JitLoop D) : (l.sync H).m.cpu = l.m.cpu := by
  unfold JitLoop.sync JitLoop.seeFlush
  dsimp only
  split_ifs <;> rfl

lemma enterBlock_cpu (l : JitLoop D) (pc tag : U64) (i : ℕ) : (l.enterBlock pc tag i).machine.cpu = l.m.cpu := by
  unfold JitLoop.enterBlock
  dsimp only
  split <;> rfl

/-- The machine on which a dispatch calls `cpu_step`: after a failed translation. -/
def JitLoop.dispatchSteps (P : Platform (Jitted D)) (F : FpJit) (H : JitHost) (l : JitLoop D) (pc : U64)
    (hostPage : HostPage) (paPage : U64) : Option (JitMachine D) :=
  let ctx := jitCtx l.m.cpu
  let tag := jitTag pc ctx
  let m := l.m.mapEnv fun env => { env with ctx := ctx, dtlbCtxgen := dtlbCtxgenOf l.m.bus.tlbGen ctx }
  match m.env.jitLookup tag hostPage with
  | some _ => none
  | none =>
    match jitTranslate P F H pc tag hostPage paPage jitMaxBlockInsns jitMaxBlockInsns m with
    | (some _, _) => none
    | (none, m) => if !m.env.on then some m else none

/-- The machine on which the head of the loop calls `cpu_step`. -/
def headSteps (P : Platform (Jitted D)) (F : FpJit) (H : JitHost) (l : JitLoop D) : Option (JitMachine D) :=
  if l.m.cpu.stop || l.m.cpu.halted || l.deadline ≤ l.m.cpu.icount then none
  else if irqPending l.m || fiqPending l.m then none
  else if l.m.env.interrupt then none
  else
    let l := l.sync H
    let pc := l.m.cpu.pc
    match resolveCodePage P l.m pc with
    | (.abort, _) => none
    | (.mmio, m) => some m
    | (.host hostPage paPage, m) =>
      if m.env.thrashHot paPage then none else JitLoop.dispatchSteps P F H { l with m := m } pc hostPage paPage

include hk hfp in
lemma dispatch_kept {l : JitLoop D} {pc : U64} {hp : HostPage} {pa : U64}
    (hok : ∀ m, l.dispatchSteps P F H pc hp pa = some m → ReturnsNext E P m) (hs : J l.m.cpu.mode) :
    J (JitLoop.dispatch P F H l pc hp pa).machine.cpu.mode := by
  unfold JitLoop.dispatchSteps at hok
  unfold JitLoop.dispatch
  dsimp only at hok ⊢
  split
  · rw [enterBlock_cpu]
    exact hs
  · rename_i hlook
    simp only [hlook] at hok
    have ht : J (jitTranslate P F H pc (jitTag pc (jitCtx l.m.cpu)) hp pa jitMaxBlockInsns jitMaxBlockInsns
        (l.m.mapEnv fun env => { env with
          ctx := jitCtx l.m.cpu, dtlbCtxgen := dtlbCtxgenOf l.m.bus.tlbGen (jitCtx l.m.cpu) })).2.cpu.mode :=
      jitTranslate_kept hk jitMaxBlockInsns jitMaxBlockInsns hs
    split
    · rename_i htr
      rw [htr] at ht
      rw [enterBlock_cpu, (seeFlush_m _).1]
      exact ht
    · rename_i m htr
      rw [htr] at ht
      simp only [htr] at hok
      split
      · rename_i hon
        exact cpuStep_kept hk hfp (hok m (if_pos hon)) ht
      · show J (JitLoop.seeFlush _).m.cpu.mode
        rw [(seeFlush_m _).1]
        exact ht

include hk hfp in
lemma jitHead_kept {l : JitLoop D} (hok : ∀ m, headSteps P F H l = some m → ReturnsNext E P m) (hs : J l.m.cpu.mode) :
    J (jitHead P F H l).machine.cpu.mode := by
  unfold headSteps at hok
  unfold jitHead
  split
  · exact hs
  rename_i h₁
  rw [if_neg h₁] at hok
  split
  · exact hs
  rename_i h₂
  rw [if_neg h₂] at hok
  split
  · exact hs
  rename_i h₃
  rw [if_neg h₃] at hok
  have hsync : J (l.sync H).m.cpu.mode := by
    rw [sync_cpu l]
    exact hs
  have hres := resolveCodePage_kept hk (P := P) (l.sync H).m.cpu.pc hsync
  dsimp only at hok ⊢
  generalize resolveCodePage P (l.sync H).m (l.sync H).m.cpu.pc = r at hres hok
  obtain ⟨_ | _ | ⟨hp, pa⟩, m⟩ := r
  · exact hres
  · exact cpuStep_kept hk hfp (hok m rfl) hres
  · dsimp only at hok ⊢
    split
    · exact hres
    · rename_i hhot
      rw [if_neg hhot] at hok
      exact dispatch_kept hk hfp hok hres

def ReturnsMoved (E : Cpu → Prop) (P : Platform (Jitted D)) (F : FpJit) (H : JitHost) : JitPhase D → Prop
  | .head l => ∀ m, headSteps P F H l = some m → ReturnsNext E P m
  | .interp l _ => ReturnsNext E P l.m
  | .enter l i => ReturnsEntered E P F l.m i
  | .done _ _ => True

include hk hfp hF in
lemma jitMove_kept {p : JitPhase D} (hok : ReturnsMoved E P F H p) (hs : J p.machine.cpu.mode) :
    J (jitMove P F H p).machine.cpu.mode := by
  cases p with
  | head l => exact jitHead_kept hk hfp hok hs
  | interp l page =>
    have h := cpuStep_kept hk hfp hok hs
    show J (jitInterp P l page).machine.cpu.mode
    unfold jitInterp
    dsimp only
    split
    · exact h
    · exact h
  | enter l i =>
    have h := runBlock_kept hk hfp hF hok hs
    show J (jitEnter P F l i).machine.cpu.mode
    unfold jitEnter
    generalize runBlock P F l.m i = r at h
    obtain ⟨_ | _, m⟩ := r
    · exact h
    · exact h
  | done => exact hs

include hk hfp in
lemma jitStart_kept {m : JitMachine D} (slice maxInsn : U64) (hok : ReturnsNext E P m) (hs : J m.cpu.mode) :
    J (jitStart P m slice maxInsn).machine.cpu.mode := by
  unfold jitStart
  split
  · exact hs
  split
  · exact hk.take _ _ _ _ hs
  split
  · exact hk.take _ _ _ _ hs
  split
  · exact hs
  split
  · exact cpuStep_kept hk hfp hok hs
  · exact hs

end Moves

/-- The three engines: the interpreter, the predecoded tier with its cache of entries, and
the translator at a phase of its loop. -/
inductive Engine (D : Type)
  | interpreter (m : JitMachine D)
  | predecoded (m : JitMachine D) (cache : PdCache)
  | translator (p : JitPhase D)

namespace Engine

def machine : Engine D → JitMachine D
  | interpreter m => m
  | predecoded m _ => m
  | translator p => p.machine

def next (P : Platform (Jitted D)) (F : FpJit) (H : JitHost) : Engine D → Engine D
  | interpreter m => interpreter (cpuStep P m).2
  | predecoded m cache => predecoded (pdNext P m cache).1 (pdNext P m cache).2
  | translator p => translator (jitMove P F H p)

/-- Every return of the next move is from a state with `E`. -/
def Returns (E : Cpu → Prop) (P : Platform (Jitted D)) (F : FpJit) (H : JitHost) : Engine D → Prop
  | interpreter m => ReturnsNext E P m
  | predecoded m _ => ReturnsNext E P m
  | translator p => ReturnsMoved E P F H p

end Engine

/-- What the engines reach from a reset at level `el`, with every exception return from a
state with `E`. Between two moves of any of them the run loop and the devices act, and
another engine, in any phase and with any code, may go on. -/
inductive EngineRun (E : Cpu → Prop) (el : Fin 4) (P : Platform (Jitted D)) (F : FpJit) (H : JitHost) : Engine D → Prop
  | reset (entry : U64) {e : Engine D} : e.machine.cpu = cpuReset entry el → EngineRun E el P F H e
  | next {e : Engine D} : EngineRun E el P F H e → e.Returns E P F H → EngineRun E el P F H (e.next P F H)
  | call {r : StepResult} {m : JitMachine D} (slice maxInsn : U64) : EngineRun E el P F H (.translator (.done r m)) →
      ReturnsNext E P m → EngineRun E el P F H (.translator (jitStart P m slice maxInsn))
  | host {e e' : Engine D} (skip base : U64) (halted : Bool) : EngineRun E el P F H e →
      e'.machine.cpu = e.machine.cpu.hosted skip base halted → EngineRun E el P F H e'

section Runs
variable {J : Mode → Prop} {E : Cpu → Prop} {P : Platform (Jitted D)} {F : FpJit} {H : JitHost}
  (hk : ModeKept J E) (hfp : ∀ c insn, CpuOps c (P.execFpsimd c insn)) (hF : ∀ c v, CpuOps c (F.run c v))
include hk hfp hF

lemma Engine.next_kept {e : Engine D} (hok : e.Returns E P F H) (h : J e.machine.cpu.mode) :
    J (e.next P F H).machine.cpu.mode := by
  cases e with
  | interpreter m => exact cpuStep_kept hk hfp hok h
  | predecoded m cache => exact pdNext_kept hk hfp cache hok h
  | translator p => exact jitMove_kept hk hfp hF hok h

lemma EngineRun.kept {el : Fin 4} {e : Engine D} (hreset : ∀ entry, J (cpuReset entry el).mode) (h : EngineRun E el P F H e) :
    J e.machine.cpu.mode := by
  induction h with
  | reset entry he =>
    rw [he]
    exact hreset entry
  | next _ hok ih => exact Engine.next_kept hk hfp hF hok ih
  | call slice maxInsn _ hok ih => exact jitStart_kept hk hfp slice maxInsn hok ih
  | host skip base halted _ he ih =>
    rw [he]
    exact ih

end Runs

end Arm64Emu
