import Arm64Emu.CacheSteps
import Arm64Emu.IrActs
import Arm64Emu.JitStep
import Arm64Emu.JitTable

/-! What instructions do to the translator: while guest code runs, in the interpreter or
natively, the translator's state only changes by the invalidation of pages. -/
namespace Arm64Emu

variable {D : Type}

/-- What happens to the machine while an engine runs: the actions of instructions,
changes of the processor, and reports of writes to the translator. -/
inductive Deed (P : Platform D) : Machine D → Machine D → Prop
  | act {s t : Machine D} : Act P s t → Deed P s t
  | cpu (s : Machine D) (c : Cpu) : Deed P s { s with cpu := c }
  | hook (s : Machine D) (pa len : U64) :
      Deed P s { s with bus := { s.bus with dev := P.jitInvalidate s.bus.dev pa len } }

/-- The machine with which an operation goes on or leaves the block. -/
def IrRes.machine : IrRes D → Machine D
  | .ok s => s.m
  | .error m => m

def Deeds (P : Platform D) : Machine D → Machine D → Prop := Relation.ReflTransGen (Deed P)

namespace Deeds
variable {P : Platform D} {F : FpJit} {s t u : Machine D}

lemma refl (s : Machine D) : Deeds P s s := Relation.ReflTransGen.refl

lemma trans (h : Deeds P s t) (h' : Deeds P t u) : Deeds P s u := Relation.ReflTransGen.trans h h'

lemma tail (h : Deeds P s t) (h' : Deed P t u) : Deeds P s u := Relation.ReflTransGen.tail h h'

lemma of_acts (h : Acts P s t) : Deeds P s t :=
  h.invariant (I := fun t => Deeds P s t) (fun _ _ hstep ht => ht.tail (.act hstep)) (.refl s)

lemma cpu (h : Deeds P s t) (c : Cpu) : Deeds P s { t with cpu := c } := h.tail (.cpu t c)

lemma acts (h : Deeds P s t) (h' : Acts P t u) : Deeds P s u := h.trans (.of_acts h')

lemma invariant {I : Machine D → Prop} (hI : ∀ s t, Deed P s t → I s → I t) (h : Deeds P s t) (hs : I s) : I t := by
  induction h with
  | refl => exact hs
  | tail _ hstep ih => exact hI _ _ hstep ih

section Engines
variable (hfp : ∀ c insn, (P.execFpsimd c insn).held = c.held)
include hfp

lemma execA64 (s : Machine D) (insn : U32) : Deeds P s (execA64 P s insn) := by
  by_cases hh : inHintSpace insn = true
  · rw [execA64_hint s hh]
    exact (refl s).cpu _
  · exact .of_acts (acts_execA64 hfp s (Bool.not_eq_true _ ▸ hh))

lemma cpuStep (s : Machine D) : Deeds P s (cpuStep P s).2 := by
  unfold Arm64Emu.cpuStep
  split_ifs
  · exact .refl s
  · exact (refl s).cpu _
  · exact (refl s).cpu _
  · exact .refl s
  have hb : Deeds P s (s.mapCpu Cpu.beginInsn) := (refl s).cpu _
  rcases hf : memIfetch P (s.mapCpu Cpu.beginInsn) (s.mapCpu Cpu.beginInsn).cpu.pc with ⟨_ | insn, t⟩
  · simp only [hf]
    exact hb.acts (Acts.memIfetch (.refl _) hf)
  · have ht := hb.acts (Acts.memIfetch (.refl _) hf)
    simp only [hf]
    exact ((ht.cpu _).trans (execA64 hfp _ insn)).cpu _

lemma jitExec1 (s : Machine D) (pc : U64) (insn : U32) : Deeds P s (jitExec1 P s pc insn).2 :=
  (((refl s).cpu _).trans (execA64 hfp _ insn)).cpu _

lemma jitExec1Ic (s : Machine D) (pc : U64) (insn : U32) : Deeds P s (jitExec1Ic P s pc insn).2 := by
  have h := jitExec1 hfp s pc insn
  have hprobe (t : Machine D) (va : U64) : Deeds P t (mmuProbePa P t va).2 := by
    have hw : Deeds P t ⟨t.cpu, (walk P t.cpu t.bus va).2⟩ := .of_acts (.tail (.refl t) (.walk t va))
    unfold mmuProbePa
    dsimp only
    split_ifs
    · exact .refl t
    · exact .refl t
    · generalize walk P t.cpu t.bus va = r at hw
      obtain ⟨_ | _, b⟩ := r
      · exact hw
      · exact hw
  unfold Arm64Emu.jitExec1Ic
  dsimp only
  have hp := h.trans (hprobe (Arm64Emu.jitExec1 P s pc insn).2 ((Arm64Emu.jitExec1 P s pc insn).2.cpu.regX (bits insn 4 0)))
  split
  · rename_i t heq
    rw [heq] at hp
    exact hp
  · rename_i pa t heq
    rw [heq] at hp
    exact hp.tail (.hook t pa 1)

lemma irStep (s : IrState D) (e : IrEnt) : Deeds P s.m (irStep P F s e).machine := by
  obtain ⟨op, n⟩ := e
  by_cases hp : op.plain = true
  · have hg := irStep_plain (P := P) (F := F) (s := s) (n := n) hp
    generalize Arm64Emu.irStep P F s ⟨op, n⟩ = r at hg
    cases hg with
    | on ha => exact .of_acts ha
    | fault ha => exact (of_acts ha).cpu _
  have hwrite (s' : IrState D) (h : Deeds P s.m s'.m) (v : Vreg) (x : U64) : Deeds P s.m (s'.write v x).m := by
    cases v
    · exact h.cpu _
    · exact h
    · exact h
  unfold Arm64Emu.irStep
  split
  · cases op <;> try exact absurd rfl hp
    all_goals first
      | exact .refl s.m
      | exact hwrite { s with skip := false } (.refl s.m) _ _
      | exact (hwrite { s with skip := false } (.refl s.m) _ _).cpu _
  · cases op <;> try exact absurd rfl hp
    case call1 pc insn =>
      have h := jitExec1 hfp s.m pc insn
      dsimp only
      split
      · exact h.cpu _
      · exact h
    case call1ic pc insn => exact (jitExec1Ic hfp s.m pc insn).cpu _
    case atomicExcl a pc =>
      have hg := goes_spCheck (P := P) (s := s) (n := n) a pc
      dsimp only
      generalize irSpCheck n s a pc = r at hg
      cases hg with
      | on ha => exact .of_acts ha
      | fault ha => exact (of_acts ha).cpu _
    case atomicEndExcl dst => exact (hwrite s (.refl s.m) _ _).cpu _
    all_goals
      dsimp only
      first
      | exact hwrite s (.refl s.m) _ _
      | exact (refl s.m).cpu _
      | exact .refl s.m
      | (split
         · exact (refl s.m).cpu _
         · exact .refl s.m)

end Engines

section Jit
variable {P : Platform (Jitted D)}

lemma irLeave (hfp : ∀ c insn, (P.execFpsimd c insn).held = c.held)
    (es : List IrEnt) (s : IrState (Jitted D)) {op : IrOp} {m : JitMachine D}
    (h : irLeave P F es s = some (op, m)) : Deeds P s.m m := by
  induction es generalizing s with
  | nil => cases h
  | cons e es ih =>
    have hstep := irStep (F := F) hfp s e
    unfold Arm64Emu.irLeave at h
    rcases hr : Arm64Emu.irStep P F s e with m' | s'
    · simp only [hr] at h hstep
      cases h
      exact hstep
    · simp only [hr] at h hstep
      exact hstep.trans (ih s' h)

lemma resolveCodePage (m : JitMachine D) (pc : U64) :
    Deeds P m (resolveCodePage P m pc).2 := by
  have hslow : Deeds P m (memIfetchSlow P (m.mapCpu (·.setCurInsnPc pc)) pc).2 :=
    ((refl m).cpu _).tail (.act (.fetch _ pc))
  unfold Arm64Emu.resolveCodePage
  split
  · exact .refl m
  · generalize memIfetchSlow P (m.mapCpu (·.setCurInsnPc pc)) pc = r at hslow
    obtain ⟨_ | _, t⟩ := r
    · exact hslow
    · dsimp only
      split
      · exact hslow
      · exact hslow

end Jit

end Deeds

/-- The translator's state after writes to some pages have been reported to it. -/
def Invals (isRam : U64 → Bool) : JitEnv → JitEnv → Prop :=
  Relation.ReflTransGen fun env env' => ∃ a, env' = env.invalidatePage (isRam (pageOf a)) (pageOf a)

namespace Invals
variable {isRam : U64 → Bool} {env env' env'' : JitEnv}

lemma refl (env : JitEnv) : Invals isRam env env := Relation.ReflTransGen.refl

lemma trans (h : Invals isRam env env') (h' : Invals isRam env' env'') : Invals isRam env env'' :=
  Relation.ReflTransGen.trans h h'

lemma page (env : JitEnv) (a : U64) : Invals isRam env (env.invalidatePage (isRam (pageOf a)) (pageOf a)) :=
  Relation.ReflTransGen.single ⟨a, rfl⟩

lemma invariant {I : JitEnv → Prop}
    (hI : ∀ env a, I env → I (env.invalidatePage (isRam (pageOf a)) (pageOf a)))
    (h : Invals isRam env env') (hs : I env) : I env' := by
  induction h with
  | refl => exact hs
  | tail _ hstep ih =>
    obtain ⟨a, rfl⟩ := hstep
    exact hI _ a ih

lemma physRange (env : JitEnv) (pa len : U64) : Invals isRam env (jitInvalidatePhysRange isRam env pa len) := by
  unfold jitInvalidatePhysRange
  dsimp only
  split_ifs with hskip
  · exact .refl env
  · clear hskip
    generalize List.range _ = l
    induction l generalizing env with
    | nil => exact .refl env
    | cons i l ih =>
      refine trans ?_ (ih _)
      have h : Invals isRam env _ := page env (pageOf pa + (zext i <<< 12))
      rw [pageOf_add_page] at h
      exact h

lemma tables (h : Invals isRam env env') (ht : env.Tables) : env'.Tables :=
  h.invariant (fun _ a ht => ht.invalidatePage _ (pageOf a)) ht

lemma shrinks (h : Invals isRam env env') (ht : env.Tables) : env.Shrinks env' := by
  have hI : env'.Tables ∧ env.Shrinks env' := by
    refine h.invariant (I := fun e => e.Tables ∧ env.Shrinks e) (fun e a he => ?_) ⟨ht, .refl env⟩
    exact ⟨he.1.invalidatePage _ _, he.2.trans (JitEnv.shrinks_invalidatePage he.1.toChains _ (pageOf a))⟩
  exact hI.2

end Invals

/-- The bus after something that keeps away from the translation caches and reaches the
translator only by reporting writes. -/
def TameRel (P : Platform (Jitted D)) (b b' : Bus (Jitted D)) : Prop :=
  b'.caches = b.caches ∧ Invals (ramPage P) b.dev.env b'.dev.env

/-- What is assumed of the code that is not modelled: devices, the host clock and the
timer lines keep to `TameRel`, and the floating-point unit to its registers. -/
structure Platform.Tame (P : Platform (Jitted D)) : Prop where
  read {d : MmioDev (Jitted D)} (hd : d ∈ P.devs) {f} (hf : d.read = some f) (b off n) : TameRel P b (f b off n).2
  write {d : MmioDev (Jitted D)} (hd : d ∈ P.devs) {f} (hf : d.write = some f) (b off n v) : TameRel P b (f b off n v)
  clock (b : Bus (Jitted D)) : TameRel P b { b with dev := (P.hostNs b.dev).2 }
  timer (b : Bus (Jitted D)) (phys virt deadline) : TameRel P b (P.timerLines b phys virt deadline)
  fp (c : Cpu) (insn : U32) : (P.execFpsimd c insn).held = c.held

section Tame
variable {P : Platform (Jitted D)} (hP : P.Tame)
include hP

lemma Platform.Tame.busRel : BusRel P.jit (TameRel P) where
  refl _ := ⟨rfl, .refl _⟩
  trans h h' := ⟨h'.1.trans h.1, h.2.trans h'.2⟩
  mem _ _ _ _ _ := ⟨rfl, .refl _⟩
  hook _ pa len := ⟨rfl, .physRange _ pa len⟩
  read hd _ hf b off n := hP.read hd hf b off n
  write hd _ hf b off n v := hP.write hd hf b off n v
  clock b := hP.clock b
  timer b phys virt deadline := hP.timer b phys virt deadline

lemma Platform.Tame.devRel : FillRel P.jit fun b b' => Invals (ramPage P) b.dev.env b'.dev.env where
  fill _ _ _ _ _ _ := .refl _
  refl _ := .refl _
  trans h h' := h.trans h'
  mem _ _ _ _ _ := .refl _
  hook _ pa len := .physRange _ pa len
  read hd _ hf b off n := (hP.read hd hf b off n).2
  write hd _ hf b off n v := (hP.write hd hf b off n v).2
  clock b := (hP.clock b).2
  timer b phys virt deadline := (hP.timer b phys virt deadline).2

lemma deeds_env {s t : JitMachine D} (h : Deeds P.jit s t) : Invals (ramPage P) s.env t.env := by
  refine h.invariant (I := fun t => Invals (ramPage P) s.env t.env) (fun t u hstep ht => ht.trans ?_) (.refl s.env)
  cases hstep with
  | act ha => exact ha.dev (S := fun d d' => Invals (ramPage P) d.env d'.env) hP.devRel
  | cpu c => exact .refl t.env
  | hook pa len => exact .physRange t.env pa len

lemma deeds_bus {I : Bus (Jitted D) → Prop} (hI : ∀ s t, CacheStep P.jit (TameRel P) s t → I s.bus → I t.bus)
    {s t : JitMachine D} (h : Deeds P.jit s t) (hs : I s.bus) : I t.bus := by
  refine h.invariant (I := fun t => I t.bus) (fun t u hstep ht => ?_) hs
  cases hstep with
  | act ha => exact (ha.cacheSteps hP.busRel fun _ _ h => h.1).invariant (I := fun t => I t.bus) hI ht
  | cpu c => exact ht
  | hook pa len => exact hI t _ (.bus t (hP.busRel.hook t.bus pa len)) ht

end Tame

def Platform.bareJit (ramSize : U64) : Platform (Jitted Unit) where
  ramSize := ramSize
  devs := []
  jitCode := fun _ _ => false
  jitInvalidate := fun d _ _ => d
  execFpsimd := fun c _ => undefined c
  rtclock := false
  hostNs := fun d => (0, d)
  timerLines := fun b _ _ _ => b

lemma Platform.tame_bareJit (ramSize : U64) : (Platform.bareJit ramSize).Tame where
  read hd := absurd hd List.not_mem_nil
  write hd := absurd hd List.not_mem_nil
  clock _ := ⟨rfl, .refl _⟩
  timer _ _ _ _ := ⟨rfl, .refl _⟩
  fp _ _ := rfl

end Arm64Emu
