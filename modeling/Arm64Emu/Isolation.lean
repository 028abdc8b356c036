import Arm64Emu.BusRel
import Arm64Emu.CpuStep

/-! EL0 and the state that belongs to EL1. The decoder of system instructions does not
test the exception level, so the state is safe from a word exactly when the word does not
name it. -/
namespace Arm64Emu

variable {D : Type}

structure El1State where
  sctlr : U64
  ttbr0 : U64
  ttbr1 : U64
  tcr : U64
  mair : U64
  vbar : U64
  elr : U64
  spsr : U64
  esr : U64
  far : U64
  cpacr : U64
  tpidr : U64
  sp : U64
  spSel : Bool
  daif : U32
  cntfrq : U64
  tpidrro : U64

def Cpu.el1State (c : Cpu) : El1State where
  sctlr := c.sctlr 1
  ttbr0 := c.ttbr0 1
  ttbr1 := c.ttbr1 1
  tcr := c.tcr 1
  mair := c.mair 1
  vbar := c.vbar 1
  elr := c.elr 1
  spsr := c.spsr 1
  esr := c.esr 1
  far := c.far 1
  cpacr := c.cpacrEl1
  tpidr := c.tpidr 1
  sp := c.spEl 1
  spSel := c.spSel
  daif := c.daif
  cntfrq := c.cntfrq
  tpidrro := c.tpidrroEl0

def Machine.el1State (s : Machine D) : El1State × U32 := (s.cpu.el1State, s.bus.tlbGen)

/-- The system registers that hold this state: `SCTLR_EL1`, `TTBR0_EL1`, `TTBR1_EL1`,
`TCR_EL1`, `MAIR_EL1`, `VBAR_EL1`, `ELR_EL1`, `SPSR_EL1`, `ESR_EL1`, `FAR_EL1`,
`CPACR_EL1`, `TPIDR_EL1`, `SP_EL1`, `SPSel`, `DAIF`, `CNTFRQ_EL0`, `TPIDRRO_EL0`. -/
def el1Keys : List ℕ :=
  [sysKey 3 0 1 0 0, sysKey 3 0 2 0 0, sysKey 3 0 2 0 1, sysKey 3 0 2 0 2, sysKey 3 0 10 2 0, sysKey 3 0 12 0 0,
    sysKey 3 0 4 0 1, sysKey 3 0 4 0 0, sysKey 3 0 5 2 0, sysKey 3 0 6 0 0, sysKey 3 0 1 0 2, sysKey 3 0 13 0 4,
    sysKey 3 4 4 1 0, sysKey 3 0 4 2 0, sysKey 3 3 4 2 1, sysKey 3 3 14 0 0, sysKey 3 3 13 0 3]

/-- The word is an `ERET`, an `MSR` of `SPSel` or `DAIF` with an immediate, a TLB
invalidation, or an `MSR` or `MRS` of one of these registers. -/
def AccessesEl1 (insn : U32) : Prop :=
  isEret insn = true ∨ isSysreg insn = true ∧
    (bits insn 20 19 = 0 ∧ Ops.writesPstate insn ∨
      bits insn 20 19 = 1 ∧ bit insn 21 = false ∧ bits insn 15 12 = 8 ∨
      2 ≤ bits insn 20 19 ∧ sysregKey insn ∈ el1Keys)

/-- What is assumed of the code that is not modelled: devices, the host clock and the
timer lines leave the generation of the TLBs alone, and the floating-point unit keeps to
what any instruction may do to the processor. -/
structure Platform.Orderly (P : Platform D) : Prop where
  read {d : MmioDev D} (hd : d ∈ P.devs) {f} (hf : d.read = some f) (b off n) : (f b off n).2.tlbGen = b.tlbGen
  write {d : MmioDev D} (hd : d ∈ P.devs) {f} (hf : d.write = some f) (b off n v) : (f b off n v).tlbGen = b.tlbGen
  timer (b : Bus D) (phys virt deadline) : (P.timerLines b phys virt deadline).tlbGen = b.tlbGen
  fp (c : Cpu) (insn : U32) : CpuOps c (P.execFpsimd c insn)

lemma Platform.Orderly.genRel {P : Platform D} (hP : P.Orderly) : FillRel P fun b b' => b'.tlbGen = b.tlbGen where
  refl _ := rfl
  trans h h' := h'.trans h
  mem _ _ _ _ _ := rfl
  hook _ _ _ := rfl
  read hd _ hf b off n := hP.read hd hf b off n
  write hd _ hf b off n v := hP.write hd hf b off n v
  clock _ := rfl
  timer b phys virt deadline := hP.timer b phys virt deadline
  fill _ _ _ _ _ _ := rfl

lemma Platform.orderly_bare (ramSize : U64) : (Platform.bare ramSize).Orderly where
  read hd := absurd hd List.not_mem_nil
  write hd := absurd hd List.not_mem_nil
  timer _ _ _ _ := rfl
  fp c _ := cpuOps_undefined c

/-- Whatever ends at EL0 began there and left the state of EL1 as it was. -/
def Cpu.El0Keeps (c d : Cpu) : Prop := d.el = 0 → c.el = 0 ∧ d.el1State = c.el1State

def Machine.El0Keeps (s t : Machine D) : Prop := t.cpu.el = 0 → s.cpu.el = 0 ∧ t.el1State = s.el1State

section Keeps

lemma Cpu.El0Keeps.refl (c : Cpu) : c.El0Keeps c := fun h => ⟨h, rfl⟩

lemma Cpu.El0Keeps.trans {c d e : Cpu} (h : c.El0Keeps d) (h' : d.El0Keeps e) : c.El0Keeps e := by
  intro he
  obtain ⟨hd, hde⟩ := h' he
  obtain ⟨hc, hcd⟩ := h hd
  exact ⟨hc, hde.trans hcd⟩

lemma Cpu.El0Keeps.of_entered {c d : Cpu} (h : d.Entered) : c.El0Keeps d := fun h0 => absurd h0 h.el_ne_zero

lemma Cpu.El0Keeps.of_eq {c d : Cpu} (hel : d.el = c.el) (hst : d.el1State = c.el1State) : c.El0Keeps d :=
  fun h0 => ⟨hel ▸ h0, hst⟩

lemma Machine.El0Keeps.refl (s : Machine D) : s.El0Keeps s := fun h => ⟨h, rfl⟩

lemma Machine.El0Keeps.trans {s t u : Machine D} (h : s.El0Keeps t) (h' : t.El0Keeps u) : s.El0Keeps u := by
  intro hu
  obtain ⟨ht, htu⟩ := h' hu
  obtain ⟨hs, hst⟩ := h ht
  exact ⟨hs, htu.trans hst⟩

lemma Machine.El0Keeps.mk {s t : Machine D} (hc : s.cpu.El0Keeps t.cpu) (hb : t.bus.tlbGen = s.bus.tlbGen) :
    s.El0Keeps t :=
  fun h0 => ⟨(hc h0).1, Prod.ext (hc h0).2 hb⟩

lemma Cpu.setGpr_el1State (c : Cpu) (n : ℕ) (v : U64) : (c.setGpr n v).el1State = c.el1State := by
  unfold Cpu.setGpr
  split <;> rfl

lemma Cpu.setSp_el0Keeps (c : Cpu) (v : U64) : c.El0Keeps (c.setSp v) := by
  intro h0
  have hel : c.el = 0 := h0
  have hsp : c.curSp = 0 := by
    unfold Cpu.curSp
    split
    · exact hel
    · rfl
  refine ⟨hel, ?_⟩
  have : (c.setSp v).spEl 1 = c.spEl 1 := by
    simp [Cpu.setSp, hsp]
  simp only [Cpu.el1State, this]
  rfl

lemma CpuOp.el0Keeps {c d : Cpu} (h : CpuOp c d) : c.El0Keeps d := by
  cases h with
  | gpr n v => exact .of_eq (Cpu.setGpr_el c n v) (Cpu.setGpr_el1State c n v)
  | sp v => exact c.setSp_el0Keeps v
  | vreg | nzcv | pc | fpsr | noExcl => exact .of_eq rfl rfl
  | take kind esr far ret => exact .of_entered ⟨_, _, _, _, _, rfl⟩

lemma msrCpu_el (c : Cpu) (key : ℕ) (v : U64) : (msrCpu c key v).el = c.el := by
  unfold msrCpu
  repeat' apply ite_view (f := Cpu.el)
  all_goals rfl

lemma msrCpu_el1State (c : Cpu) {key : ℕ} (hk : key ∉ el1Keys) (v : U64) :
    (msrCpu c key v).el1State = c.el1State := by
  simp only [el1Keys, List.mem_cons, List.not_mem_nil, or_false, not_or] at hk
  simp only [msrCpu, hk, if_false]
  repeat' apply ite_view (f := Cpu.el1State)
  all_goals rfl

lemma smcccConduit_el (c : Cpu) : (smcccConduit c).el = c.el := by
  simp only [smcccConduit, apply_ite Cpu.el, Cpu.setGpr_el]
  split_ifs <;> rfl

lemma hint_el0Keeps (c : Cpu) (insn : U32) : c.El0Keeps (hint c insn) := by
  refine .of_eq ?_ ?_ <;>
  · unfold hint
    dsimp only
    split_ifs <;> rfl

end Keeps

section Ops
variable {P : Platform D} {A : Scope} {s t : Machine D}

/-- A change of the processor keeps the state of EL1, unless the word may return from an
exception, change `SPSel` or `DAIF` or write one of the registers. -/
lemma CpuChange.el0Keeps (heret : ¬A.eret) (hpstate : ¬A.pstate) (hmsr : ∀ key, A.msr key → key ∉ el1Keys)
    {c d : Cpu} (h : CpuChange A c d) : c.El0Keeps d := by
  cases h with
  | op hc => exact hc.el0Keeps
  | hint insn => exact hint_el0Keeps c insn
  | conduit _ hel => exact fun h0 => absurd ((smcccConduit_el c).symm.trans h0) hel
  | eret h => exact absurd h heret
  | pstate _ _ h => exact absurd h hpstate
  | msr v hA => exact .of_eq (msrCpu_el c _ v) (msrCpu_el1State c (hmsr _ hA) v)
  | unpriv | excl | stop | cval | par | clock => exact .of_eq rfl rfl

lemma Op.tlbGen (hP : P.Orderly) (htlbi : ¬A.tlbi) (hmsr : ∀ key, A.msr key → msrFlushes key = false)
    (h : Op P A s t) : t.bus.tlbGen = s.bus.tlbGen := by
  cases h with
  | read va n => exact hP.genRel.memReadPage s va n
  | write va n v => exact hP.genRel.memWritePage s va n v
  | flushAll h => exact absurd h htlbi
  | flushPage _ h => exact absurd h htlbi
  | regime v hA hk => exact absurd hk (by simp [hmsr _ hA])
  | walk va => exact hP.genRel.walk s.cpu s.bus va
  | clock virt => exact hP.genRel.gtCount s virt
  | timer phys virt deadline => exact hP.timer s.bus phys virt deadline
  | cpu | ramWrite | unpriv | excl | hint | conduit | stop | eret | pstate | msr | cval | par | fp => rfl

lemma msrFlushes_of_not_mem {key : ℕ} (hk : key ∉ el1Keys) : msrFlushes key = false := by
  simp only [el1Keys, List.mem_cons, List.not_mem_nil, or_false, not_or] at hk
  simp [msrFlushes, hk]

lemma execA64_el0Keeps (hP : P.Orderly) (s : Machine D) {insn : U32} (h : ¬AccessesEl1 insn) :
    s.El0Keeps (execA64 P s insn) := by
  simp only [AccessesEl1, not_or, not_and] at h
  obtain ⟨heret, hsys⟩ := h
  have hmsr (key : ℕ) (hk : (scopeOf insn).msr key) : key ∉ el1Keys := by
    rw [hk.2.2.2]
    exact (hsys hk.1).2.2 hk.2.1
  refine .mk ?_ ?_
  · refine (changes_execA64 hP.fp s insn).rel Cpu.El0Keeps.refl (fun _ _ _ => Cpu.El0Keeps.trans) fun _ _ =>
      CpuChange.el0Keeps heret (fun hp => ?_) hmsr
    exact (hsys hp.1).1 hp.2.1 hp.2.2
  · refine (ops_execA64 P s insn).rel (R := fun s t => t.bus.tlbGen = s.bus.tlbGen) (fun _ => rfl)
      (fun _ _ _ hst htu => htu.trans hst) fun _ _ => Op.tlbGen hP (fun ht => ?_) fun key hk =>
        msrFlushes_of_not_mem (hmsr key hk)
    exact (hsys ht.1).2.1 ht.2.1 ht.2.2.1 ht.2.2.2

end Ops

lemma Stepped.el0Keeps {P : Platform D} (hP : P.Orderly) {s t : Machine D} (h : Stepped P s t)
    (hacc : ∀ insn u, Executes P s insn u → ¬AccessesEl1 insn) : s.El0Keeps t := by
  cases h with
  | idle => exact .refl s
  | interrupt kind => exact fun h0 => absurd h0 (exceptionTake_el_ne_zero _ _ _ _ _)
  | fault hf =>
    obtain ⟨esr, far, ret, ht⟩ := memIfetch_none hf
    exact fun h0 => absurd (ht ▸ h0) (exceptionTake_el_ne_zero _ _ _ _ _)
  | @exec insn u hx =>
    have hgen : u.bus.tlbGen = s.bus.tlbGen := by
      have := hP.genRel.memIfetch (s.mapCpu Cpu.beginInsn) s.cpu.pc
      rwa [hx.fetch] at this
    have hexec := execA64_el0Keeps hP ⟨s.cpu.entered, u.bus⟩ (hacc insn u hx)
    have hent : s.El0Keeps ⟨s.cpu.entered, u.bus⟩ := .mk (.of_eq rfl rfl) hgen
    exact (hent.trans hexec).trans (.mk (.of_eq rfl rfl) rfl)

/-- A run at EL0 with no exception in between and no word that names the state of EL1. -/
inductive El0Run (P : Platform D) (s : Machine D) : Machine D → Prop
  | start : s.cpu.el = 0 → El0Run P s s
  | step {t : Machine D} : El0Run P s t → (∀ insn u, Executes P t insn u → ¬AccessesEl1 insn) →
      (cpuStep P t).2.cpu.el = 0 → El0Run P s (cpuStep P t).2
  | host {t : Machine D} (skip base : U64) (halted : Bool) {b : Bus D} : El0Run P s t → b.tlbGen = t.bus.tlbGen →
      El0Run P s ⟨t.cpu.hosted skip base halted, b⟩

lemma El0Run.el1State {P : Platform D} (hP : P.Orderly) {s t : Machine D} (h : El0Run P s t) :
    t.el1State = s.el1State := by
  induction h with
  | start => rfl
  | step _ hacc hel ih => exact (((stepped_cpuStep P _).el0Keeps hP hacc) hel).2.trans ih
  | @host t skip base halted b _ hgen ih =>
    have ht : (⟨t.cpu.hosted skip base halted, b⟩ : Machine D).el1State = t.el1State := Prod.ext rfl hgen
    exact ht.trans ih

section Exact
variable {P : Platform D} {insn : U32}

lemma execA64_sysreg (s : Machine D) (h : isSysreg insn = true) : execA64 P s insn = sysregExec P s insn := by
  obtain ⟨⟨hsys, hh⟩, hb⟩ : (bits insn 31 24 = 0xd5 ∧ isHint insn = false) ∧ isBarrier insn = false := by
    simpa [isSysreg] using h
  have hgrp : bits insn 28 25 = 0xa ∧ bits insn 31 26 = 0x35 ∧ bits insn 30 25 = 0x2a ∧ bits insn 31 25 = 0x6a := by
    simp only [bits, Nat.shiftRight_eq_div_pow] at hsys ⊢
    omega
  obtain ⟨h₁, h₂, h₃, h₄⟩ := hgrp
  simp only [execA64, h₁, branchSystem, h₂, h₃, h₄, hsys, hh, hb, if_true]
  rfl

lemma execA64_eret (s : Machine D) (h : isEret insn = true) :
    execA64 P s insn = s.mapCpu fun c => (c.unpackSpsr ((c.spsr c.el).setWidth 32)).setPc (c.elr c.el) := by
  obtain ⟨hbr, hop⟩ : bits insn 31 25 = 0x6b ∧ bits insn 24 21 = 4 := by simpa [isEret] using h
  have hgrp : bits insn 28 25 = 0xb ∧ bits insn 31 26 = 0x35 ∧ bits insn 30 25 = 0x2b ∧ bits insn 31 24 = 0xd6 := by
    simp only [bits, Nat.shiftRight_eq_div_pow] at hbr hop ⊢
    omega
  obtain ⟨h₁, h₂, h₃, h₄⟩ := hgrp
  simp only [execA64, h₁, branchSystem, h₂, h₃, h₄, hbr, if_true, branchReg, hop]
  rfl

lemma msrImmediate_el (c : Cpu) (insn : U32) : (msrImmediate c insn).el = c.el := by
  unfold msrImmediate
  dsimp only
  split_ifs <;> rfl

lemma gtCount_el (P : Platform D) (s : Machine D) (virt : Bool) : (gtCount P s virt).2.cpu.el = s.cpu.el := by
  unfold gtCount
  dsimp only
  split <;> rfl

lemma timerUpdate_el (P : Platform D) (s : Machine D) : (timerUpdate P s).cpu.el = s.cpu.el := by
  unfold timerUpdate
  exact (gtCount_el P _ true).trans (gtCount_el P s false)

lemma not_isFpReg {key : ℕ} (h : key ∈ el1Keys) : isFpReg key = false := by
  revert key
  decide

lemma doMrs_el (s : Machine D) {key : ℕ} (h : key ∈ el1Keys) (rt : ℕ) : (doMrs P s key rt).cpu.el = s.cpu.el := by
  have hc (virt : Bool) (v : U64) : ((gtCount P s virt).2.setX rt v).cpu.el = s.cpu.el :=
    (Cpu.setX_el _ _ _).trans (gtCount_el P s virt)
  have hx {t : Machine D} (ht : t.cpu.el = s.cpu.el) (v : U64) : (t.setX rt v).cpu.el = s.cpu.el :=
    (Cpu.setX_el _ _ _).trans ht
  simp only [doMrs, not_isFpReg h, Bool.false_eq_true, false_and, if_false]
  repeat' apply ite_view (f := fun t : Machine D => t.cpu.el)
  all_goals first
    | exact hc _ _
    | exact hx (t := s) rfl _
    | exact hx (t := s.mapCpu fpsrSync) rfl _

lemma doMsr_el (s : Machine D) {key : ℕ} (h : key ∈ el1Keys) (rt : ℕ) : (doMsr P s key rt).cpu.el = s.cpu.el := by
  simp only [doMsr, not_isFpReg h, Bool.false_eq_true, false_and, if_false]
  have hflush {t : Machine D} (ht : t.cpu.el = s.cpu.el) :
      (if msrFlushes key then { t with bus := tlbFlushAll t.bus } else t).cpu.el = s.cpu.el :=
    ite_view (f := fun t : Machine D => t.cpu.el) ht ht
  refine ite_view (f := fun t : Machine D => t.cpu.el) ((timerUpdate_el P _).trans (hflush ?_)) (hflush ?_) <;>
  · refine ite_view (f := fun t : Machine D => t.cpu.el) ?_ (ite_view (f := fun t : Machine D => t.cpu.el) ?_ ?_)
    · exact gtCount_el P s false
    · exact gtCount_el P s true
    · exact msrCpu_el _ _ _

lemma execA64_el_of_accessesEl1 {s : Machine D} (hel : s.cpu.el = 0) (hspsr : s.cpu.spsr 0 = 0)
    (h : AccessesEl1 insn) : (execA64 P s insn).cpu.el = 0 := by
  obtain heret | ⟨hsys, hacc⟩ := h
  · rw [execA64_eret s heret]
    show Fin.ofNat 4 (((s.cpu.spsr s.cpu.el).setWidth 32).toNat >>> 2) = 0
    rw [hel, hspsr]
    rfl
  rw [execA64_sysreg s hsys]
  unfold sysregExec
  dsimp only
  obtain ⟨h₀, -⟩ | ⟨h₁, hl, hcrn⟩ | ⟨h₂, hkey⟩ := hacc
  · rw [if_pos h₀]
    exact (msrImmediate_el _ _).trans hel
  · simp only [h₁, hl, sysOp, hcrn, one_ne_zero, Bool.not_false, if_true, if_false]
    exact Eq.trans (ite_view (f := fun t : Machine D => t.cpu.el) (x := s) rfl rfl) hel
  · rw [if_neg (by omega), if_neg (by omega)]
    refine Eq.trans (ite_view (f := fun t : Machine D => t.cpu.el) (x := s) ?_ ?_) hel
    · exact doMrs_el s hkey _
    · exact doMsr_el s hkey _

lemma CpuChange.spsr_zero {A : Scope} {c d : Cpu} (h : CpuChange A c d) : d.spsr 0 = c.spsr 0 := by
  cases h with
  | op hc =>
    cases hc with
    | gpr n v =>
      unfold Cpu.setGpr
      split <;> rfl
    | take kind esr far ret =>
      have h0 : (0 : Fin 4) ≠ if c.el > 1 then c.el else 1 := (exceptionTake_el_ne_zero c kind esr far ret).symm
      exact Function.update_of_ne h0 _ _
    | sp | vreg | nzcv | pc | fpsr | noExcl => rfl
  | hint insn =>
    unfold Arm64Emu.hint
    dsimp only
    split_ifs <;> rfl
  | conduit =>
    have hset (e : Cpu) (n : ℕ) (v : U64) : (e.setGpr n v).spsr = e.spsr := by
      unfold Cpu.setGpr
      split <;> rfl
    unfold smcccConduit
    dsimp only
    split_ifs <;> simp [hset]
  | msr v =>
    unfold msrCpu
    repeat' apply ite_view (f := fun c : Cpu => c.spsr 0)
    all_goals rfl
  | unpriv | excl | stop | eret | pstate | cval | par | clock => rfl

lemma Reached.spsr_zero (hfp : ∀ c insn, CpuOps c (P.execFpsimd c insn)) {s : Machine D} (h : Reached P s) :
    s.cpu.spsr 0 = 0 :=
  h.invariant (I := fun c => c.spsr 0 = 0) hfp (fun _ _ _ hc h0 => hc.spsr_zero.trans h0) (fun _ h0 => ⟨h0, h0, h0⟩)
    (fun _ _ => rfl) fun _ _ _ _ h0 => h0

end Exact

/-- The step at `s` executes `insn`: it leaves the state of EL1 alone or takes an
exception, and takes one if the word names that state. -/
def Isolated (P : Platform D) (s : Machine D) (insn : U32) : Prop :=
  let t := (cpuStep P s).2
  (t.cpu.el = 0 → t.el1State = s.el1State) ∧ (AccessesEl1 insn → t.cpu.el ≠ 0)

/-- A program that returns to EL0 and there writes `VBAR_EL1`: `adr x0, .+16`,
`msr elr_el1, x0`, `msr spsr_el1, xzr`, `eret`, `msr vbar_el1, x0`. -/
def vbarFromEl0 : List (ℕ × List U32) := [(0, [0x10000080, 0xd5184020, 0xd518401f, 0xd69f03e0, 0xd518c000])]

lemma executes_vbarFromEl0 : Executes (Platform.bare 0x400000) (bareSteps 1 vbarFromEl0 4) 0xd518c000
    (memIfetch (Platform.bare 0x400000) ((bareSteps 1 vbarFromEl0 4).mapCpu Cpu.beginInsn)
      (bareSteps 1 vbarFromEl0 4).cpu.pc).2 where
  stop := by decide +kernel
  fiq := by decide +kernel
  irq := by decide +kernel
  halted := by decide +kernel
  fetch := Prod.ext (by decide +kernel) rfl

end Arm64Emu
