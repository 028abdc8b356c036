import Arm64Emu.Frame

/-! One step of the interpreter by its outcome, and the runs made of steps. Between two
steps the run loop and the devices may change the bus, skip time and wake the
processor. -/
namespace Arm64Emu

variable {D : Type}

def Cpu.Entered (c : Cpu) : Prop := ∃ d kind esr far ret, c = exceptionTake d kind esr far ret

lemma exceptionTake_el (c : Cpu) (kind : ExcKind) (esr far ret : U64) :
    (exceptionTake c kind esr far ret).el = if c.el > 1 then c.el else 1 := rfl

lemma exceptionTake_el_ne_zero (c : Cpu) (kind : ExcKind) (esr far ret : U64) :
    (exceptionTake c kind esr far ret).el ≠ 0 := by
  rw [exceptionTake_el]
  split
  · rename_i h
    intro h0
    rw [h0] at h
    exact absurd h (by decide)
  · decide

lemma Cpu.Entered.el_ne_zero {c : Cpu} (h : c.Entered) : c.el ≠ 0 := by
  obtain ⟨d, kind, esr, far, ret, rfl⟩ := h
  exact exceptionTake_el_ne_zero d kind esr far ret

lemma Cpu.Entered.exclValid {c : Cpu} (h : c.Entered) : c.exclValid = 0 := by
  obtain ⟨d, kind, esr, far, ret, rfl⟩ := h
  rfl

lemma raiseAbort_eq (c : Cpu) (va : U64) (acc : AccType) (fsc : ℕ) :
    ∃ esr, raiseAbort c va acc fsc = exceptionTake c .sync esr va c.curInsnPc := by
  cases acc <;> exact ⟨_, rfl⟩

section Fetch
variable {P : Platform D} {s t : Machine D} {va : U64}

lemma memIfetchSlow_some {insn : U32} (h : memIfetchSlow P s va = (some insn, t)) : t.cpu = s.cpu := by
  unfold memIfetchSlow at h
  split at h
  · cases h
  split at h
  · cases h
  · rename_i htr
    have hs := mmuTranslate_some htr
    dsimp only at h
    split at h
    · cases h
      exact hs
    · split at h <;> cases h
      exact hs

lemma memIfetchSlow_none (h : memIfetchSlow P s va = (none, t)) :
    ∃ esr far ret, t.cpu = exceptionTake s.cpu .sync esr far ret := by
  have habort (c : Cpu) (fsc : ℕ) : ∃ esr far ret, raiseAbort c va .exec fsc = exceptionTake c .sync esr far ret :=
    ⟨_, _, _, rfl⟩
  unfold memIfetchSlow at h
  split at h
  · cases h
    exact ⟨_, _, _, rfl⟩
  split at h
  · cases h
    obtain ⟨fsc, ht⟩ := mmuTranslate_none ‹_›
    rw [ht]
    exact habort _ _
  · rename_i htr
    have hs := mmuTranslate_some htr
    dsimp only at h
    split at h
    · cases h
    · split at h <;> cases h
      rw [← hs]
      exact habort _ _

lemma memIfetch_some {insn : U32} (h : memIfetch P s va = (some insn, t)) : t.cpu = s.cpu := by
  unfold memIfetch at h
  dsimp only at h
  split at h
  · split at h
    · cases h
      rfl
    · exact memIfetchSlow_some h
  · exact memIfetchSlow_some h

lemma memIfetch_none (h : memIfetch P s va = (none, t)) :
    ∃ esr far ret, t.cpu = exceptionTake s.cpu .sync esr far ret := by
  unfold memIfetch at h
  dsimp only at h
  split at h
  · split at h
    · cases h
    · exact memIfetchSlow_none h
  · exact memIfetchSlow_none h

end Fetch

/-- The step at `s` executes `insn`, in the state `u` that the fetch leaves. -/
structure Executes (P : Platform D) (s : Machine D) (insn : U32) (u : Machine D) : Prop where
  stop : s.cpu.stop = false
  fiq : fiqPending s = false
  irq : irqPending s = false
  halted : s.cpu.halted = false
  fetch : memIfetch P (s.mapCpu Cpu.beginInsn) s.cpu.pc = (some insn, u)

def Cpu.entered (c : Cpu) : Cpu := c.beginInsn.setPc (c.pc + 4)

namespace Executes
variable {P : Platform D} {s u : Machine D} {insn : U32}

lemma cpu (h : Executes P s insn u) : u.cpu = s.cpu.beginInsn := memIfetch_some h.fetch

lemma cpuStep (h : Executes P s insn u) :
    (cpuStep P s).2 = (execA64 P ⟨s.cpu.entered, u.bus⟩ insn).mapCpu Cpu.retire := by
  have hu : u.mapCpu (fun c => c.setPc (c.pc + 4)) = ⟨s.cpu.entered, u.bus⟩ := by
    rw [Machine.mapCpu, h.cpu]
    rfl
  have hf : memIfetch P (s.mapCpu Cpu.beginInsn) (s.mapCpu Cpu.beginInsn).cpu.pc = (some insn, u) := h.fetch
  simp only [Arm64Emu.cpuStep, h.stop, h.fiq, h.irq, h.halted, hf, hu, Bool.false_eq_true, if_false]

end Executes

inductive Stepped (P : Platform D) (s : Machine D) : Machine D → Prop
  | idle : Stepped P s s
  | interrupt (kind : ExcKind) : Stepped P s (s.mapCpu fun c => exceptionTake c kind 0 0 c.pc)
  | fault {u : Machine D} : memIfetch P (s.mapCpu Cpu.beginInsn) s.cpu.pc = (none, u) → Stepped P s u
  | exec {insn : U32} {u : Machine D} : Executes P s insn u →
      Stepped P s ((execA64 P ⟨s.cpu.entered, u.bus⟩ insn).mapCpu Cpu.retire)

lemma stepped_cpuStep (P : Platform D) (s : Machine D) : Stepped P s (cpuStep P s).2 := by
  by_cases hstop : s.cpu.stop = true
  · simp only [cpuStep, hstop, if_true]
    exact .idle
  by_cases hfiq : fiqPending s = true
  · simp only [cpuStep, hstop, hfiq, if_true]
    exact .interrupt .fiq
  by_cases hirq : irqPending s = true
  · simp only [cpuStep, hstop, hfiq, hirq, if_true]
    exact .interrupt .irq
  by_cases hhalt : s.cpu.halted = true
  · simp only [cpuStep, hstop, hfiq, hirq, hhalt, if_true]
    exact .idle
  rcases hf : memIfetch P (s.mapCpu Cpu.beginInsn) s.cpu.pc with ⟨_ | insn, u⟩
  · have hf' : memIfetch P (s.mapCpu Cpu.beginInsn) (s.mapCpu Cpu.beginInsn).cpu.pc = (none, u) := hf
    simp only [cpuStep, hstop, hfiq, hirq, hhalt, hf']
    exact .fault hf
  · have hx : Executes P s insn u := ⟨by simpa using hstop, by simpa using hfiq, by simpa using hirq,
      by simpa using hhalt, hf⟩
    rw [hx.cpuStep]
    exact .exec hx

/-- What the run loop may do to the processor between two steps. -/
def Cpu.hosted (c : Cpu) (skip base : U64) (halted : Bool) : Cpu :=
  { c with timerSkip := skip, cntpctBase := base, halted := halted }

inductive Reached (P : Platform D) : Machine D → Prop
  | reset (entry : U64) (el : Fin 4) (b : Bus D) : Reached P ⟨cpuReset entry el, b⟩
  | step {s : Machine D} : Reached P s → Reached P (cpuStep P s).2
  | host {s : Machine D} (skip base : U64) (halted : Bool) (b : Bus D) : Reached P s →
      Reached P ⟨s.cpu.hosted skip base halted, b⟩

section Program

/-- A memory image: words at the given byte offsets, and zero elsewhere. -/
def image : List (ℕ × List U32) → ℕ → U8
  | [], _ => 0
  | (a, ws) :: rest, p =>
    if a ≤ p ∧ p < a + 4 * ws.length then (ws.getD ((p - a) / 4) 0 >>> (8 * ((p - a) % 4))).setWidth 8
    else image rest p

/-- The bare machine with an image in its RAM, after a reset and `k` steps. -/
def bareSteps (el : Fin 4) (ram : List (ℕ × List U32)) (k : ℕ) : Machine Unit :=
  (fun s => (cpuStep (Platform.bare 0x400000) s).2)^[k]
    ⟨cpuReset 0x40000000 el, .powerOn (image ram) (fun _ => 0xff) ()⟩

lemma reached_bareSteps (el : Fin 4) (ram : List (ℕ × List U32)) (k : ℕ) :
    Reached (Platform.bare 0x400000) (bareSteps el ram k) := by
  induction k with
  | zero => exact .reset _ _ _
  | succ k ih =>
    rw [bareSteps, Function.iterate_succ_apply']
    exact .step ih

end Program

inductive CpuChange (A : Scope) : Cpu → Cpu → Prop
  | op {c d : Cpu} : CpuOp c d → CpuChange A c d
  | unpriv (c : Cpu) (b : Bool) : A.unpriv → CpuChange A c { c with ldstUnpriv := b }
  | excl (c : Cpu) (addr size : U64) : A.excl →
      CpuChange A c { c with exclValid := 1, exclAddr := addr, exclSize := size }
  | hint (c : Cpu) (insn : U32) : A.hint → CpuChange A c (hint c insn)
  | conduit (c : Cpu) : A.host → c.el ≠ 0 → CpuChange A c (smcccConduit c)
  | stop (c : Cpu) : A.host → CpuChange A c { c with stop := true }
  | eret (c : Cpu) : A.eret → CpuChange A c ((c.unpackSpsr ((c.spsr c.el).setWidth 32)).setPc (c.elr c.el))
  | pstate (c : Cpu) (sel : Bool) (daif : U32) : A.pstate → CpuChange A c { c with spSel := sel, daif := daif }
  | msr (c : Cpu) {key : ℕ} (v : U64) : A.msr key → CpuChange A c (msrCpu c key v)
  | cval (c : Cpu) (p v : U64) : CpuChange A c { c with cntpCval := p, cntvCval := v }
  | par (c : Cpu) (v : U64) : CpuChange A c { c with parEl1 := v }
  | clock (c : Cpu) (base : U64) : CpuChange A c { c with cntpctBase := base }

def CpuChanges (A : Scope) : Cpu → Cpu → Prop := Relation.ReflTransGen (CpuChange A)

namespace CpuChanges
variable {A : Scope} {c d : Cpu}

lemma refl (c : Cpu) : CpuChanges A c c := Relation.ReflTransGen.refl

lemma single (h : CpuChange A c d) : CpuChanges A c d := Relation.ReflTransGen.single h

lemma ops (h : CpuOps c d) : CpuChanges A c d :=
  h.rel (R := CpuChanges A) refl (fun _ _ _ => Relation.ReflTransGen.trans) fun _ _ ho => single (.op ho)

lemma invariant {I : Cpu → Prop} (hI : ∀ c d, CpuChange A c d → I c → I d) (h : CpuChanges A c d) (hc : I c) : I d := by
  induction h with
  | refl => exact hc
  | tail _ hop ih => exact hI _ _ hop ih

lemma rel {R : Cpu → Cpu → Prop} (hrefl : ∀ c, R c c) (htrans : ∀ c d e, R c d → R d e → R c e)
    (hop : ∀ c d, CpuChange A c d → R c d) (h : CpuChanges A c d) : R c d :=
  h.invariant (I := R c) (fun d e hde hcd => htrans c d e hcd (hop d e hde)) (hrefl c)

end CpuChanges

section Changes
variable {P : Platform D} {A : Scope} {s t : Machine D}

lemma changes_memReadPage (P : Platform D) (s : Machine D) (va : U64) (n : ℕ) :
    CpuChanges A s.cpu (memReadPage P s va n).2.cpu := by
  rcases h : memReadPage P s va n with ⟨_ | v, t⟩
  · obtain ⟨fsc, ht⟩ := memReadPage_none h
    rw [ht]
    exact .ops (.raiseAbort (.refl _) va .read fsc)
  · rw [memReadPage_some h]
    exact .refl _

lemma changes_memWritePage (P : Platform D) (s : Machine D) (va : U64) (n : ℕ) (v : U64) :
    CpuChanges A s.cpu (memWritePage P s va n v).2.cpu := by
  rcases h : memWritePage P s va n v with ⟨_ | _, t⟩
  · obtain ⟨fsc, ht⟩ := memWritePage_false h
    rw [ht]
    exact .ops (.raiseAbort (.refl _) va .write fsc)
  · rw [memWritePage_true h]
    exact .refl _

lemma changes_gtCount (P : Platform D) (s : Machine D) (virt : Bool) :
    CpuChanges A s.cpu (gtCount P s virt).2.cpu := by
  unfold gtCount
  dsimp only
  split
  · exact .single (.clock _ _)
  · exact .refl _

lemma Op.changes (hfp : A.fp → ∀ c insn, CpuOps c (P.execFpsimd c insn)) (h : Op P A s t) :
    CpuChanges A s.cpu t.cpu := by
  cases h with
  | cpu hc => exact .single (.op hc)
  | read va n => exact changes_memReadPage P s va n
  | write va n v => exact changes_memWritePage P s va n v
  | ramWrite | flushAll | flushPage | walk | timer => exact .refl _
  | unpriv b hA => exact .single (.unpriv _ b hA)
  | excl a n hA => exact .single (.excl _ a n hA)
  | hint insn hA => exact .single (.hint _ insn hA)
  | conduit hA hel => exact .single (.conduit _ hA hel)
  | stop hA => exact .single (.stop _ hA)
  | eret hA => exact .single (.eret _ hA)
  | pstate sel daif hA => exact .single (.pstate _ sel daif hA)
  | msr v hA => exact .single (.msr _ v hA)
  | regime v hA => exact .single (.msr _ v hA)
  | cval p v => exact .single (.cval _ p v)
  | par v => exact .single (.par _ v)
  | clock virt => exact changes_gtCount P s virt
  | fp insn hA => exact .ops (hfp hA _ insn)

lemma Ops.changes (hfp : A.fp → ∀ c insn, CpuOps c (P.execFpsimd c insn)) (h : Ops P A s t) :
    CpuChanges A s.cpu t.cpu :=
  h.rel (R := fun s t => CpuChanges A s.cpu t.cpu) (fun _ => .refl _) (fun _ _ _ => Relation.ReflTransGen.trans)
    fun _ _ => Op.changes hfp

lemma changes_execA64 (hfp : ∀ c insn, CpuOps c (P.execFpsimd c insn)) (s : Machine D) (insn : U32) :
    CpuChanges (scopeOf insn) s.cpu (execA64 P s insn).cpu := (ops_execA64 P s insn).changes fun _ => hfp

end Changes

section Invariant
variable {P : Platform D} {I : Cpu → Prop} {s t : Machine D} (hfp : ∀ c insn, CpuOps c (P.execFpsimd c insn))
  (hI : ∀ insn c d, CpuChange (scopeOf insn) c d → I c → I d)
  (hbook : ∀ c, I c → I c.entered ∧ I c.beginInsn ∧ I c.retire)
include hfp hI hbook

lemma Stepped.invariant (h : Stepped P s t) (hs : I s.cpu) : I t.cpu := by
  have htake (c : Cpu) (kind : ExcKind) (esr far ret : U64) (hc : I c) : I (exceptionTake c kind esr far ret) :=
    hI 0 c _ (.op (.take c kind esr far ret)) hc
  cases h with
  | idle => exact hs
  | interrupt kind => exact htake _ _ _ _ _ hs
  | fault hf =>
    obtain ⟨esr, far, ret, ht⟩ := memIfetch_none hf
    rw [ht]
    exact htake _ _ _ _ _ (hbook _ hs).2.1
  | @exec insn u _ =>
    refine (hbook _ ?_).2.2
    exact (changes_execA64 hfp ⟨s.cpu.entered, u.bus⟩ insn).invariant (hI insn) (hbook _ hs).1

lemma Reached.invariant (hreset : ∀ entry el, I (cpuReset entry el))
    (hhost : ∀ c skip base halted, I c → I (c.hosted skip base halted)) (h : Reached P s) : I s.cpu := by
  induction h with
  | reset entry el b => exact hreset entry el
  | host skip base halted b _ ih => exact hhost _ skip base halted ih
  | step _ ih => exact (stepped_cpuStep P _).invariant hfp hI hbook ih

end Invariant

end Arm64Emu
