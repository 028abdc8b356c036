import Arm64Emu.Decode
import Arm64Emu.MemFacts

/-! What an instruction is made of. Every instruction of the interpreter is a sequence
of operations: writes of its own registers, accesses to memory, and the few operations
that only some words may use, which the scope of the word lists. A property that every
operation in the scope keeps holds after the instruction. -/
namespace Arm64Emu

variable {D : Type}

inductive CpuOp : Cpu → Cpu → Prop
  | gpr (c : Cpu) (n : ℕ) (v : U64) : CpuOp c (c.setGpr n v)
  | sp (c : Cpu) (v : U64) : CpuOp c (c.setSp v)
  | vreg (c : Cpu) (n : ℕ) (v : V128) : CpuOp c (c.setVreg n v)
  | nzcv (c : Cpu) (f : U32) : CpuOp c (c.setNzcv f)
  | pc (c : Cpu) (a : U64) : CpuOp c (c.setPc a)
  | fpsr (c : Cpu) (status exc : U32) : CpuOp c { c with fpsr := status, fpexc := exc }
  | noExcl (c : Cpu) : CpuOp c { c with exclValid := 0 }
  | take (c : Cpu) (kind : ExcKind) (esr far ret : U64) : CpuOp c (exceptionTake c kind esr far ret)

def CpuOps : Cpu → Cpu → Prop := Relation.ReflTransGen CpuOp

namespace CpuOps
variable {c d : Cpu}

lemma refl (c : Cpu) : CpuOps c c := Relation.ReflTransGen.refl

lemma setGpr (h : CpuOps c d) (n : ℕ) (v : U64) : CpuOps c (d.setGpr n v) := h.tail (.gpr d n v)

lemma setNzcv (h : CpuOps c d) (f : U32) : CpuOps c (d.setNzcv f) := h.tail (.nzcv d f)

lemma setPc (h : CpuOps c d) (a : U64) : CpuOps c (d.setPc a) := h.tail (.pc d a)

lemma setX (h : CpuOps c d) (n : ℕ) (v : U64) : CpuOps c (d.setX n v) := by
  rw [Cpu.setX_eq_setGpr]
  exact h.setGpr n v

lemma setXSz (h : CpuOps c d) (n : ℕ) (is64 : Bool) (v : U64) : CpuOps c (d.setXSz n is64 v) := h.setX n _

lemma setXsp (h : CpuOps c d) (n : ℕ) (v : U64) : CpuOps c (d.setXsp n v) := by
  unfold Cpu.setXsp
  split
  · exact h.tail (.sp d v)
  · exact h.setGpr n v

lemma setVreg (h : CpuOps c d) (n : ℕ) (v : V128) : CpuOps c (d.setVreg n v) := h.tail (.vreg d n v)

lemma exceptionTake (h : CpuOps c d) (kind : ExcKind) (esr far ret : U64) :
    CpuOps c (exceptionTake d kind esr far ret) := h.tail (.take d kind esr far ret)

lemma cpuRaiseSync (h : CpuOps c d) (esr far : U64) : CpuOps c (cpuRaiseSync d esr far) :=
  h.exceptionTake _ _ _ _

lemma undefined (h : CpuOps c d) : CpuOps c (undefined d) := h.cpuRaiseSync _ _

lemma raiseAbort (h : CpuOps c d) (va : U64) (acc : AccType) (fsc : ℕ) : CpuOps c (raiseAbort d va acc fsc) := by
  cases acc <;> exact h.cpuRaiseSync _ _

lemma ite {p : Prop} [Decidable p] {e : Cpu} (h : CpuOps c d) (h' : CpuOps c e) : CpuOps c (if p then d else e) := by
  split
  · exact h
  · exact h'

lemma invariant {I : Cpu → Prop} (hI : ∀ c d, CpuOp c d → I c → I d) (h : CpuOps c d) (hc : I c) : I d := by
  induction h with
  | refl => exact hc
  | tail _ hop ih => exact hI _ _ hop ih

lemma rel {R : Cpu → Cpu → Prop} (hrefl : ∀ c, R c c) (htrans : ∀ c d e, R c d → R d e → R c e)
    (hop : ∀ c d, CpuOp c d → R c d) (h : CpuOps c d) : R c d :=
  h.invariant (I := R c) (fun d e hde hcd => htrans c d e hcd (hop d e hde)) (hrefl c)

end CpuOps

section DataProcessing
variable (c : Cpu) (insn : U32)

lemma cpuOps_setXSz (n : ℕ) (is64 : Bool) (v : U64) : CpuOps c (c.setXSz n is64 v) := .setXSz (.refl c) _ _ _

lemma cpuOps_undefined : CpuOps c (undefined c) := .undefined (.refl c)

lemma cpuOps_addResult {p : U64 × U32} {s sf : Bool} {rd : ℕ} :
    CpuOps c (match p with
      | (r, fl) => if s then (c.setNzcv fl).setXSz rd sf r else c.setXsp rd (sz sf r)) := by
  obtain ⟨r, fl⟩ := p
  exact .ite (.setXSz (.setNzcv (.refl c) fl) rd sf r) (.setXsp (.refl c) rd _)

lemma cpuOps_dpImmediate : CpuOps c (dpImmediate c insn) := by
  have hx (n : ℕ) (v : U64) : CpuOps c (c.setX n v) := .setX (.refl c) n v
  unfold dpImmediate
  refine .ite (.ite (hx _ _) (hx _ _)) (.ite (cpuOps_addResult c) (.ite ?_ (.ite ?_ (.ite (.ite ?_ ?_) (.ite ?_ ?_)))))
  · dsimp only
    split
    · exact cpuOps_undefined c
    · exact .ite (.setX (.setNzcv (.refl c) _) _ _) (.setXsp (.refl c) _ _)
  · exact .ite (cpuOps_undefined c) (.ite (cpuOps_setXSz c _ _ _) (.ite (cpuOps_setXSz c _ _ _)
      (.ite (cpuOps_setXSz c _ _ _) (cpuOps_undefined c))))
  · exact cpuOps_undefined c
  · dsimp only
    split
    · exact cpuOps_undefined c
    · exact cpuOps_setXSz c _ _ _
  · exact .ite (cpuOps_undefined c) (cpuOps_setXSz c _ _ _)
  · exact cpuOps_undefined c

lemma cpuOps_dpCarry : CpuOps c (dpCarry c insn) := by
  unfold dpCarry
  refine .ite ?_ (.ite (.setNzcv (.refl c) _) (.ite (.setNzcv (.refl c) _) (cpuOps_undefined c)))
  exact .setXSz (.ite (.setNzcv (.refl c) _) (.refl c)) _ _ _

lemma cpuOps_optResult {o : Option U64} {rd : ℕ} {sf : Bool} :
    CpuOps c (match o with | none => undefined c | some r => c.setXSz rd sf r) := by
  cases o
  · exact cpuOps_undefined c
  · exact cpuOps_setXSz c _ _ _

lemma cpuOps_dpRegister : CpuOps c (dpRegister c insn) := by
  unfold dpRegister
  refine .ite (.ite (cpuOps_undefined c) ?_) (.ite (.ite ?_ ?_) (.ite ?_ (.ite ?_ (cpuOps_undefined c))))
  · exact .setX (.ite (.setNzcv (.refl c) _) (.refl c)) _ _
  · exact .ite (cpuOps_undefined c) (cpuOps_addResult c)
  · refine .ite (cpuOps_undefined c) ?_
    exact .ite (.setXSz (.setNzcv (.refl c) _) _ _ _) (cpuOps_setXSz c _ _ _)
  · exact .ite (cpuOps_undefined c) (.ite (cpuOps_undefined c) (cpuOps_optResult c))
  · refine .ite (cpuOps_dpCarry c insn) (.ite (.ite (cpuOps_undefined c) ?_) (.ite (.ite (cpuOps_undefined c) ?_)
      (.ite (cpuOps_optResult c) (cpuOps_undefined c))))
    · exact .ite (.setNzcv (.refl c) _) (.setNzcv (.refl c) _)
    · exact cpuOps_setXSz c _ _ _

end DataProcessing

/-- The operations that only some words may use: accesses with EL0's permissions,
load-exclusives, hints, calls of the host, exception return, writes of `SPSel` and
`DAIF`, invalidation of the TLBs, writes of system registers by their key, and the
floating-point unit. -/
structure Scope where
  unpriv : Prop
  excl : Prop
  hint : Prop
  host : Prop
  eret : Prop
  pstate : Prop
  tlbi : Prop
  msr : ℕ → Prop
  fp : Prop

/-- One operation. `read` and `write` are the accesses that are not split any more, with
all their side effects on the translation caches, the bus and the devices; `ramWrite` is
a bulk write through a writable entry of the data TLB. -/
inductive Op (P : Platform D) (A : Scope) : Machine D → Machine D → Prop
  | cpu (s : Machine D) {c : Cpu} : CpuOp s.cpu c → Op P A s { s with cpu := c }
  | read (s : Machine D) (va : U64) (size : ℕ) : Op P A s (memReadPage P s va size).2
  | write (s : Machine D) (va : U64) (size : ℕ) (v : U64) : Op P A s (memWritePage P s va size v).2
  | ramWrite (s : Machine D) (b : Bool) (va : U64) {ram : ℕ → U8} :
      (s.bus.dtlb (tlbIdx va)).tag = dtlbTag (s.setUnpriv b).cpu s.bus va → (s.bus.dtlb (tlbIdx va)).w = true →
      (∀ i, ¬((s.bus.dtlb (tlbIdx va)).page ≤ i ∧ i < (s.bus.dtlb (tlbIdx va)).page + 0x1000) → ram i = s.bus.ram i) →
      Op P A s { s with bus := { s.bus with ram := ram } }
  | unpriv (s : Machine D) (b : Bool) : A.unpriv → Op P A s (s.setUnpriv b)
  | excl (s : Machine D) (addr size : U64) : A.excl → Op P A s (setExcl s addr size)
  | hint (s : Machine D) (insn : U32) : A.hint → Op P A s (s.mapCpu (hint · insn))
  | conduit (s : Machine D) : A.host → s.cpu.el ≠ 0 → Op P A s (s.mapCpu smcccConduit)
  | stop (s : Machine D) : A.host → Op P A s (s.mapCpu fun c => { c with stop := true })
  | eret (s : Machine D) : A.eret →
      Op P A s (s.mapCpu fun c => (c.unpackSpsr ((c.spsr c.el).setWidth 32)).setPc (c.elr c.el))
  | pstate (s : Machine D) (sel : Bool) (daif : U32) : A.pstate →
      Op P A s (s.mapCpu fun c => { c with spSel := sel, daif := daif })
  | flushAll (s : Machine D) : A.tlbi → Op P A s { s with bus := tlbFlushAll s.bus }
  | flushPage (s : Machine D) (va : U64) : A.tlbi → Op P A s { s with bus := tlbFlushPage s.bus va }
  | msr (s : Machine D) {key : ℕ} (v : U64) : A.msr key → msrFlushes key = false →
      Op P A s (s.mapCpu (msrCpu · key v))
  | regime (s : Machine D) {key : ℕ} (v : U64) : A.msr key → msrFlushes key = true →
      Op P A s ⟨msrCpu s.cpu key v, tlbFlushAll s.bus⟩
  | cval (s : Machine D) (p v : U64) : Op P A s (s.mapCpu fun c => { c with cntpCval := p, cntvCval := v })
  | walk (s : Machine D) (va : U64) : Op P A s ⟨s.cpu, (walk P s.cpu s.bus va).2⟩
  | par (s : Machine D) (v : U64) : Op P A s (s.mapCpu fun c => { c with parEl1 := v })
  | clock (s : Machine D) (virt : Bool) : Op P A s (gtCount P s virt).2
  | timer (s : Machine D) (phys virt : Bool) (deadline : U64) :
      Op P A s { s with bus := P.timerLines s.bus phys virt deadline }
  | fp (s : Machine D) (insn : U32) : A.fp → Op P A s (s.mapCpu (P.execFpsimd · insn))

def Ops (P : Platform D) (A : Scope) : Machine D → Machine D → Prop := Relation.ReflTransGen (Op P A)

namespace Ops
variable {P : Platform D} {A : Scope} {s t u : Machine D}

lemma refl (s : Machine D) : Ops P A s s := Relation.ReflTransGen.refl

lemma tail (h : Ops P A s t) (g : Op P A t u) : Ops P A s u := Relation.ReflTransGen.tail h g

lemma invariant {I : Machine D → Prop} (hI : ∀ s t, Op P A s t → I s → I t) (h : Ops P A s t) (hs : I s) : I t := by
  induction h with
  | refl => exact hs
  | tail _ hop ih => exact hI _ _ hop ih

lemma rel {R : Machine D → Machine D → Prop} (hrefl : ∀ s, R s s) (htrans : ∀ s t u, R s t → R t u → R s u)
    (hop : ∀ s t, Op P A s t → R s t) (h : Ops P A s t) : R s t :=
  h.invariant (I := R s) (fun t u htu hst => htrans s t u hst (hop t u htu)) (hrefl s)

lemma cpu {c : Cpu} (h : Ops P A s t) (hc : CpuOps t.cpu c) : Ops P A s { t with cpu := c } := by
  induction hc with
  | refl => exact h
  | tail _ hop ih => exact ih.tail (.cpu { t with cpu := _ } hop)

lemma mapCpu {f : Cpu → Cpu} (h : Ops P A s t) (hf : CpuOps t.cpu (f t.cpu)) : Ops P A s (t.mapCpu f) := h.cpu hf

lemma undef (h : Ops P A s t) : Ops P A s (t.mapCpu undefined) := h.mapCpu (cpuOps_undefined _)

lemma fpTrap (h : Ops P A s t) : Ops P A s (t.mapCpu cpuFpTrap) := h.mapCpu (.cpuRaiseSync (.refl _) _ _)

lemma spAlign (h : Ops P A s t) : Ops P A s (t.mapCpu spAlignFault) := h.mapCpu (.cpuRaiseSync (.refl _) _ _)

lemma setX (h : Ops P A s t) (n : ℕ) (v : U64) : Ops P A s (t.setX n v) := h.mapCpu (.setX (.refl _) n v)

lemma setXsp (h : Ops P A s t) (n : ℕ) (v : U64) : Ops P A s (t.setXsp n v) := h.mapCpu (.setXsp (.refl _) n v)

lemma setVreg (h : Ops P A s t) (n : ℕ) (v : V128) : Ops P A s (t.mapCpu (·.setVreg n v)) :=
  h.mapCpu (.setVreg (.refl _) n v)

lemma clearExcl (h : Ops P A s t) : Ops P A s (clearExcl t) := h.tail (.cpu t (.noExcl _))

lemma writeBack (h : Ops P A s t) (rn : ℕ) (wb : Option U64) : Ops P A s (writeBack t rn wb) := by
  cases wb
  · exact h
  · exact h.setXsp rn _

lemma cond {p : Prop} [Decidable p] (h : p → Ops P A s t) (h' : ¬p → Ops P A s u) :
    Ops P A s (if p then t else u) := by
  split
  · exact h ‹_›
  · exact h' ‹_›

lemma ite {p : Prop} [Decidable p] (h : Ops P A s t) (h' : Ops P A s u) : Ops P A s (if p then t else u) :=
  cond (fun _ => h) (fun _ => h')

lemma of_snd {α : Type} {r : α × Machine D} {a : α} (h : Ops P A s r.2) (hr : r = (a, u)) : Ops P A s u := by
  subst hr
  exact h

lemma memReadPage {va : U64} {n : ℕ} {o : Option U64} (h : Ops P A s t)
    (hr : memReadPage P t va n = (o, u)) : Ops P A s u := (h.tail (.read t va n)).of_snd hr

lemma memWritePage {va v : U64} {n : ℕ} {ok : Bool} (h : Ops P A s t)
    (hw : memWritePage P t va n v = (ok, u)) : Ops P A s u := (h.tail (.write t va n v)).of_snd hw

lemma memRead {va : U64} {n : ℕ} {o : Option U64} (h : Ops P A s t) (hr : memRead P t va n = (o, u)) :
    Ops P A s u := by
  simp only [Arm64Emu.memRead] at hr
  split at hr
  · split at hr
    · cases hr
      exact h.memReadPage ‹_›
    · rename_i hlo
      split at hr <;> cases hr <;> exact (h.memReadPage hlo).memReadPage ‹_›
  · exact h.memReadPage hr

lemma memWrite {va v : U64} {n : ℕ} {ok : Bool} (h : Ops P A s t) (hw : memWrite P t va n v = (ok, u)) :
    Ops P A s u := by
  simp only [Arm64Emu.memWrite] at hw
  split at hw
  · split at hw
    · cases hw
      exact h.memWritePage ‹_›
    · exact (h.memWritePage ‹_›).memWritePage hw
  · exact h.memWritePage hw

lemma memRead128 {va : U64} {o : Option V128} (h : Ops P A s t) (hr : memRead128 P t va = (o, u)) :
    Ops P A s u := by
  rw [memRead128_eq] at hr
  split at hr
  · cases hr
    exact h.memRead ‹_›
  · rename_i hlo
    split at hr <;> cases hr <;> exact (h.memRead hlo).memRead ‹_›

lemma memWrite128 {va : U64} {v : V128} {ok : Bool} (h : Ops P A s t) (hw : memWrite128 P t va v = (ok, u)) :
    Ops P A s u := by
  rw [memWrite128_eq] at hw
  split at hw
  · cases hw
    exact h.memWrite ‹_›
  · exact (h.memWrite ‹_›).memWrite hw

lemma doLoad {rt size opc : ℕ} {va : U64} {ok : Bool} (h : Ops P A s t)
    (hl : doLoad P t rt va size opc = (ok, u)) : Ops P A s u := by
  unfold Arm64Emu.doLoad at hl
  split at hl
  · cases hl
    exact h
  · split at hl <;> cases hl
    · exact h.memRead ‹_›
    · exact (h.memRead ‹_›).setX _ _

lemma vregLoad {vt n : ℕ} {va : U64} {ok : Bool} (h : Ops P A s t) (hl : vregLoad P t vt va n = (ok, u)) :
    Ops P A s u := by
  unfold Arm64Emu.vregLoad at hl
  split at hl
  · split at hl <;> cases hl
    · exact h.memRead128 ‹_›
    · exact (h.memRead128 ‹_›).setVreg _ _
  · split at hl <;> cases hl
    · exact h.memRead ‹_›
    · exact (h.memRead ‹_›).setVreg _ _

lemma vregStore {vt n : ℕ} {va : U64} {ok : Bool} (h : Ops P A s t) (hl : vregStore P t vt va n = (ok, u)) :
    Ops P A s u := by
  unfold Arm64Emu.vregStore at hl
  split at hl
  · exact h.memWrite128 hl
  · exact h.memWrite hl

end Ops

/-! The scalar loads and stores. -/
namespace Ops
variable {P : Platform D} {A : Scope} {s t u : Machine D} {insn : U32}

lemma read_bind {va : U64} {n : ℕ} {k : U64 → Machine D → Machine D} (h : Ops P A s t)
    (hk : ∀ v u, Ops P A s u → Ops P A s (k v u)) :
    Ops P A s (match Arm64Emu.memRead P t va n with | (none, s) => s | (some v, s) => k v s) := by
  split
  · exact h.memRead ‹_›
  · exact hk _ _ (h.memRead ‹_›)

lemma write_bind {va v : U64} {n : ℕ} {k : Machine D → Machine D} (h : Ops P A s t)
    (hk : ∀ u, Ops P A s u → Ops P A s (k u)) :
    Ops P A s (match Arm64Emu.memWrite P t va n v with | (false, s) => s | (true, s) => k s) := by
  split
  · exact h.memWrite ‹_›
  · exact hk _ (h.memWrite ‹_›)

lemma ldstAtomic (h : Ops P A s t) : Ops P A s (ldstAtomic P t insn) := by
  unfold Arm64Emu.ldstAtomic
  refine .ite (.ite (h.read_bind fun _ _ hu => hu.setX _ _) h.undef) (h.read_bind fun _ _ hu => ?_)
  exact hu.write_bind fun _ hw => hw.setX _ _

lemma ldstCas (h : Ops P A s t) : Ops P A s (ldstCas P t insn) := by
  unfold Arm64Emu.ldstCas
  refine h.read_bind fun _ _ hu => .ite ?_ (hu.setX _ _)
  exact hu.write_bind fun _ hw => hw.setX _ _

lemma ldstCasp (h : Ops P A s t) : Ops P A s (ldstCasp P t insn) := by
  unfold Arm64Emu.ldstCasp
  refine h.read_bind fun _ _ h₁ => h₁.read_bind fun _ _ h₂ => .ite ?_ ((h₂.setX _ _).setX _ _)
  exact h₂.write_bind fun _ h₃ => h₃.write_bind fun _ h₄ => (h₄.setX _ _).setX _ _

lemma ldstRcpcUnscaled (h : Ops P A s t) : Ops P A s (ldstRcpcUnscaled P t insn) := by
  unfold Arm64Emu.ldstRcpcUnscaled
  exact .ite h.undef (.ite h.spAlign (.ite (h.memWrite rfl) (h.doLoad rfl)))

lemma ldstAccess {va : U64} {ok : Bool} (h : Ops P A s t) (ha : ldstAccess P t insn va = (ok, u)) : Ops P A s u := by
  unfold Arm64Emu.ldstAccess at ha
  dsimp only at ha
  generalize (if 2 ≤ bits insn 23 22 then 16 else 2 ^ bits insn 31 30) = bytes at ha
  split at ha
  · split at ha
    · exact h.vregLoad ha
    · exact h.vregStore ha
  · split at ha
    · exact h.doLoad ha
    · exact h.memWrite ha

lemma setUnpriv (hA : A.unpriv) (h : Ops P A s t) (b : Bool) : Ops P A s (t.setUnpriv b) := h.tail (.unpriv t b hA)

lemma ldstRegister (hA : A.unpriv) (h : Ops P A s t) : Ops P A s (ldstRegister P t insn) := by
  unfold Arm64Emu.ldstRegister
  refine .ite h.undef (.ite h.fpTrap (.ite h.spAlign ?_))
  dsimp only
  split
  · exact h.undef
  · exact h.ldstAtomic
  · rename_i va wb unpriv _
    have hacc : Ops P A s ((Arm64Emu.ldstAccess P (t.setUnpriv unpriv) insn va).2.setUnpriv false) :=
      setUnpriv hA (ldstAccess (setUnpriv hA h unpriv) rfl) false
    exact .ite h.undef (.ite hacc (hacc.writeBack _ _))

lemma pairLoad {addr : U64} {esz : ℕ} {o : Option (U64 × U64)} (h : Ops P A s t)
    (hl : pairLoad P t addr esz = (o, u)) : Ops P A s u := by
  unfold Arm64Emu.pairLoad at hl
  split at hl
  · split at hl <;> cases hl <;> exact h.memRead128 ‹_›
  · split at hl
    · cases hl
      exact h.memRead ‹_›
    · rename_i hlo
      split at hl <;> cases hl <;> exact (h.memRead hlo).memRead ‹_›

lemma pairStore {addr a b : U64} {esz : ℕ} {ok : Bool} (h : Ops P A s t)
    (hl : pairStore P t addr esz a b = (ok, u)) : Ops P A s u := by
  unfold Arm64Emu.pairStore at hl
  split at hl
  · exact h.memWrite128 hl
  · split at hl
    · cases hl
      exact h.memWrite ‹_›
    · exact (h.memWrite ‹_›).memWrite hl

lemma ldstPair (h : Ops P A s t) : Ops P A s (ldstPair P t insn) := by
  have hone {b : Bool} {t u : Machine D} {rt esz : ℕ} {addr : U64} {ok : Bool} (h : Ops P A s t)
      (ho : (if b then Arm64Emu.vregLoad P else Arm64Emu.vregStore P) t rt addr esz = (ok, u)) : Ops P A s u := by
    cases b
    · exact h.vregStore ho
    · exact h.vregLoad ho
  unfold Arm64Emu.ldstPair
  refine .ite h.undef (.ite h.spAlign (.ite h.undef (.ite (.ite h.fpTrap ?_) (.ite ?_ ?_))))
  · dsimp only
    split
    · exact hone h ‹_›
    · rename_i h₁
      split
      · exact hone (hone h h₁) ‹_›
      · exact (hone (hone h h₁) ‹_›).writeBack _ _
  · dsimp only
    split
    · exact h.pairLoad ‹_›
    · exact (((h.pairLoad ‹_›).setX _ _).setX _ _).writeBack _ _
  · split
    · exact h.pairStore ‹_›
    · exact (h.pairStore ‹_›).writeBack _ _

lemma ldstLiteral (h : Ops P A s t) : Ops P A s (ldstLiteral P t insn) := by
  unfold Arm64Emu.ldstLiteral
  refine .ite (.ite h.undef (.ite h.fpTrap (h.vregLoad rfl))) ?_
  dsimp only
  split
  · exact h.read_bind fun _ _ hu => hu.setX _ _
  · exact h.read_bind fun _ _ hu => hu.setX _ _
  · exact h.read_bind fun _ _ hu => hu.setX _ _
  · exact h

lemma setExcl (hA : A.excl) (h : Ops P A s t) (a n : U64) : Ops P A s (setExcl t a n) := h.tail (.excl t a n hA)

lemma ldstExclusive (hA : bit insn 23 = false → bit insn 22 = true → (bit insn 21 = false ∨ bit insn 31 = true) → A.excl)
    (h : Ops P A s t) : Ops P A s (ldstExclusive P t insn) := by
  have hfail (rs : ℕ) : Ops P A s (Arm64Emu.clearExcl (t.setX rs 1)) := (h.setX rs 1).clearExcl
  unfold Arm64Emu.ldstExclusive
  refine .ite h.spAlign (.ite h.ldstCas (.cond (fun _ => h.ldstCasp) fun hcasp => .cond (fun _ => ?_) fun ho2 => ?_))
  · exact .ite (h.read_bind fun _ _ hu => hu.setX _ _) (h.memWrite rfl)
  have hx (hl : bit insn 22 = true) : A.excl := by
    refine hA (by simpa using ho2) hl ?_
    cases h₁ : bit insn 21
    · exact .inl rfl
    · simpa [ho2, h₁] using hcasp
  refine .ite (.cond (fun hl => ?_) fun _ => .ite ?_ (hfail _)) (.cond (fun hl => ?_) fun _ => .ite ?_ (hfail _))
  · exact h.read_bind fun _ _ hu => setExcl (hx hl) (hu.setX _ _) _ _
  · exact h.write_bind fun _ hu => (hu.setX _ _).clearExcl
  · exact h.read_bind fun _ _ h₁ => h₁.read_bind fun _ _ h₂ => setExcl (hx hl) ((h₂.setX _ _).setX _ _) _ _
  · exact h.write_bind fun _ h₁ => h₁.write_bind fun _ h₂ => (h₂.setX _ _).clearExcl

end Ops

/-! The structure loads and stores. -/
namespace Ops
variable {P : Platform D} {A : Scope} {s t : Machine D} {insn : U32}

lemma multiContig (l q : Bool) (n : ℕ) (h : Ops P A s t) (r : ℕ) (addr : U64) :
    Ops P A s (multiContig P l q n t r addr).2 := by
  have hone {t u : Machine D} {vt bytes : ℕ} {addr : U64} {ok : Bool} (h : Ops P A s t)
      (ho : (if l then Arm64Emu.vregLoad P t vt addr bytes else Arm64Emu.vregStore P t vt addr bytes) = (ok, u)) :
      Ops P A s u := by
    cases l
    · exact h.vregStore ho
    · exact h.vregLoad ho
  induction n generalizing t r addr with
  | zero => exact h
  | succ n ih =>
    simp only [Arm64Emu.multiContig]
    split
    · exact hone h ‹_›
    · exact ih (hone h ‹_›) _ _

lemma multiElem (l : Bool) (off ebytes n : ℕ) (h : Ops P A s t) (r : ℕ) (addr : U64) :
    Ops P A s (multiElem P l off ebytes n t r addr).2 := by
  induction n generalizing t r addr with
  | zero => exact h
  | succ n ih =>
    simp only [Arm64Emu.multiElem]
    split
    · split
      · exact h.memRead ‹_›
      · exact ih ((h.memRead ‹_›).setVreg _ _) _ _
    · split
      · exact h.memWrite ‹_›
      · exact ih (h.memWrite ‹_›) _ _

lemma multiInterleaved (l : Bool) (ebytes nregs rt n : ℕ) (h : Ops P A s t) (e : ℕ) (addr : U64) :
    Ops P A s (multiInterleaved P l ebytes nregs rt n e t addr).2 := by
  induction n generalizing t e addr with
  | zero => exact h
  | succ n ih =>
    have he := multiElem l (e * ebytes) ebytes nregs h rt addr
    simp only [Arm64Emu.multiInterleaved]
    split
    · exact he.of_snd ‹_›
    · exact ih (he.of_snd ‹_›) _ _

lemma zeroVregs (h : Ops P A s t) (rt n : ℕ) : Ops P A s (zeroVregs t rt n) := by
  induction n generalizing t rt with
  | zero => exact h
  | succ n ih =>
    rw [Arm64Emu.zeroVregs]
    exact ih (h.setVreg _ _) _

lemma vecPost (h : Ops P A s t) (post : Bool) (rn rm : ℕ) (base : U64) (total : ℕ) :
    Ops P A s (vecPost t post rn rm base total) := by
  unfold Arm64Emu.vecPost
  exact .ite (h.setXsp _ _) h

lemma singleRegs (l q rep : Bool) (index ebytes n : ℕ) (h : Ops P A s t) (r : ℕ) (addr : U64) :
    Ops P A s (singleRegs P l q rep index ebytes n t r addr).2 := by
  induction n generalizing t r addr with
  | zero => exact h
  | succ n ih =>
    simp only [Arm64Emu.singleRegs]
    split
    · split
      · exact h.memRead ‹_›
      · exact ih ((h.memRead ‹_›).setVreg _ _) _ _
    · split
      · exact h.memWrite ‹_›
      · exact ih (h.memWrite ‹_›) _ _

lemma ldstVectorMulti (h : Ops P A s t) : Ops P A s (ldstVectorMulti P t insn) := by
  unfold Arm64Emu.ldstVectorMulti
  refine .ite h.fpTrap ?_
  dsimp only
  split
  · exact h.undef
  rename_i nregs sel _
  refine .ite h.spAlign ?_
  split
  · have hc := multiContig (bit insn 22) (bit insn 30) nregs h (bits insn 4 0) (t.cpu.regXsp (bits insn 9 5))
    exact .ite hc (hc.vecPost _ _ _ _ _)
  · have hz (n : ℕ) : Ops P A s (if bit insn 22 then Arm64Emu.zeroVregs t (bits insn 4 0) n else t) :=
      .ite (h.zeroVregs _ _) h
    have hi := multiInterleaved (bit insn 22) (2 ^ bits insn 11 10) nregs (bits insn 4 0)
      ((if bit insn 30 then 16 else 8) / 2 ^ bits insn 11 10) (hz nregs) 0 (t.cpu.regXsp (bits insn 9 5))
    exact .ite hi (hi.vecPost _ _ _ _ _)

lemma ldstVectorSingle (h : Ops P A s t) : Ops P A s (ldstVectorSingle P t insn) := by
  unfold Arm64Emu.ldstVectorSingle
  refine .ite h.fpTrap ?_
  dsimp only
  split
  · exact h.undef
  rename_i ebytes index rep _
  refine .ite h.spAlign ?_
  have hr := singleRegs (bit insn 22) (bit insn 30) rep index ebytes (bits insn 13 13 * 2 + bits insn 21 21 + 1) h
    (bits insn 4 0) (t.cpu.regXsp (bits insn 9 5))
  split
  · exact hr.of_snd ‹_›
  · exact (hr.of_snd ‹_›).vecPost _ _ _ _ _

end Ops

section Mops

lemma toNat_mopsPageLimit (a : U64) : (mopsPageLimit a).toNat = 0x1000 - pageOff a := by
  have h : (a + 0x1000) &&& ~~~0xfff = pageOf (a + 0x1000) := rfl
  rw [mopsPageLimit, h, pageOf_eq, pageOff_eq_mod]
  bv_omega

lemma toNat_mopsPageLimitRev (a : U64) : (mopsPageLimitRev a).toNat = pageOff a + 1 := by
  have : (a &&& 0xfff).toNat = pageOff a := rfl
  rw [mopsPageLimitRev, BitVec.toNat_add, this, pageOff_eq_mod]
  simp
  omega

lemma toNat_minU (a b : U64) : (minU a b).toNat = min a.toNat b.toNat := by
  unfold minU
  split <;> bv_omega

lemma pageOff_lt (a : U64) : pageOff a < 0x1000 := by
  rw [pageOff_eq_mod]
  exact Nat.mod_lt _ (by decide)

lemma fillBytes_of_not_mem {m : ℕ → U8} {page off n : ℕ} {data : U8} (hn : off + n ≤ 0x1000) {i : ℕ}
    (hi : ¬(page ≤ i ∧ i < page + 0x1000)) : fillBytes m (page + off) n data i = m i :=
  if_neg (by omega)

lemma moveBytes_of_not_mem {m : ℕ → U8} {page off back src n : ℕ} (hback : back ≤ off)
    (hn : off - back + n ≤ 0x1000) {i : ℕ} (hi : ¬(page ≤ i ∧ i < page + 0x1000)) :
    moveBytes m (page + off - back) src n i = m i :=
  if_neg (by omega)

end Mops

/-! Memory copy and set. -/
namespace Ops
variable {P : Platform D} {A : Scope} {s t : Machine D}

section
variable (hA : A.unpriv)
include hA

lemma mopsSetStep (h : Ops P A s t) (a n : U64) (data : U8) (unpriv : Bool) :
    Ops P A s (mopsSetStep P t a n data unpriv).2 := by
  have hu := setUnpriv hA h unpriv
  unfold Arm64Emu.mopsSetStep
  dsimp only
  split
  · rename_i hit
    refine setUnpriv hA (hu.tail (.ramWrite _ unpriv a hit.1 hit.2 fun i hi => ?_)) false
    refine fillBytes_of_not_mem ?_ hi
    rw [toNat_minU, toNat_mopsPageLimit]
    have := pageOff_lt a
    omega
  · exact setUnpriv hA (hu.memWrite rfl) false

lemma mopsCopyStep (h : Ops P A s t) (a b n : U64) (wunpriv runpriv rev : Bool) :
    Ops P A s (mopsCopyStep P t a b n wunpriv runpriv rev).2 := by
  have h₂ := setUnpriv hA (setUnpriv hA h wunpriv) runpriv
  unfold Arm64Emu.mopsCopyStep
  dsimp only
  split
  · rename_i hit
    simp only [Bool.and_eq_true, decide_eq_true_eq] at hit
    refine setUnpriv hA (h₂.tail (.ramWrite _ wunpriv a hit.1.1 hit.1.2 fun i hi => ?_)) false
    have := pageOff_lt a
    cases rev
    · refine moveBytes_of_not_mem (Nat.zero_le _) ?_ hi
      simp only [Bool.false_eq_true, if_false, toNat_minU, toNat_mopsPageLimit]
      omega
    · refine moveBytes_of_not_mem ?_ ?_ hi <;>
      · simp only [if_true, toNat_minU, toNat_mopsPageLimitRev]
        omega
  · split
    · exact setUnpriv hA (h₂.memRead ‹_›) false
    · exact setUnpriv hA ((setUnpriv hA (h₂.memRead ‹_›) wunpriv).memWrite rfl) false

lemma setpLoop (rd rn fuel : ℕ) (data : U8) (unpriv : Bool) (h : Ops P A s t) (a n stage : U64) :
    Ops P A s (setpLoop P rd rn data unpriv fuel t a n stage).2 := by
  induction fuel generalizing t a n stage with
  | zero => exact h
  | succ fuel ih =>
    have h₁ := mopsSetStep hA ((h.setX rd a).setX rn n) a stage data unpriv
    simp only [Arm64Emu.setpLoop]
    split
    · exact h
    split
    · exact h₁
    · exact ih h₁ _ _ _

lemma setmLoop (rn fuel : ℕ) (data : U8) (unpriv : Bool) (h : Ops P A s t) (a n stage : U64) :
    Ops P A s (setmLoop P rn data unpriv fuel t a n stage) := by
  induction fuel generalizing t a n stage with
  | zero => exact h
  | succ fuel ih =>
    have h₁ := mopsSetStep hA h a n data unpriv
    simp only [Arm64Emu.setmLoop]
    exact .ite h (.ite h₁ (ih (h₁.setX _ _) _ _ _))

lemma cpypFwdLoop (rd rs rn fuel : ℕ) (wunpriv runpriv : Bool) (h : Ops P A s t) (a b n stage : U64) :
    Ops P A s (cpypFwdLoop P rd rs rn wunpriv runpriv fuel t a b n stage).2 := by
  induction fuel generalizing t a b n stage with
  | zero => exact h
  | succ fuel ih =>
    have h₁ := mopsCopyStep hA (((h.setX rd a).setX rs b).setX rn n) a b stage wunpriv runpriv false
    simp only [Arm64Emu.cpypFwdLoop]
    split
    · exact h
    split
    · exact h₁
    · exact ih h₁ _ _ _ _

lemma cpypRevLoop (rn fuel : ℕ) (wunpriv runpriv : Bool) (h : Ops P A s t) (a b n stage : U64) :
    Ops P A s (cpypRevLoop P rn wunpriv runpriv fuel t a b n stage).2 := by
  induction fuel generalizing t a b n stage with
  | zero => exact h
  | succ fuel ih =>
    have h₁ := mopsCopyStep hA (h.setX rn n) a b stage wunpriv runpriv true
    simp only [Arm64Emu.cpypRevLoop]
    split
    · exact h
    split
    · exact h₁
    · exact ih h₁ _ _ _ _

lemma cpymLoop (rn stage fuel : ℕ) (fwd wunpriv runpriv : Bool) (h : Ops P A s t) (a b n : U64) :
    Ops P A s (cpymLoop P rn stage fwd wunpriv runpriv fuel t a b n) := by
  induction fuel generalizing t a b n with
  | zero => exact h
  | succ fuel ih =>
    have h₁ := mopsCopyStep hA h a b n wunpriv runpriv (!fwd)
    unfold Arm64Emu.cpymLoop
    exact .ite (.ite h₁ (ih (h₁.setX _ _) _ _ _)) h

lemma mopsSet (h : Ops P A s t) (insn : U32) (stage : ℕ) : Ops P A s (mopsSet P t insn stage) := by
  have hmis (b : Bool) : Ops P A s (mopsMismatch t insn b) := h.mapCpu (.cpuRaiseSync (.refl _) _ _)
  unfold Arm64Emu.mopsSet
  refine .ite ?_ (.ite h (.ite (hmis true) (.ite (hmis false) (setmLoop hA _ _ _ _ h _ _ _))))
  dsimp only
  split
  · exact (setpLoop hA _ _ _ _ _ h _ _ _).of_snd ‹_›
  · exact ((((setpLoop hA _ _ _ _ _ h _ _ _).of_snd ‹_›).setX _ _).setX _ _).mapCpu (.setNzcv (.refl _) _)

lemma mopsCpy (h : Ops P A s t) (insn : U32) (stage : ℕ) (move : Bool) : Ops P A s (mopsCpy P t insn stage move) := by
  have hmis (b : Bool) : Ops P A s (mopsMismatch t insn b) := h.mapCpu (.cpuRaiseSync (.refl _) _ _)
  unfold Arm64Emu.mopsCpy
  refine .ite (.ite ?_ ?_) (.ite h (.ite (hmis true) (.ite (hmis false) (cpymLoop hA _ _ _ _ _ _ h _ _ _))))
  · dsimp only
    split
    · exact (cpypFwdLoop hA _ _ _ _ _ _ h _ _ _ _).of_snd ‹_›
    · exact (((((cpypFwdLoop hA _ _ _ _ _ _ h _ _ _ _).of_snd ‹_›).setX _ _).setX _ _).setX _ _).mapCpu
        (.setNzcv (.refl _) _)
  · dsimp only
    split
    · exact (cpypRevLoop hA _ _ _ _ h _ _ _ _).of_snd ‹_›
    · exact (((cpypRevLoop hA _ _ _ _ h _ _ _ _).of_snd ‹_›).setX _ _).mapCpu (.setNzcv (.refl _) _)

lemma mops (h : Ops P A s t) (insn : U32) : Ops P A s (mops P t insn) := by
  unfold Arm64Emu.mops
  exact .ite h.undef (.ite (.ite h.undef (.ite h.undef (mopsSet hA h _ _)))
    (.ite h.undef (.ite h.undef (mopsCpy hA h _ _ _))))

end

end Ops

/-! System instructions, branches and exceptions. -/
namespace Ops
variable {P : Platform D} {A : Scope} {s t : Machine D}

lemma timerUpdate (h : Ops P A s t) : Ops P A s (timerUpdate P t) := by
  unfold Arm64Emu.timerUpdate
  exact ((h.tail (.clock t false)).tail (.clock _ true)).tail (.timer _ _ _ _)

lemma dcZvaLoop (h : Ops P A s t) (base : U64) (n i : ℕ) : Ops P A s (dcZvaLoop P base n i t) := by
  induction n generalizing t i with
  | zero => exact h
  | succ n ih =>
    simp only [Arm64Emu.dcZvaLoop]
    exact h.write_bind fun _ hu => ih hu _

lemma dcZva (h : Ops P A s t) (base : U64) : Ops P A s (dcZva P t (base &&& ~~~63)) := by
  unfold Arm64Emu.dcZva
  refine .cond (fun hit => ?_) fun _ => h.dcZvaLoop _ _ _
  refine h.tail (.ramWrite t t.cpu.ldstUnpriv _ hit.1 hit.2 fun i hi => if_neg ?_)
  have hoff : pageOff (base &&& ~~~63) ≤ 0xfc0 := by
    rw [pageOff, BitVec.and_assoc, BitVec.toNat_and]
    exact Nat.and_le_right
  omega

lemma mmuAtS1 (h : Ops P A s t) (va : U64) (w e : Bool) : Ops P A s (mmuAtS1 P t va w e).2 := by
  have hw := h.tail (.walk t va)
  unfold Arm64Emu.mmuAtS1
  split
  · exact h
  dsimp only
  split
  · rename_i hr
    rwa [hr] at hw
  · rename_i hr
    rw [hr] at hw
    split_ifs <;> exact hw

lemma sysOp (op1 crn crm op2 rt : ℕ) (hA : crn = 8 → A.tlbi) (h : Ops P A s t) :
    Ops P A s (sysOp P t op1 crn crm op2 rt) := by
  unfold Arm64Emu.sysOp
  refine .cond (fun hcrn => ?_) fun _ => .ite (.ite ?_ (.ite (h.dcZva _) h)) h
  · exact .ite (h.tail (.flushPage t _ (hA hcrn))) (h.tail (.flushAll t (hA hcrn)))
  · exact (h.mmuAtS1 _ _ _).tail (.par _ _)

lemma condCpu {p : Prop} [Decidable p] {c d : Cpu} (h : p → Ops P A s { t with cpu := c })
    (h' : ¬p → Ops P A s { t with cpu := d }) : Ops P A s { t with cpu := if p then c else d } := by
  split
  · exact h ‹_›
  · exact h' ‹_›

/-- `MSR SPSel`, `MSR DAIFSet` and `MSR DAIFClr`. -/
def writesPstate (insn : U32) : Prop :=
  (bits insn 18 16 = 0 ∧ bits insn 7 5 = 5) ∨ (bits insn 18 16 = 3 ∧ (bits insn 7 5 = 6 ∨ bits insn 7 5 = 7))

lemma msrImmediate (insn : U32) (hA : writesPstate insn → A.pstate) (h : Ops P A s t) :
    Ops P A s (t.mapCpu (msrImmediate · insn)) := by
  have hset (f : U32) : Ops P A s { t with cpu := t.cpu.setNzcv f } := h.cpu (.setNzcv (.refl _) f)
  change Ops P A s { t with cpu := Arm64Emu.msrImmediate t.cpu insn }
  unfold Arm64Emu.msrImmediate
  refine .condCpu (fun hsel => ?_) fun _ => .condCpu (fun _ => hset _) fun _ => .condCpu (fun _ => hset _) fun _ =>
    .condCpu (fun _ => hset _) fun _ => .condCpu (fun hd => ?_) fun _ => .condCpu (fun hd => ?_) fun _ => h
  · exact h.tail (.pstate t _ t.cpu.daif (hA (.inl hsel)))
  · exact h.tail (.pstate t t.cpu.spSel _ (hA (.inr ⟨hd.1, .inl hd.2⟩)))
  · exact h.tail (.pstate t t.cpu.spSel _ (hA (.inr ⟨hd.1, .inr hd.2⟩)))

lemma doMrs (h : Ops P A s t) (key rt : ℕ) : Ops P A s (doMrs P t key rt) := by
  have hc (virt : Bool) (v : U64) : Ops P A s ((gtCount P t virt).2.setX rt v) := (h.tail (.clock t virt)).setX rt v
  have hsync : Ops P A s (t.mapCpu fpsrSync) := h.tail (.cpu t (.fpsr _ _ _))
  unfold Arm64Emu.doMrs
  exact .ite h.fpTrap (.ite (hsync.setX _ _) (.ite (hc _ _) (.ite (hc _ _) (.ite (hc _ _)
    (.ite (.ite (hc _ _) (h.setX _ _)) (.ite (hc _ _) (.ite (.ite (hc _ _) (h.setX _ _)) (h.setX _ _))))))))

lemma doMsr (key rt : ℕ) (hA : A.msr key) (h : Ops P A s t) : Ops P A s (doMsr P t key rt) := by
  have htimer {u : Machine D} (hu : Ops P A s u) : Ops P A s (if key / 512 % 16 = 14 then Arm64Emu.timerUpdate P u else u) :=
    .ite hu.timerUpdate hu
  unfold Arm64Emu.doMsr
  refine .ite h.fpTrap (htimer ?_)
  cases hk : msrFlushes key
  · simp only [Bool.false_eq_true, if_false]
    refine .ite ?_ (.ite ?_ (h.tail (.msr t _ hA hk)))
    · exact (h.tail (.clock t false)).tail (.cval _ _ (gtCount P t false).2.cpu.cntvCval)
    · exact (h.tail (.clock t true)).tail (.cval _ (gtCount P t true).2.cpu.cntpCval _)
  · have h₀ : key ≠ sysKey 3 3 14 2 0 ∧ key ≠ sysKey 3 3 14 3 0 := by
      constructor <;> rintro rfl <;> exact absurd hk (by decide)
    rw [if_neg h₀.1, if_neg h₀.2, if_pos rfl]
    exact h.tail (.regime t _ hA hk)

end Ops

def inHintSpace (insn : U32) : Bool := bits insn 31 24 = 0xd5 && isHint insn

/-- `LDXR`, `LDAXR`, `LDXP` and `LDAXP`. -/
def isLoadExclusive (insn : U32) : Bool :=
  bits insn 29 27 = 1 && bits insn 26 24 = 0 && !bit insn 23 && bit insn 22 && (!bit insn 21 || bit insn 31)

def isEret (insn : U32) : Bool := bits insn 31 25 = 0x6b && bits insn 24 21 = 4

/-- `HVC`, `SMC` and `HLT`. -/
def isHostCall (insn : U32) : Bool := bits insn 31 24 = 0xd4 && bits insn 23 21 % 2 = 0 && bits insn 1 0 ≠ 1

def isSysreg (insn : U32) : Bool := bits insn 31 24 = 0xd5 && !isHint insn && !isBarrier insn

def sysregKey (insn : U32) : ℕ :=
  sysKey (bits insn 20 19) (bits insn 18 16) (bits insn 15 12) (bits insn 11 8) (bits insn 7 5)

def scopeOf (insn : U32) : Scope where
  unpriv := bits insn 28 25 ≠ 0xa ∧ bits insn 28 25 ≠ 0xb
  excl := isLoadExclusive insn = true
  hint := inHintSpace insn = true
  host := isHostCall insn = true
  eret := isEret insn = true
  pstate := isSysreg insn = true ∧ bits insn 20 19 = 0 ∧ Ops.writesPstate insn
  tlbi := isSysreg insn = true ∧ bits insn 20 19 = 1 ∧ bit insn 21 = false ∧ bits insn 15 12 = 8
  msr := fun key => isSysreg insn = true ∧ 2 ≤ bits insn 20 19 ∧ bit insn 21 = false ∧ key = sysregKey insn
  fp := bits insn 28 25 = 0x7 ∨ bits insn 28 25 = 0xf

namespace Ops
variable {P : Platform D} {s t : Machine D} {insn : U32}

lemma sysregExec (hsys : isSysreg insn = true) (h : Ops P (scopeOf insn) s t) :
    Ops P (scopeOf insn) s (sysregExec P t insn) := by
  unfold Arm64Emu.sysregExec
  refine .cond (fun h₀ => ?_) fun h₀ => .cond (fun h₁ => ?_) fun h₁ => .cond (fun _ => h.doMrs _ _) fun hl => ?_
  · exact h.msrImmediate insn fun hp => ⟨hsys, h₀, hp⟩
  · refine .cond (fun hl => ?_) fun _ => h.setX _ _
    exact h.sysOp _ _ _ _ _ fun hcrn => ⟨hsys, h₁, by simpa using hl, hcrn⟩
  · exact h.doMsr _ _ ⟨hsys, by omega, by simpa using hl, rfl⟩

lemma exceptionGen (hgen : bits insn 31 24 = 0xd4) (h : Ops P (scopeOf insn) s t) :
    Ops P (scopeOf insn) s (t.mapCpu (exceptionGen · insn)) := by
  have htake (kind : ExcKind) (esr far ret : U64) :
      Ops P (scopeOf insn) s { t with cpu := exceptionTake t.cpu kind esr far ret } := h.tail (.cpu t (.take _ _ _ _ _))
  change Ops P (scopeOf insn) s { t with cpu := Arm64Emu.exceptionGen t.cpu insn }
  unfold Arm64Emu.exceptionGen
  refine .condCpu (fun _ => htake _ _ _ _) fun _ => .condCpu (fun hc => ?_) fun _ => .condCpu (fun _ => htake _ _ _ _)
    fun _ => .condCpu (fun hc => ?_) fun _ => htake _ _ _ _
  · refine .condCpu (fun _ => htake _ _ _ _) fun hel => h.tail (.conduit t ?_ hel)
    have hne : bits insn 1 0 ≠ 1 := by omega
    simp [scopeOf, isHostCall, hgen, hc.1, hne]
  · exact h.tail (.stop t (by simp [scopeOf, isHostCall, hgen, hc.1, hc.2]))

lemma branchReg (hbr : bits insn 31 25 = 0x6b) (h : Ops P (scopeOf insn) s t) :
    Ops P (scopeOf insn) s (t.mapCpu (branchReg · insn)) := by
  change Ops P (scopeOf insn) s { t with cpu := Arm64Emu.branchReg t.cpu insn }
  unfold Arm64Emu.branchReg
  dsimp only
  split
  · exact h.cpu (.setPc (.refl _) _)
  · exact h.cpu (.setPc (.setX (.refl _) _ _) _)
  · exact h.cpu (.setPc (.refl _) _)
  · rename_i hop
    exact h.tail (.eret t (by simp [scopeOf, isEret, hbr, hop]))
  · exact h.cpu (cpuOps_undefined _)

lemma branchSystem (h : Ops P (scopeOf insn) s t) : Ops P (scopeOf insn) s (branchSystem P t insn) := by
  have hjump (off : U64) : Ops P (scopeOf insn) s (t.mapCpu (·.setPc (t.cpu.curInsnPc + off))) :=
    h.mapCpu (.setPc (.refl _) _)
  unfold Arm64Emu.branchSystem
  refine .ite (hjump _) (.ite (h.mapCpu (.setPc (.setX (.refl _) _ _) _)) (.ite (.ite (hjump _) h)
    (.ite (.ite (hjump _) h) (.ite (.ite (hjump _) h) (.cond h.exceptionGen fun _ => .cond h.branchReg fun _ =>
      .cond (fun hsys => ?_) fun _ => h.undef)))))
  refine .cond (fun hh => ?_) fun hh => .cond (fun _ => .ite h.clearExcl h) fun hb => ?_
  · exact h.tail (.hint t insn (by simp [scopeOf, inHintSpace, hsys, hh]))
  · exact h.sysregExec (by simp [isSysreg, hsys, hh, hb])

lemma loadsStores (hu : (scopeOf insn).unpriv) (h : Ops P (scopeOf insn) s t) :
    Ops P (scopeOf insn) s (loadsStores P t insn) := by
  unfold Arm64Emu.loadsStores
  refine .ite (ldstRegister hu h) (.ite h.ldstPair (.ite h.ldstLiteral (.cond (fun hx => ?_) fun _ =>
    .ite h.ldstVectorMulti (.ite h.ldstVectorSingle (.ite h.ldstRcpcUnscaled (.ite (mops hu h insn) h.undef))))))
  refine ldstExclusive (fun h₁ h₂ h₃ => ?_) h
  simpa [scopeOf, isLoadExclusive, hx.1, hx.2, h₁, h₂] using h₃

end Ops

theorem ops_execA64 (P : Platform D) (s : Machine D) (insn : U32) : Ops P (scopeOf insn) s (execA64 P s insn) := by
  have h := Ops.refl (P := P) (A := scopeOf insn) s
  have hls (hu : (scopeOf insn).unpriv) : Ops P (scopeOf insn) s (loadsStores P s insn) := Ops.loadsStores hu h
  simp only [scopeOf] at hls
  unfold execA64
  split
  · exact h.mapCpu (cpuOps_dpImmediate _ _)
  · exact h.mapCpu (cpuOps_dpImmediate _ _)
  · exact h.branchSystem
  · exact h.branchSystem
  · exact hls (by omega)
  · exact hls (by omega)
  · exact hls (by omega)
  · exact hls (by omega)
  · exact h.mapCpu (cpuOps_dpRegister _ _)
  · exact h.mapCpu (cpuOps_dpRegister _ _)
  · exact .ite h.fpTrap (h.tail (.fp s insn (.inl ‹_›)))
  · exact .ite h.fpTrap (h.tail (.fp s insn (.inr ‹_›)))
  · exact h.undef

end Arm64Emu
