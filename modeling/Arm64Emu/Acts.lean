import Arm64Emu.Frame

/-! The actions behind the operations. For the translation caches, the bus and the
translator an operation is one of a few kinds of actions, most of them a change of the
registers, so that a property which each action keeps holds after every instruction. -/
namespace Arm64Emu

variable {D : Type}

/-- One action. `read` and `write` are the accesses that are not split any more, with
all their side effects on the translation caches, the bus and the devices, and `fetch`
an instruction fetch that misses the fetch cache; `ramWrite` is a bulk write through a writable entry of the data TLB. -/
inductive Act (P : Platform D) : Machine D → Machine D → Prop
  | regs (s : Machine D) {c : Cpu} : c.held = s.cpu.held → Act P s { s with cpu := c }
  | unpriv (s : Machine D) (b : Bool) : Act P s (s.setUnpriv b)
  | read (s : Machine D) (va : U64) (size : ℕ) : Act P s (memReadPage P s va size).2
  | write (s : Machine D) (va : U64) (size : ℕ) (v : U64) : Act P s (memWritePage P s va size v).2
  | ramWrite (s : Machine D) (b : Bool) (va : U64) {ram : ℕ → U8} :
      (s.bus.dtlb (tlbIdx va)).tag = dtlbTag (s.setUnpriv b).cpu s.bus va → (s.bus.dtlb (tlbIdx va)).w = true →
      (∀ i, ¬((s.bus.dtlb (tlbIdx va)).page ≤ i ∧ i < (s.bus.dtlb (tlbIdx va)).page + 0x1000) → ram i = s.bus.ram i) →
      Act P s { s with bus := { s.bus with ram := ram } }
  | fetch (s : Machine D) (va : U64) : Act P s (memIfetchSlow P s va).2
  | walk (s : Machine D) (va : U64) : Act P s ⟨s.cpu, (walk P s.cpu s.bus va).2⟩
  | flushAll (s : Machine D) : Act P s { s with bus := tlbFlushAll s.bus }
  | flushPage (s : Machine D) (va : U64) : Act P s { s with bus := tlbFlushPage s.bus va }
  | regime (s : Machine D) {key : ℕ} (v : U64) : msrFlushes key = true →
      Act P s ⟨msrCpu s.cpu key v, tlbFlushAll s.bus⟩
  | clock (s : Machine D) (virt : Bool) : Act P s (gtCount P s virt).2
  | timer (s : Machine D) (phys virt : Bool) (deadline : U64) :
      Act P s { s with bus := P.timerLines s.bus phys virt deadline }

def Acts (P : Platform D) : Machine D → Machine D → Prop := Relation.ReflTransGen (Act P)

section Rules
variable {P : Platform D} {s t u : Machine D}

@[refl] lemma Acts.refl (s : Machine D) : Acts P s s := Relation.ReflTransGen.refl

lemma Acts.tail (h : Acts P s t) (g : Act P t u) : Acts P s u := Relation.ReflTransGen.tail h g

lemma Acts.trans (h : Acts P s t) (g : Acts P t u) : Acts P s u := Relation.ReflTransGen.trans h g

lemma Acts.invariant {I : Machine D → Prop} (hI : ∀ s t, Act P s t → I s → I t) (h : Acts P s t) (hs : I s) :
    I t := by
  induction h with
  | refl => exact hs
  | tail _ hstep ih => exact hI _ _ hstep ih

lemma Acts.mapCpu {f : Cpu → Cpu} (h : Acts P s t) (hf : (f t.cpu).held = t.cpu.held) : Acts P s (t.mapCpu f) :=
  h.tail (.regs t hf)

lemma Acts.memIfetch {va : U64} {o : Option U32} (h : Acts P s t) (hr : memIfetch P t va = (o, u)) :
    Acts P s u := by
  have hslow {o : Option U32} (hr : memIfetchSlow P t va = (o, u)) : Acts P s u := by
    have hf := h.tail (.fetch t va)
    rwa [hr] at hf
  unfold Arm64Emu.memIfetch at hr
  dsimp only at hr
  split at hr
  · split at hr
    · cases hr
      exact h
    · exact hslow hr
  · exact hslow hr

end Rules

section Operations
variable {P : Platform D} {A : Scope} {s t u : Machine D}

lemma Op.act (hfp : A.fp → ∀ c insn, (P.execFpsimd c insn).held = c.held) (hA : ¬A.hint) (h : Op P A s t) : Act P s t := by
  cases h with
  | cpu hc => exact .regs s hc.held
  | read va n => exact .read s va n
  | write va n v => exact .write s va n v
  | ramWrite b va ht hw hram => exact .ramWrite s b va ht hw hram
  | unpriv b => exact .unpriv s b
  | excl a n => exact .regs s rfl
  | hint insn hh => exact absurd hh hA
  | conduit => exact .regs s (smcccConduit_held _)
  | stop => exact .regs s rfl
  | eret => exact .regs s rfl
  | pstate => exact .regs s rfl
  | flushAll => exact .flushAll s
  | flushPage va => exact .flushPage s va
  | msr v _ hk => exact .regs s (msrCpu_held hk v)
  | regime v _ hk => exact .regime s v hk
  | cval => exact .regs s rfl
  | walk va => exact .walk s va
  | par => exact .regs s rfl
  | clock virt => exact .clock s virt
  | timer phys virt deadline => exact .timer s phys virt deadline
  | fp insn hf => exact .regs s (hfp hf _ _)

lemma Ops.acts (hfp : A.fp → ∀ c insn, (P.execFpsimd c insn).held = c.held) (hA : ¬A.hint) (h : Ops P A s t) :
    Acts P s t :=
  h.rel Acts.refl (fun _ _ _ => Acts.trans) fun s _ ho => (Acts.refl s).tail (ho.act hfp hA)

lemma Acts.plain (h : Acts P s t) (ho : Ops P .plain t u) : Acts P s u := h.trans (ho.acts False.elim id)

lemma Acts.memRead {va : U64} {n : ℕ} {o : Option U64} (h : Acts P s t) (hr : memRead P t va n = (o, u)) :
    Acts P s u := h.plain (Ops.memRead (.refl t) hr)

lemma Acts.memWrite {va v : U64} {n : ℕ} {ok : Bool} (h : Acts P s t) (hw : memWrite P t va n v = (ok, u)) :
    Acts P s u := h.plain (Ops.memWrite (.refl t) hw)

lemma Acts.vregLoad {vt n : ℕ} {va : U64} {ok : Bool} (h : Acts P s t) (hl : vregLoad P t vt va n = (ok, u)) :
    Acts P s u := h.plain (Ops.vregLoad (.refl t) hl)

lemma Acts.vregStore {vt n : ℕ} {va : U64} {ok : Bool} (h : Acts P s t) (hl : vregStore P t vt va n = (ok, u)) :
    Acts P s u := h.plain (Ops.vregStore (.refl t) hl)

lemma execA64_hint (s : Machine D) {insn : U32} (h : inHintSpace insn = true) :
    execA64 P s insn = s.mapCpu (hint · insn) := by
  obtain ⟨hsys, hh⟩ : bits insn 31 24 = 0xd5 ∧ isHint insn = true := by simpa [inHintSpace] using h
  have hgrp : bits insn 28 25 = 0xa ∧ bits insn 31 26 = 0x35 ∧ bits insn 30 25 = 0x2a ∧ bits insn 31 25 = 0x6a := by
    simp only [bits, Nat.shiftRight_eq_div_pow] at hsys ⊢
    omega
  obtain ⟨h₁, h₂, h₃, h₄⟩ := hgrp
  simp only [execA64, h₁, branchSystem, h₂, h₃, h₄, hsys, hh, if_true]
  rfl

theorem acts_execA64 (hfp : ∀ c insn, (P.execFpsimd c insn).held = c.held) (s : Machine D) {insn : U32}
    (hh : inHintSpace insn = false) : Acts P s (execA64 P s insn) := by
  have hA : ¬(scopeOf insn).hint := by simp [scopeOf, hh]
  exact (ops_execA64 P s insn).acts (fun _ => hfp) hA

end Operations

end Arm64Emu
