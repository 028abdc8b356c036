import Arm64Emu.BusRel

/-! What happens to the translation caches. Every action is a sequence of a few steps,
each of which leaves them alone, fills one entry, or flushes. -/
namespace Arm64Emu

variable {D : Type}

def Cpu.regime (c : Cpu) : U64 × U64 × U64 × U64 := (c.sctlr 1, c.ttbr0 1, c.ttbr1 1, c.tcr 1)

lemma Cpu.regime_of_held {c c' : Cpu} (h : c'.held = c.held) : c'.regime = c.regime :=
  congrArg (fun h : Held => (h.sctlr 1, h.ttbr0 1, h.ttbr1 1, h.tcr 1)) h

/-- The software TLB translates `va` to `pa` for the access, or translation is off. -/
def TlbHit (s : Machine D) (va pa : U64) (acc : AccType) : Prop :=
  if mmuOn s.cpu then
    let e := s.bus.tlb (tlbIdx va)
    e.valid = true ∧ e.gen = s.bus.tlbGen ∧ e.vaPage = pageOf va ∧ e.el0 = accEl0 s.cpu ∧
      permOkEl acc e.ap e.uxn e.pxn e.el0 = true ∧ pa = e.paPage ||| (va &&& 0xfff)
  else pa = va

/-- The bus with the leaf of a walk recorded in the software TLB. -/
def tlbFill (b : Bus D) (va : U64) (leaf : Leaf) (el0 : Bool) : Bus D :=
  let b := if leaf.blkShift ≠ 0 then lpRecord b va leaf.blkShift else b
  let e := ⟨pageOf va, leaf.paPage, b.tlbGen, true, leaf.ap, leaf.uxn, leaf.pxn, el0⟩
  { b with tlb := Function.update b.tlb (tlbIdx va) e }

def fetchFill (s : Machine D) (va pa : U64) (hp : HostPage) : Bus D :=
  let f : FetchCache := ⟨pageOf va, pageOf pa, some hp, mmuOn s.cpu⟩
  { s.bus with fcache := Function.update s.bus.fcache (decide (s.cpu.el = 0)) f }

section Fields
variable (b : Bus D) (va : U64)

lemma lpRecord_eq (shift : ℕ) : ∃ base mask, lpRecord b va shift = { b with lpBase := base, lpMask := mask } := by
  unfold lpRecord
  dsimp only
  split
  · exact ⟨_, _, rfl⟩
  · exact ⟨_, _, rfl⟩

lemma tlbFill_eq (leaf : Leaf) (el0 : Bool) : ∃ base mask, tlbFill b va leaf el0 =
    { b with
      lpBase := base, lpMask := mask
      tlb := Function.update b.tlb (tlbIdx va)
        (TlbEntry.mk (pageOf va) leaf.paPage b.tlbGen true leaf.ap leaf.uxn leaf.pxn el0) } := by
  unfold tlbFill
  dsimp only
  split
  · obtain ⟨base, mask, h⟩ := lpRecord_eq b va leaf.blkShift
    rw [h]
    exact ⟨base, mask, rfl⟩
  · exact ⟨b.lpBase, b.lpMask, rfl⟩

lemma tlbFlushAll_host (el0 : Bool) : ((tlbFlushAll b).fcache el0).host = none := by
  unfold tlbFlushAll
  dsimp only
  split_ifs <;> rfl

lemma tlbFlushPage_host (el0 : Bool) : ((tlbFlushPage b va).fcache el0).host = none := by
  unfold tlbFlushPage
  split
  · exact tlbFlushAll_host b el0
  · rfl

lemma dtlbFill_eq (P : Platform D) (s : Machine D) (va pa : U64) :
    dtlbFill P s va pa = s ∨ ∃ r w, ramPage P (pageOf pa) = true ∧
      (w = true → P.jitCode s.bus.dev (pfnOf (pageOf pa)) = false) ∧
      dtlbFill P s va pa = { s with bus := { s.bus with
        dtlb := Function.update s.bus.dtlb (tlbIdx va)
          (DtlbEnt.mk (dtlbTag s.cpu s.bus va) (pageOf pa - ramBase).toNat r w) } } := by
  unfold dtlbFill
  dsimp only
  split_ifs with hram htlb hmmu
  · exact .inl rfl
  · exact .inl rfl
  · refine .inr ⟨_, _, by simpa using hram, fun hw => ?_, rfl⟩
    simpa using (Bool.and_eq_true_iff.mp hw).2
  · refine .inr ⟨_, _, by simpa using hram, fun hw => ?_, rfl⟩
    simpa using (Bool.and_eq_true_iff.mp hw).2

end Fields

/-- One step; `R` is what may happen to the bus outside the caches. -/
inductive CacheStep (P : Platform D) (R : Bus D → Bus D → Prop) : Machine D → Machine D → Prop
  | cpu (s : Machine D) {c : Cpu} : c.regime = s.cpu.regime → CacheStep P R s { s with cpu := c }
  | bus (s : Machine D) {b : Bus D} : R s.bus b → CacheStep P R s { s with bus := b }
  | tlb (s : Machine D) (va : U64) {leaf : Leaf} {b : Bus D} : walk P s.cpu s.bus va = (.ok leaf, b) → R s.bus b →
      CacheStep P R s ⟨s.cpu, tlbFill b va leaf (accEl0 s.cpu)⟩
  | dtlb (s : Machine D) {va pa : U64} {acc : AccType} : TlbHit s va pa acc → CacheStep P R s (dtlbFill P s va pa)
  | fetch (s : Machine D) {va pa : U64} {hp : HostPage} : TlbHit s va pa .exec →
      hostPagePtr P (pageOf pa) = some hp → CacheStep P R s { s with bus := fetchFill s va pa hp }
  | flushAll (s : Machine D) : CacheStep P R s { s with bus := tlbFlushAll s.bus }
  | flushPage (s : Machine D) (va : U64) : CacheStep P R s { s with bus := tlbFlushPage s.bus va }
  | regime (s : Machine D) (c : Cpu) : CacheStep P R s ⟨c, tlbFlushAll s.bus⟩

def CacheSteps (P : Platform D) (R : Bus D → Bus D → Prop) : Machine D → Machine D → Prop :=
  Relation.ReflTransGen (CacheStep P R)

namespace CacheSteps
variable {P : Platform D} {R : Bus D → Bus D → Prop} {s t u : Machine D}

lemma refl (s : Machine D) : CacheSteps P R s s := Relation.ReflTransGen.refl

lemma tail (h : CacheSteps P R s t) (h' : CacheStep P R t u) : CacheSteps P R s u := Relation.ReflTransGen.tail h h'

lemma invariant {I : Machine D → Prop} (hI : ∀ s t, CacheStep P R s t → I s → I t) (h : CacheSteps P R s t)
    (hs : I s) : I t := by
  induction h with
  | refl => exact hs
  | tail _ hstep ih => exact hI _ _ hstep ih

lemma cpu (h : CacheSteps P R s t) {c : Cpu} (hc : c.regime = t.cpu.regime) : CacheSteps P R s { t with cpu := c } :=
  h.tail (.cpu t hc)

lemma raiseAbort (h : CacheSteps P R s t) (va : U64) (acc : AccType) (fsc : ℕ) :
    CacheSteps P R s ⟨raiseAbort t.cpu va acc fsc, t.bus⟩ :=
  h.cpu (Cpu.regime_of_held (raiseAbort_held t.cpu va acc fsc))

end CacheSteps

section Access
variable {P : Platform D} {R : Bus D → Bus D → Prop} (hR : BusRel P R)
  (hc : ∀ b b', R b b' → b'.caches = b.caches)

lemma tlbHit_mmuTranslate {s t : Machine D} {va pa : U64} {acc : AccType}
    (h : mmuTranslate P s va acc = (some pa, t)) : TlbHit t va pa acc := by
  unfold mmuTranslate at h
  dsimp only at h
  split_ifs at h with hoff hhit
  · cases h
    simp only [TlbHit, show mmuOn s.cpu = false by simpa using hoff, Bool.false_eq_true, if_false]
  · cases h
    obtain ⟨hv, hg, hp, he, hperm⟩ := hhit
    simp only [TlbHit, show mmuOn s.cpu = true by simpa using hoff, if_true, he]
    exact ⟨hv, hg, hp, trivial, hperm, trivial⟩
  · rcases hw : walk P s.cpu s.bus va with ⟨fsc | leaf, b⟩
    · rw [hw] at h
      cases h
    · rw [hw] at h
      dsimp only at h
      split at h
      · cases h
      · rename_i hperm
        cases h
        simp only [TlbHit, show mmuOn s.cpu = true by simpa using hoff, if_true, Function.update_self, true_and,
          and_true]
        simpa using hperm

lemma TlbHit.congr {s : Machine D} {va pa : U64} {acc : AccType} {b : Bus D} (h : TlbHit s va pa acc)
    (hb : b.caches = s.bus.caches) : TlbHit ⟨s.cpu, b⟩ va pa acc := by
  have htlb : b.tlb = s.bus.tlb := congrArg Caches.tlb hb
  have hgen : b.tlbGen = s.bus.tlbGen := congrArg Caches.tlbGen hb
  simpa only [TlbHit, htlb, hgen] using h

include hR

lemma steps_mmuTranslate (s : Machine D) (va : U64) (acc : AccType) :
    CacheSteps P R s (mmuTranslate P s va acc).2 := by
  unfold mmuTranslate
  dsimp only
  split_ifs
  · exact .refl s
  · exact .refl s
  have hb := hR.walk s.cpu s.bus va
  rcases hw : walk P s.cpu s.bus va with ⟨fsc | leaf, b⟩
  · rw [hw] at hb
    exact ((CacheSteps.refl s).tail (.bus s hb)).raiseAbort va acc fsc
  · rw [hw] at hb
    have ht : CacheSteps P R s ⟨s.cpu, tlbFill b va leaf (accEl0 s.cpu)⟩ := (CacheSteps.refl s).tail (.tlb s va hw hb)
    dsimp only
    split
    · exact ht.raiseAbort va acc fscPermL3
    · exact ht

include hc in
lemma steps_memReadPage (s : Machine D) (va : U64) (n : ℕ) : CacheSteps P R s (memReadPage P s va n).2 := by
  have ht := steps_mmuTranslate hR s va .read
  unfold memReadPage
  dsimp only
  split
  · exact .refl s
  rcases hm : mmuTranslate P s va .read with ⟨_ | pa, t⟩
  · rw [hm] at ht
    exact ht
  · have hhit := tlbHit_mmuTranslate hm
    rw [hm] at ht
    have hr := hR.physRead t.bus pa n
    dsimp only
    generalize physRead P t.bus pa n = r at hr
    obtain ⟨v, b⟩ := r
    have hb : CacheSteps P R s ⟨t.cpu, b⟩ := ht.tail (.bus t hr)
    split
    · exact hb.raiseAbort va .read fscExternal
    · exact hb.tail (.dtlb _ (hhit.congr (hc _ _ hr)))

include hc in
lemma steps_memWritePage (s : Machine D) (va : U64) (n : ℕ) (v : U64) :
    CacheSteps P R s (memWritePage P s va n v).2 := by
  have ht := steps_mmuTranslate hR s va .write
  unfold memWritePage
  dsimp only
  split
  · exact (CacheSteps.refl s).tail (.bus s (hR.ram s.bus _))
  rcases hm : mmuTranslate P s va .write with ⟨_ | pa, t⟩
  · rw [hm] at ht
    exact ht
  · have hhit := tlbHit_mmuTranslate hm
    rw [hm] at ht
    have hr := hR.physWrite t.bus pa n v
    dsimp only
    generalize physWrite P t.bus pa n v = b at hr
    have hb : CacheSteps P R s ⟨t.cpu, b⟩ := ht.tail (.bus t hr)
    split
    · exact hb.raiseAbort va .write fscExternal
    · split
      · have hr' := hR.trans hr (hR.hook b pa (zext n))
        exact (ht.tail (.bus t hr')).tail (.dtlb _ (hhit.congr (hc _ _ hr')))
      · exact hb.tail (.dtlb _ (hhit.congr (hc _ _ hr)))

lemma steps_memIfetchSlow (s : Machine D) (va : U64) : CacheSteps P R s (memIfetchSlow P s va).2 := by
  have ht := steps_mmuTranslate hR s va .exec
  unfold memIfetchSlow
  dsimp only
  split
  · exact (CacheSteps.refl s).cpu rfl
  rcases hm : mmuTranslate P s va .exec with ⟨_ | pa, t⟩
  · rw [hm] at ht
    exact ht
  · have hhit := tlbHit_mmuTranslate hm
    rw [hm] at ht
    dsimp only
    split
    · exact ht.tail (.fetch t hhit ‹_›)
    · have hr := hR.physRead t.bus pa 4
      generalize physRead P t.bus pa 4 = r at hr
      obtain ⟨v, b⟩ := r
      have hb : CacheSteps P R s ⟨t.cpu, b⟩ := ht.tail (.bus t hr)
      split
      · exact hb.raiseAbort va .exec fscExternal
      · exact hb

lemma steps_gtCount (s : Machine D) (virt : Bool) : CacheSteps P R s (gtCount P s virt).2 := by
  unfold gtCount
  dsimp only
  split
  · exact ((CacheSteps.refl s).tail (.bus s (hR.clock s.bus))).cpu rfl
  · exact .refl s

include hc in
lemma Act.cacheSteps {s t : Machine D} (ha : Act P s t) : CacheSteps P R s t := by
  have h := CacheSteps.refl (P := P) (R := R) s
  cases ha with
  | regs hheld => exact h.cpu (Cpu.regime_of_held hheld)
  | unpriv b => exact h.cpu rfl
  | read va n => exact steps_memReadPage hR hc s va n
  | write va n v => exact steps_memWritePage hR hc s va n v
  | ramWrite b va => exact h.tail (.bus s (hR.ram s.bus _))
  | fetch va => exact steps_memIfetchSlow hR s va
  | walk va => exact h.tail (.bus s (hR.walk s.cpu s.bus va))
  | flushAll => exact h.tail (.flushAll s)
  | flushPage va => exact h.tail (.flushPage s va)
  | regime v hk => exact h.tail (.regime s _)
  | clock virt => exact steps_gtCount hR s virt
  | timer phys virt deadline => exact h.tail (.bus s (hR.timer s.bus phys virt deadline))

end Access

end Arm64Emu
