import Arm64Emu.JitReach

/-! Write protection of code pages. A page of RAM that translated code lies on has its bit
in the code bitmap, and no entry of the data TLB lets generated code write to such a page
without reporting it. -/
namespace Arm64Emu

variable {D : Type}

section Pages
variable {P : Platform D} {a b : U64}

lemma ramPage_iff : ramPage P a = true ↔ ramBase ≤ a ∧ a - ramBase < P.ramSize := by
  simp [ramPage]

lemma page_eq_of_pfn (ha : pageOf a = a) (hb : pageOf b = b) (hra : ramPage P a = true) (hrb : ramPage P b = true)
    (h : pfnOf a = pfnOf b) : a = b := by
  rw [ramPage_iff] at hra hrb
  rw [pageOf_eq_self] at ha hb
  have hle := hra.1
  have hle' := hrb.1
  unfold pfnOf at h
  simp only [ramBase] at *
  bv_omega

lemma page_eq_of_offset (h : (a - ramBase).toNat = (b - ramBase).toNat) : a = b := by
  have h' := BitVec.eq_of_toNat_eq h
  bv_omega

lemma hostPagePtr_ram {hp : HostPage} (ha : pageOf a = a) (hr : ramPage P a = true) (h : hostPagePtr P a = some hp) :
    hp = .ram (a - ramBase).toNat := by
  unfold hostPagePtr at h
  split_ifs at h with hram hflash
  · exact (Option.some.inj h).symm
  · -- the flash lies below the RAM
    have hle := (ramPage_iff.mp hr).1
    rw [pageOf_eq_self] at ha
    have hram' : ¬ a + 0x1000 ≤ ramBase + P.ramSize := fun hend =>
      hram (Bool.and_eq_true_iff.mpr ⟨decide_eq_true hle, decide_eq_true hend⟩)
    have hflash' : a + 0x1000 ≤ flashBase + flashSize := by
      simp only [inFlash, Bool.and_eq_true] at hflash
      exact of_decide_eq_true hflash.2
    simp only [flashBase, flashSize, ramBase] at *
    bv_omega

end Pages

/-- The blocks on pages of RAM are on marked pages, and the data TLB has no write
permission for a marked page. -/
structure Protected (P : Platform (Jitted D)) (m : JitMachine D) : Prop where
  code {i} : m.env.Live i → ramPage P (m.env.arena i).paPage = true → m.env.bitmap (pfnOf (m.env.arena i).paPage) = true
  dtlb {k pa} : pageOf pa = pa → ramPage P pa = true → m.env.bitmap (pfnOf pa) = true →
    (m.bus.dtlb k).page = (pa - ramBase).toNat → (m.bus.dtlb k).w = false

/-- What keeps the code pages marked, besides: blocks are recorded under whole pages. -/
structure JitEnv.Marked (P : Platform (Jitted D)) (env : JitEnv) : Prop where
  aligned {i} : env.Live i → pageOf (env.arena i).paPage = (env.arena i).paPage
  code {i} : env.Live i → ramPage P (env.arena i).paPage = true → env.bitmap (pfnOf (env.arena i).paPage) = true

def DtlbOk (P : Platform (Jitted D)) (b : Bus (Jitted D)) : Prop :=
  ∀ k pa, pageOf pa = pa → ramPage P pa = true → b.dev.env.bitmap (pfnOf pa) = true →
    (b.dtlb k).page = (pa - ramBase).toNat → (b.dtlb k).w = false

section Env
variable {P : Platform (Jitted D)} {env : JitEnv}

lemma bitmap_jitDropPage (env : JitEnv) (page : U64) : (env.jitDropPage page).bitmap = env.bitmap := by
  unfold JitEnv.jitDropPage
  dsimp only
  split <;> rfl

lemma JitEnv.Marked.jitDropPage (h : env.Marked P) (ht : env.Tables) (page : U64) : (env.jitDropPage page).Marked P := by
  have hs := JitEnv.shrinks_jitDropPage ht.toChains page
  constructor
  · intro i hi
    rw [hs.code i]
    exact h.aligned (hs.live hi)
  · intro i hi
    rw [hs.code i, bitmap_jitDropPage]
    exact h.code (hs.live hi)

lemma JitEnv.not_live_jitDropPage (ht : env.Tables) {page : U64} {i : ℕ} (hi : (env.jitDropPage page).Live i) :
    (env.arena i).paPage ≠ page := by
  rintro rfl
  have hi' := (JitEnv.shrinks_jitDropPage ht.toChains _).live hi
  have hmem : i ∈ env.onPage (env.arena i).paPage := List.mem_filter.mpr ⟨ht.live hi', decide_eq_true rfl⟩
  rw [JitEnv.jitDropPage_eq ht.toChains, if_pos (List.ne_nil_of_mem hmem)] at hi
  exact (JTable.live_dropBlocks.mp hi).2 hmem

lemma JitEnv.Marked.invalidatePage (h : env.Marked P) (ht : env.Tables) {page : U64} (hp : pageOf page = page) :
    (env.invalidatePage (ramPage P page) page).Marked P := by
  have hd := h.jitDropPage ht page
  unfold JitEnv.invalidatePage
  dsimp only
  split_ifs with hskip hram
  · exact h
  · -- the bit of the page is cleared, and no block is left on it
    refine ⟨hd.aligned, fun {i} hi hr => ?_⟩
    have hne : (env.arena i).paPage ≠ page := JitEnv.not_live_jitDropPage ht hi
    have hcode : ((env.jitDropPage page).arena i).paPage = (env.arena i).paPage :=
      congrArg JCode.paPage ((JitEnv.shrinks_jitDropPage ht.toChains page).code i)
    have hpfn : pfnOf ((env.jitDropPage page).arena i).paPage ≠ pfnOf page := fun heq => by
      refine hne (hcode.symm.trans (page_eq_of_pfn (hd.aligned hi) hp hr hram heq))
    refine (Function.update_of_ne hpfn ..).trans ?_
    exact hd.code hi hr
  · exact ⟨hd.aligned, hd.code⟩

lemma bitmap_invalidatePage {isRam : Bool} {page n : U64} (h : (env.invalidatePage isRam page).bitmap n = true) :
    env.bitmap n = true := by
  have hbits := bitmap_jitDropPage env page
  unfold JitEnv.invalidatePage at h
  dsimp only at h
  split_ifs at h
  · exact h
  · by_cases hn : n = pfnOf page
    · subst hn
      simp [JitEnv.bitmapClear] at h
    · rw [← hbits]
      exact (Function.update_of_ne hn ..).symm.trans h
  · rw [← hbits]
    exact h

lemma Invals.marked {env' : JitEnv} (h : Invals (ramPage P) env env') (ht : env.Tables) (hm : env.Marked P) : env'.Marked P := by
  have hI : env'.Tables ∧ env'.Marked P := by
    refine h.invariant (I := fun e => e.Tables ∧ e.Marked P) (fun e a he => ?_) ⟨ht, hm⟩
    exact ⟨he.1.invalidatePage _ _, he.2.invalidatePage he.1 (pageOf_pageOf a)⟩
  exact hI.2

lemma Invals.bitmap {isRam : U64 → Bool} {env' : JitEnv} (h : Invals isRam env env') {n : U64} :
    env'.bitmap n = true → env.bitmap n = true :=
  h.invariant (I := fun e => e.bitmap n = true → env.bitmap n = true) (fun _ _ he hb => he (bitmap_invalidatePage hb)) id

end Env

section Bus
variable {P : Platform (Jitted D)} {b b' : Bus (Jitted D)}

lemma DtlbOk.congr (h : DtlbOk P b) (hd : b'.dtlb = b.dtlb)
    (hbits : ∀ n, b'.dev.env.bitmap n = true → b.dev.env.bitmap n = true) : DtlbOk P b' := by
  intro k pa ha hr hb hpage
  rw [hd] at hpage ⊢
  exact h k pa ha hr (hbits _ hb) hpage

lemma DtlbOk.update (h : DtlbOk P b) (i : BitVec 12) {e : DtlbEnt}
    (he : ∀ pa, pageOf pa = pa → ramPage P pa = true → b.dev.env.bitmap (pfnOf pa) = true →
      e.page = (pa - ramBase).toNat → e.w = false) : DtlbOk P { b with dtlb := Function.update b.dtlb i e } := by
  intro k pa ha hr hb hpage
  by_cases hk : k = i
  · subst hk
    simp only [Function.update_self] at hpage ⊢
    exact he pa ha hr hb hpage
  · simp only [Function.update_of_ne hk] at hpage ⊢
    exact h k pa ha hr hb hpage

lemma DtlbOk.dtlbFill {m : JitMachine D} (h : DtlbOk P m.bus) (va pa : U64) : DtlbOk P (dtlbFill P.jit m va pa).bus := by
  obtain heq | ⟨r, w, hram, hw, heq⟩ := dtlbFill_eq P.jit m va pa
  · rw [heq]
    exact h
  · rw [heq]
    refine h.update _ fun pa' ha hr hb hpage => ?_
    obtain rfl : pageOf pa = pa' := page_eq_of_offset hpage
    by_contra hne
    have hbit : m.bus.dev.env.bitmap (pfnOf (pageOf pa)) = false := hw (Bool.eq_true_of_not_eq_false hne)
    rw [hbit] at hb
    cases hb

lemma DtlbOk.tlbFlushAll (h : DtlbOk P b) : DtlbOk P (tlbFlushAll b) := by
  have hdtlb : (Arm64Emu.tlbFlushAll b).dtlb = b.dtlb ∨ (Arm64Emu.tlbFlushAll b).dtlb = fun _ => emptyDtlbEnt := by
    unfold Arm64Emu.tlbFlushAll clearFetch
    dsimp only
    split_ifs
    · exact .inr rfl
    · exact .inr rfl
    · exact .inl rfl
  have hdev : (Arm64Emu.tlbFlushAll b).dev = b.dev := tlbFlushAll_dev b
  obtain hd | hd := hdtlb
  · exact h.congr hd fun n hn => by rw [hdev] at hn; exact hn
  · intro k pa _ _ _ _
    rw [hd]
    rfl

lemma DtlbOk.tlbFlushPage (h : DtlbOk P b) (va : U64) : DtlbOk P (tlbFlushPage b va) := by
  unfold Arm64Emu.tlbFlushPage
  split
  · exact h.tlbFlushAll
  · have hu := h.update (tlbIdx va) (e := emptyDtlbEnt) fun _ _ _ _ _ => rfl
    exact fun k pa => hu k pa

lemma CacheStep.dtlbOk {s t : JitMachine D} (h : CacheStep P.jit (TameRel P) s t) (hs : DtlbOk P s.bus) : DtlbOk P t.bus := by
  have hrel {b : Bus (Jitted D)} (hb : TameRel P s.bus b) : DtlbOk P b :=
    hs.congr (congrArg Caches.dtlb hb.1) fun _ => hb.2.bitmap
  cases h with
  | cpu => exact hs
  | bus hr => exact hrel hr
  | @tlb va leaf b hw hr =>
    obtain ⟨base, mask, h⟩ := tlbFill_eq b va leaf (accEl0 s.cpu)
    have hb : DtlbOk P b := hrel hr
    rw [h]
    exact hb
  | @dtlb va pa acc hhit => exact hs.dtlbFill va pa
  | fetch => exact hs
  | flushAll => exact hs.tlbFlushAll
  | flushPage va => exact hs.tlbFlushPage va
  | regime c => exact hs.tlbFlushAll

end Bus

section Run
variable {P : Platform (Jitted D)} {F : FpJit} {H : JitHost} {p : JitPhase D} {C : JTable → ℕ → Bool → ℕ → Prop}
  {m m' : JitMachine D}

lemma protected_add {b : JCode} (hm : m.env.Marked P) (hd : DtlbOk P m.bus) (ht : m.env.Tables)
    (hpage : hostPagePtr P b.paPage = some b.hostPage) (ha : pageOf b.paPage = b.paPage) :
    (markCodePage P (m.addBlock b) b.hostPage b.paPage).env.Marked P ∧
      DtlbOk P (markCodePage P (m.addBlock b) b.hostPage b.paPage).bus := by
  have hmark (bitmap : U64 → Bool) (hset : ramPage P b.paPage = true → bitmap (pfnOf b.paPage) = true)
      (hkeep : ∀ n, m.env.bitmap n = true → bitmap n = true) :
      JitEnv.Marked P { m.env with toJTable := m.env.toJTable.addBlock b, bitmap := bitmap } := by
    constructor
    · intro i hi
      obtain rfl | hi := JTable.live_addBlock.mp hi
      · rw [JTable.addBlock_arena_self]
        exact ha
      · rw [JTable.addBlock_arena (ht.live_lt hi).ne]
        exact hm.aligned hi
    · intro i hi
      obtain rfl | hi := JTable.live_addBlock.mp hi
      · rw [JTable.addBlock_arena_self]
        exact hset
      · rw [JTable.addBlock_arena (ht.live_lt hi).ne]
        exact fun hr => hkeep _ (hm.code hi hr)
  unfold markCodePage
  dsimp only
  split_ifs with hbit hram
  · obtain ⟨-, hbit⟩ := Bool.and_eq_true_iff.mp hbit
    exact ⟨hmark m.env.bitmap (fun _ => hbit) fun _ => id, hd⟩
  · refine ⟨hmark _ (fun _ => Function.update_self ..) fun n hn => ?_, fun k pa hpa hr hb hk => ?_⟩
    · by_cases hne : n = pfnOf b.paPage
      · rw [hne]
        exact Function.update_self ..
      · rw [Function.update_of_ne hne]
        exact hn
    · simp only [stripW] at hk ⊢
      split at hk
      · rw [if_pos ‹_›]
      · rename_i hstrip
        rw [if_neg hstrip]
        have hne : pfnOf pa ≠ pfnOf b.paPage := by
          intro heq
          obtain rfl := page_eq_of_pfn hpa ha hr hram heq
          exact hstrip (by rw [hostPagePtr_ram ha hram hpage, ← hk])
        refine hd k pa hpa hr ?_ hk
        exact (Function.update_of_ne hne ..).symm.trans hb
  · refine ⟨hmark m.env.bitmap (fun hr => absurd hr hram) fun _ => id, fun k pa hpa hr hb hk => ?_⟩
    simp only [stripW] at hk ⊢
    split at hk
    · rw [if_pos ‹_›]
    · rw [if_neg ‹_›]
      exact hd k pa hpa hr hb hk

/-- The invariant of the code pages: what is claimed of them, with what carries it. -/
structure Guarded (P : Platform (Jitted D)) (m : JitMachine D) : Prop where
  marked : m.env.Marked P
  dtlb : DtlbOk P m.bus

lemma Guarded.protects (h : Guarded P m) : Protected P m := ⟨h.marked.code, fun ha hr hb hk => h.dtlb _ _ ha hr hb hk⟩

lemma Guarded.of_table (h : Guarded P m) {env : JitEnv} (ht : env.toJTable = m.env.toJTable)
    (hb : env.bitmap = m.env.bitmap) : Guarded P (m.setEnv env) := by
  refine ⟨?_, h.dtlb.congr rfl fun n hn => ?_⟩
  · constructor
    · intro i hi
      have hi' : env.toJTable.Live i := hi
      change pageOf (env.toJTable.arena i).paPage = (env.toJTable.arena i).paPage
      rw [ht] at hi' ⊢
      exact h.marked.aligned hi'
    · intro i hi hr
      have hi' : env.toJTable.Live i := hi
      have hr' : ramPage P (env.toJTable.arena i).paPage = true := hr
      change env.bitmap (pfnOf (env.toJTable.arena i).paPage) = true
      rw [ht] at hi' hr' ⊢
      rw [hb]
      exact h.marked.code hi' hr'
  · have hn' : env.bitmap n = true := hn
    rw [hb] at hn'
    exact hn'

lemma Guarded.of_empty (h : DtlbOk P m.bus) (env : JitEnv) (he : ∀ i, ¬ env.Live i)
    (hb : ∀ n, env.bitmap n = true → m.env.bitmap n = true) : Guarded P (m.setEnv env) :=
  ⟨⟨fun {i} hi => absurd hi (he i), fun {i} hi => absurd hi (he i)⟩, h.congr rfl hb⟩

variable (hP : P.Tame)
include hP

lemma JitChange.guarded (hc : JitChange P.jit F H C m m') (ht : m.env.Tables) (h : Guarded P m) : Guarded P m' := by
  cases hc with
  | deeds hd => exact ⟨(deeds_env hP hd).marked ht h.marked, deeds_bus hP (fun _ _ hstep hs => hstep.dtlbOk hs) hd h.dtlb⟩
  | note he _ hb => exact h.of_table he hb
  | purge => exact h.of_table rfl rfl
  | flush => exact .of_empty h.dtlb _ (fun i => List.not_mem_nil) fun _ => id
  | add hl hb =>
    obtain ⟨hmark, hdtlb⟩ := protected_add h.marked h.dtlb ht hb.page hb.aligned
    exact ⟨hmark, hdtlb⟩
  | @chain prev slot i hi =>
    refine ⟨⟨fun {j} hj => ?_, fun {j} hj hr => ?_⟩, h.dtlb⟩
    · have hcode := congrArg JCode.paPage (JTable.chain_code m.env.toJTable prev slot i j)
      exact (congrArg pageOf hcode).trans ((h.marked.aligned (JTable.live_chain.mp hj)).trans hcode.symm)
    · have hcode := congrArg JCode.paPage (JTable.chain_code m.env.toJTable prev slot i j)
      have hr' : ramPage P (m.env.arena j).paPage = true := hcode ▸ hr
      exact (congrArg (fun a => m.env.bitmap (pfnOf a)) hcode).trans (h.marked.code (JTable.live_chain.mp hj) hr')
  | fill => exact h.of_table rfl rfl

lemma JitReach.guarded {Ok : JitPhase D → Prop} (h : JitReach P F H Ok p) : Guarded P p.machine := by
  refine h.machine_invariant hP (C := fun _ _ _ _ => True) (I := Guarded P)
    (fun _ _ _ _ _ _ _ _ _ _ _ _ _ _ _ => trivial) (fun m hm => ?_) (fun m m' hc ht _ hm => hc.guarded hP ht hm)
    (fun m b hb ht hm => ⟨hb.2.marked ht hm.marked, hm.dtlb.congr (congrArg Caches.dtlb hb.1) fun _ => hb.2.bitmap⟩)
    fun m _ hm => .of_empty hm.dtlb _ (fun i => List.not_mem_nil) fun n hn => ?_
  · have hlive (i : ℕ) : ¬ m.env.Live i := by
      rw [hm]
      exact List.not_mem_nil
    refine ⟨⟨fun {i} hi => absurd hi (hlive i), fun {i} hi => absurd hi (hlive i)⟩, fun k pa _ _ hb => ?_⟩
    have hb' : m.env.bitmap (pfnOf pa) = true := hb
    rw [hm] at hb'
    cases hb'
  · cases hn

lemma JitChanges.guarded (hc : JitChanges P.jit F H C m m') (ht : m.env.Tables) (h : Guarded P m) : Guarded P m' := by
  have hI : m'.env.Tables ∧ Guarded P m' := by
    refine hc.invariant (I := fun m => m.env.Tables ∧ Guarded P m) (fun m m' hstep hm => ?_) ⟨ht, h⟩
    exact ⟨hstep.tables hP hm.1, hstep.guarded hP hm.1 hm.2⟩
  exact hI.2

lemma Guarded.jitTranslate (h : Guarded P m) (ht : m.env.Tables) (hf : FetchOk P.jit m.bus) {pc : U64} {hp : HostPage}
    {pa : U64} (hhit : fetchHit m pc = some (hp, pa)) (hl : m.env.jitLookup (jitTag pc (jitCtx m.cpu)) hp = none)
    (tries maxInsns : ℕ) :
    Guarded P (jitTranslate P.jit F H pc (jitTag pc (jitCtx m.cpu)) hp pa tries maxInsns m).2 := by
  obtain ⟨hh, -, -, hpa⟩ := fetchHit_eq hhit
  obtain ⟨hpage, hal⟩ := hf _ _ hh
  rw [hpa] at hpage hal
  by_cases ha : pc &&& 3 = 0
  · have htr := translates_jitTranslate (F := F) (H := H) (C := fun _ _ _ _ => True) ⟨m.cpu, rfl⟩ hpage hal ha tries maxInsns m
      hhit hl
    exact htr.changes.guarded hP ht h
  · by_cases h0 : tries = 0
    · subst h0
      exact h
    · obtain ⟨m₁, hc₁, -, -, htr⟩ := jitTranslate_misaligned (P := P.jit) (F := F) (H := H) (C := fun _ _ _ _ => True)
        (jitTag pc (jitCtx m.cpu)) pa hp ha h0 maxInsns m
      rw [htr]
      exact (hc₁.deeds ((Deeds.refl m₁).cpu _)).guarded hP ht h

omit hP in
lemma Guarded.invals (h : Guarded P m) (ht : m.env.Tables) {env : JitEnv} (hi : Invals (ramPage P) m.env env) :
    Guarded P (m.setEnv env) := ⟨hi.marked ht h.marked, h.dtlb.congr rfl fun _ => hi.bitmap⟩

/-- In every reachable state the code pages are write-protected, and each operation on the
translator, the data TLB and the software TLB leaves them so. -/
theorem code_pages_protected (hr : JitReach P F H (fun _ => True) p) :
    Protected P p.machine ∧
    (∀ pc hp pa tries maxInsns, fetchHit p.machine pc = some (hp, pa) →
      p.machine.env.jitLookup (jitTag pc (jitCtx p.machine.cpu)) hp = none →
      Protected P (jitTranslate P.jit F H pc (jitTag pc (jitCtx p.machine.cpu)) hp pa tries maxInsns p.machine).2) ∧
    (∀ va pa, Protected P (dtlbFill P.jit p.machine va pa)) ∧
    (∀ pa len, Protected P (p.machine.mapEnv fun env => jitInvalidatePhysRange (ramPage P) env pa len)) ∧
    (∀ pa, Protected P (p.machine.mapEnv (·.jitDropPage pa))) ∧
    Protected P (p.machine.mapEnv (·.jitFlushAll H)) ∧
    Protected P (p.machine.mapEnv (·.jitReset H)) ∧
    Protected P { p.machine with bus := tlbFlushAll p.machine.bus } ∧
    ∀ va, Protected P { p.machine with bus := tlbFlushPage p.machine.bus va } := by
  have hg := hr.guarded hP
  have hs := hr.sound hP
  have htab := hs.tables
  have hfetch := hs.fetch
  clear hs hr
  generalize p.machine = m at *
  refine ⟨hg.protects, fun pc hp pa tries maxInsns hhit hl => (hg.jitTranslate hP htab hfetch hhit hl tries maxInsns).protects,
    fun va pa => ?_, fun pa len => (hg.invals htab (.physRange m.env pa len)).protects, fun pa => ?_, ?_, ?_, ?_, fun va => ?_⟩
  · have hd := hg.dtlb.dtlbFill va pa
    obtain heq | ⟨r, w, -, -, heq⟩ := dtlbFill_eq P.jit m va pa
    · rw [heq]
      exact hg.protects
    · rw [heq] at hd ⊢
      exact Guarded.protects ⟨hg.marked, hd⟩
  · refine Guarded.protects ⟨hg.marked.jitDropPage htab pa, hg.dtlb.congr rfl fun n hn => ?_⟩
    have hn' : (m.env.jitDropPage pa).bitmap n = true := hn
    rw [bitmap_jitDropPage] at hn'
    exact hn'
  · exact (Guarded.of_empty hg.dtlb (m.env.jitFlushAll H) (fun i => List.not_mem_nil) fun _ => id).protects
  · exact (Guarded.of_empty hg.dtlb (m.env.jitReset H) (fun i => List.not_mem_nil) nofun).protects
  · have hdev : (tlbFlushAll m.bus).dev = m.bus.dev := tlbFlushAll_dev m.bus
    refine Guarded.protects ⟨?_, hg.dtlb.tlbFlushAll⟩
    rw [Machine.env, hdev]
    exact hg.marked
  · have hdev : (tlbFlushPage m.bus va).dev = m.bus.dev := tlbFlushPage_dev m.bus va
    refine Guarded.protects ⟨?_, hg.dtlb.tlbFlushPage va⟩
    rw [Machine.env, hdev]
    exact hg.marked

end Run

/-- The page of the program is marked once its first block has been translated. -/
theorem code_pages_protected_bareRun :
    (bareRun (cpuReset 0x40000000 1) [(0, [0x14000000])] 1).machine.env.Live 0 ∧
    Protected (Platform.bareJit 0x400000) (bareRun (cpuReset 0x40000000 1) [(0, [0x14000000])] 1).machine := by
  refine ⟨?_, (code_pages_protected (Platform.tame_bareJit _) (reachable_bareRun _ _ 1)).1⟩
  unfold JTable.Live
  decide +kernel

end Arm64Emu
