import Arm64Emu.JitFrame

/-! The moves of the translator: what an iteration of the dispatcher and the run of a
block can change. -/
namespace Arm64Emu

variable {D : Type}

/-- The entries of the fetch cache name the host page of their physical page. -/
def FetchOk (P : Platform D) (b : Bus D) : Prop :=
  ∀ el0 h, (b.fcache el0).host = some h →
    hostPagePtr P (b.fcache el0).paPage = some h ∧ pageOf (b.fcache el0).paPage = (b.fcache el0).paPage

lemma CacheStep.fetchOk {P : Platform D} {R : Bus D → Bus D → Prop} (hc : ∀ b b', R b b' → b'.caches = b.caches)
    {s t : Machine D} (h : CacheStep P R s t) (hs : FetchOk P s.bus) : FetchOk P t.bus := by
  have clear {b : Bus D} (hb : ∀ el0, (b.fcache el0).host = none) : FetchOk P b := fun el0 h hh => by
    rw [hb el0] at hh
    cases hh
  have same {b : Bus D} (hb : b.fcache = s.bus.fcache) : FetchOk P b := by
    unfold FetchOk
    rw [hb]
    exact hs
  cases h with
  | cpu => exact hs
  | bus hr => exact same (congrArg Caches.fcache (hc _ _ hr))
  | @tlb va leaf b hw hr =>
    obtain ⟨base, mask, h⟩ := tlbFill_eq b va leaf (accEl0 s.cpu)
    rw [h]
    exact same (congrArg Caches.fcache (hc _ _ hr))
  | @dtlb va pa acc hhit =>
    obtain h | ⟨r, w, -, -, h⟩ := dtlbFill_eq P s va pa
    · rw [h]
      exact hs
    · rw [h]
      exact hs
  | @fetch va pa hp hhit hptr =>
    intro el0 h hh
    by_cases he : el0 = decide (s.cpu.el = 0)
    · subst he
      simp only [fetchFill, Function.update_self] at hh ⊢
      exact ⟨by rw [hptr, Option.some.inj hh], pageOf_pageOf pa⟩
    · simp only [fetchFill, Function.update_of_ne he] at hh ⊢
      exact hs el0 h hh
  | flushAll => exact clear (tlbFlushAll_host s.bus)
  | flushPage va => exact clear (tlbFlushPage_host s.bus va)
  | regime c => exact clear (tlbFlushAll_host s.bus)

section Fetch
variable {P : Platform (Jitted D)} {F : FpJit} {m : JitMachine D} {pc : U64} {h : HostPage × U64}

lemma fetchHit_eq (hf : fetchHit m pc = some h) :
    (m.bus.fcache (decide (m.cpu.el = 0))).host = some h.1 ∧ (m.bus.fcache (decide (m.cpu.el = 0))).page = pageOf pc ∧
      (m.bus.fcache (decide (m.cpu.el = 0))).mmu = mmuOn m.cpu ∧ (m.bus.fcache (decide (m.cpu.el = 0))).paPage = h.2 := by
  unfold fetchHit at hf
  dsimp only at hf
  split at hf
  · split at hf
    · rename_i hh hc
      cases hf
      exact ⟨hh, hc.1, hc.2, rfl⟩
    · cases hf
  · cases hf

lemma memIfetch_hit (hf : fetchHit m pc = some h) {p : U64} (hp : pageOf p = pageOf pc) (ha : p &&& 3 = 0) :
    memIfetch P m p = (some (hostWord m.bus h.1 (pageOff p)), m) := by
  obtain ⟨hh, hpage, hmmu, -⟩ := fetchHit_eq hf
  simp only [memIfetch, hh, hpage, hmmu, hp, ha, and_self, if_true]

lemma memIfetch_misaligned {p : U64} (ha : p &&& 3 ≠ 0) :
    memIfetch P m p = (none, { m with cpu := cpuRaiseSync m.cpu (esrMake .pcAlign 0) p }) := by
  have hslow : memIfetchSlow P m p = (none, { m with cpu := cpuRaiseSync m.cpu (esrMake .pcAlign 0) p }) := by
    rw [memIfetchSlow, if_pos ha]
  unfold memIfetch
  dsimp only
  split
  · rw [if_neg (fun hc => ha hc.2.1)]
    exact hslow
  · exact hslow

lemma aligned_iff (p : U64) : p &&& 3 = 0 ↔ p.toNat % 4 = 0 := by
  rw [BitVec.toNat_eq, BitVec.toNat_and]
  exact iff_of_eq (congrArg (· = 0) (Nat.and_two_pow_sub_one_eq_mod p.toNat 2))

lemma next_in_page {p : U64} (ha : p &&& 3 = 0) (hend : p + 4 &&& 0xfff ≠ 0) :
    pageOf (p + 4) = pageOf p ∧ p + 4 &&& 3 = 0 := by
  have hoff : pageOff (p + 4) ≠ 0 := fun h => hend (BitVec.eq_of_toNat_eq h)
  rw [aligned_iff] at ha ⊢
  rw [pageOff_eq_mod] at hoff
  have hlt : pageOff p + 4 < 0x1000 := by
    rw [pageOff_eq_mod]
    bv_omega
  constructor
  · rw [pageOf_eq, pageOf_eq, show (4 : U64) = zext 4 from rfl, ushiftRight_add hlt]
  · bv_omega

lemma feBlockLoop_hit (hf : fetchHit m pc = some h) (env : FeEnv) (left : ℕ) (ir : IrBlock) (n : ℕ) {p : U64}
    (hp : pageOf p = pageOf pc) (ha : p &&& 3 = 0) : (feBlockLoop (memIfetch P) F env left ir n p m).2 = m := by
  induction left generalizing ir n p with
  | zero => rfl
  | succ left ih =>
    rw [feBlockLoop, memIfetch_hit hf hp ha]
    dsimp only
    split_ifs with hend hstop
    · rfl
    · rfl
    · obtain ⟨hp', ha'⟩ := next_in_page ha fun h0 => hstop (.inr (.inl h0))
      exact ih _ _ (hp'.trans hp) ha'

lemma jitFeBlock_hit (hf : fetchHit m pc = some h) (ha : pc &&& 3 = 0) (n : ℕ) : (jitFeBlock P F m pc n).2 = m :=
  feBlockLoop_hit hf _ _ _ _ rfl ha

lemma jitFeBlock_misaligned (ha : pc &&& 3 ≠ 0) (n : ℕ) :
    ∃ ir, jitFeBlock P F m pc n = ((ir, 0), { m with cpu := cpuRaiseSync m.cpu (esrMake .pcAlign 0) pc }) := by
  obtain ⟨k, hk⟩ : ∃ k, (if n = 0 ∨ jitMaxBlockInsns < n then jitMaxBlockInsns else n) = k + 1 := by
    refine Nat.exists_eq_succ_of_ne_zero ?_
    split_ifs with hn
    · decide
    · exact fun h0 => hn (.inl h0)
  refine ⟨⟨[], 0, m.cpu.curSp⟩, ?_⟩
  rw [jitFeBlock, feBlock, hk, feBlockLoop, memIfetch_misaligned ha]
  rfl

end Fetch

structure Notes where
  ctx : U64
  dtlbCtxgen : U64
  jcGen : U32
  jcVaSeq : U32
  icountDeadline : U64
  interrupt : Bool

def JitEnv.notes (env : JitEnv) : Notes :=
  ⟨env.ctx, env.dtlbCtxgen, env.jcGen, env.jcVaSeq, env.icountDeadline, env.interrupt⟩

lemma invalidatePage_notes (env : JitEnv) (isRam : Bool) (page : U64) : (env.invalidatePage isRam page).notes = env.notes := by
  have hd : (env.jitDropPage page).notes = env.notes := by
    unfold JitEnv.jitDropPage
    dsimp only
    split <;> rfl
  unfold JitEnv.invalidatePage
  dsimp only
  split_ifs
  · rfl
  · exact hd
  · exact hd

lemma Invals.notes {isRam : U64 → Bool} {env env' : JitEnv} (h : Invals isRam env env') : env'.notes = env.notes :=
  h.invariant (I := fun e => e.notes = env.notes) (fun e a he => (invalidatePage_notes e _ (pageOf a)).trans he) rfl

lemma invalidatePage_flushCount (env : JitEnv) (isRam : Bool) (page : U64) :
    (env.invalidatePage isRam page).flushCount = env.flushCount := by
  have hd : (env.jitDropPage page).flushCount = env.flushCount := by
    unfold JitEnv.jitDropPage
    dsimp only
    split <;> rfl
  unfold JitEnv.invalidatePage
  dsimp only
  split_ifs
  · rfl
  · exact hd
  · exact hd

lemma Invals.flushCount {isRam : U64 → Bool} {env env' : JitEnv} (h : Invals isRam env env') :
    env'.flushCount = env.flushCount :=
  h.invariant (I := fun e => e.flushCount = env.flushCount)
    (fun e a he => (invalidatePage_flushCount e _ (pageOf a)).trans he) rfl

/-- Two machines that differ in memory, devices and tables only. -/
structure SameNotes (m m' : JitMachine D) : Prop where
  cpu : m'.cpu = m.cpu
  tlbGen : m'.bus.tlbGen = m.bus.tlbGen
  tlbiVaSeq : m'.bus.tlbiVaSeq = m.bus.tlbiVaSeq
  env : m'.env.notes = m.env.notes

lemma SameNotes.refl (m : JitMachine D) : SameNotes m m := ⟨rfl, rfl, rfl, rfl⟩

lemma SameNotes.trans {m m' m'' : JitMachine D} (h : SameNotes m m') (h' : SameNotes m' m'') : SameNotes m m'' :=
  ⟨h'.cpu.trans h.cpu, h'.tlbGen.trans h.tlbGen, h'.tlbiVaSeq.trans h.tlbiVaSeq, h'.env.trans h.env⟩

/-- A block as `jit_translate` builds it, the words having been fetched up to `m`. -/
structure Translated (P : Platform (Jitted D)) (F : FpJit) (m : JitMachine D) (b : JCode) : Prop where
  tag : ∃ c, b.tag = jitTag b.pc (jitCtx c)
  code : ∃ m₀ maxInsns ir, jitFeBlock P F m₀ b.pc maxInsns = ((ir, b.ninsns), m) ∧ b.ops = ir.ops
  pos : 0 < b.ninsns
  exits : b.exitPc = exitPcOf b.ops
  page : hostPagePtr P b.paPage = some b.hostPage
  aligned : pageOf b.paPage = b.paPage

/-- One change of the machine and the translator. `note` is what the dispatcher records
outside the tables; `C` is what is known of two blocks that are chained. -/
inductive JitChange (P : Platform (Jitted D)) (F : FpJit) (H : JitHost) (C : JTable → ℕ → Bool → ℕ → Prop) :
    JitMachine D → JitMachine D → Prop
  | deeds {m m' : JitMachine D} : Deeds P m m' → JitChange P F H C m m'
  | note (m : JitMachine D) {env : JitEnv} : env.toJTable = m.env.toJTable → env.toJCache = m.env.toJCache →
      env.bitmap = m.env.bitmap → JitChange P F H C m (m.setEnv env)
  | purge (m : JitMachine D) : JitChange P F H C m (m.mapEnv (·.jcachePurge))
  | flush (m : JitMachine D) : JitChange P F H C m (m.mapEnv (·.jitFlushAll H))
  | add (m : JitMachine D) {b : JCode} : m.env.jitLookup b.tag b.hostPage = none → Translated P F m b →
      JitChange P F H C m (markCodePage P (m.addBlock b) b.hostPage b.paPage)
  | chain (m : JitMachine D) {prev : ℕ} {slot : Bool} {i : ℕ} : m.env.Live i → C m.env.toJTable prev slot i →
      JitChange P F H C m (m.chain prev slot i)
  | fill (m : JitMachine D) (pc : U64) {tag : U64} {i : ℕ} : m.env.Live i → (m.env.arena i).tag = tag →
      JitChange P F H C m (m.jcacheFill pc tag i)

def JitChanges (P : Platform (Jitted D)) (F : FpJit) (H : JitHost) (C : JTable → ℕ → Bool → ℕ → Prop) :
    JitMachine D → JitMachine D → Prop :=
  Relation.ReflTransGen (JitChange P F H C)

namespace JitChanges
variable {P : Platform (Jitted D)} {F : FpJit} {H : JitHost} {C : JTable → ℕ → Bool → ℕ → Prop}
  {m m' m'' : JitMachine D}

lemma refl (m : JitMachine D) : JitChanges P F H C m m := Relation.ReflTransGen.refl

lemma tail (h : JitChanges P F H C m m') (h' : JitChange P F H C m' m'') : JitChanges P F H C m m'' :=
  Relation.ReflTransGen.tail h h'

lemma trans (h : JitChanges P F H C m m') (h' : JitChanges P F H C m' m'') : JitChanges P F H C m m'' :=
  Relation.ReflTransGen.trans h h'

lemma deeds (h : JitChanges P F H C m m') (h' : Deeds P m' m'') : JitChanges P F H C m m'' := h.tail (.deeds h')

lemma invariant {I : JitMachine D → Prop} (hI : ∀ m m', JitChange P F H C m m' → I m → I m')
    (h : JitChanges P F H C m m') (hm : I m) : I m' := by
  induction h with
  | refl => exact hm
  | tail _ hstep ih => exact hI _ _ hstep ih

end JitChanges

section Moves
variable {P : Platform (Jitted D)} {F : FpJit} {H : JitHost} {C : JTable → ℕ → Bool → ℕ → Prop} (hP : P.Tame)

lemma markCodePage_table (m : JitMachine D) (hp : HostPage) (pa : U64) :
    (markCodePage P m hp pa).env.toJTable = m.env.toJTable ∧ (markCodePage P m hp pa).env.toJCache = m.env.toJCache := by
  unfold markCodePage
  dsimp only
  split_ifs
  · exact ⟨rfl, rfl⟩
  · exact ⟨rfl, rfl⟩
  · exact ⟨rfl, rfl⟩

include hP in
lemma JitChange.tables {m m' : JitMachine D} (h : JitChange P.jit F H C m m') (hm : m.env.Tables) : m'.env.Tables := by
  cases h with
  | deeds hd => exact (deeds_env hP hd).tables hm
  | @note env ht hc =>
    change env.toJTable.Tables env.toJCache
    rw [ht, hc]
    exact hm
  | purge => exact hm.jcachePurge
  | flush => exact hm.jitFlushAll H
  | @add b hl hb =>
    obtain ⟨ht, hc⟩ := markCodePage_table (P := P.jit) (m.addBlock b) b.hostPage b.paPage
    rw [JitEnv.Tables, ht, hc]
    exact hm.addBlock b hl
  | @chain prev slot i hi => exact hm.chain prev slot hi
  | fill pc hi ht => exact hm.fill pc hi ht

lemma markCodePage_notes (m : JitMachine D) (hp : HostPage) (pa : U64) : SameNotes m (markCodePage P m hp pa) := by
  unfold markCodePage
  dsimp only
  split_ifs
  · exact .refl m
  · exact ⟨rfl, rfl, rfl, rfl⟩
  · exact ⟨rfl, rfl, rfl, rfl⟩

lemma markCodePage_flushCount (m : JitMachine D) (hp : HostPage) (pa : U64) :
    (markCodePage P m hp pa).env.flushCount = m.env.flushCount := by
  unfold markCodePage
  dsimp only
  split_ifs
  · rfl
  · rfl
  · rfl

/-- The block that `jit_translate` has put in the table for a page and a key. -/
structure Built (m : JitMachine D) (pc tag : U64) (hostPage : HostPage) (i : ℕ) : Prop where
  live : m.env.Live i
  pc : (m.env.arena i).pc = pc
  tag : (m.env.arena i).tag = tag
  hostPage : (m.env.arena i).hostPage = hostPage

lemma Built.of_add {m : JitMachine D} {t : JTable} {b : JCode} (h : m.env.toJTable = t.addBlock b) :
    Built m b.pc b.tag b.hostPage t.nblocks := by
  have hb : (m.env.arena t.nblocks).toJCode = b := by
    rw [h, JTable.addBlock_arena_self]
  exact ⟨h ▸ JTable.live_addBlock.mpr (.inl rfl), congrArg JCode.pc hb, congrArg JCode.tag hb, congrArg JCode.hostPage hb⟩

section Translate
variable {pc tag paPage : U64} {hostPage : HostPage}

/-- The outcome of translation: the machine changes in the translator only, and a
block, if there is one, is in the table. Without a flush no other block is touched. -/
structure Translates (P : Platform (Jitted D)) (F : FpJit) (H : JitHost) (C : JTable → ℕ → Bool → ℕ → Prop)
    (m : JitMachine D) (pc tag : U64) (hostPage : HostPage) (tries : ℕ) (r : Option ℕ × JitMachine D) : Prop where
  changes : JitChanges P F H C m r.2
  notes : SameNotes m r.2
  built {i} : r.1 = some i → Built r.2 pc tag hostPage i
  flushes : ∃ k ≤ tries, r.2.env.flushCount = m.env.flushCount + BitVec.ofNat 32 k ∧
    (k = 0 → ∀ j, r.1 ≠ some j → (r.2.env.arena j).toJCode = (m.env.arena j).toJCode)

lemma translates_jitTranslate (htag : ∃ c, tag = jitTag pc (jitCtx c)) (hpage : hostPagePtr P paPage = some hostPage)
    (hpa : pageOf paPage = paPage) (ha : pc &&& 3 = 0) (tries maxInsns : ℕ) (m : JitMachine D) (hf : fetchHit m pc = some (hostPage, paPage))
    (hl : m.env.jitLookup tag hostPage = none) :
    Translates P F H C m pc tag hostPage tries (jitTranslate P F H pc tag hostPage paPage tries maxInsns m) := by
  induction tries generalizing maxInsns m with
  | zero => exact ⟨.refl m, .refl m, nofun, 0, le_rfl, (BitVec.add_zero _).symm, fun _ _ _ => rfl⟩
  | succ tries ih =>
    -- the tables may be flushed first
    obtain ⟨m₁, hm₁, hc₁, hn₁, hf₁, hl₁, k₁, hk₁, hcount₁, hcode₁⟩ : ∃ m₁, (if jitMaxBlocks ≤ m.env.nblocks ∨ 2 * jitMaxBlocks < m.env.nedges + 2 ∨
        H.cacheSize - m.env.ptr < jitBlockMaxBytes then m.mapEnv (·.jitFlushAll H) else m) = m₁ ∧
        JitChanges P F H C m m₁ ∧ SameNotes m m₁ ∧ fetchHit m₁ pc = some (hostPage, paPage) ∧
        m₁.env.jitLookup tag hostPage = none ∧ ∃ k ≤ 1, m₁.env.flushCount = m.env.flushCount + BitVec.ofNat 32 k ∧
          (k = 0 → ∀ j, (m₁.env.arena j).toJCode = (m.env.arena j).toJCode) := by
      refine ⟨_, rfl, ?_⟩
      split
      · exact ⟨(JitChanges.refl m).tail (.flush m), ⟨rfl, rfl, rfl, rfl⟩, hf, rfl, 1, le_rfl, rfl, nofun⟩
      · exact ⟨.refl m, .refl m, hf, hl, 0, zero_le_one, (BitVec.add_zero _).symm, fun _ _ => rfl⟩
    simp only [jitTranslate, hm₁]
    rcases hb : jitFeBlock P F m₁ pc maxInsns with ⟨⟨ir, n⟩, m₂⟩
    obtain rfl : m₂ = m₁ := (congrArg Prod.snd hb).symm.trans (jitFeBlock_hit hf₁ ha maxInsns)
    cases n with
    | zero => exact ⟨hc₁, hn₁, nofun, k₁, by omega, hcount₁, fun h0 j _ => hcode₁ h0 j⟩
    | succ n =>
      dsimp only
      cases he : H.emit ir.ops tag with
      | none =>
        dsimp only
        split
        · have h := ih ((n + 1) / 2) m₂ hf₁ hl₁
          obtain ⟨k₂, hk₂, hcount₂, hcode₂⟩ := h.flushes
          refine ⟨hc₁.trans h.changes, hn₁.trans h.notes, h.built, k₁ + k₂, by omega, ?_, fun h0 j hj => ?_⟩
          · rw [hcount₂, hcount₁, BitVec.add_assoc, BitVec.ofNat_add]
          · exact (hcode₂ (by omega) j hj).trans (hcode₁ (by omega) j)
        · exact ⟨hc₁.tail (.note m₂ rfl rfl rfl), hn₁.trans ⟨rfl, rfl, rfl, rfl⟩, nofun,
            k₁, by omega, hcount₁, fun h0 j _ => hcode₁ h0 j⟩
      | some len =>
        obtain ⟨b, hbdef⟩ : ∃ b : JCode, b = ⟨pc, tag, hostPage, paPage, n + 1, ir.ops, exitPcOf ir.ops⟩ := ⟨_, rfl⟩
        have hb : Translated P F m₂ b := by
          subst hbdef
          exact ⟨htag, ⟨m₂, maxInsns, ir, hb, rfl⟩, Nat.succ_pos n, rfl, hpage, hpa⟩
        have hl₁ : m₂.env.jitLookup b.tag b.hostPage = none := by rw [hbdef]; exact hl₁
        have hadd := hc₁.tail (.add m₂ hl₁ hb)
        have hblock : SameNotes m₂ (m₂.addBlock b) := ⟨rfl, rfl, rfl, rfl⟩
        have hnotes := hblock.trans (markCodePage_notes (P := P) (m₂.addBlock b) b.hostPage b.paPage)
        have ht := (markCodePage_table (P := P) (m₂.addBlock b) b.hostPage b.paPage).1
        rw [hbdef] at hadd hnotes ht
        have hcount := markCodePage_flushCount (P := P)
          (m₂.addBlock ⟨pc, tag, hostPage, paPage, n + 1, ir.ops, exitPcOf ir.ops⟩) hostPage paPage
        refine ⟨hadd.tail (.note _ rfl rfl rfl), (hn₁.trans hnotes).trans ⟨rfl, rfl, rfl, rfl⟩, ?_,
          k₁, by omega, hcount.trans hcount₁, fun h0 j hj => ?_⟩
        · rintro i ⟨⟩
          exact Built.of_add (b := ⟨pc, tag, hostPage, paPage, n + 1, ir.ops, exitPcOf ir.ops⟩) ht
        · refine Eq.trans (congrArg JBlock.toJCode ?_) (hcode₁ h0 j)
          refine (congrFun (congrArg JTable.arena ht) j).trans (JTable.addBlock_arena ?_)
          exact fun hj' => hj (congrArg some hj'.symm)

lemma jitTranslate_misaligned (tag paPage : U64) (hostPage : HostPage) (hpc : pc &&& 3 ≠ 0) {tries : ℕ} (ht : tries ≠ 0)
    (maxInsns : ℕ) (m : JitMachine D) :
    ∃ m₁ : JitMachine D, JitChanges P F H C m m₁ ∧ m₁.cpu = m.cpu ∧ m₁.env.on = m.env.on ∧
      jitTranslate P F H pc tag hostPage paPage tries maxInsns m =
        (none, { m₁ with cpu := cpuRaiseSync m₁.cpu (esrMake .pcAlign 0) pc }) := by
  obtain ⟨tries, rfl⟩ := Nat.exists_eq_succ_of_ne_zero ht
  obtain ⟨m₁, hm₁, hc₁, hcpu, hon⟩ : ∃ m₁, (if jitMaxBlocks ≤ m.env.nblocks ∨ 2 * jitMaxBlocks < m.env.nedges + 2 ∨
      H.cacheSize - m.env.ptr < jitBlockMaxBytes then m.mapEnv (·.jitFlushAll H) else m) = m₁ ∧
      JitChanges P F H C m m₁ ∧ m₁.cpu = m.cpu ∧ m₁.env.on = m.env.on := by
    refine ⟨_, rfl, ?_⟩
    split
    · exact ⟨(JitChanges.refl m).tail (.flush m), rfl, rfl⟩
    · exact ⟨.refl m, rfl, rfl⟩
  obtain ⟨ir, hir⟩ := jitFeBlock_misaligned (P := P) (F := F) (m := m₁) hpc maxInsns
  refine ⟨m₁, hc₁, hcpu, hon, ?_⟩
  simp only [jitTranslate, hm₁, hir]

end Translate

section Resolve
variable {m m' : JitMachine D} {pc : U64}

include hP in
lemma sameNotes_walk (c : Cpu) (b : Bus (Jitted D)) (va : U64) :
    SameNotes (⟨c, b⟩ : JitMachine D) ⟨c, (walk P.jit c b va).2⟩ := by
  have h := hP.busRel.walk c b va
  exact ⟨rfl, congrArg Caches.tlbGen h.1, congrArg Caches.tlbiVaSeq h.1, h.2.notes⟩

include hP in
lemma sameNotes_mmuTranslate {pa va : U64} {acc : AccType} (h : mmuTranslate P.jit m va acc = (some pa, m')) :
    SameNotes m m' := by
  unfold mmuTranslate at h
  dsimp only at h
  split_ifs at h
  · cases h
    exact .refl m
  · cases h
    exact .refl m
  have hw := sameNotes_walk hP m.cpu m.bus va
  rcases hres : walk P.jit m.cpu m.bus va with ⟨fsc | leaf, b⟩
  · rw [hres] at h
    cases h
  · rw [hres] at h hw
    obtain ⟨base, mask, hfill⟩ := tlbFill_eq b va leaf (accEl0 m.cpu)
    have hsame : SameNotes m ⟨m.cpu, tlbFill b va leaf (accEl0 m.cpu)⟩ := by
      rw [hfill]
      exact ⟨rfl, hw.tlbGen, hw.tlbiVaSeq, hw.env⟩
    dsimp only at h
    split at h
    · cases h
    · cases h
      exact hsame

include hP in
lemma sameNotes_memIfetchSlow {w : U32} (h : memIfetchSlow P.jit m pc = (some w, m')) : SameNotes m m' := by
  unfold memIfetchSlow at h
  split at h
  · cases h
  rcases hm : mmuTranslate P.jit m pc .exec with ⟨_ | pa, t⟩
  · rw [hm] at h
    cases h
  · rw [hm] at h
    have ht := sameNotes_mmuTranslate hP hm
    dsimp only at h
    split at h
    · cases h
      exact ht.trans ⟨rfl, rfl, rfl, rfl⟩
    · have hr := hP.busRel.physRead t.bus pa 4
      generalize physRead P.jit t.bus pa 4 = r at h hr
      obtain ⟨v, b⟩ := r
      dsimp only at h
      split at h
      · cases h
      · cases h
        exact ht.trans ⟨rfl, congrArg Caches.tlbGen hr.1, congrArg Caches.tlbiVaSeq hr.1, hr.2.notes⟩

include hP in
lemma resolveCodePage_host {hp : HostPage} {pa : U64} (h : resolveCodePage P.jit m pc = (.host hp pa, m')) :
    fetchHit m' pc = some (hp, pa) ∧ (SameNotes m m' ∨ SameNotes (m.mapCpu (·.setCurInsnPc pc)) m') := by
  unfold resolveCodePage at h
  cases hf : fetchHit m pc with
  | some x =>
    rw [hf] at h
    cases h
    exact ⟨hf, .inl (.refl m)⟩
  | none =>
    rw [hf] at h
    dsimp only at h
    rcases hslow : memIfetchSlow P.jit (m.mapCpu (·.setCurInsnPc pc)) pc with ⟨_ | w, t⟩
    · rw [hslow] at h
      cases h
    · rw [hslow] at h
      have ht := sameNotes_memIfetchSlow hP hslow
      dsimp only at h
      cases hf' : fetchHit t pc with
      | none =>
        rw [hf'] at h
        cases h
      | some x =>
        rw [hf'] at h
        cases h
        exact ⟨hf', .inr ht⟩

end Resolve

section Head
variable {l l' : JitLoop D}

/-- The loop's variables after the dispatcher has caught up. -/
structure Synced (P : Platform (Jitted D)) (F : FpJit) (H : JitHost) (C : JTable → ℕ → Bool → ℕ → Prop)
    (l l' : JitLoop D) : Prop where
  changes : JitChanges P F H C l.m l'.m
  cpu : l'.m.cpu = l.m.cpu
  bus : ∃ env, l'.m = l.m.setEnv env
  interrupt : l'.m.env.interrupt = l.m.env.interrupt
  icountDeadline : l'.m.env.icountDeadline = l.m.env.icountDeadline
  deadline : l'.deadline = l.deadline
  on : l'.m.env.on = l.m.env.on

lemma Synced.refl (l : JitLoop D) : Synced P F H C l l := ⟨.refl _, rfl, ⟨l.m.env, rfl⟩, rfl, rfl, rfl, rfl⟩

lemma Synced.trans {l'' : JitLoop D} (h : Synced P F H C l l') (h' : Synced P F H C l' l'') : Synced P F H C l l'' := by
  obtain ⟨env, henv⟩ := h.bus
  obtain ⟨env', henv'⟩ := h'.bus
  refine ⟨h.changes.trans h'.changes, h'.cpu.trans h.cpu, ⟨env', ?_⟩, h'.interrupt.trans h.interrupt,
    h'.icountDeadline.trans h.icountDeadline, h'.deadline.trans h.deadline, h'.on.trans h.on⟩
  rw [henv', henv]
  rfl

lemma seeFlush_m (l : JitLoop D) : l.seeFlush.m = l.m ∧ l.seeFlush.deadline = l.deadline := by
  unfold JitLoop.seeFlush
  split
  · exact ⟨rfl, rfl⟩
  · exact ⟨rfl, rfl⟩

lemma seeFlush_seen (l : JitLoop D) : l.seeFlush.m.env.flushCount = l.seeFlush.flushSeen := by
  unfold JitLoop.seeFlush
  split
  · rfl
  · exact not_not.mp ‹_›

lemma seeFlush_prev {e : ℕ × Bool} (h : l.seeFlush.prev = some e) : l.prev = some e ∧ l.m.env.flushCount = l.flushSeen := by
  unfold JitLoop.seeFlush at h
  split at h
  · cases h
  · rename_i hc
    exact ⟨h, not_not.mp hc⟩

lemma synced_sync (l : JitLoop D) : Synced P F H C l (l.sync H) ∧
    (l.sync H).m.env.jcGen = l.m.bus.tlbGen ∧ (l.sync H).m.env.jcVaSeq = l.m.bus.tlbiVaSeq ∧
    (l.sync H).m.env.flushCount = (l.sync H).flushSeen := by
  obtain ⟨l₁, hl₁, h₁⟩ : ∃ l₁ : JitLoop D, (if l.m.env.pendingFlush then
      { l with m := l.m.mapEnv fun env => { env with pendingFlush := false }.jitFlushAll H } else l) = l₁ ∧
      Synced P F H C l l₁ := by
    refine ⟨_, rfl, ?_⟩
    split
    · refine ⟨?_, rfl, ⟨_, rfl⟩, rfl, rfl, rfl, rfl⟩
      exact ((JitChanges.refl _).tail (.flush l.m)).tail (.note _ rfl rfl rfl)
    · exact .refl l
  obtain ⟨l₂, hl₂, h₂, hs₂⟩ : ∃ l₂ : JitLoop D, l₁.seeFlush = l₂ ∧ Synced P F H C l l₂ ∧
      l₂.m.env.flushCount = l₂.flushSeen := by
    refine ⟨_, rfl, ?_, seeFlush_seen l₁⟩
    obtain ⟨hm, hd⟩ := seeFlush_m l₁
    refine h₁.trans ⟨?_, by rw [hm], ⟨l₁.m.env, ?_⟩, by rw [hm], by rw [hm], hd, by rw [hm]⟩
    · rw [hm]
      exact .refl _
    · rw [hm]
      rfl
  have htlb {l' : JitLoop D} (h : Synced P F H C l l') :
      l'.m.bus.tlbGen = l.m.bus.tlbGen ∧ l'.m.bus.tlbiVaSeq = l.m.bus.tlbiVaSeq := by
    obtain ⟨env, henv⟩ := h.bus
    rw [henv]
    exact ⟨rfl, rfl⟩
  obtain ⟨l₃, hl₃, h₃, hs₃, hg₃⟩ : ∃ l₃ : JitLoop D, (if l₂.m.env.jcGen ≠ l₂.m.bus.tlbGen then
      { l₂ with m := l₂.m.mapEnv fun env => { env with jcGen := l₂.m.bus.tlbGen }.jcachePurge } else l₂) = l₃ ∧
      Synced P F H C l l₃ ∧ l₃.m.env.flushCount = l₃.flushSeen ∧ l₃.m.env.jcGen = l.m.bus.tlbGen := by
    refine ⟨_, rfl, ?_⟩
    rw [← (htlb h₂).1]
    split
    · refine ⟨h₂.trans ⟨?_, rfl, ⟨_, rfl⟩, rfl, rfl, rfl, rfl⟩, hs₂, rfl⟩
      exact ((JitChanges.refl _).tail (.purge l₂.m)).tail (.note _ rfl rfl rfl)
    · exact ⟨h₂, hs₂, not_not.mp ‹_›⟩
  have hsync : l.sync H = if l₃.m.env.jcVaSeq ≠ l₃.m.bus.tlbiVaSeq then
      { l₃ with m := l₃.m.mapEnv fun env => { env with jcVaSeq := l₃.m.bus.tlbiVaSeq }.jcachePurge } else l₃ := by
    rw [JitLoop.sync, ← hl₃, ← hl₂, ← hl₁]
  rw [hsync, ← (htlb h₃).2]
  split
  · refine ⟨h₃.trans ⟨?_, rfl, ⟨_, rfl⟩, rfl, rfl, rfl, rfl⟩, hg₃, rfl, hs₃⟩
    exact ((JitChanges.refl _).tail (.purge l₃.m)).tail (.note _ rfl rfl rfl)
  · exact ⟨h₃, hg₃, not_not.mp ‹_›, hs₃⟩

/-- What generated code relies on: the dispatcher's notes are those of the current state,
and the TLB has not been flushed since the indirect-branch cache was last purged. -/
structure Noted (m : JitMachine D) : Prop where
  ctx : m.env.ctx = jitCtx m.cpu
  dtlbCtxgen : m.env.dtlbCtxgen = dtlbCtxgenOf m.bus.tlbGen (jitCtx m.cpu)
  jcGen : m.env.jcGen = m.bus.tlbGen
  jcVaSeq : m.env.jcVaSeq = m.bus.tlbiVaSeq

lemma Noted.congr {m m' : JitMachine D} (h : Noted m) (hs : SameNotes m m') : Noted m' := by
  have hctx : m'.env.ctx = m.env.ctx := congrArg Notes.ctx hs.env
  have hgen : m'.env.dtlbCtxgen = m.env.dtlbCtxgen := congrArg Notes.dtlbCtxgen hs.env
  have hjc : m'.env.jcGen = m.env.jcGen := congrArg Notes.jcGen hs.env
  have hva : m'.env.jcVaSeq = m.env.jcVaSeq := congrArg Notes.jcVaSeq hs.env
  refine ⟨?_, ?_, ?_, ?_⟩
  · rw [hctx, hs.cpu, h.ctx]
  · rw [hgen, hs.tlbGen, hs.cpu, h.dtlbCtxgen]
  · rw [hjc, hs.tlbGen, h.jcGen]
  · rw [hva, hs.tlbiVaSeq, h.jcVaSeq]

/-- The dispatcher enters the block `i`, which it found or translated on the page `hp`. -/
structure Entered (l l' : JitLoop D) (hp : HostPage) (i : ℕ) : Prop where
  live : l'.m.env.Live i
  tag : (l'.m.env.arena i).tag = jitTag l'.m.cpu.pc (jitCtx l'.m.cpu)
  hostPage : (l'.m.env.arena i).hostPage = hp
  cpu : l'.m.cpu = l.m.cpu ∨ l'.m.cpu = l.m.cpu.setCurInsnPc l.m.cpu.pc
  noted : Noted l'.m
  interrupt : l'.m.env.interrupt = l.m.env.interrupt
  icountDeadline : l'.m.env.icountDeadline = l.m.env.icountDeadline
  deadline : l'.deadline = l.deadline
  prev : l'.prev = none

def Chainable (C : JTable → ℕ → Bool → ℕ → Prop) (l : JitLoop D) (tag : U64) (hp : HostPage) : Prop :=
  ∀ prev slot i (t : JTable), l.prev = some (prev, slot) → t.Live i → (t.arena i).tag = tag →
    (t.arena i).hostPage = hp → (prev ≠ i → (t.arena prev).toJCode = (l.m.env.arena prev).toJCode) → C t prev slot i

lemma enterBlock_spec {tag : U64} {hp : HostPage} {i : ℕ} (hi : l.m.env.Live i) (ht : (l.m.env.arena i).tag = tag)
    (hh : (l.m.env.arena i).hostPage = hp) (htag : tag = jitTag l.m.cpu.pc (jitCtx l.m.cpu)) (hn : Noted l.m)
    (hC : ∀ prev slot, l.prev = some (prev, slot) → C l.m.env.toJTable prev slot i) :
    ∃ l', l.enterBlock l.m.cpu.pc tag i = .enter l' i ∧ JitChanges P F H C l.m l'.m ∧ Entered l l' hp i := by
  refine ⟨_, rfl, ?_, ?_⟩
  · cases hp : l.prev with
    | none => exact (JitChanges.refl l.m).tail (.fill l.m _ hi ht)
    | some e =>
      obtain ⟨prev, slot⟩ := e
      refine ((JitChanges.refl l.m).tail (.chain l.m hi (hC prev slot hp))).tail (.fill _ _ ?_ ?_)
      · exact JTable.live_chain.mpr hi
      · exact (congrArg JCode.tag (JTable.chain_code _ prev slot i i)).trans ht
  · cases hp : l.prev with
    | none => exact ⟨hi, ht.trans htag, hh, .inl rfl, hn.congr ⟨rfl, rfl, rfl, rfl⟩, rfl, rfl, rfl, rfl⟩
    | some e =>
      obtain ⟨prev, slot⟩ := e
      have hcode := JTable.chain_code l.m.env.toJTable prev slot i i
      exact ⟨JTable.live_chain.mpr hi, (congrArg JCode.tag hcode).trans (ht.trans htag),
        (congrArg JCode.hostPage hcode).trans hh, .inl rfl, hn.congr ⟨rfl, rfl, rfl, rfl⟩, rfl, rfl, rfl, rfl⟩

inductive Headed (P : Platform (Jitted D)) (F : FpJit) (H : JitHost) (C : JTable → ℕ → Bool → ℕ → Prop)
    (l : JitLoop D) : JitPhase D → Prop
  | done (r : StepResult) {m : JitMachine D} : JitChanges P F H C l.m m → Headed P F H C l (.done r m)
  | head {l' : JitLoop D} : JitChanges P F H C l.m l'.m → l'.deadline = l.deadline → l'.prev = none →
      Headed P F H C l (.head l')
  | interp {l' : JitLoop D} (page : U64) : JitChanges P F H C l.m l'.m → l'.deadline = l.deadline → l'.prev = none →
      Headed P F H C l (.interp l' page)
  | enter {l' : JitLoop D} {hp : HostPage} {i : ℕ} : JitChanges P F H C l.m l'.m → Entered l l' hp i →
      Headed P F H C l (.enter l' i)

lemma no_flush {x : U32} {k : ℕ} (hk : k ≤ jitMaxBlockInsns) (h : x = x + BitVec.ofNat 32 k) : k = 0 := by
  simp only [jitMaxBlockInsns] at hk
  bv_omega

include hP in
lemma headed_untranslated {m : JitMachine D} (hc : JitChanges P.jit F H C l.m m) (hd : l'.deadline = l.deadline) :
    Headed P.jit F H C l (if !m.env.on then .done (cpuStep P.jit m).1 (cpuStep P.jit m).2
      else .head { ({ l' with m := m } : JitLoop D).seeFlush with prev := none }) := by
  split
  · exact .done _ (hc.deeds (Deeds.cpuStep (P := P.jit) hP.fp m))
  · obtain ⟨hm, hd'⟩ := seeFlush_m { l' with m := m }
    refine .head ?_ (hd'.trans hd) rfl
    dsimp only
    rw [hm]
    exact hc

lemma dispatch_eq {l₀ : JitLoop D} {hp : HostPage} {pa : U64} (hl₀ : l₀ = { l with m := l.m.mapEnv fun env =>
      { env with ctx := jitCtx l.m.cpu, dtlbCtxgen := dtlbCtxgenOf l.m.bus.tlbGen (jitCtx l.m.cpu) } }) :
    l.dispatch P.jit F H l.m.cpu.pc hp pa =
      match l₀.m.env.jitLookup (jitTag l.m.cpu.pc (jitCtx l.m.cpu)) hp with
      | some i => l₀.enterBlock l.m.cpu.pc (jitTag l.m.cpu.pc (jitCtx l.m.cpu)) i
      | none =>
        match jitTranslate P.jit F H l.m.cpu.pc (jitTag l.m.cpu.pc (jitCtx l.m.cpu)) hp pa jitMaxBlockInsns
            jitMaxBlockInsns l₀.m with
        | (some i, m) => JitLoop.enterBlock ({ l₀ with m := m } : JitLoop D).seeFlush l.m.cpu.pc
            (jitTag l.m.cpu.pc (jitCtx l.m.cpu)) i
        | (none, m) =>
          if !m.env.on then .done (cpuStep P.jit m).1 (cpuStep P.jit m).2
          else .head { ({ l₀ with m := m } : JitLoop D).seeFlush with prev := none } := by
  subst hl₀
  rfl

include hP in
lemma headed_dispatch {hp : HostPage} {pa : U64} (hf : fetchHit l.m l.m.cpu.pc = some (hp, pa))
    (hpage : hostPagePtr P.jit pa = some hp) (hpa : pageOf pa = pa) (hjc : l.m.env.jcGen = l.m.bus.tlbGen)
    (hva : l.m.env.jcVaSeq = l.m.bus.tlbiVaSeq) (hseen : l.m.env.flushCount = l.flushSeen)
    (hC : Chainable C l (jitTag l.m.cpu.pc (jitCtx l.m.cpu)) hp) :
    Headed P.jit F H C l (l.dispatch P.jit F H l.m.cpu.pc hp pa) := by
  obtain ⟨l₀, hl₀⟩ : ∃ l₀ : JitLoop D, l₀ = { l with m := l.m.mapEnv fun env =>
    { env with ctx := jitCtx l.m.cpu, dtlbCtxgen := dtlbCtxgenOf l.m.bus.tlbGen (jitCtx l.m.cpu) } } := ⟨_, rfl⟩
  have hc₀ : JitChanges P.jit F H C l.m l₀.m := by
    rw [hl₀]
    exact (JitChanges.refl l.m).tail (.note l.m rfl rfl rfl)
  have hn₀ : Noted l₀.m := by
    rw [hl₀]
    exact ⟨rfl, rfl, hjc, hva⟩
  have hcpu : l₀.m.cpu = l.m.cpu := by rw [hl₀]; rfl
  have hf₀ : fetchHit l₀.m l₀.m.cpu.pc = some (hp, pa) := by rw [hl₀]; exact hf
  -- what `l₀` shares with `l` as far as entering a block goes
  have hent {l' l'' : JitLoop D} {i : ℕ} (hl : SameNotes l₀.m l''.m) (hd : l''.deadline = l.deadline)
      (h : Entered l'' l' hp i) : Entered l l' hp i := by
    refine ⟨h.live, h.tag, h.hostPage, ?_, h.noted, ?_, ?_, h.deadline.trans hd, h.prev⟩
    · rw [← hcpu, ← hl.cpu]
      exact h.cpu
    · rw [h.interrupt, show l''.m.env.interrupt = l₀.m.env.interrupt from congrArg Notes.interrupt hl.env, hl₀]
      rfl
    · rw [h.icountDeadline,
        show l''.m.env.icountDeadline = l₀.m.env.icountDeadline from congrArg Notes.icountDeadline hl.env, hl₀]
      rfl
  rw [dispatch_eq hl₀, ← hcpu]
  have hprev {prev slot} (h : l₀.prev = some (prev, slot)) : l.prev = some (prev, slot) := by rw [hl₀] at h; exact h
  have harena : l₀.m.env.arena = l.m.env.arena := by rw [hl₀]; rfl
  rw [← hcpu] at hC
  cases hlook : l₀.m.env.jitLookup (jitTag l₀.m.cpu.pc (jitCtx l₀.m.cpu)) hp with
  | some i =>
    obtain ⟨hlive, htag, hhost⟩ := JTable.live_of_lookup hlook
    obtain ⟨l', hl', hc', he'⟩ := enterBlock_spec (P := P.jit) (F := F) (H := H) (C := C) hlive htag hhost rfl hn₀
      fun prev slot hp' => hC prev slot i _ (hprev hp') hlive htag hhost fun _ => by rw [harena]
    dsimp only
    rw [hl']
    exact .enter (hc₀.trans hc') (hent (.refl _) (by rw [hl₀]) he')
  | none =>
    dsimp only
    by_cases ha : l₀.m.cpu.pc &&& 3 = 0
    · have htr := translates_jitTranslate (F := F) (H := H) (C := C) ⟨l₀.m.cpu, rfl⟩ hpage hpa ha jitMaxBlockInsns
        jitMaxBlockInsns l₀.m hf₀ hlook
      generalize jitTranslate P.jit F H l₀.m.cpu.pc (jitTag l₀.m.cpu.pc (jitCtx l₀.m.cpu)) hp pa jitMaxBlockInsns
        jitMaxBlockInsns l₀.m = r at htr
      obtain ⟨_ | i, m⟩ := r
      · exact headed_untranslated hP (hc₀.trans htr.changes) (by rw [hl₀])
      · -- a new block; the exit is chained only if no flush has emptied the arena
        obtain ⟨hm, hd⟩ := seeFlush_m { l₀ with m := m }
        obtain ⟨l₁, hl₁⟩ : ∃ l₁, ({ l₀ with m := m } : JitLoop D).seeFlush = l₁ := ⟨_, rfl⟩
        rw [hl₁] at hm hd
        obtain rfl : l₁.m = m := hm
        have hb : Built l₁.m _ _ hp i := htr.built rfl
        have hcpu₁ : l₁.m.cpu = l₀.m.cpu := htr.notes.cpu
        obtain ⟨l', hl', hc', he'⟩ := enterBlock_spec (P := P.jit) (F := F) (H := H) (C := C) hb.live hb.tag hb.hostPage
          (by rw [hcpu₁]) (hn₀.congr htr.notes) fun prev slot hp' => by
            obtain ⟨hp', hcount⟩ := seeFlush_prev (hl₁ ▸ hp')
            obtain ⟨k, hk, hcount', hcode⟩ := htr.flushes
            have hseen₀ : l₀.m.env.flushCount = l₀.flushSeen := by rw [hl₀]; exact hseen
            have hk0 : k = 0 := no_flush hk ((hseen₀.trans hcount.symm).trans hcount')
            refine hC prev slot i _ (hprev hp') hb.live hb.tag hb.hostPage fun hne => ?_
            rw [← harena]
            exact hcode hk0 prev fun h => hne (Option.some.inj h).symm
        rw [hcpu₁] at hl'
        dsimp only
        rw [hl₁, hl']
        exact .enter ((hc₀.trans htr.changes).trans hc') (hent htr.notes (hd.trans (by rw [hl₀])) he')
    · obtain ⟨m₁, hc₁, -, -, htr⟩ := jitTranslate_misaligned (P := P.jit) (F := F) (H := H) (C := C)
        (jitTag l₀.m.cpu.pc (jitCtx l₀.m.cpu)) pa hp ha (show jitMaxBlockInsns ≠ 0 by decide) jitMaxBlockInsns l₀.m
      rw [htr]
      exact headed_untranslated hP ((hc₀.trans hc₁).deeds ((Deeds.refl m₁).cpu _)) (by rw [hl₀])

structure JitLoop.Runs (l : JitLoop D) : Prop where
  stop : l.m.cpu.stop = false
  halted : l.m.cpu.halted = false
  icount : ¬ l.deadline ≤ l.m.cpu.icount
  irq : irqPending l.m = false
  fiq : fiqPending l.m = false
  interrupt : l.m.env.interrupt = false

lemma jitHead_eq (h : l.Runs) : jitHead P F H l =
    match resolveCodePage P (l.sync H).m (l.sync H).m.cpu.pc with
    | (.abort, m) => .head { l.sync H with m := m, prev := none }
    | (.mmio, m) => .head { l.sync H with m := (cpuStep P m).2, prev := none }
    | (.host hostPage paPage, m) =>
      if m.env.thrashHot paPage then .interp { l.sync H with m := m, prev := none } (pageOf (l.sync H).m.cpu.pc)
      else JitLoop.dispatch P F H { l.sync H with m := m } (l.sync H).m.cpu.pc hostPage paPage := by
  have hstop : ¬ (l.m.cpu.stop || l.m.cpu.halted || l.deadline ≤ l.m.cpu.icount) = true := by
    simp [h.stop, h.halted, h.icount]
  have hpend : ¬ (irqPending l.m || fiqPending l.m) = true := by simp [h.irq, h.fiq]
  have hint : ¬ l.m.env.interrupt = true := by simp [h.interrupt]
  rw [jitHead, if_neg hstop, if_neg hpend]
  exact if_neg hint

def HeadChains (P : Platform (Jitted D)) (H : JitHost) (C : JTable → ℕ → Bool → ℕ → Prop) (l : JitLoop D) : Prop :=
  ∀ hp pa m, resolveCodePage P (l.sync H).m (l.sync H).m.cpu.pc = (.host hp pa, m) →
    Chainable C { l.sync H with m := m } (jitTag m.cpu.pc (jitCtx m.cpu)) hp

include hP in
lemma headed_jitHead (hok : FetchOk P.jit l.m.bus) (hC : HeadChains P.jit H C l) :
    Headed P.jit F H C l (jitHead P.jit F H l) := by
  unfold jitHead
  split_ifs
  · exact .done _ (.refl l.m)
  · exact .done _ (.refl l.m)
  · exact .done _ ((JitChanges.refl l.m).tail (.note l.m rfl rfl rfl))
  obtain ⟨hs, hjc, hva, hseen⟩ := synced_sync (P := P.jit) (F := F) (H := H) (C := C) l
  obtain ⟨env, henv⟩ := hs.bus
  have hok' : FetchOk P.jit (l.sync H).m.bus := by
    rw [henv]
    exact hok
  unfold HeadChains at hC
  have htlb : (l.sync H).m.bus.tlbGen = l.m.bus.tlbGen ∧ (l.sync H).m.bus.tlbiVaSeq = l.m.bus.tlbiVaSeq := by
    rw [henv]
    exact ⟨rfl, rfl⟩
  rw [← htlb.1] at hjc
  rw [← htlb.2] at hva
  clear henv htlb
  dsimp only
  generalize l.sync H = l₁ at hC hs hjc hva hseen hok'
  have hd := Deeds.resolveCodePage (P := P.jit) l₁.m l₁.m.cpu.pc
  rcases hr : resolveCodePage P.jit l₁.m l₁.m.cpu.pc with ⟨r, m⟩
  rw [hr] at hd
  cases r with
  | abort => exact .head (hs.changes.deeds hd) hs.deadline rfl
  | mmio => exact .head ((hs.changes.deeds hd).deeds (Deeds.cpuStep (P := P.jit) hP.fp m)) hs.deadline rfl
  | host hp pa =>
    dsimp only
    split
    · exact .interp _ (hs.changes.deeds hd) hs.deadline rfl
    obtain ⟨hf, hnotes⟩ := resolveCodePage_host hP hr
    obtain ⟨hpage, hpa⟩ : hostPagePtr P.jit pa = some hp ∧ pageOf pa = pa := by
      have hm : FetchOk P.jit m.bus := deeds_bus hP (fun _ _ hstep h => hstep.fetchOk (fun _ _ h => h.1) h) hd hok'
      obtain ⟨hh, -, -, hpa⟩ := fetchHit_eq hf
      have hptr := hm _ _ hh
      rw [hpa] at hptr
      exact hptr
    -- the processor is the one before, but for the pc of the current instruction
    have hcpu : m.cpu = l₁.m.cpu ∨ m.cpu = l₁.m.cpu.setCurInsnPc l₁.m.cpu.pc :=
      hnotes.imp SameNotes.cpu SameNotes.cpu
    have hpc : m.cpu.pc = l₁.m.cpu.pc := by
      obtain h | h := hcpu
      · rw [h]
      · rw [h]
        rfl
    have hsame : m.bus.tlbGen = l₁.m.bus.tlbGen ∧ m.bus.tlbiVaSeq = l₁.m.bus.tlbiVaSeq ∧ m.env.notes = l₁.m.env.notes := by
      obtain h | h := hnotes
      · exact ⟨h.tlbGen, h.tlbiVaSeq, h.env⟩
      · exact ⟨h.tlbGen, h.tlbiVaSeq, h.env⟩
    have hcount : m.env.flushCount = l₁.m.env.flushCount := (deeds_env hP hd).flushCount
    have hdisp := headed_dispatch (F := F) (H := H) (C := C) hP (l := { l₁ with m := m }) (by rw [hpc]; exact hf) hpage hpa
      ((congrArg Notes.jcGen hsame.2.2).trans (hjc.trans hsame.1.symm))
      ((congrArg Notes.jcVaSeq hsame.2.2).trans (hva.trans hsame.2.1.symm)) (hcount.trans hseen) (hC hp pa m hr)
    dsimp only at hdisp
    rw [hpc] at hdisp
    generalize JitLoop.dispatch P.jit F H { l₁ with m := m } l₁.m.cpu.pc hp pa = p at hdisp
    have hch := hs.changes.deeds hd
    cases hdisp with
    | done r h => exact .done r (hch.trans h)
    | head h hdl hpv => exact .head (hch.trans h) (hdl.trans hs.deadline) hpv
    | interp page h hdl hpv => exact .interp page (hch.trans h) (hdl.trans hs.deadline) hpv
    | enter h he =>
      refine .enter (hch.trans h) ⟨he.live, he.tag, he.hostPage, ?_, he.noted, ?_, ?_, he.deadline.trans hs.deadline, he.prev⟩
      · have hcpu' := he.cpu
        dsimp only at hcpu'
        rw [hpc] at hcpu'
        rw [← hs.cpu]
        obtain h | h := hcpu
        · rw [h] at hcpu'
          exact hcpu'
        · rw [h] at hcpu'
          exact .inr (hcpu'.elim id id)
      · exact he.interrupt.trans ((congrArg Notes.interrupt hsame.2.2).trans hs.interrupt)
      · exact he.icountDeadline.trans ((congrArg Notes.icountDeadline hsame.2.2).trans hs.icountDeadline)

end Head

section Run
variable {l : JitLoop D} {i : ℕ}

/-- The run of a block: how generated code goes on, and the machine there. -/
inductive Ran (P : Platform (Jitted D)) (F : FpJit) (m : JitMachine D) (i : ℕ) : BlockExit × JitMachine D → Prop
  | safepoint : m.env.interrupt = true ∨ m.env.icountDeadline ≤ m.cpu.icount →
      Ran P F m i (.out none, m.mapCpu (·.setPc (m.env.arena i).pc))
  | stuck : irLeave P F (m.env.arena i).ops (.start m) = none → Ran P F m i (.out none, m)
  | direct {op : IrOp} {slot : Bool} {j : ℕ} {m' : JitMachine D} :
      irLeave P F (m.env.arena i).ops (.start m) = some (op, m') → exitSlot (m.env.arena i).ops op = some slot →
      (m'.env.arena i).patched slot = some j → Ran P F m i (.chained j, m')
  | indirect {op : IrOp} {m' : JitMachine D} : irLeave P F (m.env.arena i).ops (.start m) = some (op, m') →
      (m'.env.jcache (jcIdx m'.cpu.pc)).tag = jitTag m'.cpu.pc m'.env.ctx →
      Ran P F m i (.chained (m'.env.jcache (jcIdx m'.cpu.pc)).code, m')
  | stub {op : IrOp} {slot : Bool} {m' : JitMachine D} :
      irLeave P F (m.env.arena i).ops (.start m) = some (op, m') → exitSlot (m.env.arena i).ops op = some slot →
      (m'.env.arena i).patched slot = none → Ran P F m i (.out (some (i, slot)), m')
  | out {op : IrOp} {m' : JitMachine D} : irLeave P F (m.env.arena i).ops (.start m) = some (op, m') →
      exitSlot (m.env.arena i).ops op = none → Ran P F m i (.out none, m')

lemma ran_runBlock (m : JitMachine D) (i : ℕ) : Ran P F m i (runBlock P F m i) := by
  unfold runBlock
  dsimp only
  split
  · exact .safepoint ‹_›
  split
  · exact .stuck ‹_›
  rename_i op m' hleave
  split
  · rename_i slot hslot
    split
    · exact .direct hleave hslot ‹_›
    · exact .stub hleave hslot ‹_›
  · rename_i hslot
    split
    · split
      · exact .indirect hleave ‹_›
      · exact .out hleave hslot
    · exact .out hleave hslot

include hP in
lemma Ran.deeds {m : JitMachine D} {r : BlockExit × JitMachine D} (h : Ran P.jit F m i r) : Deeds P.jit m r.2 := by
  have hleave {op : IrOp} {m' : JitMachine D} (h : irLeave P.jit F (m.env.arena i).ops (.start m) = some (op, m')) :
      Deeds P.jit m m' := Deeds.irLeave (P := P.jit) hP.fp _ (.start m) h
  cases h with
  | safepoint => exact (Deeds.refl m).cpu _
  | stuck => exact .refl m
  | direct h => exact hleave h
  | indirect h => exact hleave h
  | stub h => exact hleave h
  | out h => exact hleave h

end Run

end Moves

end Arm64Emu
