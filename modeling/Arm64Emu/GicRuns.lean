import Arm64Emu.GicLaws
import Arm64Emu.Mmu
import Arm64Emu.Prefixes

/-! The interrupt controller over whole runs: whether its output line is exact, and whether
the pending bit of an interrupt follows from the history of its line and its registers. -/
namespace Arm64Emu

variable {D : Type} (L : Lens D Gic)

def gicRun (b : Bus D) (ops : List GicOp) : Bus D := ops.foldl (gicStep L) b

section Line

/-- The processor sees an interrupt exactly if there is one to be signalled. -/
def LineExact (b : Bus D) : Prop := b.irqLine = true ↔ (L.get b.dev).asserts

/-- Marking active every interrupt that could be signalled, while there is one: the write
to the set-active register does not recompute the line. -/
def GicOp.silences (g : Gic) : GicOp → Prop
  | distWrite off _ val =>
    0x300 ≤ off.toNat ∧ off.toNat < 0x380 ∧ g.asserts ∧
      ∀ i < gicNumIrqs, g.eligible i = true → gicMark g.active ((off.toNat - 0x300) * 8) val true i = true
  | _ => False

variable {L} {b : Bus D}

lemma lineExact_gicUpdate : LineExact L (gicUpdate L b) := by
  have hline : (gicUpdate L b).irqLine = decide (gicBest (L.get b.dev) ≠ spurious) := rfl
  rw [LineExact, hline, decide_eq_true_eq, get_gicUpdate]
  exact gicBest_ne_spurious_iff

lemma lineExact_setGic {g : Gic} (hg : g.asserts ↔ (L.get b.dev).asserts) (h : LineExact L b) :
    LineExact L (setGic L b g) := by
  rw [LineExact, get_setGic, hg]
  exact h

lemma asserts_congr {g g' : Gic} (hd : g.dCtlr = g'.dCtlr) (hc : g.cCtlr = g'.cCtlr) (he : g.eligible = g'.eligible) :
    g.asserts ↔ g'.asserts := by
  rw [Gic.asserts, Gic.asserts, hd, hc, he]

lemma asserts_mark_iff {g : Gic} {base : ℕ} {val : U64} :
    ({ g with active := gicMark g.active base val true } : Gic).asserts ↔
      g.asserts ∧ ¬ ∀ i < gicNumIrqs, g.eligible i = true → gicMark g.active base val true i = true := by
  have helig : ∀ i, ({ g with active := gicMark g.active base val true } : Gic).eligible i = true ↔
      g.eligible i = true ∧ gicMark g.active base val true i = false := by
    intro i
    simp only [Gic.eligible, gicMark]
    split <;> cases g.active i <;> simp
  simp only [Gic.asserts, helig]
  push Not
  constructor
  · rintro ⟨hd, hc, i, hi, hel, hmark⟩
    exact ⟨⟨hd, hc, i, hi, hel⟩, i, hi, hel, by simp [hmark]⟩
  · rintro ⟨⟨hd, hc, -⟩, i, hi, hel, hmark⟩
    exact ⟨hd, hc, i, hi, hel, by simpa using hmark⟩

lemma silences_activate {off : U64} {size : ℕ} {val : U64} {base : ℕ} {g : Gic}
    (hreg : distReg off.toNat = .activate true base) : GicOp.silences g (.distWrite off size val) ↔
      g.asserts ∧ ∀ i < gicNumIrqs, g.eligible i = true → gicMark g.active base val true i = true := by
  have hat := distReg_at off.toNat
  rw [hreg, DistReg.At] at hat
  have hbase : (off.toNat - 0x300) * 8 = base := by omega
  rw [GicOp.silences, hbase]
  exact ⟨fun h => h.2.2, fun h => ⟨hat.1, hat.2.1, h⟩⟩

lemma not_silences {off : U64} {size : ℕ} {val : U64} {g : Gic} (hreg : ∀ base, distReg off.toNat ≠ .activate true base) :
    ¬ GicOp.silences g (.distWrite off size val) := by
  rintro ⟨hlo, hhi, -⟩
  refine hreg ((off.toNat - 0x300) * 8) ?_
  rw [distReg, if_neg (by omega), if_neg (by omega), if_neg (by omega), if_neg (by omega), if_neg (by omega),
    if_pos ⟨hlo, hhi⟩]

lemma gicdWrite_lineExact_iff {off : U64} {size : ℕ} {val : U64} (h : LineExact L b) :
    LineExact L (gicdWrite L b off size val) ↔ ¬ GicOp.silences (L.get b.dev) (.distWrite off size val) := by
  rw [gicdWrite_eq]
  unfold distWrite
  cases hreg : distReg off.toNat with
  | activate x base =>
    cases x with
    | false => exact iff_of_true lineExact_gicUpdate (not_silences (by simp [hreg]))
    | true =>
      rw [silences_activate hreg, LineExact, get_setGic, asserts_mark_iff]
      have hline : (setGic L b { L.get b.dev with active := gicMark (L.get b.dev).active base val true }).irqLine = true ↔
          (L.get b.dev).asserts := h
      rw [hline]
      tauto
  | target base =>
    exact iff_of_true (lineExact_setGic (asserts_congr rfl rfl rfl) h) (not_silences (by simp [hreg]))
  | config base =>
    exact iff_of_true (lineExact_setGic (asserts_congr rfl rfl rfl) h) (not_silences (by simp [hreg]))
  | other => exact iff_of_true h (not_silences (by simp [hreg]))
  | _ => exact iff_of_true lineExact_gicUpdate (not_silences (by simp [hreg]))

lemma gicSetIrq_lineExact {intid : ℕ} {level : Bool} (h : LineExact L b) : LineExact L (gicSetIrq L b intid level) := by
  by_cases hid : intid < gicNumIrqs
  · rw [gicSetIrq_of_lt hid]
    dsimp only
    split
    · exact lineExact_setGic (asserts_congr rfl rfl rfl) h
    · exact lineExact_gicUpdate
  · rw [gicSetIrq, if_pos (Nat.not_lt.1 hid)]
    exact h

lemma gicStep_lineExact_iff (op : GicOp) (h : LineExact L b) :
    LineExact L (gicStep L b op) ↔ ¬ op.silences (L.get b.dev) := by
  cases op with
  | distRead off size => exact iff_of_true h id
  | distWrite off size val => exact gicdWrite_lineExact_iff h
  | cpuRead off size =>
    refine iff_of_true ?_ id
    rw [gicStep, giccRead_bus]
    split
    · exact lineExact_gicUpdate
    · exact h
  | cpuWrite off size val =>
    refine iff_of_true ?_ id
    rw [gicStep, giccWrite_eq]
    dsimp only
    split_ifs
    · exact lineExact_gicUpdate
    · exact lineExact_gicUpdate
    · exact lineExact_gicUpdate
    · exact h
  | setIrq intid level => exact iff_of_true (gicSetIrq_lineExact h) id

end Line

/-- The line to the processor is exact in every state of a run exactly if no operation of
the run marks active all interrupts that could be signalled. -/
theorem irq_line_exact {b : Bus D} (hstart : LineExact L b) (ops : List GicOp) :
    (∀ pre, pre <+: ops → LineExact L (gicRun L b pre)) ↔
      ∀ pre op, pre ++ [op] <+: ops → ¬ op.silences (L.get (gicRun L b pre).dev) := by
  have hstep : ∀ c op, True → LineExact L c → (LineExact L (gicStep L c op) ↔ ¬ op.silences (L.get c.dev)) :=
    fun _ op _ h => gicStep_lineExact_iff op h
  exact Prefixes.forall_prefix_iff hstep hstart fun _ _ => trivial

def gicAlone : Bus Gic := Bus.powerOn (fun _ => 0) (fun _ => 0) Gic.initial

/-- Both interfaces are turned on, interrupt 32 is enabled and its line goes high. -/
def signal32 : List GicOp :=
  [.distWrite 0x000 4 1, .cpuWrite 0x00 4 1, .cpuWrite 0x04 4 0xff, .distWrite 0x104 4 1, .setIrq 32 true]

lemma gicAlone_lineExact : LineExact (Lens.self Gic) gicAlone :=
  iff_of_false (by decide) fun h => absurd h.1 (by decide)

theorem irq_line_exact_signal32 : LineExact (Lens.self Gic) gicAlone ∧
    ∀ pre, pre <+: signal32 → LineExact (Lens.self Gic) (gicRun (Lens.self Gic) gicAlone pre) := by
  refine ⟨gicAlone_lineExact, (irq_line_exact (Lens.self Gic) gicAlone_lineExact signal32).2 ?_⟩
  intro pre op hpre hsilence
  have hop : op ∈ signal32 := hpre.subset (by simp)
  fin_cases hop
  · exact absurd hsilence.1 (by decide)
  · exact hsilence
  · exact hsilence
  · exact absurd hsilence.1 (by decide)
  · exact hsilence

/-- Interrupt 32 is signalled and is then marked active through the set-active register:
the line stays high although nothing is left to be signalled. -/
theorem irq_line_stale :
    ¬ LineExact (Lens.self Gic) (gicRun (Lens.self Gic) gicAlone (signal32 ++ [.distWrite 0x304 4 1])) := by
  have hline : (gicRun (Lens.self Gic) gicAlone (signal32 ++ [.distWrite 0x304 4 1])).irqLine = true := by decide +kernel
  have hbest : gicBest (gicRun (Lens.self Gic) gicAlone (signal32 ++ [.distWrite 0x304 4 1])).dev = spurious := by
    decide +kernel
  intro h
  exact gicBest_ne_spurious_iff.2 (h.1 hline) hbest

section Pending

def hits (base : ℕ) (val : U64) (i : ℕ) : Bool := decide (base ≤ i) && decide (i < base + 32) && val.getLsbD (i - base)

namespace GicOp

/-- The interrupt is set pending by the guest, or by a rising edge if it is edge-triggered. -/
def latches (g : Gic) (i : ℕ) : GicOp → Bool
  | distWrite off _ val =>
    match distReg off.toNat with
    | .pend true base => hits base val i
    | _ => false
  | setIrq k level => decide (k = i) && g.cfgEdge i && level && !g.line i
  | _ => false

def unlatches (g : Gic) (i : ℕ) : GicOp → Bool
  | distWrite off _ val =>
    match distReg off.toNat with
    | .pend false base => hits base val i
    | _ => false
  | cpuRead off _ => decide (off.toNat = 0x0c) && decide (gicBest g = i)
  | _ => false

def keepsConfig : GicOp → Prop
  | distWrite off _ _ => ¬ (0xc00 ≤ off.toNat ∧ off.toNat < 0xd00)
  | _ => True

/-- What is done to a level-triggered interrupt such that its pending bit is no longer the
line or the latch: the line is driven low while it is latched, it is cleared while the line
is high, or it is acknowledged while the line is low. -/
def strays (g : Gic) (latch : Bool) (i : ℕ) (op : GicOp) : Prop :=
  g.cfgEdge i = false ∧
    match op with
    | setIrq k level => k = i ∧ level = false ∧ latch = true
    | distWrite _ _ _ => op.unlatches g i = true ∧ g.line i = true
    | cpuRead _ _ => op.unlatches g i = true ∧ g.line i = false
    | _ => False

end GicOp

/-- The controller beside what the history of one interrupt says: whether it was latched
since it was last acknowledged or cleared. -/
structure Latched (D : Type) where
  bus : Bus D
  latch : Bool

def latchStep (i : ℕ) (s : Latched D) (op : GicOp) : Latched D where
  bus := gicStep L s.bus op
  latch := (s.latch || op.latches (L.get s.bus.dev) i) && !op.unlatches (L.get s.bus.dev) i

def latchRun (i : ℕ) (s : Latched D) (ops : List GicOp) : Latched D := ops.foldl (latchStep L i) s

/-- A level-triggered interrupt is pending if its line is high or it is latched, an
edge-triggered one if it is latched. -/
def PendingLaw (i : ℕ) (s : Latched D) : Prop :=
  let g := L.get s.bus.dev
  g.pending i = if g.cfgEdge i then s.latch else g.line i || s.latch

section Steps
variable {L} {i : ℕ} {s : Latched D}

lemma gicMark_eq_hits {f : ℕ → Bool} {base : ℕ} {val : U64} {x : Bool} :
    gicMark f base val x i = if hits base val i then x else f i := by
  simp [gicMark, hits, and_assoc]

lemma pendingLaw_of_same {op : GicOp} (h : PendingLaw L i s)
    (hpending : (L.get (gicStep L s.bus op).dev).pending i = (L.get s.bus.dev).pending i)
    (hline : (L.get (gicStep L s.bus op).dev).line i = (L.get s.bus.dev).line i)
    (hedge : (L.get (gicStep L s.bus op).dev).cfgEdge i = (L.get s.bus.dev).cfgEdge i)
    (hset : op.latches (L.get s.bus.dev) i = false) (hclear : op.unlatches (L.get s.bus.dev) i = false) :
    PendingLaw L i (latchStep L i s op) := by
  have hlatch : (latchStep L i s op).latch = s.latch := by simp [latchStep, hset, hclear]
  have hbus : (latchStep L i s op).bus = gicStep L s.bus op := rfl
  rw [PendingLaw, hbus, hpending, hline, hedge, hlatch]
  exact h

lemma pendingLaw_latchStep {op : GicOp} : PendingLaw L i (latchStep L i s op) ↔
    (L.get (gicStep L s.bus op).dev).pending i =
      let latch := (s.latch || op.latches (L.get s.bus.dev) i) && !op.unlatches (L.get s.bus.dev) i
      if (L.get (gicStep L s.bus op).dev).cfgEdge i then latch else (L.get (gicStep L s.bus op).dev).line i || latch :=
  Iff.rfl

lemma gicdWrite_rest {b : Bus D} {off : U64} {size : ℕ} {val : U64} (hcfg : (GicOp.distWrite off size val).keepsConfig)
    (hreg : ∀ x base, distReg off.toNat ≠ .pend x base) :
    (L.get (gicdWrite L b off size val).dev).pending = (L.get b.dev).pending ∧
    (L.get (gicdWrite L b off size val).dev).line = (L.get b.dev).line ∧
    (L.get (gicdWrite L b off size val).dev).cfgEdge = (L.get b.dev).cfgEdge := by
  have hat := distReg_at off.toNat
  rw [gicdWrite_eq]
  cases h : distReg off.toNat with
  | pend x base => exact absurd h (hreg x base)
  | config base =>
    rw [h, DistReg.At] at hat
    exact absurd ⟨hat.1, hat.2.1⟩ hcfg
  | activate x base => cases x <;> simp [distWrite]
  | _ => simp [distWrite]

lemma gicdWrite_pendingLaw_iff {off : U64} {size : ℕ} {val : U64} (h : PendingLaw L i s)
    (hcfg : (GicOp.distWrite off size val).keepsConfig) :
    PendingLaw L i (latchStep L i s (.distWrite off size val)) ↔
      ¬ GicOp.strays (L.get s.bus.dev) s.latch i (.distWrite off size val) := by
  by_cases hreg : ∀ x base, distReg off.toNat ≠ .pend x base
  · obtain ⟨hpending, hline, hedge⟩ := gicdWrite_rest (b := s.bus) (L := L) hcfg hreg
    have hset : GicOp.latches (L.get s.bus.dev) i (.distWrite off size val) = false := by
      rw [GicOp.latches]
      split
      · exact absurd ‹_› (hreg _ _)
      · rfl
    have hclear : GicOp.unlatches (L.get s.bus.dev) i (.distWrite off size val) = false := by
      rw [GicOp.unlatches]
      split
      · exact absurd ‹_› (hreg _ _)
      · rfl
    refine iff_of_true (pendingLaw_of_same h (congrFun hpending i) (congrFun hline i) (congrFun hedge i) hset hclear) ?_
    exact fun hstray => absurd hstray.2.1 (by simp [hclear])
  · push Not at hreg
    obtain ⟨x, base, hreg⟩ := hreg
    have hset : GicOp.latches (L.get s.bus.dev) i (.distWrite off size val) = (x && hits base val i) := by
      simp only [GicOp.latches, hreg]
      cases x <;> rfl
    have hclear : GicOp.unlatches (L.get s.bus.dev) i (.distWrite off size val) = (!x && hits base val i) := by
      simp only [GicOp.unlatches, hreg]
      cases x <;> rfl
    have hstep : L.get (gicStep L s.bus (.distWrite off size val)).dev =
        { L.get s.bus.dev with pending := gicMark (L.get s.bus.dev).pending base val x } := by
      rw [gicStep, gicdWrite_eq, hreg, distWrite, get_gicUpdate, get_setGic]
    have hstrays : GicOp.strays (L.get s.bus.dev) s.latch i (.distWrite off size val) ↔
        (L.get s.bus.dev).cfgEdge i = false ∧ (!x && hits base val i) = true ∧ (L.get s.bus.dev).line i = true := by
      rw [GicOp.strays, hclear]
    rw [PendingLaw] at h
    rw [pendingLaw_latchStep, hset, hclear, hstep, hstrays]
    dsimp only
    rw [gicMark_eq_hits, h]
    cases x <;> cases hits base val i <;> cases (L.get s.bus.dev).cfgEdge i <;> simp

lemma gicSetIrq_at (b : Bus D) (level : Bool) (hi : i < gicNumIrqs) :
    (L.get (gicSetIrq L b i level).dev).pending i = (L.get b.dev).pendAfter i level ∧
    (L.get (gicSetIrq L b i level).dev).line i = level ∧
    (L.get (gicSetIrq L b i level).dev).cfgEdge i = (L.get b.dev).cfgEdge i := by
  rw [gicSetIrq_of_lt hi]
  dsimp only
  split
  · rename_i hsame
    simp [hsame]
  · simp

lemma gicSetIrq_pendingLaw_iff (hi : i < gicNumIrqs) {k : ℕ} {level : Bool} (h : PendingLaw L i s) :
    PendingLaw L i (latchStep L i s (.setIrq k level)) ↔
      ¬ GicOp.strays (L.get s.bus.dev) s.latch i (.setIrq k level) := by
  by_cases hk : k = i
  · subst hk
    obtain ⟨hpending, hline, hedge⟩ := gicSetIrq_at (L := L) s.bus level hi
    have hclear : GicOp.unlatches (L.get s.bus.dev) k (.setIrq k level) = false := rfl
    rw [PendingLaw] at h
    rw [pendingLaw_latchStep, hclear, gicStep, hpending, hline, hedge, Gic.pendAfter, GicOp.latches, GicOp.strays, h]
    cases (L.get s.bus.dev).cfgEdge k <;> cases (L.get s.bus.dev).line k <;> cases s.latch <;> cases level <;> simp
  · have hentry : (L.get (gicSetIrq L s.bus k level).dev).entry i = (L.get s.bus.dev).entry i :=
      gicSetIrq_entry fun _ => Ne.symm hk
    simp only [Gic.entry, Prod.mk.injEq] at hentry
    obtain ⟨-, hpending, -, hline, hedge, -⟩ := hentry
    have hset : GicOp.latches (L.get s.bus.dev) i (.setIrq k level) = false := by simp [GicOp.latches, hk]
    exact iff_of_true (pendingLaw_of_same h hpending hline hedge hset rfl) fun hstray => hk hstray.2.1

lemma acknowledge_at {b : Bus D} (hbest : gicBest (L.get b.dev) = i) :
    (L.get (acknowledge L b).dev).pending i = (!(L.get b.dev).cfgEdge i && (L.get b.dev).pending i) ∧
    (L.get (acknowledge L b).dev).line i = (L.get b.dev).line i ∧
    (L.get (acknowledge L b).dev).cfgEdge i = (L.get b.dev).cfgEdge i := by
  simp only [acknowledge, get_gicUpdate, get_setGic, hbest]
  cases (L.get b.dev).cfgEdge i <;> simp

lemma giccRead_pendingLaw_iff (hi : i < gicNumIrqs) {off : U64} {size : ℕ} (h : PendingLaw L i s) :
    PendingLaw L i (latchStep L i s (.cpuRead off size)) ↔
      ¬ GicOp.strays (L.get s.bus.dev) s.latch i (.cpuRead off size) := by
  have hset : GicOp.latches (L.get s.bus.dev) i (.cpuRead off size) = false := rfl
  by_cases hack : off.toNat = 0x0c ∧ gicBest (L.get s.bus.dev) = i
  · have hreal : gicBest (L.get s.bus.dev) ≠ spurious := hack.2 ▸ range_ne_spurious i (List.mem_range.2 hi)
    have hstep : gicStep L s.bus (.cpuRead off size) = acknowledge L s.bus := by
      rw [gicStep, giccRead_bus, if_pos ⟨hack.1, hreal⟩]
    have hclear : GicOp.unlatches (L.get s.bus.dev) i (.cpuRead off size) = true := by simp [GicOp.unlatches, hack]
    have hpend : (L.get s.bus.dev).pending i = true := by
      have helig := (gicBest_eligible hreal).2
      rw [hack.2, Gic.eligible] at helig
      simp_all
    obtain ⟨hpending, hline, hedge⟩ := acknowledge_at hack.2
    rw [pendingLaw_latchStep, hset, hclear, hstep, hpending, hline, hedge, hpend, GicOp.strays, hclear]
    cases (L.get s.bus.dev).cfgEdge i <;> simp
  · have hclear : GicOp.unlatches (L.get s.bus.dev) i (.cpuRead off size) = false := by
      simp only [GicOp.unlatches, Bool.and_eq_false_iff, decide_eq_false_iff_not]
      tauto
    have hentry : (L.get (gicStep L s.bus (.cpuRead off size)).dev).entry i = (L.get s.bus.dev).entry i := by
      refine gicStep_entry ?_
      rw [GicOp.addresses]
      split
      · rename_i hread
        exact fun hmem => hack ⟨hread.1, (List.mem_singleton.1 hmem).symm⟩
      · exact List.not_mem_nil
    simp only [Gic.entry, Prod.mk.injEq] at hentry
    obtain ⟨-, hpending, -, hline, hedge, -⟩ := hentry
    refine iff_of_true (pendingLaw_of_same h hpending hline hedge hset hclear) fun hstray => ?_
    exact absurd hstray.2.1 (by simp [hclear])

lemma giccWrite_rest (b : Bus D) (off : U64) (size : ℕ) (val : U64) :
    (L.get (giccWrite L b off size val).dev).pending = (L.get b.dev).pending ∧
    (L.get (giccWrite L b off size val).dev).line = (L.get b.dev).line ∧
    (L.get (giccWrite L b off size val).dev).cfgEdge = (L.get b.dev).cfgEdge := by
  rw [giccWrite_eq]
  dsimp only
  split_ifs
  · simp
  · simp
  · simp only [endInterrupt, get_gicUpdate]
    split <;> simp
  · simp

/-- One operation keeps the law exactly if it is not one of those that make a
level-triggered interrupt stray. -/
lemma latchStep_pendingLaw_iff (hi : i < gicNumIrqs) (op : GicOp) (hcfg : op.keepsConfig) (h : PendingLaw L i s) :
    PendingLaw L i (latchStep L i s op) ↔ ¬ op.strays (L.get s.bus.dev) s.latch i := by
  cases op with
  | distRead off size => exact iff_of_true (pendingLaw_of_same h rfl rfl rfl rfl rfl) fun hstray => hstray.2
  | distWrite off size val => exact gicdWrite_pendingLaw_iff h hcfg
  | cpuRead off size => exact giccRead_pendingLaw_iff hi h
  | cpuWrite off size val =>
    obtain ⟨hpending, hline, hedge⟩ := giccWrite_rest (L := L) s.bus off size val
    refine iff_of_true ?_ fun hstray => hstray.2
    exact pendingLaw_of_same h (congrFun hpending i) (congrFun hline i) (congrFun hedge i) rfl rfl
  | setIrq k level => exact gicSetIrq_pendingLaw_iff hi h

end Steps

end Pending

end Arm64Emu
