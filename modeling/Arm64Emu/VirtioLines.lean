import Arm64Emu.BusRel
import Arm64Emu.GicRuns
import Arm64Emu.VirtioBoard
import Arm64Emu.VirtioSignal

/-! The interrupt lines of the virtio devices on the board. -/
namespace Arm64Emu

open Dialogue DevProg

section Accesses
variable {D : Type} {P : Platform D} {R : Bus D → Bus D → Prop}

structure MmioDev.Keeps (R : Bus D → Bus D → Prop) (d : MmioDev D) : Prop where
  read {f} (hf : d.read = some f) (b : Bus D) (off : U64) (n : ℕ) : R b (f b off n).2
  write {f} (hf : d.write = some f) (b : Bus D) (off : U64) (n : ℕ) (x : U64) : R b (f b off n x)

lemma MmioDev.Keeps.of_callbacks {base size : U64} {read : Bus D → U64 → ℕ → U64 × Bus D}
    {write : Bus D → U64 → ℕ → U64 → Bus D} (hr : ∀ b off n, R b (read b off n).2) (hw : ∀ b off n x, R b (write b off n x)) :
    MmioDev.Keeps R ⟨base, size, some read, some write⟩ where
  read hf := by cases hf; exact hr
  write hf := by cases hf; exact hw

lemma BusRel.readDesc (h : BusRel P R) (table : U64) (idx : U32) (b : Bus D) : R b (readDesc P table idx b).2 := by
  unfold Arm64Emu.readDesc
  dsimp only
  exact h.trans (h.trans (h.trans (h.physRead _ _ _) (h.physRead _ _ _)) (h.physRead _ _ _)) (h.physRead _ _ _)

lemma BusRel.pushUsed (h : BusRel P R) (q : Bus D → Virtq) (id len : U32) (b : Bus D) : R b (pushUsed P q id len b) := by
  unfold Arm64Emu.pushUsed
  dsimp only
  exact h.trans (h.trans (h.trans (h.physRead _ _ _) (h.physWrite _ _ _ _)) (h.physWrite _ _ _ _)) (h.physWrite _ _ _ _)

end Accesses

inductive VirtioSlot
  | net
  | blk (i : ℕ)
  | fs (i : ℕ)
  | con
  deriving DecidableEq, Repr

namespace VirtioSlot

def Present (cfg : BoardConfig) : VirtioSlot → Prop
  | net => cfg.net = true
  | blk i => i < cfg.drives
  | fs i => i < cfg.shares
  | con => cfg.console = true

def irq (cfg : BoardConfig) : VirtioSlot → ℕ
  | net => intidVirtio0
  | blk i => intidVirtio0 + VirtDevices.blkSlot i
  | fs i => intidVirtio0 + VirtDevices.fsSlot cfg i
  | con => intidVirtio0 + VirtDevices.conSlot cfg

variable {cfg : BoardConfig} {s s' : VirtioSlot}

lemma irq_bounds (h : s.Present cfg) : intidVirtio0 ≤ s.irq cfg ∧ s.irq cfg < gicNumIrqs := by
  have hfits := cfg.fits
  cases s <;> simp only [Present, irq, VirtDevices.blkSlot, VirtDevices.fsSlot, VirtDevices.conSlot, intidVirtio0,
    gicNumIrqs] at * <;> omega

lemma irq_injective (h : s.Present cfg) (h' : s'.Present cfg) (heq : s.irq cfg = s'.irq cfg) : s = s' := by
  cases s <;> cases s' <;>
    simp only [Present, irq, VirtDevices.blkSlot, VirtDevices.fsSlot, VirtDevices.conSlot, intidVirtio0, reduceCtorEq,
      blk.injEq, fs.injEq] at * <;> omega

end VirtioSlot

namespace VirtDevices
variable {W : Type} {cfg : BoardConfig} {d d' : VirtDevices W}

/-- `InterruptStatus`. -/
def isr (d : VirtDevices W) : VirtioSlot → U32
  | .net => d.net.isr
  | .blk i => (d.blk i).isr
  | .fs i => (d.fs i).isr
  | .con => d.con.isr

/-- The line of a device is high just if its status has a cause. -/
def Signalled (cfg : BoardConfig) (d : VirtDevices W) (s : VirtioSlot) : Prop :=
  (gicL.get d).line (s.irq cfg) = true ↔ d.isr s ≠ 0

def Exact (cfg : BoardConfig) (d : VirtDevices W) : Prop := ∀ s, s.Present cfg → d.Signalled cfg s

lemma Exact.congr (h : d.Exact cfg) (hisr : ∀ s, d'.isr s = d.isr s)
    (hline : ∀ s : VirtioSlot, s.Present cfg → (gicL.get d').line (s.irq cfg) = (gicL.get d).line (s.irq cfg)) :
    d'.Exact cfg :=
  fun s hs => by rw [Signalled, hisr, hline s hs]; exact h s hs

lemma Exact.setGic {g : Gic} (h : d.Exact cfg)
    (hline : ∀ s : VirtioSlot, s.Present cfg → g.line (s.irq cfg) = (gicL.get d).line (s.irq cfg)) :
    (gicL.set d g).Exact cfg :=
  h.congr (fun s => by cases s <;> rfl) hline

lemma Exact.gicSetIrq {b : Bus (VirtDevices W)} {k : ℕ} {level : Bool} (h : b.dev.Exact cfg) (hk : k < intidVirtio0) :
    (gicSetIrq gicL b k level).dev.Exact cfg := by
  obtain ⟨g, hg⟩ := gicStep_dev (L := gicL) (b := b) (.setIrq k level)
  have hk' : k < gicNumIrqs := hk.trans (by decide)
  have hline : (gicL.get (Arm64Emu.gicSetIrq gicL b k level).dev).line = _ := gicSetIrq_line hk'
  have hdev : (Arm64Emu.gicSetIrq gicL b k level).dev = gicL.set b.dev g := hg
  rw [hdev, gicL.get_set] at hline
  rw [hdev]
  refine h.setGic fun s hs => ?_
  rw [hline, Function.update_of_ne]
  have := (VirtioSlot.irq_bounds hs).1
  omega

end VirtDevices

section Ports
open VirtDevices
variable {W B H : Type} {R : H → Type} {cfg : BoardConfig}

/-- A port through which the device in a slot is reached, and no other. -/
structure VirtioPort.Serves (cfg : BoardConfig) (port : VirtioPort (VirtDevices W) B R) (s : VirtioSlot) : Prop where
  irq : port.irq = s.irq cfg
  gic : port.gic = gicL
  isr_get (d : VirtDevices W) : (port.dev.get d).isr = d.isr s
  isr_set (d : VirtDevices W) (v : Virtio B) (s' : VirtioSlot) : s' ≠ s → (port.dev.set d v).isr s' = d.isr s'
  gic_set (d : VirtDevices W) (v : Virtio B) : gicL.get (port.dev.set d v) = gicL.get d
  isr_host (d : VirtDevices W) (h : H) (s' : VirtioSlot) : (port.host d h).2.isr s' = d.isr s'
  gic_host (d : VirtDevices W) (h : H) : gicL.get (port.host d h).2 = gicL.get d

/-- What the device in a slot knows is right, and the others are in order. -/
structure Viewed (cfg : BoardConfig) (s : VirtioSlot) (g : SignalView) (b : Bus (VirtDevices W)) : Prop where
  others (s' : VirtioSlot) : s'.Present cfg → s' ≠ s → b.dev.Signalled cfg s'
  own : match g with
    | none => b.dev.Signalled cfg s
    | some (isr, line) => b.dev.isr s = isr ∧ (gicL.get b.dev).line (s.irq cfg) = line

variable {s : VirtioSlot} {g : SignalView} {b b' : Bus (VirtDevices W)}

lemma Viewed.exact (h : Viewed cfg s g b) (hg : Settled g) : b.dev.Exact cfg := by
  intro s' hs'
  by_cases heq : s' = s
  · subst heq
    have hown := h.own
    match g, hown with
    | none, hown => exact hown
    | some (isr, line), ⟨hisr, hline⟩ =>
      rw [Signalled, hisr, hline]
      exact hg
  · exact h.others s' hs' heq

lemma Viewed.of_exact (hs : s.Present cfg) (h : b.dev.Exact cfg) : Viewed cfg s none b := ⟨fun s' hs' _ => h s' hs', h s hs⟩

lemma Viewed.congr (h : Viewed cfg s g b) (hisr : ∀ s, b'.dev.isr s = b.dev.isr s)
    (hgic : gicL.get b'.dev = gicL.get b.dev) : Viewed cfg s g b' := by
  refine ⟨fun s' hs' hne => ?_, ?_⟩
  · rw [Signalled, hisr, hgic]
    exact h.others s' hs' hne
  · rw [Signalled, hisr, hgic]
    exact h.own

lemma Viewed.get (h : Viewed cfg s g b) :
    (∀ x ∈ g, b.dev.isr s = x.1) ∧ Viewed cfg s (some (g.getD (b.dev.isr s, decide (b.dev.isr s ≠ 0)))) b := by
  match g, h.own with
  | none, hown => exact ⟨by simp, h.others, rfl, Bool.eq_iff_iff.2 (hown.trans decide_eq_true_iff.symm)⟩
  | some x, hown => exact ⟨by rintro _ ⟨⟩; exact hown.1, h⟩

variable {port : VirtioPort (VirtDevices W) B R} {P : Platform (VirtDevices W)}

lemma Viewed.put (hport : port.Serves cfg s) {x : U32 × Bool} (h : Viewed cfg s (some x) b) (v : Virtio B) :
    Viewed cfg s (some (v.isr, x.2)) { b with dev := port.dev.set b.dev v } := by
  refine ⟨fun s' hs' hne => ?_, ?_, ?_⟩
  · rw [Signalled, hport.isr_set _ _ _ hne, hport.gic_set]
    exact h.others s' hs' hne
  · rw [← hport.isr_get, port.dev.get_set]
  · rw [hport.gic_set]
    exact h.own.2

lemma Viewed.line (hport : port.Serves cfg s) (hs : s.Present cfg) {x : U32 × Bool} (h : Viewed cfg s (some x) b)
    (level : Bool) : Viewed cfg s (some (x.1, level)) (gicSetIrq port.gic b port.irq level) := by
  rw [hport.gic, hport.irq]
  obtain ⟨g, hg⟩ := gicStep_dev (L := gicL) (b := b) (.setIrq (s.irq cfg) level)
  have hdev : (gicSetIrq gicL b (s.irq cfg) level).dev = gicL.set b.dev g := hg
  have hisr (s' : VirtioSlot) : (gicSetIrq gicL b (s.irq cfg) level).dev.isr s' = b.dev.isr s' := by
    rw [hdev]
    cases s' <;> rfl
  have hline : (gicL.get (gicSetIrq gicL b (s.irq cfg) level).dev).line = _ := gicSetIrq_line (VirtioSlot.irq_bounds hs).2
  refine ⟨fun s' hs' hne => ?_, ?_, ?_⟩
  · rw [Signalled, hisr, hline, Function.update_of_ne fun heq => hne (VirtioSlot.irq_injective hs' hs heq)]
    exact h.others s' hs' hne
  · rw [hisr]
    exact h.own.1
  · rw [hline, Function.update_self]

abbrev KeepsExact (cfg : BoardConfig) (b b' : Bus (VirtDevices W)) : Prop := b.dev.Exact cfg → b'.dev.Exact cfg

lemma perform_viewed (hport : port.Serves cfg s) (hs : s.Present cfg) (hP : BusRel P (KeepsExact cfg)) (c : DevCall B H)
    (h : Viewed cfg s g b) (hc : (signalProtocol R).allowed g c) :
    (signalProtocol R).answers g c (port.perform P b c).1 ∧
      Viewed cfg s ((signalProtocol R).next g c (port.perform P b c).1) (port.perform P b c).2 := by
  have hbus {b' : Bus (VirtDevices W)} (hg : Settled g) (hb' : KeepsExact cfg b b') : Viewed cfg s none b' :=
    .of_exact hs (hb' (h.exact hg))
  cases c with
  | get =>
    obtain ⟨hknown, hnext⟩ := h.get
    rw [← hport.isr_get] at hknown hnext
    exact ⟨hknown, hnext⟩
  | put v =>
    match g, hc with
    | some x, _ => exact ⟨trivial, h.put hport v⟩
  | line level =>
    match g, hc with
    | some x, _ => exact ⟨trivial, h.line hport hs level⟩
  | advance i =>
    refine ⟨trivial, h.congr (fun s' => ?_) (hport.gic_set _ _)⟩
    by_cases heq : s' = s
    · subst heq
      exact (hport.isr_get _).symm.trans ((congrArg Virtio.isr (port.dev.get_set _ _)).trans (hport.isr_get _))
    · exact hport.isr_set _ _ _ heq
  | host c => exact ⟨trivial, h.congr (hport.isr_host _ _) (hport.gic_host _ _)⟩
  | availIdx i => exact ⟨trivial, hbus hc (hP.physRead _ _ _)⟩
  | availHead i => exact ⟨trivial, hbus hc (hP.physRead _ _ _)⟩
  | desc i idx => exact ⟨trivial, hbus hc (hP.readDesc _ _ _)⟩
  | pushUsed i id len => exact ⟨trivial, hbus hc (hP.pushUsed _ _ _ _)⟩
  | read pa n => exact ⟨trivial, hbus hc (hP.physRead _ _ _)⟩
  | readBlk pa n => exact ⟨trivial, hbus hc (hP.physReadBlk _ _ _)⟩
  | write pa n x => exact ⟨trivial, hbus hc (hP.physWrite _ _ _ _)⟩
  | writeBlk pa src => exact ⟨trivial, hbus hc (hP.physWriteBlk _ _ _)⟩

lemma exec_exact (hport : port.Serves cfg s) (hs : s.Present cfg) (hP : BusRel P (KeepsExact cfg)) {α : Type}
    {p : DevProg B R α} (hp : Signals p) (b : Bus (VirtDevices W)) : KeepsExact cfg b (port.exec P p b) := by
  intro hb
  have hstart : Viewed cfg s none b := .of_exact hs hb
  obtain ⟨g, hview, hg⟩ := (hp none trivial).run hstart fun g b c h hc => perform_viewed hport hs hP c h hc
  exact hview.exact hg

end Ports

namespace VirtDevices
variable {W : Type} (host : VirtioHost W) (cfg : BoardConfig)

lemma netPort_serves : (netPort host).Serves cfg .net where
  irq := rfl
  gic := rfl
  isr_get _ := rfl
  isr_set _ _ s' h := by cases s' <;> first | rfl | exact absurd rfl h
  gic_set _ _ := rfl
  isr_host _ _ s' := by cases s' <;> rfl
  gic_host _ _ := rfl

lemma blkPort_serves (i : ℕ) : (blkPort host i).Serves cfg (.blk i) where
  irq := rfl
  gic := rfl
  isr_get _ := rfl
  isr_set d v s' h := by
    cases s' with
    | blk j =>
      have hji : j ≠ i := fun hji => h (by rw [hji])
      change (Function.update d.blk i v j).isr = (d.blk j).isr
      rw [Function.update_of_ne hji]
    | _ => rfl
  gic_set _ _ := rfl
  isr_host _ _ s' := by cases s' <;> rfl
  gic_host _ _ := rfl

lemma fsPort_serves (i : ℕ) : (fsPort host cfg i).Serves cfg (.fs i) where
  irq := rfl
  gic := rfl
  isr_get _ := rfl
  isr_set d v s' h := by
    cases s' with
    | fs j =>
      have hji : j ≠ i := fun hji => h (by rw [hji])
      change (Function.update d.fs i v j).isr = (d.fs j).isr
      rw [Function.update_of_ne hji]
    | _ => rfl
  gic_set _ _ := rfl
  isr_host _ _ s' := by cases s' <;> rfl
  gic_host _ _ := rfl

lemma conPort_serves : (conPort host cfg).Serves cfg .con where
  irq := rfl
  gic := rfl
  isr_get _ := rfl
  isr_set _ _ s' h := by cases s' <;> first | rfl | exact absurd rfl h
  gic_set _ _ := rfl
  isr_host _ c s' := by cases c <;> cases s' <;> rfl
  gic_host _ c := by cases c <;> rfl

end VirtDevices

section Table
open VirtDevices
variable {W : Type} {host : VirtioHost W} {cfg : BoardConfig} {rounds : ℕ} {P : Platform (VirtDevices W)}

lemma gicStep_exact (op : GicOp) (hop : ∀ k level, op ≠ .setIrq k level) (b : Bus (VirtDevices W)) :
    KeepsExact cfg b (gicStep gicL b op) := by
  intro h
  obtain ⟨g, hg⟩ := gicStep_dev (L := gicL) (b := b) op
  have hline := gicStep_line_of_access (L := gicL) (b := b) hop
  rw [hg, gicL.get_set] at hline
  rw [hg]
  exact h.setGic fun s _ => by rw [hline]

lemma setBase_exact {d : VirtDevices W} {base : Devices} (h : d.Exact cfg) (hgic : base.gic = d.base.gic) :
    (baseL.set d base).Exact cfg :=
  h.congr (fun s => by cases s <;> rfl) fun s _ => congrArg (fun g : Gic => g.line (s.irq cfg)) hgic

lemma uartUpdateIrq_exact (b : Bus (VirtDevices W)) :
    KeepsExact cfg b (uartUpdateIrq gicL (baseL.comp Devices.uartL) b) :=
  fun h => Exact.gicSetIrq (b := setUart (baseL.comp Devices.uartL) b _) (setBase_exact h rfl) (by decide)

lemma pl031SetLine_exact (b : Bus (VirtDevices W)) : KeepsExact cfg b (pl031SetLine gicL (baseL.comp Devices.rtcL) b) := by
  intro h
  unfold pl031SetLine
  dsimp only
  split
  · exact Exact.gicSetIrq (b := setRtc (baseL.comp Devices.rtcL) b _) (setBase_exact h rfl) (by decide)
  · exact h

lemma gicDist_keeps {base size : U64} :
    MmioDev.Keeps (KeepsExact cfg) ⟨base, size, some (gicdRead (gicL (W := W))), some (gicdWrite gicL)⟩ :=
  .of_callbacks (fun _ _ _ h => h) fun b off n x => gicStep_exact (.distWrite off n x) (by simp) b

lemma gicCpu_keeps {base size : U64} :
    MmioDev.Keeps (KeepsExact cfg) ⟨base, size, some (giccRead (gicL (W := W))), some (giccWrite gicL)⟩ :=
  .of_callbacks (fun b off n => gicStep_exact (.cpuRead off n) (by simp) b)
    fun b off n x => gicStep_exact (.cpuWrite off n x) (by simp) b

lemma uart_keeps {base size : U64} : MmioDev.Keeps (KeepsExact cfg) ⟨base, size,
    some (uartRead (gicL (W := W)) (baseL.comp Devices.uartL)),
    some (uartWrite gicL (baseL.comp Devices.uartL) (baseL.comp Devices.ttyL))⟩ := by
  refine .of_callbacks (fun b off n h => ?_) fun b off n x h => ?_
  · unfold uartRead
    dsimp only
    split
    · exact h
    · split
      · exact uartUpdateIrq_exact (setUart (baseL.comp Devices.uartL) b _) (setBase_exact h rfl)
      all_goals exact h
  · unfold uartWrite
    dsimp only
    split
    · exact uartUpdateIrq_exact { b with dev := (baseL.comp Devices.ttyL).set b.dev _ } (setBase_exact h rfl)
    iterate 5 exact setBase_exact h rfl
    · exact uartUpdateIrq_exact (setUart (baseL.comp Devices.uartL) b _) (setBase_exact h rfl)
    · exact uartUpdateIrq_exact b h
    · exact h

lemma rtc_keeps {base size : U64} : MmioDev.Keeps (KeepsExact cfg) ⟨base, size,
    some (rtcRead ((baseL (W := W)).comp Devices.rtcL) fun d => d.base.hostSeconds),
    some (rtcWrite gicL (baseL.comp Devices.rtcL) fun d => d.base.hostSeconds)⟩ := by
  refine .of_callbacks (fun b off n h => h) fun b off n x h => ?_
  unfold rtcWrite
  dsimp only
  split
  iterate 3 exact setBase_exact h rfl
  · exact pl031SetLine_exact (setRtc (baseL.comp Devices.rtcL) b _) (setBase_exact h rfl)
  · exact pl031SetLine_exact (setRtc (baseL.comp Devices.rtcL) b _) (setBase_exact h rfl)
  · exact h

lemma fwcfg_keeps (hP : BusRel P (KeepsExact cfg)) {base size : U64} : MmioDev.Keeps (KeepsExact cfg) ⟨base, size,
    some (fwcfgRead (baseL.comp Devices.fwcfgL)), some (fwcfgWrite P (baseL.comp Devices.fwcfgL))⟩ := by
  have hset (b : Bus (VirtDevices W)) (f : FwCfg) : KeepsExact cfg b (setFwcfg (baseL.comp Devices.fwcfgL) b f) :=
    fun h => setBase_exact h rfl
  have hcopy (n : ℕ) (it : Option FwItem) (b : Bus (VirtDevices W)) (target : U64) :
      KeepsExact cfg b (fwcfgCopy P (baseL.comp Devices.fwcfgL) it b target n) := by
    induction n generalizing b target with
    | zero => exact hP.refl b
    | succ n ih => exact fun h => ih _ _ (hset _ _ (hP.physWrite _ _ _ _ h))
  have hdma (b : Bus (VirtDevices W)) (addr : U64) : KeepsExact cfg b (doDma P (baseL.comp Devices.fwcfgL) b addr) := by
    intro h
    unfold doDma
    dsimp only
    refine hP.physWriteBlk _ _ _ ?_
    have h := hP.physReadBlk b addr 16 h
    split_ifs
    · exact hcopy _ _ _ _ (hset _ _ h)
    · exact hcopy _ _ _ _ h
    · exact hset _ _ (hset _ _ h)
    · exact hset _ _ h
    · exact hset _ _ h
    · exact h
  refine .of_callbacks (fun b off n h => ?_) fun b off n x h => ?_
  · unfold fwcfgRead
    dsimp only
    split
    · exact hset _ _ h
    · exact h
  · unfold fwcfgWrite
    dsimp only
    split_ifs
    · exact hset _ _ h
    · exact hdma _ _ h
    · exact hset _ _ h
    · exact hdma _ _ h
    · exact h

lemma stub_keeps {read : Bus (VirtDevices W) → U64 → ℕ → U64 × Bus (VirtDevices W)} (hread : ∀ b off n, (read b off n).2 = b)
    {base size : U64} : MmioDev.Keeps (KeepsExact cfg) (stubDevice read base size) :=
  .of_callbacks (fun b off n h => by rw [hread]; exact h) fun _ _ _ _ h => h

lemma mmio_keeps {B H : Type} {R : H → Type} {port : VirtioPort (VirtDevices W) B R} {s : VirtioSlot}
    (hport : port.Serves cfg s) (hs : s.Present cfg) (hP : BusRel P (KeepsExact cfg)) {K : VirtioKind B R}
    (hK : ∀ off x, Signals (virtioWrite K off x)) (slot : ℕ) : MmioDev.Keeps (KeepsExact cfg) (port.mmio P K slot) :=
  .of_callbacks (fun _ _ _ h => h) fun b off _ x => exec_exact hport hs hP (hK off x) b

lemma virtioTable_keeps (hP : BusRel P (KeepsExact cfg)) :
    ∀ d ∈ virtioTable host cfg rounds (onBus P), MmioDev.Keeps (KeepsExact cfg) d := by
  unfold virtioTable
  simp only [List.forall_mem_append, List.forall_mem_map, List.mem_range]
  refine ⟨⟨⟨?_, fun i hi => ?_⟩, fun i hi => ?_⟩, ?_⟩
  · split
    · rename_i hnet
      exact List.forall_mem_singleton.2 (mmio_keeps (netPort_serves host cfg) hnet hP (netWrite_signals rounds) 0)
    · simp
  · exact mmio_keeps (blkPort_serves host cfg i) hi hP (blkWrite_signals rounds) _
  · exact mmio_keeps (fsPort_serves host cfg i) hi hP (fsWrite_signals rounds) _
  · split
    · rename_i hcon
      exact List.forall_mem_singleton.2 (mmio_keeps (conPort_serves host cfg) hcon hP (conWrite_signals rounds) _)
    · simp

lemma table_keeps (hP : BusRel P (KeepsExact cfg)) :
    ∀ d ∈ VirtDevices.table host cfg rounds (onBus P) P, MmioDev.Keeps (KeepsExact cfg) d := by
  have hzero {base size : U64} : MmioDev.Keeps (KeepsExact cfg) (stubDevice (D := VirtDevices W) stubZeroRead base size) :=
    stub_keeps fun _ _ _ => rfl
  have hones {base size : U64} : MmioDev.Keeps (KeepsExact cfg) (stubDevice (D := VirtDevices W) stubOnesRead base size) :=
    stub_keeps fun _ _ _ => rfl
  have hempty {base size : U64} :
      MmioDev.Keeps (KeepsExact cfg) (stubDevice (D := VirtDevices W) virtioMmioRead base size) :=
    stub_keeps fun b off n => by
      unfold virtioMmioRead
      split <;> rfl
  unfold VirtDevices.table
  simp only [List.forall_mem_append, List.forall_mem_cons, List.not_mem_nil, false_imp_iff, implies_true, and_true]
  refine ⟨⟨⟨⟨?_, virtioTable_keeps hP⟩, ?_⟩, ?_⟩, hempty, hones, hones, hones⟩
  · exact ⟨gicDist_keeps, gicCpu_keeps, uart_keeps, rtc_keeps, fwcfg_keeps hP, hzero, hzero⟩
  · split
    · simp
    · simpa using hempty
  · split
    · simpa using hempty
    · simp

lemma timerLines_exact (b : Bus (VirtDevices W)) (phys virt : Bool) (deadline : U64) :
    KeepsExact cfg b (VirtDevices.timerLines b phys virt deadline) := by
  intro h
  have hphys : (gicSetIrq gicL b 30 phys).dev.Exact cfg := h.gicSetIrq (by decide)
  have hvirt : (gicSetIrq gicL (gicSetIrq gicL b 30 phys) 27 virt).dev.Exact cfg := hphys.gicSetIrq (by decide)
  exact setBase_exact hvirt rfl

lemma virtio_keeps (ramSize : U64) (depth : ℕ) :
    BusRel (Platform.virtio host cfg rounds ramSize depth) (KeepsExact cfg) := by
  induction depth with
  | zero => exact {
      refl := fun _ h => h
      trans := fun h h' hb => h' (h hb)
      mem := fun _ _ _ _ _ h => h
      hook := fun _ _ _ h => h
      read := fun hd => absurd hd List.not_mem_nil
      write := fun hd => absurd hd List.not_mem_nil
      clock := fun _ h => h
      timer := timerLines_exact }
  | succ depth ih => exact { ih with
      hook := ih.hook
      read := fun hd _ => (table_keeps ih _ hd).read
      write := fun hd _ => (table_keeps ih _ hd).write
      clock := ih.clock
      timer := ih.timer }

end Table

/-- What happens on the board: accesses by the guest, and the polls and the timer of
`machine_tick`. -/
inductive BoardOp
  | load (pa : U64) (size : ℕ)
  | store (pa : U64) (size : ℕ) (val : U64)
  | netPoll
  | conPoll
  | timer (phys virt : Bool) (deadline : U64)

section Runs
open VirtDevices
variable {W : Type} (host : VirtioHost W) (cfg : BoardConfig) (rounds : ℕ) (P : Platform (VirtDevices W))

def boardStep (b : Bus (VirtDevices W)) : BoardOp → Bus (VirtDevices W)
  | .load pa size => (physRead P b pa size).2
  | .store pa size val => physWrite P b pa size val
  | .netPoll => if cfg.net then (netPort host).exec P (virtioNetPoll rounds) b else b
  | .conPoll => if cfg.console then (conPort host cfg).exec P (virtioConsolePoll rounds) b else b
  | .timer phys virt deadline => timerLines b phys virt deadline

variable {host cfg rounds P}

lemma boardStep_exact (hP : BusRel P (KeepsExact cfg)) (op : BoardOp) (b : Bus (VirtDevices W)) :
    KeepsExact cfg b (boardStep host cfg rounds P b op) := by
  cases op with
  | load pa size => exact hP.physRead b pa size
  | store pa size val => exact hP.physWrite b pa size val
  | netPoll =>
    rw [boardStep]
    split
    · rename_i hnet
      exact exec_exact (netPort_serves host cfg) hnet hP (virtioNetPoll_signals rounds) b
    · exact fun h => h
  | conPoll =>
    rw [boardStep]
    split
    · rename_i hcon
      exact exec_exact (conPort_serves host cfg) hcon hP (virtioConsolePoll_signals rounds) b
    · exact fun h => h
  | timer phys virt deadline => exact timerLines_exact b phys virt deadline

lemma created_exact (disk : ℕ → Blk) (share : ℕ → Share) (world : W) :
    (VirtDevices.created disk share world).Exact cfg := by
  intro s _
  cases s <;> exact iff_of_false Bool.false_ne_true fun h => h rfl

lemma raise_latches {B H : Type} {R : H → Type} {port : VirtioPort (VirtDevices W) B R} {s : VirtioSlot}
    (hport : port.Serves cfg s) (hs : s.Present cfg) {b : Bus (VirtDevices W)} (hb : b.dev.Exact cfg) (cause : U32)
    (hclear : b.dev.isr s = 0) (hedge : (gicL.get b.dev).cfgEdge (s.irq cfg) = true) :
    (gicL.get (port.exec P (raise cause) b).dev).pending (s.irq cfg) = true := by
  let v := port.dev.get b.dev
  let noted : Bus (VirtDevices W) := { b with dev := port.dev.set b.dev { v with isr := v.isr ||| cause } }
  have hexec : port.exec P (raise cause) b = gicSetIrq port.gic noted port.irq true := rfl
  have hgic : gicL.get noted.dev = gicL.get b.dev := hport.gic_set _ _
  have hlow : (gicL.get b.dev).line (s.irq cfg) = false := Bool.eq_false_of_not_eq_true fun h => (hb s hs).1 h hclear
  rw [hexec, hport.gic, hport.irq, (gicSetIrq_at noted true (VirtioSlot.irq_bounds hs).2).1, hgic, Gic.pendAfter, if_pos hedge,
    hlow]
  exact Bool.or_true _

end Runs

end Arm64Emu
