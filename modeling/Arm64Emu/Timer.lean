import Arm64Emu.BusRel
import Arm64Emu.FwCfg
import Arm64Emu.GicLaws
import Arm64Emu.Prefixes

/-! The generic timer in deterministic mode (`timer.c`, with the reset and the idle loop of
`platform.c`): the check at every tick skips the update below a cached deadline, and its
two interrupt lines are exact as long as the count does not wrap around. -/
namespace Arm64Emu

def timerCheck (P : Platform Devices) (s : Machine Devices) : Machine Devices :=
  let (pc, s) := gtCount P s false
  if s.bus.dev.timerDeadline ≤ pc then timerUpdate P s else s

/-- Ticks until a timer fires: none if it is due, all ones if none is armed. -/
def timerNextDeadlineTicks (P : Platform Devices) (s : Machine Devices) : U64 × Machine Devices :=
  let (pc, s) := gtCount P s false
  let (vc, s) := gtCount P s true
  let c := s.cpu
  let best : U64 := ~~~0
  let best :=
    if c.cntpCtl.getLsbD 0 && !c.cntpCtl.getLsbD 1 then
      let d := if c.cntpCval ≤ pc then 0 else c.cntpCval - pc
      if d < best then d else best
    else best
  let best :=
    if c.cntvCtl.getLsbD 0 && !c.cntvCtl.getLsbD 1 then
      let d := if c.cntvCval ≤ vc then 0 else c.cntvCval - vc
      if d < best then d else best
    else best
  (best, s)

/-- `machine_wait_for_event`, up to the check of the timer: the count jumps to the next
deadline if there is nothing else to do. -/
def waitForEvent (P : Platform Devices) (hasInput : Bool) (s : Machine Devices) : Machine Devices :=
  let (dl, s) := timerNextDeadlineTicks P s
  let s := if !s.bus.irqLine && !hasInput && dl ≠ ~~~0 then
      s.mapCpu fun c => { c with timerSkip := c.timerSkip + dl }
    else s
  timerCheck P s

/-- `machine_reset` of a board without network or virtio console. The device tree goes back
to the base of RAM; the translation caches stay as they are. -/
def machineReset (P : Platform Devices) (virtDtb : List U8) (entry : U64) (resetEl : Fin 4) (s : Machine Devices) :
    Machine Devices :=
  let b := setGic Devices.gicL s.bus .initial
  let b := gicSetIrq Devices.gicL (setUart Devices.uartL b .initial) intidUart false
  let b := gicSetIrq Devices.gicL (setRtc Devices.rtcL b .initial) intidRtc false
  let b := { b with
    dev := { b.dev with fwcfg := b.dev.fwcfg.reset }
    flashCfi := fun _ => ⟨.array, .none, 0x80, 0, 0, 0⟩ }
  let b := physWriteBlk P b ramBase virtDtb
  ⟨cpuReset entry resetEl,
    { b with dev := { b.dev with timerDeadline := 0 }, irqLine := false, fiqLine := false }⟩

/-- What happens to a machine as far as its timer is concerned. -/
inductive TimerEvent
  | retire
  | setX (rt : ℕ) (v : U64)
  | msr (key rt : ℕ)
  | gic (op : GicOp)
  | idle (hasInput : Bool)
  | reset (virtDtb : List U8) (entry : U64) (resetEl : Fin 4)
  | check

def timerStep (P : Platform Devices) (s : Machine Devices) : TimerEvent → Machine Devices
  | .retire => s.mapCpu Cpu.retire
  | .setX rt v => s.setX rt v
  | .msr key rt => doMsr P s key rt
  | .gic op => { s with bus := gicStep Devices.gicL s.bus op }
  | .idle hasInput => waitForEvent P hasInput s
  | .reset virtDtb entry resetEl => machineReset P virtDtb entry resetEl s
  | .check => timerCheck P s

def timerRun (P : Platform Devices) (s : Machine Devices) (events : List TimerEvent) : Machine Devices :=
  events.foldl (timerStep P) s

def Cpu.count (c : Cpu) : U64 := c.icount + c.timerSkip

/-- The lines of both timers are what their registers say at the present count. -/
def TimerExact (s : Machine Devices) : Prop :=
  s.bus.dev.gic.line 30 = timerFires s.cpu.cntpCtl s.cpu.count s.cpu.cntpCval ∧
  s.bus.dev.gic.line 27 = timerFires s.cpu.cntvCtl (s.cpu.count - s.cpu.cntvoff) s.cpu.cntvCval

namespace TimerEvent

/-- Register accesses stay inside the controller's tables, and no other device drives the
lines of the timers. -/
def ok : TimerEvent → Prop
  | gic (.setIrq k _) => k ≠ 27 ∧ k ≠ 30
  | gic op => op.inside
  | _ => True

def wraps (s : Machine Devices) : TimerEvent → Prop
  | retire => s.cpu.count = ~~~0 ∧ s.bus.dev.timerDeadline ≠ 0 ∧
      (s.bus.dev.gic.line 30 = true ∨ s.bus.dev.gic.line 27 = true)
  | _ => False

end TimerEvent

section Board
variable (ramSize : U64) (depth : ℕ)

@[simp] lemma board_rtclock : (Platform.board ramSize depth).rtclock = false := by
  induction depth with
  | zero => rfl
  | succ depth ih => exact ih

@[simp] lemma board_timerLines : (Platform.board ramSize depth).timerLines = Devices.timerLines := by
  induction depth with
  | zero => rfl
  | succ depth ih => exact ih

@[simp] lemma gtCount_phys (s : Machine Devices) :
    gtCount (Platform.board ramSize depth) s false = (s.cpu.count, s) := by
  simp [gtCount, Cpu.count]

@[simp] lemma gtCount_virt (s : Machine Devices) :
    gtCount (Platform.board ramSize depth) s true = (s.cpu.count - s.cpu.cntvoff, s) := by
  simp [gtCount, Cpu.count]

end Board

section Cached
variable {ramSize : U64} {depth : ℕ} {s t : Machine Devices}

/-- The cached deadline is the one of the registers, or due at once. -/
structure DeadlineCached (s : Machine Devices) : Prop where
  deadline : s.bus.dev.timerDeadline = 0 ∨ s.bus.dev.timerDeadline = timerDeadline s.cpu
  cntvoff : s.cpu.cntvoff = 0

lemma not_fires_of_lt {c : Cpu} {n : U64} (hoff : c.cntvoff = 0) (h : n < timerDeadline c) :
    timerFires c.cntpCtl n c.cntpCval = false ∧ timerFires c.cntvCtl (n - c.cntvoff) c.cntvCval = false := by
  have hn : n - c.cntvoff = n := by rw [hoff]; simp
  have hv : c.cntvCval + c.cntvoff = c.cntvCval := by rw [hoff]; simp
  rw [hn]
  unfold timerDeadline at h
  dsimp only at h
  rw [hv] at h
  unfold timerFires
  cases hp : c.cntpCtl.getLsbD 0 && !c.cntpCtl.getLsbD 1 <;> cases hq : c.cntvCtl.getLsbD 0 && !c.cntvCtl.getLsbD 1 <;>
    simp only [hp, hq, Bool.false_and, Bool.true_and, decide_eq_false_iff_not, BitVec.not_le, and_true, true_and,
      if_true, if_false, Bool.false_eq_true] at h ⊢
  · split at h
    · exact h
    · bv_omega
  · exact h
  · split at h <;> exact ⟨by bv_omega, by bv_omega⟩

lemma timerLines_line (b : Bus Devices) (phys virt : Bool) (deadline : U64) :
    (Devices.timerLines b phys virt deadline).dev.gic.line 30 = phys ∧
    (Devices.timerLines b phys virt deadline).dev.gic.line 27 = virt := by
  have hline : (Devices.timerLines b phys virt deadline).dev.gic.line =
      Function.update (Function.update b.dev.gic.line 30 phys) 27 virt := by
    have hphys : (gicSetIrq Devices.gicL b 30 phys).dev.gic.line = Function.update b.dev.gic.line 30 phys :=
      gicSetIrq_line (L := Devices.gicL) (by decide)
    have hvirt : (gicSetIrq Devices.gicL (gicSetIrq Devices.gicL b 30 phys) 27 virt).dev.gic.line =
        Function.update (gicSetIrq Devices.gicL b 30 phys).dev.gic.line 27 virt :=
      gicSetIrq_line (L := Devices.gicL) (by decide)
    rw [hphys] at hvirt
    exact hvirt
  rw [hline]
  exact ⟨rfl, rfl⟩

lemma timerUpdate_eq : timerUpdate (Platform.board ramSize depth) s =
    ⟨s.cpu, Devices.timerLines s.bus (timerFires s.cpu.cntpCtl s.cpu.count s.cpu.cntpCval)
      (timerFires s.cpu.cntvCtl (s.cpu.count - s.cpu.cntvoff) s.cpu.cntvCval) (timerDeadline s.cpu)⟩ := by
  simp [timerUpdate]

lemma timerUpdate_exact : TimerExact (timerUpdate (Platform.board ramSize depth) s) := by
  rw [timerUpdate_eq]
  exact timerLines_line _ _ _ _

lemma timerUpdate_cached (hoff : s.cpu.cntvoff = 0) : DeadlineCached (timerUpdate (Platform.board ramSize depth) s) := by
  rw [timerUpdate_eq]
  exact ⟨.inr rfl, hoff⟩

lemma timerCheck_exact_iff : TimerExact (timerCheck (Platform.board ramSize depth) s) ↔
    s.bus.dev.timerDeadline ≤ s.cpu.count ∨ TimerExact s := by
  unfold timerCheck
  rw [gtCount_phys]
  dsimp only
  split
  · rename_i hdue
    exact iff_of_true timerUpdate_exact (.inl hdue)
  · rename_i hearly
    exact ⟨.inr, fun h => h.resolve_left hearly⟩

/-- The registers, the lines and the cached deadline are as before. -/
structure TimerSame (s t : Machine Devices) : Prop where
  cntpCtl : t.cpu.cntpCtl = s.cpu.cntpCtl
  cntpCval : t.cpu.cntpCval = s.cpu.cntpCval
  cntvCtl : t.cpu.cntvCtl = s.cpu.cntvCtl
  cntvCval : t.cpu.cntvCval = s.cpu.cntvCval
  cntvoff : t.cpu.cntvoff = s.cpu.cntvoff
  deadline : t.bus.dev.timerDeadline = s.bus.dev.timerDeadline
  phys : t.bus.dev.gic.line 30 = s.bus.dev.gic.line 30
  virt : t.bus.dev.gic.line 27 = s.bus.dev.gic.line 27

lemma TimerSame.cached (h : TimerSame s t) (hs : DeadlineCached s) : DeadlineCached t := by
  refine ⟨?_, h.cntvoff.trans hs.cntvoff⟩
  rw [h.deadline, timerDeadline, h.cntpCtl, h.cntpCval, h.cntvCtl, h.cntvCval, h.cntvoff]
  exact hs.deadline

lemma TimerSame.exact_iff (h : TimerSame s t) (hs : DeadlineCached s) (hearly : ¬ s.bus.dev.timerDeadline ≤ t.cpu.count) :
    TimerExact t ↔ s.bus.dev.gic.line 30 = false ∧ s.bus.dev.gic.line 27 = false := by
  have hdeadline : s.bus.dev.timerDeadline = timerDeadline s.cpu := by
    refine hs.deadline.resolve_left fun h0 => hearly ?_
    rw [h0]
    bv_omega
  obtain ⟨hp, hv⟩ := not_fires_of_lt (n := t.cpu.count) hs.cntvoff (hdeadline ▸ BitVec.not_le.1 hearly)
  rw [TimerExact, h.phys, h.virt, h.cntpCtl, h.cntpCval, h.cntvCtl, h.cntvCval, h.cntvoff, hp, hv]

lemma TimerSame.forward (h : TimerSame s t) (hs : DeadlineCached s) (hcount : s.cpu.count ≤ t.cpu.count)
    (hexact : s.bus.dev.timerDeadline ≤ s.cpu.count ∨ TimerExact s) :
    t.bus.dev.timerDeadline ≤ t.cpu.count ∨ TimerExact t := by
  by_cases hdue : s.bus.dev.timerDeadline ≤ t.cpu.count
  · exact .inl (h.deadline ▸ hdue)
  · have hearly : ¬ s.bus.dev.timerDeadline ≤ s.cpu.count := by bv_omega
    have hrefl : TimerSame s s := ⟨rfl, rfl, rfl, rfl, rfl, rfl, rfl, rfl⟩
    exact .inr ((h.exact_iff hs hdue).2 ((hrefl.exact_iff hs hearly).1 (hexact.resolve_left hearly)))

/-- What holds after every event: the deadline is cached, and the next check leaves the
lines exact. -/
def TimerInv (s : Machine Devices) : Prop :=
  DeadlineCached s ∧ (s.bus.dev.timerDeadline ≤ s.cpu.count ∨ TimerExact s)

lemma TimerSame.inv (h : TimerSame s t) (hcount : s.cpu.count ≤ t.cpu.count) (hs : TimerInv s) : TimerInv t :=
  ⟨h.cached hs.1, h.forward hs.1 hcount hs.2⟩

lemma timerUpdate_inv (hoff : s.cpu.cntvoff = 0) : TimerInv (timerUpdate (Platform.board ramSize depth) s) :=
  ⟨timerUpdate_cached hoff, .inr timerUpdate_exact⟩

lemma timerCheck_inv (hs : TimerInv s) : TimerInv (timerCheck (Platform.board ramSize depth) s) := by
  unfold timerCheck
  rw [gtCount_phys]
  dsimp only
  split
  · exact timerUpdate_inv hs.1.cntvoff
  · exact hs

lemma machineReset_inv (virtDtb : List U8) (entry : U64) (resetEl : Fin 4) :
    TimerInv (machineReset (Platform.board ramSize depth) virtDtb entry resetEl s) := by
  have hdeadline : (machineReset (Platform.board ramSize depth) virtDtb entry resetEl s).bus.dev.timerDeadline = 0 := rfl
  refine ⟨⟨.inl hdeadline, rfl⟩, .inl ?_⟩
  rw [hdeadline]
  bv_omega

lemma retire_inv_iff (hs : TimerInv s) : TimerInv (s.mapCpu Cpu.retire) ↔ ¬ TimerEvent.wraps s .retire := by
  have hsame : TimerSame s (s.mapCpu Cpu.retire) := ⟨rfl, rfl, rfl, rfl, rfl, rfl, rfl, rfl⟩
  have hcount : (s.mapCpu Cpu.retire).cpu.count = s.cpu.count + 1 := by
    simp only [Cpu.count, Machine.mapCpu, Cpu.retire]
    bv_omega
  by_cases hlast : s.cpu.count = ~~~0
  · have hzero : (s.mapCpu Cpu.retire).cpu.count = 0 := by rw [hcount, hlast]; decide
    by_cases hdue : s.bus.dev.timerDeadline = 0
    · refine iff_of_true ⟨hsame.cached hs.1, .inl ?_⟩ fun h => h.2.1 hdue
      have : (s.mapCpu Cpu.retire).bus.dev.timerDeadline = 0 := hdue
      rw [this]
      bv_omega
    · have hearly : ¬ s.bus.dev.timerDeadline ≤ (s.mapCpu Cpu.retire).cpu.count := by
        rw [hzero]
        bv_omega
      have hexact := hsame.exact_iff hs.1 hearly
      rw [TimerInv, hsame.deadline, or_iff_right hearly, and_iff_right (hsame.cached hs.1), hexact, TimerEvent.wraps]
      simp only [hlast, ne_eq, hdue, not_false_eq_true, true_and, not_or, Bool.not_eq_true]
  · refine iff_of_true (hsame.inv ?_ hs) fun h => hlast h.1
    rw [hcount]
    bv_omega

def Cpu.timerView (c : Cpu) : U64 × U64 × U64 × U64 × U64 × U64 :=
  (c.cntpCtl, c.cntpCval, c.cntvCtl, c.cntvCval, c.cntvoff, c.count)

lemma inv_of_view (hs : TimerInv s) (hview : t.cpu.timerView = s.cpu.timerView)
    (hdeadline : t.bus.dev.timerDeadline = s.bus.dev.timerDeadline)
    (hphys : t.bus.dev.gic.line 30 = s.bus.dev.gic.line 30) (hvirt : t.bus.dev.gic.line 27 = s.bus.dev.gic.line 27) :
    TimerInv t := by
  simp only [Cpu.timerView, Prod.mk.injEq] at hview
  obtain ⟨hpctl, hpcval, hvctl, hvcval, hoff, hcount⟩ := hview
  exact TimerSame.inv ⟨hpctl, hpcval, hvctl, hvcval, hoff, hdeadline, hphys, hvirt⟩ (by rw [hcount]; exact BitVec.le_refl _) hs

lemma setX_timerView (c : Cpu) (n : ℕ) (v : U64) : (c.setX n v).timerView = c.timerView := by
  unfold Cpu.setX Cpu.setGpr
  split_ifs <;> rfl

lemma msrCpu_cntvoff (c : Cpu) (key : ℕ) (v : U64) : (msrCpu c key v).cntvoff = c.cntvoff := by
  unfold msrCpu
  repeat' apply ite_view (f := Cpu.cntvoff)
  all_goals rfl

lemma ne_sysKey_of_crn {key op0 op1 crm op2 : ℕ} (hk : key / 512 % 16 ≠ 14) (h : crm * 32 + op2 < 512) :
    key ≠ sysKey op0 op1 14 crm op2 := by
  rintro rfl
  simp only [sysKey] at hk
  omega

lemma msrCpu_timerView (c : Cpu) {key : ℕ} (hk : key / 512 % 16 ≠ 14) (v : U64) :
    (msrCpu c key v).timerView = c.timerView := by
  have hfrq : key ≠ sysKey 3 3 14 0 0 := ne_sysKey_of_crn hk (by decide)
  have hpctl : key ≠ sysKey 3 3 14 2 1 := ne_sysKey_of_crn hk (by decide)
  have hpcval : key ≠ sysKey 3 3 14 2 2 := ne_sysKey_of_crn hk (by decide)
  have hvctl : key ≠ sysKey 3 3 14 3 1 := ne_sysKey_of_crn hk (by decide)
  have hvcval : key ≠ sysKey 3 3 14 3 2 := ne_sysKey_of_crn hk (by decide)
  simp only [msrCpu, hfrq, hpctl, hpcval, hvctl, hvcval, if_false]
  repeat' apply ite_view (f := Cpu.timerView)
  all_goals rfl

lemma doMsr_inv (hs : TimerInv s) (key rt : ℕ) : TimerInv (doMsr (Platform.board ramSize depth) s key rt) := by
  unfold doMsr
  dsimp only
  split
  · exact inv_of_view hs rfl rfl rfl rfl
  rw [gtCount_phys, gtCount_virt]
  dsimp only
  by_cases hk : key / 512 % 16 = 14
  · rw [if_pos hk]
    refine timerUpdate_inv (Eq.trans ?_ hs.1.cntvoff)
    have hset : (if key = sysKey 3 3 14 2 0 then
          s.mapCpu fun c => { c with cntpCval := s.cpu.count + sext32 (s.cpu.regX rt) }
        else if key = sysKey 3 3 14 3 0 then
          s.mapCpu fun c => { c with cntvCval := s.cpu.count - s.cpu.cntvoff + sext32 (s.cpu.regX rt) }
        else s.mapCpu (msrCpu · key (s.cpu.regX rt))).cpu.cntvoff = s.cpu.cntvoff :=
      ite_view (f := fun t : Machine Devices => t.cpu.cntvoff) rfl
        (ite_view (f := fun t : Machine Devices => t.cpu.cntvoff) rfl (msrCpu_cntvoff _ _ _))
    split
    · exact hset
    · exact hset
  · rw [if_neg hk, if_neg (ne_sysKey_of_crn hk (by decide)), if_neg (ne_sysKey_of_crn hk (by decide))]
    split
    · have hdev : (tlbFlushAll (s.mapCpu (msrCpu · key (s.cpu.regX rt))).bus).dev = s.bus.dev := tlbFlushAll_dev _
      refine inv_of_view hs (msrCpu_timerView _ hk _) ?_ ?_ ?_ <;> dsimp only <;> rw [hdev]
    · exact inv_of_view hs (msrCpu_timerView _ hk _) rfl rfl rfl

lemma le_add_ticks {count cval : U64} : count ≤ count + if cval ≤ count then 0 else cval - count := by
  split <;> bv_omega

lemma le_add_earlier {count best d : U64} {armed : Bool} (hbest : best ≠ ~~~0 → count ≤ count + best)
    (hd : count ≤ count + d) : (if armed then (if d < best then d else best) else best) ≠ ~~~0 →
      count ≤ count + if armed then (if d < best then d else best) else best := by
  cases armed with
  | false => exact hbest
  | true =>
    simp only [if_true]
    split
    · exact fun _ => hd
    · exact hbest

variable (ramSize depth) in
lemma timerNextDeadlineTicks_le (hoff : s.cpu.cntvoff = 0) :
    (timerNextDeadlineTicks (Platform.board ramSize depth) s).2 = s ∧
    ((timerNextDeadlineTicks (Platform.board ramSize depth) s).1 ≠ ~~~0 →
      s.cpu.count ≤ s.cpu.count + (timerNextDeadlineTicks (Platform.board ramSize depth) s).1) := by
  have hvirt : s.cpu.count - s.cpu.cntvoff = s.cpu.count := by rw [hoff]; simp
  unfold timerNextDeadlineTicks
  rw [gtCount_phys]
  dsimp only
  rw [gtCount_virt, hvirt]
  exact ⟨rfl, le_add_earlier (le_add_earlier (fun h => absurd rfl h) le_add_ticks) le_add_ticks⟩

lemma waitForEvent_inv (hs : TimerInv s) (hasInput : Bool) :
    TimerInv (waitForEvent (Platform.board ramSize depth) hasInput s) := by
  obtain ⟨hsame, hle⟩ := timerNextDeadlineTicks_le ramSize depth hs.1.cntvoff
  unfold waitForEvent
  dsimp only
  rw [hsame]
  refine timerCheck_inv ?_
  split
  · rename_i hskip
    simp only [Bool.and_eq_true, decide_eq_true_eq] at hskip
    have hle := hle hskip.2
    have hcount (dl : U64) : (s.mapCpu fun c => { c with timerSkip := c.timerSkip + dl }).cpu.count = s.cpu.count + dl := by
      simp only [Cpu.count, Machine.mapCpu]
      bv_omega
    refine TimerSame.inv (s := s) ⟨rfl, rfl, rfl, rfl, rfl, rfl, rfl, rfl⟩ ?_ hs
    rw [hcount]
    exact hle
  · exact hs

lemma gicStep_timer {b : Bus Devices} {op : GicOp} (hop : (TimerEvent.gic op).ok) :
    (gicStep Devices.gicL b op).dev.gic.line 30 = b.dev.gic.line 30 ∧
    (gicStep Devices.gicL b op).dev.gic.line 27 = b.dev.gic.line 27 ∧
    (gicStep Devices.gicL b op).dev.timerDeadline = b.dev.timerDeadline := by
  have hdeadline : (gicStep Devices.gicL b op).dev.timerDeadline = b.dev.timerDeadline := by
    obtain ⟨g, hg⟩ := gicStep_dev (L := Devices.gicL) (b := b) op
    rw [hg]
    rfl
  by_cases hset : ∀ k level, op ≠ .setIrq k level
  · have hline : (gicStep Devices.gicL b op).dev.gic.line = b.dev.gic.line :=
      gicStep_line_of_access (L := Devices.gicL) hset
    exact ⟨congrFun hline 30, congrFun hline 27, hdeadline⟩
  · push Not at hset
    obtain ⟨k, level, rfl⟩ := hset
    have hentry (i : ℕ) (hi : i ≠ k) : (gicSetIrq Devices.gicL b k level).dev.gic.line i = b.dev.gic.line i :=
      congrArg (fun e => e.2.2.2.1) (gicSetIrq_entry (L := Devices.gicL) (b := b) fun _ => hi)
    exact ⟨hentry 30 hop.2.symm, hentry 27 hop.1.symm, hdeadline⟩

lemma timerStep_inv_iff (event : TimerEvent) (hok : event.ok) (hs : TimerInv s) :
    TimerInv (timerStep (Platform.board ramSize depth) s event) ↔ ¬ event.wraps s := by
  cases event with
  | retire => exact retire_inv_iff hs
  | setX rt v => exact iff_of_true (inv_of_view hs (setX_timerView _ _ _) rfl rfl rfl) id
  | msr key rt => exact iff_of_true (doMsr_inv hs key rt) id
  | gic op =>
    obtain ⟨hphys, hvirt, hdeadline⟩ := gicStep_timer (b := s.bus) hok
    exact iff_of_true (inv_of_view hs rfl hdeadline hphys hvirt) id
  | idle hasInput => exact iff_of_true (waitForEvent_inv hs hasInput) id
  | reset virtDtb entry resetEl => exact iff_of_true (machineReset_inv virtDtb entry resetEl) id
  | check => exact iff_of_true (timerCheck_inv hs) id

lemma timerStep_inv_of_exact {event : TimerEvent} (hok : event.ok) (hs : TimerInv s)
    (hexact : TimerExact (timerCheck (Platform.board ramSize depth) (timerStep (Platform.board ramSize depth) s event))) :
    TimerInv (timerStep (Platform.board ramSize depth) s event) := by
  cases event with
  | retire =>
    have hsame : TimerSame s (s.mapCpu Cpu.retire) := ⟨rfl, rfl, rfl, rfl, rfl, rfl, rfl, rfl⟩
    exact ⟨hsame.cached hs.1, timerCheck_exact_iff.1 hexact⟩
  | _ => exact (timerStep_inv_iff _ hok hs).2 id

end Cached

/-- From a reset on, every check of the timer leaves both lines exact, in every state that
a run reaches, exactly if the count does not wrap around while a line is high. -/
theorem timer_lines_exact (ramSize : U64) (depth : ℕ) {s : Machine Devices} (hreset : s.bus.dev.timerDeadline = 0)
    (hoff : s.cpu.cntvoff = 0) {events : List TimerEvent} (hok : ∀ event ∈ events, event.ok) :
    (∀ pre, pre <+: events →
      TimerExact (timerCheck (Platform.board ramSize depth) (timerRun (Platform.board ramSize depth) s pre))) ↔
    ∀ pre event, pre ++ [event] <+: events → ¬ event.wraps (timerRun (Platform.board ramSize depth) s pre) := by
  have hstart : TimerInv s := ⟨⟨.inl hreset, hoff⟩, .inl (by rw [hreset]; bv_omega)⟩
  have hstep : ∀ t event, event.ok → TimerInv t →
      (TimerInv (timerStep (Platform.board ramSize depth) t event) ↔ ¬ event.wraps t) :=
    fun _ event hevent ht => timerStep_inv_iff event hevent ht
  refine Iff.trans ?_ (Prefixes.forall_prefix_iff hstep hstart hok)
  constructor
  · intro h pre
    induction pre using List.reverseRecOn with
    | nil => exact fun _ => hstart
    | append_singleton pre event ih =>
      intro hpre
      have hexact := h (pre ++ [event]) hpre
      rw [timerRun, List.foldl_append] at hexact
      rw [List.foldl_append]
      have hevent : event.ok := hok event (hpre.subset (by simp))
      exact timerStep_inv_of_exact hevent (ih ((List.prefix_append pre [event]).trans hpre)) hexact
  · exact fun h pre hpre => timerCheck_exact_iff.2 (h pre hpre).2

def boardAtReset : Machine Devices := ⟨cpuReset 0x40000000 1, .powerOn (fun _ => 0) (fun _ => 0xff) .initial⟩

/-- The virtual timer is armed for a count, and the processor waits for it. -/
def armAndWait (cval : U64) : List TimerEvent :=
  [.setX 1 cval, .msr (sysKey 3 3 14 3 2) 1, .setX 2 1, .msr (sysKey 3 3 14 3 1) 2, .idle false]

theorem timer_lines_exact_five : boardAtReset.bus.dev.timerDeadline = 0 ∧
    ∀ pre, pre <+: armAndWait 5 → TimerExact (timerCheck (Platform.board 0x10000 1)
      (timerRun (Platform.board 0x10000 1) boardAtReset pre)) := by
  refine ⟨rfl, (timer_lines_exact 0x10000 1 rfl rfl ?_).2 ?_⟩
  · intro event hevent
    fin_cases hevent <;> exact trivial
  · intro pre event hpre hwraps
    have hevent : event ∈ armAndWait 5 := hpre.subset (by simp)
    fin_cases hevent <;> exact hwraps

/-- Interrupt 27 is let through to the processor, and an instruction is retired. -/
def enableTimer : List TimerEvent :=
  [.gic (.distWrite 0x000 4 1), .gic (.cpuWrite 0x00 4 1), .gic (.cpuWrite 0x04 4 0xff),
    .gic (.distWrite 0x100 4 0x08000000), .retire]

/-- The timer, armed for the last count there is, fires and wakes the processor; with the
next instruction the count is zero again, and no check notices that the timer is no longer
due. -/
theorem timer_line_stale :
    (timerRun (Platform.board 0x10000 1) boardAtReset (enableTimer ++ armAndWait (~~~0))).bus.irqLine = true ∧
    ¬ TimerExact (timerCheck (Platform.board 0x10000 1)
      (timerRun (Platform.board 0x10000 1) boardAtReset (enableTimer ++ armAndWait (~~~0) ++ [.retire]))) := by
  unfold TimerExact
  decide +kernel

end Arm64Emu
