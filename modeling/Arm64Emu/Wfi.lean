import Arm64Emu.GicRuns
import Arm64Emu.Timer

/-! The idle loop of a halted processor (`machine_wait_for_event` of `platform.c`). In
deterministic mode one call takes the count to the nearest deadline of an armed timer;
every further call finds that deadline due and stays there. -/
namespace Arm64Emu

/-- The devices that the machine has, as far as the idle loop asks for them. -/
structure Parts where
  timer : Bool
  uart : Bool
  vcon : Bool
  net : Bool
  rtc : Bool
  deriving DecidableEq

def Parts.io (parts : Parts) : Bool := parts.uart || parts.vcon || parts.net || parts.rtc

structure Waiting where
  machine : Machine Devices
  deadlock : Bool

/-- The nanoseconds that a number of ticks takes, in 128 bits: none if the frequency is
zero, by which the code would divide. -/
def ticksToNs (cntfrq ticks : U64) : Option U64 :=
  if cntfrq = 0 then none
  else some ((ticks.setWidth 128 * (1000000000 : BitVec 128) / cntfrq.setWidth 128).setWidth 64)

def timerArmed (ctl : U64) : Bool := ctl.getLsbD 0 && !ctl.getLsbD 1

/-- Nanoseconds until a timer fires, at the two counts. A timer that is due ends the search. -/
def nextNs (c : Cpu) (pc vc : U64) : Option U64 :=
  let best : U64 := ~~~0
  if timerArmed c.cntpCtl && decide (c.cntpCval ≤ pc) then some 0
  else do
    let best ←
      if timerArmed c.cntpCtl then (ticksToNs c.cntfrq (c.cntpCval - pc)).map fun dt => if dt < best then dt else best
      else some best
    if timerArmed c.cntvCtl && decide (c.cntvCval ≤ vc) then some 0
    else if timerArmed c.cntvCtl then
      (ticksToNs c.cntfrq (c.cntvCval - vc)).map fun dt => if dt < best then dt else best
    else some best

def timerNextDeadlineNs (P : Platform Devices) (s : Machine Devices) : Option U64 × Machine Devices :=
  let (pc, s) := gtCount P s false
  let (vc, s) := gtCount P s true
  (nextNs s.cpu pc vc, s)

/-- `machine_tick`, without the polls of host input and of the real-time clock. -/
def machineTick (P : Platform Devices) (parts : Parts) (s : Machine Devices) : Machine Devices :=
  if parts.timer then timerCheck P s else s

/-- Nothing will ever wake the processor: no timer is armed, no interrupt is up, and there
is no device that could bring one. -/
def checkWakeSource (parts : Parts) (s : Machine Devices) (timerArmed hasInput : Bool) : Bool :=
  s.cpu.halted && !timerArmed && !hasInput && !s.bus.irqLine && !parts.uart && !parts.vcon && !parts.net && !parts.rtc

def Waiting.resume (P : Platform Devices) (parts : Parts) (hasInput : Bool) (w : Waiting) (dl : U64)
    (s : Machine Devices) : Waiting :=
  let s := machineTick P parts s
  let s := if s.bus.irqLine || hasInput then s.mapCpu fun c => { c with halted := false } else s
  ⟨s, w.deadlock || checkWakeSource parts s (decide (dl ≠ ~~~0)) hasInput⟩

/-- `machine_wait_for_event`; `hasInput` is what polling the terminal says. There is no
result if the call divides by zero. -/
def machineWaitForEvent (P : Platform Devices) (parts : Parts) (hasInput : Bool) (w : Waiting) : Option Waiting :=
  if P.rtclock then
    let (dl, s) := timerNextDeadlineNs P w.machine
    dl.map fun dl => w.resume P parts hasInput dl s
  else
    let (dl, s) := timerNextDeadlineTicks P w.machine
    let s := if !s.bus.irqLine && !hasInput && dl ≠ ~~~0 then
        s.mapCpu fun c => { c with timerSkip := c.timerSkip + dl }
      else s
    some (w.resume P parts hasInput dl s)

def waitCalls (P : Platform Devices) (parts : Parts) : ℕ → Waiting → Option Waiting
  | 0, w => some w
  | k + 1, w => (machineWaitForEvent P parts false w).bind (waitCalls P parts k)

/-- The machine with its count moved, as the idle loop moves it. -/
def Machine.atCount (s : Machine Devices) (n : U64) : Machine Devices :=
  s.mapCpu fun c => { c with timerSkip := n - c.icount }

/-- At the count `n`, now or later, a tick leaves the processor with an interrupt. -/
def WakesAt (P : Platform Devices) (parts : Parts) (s : Machine Devices) (n : U64) : Prop :=
  s.cpu.count ≤ n ∧ (machineTick P parts (s.atCount n)).bus.irqLine = true

/-- If an interrupt can come, finitely many calls wake the processor at the earliest count
at which it comes. -/
def WakesInTime (P : Platform Devices) (parts : Parts) (w : Waiting) : Prop :=
  ∀ n, WakesAt P parts w.machine n → (∀ m, WakesAt P parts w.machine m → n ≤ m) →
    ∃ k w', waitCalls P parts k w = some w' ∧ w'.machine.cpu.halted = false ∧ w'.machine.cpu.count = n

/-- If none can come, and there is no device to bring one, finitely many calls say so. -/
def StopsWhenStuck (P : Platform Devices) (parts : Parts) (w : Waiting) : Prop :=
  (∀ n, ¬ WakesAt P parts w.machine n) → parts.io = false →
    ∃ k w', waitCalls P parts k w = some w' ∧ w'.deadlock = true

section Controller
variable {D : Type} {L : Lens D Gic} {b : Bus D} {i : ℕ} {level : Bool}

def Noticed (L : Lens D Gic) (b : Bus D) : Prop := (L.get b.dev).asserts → b.irqLine = true

lemma gicSetIrq_noticed (h : Noticed L b) : Noticed L (gicSetIrq L b i level) := by
  by_cases hi : i < gicNumIrqs
  · rw [gicSetIrq_of_lt hi]
    dsimp only
    split
    · intro hasserts
      rw [get_setGic] at hasserts
      exact h ((asserts_congr rfl rfl rfl).1 hasserts)
    · exact fun hasserts => lineExact_gicUpdate.2 hasserts
  · rwa [gicSetIrq, if_pos (Nat.not_lt.1 hi)]

lemma asserts_of_pending_le {g g' : Gic} (hpend : ∀ i, g'.pending i = true → g.pending i = true)
    (hrest : g' = { g with pending := g'.pending, line := g'.line }) (h : g'.asserts) : g.asserts := by
  obtain ⟨hd, hc, i, hi, helig⟩ := h
  rw [hrest] at hd hc helig
  refine ⟨hd, hc, i, hi, ?_⟩
  simp only [Gic.eligible, Bool.and_eq_true] at helig ⊢
  exact ⟨⟨⟨helig.1.1.1, hpend i helig.1.1.2⟩, helig.1.2⟩, helig.2⟩

lemma gicSetIrq_low (h : Noticed L b) (hlow : b.irqLine = false) : (gicSetIrq L b i false).irqLine = false := by
  by_cases hi : i < gicNumIrqs
  · rw [gicSetIrq_of_lt hi]
    dsimp only
    split
    · exact hlow
    · refine Bool.eq_false_iff.2 fun hline => ?_
      have hasserts := lineExact_gicUpdate.1 hline
      rw [get_gicUpdate, get_setGic] at hasserts
      have hbefore : (L.get b.dev).asserts := by
        refine asserts_of_pending_le (fun j hj => ?_) rfl hasserts
        change Function.update (L.get b.dev).pending i ((L.get b.dev).pendAfter i false) j = true at hj
        by_cases hji : j = i
        · subst hji
          rw [Function.update_self, Gic.pendAfter] at hj
          split at hj
          · simpa using hj
          · cases hj
        · rwa [Function.update_of_ne hji] at hj
      rw [h hbefore] at hlow
      cases hlow
  · rwa [gicSetIrq, if_pos (Nat.not_lt.1 hi)]

lemma gicSetIrq_self (hline : (L.get b.dev).line i = level)
    (hpend : (L.get b.dev).cfgEdge i = false → (L.get b.dev).pending i = level) : gicSetIrq L b i level = b := by
  by_cases hi : i < gicNumIrqs
  · have hsame : (L.get b.dev).pendAfter i level = (L.get b.dev).pending i := by
      unfold Gic.pendAfter
      split
      · rw [hline, Bool.and_not_self, Bool.or_false]
      · exact (hpend (Bool.eq_false_iff.2 ‹_›)).symm
    rw [gicSetIrq_of_lt hi]
    dsimp only
    rw [if_pos hsame, ← hline, Function.update_eq_self, setGic]
    exact congrArg (fun d => { b with dev := d }) (L.set_get b.dev)
  · rw [gicSetIrq, if_pos (Nat.not_lt.1 hi)]

end Controller

section Lines
variable {b : Bus Devices} {phys virt : Bool} {deadline : U64}

lemma timerLines_low (h : Noticed Devices.gicL b) (hlow : b.irqLine = false) :
    (Devices.timerLines b false false deadline).irqLine = false :=
  gicSetIrq_low (gicSetIrq_noticed h) (gicSetIrq_low h hlow)

lemma timerLines_timerLines :
    Devices.timerLines (Devices.timerLines b phys virt deadline) phys virt deadline =
      Devices.timerLines b phys virt deadline := by
  set b₁ := gicSetIrq Devices.gicL b 30 phys
  set b₂ := gicSetIrq Devices.gicL b₁ 27 virt
  have hb : Devices.timerLines b phys virt deadline = { b₂ with dev := { b₂.dev with timerDeadline := deadline } } := rfl
  obtain ⟨hpend₁, hline₁, hedge₁⟩ := gicSetIrq_at (L := Devices.gicL) (i := 30) b phys (by decide)
  obtain ⟨hpend₂, hline₂, hedge₂⟩ := gicSetIrq_at (L := Devices.gicL) (i := 27) b₁ virt (by decide)
  have hentry : (Devices.gicL.get b₂.dev).entry 30 = (Devices.gicL.get b₁.dev).entry 30 :=
    gicSetIrq_entry fun _ => by decide
  simp only [Gic.entry, Prod.mk.injEq] at hentry
  obtain ⟨-, hpend₃, -, hline₃, hedge₃, -⟩ := hentry
  have hphys : gicSetIrq Devices.gicL (Devices.timerLines b phys virt deadline) 30 phys =
      Devices.timerLines b phys virt deadline := by
    refine gicSetIrq_self (hline₃.trans hline₁) fun hlevel => ?_
    have hlevel' : (Devices.gicL.get b.dev).cfgEdge 30 = false := hedge₁ ▸ hedge₃ ▸ hlevel
    refine hpend₃.trans (hpend₁.trans ?_)
    rw [Gic.pendAfter, hlevel']
    rfl
  have hvirt : gicSetIrq Devices.gicL (Devices.timerLines b phys virt deadline) 27 virt =
      Devices.timerLines b phys virt deadline := by
    refine gicSetIrq_self hline₂ fun hlevel => ?_
    have hlevel' : (Devices.gicL.get b₁.dev).cfgEdge 27 = false := hedge₂ ▸ hlevel
    refine hpend₂.trans ?_
    rw [Gic.pendAfter, hlevel']
    rfl
  rw [Devices.timerLines, hphys, hvirt]
  rfl

end Lines

section Count
variable {ramSize : U64} {depth : ℕ} {s : Machine Devices}

def ticksLeft (ctl cval : U64) (count : ℕ) : ℕ := if timerArmed ctl then cval.toNat - count else 2 ^ 64 - 1

variable (ramSize depth) in
lemma toNat_timerNextDeadlineTicks (hoff : s.cpu.cntvoff = 0) :
    (timerNextDeadlineTicks (Platform.board ramSize depth) s).1.toNat =
      min (ticksLeft s.cpu.cntpCtl s.cpu.cntpCval s.cpu.count.toNat)
        (ticksLeft s.cpu.cntvCtl s.cpu.cntvCval s.cpu.count.toNat) := by
  have hvirt : s.cpu.count - s.cpu.cntvoff = s.cpu.count := by rw [hoff]; simp
  have hone (cval : U64) : (if cval ≤ s.cpu.count then (0 : U64) else cval - s.cpu.count).toNat =
      cval.toNat - s.cpu.count.toNat := by
    split <;> bv_omega
  have hmin (a b : U64) : (if a < b then a else b).toNat = min b.toNat a.toNat := by
    split <;> bv_omega
  unfold timerNextDeadlineTicks
  rw [gtCount_phys]
  dsimp only
  rw [gtCount_virt, hvirt]
  dsimp only
  have hall : (~~~0 : U64).toNat = 2 ^ 64 - 1 := rfl
  have hp := s.cpu.cntpCval.isLt
  have hv := s.cpu.cntvCval.isLt
  unfold ticksLeft timerArmed
  cases s.cpu.cntpCtl.getLsbD 0 && !s.cpu.cntpCtl.getLsbD 1 <;>
    cases s.cpu.cntvCtl.getLsbD 0 && !s.cpu.cntvCtl.getLsbD 1 <;>
    simp only [if_true, if_false, Bool.false_eq_true, hmin, hone, hall] <;> omega

/-- The count to which a call takes a machine without an interrupt. -/
def nextCount (ramSize : U64) (depth : ℕ) (s : Machine Devices) : U64 :=
  if (timerNextDeadlineTicks (Platform.board ramSize depth) s).1 = ~~~0 then s.cpu.count
  else s.cpu.count + (timerNextDeadlineTicks (Platform.board ramSize depth) s).1

@[simp] lemma count_atCount (n : U64) : (s.atCount n).cpu.count = n := by
  simp only [Machine.atCount, Machine.mapCpu, Cpu.count]
  bv_omega

lemma atCount_count : s.atCount s.cpu.count = s := by
  have h : s.cpu.count - s.cpu.icount = s.cpu.timerSkip := by
    simp only [Cpu.count]
    bv_omega
  simp only [Machine.atCount, Machine.mapCpu, h]

lemma atCount_add (d : U64) : s.atCount (s.cpu.count + d) = s.mapCpu fun c => { c with timerSkip := c.timerSkip + d } := by
  have h : s.cpu.count + d - s.cpu.icount = s.cpu.timerSkip + d := by
    simp only [Cpu.count]
    bv_omega
  simp only [Machine.atCount, Machine.mapCpu, h]

lemma nextCount_le (hoff : s.cpu.cntvoff = 0) : s.cpu.count ≤ nextCount ramSize depth s := by
  unfold nextCount
  split
  · exact BitVec.le_refl _
  · rename_i hdl
    exact (timerNextDeadlineTicks_le ramSize depth hoff).2 hdl

lemma toNat_nextCount (hoff : s.cpu.cntvoff = 0)
    (hdl : (timerNextDeadlineTicks (Platform.board ramSize depth) s).1 ≠ ~~~0) :
    (nextCount ramSize depth s).toNat =
      s.cpu.count.toNat + (timerNextDeadlineTicks (Platform.board ramSize depth) s).1.toNat := by
  have hle := (timerNextDeadlineTicks_le ramSize depth hoff).2 hdl
  rw [nextCount, if_neg hdl]
  bv_omega

lemma timerFires_eq (ctl count cval : U64) : timerFires ctl count cval = (timerArmed ctl && decide (cval.toNat ≤ count.toNat)) := by
  simp only [timerFires, timerArmed, BitVec.le_def]

lemma not_fires_of_lt_nextCount (hoff : s.cpu.cntvoff = 0) {m : U64} (hlow : s.cpu.count ≤ m)
    (hm : m < nextCount ramSize depth s) :
    timerFires s.cpu.cntpCtl m s.cpu.cntpCval = false ∧
      timerFires s.cpu.cntvCtl (m - s.cpu.cntvoff) s.cpu.cntvCval = false := by
  have hdl : (timerNextDeadlineTicks (Platform.board ramSize depth) s).1 ≠ ~~~0 := by
    intro h
    rw [nextCount, if_pos h] at hm
    bv_omega
  have hnext := toNat_nextCount hoff hdl
  rw [toNat_timerNextDeadlineTicks ramSize depth hoff] at hnext
  rw [BitVec.lt_def, hnext] at hm
  have hm' : m - s.cpu.cntvoff = m := by rw [hoff]; simp
  rw [timerFires_eq, timerFires_eq, hm']
  unfold ticksLeft at hm
  rw [BitVec.le_def] at hlow
  constructor
  · cases hp : timerArmed s.cpu.cntpCtl with
    | false => rfl
    | true =>
      rw [hp] at hm
      simp only [if_true] at hm
      simp only [Bool.true_and, decide_eq_false_iff_not]
      omega
  · cases hv : timerArmed s.cpu.cntvCtl with
    | false => rfl
    | true =>
      rw [hv] at hm
      simp only [if_true] at hm
      simp only [Bool.true_and, decide_eq_false_iff_not]
      omega

lemma ticks_atCount (hoff : s.cpu.cntvoff = 0) {t : Machine Devices}
    (hcpu : t.cpu = (s.atCount (nextCount ramSize depth s)).cpu) :
    (timerNextDeadlineTicks (Platform.board ramSize depth) t).1 =
      if (timerNextDeadlineTicks (Platform.board ramSize depth) s).1 = ~~~0 then ~~~0 else 0 := by
  have hcount : t.cpu.count = nextCount ramSize depth s := by rw [hcpu, count_atCount]
  have hpctl : t.cpu.cntpCtl = s.cpu.cntpCtl := by rw [hcpu]; rfl
  have hpcval : t.cpu.cntpCval = s.cpu.cntpCval := by rw [hcpu]; rfl
  have hvctl : t.cpu.cntvCtl = s.cpu.cntvCtl := by rw [hcpu]; rfl
  have hvcval : t.cpu.cntvCval = s.cpu.cntvCval := by rw [hcpu]; rfl
  have hoff' : t.cpu.cntvoff = 0 := by rw [hcpu]; exact hoff
  have hs := toNat_timerNextDeadlineTicks ramSize depth hoff
  have ht := toNat_timerNextDeadlineTicks ramSize depth hoff'
  rw [hpctl, hpcval, hvctl, hvcval, hcount] at ht
  apply BitVec.eq_of_toNat_eq
  split
  · rename_i hdl
    rw [nextCount, if_pos hdl, ← hs, hdl] at ht
    exact ht
  · rename_i hdl
    have hne : (timerNextDeadlineTicks (Platform.board ramSize depth) s).1.toNat ≠ 2 ^ 64 - 1 :=
      fun h => hdl (BitVec.eq_of_toNat_eq h)
    rw [toNat_nextCount hoff hdl, hs] at ht
    rw [hs] at hne
    rw [ht]
    -- the nearest deadline is that of an armed timer, which nothing is left to
    show _ = 0
    cases hp : timerArmed s.cpu.cntpCtl <;> cases hv : timerArmed s.cpu.cntvCtl <;>
      simp only [ticksLeft, hp, hv, if_true, if_false, Bool.false_eq_true] at hne ⊢ <;> omega

end Count

section Tick
variable {ramSize : U64} {depth : ℕ} {parts : Parts} {s : Machine Devices}

lemma timerUpdate_timerUpdate :
    timerUpdate (Platform.board ramSize depth) (timerUpdate (Platform.board ramSize depth) s) =
      timerUpdate (Platform.board ramSize depth) s := by
  rw [timerUpdate_eq, timerUpdate_eq]
  dsimp only
  rw [timerLines_timerLines]

lemma timerCheck_eq : timerCheck (Platform.board ramSize depth) s =
    if s.bus.dev.timerDeadline ≤ s.cpu.count then timerUpdate (Platform.board ramSize depth) s else s := by
  rw [timerCheck, gtCount_phys]

lemma machineTick_cpu : (machineTick (Platform.board ramSize depth) parts s).cpu = s.cpu := by
  unfold machineTick
  split
  · rw [timerCheck_eq]
    split
    · rw [timerUpdate_eq]
    · rfl
  · rfl

lemma machineTick_machineTick :
    machineTick (Platform.board ramSize depth) parts (machineTick (Platform.board ramSize depth) parts s) =
      machineTick (Platform.board ramSize depth) parts s := by
  unfold machineTick
  split
  · rw [timerCheck_eq (s := s)]
    split
    · rw [timerCheck_eq, timerUpdate_timerUpdate, ite_self]
    · rename_i hearly
      rw [timerCheck_eq, if_neg hearly]
  · rfl

variable (ramSize depth parts) in
lemma machineTick_low (hnot : Noticed Devices.gicL s.bus) (hlow : s.bus.irqLine = false)
    (hphys : timerFires s.cpu.cntpCtl s.cpu.count s.cpu.cntpCval = false)
    (hvirt : timerFires s.cpu.cntvCtl (s.cpu.count - s.cpu.cntvoff) s.cpu.cntvCval = false) :
    (machineTick (Platform.board ramSize depth) parts s).bus.irqLine = false := by
  unfold machineTick
  split
  · rw [timerCheck_eq]
    split
    · rw [timerUpdate_eq, hphys, hvirt]
      exact timerLines_low hnot hlow
    · exact hlow
  · exact hlow

end Tick

section Calls
variable {ramSize : U64} {depth : ℕ} {parts : Parts} {s : Machine Devices}

def stuckFlag (ramSize : U64) (depth : ℕ) (parts : Parts) (s : Machine Devices) : Bool :=
  decide ((timerNextDeadlineTicks (Platform.board ramSize depth) s).1 = ~~~0) && !parts.io

lemma machineWaitForEvent_low (hoff : s.cpu.cntvoff = 0) (hlow : s.bus.irqLine = false) (d : Bool) :
    machineWaitForEvent (Platform.board ramSize depth) parts false ⟨s, d⟩ =
      some (Waiting.resume (Platform.board ramSize depth) parts false ⟨s, d⟩
        (timerNextDeadlineTicks (Platform.board ramSize depth) s).1 (s.atCount (nextCount ramSize depth s))) := by
  have hsame := (timerNextDeadlineTicks_le ramSize depth hoff).1
  unfold machineWaitForEvent
  rw [board_rtclock, if_neg Bool.false_ne_true]
  dsimp only
  rw [hsame, hlow]
  by_cases hdl : (timerNextDeadlineTicks (Platform.board ramSize depth) s).1 = ~~~0
  · rw [if_neg (by simp [hdl]), nextCount, if_pos hdl, atCount_count]
  · rw [if_pos (by simpa using hdl), nextCount, if_neg hdl, atCount_add]

lemma resume_woken (w : Waiting) (dl : U64)
    (h : (machineTick (Platform.board ramSize depth) parts s).bus.irqLine = true) :
    (w.resume (Platform.board ramSize depth) parts false dl s).machine.cpu.halted = false ∧
      (w.resume (Platform.board ramSize depth) parts false dl s).machine.cpu.count = s.cpu.count := by
  have hcount : (machineTick (Platform.board ramSize depth) parts s).cpu.count = s.cpu.count := by rw [machineTick_cpu]
  simp only [Waiting.resume, h, Bool.or_false, if_true]
  exact ⟨rfl, hcount⟩

lemma resume_stuck {w : Waiting} {dl : U64} (hhalt : s.cpu.halted = true)
    (h : (machineTick (Platform.board ramSize depth) parts s).bus.irqLine = false) :
    w.resume (Platform.board ramSize depth) parts false dl s =
      ⟨machineTick (Platform.board ramSize depth) parts s, w.deadlock || (decide (dl = ~~~0) && !parts.io)⟩ := by
  have hhalt' : (machineTick (Platform.board ramSize depth) parts s).cpu.halted = true := by rw [machineTick_cpu, hhalt]
  simp only [Waiting.resume, h, Bool.or_false, Bool.false_eq_true, if_false, checkWakeSource, hhalt', Parts.io]
  cases parts.uart <;> cases parts.vcon <;> cases parts.net <;> cases parts.rtc <;> simp

lemma waitCalls_stuck (hoff : s.cpu.cntvoff = 0) (hhalt : s.cpu.halted = true) (hlow : s.bus.irqLine = false)
    (htick : (machineTick (Platform.board ramSize depth) parts (s.atCount (nextCount ramSize depth s))).bus.irqLine = false)
    (k : ℕ) :
    waitCalls (Platform.board ramSize depth) parts (k + 1) ⟨s, false⟩ =
      some ⟨machineTick (Platform.board ramSize depth) parts (s.atCount (nextCount ramSize depth s)),
        stuckFlag ramSize depth parts s⟩ := by
  set t := machineTick (Platform.board ramSize depth) parts (s.atCount (nextCount ramSize depth s)) with ht
  have hcpu : t.cpu = (s.atCount (nextCount ramSize depth s)).cpu := machineTick_cpu
  have hticks := ticks_atCount hoff hcpu
  have hflag : stuckFlag ramSize depth parts t = stuckFlag ramSize depth parts s := by
    rw [stuckFlag, stuckFlag, hticks]
    split
    · rename_i hdl
      rw [hdl]
    · rename_i hdl
      rw [decide_eq_false hdl, decide_eq_false (by decide)]
  have hstay : t.atCount (nextCount ramSize depth t) = t := by
    have hnext : nextCount ramSize depth t = t.cpu.count := by
      rw [nextCount, hticks]
      split
      · rfl
      · split <;> simp
    rw [hnext, atCount_count]
  have hfirst : machineWaitForEvent (Platform.board ramSize depth) parts false ⟨s, false⟩ =
      some ⟨t, stuckFlag ramSize depth parts s⟩ := by
    have hmoved : (s.atCount (nextCount ramSize depth s)).cpu.halted = true := hhalt
    rw [machineWaitForEvent_low hoff hlow, resume_stuck hmoved htick]
    rfl
  have hagain : machineWaitForEvent (Platform.board ramSize depth) parts false ⟨t, stuckFlag ramSize depth parts s⟩ =
      some ⟨t, stuckFlag ramSize depth parts s⟩ := by
    have htt : machineTick (Platform.board ramSize depth) parts t = t := machineTick_machineTick
    have hthalt : t.cpu.halted = true := by rw [hcpu]; exact hhalt
    have htoff : t.cpu.cntvoff = 0 := by rw [hcpu]; exact hoff
    rw [machineWaitForEvent_low htoff htick, hstay, resume_stuck hthalt (htt.symm ▸ htick), htt]
    have : (decide ((timerNextDeadlineTicks (Platform.board ramSize depth) t).1 = ~~~0) && !parts.io) =
        stuckFlag ramSize depth parts s := hflag
    rw [this, Bool.or_self]
  have hrest (k : ℕ) : waitCalls (Platform.board ramSize depth) parts k ⟨t, stuckFlag ramSize depth parts s⟩ =
      some ⟨t, stuckFlag ramSize depth parts s⟩ := by
    induction k with
    | zero => rfl
    | succ k ih => rw [waitCalls, hagain, Option.bind_some, ih]
  rw [waitCalls, hfirst, Option.bind_some, hrest]

end Calls

section Progress
variable {ramSize : U64} {depth : ℕ} {parts : Parts} {s : Machine Devices}

lemma exists_earliest {P : Platform Devices} (h : ∃ n, WakesAt P parts s n) :
    ∃ n, WakesAt P parts s n ∧ ∀ m, WakesAt P parts s m → n ≤ m := by
  obtain ⟨n, hn, hmin⟩ := WellFounded.has_min (measure BitVec.toNat).wf {n | WakesAt P parts s n} h
  exact ⟨n, hn, fun m hm => BitVec.not_lt.1 fun hlt => hmin m hm hlt⟩

lemma nextCount_le_of_wakesAt (hoff : s.cpu.cntvoff = 0) (hnot : Noticed Devices.gicL s.bus)
    (hlow : s.bus.irqLine = false) {m : U64} (hm : WakesAt (Platform.board ramSize depth) parts s m) :
    nextCount ramSize depth s ≤ m := by
  by_contra hlt
  rw [BitVec.not_le] at hlt
  obtain ⟨hphys, hvirt⟩ := not_fires_of_lt_nextCount hoff hm.1 hlt
  have hquiet := machineTick_low ramSize depth parts (s := s.atCount m) hnot hlow
    (by rw [count_atCount]; exact hphys) (by rw [count_atCount]; exact hvirt)
  rw [hm.2] at hquiet
  cases hquiet

lemma wakesInTime_of_irqLine (hline : s.bus.irqLine = true)
    (hnow : WakesAt (Platform.board ramSize depth) parts s s.cpu.count) (hoff : s.cpu.cntvoff = 0) :
    WakesInTime (Platform.board ramSize depth) parts ⟨s, false⟩ := by
  intro n hn hmin
  have hcount : n = s.cpu.count := BitVec.le_antisymm (hmin _ hnow) hn.1
  have hsame := (timerNextDeadlineTicks_le ramSize depth hoff).1
  have hcall : machineWaitForEvent (Platform.board ramSize depth) parts false ⟨s, false⟩ =
      some (Waiting.resume (Platform.board ramSize depth) parts false ⟨s, false⟩
        (timerNextDeadlineTicks (Platform.board ramSize depth) s).1 s) := by
    unfold machineWaitForEvent
    rw [board_rtclock, if_neg Bool.false_ne_true]
    dsimp only
    rw [hsame, hline, if_neg (by simp)]
  have htick := hnow.2
  rw [atCount_count] at htick
  obtain ⟨hhalt, hstay⟩ := resume_woken ⟨s, false⟩ (timerNextDeadlineTicks (Platform.board ramSize depth) s).1 htick
  exact ⟨1, _, by rw [waitCalls, hcall]; rfl, hhalt, hstay.trans hcount.symm⟩

lemma wakesInTime_iff (hoff : s.cpu.cntvoff = 0) (hhalt : s.cpu.halted = true) (hnot : Noticed Devices.gicL s.bus)
    (hnow : s.bus.irqLine = true → WakesAt (Platform.board ramSize depth) parts s s.cpu.count) :
    WakesInTime (Platform.board ramSize depth) parts ⟨s, false⟩ ↔
      ((∃ n, WakesAt (Platform.board ramSize depth) parts s n) →
        s.bus.irqLine = true ∨ WakesAt (Platform.board ramSize depth) parts s (nextCount ramSize depth s)) := by
  cases hlow : s.bus.irqLine with
  | true => exact iff_of_true (wakesInTime_of_irqLine hlow (hnow hlow) hoff) fun _ => .inl rfl
  | false =>
    simp only [Bool.false_eq_true, false_or]
    constructor
    · intro h hex
      obtain ⟨n, hn, hmin⟩ := exists_earliest hex
      by_contra hno
      have htick : (machineTick (Platform.board ramSize depth) parts (s.atCount (nextCount ramSize depth s))).bus.irqLine =
          false := Bool.eq_false_iff.2 fun htick => hno ⟨nextCount_le hoff, htick⟩
      obtain ⟨k, w', hcalls, hwoken, -⟩ := h n hn hmin
      -- neither the start nor the state that all calls lead to is awake
      cases k with
      | zero =>
        cases hcalls
        rw [hhalt] at hwoken
        cases hwoken
      | succ k =>
        rw [waitCalls_stuck hoff hhalt hlow htick] at hcalls
        cases hcalls
        rw [machineTick_cpu] at hwoken
        have : s.cpu.halted = false := hwoken
        rw [hhalt] at this
        cases this
    · intro h n hn hmin
      have hnext := h ⟨n, hn⟩
      have hcount : n = nextCount ramSize depth s :=
        BitVec.le_antisymm (hmin _ hnext) (nextCount_le_of_wakesAt hoff hnot hlow hn)
      obtain ⟨hwoken, hstay⟩ := resume_woken ⟨s, false⟩ (timerNextDeadlineTicks (Platform.board ramSize depth) s).1 hnext.2
      refine ⟨1, _, by rw [waitCalls, machineWaitForEvent_low hoff hlow]; rfl, hwoken, ?_⟩
      rw [hstay, count_atCount, hcount]

lemma stopsWhenStuck_iff (hoff : s.cpu.cntvoff = 0) (hhalt : s.cpu.halted = true)
    (hnow : s.bus.irqLine = true → WakesAt (Platform.board ramSize depth) parts s s.cpu.count) :
    StopsWhenStuck (Platform.board ramSize depth) parts ⟨s, false⟩ ↔
      ((∀ n, ¬ WakesAt (Platform.board ramSize depth) parts s n) → parts.io = false →
        (timerNextDeadlineTicks (Platform.board ramSize depth) s).1 = ~~~0) := by
  refine forall_congr' fun hno => forall_congr' fun hio => ?_
  have hlow : s.bus.irqLine = false := Bool.eq_false_iff.2 fun hline => hno _ (hnow hline)
  have htick : (machineTick (Platform.board ramSize depth) parts (s.atCount (nextCount ramSize depth s))).bus.irqLine =
      false := Bool.eq_false_iff.2 fun htick => hno _ ⟨nextCount_le hoff, htick⟩
  have hflag : stuckFlag ramSize depth parts s = true ↔
      (timerNextDeadlineTicks (Platform.board ramSize depth) s).1 = ~~~0 := by
    simp only [stuckFlag, hio, Bool.not_false, Bool.and_true, decide_eq_true_eq]
  rw [← hflag]
  constructor
  · rintro ⟨k, w', hcalls, hdead⟩
    cases k with
    | zero =>
      cases hcalls
      cases hdead
    | succ k =>
      rw [waitCalls_stuck hoff hhalt hlow htick] at hcalls
      cases hcalls
      exact hdead
  · exact fun h => ⟨1, _, waitCalls_stuck hoff hhalt hlow htick 0, h⟩

end Progress

section Division
variable {P : Platform Devices} {parts : Parts} {hasInput : Bool} {w : Waiting}

/-- A timer is armed that is not due while the count stands still at zero. -/
def ArmedAhead (c : Cpu) : Prop :=
  (timerArmed c.cntpCtl = true ∧ c.cntpCval ≠ 0) ∨
    (timerArmed c.cntpCtl = false ∧ timerArmed c.cntvCtl = true ∧ 0 - c.cntvoff < c.cntvCval)

lemma nextNs_of_ne {c : Cpu} (h : c.cntfrq ≠ 0) (pc vc : U64) : nextNs c pc vc ≠ none := by
  have hns (n : U64) : ∃ dt, ticksToNs c.cntfrq n = some dt := ⟨_, if_neg h⟩
  obtain ⟨dp, hp⟩ := hns (c.cntpCval - pc)
  obtain ⟨dv, hv⟩ := hns (c.cntvCval - vc)
  simp only [nextNs, hp, hv]
  split_ifs <;> simp

lemma nextNs_of_zero {c : Cpu} (h : c.cntfrq = 0) {pc vc : U64} : nextNs c pc vc = none ↔
    (timerArmed c.cntpCtl = true ∧ pc < c.cntpCval) ∨
      (timerArmed c.cntpCtl = false ∧ timerArmed c.cntvCtl = true ∧ vc < c.cntvCval) := by
  have hns (n : U64) : ticksToNs c.cntfrq n = none := if_pos h
  simp only [nextNs, hns, ← BitVec.not_le]
  cases timerArmed c.cntpCtl <;> cases timerArmed c.cntvCtl <;>
    by_cases hp : c.cntpCval ≤ pc <;> by_cases hv : c.cntvCval ≤ vc <;> simp [hp, hv]

lemma gtCount_of_zero {s : Machine Devices} (hrt : P.rtclock = true) (h : s.cpu.cntfrq = 0) (virt : Bool) :
    (gtCount P s virt).1 = if virt then 0 - s.cpu.cntvoff else 0 := by
  have hzero (x : BitVec 128) : x * BitVec.setWidth 128 (0 : U64) / 1000000000 = 0 := by simp
  simp only [gtCount, hrt, h, if_true, hzero]
  cases virt <;> rfl

lemma gtCount_cpu (s : Machine Devices) (virt : Bool) :
    ∃ base, (gtCount P s virt).2.cpu = { s.cpu with cntpctBase := base } := by
  unfold gtCount
  dsimp only
  split
  · exact ⟨_, rfl⟩
  · exact ⟨s.cpu.cntpctBase, rfl⟩

lemma machineWaitForEvent_eq_none_iff :
    machineWaitForEvent P parts hasInput w = none ↔
      P.rtclock = true ∧ w.machine.cpu.cntfrq = 0 ∧ ArmedAhead w.machine.cpu := by
  cases hrt : P.rtclock with
  | false => simp [machineWaitForEvent, hrt]
  | true =>
    obtain ⟨base₁, hcpu₁⟩ := gtCount_cpu (P := P) w.machine false
    obtain ⟨base₂, hcpu₂⟩ := gtCount_cpu (P := P) (gtCount P w.machine false).2 true
    have hnone : machineWaitForEvent P parts hasInput w = none ↔
        nextNs w.machine.cpu (gtCount P w.machine false).1 (gtCount P (gtCount P w.machine false).2 true).1 = none := by
      simp only [machineWaitForEvent, hrt, if_true, timerNextDeadlineNs, Option.map_eq_none_iff, hcpu₂, hcpu₁]
      rfl
    rw [hnone, and_iff_right rfl]
    by_cases hfrq : w.machine.cpu.cntfrq = 0
    · have hfrq' : (gtCount P w.machine false).2.cpu.cntfrq = 0 := by rw [hcpu₁]; exact hfrq
      have hoff : (gtCount P w.machine false).2.cpu.cntvoff = w.machine.cpu.cntvoff := by rw [hcpu₁]
      rw [nextNs_of_zero hfrq, gtCount_of_zero hrt hfrq, gtCount_of_zero hrt hfrq', hoff, and_iff_right hfrq, ArmedAhead]
      have hpos : (0 : U64) < w.machine.cpu.cntpCval ↔ w.machine.cpu.cntpCval ≠ 0 := by
        constructor <;> intro h <;> bv_omega
      simp only [Bool.false_eq_true, if_true, if_false, hpos]
    · exact iff_of_false (nextNs_of_ne hfrq _ _) fun h => hfrq h.1

end Division

/-- The board halted after interrupt 27 is let through, the virtual timer armed for the
count 100, and the physical timer armed or not for the count 0, with interrupt 30 disabled. -/
def haltedBoard (cntpCtl : U64) : Machine Devices :=
  (timerRun (Platform.board 0x10000 1) boardAtReset
    (enableTimer ++ [.setX 1 100, .msr (sysKey 3 3 14 3 2) 1, .setX 2 1, .msr (sysKey 3 3 14 3 1) 2,
      .setX 3 cntpCtl, .msr (sysKey 3 3 14 2 1) 3])).mapCpu fun c => { c with halted := true }

/-- The parts of a board, and those of an image that is loaded into bare memory. -/
def Parts.board : Parts := ⟨true, true, false, false, true⟩

def Parts.none : Parts := ⟨false, false, false, false, false⟩

lemma noticed_of_best {b : Bus Devices} (h : gicBest b.dev.gic = spurious) : Noticed Devices.gicL b :=
  fun hasserts => absurd h (gicBest_ne_spurious_iff.2 hasserts)

end Arm64Emu
