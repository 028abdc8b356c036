import Arm64Emu.FwCfg
import Arm64Emu.GicLaws
import Arm64Emu.RingBuffer

/-! The serial port and the real-time clock over whole runs, against what they are for: a queue
of bytes, and a clock with an alarm. -/
namespace Arm64Emu

open Devices

/-! ### The rest of the devices -/

/-- The loop of `pl011_rx_poll`: bytes are taken from the terminal while there is room. -/
def rxFill : List U8 → Pl011 → Pl011
  | [], p => p
  | ch :: rest, p => if p.rxFull then p else rxFill rest (p.rxPush ch)

def pl011RxPoll (b : Bus Devices) (input : List U8) : Bus Devices :=
  uartUpdateIrq gicL uartL (setUart uartL b (rxFill input b.dev.uart))

def pl031Update (b : Bus Devices) : Bus Devices :=
  let p := b.dev.rtc
  pl031SetLine gicL rtcL (if p.armed ∧ p.mr ≤ rtcCount rtcL hostSeconds b then
    setRtc rtcL b { p with ris := p.ris ||| 1, armed := false } else b)

inductive DeskEvent
  | poll (input : List U8)
  | uartRead (off : U64) (size : ℕ)
  | uartWrite (off : U64) (size : ℕ) (val : U64)
  | rtcRead (off : U64) (size : ℕ)
  | rtcWrite (off : U64) (size : ℕ) (val : U64)
  | tick
  | seconds (t : U32)
  /-- The guest accesses the interrupt controller, or another device moves its line. -/
  | gic (op : GicOp) (own : ∀ k level, op = .setIrq k level → k ≠ intidUart ∧ k ≠ intidRtc)
  | reset

def deskStep (b : Bus Devices) : DeskEvent → Bus Devices
  | .poll input => pl011RxPoll b input
  | .uartRead off size => (uartRead gicL uartL b off size).2
  | .uartWrite off size val => uartWrite gicL uartL ttyL b off size val
  | .rtcRead off size => (rtcRead rtcL hostSeconds b off size).2
  | .rtcWrite off size val => rtcWrite gicL rtcL hostSeconds b off size val
  | .tick => pl031Update b
  | .seconds t => { b with dev := { b.dev with hostSeconds := t } }
  | .gic op _ => gicStep gicL b op
  | .reset =>
    let b := setGic gicL b .initial
    let b := gicSetIrq gicL (setUart uartL b .initial) intidUart false
    gicSetIrq gicL (setRtc rtcL b .initial) intidRtc false

/-! ### What they are for -/

/-- The bytes that wait, and the mask; `awake` tells whether anything has happened since the reset. -/
structure Serial where
  queue : List U8 := []
  mask : U32 := 0
  awake : Bool := false

def Serial.status (s : Serial) : U32 :=
  if s.awake then Pl011.txris ||| (if s.queue = [] then 0 else Pl011.rxris) else 0

/-- The time that was set, and the host's time then; the alarm that is set, and whether it went off. -/
structure Clock where
  set : U32 := 0
  since : U32 := 0
  alarm : Option U32 := none
  rang : Bool := false
  mask : U32 := 0

def Clock.now (k : Clock) (host : U32) : U32 := k.set + (host - k.since)

structure Desk where
  serial : Serial := {}
  clock : Clock := {}
  host : U32

def Desk.step (d : Desk) : DeskEvent → Desk
  | .poll input =>
    { d with serial := { d.serial with queue := d.serial.queue ++ input.take (63 - d.serial.queue.length), awake := true } }
  | .uartRead off _ =>
    if off.toNat = 0 then { d with serial := { d.serial with queue := d.serial.queue.tail, awake := true } } else d
  | .uartWrite off _ val =>
    match off.toNat with
    | 0x00 | 0x44 => { d with serial := { d.serial with awake := true } }
    | 0x38 => { d with serial := { d.serial with mask := val.setWidth 32, awake := true } }
    | _ => d
  | .rtcWrite off _ val =>
    match off.toNat with
    | 0x04 => { d with clock := { d.clock with alarm := some (val.setWidth 32) } }
    | 0x08 => { d with clock := { d.clock with set := val.setWidth 32, since := d.host } }
    | 0x10 => { d with clock := { d.clock with mask := val.setWidth 32 } }
    | 0x1c => { d with clock := { d.clock with rang := d.clock.rang && !val.getLsbD 0 } }
    | _ => d
  | .tick =>
    match d.clock.alarm with
    | some t => if t ≤ d.clock.now d.host then { d with clock := { d.clock with alarm := none, rang := true } } else d
    | none => d
  | .seconds t => { d with host := t }
  | .reset => { host := d.host }
  | _ => d

/-! ### The ring of received bytes -/

namespace Pl011
variable {p : Pl011}

def waiting (p : Pl011) : ℕ := RingBuffer.count 64 p.rxHead p.rxTail

def queue (p : Pl011) : List U8 := RingBuffer.contents p.rxFifo 64 p.rxHead p.waiting

structure InRing (p : Pl011) : Prop where
  head_lt : p.rxHead < 64
  tail_lt : p.rxTail < 64

lemma length_queue (p : Pl011) : p.queue.length = p.waiting := RingBuffer.length_contents ..

lemma InRing.tail_eq (h : p.InRing) : p.rxTail = (p.rxHead + p.waiting) % 64 := (RingBuffer.add_count h.head_lt h.tail_lt).symm

lemma InRing.waiting_lt (h : p.InRing) : p.waiting < 64 := RingBuffer.count_lt h.head_lt p.rxTail

lemma InRing.full_iff (h : p.InRing) : p.rxFull = true ↔ p.waiting = 63 := by
  rw [rxFull, decide_eq_true_eq, RingBuffer.full_iff h.head_lt h.tail_lt, waiting]
  omega

lemma InRing.empty_iff (h : p.InRing) : p.rxEmpty = true ↔ p.queue = [] := by
  have htail := h.tail_eq
  have hhead := h.head_lt
  have hlt := h.waiting_lt
  rw [rxEmpty, decide_eq_true_eq, ← List.length_eq_zero_iff, length_queue]
  omega

lemma InRing.push (h : p.InRing) (hfull : ¬p.rxFull = true) (ch : U8) :
    (p.rxPush ch).InRing ∧ (p.rxPush ch).queue = p.queue ++ [ch] ∧ (p.rxPush ch).imsc = p.imsc := by
  have hlt := h.waiting_lt
  have hroom := mt h.full_iff.2 hfull
  have hne : (p.rxTail + 1) % 64 ≠ p.rxHead := by simpa [rxFull] using hfull
  rw [rxPush, if_neg hfull]
  refine ⟨⟨h.head_lt, Nat.mod_lt _ (by decide)⟩, ?_, rfl⟩
  have hput := @RingBuffer.contents_put _ p.rxFifo 64 p.rxHead p.waiting [ch] h.head_lt (by rw [List.length_singleton]; omega)
  rw [← h.tail_eq, RingBuffer.put_singleton h.tail_lt] at hput
  rw [queue, waiting, RingBuffer.count_put h.head_lt h.tail_lt hne]
  exact hput

lemma InRing.fill (h : p.InRing) (input : List U8) :
    (rxFill input p).InRing ∧ (rxFill input p).queue = p.queue ++ input.take (63 - p.queue.length) ∧
      (rxFill input p).imsc = p.imsc := by
  induction input generalizing p with
  | nil => simpa [rxFill] using h
  | cons ch rest ih =>
    have hlt := h.waiting_lt
    rw [rxFill, length_queue]
    split
    · next hfull =>
      rw [h.full_iff.1 hfull]
      simpa using h
    · next hfull =>
      have hroom := mt h.full_iff.2 hfull
      obtain ⟨hring, hqueue, hmask⟩ := h.push hfull ch
      obtain ⟨hring', hqueue', hmask'⟩ := ih hring
      refine ⟨hring', ?_, hmask'.trans hmask⟩
      rw [hqueue', hqueue, List.length_append, List.length_singleton, length_queue,
        show 63 - p.waiting = 63 - (p.waiting + 1) + 1 by omega, List.take_succ_cons, List.append_assoc, List.singleton_append]

lemma InRing.pop (h : p.InRing) :
    p.rxPop.1 = p.queue.head? ∧ p.rxPop.2.InRing ∧ p.rxPop.2.queue = p.queue.tail ∧ p.rxPop.2.imsc = p.imsc := by
  have hempty := h.empty_iff
  rw [rxPop]
  split
  · next he =>
    rw [hempty.1 he]
    exact ⟨rfl, h, rfl, rfl⟩
  · next he =>
    have hpos : 0 < p.waiting := by
      rw [hempty, ← List.length_eq_zero_iff, length_queue] at he
      omega
    refine ⟨?_, ⟨Nat.mod_lt _ (by decide), h.tail_lt⟩, ?_, rfl⟩
    · simp only [List.head?_eq_getElem?, queue, RingBuffer.getElem?_contents hpos, Nat.add_zero, Nat.mod_eq_of_lt h.head_lt]
    · rw [queue, waiting, RingBuffer.count_advance h.head_lt h.tail_lt (by simpa [rxEmpty] using he), ← List.drop_one]
      exact RingBuffer.contents_advance hpos

end Pl011

/-! ### Refinement -/

structure Serial.Shows (s : Serial) (p : Pl011) (line : Bool) : Prop where
  ring : p.InRing
  queue : p.queue = s.queue
  mask : p.imsc = s.mask
  status : p.ris = s.status
  line : line = decide (s.status &&& s.mask ≠ 0)

structure Clock.Shows (k : Clock) (p : Pl031) (line : Bool) : Prop where
  offset : p.tickOffset.setWidth 32 = k.set - k.since
  alarm : k.alarm = if p.armed then some p.mr else none
  rang : p.ris = if k.rang then 1 else 0
  mask : p.imsc = k.mask
  irqLine : p.irqLine = (k.rang && k.mask.getLsbD 0)
  line : line = (k.rang && k.mask.getLsbD 0)

structure Desk.Shows (d : Desk) (b : Bus Devices) : Prop where
  serial : d.serial.Shows b.dev.uart (b.dev.gic.line intidUart)
  clock : d.clock.Shows b.dev.rtc (b.dev.gic.line intidRtc)
  host : d.host = b.dev.hostSeconds

section Refinement
variable {d : Desk} {b : Bus Devices}

lemma decide_and_one (x : U32) : decide (x &&& 1 ≠ 0) = x.getLsbD 0 := by
  rw [show x &&& 1 = _ from BitVec.and_one_eq_setWidth_ofBool_getLsbD]
  cases x.getLsbD 0 <;> decide

lemma one_and_not (x : U32) : 1 &&& ~~~x = if x.getLsbD 0 then 0 else 1 := by
  rw [BitVec.and_comm, show ~~~x &&& 1 = _ from BitVec.and_one_eq_setWidth_ofBool_getLsbD, BitVec.getLsbD_not]
  cases x.getLsbD 0 <;> rfl

lemma setWidth_signExtend (x : U32) : (x.signExtend 64).setWidth 32 = x := by
  refine BitVec.eq_of_getLsbD_eq fun i hi => ?_
  rw [BitVec.getLsbD_setWidth, BitVec.getLsbD_signExtend, if_pos hi]
  simp [hi, show i < 64 by omega]

lemma gicSetIrq_desk (b : Bus Devices) {k : ℕ} (hk : k < gicNumIrqs) (level : Bool) : ∃ g,
    (gicSetIrq gicL b k level).dev = { b.dev with gic := g } ∧ g.line = Function.update b.dev.gic.line k level := by
  obtain ⟨g, hg⟩ := gicStep_dev (L := gicL) (b := b) (.setIrq k level)
  have hline : (gicL.get (gicSetIrq gicL b k level).dev).line = _ := gicSetIrq_line hk
  rw [show (gicSetIrq gicL b k level).dev = _ from hg] at hline
  exact ⟨g, hg, hline⟩

lemma uartUpdateIrq_shows {s : Serial} (hring : b.dev.uart.InRing) (hqueue : b.dev.uart.queue = s.queue)
    (hmask : b.dev.uart.imsc = s.mask) (hclock : d.clock.Shows b.dev.rtc (b.dev.gic.line intidRtc))
    (hhost : d.host = b.dev.hostSeconds) :
    ({ d with serial := { s with awake := true } } : Desk).Shows (uartUpdateIrq gicL uartL b) := by
  have hstatus : (Pl011.txris ||| if b.dev.uart.rxEmpty = true then 0 else Pl011.rxris) =
      Serial.status { s with awake := true } := by
    rw [Serial.status, if_pos rfl]
    simp only [hring.empty_iff, hqueue]
  obtain ⟨g, hdev, hline⟩ := gicSetIrq_desk
    (setUart uartL b { b.dev.uart with ris := Serial.status { s with awake := true } })
    (show intidUart < gicNumIrqs by decide) (decide (Serial.status { s with awake := true } &&& b.dev.uart.imsc ≠ 0))
  have hupdate : (uartUpdateIrq gicL uartL b).dev = _ := (congrArg (fun r : U32 =>
    (gicSetIrq gicL (setUart uartL b { b.dev.uart with ris := r }) intidUart (r &&& b.dev.uart.imsc ≠ 0)).dev) hstatus).trans hdev
  refine ⟨?_, ?_, ?_⟩
  · rw [hupdate, hline, Function.update_self, hmask]
    exact ⟨⟨hring.head_lt, hring.tail_lt⟩, hqueue, hmask, rfl, rfl⟩
  · rw [hupdate, hline, Function.update_of_ne (by decide)]
    exact hclock
  · rw [hupdate]
    exact hhost

lemma pl031SetLine_shows {k : Clock} (hserial : d.serial.Shows b.dev.uart (b.dev.gic.line intidUart))
    (hhost : d.host = b.dev.hostSeconds) (hoffset : b.dev.rtc.tickOffset.setWidth 32 = k.set - k.since)
    (halarm : k.alarm = if b.dev.rtc.armed then some b.dev.rtc.mr else none) (hrang : b.dev.rtc.ris = if k.rang then 1 else 0)
    (hmask : b.dev.rtc.imsc = k.mask) (hline : b.dev.gic.line intidRtc = b.dev.rtc.irqLine) :
    ({ d with clock := k } : Desk).Shows (pl031SetLine gicL rtcL b) := by
  have hlevel : decide (b.dev.rtc.ris &&& b.dev.rtc.imsc &&& 1 ≠ 0) = (k.rang && k.mask.getLsbD 0) := by
    rw [hrang, hmask]
    cases k.rang with
    | false => simp
    | true =>
      rw [if_pos rfl, BitVec.and_comm 1, BitVec.and_assoc, BitVec.and_self, Bool.true_and]
      exact decide_and_one k.mask
  unfold pl031SetLine
  dsimp only
  rw [show rtcL.get b.dev = b.dev.rtc from rfl, hlevel]
  split
  · obtain ⟨g, hdev, hset⟩ := gicSetIrq_desk (setRtc rtcL b { b.dev.rtc with irqLine := k.rang && k.mask.getLsbD 0 })
      (show intidRtc < gicNumIrqs by decide) (k.rang && k.mask.getLsbD 0)
    refine ⟨?_, ?_, ?_⟩
    · rw [hdev, hset, Function.update_of_ne (by decide)]
      exact hserial
    · rw [hdev, hset, Function.update_self]
      exact ⟨hoffset, halarm, hrang, hmask, rfl, rfl⟩
    · rw [hdev]
      exact hhost
  · next hsame =>
    have hsame := (not_ne_iff.1 hsame).symm
    exact ⟨hserial, ⟨hoffset, halarm, hrang, hmask, hsame, hline.trans hsame⟩, hhost⟩

lemma rtcCount_eq (h : d.Shows b) : rtcCount rtcL hostSeconds b = d.clock.now d.host := by
  rw [rtcCount, Clock.now, h.host, BitVec.setWidth_add _ _ (by decide)]
  rw [show (rtcL.get b.dev).tickOffset.setWidth 32 = _ from h.clock.offset, BitVec.setWidth_setWidth_of_le _ (by decide),
    BitVec.setWidth_eq]
  ring

lemma uartRead_bus (b : Bus Devices) (off : U64) (size : ℕ) : (uartRead gicL uartL b off size).2 =
    if off.toNat = 0 then uartUpdateIrq gicL uartL (setUart uartL b b.dev.uart.rxPop.2) else b := by
  unfold uartRead
  by_cases h0 : off.toNat = 0
  · simp only [h0]
    rfl
  · rw [if_neg h0]
    dsimp only
    split
    · rfl
    · split <;> first | rfl | contradiction

lemma gicStep_desk (b : Bus Devices) (op : GicOp) : ∃ g, (gicStep gicL b op).dev = { b.dev with gic := g } ∧
    ∀ i, (∀ k level, op = .setIrq k level → k ≠ i) → g.line i = b.dev.gic.line i := by
  obtain ⟨g, hg⟩ := gicStep_dev (L := gicL) (b := b) op
  refine ⟨g, hg, fun i hi => ?_⟩
  have hline : (gicL.get (gicStep gicL b op).dev).line = g.line := by
    rw [hg]
    rfl
  rw [← hline]
  by_cases hset : ∀ k level, op ≠ .setIrq k level
  · exact congrFun (gicStep_line_of_access hset) i
  · push Not at hset
    obtain ⟨k, level, rfl⟩ := hset
    by_cases hk : k < gicNumIrqs
    · exact (congrFun (gicSetIrq_line hk) i).trans (Function.update_of_ne (hi k level rfl).symm _ _)
    · rw [gicStep, gicSetIrq, if_pos (not_lt.1 hk)]
      rfl

lemma reset_shows (b : Bus Devices) : ({ host := b.dev.hostSeconds } : Desk).Shows (deskStep b .reset) := by
  obtain ⟨g, hdev, hg⟩ := gicSetIrq_desk (setUart uartL (setGic gicL b .initial) .initial)
    (show intidUart < gicNumIrqs by decide) false
  obtain ⟨g', hdev', hg'⟩ := gicSetIrq_desk
    (setRtc rtcL (gicSetIrq gicL (setUart uartL (setGic gicL b .initial) .initial) intidUart false) .initial)
    (show intidRtc < gicNumIrqs by decide) false
  have hreset : (deskStep b .reset).dev = { b.dev with uart := .initial, rtc := .initial, gic := g' } := by
    rw [deskStep, hdev', setRtc, hdev]
    rfl
  have hlines : g'.line intidUart = false ∧ g'.line intidRtc = false := by
    rw [hg', setRtc, hdev]
    simp [rtcL, hg, intidUart, intidRtc]
  refine ⟨?_, ?_, by rw [hreset]⟩
  · rw [hreset, hlines.1]
    exact ⟨⟨Nat.zero_lt_succ 63, Nat.zero_lt_succ 63⟩, show Pl011.initial.queue = [] by decide, rfl, rfl,
      show false = decide ((0 : U32) &&& 0 ≠ 0) by decide⟩
  · rw [hreset, hlines.2]
    exact ⟨show (0 : U64).setWidth 32 = (0 - 0 : U32) by decide, rfl, rfl, rfl, rfl, rfl⟩

theorem deskStep_shows (h : d.Shows b) (e : DeskEvent) : (d.step e).Shows (deskStep b e) := by
  obtain ⟨hring, hqueue, hmask, hstatus, huart⟩ := h.serial
  obtain ⟨ho, ha, hr, hm, hi, hl⟩ := h.clock
  have hline : b.dev.gic.line intidRtc = b.dev.rtc.irqLine := hl.trans hi.symm
  cases e with
  | poll input =>
    obtain ⟨hring', hqueue', hmask'⟩ := hring.fill input
    rw [hqueue] at hqueue'
    exact uartUpdateIrq_shows (s := { d.serial with queue := _ }) hring' hqueue' (hmask'.trans hmask) h.clock h.host
  | uartRead off size =>
    rw [deskStep, uartRead_bus, Desk.step]
    split
    · obtain ⟨-, hring', hqueue', hmask'⟩ := hring.pop
      rw [hqueue] at hqueue'
      exact uartUpdateIrq_shows (s := { d.serial with queue := _ }) hring' hqueue' (hmask'.trans hmask) h.clock h.host
    · exact h
  | uartWrite off size val =>
    rw [deskStep, uartWrite, Desk.step]
    generalize off.toNat = o
    split
    · exact uartUpdateIrq_shows hring hqueue hmask h.clock h.host
    · exact uartUpdateIrq_shows hring hqueue hmask h.clock h.host
    · exact uartUpdateIrq_shows (s := { d.serial with mask := val.setWidth 32 }) ⟨hring.head_lt, hring.tail_lt⟩ hqueue rfl
        h.clock h.host
    · split <;> first
        | contradiction
        | exact h
        | exact ⟨⟨⟨hring.head_lt, hring.tail_lt⟩, hqueue, hmask, hstatus, huart⟩, h.clock, h.host⟩
  | rtcRead off size => exact h
  | rtcWrite off size val =>
    rw [deskStep, rtcWrite, Desk.step]
    generalize off.toNat = o
    split
    · exact ⟨h.serial, ⟨ho, rfl, hr, hm, hi, hl⟩, h.host⟩
    · refine ⟨h.serial, ⟨?_, ha, hr, hm, hi, hl⟩, h.host⟩
      rw [h.host]
      exact setWidth_signExtend _
    · exact pl031SetLine_shows h.serial h.host ho ha hr rfl hline
    · refine pl031SetLine_shows h.serial h.host ho ha ?_ hm hline
      show b.dev.rtc.ris &&& ~~~val.setWidth 32 = if (d.clock.rang && !val.getLsbD 0) = true then 1 else 0
      rw [hr]
      cases d.clock.rang with
      | false => simp
      | true =>
        rw [if_pos rfl, one_and_not, BitVec.getLsbD_setWidth]
        cases val.getLsbD 0 <;> rfl
    · split <;> first | contradiction | exact h | exact ⟨h.serial, ⟨ho, ha, hr, hm, hi, hl⟩, h.host⟩
  | tick =>
    rw [deskStep, pl031Update, Desk.step, ha]
    dsimp only
    rw [rtcCount_eq h]
    cases harmed : b.dev.rtc.armed with
    | false =>
      simp only [Bool.false_eq_true, false_and, if_false]
      exact pl031SetLine_shows h.serial h.host ho ha hr hm hline
    | true =>
      simp only [if_true, true_and]
      split
      · refine pl031SetLine_shows h.serial h.host ho rfl ?_ hm hline
        show b.dev.rtc.ris ||| 1 = 1
        rw [hr]
        cases d.clock.rang <;> rfl
      · exact pl031SetLine_shows h.serial h.host ho ha hr hm hline
  | seconds t => exact ⟨h.serial, h.clock, rfl⟩
  | gic op own =>
    obtain ⟨g, hdev, hkeep⟩ := gicStep_desk b op
    rw [deskStep]
    refine ⟨?_, ?_, ?_⟩
    · rw [hdev, hkeep _ fun k level hk => (own k level hk).1]
      exact h.serial
    · rw [hdev, hkeep _ fun k level hk => (own k level hk).2]
      exact h.clock
    · rw [hdev]
      exact h.host
  | reset =>
    rw [Desk.step, h.host]
    exact reset_shows b

theorem deskRun_shows (h : d.Shows b) (events : List DeskEvent) :
    (events.foldl Desk.step d).Shows (events.foldl deskStep b) := by
  induction events generalizing d b with
  | nil => exact h
  | cons e events ih => exact ih (deskStep_shows h e)

end Refinement

/-- The serial port is a queue of up to 63 bytes: after a reset and any events the data register has its
first byte, the flag register tells whether there is one, and the line is up for what the mask lets through. -/
theorem serial_port_queue (b : Bus Devices) (events : List DeskEvent) (size : ℕ) :
    let s := (events.foldl Desk.step { host := b.dev.hostSeconds }).serial
    let b' := events.foldl deskStep (deskStep b .reset)
    s.queue.length ≤ 63 ∧ (uartRead gicL uartL b' 0 size).1 = (s.queue.head?.getD 0).setWidth 64 ∧
      ((uartRead gicL uartL b' 0x18 size).1.getLsbD 4 = true ↔ s.queue = []) ∧
      (b'.dev.gic.line intidUart = true ↔ s.status &&& s.mask ≠ 0) := by
  intro s b'
  obtain ⟨hring, hqueue, -, -, hline⟩ := (deskRun_shows (reset_shows b) events).serial
  have hlt := hring.waiting_lt
  rw [← Pl011.length_queue, hqueue] at hlt
  refine ⟨Nat.le_of_lt_succ hlt, ?_, ?_, by rw [hline, decide_eq_true_eq]⟩
  · rw [← hqueue, ← hring.pop.1]
    rfl
  · rw [← hqueue, ← hring.empty_iff]
    show ((1 <<< 7 : U64) ||| if b'.dev.uart.rxEmpty = true then 1 <<< 4 else 0).getLsbD 4 = true ↔ b'.dev.uart.rxEmpty = true
    cases b'.dev.uart.rxEmpty <;> decide

/-- The clock shows the time that was set and what has passed since, and its line is up from when an
alarm is found due until the guest clears it, unless it is masked. -/
theorem alarm_clock (b : Bus Devices) (events : List DeskEvent) (size : ℕ) :
    let d := events.foldl Desk.step { host := b.dev.hostSeconds }
    let b' := events.foldl deskStep (deskStep b .reset)
    (rtcRead rtcL hostSeconds b' 0 size).1 = (d.clock.now b'.dev.hostSeconds).setWidth 64 ∧
      (b'.dev.gic.line intidRtc = true ↔ d.clock.rang = true ∧ d.clock.mask.getLsbD 0 = true) := by
  intro d b'
  have hshows := deskRun_shows (reset_shows b) events
  refine ⟨?_, by rw [hshows.clock.line, Bool.and_eq_true]⟩
  rw [← hshows.host, ← rtcCount_eq hshows]
  rfl

end Arm64Emu
