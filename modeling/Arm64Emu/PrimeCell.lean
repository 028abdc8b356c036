import Arm64Emu.Gic

/-! The PL011 serial port and the PL031 real-time clock (`pl011.c`, `pl031.c`). -/
namespace Arm64Emu

def intidUart : ℕ := 33
def intidRtc : ℕ := 34

structure Pl011 where
  imsc : U32
  ris : U32
  rxFifo : ℕ → U8
  rxHead : ℕ
  rxTail : ℕ
  cr : U32
  lcrH : U32
  ibrd : U32
  fbrd : U32
  ifls : U32

/-- The state after `pl011_create` and after `pl011_reset`. -/
def Pl011.initial : Pl011 := ⟨0, 0, fun _ => 0, 0, 0, 0x300, 0, 0, 0, 0⟩

/-- The host terminal, and which console its input follows. -/
structure Tty where
  output : List U8
  consoleVirtio : Bool
  consoleActiveVirtio : Bool

structure Pl031 where
  mr : U32
  lr : U32
  cr : U32
  imsc : U32
  ris : U32
  tickOffset : U64
  armed : Bool
  irqLine : Bool

def Pl031.initial : Pl031 := ⟨0, 0, 0, 0, 0, 0, false, false⟩

def pl011Id : List U8 := [0x11, 0x10, 0x14, 0x00, 0x0d, 0xf0, 0x05, 0xb1]

def pl031Id : List U8 := [0x31, 0x10, 0x14, 0x00, 0x0d, 0xf0, 0x05, 0xb1]

namespace Pl011

def rxris : U32 := 1 <<< 4
def txris : U32 := 1 <<< 5

def rxEmpty (p : Pl011) : Bool := p.rxHead = p.rxTail

def rxFull (p : Pl011) : Bool := (p.rxTail + 1) % 64 = p.rxHead

def rxPush (p : Pl011) (ch : U8) : Pl011 :=
  if p.rxFull then p
  else { p with rxFifo := Function.update p.rxFifo p.rxTail ch, rxTail := (p.rxTail + 1) % 64 }

def rxPop (p : Pl011) : Option U8 × Pl011 :=
  if p.rxEmpty then (none, p) else (some (p.rxFifo p.rxHead), { p with rxHead := (p.rxHead + 1) % 64 })

end Pl011

section Uart
variable {D : Type} (gic : Lens D Gic) (uart : Lens D Pl011) (tty : Lens D Tty)

def setUart (b : Bus D) (p : Pl011) : Bus D := { b with dev := uart.set b.dev p }

def uartUpdateIrq (b : Bus D) : Bus D :=
  let p := uart.get b.dev
  let ris := Pl011.txris ||| (if p.rxEmpty then 0 else Pl011.rxris)
  gicSetIrq gic (setUart uart b { p with ris := ris }) intidUart (ris &&& p.imsc ≠ 0)

def uartRead (b : Bus D) (off : U64) (_size : ℕ) : U64 × Bus D :=
  let p := uart.get b.dev
  let o := off.toNat
  if 0xfe0 ≤ o ∧ o ≤ 0xffc then ((pl011Id.getD ((o - 0xfe0) / 4) 0).setWidth 64, b)
  else
    match o with
    | 0x00 =>
      let (ch, p) := p.rxPop
      ((ch.getD 0).setWidth 64, uartUpdateIrq gic uart (setUart uart b p))
    | 0x18 => ((1 <<< 7) ||| (if p.rxEmpty then 1 <<< 4 else 0), b)
    | 0x24 => (p.ibrd.setWidth 64, b)
    | 0x28 => (p.fbrd.setWidth 64, b)
    | 0x2c => (p.lcrH.setWidth 64, b)
    | 0x30 => (p.cr.setWidth 64, b)
    | 0x34 => (p.ifls.setWidth 64, b)
    | 0x38 => (p.imsc.setWidth 64, b)
    | 0x3c => (p.ris.setWidth 64, b)
    | 0x40 => ((p.ris &&& p.imsc).setWidth 64, b)
    | _ => (0, b)

def uartWrite (b : Bus D) (off : U64) (_size : ℕ) (val : U64) : Bus D :=
  let p := uart.get b.dev
  match off.toNat with
  | 0x00 =>
    let t := tty.get b.dev
    let t := { t with
      output := t.output ++ [val.setWidth 8]
      consoleActiveVirtio := t.consoleActiveVirtio && !t.consoleVirtio }
    uartUpdateIrq gic uart { b with dev := tty.set b.dev t }
  | 0x24 => setUart uart b { p with ibrd := val.setWidth 32 }
  | 0x28 => setUart uart b { p with fbrd := val.setWidth 32 }
  | 0x2c => setUart uart b { p with lcrH := val.setWidth 32 }
  | 0x30 => setUart uart b { p with cr := val.setWidth 32 }
  | 0x34 => setUart uart b { p with ifls := val.setWidth 32 }
  | 0x38 => uartUpdateIrq gic uart (setUart uart b { p with imsc := val.setWidth 32 })
  | 0x44 => uartUpdateIrq gic uart b
  | _ => b

end Uart

section Rtc
-- the host's seconds, or a fixed epoch in deterministic mode
variable {D : Type} (gic : Lens D Gic) (rtc : Lens D Pl031) (rtcHostCount : D → U32)

def setRtc (b : Bus D) (p : Pl031) : Bus D := { b with dev := rtc.set b.dev p }

def rtcCount (b : Bus D) : U32 :=
  ((rtcHostCount b.dev).setWidth 64 + (rtc.get b.dev).tickOffset).setWidth 32

def pl031SetLine (b : Bus D) : Bus D :=
  let p := rtc.get b.dev
  let line := decide (p.ris &&& p.imsc &&& 1 ≠ 0)
  if line ≠ p.irqLine then gicSetIrq gic (setRtc rtc b { p with irqLine := line }) intidRtc line else b

def rtcRead (b : Bus D) (off : U64) (_size : ℕ) : U64 × Bus D :=
  let p := rtc.get b.dev
  let o := off.toNat
  (if 0xfe0 ≤ o ∧ o ≤ 0xffc then (pl031Id.getD ((o - 0xfe0) / 4) 0).setWidth 64
   else
     match o with
     | 0x00 => (rtcCount rtc rtcHostCount b).setWidth 64
     | 0x04 => p.mr.setWidth 64
     | 0x08 => p.lr.setWidth 64
     | 0x0c => p.cr.setWidth 64
     | 0x10 => p.imsc.setWidth 64
     | 0x14 => p.ris.setWidth 64
     | 0x18 => (p.ris &&& p.imsc).setWidth 64
     | _ => 0, b)

def rtcWrite (b : Bus D) (off : U64) (_size : ℕ) (val : U64) : Bus D :=
  let p := rtc.get b.dev
  match off.toNat with
  | 0x04 => setRtc rtc b { p with mr := val.setWidth 32, armed := true }
  | 0x08 => setRtc rtc b { p with
      lr := val.setWidth 32, tickOffset := (val.setWidth 32 - rtcHostCount b.dev).signExtend 64 }
  | 0x0c => setRtc rtc b { p with cr := val.setWidth 32 }
  | 0x10 => pl031SetLine gic rtc (setRtc rtc b { p with imsc := val.setWidth 32 })
  | 0x1c => pl031SetLine gic rtc (setRtc rtc b { p with ris := p.ris &&& ~~~val.setWidth 32 })
  | _ => b

end Rtc

end Arm64Emu
