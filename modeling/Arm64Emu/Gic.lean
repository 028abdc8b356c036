import Arm64Emu.Bus
import Arm64Emu.Lens

/-! The GICv2 interrupt controller of a single processor (`gicv2.c`): distributor and CPU
interface. The tables are indexed as the code indexes them, as if they had no end; the
code's own have 256 entries. -/
namespace Arm64Emu

structure Gic where
  dCtlr : U32
  cCtlr : U32
  pmr : U8
  enabled : ℕ → Bool
  pending : ℕ → Bool
  active : ℕ → Bool
  line : ℕ → Bool
  cfgEdge : ℕ → Bool
  priority : ℕ → U8
  target : ℕ → U8

def gicNumIrqs : ℕ := 256

def spurious : ℕ := 1023

/-- The state after `gic_create` and after `gic_reset`. -/
def Gic.initial : Gic where
  dCtlr := 0
  cCtlr := 0
  pmr := 0
  enabled := fun _ => false
  pending := fun _ => false
  active := fun _ => false
  line := fun _ => false
  cfgEdge := fun _ => false
  priority := fun _ => 0
  target := fun _ => 0

/-- The eligible interrupt of the lowest priority value, the lowest number among equals. -/
def gicBest (g : Gic) : ℕ :=
  if g.dCtlr &&& 1 = 0 ∨ g.cCtlr &&& 1 = 0 then spurious
  else
    ((List.range gicNumIrqs).foldl (fun (best : ℕ × ℕ) i =>
      if !g.enabled i || !g.pending i || g.active i then best
      else if g.pmr ≤ g.priority i then best
      else if (g.priority i).toNat < best.2 then (i, (g.priority i).toNat)
      else best) (spurious, 256)).1

variable {D : Type} (L : Lens D Gic)

def gicUpdate (b : Bus D) : Bus D := { b with irqLine := decide (gicBest (L.get b.dev) ≠ spurious) }

def setGic (b : Bus D) (g : Gic) : Bus D := { b with dev := L.set b.dev g }

/-- An input line moves: an edge input is pended by a rising edge, a level input follows
its line. -/
def gicSetIrq (b : Bus D) (intid : ℕ) (level : Bool) : Bus D :=
  let g := L.get b.dev
  if gicNumIrqs ≤ intid then b
  else
    let pend := if g.cfgEdge intid then g.pending intid || (level && !g.line intid) else level
    let g := { g with line := Function.update g.line intid level }
    if pend = g.pending intid then setGic L b g
    else gicUpdate L (setGic L b { g with pending := Function.update g.pending intid pend })

def gicBits (f : ℕ → Bool) (base : ℕ) : U32 := BitVec.ofFnLE fun i : Fin 32 => f (base + i)

/-- Two bits each for sixteen entries, of which the upper is the entry. -/
def gicCfgBits (f : ℕ → Bool) (base : ℕ) : U32 :=
  BitVec.ofFnLE fun i : Fin 32 => decide (i.val % 2 = 1) && f (base + i / 2)

/-- Entries whose bit in the value is set become `x`. -/
def gicMark (f : ℕ → Bool) (base : ℕ) (val : U64) (x : Bool) : ℕ → Bool := fun k =>
  if base ≤ k ∧ k < base + 32 ∧ val.getLsbD (k - base) then x else f k

def gicdRead (b : Bus D) (off : U64) (size : ℕ) : U64 × Bus D :=
  let g := L.get b.dev
  let o := off.toNat
  (if o = 0x000 then g.dCtlr.setWidth 64
   else if o = 0x004 then zext (gicNumIrqs / 32 - 1)
   else if o = 0x008 then 0x0200043b
   else if 0x100 ≤ o ∧ o < 0x180 then (gicBits g.enabled ((o - 0x100) * 8)).setWidth 64
   else if 0x180 ≤ o ∧ o < 0x200 then (gicBits g.enabled ((o - 0x180) * 8)).setWidth 64
   else if 0x200 ≤ o ∧ o < 0x280 then (gicBits g.pending ((o - 0x200) * 8)).setWidth 64
   else if 0x280 ≤ o ∧ o < 0x300 then (gicBits g.pending ((o - 0x280) * 8)).setWidth 64
   else if 0x300 ≤ o ∧ o < 0x380 then (gicBits g.active ((o - 0x300) * 8)).setWidth 64
   else if 0x400 ≤ o ∧ o < 0x800 then ldLe g.priority (o - 0x400) size
   else if 0x800 ≤ o ∧ o < 0xc00 then ldLe (fun irq => if irq < 32 then 0x01 else g.target irq) (o - 0x800) size
   else if 0xc00 ≤ o ∧ o < 0xd00 then (gicCfgBits g.cfgEdge ((o - 0xc00) * 4)).setWidth 64
   else 0, b)

def gicdWrite (b : Bus D) (off : U64) (size : ℕ) (val : U64) : Bus D :=
  let g := L.get b.dev
  let o := off.toNat
  if o = 0x000 then gicUpdate L (setGic L b { g with dCtlr := val.setWidth 32 })
  else if 0x100 ≤ o ∧ o < 0x180 then
    gicUpdate L (setGic L b { g with enabled := gicMark g.enabled ((o - 0x100) * 8) val true })
  else if 0x180 ≤ o ∧ o < 0x200 then
    gicUpdate L (setGic L b { g with enabled := gicMark g.enabled ((o - 0x180) * 8) val false })
  else if 0x200 ≤ o ∧ o < 0x280 then
    gicUpdate L (setGic L b { g with pending := gicMark g.pending ((o - 0x200) * 8) val true })
  else if 0x280 ≤ o ∧ o < 0x300 then
    gicUpdate L (setGic L b { g with pending := gicMark g.pending ((o - 0x280) * 8) val false })
  else if 0x300 ≤ o ∧ o < 0x380 then
    -- the one register of this group that does not recompute the line
    setGic L b { g with active := gicMark g.active ((o - 0x300) * 8) val true }
  else if 0x380 ≤ o ∧ o < 0x400 then
    gicUpdate L (setGic L b { g with active := gicMark g.active ((o - 0x380) * 8) val false })
  else if 0x400 ≤ o ∧ o < 0x800 then
    gicUpdate L (setGic L b { g with priority := stLe g.priority (o - 0x400) size val })
  else if 0x800 ≤ o ∧ o < 0xc00 then
    -- the banked interrupts 0 to 31 are read-only
    let target := stLe g.target (o - 0x800) size val
    setGic L b { g with target := fun irq => if irq < 32 then g.target irq else target irq }
  else if 0xc00 ≤ o ∧ o < 0xd00 then
    let base := (o - 0xc00) * 4
    setGic L b { g with cfgEdge := fun k =>
      if base ≤ k ∧ k < base + 16 then val.getLsbD (2 * (k - base) + 1) else g.cfgEdge k }
  else b

/-- Reading the acknowledge register makes the best interrupt active. -/
def giccRead (b : Bus D) (off : U64) (_size : ℕ) : U64 × Bus D :=
  let g := L.get b.dev
  match off.toNat with
  | 0x00 => (g.cCtlr.setWidth 64, b)
  | 0x04 => (g.pmr.setWidth 64, b)
  | 0x0c =>
    let best := gicBest g
    if best ≠ spurious then
      (zext best, gicUpdate L (setGic L b { g with
        active := Function.update g.active best true
        pending := if g.cfgEdge best then Function.update g.pending best false else g.pending }))
    else (zext best, b)
  | 0x18 => (zext (gicBest g), b)
  | 0xfc => (0x0202143b, b)
  | _ => (0, b)

def giccWrite (b : Bus D) (off : U64) (_size : ℕ) (val : U64) : Bus D :=
  let g := L.get b.dev
  let eoi : Bus D :=
    let id := (val &&& 0x3ff).toNat
    gicUpdate L (if id < gicNumIrqs then setGic L b { g with active := Function.update g.active id false } else b)
  match off.toNat with
  | 0x00 => gicUpdate L (setGic L b { g with cCtlr := val.setWidth 32 })
  | 0x04 => gicUpdate L (setGic L b { g with pmr := val.setWidth 8 })
  | 0x10 => eoi
  | 0x1000 => eoi
  | _ => b

end Arm64Emu
