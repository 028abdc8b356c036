import Arm64Emu.Engines

/-! The exception level in all three engines. Exceptions enter EL1, or stay at a higher
level, and nothing but an exception return leaves it; the return takes the level from the
saved state, which the program may write. -/
namespace Arm64Emu

variable {D : Type}

def Cpu.Low (c : Cpu) : Prop := c.el ≤ 1

/-- The saved state of the current level names a level that is not higher. -/
def Cpu.EretOk (c : Cpu) : Prop := (c.unpackSpsr ((c.spsr c.el).setWidth 32)).el ≤ c.el

instance (c : Cpu) : Decidable c.EretOk := inferInstanceAs (Decidable (_ ≤ _))

lemma Cpu.Low.of_el {c d : Cpu} (h : c.Low) (hel : d.el = c.el) : d.Low := by
  rw [Cpu.Low, hel]
  exact h

lemma CpuOp.low {c d : Cpu} (h : CpuOp c d) (hc : c.Low) : d.Low := by
  cases h with
  | gpr n v => exact hc.of_el (Cpu.setGpr_el c n v)
  | take kind esr far ret =>
    rw [Cpu.Low, exceptionTake_el]
    split
    · exact hc
    · exact le_refl _
  | sp | vreg | nzcv | pc | fpsr | noExcl => exact hc

lemma hint_el (c : Cpu) (insn : U32) : (hint c insn).el = c.el := by
  unfold hint
  dsimp only
  split_ifs <;> rfl

lemma kept_low : ModeKept (fun m => m.el ≤ 1) Cpu.EretOk where
  change {A c d} h hok hc := by
    have hc : c.Low := hc
    suffices hd : d.Low from hd
    cases h with
    | op ho => exact ho.low hc
    | hint insn => exact hc.of_el (hint_el c insn)
    | conduit => exact hc.of_el (smcccConduit_el c)
    | eret h => exact (hok h).trans hc
    | msr v => exact hc.of_el (msrCpu_el c _ v)
    | unpriv | excl | stop | pstate | cval | par | clock => exact hc
  fetched h _ _ := h

/-- An `ERET` that the next step executes returns to a level that is not higher. -/
def EretNext (P : Platform D) (s : Machine D) : Prop :=
  ∀ insn u, Executes P s insn u → isEret insn = true → s.cpu.EretOk

/-- An `ERET` that the operation hands to the interpreter. -/
def EretCalled (s : IrState D) (e : IrEnt) : Prop :=
  s.skip = false → ∀ pc insn, e.op = .call1 pc insn ∨ e.op = .call1ic pc insn → isEret insn = true → s.m.cpu.EretOk

/-- Every `ERET` that a run of the operations hands to the interpreter. -/
def BlockErets (P : Platform D) (F : FpJit) : List IrEnt → IrState D → Prop
  | [], _ => True
  | e :: es, s => EretCalled s e ∧ ∀ s', irStep P F s e = .ok s' → BlockErets P F es s'

/-- Every `ERET` of the next run of generated code. -/
def EnterErets (P : Platform (Jitted D)) (F : FpJit) (m : JitMachine D) (i : ℕ) : Prop :=
  ¬(m.env.interrupt = true ∨ m.env.icountDeadline ≤ m.cpu.icount) → BlockErets P F (m.env.arena i).ops (.start m)

/-- Every `ERET` of the next move. -/
def MoveErets (P : Platform (Jitted D)) (F : FpJit) (H : JitHost) : JitPhase D → Prop
  | .head l => ∀ m, headSteps P F H l = some m → EretNext P m
  | .interp l _ => EretNext P l.m
  | .enter l i => EnterErets P F l.m i
  | .done _ _ => True

namespace Engine

/-- Every `ERET` of the next move returns to a level that is not higher. -/
def EretsOk (P : Platform (Jitted D)) (F : FpJit) (H : JitHost) : Engine D → Prop
  | interpreter m => EretNext P m
  | predecoded m _ => EretNext P m
  | translator p => MoveErets P F H p

end Engine

lemma BlockErets.returnsIn {P : Platform D} {F : FpJit} {es : List IrEnt} {s : IrState D} (h : BlockErets P F es s) :
    ReturnsIn Cpu.EretOk P F es s := by
  induction es generalizing s with
  | nil => trivial
  | cons e es ih => exact ⟨h.1, fun s' hs => ih (h.2 s' hs)⟩

lemma Engine.EretsOk.returns {P : Platform (Jitted D)} {F : FpJit} {H : JitHost} {e : Engine D} (h : e.EretsOk P F H) :
    e.Returns Cpu.EretOk P F H := by
  cases e with
  | interpreter m => exact h
  | predecoded m cache => exact h
  | translator p =>
    cases p with
    | enter l i => exact fun hsafe => (h hsafe).returnsIn
    | head l => exact h
    | interp l page => exact h
    | done r m => exact h

/-- What the engines reach from a reset at EL1. Between two moves of any of them the run
loop and the devices act, and another engine, in any phase and with any code, may go on. -/
inductive Visited (P : Platform (Jitted D)) (F : FpJit) (H : JitHost) : Engine D → Prop
  | reset (entry : U64) {e : Engine D} : e.machine.cpu = cpuReset entry 1 → Visited P F H e
  | next {e : Engine D} : Visited P F H e → e.EretsOk P F H → Visited P F H (e.next P F H)
  | call {r : StepResult} {m : JitMachine D} (slice maxInsn : U64) : Visited P F H (.translator (.done r m)) →
      EretNext P m → Visited P F H (.translator (jitStart P m slice maxInsn))
  | host {e e' : Engine D} (skip base : U64) (halted : Bool) : Visited P F H e →
      e'.machine.cpu = e.machine.cpu.hosted skip base halted → Visited P F H e'

lemma Visited.ran {P : Platform (Jitted D)} {F : FpJit} {H : JitHost} {e : Engine D} (h : Visited P F H e) :
    EngineRun Cpu.EretOk 1 P F H e := by
  induction h with
  | reset entry he => exact .reset entry he
  | next _ hok ih => exact .next ih hok.returns
  | call slice maxInsn _ hok ih => exact .call slice maxInsn ih hok
  | host skip base halted _ he ih => exact .host skip base halted ih he

lemma execA64_eret_el {P : Platform D} (s : Machine D) {insn : U32} (h : isEret insn = true) :
    (execA64 P s insn).cpu.el = (s.cpu.unpackSpsr ((s.cpu.spsr s.cpu.el).setWidth 32)).el := by
  rw [execA64_eret s h]
  rfl

/-- A return to EL2: `mov x0, #8`, `msr spsr_el1, x0`, `eret`. -/
def eretToEl2 : List (ℕ × List U32) := [(0, [0xd2800100, 0xd5184000, 0xd69f03e0])]

end Arm64Emu
