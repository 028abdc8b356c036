import Arm64Emu.Jit

/-! The translator's dispatch loop (`jit_step`): block lookup, translation and chaining,
and the run of generated code from block to block. The loop is cut into moves, between
two of which the machine is at the head of the loop, at the entry of a block, or about
to interpret an instruction of a thrashing page. -/
namespace Arm64Emu

variable {D : Type}

/-- The devices of a machine whose memory hooks reach a translator. -/
structure Jitted (D : Type) where
  env : JitEnv
  dev : D

abbrev JitMachine (D : Type) := Machine (Jitted D)

def jitInvalidatePhysRange (isRam : U64 → Bool) (env : JitEnv) (pa len : U64) : JitEnv :=
  if !env.on || len = 0 then env
  else
    let first := pageOf pa
    let npages := ((pa + len - 1 - first) >>> 12) + 1
    (List.range npages.toNat).foldl (fun env i =>
      let page := first + (zext i <<< 12)
      env.invalidatePage (isRam page) page) env

def Platform.jit (P : Platform (Jitted D)) : Platform (Jitted D) :=
  { P with
    jitCode := fun d pfn => d.env.bitmap pfn
    jitInvalidate := fun d pa len => { d with env := jitInvalidatePhysRange (ramPage P) d.env pa len } }

namespace Machine

def env (m : JitMachine D) : JitEnv := m.bus.dev.env

def setEnv (m : JitMachine D) (env : JitEnv) : JitMachine D :=
  { m with bus := { m.bus with dev := { m.bus.dev with env := env } } }

def mapEnv (m : JitMachine D) (f : JitEnv → JitEnv) : JitMachine D := m.setEnv (f m.env)

def addBlock (m : JitMachine D) (b : JCode) : JitMachine D :=
  m.mapEnv fun env => { env with toJTable := env.toJTable.addBlock b }

def chain (m : JitMachine D) (prev : ℕ) (slot : Bool) (i : ℕ) : JitMachine D :=
  m.mapEnv fun env => { env with toJTable := env.toJTable.chain prev slot i }

def jcacheFill (m : JitMachine D) (pc tag : U64) (i : ℕ) : JitMachine D :=
  m.mapEnv fun env => { env with toJCache := env.toJCache.fill pc tag i }

end Machine

/-- Block context: EL0, MMU enable, active stack pointer bank, FP trap state. -/
def jitCtx (c : Cpu) : U64 :=
  (if c.el = 0 then 1 else 0) ||| (if mmuOn c then 2 else 0) ||| (zext c.curSp <<< 2)
    ||| (if c.fpTrapped then 16 else 0)

def jitTag (pc ctx : U64) : U64 := (pc <<< 3) ||| ctx

def dtlbCtxgenOf (tlbGen : U32) (ctx : U64) : U64 :=
  ((tlbGen &&& 0x3ff).setWidth 64 <<< 2) ||| (ctx &&& 3)

section Step
variable (P : Platform (Jitted D)) (F : FpJit) (H : JitHost)

/-- Clear the write permission of the entries that point at a host page. -/
def stripW (b : Bus (Jitted D)) (hostPage : HostPage) : Bus (Jitted D) :=
  { b with dtlb := fun i => if .ram (b.dtlb i).page = hostPage then { b.dtlb i with w := false } else b.dtlb i }

/-- The first translation on a page marks it and write-protects it in the data TLB. -/
def markCodePage (m : JitMachine D) (hostPage : HostPage) (paPage : U64) : JitMachine D :=
  if ramPage P paPage && m.env.bitmap (pfnOf paPage) then m
  else
    let m := if ramPage P paPage then m.mapEnv (·.bitmapSet paPage) else m
    { m with bus := stripW m.bus hostPage }

/-- `jit_translate`, with at most `maxInsns` instructions; a block whose code overflows is
tried again at half its length. -/
def jitTranslate (pc tag : U64) (hostPage : HostPage) (paPage : U64) :
    ℕ → ℕ → JitMachine D → Option ℕ × JitMachine D
  | 0, _, m => (none, m)
  | tries + 1, maxInsns, m =>
    let m := if jitMaxBlocks ≤ m.env.nblocks ∨ 2 * jitMaxBlocks < m.env.nedges + 2 ∨
        H.cacheSize - m.env.ptr < jitBlockMaxBytes then m.mapEnv (·.jitFlushAll H) else m
    match jitFeBlock P F m pc maxInsns with
    | ((_, 0), m) => (none, m)
    | ((ir, n + 1), m) =>
      match H.emit ir.ops tag with
      | none =>
        if 1 < maxInsns ∧ 0 < n then jitTranslate pc tag hostPage paPage tries ((n + 1) / 2) m
        else (none, m.mapEnv fun env => { env with on := false })
      | some len =>
        let i := m.env.nblocks
        let b : JCode := ⟨pc, tag, hostPage, paPage, n + 1, ir.ops, exitPcOf ir.ops⟩
        let m := markCodePage P (m.addBlock b) hostPage paPage
        (some i, m.mapEnv fun env => { env with ptr := (env.ptr + len + 15) / 16 * 16 })

inductive CodePage
  | abort
  | mmio
  | host (hostPage : HostPage) (paPage : U64)

/-- The fetch cache holds the page of `pc`. -/
def fetchHit (m : JitMachine D) (pc : U64) : Option (HostPage × U64) :=
  let f := m.bus.fcache (decide (m.cpu.el = 0))
  match f.host with
  | some h => if f.page = pageOf pc ∧ f.mmu = mmuOn m.cpu then some (h, f.paPage) else none
  | none => none

def resolveCodePage (m : JitMachine D) (pc : U64) : CodePage × JitMachine D :=
  match fetchHit m pc with
  | some (h, pa) => (.host h pa, m)
  | none =>
    match memIfetchSlow P (m.mapCpu (·.setCurInsnPc pc)) pc with
    | (none, m) => (.abort, m)
    | (some _, m) =>
      match fetchHit m pc with
      | some (h, pa) => (.host h pa, m)
      | none => (.mmio, m)

/-- The operation that leaves the block, and the machine it leaves. -/
def irLeave : List IrEnt → IrState (Jitted D) → Option (IrOp × JitMachine D)
  | [], _ => none
  | e :: es, s =>
    match irStep P F s e with
    | .ok s => irLeave es s
    | .error m => some (e.op, m)

inductive BlockExit
  | chained (b : ℕ)
  | out (eid : Option (ℕ × Bool))
  deriving DecidableEq, Repr

/-- The run of a block's code: its safepoint, its operations, and its exit. -/
def runBlock (m : JitMachine D) (i : ℕ) : BlockExit × JitMachine D :=
  let b := m.env.arena i
  if m.env.interrupt ∨ m.env.icountDeadline ≤ m.cpu.icount then (.out none, m.mapCpu (·.setPc b.pc))
  else
    match irLeave P F b.ops (.start m) with
    | none => (.out none, m)
    | some (op, m) =>
      match exitSlot b.ops op with
      | some slot =>
        match (m.env.arena i).patched slot with
        | some j => (.chained j, m)
        | none => (.out (some (i, slot)), m)
      | none =>
        match op with
        | .jmpind _ =>
          let e := m.env.jcache (jcIdx m.cpu.pc)
          if e.tag = jitTag m.cpu.pc m.env.ctx then (.chained e.code, m) else (.out none, m)
        | _ => (.out none, m)

structure JitLoop (D : Type) where
  m : JitMachine D
  deadline : U64
  flushSeen : U32
  prev : Option (ℕ × Bool)

inductive JitPhase (D : Type)
  | head (l : JitLoop D)
  | interp (l : JitLoop D) (page : U64)
  | enter (l : JitLoop D) (b : ℕ)
  | done (r : StepResult) (m : JitMachine D)

def JitPhase.machine : JitPhase D → JitMachine D
  | .head l | .interp l _ | .enter l _ => l.m
  | .done _ m => m

def stepResult (m : JitMachine D) : StepResult := if m.cpu.stop then .halt else .ok

def JitLoop.seeFlush (l : JitLoop D) : JitLoop D :=
  if l.m.env.flushCount ≠ l.flushSeen then { l with flushSeen := l.m.env.flushCount, prev := none } else l

/-- What the dispatcher catches up with before it looks up a block. -/
def JitLoop.sync (l : JitLoop D) : JitLoop D :=
  let l := if l.m.env.pendingFlush then
      { l with m := l.m.mapEnv fun env => { env with pendingFlush := false }.jitFlushAll H } else l
  let l := l.seeFlush
  let l := if l.m.env.jcGen ≠ l.m.bus.tlbGen then
      { l with m := l.m.mapEnv fun env => { env with jcGen := l.m.bus.tlbGen }.jcachePurge } else l
  if l.m.env.jcVaSeq ≠ l.m.bus.tlbiVaSeq then
    { l with m := l.m.mapEnv fun env => { env with jcVaSeq := l.m.bus.tlbiVaSeq }.jcachePurge } else l

/-- Chain the exit that led to the block, refill the indirect-branch cache, and enter. -/
def JitLoop.enterBlock (l : JitLoop D) (pc tag : U64) (i : ℕ) : JitPhase D :=
  let m := match l.prev with
    | some (p, slot) => l.m.chain p slot i
    | none => l.m
  .enter { l with m := m.jcacheFill pc tag i, prev := none } i

/-- Find or translate the block at `pc`, whose code page has been resolved. -/
def JitLoop.dispatch (l : JitLoop D) (pc : U64) (hostPage : HostPage) (paPage : U64) : JitPhase D :=
  let ctx := jitCtx l.m.cpu
  let tag := jitTag pc ctx
  let l := { l with m := l.m.mapEnv fun env =>
    { env with ctx := ctx, dtlbCtxgen := dtlbCtxgenOf l.m.bus.tlbGen ctx } }
  match l.m.env.jitLookup tag hostPage with
  | some i => l.enterBlock pc tag i
  | none =>
    match jitTranslate P F H pc tag hostPage paPage jitMaxBlockInsns jitMaxBlockInsns l.m with
    | (some i, m) => JitLoop.enterBlock ({ l with m := m } : JitLoop D).seeFlush pc tag i
    | (none, m) =>
      if !m.env.on then .done (cpuStep P m).1 (cpuStep P m).2
      else .head { ({ l with m := m } : JitLoop D).seeFlush with prev := none }

def jitHead (l : JitLoop D) : JitPhase D :=
  if l.m.cpu.stop || l.m.cpu.halted || l.deadline ≤ l.m.cpu.icount then .done (stepResult l.m) l.m
  else if irqPending l.m || fiqPending l.m then .done (stepResult l.m) l.m
  else if l.m.env.interrupt then
    .done (stepResult l.m) (l.m.mapEnv fun env => { env with interrupt := false })
  else
    let l := l.sync H
    let pc := l.m.cpu.pc
    match resolveCodePage P l.m pc with
    | (.abort, m) => .head { l with m := m, prev := none }
    | (.mmio, m) => .head { l with m := (cpuStep P m).2, prev := none }
    | (.host hostPage paPage, m) =>
      if m.env.thrashHot paPage then .interp { l with m := m, prev := none } (pageOf pc)
      else JitLoop.dispatch P F H { l with m := m } pc hostPage paPage

def jitInterp (l : JitLoop D) (page : U64) : JitPhase D :=
  let m := (cpuStep P l.m).2
  if !m.cpu.stop && !m.cpu.halted && m.cpu.icount < l.deadline && pageOf m.cpu.pc = page then
    .interp { l with m := m } page
  else .head { l with m := m }

def jitEnter (l : JitLoop D) (i : ℕ) : JitPhase D :=
  match runBlock P F l.m i with
  | (.chained j, m) => .enter { l with m := m } j
  | (.out eid, m) => .head { l with m := m, prev := eid.filter fun e => e.1 < m.env.nblocks }

def jitMove : JitPhase D → JitPhase D
  | .head l => jitHead P F H l
  | .interp l page => jitInterp P l page
  | .enter l i => jitEnter P F l i
  | .done r m => .done r m

/-- `jit_step` up to its loop. -/
def jitStart (m : JitMachine D) (slice maxInsn : U64) : JitPhase D :=
  if m.cpu.stop then .done .halt m
  else if fiqPending m then .done .ok (m.mapCpu fun c => exceptionTake c .fiq 0 0 c.pc)
  else if irqPending m then .done .ok (m.mapCpu fun c => exceptionTake c .irq 0 0 c.pc)
  else if m.cpu.halted then .done .ok m
  else if maxInsn ≠ 0 ∧ maxInsn - m.cpu.icount < 2 * zext jitMaxBlockInsns then
    .done (cpuStep P m).1 (cpuStep P m).2
  else
    let deadline := m.cpu.icount + slice
    let deadline := if maxInsn ≠ 0 ∧ maxInsn - zext jitMaxBlockInsns < deadline then
        maxInsn - zext jitMaxBlockInsns else deadline
    let m := m.mapEnv fun env => { env with icountDeadline := deadline }
    .head ⟨m, deadline, m.env.flushCount, none⟩

/-- `jit_step` with at most `fuel` moves. -/
def jitStep (fuel : ℕ) (m : JitMachine D) (slice maxInsn : U64) : Option (StepResult × JitMachine D) :=
  match (jitMove P F H)^[fuel] (jitStart P m slice maxInsn) with
  | .done r m => some (r, m)
  | _ => none

end Step

end Arm64Emu
