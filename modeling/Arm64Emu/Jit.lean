import Arm64Emu.FeBlock

/-! The translator's tables (`jit.c`): the block table with its page index and chained
exits, the indirect-branch cache, the code-page bitmap and the thrash guard, and the
operations that fill and invalidate them. A pointer to a block or to its code is the
block's index in the arena. -/
namespace Arm64Emu

def jitMaxBlocks : ℕ := 65536

def jitInsnMaxBytes : ℕ := 64

def jitBlockMaxBytes : ℕ := jitMaxBlockInsns * jitInsnMaxBytes + 256

def jitJcSize : ℕ := 4096

def jitJcDirtyMax : ℕ := 1024

def jitThrashLimit : ℕ := 32

/-- What a translated block keeps for its lifetime. An exit is slot 0 (`false`) or slot 1
(`true`). -/
structure JCode where
  pc : U64
  tag : U64
  hostPage : HostPage
  paPage : U64
  ninsns : ℕ
  ops : List IrEnt
  exitPc : Bool → U64

/-- A translated block: `patched` is the block that a chained exit jumps to, and `inHead`
lists the exits that were chained to this block. -/
structure JBlock extends JCode where
  inHead : List (ℕ × Bool)
  patched : Bool → Option ℕ

structure JcEnt where
  tag : U64
  code : ℕ
  deriving DecidableEq, Repr

/-- The block table: hash chains by tag, page chains by physical page, the arena of
blocks, and how much of the arena and of the edge pool is used. -/
structure JTable where
  hash : BitVec 14 → List ℕ
  pages : BitVec 12 → List ℕ
  arena : ℕ → JBlock
  nblocks : ℕ
  nedges : ℕ

/-- The indirect-branch cache, with the list of the entries that have been filled. -/
structure JCache where
  jcache : BitVec 12 → JcEnt
  jcDirty : List (BitVec 12)
  jcNdirty : ℕ

/-- `JitEnv`, with `g_jit` and the code-page bitmap (by page number); `ptr` is the cursor
into the code cache, in bytes from its start. -/
structure JitEnv extends JTable, JCache where
  on : Bool
  interrupt : Bool
  ctx : U64
  jcGen : U32
  jcVaSeq : U32
  dtlbCtxgen : U64
  icountDeadline : U64
  ptr : ℕ
  flushCount : U32
  pendingFlush : Bool
  thrash : BitVec 6 → U64 × ℕ
  bitmap : U64 → Bool

/-- What the host contributes: the code cache, and how long the code of a block is, or
that it does not fit in `JIT_BLOCK_MAX_BYTES`. -/
structure JitHost where
  cacheSize : ℕ
  blocksStart : ℕ
  emit : List IrEnt → (tag : U64) → Option ℕ

def hashTag (tag : U64) : BitVec 14 := tag.extractLsb' 4 14

def pageSlot (paPage : U64) : BitVec 12 := paPage.extractLsb' 12 12

def thrashSlot (paPage : U64) : BitVec 6 := paPage.extractLsb' 12 6

def jcIdx (pc : U64) : BitVec 12 := pc.extractLsb' 2 12

def jcEmpty : JcEnt := ⟨~~~0, 0⟩

/-- The slot whose stub an operation of the block leaves by, if it is a direct exit. The
jump after a conditional branch takes the second slot. -/
def exitSlot (ops : List IrEnt) : IrOp → Option Bool
  | .jmp _ => some (ops.any (·.op.mayLeave))
  | .bcond .. | .cbz .. | .tbz .. => some false
  | _ => none

def IrOp.target : IrOp → U64
  | .jmp t | .bcond _ t | .cbz _ _ _ t | .tbz _ _ _ t => t
  | _ => ~~~0

/-- `exit_pc`, as `be_emit_block` fills it. -/
def exitPcOf (ops : List IrEnt) (slot : Bool) : U64 :=
  match ops.find? (fun e => exitSlot ops e.op = some slot) with
  | some e => e.op.target
  | none => ~~~0

namespace JTable
variable (t : JTable)

def empty (t : JTable) : JTable := { t with hash := fun _ => [], pages := fun _ => [], nblocks := 0, nedges := 0 }

def jitLookup (tag : U64) (hostPage : HostPage) : Option ℕ :=
  (t.hash (hashTag tag)).find? fun i => (t.arena i).tag = tag ∧ (t.arena i).hostPage = hostPage

def modifyBlock (i : ℕ) (f : JBlock → JBlock) : JTable :=
  { t with arena := Function.update t.arena i (f (t.arena i)) }

/-- `be_patch_chain` and `be_unpatch_chain`: what the exit's jump goes to. -/
def setPatched (i : ℕ) (slot : Bool) (target : Option ℕ) : JTable :=
  t.modifyBlock i fun b => { b with patched := Function.update b.patched slot target }

def unpatchAll : List (ℕ × Bool) → JTable → JTable
  | [], t => t
  | (i, slot) :: edges, t =>
    unpatchAll edges (if ((t.arena i).patched slot).isSome then t.setPatched i slot none else t)

/-- Remove a block from the hash table, and every chained jump into it. -/
def jitUnlinkBlock (i : ℕ) : JTable :=
  let b := t.arena i
  let t := { t with hash := Function.update t.hash (hashTag b.tag) ((t.hash (hashTag b.tag)).erase i) }
  (unpatchAll b.inHead t).modifyBlock i fun b => { b with inHead := [] }

def addBlock (b : JCode) : JTable :=
  { t with
    arena := Function.update t.arena t.nblocks ⟨b, [], fun _ => none⟩
    nblocks := t.nblocks + 1
    hash := Function.update t.hash (hashTag b.tag) (t.nblocks :: t.hash (hashTag b.tag))
    pages := Function.update t.pages (pageSlot b.paPage) (t.nblocks :: t.pages (pageSlot b.paPage)) }

/-- Chain an exit to the block it leads to, if both lie in one page and one context and
the exit's block is still in the table. -/
def chain (prev : ℕ) (slot : Bool) (i : ℕ) : JTable :=
  let p := t.arena prev
  let b := t.arena i
  if p.exitPc slot = b.pc ∧ (p.patched slot).isNone ∧ (p.tag ^^^ b.tag) &&& 0x1f = 0 ∧
      (p.pc ^^^ b.pc) &&& ~~~0xfff = 0 ∧ t.jitLookup p.tag p.hostPage = some prev ∧
      t.nedges < 2 * jitMaxBlocks then
    let t := (t.setPatched prev slot (some i)).modifyBlock i fun b =>
      { b with inHead := (prev, slot) :: b.inHead }
    { t with nedges := t.nedges + 1 }
  else t

end JTable

namespace JCache
variable (jc : JCache)

def jcachePurge : JCache :=
  if jc.jcNdirty ≤ jitJcDirtyMax then
    ⟨fun i => if i ∈ jc.jcDirty then ⟨~~~0, (jc.jcache i).code⟩ else jc.jcache i, [], 0⟩
  else ⟨fun _ => jcEmpty, [], 0⟩

def fill (pc tag : U64) (i : ℕ) : JCache where
  jcache := Function.update jc.jcache (jcIdx pc) ⟨tag, i⟩
  jcDirty := if jc.jcNdirty < jitJcDirtyMax then jc.jcDirty ++ [jcIdx pc] else jc.jcDirty
  jcNdirty := if jc.jcNdirty ≤ jitJcDirtyMax then jc.jcNdirty + 1 else jc.jcNdirty

end JCache

/-- The cache in the arrays of `JitEnv`. An access outside of an array has no result. -/
structure JcArrays where
  jcache : ℕ → JcEnt
  jcDirty : ℕ → U16
  jcNdirty : U32

inductive JcOp
  | refill (pc tag : U64) (code : ℕ)
  | purge

namespace JcArrays

/-- What `jit_env_init` leaves. -/
def init : JcArrays := ⟨fun _ => jcEmpty, fun _ => 0, 0⟩

def setEnt (a : JcArrays) (k : ℕ) (e : JcEnt) : Option JcArrays :=
  if k < jitJcSize then some { a with jcache := Function.update a.jcache k e } else none

def setDirty (a : JcArrays) (i : ℕ) (k : U16) : Option JcArrays :=
  if i < jitJcDirtyMax then some { a with jcDirty := Function.update a.jcDirty i k } else none

/-- The loop of `jcache_purge` over the dirty list. -/
def purgeFrom : ℕ → ℕ → JcArrays → Option JcArrays
  | 0, _, a => some a
  | rounds + 1, i, a =>
    if i < jitJcDirtyMax then do
      let k := (a.jcDirty i).toNat
      purgeFrom rounds (i + 1) (← a.setEnt k ⟨~~~0, (a.jcache k).code⟩)
    else none

def jcachePurge (a : JcArrays) : Option JcArrays := do
  let a ← if a.jcNdirty.toNat ≤ jitJcDirtyMax then purgeFrom a.jcNdirty.toNat 0 a
    else some { a with jcache := fun _ => jcEmpty }
  return { a with jcNdirty := 0 }

/-- The refill of `jit_step`. -/
def refill (a : JcArrays) (pc tag : U64) (code : ℕ) : Option JcArrays := do
  let jci := (pc >>> 2).setWidth 32 &&& BitVec.ofNat 32 (jitJcSize - 1)
  let a ← a.setEnt jci.toNat ⟨tag, code⟩
  let a ← if a.jcNdirty.toNat < jitJcDirtyMax then a.setDirty a.jcNdirty.toNat (jci.setWidth 16) else some a
  return if a.jcNdirty.toNat ≤ jitJcDirtyMax then { a with jcNdirty := a.jcNdirty + 1 } else a

def step (a : JcArrays) : JcOp → Option JcArrays
  | .refill pc tag code => a.refill pc tag code
  | .purge => a.jcachePurge

end JcArrays

namespace JitEnv
variable (env : JitEnv)

def bitmapSet (paPage : U64) : JitEnv :=
  { env with bitmap := Function.update env.bitmap (pfnOf paPage) true }

def bitmapClear (paPage : U64) : JitEnv :=
  { env with bitmap := Function.update env.bitmap (pfnOf paPage) false }

def jcachePurge : JitEnv := { env with toJCache := env.toJCache.jcachePurge }

def jitFlushAll (H : JitHost) : JitEnv :=
  { env.jcachePurge with
    toJTable := env.toJTable.empty, ptr := H.blocksStart, flushCount := env.flushCount + 1 }

def thrashBump (paPage : U64) : JitEnv :=
  let t := env.thrash (thrashSlot paPage)
  let t := if t.1 ≠ paPage then (paPage, 1) else if t.2 < 0xffffff then (t.1, t.2 + 1) else t
  { env with thrash := Function.update env.thrash (thrashSlot paPage) t }

def thrashHot (paPage : U64) : Bool :=
  let t := env.thrash (thrashSlot paPage)
  t.1 = paPage ∧ jitThrashLimit ≤ t.2

def jitDropPage (paPage : U64) : JitEnv :=
  let chain := env.pages (pageSlot paPage)
  let dropped := chain.filter fun i => (env.arena i).paPage = paPage
  let kept := chain.filter fun i => (env.arena i).paPage ≠ paPage
  let t := { env.toJTable with pages := Function.update env.pages (pageSlot paPage) kept }
  let env := { env with toJTable := dropped.foldl JTable.jitUnlinkBlock t }
  if dropped ≠ [] then env.jcachePurge else env

/-- One page of `jit_invalidate_phys_range`: RAM pages are guarded by the bitmap. -/
def invalidatePage (isRam : Bool) (page : U64) : JitEnv :=
  if isRam && !env.bitmap (pfnOf page) then env
  else
    let env := (env.jitDropPage page).thrashBump page
    if isRam then env.bitmapClear page else env

def jitReset (H : JitHost) : JitEnv :=
  { env.jitFlushAll H with thrash := fun _ => (0, 0), bitmap := fun _ => false, pendingFlush := false }

end JitEnv

def emptyBlock : JBlock := ⟨⟨0, 0, .ram 0, 0, 0, [], fun _ => ~~~0⟩, [], fun _ => none⟩

/-- `jit_env_init`. -/
def jitEnvInit (H : JitHost) (tlbGen tlbiVaSeq : U32) : JitEnv where
  hash := fun _ => []
  pages := fun _ => []
  arena := fun _ => emptyBlock
  nblocks := 0
  nedges := 0
  jcache := fun _ => jcEmpty
  jcDirty := []
  jcNdirty := 0
  on := true
  interrupt := false
  ctx := 0
  jcGen := tlbGen
  jcVaSeq := tlbiVaSeq
  dtlbCtxgen := 0
  icountDeadline := 0
  ptr := H.blocksStart
  flushCount := 0
  pendingFlush := false
  thrash := fun _ => (0, 0)
  bitmap := fun _ => false

end Arm64Emu
