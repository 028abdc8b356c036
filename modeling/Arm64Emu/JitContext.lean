import Arm64Emu.JitReach

/-! The context of translated code. A block is compiled for an exception level, an MMU
enable, a stack pointer and an FP trap state; the dispatcher compares them, but generated
code goes from block to block without looking again. -/
namespace Arm64Emu

variable {D : Type}

/-- The block is entered in the context that it was translated for, with the dispatcher's
notes up to date. -/
structure Fresh (m : JitMachine D) (i : ℕ) : Prop extends Noted m where
  tag : (m.env.arena i).tag &&& 0x1f = jitCtx m.cpu

def JitPhase.Fresh : JitPhase D → Prop
  | .enter l i => Arm64Emu.Fresh l.m i
  | _ => True

lemma tlbFlushAll_tlbGen_ne {E : Type} (b : Bus E) : (tlbFlushAll b).tlbGen ≠ b.tlbGen := by
  have hgen : (tlbFlushAll b).tlbGen = if b.tlbGen + 1 = 0 then 1 else b.tlbGen + 1 := by
    unfold tlbFlushAll clearFetch
    dsimp only
    split_ifs with h10 h0 h0
    · rfl
    · rfl
    · exact absurd (by rw [h0]; rfl) h10
    · rfl
  rw [hgen]
  split_ifs <;> bv_omega

lemma tlbFlushPage_counters_ne {E : Type} (b : Bus E) (va : U64) :
    (tlbFlushPage b va).tlbGen ≠ b.tlbGen ∨ (tlbFlushPage b va).tlbiVaSeq ≠ b.tlbiVaSeq := by
  unfold tlbFlushPage
  split
  · exact .inl (tlbFlushAll_tlbGen_ne b)
  · right
    dsimp only
    bv_omega

section Steps
variable (P : Platform (Jitted D)) (F : FpJit) (H : JitHost)

/-- A move that does not carry an old context into a block: the dispatcher enters a block
only at a pc whose low bits stay clear of the context's, and generated code goes on to
another block only if what it ran has changed neither the context nor the TLB, and the
block it goes to has the same context bits. -/
def KeepsContext : JitPhase D → Prop
  | .head l => ∀ l' i, jitHead P F H l = .enter l' i →
      jitTag l.m.cpu.pc (jitCtx l.m.cpu) &&& 0x1f = jitCtx l.m.cpu
  | .enter l i => ∀ j m, runBlock P F l.m i = (.chained j, m) →
      jitCtx m.cpu = jitCtx l.m.cpu ∧ m.bus.tlbGen = l.m.bus.tlbGen ∧ m.bus.tlbiVaSeq = l.m.bus.tlbiVaSeq ∧
        ((l.m.env.arena i).tag ^^^ (m.env.arena j).tag) &&& 0x1f = 0
  | _ => True

end Steps

lemma xor_and_eq_zero {a b mask : U64} : (a ^^^ b) &&& mask = 0 ↔ a &&& mask = b &&& mask := by
  have h : (a ^^^ b) &&& mask = (a &&& mask) ^^^ (b &&& mask) := by
    apply BitVec.eq_of_getLsbD_eq
    intro i _
    simp only [BitVec.getLsbD_and, BitVec.getLsbD_xor]
    cases mask.getLsbD i <;> simp
  rw [h]
  exact BitVec.xor_eq_zero_iff

section Fresh
variable {P : Platform (Jitted D)} {F : FpJit} {H : JitHost} (hP : P.Tame) {p : JitPhase D}

lemma Entered.fresh_iff {l l' : JitLoop D} {hp : HostPage} {i : ℕ} (h : Entered l l' hp i) :
    Fresh l'.m i ↔ jitTag l.m.cpu.pc (jitCtx l.m.cpu) &&& 0x1f = jitCtx l.m.cpu := by
  have hcpu : l'.m.cpu.pc = l.m.cpu.pc ∧ jitCtx l'.m.cpu = jitCtx l.m.cpu := by
    obtain hc | hc := h.cpu
    · rw [hc]
      exact ⟨rfl, rfl⟩
    · rw [hc]
      exact ⟨rfl, rfl⟩
  constructor
  · intro hf
    have ht := hf.tag
    rw [h.tag, hcpu.1, hcpu.2] at ht
    exact ht
  · intro ht
    refine ⟨h.noted, ?_⟩
    rw [h.tag, hcpu.1, hcpu.2]
    exact ht

include hP in
lemma Ran.fresh_iff {m m' : JitMachine D} {i j : ℕ} (hran : Ran P.jit F m i (.chained j, m'))
    (hf : Fresh m i) : Fresh m' j ↔ jitCtx m'.cpu = jitCtx m.cpu ∧ m'.bus.tlbGen = m.bus.tlbGen ∧
      m'.bus.tlbiVaSeq = m.bus.tlbiVaSeq ∧ ((m.env.arena i).tag ^^^ (m'.env.arena j).tag) &&& 0x1f = 0 := by
  have hnotes := (deeds_env hP (hran.deeds hP)).notes
  have hctx : m'.env.ctx = m.env.ctx := congrArg Notes.ctx hnotes
  have hgen : m'.env.dtlbCtxgen = m.env.dtlbCtxgen := congrArg Notes.dtlbCtxgen hnotes
  have hjc : m'.env.jcGen = m.env.jcGen := congrArg Notes.jcGen hnotes
  have hva : m'.env.jcVaSeq = m.env.jcVaSeq := congrArg Notes.jcVaSeq hnotes
  rw [xor_and_eq_zero, hf.tag]
  constructor
  · intro h
    have hsame : jitCtx m'.cpu = jitCtx m.cpu := by rw [← h.ctx, hctx, hf.ctx]
    refine ⟨hsame, ?_, ?_, ?_⟩
    · rw [← h.jcGen, hjc, hf.jcGen]
    · rw [← h.jcVaSeq, hva, hf.jcVaSeq]
    · rw [h.tag, hsame]
  · rintro ⟨hsame, htlb, htlbi, htag⟩
    refine ⟨⟨?_, ?_, ?_, ?_⟩, ?_⟩
    · rw [hctx, hf.ctx, hsame]
    · rw [hgen, hf.dtlbCtxgen, htlb, hsame]
    · rw [hjc, hf.jcGen, htlb]
    · rw [hva, hf.jcVaSeq, htlbi]
    · rw [← htag, hsame]

include hP in
lemma fresh_jitMove (hs : Sound P p) (hf : p.Fresh) : (jitMove P.jit F H p).Fresh ↔ KeepsContext P.jit F H p := by
  cases p with
  | head l =>
    have hh := headed_jitHead (F := F) (H := H) (C := fun _ _ _ _ => True) hP hs.fetch
      fun _ _ _ _ _ _ _ _ _ _ _ _ _ => trivial
    rw [KeepsContext, jitMove]
    generalize jitHead P.jit F H l = p at hh
    cases hh with
    | done r hc => exact iff_of_true trivial fun _ _ h => by cases h
    | head hc => exact iff_of_true trivial fun _ _ h => by cases h
    | interp page hc => exact iff_of_true trivial fun _ _ h => by cases h
    | @enter l' hp i hc he =>
      exact he.fresh_iff.trans ⟨fun h _ _ _ => h, fun h => h l' i rfl⟩
  | interp l page =>
    refine iff_of_true ?_ trivial
    rw [jitMove, jitInterp]
    split
    · trivial
    · trivial
  | enter l i =>
    have hran := ran_runBlock (P := P.jit) (F := F) l.m i
    rw [KeepsContext, jitMove, jitEnter]
    generalize runBlock P.jit F l.m i = r at hran
    obtain ⟨j | eid, m⟩ := r
    · refine (hran.fresh_iff hP hf).trans ⟨?_, fun h => h j m rfl⟩
      rintro h j' m' ⟨⟩
      exact h
    · exact iff_of_true trivial fun _ _ h => by cases h
  | done r m => exact iff_of_true trivial trivial

end Fresh

section CpacrProgram

/-- `msr cpacr_el1, x0; eor x0, x0, #0x300000; b .-8`, which traps and untraps FP in turn. -/
def cpacrLoop : List (ℕ × List U32) := [(0, [0xd5181040, 0xd26c0400, 0x17fffffe])]

def cpacrStart : Cpu := { cpuReset 0x40000000 1 with x := fun i => if i = 0 then 0x300000 else 0 }

/-- The key of the pc at the head of the loop has the context's low bits. -/
def keyAligned : JitPhase Unit → Bool
  | .head l => jitTag l.m.cpu.pc (jitCtx l.m.cpu) &&& 0x1f = jitCtx l.m.cpu
  | _ => false

def staleContext : JitPhase Unit → Bool
  | .enter l _ => l.m.env.ctx ≠ jitCtx l.m.cpu
  | _ => false

end CpacrProgram

end Arm64Emu
