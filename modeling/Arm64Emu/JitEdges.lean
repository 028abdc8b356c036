import Arm64Emu.JitReach

/-! Chained exits. The dispatcher patches the exit of a block to jump to its successor
when both have the same context and lie on the same virtual page; it does not compare the
pages of host memory that they were translated from. -/
namespace Arm64Emu

variable {D : Type}

namespace JTable
variable {t : JTable}

/-- A chained exit of block `i` leads to a block that a lookup of its own key finds, at
the exit's pc, in the same context, and on the same virtual page and host page. -/
structure GoodEdge (t : JTable) (i : ℕ) (slot : Bool) (j : ℕ) : Prop where
  lookup : t.jitLookup (t.arena j).tag (t.arena j).hostPage = some j
  pc : (t.arena j).pc = (t.arena i).exitPc slot
  ctx : ((t.arena i).tag ^^^ (t.arena j).tag) &&& 0x1f = 0
  page : ((t.arena i).pc ^^^ (t.arena j).pc) &&& ~~~0xfff = 0
  hostPage : (t.arena i).hostPage = (t.arena j).hostPage

def OnePage (t : JTable) : Prop :=
  ∀ i slot j, i < t.nblocks → (t.arena i).patched slot = some j → (t.arena i).hostPage = (t.arena j).hostPage

lemma Chains.goodEdge (h : t.Chains) (hp : t.OnePage) {i j : ℕ} {slot : Bool} (hi : i < t.nblocks)
    (hs : (t.arena i).patched slot = some j) : t.GoodEdge i slot j := by
  have he := h.edge hi hs
  exact ⟨h.lookup_self he.live, he.pc, he.ctx, he.page, hp i slot j hi hs⟩

lemma Chains.unlinked (h : t.Chains) (b : ℕ) {i : ℕ} {slot : Bool} (hi : i < t.nblocks) :
    ((t.jitUnlinkBlock b).arena i).patched slot ≠ some b := by
  rw [jitUnlinkBlock_eq h.nodup fun hv hb => (h.hash hb).2]
  intro hs
  simp only [without, List.mem_singleton, exists_eq_left] at hs
  split at hs
  · cases hs
  · exact absurd (h.edge hi hs).mem ‹_›

lemma OnePage.without (h : t.OnePage) (l : List ℕ) : (t.dropBlocks l).OnePage := by
  intro i slot j hi hs
  simp only [dropBlocks, JTable.without] at hs
  split at hs
  · cases hs
  · exact h i slot j hi hs

lemma OnePage.addBlock (h : t.OnePage) (ht : t.Chains) (b : JCode) : (t.addBlock b).OnePage := by
  intro i slot j hi hs
  obtain rfl | hlt := Nat.eq_or_lt_of_le (Nat.le_of_lt_succ hi)
  · rw [addBlock_arena_self] at hs
    cases hs
  · rw [addBlock_arena hlt.ne] at hs ⊢
    rw [addBlock_arena (ht.live_lt (ht.edge hlt hs).live).ne]
    exact h i slot j hlt hs

def SameHost (t : JTable) (prev : ℕ) (slot : Bool) (i : ℕ) : Prop :=
  ((t.arena prev).pc ^^^ (t.arena prev).exitPc slot) &&& ~~~0xfff = 0 → (t.arena prev).hostPage = (t.arena i).hostPage

lemma OnePage.chain (h : t.OnePage) {prev i : ℕ} {slot : Bool} (hc : t.SameHost prev slot i) :
    (t.chain prev slot i).OnePage := by
  obtain heq | ⟨hpc, -, hpage, -, -, heq⟩ := chain_eq t prev slot i
  · rw [heq]
    exact h
  · rw [heq]
    intro k slot' j hk hs
    dsimp only at hs ⊢
    split_ifs at hs with hk'
    · obtain ⟨rfl, rfl⟩ := hk'
      obtain rfl := Option.some.inj hs
      exact hc (by rw [hpc]; exact hpage)
    · exact h k slot' j hk hs

end JTable

namespace JitEnv
variable {env : JitEnv}

lemma Tables.dropped (h : env.Tables) (pa : U64) {i j : ℕ} {slot : Bool} (hi : i < env.nblocks)
    (hs : ((env.jitDropPage pa).arena i).patched slot = some j) : (env.arena j).paPage ≠ pa := by
  have hlive : (env.jitDropPage pa).Live j := by
    refine ((h.jitDropPage pa).edge ?_ hs).live
    rw [(shrinks_jitDropPage h.toChains pa).nblocks]
    exact hi
  rintro rfl
  have hlive' := (shrinks_jitDropPage h.toChains _).live hlive
  rw [jitDropPage_eq h.toChains] at hlive
  have hmem : j ∈ env.onPage (env.arena j).paPage := List.mem_filter.mpr ⟨h.live hlive', decide_eq_true rfl⟩
  rw [if_pos (List.ne_nil_of_mem hmem)] at hlive
  exact (JTable.live_dropBlocks.mp hlive).2 hmem

lemma onePage_jitDropPage (ht : env.Tables) (h : env.OnePage) (pa : U64) : (env.jitDropPage pa).OnePage := by
  rw [jitDropPage_eq ht.toChains]
  split
  · exact h.without _
  · exact h

lemma onePage_invalidatePage (ht : env.Tables) (h : env.OnePage) (isRam : Bool) (page : U64) :
    (env.invalidatePage isRam page).OnePage := by
  have hd := onePage_jitDropPage ht h page
  unfold JitEnv.invalidatePage
  dsimp only
  split_ifs
  · exact h
  · exact hd
  · exact hd

end JitEnv

lemma Invals.onePage {isRam : U64 → Bool} {env env' : JitEnv} (h : Invals isRam env env') (ht : env.Tables)
    (hp : env.OnePage) : env'.OnePage := by
  have hI : env'.Tables ∧ env'.OnePage := by
    refine h.invariant (I := fun e => e.Tables ∧ e.OnePage) (fun e a he => ?_) ⟨ht, hp⟩
    exact ⟨he.1.invalidatePage _ _, JitEnv.onePage_invalidatePage he.1 he.2 _ _⟩
  exact hI.2

section Run
variable (P : Platform (Jitted D)) (F : FpJit) (H : JitHost)

/-- The dispatcher does not chain across a change of the mapping: where an exit to its own
virtual page waits to be chained, that page still resolves to the block's host page. -/
def SamePage : JitPhase D → Prop
  | .head l => ∀ prev slot hp pa m, (l.sync H).prev = some (prev, slot) →
      resolveCodePage P (l.sync H).m (l.sync H).m.cpu.pc = (.host hp pa, m) →
      ((m.env.arena prev).pc ^^^ (m.env.arena prev).exitPc slot) &&& ~~~0xfff = 0 →
      (m.env.arena prev).hostPage = hp
  | _ => True

end Run

section Invariant
variable {P : Platform (Jitted D)} {F : FpJit} {H : JitHost} {p : JitPhase D}

lemma SamePage.headChains {l : JitLoop D} (h : SamePage P H (.head l)) : HeadChains P H JTable.SameHost l := by
  intro hp pa m hr prev slot i t hprev hi htag hhost hcode hpage
  rw [hhost]
  by_cases hne : prev = i
  · rw [hne]
    exact hhost
  · rw [hcode hne] at hpage ⊢
    exact h prev slot hp pa m hprev hr hpage

variable (hP : P.Tame)
include hP

lemma JitChange.onePage {m m' : JitMachine D} (hc : JitChange P.jit F H JTable.SameHost m m') (ht : m.env.Tables)
    (h : m.env.OnePage) : m'.env.OnePage := by
  cases hc with
  | deeds hd => exact (deeds_env hP hd).onePage ht h
  | @note env he =>
    change env.toJTable.OnePage
    rw [he]
    exact h
  | purge => exact h
  | flush => exact fun i slot j hi => absurd hi (Nat.not_lt_zero i)
  | @add b hl hb =>
    rw [(markCodePage_table (P := P.jit) (m.addBlock b) b.hostPage b.paPage).1]
    exact h.addBlock ht.toChains b
  | chain hi hsame => exact h.chain hsame
  | fill => exact h

lemma JitReach.onePage (h : JitReach P F H (SamePage P.jit H) p) : p.machine.env.OnePage := by
  refine h.machine_invariant hP (C := JTable.SameHost) (I := fun m => m.env.OnePage) (fun l hl => hl.headChains)
    (fun m hm => ?_) (fun m m' hc ht _ hm => hc.onePage hP ht hm) (fun m b hb ht hm => hb.2.onePage ht hm)
    fun m _ _ i slot j hi => absurd hi (Nat.not_lt_zero i)
  rw [hm]
  exact fun i slot j hi => absurd hi (Nat.not_lt_zero i)

/-- Chained exits: in a run that does not chain across a change of the mapping every one
is good. In any run an unlink, a drop of a page and a flush leave no exit to what they
remove, and the index of edges is bounded. -/
theorem chained_exits_good :
    (∀ p, JitReach P F H (SamePage P.jit H) p → ∀ i slot j, i < p.machine.env.nblocks →
      (p.machine.env.arena i).patched slot = some j → p.machine.env.GoodEdge i slot j) ∧
    ∀ p, JitReach P F H (fun _ => True) p →
      (∀ b i slot, i < p.machine.env.nblocks → ((p.machine.env.jitUnlinkBlock b).arena i).patched slot ≠ some b) ∧
      (∀ pa i slot j, i < p.machine.env.nblocks →
        ((p.machine.env.jitDropPage pa).arena i).patched slot = some j → (p.machine.env.arena j).paPage ≠ pa) ∧
      (∀ i, ¬ (p.machine.env.jitFlushAll H).Live i ∧ ¬ i < (p.machine.env.jitFlushAll H).nblocks) ∧
      p.machine.env.nedges ≤ 2 * jitMaxBlocks ∧
      ∀ prev slot i, p.machine.env.nedges < (p.machine.env.toJTable.chain prev slot i).nedges →
        p.machine.env.nedges < 2 * jitMaxBlocks := by
  refine ⟨fun p h i slot j hi hs => (h.sound hP).tables.goodEdge (h.onePage hP) hi hs, fun p h => ?_⟩
  have ht := (h.sound hP).tables
  refine ⟨fun b i slot hi => ht.unlinked b hi, fun pa i slot j hi hs => ht.dropped pa hi hs,
    fun i => ⟨List.not_mem_nil, Nat.not_lt_zero i⟩, ht.nedges, fun prev slot i hlt => ?_⟩
  obtain heq | ⟨-, -, -, -, hn, -⟩ := JTable.chain_eq p.machine.env.toJTable prev slot i
  · rw [heq] at hlt
    exact absurd hlt (lt_irrefl _)
  · exact hn

end Invariant

section Programs

/-- `b .`, which is chained to itself. -/
def selfLoop : List (ℕ × List U32) := [(0, [0x14000000])]

def keepsPage : JitPhase Unit → Bool
  | .head l =>
    match (l.sync .plain).prev, resolveCodePage (Platform.bareJit 0x400000).jit (l.sync .plain).m (l.sync .plain).m.cpu.pc with
    | some (prev, _), (.host hp _, m) => (m.env.arena prev).hostPage = hp
    | _, _ => true
  | _ => true

lemma samePage_of_keepsPage {p : JitPhase Unit} (h : keepsPage p = true) :
    SamePage (Platform.bareJit 0x400000).jit .plain p := by
  cases p with
  | head l =>
    intro prev slot hp pa m hprev hr _
    rw [keepsPage, hprev, hr] at h
    exact of_decide_eq_true h
  | interp l page => trivial
  | enter l i => trivial
  | done r m => trivial

theorem chained_exits_good_selfLoop :
    JitReach (.bareJit 0x400000) .none .plain (SamePage (Platform.bareJit 0x400000).jit .plain)
      (bareRun (cpuReset 0x40000000 1) selfLoop 3) ∧
    (bareRun (cpuReset 0x40000000 1) selfLoop 3).machine.env.GoodEdge 0 false 0 := by
  have hreach : JitReach (.bareJit 0x400000) .none .plain (SamePage (Platform.bareJit 0x400000).jit .plain)
      (bareRun (cpuReset 0x40000000 1) selfLoop 3) := by
    refine reach_bareRun _ _ 3 fun j hj => samePage_of_keepsPage ?_
    have hall : ∀ j < 3, keepsPage (bareRun (cpuReset 0x40000000 1) selfLoop j) = true := by decide +kernel
    exact hall j hj
  exact ⟨hreach, (chained_exits_good (Platform.tame_bareJit _)).1 _ hreach 0 false 0 (by decide +kernel) (by decide +kernel)⟩

/-- `msr ttbr0_el1, x0` on a page that the new table maps elsewhere. The two level-2
tables map the first 2 MiB as a block each; the successor is a `b .` in the second. -/
def remapCode : List (ℕ × List U32) :=
  [(0, [0xd5182000]), (0x1000, [0x40000401]), (0x2000, [0x40200401]), (0x200004, [0x14000000])]

def remapStart : Cpu :=
  { cpuReset 0 1 with
    x := fun i => if i = 0 then 0x40002000 else 0
    sctlr := fun _ => 1
    tcr := fun _ => 39
    ttbr0 := fun _ => 0x40001000 }

/-- The exit of the `msr` is chained to a block that was translated from another page. -/
theorem exit_chained_across_pages : ∃ p, JitReach (.bareJit 0x400000) .none .plain (fun _ => True) p ∧
    0 < p.machine.env.nblocks ∧ (p.machine.env.arena 0).patched false = some 1 ∧
    (p.machine.env.arena 0).hostPage ≠ (p.machine.env.arena 1).hostPage :=
  ⟨bareRun remapStart remapCode 3, reachable_bareRun _ _ 3, by decide +kernel, by decide +kernel, by decide +kernel⟩

end Programs

end Arm64Emu
