import Arm64Emu.DirectCache
import Arm64Emu.Frame
import Arm64Emu.PdBranch

/-! The predecoded tier's slice (`pd_step`): fetch, validate against the entry
cache, dispatch, until a rare event. The loop is compared with successive steps
of the reference interpreter. -/
namespace Arm64Emu

variable {D : Type}

/-- `g_pdcache`, indexed by `PD_BITS` bits of the word address. -/
abbrev PdCache := BitVec 14 → PdEnt

def pdSlot (pc : U64) : BitVec 14 := pc.extractLsb' 2 14

def pdCacheInit : PdCache := fun _ => ⟨0, .generic, 0, 0, 0, 0⟩

def PdReachable : PdCache → Prop := DirectCache.Reachable pdFillTier pdCacheInit

def pdLookup (cache : PdCache) (pc : U64) (insn : U32) : PdEnt × PdCache :=
  DirectCache.lookup PdEnt.insn pdFillTier cache (pdSlot pc) insn

section Slice
variable (P : Platform D) (handler : PdEnt → Machine D → Machine D)

/-- One instruction of the slice; `none` when the fetch raises an abort. -/
def pdInsn (s : Machine D) (cache : PdCache) : Option PdCache × Machine D :=
  let s := s.mapCpu Cpu.beginInsn
  match memIfetch P s s.cpu.pc with
  | (none, s) => (none, s)
  | (some insn, s) =>
    let s := s.mapCpu fun c => c.setPc (c.pc + 4)
    let (e, cache) := pdLookup cache s.cpu.curInsnPc insn
    let s := if e.op = .generic then execA64 P s insn else handler e s
    (some cache, s.mapCpu Cpu.retire)

/-- The slice with at most `fuel` instructions; `none` when it needs more. -/
def pdLoop (deadline : U64) : ℕ → Machine D → PdCache → Option (StepResult × Machine D × PdCache)
  | 0, _, _ => none
  | fuel + 1, s, cache =>
    match pdInsn P handler s cache with
    | (none, s) => some (.ok, s, cache)
    | (some cache, s) =>
      if s.cpu.stop then some (.halt, s, cache)
      else if s.cpu.halted then some (.ok, s, cache)
      else if deadline ≤ s.cpu.icount then some (.ok, s, cache)
      else if irqPending s || fiqPending s then some (.ok, s, cache)
      else pdLoop deadline fuel s cache

def pdDeadline (icount slice maxInsn : U64) : U64 :=
  let deadline := icount + slice
  if maxInsn ≠ 0 ∧ maxInsn < deadline then maxInsn else deadline

def pdStep (s : Machine D) (cache : PdCache) (slice maxInsn : U64) :
    Option (StepResult × Machine D × PdCache) :=
  if s.cpu.stop then some (.halt, s, cache)
  else if fiqPending s then some (.ok, s.mapCpu fun c => exceptionTake c .fiq 0 0 c.pc, cache)
  else if irqPending s then some (.ok, s.mapCpu fun c => exceptionTake c .irq 0 0 c.pc, cache)
  else if s.cpu.halted then some (.ok, s, cache)
  else pdLoop P handler (pdDeadline s.cpu.icount slice maxInsn) slice.toNat s cache

end Slice

lemma pdCacheInit_coherent : DirectCache.Coherent PdEnt.insn pdFillTier pdCacheInit := by
  intro i
  show (⟨0, .generic, 0, 0, 0, 0⟩ : PdEnt) = pdFillTier 0
  decide

lemma PdReachable.coherent {cache : PdCache} (h : PdReachable cache) :
    DirectCache.Coherent PdEnt.insn pdFillTier cache :=
  DirectCache.Reachable.coherent pdCacheInit_coherent pdFillTier_insn h

lemma pdLookup_entry {cache : PdCache} (h : PdReachable cache) (pc : U64) (insn : U32) :
    (pdLookup cache pc insn).1 = pdFillTier insn := DirectCache.lookup_entry h.coherent _ _

lemma pdLookup_reachable {cache : PdCache} (h : PdReachable cache) (pc : U64) (insn : U32) :
    PdReachable (pdLookup cache pc insn).2 := DirectCache.Reachable.lookup h _ _

/-- `k` successive interpreter steps: the last result and the state reached. -/
def cpuSteps (P : Platform D) : ℕ → Machine D → StepResult × Machine D
  | 0, s => (.ok, s)
  | k + 1, s => cpuStep P (cpuSteps P k s).2

lemma cpuSteps_one (P : Platform D) (s : Machine D) : cpuSteps P 1 s = cpuStep P s := rfl

lemma cpuSteps_succ (P : Platform D) {k : ℕ} (hk : 1 ≤ k) (s : Machine D) :
    cpuSteps P (k + 1) s = cpuSteps P k (cpuStep P s).2 := by
  induction k, hk using Nat.le_induction with
  | base => rfl
  | succ k _ ih => rw [cpuSteps, ih, cpuSteps]

structure Ready (s : Machine D) : Prop where
  stop : s.cpu.stop = false
  fiq : fiqPending s = false
  irq : irqPending s = false
  halted : s.cpu.halted = false

section Simulation
variable {P : Platform D} {handler : PdEnt → Machine D → Machine D} {s : Machine D} {cache : PdCache}

/-- The handlers do what the interpreter does on the words they are selected for. -/
def HandlersAgree (P : Platform D) (handler : PdEnt → Machine D → Machine D) : Prop :=
  ∀ insn (t : Machine D), (pdFillTier insn).op ≠ .generic → handler (pdFillTier insn) t = execA64 P t insn

lemma pdInsn_cpuStep (hh : HandlersAgree P handler) (hc : PdReachable cache) (hr : Ready s)
    {o : Option PdCache} {t : Machine D} (h : pdInsn P handler s cache = (o, t)) :
    cpuStep P s = (if o.isSome && t.cpu.stop then .halt else .ok, t) := by
  simp only [cpuStep, hr.stop, hr.fiq, hr.irq, hr.halted, Bool.false_eq_true, if_false]
  simp only [pdInsn] at h
  rcases hf : memIfetch P (s.mapCpu Cpu.beginInsn) (s.mapCpu Cpu.beginInsn).cpu.pc with ⟨_ | insn, u⟩
  · simp only [hf] at h ⊢
    cases h
    rfl
  · simp only [hf, pdLookup_entry hc] at h ⊢
    have hrun : (if (pdFillTier insn).op = .generic then execA64 P (u.mapCpu fun c => c.setPc (c.pc + 4)) insn
        else handler (pdFillTier insn) (u.mapCpu fun c => c.setPc (c.pc + 4))) =
        execA64 P (u.mapCpu fun c => c.setPc (c.pc + 4)) insn := by
      split
      · rfl
      · exact hh _ _ ‹_›
    rw [hrun] at h
    cases h
    rfl

lemma pdInsn_reachable (hc : PdReachable cache) {cache' : PdCache} {t : Machine D}
    (h : pdInsn P handler s cache = (some cache', t)) : PdReachable cache' := by
  simp only [pdInsn] at h
  split at h
  · cases h
  · cases h
    exact pdLookup_reachable hc _ _

lemma memIfetch_icount {o : Option U32} {t : Machine D} {va : U64}
    (h : memIfetch P s va = (o, t)) : t.cpu.icount = s.cpu.icount :=
  congrArg Held.icount (memIfetch_held P s h)

lemma pdInsn_icount (hfp : ∀ c insn, (P.execFpsimd c insn).book = c.book) (hh : HandlersAgree P handler)
    (hc : PdReachable cache) {o : Option PdCache} {t : Machine D}
    (h : pdInsn P handler s cache = (o, t)) :
    t.cpu.icount = if o.isSome then s.cpu.icount + 1 else s.cpu.icount := by
  simp only [pdInsn] at h
  split at h
  · cases h
    exact memIfetch_icount (s := s.mapCpu Cpu.beginInsn) ‹_›
  · rename_i insn u hfetch
    cases h
    have hu : u.cpu.icount = s.cpu.icount := memIfetch_icount (s := s.mapCpu Cpu.beginInsn) hfetch
    have hx := (execA64_keeps P hfp (u.mapCpu fun c => c.setPc (c.pc + 4)) insn).icount
    simp only [pdLookup_entry hc, Option.isSome_some, if_true, Machine.mapCpu_cpu]
    split
    · exact congrArg (· + 1) (hx.trans hu)
    · rw [hh _ _ ‹_›]
      exact congrArg (· + 1) (hx.trans hu)

/-- The slice from a ready state: it ends within `fuel` instructions, since the
counter meets the deadline by then, in the state of as many interpreter steps. -/
lemma pdLoop_cpuSteps (hfp : ∀ c insn, (P.execFpsimd c insn).book = c.book)
    (hh : HandlersAgree P handler) {deadline maxInsn : U64} (hmax : maxInsn ≠ 0 → deadline ≤ maxInsn)
    (fuel : ℕ) (hc : PdReachable cache) (hr : Ready s)
    (hd : ∃ j, 1 ≤ j ∧ j ≤ fuel ∧ deadline ≤ s.cpu.icount + BitVec.ofNat 64 j)
    (hlt : maxInsn ≠ 0 → s.cpu.icount < maxInsn) :
    ∃ k r t cache', 1 ≤ k ∧ pdLoop P handler deadline fuel s cache = some (r, t, cache') ∧
      PdReachable cache' ∧ cpuSteps P k s = (r, t) ∧
      (maxInsn ≠ 0 → ∀ j ≤ k, (cpuSteps P j s).2.cpu.icount ≤ maxInsn) := by
  induction fuel generalizing s cache with
  | zero =>
    obtain ⟨j, h1, h2, -⟩ := hd
    omega
  | succ fuel ih =>
    rcases hi : pdInsn P handler s cache with ⟨_ | cache', t⟩
    · -- the fetch raised an abort
      have hstep := pdInsn_cpuStep hh hc hr hi
      have hcount : t.cpu.icount = s.cpu.icount := pdInsn_icount hfp hh hc hi
      refine ⟨1, .ok, t, cache, le_refl 1, by simp only [pdLoop, hi], hc, hstep, fun hm j hj => ?_⟩
      have hle := BitVec.le_of_lt (hlt hm)
      interval_cases j
      · exact hle
      · rw [cpuSteps_one, hstep, hcount]
        exact hle
    · have hstep := pdInsn_cpuStep hh hc hr hi
      have hc' := pdInsn_reachable hc hi
      have hcount : t.cpu.icount = s.cpu.icount + 1 := pdInsn_icount hfp hh hc hi
      have hbound (hm : maxInsn ≠ 0) : t.cpu.icount ≤ maxInsn := by
        have h1 := hlt hm
        rw [hcount]
        bv_omega
      have hone (hm : maxInsn ≠ 0) (j : ℕ) (hj : j ≤ 1) : (cpuSteps P j s).2.cpu.icount ≤ maxInsn := by
        interval_cases j
        · exact BitVec.le_of_lt (hlt hm)
        · rw [cpuSteps_one, hstep]
          exact hbound hm
      simp only [pdLoop, hi]
      cases hstop : t.cpu.stop with
      | true => exact ⟨1, .halt, t, cache', le_refl 1, rfl, hc', by rw [cpuSteps_one, hstep, hstop]; rfl, hone⟩
      | false =>
        have hok : cpuStep P s = (.ok, t) := by rw [hstep, hstop]; rfl
        have hret : ∃ k r u cache'', 1 ≤ k ∧ some (StepResult.ok, t, cache') = some (r, u, cache'') ∧
            PdReachable cache'' ∧ cpuSteps P k s = (r, u) ∧
            (maxInsn ≠ 0 → ∀ j ≤ k, (cpuSteps P j s).2.cpu.icount ≤ maxInsn) :=
          ⟨1, .ok, t, cache', le_refl 1, rfl, hc', hok, hone⟩
        simp only [Bool.false_eq_true, if_false]
        split_ifs with hhalt hdead hirq
        · exact hret
        · exact hret
        · exact hret
        have hready : Ready t := by
          simp only [Bool.or_eq_true, not_or, Bool.not_eq_true] at hirq hhalt
          exact ⟨hstop, hirq.2, hirq.1, hhalt⟩
        have hd' : ∃ j, 1 ≤ j ∧ j ≤ fuel ∧ deadline ≤ t.cpu.icount + BitVec.ofNat 64 j := by
          obtain ⟨j, h1, h2, h3⟩ := hd
          rw [hcount] at hdead ⊢
          have hj : j ≠ 1 := by rintro rfl; exact hdead h3
          refine ⟨j - 1, by omega, by omega, ?_⟩
          rw [show s.cpu.icount + 1 + BitVec.ofNat 64 (j - 1) = s.cpu.icount + BitVec.ofNat 64 j by bv_omega]
          exact h3
        have hlt' (hm : maxInsn ≠ 0) : t.cpu.icount < maxInsn := by
          have := hmax hm
          bv_omega
        obtain ⟨k, r, u, cache'', hk, hloop, hcr, hrun, hmx⟩ := ih hc' hready hd' hlt'
        refine ⟨k + 1, r, u, cache'', by omega, hloop, hcr, ?_, fun hm j hj => ?_⟩
        · rw [cpuSteps_succ P hk, hok]
          exact hrun
        · by_cases h1 : j ≤ 1
          · exact hone hm j h1
          · obtain ⟨i, rfl⟩ : ∃ i, j = i + 1 := ⟨j - 1, by omega⟩
            rw [cpuSteps_succ P (by omega), hok]
            exact hmx hm i (by omega)

end Simulation

lemma pdDeadline_reached (icount slice maxInsn : U64) (hs : 1 ≤ slice)
    (hm : maxInsn = 0 ∨ icount < maxInsn) :
    ∃ j, 1 ≤ j ∧ j ≤ slice.toNat ∧ pdDeadline icount slice maxInsn ≤ icount + BitVec.ofNat 64 j := by
  by_cases h : maxInsn ≠ 0 ∧ maxInsn < icount + slice
  · have hlt := hm.resolve_left h.1
    refine ⟨(maxInsn - icount).toNat, by bv_omega, by bv_omega, ?_⟩
    rw [pdDeadline, if_pos h]
    bv_omega
  · refine ⟨slice.toNat, by bv_omega, le_refl _, ?_⟩
    rw [pdDeadline, if_neg h, BitVec.ofNat_toNat, BitVec.setWidth_eq]
    exact BitVec.le_refl _

lemma pdDeadline_le (icount slice maxInsn : U64) (h : maxInsn ≠ 0) :
    pdDeadline icount slice maxInsn ≤ maxInsn := by
  by_cases hd : maxInsn < icount + slice
  · rw [pdDeadline, if_pos ⟨h, hd⟩]
    exact BitVec.le_refl _
  · rw [pdDeadline, if_neg (fun hd' => hd hd'.2)]
    bv_omega

/-- A slice of the predecoded tier is a run of the interpreter, from any entry
cache that earlier slices can have left. -/
theorem pdStep_eq_cpuSteps (P : Platform D) (handler : PdEnt → Machine D → Machine D)
    (hfp : ∀ c insn, (P.execFpsimd c insn).book = c.book) (hh : HandlersAgree P handler)
    (s : Machine D) (cache : PdCache) (hc : PdReachable cache) (slice maxInsn : U64) (hs : 1 ≤ slice)
    (hm : maxInsn = 0 ∨ s.cpu.icount < maxInsn) :
    ∃ k r t cache', 1 ≤ k ∧ pdStep P handler s cache slice maxInsn = some (r, t, cache') ∧
      PdReachable cache' ∧ cpuSteps P k s = (r, t) ∧
      (maxInsn ≠ 0 → ∀ j ≤ k, (cpuSteps P j s).2.cpu.icount ≤ maxInsn) := by
  have hlt (h0 : maxInsn ≠ 0) : s.cpu.icount < maxInsn := hm.resolve_left h0
  -- an event that is served before the first fetch is served by one interpreter step
  have hevent (r : StepResult) (t : Machine D) (hstep : cpuStep P s = (r, t))
      (hcount : t.cpu.icount = s.cpu.icount) :
      ∃ k r' t' cache', 1 ≤ k ∧ some (r, t, cache) = some (r', t', cache') ∧ PdReachable cache' ∧
        cpuSteps P k s = (r', t') ∧
        (maxInsn ≠ 0 → ∀ j ≤ k, (cpuSteps P j s).2.cpu.icount ≤ maxInsn) := by
    refine ⟨1, r, t, cache, le_refl 1, rfl, hc, hstep, fun h0 j hj => ?_⟩
    have hle := BitVec.le_of_lt (hlt h0)
    interval_cases j
    · exact hle
    · rw [cpuSteps_one, hstep, hcount]
      exact hle
  unfold pdStep
  split_ifs with hstop hfiq hirq hhalt
  · exact hevent _ _ (by rw [cpuStep, if_pos hstop]) rfl
  · exact hevent _ _ (by rw [cpuStep, if_neg hstop, if_pos hfiq]) rfl
  · exact hevent _ _ (by rw [cpuStep, if_neg hstop, if_neg hfiq, if_pos hirq]) rfl
  · exact hevent _ _ (by rw [cpuStep, if_neg hstop, if_neg hfiq, if_neg hirq, if_pos hhalt]) rfl
  · simp only [Bool.not_eq_true] at hstop hfiq hirq hhalt
    exact pdLoop_cpuSteps hfp hh (pdDeadline_le _ _ _) _ hc ⟨hstop, hfiq, hirq, hhalt⟩
      (pdDeadline_reached _ _ _ hs hm) hlt

/-- The tier with its own handlers on the groups that touch only the processor. -/
def bareHandler (e : PdEnt) (s : Machine Unit) : Machine Unit :=
  if isDpOrBranch e.insn ∧ ¬(bits e.insn 31 24 = 0xd5 ∧ isHint e.insn = true) then
    pdHandler (.bare 0x1000) e s
  else execA64 (.bare 0x1000) s e.insn

theorem pdStep_eq_cpuSteps_bare :
    ∃ k r t cache', 1 ≤ k ∧
      pdStep (.bare 0x1000) bareHandler (.bare 0x40000000 1) pdCacheInit 16 5 = some (r, t, cache') ∧
      PdReachable cache' ∧ cpuSteps (.bare 0x1000) k (.bare 0x40000000 1) = (r, t) ∧
      ((5 : U64) ≠ 0 → ∀ j ≤ k,
        (cpuSteps (.bare 0x1000) j (.bare 0x40000000 1)).2.cpu.icount ≤ 5) := by
  refine pdStep_eq_cpuSteps (.bare 0x1000) bareHandler (fun _ _ => rfl) ?_ (.bare 0x40000000 1)
    pdCacheInit .init 16 5 (by decide) (.inr (by decide))
  intro insn t _
  unfold bareHandler
  rw [pdFillTier_insn]
  split
  · rename_i h
    exact (agrees_dpOrBranch _ h.1 h.2).handler_eq t
  · rfl

end Arm64Emu
