import Arm64Emu.GicRuns

/-! Acknowledging interrupts. The tables of the controller are the arrays of one structure,
one behind the other, so that an index past the end of one reaches the next: they are
modelled here as one row of cells. -/
namespace Arm64Emu

structure GicMem where
  dCtlr : U32
  cCtlr : U32
  pmr : U8
  cells : ℕ → U8
  irqLine : Bool

namespace GicMem

/-- The tables, each as the code indexes it from its first cell on. -/
def view (m : GicMem) : Gic where
  dCtlr := m.dCtlr
  cCtlr := m.cCtlr
  pmr := m.pmr
  enabled := fun k => decide (m.cells k ≠ 0)
  pending := fun k => decide (m.cells (256 + k) ≠ 0)
  active := fun k => decide (m.cells (512 + k) ≠ 0)
  line := fun k => decide (m.cells (768 + k) ≠ 0)
  cfgEdge := fun k => decide (m.cells (1024 + k) ≠ 0)
  priority := fun k => m.cells (1280 + k)
  target := fun k => m.cells (1536 + k)

def initial : GicMem := ⟨0, 0, 0, fun _ => 0, false⟩

def boolCell (x : Bool) : U8 := if x then 1 else 0

def update (m : GicMem) : GicMem := { m with irqLine := decide (gicBest m.view ≠ spurious) }

def setCell (m : GicMem) (j : ℕ) (x : Bool) : GicMem := { m with cells := Function.update m.cells j (boolCell x) }

/-- The cells from `first` on whose bit in the value is set become `x`. -/
def mark (m : GicMem) (first : ℕ) (val : U64) (x : Bool) : GicMem :=
  { m with cells := fun j =>
      if first ≤ j ∧ j < first + 32 ∧ val.getLsbD (j - first) then boolCell x else m.cells j }

def distWrite (m : GicMem) (size : ℕ) (val : U64) : DistReg → GicMem
  | .ctlr => { m with dCtlr := val.setWidth 32 }.update
  | .enable x base => (m.mark base val x).update
  | .pend x base => (m.mark (256 + base) val x).update
  | .activate true base => m.mark (512 + base) val true
  | .activate false base => (m.mark (512 + base) val false).update
  | .priority base => { m with cells := stLe m.cells (1280 + base) size val }.update
  | .target base =>
    -- the banked interrupts 0 to 31 are read-only
    { m with cells := fun j => if j < 1536 + 32 then m.cells j else stLe m.cells (1536 + base) size val j }
  | .config base =>
    { m with cells := fun j =>
        if 1024 + base ≤ j ∧ j < 1024 + base + 16 then boolCell (val.getLsbD (2 * (j - (1024 + base)) + 1))
        else m.cells j }
  | .other => m

def acknowledge (m : GicMem) : GicMem :=
  let best := gicBest m.view
  if best = spurious then m
  else
    let m' := m.setCell (512 + best) true
    (if m.view.cfgEdge best then m'.setCell (256 + best) false else m').update

def endInterrupt (m : GicMem) (id : ℕ) : GicMem :=
  (if id < gicNumIrqs then m.setCell (512 + id) false else m).update

def setIrq (m : GicMem) (intid : ℕ) (level : Bool) : GicMem :=
  if gicNumIrqs ≤ intid then m
  else
    let pend := m.view.pendAfter intid level
    let m' := m.setCell (768 + intid) level
    if pend = m.view.pending intid then m' else (m'.setCell (256 + intid) pend).update

def step (m : GicMem) : GicOp → GicMem
  | .distRead _ _ => m
  | .distWrite off size val => m.distWrite size val (distReg off.toNat)
  | .cpuRead off _ => if off.toNat = 0x0c then m.acknowledge else m
  | .cpuWrite off _ val =>
    if off.toNat = 0x00 then { m with cCtlr := val.setWidth 32 }.update
    else if off.toNat = 0x04 then { m with pmr := val.setWidth 8 }.update
    else if off.toNat = 0x10 ∨ off.toNat = 0x1000 then m.endInterrupt (val &&& 0x3ff).toNat
    else m
  | .setIrq intid level => m.setIrq intid level

def iar (m : GicMem) : U64 := zext (gicBest m.view)

def run (m : GicMem) (ops : List GicOp) : GicMem := ops.foldl step m

end GicMem

section Best
variable {g : Gic}

/-- The scan over the first `n` interrupts keeps the best of them: the lowest priority value,
and the lowest number among equals. -/
def Leads (g : Gic) (n : ℕ) (best : ℕ × ℕ) : Prop :=
  best = (spurious, 256) ∧ (∀ j < n, g.eligible j = false) ∨
    best.1 < n ∧ g.eligible best.1 = true ∧ best.2 = (g.priority best.1).toNat ∧
      ∀ j < n, g.eligible j = true → best.2 < (g.priority j).toNat ∨ best.2 = (g.priority j).toNat ∧ best.1 ≤ j

lemma leads_range (n : ℕ) : Leads g n ((List.range n).foldl (gicPick g) (spurious, 256)) := by
  induction n with
  | zero => exact .inl ⟨rfl, fun _ h => absurd h (Nat.not_lt_zero _)⟩
  | succ n ih =>
    rw [List.range_succ, List.foldl_append, List.foldl_cons, List.foldl_nil]
    generalize (List.range n).foldl (gicPick g) (spurious, 256) = best at ih
    have hbelow : ∀ j < n + 1, j < n ∨ j = n := fun j hj => by omega
    cases hn : g.eligible n with
    | false =>
      rw [gicPick_of_not_eligible hn]
      rcases ih with ⟨hbest, hnone⟩ | ⟨hlt, helig, hpri, hmin⟩
      · refine .inl ⟨hbest, fun j hj => ?_⟩
        rcases hbelow j hj with hj | rfl
        · exact hnone j hj
        · exact hn
      · refine .inr ⟨by omega, helig, hpri, fun j hj hj' => ?_⟩
        rcases hbelow j hj with hj | rfl
        · exact hmin j hj hj'
        · rw [hn] at hj'
          cases hj'
    | true =>
      rw [gicPick_of_eligible hn]
      have hpriority := (g.priority n).isLt
      split
      · rename_i hbetter
        refine .inr ⟨Nat.lt_succ_self n, hn, rfl, fun j hj hj' => ?_⟩
        rcases hbelow j hj with hj | rfl
        · rcases ih with ⟨-, hnone⟩ | ⟨-, -, -, hmin⟩
          · rw [hnone j hj] at hj'
            cases hj'
          · have := hmin j hj hj'
            dsimp only at hbetter ⊢
            omega
        · exact .inr ⟨rfl, Nat.le_refl _⟩
      · rename_i hworse
        rcases ih with ⟨rfl, -⟩ | ⟨hlt, helig, hpri, hmin⟩
        · exact absurd hpriority hworse
        · refine .inr ⟨by omega, helig, hpri, fun j hj hj' => ?_⟩
          rcases hbelow j hj with hj | rfl
          · exact hmin j hj hj'
          · omega

lemma gicBest_min (h : gicBest g ≠ spurious) {j : ℕ} (hj : j < gicNumIrqs) (helig : g.eligible j = true) :
    g.priority (gicBest g) < g.priority j ∨ g.priority (gicBest g) = g.priority j ∧ gicBest g ≤ j := by
  have hleads := leads_range (g := g) gicNumIrqs
  rw [gicBest_eq] at h ⊢
  split at h
  · rename_i hon
    rw [if_pos hon]
    rcases hleads with ⟨hnone, -⟩ | ⟨-, -, hpri, hmin⟩
    · rw [hnone] at h
      exact absurd rfl h
    · rw [← BitVec.toNat_inj, BitVec.lt_def, ← hpri]
      exact hmin j hj helig
  · exact absurd rfl h

end Best

section Tables
variable {m : GicMem}

/-- A board with the controller alone, its tables as the cells have them. -/
def GicMem.board (m : GicMem) : Bus Gic := Bus.powerOn (fun _ => 0) (fun _ => 0) m.view

@[simp] lemma decide_boolCell (x : Bool) : decide (GicMem.boolCell x ≠ 0) = x := by cases x <;> rfl

@[simp] lemma view_update : m.update.view = m.view := rfl

lemma cells_mark (first : ℕ) (val : U64) (x : Bool) (j : ℕ) :
    (m.mark first val x).cells j =
      if first ≤ j ∧ j < first + 32 ∧ val.getLsbD (j - first) then GicMem.boolCell x else m.cells j := rfl

lemma mark_own (t base : ℕ) (val : U64) (x : Bool) (k : ℕ) :
    decide ((m.mark (t + base) val x).cells (t + k) ≠ 0) =
      gicMark (fun k => decide (m.cells (t + k) ≠ 0)) base val x k := by
  rw [cells_mark, gicMark, Nat.add_sub_add_left]
  simp only [Nat.add_assoc, Nat.add_le_add_iff_left, Nat.add_lt_add_iff_left]
  split
  · exact decide_boolCell x
  · rfl

lemma mark_other {t base : ℕ} {val : U64} {x : Bool}
    (hin : ∀ k ∈ ((List.range 32).filter val.getLsbD).map (base + ·), k < gicNumIrqs) {j : ℕ}
    (hj : j < t ∨ t + 256 ≤ j) : (m.mark (t + base) val x).cells j = m.cells j := by
  rw [cells_mark, if_neg]
  rintro ⟨hle, hlt, hbit⟩
  have hk := hin (base + (j - (t + base)))
    (List.mem_map.2 ⟨_, List.mem_filter.2 ⟨List.mem_range.2 (by omega), hbit⟩, rfl⟩)
  simp only [gicNumIrqs] at hk
  omega

lemma setCell_other {i j : ℕ} {x : Bool} (h : j ≠ i) : (m.setCell i x).cells j = m.cells j :=
  Function.update_of_ne h _ _

@[simp] lemma setCell_self {i : ℕ} {x : Bool} : (m.setCell i x).cells i = GicMem.boolCell x :=
  Function.update_self _ _ _

lemma setCell_own (t i : ℕ) (x : Bool) (k : ℕ) :
    decide ((m.setCell (t + i) x).cells (t + k) ≠ 0) =
      Function.update (fun k => decide (m.cells (t + k) ≠ 0)) i x k := by
  by_cases h : k = i
  · subst h
    rw [setCell_self, Function.update_self, decide_boolCell]
  · rw [setCell_other (by omega), Function.update_of_ne h]

lemma agrees_of_entry {g g' : Gic} (hd : g.dCtlr = g'.dCtlr) (hc : g.cCtlr = g'.cCtlr) (hp : g.pmr = g'.pmr)
    (h : ∀ k < 256, g.enabled k = g'.enabled k ∧ g.pending k = g'.pending k ∧ g.active k = g'.active k ∧
      g.line k = g'.line k ∧ g.cfgEdge k = g'.cfgEdge k ∧ g.priority k = g'.priority k ∧ g.target k = g'.target k) :
    g.Agrees (List.range gicNumIrqs) g' := by
  refine ⟨hd, hc, hp, fun k hk => ?_⟩
  obtain ⟨he, hp, ha, hl, hc, hr, ht⟩ := h k (List.mem_range.1 hk)
  simp only [Gic.entry, he, hp, ha, hl, hc, hr, ht]

lemma stLe_shift (f : ℕ → U8) (t p size : ℕ) (val : U64) (k : ℕ) :
    stLe f (t + p) size val (t + k) = stLe (fun k => f (t + k)) p size val k := by
  induction size generalizing f p val with
  | zero => rfl
  | succ size ih =>
    have hupdate : (fun k => Function.update f (t + p) (val.setWidth 8) (t + k)) =
        Function.update (fun k => f (t + k)) p (val.setWidth 8) := by
      funext k
      by_cases h : k = p
      · subst h
        rw [Function.update_self, Function.update_self]
      · rw [Function.update_of_ne (by omega), Function.update_of_ne h]
    rw [stLe, stLe, Nat.add_assoc t p 1, ih, hupdate]

lemma stLe_outside {f : ℕ → U8} {p size : ℕ} {val : U64} {j : ℕ} (h : j < p ∨ p + size ≤ j) :
    stLe f p size val j = f j := by
  refine stLe_of_notMem fun hj => ?_
  obtain ⟨i, hi, rfl⟩ := List.mem_map.1 hj
  have := List.mem_range.1 hi
  omega

lemma distWrite_agrees {off : U64} {size : ℕ} {val : U64} (h : (GicOp.distWrite off size val).inside) :
    (m.distWrite size val (distReg off.toNat)).view.Agrees (List.range gicNumIrqs)
      (gicdWrite (Lens.self Gic) m.board off size val).dev := by
  have hin := write_addresses_lt_iff (g := m.view).2 h
  rw [gicdWrite_eq]
  unfold GicOp.addresses at hin
  dsimp only at hin
  cases hreg : distReg off.toNat with
  | ctlr => exact agrees_of_entry rfl rfl rfl fun _ _ => ⟨rfl, rfl, rfl, rfl, rfl, rfl, rfl⟩
  | enable x base =>
    rw [hreg] at hin
    have hother {j : ℕ} (hj : 256 ≤ j) : (m.mark base val x).cells j = m.cells j := by
      have := mark_other (m := m) (t := 0) (x := x) hin (j := j) (.inr (by omega))
      rwa [Nat.zero_add] at this
    have hown (k : ℕ) : decide ((m.mark base val x).cells k ≠ 0) =
        gicMark (fun k => decide (m.cells k ≠ 0)) base val x k := by
      simpa only [Nat.zero_add] using mark_own (m := m) 0 base val x k
    refine agrees_of_entry rfl rfl rfl fun k _ => ⟨hown k, ?_, ?_, ?_, ?_, hother (by omega), hother (by omega)⟩
    all_goals exact congrArg (fun c => decide (c ≠ 0)) (hother (by omega))
  | pend x base =>
    rw [hreg] at hin
    have hother {j : ℕ} (hj : j < 256 ∨ 256 + 256 ≤ j) : (m.mark (256 + base) val x).cells j = m.cells j := mark_other hin hj
    refine agrees_of_entry rfl rfl rfl fun k _ => ⟨?_, mark_own 256 base val x k, ?_, ?_, ?_, hother (by omega), hother (by omega)⟩
    all_goals exact congrArg (fun c => decide (c ≠ 0)) (hother (by omega))
  | activate x base =>
    rw [hreg] at hin
    have hother {j : ℕ} (hj : j < 512 ∨ 512 + 256 ≤ j) : (m.mark (512 + base) val x).cells j = m.cells j := mark_other hin hj
    have hagrees : (m.mark (512 + base) val x).view.Agrees (List.range gicNumIrqs)
        { m.view with active := gicMark m.view.active base val x } := by
      refine agrees_of_entry rfl rfl rfl fun k _ => ⟨?_, ?_, mark_own 512 base val x k, ?_, ?_, hother (by omega), hother (by omega)⟩
      all_goals exact congrArg (fun c => decide (c ≠ 0)) (hother (by omega))
    cases x with
    | false => exact hagrees
    | true => exact hagrees
  | priority base =>
    rw [hreg] at hin
    have hbound : ∀ i < size, base + i < 256 := forall_map_add_range.1 hin
    have hother {j : ℕ} (hj : j < 1280 ∨ 1536 ≤ j) : stLe m.cells (1280 + base) size val j = m.cells j := by
      cases size with
      | zero => rfl
      | succ size =>
        have := hbound size (Nat.lt_succ_self size)
        exact stLe_outside (by omega)
    refine agrees_of_entry rfl rfl rfl fun k _ => ⟨?_, ?_, ?_, ?_, ?_, stLe_shift m.cells 1280 base size val k, hother (by omega)⟩
    all_goals exact congrArg (fun c => decide (c ≠ 0)) (hother (by omega))
  | target base =>
    have hother {j : ℕ} (hj : j < 1536) :
        (if j < 1536 + 32 then m.cells j else stLe m.cells (1536 + base) size val j) = m.cells j := if_pos (by omega)
    refine agrees_of_entry rfl rfl rfl fun k _ => ⟨?_, ?_, ?_, ?_, ?_, hother (by omega), ?_⟩
    rotate_right
    · show (if 1536 + k < 1536 + 32 then _ else _) = if k < 32 then _ else _
      by_cases hk : k < 32
      · rw [if_pos (by omega), if_pos hk]
        rfl
      · rw [if_neg (by omega), if_neg hk]
        exact stLe_shift m.cells 1536 base size val k
    all_goals exact congrArg (fun c => decide (c ≠ 0)) (hother (by omega))
  | config base =>
    rw [hreg] at hin
    have hbound : base + 15 < 256 := forall_map_add_range.1 hin 15 (by decide)
    have hother {j : ℕ} (hj : j < 1024 ∨ 1280 ≤ j) : (if 1024 + base ≤ j ∧ j < 1024 + base + 16 then
        GicMem.boolCell (val.getLsbD (2 * (j - (1024 + base)) + 1)) else m.cells j) = m.cells j := if_neg (by omega)
    refine agrees_of_entry rfl rfl rfl fun k _ => ⟨?_, ?_, ?_, ?_, ?_, hother (by omega), hother (by omega)⟩
    rotate_right
    · show decide ((if 1024 + base ≤ 1024 + k ∧ 1024 + k < 1024 + base + 16 then _ else _) ≠ (0 : U8)) =
        if base ≤ k ∧ k < base + 16 then _ else _
      rw [Nat.add_sub_add_left]
      by_cases hk : base ≤ k ∧ k < base + 16
      · rw [if_pos (by omega), if_pos hk, decide_boolCell]
      · rw [if_neg (by omega), if_neg hk]
        rfl
    all_goals exact congrArg (fun c => decide (c ≠ 0)) (hother (by omega))
  | other => exact agrees_of_entry rfl rfl rfl fun _ _ => ⟨rfl, rfl, rfl, rfl, rfl, rfl, rfl⟩

section Cells
variable {g : Gic} {i : ℕ} {x : Bool}

lemma entry_of_agrees (h : m.view.Agrees (List.range gicNumIrqs) g) {k : ℕ} (hk : k < 256) :
    m.view.enabled k = g.enabled k ∧ m.view.pending k = g.pending k ∧ m.view.active k = g.active k ∧
      m.view.line k = g.line k ∧ m.view.cfgEdge k = g.cfgEdge k ∧ m.view.priority k = g.priority k ∧
      m.view.target k = g.target k := by
  have hentry := h.entry k (List.mem_range.2 hk)
  simpa only [Gic.entry, Prod.mk.injEq] using hentry

lemma setCell_update {t k : ℕ} {f : ℕ → Bool} (hf : decide (m.cells (t + k) ≠ 0) = f k) :
    decide ((m.setCell (t + i) x).cells (t + k) ≠ 0) = Function.update f i x k := by
  rw [setCell_own]
  by_cases h : k = i
  · subst h
    rw [Function.update_self, Function.update_self]
  · rw [Function.update_of_ne h, Function.update_of_ne h]
    exact hf

lemma setActive_agrees (hi : i < 256) (h : m.view.Agrees (List.range gicNumIrqs) g) :
    (m.setCell (512 + i) x).view.Agrees (List.range gicNumIrqs) { g with active := Function.update g.active i x } := by
  refine agrees_of_entry h.dCtlr h.cCtlr h.pmr fun k hk => ?_
  obtain ⟨he, hp, ha, hl, hc, hr, ht⟩ := entry_of_agrees h hk
  have hkeep {j : ℕ} (hj : j ≠ 512 + i) : (m.setCell (512 + i) x).cells j = m.cells j := setCell_other hj
  refine ⟨?_, ?_, setCell_update ha, ?_, ?_, (hkeep (by omega)).trans hr, (hkeep (by omega)).trans ht⟩
  · exact (congrArg (fun c => decide (c ≠ 0)) (hkeep (by omega))).trans he
  · exact (congrArg (fun c => decide (c ≠ 0)) (hkeep (by omega))).trans hp
  · exact (congrArg (fun c => decide (c ≠ 0)) (hkeep (by omega))).trans hl
  · exact (congrArg (fun c => decide (c ≠ 0)) (hkeep (by omega))).trans hc

lemma setPending_agrees (hi : i < 256) (h : m.view.Agrees (List.range gicNumIrqs) g) :
    (m.setCell (256 + i) x).view.Agrees (List.range gicNumIrqs) { g with pending := Function.update g.pending i x } := by
  refine agrees_of_entry h.dCtlr h.cCtlr h.pmr fun k hk => ?_
  obtain ⟨he, hp, ha, hl, hc, hr, ht⟩ := entry_of_agrees h hk
  have hkeep {j : ℕ} (hj : j ≠ 256 + i) : (m.setCell (256 + i) x).cells j = m.cells j := setCell_other hj
  refine ⟨?_, setCell_update hp, ?_, ?_, ?_, (hkeep (by omega)).trans hr, (hkeep (by omega)).trans ht⟩
  · exact (congrArg (fun c => decide (c ≠ 0)) (hkeep (by omega))).trans he
  · exact (congrArg (fun c => decide (c ≠ 0)) (hkeep (by omega))).trans ha
  · exact (congrArg (fun c => decide (c ≠ 0)) (hkeep (by omega))).trans hl
  · exact (congrArg (fun c => decide (c ≠ 0)) (hkeep (by omega))).trans hc

lemma setLine_agrees (hi : i < 256) (h : m.view.Agrees (List.range gicNumIrqs) g) :
    (m.setCell (768 + i) x).view.Agrees (List.range gicNumIrqs) { g with line := Function.update g.line i x } := by
  refine agrees_of_entry h.dCtlr h.cCtlr h.pmr fun k hk => ?_
  obtain ⟨he, hp, ha, hl, hc, hr, ht⟩ := entry_of_agrees h hk
  have hkeep {j : ℕ} (hj : j ≠ 768 + i) : (m.setCell (768 + i) x).cells j = m.cells j := setCell_other hj
  refine ⟨?_, ?_, ?_, setCell_update hl, ?_, (hkeep (by omega)).trans hr, (hkeep (by omega)).trans ht⟩
  · exact (congrArg (fun c => decide (c ≠ 0)) (hkeep (by omega))).trans he
  · exact (congrArg (fun c => decide (c ≠ 0)) (hkeep (by omega))).trans hp
  · exact (congrArg (fun c => decide (c ≠ 0)) (hkeep (by omega))).trans ha
  · exact (congrArg (fun c => decide (c ≠ 0)) (hkeep (by omega))).trans hc

lemma agrees_refl (g : Gic) (ks : List ℕ) : g.Agrees ks g := ⟨rfl, rfl, rfl, fun _ _ => rfl⟩

end Cells

lemma acknowledge_agrees (hbest : gicBest m.view ≠ spurious) :
    m.acknowledge.view.Agrees (List.range gicNumIrqs) (acknowledge (Lens.self Gic) m.board).dev := by
  have hlt : gicBest m.view < 256 := (gicBest_eligible hbest).1
  have hactive := setActive_agrees (x := true) hlt (agrees_refl m.view _)
  have hdev : (acknowledge (Lens.self Gic) m.board).dev = { m.view with
      active := Function.update m.view.active (gicBest m.view) true
      pending := if m.view.cfgEdge (gicBest m.view) then Function.update m.view.pending (gicBest m.view) false
        else m.view.pending } := rfl
  rw [hdev, GicMem.acknowledge, if_neg hbest, view_update]
  split
  · exact setPending_agrees hlt hactive
  · exact hactive

lemma endInterrupt_agrees (id : ℕ) :
    (m.endInterrupt id).view.Agrees (List.range gicNumIrqs) (endInterrupt (Lens.self Gic) m.board id).dev := by
  rw [GicMem.endInterrupt, view_update, endInterrupt, gicUpdate_dev]
  split
  · rename_i hid
    exact setActive_agrees hid (agrees_refl m.view _)
  · exact agrees_refl m.view _

lemma setIrq_agrees (intid : ℕ) (level : Bool) :
    (m.setIrq intid level).view.Agrees (List.range gicNumIrqs) (gicSetIrq (Lens.self Gic) m.board intid level).dev := by
  by_cases hid : intid < gicNumIrqs
  · have hline := setLine_agrees (x := level) hid (agrees_refl m.view _)
    have hdev : (gicSetIrq (Lens.self Gic) m.board intid level).dev =
        if m.view.pendAfter intid level = m.view.pending intid then
          { m.view with line := Function.update m.view.line intid level }
        else { m.view with
          line := Function.update m.view.line intid level
          pending := Function.update m.view.pending intid (m.view.pendAfter intid level) } := by
      rw [gicSetIrq_of_lt hid]
      exact apply_ite Bus.dev _ _ _
    rw [hdev, GicMem.setIrq, if_neg (Nat.not_le.2 hid)]
    dsimp only
    by_cases hpend : m.view.pendAfter intid level = m.view.pending intid
    · rw [if_pos hpend, if_pos hpend]
      exact hline
    · rw [if_neg hpend, if_neg hpend]
      exact setPending_agrees hid hline
  · rw [GicMem.setIrq, if_pos (Nat.not_lt.1 hid), gicSetIrq]
    rw [if_pos (Nat.not_lt.1 hid)]
    exact agrees_refl m.view _

lemma step_agrees {op : GicOp} (h : op.inside) :
    (m.step op).view.Agrees (List.range gicNumIrqs) (gicStep (Lens.self Gic) m.board op).dev := by
  cases op with
  | distRead off size => exact agrees_refl m.view _
  | distWrite off size val => exact distWrite_agrees h
  | cpuRead off size =>
    have hget : (Lens.self Gic).get m.board.dev = m.view := rfl
    simp only [gicStep]
    rw [giccRead_bus, GicMem.step, hget]
    by_cases hoff : off.toNat = 0x0c
    · rw [if_pos hoff]
      by_cases hbest : gicBest m.view = spurious
      · rw [if_neg fun h => h.2 hbest, GicMem.acknowledge, if_pos hbest]
        exact agrees_refl m.view _
      · rw [if_pos ⟨hoff, hbest⟩]
        exact acknowledge_agrees hbest
    · rw [if_neg hoff, if_neg fun h => hoff h.1]
      exact agrees_refl m.view _
  | cpuWrite off size val =>
    simp only [gicStep]
    rw [giccWrite_eq, GicMem.step]
    split
    · exact agrees_refl _ _
    split
    · exact agrees_refl _ _
    split
    · exact endInterrupt_agrees _
    · exact agrees_refl m.view _
  | setIrq intid level => exact setIrq_agrees intid level

end Tables

namespace GicOp

/-- The operation reads the acknowledge register and gets the interrupt. -/
def acks (g : Gic) (i : ℕ) : GicOp → Bool
  | cpuRead off _ => decide (off.toNat = 0x0c) && decide (gicBest g = i)
  | _ => false

/-- An end-of-interrupt write with the number, or a write to the clear-active registers with
its bit. -/
def ends (i : ℕ) : GicOp → Bool
  | distWrite off _ val =>
    match distReg off.toNat with
    | .activate false base => hits base val i
    | _ => false
  | cpuWrite off _ val =>
    (decide (off.toNat = 0x10) || decide (off.toNat = 0x1000)) && decide ((val &&& 0x3ff).toNat = i)
  | _ => false

/-- A write to the set-active registers with the bit of the interrupt. -/
def marks (i : ℕ) : GicOp → Bool
  | distWrite off _ val =>
    match distReg off.toNat with
    | .activate true base => hits base val i
    | _ => false
  | _ => false

end GicOp

section Active
variable {i : ℕ}

lemma gicdWrite_active {L : Lens D Gic} {b : Bus D} {off : U64} {size : ℕ} {val : U64} :
    (L.get (gicdWrite L b off size val).dev).active i =
      if (GicOp.distWrite off size val).marks i then true
      else if (GicOp.distWrite off size val).ends i then false else (L.get b.dev).active i := by
  rw [gicdWrite_eq]
  cases hreg : distReg off.toNat with
  | activate x base =>
    cases x with
    | false => simp [distWrite, gicMark_eq_hits, GicOp.marks, GicOp.ends, hreg]
    | true => simp [distWrite, gicMark_eq_hits, GicOp.marks, GicOp.ends, hreg]
  | _ => simp [distWrite, GicOp.marks, GicOp.ends, hreg]

lemma endInterrupt_active {L : Lens D Gic} {b : Bus D} (hi : i < gicNumIrqs) (id : ℕ) :
    (L.get (endInterrupt L b id).dev).active i = if id = i then false else (L.get b.dev).active i := by
  rw [endInterrupt, get_gicUpdate]
  by_cases hid : id = i
  · subst hid
    rw [if_pos hi, if_pos rfl, get_setGic]
    exact Function.update_self _ _ _
  · rw [if_neg hid]
    split
    · rw [get_setGic]
      exact Function.update_of_ne (Ne.symm hid) _ _
    · rfl

lemma gicSetIrq_active {L : Lens D Gic} {b : Bus D} (intid : ℕ) (level : Bool) :
    (L.get (gicSetIrq L b intid level).dev).active i = (L.get b.dev).active i := by
  by_cases hid : intid < gicNumIrqs
  · rw [gicSetIrq_of_lt hid]
    dsimp only
    split
    · rw [get_setGic]
    · rw [get_gicUpdate, get_setGic]
  · rw [gicSetIrq]
    dsimp only
    rw [if_pos (Nat.not_lt.1 hid)]

lemma gicStep_active {L : Lens D Gic} {b : Bus D} (hi : i < gicNumIrqs) (op : GicOp) :
    (L.get (gicStep L b op).dev).active i =
      if op.acks (L.get b.dev) i || op.marks i then true else if op.ends i then false else (L.get b.dev).active i := by
  have hspurious : i ≠ spurious := range_ne_spurious i (List.mem_range.2 hi)
  cases op with
  | distRead off size => rfl
  | distWrite off size val => exact gicdWrite_active
  | cpuRead off size =>
    simp only [gicStep, GicOp.acks, GicOp.marks, GicOp.ends]
    rw [giccRead_bus]
    by_cases hoff : off.toNat = 0x0c
    · by_cases hbest : gicBest (L.get b.dev) = i
      · rw [if_pos ⟨hoff, hbest ▸ hspurious⟩]
        simp [acknowledge, hoff, hbest]
      · by_cases hnone : gicBest (L.get b.dev) = spurious
        · rw [if_neg fun h => h.2 hnone]
          simp [hbest]
        · rw [if_pos ⟨hoff, hnone⟩]
          simp [acknowledge, hbest, Function.update_of_ne (Ne.symm hbest)]
    · simp [hoff]
  | cpuWrite off size val =>
    have hacks : (GicOp.cpuWrite off size val).acks (L.get b.dev) i = false := rfl
    have hmarks : (GicOp.cpuWrite off size val).marks i = false := rfl
    rw [hacks, hmarks, Bool.or_self, if_neg Bool.false_ne_true]
    simp only [gicStep]
    rw [giccWrite_eq]
    dsimp only
    by_cases heoi : off.toNat = 0x10 ∨ off.toNat = 0x1000
    · have hends : (GicOp.cpuWrite off size val).ends i = decide ((val &&& 0x3ff).toNat = i) := by
        simp only [GicOp.ends, Bool.and_eq_right_iff_imp, Bool.or_eq_true, decide_eq_true_eq]
        exact fun _ => heoi
      rw [hends, if_neg (by omega), if_neg (by omega), if_pos heoi, endInterrupt_active hi]
      simp only [decide_eq_true_eq]
    · have hends : (GicOp.cpuWrite off size val).ends i = false := by
        rw [not_or] at heoi
        simp [GicOp.ends, heoi.1, heoi.2]
      rw [hends, if_neg Bool.false_ne_true, if_neg heoi]
      split
      · rw [get_gicUpdate, get_setGic]
      split
      · rw [get_gicUpdate, get_setGic]
      · rfl
  | setIrq intid level =>
    simp only [gicStep, GicOp.acks, GicOp.marks, GicOp.ends, gicSetIrq_active, Bool.or_self, Bool.false_eq_true, if_false]

variable {m : GicMem}

lemma step_active (hi : i < gicNumIrqs) {op : GicOp} (h : op.inside) :
    (m.step op).view.active i =
      if op.acks m.view i || op.marks i then true else if op.ends i then false else m.view.active i := by
  have hagrees := (entry_of_agrees (step_agrees (m := m) h) hi).2.2.1
  rw [hagrees]
  exact gicStep_active (L := Lens.self Gic) hi op

lemma run_active (hi : i < gicNumIrqs) {ops : List GicOp} (hops : ∀ op ∈ ops, op.inside ∧ op.ends i = false)
    (h : m.view.active i = true) : (m.run ops).view.active i = true := by
  induction ops generalizing m with
  | nil => exact h
  | cons op ops ih =>
    obtain ⟨hinside, hends⟩ := hops op List.mem_cons_self
    refine ih (fun op' hop' => hops op' (List.mem_cons_of_mem op hop')) ?_
    rw [step_active hi hinside, hends, h]
    simp

/-- The acknowledgements of an interrupt in a run, less its deactivations. -/
def GicMem.outstanding (i : ℕ) : GicMem → List GicOp → ℤ
  | _, [] => 0
  | m, op :: ops =>
    (if op.acks m.view i then 1 else 0) - (if m.view.active i && op.ends i then 1 else 0) +
      outstanding i (m.step op) ops

def activeCount (m : GicMem) (i : ℕ) : ℤ := if m.view.active i then 1 else 0

lemma not_active_of_acks (hi : i < gicNumIrqs) {op : GicOp} (h : op.acks m.view i = true) : m.view.active i = false := by
  have hspurious : i ≠ spurious := range_ne_spurious i (List.mem_range.2 hi)
  cases op with
  | cpuRead off size =>
    simp only [GicOp.acks, Bool.and_eq_true, decide_eq_true_eq] at h
    have helig := (gicBest_eligible (h.2 ▸ hspurious)).2
    rw [h.2] at helig
    simp only [Gic.eligible, Bool.and_eq_true, Bool.not_eq_true'] at helig
    exact helig.1.2
  | _ => cases h

lemma not_ends_of_acks {op : GicOp} (h : op.acks m.view i = true) : op.ends i = false := by
  cases op with
  | cpuRead off size => rfl
  | _ => cases h

lemma outstanding_eq (hi : i < gicNumIrqs) {ops : List GicOp} (hops : ∀ op ∈ ops, op.inside ∧ op.marks i = false) :
    GicMem.outstanding i m ops = activeCount (m.run ops) i - activeCount m i := by
  induction ops generalizing m with
  | nil => exact (sub_self _).symm
  | cons op ops ih =>
    obtain ⟨hinside, hmarks⟩ := hops op List.mem_cons_self
    have hrest := ih (m := m.step op) fun op' hop' => hops op' (List.mem_cons_of_mem op hop')
    have hrun : m.run (op :: ops) = (m.step op).run ops := rfl
    have hstep : activeCount (m.step op) i - activeCount m i =
        (if op.acks m.view i then 1 else 0) - (if m.view.active i && op.ends i then 1 else 0) := by
      rw [activeCount, activeCount, step_active hi hinside, hmarks, Bool.or_false]
      cases hacks : op.acks m.view i with
      | true => simp [not_active_of_acks hi hacks, not_ends_of_acks hacks]
      | false => cases op.ends i <;> cases m.view.active i <;> simp
    rw [GicMem.outstanding, hrest, hrun, ← hstep]
    omega

end Active

/-- The acknowledge register. With nothing to be signalled it reads as 1023 and changes
nothing. Otherwise it gives the interrupt of the lowest priority value, the lowest number
among equals, which becomes active and is not eligible again before it is ended. Over any
run without set-active writes for it, an interrupt is acknowledged at most once more than it
is deactivated. The runs are those whose accesses stay inside of the tables. -/
theorem ack_law (m : GicMem) (size : ℕ) :
    (¬ m.view.asserts → m.iar = 1023 ∧ m.step (.cpuRead 0x0c size) = m) ∧
      (m.view.asserts → ∃ i < gicNumIrqs, m.iar = zext i ∧ m.view.eligible i = true ∧
        (∀ j < gicNumIrqs, m.view.eligible j = true →
          m.view.priority i < m.view.priority j ∨ m.view.priority i = m.view.priority j ∧ i ≤ j) ∧
        (m.step (.cpuRead 0x0c size)).view.active i = true ∧
        ∀ ops : List GicOp, (∀ op ∈ ops, op.inside ∧ op.ends i = false) →
          ((m.step (.cpuRead 0x0c size)).run ops).view.eligible i = false) ∧
      ∀ i < gicNumIrqs, m.view.active i = false → ∀ ops : List GicOp, (∀ op ∈ ops, op.inside ∧ op.marks i = false) →
        GicMem.outstanding i m ops = 0 ∨ GicMem.outstanding i m ops = 1 := by
  have hread : m.step (.cpuRead 0x0c size) = m.acknowledge := rfl
  refine ⟨fun hnone => ?_, fun hsome => ?_, fun i hi hactive ops hops => ?_⟩
  · have hbest : gicBest m.view = spurious := not_not.1 (mt gicBest_ne_spurious_iff.1 hnone)
    rw [hread, GicMem.iar, GicMem.acknowledge, hbest, if_pos rfl]
    exact ⟨rfl, rfl⟩
  · have hbest := gicBest_ne_spurious_iff.2 hsome
    obtain ⟨hlt, helig⟩ := gicBest_eligible hbest
    have hactive : (m.step (.cpuRead 0x0c size)).view.active (gicBest m.view) = true := by
      have hinside : (GicOp.cpuRead 0x0c size).inside := trivial
      rw [step_active hlt hinside]
      simp [GicOp.acks]
    refine ⟨gicBest m.view, hlt, rfl, helig, fun j hj hj' => gicBest_min hbest hj hj', hactive, fun ops hops => ?_⟩
    rw [Gic.eligible, run_active hlt hops hactive, Bool.not_true, Bool.and_false, Bool.false_and]
  · rw [outstanding_eq hi hops]
    have hstart : activeCount m i = 0 := by simp [activeCount, hactive]
    rw [hstart, sub_zero, activeCount]
    cases (m.run ops).view.active i
    · exact .inl rfl
    · exact .inr rfl

/-- A write to the set-pending registers past their last interrupt reaches the active bits:
interrupt 32 is deactivated without having been acknowledged. -/
theorem ack_count_negative :
    (∀ op ∈ [GicOp.distWrite 0x224 4 1, .cpuWrite 0x10 4 32], op.marks 32 = false) ∧
      GicMem.outstanding 32 GicMem.initial [.distWrite 0x224 4 1, .cpuWrite 0x10 4 32] = -1 := by
  constructor
  · intro op hop
    simp only [List.mem_cons, List.not_mem_nil, or_false] at hop
    rcases hop with rfl | rfl
    · decide
    · decide
  · decide +kernel

end Arm64Emu
