import Arm64Emu.Gic
import Arm64Emu.LittleEndian

/-! The interrupt controller over any sequence of register accesses and line changes: its
output line, its pending bits, and the table entries that it touches. -/
namespace Arm64Emu

variable {D : Type} (L : Lens D Gic)

/-- What is done to the interrupt controller: accesses to the distributor and to the CPU
interface, and changes of an input line. -/
inductive GicOp
  | distRead (off : U64) (size : ℕ)
  | distWrite (off : U64) (size : ℕ) (val : U64)
  | cpuRead (off : U64) (size : ℕ)
  | cpuWrite (off : U64) (size : ℕ) (val : U64)
  | setIrq (intid : ℕ) (level : Bool)
  deriving DecidableEq, Repr

def gicStep (b : Bus D) : GicOp → Bus D
  | .distRead off size => (gicdRead L b off size).2
  | .distWrite off size val => gicdWrite L b off size val
  | .cpuRead off size => (giccRead L b off size).2
  | .cpuWrite off size val => giccWrite L b off size val
  | .setIrq intid level => gicSetIrq L b intid level

namespace Gic

/-- Enabled, pending, not active, and of a priority that is let through. -/
def eligible (g : Gic) (i : ℕ) : Bool := g.enabled i && g.pending i && !g.active i && decide (g.priority i < g.pmr)

/-- Both interfaces are on, and there is an interrupt to be signalled. -/
def asserts (g : Gic) : Prop :=
  g.dCtlr.getLsbD 0 = true ∧ g.cCtlr.getLsbD 0 = true ∧ ∃ i < gicNumIrqs, g.eligible i = true

end Gic

section Best
variable {g : Gic}

def gicPick (g : Gic) (best : ℕ × ℕ) (i : ℕ) : ℕ × ℕ :=
  if !g.enabled i || !g.pending i || g.active i then best
  else if g.pmr ≤ g.priority i then best
  else if (g.priority i).toNat < best.2 then (i, (g.priority i).toNat)
  else best

lemma gicPick_of_not_eligible {best : ℕ × ℕ} {i : ℕ} (h : g.eligible i = false) : gicPick g best i = best := by
  unfold gicPick
  split
  · rfl
  rename_i hready
  split
  · rfl
  · rename_i hmask
    rw [Gic.eligible] at h
    rw [BitVec.not_le] at hmask
    simp_all

lemma gicPick_of_eligible {best : ℕ × ℕ} {i : ℕ} (h : g.eligible i = true) :
    gicPick g best i = if (g.priority i).toNat < best.2 then (i, (g.priority i).toNat) else best := by
  simp only [Gic.eligible, Bool.and_eq_true, Bool.not_eq_true', decide_eq_true_eq] at h
  obtain ⟨⟨⟨henabled, hpending⟩, hactive⟩, hmask⟩ := h
  rw [gicPick, henabled, hpending, hactive, if_neg (by decide), if_neg (BitVec.not_le.2 hmask)]

lemma gicPick_foldl {l : List ℕ} (hl : ∀ i ∈ l, i ≠ spurious) {best : ℕ × ℕ}
    (hbest : best.1 = spurious → best.2 = 256) :
    ((l.foldl (gicPick g) best).1 ≠ spurious ↔ best.1 ≠ spurious ∨ ∃ i ∈ l, g.eligible i = true) ∧
    ((l.foldl (gicPick g) best).1 = best.1 ∨
      (l.foldl (gicPick g) best).1 ∈ l ∧ g.eligible (l.foldl (gicPick g) best).1 = true) := by
  induction l generalizing best with
  | nil => simp
  | cons i l ih =>
    have hl' : ∀ j ∈ l, j ≠ spurious := fun j hj => hl j (List.mem_cons_of_mem i hj)
    rw [List.foldl_cons]
    cases hi : g.eligible i with
    | false =>
      rw [gicPick_of_not_eligible hi]
      obtain ⟨hiff, hmem⟩ := ih hl' hbest
      refine ⟨hiff.trans (by simp [hi]), hmem.imp_right fun h => ⟨List.mem_cons_of_mem i h.1, h.2⟩⟩
    | true =>
      rw [gicPick_of_eligible hi]
      have hpri : (g.priority i).toNat < 256 := (g.priority i).isLt
      have hne : i ≠ spurious := hl i List.mem_cons_self
      split
      · have hstart : (i, (g.priority i).toNat).1 = spurious → (i, (g.priority i).toNat).2 = 256 := fun h => absurd h hne
        obtain ⟨hiff, hmem⟩ := ih hl' hstart
        refine ⟨hiff.trans (by simp [hi, hne]), .inr ?_⟩
        obtain h | h := hmem
        · rw [h]
          exact ⟨List.mem_cons_self, hi⟩
        · exact ⟨List.mem_cons_of_mem i h.1, h.2⟩
      · rename_i hworse
        have hsome : best.1 ≠ spurious := fun h => by
          rw [hbest h] at hworse
          exact hworse hpri
        obtain ⟨hiff, hmem⟩ := ih hl' hbest
        refine ⟨hiff.trans (by simp [hsome]), hmem.imp_right fun h => ⟨List.mem_cons_of_mem i h.1, h.2⟩⟩

lemma and_one_eq_zero_iff (x : U32) : x &&& 1 = 0 ↔ x.getLsbD 0 = false := by
  have h : x &&& 1 = (BitVec.ofBool (x.getLsbD 0)).setWidth 32 := BitVec.and_one_eq_setWidth_ofBool_getLsbD
  rw [h]
  cases x.getLsbD 0 <;> decide

lemma range_ne_spurious : ∀ i ∈ List.range gicNumIrqs, i ≠ spurious := by
  intro i hi
  have := List.mem_range.1 hi
  simp only [gicNumIrqs, spurious] at this ⊢
  omega

lemma gicBest_eq (g : Gic) : gicBest g =
    if g.dCtlr.getLsbD 0 && g.cCtlr.getLsbD 0 then ((List.range gicNumIrqs).foldl (gicPick g) (spurious, 256)).1
    else spurious := by
  have hpick : gicPick g = fun (best : ℕ × ℕ) i =>
      if !g.enabled i || !g.pending i || g.active i then best
      else if g.pmr ≤ g.priority i then best
      else if (g.priority i).toNat < best.2 then (i, (g.priority i).toNat)
      else best := rfl
  rw [gicBest, hpick]
  simp only [and_one_eq_zero_iff]
  cases g.dCtlr.getLsbD 0 <;> cases g.cCtlr.getLsbD 0 <;> simp

lemma gicBest_ne_spurious_iff : gicBest g ≠ spurious ↔ g.asserts := by
  have hstart : (spurious, 256).1 = spurious → (spurious, 256).2 = 256 := fun _ => rfl
  have hscan := (gicPick_foldl (g := g) range_ne_spurious hstart).1
  rw [gicBest_eq, Gic.asserts]
  split
  · rename_i hon
    rw [Bool.and_eq_true] at hon
    rw [hscan]
    simp [hon.1, hon.2]
  · rename_i hoff
    rw [Bool.and_eq_true, not_and] at hoff
    exact iff_of_false (by simp) fun h => hoff h.1 h.2.1

lemma gicBest_eligible (h : gicBest g ≠ spurious) : gicBest g < gicNumIrqs ∧ g.eligible (gicBest g) = true := by
  have hstart : (spurious, 256).1 = spurious → (spurious, 256).2 = 256 := fun _ => rfl
  have hscan := (gicPick_foldl (g := g) range_ne_spurious hstart).2
  rw [gicBest_eq] at h ⊢
  split at h
  · rename_i hon
    rw [if_pos hon]
    obtain hnone | ⟨hmem, helig⟩ := hscan
    · exact absurd hnone h
    · exact ⟨List.mem_range.1 hmem, helig⟩
  · exact absurd rfl h

end Best

/-- The registers of the distributor that are written, with the first entry that an access
is about. -/
inductive DistReg
  | ctlr
  | enable (x : Bool) (base : ℕ)
  | pend (x : Bool) (base : ℕ)
  | activate (x : Bool) (base : ℕ)
  | priority (base : ℕ)
  | target (base : ℕ)
  | config (base : ℕ)
  | other
  deriving DecidableEq, Repr

def distReg (o : ℕ) : DistReg :=
  if o = 0x000 then .ctlr
  else if 0x100 ≤ o ∧ o < 0x180 then .enable true ((o - 0x100) * 8)
  else if 0x180 ≤ o ∧ o < 0x200 then .enable false ((o - 0x180) * 8)
  else if 0x200 ≤ o ∧ o < 0x280 then .pend true ((o - 0x200) * 8)
  else if 0x280 ≤ o ∧ o < 0x300 then .pend false ((o - 0x280) * 8)
  else if 0x300 ≤ o ∧ o < 0x380 then .activate true ((o - 0x300) * 8)
  else if 0x380 ≤ o ∧ o < 0x400 then .activate false ((o - 0x380) * 8)
  else if 0x400 ≤ o ∧ o < 0x800 then .priority (o - 0x400)
  else if 0x800 ≤ o ∧ o < 0xc00 then .target (o - 0x800)
  else if 0xc00 ≤ o ∧ o < 0xd00 then .config ((o - 0xc00) * 4)
  else .other

section Writes
variable {L} {b : Bus D} {off : U64} {size : ℕ} {val : U64}

@[simp] lemma get_setGic {g : Gic} : L.get (setGic L b g).dev = g := L.get_set _ _

@[simp] lemma get_gicUpdate : L.get (gicUpdate L b).dev = L.get b.dev := rfl

variable (L b size val) in
def distWrite (r : DistReg) : Bus D :=
  let g := L.get b.dev
  match r with
  | .ctlr => gicUpdate L (setGic L b { g with dCtlr := val.setWidth 32 })
  | .enable x base => gicUpdate L (setGic L b { g with enabled := gicMark g.enabled base val x })
  | .pend x base => gicUpdate L (setGic L b { g with pending := gicMark g.pending base val x })
  | .activate true base => setGic L b { g with active := gicMark g.active base val true }
  | .activate false base => gicUpdate L (setGic L b { g with active := gicMark g.active base val false })
  | .priority base => gicUpdate L (setGic L b { g with priority := stLe g.priority base size val })
  | .target base =>
    setGic L b { g with target := fun irq => if irq < 32 then g.target irq else stLe g.target base size val irq }
  | .config base =>
    setGic L b { g with cfgEdge := fun k =>
      if base ≤ k ∧ k < base + 16 then val.getLsbD (2 * (k - base) + 1) else g.cfgEdge k }
  | .other => b

lemma gicdWrite_eq : gicdWrite L b off size val = distWrite L b size val (distReg off.toNat) := by
  simp only [distReg, apply_ite (distWrite L b size val)]
  rfl

variable (L b) in
/-- The best interrupt becomes active, and is no longer pending if it is an edge. -/
def acknowledge : Bus D :=
  let g := L.get b.dev
  gicUpdate L (setGic L b { g with
    active := Function.update g.active (gicBest g) true
    pending := if g.cfgEdge (gicBest g) then Function.update g.pending (gicBest g) false else g.pending })

lemma giccRead_bus : (giccRead L b off size).2 =
    if off.toNat = 0x0c ∧ gicBest (L.get b.dev) ≠ spurious then acknowledge L b else b := by
  unfold giccRead
  dsimp only
  split <;> simp_all
  split <;> rfl

variable (L b) in
def endInterrupt (id : ℕ) : Bus D :=
  let g := L.get b.dev
  gicUpdate L (if id < gicNumIrqs then setGic L b { g with active := Function.update g.active id false } else b)

lemma giccWrite_eq : giccWrite L b off size val =
    let g := L.get b.dev
    if off.toNat = 0x00 then gicUpdate L (setGic L b { g with cCtlr := val.setWidth 32 })
    else if off.toNat = 0x04 then gicUpdate L (setGic L b { g with pmr := val.setWidth 8 })
    else if off.toNat = 0x10 ∨ off.toNat = 0x1000 then endInterrupt L b (val &&& 0x3ff).toNat
    else b := by
  unfold giccWrite
  dsimp only
  split <;> simp_all [endInterrupt]

def Gic.pendAfter (g : Gic) (intid : ℕ) (level : Bool) : Bool :=
  if g.cfgEdge intid then g.pending intid || (level && !g.line intid) else level

lemma gicSetIrq_of_lt {intid : ℕ} {level : Bool} (hid : intid < gicNumIrqs) : gicSetIrq L b intid level =
    let g := L.get b.dev
    if g.pendAfter intid level = g.pending intid then
      setGic L b { g with line := Function.update g.line intid level }
    else gicUpdate L (setGic L b { g with
      line := Function.update g.line intid level
      pending := Function.update g.pending intid (g.pendAfter intid level) }) := by
  rw [gicSetIrq, if_neg (Nat.not_le.2 hid)]
  rfl

lemma gicSetIrq_line {intid : ℕ} {level : Bool} (hid : intid < gicNumIrqs) :
    (L.get (gicSetIrq L b intid level).dev).line = Function.update (L.get b.dev).line intid level := by
  rw [gicSetIrq_of_lt hid]
  dsimp only
  split <;> simp

lemma gicUpdate_dev : (gicUpdate L b).dev = b.dev := rfl

lemma gicStep_dev (op : GicOp) : ∃ g, (gicStep L b op).dev = L.set b.dev g := by
  have hsame : ∃ g, b.dev = L.set b.dev g := ⟨L.get b.dev, (L.set_get b.dev).symm⟩
  cases op with
  | distRead off size => exact hsame
  | distWrite off size val =>
    rw [gicStep, gicdWrite_eq]
    unfold distWrite
    cases distReg off.toNat with
    | other => exact hsame
    | activate x base => cases x <;> exact ⟨_, rfl⟩
    | _ => exact ⟨_, rfl⟩
  | cpuRead off size =>
    rw [gicStep, giccRead_bus]
    split
    · exact ⟨_, rfl⟩
    · exact hsame
  | cpuWrite off size val =>
    rw [gicStep, giccWrite_eq]
    dsimp only
    split_ifs
    · exact ⟨_, rfl⟩
    · exact ⟨_, rfl⟩
    · rw [endInterrupt, gicUpdate_dev]
      split
      · exact ⟨_, rfl⟩
      · exact hsame
    · exact hsame
  | setIrq intid level =>
    by_cases hid : intid < gicNumIrqs
    · rw [gicStep, gicSetIrq_of_lt hid]
      dsimp only
      split <;> exact ⟨_, rfl⟩
    · rw [gicStep, gicSetIrq, if_pos (Nat.not_lt.1 hid)]
      exact hsame

lemma gicStep_line_of_access {op : GicOp} (hop : ∀ k level, op ≠ .setIrq k level) :
    (L.get (gicStep L b op).dev).line = (L.get b.dev).line := by
  cases op with
  | distRead off size => rfl
  | distWrite off size val =>
    rw [gicStep, gicdWrite_eq]
    unfold distWrite
    cases distReg off.toNat with
    | activate x base => cases x <;> simp
    | _ => simp
  | cpuRead off size =>
    rw [gicStep, giccRead_bus]
    split
    · simp [acknowledge]
    · rfl
  | cpuWrite off size val =>
    rw [gicStep, giccWrite_eq]
    dsimp only
    split_ifs
    · simp
    · simp
    · simp only [endInterrupt, get_gicUpdate]
      split <;> simp
    · rfl
  | setIrq k level => exact absurd rfl (hop k level)

end Writes

section Footprint

namespace GicOp

/-- The operation looks for the best interrupt, which goes over all entries. -/
def scans (g : Gic) : GicOp → Bool
  | distRead _ _ => false
  | distWrite off _ _ =>
    match distReg off.toNat with
    | .ctlr | .enable _ _ | .pend _ _ | .activate false _ | .priority _ => true
    | _ => false
  | cpuRead off _ => off.toNat = 0x0c || off.toNat = 0x18
  | cpuWrite off _ _ => off.toNat = 0x00 || off.toNat = 0x04 || off.toNat = 0x10 || off.toNat = 0x1000
  | setIrq intid level => decide (intid < gicNumIrqs ∧ g.pendAfter intid level ≠ g.pending intid)

/-- The entries that an operation addresses one by one. Writes to the registers with a bit
for each interrupt address those whose bit is set; a register that clears reads like the
one that sets, but for the active bits. -/
def addresses (g : Gic) : GicOp → List ℕ
  | distRead off size =>
    match distReg off.toNat with
    | .enable _ base | .pend _ base | .activate true base => (List.range 32).map (base + ·)
    | .priority base => (List.range size).map (base + ·)
    | .target base => ((List.range size).map (base + ·)).filter (32 ≤ ·)
    | .config base => (List.range 16).map (base + ·)
    | _ => []
  | distWrite off size val =>
    match distReg off.toNat with
    | .enable _ base | .pend _ base | .activate _ base => ((List.range 32).filter val.getLsbD).map (base + ·)
    | .priority base => (List.range size).map (base + ·)
    | .target base => ((List.range size).map (base + ·)).filter (32 ≤ ·)
    | .config base => (List.range 16).map (base + ·)
    | _ => []
  | cpuRead off _ => if off.toNat = 0x0c ∧ gicBest g ≠ spurious then [gicBest g] else []
  | cpuWrite off _ val =>
    if (off.toNat = 0x10 ∨ off.toNat = 0x1000) ∧ (val &&& 0x3ff).toNat < gicNumIrqs then [(val &&& 0x3ff).toNat] else []
  | setIrq intid _ => if intid < gicNumIrqs then [intid] else []

def indices (g : Gic) (op : GicOp) : List ℕ := (if op.scans g then List.range gicNumIrqs else []) ++ op.addresses g

def inside : GicOp → Prop
  | distRead off size =>
    let o := off.toNat
    (0x100 ≤ o ∧ o < 0x380 → o % 0x80 ≤ 0x1c) ∧ (0x400 ≤ o ∧ o < 0x800 → ∀ i < size, o - 0x400 + i < gicNumIrqs) ∧
      (0x800 ≤ o ∧ o < 0xc00 → ∀ i < size, o - 0x800 + i < gicNumIrqs) ∧ (0xc00 ≤ o ∧ o < 0xd00 → o - 0xc00 ≤ 0x3c)
  | distWrite off size val =>
    let o := off.toNat
    (0x100 ≤ o ∧ o < 0x400 → ∀ i < 32, val.getLsbD i = true → o % 0x80 * 8 + i < gicNumIrqs) ∧
      (0x400 ≤ o ∧ o < 0x800 → ∀ i < size, o - 0x400 + i < gicNumIrqs) ∧
      (0x800 ≤ o ∧ o < 0xc00 → ∀ i < size, o - 0x800 + i < gicNumIrqs) ∧ (0xc00 ≤ o ∧ o < 0xd00 → o - 0xc00 ≤ 0x3c)
  | _ => True

end GicOp

def Gic.entry (g : Gic) (k : ℕ) : Bool × Bool × Bool × Bool × Bool × U8 × U8 :=
  (g.enabled k, g.pending k, g.active k, g.line k, g.cfgEdge k, g.priority k, g.target k)

section Access
variable {L} {b : Bus D} {g : Gic} {k : ℕ}

lemma gicMark_of_notMem {f : ℕ → Bool} {base : ℕ} {val : U64} {x : Bool}
    (hk : k ∉ ((List.range 32).filter val.getLsbD).map (base + ·)) : gicMark f base val x k = f k := by
  rw [gicMark, if_neg]
  rintro ⟨hle, hlt, hbit⟩
  refine hk (List.mem_map.2 ⟨k - base, List.mem_filter.2 ⟨List.mem_range.2 (by omega), hbit⟩, by omega⟩)

lemma gicdWrite_entry {off : U64} {size : ℕ} {val : U64} (hk : k ∉ GicOp.addresses (L.get b.dev) (.distWrite off size val)) :
    (L.get (gicdWrite L b off size val).dev).entry k = (L.get b.dev).entry k := by
  rw [gicdWrite_eq]
  unfold GicOp.addresses at hk
  dsimp only at hk
  unfold distWrite
  cases hreg : distReg off.toNat with
  | ctlr => simp [Gic.entry]
  | enable x base =>
    rw [hreg] at hk
    simp [Gic.entry, gicMark_of_notMem hk]
  | pend x base =>
    rw [hreg] at hk
    simp [Gic.entry, gicMark_of_notMem hk]
  | activate x base =>
    rw [hreg] at hk
    cases x <;> simp [Gic.entry, gicMark_of_notMem hk]
  | priority base =>
    rw [hreg] at hk
    simp [Gic.entry, stLe_of_notMem hk]
  | target base =>
    rw [hreg] at hk
    by_cases h32 : k < 32
    · simp [Gic.entry, h32]
    · have hout : k ∉ (List.range size).map (base + ·) := fun h =>
        hk (List.mem_filter.2 ⟨h, decide_eq_true (by omega)⟩)
      simp [Gic.entry, h32, stLe_of_notMem hout]
  | config base =>
    rw [hreg] at hk
    have hout : ¬ (base ≤ k ∧ k < base + 16) := fun h =>
      hk (List.mem_map.2 ⟨k - base, List.mem_range.2 (by omega), by omega⟩)
    simp [Gic.entry, hout]
  | other => rfl

lemma acknowledge_entry (hk : k ≠ gicBest (L.get b.dev)) :
    (L.get (acknowledge L b).dev).entry k = (L.get b.dev).entry k := by
  simp only [acknowledge, get_gicUpdate, get_setGic, Gic.entry, Function.update_of_ne hk]
  split <;> simp [Function.update_of_ne hk]

lemma endInterrupt_entry {id : ℕ} (hk : id < gicNumIrqs → k ≠ id) :
    (L.get (endInterrupt L b id).dev).entry k = (L.get b.dev).entry k := by
  simp only [endInterrupt, get_gicUpdate]
  split
  · rename_i hid
    simp [Gic.entry, Function.update_of_ne (hk hid)]
  · rfl

lemma gicSetIrq_entry {intid : ℕ} {level : Bool} (hk : intid < gicNumIrqs → k ≠ intid) :
    (L.get (gicSetIrq L b intid level).dev).entry k = (L.get b.dev).entry k := by
  by_cases hid : intid < gicNumIrqs
  · rw [gicSetIrq_of_lt hid]
    dsimp only
    split <;> simp [Gic.entry, Function.update_of_ne (hk hid)]
  · rw [gicSetIrq, if_pos (Nat.not_lt.1 hid)]

lemma gicStep_entry {op : GicOp} (hk : k ∉ op.addresses (L.get b.dev)) :
    (L.get (gicStep L b op).dev).entry k = (L.get b.dev).entry k := by
  cases op with
  | distRead off size => rfl
  | distWrite off size val => exact gicdWrite_entry hk
  | cpuRead off size =>
    rw [gicStep, giccRead_bus]
    split
    · rename_i hack
      exact acknowledge_entry fun h => hk (by simp [GicOp.addresses, hack, h])
    · rfl
  | cpuWrite off size val =>
    rw [gicStep, giccWrite_eq]
    dsimp only
    split_ifs with h0 h4 heoi
    · simp [Gic.entry]
    · simp [Gic.entry]
    · refine endInterrupt_entry fun hid h => hk ?_
      rw [GicOp.addresses, if_pos ⟨heoi, hid⟩, h]
      exact List.mem_singleton_self _
    · rfl
  | setIrq intid level => exact gicSetIrq_entry fun hid h => hk (by simp [GicOp.addresses, hid, h])

end Access

section Values
variable {L} {b b' : Bus D} {g g' : Gic}

variable (L b) in
def gicValue : GicOp → U64
  | .distRead off size => (gicdRead L b off size).1
  | .cpuRead off size => (giccRead L b off size).1
  | _ => 0

def distValue (g : Gic) (size : ℕ) : DistReg → U64
  | .ctlr => g.dCtlr.setWidth 64
  | .enable _ base => (gicBits g.enabled base).setWidth 64
  | .pend _ base => (gicBits g.pending base).setWidth 64
  | .activate true base => (gicBits g.active base).setWidth 64
  | .activate false _ => 0
  | .priority base => ldLe g.priority base size
  | .target base => ldLe (fun irq => if irq < 32 then 0x01 else g.target irq) base size
  | .config base => (gicCfgBits g.cfgEdge base).setWidth 64
  | .other => 0

lemma gicdRead_eq {off : U64} {size : ℕ} : (gicdRead L b off size).1 =
    if off.toNat = 0x004 then zext (gicNumIrqs / 32 - 1)
    else if off.toNat = 0x008 then 0x0200043b
    else distValue (L.get b.dev) size (distReg off.toNat) := by
  unfold gicdRead
  dsimp only
  by_cases h4 : off.toNat = 0x004
  · simp [h4]
  by_cases h8 : off.toNat = 0x008
  · simp [h8]
  rw [if_neg h4, if_neg h8, if_neg h4, if_neg h8]
  simp only [distReg, apply_ite (distValue (L.get b.dev) size)]
  by_cases hclear : 0x380 ≤ off.toNat ∧ off.toNat < 0x400
  · simp only [distValue, show ¬ off.toNat = 0 by omega, show ¬ (0x100 ≤ off.toNat ∧ off.toNat < 0x180) by omega,
      show ¬ (0x180 ≤ off.toNat ∧ off.toNat < 0x200) by omega, show ¬ (0x200 ≤ off.toNat ∧ off.toNat < 0x280) by omega,
      show ¬ (0x280 ≤ off.toNat ∧ off.toNat < 0x300) by omega, show ¬ (0x300 ≤ off.toNat ∧ off.toNat < 0x380) by omega,
      show ¬ (0x400 ≤ off.toNat ∧ off.toNat < 0x800) by omega, show ¬ (0x800 ≤ off.toNat ∧ off.toNat < 0xc00) by omega,
      show ¬ (0xc00 ≤ off.toNat ∧ off.toNat < 0xd00) by omega, hclear, if_false, and_self, if_true]
  · simp only [if_neg hclear]
    rfl

/-- The tables and the registers on which an access rests are the same. -/
structure Gic.Agrees (ks : List ℕ) (g g' : Gic) : Prop where
  dCtlr : g.dCtlr = g'.dCtlr
  cCtlr : g.cCtlr = g'.cCtlr
  pmr : g.pmr = g'.pmr
  entry : ∀ k ∈ ks, g.entry k = g'.entry k

lemma gicBits_congr {f f' : ℕ → Bool} {base : ℕ} (h : ∀ k ∈ (List.range 32).map (base + ·), f k = f' k) :
    gicBits f base = gicBits f' base :=
  congrArg BitVec.ofFnLE (funext fun i => h _ (List.mem_map.2 ⟨i, List.mem_range.2 i.isLt, rfl⟩))

lemma gicCfgBits_congr {f f' : ℕ → Bool} {base : ℕ} (h : ∀ k ∈ (List.range 16).map (base + ·), f k = f' k) :
    gicCfgBits f base = gicCfgBits f' base := by
  refine congrArg BitVec.ofFnLE (funext fun i => ?_)
  rw [h _ (List.mem_map.2 ⟨i / 2, List.mem_range.2 (by omega), rfl⟩)]

lemma distValue_congr {off : U64} {size : ℕ} (h : g.Agrees (GicOp.addresses g (.distRead off size)) g') :
    distValue g size (distReg off.toNat) = distValue g' size (distReg off.toNat) := by
  obtain ⟨hd, -, -, hentry⟩ := h
  unfold GicOp.addresses at hentry
  dsimp only at hentry
  simp only [Gic.entry, Prod.mk.injEq] at hentry
  cases hreg : distReg off.toNat with
  | ctlr => rw [distValue, distValue, hd]
  | enable x base =>
    rw [hreg] at hentry
    rw [distValue, distValue, gicBits_congr fun k hk => (hentry k hk).1]
  | pend x base =>
    rw [hreg] at hentry
    rw [distValue, distValue, gicBits_congr fun k hk => (hentry k hk).2.1]
  | activate x base =>
    rw [hreg] at hentry
    cases x with
    | false => rfl
    | true => rw [distValue, distValue, gicBits_congr fun k hk => (hentry k hk).2.2.1]
  | priority base =>
    rw [hreg] at hentry
    rw [distValue, distValue, ldLe_congr fun k hk => (hentry k hk).2.2.2.2.2.1]
  | target base =>
    rw [hreg] at hentry
    rw [distValue, distValue]
    refine ldLe_congr fun k hk => ?_
    split
    · rfl
    · exact (hentry k (List.mem_filter.2 ⟨hk, decide_eq_true (by omega)⟩)).2.2.2.2.2.2
  | config base =>
    rw [hreg] at hentry
    rw [distValue, distValue, gicCfgBits_congr fun k hk => (hentry k hk).2.2.2.2.1]
  | other => rfl

lemma gicBest_congr (h : g.Agrees (List.range gicNumIrqs) g') : gicBest g = gicBest g' := by
  obtain ⟨hd, hc, hp, hentry⟩ := h
  simp only [Gic.entry, Prod.mk.injEq] at hentry
  rw [gicBest_eq, gicBest_eq, hd, hc]
  have hscan : (List.range gicNumIrqs).foldl (gicPick g) (spurious, 256) =
      (List.range gicNumIrqs).foldl (gicPick g') (spurious, 256) := by
    refine List.foldl_ext _ _ _ fun best k hk => ?_
    obtain ⟨henabled, hpending, hactive, -, -, hpriority, -⟩ := hentry k hk
    rw [gicPick, gicPick, henabled, hpending, hactive, hpriority, hp]
  rw [hscan]

lemma gicValue_congr {op : GicOp} (h : (L.get b.dev).Agrees (op.indices (L.get b.dev)) (L.get b'.dev)) :
    gicValue L b op = gicValue L b' op := by
  cases op with
  | distRead off size =>
    have h' : (L.get b.dev).Agrees (GicOp.addresses (L.get b.dev) (.distRead off size)) (L.get b'.dev) := h
    rw [gicValue, gicValue, gicdRead_eq, gicdRead_eq, distValue_congr h']
  | cpuRead off size =>
    have hbest : off.toNat = 0x0c ∨ off.toNat = 0x18 → gicBest (L.get b.dev) = gicBest (L.get b'.dev) := by
      intro hscan
      refine gicBest_congr ⟨h.dCtlr, h.cCtlr, h.pmr, fun k hk => h.entry k ?_⟩
      refine List.mem_append.2 (.inl ?_)
      rw [if_pos (by simpa [GicOp.scans] using hscan)]
      exact hk
    unfold gicValue giccRead
    dsimp only
    split
    · rw [h.cCtlr]
    · rw [h.pmr]
    · rename_i hoff
      rw [hbest (.inl hoff)]
      split <;> rfl
    · rename_i hoff
      rw [hbest (.inr hoff)]
    · rfl
    · rfl
  | _ => rfl

end Values

section Bounds
variable {g : Gic}

/-- Where a register lies, and the first entry that an access there is about. -/
def DistReg.At (o : ℕ) : DistReg → Prop
  | ctlr => o = 0
  | enable _ base | pend _ base => 0x100 ≤ o ∧ o < 0x300 ∧ base = o % 0x80 * 8
  | activate true base => 0x300 ≤ o ∧ o < 0x380 ∧ base = o % 0x80 * 8
  | activate false base => 0x380 ≤ o ∧ o < 0x400 ∧ base = o % 0x80 * 8
  | priority base => 0x400 ≤ o ∧ o < 0x800 ∧ base = o - 0x400
  | target base => 0x800 ≤ o ∧ o < 0xc00 ∧ base = o - 0x800
  | config base => 0xc00 ≤ o ∧ o < 0xd00 ∧ base = (o - 0xc00) * 4
  | other => o < 0x100 ∨ 0xd00 ≤ o

lemma distReg_at (o : ℕ) : (distReg o).At o := by
  unfold distReg
  split_ifs <;> simp only [DistReg.At, and_true] <;> omega

lemma forall_map_add_range {n base m : ℕ} :
    (∀ k ∈ (List.range n).map (base + ·), k < m) ↔ ∀ i < n, base + i < m := by
  simp

lemma forall_map_filter_range {n base m : ℕ} {p : ℕ → Bool} :
    (∀ k ∈ ((List.range n).filter p).map (base + ·), k < m) ↔ ∀ i < n, p i = true → base + i < m := by
  simp only [List.forall_mem_map, List.mem_filter, List.mem_range, and_imp]

lemma forall_filter_banked {l : List ℕ} :
    (∀ k ∈ l.filter (32 ≤ ·), k < gicNumIrqs) ↔ ∀ k ∈ l, k < gicNumIrqs := by
  simp only [List.mem_filter, decide_eq_true_eq, gicNumIrqs]
  refine ⟨fun h k hk => ?_, fun h k hk => h k hk.1⟩
  by_cases h32 : 32 ≤ k
  · exact h k ⟨hk, h32⟩
  · omega

lemma read_addresses_lt_iff {off : U64} {size : ℕ} :
    (∀ k ∈ GicOp.addresses g (.distRead off size), k < gicNumIrqs) ↔ (GicOp.distRead off size).inside := by
  have hat := distReg_at off.toNat
  rw [GicOp.addresses, GicOp.inside]
  generalize off.toNat = o at hat ⊢
  have hword : ∀ {base : ℕ}, base = o % 0x80 * 8 →
      ((∀ k ∈ (List.range 32).map (base + ·), k < gicNumIrqs) ↔ o % 0x80 ≤ 0x1c) := by
    intro base hbase
    rw [forall_map_add_range, gicNumIrqs]
    exact ⟨fun h => by have := h 31 (by decide); omega, fun h i hi => by omega⟩
  cases hreg : distReg o with
  | ctlr =>
    rw [hreg, DistReg.At] at hat
    exact iff_of_true (by simp) ⟨by omega, by omega, by omega, by omega⟩
  | enable x base =>
    rw [hreg, DistReg.At] at hat
    rw [hword hat.2.2]
    exact ⟨fun h => ⟨fun _ => h, by omega, by omega, by omega⟩, fun h => h.1 (by omega)⟩
  | pend x base =>
    rw [hreg, DistReg.At] at hat
    rw [hword hat.2.2]
    exact ⟨fun h => ⟨fun _ => h, by omega, by omega, by omega⟩, fun h => h.1 (by omega)⟩
  | activate x base =>
    rw [hreg] at hat
    cases x with
    | false =>
      rw [DistReg.At] at hat
      exact iff_of_true (by simp) ⟨by omega, by omega, by omega, by omega⟩
    | true =>
      rw [DistReg.At] at hat
      rw [hword hat.2.2]
      exact ⟨fun h => ⟨fun _ => h, by omega, by omega, by omega⟩, fun h => h.1 (by omega)⟩
  | priority base =>
    rw [hreg, DistReg.At] at hat
    rw [forall_map_add_range, hat.2.2]
    exact ⟨fun h => ⟨by omega, fun _ => h, by omega, by omega⟩, fun h => h.2.1 (by omega)⟩
  | target base =>
    rw [hreg, DistReg.At] at hat
    rw [forall_filter_banked, forall_map_add_range, hat.2.2]
    exact ⟨fun h => ⟨by omega, by omega, fun _ => h, by omega⟩, fun h => h.2.2.1 (by omega)⟩
  | config base =>
    rw [hreg, DistReg.At] at hat
    rw [forall_map_add_range, gicNumIrqs]
    refine ⟨fun h => ⟨by omega, by omega, by omega, fun _ => ?_⟩, fun h i hi => ?_⟩
    · have := h 15 (by decide)
      omega
    · have := h.2.2.2 (by omega)
      omega
  | other =>
    rw [hreg, DistReg.At] at hat
    exact iff_of_true (by simp) ⟨by omega, by omega, by omega, by omega⟩

lemma write_addresses_lt_iff {off : U64} {size : ℕ} {val : U64} :
    (∀ k ∈ GicOp.addresses g (.distWrite off size val), k < gicNumIrqs) ↔ (GicOp.distWrite off size val).inside := by
  have hat := distReg_at off.toNat
  rw [GicOp.addresses, GicOp.inside]
  generalize off.toNat = o at hat ⊢
  cases hreg : distReg o with
  | ctlr =>
    rw [hreg, DistReg.At] at hat
    exact iff_of_true (by simp) ⟨by omega, by omega, by omega, by omega⟩
  | enable x base =>
    rw [hreg, DistReg.At] at hat
    rw [forall_map_filter_range, hat.2.2]
    exact ⟨fun h => ⟨fun _ => h, by omega, by omega, by omega⟩, fun h => h.1 (by omega)⟩
  | pend x base =>
    rw [hreg, DistReg.At] at hat
    rw [forall_map_filter_range, hat.2.2]
    exact ⟨fun h => ⟨fun _ => h, by omega, by omega, by omega⟩, fun h => h.1 (by omega)⟩
  | activate x base =>
    have hrange : 0x100 ≤ o ∧ o < 0x400 ∧ base = o % 0x80 * 8 := by
      rw [hreg] at hat
      cases x <;> rw [DistReg.At] at hat <;> omega
    rw [forall_map_filter_range, hrange.2.2]
    exact ⟨fun h => ⟨fun _ => h, by omega, by omega, by omega⟩, fun h => h.1 (by omega)⟩
  | priority base =>
    rw [hreg, DistReg.At] at hat
    rw [forall_map_add_range, hat.2.2]
    exact ⟨fun h => ⟨by omega, fun _ => h, by omega, by omega⟩, fun h => h.2.1 (by omega)⟩
  | target base =>
    rw [hreg, DistReg.At] at hat
    rw [forall_filter_banked, forall_map_add_range, hat.2.2]
    exact ⟨fun h => ⟨by omega, by omega, fun _ => h, by omega⟩, fun h => h.2.2.1 (by omega)⟩
  | config base =>
    rw [hreg, DistReg.At] at hat
    rw [forall_map_add_range, gicNumIrqs]
    refine ⟨fun h => ⟨by omega, by omega, by omega, fun _ => ?_⟩, fun h i hi => ?_⟩
    · have := h 15 (by decide)
      omega
    · have := h.2.2.2 (by omega)
      omega
  | other =>
    rw [hreg, DistReg.At] at hat
    exact iff_of_true (by simp) ⟨by omega, by omega, by omega, by omega⟩

lemma forall_singleton_lt {c : Prop} [Decidable c] {x m : ℕ} (h : c → x < m) :
    ∀ k ∈ (if c then [x] else []), k < m := by
  intro k hk
  split at hk
  · rename_i hc
    rw [List.mem_singleton.1 hk]
    exact h hc
  · exact absurd hk List.not_mem_nil

lemma addresses_lt_iff {op : GicOp} : (∀ k ∈ op.addresses g, k < gicNumIrqs) ↔ op.inside := by
  cases op with
  | distRead off size => exact read_addresses_lt_iff
  | distWrite off size val => exact write_addresses_lt_iff
  | cpuRead off size => exact iff_of_true (forall_singleton_lt fun h => (gicBest_eligible h.2).1) trivial
  | cpuWrite off size val => exact iff_of_true (forall_singleton_lt fun h => h.2) trivial
  | setIrq intid level => exact iff_of_true (forall_singleton_lt fun h => h) trivial

lemma scanned_lt (op : GicOp) : ∀ k ∈ (if op.scans g then List.range gicNumIrqs else []), k < gicNumIrqs := by
  intro k hk
  split at hk
  · exact List.mem_range.1 hk
  · exact absurd hk List.not_mem_nil

end Bounds

/-- The tables are indexed below their length exactly by the operations that stay inside.
The indices are all of them: other entries are left as they were, and what an access gives
back does not depend on them. -/
theorem gic_indices (b : Bus D) (op : GicOp) :
    ((∀ k ∈ op.indices (L.get b.dev), k < gicNumIrqs) ↔ op.inside) ∧
    (∀ k, k ∉ op.indices (L.get b.dev) → (L.get (gicStep L b op).dev).entry k = (L.get b.dev).entry k) ∧
    (∀ b', (L.get b.dev).Agrees (op.indices (L.get b.dev)) (L.get b'.dev) → gicValue L b op = gicValue L b' op) := by
  refine ⟨?_, fun k hk => ?_, fun b' h => gicValue_congr h⟩
  · rw [GicOp.indices, List.forall_mem_append, and_iff_right (scanned_lt op), addresses_lt_iff]
  · exact gicStep_entry fun h => hk (List.mem_append_right _ h)

/-- A word read in the reserved part behind the enable bits goes past the table. -/
theorem gic_index_past_end : ∃ k ∈ GicOp.indices Gic.initial (.distRead 0x120 4), ¬ k < gicNumIrqs :=
  ⟨256, by decide, by decide⟩

end Footprint

end Arm64Emu
