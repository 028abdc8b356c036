import Arm64Emu.FeInteger

/-! The shape of what the frontend appends to a block for one instruction: at most
so many operations that can leave the block only by a fault, and then possibly a
call of the interpreter or the end of the block. -/
namespace Arm64Emu

/-- Operations that go on to the next one unless an access faults, and leave the
instruction count alone. -/
def IrOp.plain : IrOp → Bool
  | .jmp _ | .bcond .. | .cbz .. | .tbz .. | .jmpind _ | .call1 .. | .call1ic .. | .vop _ => false
  | .atomicExcl .. | .atomicCas .. | .atomicEndExcl _ | .atomicEndCas .. => false
  | .cpust _ f _ => f ≠ .icount
  | _ => true

/-- The start of an atomic bracket, whose operations run or are all skipped. -/
def IrOp.opens : IrOp → Bool
  | .atomicExcl .. | .atomicCas .. => true
  | _ => false

def IrOp.closes : IrOp → Bool
  | .atomicEndExcl _ | .atomicEndCas .. => true
  | _ => false

/-- `out` appends at most `k` plain operations to `ir`, all with its count. -/
structure Emits (k : ℕ) (ir out : IrBlock) : Prop where
  ninsns : out.ninsns = ir.ninsns
  ops : ∃ l : List IrOp, out.ops = ir.ops ++ l.map (⟨·, ir.ninsns⟩) ∧ l.length ≤ k ∧ ∀ op ∈ l, op.plain = true

namespace Emits
variable {j k : ℕ} {ir out out' : IrBlock}

lemma refl (k : ℕ) (ir : IrBlock) : Emits k ir ir := ⟨rfl, [], by simp, by simp, by simp⟩

lemma mono (h : Emits j ir out) (hjk : j ≤ k) : Emits k ir out := by
  obtain ⟨hn, l, hl, hlen, hp⟩ := h
  exact ⟨hn, l, hl, hlen.trans hjk, hp⟩

lemma put (h : Emits k ir out) {op : IrOp} (hp : op.plain = true) : Emits (k + 1) ir (irPut out op) := by
  obtain ⟨hn, l, hl, hlen, hall⟩ := h
  refine ⟨hn, l ++ [op], ?_, by simpa using hlen, ?_⟩
  · simp [irPut, hl, hn]
  · simpa [or_imp, forall_and] using ⟨hall, hp⟩

lemma trans (h₁ : Emits j ir out) (h₂ : Emits k out out') : Emits (j + k) ir out' := by
  obtain ⟨hn₁, l₁, hl₁, hlen₁, hall₁⟩ := h₁
  obtain ⟨hn₂, l₂, hl₂, hlen₂, hall₂⟩ := h₂
  refine ⟨hn₂.trans hn₁, l₁ ++ l₂, ?_, by simpa using Nat.add_le_add hlen₁ hlen₂, ?_⟩
  · simp [hl₂, hl₁, hn₁]
  · intro op hop
    rcases List.mem_append.1 hop with h | h
    · exact hall₁ op h
    · exact hall₂ op h

lemma ite {p : Prop} [Decidable p] (h : Emits k ir out) (h' : Emits k ir out') :
    Emits k ir (if p then out else out') := by
  split
  · exact h
  · exact h'

lemma length_le (h : Emits k ir out) : out.ops.length ≤ ir.ops.length + k := by
  obtain ⟨-, l, hl, hlen, -⟩ := h
  rw [hl, List.length_append, List.length_map]
  omega

end Emits

section Emitters
variable (ir : IrBlock) (pc : U64)

lemma emits_put {op : IrOp} (h : op.plain = true) : Emits 1 ir (irPut ir op) := (Emits.refl 0 ir).put h

lemma emits_putX (rd : ℕ) {op : IrOp} (h : op.plain = true) : Emits 1 ir (putX ir rd op) :=
  (emits_put ir h).ite (Emits.refl 1 ir)

lemma emits_putAlu (op : AluOp) (w : Bool) (dst a b : Vreg) : Emits 1 ir (putAlu ir op w dst a b) :=
  (Emits.refl 1 ir).ite (emits_put ir rfl)

lemma emits_putAlui (op : AluOp) (w : Bool) (dst a : Vreg) (imm : U64) : Emits 1 ir (putAlui ir op w dst a imm) :=
  (Emits.refl 1 ir).ite (emits_put ir rfl)

lemma emits_feShifted (rm type amt : ℕ) (w : Bool) : Emits 1 ir (feShifted ir rm type amt w).1 := by
  unfold feShifted
  split
  · exact emits_put ir rfl
  · split
    · exact Emits.refl 1 ir
    · exact emits_put ir rfl

lemma emits_putExtend (m : Vreg) (option : ℕ) : Emits 2 ir (putExtend ir m option) := by
  unfold putExtend
  simp only
  split_ifs
  · exact (emits_put ir rfl).mono (by decide)
  · exact (emits_put ir rfl).put rfl
  · exact (emits_put ir rfl).mono (by decide)
  · exact (emits_put ir rfl).mono (by decide)

lemma emits_feExtended (rm option shift : ℕ) : Emits 3 ir (feExtended ir rm option shift).1 := by
  unfold feExtended
  simp only
  split_ifs
  · exact (emits_put ir rfl).mono (by decide)
  · exact Emits.refl 3 ir
  · exact (emits_putExtend ir _ _).put rfl
  · exact (emits_putExtend ir _ _).mono (by decide)

lemma emits_feLogicalShift (e : PdEnt) (w : Bool) (op opInv : AluOp) :
    Emits 2 ir (feLogicalShift ir e w op opInv) :=
  (emits_feShifted ir ..).trans (emits_putAlu ..)

lemma emits_feAddSubShift (e : PdEnt) (w : Bool) (op : AluOp) : Emits 2 ir (feAddSubShift ir e w op) :=
  (emits_feShifted ir ..).trans (emits_putAlu ..)

lemma emits_feAddSubExt (e : PdEnt) (w : Bool) (op : AluOp) : Emits 4 ir (feAddSubExt ir e w op) :=
  (emits_feExtended ir ..).trans (emits_putAlu ..)

lemma emits_putX₂ (rd : ℕ) {op₁ op₂ : IrOp} (h₁ : op₁.plain = true) (h₂ : op₂.plain = true) :
    Emits 2 ir (putX (putX ir rd op₁) rd op₂) :=
  (emits_putX ir rd h₁).trans (emits_putX _ rd h₂)

lemma emits_feDp (e : PdEnt) : Emits 4 ir (feDp ir e pc) := by
  obtain ⟨insn, op, rd, rn, rm, imm⟩ := e
  cases op
  all_goals first
    | exact (emits_putX ir rd rfl).mono (by decide)
    | exact (emits_putAlu ir _ _ _ _ _).mono (by decide)
    | exact (emits_putAlui ir _ _ _ _ _).mono (by decide)
    | exact (emits_putX₂ ir rd rfl rfl).mono (by decide)
    | exact (emits_feLogicalShift ir _ _ _ _).mono (by decide)
    | exact (emits_feAddSubShift ir _ _ _).mono (by decide)
    | exact emits_feAddSubExt ir _ _ _
    | exact (emits_put ir rfl).mono (by decide)
    | exact Emits.refl 4 ir
    | (refine (emits_putX ir rd ?_).mono (by decide); split <;> rfl)

lemma emits_putLdWb (rn : ℕ) (imm : U64) (rt szlog : ℕ) (sign is64 pre : Bool) :
    Emits 3 ir (putLdWb ir rn imm rt szlog sign is64 pre pc) := by
  unfold putLdWb
  simp only
  split_ifs
  all_goals first
    | exact ((emits_put ir rfl).put rfl).put rfl
    | exact ((emits_put ir rfl).put rfl).mono (by decide)

lemma emits_feStp (e : PdEnt) (szl : ℕ) (k : PairKind) : Emits 3 ir (feStp ir e pc szl k) :=
  (((emits_put ir rfl).put rfl).mono (by decide)).ite (((emits_put ir rfl).put rfl).put rfl)

lemma Emits.move {k : ℕ} {ir out : IrBlock} (h : Emits k ir out) (r : ℕ) (w : Bool) (t : Fin 3) :
    Emits (k + 1) ir (if r ≠ 31 then irPut out (.mov w (.x r) (.tmp t)) else out) :=
  (h.put rfl).ite (h.mono (Nat.le_succ k))

lemma emits_pairLoad {p q : Prop} [Decidable p] [Decidable q] {add mov ld₁ ld₂ ld₁' ld₂' : IrOp}
    (ha : add.plain = true) (hm : mov.plain = true) (h₁ : ld₁.plain = true) (h₂ : ld₂.plain = true)
    (h₁' : ld₁'.plain = true) (h₂' : ld₂'.plain = true) :
    Emits 3 ir (if p then irPut (irPut (if q then irPut ir add else irPut ir mov) ld₁) ld₂
      else irPut (irPut ir ld₁') ld₂') :=
  ((((emits_put ir ha).ite (emits_put ir hm)).put h₁).put h₂).ite (((emits_put ir h₁').put h₂').mono (by decide))

lemma emits_feLdp (e : PdEnt) (is64 : Bool) (k : PairKind) : Emits 6 ir (feLdp ir e pc is64 k) := by
  have hld {p q : Prop} [Decidable p] [Decidable q] {add mov ld₁ ld₂ ld₁' ld₂' : IrOp} :=
    @emits_pairLoad ir p q _ _ add mov ld₁ ld₂ ld₁' ld₂'
  unfold feLdp
  simp only
  refine Emits.ite (Emits.mono (Emits.move (Emits.move ?_ _ _ _) _ _ _) (le_refl 5 |>.trans (by decide)))
    (Emits.ite (Emits.put (Emits.move (Emits.move ?_ _ _ _) _ _ _) rfl)
      (Emits.put (Emits.move (Emits.move ?_ _ _ _) _ _ _) rfl))
  all_goals exact hld rfl rfl rfl rfl rfl rfl

lemma emits_feVecPair {put : IrBlock → Vreg → U64 → ℕ → ℕ → U64 → IrBlock}
    (hput : ∀ ir a off rt vszl, Emits 1 ir (put ir a off rt vszl pc)) (e : PdEnt) (vszl : ℕ) (k : PairKind) :
    Emits 3 ir (feVecPair put ir e pc vszl k) := by
  have h := (hput ir (rsp e.rn) (if k = .post then 0 else e.imm) e.rd vszl).trans
    (hput _ (rsp e.rn) ((if k = .post then 0 else e.imm) + zext (2 ^ vszl)) e.rm vszl)
  exact (h.mono (by decide)).ite (h.put rfl)

lemma emits_putLdv (a : Vreg) (off : U64) (rt vszl : ℕ) : Emits 1 ir (putLdv ir a off rt vszl pc) :=
  emits_put ir rfl

lemma emits_putStv (a : Vreg) (off : U64) (rt vszl : ℕ) : Emits 1 ir (putStv ir a off rt vszl pc) :=
  emits_put ir rfl

lemma emits_feRegOffset (e : PdEnt) : Emits 5 ir (feRegOffset ir e pc) := by
  unfold feRegOffset
  have h := (emits_feExtended ir e.rm ((e.imm >>> 3) &&& 7).toNat (e.imm &&& 7).toNat)
  simp only
  split <;> exact (h.put rfl).put rfl

lemma emits_feMem (e : PdEnt) : Emits 6 ir (feMem ir e pc) := by
  unfold feMem
  simp only
  split
  all_goals first
    | exact (emits_put ir rfl).mono (by decide)
    | exact ((emits_put ir rfl).put rfl).mono (by decide)
    | exact (emits_putLdWb ir pc _ _ _ _ _ _ _).mono (by decide)
    | exact (emits_feRegOffset ir pc _).mono (by decide)
    | exact (emits_feStp ir pc _ _ _).mono (by decide)
    | exact emits_feLdp ir pc _ _ _
    | exact (emits_feVecPair ir pc (fun ir => emits_putLdv ir pc) _ _ _).mono (by decide)
    | exact (emits_feVecPair ir pc (fun ir => emits_putStv ir pc) _ _ _).mono (by decide)
    | exact Emits.refl 6 ir

end Emitters

def EmitsOpt (k : ℕ) (ir : IrBlock) (o : Option IrBlock) : Prop := ∀ out, o = some out → Emits k ir out

namespace EmitsOpt
variable {k : ℕ} {ir out : IrBlock} {o o' : Option IrBlock}

lemma none : EmitsOpt k ir .none := fun _ h => absurd h (by simp)

lemma some (h : Emits k ir out) : EmitsOpt k ir (some out) := by
  intro out' hout
  rwa [← Option.some.inj hout]

lemma ite {p : Prop} [Decidable p] (h : EmitsOpt k ir o) (h' : EmitsOpt k ir o') :
    EmitsOpt k ir (if p then o else o') := by
  split
  · exact h
  · exact h'

end EmitsOpt

section Families
variable (ir : IrBlock) (insn : U32) (pc : U64)

lemma emits_feLdstPair : EmitsOpt 6 ir (feLdstPair ir insn pc) := by
  have hvec {put : IrBlock → Vreg → U64 → ℕ → ℕ → U64 → IrBlock} {wb : Bool} {a : Vreg} {off off' : U64}
      {rt rt2 vszl rn : ℕ} {imm : U64} (hput : ∀ ir a off rt vszl, Emits 1 ir (put ir a off rt vszl pc)) :
      Emits 6 ir (if wb then putWb (put (put ir a off rt vszl pc) a off' rt2 vszl pc) rn imm
        else put (put ir a off rt vszl pc) a off' rt2 vszl pc) := by
    have h := (hput ir a off rt vszl).trans (hput (put ir a off rt vszl pc) a off' rt2 vszl)
    exact ((h.put rfl).mono (by decide)).ite (h.mono (by decide))
  have hld {p q : Prop} [Decidable p] [Decidable q] {add mov ld₁ ld₂ ld₁' ld₂' : IrOp} :=
    @emits_pairLoad ir p q _ _ add mov ld₁ ld₂ ld₁' ld₂'
  unfold feLdstPair
  refine .ite .none (.ite (.ite .none (.some (hvec ?_))) (.ite .none (.ite (.some ?_) (.ite .none (.some ?_)))))
  · cases bit insn 22
    · exact fun ir => emits_putStv ir pc
    · exact fun ir => emits_putLdv ir pc
  · refine Emits.ite
      (Emits.ite (Emits.put (Emits.move (Emits.move ?_ _ _ _) _ _ _) rfl)
        (Emits.put (Emits.move (Emits.move ?_ _ _ _) _ _ _) rfl))
      (Emits.mono (Emits.move (Emits.move ?_ _ _ _) _ _ _) (le_refl 5 |>.trans (by decide)))
    all_goals exact hld rfl rfl rfl rfl rfl rfl
  · exact ((emits_put ir rfl).put rfl).mono (by decide)

lemma emits_feLdstExtra : EmitsOpt 6 ir (feLdstExtra ir insn pc) := by
  have hro (shift : ℕ) {add mem : IrOp} (ha : add.plain = true) (hm : mem.plain = true) :
      Emits 6 ir (irPut (irPut (feExtended ir (bits insn 20 16) (bits insn 15 13) shift).1 add) mem) :=
    (((emits_feExtended ir _ _ _).put ha).put hm).mono (by decide)
  have h₂ {op op' : IrOp} (h : op.plain = true) (h' : op'.plain = true) : Emits 6 ir (irPut (irPut ir op) op') :=
    ((emits_put ir h).put h').mono (by decide)
  unfold feLdstExtra
  refine .ite .none (.ite ?literal (.ite (emits_feLdstPair ir insn pc) (.ite .none (.ite ?offset ?indexed))))
  case literal => exact .ite .none (.ite (.some (h₂ rfl rfl)) (.ite (.some (.refl 6 ir)) .none))
  case offset =>
    refine .ite .none (.ite .none (.ite (.some (.refl 6 ir)) (.ite .none (.ite (.some ?_)
      (.ite (.some (hro _ rfl rfl)) (.some (hro _ rfl rfl)))))))
    split
    · exact hro _ rfl rfl
    · exact hro _ rfl rfl
  case indexed =>
    refine .ite .none (.ite (.ite .none (.some ?_)) (.ite (.some (h₂ rfl rfl)) (.ite .none (.ite .none (.some ?_)))))
    · split
      · exact h₂ rfl rfl
      · exact h₂ rfl rfl
    · exact (emits_putLdWb ir pc _ _ _ _ _ _ _).mono (by decide)

lemma emits_putContig (l : Bool) (rn vszl n : ℕ) (ir : IrBlock) (r off : ℕ) :
    Emits n ir (putContig l rn vszl pc n ir r off) := by
  induction n generalizing ir r off with
  | zero => exact .refl 0 ir
  | succ n ih =>
    have h : Emits 1 ir ((if l then putLdv else putStv) ir (rsp rn) (zext off) (r % 32) vszl pc) := by
      cases l
      · exact emits_put ir rfl
      · exact emits_put ir rfl
    exact (h.trans (ih _ _ _)).mono (Nat.add_comm 1 n).le

lemma emits_feLd1 : EmitsOpt 5 ir (feLd1 ir insn pc) := by
  unfold feLd1
  refine .ite .none ?_
  split
  · exact .none
  rename_i nregs hregs
  have hn : nregs ≤ 4 := by
    unfold ld1Regs at hregs
    split at hregs <;> grind
  have h := (emits_putContig pc (bit insn 22) (bits insn 9 5) (if bit insn 30 then 4 else 3) nregs ir
    (bits insn 4 0) 0).mono hn
  exact .some (.ite (.ite (h.put rfl) (h.put rfl)) (h.mono (by decide)))

lemma emits_feBitfield : EmitsOpt 4 ir (feBitfield ir insn) := by
  unfold feBitfield
  refine .ite .none (.ite .none (.ite (.ite (.some (.refl 4 ir)) (.some ?_)) (.ite (.ite (.some (.refl 4 ir))
    (.ite (.some ?_) (.some ?_))) .none)))
  · exact ((emits_put ir rfl).put rfl).mono (by decide)
  · exact (((Emits.ite (emits_put ir rfl) (.ite (emits_put ir rfl) (emits_put ir rfl))).put rfl).put rfl).put rfl
  · exact (((emits_put ir rfl).put rfl).put rfl).put rfl

lemma emits_feCounter (rt op2 : ℕ) : Emits 6 ir (feCounter ir rt op2) := by
  have hb : Emits 2 ir (if ir.ninsns ≠ 0 then
      putAlui (irPut ir (.cpuld true (.x rt) .icount)) .add true (.x rt) (.x rt) (zext ir.ninsns)
      else irPut ir (.cpuld true (.x rt) .icount)) :=
    ((emits_put ir rfl).trans (emits_putAlui ..)).ite ((emits_put ir rfl).mono (by decide))
  have hs := (hb.put (show (IrOp.cpuld true (.tmp 0) .timerSkip).plain = true from rfl)).trans
    (emits_putAlu _ .add true (.x rt) (.x rt) (.tmp 0))
  exact .ite (.refl 6 ir) (.ite ((emits_put ir rfl).mono (by decide))
    (.ite ((hs.put rfl).trans (emits_putAlu ..)) (hs.mono (by decide))))

lemma emits_putZvaStores (n : ℕ) (ir : IrBlock) (off : ℕ) : Emits n ir (putZvaStores pc n ir off) := by
  induction n generalizing ir off with
  | zero => exact .refl 0 ir
  | succ n ih => exact ((emits_put ir rfl).trans (ih _ _)).mono (Nat.add_comm 1 n).le

lemma emits_baseStage (rn : ℕ) : Emits 1 ir (baseStage ir rn).1 := by
  unfold baseStage
  split
  · exact .refl 1 ir
  · exact emits_put ir rfl

/-- A load-exclusive of a pair through a base that has to be staged, into two
registers: the longest expansion there is. -/
def wideLoadPair (insn : U32) : Bool :=
  insn &&& 0x3F800000 = 0x08000000 && bit insn 21 && bit insn 22 && bit insn 31 &&
    bits insn 9 5 ≠ 31 && bits insn 4 0 ≠ 31 && bits insn 14 10 ≠ 31

/-- An atomic that was taken counts itself, with or without a bracket; one that was
not may leave the first two operations of its expansion behind. -/
inductive AtomicShape (k : ℕ) (ir : IrBlock) : IrBlock × Bool → Prop
  | done {out : IrBlock} : Emits k ir out → AtomicShape k ir (out.count, true)
  | bracket {i j : ℕ} {out out' : IrBlock} {o c : IrOp} : Emits i ir out → o.opens = true →
      Emits j (irPut out o) out' → c.closes = true → i + j + 2 ≤ k → AtomicShape k ir ((irPut out' c).count, true)
  | declined {out : IrBlock} : Emits 2 ir out → AtomicShape k ir (out, false)

lemma AtomicShape.ite {k : ℕ} {ir : IrBlock} {p : Prop} [Decidable p] {r r' : IrBlock × Bool}
    (h : AtomicShape k ir r) (h' : AtomicShape k ir r') : AtomicShape k ir (if p then r else r') := by
  split
  · exact h
  · exact h'

lemma shape_feLseMemop : AtomicShape 6 ir (feLseMemop ir insn pc) := by
  have hl : Emits 2 ir (putLdTmp (baseStage ir (bits insn 9 5)).1 (baseStage ir (bits insn 9 5)).2 0 1
      (bits insn 31 30) false (bits insn 31 30 = 3) pc) := (emits_baseStage ir _).put rfl
  unfold feLseMemop
  refine .ite (.ite (.done ((emits_put ir rfl).mono (by decide))) (.declined (.refl 2 ir)))
    (.ite (.done ?swp) (.ite (.done ?alu) (.ite (.declined hl) (.done ?minmax))))
  case swp => exact Emits.mono (Emits.move (hl.put rfl) _ _ _) (by decide)
  case alu => exact Emits.mono (Emits.move ((hl.trans (emits_putAlu ..)).put rfl) _ _ _) (by decide)
  case minmax => exact Emits.move (((hl.trans (emits_putAlu ..)).put rfl).put rfl) _ _ _

lemma shape_feLseCas : AtomicShape 6 ir (feLseCas ir insn pc, true) := by
  have hl : Emits 2 ir (putLdTmp (baseStage ir (bits insn 9 5)).1 (baseStage ir (bits insn 9 5)).2 0 1
      (bits insn 31 30) false (bits insn 31 30 = 3) pc) := (emits_baseStage ir _).put rfl
  unfold feLseCas
  by_cases hs : bits insn 31 30 < 2
  · simp only [if_pos hs]
    exact .bracket (hl.put rfl) rfl (emits_put _ rfl) rfl (by decide)
  · simp only [if_neg hs]
    exact .bracket hl rfl (emits_put _ rfl) rfl (by decide)

lemma emits_pairExcl {k : ℕ} {out : IrBlock} (h : Emits k ir out) {ld₁ ld₂ : IrOp} (h₁ : ld₁.plain = true)
    (h₂ : ld₂.plain = true) (rt rt2 : ℕ) :
    Emits (k + 2 + (if rt = 31 then 0 else 1) + if rt2 = 31 then 0 else 1) ir
      (let ir := irPut (irPut out ld₁) ld₂
       let ir := if rt ≠ 31 then irPut ir (.mov true (.x rt) (.tmp 0)) else ir
       if rt2 ≠ 31 then irPut ir (.mov true (.x rt2) (.tmp 1)) else ir) := by
  have h' := (h.put h₁).put h₂
  by_cases hrt : rt = 31 <;> by_cases hrt2 : rt2 = 31 <;> simp only [hrt, hrt2, ne_eq, not_true, not_false_eq_true,
    if_true, if_false]
  · exact h'
  · exact h'.put rfl
  · exact h'.put rfl
  · exact (h'.put rfl).put rfl

lemma emits_baseStage_le (rn : ℕ) : Emits (if rn = 31 then 0 else 1) ir (baseStage ir rn).1 := by
  unfold baseStage
  split
  · exact .refl 0 ir
  · exact emits_put ir rfl

lemma shape_feLoadExcl {k : ℕ}
    (hk : (bit insn 21 && bits insn 9 5 ≠ 31 && bits insn 4 0 ≠ 31 && bits insn 14 10 ≠ 31) = true → 10 ≤ k)
    (hk' : 9 ≤ k) : AtomicShape k ir (feLoadExcl ir insn pc, true) := by
  have hb := emits_baseStage_le ir (bits insn 9 5)
  unfold feLoadExcl
  refine .done (Emits.mono (Emits.put (Emits.put (Emits.put (Emits.put (Emits.put
    (k := if bit insn 21 then (if bits insn 9 5 = 31 then 0 else 1) + 2 + (if bits insn 4 0 = 31 then 0 else 1) +
      (if bits insn 14 10 = 31 then 0 else 1) else 2) ?_ rfl) rfl) rfl) rfl) rfl) ?_)
  · cases bit insn 21
    · exact (hb.put rfl).mono (by split <;> simp)
    · exact emits_pairExcl ir hb rfl rfl _ _
  · revert hk
    cases bit insn 21
    · intro
      simp only [Bool.false_eq_true, if_false]
      omega
    · split_ifs <;> simp [*] <;> omega

lemma shape_feStoreExcl : AtomicShape 4 ir (feStoreExcl ir insn pc, true) := by
  unfold feStoreExcl
  exact .bracket (.refl 0 ir) rfl (.ite ((emits_put _ rfl).put rfl) ((emits_put _ rfl).mono (by decide))) rfl
    (by decide)

lemma AtomicShape.mono {j k : ℕ} {ir : IrBlock} {r : IrBlock × Bool} (h : AtomicShape j ir r) (hjk : j ≤ k) :
    AtomicShape k ir r := by
  cases h with
  | done h => exact .done (h.mono hjk)
  | bracket h ho h' hc hk => exact .bracket h ho h' hc (hk.trans hjk)
  | declined h => exact .declined h

lemma shape_feAtomic {k : ℕ} (hk : wideLoadPair insn = true → 10 ≤ k) (hk' : 9 ≤ k) :
    AtomicShape k ir (feAtomic ir insn pc) := by
  unfold feAtomic
  split_ifs with h₁ h₂ h₃ h₄ h₅
  · exact (shape_feLseMemop ir insn pc).mono (by omega)
  · exact (shape_feLseCas ir insn pc).mono (by omega)
  · exact .declined (.refl 2 ir)
  · exact .declined (.refl 2 ir)
  · refine shape_feLoadExcl ir insn pc (fun hw => hk ?_) hk'
    rw [not_not] at h₃
    simp only [Bool.and_eq_true, decide_eq_true_eq] at hw
    simp only [hw.1.1.1, true_and, Bool.not_eq_true', Bool.not_eq_false] at h₄
    simp only [wideLoadPair, h₃, hw.1.1.1, h₄, h₅, decide_true, Bool.and_true, Bool.true_and, Bool.and_eq_true,
      decide_eq_true_eq]
    exact ⟨⟨hw.1.1.2, hw.1.2⟩, hw.2⟩
  · exact (shape_feStoreExcl ir insn pc).mono (by omega)

end Families

/-- `IRO_JMP` and `IRO_JMPIND`, which always leave the block. -/
def IrOp.leaves : IrOp → Bool
  | .jmp _ | .jmpind _ => true
  | _ => false

/-- `IRO_MOVI` and `IRO_MOV`, which cannot fault. -/
def IrOp.moves : IrOp → Bool
  | .movi .. | .mov .. => true
  | _ => false

/-- `IRO_MOVI`s and `IRO_MOV`s put one after the other. -/
def putAll (ir : IrBlock) (l : List IrOp) : IrBlock := l.foldl irPut ir

def IrOp.mayLeave : IrOp → Bool
  | .bcond .. | .cbz .. | .tbz .. => true
  | _ => false

/-- What translating the word `insn` at `pc` can append to `ir`, at most `k`
operations in all. -/
inductive FeShape (F : FpJit) (k : ℕ) (ir : IrBlock) (insn : U32) (pc : U64) : IrBlock × FeRes → Prop
  | native {out : IrBlock} : Emits k ir out → FeShape F k ir insn pc (out.count, .feCont)
  | bracket {i j : ℕ} {out out' : IrBlock} {o c : IrOp} : Emits i ir out → o.opens = true →
      Emits j (irPut out o) out' → c.closes = true → i + j + 2 ≤ k →
      FeShape F k ir insn pc ((irPut out' c).count, .feCont)
  | nativeEnd {j : ℕ} {out : IrBlock} (target : U64) : Emits j ir out → j + 1 ≤ k →
      FeShape F k ir insn pc (putJmp out.count target)
  | branch {l : List IrOp} {op : IrOp} : (∀ o ∈ l, o.moves = true) → l.length + 1 ≤ k → op.leaves = true →
      FeShape F k ir insn pc (irPut (putAll ir.count l) op, .feEnd)
  | condBranch {op : IrOp} (next : U64) : op.mayLeave = true → 2 ≤ k →
      FeShape F k ir insn pc (putJmp (irPut ir.count op) next)
  | call {j : ℕ} {out : IrBlock} : Emits j ir out → j + 1 ≤ k → FeShape F k ir insn pc (putCall1 out pc insn, .feCont)
  | callEnd : 2 ≤ k → FeShape F k ir insn pc (putJmp (putCall1 ir pc insn) (pc + 4))
  | callIc : 2 ≤ k → FeShape F k ir insn pc (putJmp (irPut ir (.call1ic pc insn)) (pc + 4))
  | vop {v : Vop} {selfCounted : Bool} : F.translate insn pc = some (v, selfCounted) → 1 ≤ k →
      FeShape F k ir insn pc (if selfCounted then irPut ir (.vop v) else (irPut ir (.vop v)).count, .feCont)

section Shape
variable (F : FpJit) (env : FeEnv) (ir : IrBlock) (insn : U32) (pc : U64)

lemma length_putAll (l : List IrOp) : (putAll ir l).ops.length = ir.ops.length + l.length := by
  induction l generalizing ir with
  | nil => rfl
  | cons op l ih =>
    rw [putAll, List.foldl_cons, ← putAll, ih, List.length_cons]
    simp [irPut]
    omega

lemma FeShape.ite {F : FpJit} {k : ℕ} {ir : IrBlock} {insn : U32} {pc : U64} {p : Prop} [Decidable p]
    {r r' : IrBlock × FeRes} (h : FeShape F k ir insn pc r) (h' : FeShape F k ir insn pc r') :
    FeShape F k ir insn pc (if p then r else r') := by
  split
  · exact h
  · exact h'

lemma FeShape.mono {F : FpJit} {j k : ℕ} {ir : IrBlock} {insn : U32} {pc : U64} {r : IrBlock × FeRes}
    (h : FeShape F j ir insn pc r) (hjk : j ≤ k) : FeShape F k ir insn pc r := by
  cases h with
  | native h => exact .native (h.mono hjk)
  | bracket h ho h' hc hk => exact .bracket h ho h' hc (hk.trans hjk)
  | nativeEnd target h hj => exact .nativeEnd target h (hj.trans hjk)
  | branch h hj hop => exact .branch h (hj.trans hjk) hop
  | condBranch next hop hj => exact .condBranch next hop (hj.trans hjk)
  | call h hj => exact .call h (hj.trans hjk)
  | callEnd hj => exact .callEnd (hj.trans hjk)
  | callIc hj => exact .callIc (hj.trans hjk)
  | vop hF hj => exact .vop hF (hj.trans hjk)

lemma FeShape.length_le {F : FpJit} {k : ℕ} {ir : IrBlock} {insn : U32} {pc : U64} {r : IrBlock × FeRes}
    (h : FeShape F k ir insn pc r) : r.1.ops.length ≤ ir.ops.length + k := by
  have hput (ir : IrBlock) (op : IrOp) : (irPut ir op).ops.length = ir.ops.length + 1 := by simp [irPut]
  have hcount (ir : IrBlock) : ir.count.ops = ir.ops := rfl
  cases h with
  | native h => exact h.length_le
  | bracket h ho h' hc hk =>
    have := h.length_le
    have := h'.length_le
    simp only [hput, hcount] at *
    omega
  | nativeEnd target h hj =>
    have := h.length_le
    simp only [putJmp, hput, hcount]
    omega
  | branch h hj hop =>
    rename_i l op
    have := length_putAll ir.count l
    simp only [hput, hcount] at *
    omega
  | condBranch next hop hj =>
    simp only [putJmp, hput, hcount]
    omega
  | call h hj =>
    have := h.length_le
    simp only [putCall1, hput]
    omega
  | callEnd hj =>
    simp only [putJmp, putCall1, hput]
    omega
  | callIc hj =>
    simp only [putJmp, hput]
    omega
  | vop hF hj =>
    split <;> simp only [hput, hcount] <;> omega

lemma shape_feSystem : FeShape F 9 ir insn pc (feSystem env ir insn pc) := by
  have h₁ {op : IrOp} (h : op.plain = true) : FeShape F 9 ir insn pc ((irPut ir op).count, .feCont) :=
    .native ((emits_put ir h).mono (by decide))
  have hx (rd : ℕ) {op : IrOp} (h : op.plain = true) : FeShape F 9 ir insn pc ((putX ir rd op).count, .feCont) :=
    .native ((emits_putX ir rd h).mono (by decide))
  have h₂ {op op' : IrOp} (h : op.plain = true) (h' : op'.plain = true) : Emits 2 ir (irPut (irPut ir op) op') :=
    (emits_put ir h).put h'
  unfold feSystem
  refine .ite (hx _ rfl) (.ite (hx _ rfl) (.ite (h₁ rfl) (.ite (hx _ rfl) (.ite (h₁ rfl) (.ite (hx _ rfl)
    (.ite (h₁ rfl) (.ite ?daif (.ite ?msrDaif (.ite ?daifSet (.ite ?daifClr (.ite ?clrex (.ite (.native (.refl 9 ir))
      (.ite ?counter (.ite (hx _ rfl) (.ite (h₁ rfl) (.ite ?zva (.ite ?isb (.callEnd (by decide)))))))))))))))))))
  case daif => exact .native ((emits_putX₂ ir _ rfl rfl).mono (by decide))
  case msrDaif => exact .nativeEnd _ (h₂ rfl rfl) (by decide)
  case daifSet => exact .native (((h₂ rfl rfl).put rfl).mono (by decide))
  case daifClr => exact .nativeEnd _ ((h₂ rfl rfl).put rfl) (by decide)
  case clrex => exact .native ((h₂ rfl rfl).mono (by decide))
  case counter => exact .native ((emits_feCounter ir _ _).mono (by decide))
  case zva => exact .native ((emits_put ir rfl).trans (emits_putZvaStores pc 8 _ 0))
  case isb => exact .nativeEnd _ (.refl 0 ir) (by decide)

lemma shape_feBranch (e : PdEnt) : FeShape F 9 ir insn pc (feBranch ir e pc) := by
  have hb (l : List IrOp) {op : IrOp} (hl : l.all IrOp.moves = true) (hlen : l.length ≤ 2) (hop : op.leaves = true) :
      FeShape F 9 ir insn pc (irPut (putAll ir.count l) op, .feEnd) :=
    .branch (List.all_eq_true.1 hl) (by omega) hop
  have hj (target : U64) : FeShape F 9 ir insn pc (putJmp ir.count target) := hb [] rfl (by decide) rfl
  have hc {op : IrOp} (next : U64) (h : op.mayLeave = true) :
      FeShape F 9 ir insn pc (putJmp (irPut ir.count op) next) := .condBranch next h (by decide)
  obtain ⟨einsn, op, rd, rn, rm, imm⟩ := e
  cases op
  case b => exact hj _
  case bl => exact hb [_] rfl (by simp) rfl
  case bcond => exact .ite (hj _) (hc _ rfl)
  case cbz64 | cbz32 | cbnz64 | cbnz32 | tbz | tbnz => exact .ite (hj _) (hc _ rfl)
  case br => exact .ite (hb [_] rfl (by simp) rfl) (hb [] rfl (by decide) rfl)
  all_goals
    refine hb [if rx rn = .zero then .movi (.tmp 0) 0 else .mov true (.tmp 0) (rx rn), _] ?_ (by simp) rfl
    split <;> rfl

lemma feAtomic_declined (h : (feAtomic ir insn pc).2 = false) :
    (feAtomic ir insn pc).1 = ir ∨ insn &&& 0x3F200C00 = 0x38200000 := by
  by_cases hlse : insn &&& 0x3F200C00 = 0x38200000
  · exact .inr hlse
  · left
    revert h
    unfold feAtomic
    rw [if_neg hlse]
    split_ifs <;> simp

lemma feGeneric_lse (hlse : insn &&& 0x3F200C00 = 0x38200000) (hat : (feAtomic ir insn pc).2 = false) :
    feGeneric F env ir insn pc = (putCall1 (feAtomic ir insn pc).1 pc insn, .feCont) := by
  have hgrp : bits insn 29 24 = 0x38 := bits_of_and_eq hlse rfl
  have hfld : bits insn 29 27 = 7 ∧ bit insn 24 = false ∧ bits insn 27 25 ≠ 7 ∧ bits insn 31 24 ≠ 0xd5 ∧
      bits insn 28 25 ≠ 0xa ∧ bits insn 28 25 ≠ 0xb ∧ bits insn 28 24 = 0x18 := by
    simp only [bits, bit_eq_decide, Nat.shiftRight_eq_div_pow] at hgrp ⊢
    grind
  obtain ⟨h29, h24, h27, h31, ha, hb, h28⟩ := hfld
  have h21 : bit insn 21 = true := by
    have : bits insn 21 21 = 1 := bits_of_and_eq hlse rfl
    rwa [bits_self, Bool.toNat_eq_one] at this
  have h11 : bits insn 11 10 = 0 := bits_of_and_eq hlse rfl
  have hne (m v : U32) (hm : bits m 28 24 = 31) (hv : bits v 28 24 ≠ 0x18) : insn &&& m ≠ v := fun h =>
    hv ((bits_of_and_eq h hm).symm.trans h28)
  have hfp : F.translate insn pc = none := by
    by_contra hF
    exact h27 (F.fp_group insn pc hF)
  have hext (ir : IrBlock) : feLdstExtra ir insn pc = none := by
    simp [feLdstExtra, h29, h24, h21, h11]
  have hbf (ir : IrBlock) : feBitfield ir insn = none := by
    rw [feBitfield, if_pos (hne _ _ rfl (by decide))]
  have hld1 (ir : IrBlock) : feLd1 ir insn pc = none := by
    rw [feLd1, if_pos ⟨hne _ _ rfl (by decide), by simpa using hne _ _ rfl (by decide)⟩]
  simp only [feGeneric, hat, hfp, hext, hbf, hld1, Bool.false_eq_true, if_false,
    if_neg (hne 0x7FFFFC00 0x5AC00000 rfl (by decide)), if_neg (hne 0x1FE0FC00 0x1A000000 rfl (by decide)),
    if_neg (hne 0x3FA00000 0x08800000 rfl (by decide)), h31, ha, hb, or_false]

lemma shape_feGeneric {k : ℕ} (hk : wideLoadPair insn = true → 10 ≤ k) (hk' : 9 ≤ k) :
    FeShape F k ir insn pc (feGeneric F env ir insn pc) := by
  have hmono {j : ℕ} {out : IrBlock} (h : Emits j ir out) (hj : j ≤ 9) :
      FeShape F k ir insn pc (out.count, .feCont) := .native (h.mono (hj.trans hk'))
  rcases hat : feAtomic ir insn pc with ⟨ir', done⟩
  have hshape := shape_feAtomic ir insn pc hk hk'
  rw [hat] at hshape
  cases hshape with
  | done he =>
    simp only [feGeneric, hat, if_true]
    exact .native he
  | bracket he ho he' hc hk =>
    simp only [feGeneric, hat, if_true]
    exact .bracket he ho he' hc hk
  | declined he =>
  have hdecl : (feAtomic ir insn pc).2 = false := by rw [hat]
  obtain hir | hlse := feAtomic_declined ir insn pc hdecl
  · have hat : feAtomic ir insn pc = (ir, false) := Prod.ext hir hdecl
    simp only [feGeneric, hat, Bool.false_eq_true, if_false]
    split
    case h_1 v selfCounted hF => exact .vop hF (by omega)
    case h_2 out _ hout => exact hmono (emits_feLdstExtra ir insn pc out hout) (by decide)
    case h_3 out _ _ hout => exact hmono (emits_feBitfield ir insn out hout) (by decide)
    case h_4 out _ _ _ hout => exact hmono (emits_feLd1 ir insn pc out hout) (by decide)
    case h_5 =>
      refine .ite ?rbit (.ite ?carry (.ite ?ordered (.ite ?system ?other)))
      case rbit => exact hmono (emits_putX ir _ rfl) (by decide)
      case carry => exact hmono (emits_putAlu ir _ _ _ _ _) (by decide)
      case ordered => exact hmono (Emits.ite (emits_put ir rfl) (emits_put ir rfl)) (by decide)
      case system => exact (shape_feSystem F env ir insn pc).mono hk'
      case other => exact .ite (.callEnd (by omega)) (.call (.refl 0 ir) (by omega))
  · rw [feGeneric_lse F env ir insn pc hlse hdecl, hat]
    exact .call he (by omega)

lemma shape_feInsn (e : PdEnt) {k : ℕ} (hk : wideLoadPair e.insn = true → 10 ≤ k) (hk' : 9 ≤ k) :
    FeShape F k ir e.insn pc (feInsn F env ir e pc) := by
  refine .ite (.callEnd (by omega)) (.ite ?_ (.ite ?_ (.ite ?_ ?_)))
  · exact shape_feGeneric F env ir e.insn pc hk hk'
  · exact (shape_feBranch F ir e.insn pc e).mono hk'
  · exact .native ((emits_feMem ir pc e).mono (by omega))
  · exact .native ((emits_feDp ir pc e).mono (by omega))

end Shape

end Arm64Emu
