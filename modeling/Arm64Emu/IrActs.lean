import Arm64Emu.Acts
import Arm64Emu.FeBlock

/-! Native code as actions on the machine: what a plain operation, and the
operations of a whole instruction, do between two instructions of a block, and how
they account for the instruction when they leave it. -/
namespace Arm64Emu

variable {D : Type} {P : Platform D} {F : FpJit}

@[simp] lemma Cpu.addIcount_addIcount (c : Cpu) (m n : U64) : (c.addIcount m).addIcount n = c.addIcount (m + n) := by
  simp only [Cpu.addIcount, BitVec.add_assoc]

/-- A native run from `s`, `n` instructions into its block: it goes on, or an access
faults and the exit counts the instruction with those before it. -/
inductive Goes (P : Platform D) (s : IrState D) (n : ℕ) : IrRes D → Prop
  | on {s' : IrState D} : Acts P s.m s'.m → s'.skip = s.skip → Goes P s n (.ok s')
  | fault {m : Machine D} : Acts P s.m m → Goes P s n (.error (m.mapCpu (·.addIcount (1 + zext n))))

section Plain
variable {s : IrState D} {n : ℕ}

lemma acts_write {m : Machine D} (h : Acts P m s.m) (v : Vreg) (x : U64) : Acts P m (s.write v x).m := by
  cases v
  · exact h.tail (.regs _ (CpuOps.setXsp (.refl _) _ _).held)
  · exact h
  · exact h

lemma Goes.write {s' : IrState D} (h : Acts P s.m s'.m) (hk : s'.skip = s.skip) (v : Vreg) (x : U64) :
    Goes P s n (.ok (s'.write v x)) := .on (acts_write h v x) (by rw [IrState.write_skip, hk])

lemma Goes.alu (op : AluOp) (w : Bool) (dst : Vreg) (x y : U64) : Goes P s n (.ok (s.alu op w dst x y)) := by
  have h (flags : U32) : Acts P s.m (s.mapCpu (·.setNzcv flags)).m :=
    Acts.mapCpu (f := (·.setNzcv flags)) (.refl s.m) rfl
  unfold IrState.alu
  dsimp only
  split
  · exact .write (h (op.eval w x y s.carry).2) rfl dst _
  · exact .write (.refl s.m) rfl dst _

lemma Goes.bind {r : IrRes D} {f : IrState D → IrRes D} (h : Goes P s n r)
    (hf : ∀ s', Acts P s.m s'.m → s'.skip = s.skip → Goes P s n (f s')) : Goes P s n (r.bind f) := by
  cases h with
  | on ha hk => exact hf _ ha hk
  | fault ha => exact .fault ha

lemma Goes.exit {m : Machine D} (h : Acts P s.m m) : Goes P s n (irExit n (m.mapCpu (·.addIcount 1))) := by
  have he : irExit n (m.mapCpu (·.addIcount 1)) = (.error (m.mapCpu (·.addIcount (1 + zext n))) : IrRes D) := by
    simp only [irExit, Machine.mapCpu, Cpu.addIcount_addIcount]
  exact he ▸ .fault h

lemma goes_spCheck (a : Vreg) (pc : U64) : Goes P s n (irSpCheck n s a pc) := by
  have h : Acts P s.m (s.m.mapCpu (·.setCurInsnPc pc)) := (Acts.refl s.m).mapCpu rfl
  unfold irSpCheck
  split
  · unfold jitSpCheck
    dsimp only
    by_cases hc : spCheckOn (s.m.mapCpu (·.setCurInsnPc pc)).cpu = true
    · rw [if_pos hc]
      exact Goes.exit (h.mapCpu (f := spAlignFault) rfl)
    · rw [if_neg hc]
      exact .on h rfl
  · exact .on (.refl s.m) rfl

lemma goes_jitLd {s' : IrState D} (h : Acts P s.m s'.m) (hk : s'.skip = s.skip) (dst : Vreg) (va pc : U64)
    (szlog : ℕ) (sign is64 : Bool) :
    Goes P s n (match jitLd P s'.m va pc szlog sign is64 with
      | (none, m) => irExit n m
      | (some v, m) => .ok ((s'.setM m).write dst v)) := by
  have h' : Acts P s.m (s'.m.mapCpu (·.setCurInsnPc pc)) := h.mapCpu rfl
  unfold jitLd
  rcases hr : memRead P (s'.m.mapCpu (·.setCurInsnPc pc)) va (2 ^ szlog) with ⟨_ | v, m⟩
  · exact .exit (h'.memRead hr)
  · have hm : Acts P s.m (s'.setM m).m := h'.memRead hr
    exact .write hm hk dst _

lemma goes_helper {s' : IrState D} (hk : s'.skip = s.skip) {r : Bool × Machine D} {m : Machine D}
    (h : Acts P s.m m) (hr : r = (true, m) ∨ r = (false, m.mapCpu (·.addIcount 1))) :
    Goes P s n (irHelper n s' r) := by
  obtain rfl | rfl := hr
  · exact .on h hk
  · exact .exit h

lemma irStep_plain {op : IrOp} (hp : op.plain = true) : Goes P s n (irStep P F s ⟨op, n⟩) := by
  have hw (v : Vreg) (x : U64) : Goes P s n (.ok (s.write v x)) := .write (.refl s.m) rfl v x
  have hcpu {f : Cpu → Cpu} (hf : ∀ c, (f c).held = c.held) : Goes P s n (.ok (s.mapCpu f)) :=
    .on ((Acts.refl s.m).mapCpu (hf _)) rfl
  have hpc {s' : IrState D} (h : Acts P s.m s'.m) (pc : U64) : Acts P s.m (s'.m.mapCpu (·.setCurInsnPc pc)) :=
    h.mapCpu rfl
  unfold irStep
  split
  -- inside a bracket that failed
  · cases op <;> first
      | exact absurd hp Bool.noConfusion
      | exact .on (.refl s.m) rfl
  cases op with
  | alu op w dst a b => exact .alu op w dst _ _
  | alui op w dst a imm => exact .alu op w dst _ _
  | ccmpr | ccmpi => exact hcpu fun _ => rfl
  | ld dst a off szlog sign is64 pc =>
    exact (goes_spCheck a pc).bind fun s' ha hk => goes_jitLd ha hk dst _ pc szlog sign is64
  | st a b off szlog pc =>
    refine (goes_spCheck a pc).bind fun s' ha hk => ?_
    rcases hr : memWrite P (s'.m.mapCpu (·.setCurInsnPc pc)) (s'.read a + off) (2 ^ szlog) (s'.read b) with ⟨ok, m⟩
    refine goes_helper hk ((hpc ha pc).memWrite hr) ?_
    cases ok <;> simp [jitSt, hr]
  | ldv rt a off vszl pc =>
    refine (goes_spCheck a pc).bind fun s' ha hk => ?_
    rcases hr : vregLoad P (s'.m.mapCpu (·.setCurInsnPc pc)) rt (s'.read a + off) (2 ^ vszl) with ⟨ok, m⟩
    refine goes_helper hk ((hpc ha pc).vregLoad hr) ?_
    cases ok <;> simp [jitLdv, hr]
  | stv rt a off vszl pc =>
    refine (goes_spCheck a pc).bind fun s' ha hk => ?_
    rcases hr : vregStore P (s'.m.mapCpu (·.setCurInsnPc pc)) rt (s'.read a + off) (2 ^ vszl) with ⟨ok, m⟩
    refine goes_helper hk ((hpc ha pc).vregStore hr) ?_
    cases ok <;> simp [jitStv, hr]
  | cpust w f a =>
    refine hcpu fun c => ?_
    cases f with
    | icount => exact absurd hp (by simp [IrOp.plain])
    | _ => rfl
  | fence => exact .on (.refl s.m) rfl
  | _ => first
    | exact hw _ _
    | exact absurd hp Bool.noConfusion

end Plain

end Arm64Emu
