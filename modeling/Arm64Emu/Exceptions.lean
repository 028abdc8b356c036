import Arm64Emu.Engines

/-! Exception entry and return. The cached trap predicate is fresh in every state; and under
handlers that save and restore `ELR_EL1` and `SPSR_EL1`, exceptions nest to any depth: each
return gives back what was interrupted. -/
namespace Arm64Emu

variable {D : Type}

section Traps

/-- The cached predicate is what `cpu_refresh_fp_trap` computes. -/
def Mode.Fresh (m : Mode) : Prop := m.fpTrapped = Cpu.fpTrap m.cpacrEl1 m.el

lemma refreshFpTrap_fresh (c : Cpu) : c.refreshFpTrap.mode.Fresh := rfl

lemma msrCpu_fresh (c : Cpu) (key : ℕ) (v : U64) (h : c.mode.Fresh) : (msrCpu c key v).mode.Fresh := by
  by_cases hsctlr : key = sysKey 3 0 1 0 0
  · rw [msrCpu, if_pos hsctlr]
    exact h
  by_cases hcpacr : key = sysKey 3 0 1 0 2
  · rw [msrCpu, if_neg hsctlr, if_pos hcpacr]
    exact refreshFpTrap_fresh _
  · refine of_mode h ?_
    rw [msrCpu, if_neg hsctlr, if_neg hcpacr]
    repeat' apply ite_view (f := Cpu.mode)
    all_goals rfl

lemma hint_mode (c : Cpu) (insn : U32) : (hint c insn).mode = c.mode := by
  unfold hint
  dsimp only
  split_ifs <;> rfl

lemma smcccConduit_mode (c : Cpu) : (smcccConduit c).mode = c.mode := by
  simp only [smcccConduit, apply_ite Cpu.mode, setGpr_mode]
  split_ifs <;> rfl

lemma modeKept_fresh : ModeKept Mode.Fresh fun _ => True where
  change {A c d} h _ hc := by
    cases h with
    | op ho =>
      cases ho with
      | gpr n v => exact of_mode hc (setGpr_mode c n v)
      | take kind esr far ret => exact refreshFpTrap_fresh _
      | sp | vreg | nzcv | pc | fpsr | noExcl => exact hc
    | hint insn => exact of_mode hc (hint_mode c insn)
    | conduit => exact of_mode hc (smcccConduit_mode c)
    | eret => exact refreshFpTrap_fresh _
    | msr v => exact msrCpu_fresh c _ v hc
    | unpriv | excl | stop | pstate | cval | par | clock => exact hc
  fetched _ _ _ := trivial

end Traps

section Pack
variable (c : Cpu)

def packLow (el : Fin 4) (spSel : Bool) : U32 := (BitVec.ofNat 32 (el : ℕ) <<< 2) ||| (if spSel then 1 else 0)

lemma packLow_bits : ∀ (el : Fin 4) (spSel : Bool), packLow el spSel &&& (psN ||| psZ ||| psC ||| psV) = 0 ∧
    packLow el spSel &&& (psD ||| psA ||| psI ||| psF) = 0 ∧ packLow el spSel >>> 2 &&& 3 = BitVec.ofNat 32 (el : ℕ) ∧
    (packLow el spSel).getLsbD 0 = spSel := by decide

lemma packSpsr_eq : c.packSpsr = (c.nzcv &&& (psN ||| psZ ||| psC ||| psV)) ||| (c.daif &&& (psD ||| psA ||| psI ||| psF)) |||
    packLow c.el c.spSel := BitVec.or_assoc _ _ _

lemma packSpsr_nzcv : c.packSpsr &&& (psN ||| psZ ||| psC ||| psV) = c.nzcv &&& (psN ||| psZ ||| psC ||| psV) := by
  rw [packSpsr_eq, BitVec.and_or_distrib_right, BitVec.and_or_distrib_right, (packLow_bits _ _).1, BitVec.and_assoc,
    BitVec.and_assoc, BitVec.and_self, show (psD ||| psA ||| psI ||| psF) &&& (psN ||| psZ ||| psC ||| psV) = 0 by decide]
  simp

lemma packSpsr_daif : c.packSpsr &&& (psD ||| psA ||| psI ||| psF) = c.daif &&& (psD ||| psA ||| psI ||| psF) := by
  rw [packSpsr_eq, BitVec.and_or_distrib_right, BitVec.and_or_distrib_right, (packLow_bits _ _).2.1, BitVec.and_assoc,
    BitVec.and_assoc, BitVec.and_self, show (psN ||| psZ ||| psC ||| psV) &&& (psD ||| psA ||| psI ||| psF) = 0 by decide]
  simp

lemma packSpsr_el : Fin.ofNat 4 (c.packSpsr.toNat >>> 2) = c.el := by
  have hword : c.packSpsr >>> 2 &&& 3 = BitVec.ofNat 32 (c.el : ℕ) := by
    rw [packSpsr_eq, BitVec.ushiftRight_or_distrib, BitVec.ushiftRight_or_distrib, BitVec.and_or_distrib_right,
      BitVec.and_or_distrib_right, (packLow_bits _ _).2.2.1, BitVec.ushiftRight_and_distrib, BitVec.ushiftRight_and_distrib,
      BitVec.and_assoc, BitVec.and_assoc, show (psN ||| psZ ||| psC ||| psV) >>> 2 &&& 3 = 0 by decide,
      show (psD ||| psA ||| psI ||| psF) >>> 2 &&& 3 = 0 by decide]
    simp
  have hnat := congrArg BitVec.toNat hword
  rw [BitVec.toNat_and, BitVec.toNat_ushiftRight, BitVec.toNat_ofNat] at hnat
  have hel := c.el.isLt
  rw [show (3 : U32).toNat = 2 ^ 2 - 1 by rfl, Nat.and_two_pow_sub_one_eq_mod, Nat.mod_eq_of_lt (by omega : (c.el : ℕ) < 2 ^ 32)] at hnat
  exact Fin.ext hnat

lemma packSpsr_spSel : c.packSpsr.getLsbD 0 = c.spSel := by
  rw [packSpsr_eq, BitVec.getLsbD_or, BitVec.getLsbD_or, (packLow_bits _ _).2.2.2, BitVec.getLsbD_and, BitVec.getLsbD_and,
    show (psN ||| psZ ||| psC ||| psV).getLsbD 0 = false by decide, show (psD ||| psA ||| psI ||| psF).getLsbD 0 = false by decide]
  simp

end Pack

section Nesting

def elrEl1 : ℕ := sysKey 3 0 4 0 1
def spsrEl1 : ℕ := sysKey 3 0 4 0 0

/-- A handler has not saved `ELR_EL1` and `SPSR_EL1` yet, has them saved, or has restored
them. -/
inductive Stage
  | entered
  | saved (elr spsr : U64)
  | restored
  deriving DecidableEq, Repr

/-- The processor and the return address of an exception, and how far its handler is. -/
structure Handler where
  taken : Cpu
  ret : U64
  stage : Stage

/-- The processor, with the handlers that have not returned, the innermost first. -/
structure Nest where
  cpu : Cpu
  handlers : List Handler

namespace Handler

/-- `ELR_EL1` and `SPSR_EL1` belong to the handler. -/
def InUse (h : Handler) : Prop := ∀ elr spsr, h.stage ≠ .saved elr spsr

/-- The handler may return: what it has saved is restored, and the stack pointers are as it
found them. -/
def MayReturn (h : Handler) (c : Cpu) : Prop := h.InUse ∧ c.spEl 0 = h.taken.spEl 0 ∧ c.spEl 1 = h.taken.spEl 1

def Keeps (h : Handler) (c : Cpu) : Prop :=
  match h.stage with
  | .saved elr spsr => elr = h.ret ∧ spsr = h.taken.packSpsr.setWidth 64
  | _ => c.elr 1 = h.ret ∧ c.spsr 1 = h.taken.packSpsr.setWidth 64

end Handler

/-- Another exception is allowed when the innermost handler has saved the registers. -/
def Allowed : List Handler → Prop
  | [] => True
  | h :: _ => ¬h.InUse

/-- `ERET`. -/
def eretCpu (c : Cpu) : Cpu := (c.unpackSpsr ((c.spsr c.el).setWidth 32)).setPc (c.elr c.el)

/-- One step of nested handlers. Outside of them anything runs at EL0 or EL1; a handler
stays at its level and leaves the registers alone while they are its own. -/
inductive Nest.Step : Nest → Nest → Prop
  | outside (c d : Cpu) : d.el ≤ 1 → Step ⟨c, []⟩ ⟨d, []⟩
  | inside {c d : Cpu} {h : Handler} {hs : List Handler} : d.el = c.el →
      (h.InUse → d.elr 1 = c.elr 1 ∧ d.spsr 1 = c.spsr 1) → Step ⟨c, h :: hs⟩ ⟨d, h :: hs⟩
  | take {c : Cpu} {hs : List Handler} (kind : ExcKind) (esr far ret : U64) : Allowed hs →
      Step ⟨c, hs⟩ ⟨exceptionTake c kind esr far ret, ⟨c, ret, .entered⟩ :: hs⟩
  | save {c : Cpu} {h : Handler} {hs : List Handler} : h.InUse →
      Step ⟨c, h :: hs⟩ ⟨c, { h with stage := .saved (c.elr 1) (c.spsr 1) } :: hs⟩
  | restore {c : Cpu} {h : Handler} {hs : List Handler} {elr spsr : U64} : h.stage = .saved elr spsr →
      Step ⟨c, h :: hs⟩ ⟨msrCpu (msrCpu c elrEl1 elr) spsrEl1 spsr, { h with stage := .restored } :: hs⟩
  | eret {c : Cpu} {h : Handler} {hs : List Handler} : h.MayReturn c → Step ⟨c, h :: hs⟩ ⟨eretCpu c, hs⟩

/-- Handlers run at EL1 with their saved state in place, and each exception was taken in a
state that was sound for the handlers outside of it. -/
def Nest.Sound (c : Cpu) : List Handler → Prop
  | [] => c.el ≤ 1
  | h :: hs => c.el = 1 ∧ h.Keeps c ∧ Allowed hs ∧ Nest.Sound h.taken hs

/-- What a return gives back of the interrupted state: the return address, the flags and
masks, the level and the selected stack pointer. -/
structure Cpu.Restores (c : Cpu) (h : Handler) : Prop where
  pc : c.pc = h.ret
  nzcv : c.nzcv = h.taken.nzcv &&& (psN ||| psZ ||| psC ||| psV)
  daif : c.daif = h.taken.daif &&& (psD ||| psA ||| psI ||| psF)
  el : c.el = h.taken.el
  spSel : c.spSel = h.taken.spSel
  sp : c.sp = h.taken.sp

lemma Handler.InUse.keeps_iff {h : Handler} (hu : h.InUse) (c : Cpu) :
    h.Keeps c ↔ c.elr 1 = h.ret ∧ c.spsr 1 = h.taken.packSpsr.setWidth 64 := by
  obtain ⟨taken, ret, stage⟩ := h
  cases stage with
  | saved elr spsr => exact absurd rfl (hu elr spsr)
  | entered | restored => exact Iff.rfl

lemma Handler.Keeps.of_saved {h : Handler} (hs : ¬h.InUse) {c : Cpu} (hc : h.Keeps c) (d : Cpu) : h.Keeps d := by
  obtain ⟨taken, ret, stage⟩ := h
  cases stage with
  | saved elr spsr => exact hc
  | entered | restored => exact absurd (fun _ _ => Stage.noConfusion) hs

lemma eretCpu_restores {c : Cpu} {h : Handler} (hel : c.el = 1) (hk : h.Keeps c) (htaken : h.taken.el ≤ 1)
    (hr : h.MayReturn c) : (eretCpu c).Restores h := by
  obtain ⟨helr, hspsr⟩ := (hr.1.keeps_iff c).1 hk
  have hword : ((c.spsr c.el).setWidth 32 : U32) = h.taken.packSpsr := by
    rw [hel, hspsr]
    exact BitVec.setWidth_setWidth_of_le _ (by decide)
  have hcel : (eretCpu c).el = h.taken.el := by
    show Fin.ofNat 4 (((c.spsr c.el).setWidth 32 : U32).toNat >>> 2) = _
    rw [hword, packSpsr_el]
  have hcsel : (eretCpu c).spSel = h.taken.spSel := by
    show ((c.spsr c.el).setWidth 32 : U32).getLsbD 0 = _
    rw [hword, packSpsr_spSel]
  refine ⟨?_, ?_, ?_, hcel, hcsel, ?_⟩
  · show c.elr c.el = _
    rw [hel, helr]
  · show ((c.spsr c.el).setWidth 32 : U32) &&& _ = _
    rw [hword, packSpsr_nzcv]
  · show ((c.spsr c.el).setWidth 32 : U32) &&& _ = _
    rw [hword, packSpsr_daif]
  · show c.spEl (eretCpu c).curSp = h.taken.spEl h.taken.curSp
    have hcur : (eretCpu c).curSp = h.taken.curSp := by rw [Cpu.curSp, Cpu.curSp, hcel, hcsel]
    have hlow : h.taken.curSp = 0 ∨ h.taken.curSp = 1 := by
      unfold Cpu.curSp
      split
      · omega
      · exact .inl rfl
    rw [hcur]
    rcases hlow with h0 | h1
    · rw [h0, hr.2.1]
    · rw [h1, hr.2.2]

namespace Nest

lemma Sound.el_le {c : Cpu} {hs : List Handler} (h : Sound c hs) : c.el ≤ 1 := by
  cases hs with
  | nil => exact h
  | cons => exact h.1.le

lemma Sound.of_el {c d : Cpu} {hs : List Handler} (h : Sound c hs) (ha : Allowed hs) (hel : d.el = c.el) : Sound d hs := by
  cases hs with
  | nil =>
    show d.el ≤ 1
    rw [hel]
    exact h
  | cons h₁ hs => exact ⟨hel.trans h.1, h.2.1.of_saved ha d, h.2.2⟩

lemma exceptionTake_sound {c : Cpu} {hs : List Handler} (h : Sound c hs) (ha : Allowed hs) (kind : ExcKind)
    (esr far ret : U64) : Sound (exceptionTake c kind esr far ret) (⟨c, ret, .entered⟩ :: hs) := by
  have htel : (if c.el > 1 then c.el else 1) = 1 := if_neg (not_lt.2 h.el_le)
  refine ⟨(exceptionTake_el c kind esr far ret).trans htel, ⟨?_, ?_⟩, ha, h⟩
  · show Function.update c.elr (if c.el > 1 then c.el else 1) ret 1 = ret
    rw [htel, Function.update_self]
  · show Function.update c.spsr (if c.el > 1 then c.el else 1) _ 1 = _
    rw [htel, Function.update_self]

lemma Step.sound {n n' : Nest} (h : Step n n') (hn : Sound n.cpu n.handlers) : Sound n'.cpu n'.handlers := by
  cases h with
  | outside c d hd => exact hd
  | @inside c d h hs hel hkeep =>
    obtain ⟨hc, hk, ha, hout⟩ := hn
    refine ⟨hel.trans hc, ?_, ha, hout⟩
    by_cases hu : h.InUse
    · obtain ⟨helr, hspsr⟩ := (hu.keeps_iff c).1 hk
      exact (hu.keeps_iff d).2 ⟨(hkeep hu).1.trans helr, (hkeep hu).2.trans hspsr⟩
    · exact hk.of_saved hu d
  | take kind esr far ret ha => exact exceptionTake_sound hn ha kind esr far ret
  | @save c h hs hu =>
    obtain ⟨hc, hk, ha, hout⟩ := hn
    exact ⟨hc, (hu.keeps_iff c).1 hk, ha, hout⟩
  | @restore c h hs elr spsr hst =>
    obtain ⟨hc, hk, ha, hout⟩ := hn
    have hsaved : elr = h.ret ∧ spsr = h.taken.packSpsr.setWidth 64 := by simpa only [Handler.Keeps, hst] using hk
    refine ⟨?_, ?_, ha, hout⟩
    · rw [msrCpu_el, msrCpu_el]
      exact hc
    · exact ⟨hsaved.1, hsaved.2⟩
  | @eret c h hs hr =>
    obtain ⟨hc, hk, ha, hout⟩ := hn
    exact hout.of_el ha (eretCpu_restores hc hk hout.el_le hr).el

lemma run_sound {n n' : Nest} (h : Relation.ReflTransGen Step n n') (hn : Sound n.cpu n.handlers) :
    Sound n'.cpu n'.handlers := by
  induction h with
  | refl => exact hn
  | tail _ hs ih => exact hs.sound ih

end Nest

end Nesting

/-- In every state that the engines reach, `fp_trapped` is the function of `CPACR_EL1` and
the level that `cpu_refresh_fp_trap` computes; and in every run of nested handlers, an
`ERET` of the innermost one restores what its exception interrupted. -/
theorem exceptions_return {P : Platform (Jitted D)} {F : FpJit} {H : JitHost}
    (hfp : ∀ c insn, CpuOps c (P.execFpsimd c insn)) (hF : ∀ c v, CpuOps c (F.run c v)) :
    (∀ el (e : Engine D), EngineRun (fun _ => True) el P F H e →
        e.machine.cpu.fpTrapped = Cpu.fpTrap e.machine.cpu.cpacrEl1 e.machine.cpu.el) ∧
      ∀ (c : Cpu) (n : Nest), c.el ≤ 1 → Relation.ReflTransGen Nest.Step ⟨c, []⟩ n →
        ∀ h hs, n.handlers = h :: hs → h.MayReturn n.cpu →
          ∀ (b : Bus (Jitted D)) (insn : U32), isEret insn = true → (execA64 P ⟨n.cpu, b⟩ insn).cpu.Restores h := by
  refine ⟨fun el e h => h.kept modeKept_fresh hfp hF fun _ => refreshFpTrap_fresh _, ?_⟩
  intro c n hc hrun h hs hn hr b insn he
  have hsound := Nest.run_sound hrun hc
  rw [hn] at hsound
  rw [execA64_eret _ he]
  exact eretCpu_restores hsound.1 hsound.2.1 hsound.2.2.2.el_le hr

def interrupted : Cpu := { cpuReset 0x40000000 0 with nzcv := psZ, daif := 0 }

def inCall : Cpu := exceptionTake interrupted .sync 0 0 0x1234

def savedCall : Handler := ⟨interrupted, 0x1234, .saved (inCall.elr 1) (inCall.spsr 1)⟩

/-- The handler is interrupted: the interrupt returns, it restores and returns. -/
theorem exceptions_return_twice : ∃ n, Relation.ReflTransGen Nest.Step ⟨interrupted, []⟩ n ∧
    n.handlers = [⟨interrupted, 0x1234, .restored⟩] ∧
    (execA64 (Platform.bareJit 0x400000) (Machine.loaded n.cpu []) 0xd69f03e0).cpu.Restores
      ⟨interrupted, 0x1234, .restored⟩ := by
  have hused (c : Cpu) (ret : U64) (stage : Stage) (h : stage = .entered ∨ stage = .restored) :
      Handler.InUse ⟨c, ret, stage⟩ := by
    rintro elr spsr rfl
    simp at h
  have hcall : Nest.Step ⟨interrupted, []⟩ ⟨inCall, [⟨interrupted, 0x1234, .entered⟩]⟩ := .take .sync 0 0 0x1234 trivial
  have hsave : Nest.Step ⟨inCall, [⟨interrupted, 0x1234, .entered⟩]⟩ ⟨inCall, [savedCall]⟩ :=
    .save (hused _ _ _ (.inl rfl))
  have hirq : Nest.Step ⟨inCall, [savedCall]⟩
      ⟨exceptionTake inCall .irq 0 0 0x200, [⟨inCall, 0x200, .entered⟩, savedCall]⟩ :=
    .take .irq 0 0 0x200 fun h => h _ _ rfl
  have heret : Nest.Step ⟨exceptionTake inCall .irq 0 0 0x200, [⟨inCall, 0x200, .entered⟩, savedCall]⟩
      ⟨eretCpu (exceptionTake inCall .irq 0 0 0x200), [savedCall]⟩ :=
    .eret ⟨hused _ _ _ (.inl rfl), rfl, rfl⟩
  have hrestore := @Nest.Step.restore (eretCpu (exceptionTake inCall .irq 0 0 0x200)) savedCall [] _ _ rfl
  have hrun := ((((Relation.ReflTransGen.single hcall).tail hsave).tail hirq).tail heret).tail hrestore
  have hmain := (exceptions_return (P := Platform.bareJit 0x400000) (F := .none) (H := .plain)
    (fun c _ => cpuOps_undefined c) (fun c _ => .refl c)).2 interrupted _ (by decide) hrun _ _ rfl
  exact ⟨_, hrun, rfl, hmain ⟨hused _ _ _ (.inr rfl), rfl, rfl⟩ _ 0xd69f03e0 (by decide)⟩

end Arm64Emu
