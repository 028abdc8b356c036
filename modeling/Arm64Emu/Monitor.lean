import Arm64Emu.CpuStep

/-! The exclusive monitor against its history. A reservation records what the most
recent load-exclusive asked for, and falls with an exception, a `CLREX` or a
store-exclusive. The monitor itself does not compare sizes and survives an exception
return. -/
namespace Arm64Emu

variable {D : Type}

/-- `STXR`, `STLXR`, `STXP` and `STLXP`. -/
def isStoreExclusive (insn : U32) : Bool :=
  bits insn 29 27 = 1 && bits insn 26 24 = 0 && !bit insn 23 && !bit insn 22 && (!bit insn 21 || bit insn 31)

def isClrex (insn : U32) : Bool := bits insn 31 24 = 0xd5 && isBarrier insn && bits insn 7 5 = 2

def exclusiveAddr (c : Cpu) (insn : U32) : U64 := c.regXsp (bits insn 9 5)

/-- The bytes of one register of an exclusive access, and of the whole access. -/
def exclusiveBytes (insn : U32) : ℕ := 2 ^ bits insn 31 30

def exclusiveSize (insn : U32) : U64 :=
  zext (if bit insn 21 then exclusiveBytes insn * 2 else exclusiveBytes insn)

/-- What the most recent load-exclusive asked for; `returned` when an `ERET` has been
executed since. -/
structure Reservation where
  addr : U64
  size : U64
  returned : Bool
  deriving DecidableEq

open Classical in
/-- The reservation after the word `insn`, executed from `c` to `d`. -/
noncomputable def nextReservation (g : Option Reservation) (c : Cpu) (insn : U32) (d : Cpu) : Option Reservation :=
  if d.Entered then none
  else if isLoadExclusive insn then some ⟨exclusiveAddr c insn, exclusiveSize insn, false⟩
  else if isStoreExclusive insn || isClrex insn then none
  else if isEret insn then g.map fun r => { r with returned := true }
  else g

/-- A run of the interpreter, with the reservation that its history leaves. -/
inductive Watched (P : Platform D) : Machine D → Option Reservation → Prop
  | reset (entry : U64) (el : Fin 4) (b : Bus D) : Watched P ⟨cpuReset entry el, b⟩ none
  | host {s : Machine D} {g : Option Reservation} (skip base : U64) (halted : Bool) (b : Bus D) : Watched P s g →
      Watched P ⟨s.cpu.hosted skip base halted, b⟩ g
  | interrupt {s : Machine D} {g : Option Reservation} (kind : ExcKind) : Watched P s g →
      Watched P (s.mapCpu fun c => exceptionTake c kind 0 0 c.pc) none
  | fault {s u : Machine D} {g : Option Reservation} : Watched P s g →
      memIfetch P (s.mapCpu Cpu.beginInsn) s.cpu.pc = (none, u) → Watched P u none
  | exec {s u : Machine D} {g : Option Reservation} {insn : U32} : Watched P s g → Executes P s insn u →
      Watched P ((execA64 P ⟨s.cpu.entered, u.bus⟩ insn).mapCpu Cpu.retire)
        (nextReservation g s.cpu insn (execA64 P ⟨s.cpu.entered, u.bus⟩ insn).cpu)

lemma Watched.step {P : Platform D} {s : Machine D} {g : Option Reservation} (h : Watched P s g) :
    ∃ g', Watched P (cpuStep P s).2 g' := by
  have hstep := stepped_cpuStep P s
  generalize (cpuStep P s).2 = t at hstep
  cases hstep with
  | idle => exact ⟨g, h⟩
  | interrupt kind => exact ⟨none, h.interrupt kind⟩
  | fault hf => exact ⟨none, h.fault hf⟩
  | exec hx => exact ⟨_, h.exec hx⟩

section Words
variable {P : Platform D} {insn : U32}

lemma execA64_exclusive (s : Machine D) (h₁ : bits insn 29 27 = 1) (h₂ : bits insn 26 24 = 0) :
    execA64 P s insn = ldstExclusive P s insn := by
  have hgrp : bits insn 28 25 = 4 ∧ bits insn 25 24 = 0 := by
    simp only [bits, Nat.shiftRight_eq_div_pow] at h₁ h₂ ⊢
    omega
  obtain ⟨h₃, h₄⟩ := hgrp
  simp only [execA64, h₃, loadsStores, h₁, h₂]
  rfl

lemma exclusive_load (s : Machine D) (h : isLoadExclusive insn = true) :
    (execA64 P s insn).cpu.Entered ∨ (execA64 P s insn).cpu.exclAddr = exclusiveAddr s.cpu insn ∧
      (execA64 P s insn).cpu.exclSize = exclusiveSize insn := by
  have hfault {t u : Machine D} {va : U64} {n : ℕ} (hr : memRead P t va n = (none, u)) : u.cpu.Entered := by
    obtain ⟨va, fsc, hu⟩ := memRead_none hr
    obtain ⟨esr, he⟩ := raiseAbort_eq t.cpu va .read fsc
    exact ⟨_, _, _, _, _, hu.trans he⟩
  simp only [isLoadExclusive, Bool.and_eq_true, decide_eq_true_eq, Bool.not_eq_true', Bool.or_eq_true] at h
  obtain ⟨⟨⟨⟨h₁, h₂⟩, ho2⟩, hl⟩, ho1⟩ := h
  rw [execA64_exclusive s h₁ h₂]
  cases h21 : bit insn 21
  · simp only [ldstExclusive, exclusiveSize, ho2, hl, h21, Bool.false_eq_true, false_and, and_false, if_false, if_true,
      Bool.not_false]
    split
    · exact .inl ⟨_, _, _, _, _, rfl⟩
    · split
      · exact .inl (hfault ‹_›)
      · exact .inr ⟨rfl, rfl⟩
  · have h31 : bit insn 31 = true := by simpa [h21] using ho1
    simp only [ldstExclusive, exclusiveSize, ho2, hl, h21, h31, Bool.false_eq_true, false_and, and_false, if_false,
      if_true, Bool.not_true]
    split
    · exact .inl ⟨_, _, _, _, _, rfl⟩
    · split
      · exact .inl (hfault ‹_›)
      · split
        · exact .inl (hfault ‹_›)
        · exact .inr ⟨rfl, rfl⟩

def storeExclusive (P : Platform D) (s : Machine D) (insn : U32) : Bool × Machine D :=
  let va := exclusiveAddr s.cpu insn
  let bytes := exclusiveBytes insn
  match memWrite P s va bytes (s.cpu.regX (bits insn 4 0)) with
  | (false, t) => (false, t)
  | (true, t) => if bit insn 21 then memWrite P t (va + zext bytes) bytes (t.cpu.regX (bits insn 14 10)) else (true, t)

def monitorHolds (c : Cpu) (insn : U32) : Prop := c.exclValid ≠ 0 ∧ c.exclAddr = exclusiveAddr c insn

instance (c : Cpu) (insn : U32) : Decidable (monitorHolds c insn) := inferInstanceAs (Decidable (_ ∧ _))

def storeFails (s : Machine D) (insn : U32) : Machine D := clearExcl (s.setX (bits insn 20 16) 1)

/-- A store-exclusive that goes ahead: it stores and returns status 0, unless an access
faults. -/
def storeGoes (P : Platform D) (s : Machine D) (insn : U32) : Machine D :=
  match storeExclusive P s insn with
  | (false, t) => t
  | (true, t) => clearExcl (t.setX (bits insn 20 16) 0)

lemma exclusive_store (s : Machine D) (h : isStoreExclusive insn = true) : execA64 P s insn =
    if spAlignOk s.cpu (bits insn 9 5) = false then s.mapCpu spAlignFault
    else if monitorHolds s.cpu insn then storeGoes P s insn else storeFails s insn := by
  simp only [isStoreExclusive, Bool.and_eq_true, decide_eq_true_eq, Bool.not_eq_true', Bool.or_eq_true] at h
  obtain ⟨⟨⟨⟨h₁, h₂⟩, ho2⟩, hl⟩, ho1⟩ := h
  rw [execA64_exclusive s h₁ h₂]
  cases h21 : bit insn 21
  · simp only [ldstExclusive, storeGoes, storeExclusive, storeFails, monitorHolds, exclusiveAddr, exclusiveBytes, ho2, hl,
      h21, Bool.false_eq_true, false_and, and_false, if_false, if_true, Bool.not_false, Bool.not_eq_true',
      decide_eq_true_eq]
    rcases memWrite P s (s.cpu.regXsp (bits insn 9 5)) (2 ^ bits insn 31 30) (s.cpu.regX (bits insn 4 0))
      with ⟨_ | _, t⟩ <;> rfl
  · have h31 : bit insn 31 = true := by simpa [h21] using ho1
    simp only [ldstExclusive, storeGoes, storeExclusive, storeFails, monitorHolds, exclusiveAddr, exclusiveBytes, ho2, hl,
      h21, h31, Bool.false_eq_true, false_and, and_false, if_false, if_true, Bool.not_true, Bool.not_eq_true',
      decide_eq_true_eq]
    rcases memWrite P s (s.cpu.regXsp (bits insn 9 5)) (2 ^ bits insn 31 30) (s.cpu.regX (bits insn 4 0))
      with ⟨_ | _, t⟩ <;> rfl

lemma exclusive_store_exclValid (s : Machine D) (h : isStoreExclusive insn = true) :
    (execA64 P s insn).cpu.exclValid = 0 := by
  have hfault {t u : Machine D} {va v : U64} {n : ℕ} (hw : memWrite P t va n v = (false, u)) : u.cpu.exclValid = 0 := by
    obtain ⟨va, fsc, hu⟩ := memWrite_false hw
    obtain ⟨esr, he⟩ := raiseAbort_eq t.cpu va .write fsc
    rw [hu, he]
    rfl
  rw [exclusive_store s h]
  split
  · rfl
  split
  · unfold storeGoes
    split
    · rename_i hs
      unfold storeExclusive at hs
      dsimp only at hs
      split at hs
      · cases hs
        exact hfault ‹_›
      · split at hs
        · exact hfault hs
        · cases hs
    · rfl
  · rfl

lemma clrex_exclValid (s : Machine D) (h : isClrex insn = true) : (execA64 P s insn).cpu.exclValid = 0 := by
  simp only [isClrex, Bool.and_eq_true, decide_eq_true_eq] at h
  obtain ⟨⟨hsys, hb⟩, hop⟩ := h
  have hgrp : bits insn 28 25 = 0xa ∧ bits insn 31 26 = 0x35 ∧ bits insn 30 25 = 0x2a ∧ bits insn 31 25 = 0x6a := by
    simp only [bits, Nat.shiftRight_eq_div_pow] at hsys ⊢
    omega
  obtain ⟨h₁, h₂, h₃, h₄⟩ := hgrp
  have hh : isHint insn = false := by
    simp only [isBarrier, Bool.and_eq_true, decide_eq_true_eq] at hb
    simp [isHint, hb.1.2]
  simp only [execA64, h₁, branchSystem, h₂, h₃, h₄, hsys, hh, hb, hop, if_true]
  rfl

def Cpu.monitor (c : Cpu) : U32 × U64 × U64 := (c.exclValid, c.exclAddr, c.exclSize)

lemma CpuChange.monitor {A : Scope} (hA : ¬A.excl) {c d : Cpu} (h : CpuChange A c d) :
    d.exclValid ≠ 0 → d.monitor = c.monitor := by
  have hset (e : Cpu) (n : ℕ) (v : U64) : (e.setGpr n v).monitor = e.monitor := by
    unfold Cpu.setGpr
    split <;> rfl
  intro hv
  cases h with
  | op hc =>
    cases hc with
    | gpr n v => exact hset c n v
    | sp | vreg | nzcv | pc | fpsr => rfl
    | noExcl => exact absurd rfl hv
    | take => exact absurd rfl hv
  | excl _ _ h => exact absurd h hA
  | hint insn =>
    unfold Arm64Emu.hint
    dsimp only
    split_ifs <;> rfl
  | conduit =>
    simp only [smcccConduit, apply_ite Cpu.monitor, hset]
    split_ifs <;> rfl
  | msr v =>
    unfold msrCpu
    repeat' apply ite_view (f := Cpu.monitor)
    all_goals rfl
  | unpriv | stop | eret | pstate | cval | par | clock => rfl

lemma execA64_monitor (hfp : ∀ c insn, CpuOps c (P.execFpsimd c insn)) (s : Machine D)
    (h : isLoadExclusive insn = false) (hv : (execA64 P s insn).cpu.exclValid ≠ 0) :
    (execA64 P s insn).cpu.monitor = s.cpu.monitor := by
  refine (changes_execA64 hfp s insn).rel (R := fun c d => d.exclValid ≠ 0 → d.monitor = c.monitor)
    (fun _ _ => rfl) (fun c d e hcd hde he => ?_) (fun _ _ => CpuChange.monitor (by simp [scopeOf, h])) hv
  have hde := hde he
  have hd : e.exclValid = d.exclValid := congrArg Prod.fst hde
  exact hde.trans (hcd (hd ▸ he))

end Words

lemma Watched.reservation {P : Platform D} (hfp : ∀ c insn, CpuOps c (P.execFpsimd c insn)) {s : Machine D}
    {g : Option Reservation} (h : Watched P s g) (hv : s.cpu.exclValid ≠ 0) :
    ∃ b, g = some ⟨s.cpu.exclAddr, s.cpu.exclSize, b⟩ := by
  induction h with
  | reset => exact absurd rfl hv
  | host skip base halted b _ ih => exact ih hv
  | interrupt kind => exact absurd rfl hv
  | fault _ hf =>
    obtain ⟨esr, far, ret, ht⟩ := memIfetch_none hf
    rw [ht] at hv
    exact absurd rfl hv
  | @exec s u g insn _ hx ih =>
    change (execA64 P ⟨s.cpu.entered, u.bus⟩ insn).cpu.exclValid ≠ 0 at hv
    change ∃ b, _ = some (Reservation.mk (execA64 P ⟨s.cpu.entered, u.bus⟩ insn).cpu.exclAddr
      (execA64 P ⟨s.cpu.entered, u.bus⟩ insn).cpu.exclSize b)
    have hne : ¬(execA64 P ⟨s.cpu.entered, u.bus⟩ insn).cpu.Entered := fun he => hv he.exclValid
    unfold nextReservation
    rw [if_neg hne]
    split
    · rename_i hl
      obtain he | ⟨ha, hs⟩ := exclusive_load (P := P) ⟨s.cpu.entered, u.bus⟩ hl
      · exact absurd he hne
      · exact ⟨false, by rw [ha, hs]; rfl⟩
    rename_i hl
    split
    · rename_i hs
      simp only [Bool.or_eq_true] at hs
      obtain hs | hs := hs
      · exact absurd (exclusive_store_exclValid _ hs) hv
      · exact absurd (clrex_exclValid _ hs) hv
    have hmon := execA64_monitor hfp ⟨s.cpu.entered, u.bus⟩ (by simpa using hl) hv
    simp only [Cpu.monitor, Prod.mk.injEq] at hmon
    obtain ⟨h₁, h₂, h₃⟩ := hmon
    rw [h₁] at hv
    obtain ⟨b, hg⟩ := ih hv
    rw [h₂, h₃, hg]
    split
    · exact ⟨true, rfl⟩
    · exact ⟨b, rfl⟩

/-- The history allows the store-exclusive: a load-exclusive of the same address and size
came last, with nothing since that ends a reservation. -/
def Permitted (g : Option Reservation) (c : Cpu) (insn : U32) : Prop :=
  g = some ⟨exclusiveAddr c insn, exclusiveSize insn, false⟩

/-- A reservation of the address, if the monitor still holds it, is of the same size and
no exception return came since. -/
def SameReservation (g : Option Reservation) (c : Cpu) (insn : U32) : Prop :=
  ∀ r, g = some r → monitorHolds c insn → r.size = exclusiveSize insn ∧ r.returned = false

/-- A byte is reserved and a doubleword stored: `movz x0, #0x4010, lsl #16`, `mov x3, #1`,
`ldxrb w1, [x0]`, `stxr w2, x3, [x0]`. -/
def byteReserved : List (ℕ × List U32) := [(0, [0xd2a80200, 0xd2800023, 0x085f7c01, 0xc8027c03])]

lemma watched_bareSteps (el : Fin 4) (ram : List (ℕ × List U32)) (k : ℕ) :
    ∃ g, Watched (Platform.bare 0x400000) (bareSteps el ram k) g := by
  induction k with
  | zero => exact ⟨none, .reset _ _ _⟩
  | succ k ih =>
    obtain ⟨g, hg⟩ := ih
    rw [bareSteps, Function.iterate_succ_apply']
    exact hg.step

lemma reservation_byteReserved {g : Option Reservation}
    (h : Watched (Platform.bare 0x400000) (bareSteps 1 byteReserved 3) g) : ∃ b, g = some ⟨0x40100000, 1, b⟩ := by
  obtain ⟨b, hg⟩ := h.reservation (fun c _ => cpuOps_undefined c) (by decide +kernel)
  have haddr : (bareSteps 1 byteReserved 3).cpu.exclAddr = 0x40100000 := by decide +kernel
  have hsize : (bareSteps 1 byteReserved 3).cpu.exclSize = 1 := by decide +kernel
  rw [haddr, hsize] at hg
  exact ⟨b, hg⟩

end Arm64Emu
