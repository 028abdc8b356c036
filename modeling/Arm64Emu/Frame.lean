import Arm64Emu.Ops

/-! What an access or an instruction keeps. A memory access leaves the processor
alone or raises an abort; no instruction touches the instruction counter, and
every one clears the unprivileged-access flag it may have set. -/
namespace Arm64Emu

variable {D : Type}

/-- The counter of retired instructions and the unprivileged-access flag. -/
def Cpu.book (c : Cpu) : U64 × Bool := (c.icount, c.ldstUnpriv)

/-- What an instruction leaves alone, unless it is a hint, writes a register that
controls translation, or makes an unprivileged access. -/
structure Held where
  icount : U64
  ldstUnpriv : Bool
  event : Bool
  sctlr : Fin 4 → U64
  ttbr0 : Fin 4 → U64
  ttbr1 : Fin 4 → U64
  tcr : Fin 4 → U64

def Cpu.held (c : Cpu) : Held := ⟨c.icount, c.ldstUnpriv, c.event, c.sctlr, c.ttbr0, c.ttbr1, c.tcr⟩

lemma Cpu.book_of_held {c c' : Cpu} (h : c'.held = c.held) : c'.book = c.book :=
  congrArg (fun v => (v.icount, v.ldstUnpriv)) h

lemma ite_view {α β : Type} {f : α → β} {x a b : α} {p : Prop} [Decidable p] (ha : f a = f x) (hb : f b = f x) :
    f (if p then a else b) = f x := by
  split
  · exact ha
  · exact hb

lemma Cpu.setGpr_held (c : Cpu) (n : ℕ) (v : U64) : (c.setGpr n v).held = c.held := by
  unfold Cpu.setGpr
  split <;> rfl

lemma CpuOp.held {c d : Cpu} (h : CpuOp c d) : d.held = c.held := by
  cases h with
  | gpr n v => exact Cpu.setGpr_held c n v
  | sp | vreg | nzcv | pc | fpsr | noExcl | take => rfl

lemma CpuOps.held {c d : Cpu} (h : CpuOps c d) : d.held = c.held :=
  h.rel (R := fun c d => d.held = c.held) (fun _ => rfl) (fun _ _ _ hcd hde => hde.trans hcd) fun _ _ => CpuOp.held

lemma raiseAbort_held (c : Cpu) (va : U64) (acc : AccType) (fsc : ℕ) : (raiseAbort c va acc fsc).held = c.held :=
  (CpuOps.raiseAbort (.refl c) va acc fsc).held

lemma smcccConduit_held (c : Cpu) : (smcccConduit c).held = c.held := by
  simp only [smcccConduit, apply_ite Cpu.held, Cpu.setGpr_held]
  split_ifs <;> rfl

@[simp, grind =] lemma Machine.mapCpu_cpu (s : Machine D) (f : Cpu → Cpu) : (s.mapCpu f).cpu = f s.cpu := rfl

section Memory
variable {P : Platform D} {s t : Machine D} {va : U64} {n : ℕ}

lemma mmuTranslate_some {acc : AccType} {pa : U64} (h : mmuTranslate P s va acc = (some pa, t)) :
    t.cpu = s.cpu := by
  unfold mmuTranslate at h
  dsimp only at h
  split at h
  · cases h
    rfl
  split at h
  · cases h
    rfl
  split at h
  · cases h
  · split at h <;> cases h
    rfl

lemma mmuTranslate_none {acc : AccType} (h : mmuTranslate P s va acc = (none, t)) :
    ∃ fsc, t.cpu = raiseAbort s.cpu va acc fsc := by
  unfold mmuTranslate at h
  dsimp only at h
  split at h
  · cases h
  split at h
  · cases h
  split at h
  · cases h
    exact ⟨_, rfl⟩
  · split at h <;> cases h
    exact ⟨_, rfl⟩

lemma dtlbFill_cpu (pa : U64) : (dtlbFill P s va pa).cpu = s.cpu := by
  unfold dtlbFill
  dsimp only
  split
  · rfl
  · split <;> rfl

lemma memReadPage_some {v : U64} (h : memReadPage P s va n = (some v, t)) : t.cpu = s.cpu := by
  unfold memReadPage at h
  dsimp only at h
  split at h
  · cases h
    rfl
  split at h
  · cases h
  · rename_i ht
    split at h <;> cases h
    have hs := mmuTranslate_some ht
    exact (dtlbFill_cpu _).trans hs

lemma memReadPage_none (h : memReadPage P s va n = (none, t)) :
    ∃ fsc, t.cpu = raiseAbort s.cpu va .read fsc := by
  unfold memReadPage at h
  dsimp only at h
  split at h
  · cases h
  split at h
  · cases h
    exact mmuTranslate_none ‹_›
  · rename_i ht
    split at h <;> cases h
    exact ⟨_, congrArg (raiseAbort · va .read _) (mmuTranslate_some ht)⟩

lemma memRead_some {v : U64} (h : memRead P s va n = (some v, t)) : t.cpu = s.cpu := by
  simp only [memRead] at h
  split at h
  · rcases h1 : memReadPage P s va (0x1000 - pageOff va) with ⟨_ | lo, s1⟩ <;> simp only [h1] at h
    · cases h
    rcases h2 : memReadPage P s1 (va + zext (0x1000 - pageOff va)) (n - (0x1000 - pageOff va))
      with ⟨_ | hi, s2⟩ <;> simp only [h2] at h <;> cases h
    rw [memReadPage_some h2, memReadPage_some h1]
  · exact memReadPage_some h

lemma memRead_none (h : memRead P s va n = (none, t)) :
    ∃ va fsc, t.cpu = raiseAbort s.cpu va .read fsc := by
  simp only [memRead] at h
  split at h
  · split at h
    · cases h
      exact ⟨_, memReadPage_none ‹_›⟩
    · rename_i hlo
      split at h <;> cases h
      obtain ⟨fsc, ht⟩ := memReadPage_none ‹_›
      exact ⟨_, fsc, by rw [ht, memReadPage_some hlo]⟩
  · exact ⟨va, memReadPage_none h⟩

lemma memWritePage_true {v : U64} (h : memWritePage P s va n v = (true, t)) : t.cpu = s.cpu := by
  unfold memWritePage at h
  dsimp only at h
  split at h
  · cases h
    rfl
  split at h
  · cases h
  · rename_i ht
    split at h <;> cases h
    have hs := mmuTranslate_some ht
    exact (dtlbFill_cpu _).trans hs

lemma memWritePage_false {v : U64} (h : memWritePage P s va n v = (false, t)) :
    ∃ fsc, t.cpu = raiseAbort s.cpu va .write fsc := by
  unfold memWritePage at h
  dsimp only at h
  split at h
  · cases h
  split at h
  · cases h
    exact mmuTranslate_none ‹_›
  · rename_i ht
    split at h <;> cases h
    exact ⟨_, congrArg (raiseAbort · va .write _) (mmuTranslate_some ht)⟩

lemma memWrite_true {v : U64} (h : memWrite P s va n v = (true, t)) : t.cpu = s.cpu := by
  simp only [memWrite] at h
  split at h
  · split at h <;> try cases h
    rename_i h1
    rw [memWritePage_true h, memWritePage_true h1]
  · exact memWritePage_true h

lemma memWrite_false {v : U64} (h : memWrite P s va n v = (false, t)) :
    ∃ va fsc, t.cpu = raiseAbort s.cpu va .write fsc := by
  simp only [memWrite] at h
  split at h
  · split at h
    · cases h
      exact ⟨_, memWritePage_false ‹_›⟩
    · rename_i hlo
      obtain ⟨fsc, ht⟩ := memWritePage_false h
      exact ⟨_, fsc, by rw [ht, memWritePage_true hlo]⟩
  · exact ⟨va, memWritePage_false h⟩

lemma memReadPage_held (P : Platform D) (s : Machine D) (va : U64) (n : ℕ) :
    (memReadPage P s va n).2.cpu.held = s.cpu.held := by
  rcases h : memReadPage P s va n with ⟨_ | v, t⟩
  · obtain ⟨fsc, ht⟩ := memReadPage_none h
    rw [ht, raiseAbort_held]
  · rw [memReadPage_some h]

lemma memWritePage_held (P : Platform D) (s : Machine D) (va : U64) (n : ℕ) (v : U64) :
    (memWritePage P s va n v).2.cpu.held = s.cpu.held := by
  rcases h : memWritePage P s va n v with ⟨_ | _, t⟩
  · obtain ⟨fsc, ht⟩ := memWritePage_false h
    rw [ht, raiseAbort_held]
  · rw [memWritePage_true h]

lemma memIfetch_held (P : Platform D) (s : Machine D) {o : Option U32} {t : Machine D} {va : U64}
    (h : memIfetch P s va = (o, t)) : t.cpu.held = s.cpu.held := by
  have hslow {o : Option U32} {t : Machine D} (h : memIfetchSlow P s va = (o, t)) : t.cpu.held = s.cpu.held := by
    unfold memIfetchSlow at h
    split at h
    · cases h
      rfl
    split at h
    · cases h
      obtain ⟨fsc, ht⟩ := mmuTranslate_none ‹_›
      rw [ht, raiseAbort_held]
    · rename_i htr
      have hs := mmuTranslate_some htr
      dsimp only at h
      split at h
      · cases h
        rw [hs]
      · split at h <;> cases h
        · rw [raiseAbort_held, hs]
        · rw [hs]
  unfold memIfetch at h
  dsimp only at h
  split at h
  · split at h
    · cases h
      rfl
    · exact hslow h
  · exact hslow h

end Memory

section Views
variable {P : Platform D} {A : Scope} {s t : Machine D}

lemma gtCount_held (P : Platform D) (s : Machine D) (virt : Bool) : (gtCount P s virt).2.cpu.held = s.cpu.held := by
  unfold gtCount
  dsimp only
  split <;> rfl

lemma msrCpu_book (c : Cpu) (key : ℕ) (v : U64) : (msrCpu c key v).book = c.book := by
  unfold msrCpu
  repeat' apply ite_view
  all_goals rfl

lemma msrCpu_held {c : Cpu} {key : ℕ} (hk : msrFlushes key = false) (v : U64) : (msrCpu c key v).held = c.held := by
  simp only [msrFlushes, Bool.or_eq_false_iff, decide_eq_false_iff_not] at hk
  unfold msrCpu
  rw [if_neg hk.1.1.1]
  refine ite_view rfl ?_
  rw [if_neg hk.1.1.2, if_neg hk.1.2, if_neg hk.2]
  repeat' apply ite_view
  all_goals rfl

lemma hint_book (c : Cpu) (insn : U32) : (hint c insn).book = c.book := by
  unfold hint
  dsimp only
  split_ifs <;> rfl

lemma Op.book (hfp : ∀ c insn, (P.execFpsimd c insn).book = c.book) (hA : ¬A.unpriv) (h : Op P A s t) :
    t.cpu.book = s.cpu.book := by
  cases h with
  | cpu hc => exact Cpu.book_of_held hc.held
  | read va n => exact Cpu.book_of_held (memReadPage_held P s va n)
  | write va n v => exact Cpu.book_of_held (memWritePage_held P s va n v)
  | unpriv b hu => exact absurd hu hA
  | hint insn => exact hint_book _ _
  | conduit => exact Cpu.book_of_held (smcccConduit_held _)
  | msr v => exact msrCpu_book _ _ _
  | regime v => exact msrCpu_book _ _ _
  | clock virt => exact Cpu.book_of_held (gtCount_held P s virt)
  | fp insn => exact hfp _ _
  | ramWrite | excl | stop | eret | pstate | flushAll | flushPage | cval | walk | par | timer => rfl

lemma Ops.book (hfp : ∀ c insn, (P.execFpsimd c insn).book = c.book) (hA : ¬A.unpriv) (h : Ops P A s t) :
    t.cpu.book = s.cpu.book :=
  h.rel (R := fun s t => t.cpu.book = s.cpu.book) (fun _ => rfl) (fun _ _ _ hst htu => htu.trans hst)
    fun _ _ => Op.book hfp hA

/-- The scope of the loads and stores that make no unprivileged access. -/
def Scope.plain : Scope := ⟨False, True, False, False, False, False, False, fun _ => False, False⟩

lemma Op.held (h : Op P .plain s t) : t.cpu.held = s.cpu.held := by
  cases h with
  | cpu hc => exact hc.held
  | read va n => exact memReadPage_held P s va n
  | write va n v => exact memWritePage_held P s va n v
  | clock virt => exact gtCount_held P s virt
  | ramWrite | excl | cval | walk | par | timer => rfl
  | unpriv _ h | hint _ h | conduit h | stop h | eret h | pstate _ _ h | flushAll h | flushPage _ h
  | msr _ h | regime _ h | fp _ h => exact h.elim

lemma Ops.held (h : Ops P .plain s t) : t.cpu.held = s.cpu.held :=
  h.rel (R := fun s t => t.cpu.held = s.cpu.held) (fun _ => rfl) (fun _ _ _ hst htu => htu.trans hst) fun _ _ => Op.held

lemma memRead_held {o : Option U64} {va : U64} {n : ℕ} (h : memRead P s va n = (o, t)) : t.cpu.held = s.cpu.held :=
  (Ops.memRead (.refl s) h).held

lemma memWrite_held {ok : Bool} {va v : U64} {n : ℕ} (h : memWrite P s va n v = (ok, t)) : t.cpu.held = s.cpu.held :=
  (Ops.memWrite (.refl s) h).held

lemma ldstAccess_held {insn : U32} {va : U64} {ok : Bool} (h : ldstAccess P s insn va = (ok, t)) :
    t.cpu.held = s.cpu.held := (Ops.ldstAccess (.refl s) h).held

lemma Machine.setX_held (s : Machine D) (n : ℕ) (v : U64) : (s.setX n v).cpu.held = s.cpu.held :=
  (CpuOps.setX (.refl s.cpu) n v).held

lemma writeBack_held (s : Machine D) (rn : ℕ) (wb : Option U64) : (writeBack s rn wb).cpu.held = s.cpu.held := by
  cases wb
  · rfl
  · exact (CpuOps.setXsp (.refl s.cpu) rn _).held

end Views

/-- The instruction counter stands, and no access is left marked unprivileged. -/
structure Machine.Keeps (s t : Machine D) : Prop where
  icount : t.cpu.icount = s.cpu.icount
  unpriv : s.cpu.ldstUnpriv = false → t.cpu.ldstUnpriv = false

namespace Machine.Keeps

lemma of_book {s t : Machine D} (h : t.cpu.book = s.cpu.book) : s.Keeps t := by
  simp only [Cpu.book, Prod.mk.injEq] at h
  exact ⟨h.1, fun hs => h.2.trans hs⟩

lemma of_held {s t : Machine D} (h : t.cpu.held = s.cpu.held) : s.Keeps t := .of_book (Cpu.book_of_held h)

lemma refl (s : Machine D) : s.Keeps s := .of_held rfl

lemma trans {s t u : Machine D} (h : s.Keeps t) (g : t.Keeps u) : s.Keeps u :=
  ⟨g.icount.trans h.icount, g.unpriv ∘ h.unpriv⟩

lemma of_setUnpriv {s t u : Machine D} {b : Bool} (ht : t.cpu.held = (s.setUnpriv b).cpu.held)
    (hu : u.cpu.held = (t.setUnpriv false).cpu.held) : s.Keeps u :=
  ⟨(congrArg Held.icount hu).trans (congrArg Held.icount ht), fun _ => congrArg Held.ldstUnpriv hu⟩

end Machine.Keeps

section Keeps
variable (P : Platform D)

lemma ldstRegister_keeps (s : Machine D) (insn : U32) : s.Keeps (ldstRegister P s insn) := by
  unfold ldstRegister
  dsimp only
  split
  · exact .of_held rfl
  split
  · exact .of_held rfl
  split
  · exact .of_held rfl
  split
  · exact .of_held rfl
  · exact .of_held (Ops.ldstAtomic (.refl s)).held
  rename_i va wb unpriv _
  split
  · exact .of_held rfl
  rcases h : ldstAccess P (s.setUnpriv unpriv) insn va with ⟨ok, t⟩
  refine .of_setUnpriv (ldstAccess_held h) ?_
  cases ok
  · rfl
  · exact writeBack_held _ _ _

lemma mopsSetStep_keeps {s t : Machine D} {a n k : U64} {data : U8} {unpriv : Bool}
    (h : mopsSetStep P s a n data unpriv = (k, t)) : s.Keeps t := by
  unfold mopsSetStep at h
  dsimp only at h
  split at h
  · cases h
    exact .of_setUnpriv rfl rfl
  · cases h
    exact .of_setUnpriv (memWrite_held rfl) rfl

lemma mopsCopyStep_keeps {s t : Machine D} {a b n k : U64} {wunpriv runpriv rev : Bool}
    (h : mopsCopyStep P s a b n wunpriv runpriv rev = (k, t)) : s.Keeps t := by
  unfold mopsCopyStep at h
  dsimp only at h
  split at h
  · cases h
    exact .of_setUnpriv rfl rfl
  rcases hr : memRead P ((s.setUnpriv wunpriv).setUnpriv runpriv) b 1 with ⟨_ | v, s1⟩ <;>
    simp only [hr] at h <;> cases h
  · exact .of_setUnpriv (memRead_held hr) rfl
  · have h1 : s1.cpu.icount = s.cpu.icount := congrArg Held.icount (memRead_held hr)
    refine ⟨?_, fun _ => rfl⟩
    exact (congrArg Held.icount (memWrite_held (s := s1.setUnpriv wunpriv) rfl)).trans h1

section Loops
variable {s t : Machine D}

lemma setX_keeps (n : ℕ) (v : U64) : s.Keeps (s.setX n v) := .of_held (Machine.setX_held _ _ _)

lemma setpLoop_keeps {rd rn fuel : ℕ} {data : U8} {unpriv : Bool} {a n stage : U64}
    {o : Option (U64 × U64)} (h : setpLoop P rd rn data unpriv fuel s a n stage = (o, t)) :
    s.Keeps t := by
  induction fuel generalizing s a n stage with
  | zero => cases h; exact .refl _
  | succ fuel ih =>
    simp only [setpLoop] at h
    split at h
    · cases h; exact .refl _
    rcases hstep : mopsSetStep P ((s.setX rd a).setX rn n) a stage data unpriv with ⟨k, s1⟩
    have h1 := ((setX_keeps rd a).trans (setX_keeps rn n)).trans (mopsSetStep_keeps P hstep)
    simp only [hstep] at h
    split at h
    · cases h; exact h1
    · exact h1.trans (ih h)

lemma setmLoop_keeps {rn fuel : ℕ} {data : U8} {unpriv : Bool} {a n stage : U64} :
    s.Keeps (setmLoop P rn data unpriv fuel s a n stage) := by
  induction fuel generalizing s a n stage with
  | zero => exact .refl _
  | succ fuel ih =>
    simp only [setmLoop]
    split
    · exact .refl _
    rcases hstep : mopsSetStep P s a n data unpriv with ⟨k, s1⟩
    have h1 := mopsSetStep_keeps P hstep
    dsimp only
    split
    · exact h1
    · exact (h1.trans (setX_keeps _ _)).trans ih

lemma cpypFwdLoop_keeps {rd rs rn fuel : ℕ} {wunpriv runpriv : Bool} {a b n stage : U64}
    {o : Option (U64 × U64 × U64)}
    (h : cpypFwdLoop P rd rs rn wunpriv runpriv fuel s a b n stage = (o, t)) : s.Keeps t := by
  induction fuel generalizing s a b n stage with
  | zero => cases h; exact .refl _
  | succ fuel ih =>
    simp only [cpypFwdLoop] at h
    split at h
    · cases h; exact .refl _
    rcases hstep : mopsCopyStep P (((s.setX rd a).setX rs b).setX rn n) a b stage wunpriv runpriv false
      with ⟨k, s1⟩
    have h1 := (((setX_keeps rd a).trans (setX_keeps rs b)).trans (setX_keeps rn n)).trans
      (mopsCopyStep_keeps P hstep)
    simp only [hstep] at h
    split at h
    · cases h; exact h1
    · exact h1.trans (ih h)

lemma cpypRevLoop_keeps {rn fuel : ℕ} {wunpriv runpriv : Bool} {a b n stage : U64} {o : Option U64}
    (h : cpypRevLoop P rn wunpriv runpriv fuel s a b n stage = (o, t)) : s.Keeps t := by
  induction fuel generalizing s a b n stage with
  | zero => cases h; exact .refl _
  | succ fuel ih =>
    simp only [cpypRevLoop] at h
    split at h
    · cases h; exact .refl _
    rcases hstep : mopsCopyStep P (s.setX rn n) a b stage wunpriv runpriv true with ⟨k, s1⟩
    have h1 := (setX_keeps rn n).trans (mopsCopyStep_keeps P hstep)
    simp only [hstep] at h
    split at h
    · cases h; exact h1
    · exact h1.trans (ih h)

lemma cpymLoop_keeps {rn stage fuel : ℕ} {fwd wunpriv runpriv : Bool} {a b n : U64} :
    s.Keeps (cpymLoop P rn stage fwd wunpriv runpriv fuel s a b n) := by
  induction fuel generalizing s a b n with
  | zero => exact .refl _
  | succ fuel ih =>
    unfold cpymLoop
    by_cases hc : if stage = 1 then 0x1000 ≤ n else 0 < n
    · rw [if_pos hc]
      rcases hstep : mopsCopyStep P s a b n wunpriv runpriv (!fwd) with ⟨k, s1⟩
      have h1 := mopsCopyStep_keeps P hstep
      dsimp only
      split
      · exact h1
      · exact (h1.trans (setX_keeps _ _)).trans ih
    · rw [if_neg hc]
      exact .refl _

end Loops

lemma mopsSet_keeps (s : Machine D) (insn : U32) (stage : ℕ) : s.Keeps (mopsSet P s insn stage) := by
  unfold mopsSet
  dsimp only
  split
  · split
    · exact setpLoop_keeps P ‹_›
    · exact (setpLoop_keeps P ‹_›).trans (.of_held (CpuOps.setNzcv (.setX (.setX (.refl _) _ _) _ _) _).held)
  · split_ifs
    · exact .refl _
    · exact .of_held rfl
    · exact .of_held rfl
    all_goals exact setmLoop_keeps P

lemma mopsCpy_keeps (s : Machine D) (insn : U32) (stage : ℕ) (move : Bool) :
    s.Keeps (mopsCpy P s insn stage move) := by
  unfold mopsCpy
  dsimp only
  split
  · split
    · split
      · exact cpypFwdLoop_keeps P ‹_›
      · exact (cpypFwdLoop_keeps P ‹_›).trans
          (.of_held (CpuOps.setNzcv (.setX (.setX (.setX (.refl _) _ _) _ _) _ _) _).held)
    · split
      · exact cpypRevLoop_keeps P ‹_›
      · exact (cpypRevLoop_keeps P ‹_›).trans (.of_held (CpuOps.setNzcv (.setX (.refl _) _ _) _).held)
  · split_ifs <;> first
      | exact .refl _
      | exact .of_held rfl
      | exact cpymLoop_keeps P

lemma mops_keeps (s : Machine D) (insn : U32) : s.Keeps (mops P s insn) := by
  unfold mops
  dsimp only
  split_ifs <;> first
    | exact .of_held rfl
    | exact mopsSet_keeps P _ _ _
    | exact mopsCpy_keeps P _ _ _ _

lemma loadsStores_keeps (s : Machine D) (insn : U32) : s.Keeps (loadsStores P s insn) := by
  unfold loadsStores
  dsimp only
  split_ifs
  · exact ldstRegister_keeps P s insn
  · exact .of_held (Ops.ldstPair (.refl s)).held
  · exact .of_held (Ops.ldstLiteral (.refl s)).held
  · exact .of_held (Ops.ldstExclusive (fun _ _ _ => trivial) (.refl s)).held
  · exact .of_held (Ops.ldstVectorMulti (.refl s)).held
  · exact .of_held (Ops.ldstVectorSingle (.refl s)).held
  · exact .of_held (Ops.ldstRcpcUnscaled (.refl s)).held
  · exact mops_keeps P s insn
  · exact .of_held rfl

theorem execA64_keeps (hfp : ∀ c insn, (P.execFpsimd c insn).book = c.book) (s : Machine D) (insn : U32) :
    s.Keeps (execA64 P s insn) := by
  have hbr (h : bits insn 28 25 = 0xa ∨ bits insn 28 25 = 0xb) : s.Keeps (branchSystem P s insn) := by
    have hu : ¬(scopeOf insn).unpriv := fun hu => h.elim hu.1 hu.2
    exact .of_book ((Ops.branchSystem (.refl s)).book hfp hu)
  unfold execA64
  split
  · exact .of_held (cpuOps_dpImmediate _ _).held
  · exact .of_held (cpuOps_dpImmediate _ _).held
  · exact hbr (.inl ‹_›)
  · exact hbr (.inr ‹_›)
  · exact loadsStores_keeps P s insn
  · exact loadsStores_keeps P s insn
  · exact loadsStores_keeps P s insn
  · exact loadsStores_keeps P s insn
  · exact .of_held (cpuOps_dpRegister _ _).held
  · exact .of_held (cpuOps_dpRegister _ _).held
  · split
    · exact .of_book rfl
    · exact .of_book (hfp _ _)
  · split
    · exact .of_book rfl
    · exact .of_book (hfp _ _)
  · exact .of_book rfl

end Keeps
end Arm64Emu
