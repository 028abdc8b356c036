import Arm64Emu.CpuStep
import Arm64Emu.JitRun

/-! Runs of the translator: what holds in every state that moves, calls of `jit_step` and
warm reboots lead to. -/
namespace Arm64Emu

variable {D : Type}

/-- The context of the given level, MMU enable, stack pointer select and FP trap. -/
def ctxOf (el : Fin 4) (mmu spSel fp : Bool) : U64 :=
  (if el = 0 then 1 else 0) ||| (if mmu then 2 else 0) ||| (zext (if spSel then el else 0 : Fin 4) <<< 2)
    ||| (if fp then 16 else 0)

lemma jitCtx_eq (c : Cpu) : jitCtx c = ctxOf c.el (mmuOn c) c.spSel c.fpTrapped := rfl

lemma ctxOf_low : ∀ el mmu spSel fp,
    ¬((ctxOf el mmu spSel fp).getLsbD 0 = true ∧ (ctxOf el mmu spSel fp).getLsbD 2 = true) := by decide

lemma ctxOf_lt : ∀ el mmu spSel fp, (ctxOf el mmu spSel fp).toNat < 32 := by decide

lemma jitTag_ne_empty (pc : U64) (c : Cpu) : jitTag pc (jitCtx c) ≠ ~~~0 := by
  intro h
  have h0 : (jitTag pc (jitCtx c)).getLsbD 0 = true := by rw [h]; rfl
  have h2 : (jitTag pc (jitCtx c)).getLsbD 2 = true := by rw [h]; rfl
  simp only [jitTag, BitVec.getLsbD_or, BitVec.getLsbD_shiftLeft] at h0 h2
  refine ctxOf_low c.el (mmuOn c) c.spSel c.fpTrapped ⟨?_, ?_⟩
  · rw [← jitCtx_eq]
    simpa using h0
  · rw [← jitCtx_eq]
    simpa using h2

section Reach
variable (P : Platform (Jitted D)) (F : FpJit) (H : JitHost)

def JitPhase.signal : JitPhase D → JitPhase D
  | .head l => .head { l with m := l.m.mapEnv fun env => { env with interrupt := true } }
  | .interp l page => .interp { l with m := l.m.mapEnv fun env => { env with interrupt := true } } page
  | .enter l i => .enter { l with m := l.m.mapEnv fun env => { env with interrupt := true } } i
  | .done r m => .done r (m.mapEnv fun env => { env with interrupt := true })

/-- The states that runs lead to whose moves all meet `Ok`. Between two calls of
`jit_step` the machine may run other code, devices may act, and the machine may be
rebooted. -/
inductive JitReach (Ok : JitPhase D → Prop) : JitPhase D → Prop
  | init (r : StepResult) {m : JitMachine D} : m.env = jitEnvInit H m.bus.tlbGen m.bus.tlbiVaSeq →
      FetchOk P.jit m.bus → JitReach Ok (.done r m)
  | move {p : JitPhase D} : JitReach Ok p → Ok p → JitReach Ok (jitMove P.jit F H p)
  | signal {p : JitPhase D} : JitReach Ok p → JitReach Ok p.signal
  | call {r : StepResult} {m : JitMachine D} (slice maxInsn : U64) : JitReach Ok (.done r m) →
      JitReach Ok (jitStart P.jit m slice maxInsn)
  | deeds {r : StepResult} {m m' : JitMachine D} : JitReach Ok (.done r m) → Deeds P.jit m m' → JitReach Ok (.done r m')
  | device {r : StepResult} {m : JitMachine D} {b : Bus (Jitted D)} : JitReach Ok (.done r m) → TameRel P m.bus b →
      JitReach Ok (.done r { m with bus := b })
  | reset {r : StepResult} {m : JitMachine D} : JitReach Ok (.done r m) →
      JitReach Ok (.done r (m.mapEnv (·.jitReset H)))

/-- The block to be entered is in the table, and the noted context is that of some state. -/
def JitPhase.Enters : JitPhase D → Prop
  | .enter l i => l.m.env.Live i ∧ ∃ c, l.m.env.ctx = jitCtx c
  | _ => True

structure Sound (p : JitPhase D) : Prop where
  tables : p.machine.env.Tables
  fetch : FetchOk P.jit p.machine.bus
  enters : p.Enters

end Reach

section Invariant
variable {P : Platform (Jitted D)} {F : FpJit} {H : JitHost} {C : JTable → ℕ → Bool → ℕ → Prop} (hP : P.Tame)
  {p : JitPhase D}

include hP in
lemma JitChange.fetchOk {m m' : JitMachine D} (h : JitChange P.jit F H C m m') (hm : FetchOk P.jit m.bus) :
    FetchOk P.jit m'.bus := by
  cases h with
  | deeds hd => exact deeds_bus hP (fun _ _ hstep h => hstep.fetchOk (fun _ _ h => h.1) h) hd hm
  | note => exact hm
  | purge => exact hm
  | flush => exact hm
  | @add b =>
    unfold markCodePage
    dsimp only
    split_ifs
    · exact hm
    · exact hm
    · exact hm
  | chain => exact hm
  | fill => exact hm

include hP in
lemma Sound.changes {q : JitPhase D} (h : Sound P p) (hc : JitChanges P.jit F H C p.machine q.machine)
    (he : q.Enters) : Sound P q where
  tables := hc.invariant (I := fun m => m.env.Tables) (fun _ _ hstep hm => hstep.tables hP hm) h.tables
  fetch := hc.invariant (I := fun m => FetchOk P.jit m.bus) (fun _ _ hstep hm => hstep.fetchOk hP hm) h.fetch
  enters := he

/-- Generated code goes from one block to another only by a chained exit or a hit in the
indirect-branch cache, and both lead to blocks in the table. -/
lemma Ran.live {m m' : JitMachine D} {i j : ℕ} (hran : Ran P.jit F m i (.chained j, m')) (hi : m.env.Live i)
    (hm : m.env.Tables) (hm' : m'.env.Tables) (hs : m.env.Shrinks m'.env) (hctx : ∃ c, m'.env.ctx = jitCtx c) :
    m'.env.Live j := by
  cases hran with
  | direct _ _ hp =>
    refine (hm'.edge ?_ hp).live
    rw [hs.nblocks]
    exact hm.live_lt hi
  | indirect _ ht =>
    obtain ⟨c, hc⟩ := hctx
    refine (hm'.jcache _ ?_).1
    rw [ht, hc]
    exact jitTag_ne_empty _ c

include hP in
lemma Sound.jitMove (h : Sound P p) (hC : ∀ l, p = .head l → HeadChains P.jit H C l) :
    Sound P (jitMove P.jit F H p) ∧ JitChanges P.jit F H C p.machine (jitMove P.jit F H p).machine := by
  cases p with
  | head l =>
    have hh := headed_jitHead (F := F) hP h.fetch (hC l rfl)
    rw [Arm64Emu.jitMove]
    generalize jitHead P.jit F H l = p at hh
    cases hh with
    | done r hc => exact ⟨h.changes hP (q := .done r _) hc trivial, hc⟩
    | head hc => exact ⟨h.changes hP (q := .head _) hc trivial, hc⟩
    | interp page hc => exact ⟨h.changes hP (q := .interp _ page) hc trivial, hc⟩
    | @enter l' hp i hc he =>
      exact ⟨h.changes hP (q := .enter l' i) hc ⟨he.live, _, he.noted.ctx⟩, hc⟩
  | interp l page =>
    have hc : JitChanges P.jit F H C l.m (cpuStep P.jit l.m).2 :=
      (JitChanges.refl l.m).deeds (Deeds.cpuStep (P := P.jit) hP.fp l.m)
    unfold Arm64Emu.jitMove jitInterp
    dsimp only
    split
    · exact ⟨h.changes hP (q := .interp _ page) hc trivial, hc⟩
    · exact ⟨h.changes hP (q := .head _) hc trivial, hc⟩
  | enter l i =>
    obtain ⟨hi, c, hctx⟩ := h.enters
    have hran := ran_runBlock (P := P.jit) (F := F) l.m i
    rw [Arm64Emu.jitMove, jitEnter]
    generalize runBlock P.jit F l.m i = r at hran
    have hd := hran.deeds hP
    have hc : JitChanges P.jit F H C l.m r.2 := (JitChanges.refl l.m).deeds hd
    obtain ⟨j | eid, m⟩ := r
    · refine ⟨h.changes hP (q := .enter { l with m := m } j) hc ?_, hc⟩
      have henv := deeds_env hP hd
      have hctx' : ∃ c, m.env.ctx = jitCtx c := ⟨c, (congrArg Notes.ctx henv.notes).trans hctx⟩
      exact ⟨hran.live hi h.tables (henv.tables h.tables) (henv.shrinks h.tables) hctx', hctx'⟩
    · exact ⟨h.changes hP (q := .head { l with m := m, prev := _ }) hc trivial, hc⟩
  | done r m => exact ⟨h, .refl m⟩

include hP in
lemma changes_jitStart (m : JitMachine D) (slice maxInsn : U64) :
    JitChanges P.jit F H C m (jitStart P.jit m slice maxInsn).machine ∧ (jitStart P.jit m slice maxInsn).Enters := by
  have h := JitChanges.refl (P := P.jit) (F := F) (H := H) (C := C) m
  unfold jitStart
  split_ifs
  · exact ⟨h, trivial⟩
  · exact ⟨h.deeds ((Deeds.refl m).cpu _), trivial⟩
  · exact ⟨h.deeds ((Deeds.refl m).cpu _), trivial⟩
  · exact ⟨h, trivial⟩
  · exact ⟨h.deeds (Deeds.cpuStep (P := P.jit) hP.fp m), trivial⟩
  · exact ⟨h.tail (.note m rfl rfl rfl), trivial⟩

include hP in
lemma JitReach.sound {Ok : JitPhase D → Prop} (h : JitReach P F H Ok p) : Sound P p := by
  induction h with
  | init r henv hok => exact ⟨by rw [JitPhase.machine, henv]; exact JitEnv.tables_init H _ _, hok, trivial⟩
  | @move p _ _ ih => exact (ih.jitMove (C := fun _ _ _ _ => True) hP fun _ _ _ _ _ _ _ _ _ _ _ _ _ _ _ => trivial).1
  | @signal p _ ih =>
    cases p with
    | head l => exact ⟨ih.tables, ih.fetch, trivial⟩
    | interp l page => exact ⟨ih.tables, ih.fetch, trivial⟩
    | enter l i => exact ⟨ih.tables, ih.fetch, ih.enters⟩
    | done r m => exact ⟨ih.tables, ih.fetch, trivial⟩
  | @call r m slice maxInsn _ ih =>
    obtain ⟨hc, he⟩ := changes_jitStart (F := F) (H := H) (C := fun _ _ _ _ => True) hP m slice maxInsn
    exact ih.changes hP hc he
  | @deeds r m m' _ hd ih =>
    exact ih.changes (F := F) (H := H) (C := fun _ _ _ _ => True) hP (q := .done r m') ((JitChanges.refl m).deeds hd) trivial
  | @device r m b _ hb ih =>
    refine ⟨hb.2.tables ih.tables, ?_, trivial⟩
    have hc : b.fcache = m.bus.fcache := congrArg Caches.fcache hb.1
    change FetchOk P.jit b
    rw [FetchOk, hc]
    exact ih.fetch
  | @reset r m _ ih => exact ⟨ih.tables.jitFlushAll H, ih.fetch, trivial⟩

include hP in
lemma JitReach.invariant {Ok Q : JitPhase D → Prop} (hdone : ∀ r m, Q (.done r m)) (hhead : ∀ l, l.prev = none → Q (.head l))
    (hsignal : ∀ p, Q p → Q p.signal) (hmove : ∀ p, Sound P p → Ok p → Q p → Q (Arm64Emu.jitMove P.jit F H p))
    (h : JitReach P F H Ok p) : Q p := by
  induction h with
  | init r => exact hdone r _
  | move hr hok ih => exact hmove _ (hr.sound hP) hok ih
  | signal _ ih => exact hsignal _ ih
  | call slice maxInsn _ ih =>
    unfold jitStart
    split_ifs
    · exact hdone _ _
    · exact hdone _ _
    · exact hdone _ _
    · exact hdone _ _
    · exact hdone _ _
    · exact hhead _ rfl
  | deeds => exact hdone _ _
  | device => exact hdone _ _
  | reset => exact hdone _ _

include hP in
lemma JitReach.machine_invariant {Ok : JitPhase D → Prop} {I : JitMachine D → Prop}
    (hC : ∀ l, Ok (.head l) → HeadChains P.jit H C l)
    (hinit : ∀ m : JitMachine D, m.env = jitEnvInit H m.bus.tlbGen m.bus.tlbiVaSeq → I m)
    (hchange : ∀ m m', JitChange P.jit F H C m m' → m.env.Tables → FetchOk P.jit m.bus → I m → I m')
    (hdevice : ∀ (m : JitMachine D) b, TameRel P m.bus b → m.env.Tables → I m → I { m with bus := b })
    (hreset : ∀ m : JitMachine D, m.env.Tables → I m → I (m.mapEnv (·.jitReset H)))
    (h : JitReach P F H Ok p) : I p.machine := by
  have hchanges {m m' : JitMachine D} (hc : JitChanges P.jit F H C m m') (ht : m.env.Tables) (hf : FetchOk P.jit m.bus)
      (hm : I m) : I m' := by
    have hI : m'.env.Tables ∧ FetchOk P.jit m'.bus ∧ I m' := by
      refine hc.invariant (I := fun m => m.env.Tables ∧ FetchOk P.jit m.bus ∧ I m) ?_ ⟨ht, hf, hm⟩
      exact fun m m' hstep hm => ⟨hstep.tables hP hm.1, hstep.fetchOk hP hm.2.1, hchange m m' hstep hm.1 hm.2.1 hm.2.2⟩
    exact hI.2.2
  induction h with
  | init r henv => exact hinit _ henv
  | @move p hr hok ih =>
    have hs := hr.sound hP
    refine hchanges (hs.jitMove hP fun l hl => hC l ?_).2 hs.tables hs.fetch ih
    rw [← hl]
    exact hok
  | @signal p hr ih =>
    have hs := hr.sound hP
    cases p with
    | head l => exact hchange _ _ (.note l.m rfl rfl rfl) hs.tables hs.fetch ih
    | interp l page => exact hchange _ _ (.note l.m rfl rfl rfl) hs.tables hs.fetch ih
    | enter l i => exact hchange _ _ (.note l.m rfl rfl rfl) hs.tables hs.fetch ih
    | done r m => exact hchange _ _ (.note m rfl rfl rfl) hs.tables hs.fetch ih
  | @call r m slice maxInsn hr ih =>
    have hs := hr.sound hP
    exact hchanges (changes_jitStart hP m slice maxInsn).1 hs.tables hs.fetch ih
  | @deeds r m m' hr hd ih =>
    have hs := hr.sound hP
    exact hchange _ _ (.deeds hd) hs.tables hs.fetch ih
  | @device r m b hr hb ih => exact hdevice m b hb (hr.sound hP).tables ih
  | @reset r m hr ih => exact hreset m (hr.sound hP).tables ih

end Invariant

section Program

def JitHost.plain : JitHost := ⟨0x1000000, 0, fun _ _ => some 256⟩

def Machine.loaded (c : Cpu) (ram : List (ℕ × List U32)) : JitMachine Unit :=
  ⟨c, .powerOn (image ram) (fun _ => 0xff) ⟨jitEnvInit .plain 1 0, ()⟩⟩

/-- The first call of `jit_step` on an image, after `k` moves. -/
def bareRun (c : Cpu) (ram : List (ℕ × List U32)) (k : ℕ) : JitPhase Unit :=
  (jitMove (Platform.bareJit 0x400000).jit .none .plain)^[k]
    (jitStart (Platform.bareJit 0x400000).jit (Machine.loaded c ram) 1000 0)

lemma reach_bareRun {Ok : JitPhase Unit → Prop} (c : Cpu) (ram : List (ℕ × List U32)) (k : ℕ)
    (hok : ∀ j < k, Ok (bareRun c ram j)) :
    JitReach (Platform.bareJit 0x400000) .none .plain Ok (bareRun c ram k) := by
  induction k with
  | zero =>
    have h : JitReach (Platform.bareJit 0x400000) .none .plain Ok (.done .ok (Machine.loaded c ram)) :=
      .init .ok rfl nofun
    exact h.call 1000 0
  | succ k ih =>
    have h := (ih fun j hj => hok j (Nat.lt_succ_of_lt hj)).move (hok k (Nat.lt_succ_self k))
    rw [bareRun, Function.iterate_succ_apply']
    exact h

lemma reachable_bareRun (c : Cpu) (ram : List (ℕ × List U32)) (k : ℕ) :
    JitReach (Platform.bareJit 0x400000) .none .plain (fun _ => True) (bareRun c ram k) :=
  reach_bareRun c ram k fun _ _ => trivial

end Program

end Arm64Emu
