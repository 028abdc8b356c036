import Arm64Emu.CpuStep

/-! The aborts of the memory accesses. Only a table walk that is made for the access
itself refuses it: an entry of the TLB, the D-TLB or the fetch cache is used when it
allows the access, and is otherwise passed over. -/
namespace Arm64Emu

variable {D : Type} {P : Platform D}

/-- The fault status code in the syndrome of the exception just taken. -/
def Cpu.abortStatus (c : Cpu) : ℕ := ((c.esr c.el).setWidth 6).toNat

lemma esrMake_setWidth (ec : Ec) (iss : U64) : (esrMake ec iss).setWidth 6 = iss.setWidth 6 := by
  have hcode : ((ec.code &&& 0x3f) <<< 26).setWidth 6 = 0 := by cases ec <;> decide
  have hil : ((1 : U64) <<< 25).setWidth 6 = 0 := by decide
  have hmask : (0x1ffffff : U64).setWidth 6 = BitVec.allOnes 6 := by decide
  rw [esrMake, BitVec.setWidth_or, BitVec.setWidth_or, BitVec.setWidth_and, hcode, hil, hmask,
    BitVec.and_allOnes]
  simp

lemma setWidth_zext_and (fsc : ℕ) : ((zext fsc : U64) &&& 0x3f).setWidth 6 = BitVec.ofNat 6 fsc := by
  have hmask : (0x3f : U64).setWidth 6 = BitVec.allOnes 6 := by decide
  rw [BitVec.setWidth_and, hmask, BitVec.and_allOnes, zext, BitVec.setWidth_ofNat_of_le (by decide)]

lemma issDabort_setWidth (write : Bool) (fsc : ℕ) : (issDabort write fsc).setWidth 6 = BitVec.ofNat 6 fsc := by
  have hwnr : (if write then (1 : U64) <<< 6 else 0).setWidth 6 = 0 := by cases write <;> decide
  have hiss : issDabort write fsc = ((zext fsc : U64) &&& (0x3f : U64)) ||| (if write then (1 : U64) <<< 6 else 0) := rfl
  rw [hiss, BitVec.setWidth_or, hwnr, setWidth_zext_and]
  simp

lemma raiseAbort_status (c : Cpu) (va : U64) (acc : AccType) {fsc : ℕ} (hf : fsc < 64) :
    (raiseAbort c va acc fsc).abortStatus = fsc := by
  have hesr (esr far ret : U64) : (exceptionTake c .sync esr far ret).abortStatus = (esr.setWidth 6).toNat := by
    simp [Cpu.abortStatus, exceptionTake, Cpu.refreshFpTrap]
  have hnat : (BitVec.ofNat 6 fsc).toNat = fsc := by
    rw [BitVec.toNat_ofNat, Nat.mod_eq_of_lt hf]
  cases acc <;> simp only [raiseAbort, cpuRaiseSync, hesr, esrMake_setWidth, issDabort_setWidth, setWidth_zext_and, hnat]

lemma walkLevels_error (va : U64) {n : ℕ} {b : Bus D} {table : U64} {fsc : ℕ}
    (h : (walkLevels P va n b table).1 = .error fsc) : fsc < 64 := by
  induction n generalizing b table with
  | zero =>
    cases h
    decide
  | succ n ih =>
    have hlevel : 3 - n ≤ 3 := Nat.sub_le 3 n
    unfold walkLevels at h
    dsimp only at h
    split_ifs at h
    all_goals first
      | exact ih h
      | (cases h; simp only [fscExternal, fscTransL0, fscAccessL0]; omega)

lemma walk_cases (P : Platform D) (c : Cpu) (b : Bus D) (va : U64) :
    walk P c b va = (.error fscTransL0, b) ∨ ∃ n table, walk P c b va = walkLevels P va n b table := by
  have hite {p : Prop} [Decidable p] {x : Except ℕ Leaf × Bus D}
      (hx : x = (.error fscTransL0, b) ∨ ∃ n table, x = walkLevels P va n b table) :
      (if p then (.error fscTransL0, b) else x) = (.error fscTransL0, b) ∨
        ∃ n table, (if p then (.error fscTransL0, b) else x) = walkLevels P va n b table := by
    split
    · exact .inl rfl
    · exact hx
  exact hite (hite (.inr ⟨_, _, rfl⟩))

lemma walk_error {c : Cpu} {b : Bus D} {va : U64} {fsc : ℕ} (h : (walk P c b va).1 = .error fsc) : fsc < 64 := by
  obtain hw | ⟨n, table, hw⟩ := walk_cases P c b va
  · rw [hw] at h
    cases h
    decide
  · rw [hw] at h
    exact walkLevels_error va h

/-- A walk of the tables that `u` holds fails with `fsc`, or finds a leaf that denies the
access at its privilege. -/
def Refused (P : Platform D) (u : Machine D) (va : U64) (acc : AccType) (fsc : ℕ) : Prop :=
  (walk P u.cpu u.bus va).1 = .error fsc ∨
    fsc = fscPermL3 ∧ ∃ leaf, (walk P u.cpu u.bus va).1 = .ok leaf ∧
      permOkEl acc leaf.ap leaf.uxn leaf.pxn (accEl0 u.cpu) = false

/-- `t` is the abort of an access that translates `va` at `u`; unless it is external, a
walk from `u` gives its status. -/
structure AbortsAt (P : Platform D) (u : Machine D) (va : U64) (acc : AccType) (t : Machine D) : Prop where
  abort : t.cpu = raiseAbort u.cpu va acc t.cpu.abortStatus
  refused : t.cpu.abortStatus ≠ fscExternal → mmuOn u.cpu = true ∧ Refused P u va acc t.cpu.abortStatus

section Pages
variable {u t : Machine D} {va : U64} {acc : AccType}

lemma AbortsAt.of_refused {fsc : ℕ} (hf : fsc < 64) (ht : t.cpu = raiseAbort u.cpu va acc fsc)
    (hr : mmuOn u.cpu = true ∧ Refused P u va acc fsc) : AbortsAt P u va acc t := by
  have hs : t.cpu.abortStatus = fsc := by rw [ht, raiseAbort_status _ _ _ hf]
  exact ⟨by rw [hs, ht], fun _ => hs.symm ▸ hr⟩

lemma AbortsAt.external (ht : t.cpu = raiseAbort u.cpu va acc fscExternal) : AbortsAt P u va acc t := by
  have hs : t.cpu.abortStatus = fscExternal := by rw [ht, raiseAbort_status _ _ _ (by decide)]
  exact ⟨by rw [hs, ht], fun h => absurd hs h⟩

lemma mmuTranslate_aborts (h : mmuTranslate P u va acc = (none, t)) : AbortsAt P u va acc t := by
  unfold mmuTranslate at h
  dsimp only at h
  split at h
  · cases h
  rename_i hon
  have hmmu : mmuOn u.cpu = true := by simpa using hon
  split at h
  · cases h
  -- the walk, whose result alone decides
  rcases hw : walk P u.cpu u.bus va with ⟨fsc | leaf, b⟩
  · simp only [hw] at h
    cases h
    have he : (walk P u.cpu u.bus va).1 = .error fsc := by rw [hw]
    exact .of_refused (walk_error he) rfl ⟨hmmu, .inl he⟩
  · simp only [hw] at h
    split at h
    · rename_i hdeny
      cases h
      have hl : (walk P u.cpu u.bus va).1 = .ok leaf := by rw [hw]
      exact .of_refused (by decide) rfl ⟨hmmu, .inr ⟨rfl, leaf, hl, by simpa using hdeny⟩⟩
    · cases h

lemma memReadPage_aborts {n : ℕ} (h : memReadPage P u va n = (none, t)) : AbortsAt P u va .read t := by
  unfold memReadPage at h
  dsimp only at h
  split at h
  · cases h
  split at h
  · cases h
    exact mmuTranslate_aborts ‹_›
  · rename_i ht
    split at h <;> cases h
    exact .external (congrArg (raiseAbort · va .read _) (mmuTranslate_some ht))

lemma memWritePage_aborts {n : ℕ} {v : U64} (h : memWritePage P u va n v = (false, t)) : AbortsAt P u va .write t := by
  unfold memWritePage at h
  dsimp only at h
  split at h
  · cases h
  split at h
  · cases h
    exact mmuTranslate_aborts ‹_›
  · rename_i ht
    split at h <;> cases h
    exact .external (congrArg (raiseAbort · va .write _) (mmuTranslate_some ht))

end Pages

/-- A part of an access that lies in one page: the state it starts from, its address and
size, and the value of a store. -/
structure AccessPart (D : Type) where
  state : Machine D
  va : U64
  size : ℕ
  val : U64

/-- The parts that are made: the second one only after the first has succeeded. -/
def readParts (P : Platform D) (s : Machine D) (va : U64) (n : ℕ) : List (AccessPart D) :=
  let first := 0x1000 - pageOff va
  if 0x1000 < pageOff va + n ∧ mmuOn s.cpu then
    ⟨s, va, first, 0⟩ ::
      if (memReadPage P s va first).1.isSome then [⟨(memReadPage P s va first).2, va + zext first, n - first, 0⟩] else []
  else [⟨s, va, n, 0⟩]

def writeParts (P : Platform D) (s : Machine D) (va : U64) (n : ℕ) (v : U64) : List (AccessPart D) :=
  let first := 0x1000 - pageOff va
  if 0x1000 < pageOff va + n ∧ mmuOn s.cpu then
    ⟨s, va, first, v⟩ ::
      if (memWritePage P s va first v).1 then
        [⟨(memWritePage P s va first v).2, va + zext first, n - first, v >>> (first * 8)⟩]
      else []
  else [⟨s, va, n, v⟩]

def readParts128 (P : Platform D) (s : Machine D) (va : U64) : List (AccessPart D) :=
  readParts P s va 8 ++
    if (memRead P s va 8).1.isSome then readParts P (memRead P s va 8).2 (va + 8) 8 else []

def writeParts128 (P : Platform D) (s : Machine D) (va : U64) (v : V128) : List (AccessPart D) :=
  writeParts P s va 8 v.d0 ++
    if (memWrite P s va 8 v.d0).1 then writeParts P (memWrite P s va 8 v.d0).2 (va + 8) 8 v.d1 else []

section Accesses
variable {s t : Machine D} {va : U64}

lemma memRead_none_iff {n : ℕ} : memRead P s va n = (none, t) ↔
    ∃ p ∈ readParts P s va n, memReadPage P p.state p.va p.size = (none, t) := by
  unfold readParts
  simp only [memRead]
  split
  · rcases h1 : memReadPage P s va (0x1000 - pageOff va) with ⟨_ | lo, u⟩
    · simp [h1]
    · rcases h2 : memReadPage P u (va + zext (0x1000 - pageOff va)) (n - (0x1000 - pageOff va)) with ⟨_ | hi, w⟩ <;>
        simp [h1, h2]
  · simp

lemma memWrite_false_iff {n : ℕ} {v : U64} : memWrite P s va n v = (false, t) ↔
    ∃ p ∈ writeParts P s va n v, memWritePage P p.state p.va p.size p.val = (false, t) := by
  unfold writeParts
  simp only [memWrite]
  split
  · rcases h1 : memWritePage P s va (0x1000 - pageOff va) v with ⟨_ | _, u⟩ <;> simp [h1]
  · simp

lemma cpu_of_mem_readParts {n : ℕ} {p : AccessPart D} (hp : p ∈ readParts P s va n) : p.state.cpu = s.cpu := by
  unfold readParts at hp
  dsimp only at hp
  rcases h1 : memReadPage P s va (0x1000 - pageOff va) with ⟨_ | lo, u⟩
  · rw [h1] at hp
    split at hp <;> simp at hp <;> rw [hp]
  · rw [h1] at hp
    have hu := memReadPage_some h1
    split at hp
    · simp at hp
      obtain rfl | rfl := hp
      · rfl
      · exact hu
    · simp at hp
      rw [hp]

lemma cpu_of_mem_writeParts {n : ℕ} {v : U64} {p : AccessPart D} (hp : p ∈ writeParts P s va n v) : p.state.cpu = s.cpu := by
  unfold writeParts at hp
  dsimp only at hp
  rcases h1 : memWritePage P s va (0x1000 - pageOff va) v with ⟨_ | _, u⟩
  · rw [h1] at hp
    split at hp <;> simp at hp <;> rw [hp]
  · rw [h1] at hp
    have hu := memWritePage_true h1
    split at hp
    · simp at hp
      obtain rfl | rfl := hp
      · rfl
      · exact hu
    · simp at hp
      rw [hp]

end Accesses

/-- One of the parts raised the abort `t`, with the processor as it was at `s`. -/
def PartAborts (P : Platform D) (s : Machine D) (acc : AccType) (parts : List (AccessPart D)) (t : Machine D) : Prop :=
  ∃ p ∈ parts, p.state.cpu = s.cpu ∧ AbortsAt P p.state p.va acc t

section Aborts
variable {s t : Machine D} {va : U64}

lemma memRead_aborts {n : ℕ} (h : memRead P s va n = (none, t)) : PartAborts P s .read (readParts P s va n) t := by
  obtain ⟨p, hp, hr⟩ := memRead_none_iff.1 h
  exact ⟨p, hp, cpu_of_mem_readParts hp, memReadPage_aborts hr⟩

lemma memWrite_aborts {n : ℕ} {v : U64} (h : memWrite P s va n v = (false, t)) :
    PartAborts P s .write (writeParts P s va n v) t := by
  obtain ⟨p, hp, hw⟩ := memWrite_false_iff.1 h
  exact ⟨p, hp, cpu_of_mem_writeParts hp, memWritePage_aborts hw⟩

lemma PartAborts.append_left {acc : AccType} {l : List (AccessPart D)} (h : PartAborts P s acc l t)
    (l' : List (AccessPart D)) : PartAborts P s acc (l ++ l') t := by
  obtain ⟨p, hp, hcpu, ha⟩ := h
  exact ⟨p, List.mem_append_left _ hp, hcpu, ha⟩

lemma PartAborts.append_right {u : Machine D} {acc : AccType} {l : List (AccessPart D)} (h : PartAborts P u acc l t)
    (hu : u.cpu = s.cpu) (l' : List (AccessPart D)) : PartAborts P s acc (l' ++ l) t := by
  obtain ⟨p, hp, hcpu, ha⟩ := h
  exact ⟨p, List.mem_append_right _ hp, hcpu.trans hu, ha⟩

lemma memRead128_aborts (h : memRead128 P s va = (none, t)) : PartAborts P s .read (readParts128 P s va) t := by
  unfold memRead128 at h
  dsimp only at h
  split at h
  · cases h
  unfold readParts128
  rcases h1 : memRead P s va 8 with ⟨_ | lo, s1⟩
  · simp only [h1] at h
    cases h
    exact (memRead_aborts h1).append_left _
  · simp only [h1] at h
    split at h <;> cases h
    exact (memRead_aborts ‹_›).append_right (memRead_some h1) _

lemma memWrite128_aborts {v : V128} (h : memWrite128 P s va v = (false, t)) :
    PartAborts P s .write (writeParts128 P s va v) t := by
  unfold memWrite128 at h
  dsimp only at h
  split at h
  · cases h
  unfold writeParts128
  rcases h1 : memWrite P s va 8 v.d0 with ⟨_ | _, s1⟩
  · simp only [h1] at h
    cases h
    exact (memWrite_aborts h1).append_left _
  · simp only [h1] at h
    exact (memWrite_aborts h).append_right (memWrite_true h1) _

lemma memIfetchSlow_aborts (h : memIfetchSlow P s va = (none, t)) :
    va &&& 3 ≠ 0 ∧ t = s.mapCpu (cpuRaiseSync · (esrMake .pcAlign 0) va) ∨ AbortsAt P s va .exec t := by
  unfold memIfetchSlow at h
  split at h
  · cases h
    exact .inl ⟨‹_›, rfl⟩
  right
  split at h
  · cases h
    exact mmuTranslate_aborts ‹_›
  · rename_i htr
    dsimp only at h
    split at h
    · cases h
    · split at h <;> cases h
      exact .external (congrArg (raiseAbort · va .exec _) (mmuTranslate_some htr))

lemma memIfetch_aborts (h : memIfetch P s va = (none, t)) :
    va &&& 3 ≠ 0 ∧ t = s.mapCpu (cpuRaiseSync · (esrMake .pcAlign 0) va) ∨ AbortsAt P s va .exec t := by
  unfold memIfetch at h
  dsimp only at h
  split at h
  · split at h
    · cases h
    · exact memIfetchSlow_aborts h
  · exact memIfetchSlow_aborts h

end Aborts

/-- An access is refused by a translation, access-flag or permission abort only if a walk
of the tables as they are when the refused part is translated says so: whatever the
caches hold. -/
theorem aborts_are_fresh (P : Platform D) (s t : Machine D) (va : U64) :
    (∀ n, memRead P s va n = (none, t) → PartAborts P s .read (readParts P s va n) t) ∧
    (∀ n v, memWrite P s va n v = (false, t) → PartAborts P s .write (writeParts P s va n v) t) ∧
    (memRead128 P s va = (none, t) → PartAborts P s .read (readParts128 P s va) t) ∧
    (∀ v, memWrite128 P s va v = (false, t) → PartAborts P s .write (writeParts128 P s va v) t) ∧
    (memIfetch P s va = (none, t) →
      va &&& 3 ≠ 0 ∧ t = s.mapCpu (cpuRaiseSync · (esrMake .pcAlign 0) va) ∨ AbortsAt P s va .exec t) :=
  ⟨fun _ => memRead_aborts, fun _ _ => memWrite_aborts, memRead128_aborts, fun _ => memWrite128_aborts, memIfetch_aborts⟩

/-- With empty tables in RAM a load aborts. -/
theorem aborts_are_fresh_unmapped :
    let P := Platform.bare 0x400000
    let s : Machine Unit := ⟨{ cpuReset 0x40000000 1 with sctlr := fun _ => 1, tcr := fun _ => 16, ttbr0 := fun _ => 0x40000000 },
      .powerOn (fun _ => 0) (fun _ => 0xff) ()⟩
    memRead P s 0x1000 8 = (none, (memRead P s 0x1000 8).2) ∧
      (memRead P s 0x1000 8).2.cpu.abortStatus = fscTransL0 ∧
      PartAborts P s .read (readParts P s 0x1000 8) (memRead P s 0x1000 8).2 := by
  intro P s
  have hnone : (memRead P s 0x1000 8).1 = none := by decide +kernel
  have hread : memRead P s 0x1000 8 = (none, (memRead P s 0x1000 8).2) := Prod.ext hnone rfl
  exact ⟨hread, by decide +kernel, (aborts_are_fresh P s _ 0x1000).1 8 hread⟩

end Arm64Emu
