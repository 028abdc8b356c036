import Arm64Emu.Faults

/-! The address-translation instructions against the accesses. `AT` walks the tables and
passes over the caches; an access is served by the D-TLB, by the TLB or by a walk. While the
caches answer what the tables answer, both give one page or one fault status. -/
namespace Arm64Emu

variable {D : Type}

/-- What the translation tables answer: the output page or the fault status. -/
def tableTranslation (P : Platform D) (s : Machine D) (va : U64) (acc : AccType) : Except ℕ U64 :=
  if !mmuOn s.cpu then .ok (pageOf va)
  else
    match (walk P s.cpu s.bus va).1 with
    | .error fsc => .error fsc
    | .ok leaf =>
      if permOkEl acc leaf.ap leaf.uxn leaf.pxn (accEl0 s.cpu) then .ok leaf.paPage else .error fscPermL3

def DtlbEnt.grants (e : DtlbEnt) : AccType → Bool
  | .read => e.r
  | .write => e.w
  | .exec => false

/-- Every answer of the TLB and the D-TLB is the answer of the tables. -/
structure CachesCoherent (P : Platform D) (s : Machine D) : Prop where
  tlb : mmuOn s.cpu = true → ∀ va acc, (s.bus.tlb (tlbIdx va)).valid = true →
    (s.bus.tlb (tlbIdx va)).gen = s.bus.tlbGen → (s.bus.tlb (tlbIdx va)).vaPage = pageOf va →
    (s.bus.tlb (tlbIdx va)).el0 = accEl0 s.cpu →
    permOkEl acc (s.bus.tlb (tlbIdx va)).ap (s.bus.tlb (tlbIdx va)).uxn (s.bus.tlb (tlbIdx va)).pxn (accEl0 s.cpu) = true →
    tableTranslation P s va acc = .ok (s.bus.tlb (tlbIdx va)).paPage
  dtlb : ∀ va acc, (s.bus.dtlb (tlbIdx va)).tag = dtlbTag s.cpu s.bus va → (s.bus.dtlb (tlbIdx va)).grants acc = true →
    tableTranslation P s va acc = .ok (ramBase + zext (s.bus.dtlb (tlbIdx va)).page)

/-- How an access finds its address: in a page of RAM that the D-TLB names, by translation,
or not at all. -/
inductive DataPath (D : Type)
  | direct (page : ℕ)
  | walked (pa : U64) (t : Machine D)
  | fault (t : Machine D)

def dataPath (P : Platform D) (s : Machine D) (va : U64) (acc : AccType) (n : ℕ) : DataPath D :=
  let e := s.bus.dtlb (tlbIdx va)
  if pageOff va + n ≤ 0x1000 ∧ e.tag = dtlbTag s.cpu s.bus va ∧ e.grants acc then .direct e.page
  else
    match mmuTranslate P s va acc with
    | (none, t) => .fault t
    | (some pa, t) => .walked pa t

namespace DataPath

/-- The physical address, or the status in the syndrome of the abort. -/
def outcome (va : U64) : DataPath D → Except ℕ U64
  | direct page => .ok (ramBase + zext page + (va &&& 0xfff))
  | walked pa _ => .ok pa
  | fault t => .error t.cpu.abortStatus

/-- `mem_read` from there on. -/
def read (P : Platform D) (s : Machine D) (va : U64) (n : ℕ) : DataPath D → Option U64 × Machine D
  | direct page => (some (ldLe s.bus.ram (page + pageOff va) n), s)
  | walked pa t =>
    let r := physRead P t.bus pa n
    if r.2.lastBusStatus ≠ .ok then (none, ⟨raiseAbort t.cpu va .read fscExternal, r.2⟩)
    else (some r.1, dtlbFill P ⟨t.cpu, r.2⟩ va pa)
  | fault t => (none, t)

/-- `mem_write` from there on. -/
def write (P : Platform D) (s : Machine D) (va : U64) (n : ℕ) (v : U64) : DataPath D → Bool × Machine D
  | direct page => (true, { s with bus := { s.bus with ram := stLe s.bus.ram (page + pageOff va) n v } })
  | walked pa t =>
    let b := physWrite P t.bus pa n v
    if b.lastBusStatus ≠ .ok then (false, ⟨raiseAbort t.cpu va .write fscExternal, b⟩)
    else
      let b := if ramPage P (pageOf pa) && P.jitCode b.dev (pfnOf (pageOf pa)) then
          { b with dev := P.jitInvalidate b.dev pa (zext n) }
        else b
      (true, dtlbFill P ⟨t.cpu, b⟩ va pa)
  | fault t => (false, t)

end DataPath

/-- What `PAR_EL1` says: the page, or the fault status. -/
def parResult (par : U64) : Except ℕ U64 :=
  if par.getLsbD 0 then .error ((par >>> 1) &&& 0x3f).toNat else .ok (par &&& oaMask)

section Access
variable (P : Platform D) (s : Machine D) (va : U64) (n : ℕ)

def DtlbHit (acc : AccType) : Prop :=
  pageOff va + n ≤ 0x1000 ∧ (s.bus.dtlb (tlbIdx va)).tag = dtlbTag s.cpu s.bus va ∧
    (s.bus.dtlb (tlbIdx va)).grants acc = true

variable {s va n}

lemma dataPath_hit {acc : AccType} (h : DtlbHit s va n acc) :
    dataPath P s va acc n = .direct (s.bus.dtlb (tlbIdx va)).page := if_pos h

lemma dataPath_miss {acc : AccType} (h : ¬DtlbHit s va n acc) : dataPath P s va acc n =
    match mmuTranslate P s va acc with
    | (none, t) => .fault t
    | (some pa, t) => .walked pa t := if_neg h

variable (s va n)

lemma memReadPage_eq_read : memReadPage P s va n = (dataPath P s va .read n).read P s va n := by
  by_cases h : DtlbHit s va n .read
  · rw [dataPath_hit P h]
    exact if_pos h
  · rw [dataPath_miss P h]
    refine (if_neg h).trans ?_
    rcases mmuTranslate P s va .read with ⟨_ | pa, t⟩ <;> rfl

lemma memWritePage_eq_write (v : U64) : memWritePage P s va n v = (dataPath P s va .write n).write P s va n v := by
  by_cases h : DtlbHit s va n .write
  · rw [dataPath_hit P h]
    exact if_pos h
  · rw [dataPath_miss P h]
    refine (if_neg h).trans ?_
    rcases mmuTranslate P s va .write with ⟨_ | pa, t⟩ <;> rfl

end Access

section Leaves
variable {P : Platform D} {va : U64} {leaf : Leaf}

lemma blkMask_and : ∀ k : Fin 4, (((1 : U64) <<< (12 + 9 * (k : ℕ))) - 1) &&& ~~~0xfff &&& oaMask =
    (((1 : U64) <<< (12 + 9 * (k : ℕ))) - 1) &&& ~~~0xfff := by decide

lemma walkLevels_leaf {n : ℕ} {b : Bus D} {table : U64} (h : (walkLevels P va n b table).1 = .ok leaf) :
    leaf.paPage &&& oaMask = leaf.paPage ∧ leaf.sh < 4 := by
  have hsh (desc page : U64) (k : ℕ) : (leafOf desc page k).sh < 4 := by
    show ((desc >>> 8) &&& 3).toNat < 4
    rw [BitVec.toNat_and]
    exact lt_of_le_of_lt Nat.and_le_right (by decide)
  induction n generalizing b table with
  | zero => cases h
  | succ n ih =>
    unfold walkLevels at h
    dsimp only at h
    split_ifs at h
    · cases h
      refine ⟨?_, hsh _ _ _⟩
      have hk := blkMask_and ⟨3 - (3 - n), by omega⟩
      dsimp only at hk
      show ((_ &&& oaMask &&& _ ||| va &&& _) &&& ~~~0xfff) &&& oaMask = (_ &&& oaMask &&& _ ||| va &&& _) &&& ~~~0xfff
      have hout (d m k : U64) : d &&& oaMask &&& m &&& k &&& oaMask = d &&& oaMask &&& m &&& k := by
        rw [show d &&& oaMask &&& m &&& k &&& oaMask = d &&& (oaMask &&& oaMask) &&& m &&& k by ac_rfl, BitVec.and_self]
      rw [BitVec.and_or_distrib_right, BitVec.and_or_distrib_right, BitVec.and_assoc va, BitVec.and_assoc va, hk, hout]
    · cases h
      refine ⟨?_, hsh _ _ _⟩
      show _ &&& oaMask &&& oaMask = _ &&& oaMask
      rw [BitVec.and_assoc, BitVec.and_self]
    · exact ih h

lemma walk_leaf {c : Cpu} {b : Bus D} (h : (walk P c b va).1 = .ok leaf) :
    leaf.paPage &&& oaMask = leaf.paPage ∧ leaf.sh < 4 := by
  rcases walk_cases P c b va with hw | ⟨n, table, hw⟩
  · rw [hw] at h
    cases h
  · rw [hw] at h
    exact walkLevels_leaf h

lemma pageOf_of_and_oaMask {a : U64} (h : a &&& oaMask = a) : pageOf a = a := by
  rw [← h, pageOf, BitVec.and_assoc, show oaMask &&& ~~~(0xfff : U64) = oaMask by decide]

end Leaves

section Par

lemma parResult_fault : ∀ fsc : Fin 64,
    parResult (1 ||| ((zext fsc &&& 0x3f) <<< 1) ||| ((1 : U64) <<< 11)) = .error fsc := by decide

lemma shiftLeft_and_oaMask (x : U64) : x <<< 56 &&& oaMask = 0 := by
  have hmask : ∀ i : Fin 64, 56 ≤ (i : ℕ) → oaMask.getLsbD i = false := by decide
  refine BitVec.eq_of_getLsbD_eq fun i hi => ?_
  rw [BitVec.getLsbD_and, BitVec.getLsbD_shiftLeft]
  by_cases h : i < 56
  · simp [h]
  · simp [hmask ⟨i, hi⟩ (Nat.le_of_not_lt h)]

lemma parResult_page {page : U64} (hpage : page &&& oaMask = page) {sh : ℕ} (hsh : sh < 4) (mair : U64) :
    parResult ((page &&& oaMask) ||| (zext sh <<< 7) ||| ((1 : U64) <<< 9) ||| (mair <<< 56)) = .ok page := by
  have hlow : ∀ k : Fin 4, (zext k <<< 7 : U64).getLsbD 0 = false ∧ (zext k <<< 7 : U64) &&& oaMask = 0 := by decide
  obtain ⟨hbit, hand⟩ := hlow ⟨sh, hsh⟩
  dsimp only at hbit hand
  have hf : ((page &&& oaMask) ||| (zext sh <<< 7) ||| ((1 : U64) <<< 9) ||| (mair <<< 56)).getLsbD 0 = false := by
    rw [BitVec.getLsbD_or, BitVec.getLsbD_or, BitVec.getLsbD_or, hbit, BitVec.getLsbD_and,
      show oaMask.getLsbD 0 = false by decide, show ((1 : U64) <<< 9).getLsbD 0 = false by decide, BitVec.getLsbD_shiftLeft]
    simp
  rw [parResult, if_neg (by rw [hf]; decide), BitVec.and_or_distrib_right, BitVec.and_or_distrib_right,
    BitVec.and_or_distrib_right, hand, shiftLeft_and_oaMask, show ((1 : U64) <<< 9) &&& oaMask = 0 by decide,
    BitVec.and_assoc, BitVec.and_self, hpage]
  simp

lemma parResult_flat (va : U64) : parResult ((va &&& oaMask) ||| ((1 : U64) <<< 9)) = .ok (va &&& oaMask) := by
  have hpage : va &&& oaMask &&& oaMask = va &&& oaMask := by rw [BitVec.and_assoc, BitVec.and_self]
  have h := @parResult_page _ hpage 0 (by decide) 0
  rw [hpage] at h
  rw [← h]
  congr 1
  simp [zext]

lemma and_oaMask_eq_pageOf (va : U64) : va &&& oaMask = pageOf va ↔ va.toNat < 2 ^ 48 := by
  constructor
  · intro h
    have hle : (va &&& oaMask).toNat ≤ oaMask.toNat := by
      rw [BitVec.toNat_and]
      exact Nat.and_le_right
    rw [h, pageOf_toNat, show oaMask.toNat = 0xFFFFFFFFF000 by decide] at hle
    omega
  · intro h
    have hva : va &&& 0xFFFFFFFFFFFF = va := by
      refine BitVec.eq_of_toNat_eq ?_
      rw [BitVec.toNat_and, show (0xFFFFFFFFFFFF : U64).toNat = 2 ^ 48 - 1 by decide, Nat.and_two_pow_sub_one_eq_mod,
        Nat.mod_eq_of_lt h]
    rw [show oaMask = 0xFFFFFFFFFFFF &&& ~~~(0xfff : U64) by decide, ← BitVec.and_assoc, hva]
    rfl

end Par

section Agreement
variable {P : Platform D} {s : Machine D} {va : U64} {acc : AccType}

lemma tableTranslation_off (hmmu : mmuOn s.cpu = false) : tableTranslation P s va acc = .ok (pageOf va) := by
  simp [tableTranslation, hmmu]

lemma tableTranslation_error (hmmu : mmuOn s.cpu = true) {fsc : ℕ} (hw : (walk P s.cpu s.bus va).1 = .error fsc) :
    tableTranslation P s va acc = .error fsc := by
  simp [tableTranslation, hmmu, hw]

lemma tableTranslation_leaf (hmmu : mmuOn s.cpu = true) {leaf : Leaf} (hw : (walk P s.cpu s.bus va).1 = .ok leaf) :
    tableTranslation P s va acc =
      if permOkEl acc leaf.ap leaf.uxn leaf.pxn (accEl0 s.cpu) then .ok leaf.paPage else .error fscPermL3 := by
  simp [tableTranslation, hmmu, hw]

lemma tableTranslation_page {x : U64} (h : tableTranslation P s va acc = .ok x) : pageOf x = x := by
  cases hmmu : mmuOn s.cpu with
  | false =>
    rw [tableTranslation_off hmmu] at h
    cases h
    exact pageOf_pageOf va
  | true =>
    cases hw : (walk P s.cpu s.bus va).1 with
    | error fsc =>
      rw [tableTranslation_error hmmu hw] at h
      cases h
    | ok leaf =>
      rw [tableTranslation_leaf hmmu hw] at h
      split_ifs at h
      cases h
      exact pageOf_of_and_oaMask (walk_leaf hw).1

lemma pageOf_or_off {x : U64} (hx : pageOf x = x) : pageOf (x ||| (va &&& 0xfff)) = x := by
  rw [pageOf, BitVec.and_or_distrib_right, BitVec.and_assoc va, show (0xfff : U64) &&& ~~~0xfff = 0 by decide,
    show va &&& 0 = 0 from BitVec.and_zero, show ∀ y : U64, y ||| 0 = y from fun _ => BitVec.or_zero]
  exact hx

lemma pageOf_add_off {x : U64} (hx : pageOf x = x) : pageOf (x + (va &&& 0xfff)) = x := by
  have hand : x &&& (va &&& 0xfff) = 0 := by
    rw [← hx, pageOf, BitVec.and_assoc, ← BitVec.and_assoc (~~~(0xfff : U64)), BitVec.and_comm (~~~(0xfff : U64)),
      BitVec.and_assoc va]
    simp
  rw [BitVec.add_eq_or_of_and_eq_zero x _ hand, pageOf_or_off hx]

lemma mmuTranslate_outcome (hs : CachesCoherent P s) :
    (match mmuTranslate P s va acc with
      | (none, t) => (.error t.cpu.abortStatus : Except ℕ U64)
      | (some pa, _) => .ok (pageOf pa)) = tableTranslation P s va acc := by
  cases hmmu : mmuOn s.cpu with
  | false => simp [mmuTranslate, hmmu, tableTranslation_off hmmu]
  | true =>
    unfold mmuTranslate
    simp only [hmmu, Bool.not_true, Bool.false_eq_true, if_false]
    split_ifs with hhit
    · obtain ⟨hvalid, hgen, hpage, hel0, hperm⟩ := hhit
      have htable := hs.tlb hmmu va acc hvalid hgen hpage hel0 hperm
      rw [htable]
      dsimp only
      rw [pageOf_or_off (tableTranslation_page htable)]
    · rcases hw : walk P s.cpu s.bus va with ⟨fsc | leaf, b⟩
      · have herr : (walk P s.cpu s.bus va).1 = .error fsc := by rw [hw]
        rw [tableTranslation_error hmmu herr]
        dsimp only
        rw [raiseAbort_status _ _ _ (walk_error herr)]
      · have hok : (walk P s.cpu s.bus va).1 = .ok leaf := by rw [hw]
        rw [tableTranslation_leaf hmmu hok]
        dsimp only
        by_cases hperm : permOkEl acc leaf.ap leaf.uxn leaf.pxn (accEl0 s.cpu) = true
        · rw [if_pos hperm, if_neg (by simp [hperm])]
          exact congrArg Except.ok (pageOf_or_off (pageOf_of_and_oaMask (walk_leaf hok).1))
        · rw [if_neg hperm, if_pos (by simpa using hperm)]
          exact congrArg Except.error (raiseAbort_status _ _ _ (by decide))

lemma dataPath_outcome (hs : CachesCoherent P s) (n : ℕ) :
    ((dataPath P s va acc n).outcome va).map pageOf = tableTranslation P s va acc := by
  by_cases h : DtlbHit s va n acc
  · have htable := hs.dtlb va acc h.2.1 h.2.2
    rw [dataPath_hit P h, htable]
    show Except.ok (pageOf _) = _
    rw [pageOf_add_off (tableTranslation_page htable)]
  · rw [dataPath_miss P h, ← mmuTranslate_outcome hs]
    rcases mmuTranslate P s va acc with ⟨_ | pa, t⟩ <;> rfl

/-- The word for `PAR_EL1` is the answer of the tables while the MMU is on: the probe looks at
nothing of the processor but what the walk reads. -/
lemma mmuAtS1_result {t : Machine D} (hmmu : mmuOn s.cpu = true) (ht : mmuOn t.cpu = true)
    (hwalk : walk P t.cpu t.bus va = walk P s.cpu s.bus va) (isWrite : Bool) :
    parResult (mmuAtS1 P t va isWrite (accEl0 s.cpu)).1 =
      tableTranslation P s va (if isWrite then .write else .read) := by
  have hfault {fsc : ℕ} (hf : fsc < 64) :
      parResult (1 ||| ((zext fsc &&& 0x3f) <<< 1) ||| ((1 : U64) <<< 11)) = .error fsc := parResult_fault ⟨fsc, hf⟩
  unfold mmuAtS1
  simp only [ht, Bool.not_true, Bool.false_eq_true, if_false]
  rw [hwalk]
  rcases hw : walk P s.cpu s.bus va with ⟨fsc | leaf, b⟩
  · have herr : (walk P s.cpu s.bus va).1 = .error fsc := by rw [hw]
    rw [tableTranslation_error hmmu herr]
    exact hfault (walk_error herr)
  · have hok : (walk P s.cpu s.bus va).1 = .ok leaf := by rw [hw]
    obtain ⟨hpage, hsh⟩ := walk_leaf hok
    rw [tableTranslation_leaf hmmu hok]
    dsimp only
    by_cases hperm : permOkEl (if isWrite then .write else .read) leaf.ap leaf.uxn leaf.pxn (accEl0 s.cpu) = true
    · rw [if_pos hperm, if_neg (by simp [hperm])]
      exact parResult_page hpage hsh _
    · rw [if_neg hperm, if_pos (by simpa using hperm)]
      exact hfault (by decide)

lemma mmuAtS1_off (hmmu : mmuOn s.cpu = false) (isWrite asEl0 : Bool) :
    parResult (mmuAtS1 P s va isWrite asEl0).1 = .ok (va &&& oaMask) := by
  unfold mmuAtS1
  simp only [hmmu, Bool.not_false, if_true]
  exact parResult_flat va

end Agreement

/-- The machine at another level, or within another kind of access. -/
def Machine.atLevel (s : Machine D) (el : Fin 4) (unpriv : Bool) : Machine D :=
  s.mapCpu fun c => { c with el := el, ldstUnpriv := unpriv }

lemma walk_atLevel (P : Platform D) (s : Machine D) (el : Fin 4) (unpriv : Bool) (va : U64) :
    walk P (s.atLevel el unpriv).cpu (s.atLevel el unpriv).bus va = walk P s.cpu s.bus va := by
  unfold walk
  rfl

/-- The instruction `AT S1E1R`, `S1E1W`, `S1E0R` or `S1E0W` of register `rt`. -/
def atInsn (P : Platform D) (s : Machine D) (isWrite asEl0 : Bool) (rt : ℕ) : Machine D :=
  sysOp P s 0 7 8 (isWrite.toNat + 2 * asEl0.toNat) rt

lemma atInsn_par (P : Platform D) (s : Machine D) (isWrite asEl0 : Bool) (rt : ℕ) :
    (atInsn P s isWrite asEl0 rt).cpu.parEl1 = (mmuAtS1 P s (s.cpu.regX rt) isWrite asEl0).1 := by
  cases isWrite <;> cases asEl0 <;> rfl

lemma cachesCoherent_powerOn (P : Platform D) (c : Cpu) (ram flash : ℕ → U8) (d : D) :
    CachesCoherent P ⟨c, .powerOn ram flash d⟩ where
  tlb _ _ _ hvalid := by cases hvalid
  dtlb _ acc _ hgrants := by cases acc <;> cases hgrants

/-- The board at reset with an address in `x0`. -/
def machineWithX0 (va : U64) : Machine Unit := (Machine.bare 0x40000000 1).mapCpu fun c => c.setX 0 va

end Arm64Emu
