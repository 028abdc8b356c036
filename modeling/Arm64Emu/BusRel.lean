import Arm64Emu.Acts

/-! Relations between the bus before and after an access. What the parts of the
machine that are not modelled may do to the bus is given by a relation; memory, the
table walk and every action then stay within it. -/
namespace Arm64Emu

variable {D : Type}

structure Caches where
  tlb : BitVec 12 → TlbEntry
  dtlb : BitVec 12 → DtlbEnt
  fcache : Bool → FetchCache
  tlbGen : U32
  tlbiVaSeq : U32
  lpBase : U64
  lpMask : U64

def Bus.caches (b : Bus D) : Caches :=
  ⟨b.tlb, b.dtlb, b.fcache, b.tlbGen, b.tlbiVaSeq, b.lpBase, b.lpMask⟩

/-- `R` relates the bus before and after everything that happens outside the
translation caches: changes of memory, the translator's hook, device callbacks, the
host clock and the timer lines. -/
structure BusRel (P : Platform D) (R : Bus D → Bus D → Prop) : Prop where
  refl (b : Bus D) : R b b
  trans {a b c : Bus D} : R a b → R b c → R a c
  mem (b : Bus D) (ram flash : ℕ → U8) (cfi : Bool → FlashCfi) (status : BusStatus) :
    R b { b with ram := ram, flash := flash, flashCfi := cfi, lastBusStatus := status }
  hook (b : Bus D) (pa len : U64) : R b { b with dev := P.jitInvalidate b.dev pa len }
  read {d : MmioDev D} (hd : d ∈ P.devs) {f} (hf : d.read = some f) (b : Bus D) (off : U64) (n : ℕ) :
    R b (f b off n).2
  write {d : MmioDev D} (hd : d ∈ P.devs) {f} (hf : d.write = some f) (b : Bus D) (off : U64) (n : ℕ) (v : U64) :
    R b (f b off n v)
  clock (b : Bus D) : R b { b with dev := (P.hostNs b.dev).2 }
  timer (b : Bus D) (phys virt : Bool) (deadline : U64) : R b (P.timerLines b phys virt deadline)

namespace BusRel
variable {P : Platform D} {R : Bus D → Bus D → Prop}

lemma ram (h : BusRel P R) (b : Bus D) (ram : ℕ → U8) : R b { b with ram := ram } :=
  h.mem b ram b.flash b.flashCfi b.lastBusStatus

lemma status (h : BusRel P R) (b : Bus D) (status : BusStatus) : R b { b with lastBusStatus := status } :=
  h.mem b b.ram b.flash b.flashCfi status

lemma setCfi (h : BusRel P R) {a b : Bus D} (hab : R a b) (bank : Bool) (s : FlashCfi) : R a (setCfi b bank s) :=
  h.trans hab (h.mem b b.ram b.flash _ b.lastBusStatus)

lemma flashProgram (h : BusRel P R) (b : Bus D) (off : U64) (n : ℕ) (v : U64) : R b (flashProgram P b off n v) := by
  have hook := h.hook b (flashBase + off) (zext n)
  exact h.trans hook (h.mem _ b.ram (flashProgramBytes b.flash off.toNat n v) b.flashCfi b.lastBusStatus)

lemma ite {p : Prop} [Decidable p] {a b c : Bus D} (hb : R a b) (hc : R a c) : R a (if p then b else c) := by
  split
  · exact hb
  · exact hc

lemma flashCfiWrite (h : BusRel P R) (b : Bus D) (off : U64) (n : ℕ) (v : U64) :
    R b (flashCfiWrite P b off n v) := by
  have cfi (bank : Bool) (s : FlashCfi) : R b (Arm64Emu.setCfi b bank s) := h.setCfi (h.refl b) bank s
  have program (bank : Bool) (s : FlashCfi) :
      R b (Arm64Emu.setCfi (Arm64Emu.flashProgram P b off n v) bank s) := h.setCfi (h.flashProgram b off n v) bank s
  unfold Arm64Emu.flashCfiWrite
  dsimp only
  split
  · exact program _ _
  · exact cfi _ _
  · exact program _ _
  · exact ite (cfi _ _) (h.refl b)
  · exact ite (h.setCfi (h.mem b b.ram _ b.flashCfi b.lastBusStatus) _ _) (h.refl b)
  · exact ite (cfi _ _) (ite (cfi _ _) (ite (cfi _ _) (ite (cfi _ _) (ite (cfi _ _) (ite (cfi _ _)
      (ite (cfi _ _) (ite (cfi _ _) (h.refl b))))))))

lemma physRead (h : BusRel P R) (b : Bus D) (pa : U64) (n : ℕ) : R b (physRead P b pa n).2 := by
  have hok := h.status b .ok
  unfold Arm64Emu.physRead
  dsimp only
  split
  · exact hok
  · split
    · split <;> exact hok
    · split
      · rename_i base size read write hd
        exact h.trans hok (h.read (d := ⟨base, size, some read, write⟩) (List.mem_of_find?_eq_some hd) rfl _ _ _)
      · exact h.status b .fault

lemma physWrite (h : BusRel P R) (b : Bus D) (pa : U64) (n : ℕ) (v : U64) : R b (physWrite P b pa n v) := by
  have hok := h.status b .ok
  unfold Arm64Emu.physWrite
  dsimp only
  split
  · exact h.mem b _ b.flash b.flashCfi .ok
  · split
    · exact h.trans hok (h.flashCfiWrite _ _ _ _)
    · split
      · rename_i base size read write hd
        exact h.trans hok (h.write (d := ⟨base, size, read, some write⟩) (List.mem_of_find?_eq_some hd) rfl _ _ _ _)
      · exact h.status b .fault

lemma physWriteBlk (h : BusRel P R) (b : Bus D) (pa : U64) (src : List U8) : R b (physWriteBlk P b pa src) := by
  have hook := h.hook b pa (zext src.length)
  have hbytes (l : List (U8 × ℕ)) (b' : Bus D) :
      R b' (l.foldl (fun b s => Arm64Emu.physWrite P b (pa + zext s.2) 1 (s.1.setWidth 64)) b') := by
    induction l generalizing b' with
    | nil => exact h.refl b'
    | cons s l ih => exact h.trans (h.physWrite _ _ _ _) (ih _)
  unfold Arm64Emu.physWriteBlk
  dsimp only
  split
  · exact h.trans hook (h.ram _ _)
  · split
    · exact h.trans hook (h.mem _ b.ram _ b.flashCfi b.lastBusStatus)
    · exact h.trans hook (hbytes _ _)

lemma physReadBlk (h : BusRel P R) (b : Bus D) (pa : U64) (n : ℕ) : R b (physReadBlk P b pa n).2 := by
  have hbytes (n : ℕ) (b : Bus D) (pa : U64) : R b (physReadBytes P b pa n).2 := by
    induction n generalizing b pa with
    | zero => exact h.refl b
    | succ n ih => exact h.trans (h.physRead _ _ _) (ih _ _)
  unfold Arm64Emu.physReadBlk
  split
  · exact h.refl b
  · split
    · exact h.refl b
    · exact hbytes _ _ _

lemma walkLevels (h : BusRel P R) (va : U64) (n : ℕ) (b : Bus D) (table : U64) :
    R b (walkLevels P va n b table).2 := by
  induction n generalizing b table with
  | zero => exact h.refl b
  | succ n ih =>
    unfold Arm64Emu.walkLevels
    dsimp only
    have hr := h.physRead b (table + (va >>> (12 + 9 * (3 - (3 - n))) &&& 0x1ff) * 8) 8
    generalize Arm64Emu.physRead P b (table + (va >>> (12 + 9 * (3 - (3 - n))) &&& 0x1ff) * 8) 8 = r at hr
    obtain ⟨desc, b'⟩ := r
    dsimp only
    split_ifs
    all_goals first
      | exact hr
      | exact h.trans hr (ih _ _)

lemma walk (h : BusRel P R) (c : Cpu) (b : Bus D) (va : U64) : R b (walk P c b va).2 := by
  have hite {p : Prop} [Decidable p] {x y : Except ℕ Leaf × Bus D} (hx : R b x.2) (hy : R b y.2) :
      R b (if p then x else y).2 := by
    split
    · exact hx
    · exact hy
  unfold Arm64Emu.walk
  exact hite (h.refl b) (hite (h.refl b) (h.walkLevels va _ b _))

end BusRel

/-- A relation that also covers the fills of the translation caches, but no flush. -/
structure FillRel (P : Platform D) (R : Bus D → Bus D → Prop) : Prop extends BusRel P R where
  fill (b : Bus D) (tlb : BitVec 12 → TlbEntry) (dtlb : BitVec 12 → DtlbEnt) (fcache : Bool → FetchCache)
    (base mask : U64) :
    R b { b with tlb := tlb, dtlb := dtlb, fcache := fcache, lpBase := base, lpMask := mask }

namespace FillRel
variable {P : Platform D} {R : Bus D → Bus D → Prop}

lemma lpRecord (h : FillRel P R) {a b : Bus D} (hab : R a b) (va : U64) (shift : ℕ) : R a (lpRecord b va shift) := by
  unfold Arm64Emu.lpRecord
  dsimp only
  split
  · exact h.trans hab (h.fill b b.tlb b.dtlb b.fcache _ _)
  · exact h.trans hab (h.fill b b.tlb b.dtlb b.fcache _ _)

lemma mmuTranslate (h : FillRel P R) (s : Machine D) (va : U64) (acc : AccType) :
    R s.bus (mmuTranslate P s va acc).2.bus := by
  have hw := h.walk s.cpu s.bus va
  unfold Arm64Emu.mmuTranslate
  dsimp only
  split_ifs
  · exact h.refl s.bus
  · exact h.refl s.bus
  generalize Arm64Emu.walk P s.cpu s.bus va = r at hw
  obtain ⟨fsc | leaf, b⟩ := r
  · exact hw
  · have hlp : R s.bus (if leaf.blkShift ≠ 0 then Arm64Emu.lpRecord b va leaf.blkShift else b) :=
      BusRel.ite (h.lpRecord hw va leaf.blkShift) hw
    have htlb (b : Bus D) (tlb : BitVec 12 → TlbEntry) : R b { b with tlb := tlb } :=
      h.fill b tlb b.dtlb b.fcache b.lpBase b.lpMask
    dsimp only
    split
    · exact h.trans hlp (htlb _ _)
    · exact h.trans hlp (htlb _ _)

lemma dtlbFill (h : FillRel P R) {a : Bus D} {s : Machine D} (hab : R a s.bus) (va pa : U64) :
    R a (dtlbFill P s va pa).bus := by
  unfold Arm64Emu.dtlbFill
  dsimp only
  split_ifs
  · exact hab
  · exact hab
  · exact h.trans hab (h.fill s.bus s.bus.tlb _ s.bus.fcache s.bus.lpBase s.bus.lpMask)
  · exact h.trans hab (h.fill s.bus s.bus.tlb _ s.bus.fcache s.bus.lpBase s.bus.lpMask)

lemma memReadPage (h : FillRel P R) (s : Machine D) (va : U64) (n : ℕ) :
    R s.bus (memReadPage P s va n).2.bus := by
  have ht := h.mmuTranslate s va .read
  unfold Arm64Emu.memReadPage
  dsimp only
  split
  · exact h.refl s.bus
  generalize Arm64Emu.mmuTranslate P s va .read = r at ht
  obtain ⟨_ | pa, t⟩ := r
  · exact ht
  · have hr := h.trans ht (h.physRead t.bus pa n)
    dsimp only
    split
    · exact hr
    · exact h.dtlbFill hr va pa

lemma memWritePage (h : FillRel P R) (s : Machine D) (va : U64) (n : ℕ) (v : U64) :
    R s.bus (memWritePage P s va n v).2.bus := by
  have ht := h.mmuTranslate s va .write
  unfold Arm64Emu.memWritePage
  dsimp only
  split
  · exact h.ram s.bus _
  generalize Arm64Emu.mmuTranslate P s va .write = r at ht
  obtain ⟨_ | pa, t⟩ := r
  · exact ht
  · have hr := h.trans ht (h.physWrite t.bus pa n v)
    dsimp only
    split
    · exact hr
    · refine h.dtlbFill ?_ va pa
      split
      · exact h.trans hr (h.hook _ pa (zext n))
      · exact hr

lemma memIfetchSlow (h : FillRel P R) (s : Machine D) (va : U64) :
    R s.bus (memIfetchSlow P s va).2.bus := by
  have ht := h.mmuTranslate s va .exec
  unfold Arm64Emu.memIfetchSlow
  dsimp only
  split
  · exact h.refl s.bus
  generalize Arm64Emu.mmuTranslate P s va .exec = r at ht
  obtain ⟨_ | pa, t⟩ := r
  · exact ht
  dsimp only
  split
  · exact h.trans ht (h.fill t.bus t.bus.tlb t.bus.dtlb _ t.bus.lpBase t.bus.lpMask)
  · have hr := h.trans ht (h.physRead t.bus pa 4)
    split <;> exact hr

lemma memIfetch (h : FillRel P R) (s : Machine D) (va : U64) : R s.bus (memIfetch P s va).2.bus := by
  unfold Arm64Emu.memIfetch
  dsimp only
  split
  · split
    · exact h.refl s.bus
    · exact h.memIfetchSlow s va
  · exact h.memIfetchSlow s va

lemma gtCount (h : FillRel P R) (s : Machine D) (virt : Bool) : R s.bus (gtCount P s virt).2.bus := by
  unfold Arm64Emu.gtCount
  dsimp only
  split
  · exact h.clock s.bus
  · exact h.refl s.bus

end FillRel

lemma tlbFlushAll_dev (b : Bus D) : (tlbFlushAll b).dev = b.dev := by
  unfold tlbFlushAll
  dsimp only
  split_ifs <;> rfl

lemma tlbFlushPage_dev (b : Bus D) (va : U64) : (tlbFlushPage b va).dev = b.dev := by
  unfold tlbFlushPage
  split
  · exact tlbFlushAll_dev b
  · rfl

lemma Act.dev {P : Platform D} {S : D → D → Prop} (h : FillRel P fun b b' => S b.dev b'.dev) {s t : Machine D}
    (ha : Act P s t) : S s.bus.dev t.bus.dev := by
  cases ha with
  | regs | unpriv | ramWrite => exact h.refl s.bus
  | read va n => exact h.memReadPage s va n
  | write va n v => exact h.memWritePage s va n v
  | fetch va => exact h.memIfetchSlow s va
  | walk va => exact h.walk s.cpu s.bus va
  | flushAll => exact tlbFlushAll_dev s.bus ▸ h.refl s.bus
  | flushPage va => exact tlbFlushPage_dev s.bus va ▸ h.refl s.bus
  | regime => exact tlbFlushAll_dev s.bus ▸ h.refl s.bus
  | clock virt => exact h.gtCount s virt
  | timer phys virt deadline => exact h.timer s.bus phys virt deadline

end Arm64Emu
