import Arm64Emu.Simd
import Arm64Emu.Sysreg

/-! The permutations of `exec_fpsimd.c`: `ZIP`, `UZP` and `TRN`, `EXT`, and the table lookups `TBL`
and `TBX`. -/
namespace Arm64Emu

/-! ### The instructions -/

def uzp (e lanes : ℕ) (odd : Bool) (n m : V128) : V128 :=
  V128.zero.fill (fun k =>
    let s := 2 * k + odd.toNat
    if s < lanes then n.elem e s else m.elem e (s - lanes)) 0 lanes

/-- The loop over `half` pairs, which stores an element of each operand to `2 * p` and to
`2 * p + 1`. -/
def pairLoop (e half : ℕ) (s : ℕ → ℕ) (n m : V128) : V128 :=
  V128.zero.fill (fun k => (if k % 2 = 0 then n else m).elem e (s (k / 2))) 0 (2 * half)

/-- The cases of `simd_permute`. -/
def permute (q : Bool) (size opc : ℕ) (n m : V128) : Option V128 :=
  let e := 8 * 2 ^ size
  let lanes := regbytes q >>> size
  let half := lanes / 2
  match opc with
  | 1 => some (uzp e lanes false n m)
  | 5 => some (uzp e lanes true n m)
  | 2 => some (pairLoop e half (fun p => 2 * p) n m)
  | 6 => some (pairLoop e half (fun p => 2 * p + 1) n m)
  | 3 => some (pairLoop e half (fun p => p) n m)
  | 7 => some (pairLoop e half (fun p => half + p) n m)
  | _ => none

def simdPermute (c : Cpu) (insn : U32) : Cpu :=
  match permute (bit insn 30) (bits insn 23 22) (bits insn 14 12) (c.vreg (bits insn 9 5)) (c.vreg (bits insn 20 16)) with
  | some r => c.setVreg (bits insn 4 0) r
  | none => undefined c

def simdExt (c : Cpu) (insn : U32) : Cpu :=
  let imm4 := bits insn 14 11
  let nbyte := regbytes (bit insn 30)
  let n := c.vreg (bits insn 9 5)
  let m := c.vreg (bits insn 20 16)
  c.setVreg (bits insn 4 0) (V128.zero.fill (fun i =>
    let j := i + imm4
    if j < nbyte then n.elem 8 j else m.elem 8 (j - nbyte)) 0 nbyte)

def simdTbl (c : Cpu) (insn : U32) : Cpu :=
  let rn := bits insn 9 5
  let idx := c.vreg (bits insn 20 16)
  let old := c.vreg (bits insn 4 0)
  let table (j : ℕ) : U8 := (c.vreg ((rn + j / 16) % 32)).elem 8 (j % 16)
  c.setVreg (bits insn 4 0) (V128.zero.fill (fun i =>
    let ix := (idx.elem 8 i).toNat
    if ix < (bits insn 14 13 + 1) * 16 then table ix else if bit insn 12 then old.elem 8 i else 0) 0 (regbytes (bit insn 30)))

/-! ### What they are for -/

section Rows
variable {α : Type}

def interleave : List α → List α → List α
  | a :: as, b :: bs => a :: b :: interleave as bs
  | _, _ => []

def evens : List α → List α
  | [] => []
  | [a] => [a]
  | a :: _ :: rest => a :: evens rest

def permuted (opc half : ℕ) (n m : List α) : List α :=
  match opc with
  | 1 => evens (n ++ m)
  | 5 => evens ((n ++ m).drop 1)
  | 2 => interleave (evens n) (evens m)
  | 6 => interleave (evens (n.drop 1)) (evens (m.drop 1))
  | 3 => interleave (n.take half) (m.take half)
  | _ => interleave (n.drop half) (m.drop half)

lemma getElem?_evens (xs : List α) (k : ℕ) : (evens xs)[k]? = xs[2 * k]? := by
  induction xs using evens.induct generalizing k with
  | case1 => rfl
  | case2 a => cases k <;> simp [evens]
  | case3 a b rest ih =>
    cases k with
    | zero => rfl
    | succ k => simpa [evens, Nat.mul_add] using ih k

lemma eq_map_range {xs : List α} {k : ℕ} {f : ℕ → α} (h : ∀ i, xs[i]? = if i < k then some (f i) else none) :
    xs = (List.range k).map f := by
  apply List.ext_getElem?
  intro i
  rw [h, List.getElem?_map]
  split
  · rw [List.getElem?_range ‹_›]
    rfl
  · rw [List.getElem?_eq_none (by simp; omega)]
    rfl

lemma interleave_map_range (k : ℕ) (f g : ℕ → α) : interleave ((List.range k).map f) ((List.range k).map g) =
    (List.range (2 * k)).map fun i => if i % 2 = 0 then f (i / 2) else g (i / 2) := by
  -- from the end: a step of both rows is two steps of the result
  induction k generalizing f g with
  | zero => rfl
  | succ k ih =>
    rw [List.range_succ_eq_map, List.map_cons, List.map_cons, List.map_map, List.map_map, interleave, ih, Nat.mul_succ,
      List.range_succ_eq_map, List.range_succ_eq_map]
    simp only [List.map_cons, List.map_map]
    refine congrArg₂ _ rfl (congrArg₂ _ rfl (List.map_congr_left fun i _ => ?_))
    simp only [Function.comp, Nat.succ_eq_add_one, show (i + 1 + 1) % 2 = i % 2 by omega, show (i + 1 + 1) / 2 = i / 2 + 1 by omega]

end Rows

namespace V128

/-- The first `k` elements. -/
def elems (v : V128) (e k : ℕ) : List (BitVec e) := (List.range k).map (v.elem e)

/-- What an instruction keeps of a register: its lower half only when `q` is false. -/
def low (q : Bool) (v : V128) : V128 := if q then v else ⟨v.d0, 0⟩

@[simp] lemma length_elems (v : V128) (e k : ℕ) : (v.elems e k).length = k := by simp [elems]

lemma getElem?_elems (v : V128) (e k i : ℕ) : (v.elems e k)[i]? = if i < k then some (v.elem e i) else none := by
  by_cases h : i < k
  · simp [elems, h]
  · simp [elems, h]

lemma getElem?_elems_append (n m : V128) (e k i : ℕ) : (n.elems e k ++ m.elems e k)[i]? =
    if i < k then some (n.elem e i) else if i < 2 * k then some (m.elem e (i - k)) else none := by
  by_cases hi : i < k
  · rw [List.getElem?_append_left (by simpa using hi), getElem?_elems, if_pos hi, if_pos hi]
  · rw [List.getElem?_append_right (by simpa using hi), getElem?_elems, length_elems, if_neg hi]
    exact if_congr (by omega) rfl rfl

lemma getLsbD_low (q : Bool) (v : V128) (i : ℕ) :
    (v.low q).bits.getLsbD i = (decide (i < 8 * regbytes q) && v.bits.getLsbD i) := by
  cases q with
  | true =>
    by_cases hi : i < 128
    · simp [low, regbytes, hi]
    · rw [BitVec.getLsbD_of_ge _ _ (by omega), BitVec.getLsbD_of_ge _ _ (by omega), Bool.and_false]
  | false =>
    rw [low, if_neg Bool.false_ne_true, bits, bits, BitVec.getLsbD_append, BitVec.getLsbD_append]
    by_cases hi : i < 64
    · simp [regbytes, hi]
    · simp [regbytes, hi]

section Fill
variable {e lanes : ℕ} {q : Bool} (he : 0 < e) (hfit : e * lanes = 8 * regbytes q)
include hfit

lemma fits : e * lanes ≤ 128 := by
  cases q <;> simp [regbytes] at hfit <;> omega

lemma elems_fill (f : ℕ → BitVec e) : (zero.fill f 0 lanes).elems e lanes = (List.range lanes).map f :=
  List.map_congr_left fun _ hk => elem_fill_all _ f (fits hfit) (List.mem_range.1 hk)

include he

lemma getLsbD_fill (f : ℕ → BitVec e) (i : ℕ) : (zero.fill f 0 lanes).bits.getLsbD i =
    (decide (i < 8 * regbytes q) && (f (i / e)).getLsbD (i % e)) := by
  rw [fill, bits_ofBits, Lanes.getLsbD_fill he _ (fits hfit), hfit]
  by_cases hi : i < 8 * regbytes q
  · simp [hi]
  · simp [hi]

lemma low_fill (f : ℕ → BitVec e) : (zero.fill f 0 lanes).low q = zero.fill f 0 lanes := by
  apply bits_injective
  refine BitVec.eq_of_getLsbD_eq fun i _ => ?_
  rw [getLsbD_low, getLsbD_fill he hfit, ← Bool.and_assoc, Bool.and_self]

lemma fill_elem (v : V128) : zero.fill (v.elem e) 0 lanes = v.low q := by
  apply bits_injective
  refine BitVec.eq_of_getLsbD_eq fun i _ => ?_
  rw [getLsbD_low, getLsbD_fill he hfit, elem, Lanes.getLsbD_lane, decide_eq_true (Nat.mod_lt i he), Bool.true_and,
    Nat.div_add_mod]

end Fill

end V128

/-- The new machine differs in one register, which holds the elements `xs`, with zeros above them. -/
structure Writes (c c' : Cpu) (rd : ℕ) (q : Bool) {e : ℕ} (xs : List (BitVec e)) : Prop where
  result : (c'.vreg rd).elems e xs.length = xs
  whole : e * xs.length = 8 * regbytes q
  upper : q = false → (c'.vreg rd).d1 = 0
  rest : c' = c.setVreg rd (c'.vreg rd)

section Parts
variable (v : V128) (e half : ℕ)

lemma evens_elems {o : ℕ} (ho : o < 2) :
    evens ((v.elems e (2 * half)).drop o) = (List.range half).map fun p => v.elem e (2 * p + o) := by
  refine eq_map_range fun p => ?_
  rw [getElem?_evens, List.getElem?_drop, V128.getElem?_elems, Nat.add_comm]
  exact if_congr (by omega) rfl rfl

lemma take_elems : (v.elems e (2 * half)).take half = (List.range half).map fun p => v.elem e p := by
  refine eq_map_range fun p => ?_
  rw [List.getElem?_take, V128.getElem?_elems]
  split_ifs <;> first | rfl | omega

lemma drop_elems : (v.elems e (2 * half)).drop half = (List.range half).map fun p => v.elem e (half + p) := by
  refine eq_map_range fun p => ?_
  rw [List.getElem?_drop, V128.getElem?_elems]
  exact if_congr (by omega) rfl rfl

end Parts

section Laws
variable {e lanes : ℕ} {q : Bool} (he : 0 < e) (hfit : e * lanes = 8 * regbytes q)
include he hfit

lemma writes_fill (c : Cpu) (rd : ℕ) {f : ℕ → BitVec e} {xs : List (BitVec e)} (hxs : xs = (List.range lanes).map f) :
    Writes c (c.setVreg rd (V128.zero.fill f 0 lanes)) rd q xs := by
  subst hxs
  have hrd : (c.setVreg rd (V128.zero.fill f 0 lanes)).vreg rd = V128.zero.fill f 0 lanes := by
    rw [Cpu.vreg_setVreg, if_pos rfl]
  refine ⟨?_, by simpa using hfit, fun hq => ?_, by rw [hrd]⟩
  · rw [hrd, List.length_map, List.length_range]
    exact V128.elems_fill hfit f
  · subst hq
    rw [hrd, ← V128.low_fill he hfit]
    rfl

lemma writes_uzp (c : Cpu) (rd : ℕ) (odd : Bool) (n m : V128) : Writes c (c.setVreg rd (uzp e lanes odd n m)) rd q
    (evens ((n.elems e lanes ++ m.elems e lanes).drop odd.toNat)) := by
  refine writes_fill he hfit c rd (eq_map_range fun k => ?_)
  rw [getElem?_evens, List.getElem?_drop, V128.getElem?_elems_append]
  have hodd := Bool.toNat_le odd
  simp only [show odd.toNat + 2 * k = 2 * k + odd.toNat by omega]
  by_cases hk : k < lanes
  · rw [if_pos hk]
    by_cases hs : 2 * k + odd.toNat < lanes
    · rw [if_pos hs, if_pos hs]
    · rw [if_neg hs, if_neg hs, if_pos (by omega)]
  · rw [if_neg hk, if_neg (by omega), if_neg (by omega)]

lemma writes_pairLoop (c : Cpu) (rd : ℕ) {half : ℕ} (hhalf : lanes = 2 * half) (s : ℕ → ℕ) (n m : V128) :
    Writes c (c.setVreg rd (pairLoop e half s n m)) rd q
      (interleave ((List.range half).map fun p => n.elem e (s p)) ((List.range half).map fun p => m.elem e (s p))) := by
  rw [pairLoop, ← hhalf]
  refine writes_fill he hfit c rd ?_
  rw [interleave_map_range, hhalf]
  refine List.map_congr_left fun k _ => ?_
  split_ifs <;> rfl

lemma writes_trn (c : Cpu) (rd : ℕ) {half : ℕ} (hhalf : lanes = 2 * half) {o : ℕ} (ho : o < 2) (n m : V128) :
    Writes c (c.setVreg rd (pairLoop e half (fun p => 2 * p + o) n m)) rd q
      (interleave (evens ((n.elems e lanes).drop o)) (evens ((m.elems e lanes).drop o))) := by
  have hwrites := writes_pairLoop he hfit c rd hhalf (fun p => 2 * p + o) n m
  rwa [← evens_elems n e half ho, ← evens_elems m e half ho, ← hhalf] at hwrites

end Laws

lemma lanes_fit (q : Bool) {size : ℕ} (hsize : size < 4) : 8 * 2 ^ size * (regbytes q >>> size) = 8 * regbytes q := by
  interval_cases size <;> cases q <;> rfl

lemma lanes_even {q : Bool} {size : ℕ} (hsize : size < 4) (halloc : q = true ∨ size ≠ 3) :
    regbytes q >>> size = 2 * ((regbytes q >>> size) / 2) := by
  interval_cases size <;> cases q <;> simp_all [regbytes]

/-- The bytes of the table registers, one register after the other. -/
def tableBytes (c : Cpu) (rn nregs : ℕ) : List U8 := (List.range nregs).flatMap fun r => (c.vreg ((rn + r) % 32)).elems 8 16

lemma getElem?_tableBytes (c : Cpu) (rn nregs j : ℕ) : (tableBytes c rn nregs)[j]? =
    if j < nregs * 16 then some ((c.vreg ((rn + j / 16) % 32)).elem 8 (j % 16)) else none := by
  have hlen (k : ℕ) : (tableBytes c rn k).length = k * 16 := by simp [tableBytes]
  induction nregs with
  | zero => simp [tableBytes]
  | succ k ih =>
    have hsnoc : tableBytes c rn (k + 1) = tableBytes c rn k ++ (c.vreg ((rn + k) % 32)).elems 8 16 := by
      simp [tableBytes, List.range_succ]
    rw [hsnoc]
    by_cases hj : j < k * 16
    · rw [List.getElem?_append_left (by rwa [hlen]), ih, if_pos hj, if_pos (by omega)]
    · rw [List.getElem?_append_right (by rw [hlen]; omega), hlen, V128.getElem?_elems]
      by_cases hin : j < (k + 1) * 16
      · rw [if_pos (by omega), if_pos hin, show j / 16 = k by omega, show j - k * 16 = j % 16 by omega]
      · rw [if_neg (by omega), if_neg hin]

lemma permute_writes (c : Cpu) (rd : ℕ) {q : Bool} {size opc : ℕ} (n m : V128) (hsize : size < 4)
    (halloc : q = true ∨ size ≠ 3) (hopc : opc ∈ [1, 2, 3, 5, 6, 7]) : ∃ r, permute q size opc n m = some r ∧
      Writes c (c.setVreg rd r) rd q (permuted opc ((regbytes q >>> size) / 2) (n.elems (8 * 2 ^ size) (regbytes q >>> size))
        (m.elems (8 * 2 ^ size) (regbytes q >>> size))) := by
  have he : 0 < 8 * 2 ^ size := by positivity
  have hfit := lanes_fit q hsize
  have heven := lanes_even hsize halloc
  fin_cases hopc
  · exact ⟨_, rfl, writes_uzp he hfit c rd false n m⟩
  · exact ⟨_, rfl, writes_trn he hfit c rd heven (o := 0) (by decide) n m⟩
  · have hwrites := writes_pairLoop he hfit c rd heven (fun p => p) n m
    rw [← take_elems, ← take_elems, ← heven] at hwrites
    exact ⟨_, rfl, hwrites⟩
  · exact ⟨_, rfl, writes_uzp he hfit c rd true n m⟩
  · exact ⟨_, rfl, writes_trn he hfit c rd heven (o := 1) (by decide) n m⟩
  · have hwrites := writes_pairLoop he hfit c rd heven (fun p => (regbytes q >>> size) / 2 + p) n m
    rw [← drop_elems, ← drop_elems, ← heven] at hwrites
    exact ⟨_, rfl, hwrites⟩

lemma uzp_pairLoop {e lanes half : ℕ} {q : Bool} (he : 0 < e) (hfit : e * lanes = 8 * regbytes q) (hhalf : lanes = 2 * half)
    (odd : Bool) (n m : V128) : uzp e lanes odd (pairLoop e half (fun p => p) n m) (pairLoop e half (fun p => half + p) n m) =
      (if odd then m else n).low q := by
  have hodd := Bool.toNat_le odd
  have hpick (j : ℕ) (hj : j % 2 = odd.toNat) (f : V128 → BitVec e) :
      f (if j % 2 = 0 then n else m) = f (if odd then m else n) := by
    cases odd <;> simp_all
  rw [← V128.fill_elem he hfit]
  refine V128.fill_congr _ (fun k hk => ?_) _
  have hpair (s : ℕ → ℕ) {j : ℕ} (hj : j < lanes) :
      (pairLoop e half s n m).elem e j = (if j % 2 = 0 then n else m).elem e (s (j / 2)) :=
    V128.elem_fill_all _ _ (hhalf ▸ V128.fits hfit) (hhalf ▸ hj)
  dsimp only
  by_cases hs : 2 * k + odd.toNat < lanes
  · rw [if_pos hs, hpair _ hs, hpick _ (by omega) (·.elem e _), show (2 * k + odd.toNat) / 2 = k by omega]
  · rw [if_neg hs, hpair _ (by omega), hpick _ (by omega) (·.elem e _),
      show half + (2 * k + odd.toNat - lanes) / 2 = k by omega]

lemma ext_writes (c : Cpu) (insn : U32) (halloc : bit insn 30 = true ∨ bits insn 14 11 < 8) :
    Writes c (simdExt c insn) (bits insn 4 0) (bit insn 30)
      ((((c.vreg (bits insn 9 5)).elems 8 (regbytes (bit insn 30)) ++
        (c.vreg (bits insn 20 16)).elems 8 (regbytes (bit insn 30))).drop (bits insn 14 11)).take (regbytes (bit insn 30))) := by
  have himm : bits insn 14 11 ≤ regbytes (bit insn 30) := by
    have := bits_lt insn 14 11
    rcases halloc with hq | hlow
    · rw [hq, regbytes, if_pos rfl]
      omega
    · rw [regbytes]
      split_ifs <;> omega
  refine writes_fill (by decide) rfl c _ (eq_map_range fun i => ?_)
  rw [List.getElem?_take, List.getElem?_drop, V128.getElem?_elems_append]
  simp only [Nat.add_comm (bits insn 14 11) i]
  by_cases hi : i < regbytes (bit insn 30)
  · rw [if_pos hi, if_pos hi]
    by_cases hj : i + bits insn 14 11 < regbytes (bit insn 30)
    · rw [if_pos hj, if_pos hj]
    · rw [if_neg hj, if_neg hj, if_pos (by omega)]
  · rw [if_neg hi, if_neg hi]

lemma tbl_writes (c : Cpu) (insn : U32) : Writes c (simdTbl c insn) (bits insn 4 0) (bit insn 30)
    (List.zipWith
      (fun ix old => ((tableBytes c (bits insn 9 5) (bits insn 14 13 + 1))[BitVec.toNat ix]?).getD (if bit insn 12 then old else 0))
      ((c.vreg (bits insn 20 16)).elems 8 (regbytes (bit insn 30)))
      ((c.vreg (bits insn 4 0)).elems 8 (regbytes (bit insn 30)))) := by
  refine writes_fill (by decide) rfl c _ ?_
  rw [V128.elems, V128.elems, List.zipWith_map, List.zipWith_self]
  refine List.map_congr_left fun i _ => ?_
  rw [getElem?_tableBytes]
  dsimp only
  split_ifs <;> rfl

/-- The permutations give the rows of elements that the architecture names, from the registers before
the instruction, whichever of the registers are the same; and `UZP` undoes `ZIP`. -/
theorem permute_laws (c : Cpu) (insn : U32) :
    let q := bit insn 30
    let rd := bits insn 4 0
    let n := c.vreg (bits insn 9 5)
    let m := c.vreg (bits insn 20 16)
    (∀ e lanes, e = 8 * 2 ^ bits insn 23 22 → lanes = regbytes q >>> bits insn 23 22 →
      (q = true ∨ bits insn 23 22 ≠ 3) → bits insn 14 12 ∈ [1, 2, 3, 5, 6, 7] →
        Writes c (simdPermute c insn) rd q (permuted (bits insn 14 12) (lanes / 2) (n.elems e lanes) (m.elems e lanes))) ∧
      ((q = true ∨ bits insn 14 11 < 8) → Writes c (simdExt c insn) rd q
        (((n.elems 8 (regbytes q) ++ m.elems 8 (regbytes q)).drop (bits insn 14 11)).take (regbytes q))) ∧
      Writes c (simdTbl c insn) rd q (List.zipWith
        (fun ix old =>
          ((tableBytes c (bits insn 9 5) (bits insn 14 13 + 1))[BitVec.toNat ix]?).getD (if bit insn 12 then old else 0))
        (m.elems 8 (regbytes q)) ((c.vreg rd).elems 8 (regbytes q))) ∧
      ∀ (q : Bool) (size : ℕ) (n m : V128), size < 4 → (q = true ∨ size ≠ 3) → ∃ z₁ z₂,
        permute q size 3 n m = some z₁ ∧ permute q size 7 n m = some z₂ ∧
          permute q size 1 z₁ z₂ = some (n.low q) ∧ permute q size 5 z₁ z₂ = some (m.low q) := by
  intro q rd n m
  refine ⟨?_, ext_writes c insn, tbl_writes c insn, fun q size n m hsize halloc => ?_⟩
  · rintro e lanes rfl rfl halloc hopc
    obtain ⟨r, hr, hwrites⟩ := permute_writes c rd n m (bits_lt insn 23 22) halloc hopc
    have hrun : simdPermute c insn = c.setVreg rd r := by
      rw [simdPermute, hr]
    rwa [hrun]
  · have hunzip (odd : Bool) := uzp_pairLoop (by positivity) (lanes_fit q hsize) (lanes_even hsize halloc) odd n m
    exact ⟨_, _, rfl, rfl, congrArg some (hunzip false), congrArg some (hunzip true)⟩

def countingBytes : Cpu := (cpuReset 0x40000000 0).setVreg 0 ⟨0x0706050403020100, 0x0f0e0d0c0b0a0908⟩

/-- `ZIP1 V0.8B, V0.8B, V0.8B`. -/
theorem permute_laws_zip1 : Writes countingBytes (simdPermute countingBytes 0x0e003800) 0 false
    (permuted 3 4 ((countingBytes.vreg 0).elems 8 8) ((countingBytes.vreg 0).elems 8 8)) :=
  (permute_laws countingBytes 0x0e003800).1 8 8 rfl rfl (Or.inr (by decide)) (by decide)

end Arm64Emu
