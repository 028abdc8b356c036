import Arm64Emu.AluFacts
import Arm64Emu.Crypto
import Arm64Emu.Fips180

/-! A block of SHA-256 by the SHA instructions is the compression function of the standard. -/
namespace Arm64Emu

open Fips180 (State rounds schedule compress)

section Words

lemma V128.s_ofS (a b c d : U32) : (V128.ofS a b c d).s 0 = a ∧ (V128.ofS a b c d).s 1 = b ∧
    (V128.ofS a b c d).s 2 = c ∧ (V128.ofS a b c d).s 3 = d := by
  refine ⟨?_, ?_, ?_, ?_⟩ <;> refine BitVec.eq_of_getLsbD_eq fun i hi => ?_ <;>
    rw [V128.s, V128.elem, Lanes.getLsbD_lane, V128.bits, V128.ofS, BitVec.getLsbD_append, decide_eq_true hi, Bool.true_and]
  · rw [if_pos (by omega), BitVec.getLsbD_append, if_pos (by omega), Nat.mul_zero, Nat.zero_add]
  · rw [if_pos (by omega), BitVec.getLsbD_append, if_neg (by omega), show 32 * 1 + i - 32 = i by omega]
  · rw [if_neg (by omega), BitVec.getLsbD_append, if_pos (by omega), show 32 * 2 + i - 64 = i by omega]
  · rw [if_neg (by omega), BitVec.getLsbD_append, if_neg (by omega), show 32 * 3 + i - 64 - 32 = i by omega]

@[simp] lemma V128.s_ofS_zero (a b c d : U32) : (V128.ofS a b c d).s 0 = a := (V128.s_ofS a b c d).1
@[simp] lemma V128.s_ofS_one (a b c d : U32) : (V128.ofS a b c d).s 1 = b := (V128.s_ofS a b c d).2.1
@[simp] lemma V128.s_ofS_two (a b c d : U32) : (V128.ofS a b c d).s 2 = c := (V128.s_ofS a b c d).2.2.1
@[simp] lemma V128.s_ofS_three (a b c d : U32) : (V128.ofS a b c d).s 3 = d := (V128.s_ofS a b c d).2.2.2

lemma sha256Bsig0_eq (x : U32) : sha256Bsig0 x = Fips180.bigSigma0 x := by
  simp [sha256Bsig0, Fips180.bigSigma0, ror32_eq_rotateRight]

lemma sha256Bsig1_eq (x : U32) : sha256Bsig1 x = Fips180.bigSigma1 x := by
  simp [sha256Bsig1, Fips180.bigSigma1, ror32_eq_rotateRight]

lemma sha256Ssig0_eq (x : U32) : sha256Ssig0 x = Fips180.smallSigma0 x := by
  simp [sha256Ssig0, Fips180.smallSigma0, ror32_eq_rotateRight]

lemma sha256Ssig1_eq (x : U32) : sha256Ssig1 x = Fips180.smallSigma1 x := by
  simp [sha256Ssig1, Fips180.smallSigma1, ror32_eq_rotateRight]

end Words

section Rounds

def abcd (s : State) : V128 := .ofS s.a s.b s.c s.d

def efgh (s : State) : V128 := .ofS s.e s.f s.g s.h

lemma sha256Round_eq (s : State) (kt wt : U32) :
    sha256Round (abcd s) (efgh s) (kt + wt) = (abcd (Fips180.round s kt wt), efgh (Fips180.round s kt wt)) := by
  have ht1 : s.h + Fips180.bigSigma1 s.e + Fips180.ch s.e s.f s.g + (kt + wt) =
      s.h + Fips180.bigSigma1 s.e + Fips180.ch s.e s.f s.g + kt + wt := by ac_rfl
  have hch : shaCh = Fips180.ch := rfl
  have hmaj : shaMaj = Fips180.maj := rfl
  simp only [sha256Round, abcd, efgh, Fips180.round, V128.s_ofS_zero, V128.s_ofS_one, V128.s_ofS_two, V128.s_ofS_three,
    sha256Bsig0_eq, sha256Bsig1_eq, hch, hmaj, ht1]
  rw [BitVec.add_assoc _ (Fips180.bigSigma0 s.a), BitVec.add_comm _ s.d]

variable (m : ℕ → U32) (h : State)

lemma sha256Rounds_eq {w : V128} {t : ℕ} (hw : ∀ j < 4, w.s j = Fips180.k (t + j) + schedule m (t + j)) :
    ∀ n ≤ 4, sha256Rounds (abcd (rounds m h t)) (efgh (rounds m h t)) w n =
      (abcd (rounds m h (t + n)), efgh (rounds m h (t + n)))
  | 0, _ => rfl
  | n + 1, hn => by
    rw [sha256Rounds, sha256Rounds_eq hw n (by omega), hw n (by omega)]
    exact sha256Round_eq _ _ _

/-- The schedule words `4g` to `4g + 3` in a register. -/
def quad (g : ℕ) : V128 := .ofS (schedule m (4 * g)) (schedule m (4 * g + 1)) (schedule m (4 * g + 2)) (schedule m (4 * g + 3))

lemma sha256Su1_su0 (g : ℕ) :
    sha256Su1 (sha256Su0 (quad m g) (quad m (g + 1))) (quad m (g + 2)) (quad m (g + 3)) = quad m (g + 4) := by
  have hword (i : ℕ) : Fips180.smallSigma1 (schedule m (4 * g + (i + 14))) +
      (Fips180.smallSigma0 (schedule m (4 * g + (i + 1))) + schedule m (4 * g + i)) + schedule m (4 * g + (i + 9)) =
      schedule m (4 * g + (i + 16)) := by
    have h := Fips180.schedule_add m (4 * g + i)
    rw [Nat.add_assoc, Nat.add_assoc, Nat.add_assoc, Nat.add_assoc] at h
    rw [h]
    ac_rfl
  have h0 := hword 0
  have h1 := hword 1
  have h2 := hword 2
  have h3 := hword 3
  simp only [Nat.reduceAdd, Nat.add_zero] at h0 h1 h2 h3
  simp only [sha256Su1, sha256Su0, quad, V128.s_ofS_zero, V128.s_ofS_one, V128.s_ofS_two, V128.s_ofS_three,
    sha256Ssig0_eq, sha256Ssig1_eq, Nat.mul_add, Nat.add_assoc, Nat.reduceMul, Nat.reduceAdd, h0, h1, h2, h3]

end Rounds

section Block

/-- The table `sha_k`. -/
def shaK : List U32 := [
    0x428a2f98, 0x71374491, 0xb5c0fbcf, 0xe9b5dba5,
    0x3956c25b, 0x59f111f1, 0x923f82a4, 0xab1c5ed5,
    0xd807aa98, 0x12835b01, 0x243185be, 0x550c7dc3,
    0x72be5d74, 0x80deb1fe, 0x9bdc06a7, 0xc19bf174,
    0xe49b69c1, 0xefbe4786, 0x0fc19dc6, 0x240ca1cc,
    0x2de92c6f, 0x4a7484aa, 0x5cb0a9dc, 0x76f988da,
    0x983e5152, 0xa831c66d, 0xb00327c8, 0xbf597fc7,
    0xc6e00bf3, 0xd5a79147, 0x06ca6351, 0x14292967,
    0x27b70a85, 0x2e1b2138, 0x4d2c6dfc, 0x53380d13,
    0x650a7354, 0x766a0abb, 0x81c2c92e, 0x92722c85,
    0xa2bfe8a1, 0xa81a664b, 0xc24b8b70, 0xc76c51a3,
    0xd192e819, 0xd6990624, 0xf40e3585, 0x106aa070,
    0x19a4c116, 0x1e376c08, 0x2748774c, 0x34b0bcb5,
    0x391c0cb3, 0x4ed8aa4a, 0x5b9cca4f, 0x682e6ff3,
    0x748f82ee, 0x78a5636f, 0x84c87814, 0x8cc70208,
    0x90befffa, 0xa4506ceb, 0xbef9a3f7, 0xc67178f2]

/-- Entry `g` of the table as `LD1` reads it, four words at a time. -/
def shaKQuad (g : ℕ) : V128 :=
  .ofS (shaK.getD (4 * g) 0) (shaK.getD (4 * g + 1) 0) (shaK.getD (4 * g + 2) 0) (shaK.getD (4 * g + 3) 0)

/-- `ADD` of the four words. -/
def V128.add4s (u v : V128) : V128 := .ofS (u.s 0 + v.s 0) (u.s 1 + v.s 1) (u.s 2 + v.s 2) (u.s 3 + v.s 3)

/-- `REV32` of bytes: the bytes of each word change their order. -/
def V128.rev32b (v : V128) : V128 := .ofB fun i => v.b (4 * (i / 4) + (3 - i % 4))

/-- Four rounds: `SHA256H q0, q1, v16` and `SHA256H2 q1, q17, v16`, with the sum of constants and
schedule words in `v16` and the old first half in `v17`. -/
def sha256GroupRounds (g : ℕ) (c : Cpu) : Cpu :=
  let c := c.setVreg 16 (shaKQuad g)
  let c := c.setVreg 16 ((c.vreg 16).add4s (c.vreg 4))
  let c := c.setVreg 17 (c.vreg 0)
  let c := cryptoSha3 c 0x5e104020
  cryptoSha3 c 0x5e105221

/-- The schedule registers move up; before group 12 `SHA256SU0 v18, v5` and `SHA256SU1 v18, v6, v7`
make the words that come last. -/
def sha256GroupSchedule (g : ℕ) (c : Cpu) : Cpu :=
  if g < 12 then
    let c := c.setVreg 18 (c.vreg 4)
    let c := cryptoSha2 c 0x5e2828b2
    let c := cryptoSha3 c 0x5e0760d2
    let c := c.setVreg 4 (c.vreg 5)
    let c := c.setVreg 5 (c.vreg 6)
    let c := c.setVreg 6 (c.vreg 7)
    c.setVreg 7 (c.vreg 18)
  else
    let c := c.setVreg 4 (c.vreg 5)
    let c := c.setVreg 5 (c.vreg 6)
    c.setVreg 6 (c.vreg 7)

def sha256Group (g : ℕ) (c : Cpu) : Cpu := sha256GroupSchedule g (sha256GroupRounds g c)

def sha256Groups (c : Cpu) : ℕ → Cpu
  | 0 => c
  | g + 1 => sha256Group g (sha256Groups c g)

/-- The chaining state goes to `v2` and `v3` with a copy in `v0` and `v1`, the bytes of the block
to `v4` to `v7`, where `REV32` makes words of them. -/
def sha256Load (h : State) (block : ℕ → U8) (c : Cpu) : Cpu :=
  let c := (c.setVreg 2 (abcd h)).setVreg 3 (efgh h)
  let c := c.setVreg 0 (c.vreg 2)
  let c := c.setVreg 1 (c.vreg 3)
  let c := (c.setVreg 4 (.ofB fun i => block i)).setVreg 5 (.ofB fun i => block (16 + i))
  let c := (c.setVreg 6 (.ofB fun i => block (32 + i))).setVreg 7 (.ofB fun i => block (48 + i))
  let c := c.setVreg 4 (c.vreg 4).rev32b
  let c := c.setVreg 5 (c.vreg 5).rev32b
  let c := c.setVreg 6 (c.vreg 6).rev32b
  c.setVreg 7 (c.vreg 7).rev32b

def sha256Block (h : State) (block : ℕ → U8) (c : Cpu) : Cpu :=
  let c := sha256Groups (sha256Load h block c) 16
  let c := c.setVreg 0 ((c.vreg 0).add4s (c.vreg 2))
  c.setVreg 1 ((c.vreg 1).add4s (c.vreg 3))

lemma shaK_eq : shaK = Fips180.roundConstants := rfl

lemma sha256h_eq (c : Cpu) : cryptoSha3 c 0x5e104020 =
    c.setVreg 0 (sha256Hash (c.vreg 0) (c.vreg 1) (c.vreg 16) true) := rfl

lemma sha256h2_eq (c : Cpu) : cryptoSha3 c 0x5e105221 =
    c.setVreg 1 (sha256Hash (c.vreg 17) (c.vreg 1) (c.vreg 16) false) := rfl

lemma sha256su0_eq (c : Cpu) : cryptoSha2 c 0x5e2828b2 = c.setVreg 18 (sha256Su0 (c.vreg 18) (c.vreg 5)) := rfl

lemma sha256su1_eq (c : Cpu) : cryptoSha3 c 0x5e0760d2 =
    c.setVreg 18 (sha256Su1 (c.vreg 18) (c.vreg 6) (c.vreg 7)) := rfl

lemma V128.s_eq_bytes (v : V128) (j : ℕ) :
    v.s j = v.b (4 * j + 3) ++ v.b (4 * j + 2) ++ v.b (4 * j + 1) ++ v.b (4 * j) := by
  refine BitVec.eq_of_getLsbD_eq fun i hi => ?_
  simp only [V128.s, V128.b, V128.elem, Lanes.getLsbD_lane, BitVec.getLsbD_append]
  split_ifs <;> simp only [decide_true, Bool.true_and, *] <;> grind

variable (m : ℕ → U32) (h : State)

lemma V128.eq_ofS {v : V128} {a b c d : U32} (h0 : v.s 0 = a) (h1 : v.s 1 = b) (h2 : v.s 2 = c) (h3 : v.s 3 = d) :
    v = .ofS a b c d := by
  refine V128.ext_elem (by decide : 0 < 32) (by decide : 128 = 32 * 4) fun i hi => ?_
  match i, hi with
  | 0, _ => exact h0.trans (V128.s_ofS a b c d).1.symm
  | 1, _ => exact h1.trans (V128.s_ofS a b c d).2.1.symm
  | 2, _ => exact h2.trans (V128.s_ofS a b c d).2.2.1.symm
  | 3, _ => exact h3.trans (V128.s_ofS a b c d).2.2.2.symm

/-- The registers before group `g`: the working variables after `4g` rounds, the chaining state
and the schedule words of the next groups, up to the last one. -/
structure Sha256At (g : ℕ) (c : Cpu) : Prop where
  work : c.vreg 0 = abcd (rounds m h (4 * g)) ∧ c.vreg 1 = efgh (rounds m h (4 * g))
  chain : c.vreg 2 = abcd h ∧ c.vreg 3 = efgh h
  words : ∀ j < 4, g + j < 16 → c.vreg (4 + j) = quad m (g + j)

variable {m h}

lemma add4s_shaKQuad (g j : ℕ) (hj : j < 4) :
    ((shaKQuad g).add4s (quad m g)).s j = Fips180.k (4 * g + j) + schedule m (4 * g + j) := by
  match j, hj with
  | 0, _ | 1, _ | 2, _ | 3, _ => simp [V128.add4s, shaKQuad, quad, Fips180.k, shaK_eq]

lemma sha256Hash_quad (g : ℕ) (part1 : Bool) :
    sha256Hash (abcd (rounds m h (4 * g))) (efgh (rounds m h (4 * g))) ((shaKQuad g).add4s (quad m g)) part1 =
      if part1 then abcd (rounds m h (4 * (g + 1))) else efgh (rounds m h (4 * (g + 1))) := by
  rw [sha256Hash, sha256Rounds_eq m h (add4s_shaKQuad g) 4 le_rfl, Nat.mul_succ]

/-- Both halves of the state come from the same four rounds: the second instruction reads the old
first half from `v17`. -/
lemma sha256GroupRounds_work (g : ℕ) (c : Cpu) :
    (sha256GroupRounds g c).vreg 0 = sha256Hash (c.vreg 0) (c.vreg 1) ((shaKQuad g).add4s (c.vreg 4)) true ∧
      (sha256GroupRounds g c).vreg 1 = sha256Hash (c.vreg 0) (c.vreg 1) ((shaKQuad g).add4s (c.vreg 4)) false := by
  constructor <;>
    simp only [sha256GroupRounds, sha256h_eq, sha256h2_eq, Cpu.vreg_setVreg, Nat.reduceMod, Nat.reduceEqDiff, zero_ne_one,
      one_ne_zero, if_true, if_false, OfNat.zero_ne_ofNat, OfNat.one_ne_ofNat]

lemma sha256GroupRounds_vreg (g : ℕ) (c : Cpu) {j : ℕ} (h2 : 2 ≤ j) (hj : j < 8) :
    (sha256GroupRounds g c).vreg j = c.vreg j := by
  have hne (i : ℕ) (v : V128) (c : Cpu) (hi : i < 2 ∨ 8 ≤ i ∧ i < 32) : (c.setVreg i v).vreg j = c.vreg j := by
    rw [Cpu.vreg_setVreg, if_neg (by omega)]
  rw [sha256GroupRounds, sha256h_eq, sha256h2_eq, hne 1 _ _ (by omega), hne 0 _ _ (by omega), hne 17 _ _ (by omega),
    hne 16 _ _ (by omega), hne 16 _ _ (by omega)]

lemma sha256GroupSchedule_low (g : ℕ) (c : Cpu) {j : ℕ} (hj : j < 4) :
    (sha256GroupSchedule g c).vreg j = c.vreg j := by
  unfold sha256GroupSchedule
  split_ifs <;> simp only [sha256su0_eq, sha256su1_eq, Cpu.vreg_setVreg] <;> split_ifs <;> first | rfl | omega

lemma sha256GroupSchedule_shift (g : ℕ) (c : Cpu) {j : ℕ} (hj : j < 3) :
    (sha256GroupSchedule g c).vreg (4 + j) = c.vreg (5 + j) := by
  unfold sha256GroupSchedule
  match j, hj with
  | 0, _ | 1, _ | 2, _ =>
    split_ifs <;> simp only [sha256su0_eq, sha256su1_eq, Cpu.vreg_setVreg, Nat.reduceAdd, Nat.reduceMod, Nat.reduceEqDiff,
      if_true, if_false]

lemma sha256GroupSchedule_last {g : ℕ} (c : Cpu) (hg : g < 12) : (sha256GroupSchedule g c).vreg 7 =
    sha256Su1 (sha256Su0 (c.vreg 4) (c.vreg 5)) (c.vreg 6) (c.vreg 7) := by
  rw [sha256GroupSchedule, if_pos hg]
  simp only [sha256su0_eq, sha256su1_eq, Cpu.vreg_setVreg, Nat.reduceMod, Nat.reduceEqDiff, if_true, if_false]

lemma Sha256At.step {g : ℕ} {c : Cpu} (hc : Sha256At m h g c) (hg : g < 16) : Sha256At m h (g + 1) (sha256Group g c) := by
  obtain ⟨⟨h0, h1⟩, ⟨h2, h3⟩, hw⟩ := hc
  have h4 : c.vreg 4 = quad m g := hw 0 (by omega) hg
  have hwork := sha256GroupRounds_work g c
  rw [h0, h1, h4, sha256Hash_quad, sha256Hash_quad] at hwork
  have hkept {j : ℕ} (h2j : 2 ≤ j) (hj : j < 8) := sha256GroupRounds_vreg g c h2j hj
  refine ⟨⟨?_, ?_⟩, ⟨?_, ?_⟩, fun j hj hgj => ?_⟩
  · exact (sha256GroupSchedule_low g _ (by omega)).trans hwork.1
  · exact (sha256GroupSchedule_low g _ (by omega)).trans hwork.2
  · rw [sha256Group, sha256GroupSchedule_low g _ (by omega), hkept (by omega) (by omega), h2]
  · rw [sha256Group, sha256GroupSchedule_low g _ (by omega), hkept (by omega) (by omega), h3]
  · by_cases h3j : j = 3
    · subst h3j
      rw [sha256Group, sha256GroupSchedule_last _ (by omega), sha256GroupRounds_vreg g c (j := 4) (by omega) (by omega),
        sha256GroupRounds_vreg g c (j := 5) (by omega) (by omega), sha256GroupRounds_vreg g c (j := 6) (by omega) (by omega),
        sha256GroupRounds_vreg g c (j := 7) (by omega) (by omega), h4, hw 1 (by omega) (by omega),
        hw 2 (by omega) (by omega), hw 3 (by omega) (by omega)]
      exact sha256Su1_su0 m g
    · rw [sha256Group, sha256GroupSchedule_shift g _ (by omega), hkept (by omega) (by omega),
        show 5 + j = 4 + (j + 1) by omega, hw (j + 1) (by omega) (by omega), show g + (j + 1) = g + 1 + j by omega]

lemma Sha256At.run {c : Cpu} (hc : Sha256At m h 0 c) : ∀ n ≤ 16, Sha256At m h n (sha256Groups c n)
  | 0, _ => hc
  | n + 1, hn => (hc.run n (by omega)).step hn

lemma rev32b_ofB (block : ℕ → U8) {q : ℕ} (hq : q < 4) :
    (V128.ofB fun i => block (16 * q + i)).rev32b = quad (Fips180.blockWord block) q := by
  have hword (j : ℕ) (hj : j < 4) : (V128.ofB fun i => block (16 * q + i)).rev32b.s j =
      schedule (Fips180.blockWord block) (4 * q + j) := by
    have hbyte (k : ℕ) (hk : k < 4) : (V128.ofB fun i => block (16 * q + i)).rev32b.b (4 * j + k) =
        block (4 * (4 * q + j) + (3 - k)) := by
      rw [V128.rev32b, V128.b_ofB _ (by omega), V128.b_ofB _ (by omega)]
      exact congrArg block (by omega)
    rw [V128.s_eq_bytes, hbyte 3 (by omega), hbyte 2 (by omega), hbyte 1 (by omega), ← Nat.add_zero (4 * j),
      hbyte 0 (by omega), Fips180.schedule_of_lt _ (by omega)]
    rfl
  exact V128.eq_ofS (hword 0 (by omega)) (hword 1 (by omega)) (hword 2 (by omega)) (hword 3 (by omega))

lemma sha256Load_at (h : State) (block : ℕ → U8) (c : Cpu) :
    Sha256At (Fips180.blockWord block) h 0 (sha256Load h block c) := by
  have hq0 := rev32b_ofB block (q := 0) (by omega)
  have hq1 := rev32b_ofB block (q := 1) (by omega)
  have hq2 := rev32b_ofB block (q := 2) (by omega)
  have hq3 := rev32b_ofB block (q := 3) (by omega)
  simp only [Nat.reduceMul, Nat.zero_add] at hq0 hq1 hq2 hq3
  refine ⟨⟨?_, ?_⟩, ⟨?_, ?_⟩, fun j hj _ => ?_⟩
  · simp [sha256Load, Cpu.vreg_setVreg, rounds]
  · simp [sha256Load, Cpu.vreg_setVreg, rounds]
  · simp [sha256Load, Cpu.vreg_setVreg]
  · simp [sha256Load, Cpu.vreg_setVreg]
  · match j, hj with
    | 0, _ | 1, _ | 2, _ | 3, _ => simp [sha256Load, Cpu.vreg_setVreg, hq0, hq1, hq2, hq3]

lemma abcd_add (s t : State) : (abcd s).add4s (abcd t) = abcd (s.add t) := by
  simp [V128.add4s, abcd, State.add]

lemma efgh_add (s t : State) : (efgh s).add4s (efgh t) = efgh (s.add t) := by
  simp [V128.add4s, efgh, State.add]

/-- For every chaining state and every block, whatever the registers held before, the sequence
leaves the next chaining state of the standard in `v0` and `v1`. -/
theorem sha256_block_compresses (h : State) (block : ℕ → U8) (c : Cpu) :
    (sha256Block h block c).vreg 0 = abcd (compress (Fips180.blockWord block) h) ∧
      (sha256Block h block c).vreg 1 = efgh (compress (Fips180.blockWord block) h) := by
  obtain ⟨⟨h0, h1⟩, ⟨h2, h3⟩, -⟩ := (sha256Load_at h block c).run 16 le_rfl
  constructor
  · simp only [sha256Block, Cpu.vreg_setVreg, Nat.reduceMod, zero_ne_one, if_true, if_false]
    rw [h0, h2, abcd_add]
    rfl
  · simp only [sha256Block, Cpu.vreg_setVreg, Nat.reduceMod, one_ne_zero, OfNat.ofNat_ne_zero, if_true, if_false]
    rw [h1, h3, efgh_add]
    rfl

end Block

end Arm64Emu
