import Arm64Emu.Simd

/-! The cryptographic instructions of `exec_fpsimd.c`: SHA-256, AES and the carry-less products. -/
namespace Arm64Emu

section Sha256

def shaCh (x y z : U32) : U32 := (x &&& y) ^^^ (~~~x &&& z)

def shaMaj (x y z : U32) : U32 := (x &&& y) ^^^ (x &&& z) ^^^ (y &&& z)

def sha256Bsig0 (x : U32) : U32 := ror32 x 2 ^^^ ror32 x 13 ^^^ ror32 x 22

def sha256Bsig1 (x : U32) : U32 := ror32 x 6 ^^^ ror32 x 11 ^^^ ror32 x 25

def sha256Ssig0 (x : U32) : U32 := ror32 x 7 ^^^ ror32 x 18 ^^^ (x >>> 3)

def sha256Ssig1 (x : U32) : U32 := ror32 x 17 ^^^ ror32 x 19 ^^^ (x >>> 10)

/-- Word `s[i]` of a register. -/
def V128.s (v : V128) (i : ℕ) : U32 := v.elem 32 i

/-- The register with the words `s[0]` to `s[3]`. -/
def V128.ofS (s0 s1 s2 s3 : U32) : V128 := ⟨s1 ++ s0, s3 ++ s2⟩

/-- One of the four rounds in `sha256_hash`. -/
def sha256Round (x y : V128) (w : U32) : V128 × V128 :=
  let chs := shaCh (y.s 0) (y.s 1) (y.s 2)
  let maj := shaMaj (x.s 0) (x.s 1) (x.s 2)
  let t := y.s 3 + sha256Bsig1 (y.s 0) + chs + w
  let x3 := t + x.s 3
  let y3 := t + sha256Bsig0 (x.s 0) + maj
  (.ofS y3 (x.s 0) (x.s 1) (x.s 2), .ofS x3 (y.s 0) (y.s 1) (y.s 2))

/-- The first `k` rounds. -/
def sha256Rounds (x y w : V128) : ℕ → V128 × V128
  | 0 => (x, y)
  | k + 1 =>
    let (x, y) := sha256Rounds x y w k
    sha256Round x y (w.s k)

def sha256Hash (x y w : V128) (part1 : Bool) : V128 :=
  let (x, y) := sha256Rounds x y w 4
  if part1 then x else y

def sha256Su0 (x y : V128) : V128 :=
  .ofS (sha256Ssig0 (x.s 1) + x.s 0) (sha256Ssig0 (x.s 2) + x.s 1) (sha256Ssig0 (x.s 3) + x.s 2)
    (sha256Ssig0 (y.s 0) + x.s 3)

def sha256Su1 (x y z : V128) : V128 :=
  let r0 := sha256Ssig1 (z.s 2) + x.s 0 + y.s 1
  let r1 := sha256Ssig1 (z.s 3) + x.s 1 + y.s 2
  let r2 := sha256Ssig1 r0 + x.s 2 + y.s 3
  let r3 := sha256Ssig1 r1 + x.s 3 + z.s 0
  .ofS r0 r1 r2 r3

end Sha256

section Sha1

def shaPar (x y z : U32) : U32 := x ^^^ y ^^^ z

def rol32 (x : U32) (n : ℕ) : U32 := if n % 32 = 0 then x else (x <<< (n % 32)) ||| (x >>> (32 - n % 32))

/-- One of the four rounds of `SHA1C`, `SHA1P` and `SHA1M`; `e` is the word `n.s[0]`. -/
def sha1Round (op : ℕ) (d : V128) (e w : U32) : V128 × U32 :=
  let t := if op = 0 then shaCh (d.s 1) (d.s 2) (d.s 3)
    else if op = 1 then shaPar (d.s 1) (d.s 2) (d.s 3)
    else shaMaj (d.s 1) (d.s 2) (d.s 3)
  let t := t + (rol32 (d.s 0) 5 + e + w)
  (.ofS t (d.s 0) (rol32 (d.s 1) 30) (d.s 2), d.s 3)

def sha1Rounds (op : ℕ) (d : V128) (e : U32) (m : V128) : ℕ → V128 × U32
  | 0 => (d, e)
  | k + 1 =>
    let (d, e) := sha1Rounds op d e m k
    sha1Round op d e (m.s k)

end Sha1

/-- `SHA1C`, `SHA1P`, `SHA1M`, `SHA1SU0`, `SHA256H`, `SHA256H2` and `SHA256SU1`. -/
def cryptoSha3 (c : Cpu) (insn : U32) : Cpu :=
  let op := bits insn 14 12
  let rd := bits insn 4 0
  let d := c.vreg rd
  let n := c.vreg (bits insn 9 5)
  let m := c.vreg (bits insn 20 16)
  match op with
  | 0 | 1 | 2 => c.setVreg rd (sha1Rounds op d (n.s 0) m 4).1
  | 3 => c.setVreg rd ⟨d.d0 ^^^ (d.d1 ^^^ m.d0), d.d1 ^^^ (n.d0 ^^^ m.d1)⟩
  | 4 => c.setVreg rd (sha256Hash d n m true)
  | 5 => c.setVreg rd (sha256Hash n d m false)
  | 6 => c.setVreg rd (sha256Su1 d n m)
  | _ => undefined c

/-- `SHA1H`, `SHA1SU1` and `SHA256SU0`. -/
def cryptoSha2 (c : Cpu) (insn : U32) : Cpu :=
  let rd := bits insn 4 0
  let d := c.vreg rd
  let n := c.vreg (bits insn 9 5)
  match bits insn 16 12 with
  | 0 => c.setVreg rd (.ofS (rol32 (n.s 0) 30) 0 0 0)
  | 1 =>
    let d0 := rol32 (d.s 0 ^^^ n.s 1) 1
    c.setVreg rd (.ofS d0 (rol32 (d.s 1 ^^^ n.s 2) 1) (rol32 (d.s 2 ^^^ n.s 3) 1) (rol32 (d.s 3 ^^^ d0) 1))
  | 2 => c.setVreg rd (sha256Su0 d n)
  | _ => undefined c

section Aes

def aesSboxTable : List ℕ := [
    0x63, 0x7c, 0x77, 0x7b, 0xf2, 0x6b, 0x6f, 0xc5, 0x30, 0x01, 0x67, 0x2b, 0xfe, 0xd7, 0xab, 0x76,
    0xca, 0x82, 0xc9, 0x7d, 0xfa, 0x59, 0x47, 0xf0, 0xad, 0xd4, 0xa2, 0xaf, 0x9c, 0xa4, 0x72, 0xc0,
    0xb7, 0xfd, 0x93, 0x26, 0x36, 0x3f, 0xf7, 0xcc, 0x34, 0xa5, 0xe5, 0xf1, 0x71, 0xd8, 0x31, 0x15,
    0x04, 0xc7, 0x23, 0xc3, 0x18, 0x96, 0x05, 0x9a, 0x07, 0x12, 0x80, 0xe2, 0xeb, 0x27, 0xb2, 0x75,
    0x09, 0x83, 0x2c, 0x1a, 0x1b, 0x6e, 0x5a, 0xa0, 0x52, 0x3b, 0xd6, 0xb3, 0x29, 0xe3, 0x2f, 0x84,
    0x53, 0xd1, 0x00, 0xed, 0x20, 0xfc, 0xb1, 0x5b, 0x6a, 0xcb, 0xbe, 0x39, 0x4a, 0x4c, 0x58, 0xcf,
    0xd0, 0xef, 0xaa, 0xfb, 0x43, 0x4d, 0x33, 0x85, 0x45, 0xf9, 0x02, 0x7f, 0x50, 0x3c, 0x9f, 0xa8,
    0x51, 0xa3, 0x40, 0x8f, 0x92, 0x9d, 0x38, 0xf5, 0xbc, 0xb6, 0xda, 0x21, 0x10, 0xff, 0xf3, 0xd2,
    0xcd, 0x0c, 0x13, 0xec, 0x5f, 0x97, 0x44, 0x17, 0xc4, 0xa7, 0x7e, 0x3d, 0x64, 0x5d, 0x19, 0x73,
    0x60, 0x81, 0x4f, 0xdc, 0x22, 0x2a, 0x90, 0x88, 0x46, 0xee, 0xb8, 0x14, 0xde, 0x5e, 0x0b, 0xdb,
    0xe0, 0x32, 0x3a, 0x0a, 0x49, 0x06, 0x24, 0x5c, 0xc2, 0xd3, 0xac, 0x62, 0x91, 0x95, 0xe4, 0x79,
    0xe7, 0xc8, 0x37, 0x6d, 0x8d, 0xd5, 0x4e, 0xa9, 0x6c, 0x56, 0xf4, 0xea, 0x65, 0x7a, 0xae, 0x08,
    0xba, 0x78, 0x25, 0x2e, 0x1c, 0xa6, 0xb4, 0xc6, 0xe8, 0xdd, 0x74, 0x1f, 0x4b, 0xbd, 0x8b, 0x8a,
    0x70, 0x3e, 0xb5, 0x66, 0x48, 0x03, 0xf6, 0x0e, 0x61, 0x35, 0x57, 0xb9, 0x86, 0xc1, 0x1d, 0x9e,
    0xe1, 0xf8, 0x98, 0x11, 0x69, 0xd9, 0x8e, 0x94, 0x9b, 0x1e, 0x87, 0xe9, 0xce, 0x55, 0x28, 0xdf,
    0x8c, 0xa1, 0x89, 0x0d, 0xbf, 0xe6, 0x42, 0x68, 0x41, 0x99, 0x2d, 0x0f, 0xb0, 0x54, 0xbb, 0x16]

def aesInvSboxTable : List ℕ := [
    0x52, 0x09, 0x6a, 0xd5, 0x30, 0x36, 0xa5, 0x38, 0xbf, 0x40, 0xa3, 0x9e, 0x81, 0xf3, 0xd7, 0xfb,
    0x7c, 0xe3, 0x39, 0x82, 0x9b, 0x2f, 0xff, 0x87, 0x34, 0x8e, 0x43, 0x44, 0xc4, 0xde, 0xe9, 0xcb,
    0x54, 0x7b, 0x94, 0x32, 0xa6, 0xc2, 0x23, 0x3d, 0xee, 0x4c, 0x95, 0x0b, 0x42, 0xfa, 0xc3, 0x4e,
    0x08, 0x2e, 0xa1, 0x66, 0x28, 0xd9, 0x24, 0xb2, 0x76, 0x5b, 0xa2, 0x49, 0x6d, 0x8b, 0xd1, 0x25,
    0x72, 0xf8, 0xf6, 0x64, 0x86, 0x68, 0x98, 0x16, 0xd4, 0xa4, 0x5c, 0xcc, 0x5d, 0x65, 0xb6, 0x92,
    0x6c, 0x70, 0x48, 0x50, 0xfd, 0xed, 0xb9, 0xda, 0x5e, 0x15, 0x46, 0x57, 0xa7, 0x8d, 0x9d, 0x84,
    0x90, 0xd8, 0xab, 0x00, 0x8c, 0xbc, 0xd3, 0x0a, 0xf7, 0xe4, 0x58, 0x05, 0xb8, 0xb3, 0x45, 0x06,
    0xd0, 0x2c, 0x1e, 0x8f, 0xca, 0x3f, 0x0f, 0x02, 0xc1, 0xaf, 0xbd, 0x03, 0x01, 0x13, 0x8a, 0x6b,
    0x3a, 0x91, 0x11, 0x41, 0x4f, 0x67, 0xdc, 0xea, 0x97, 0xf2, 0xcf, 0xce, 0xf0, 0xb4, 0xe6, 0x73,
    0x96, 0xac, 0x74, 0x22, 0xe7, 0xad, 0x35, 0x85, 0xe2, 0xf9, 0x37, 0xe8, 0x1c, 0x75, 0xdf, 0x6e,
    0x47, 0xf1, 0x1a, 0x71, 0x1d, 0x29, 0xc5, 0x89, 0x6f, 0xb7, 0x62, 0x0e, 0xaa, 0x18, 0xbe, 0x1b,
    0xfc, 0x56, 0x3e, 0x4b, 0xc6, 0xd2, 0x79, 0x20, 0x9a, 0xdb, 0xc0, 0xfe, 0x78, 0xcd, 0x5a, 0xf4,
    0x1f, 0xdd, 0xa8, 0x33, 0x88, 0x07, 0xc7, 0x31, 0xb1, 0x12, 0x10, 0x59, 0x27, 0x80, 0xec, 0x5f,
    0x60, 0x51, 0x7f, 0xa9, 0x19, 0xb5, 0x4a, 0x0d, 0x2d, 0xe5, 0x7a, 0x9f, 0x93, 0xc9, 0x9c, 0xef,
    0xa0, 0xe0, 0x3b, 0x4d, 0xae, 0x2a, 0xf5, 0xb0, 0xc8, 0xeb, 0xbb, 0x3c, 0x83, 0x53, 0x99, 0x61,
    0x17, 0x2b, 0x04, 0x7e, 0xba, 0x77, 0xd6, 0x26, 0xe1, 0x69, 0x14, 0x63, 0x55, 0x21, 0x0c, 0x7d]

def aesShiftTable : List ℕ := [0, 5, 10, 15, 4, 9, 14, 3, 8, 13, 2, 7, 12, 1, 6, 11]

def aesInvShiftTable : List ℕ := [0, 13, 10, 7, 4, 1, 14, 11, 8, 5, 2, 15, 12, 9, 6, 3]

def aesSbox (x : U8) : U8 := BitVec.ofNat 8 (aesSboxTable.getD x.toNat 0)

def aesInvSbox (x : U8) : U8 := BitVec.ofNat 8 (aesInvSboxTable.getD x.toNat 0)

/-- Byte `b[i]` of a register. -/
def V128.b (v : V128) (i : ℕ) : U8 := v.elem 8 i

/-- The register whose bytes a loop over `b[0]` to `b[15]` stores. -/
def V128.ofB (f : ℕ → U8) : V128 := V128.zero.fill f 0 16

lemma V128.b_ofB (f : ℕ → U8) {i : ℕ} (hi : i < 16) : (V128.ofB f).b i = f i :=
  V128.elem_fill_all _ f (by decide) hi

def aesGfmulLoop : ℕ → U8 → U8 → U8 → U8
  | 0, p, _, _ => p
  | k + 1, p, a, b =>
    let p := if b.getLsbD 0 then p ^^^ a else p
    let hi := a.getLsbD 7
    let a := a <<< 1
    let a := if hi then a ^^^ 0x1b else a
    aesGfmulLoop k p a (b >>> 1)

def aesGfmul (a b : U8) : U8 := aesGfmulLoop 8 0 a b

/-- Byte `i` of a column in `aes_mixcols`. -/
def aesMixByte (inv : Bool) (a0 a1 a2 a3 : U8) (i : ℕ) : U8 :=
  if !inv then
    match i with
    | 0 => aesGfmul a0 2 ^^^ aesGfmul a1 3 ^^^ a2 ^^^ a3
    | 1 => a0 ^^^ aesGfmul a1 2 ^^^ aesGfmul a2 3 ^^^ a3
    | 2 => a0 ^^^ a1 ^^^ aesGfmul a2 2 ^^^ aesGfmul a3 3
    | _ => aesGfmul a0 3 ^^^ a1 ^^^ a2 ^^^ aesGfmul a3 2
  else
    match i with
    | 0 => aesGfmul a0 14 ^^^ aesGfmul a1 11 ^^^ aesGfmul a2 13 ^^^ aesGfmul a3 9
    | 1 => aesGfmul a0 9 ^^^ aesGfmul a1 14 ^^^ aesGfmul a2 11 ^^^ aesGfmul a3 13
    | 2 => aesGfmul a0 13 ^^^ aesGfmul a1 9 ^^^ aesGfmul a2 14 ^^^ aesGfmul a3 11
    | _ => aesGfmul a0 11 ^^^ aesGfmul a1 13 ^^^ aesGfmul a2 9 ^^^ aesGfmul a3 14

def aesMixcols (v : V128) (inv : Bool) : V128 :=
  .ofB fun i =>
    let col := i / 4 * 4
    aesMixByte inv (v.b col) (v.b (col + 1)) (v.b (col + 2)) (v.b (col + 3)) (i % 4)

/-- `AESE`: the key is added, then `ShiftRows` and `SubBytes`. -/
def aese (d n : V128) : V128 :=
  let v := V128.ofB fun i => d.b i ^^^ n.b i
  .ofB fun i => aesSbox (v.b (aesShiftTable.getD i 0))

def aesd (d n : V128) : V128 :=
  let v := V128.ofB fun i => d.b i ^^^ n.b i
  .ofB fun i => aesInvSbox (v.b (aesInvShiftTable.getD i 0))

def aesmc (n : V128) : V128 := aesMixcols n false

def aesimc (n : V128) : V128 := aesMixcols n true

end Aes

def cryptoAes (c : Cpu) (insn : U32) : Cpu :=
  let rd := bits insn 4 0
  let n := c.vreg (bits insn 9 5)
  match bits insn 16 12 with
  | 4 => c.setVreg rd (aese (c.vreg rd) n)
  | 5 => c.setVreg rd (aesd (c.vreg rd) n)
  | 6 => c.setVreg rd (aesmc n)
  | 7 => c.setVreg rd (aesimc n)
  | _ => undefined c

section Pmull

/-- The low and the high word after the bits of `a` below `k`. -/
def pmull64Loop (a b : U64) : ℕ → U64 × U64
  | 0 => (0, 0)
  | i + 1 =>
    let (rl, rh) := pmull64Loop a b i
    if a.getLsbD i then (rl ^^^ (b <<< i), if i ≠ 0 then rh ^^^ (b >>> (64 - i)) else rh) else (rl, rh)

def pmull64 (a b : U64) : U64 × U64 := pmull64Loop a b 64

def pmull8Loop (a b : U8) : ℕ → BitVec 16
  | 0 => 0
  | i + 1 => if a.getLsbD i then pmull8Loop a b i ^^^ (b.setWidth 16 <<< i) else pmull8Loop a b i

def pmull8 (a b : U8) : BitVec 16 := pmull8Loop a b 8

end Pmull

/-- `PMULL` and `PMULL2`. -/
def cryptoPmull (c : Cpu) (insn : U32) : Cpu :=
  let q := bit insn 30
  let rd := bits insn 4 0
  let n := c.vreg (bits insn 9 5)
  let m := c.vreg (bits insn 20 16)
  match bits insn 23 22 with
  | 3 =>
    let (lo, hi) := if q then pmull64 n.d1 m.d1 else pmull64 n.d0 m.d0
    c.setVreg rd ⟨lo, hi⟩
  | 0 =>
    let base := if q then 8 else 0
    c.setVreg rd (V128.zero.fill (fun j => pmull8 (n.b (base + j)) (m.b (base + j))) 0 8)
  | _ => undefined c

end Arm64Emu
