import Arm64Emu.Cpu

/-! The arithmetic helpers of `decode.c`. -/
namespace Arm64Emu

def flagWord (n z c v : Bool) : U32 :=
  (if n then psN else 0) ||| (if z then psZ else 0) ||| (if c then psC else 0)
    ||| (if v then psV else 0)

/-- Sum and NZCV; the carry and overflow come from the sums at double width. -/
def addWithCarry (x y : U64) (cin : Bool) (is64 : Bool) : U64 × U32 :=
  if is64 then
    let u : BitVec 128 := x.setWidth 128 + y.setWidth 128 + (if cin then 1 else 0)
    let res : U64 := u.setWidth 64
    let s : BitVec 128 := x.signExtend 128 + y.signExtend 128 + (if cin then 1 else 0)
    (res, flagWord (res.getLsbD 63) (res = 0) (u.getLsbD 64) (res.signExtend 128 ≠ s))
  else
    let xx : U32 := x.setWidth 32
    let yy : U32 := y.setWidth 32
    let u : U64 := xx.setWidth 64 + yy.setWidth 64 + (if cin then 1 else 0)
    let res : U32 := u.setWidth 32
    let s : U64 := xx.signExtend 64 + yy.signExtend 64 + (if cin then 1 else 0)
    (res.setWidth 64, flagWord (res.getLsbD 31) (res = 0) (u.getLsbD 32) (res.signExtend 64 ≠ s))

def logicalFlags (res : U64) (is64 : Bool) : U32 :=
  if is64 then flagWord (res.getLsbD 63) (res = 0) false false
  else flagWord (res.getLsbD 31) (res.setWidth 32 = (0 : U32)) false false

def shiftReg (v : U64) (type amount : ℕ) (is64 : Bool) : U64 :=
  let amount := amount % (if is64 then 64 else 32)
  let v := sz is64 v
  match type with
  | 0 => v <<< amount
  | 1 => if is64 then v >>> amount else ((v.setWidth 32 : U32) >>> amount).setWidth 64
  | 2 =>
    if is64 then v.sshiftRight amount
    else ((v.setWidth 32 : U32).sshiftRight amount).setWidth 64
  | _ => if is64 then ror64 v amount else (ror32 (v.setWidth 32) amount).setWidth 64

def extendReg (v : U64) (option shift : ℕ) : U64 :=
  let out : U64 := match option % 4 with
    | 0 => (v.setWidth 8).setWidth 64
    | 1 => (v.setWidth 16).setWidth 64
    | 2 => lo32 v
    | _ => v
  let n := match option % 4 with
    | 0 => 8
    | 1 => 16
    | 2 => 32
    | _ => 64
  let out := if option / 4 % 2 = 1 then signExtend out n else out
  out <<< shift

def rorWithin (v : U64) (r width : ℕ) : U64 :=
  if width = 64 then ror64 v r
  else
    let v := lo32 v
    let r := r % width
    if r ≠ 0 then ((v >>> r) ||| (v <<< (width - r))) &&& 0xffffffff else v

/-- An element of `esize` bits repeated over 64 bits. -/
def replicate (w : U64) (esize : ℕ) : U64 :=
  (List.range (64 / esize)).foldl (fun acc i => acc ||| (w <<< (i * esize))) 0

/-- The mask of an element of `esize` bits. -/
def elemMask (esize : ℕ) : U64 := if esize = 64 then ~~~0 else ((1 : U64) <<< esize) - 1

/-- The rotation of an element of `esize` bits. -/
def rorElem (w : U64) (r esize : ℕ) (emask : U64) : U64 :=
  if r ≠ 0 then ((w >>> r) ||| (w <<< (esize - r))) &&& emask else w

/-- The wrap and test masks at full width, or `none` for a reserved encoding. -/
def decodeBitmasksSlow (immN : Bool) (imms immr : ℕ) : Option (U64 × U64) :=
  let nimms := immN.toNat * 64 + (63 - imms % 64)
  if nimms = 0 then none
  else
    let len := Nat.log2 nimms
    if len < 1 then none
    else
      let esize := 2 ^ len
      let s := imms % esize
      let r := immr % esize
      let diff := (s + 2 ^ 32 - r) % 2 ^ 32 % esize
      let emask := elemMask esize
      let welem := ones (s + 1) &&& emask
      let telem := ones (diff + 1) &&& emask
      let w := rorElem welem (r % esize) esize emask
      some (replicate w esize, replicate telem esize)

def decodeBitmasks (immN : Bool) (imms immr : ℕ) (is64 : Bool) : Option (U64 × U64) :=
  match decodeBitmasksSlow immN imms immr with
  | none => none
  | some (wm, tm) => if !is64 && immN then none else some (sz is64 wm, sz is64 tm)

def crcByte (poly : U32) : ℕ → U32 → U32
  | 0, c => c
  | k + 1, c => crcByte poly k ((c >>> 1) ^^^ (if c.getLsbD 0 then poly else 0))

/-- Row `j` of the slicing tables. -/
def crcTab (poly : U32) : ℕ → U32 → U32
  | 0, i => crcByte poly 8 i
  | j + 1, i =>
    let p := crcTab poly j i
    (p >>> 8) ^^^ crcByte poly 8 (p &&& 0xff)

def crcBytes (poly : U32) : ℕ → U32 → U64 → U32
  | 0, acc, _ => acc
  | n + 1, acc, data =>
    crcBytes poly n ((acc >>> 8) ^^^ crcTab poly 0 ((acc ^^^ data.setWidth 32) &&& 0xff)) (data >>> 8)

def crc32Step (acc : U32) (data : U64) (bytes : ℕ) (poly : U32) : U32 :=
  if bytes = 8 then
    let acc := acc ^^^ data.setWidth 32
    let hi : U32 := (data >>> 32).setWidth 32
    crcTab poly 7 (acc &&& 0xff) ^^^ crcTab poly 6 ((acc >>> 8) &&& 0xff)
      ^^^ crcTab poly 5 ((acc >>> 16) &&& 0xff) ^^^ crcTab poly 4 (acc >>> 24)
      ^^^ crcTab poly 3 (hi &&& 0xff) ^^^ crcTab poly 2 ((hi >>> 8) &&& 0xff)
      ^^^ crcTab poly 1 ((hi >>> 16) &&& 0xff) ^^^ crcTab poly 0 (hi >>> 24)
  else crcBytes poly bytes acc data

/-- Byte `i` of a word. -/
def byteOf (v : U64) (i : ℕ) : U64 := (v >>> (8 * i)) &&& 0xff

def bswap32 (v : U32) : U32 :=
  ((v &&& 0xff) <<< 24) ||| (((v >>> 8) &&& 0xff) <<< 16)
    ||| (((v >>> 16) &&& 0xff) <<< 8) ||| ((v >>> 24) &&& 0xff)

def bswap64 (v : U64) : U64 :=
  ((bswap32 (v.setWidth 32)).setWidth 64 <<< 32) ||| (bswap32 ((v >>> 32).setWidth 32)).setWidth 64

def rbit (v : U64) (w : ℕ) : U64 :=
  (List.range w).foldl (fun o i => if v.getLsbD i then o ||| ((1 : U64) <<< (w - 1 - i)) else o) 0

def rev16 (v : U64) (w : ℕ) : U64 :=
  (List.range (w / 2)).foldl (fun o k =>
    (o ||| (byteOf v (2 * k) <<< ((2 * k + 1) * 8))) ||| (byteOf v (2 * k + 1) <<< (2 * k * 8))) 0

def rev32 (v : U64) : U64 :=
  (bswap32 (v.setWidth 32)).setWidth 64 ||| ((bswap32 ((v >>> 32).setWidth 32)).setWidth 64 <<< 32)

/-- Leading zeros of the low `w` bits of a nonzero value below `2 ^ w`. -/
def clzBits (v : U64) (w : ℕ) : ℕ := w - 1 - Nat.log2 v.toNat

/-- Bits below the top one that equal it, counted down from bit `i`. -/
def clsFrom (v : U64) (sign : Bool) : ℕ → ℕ
  | 0 => 0
  | i + 1 => if v.getLsbD i = sign then clsFrom v sign i + 1 else 0

def clsBits (v : U64) (w : ℕ) : ℕ := clsFrom v (v.getLsbD (w - 1)) (w - 1)

def udiv (n m : U64) (sf : Bool) : U64 :=
  if sf then (if m = 0 then 0 else n / m)
  else
    let a : U32 := n.setWidth 32
    let b : U32 := m.setWidth 32
    (if b ≠ 0 then a / b else 0).setWidth 64

/-- Signed division, with the one overflowing quotient pinned to the dividend. -/
def sdiv (n m : U64) (sf : Bool) : U64 :=
  if sf then
    if m = 0 then 0
    else if m = ~~~0 ∧ n = 0x8000000000000000 then n else n.sdiv m
  else
    let a : U32 := n.setWidth 32
    let b : U32 := m.setWidth 32
    (if b ≠ 0 then (if b = ~~~0 ∧ a = 0x80000000 then a else a.sdiv b) else 0).setWidth 64

end Arm64Emu
