import Arm64Emu.Crypto

/-! The shift kernel of the SIMD unit in `exec_fpsimd.c`: it returns its value and whether it raised
`FPSR.QC`. -/
namespace Arm64Emu

section Kernels

/-- Sign-extend an element value, to be read as an `s64`. -/
def sx (v : U64) (e : ℕ) : U64 := signExtend v e

def int64Max : U64 := 0x7fffffffffffffff

def int64Min : U64 := 0x8000000000000000

def sMax (e : ℕ) : U64 := if 64 ≤ e then int64Max else ((1 : U64) <<< (e - 1)) - 1

def sMin (e : ℕ) : U64 := if 64 ≤ e then int64Min else -((1 : U64) <<< (e - 1))

/-- The left half of `vreg_shift`. -/
def vregShiftLeft (val : U64) (sh e : ℕ) (sgn sat : Bool) : U64 × Bool :=
  let emask := ones e
  if ¬sat then (if 64 ≤ sh then 0 else (val <<< sh) &&& emask, false)
  else if sgn then
    let sv := sx val e
    if sv = 0 then (0, false)
    -- a shift by the width or more overflows for every nonzero value
    else if e ≤ sh ∨ 64 ≤ sh then ((if (0 : U64).slt sv then sMax e else sMin e) &&& emask, true)
    else if (0 : U64).slt sv then
      if ((sMax e).sshiftRight sh).slt sv then (sMax e, true) else ((sv <<< sh) &&& emask, false)
    else if sv.slt ((sMin e).sshiftRight sh) then (sMin e &&& emask, true)
    else ((sv <<< sh) &&& emask, false)
  else
    let uv := val &&& emask
    if uv = 0 then (0, false)
    else if 64 ≤ sh then (emask, true)
    else if emask >>> sh < uv then (emask, true)
    else ((uv <<< sh) &&& emask, false)

/-- The right half of `vreg_shift`; rounding adds the last bit shifted out. -/
def vregShiftRight (val : U64) (rs e : ℕ) (sgn round : Bool) : U64 :=
  let emask := ones e
  if sgn then
    let sv := sx val e
    if 64 ≤ rs then (if round then 0 else (if sv.slt 0 then ~~~0 else 0) &&& emask)
    else
      let w := sv.sshiftRight rs
      let w := if round ∧ 1 ≤ rs then w + (sv.sshiftRight (rs - 1) &&& 1) else w
      w &&& emask
  else
    let uv := val &&& emask
    if 64 ≤ rs then (if ¬round then 0 else if rs = 64 then ((uv >>> 63) &&& 1) &&& emask else 0)
    else
      let w := uv >>> rs
      let w := if round ∧ 1 ≤ rs then w + ((uv >>> (rs - 1)) &&& 1) else w
      w &&& emask

def vregShift (val : U64) (sh : ℤ) (e : ℕ) (sgn round sat : Bool) : U64 × Bool :=
  if 0 ≤ sh then vregShiftLeft val sh.toNat e sgn sat
  else (vregShiftRight val (-sh).toNat e sgn round, false)

end Kernels

end Arm64Emu
