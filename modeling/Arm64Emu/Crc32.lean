import Arm64Emu.Crc
import Arm64Emu.DataProcessing

/-! The CRC32 instructions: the step with its slicing tables computes the bit-serial
remainder, however a string is cut into steps. -/
namespace Arm64Emu

/-- The tables of one polynomial, row by row, and those of both, in static storage. -/
abbrev CrcRows := ℕ → ℕ → U32

abbrev CrcTables := Bool → CrcRows

def CrcRows.set (t : CrcRows) (j i : ℕ) (v : U32) : CrcRows := fun j' i' => if j' = j ∧ i' = i then v else t j' i'

def crcColumn (i : ℕ) (t : CrcRows) : CrcRows :=
  (List.range 7).foldl (fun t k => t.set (k + 1) i ((t k i >>> 8) ^^^ t 0 (t k i &&& 0xff).toNat)) t

def crc32TabInit (t : CrcRows) (poly : U32) : CrcRows :=
  let t := (List.range 256).foldl (fun t i => t.set 0 i (crcByte poly 8 (BitVec.ofNat 32 i))) t
  (List.range 256).foldl (fun t i => crcColumn i t) t

def crcLoop (t : CrcRows) (data : U64) (acc : U32) (i : ℕ) : U32 :=
  (acc >>> 8) ^^^ t 0 ((acc ^^^ (data >>> (8 * i)).setWidth 32) &&& 0xff).toNat

def crc32Lookup (t : CrcRows) (acc : U32) (data : U64) (bytes : ℕ) : U32 :=
  if bytes = 8 then
    let acc := acc ^^^ data.setWidth 32
    let hi : U32 := (data >>> 32).setWidth 32
    t 7 (acc &&& 0xff).toNat ^^^ t 6 ((acc >>> 8) &&& 0xff).toNat
      ^^^ t 5 ((acc >>> 16) &&& 0xff).toNat ^^^ t 4 (acc >>> 24).toNat
      ^^^ t 3 (hi &&& 0xff).toNat ^^^ t 2 ((hi >>> 8) &&& 0xff).toNat
      ^^^ t 1 ((hi >>> 16) &&& 0xff).toNat ^^^ t 0 (hi >>> 24).toNat
  else (List.range bytes).foldl (crcLoop t data) acc

/-- The step as the code has it: the tables of the polynomial are built on their first use. -/
def crc32StepStatic (tab : CrcTables) (acc : U32) (data : U64) (bytes : ℕ) (poly : U32) : U32 × CrcTables :=
  let p := decide (poly = 0x82F63B78)
  let tab := if tab p 0 1 = 0 then Function.update tab p (crc32TabInit (tab p) poly) else tab
  (crc32Lookup (tab p) acc data bytes, tab)

def dataBytes (bytes : ℕ) (data : U64) : List U8 := (List.range bytes).map fun i => (data >>> (8 * i)).setWidth 8

def byteBits (x : U8) : List Bool := (List.range 8).map x.getLsbD

def serialCrc (poly acc : U32) (bytes : List U8) : U32 := Crc.serial poly acc (bytes.flatMap byteBits)

def dataOf (bytes : List U8) : U64 := bytes.foldr (fun x v => (v <<< 8) ||| x.setWidth 64) 0

section Remainders
variable (poly : U32)

lemma crcByte_eq_shift (n : ℕ) (c : U32) : crcByte poly n c = Crc.shift poly n c := by
  induction n generalizing c with
  | zero => rfl
  | succ n ih => rw [crcByte, ih, Crc.shift, Crc.step, Bool.xor_false]

lemma getLsbD_and_low (c : U32) (i : ℕ) : (c &&& 0xff).getLsbD i = (decide (i < 8) && c.getLsbD i) := by
  have hmask : ∀ i < 32, (0xff : U32).getLsbD i = decide (i < 8) := by decide
  rw [BitVec.getLsbD_and, Bool.and_comm]
  by_cases hi : i < 32
  · rw [hmask i hi]
  · rw [BitVec.getLsbD_of_ge c i (by omega), Bool.and_false, Bool.and_false]

lemma shift_eight (c : U32) : Crc.shift poly 8 c = (c >>> 8) ^^^ Crc.shift poly 8 (c &&& 0xff) := by
  rw [Crc.shift_split poly 0 (getLsbD_and_low c), BitVec.xor_comm]
  rfl

lemma crcTab_eq_shift (j : ℕ) (i : U32) : crcTab poly j i = Crc.shift poly (8 * (j + 1)) i := by
  induction j with
  | zero => exact crcByte_eq_shift poly 8 i
  | succ j ih => rw [crcTab, ih, crcByte_eq_shift, ← shift_eight, Nat.mul_succ 8 (j + 1), Crc.shift_add]

lemma serialCrc_append (acc : U32) (xs ys : List U8) :
    serialCrc poly acc (xs ++ ys) = serialCrc poly (serialCrc poly acc xs) ys := by
  rw [serialCrc, List.flatMap_append, Crc.serial_append]
  rfl

lemma serialCrc_byte (acc : U32) (x : U8) : serialCrc poly acc [x] = Crc.shift poly 8 (acc ^^^ x.setWidth 32) := by
  rw [serialCrc, List.flatMap_singleton]
  refine Crc.serial_eq_shift poly fun i => ?_
  by_cases hi : i < 8
  · simp [byteBits, hi, show i < 32 by omega]
  · simp [byteBits, hi, BitVec.getLsbD_of_ge x i (by omega)]

lemma dataBytes_succ (n : ℕ) (data : U64) : dataBytes (n + 1) data = data.setWidth 8 :: dataBytes n (data >>> 8) := by
  rw [dataBytes, List.range_succ_eq_map, List.map_cons, List.map_map]
  refine congrArg₂ _ (by simp) (List.map_congr_left fun i _ => ?_)
  show (data >>> (8 * (i + 1))).setWidth 8 = (data >>> 8 >>> (8 * i)).setWidth 8
  rw [← BitVec.shiftRight_add, Nat.mul_succ, Nat.add_comm]

lemma dataBytes_add (n k : ℕ) (data : U64) :
    dataBytes (n + k) data = dataBytes n data ++ dataBytes k (data >>> (8 * n)) := by
  simp only [dataBytes, List.range_add, List.map_append, List.map_map]
  refine congrArg (_ ++ ·) (List.map_congr_left fun i _ => ?_)
  show (data >>> (8 * (n + i))).setWidth 8 = (data >>> (8 * n) >>> (8 * i)).setWidth 8
  rw [← BitVec.shiftRight_add, Nat.mul_add]

lemma crcBytes_eq_serial (n : ℕ) (acc : U32) (data : U64) :
    crcBytes poly n acc data = serialCrc poly acc (dataBytes n data) := by
  induction n generalizing acc data with
  | zero => rfl
  | succ n ih =>
    have hlow : (acc ^^^ (data.setWidth 8).setWidth 32) >>> 8 = acc >>> 8 := by
      apply BitVec.eq_of_getLsbD_eq
      intro i _
      simp
    have hbyte : (acc ^^^ (data.setWidth 8).setWidth 32) &&& 0xff = (acc ^^^ data.setWidth 32) &&& 0xff := by
      apply BitVec.eq_of_getLsbD_eq
      intro i _
      rw [getLsbD_and_low, getLsbD_and_low]
      by_cases hi : i < 8
      · simp [hi, show i < 32 by omega]
      · simp [hi]
    have hstep : serialCrc poly acc [data.setWidth 8] =
        (acc >>> 8) ^^^ crcTab poly 0 ((acc ^^^ data.setWidth 32) &&& 0xff) := by
      rw [serialCrc_byte, shift_eight, hlow, hbyte, crcTab_eq_shift]
    rw [crcBytes, ih, ← hstep, ← serialCrc_append, dataBytes_succ, List.singleton_append]

lemma serialCrc_word (acc : U32) (data : U64) :
    serialCrc poly acc (dataBytes 4 data) = Crc.shift poly 32 (acc ^^^ data.setWidth 32) := by
  have hbits : (dataBytes 4 data).flatMap byteBits = (List.range 32).map data.getLsbD := by
    simp [dataBytes, byteBits, List.range, List.range.loop]
  rw [serialCrc, hbits]
  refine (Crc.serial_eq_shift poly fun i => ?_).trans (by rw [List.length_map, List.length_range])
  by_cases hi : i < 32
  · simp [hi]
  · simp [hi]

lemma shift_bytes (n : ℕ) (c : U32) :
    Crc.shift poly (32 + n) c = Crc.shift poly (32 + n) (c &&& 0xff) ^^^ Crc.shift poly (24 + n) ((c >>> 8) &&& 0xff)
      ^^^ Crc.shift poly (16 + n) ((c >>> 16) &&& 0xff) ^^^ Crc.shift poly (8 + n) (c >>> 24) := by
  have hsplit (k : ℕ) (d : U32) : Crc.shift poly (8 + k) d = Crc.shift poly (8 + k) (d &&& 0xff) ^^^ Crc.shift poly k (d >>> 8) :=
    Crc.shift_split poly k (getLsbD_and_low d)
  have h₀ := hsplit (24 + n) c
  have h₁ := hsplit (16 + n) (c >>> 8)
  have h₂ := hsplit (8 + n) (c >>> 16)
  rw [← BitVec.shiftRight_add] at h₁ h₂
  rw [← Nat.add_assoc] at h₀ h₁ h₂
  rw [h₀, h₁, h₂, BitVec.xor_assoc, BitVec.xor_assoc]

lemma crc32Step_eq_serial (acc : U32) (data : U64) (bytes : ℕ) :
    crc32Step acc data bytes poly = serialCrc poly acc (dataBytes bytes data) := by
  rw [crc32Step]
  split
  · rename_i height
    subst height
    have hlow := shift_bytes poly 32 (acc ^^^ data.setWidth 32)
    have hhigh := shift_bytes poly 0 ((data >>> 32).setWidth 32)
    have hserial : serialCrc poly acc (dataBytes 8 data) =
        Crc.shift poly (32 + 32) (acc ^^^ data.setWidth 32) ^^^ Crc.shift poly (32 + 0) ((data >>> 32).setWidth 32) := by
      rw [dataBytes_add 4 4, serialCrc_append, serialCrc_word, serialCrc_word, Crc.shift_xor, ← Crc.shift_add]
    rw [hserial, hlow, hhigh]
    simp only [crcTab_eq_shift, BitVec.xor_assoc]
  · exact crcBytes_eq_serial poly bytes acc data

end Remainders

section Tables

def CrcRows.Generated (t : CrcRows) (poly : U32) : Prop := ∀ j < 8, ∀ i < 256, t j i = crcTab poly j (BitVec.ofNat 32 i)

lemma CrcRows.Generated.lookup {t : CrcRows} {poly : U32} (h : t.Generated poly) {j : ℕ} (hj : j < 8) {x : U32}
    (hx : x.toNat < 256) : t j x.toNat = crcTab poly j x := by
  rw [h j hj _ hx, BitVec.ofNat_toNat, BitVec.setWidth_eq]

lemma toNat_and_low_lt (x : U32) : (x &&& 0xff).toNat < 256 := by
  rw [BitVec.toNat_and]
  exact Nat.lt_of_le_of_lt Nat.and_le_right (by decide)

lemma toNat_shift_lt (x : U32) : (x >>> 24).toNat < 256 := by
  rw [BitVec.toNat_ushiftRight, Nat.shiftRight_eq_div_pow]
  have := x.isLt
  omega

lemma first_row (f : ℕ → U32) (t : CrcRows) (n i : ℕ) :
    (List.range n).foldl (fun t i => CrcRows.set t 0 i (f i)) t 0 i = if i < n then f i else t 0 i := by
  induction n with
  | zero => rfl
  | succ n ih =>
    rw [List.range_succ, List.foldl_append]
    simp only [List.foldl_cons, List.foldl_nil, CrcRows.set, ih]
    by_cases heq : i = n
    · simp [heq]
    · simp [heq, show i < n + 1 ↔ i < n by omega]

lemma column_rows {poly : U32} {t : CrcRows} (hrow : ∀ i < 256, t 0 i = crcTab poly 0 (BitVec.ofNat 32 i)) {i : ℕ}
    (hi : i < 256) (n : ℕ) :
    let t' := (List.range n).foldl (fun t k => CrcRows.set t (k + 1) i ((t k i >>> 8) ^^^ t 0 (t k i &&& 0xff).toNat)) t
    (∀ j ≤ n, t' j i = crcTab poly j (BitVec.ofNat 32 i)) ∧ ∀ j i', i' ≠ i ∨ j = 0 → t' j i' = t j i' := by
  induction n with
  | zero =>
    refine ⟨fun j hj => ?_, fun _ _ _ => rfl⟩
    rw [Nat.le_zero.1 hj]
    exact hrow i hi
  | succ n ih =>
    obtain ⟨hcolumn, hother⟩ := ih
    simp only [List.range_succ, List.foldl_append, List.foldl_cons, List.foldl_nil]
    constructor
    · intro j hj
      by_cases hlast : j = n + 1
      · have hx := toNat_and_low_lt (crcTab poly n (BitVec.ofNat 32 i))
        rw [CrcRows.set, if_pos ⟨hlast, rfl⟩, hcolumn n (Nat.le_refl n), hother 0 _ (.inr rfl), hrow _ hx,
          BitVec.ofNat_toNat, BitVec.setWidth_eq, hlast]
        rfl
      · rw [CrcRows.set, if_neg fun h => hlast h.1]
        exact hcolumn j (by omega)
    · intro j i' hout
      rw [CrcRows.set, if_neg (by omega)]
      exact hother j i' hout

lemma crc32TabInit_generated (t : CrcRows) (poly : U32) : (crc32TabInit t poly).Generated poly := by
  rw [crc32TabInit]
  have hrow : ∀ i < 256, (List.range 256).foldl (fun t i => CrcRows.set t 0 i (crcByte poly 8 (BitVec.ofNat 32 i))) t 0 i =
      crcTab poly 0 (BitVec.ofNat 32 i) := by
    intro i hi
    rw [first_row, if_pos hi]
    rfl
  generalize (List.range 256).foldl (fun t i => CrcRows.set t 0 i (crcByte poly 8 (BitVec.ofNat 32 i))) t = t₀ at hrow
  -- after the columns below `n`: those are there, and the first row is as it was
  have hcolumns : ∀ n ≤ 256, (∀ j < 8, ∀ i < n,
      (List.range n).foldl (fun t i => crcColumn i t) t₀ j i = crcTab poly j (BitVec.ofNat 32 i)) ∧
      ∀ i, (List.range n).foldl (fun t i => crcColumn i t) t₀ 0 i = t₀ 0 i := by
    intro n hn
    induction n with
    | zero => exact ⟨fun _ _ _ h => absurd h (Nat.not_lt_zero _), fun _ => rfl⟩
    | succ n ih =>
      obtain ⟨hdone, hfirst⟩ := ih (by omega)
      simp only [List.range_succ, List.foldl_append, List.foldl_cons, List.foldl_nil]
      obtain ⟨hnew, hother⟩ := column_rows (fun i hi => (hfirst i).trans (hrow i hi)) (show n < 256 by omega) 7
      constructor
      · intro j hj i hi
        by_cases hlast : i = n
        · subst hlast
          exact hnew j (by omega)
        · exact (hother j i (.inl hlast)).trans (hdone j hj i (by omega))
      · exact fun i => (hother 0 i (.inr rfl)).trans (hfirst i)
  exact fun j hj i hi => (hcolumns 256 (Nat.le_refl _)).1 j hj i hi

lemma crcLoop_eq_crcBytes {t : CrcRows} {poly : U32} (h : t.Generated poly) (n : ℕ) (acc : U32) (data : U64) :
    (List.range n).foldl (crcLoop t data) acc = crcBytes poly n acc data := by
  induction n generalizing acc data with
  | zero => rfl
  | succ n ih =>
    have hnext : ∀ acc i, crcLoop t data acc (i + 1) = crcLoop t (data >>> 8) acc i := by
      intro acc i
      rw [crcLoop, crcLoop, ← BitVec.shiftRight_add, Nat.mul_succ, Nat.add_comm 8]
    rw [List.range_succ_eq_map, List.foldl_cons, List.foldl_map, crcBytes]
    simp only [Nat.succ_eq_add_one, hnext]
    rw [ih]
    simp only [crcLoop, Nat.mul_zero, BitVec.ushiftRight_zero]
    rw [h.lookup (by decide) (toNat_and_low_lt _)]

lemma crc32Lookup_eq {t : CrcRows} {poly : U32} (h : t.Generated poly) (acc : U32) (data : U64) (bytes : ℕ) :
    crc32Lookup t acc data bytes = crc32Step acc data bytes poly := by
  rw [crc32Lookup, crc32Step]
  split
  · simp only [h.lookup (show 7 < 8 by decide) (toNat_and_low_lt _), h.lookup (show 6 < 8 by decide) (toNat_and_low_lt _),
      h.lookup (show 5 < 8 by decide) (toNat_and_low_lt _), h.lookup (show 4 < 8 by decide) (toNat_shift_lt _),
      h.lookup (show 3 < 8 by decide) (toNat_and_low_lt _), h.lookup (show 2 < 8 by decide) (toNat_and_low_lt _),
      h.lookup (show 1 < 8 by decide) (toNat_and_low_lt _), h.lookup (show 0 < 8 by decide) (toNat_shift_lt _)]
  · exact crcLoop_eq_crcBytes h bytes acc data

def crcPolyOf (p : Bool) : U32 := if p then crcCPoly else crcPoly

/-- Each of the two tables is generated for its polynomial, or still to be built. -/
def CrcTables.Ready (tab : CrcTables) : Prop := ∀ p, tab p 0 1 = 0 ∨ (tab p).Generated (crcPolyOf p)

lemma crcPolyOf_decide {poly : U32} (h : poly = crcPoly ∨ poly = crcCPoly) :
    crcPolyOf (decide (poly = 0x82F63B78)) = poly := by
  rcases h with rfl | rfl
  · rfl
  · rfl

lemma crc32StepStatic_eq {tab : CrcTables} (h : tab.Ready) {poly : U32} (hpoly : poly = crcPoly ∨ poly = crcCPoly)
    (acc : U32) (data : U64) (bytes : ℕ) :
    (crc32StepStatic tab acc data bytes poly).1 = serialCrc poly acc (dataBytes bytes data) ∧
      (crc32StepStatic tab acc data bytes poly).2.Ready := by
  have hp := crcPolyOf_decide hpoly
  simp only [crc32StepStatic]
  generalize decide (poly = 0x82F63B78) = p at hp
  rw [← crc32Step_eq_serial]
  split
  · have hnew := crc32TabInit_generated (tab p) poly
    refine ⟨crc32Lookup_eq (by rwa [Function.update_self]) acc data bytes, fun p' => ?_⟩
    by_cases heq : p' = p
    · subst heq
      rw [Function.update_self, hp]
      exact .inr hnew
    · rw [Function.update_of_ne heq]
      exact h p'
  · rename_i hbuilt
    have hgen := (h p).resolve_left hbuilt
    rw [hp] at hgen
    exact ⟨crc32Lookup_eq hgen acc data bytes, h⟩

end Tables

section Strings

structure CrcCall where
  acc : U32
  data : U64
  bytes : ℕ
  poly : U32

def CrcCall.Valid (c : CrcCall) : Prop := c.bytes ∈ [1, 2, 4, 8] ∧ (c.poly = crcPoly ∨ c.poly = crcCPoly)

/-- The tables after some uses of the step; the static storage starts as zeros. -/
def crcTablesAfter (calls : List CrcCall) : CrcTables :=
  calls.foldl (fun tab c => (crc32StepStatic tab c.acc c.data c.bytes c.poly).2) fun _ _ _ => 0

def crcString (poly : U32) (s : U32 × CrcTables) (chunks : List (List U8)) : U32 × CrcTables :=
  chunks.foldl (fun s c => crc32StepStatic s.2 s.1 (dataOf c) c.length poly) s

lemma ready_crcTablesAfter {calls : List CrcCall} (h : ∀ c ∈ calls, c.Valid) : (crcTablesAfter calls).Ready := by
  induction calls using List.reverseRecOn with
  | nil => exact fun _ => .inl rfl
  | append_singleton calls c ih =>
    have hlast := h c (by simp)
    have hbefore := ih fun c' hc' => h c' (List.mem_append_left _ hc')
    rw [crcTablesAfter, List.foldl_append]
    exact (crc32StepStatic_eq hbefore hlast.2 c.acc c.data c.bytes).2

lemma dataBytes_dataOf {bytes : List U8} (h : bytes.length ≤ 8) : dataBytes bytes.length (dataOf bytes) = bytes := by
  induction bytes with
  | nil => rfl
  | cons x bytes ih =>
    rw [List.length_cons] at h ⊢
    have hcons : dataOf (x :: bytes) = (dataOf bytes <<< 8) ||| x.setWidth 64 := rfl
    have hhead : (dataOf (x :: bytes)).setWidth 8 = x := by
      rw [hcons]
      apply BitVec.eq_of_getLsbD_eq
      intro i hi
      simp [hi]
    -- the shift by a byte drops none of the bytes that are left
    have htail : dataBytes bytes.length (dataOf (x :: bytes) >>> 8) = dataBytes bytes.length (dataOf bytes) := by
      refine List.map_congr_left fun k hk => BitVec.eq_of_getLsbD_eq fun i hi => ?_
      have hbound : 8 + (8 * k + i) < 64 := by
        have := List.mem_range.1 hk
        omega
      rw [hcons]
      simp [hi, hbound, BitVec.getLsbD_eq_getElem (x := dataOf bytes) (i := 8 * k + i) (by omega)]
    rw [dataBytes_succ, hhead, htail, ih (by omega)]

lemma length_le_of_mem {n : ℕ} (h : n ∈ [1, 2, 4, 8]) : n ≤ 8 := by
  simp only [List.mem_cons, List.not_mem_nil, or_false] at h
  omega

lemma crcString_eq {poly : U32} (hpoly : poly = crcPoly ∨ poly = crcCPoly) {tab : CrcTables} (h : tab.Ready) (acc : U32)
    {chunks : List (List U8)} (hchunks : ∀ c ∈ chunks, c.length ∈ [1, 2, 4, 8]) :
    (crcString poly (acc, tab) chunks).1 = serialCrc poly acc chunks.flatten := by
  induction chunks generalizing acc tab with
  | nil => rfl
  | cons c chunks ih =>
    have hlen := length_le_of_mem (hchunks c List.mem_cons_self)
    obtain ⟨hvalue, hready⟩ := crc32StepStatic_eq h hpoly acc (dataOf c) c.length
    rw [dataBytes_dataOf hlen] at hvalue
    have hrest := ih hready (crc32StepStatic tab acc (dataOf c) c.length poly).1 fun c' hc' =>
      hchunks c' (List.mem_cons_of_mem c hc')
    rw [List.flatten_cons, serialCrc_append, ← hvalue]
    exact hrest

end Strings

/-- After any earlier uses, a step over 1, 2, 4 or 8 bytes is the bit-serial remainder of its
data, and a string has the remainder of its bytes however it is cut into such steps. -/
theorem crc32_step_serial (calls : List CrcCall) (hcalls : ∀ c ∈ calls, c.Valid) (poly : U32)
    (hpoly : poly = crcPoly ∨ poly = crcCPoly) (acc : U32) :
    (∀ data, ∀ bytes ∈ [1, 2, 4, 8], (crc32StepStatic (crcTablesAfter calls) acc data bytes poly).1 =
        serialCrc poly acc (dataBytes bytes data)) ∧
      ∀ chunks : List (List U8), (∀ c ∈ chunks, c.length ∈ [1, 2, 4, 8]) →
        (crcString poly (acc, crcTablesAfter calls) chunks).1 = serialCrc poly acc chunks.flatten := by
  have hready := ready_crcTablesAfter hcalls
  constructor
  · intro data bytes _
    exact (crc32StepStatic_eq hready hpoly acc data bytes).1
  · intro chunks hchunks
    exact crcString_eq hpoly hready acc hchunks

/-- The check value of the nine digits, in steps of eight and one, with the tables of the other
polynomial built before. -/
theorem crc32_of_digits :
    (crcString crcPoly (0xffffffff, crcTablesAfter [⟨0, 0, 4, crcCPoly⟩])
      [[0x31, 0x32, 0x33, 0x34, 0x35, 0x36, 0x37, 0x38], [0x39]]).1 = ~~~0xcbf43926 := by
  have hcalls : ∀ c ∈ [(⟨0, 0, 4, crcCPoly⟩ : CrcCall)], c.Valid := by
    intro c hc
    rw [List.mem_singleton.1 hc]
    exact ⟨by decide, .inr rfl⟩
  rw [(crc32_step_serial _ hcalls crcPoly (.inl rfl) 0xffffffff).2 _ (by decide)]
  decide +kernel

end Arm64Emu
