import Arm64Emu.Tcp
import Arm64Emu.Tlv

/-! The option walks of the user-mode network: the segment size in a TCP header
(`parse_mss`) and an option of a DHCP message (`dhcp_opt`). -/
namespace Arm64Emu

def mssFormat : Tlv.Format where
  stop := 0
  pad := 1
  size len := if len < 2 then none else some len.toNat
  two_le {len n} h := by
    split at h
    · cases h
    · next hlen =>
      rw [← Option.some.inj h]
      exact BitVec.le_def.1 (BitVec.not_lt.1 hlen)

def dhcpFormat : Tlv.Format where
  stop := 255
  pad := 0
  size len := some (2 + len.toNat)
  two_le h := by
    rw [← Option.some.inj h]
    omega

def isMss (kind len : U8) : Bool := kind == 2 && len == 4

/-- The options of a TCP header of `doff` bytes. -/
def optionArea (t : Bytes) (doff : ℕ) : Bytes := (t.take doff).drop 20

/-- `parse_mss`, where a read outside of the options has no result. -/
def parseMssChecked (t : Bytes) (doff : ℕ) : Option U16 := do
  let area := optionArea t doff
  match ← Tlv.find mssFormat isMss area (area.length + 1) 0 with
  | some o => return (← area[o + 2]?) ++ (← area[o + 3]?)
  | none => return 536

/-- The place of an option, where a read outside of the options has no result. -/
def dhcpOpt (opts : Bytes) (code : U8) : Option (Option ℕ) :=
  Tlv.find dhcpFormat (fun kind _ => kind == code) opts (opts.length + 1) 0

/-- What the header says about the segment size, given where it says it. -/
def mssAt (t : Bytes) : Option ℕ → U16
  | some o => unRd16 t (20 + o + 2)
  | none => 536

section ParseMss
variable {t : Bytes} {doff : ℕ}

lemma length_optionArea (ht : doff ≤ t.length) : (optionArea t doff).length = doff - 20 := by
  simp [optionArea, Nat.min_eq_left ht]

lemma getElem?_optionArea {o : ℕ} (ho : 20 + o < doff) : (optionArea t doff)[o]? = t[20 + o]? := by
  rw [optionArea, List.getElem?_drop, List.getElem?_take_of_lt ho]

lemma parseMssFrom_eq (ht : doff ≤ t.length) {rounds rounds' o : ℕ} {r : Option ℕ} (hrounds : doff ≤ 20 + o + rounds')
    (h : Tlv.find mssFormat isMss (optionArea t doff) rounds o = some r) : parseMssFrom t doff rounds' (20 + o) = mssAt t r := by
  have hlen := length_optionArea ht
  induction rounds generalizing rounds' o with
  | zero => cases h
  | succ rounds ih =>
    rw [Tlv.find, hlen] at h
    by_cases hend : doff ≤ 20 + o
    · rw [if_pos (by omega)] at h
      cases h
      cases rounds' with
      | zero => rfl
      | succ rounds' => exact if_pos (.inl hend)
    obtain ⟨rounds', rfl⟩ : ∃ n, rounds' = n + 1 := ⟨rounds' - 1, by omega⟩
    obtain ⟨kind, hkind⟩ : ∃ kind, t[20 + o]? = some kind := ⟨_, List.getElem?_eq_getElem (by omega)⟩
    rw [if_neg (by omega), getElem?_optionArea (by omega), hkind] at h
    rw [parseMssFrom, hkind]
    simp only [Option.bind_eq_bind, Option.bind_some, Option.getD_some, Option.pure_def, hend, false_or,
      show mssFormat.stop = 0 from rfl, show mssFormat.pad = 1 from rfl] at h ⊢
    by_cases hstop : kind = 0
    · rw [if_pos hstop] at h ⊢
      cases h
      rfl
    rw [if_neg hstop] at h ⊢
    by_cases hpad : kind = 1
    · rw [if_pos hpad] at h ⊢
      exact ih (by omega) h
    rw [if_neg hpad] at h ⊢
    by_cases hshort : doff < 20 + o + 2
    · rw [if_pos (by omega)] at h
      rw [if_pos (.inl hshort)]
      cases h
      rfl
    obtain ⟨len, hlen'⟩ : ∃ len, t[20 + o + 1]? = some len := ⟨_, List.getElem?_eq_getElem (by omega)⟩
    rw [if_neg (by omega), getElem?_optionArea (by omega), ← Nat.add_assoc, hlen'] at h
    simp only [Option.bind_some, hlen', Option.getD_some, hshort, false_or,
      show mssFormat.size len = if len < 2 then none else some len.toNat from rfl] at h ⊢
    by_cases htwo : len < 2
    · rw [if_pos htwo] at h
      rw [if_pos (.inl htwo)]
      cases h
      rfl
    rw [if_neg htwo] at h
    by_cases hlong : doff < 20 + o + len.toNat
    · simp only [if_pos (show doff - 20 < o + len.toNat by omega)] at h
      rw [if_pos (.inr hlong)]
      cases h
      rfl
    simp only [if_neg (show ¬doff - 20 < o + len.toNat by omega)] at h
    rw [if_neg (not_or.2 ⟨htwo, hlong⟩)]
    by_cases hmss : kind = 2 ∧ len = 4
    · rw [if_pos (by simp [isMss, hmss])] at h
      rw [if_pos hmss]
      cases h
      rfl
    · rw [if_neg (by simpa [isMss] using hmss)] at h
      rw [if_neg hmss]
      have hpos : 2 ≤ len.toNat := BitVec.le_def.1 (BitVec.not_lt.1 htwo)
      rw [Nat.add_assoc 20]
      exact ih (by omega) h

lemma parseMssChecked_eq (ht : doff ≤ t.length) {r : Option ℕ}
    (hr : Tlv.find mssFormat isMss (optionArea t doff) ((optionArea t doff).length + 1) 0 = some r)
    (ha : Tlv.Answers mssFormat isMss (optionArea t doff) 0 r) : parseMssChecked t doff = some (mssAt t r) := by
  unfold parseMssChecked
  simp only [hr, Option.bind_eq_bind, Option.bind_some]
  cases r with
  | none => rfl
  | some o =>
    obtain ⟨-, ⟨kind, len, n, he, hw⟩, -⟩ := ha
    have hsize := he.size
    have hin := he.inside
    have h4 : len = 4 := by
      simp only [isMss, Bool.and_eq_true, beq_iff_eq] at hw
      exact hw.2
    subst h4
    have hn : n = 4 := (Option.some.inj hsize).symm
    rw [hn, length_optionArea ht] at hin
    have hbyte {i : ℕ} (hi : i < 4) : (optionArea t doff)[o + i]? = some ((t[20 + o + i]?).getD 0) := by
      rw [getElem?_optionArea (by omega), ← Nat.add_assoc, List.getElem?_eq_getElem (by omega)]
      rfl
    simp only [hbyte (show 2 < 4 by omega), hbyte (show 3 < 4 by omega)]
    rfl

end ParseMss

/-- Both walks end and read inside of the options; they find the first option asked for, or
come to an end before. -/
theorem option_walks (t : Bytes) (doff : ℕ) (ht : doff ≤ t.length) (opts : Bytes) (code : U8) :
    parseMssChecked t doff = some (parseMss t doff) ∧
      (∃ r, Tlv.Answers mssFormat isMss (optionArea t doff) 0 r ∧ parseMss t doff = mssAt t r) ∧
      ∃ r, dhcpOpt opts code = some r ∧ Tlv.Answers dhcpFormat (fun kind _ => kind == code) opts 0 r := by
  obtain ⟨r, hr, ha⟩ := @Tlv.find_answers mssFormat isMss (optionArea t doff) ((optionArea t doff).length + 1) 0
    (Nat.zero_le _) (by omega)
  have hmss : parseMss t doff = mssAt t r := parseMssFrom_eq ht (Nat.le_add_left _ _) hr
  rw [hmss]
  exact ⟨parseMssChecked_eq ht hr ha, ⟨r, ha, rfl⟩, Tlv.find_answers _ 0 (Nat.zero_le _) (by omega)⟩

/-- A filler before a segment size of 1460. -/
theorem option_walks_mss : parseMssChecked (List.replicate 20 0 ++ [1, 2, 4, 0x05, 0xb4]) 25 = some 1460 :=
  (option_walks (List.replicate 20 0 ++ [1, 2, 4, 0x05, 0xb4]) 25 (by decide) [] 53).1.trans (by decide)

end Arm64Emu
