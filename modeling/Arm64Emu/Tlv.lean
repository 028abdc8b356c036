import Mathlib

/-! Options of a kind byte, a length byte and a value, one after another in an area, with
a kind that is a filler of one byte and a kind that ends them. An option is looked for
from the start of the area; a read outside of it has no result. -/
namespace Tlv

/-- The two kinds without a length, and how far an option of a length byte reaches, if it
is a length that options have. -/
structure Format where
  stop : BitVec 8
  pad : BitVec 8
  size : BitVec 8 → Option ℕ
  two_le : ∀ {len n}, size len = some n → 2 ≤ n

variable (F : Format) (wanted : BitVec 8 → BitVec 8 → Bool) (area : List (BitVec 8))

/-- The place of the first wanted option, in at most so many rounds from offset `o` on. -/
def find : ℕ → ℕ → Option (Option ℕ)
  | 0, _ => none
  | rounds + 1, o =>
    if area.length ≤ o then some none
    else do
      let kind ← area[o]?
      if kind = F.stop then return none
      else if kind = F.pad then find rounds (o + 1)
      else if area.length < o + 2 then return none
      else do
        let len ← area[o + 1]?
        match F.size len with
        | none => return none
        | some n =>
          if area.length < o + n then return none
          else if wanted kind len then return some o
          else find rounds (o + n)

/-- A well-formed option at `o`. -/
structure Entry (o : ℕ) (k l : BitVec 8) (n : ℕ) : Prop where
  kind : area[o]? = some k
  not_stop : k ≠ F.stop
  not_pad : k ≠ F.pad
  len : area[o + 1]? = some l
  size : F.size l = some n
  inside : o + n ≤ area.length

inductive Next : ℕ → ℕ → Prop
  | pad {o : ℕ} (hpad : area[o]? = some F.pad) (hne : F.pad ≠ F.stop) : Next o (o + 1)
  | entry {o n : ℕ} {kind len : BitVec 8} (h : Entry F area o kind len n) : Next o (o + n)

/-- Reached from `o` over fillers and well-formed options. -/
abbrev Walk : ℕ → ℕ → Prop := Relation.ReflTransGen (Next F area)

def Wanted (o : ℕ) : Prop := ∃ kind len n, Entry F area o kind len n ∧ wanted kind len = true

/-- The length of the option at `o` is missing, none that options have, or too large. -/
def Malformed (o : ℕ) : Prop := ∃ kind, area[o]? = some kind ∧ kind ≠ F.stop ∧ kind ≠ F.pad ∧
  (area.length < o + 2 ∨ ∃ len, area[o + 1]? = some len ∧ ∀ n, F.size len = some n → area.length < o + n)

def Ends (o : ℕ) : Prop := area.length ≤ o ∨ area[o]? = some F.stop ∨ Malformed F area o

/-- What a search from `o` on has to answer. -/
def Answers (o : ℕ) : Option ℕ → Prop
  | some p => Walk F area o p ∧ Wanted F wanted area p ∧ ∀ q, Walk F area o q → Wanted F wanted area q → p ≤ q
  | none => (∃ e, Walk F area o e ∧ Ends F area e) ∧ ∀ q, Walk F area o q → ¬Wanted F wanted area q

variable {F wanted area} {o o' : ℕ}

lemma Next.lt (h : Next F area o o') : o < o' := by
  cases h with
  | pad => omega
  | entry h =>
    have := F.two_le h.size
    omega

lemma Walk.le (h : Walk F area o o') : o ≤ o' := by
  induction h with
  | refl => rfl
  | tail _ h ih => exact ih.trans h.lt.le

lemma Next.unique {a b : ℕ} (ha : Next F area o a) (hb : Next F area o b) : a = b := by
  cases ha with
  | pad hpad hne =>
    cases hb with
    | pad => rfl
    | entry h => exact absurd (Option.some.inj (h.kind.symm.trans hpad)) h.not_pad
  | entry h =>
    cases hb with
    | pad hpad hne => exact absurd (Option.some.inj (h.kind.symm.trans hpad)) h.not_pad
    | entry h' =>
      have hlen := Option.some.inj (h.len.symm.trans h'.len)
      have hn := h.size
      rw [hlen, h'.size] at hn
      rw [Option.some.inj hn]

lemma Ends.not_entry (h : Ends F area o) {kind len : BitVec 8} {n : ℕ} : ¬Entry F area o kind len n := by
  intro he
  obtain ⟨hlt, -⟩ := List.getElem?_eq_some_iff.1 he.kind
  obtain ⟨hlt', -⟩ := List.getElem?_eq_some_iff.1 he.len
  rcases h with hend | hstop | ⟨k, hk, -, -, hmal⟩
  · omega
  · exact he.not_stop (Option.some.inj (he.kind.symm.trans hstop))
  · rcases hmal with hshort | ⟨l, hl, hsize⟩
    · omega
    · rw [he.len, Option.some.injEq] at hl
      subst hl
      have := hsize n he.size
      have := he.inside
      omega

lemma Ends.not_next (h : Ends F area o) : ¬Next F area o o' := by
  intro hn
  cases hn with
  | entry he => exact h.not_entry he
  | pad hpad hne =>
    rcases h with hend | hstop | ⟨k, hk, -, hnp, -⟩
    · rw [List.getElem?_eq_none hend] at hpad
      cases hpad
    · exact hne (Option.some.inj (hpad.symm.trans hstop))
    · exact hnp (Option.some.inj (hk.symm.trans hpad))

lemma Ends.answers (h : Ends F area o) : Answers F wanted area o none := by
  refine ⟨⟨o, .refl, h⟩, fun q hq hw => ?_⟩
  rcases Relation.ReflTransGen.cases_head hq with rfl | ⟨c, hc, -⟩
  · obtain ⟨kind, len, n, he, -⟩ := hw
    exact h.not_entry he
  · exact h.not_next hc

lemma Entry.answers {kind len : BitVec 8} {n : ℕ} (h : Entry F area o kind len n) (hw : wanted kind len = true) :
    Answers F wanted area o (some o) := ⟨.refl, ⟨kind, len, n, h, hw⟩, fun _ hq _ => Walk.le hq⟩

lemma Next.answers {r : Option ℕ} (h : Next F area o o') (hnot : ¬Wanted F wanted area o)
    (ha : Answers F wanted area o' r) : Answers F wanted area o r := by
  have hrest {q : ℕ} (hq : Walk F area o q) (hw : Wanted F wanted area q) : Walk F area o' q := by
    rcases Relation.ReflTransGen.cases_head hq with rfl | ⟨c, hc, hcq⟩
    · exact absurd hw hnot
    · rwa [h.unique hc]
  cases r with
  | some p => exact ⟨.head h ha.1, ha.2.1, fun q hq hw => ha.2.2 q (hrest hq hw) hw⟩
  | none =>
    obtain ⟨⟨e, he, hends⟩, hno⟩ := ha
    exact ⟨⟨e, .head h he, hends⟩, fun q hq hw => hno q (hrest hq hw) hw⟩

theorem find_answers (rounds o : ℕ) (ho : o ≤ area.length) (hrounds : area.length < o + rounds) :
    ∃ r, find F wanted area rounds o = some r ∧ Answers F wanted area o r := by
  induction rounds generalizing o with
  | zero => omega
  | succ rounds ih =>
    rw [find]
    by_cases hend : area.length ≤ o
    · exact ⟨none, if_pos hend, Ends.answers (.inl hend)⟩
    rw [if_neg hend]
    obtain ⟨kind, hkind⟩ : ∃ kind, area[o]? = some kind := ⟨_, List.getElem?_eq_getElem (not_le.1 hend)⟩
    simp only [hkind, Option.bind_eq_bind, Option.bind_some, Option.pure_def]
    by_cases hstop : kind = F.stop
    · exact ⟨none, if_pos hstop, Ends.answers (.inr (.inl (hstop ▸ hkind)))⟩
    rw [if_neg hstop]
    by_cases hpad : kind = F.pad
    · obtain ⟨r, hr, ha⟩ := ih (o + 1) (by omega) (by omega)
      subst hpad
      refine ⟨r, (if_pos rfl).trans hr, Next.answers (.pad hkind hstop) ?_ ha⟩
      rintro ⟨k, l, n, he, -⟩
      exact he.not_pad (Option.some.inj (he.kind.symm.trans hkind))
    rw [if_neg hpad]
    by_cases hshort : area.length < o + 2
    · exact ⟨none, if_pos hshort, Ends.answers (.inr (.inr ⟨kind, hkind, hstop, hpad, .inl hshort⟩))⟩
    rw [if_neg hshort]
    obtain ⟨len, hlen⟩ : ∃ len, area[o + 1]? = some len := ⟨_, List.getElem?_eq_getElem (by omega)⟩
    simp only [hlen, Option.bind_some]
    cases hsize : F.size len with
    | none =>
      refine ⟨none, rfl, Ends.answers (.inr (.inr ⟨kind, hkind, hstop, hpad, .inr ⟨len, hlen, ?_⟩⟩))⟩
      simp [hsize]
    | some n =>
      dsimp only
      by_cases hlong : area.length < o + n
      · refine ⟨none, if_pos hlong, Ends.answers (.inr (.inr ⟨kind, hkind, hstop, hpad, .inr ⟨len, hlen, ?_⟩⟩))⟩
        simp [hsize, hlong]
      rw [if_neg hlong]
      have he : Entry F area o kind len n := ⟨hkind, hstop, hpad, hlen, hsize, not_lt.1 hlong⟩
      by_cases hw : wanted kind len = true
      · exact ⟨some o, if_pos hw, he.answers hw⟩
      rw [if_neg hw]
      have hn := F.two_le hsize
      obtain ⟨r, hr, ha⟩ := ih (o + n) (by omega) (by omega)
      refine ⟨r, hr, Next.answers (.entry he) ?_ ha⟩
      rintro ⟨k, l, m, he', hw'⟩
      rw [← Option.some.inj (hkind.symm.trans he'.kind), ← Option.some.inj (hlen.symm.trans he'.len)] at hw'
      exact hw hw'

end Tlv
