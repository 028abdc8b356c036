import Mathlib

/-! Resources owned by keys: what is held is exactly what some key owns, and no two keys
own the same. -/

structure Owns {K H : Type} (own : K → Option H) (held : Set H) : Prop where
  mem_iff (h : H) : h ∈ held ↔ ∃ k, own k = some h
  inj {k k' : K} {h : H} : own k = some h → own k' = some h → k = k'

namespace Owns

variable {K H : Type} [DecidableEq K] {own own' : K → Option H} {held : Set H} {k : K} {h : H}

omit [DecidableEq K] in
lemma empty : Owns (fun _ : K => (none : Option H)) ∅ := by
  refine ⟨fun h => ?_, fun hk => ?_⟩
  · simp
  · cases hk

lemma release (ho : Owns own held) (hk : own k = some h) : Owns (Function.update own k none) (held \ {h}) := by
  refine ⟨fun x => ?_, fun {j j' x} hj hj' => ?_⟩
  · rw [Set.mem_sdiff, ho.mem_iff, Set.mem_singleton_iff]
    constructor
    · rintro ⟨⟨j, hj⟩, hx⟩
      have hjk : j ≠ k := by
        rintro rfl
        exact hx (Option.some.inj (hj.symm.trans hk))
      exact ⟨j, by rw [Function.update_of_ne hjk, hj]⟩
    · rintro ⟨j, hj⟩
      by_cases hjk : j = k
      · simp [hjk] at hj
      · rw [Function.update_of_ne hjk] at hj
        refine ⟨⟨j, hj⟩, ?_⟩
        rintro rfl
        exact hjk (ho.inj hj hk)
  · by_cases hjk : j = k
    · simp [hjk] at hj
    · by_cases hjk' : j' = k
      · simp [hjk'] at hj'
      · rw [Function.update_of_ne hjk] at hj
        rw [Function.update_of_ne hjk'] at hj'
        exact ho.inj hj hj'

lemma acquire (ho : Owns own held) (hk : own k = none) (hh : h ∉ held) :
    Owns (Function.update own k (some h)) (insert h held) := by
  have hfree (j : K) : own j ≠ some h := fun hj => hh ((ho.mem_iff h).2 ⟨j, hj⟩)
  refine ⟨fun x => ?_, fun {j j' x} hj hj' => ?_⟩
  · rw [Set.mem_insert_iff, ho.mem_iff]
    constructor
    · rintro (rfl | ⟨j, hj⟩)
      · exact ⟨k, Function.update_self ..⟩
      · have hjk : j ≠ k := by
          rintro rfl
          rw [hk] at hj
          cases hj
        exact ⟨j, by rw [Function.update_of_ne hjk, hj]⟩
    · rintro ⟨j, hj⟩
      by_cases hjk : j = k
      · subst hjk
        rw [Function.update_self] at hj
        exact .inl (Option.some.inj hj).symm
      · rw [Function.update_of_ne hjk] at hj
        exact .inr ⟨j, hj⟩
  · by_cases hjk : j = k <;> by_cases hjk' : j' = k
    · rw [hjk, hjk']
    · subst hjk
      rw [Function.update_self] at hj
      rw [Function.update_of_ne hjk'] at hj'
      exact absurd (hj'.trans hj.symm) (hfree j')
    · subst hjk'
      rw [Function.update_self] at hj'
      rw [Function.update_of_ne hjk] at hj
      exact absurd (hj.trans hj'.symm) (hfree j)
    · rw [Function.update_of_ne hjk] at hj
      rw [Function.update_of_ne hjk'] at hj'
      exact ho.inj hj hj'

lemma drop (ho : Owns own held) (k : K) : Owns (Function.update own k none) (held \ {x | own k = some x}) := by
  cases hk : own k with
  | none => simpa [hk ▸ Function.update_eq_self k own] using ho
  | some x =>
    have hset : {y | some x = some y} = {x} := by
      ext y
      simp [eq_comm]
    rw [hset]
    exact ho.release hk

lemma replace (ho : Owns own held) (k : K) (hh : h ∉ held) :
    Owns (Function.update own k (some h)) (insert h held \ {x | own k = some x}) := by
  have hown : h ∉ {x | own k = some x} := fun hk => hh ((ho.mem_iff h).2 ⟨k, hk⟩)
  have hfree : h ∉ held \ {x | own k = some x} := fun hm => hh hm.1
  rw [Set.insert_sdiff_of_notMem _ hown]
  simpa using (ho.drop k).acquire (Function.update_self ..) hfree

omit [DecidableEq K] in
lemma eq_empty (ho : Owns own held) (hk : ∀ k, own k = none) : held = ∅ := by
  ext x
  simp [ho.mem_iff, hk]

end Owns
