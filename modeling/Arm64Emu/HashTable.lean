import Mathlib

/-! Hash tables with chained buckets, as maps from keys to entries. An entry carries its
key; a valid table keeps each entry in the bucket of its key, and each key once. -/
namespace HashTable

variable {I K E : Type*} [DecidableEq I] [DecidableEq K] (key : E → K) (bucket : K → I)

omit [DecidableEq I] in
def find (t : I → List E) (k : K) : Option E := (t (bucket k)).find? fun e => key e = k

def modify (t : I → List E) (k : K) (g : E → E) : I → List E :=
  Function.update t (bucket k) ((t (bucket k)).map fun e => if key e = k then g e else e)

def insert (t : I → List E) (e : E) : I → List E :=
  Function.update t (bucket (key e)) (e :: t (bucket (key e)))

def erase (t : I → List E) (k : K) : I → List E :=
  Function.update t (bucket k) ((t (bucket k)).eraseP fun e => key e = k)

structure Valid (t : I → List E) : Prop where
  bucket_eq {i : I} {e : E} : e ∈ t i → bucket (key e) = i
  nodup (i : I) : ((t i).map key).Nodup

variable {key bucket} {t : I → List E} {k x : K} {e : E} {g : E → E}

section Find
omit [DecidableEq I]

lemma key_of_find (h : find key bucket t k = some e) : key e = k := by
  simpa using List.find?_some h

lemma find_eq_none : find key bucket t k = none ↔ ∀ e ∈ t (bucket k), key e ≠ k := by
  simp [find]

lemma find?_of_mem {l : List E} (hl : (l.map key).Nodup) (he : e ∈ l) : (l.find? fun d => key d = key e) = some e := by
  induction l with
  | nil => cases he
  | cons d l ih =>
    rw [List.map_cons, List.nodup_cons] at hl
    obtain rfl | he := List.mem_cons.1 he
    · simp
    · have hne : key d ≠ key e := fun h => hl.1 (h ▸ List.mem_map_of_mem he)
      rw [List.find?_cons_of_neg (by simpa using hne)]
      exact ih hl.2 he

lemma Valid.mem_iff (h : Valid key bucket t) {i : I} : e ∈ t i ↔ bucket (key e) = i ∧ find key bucket t (key e) = some e := by
  constructor
  · intro he
    have hb := h.bucket_eq he
    refine ⟨hb, ?_⟩
    subst hb
    exact find?_of_mem (h.nodup _) he
  · rintro ⟨rfl, hf⟩
    exact List.mem_of_find?_eq_some hf

end Find

lemma find_update_of_ne {l : List E} (h : bucket x ≠ bucket k) :
    find key bucket (Function.update t (bucket k) l) x = find key bucket t x := by
  rw [find, find, Function.update_of_ne h]

lemma find_modify (hg : ∀ e, key (g e) = key e) :
    find key bucket (modify key bucket t k g) x = if x = k then (find key bucket t k).map g else find key bucket t x := by
  by_cases hb : bucket x = bucket k
  · have hkey (d : E) : (key (if key d = k then g d else d) = x) = (key d = x) := by
      split
      · rw [hg]
      · rfl
    rw [find, modify, hb, Function.update_self, List.find?_map]
    simp only [Function.comp_def, hkey]
    split
    · rename_i hx
      subst hx
      rw [find]
      cases hf : (t (bucket x)).find? fun d => key d = x with
      | none => rfl
      | some d =>
        have hd : key d = x := by simpa using List.find?_some hf
        simp [hd]
    · rename_i hx
      rw [find, hb]
      cases hf : (t (bucket k)).find? fun d => key d = x with
      | none => rfl
      | some d =>
        have hd : key d = x := by simpa using List.find?_some hf
        simp [hd, hx]
  · have hx : x ≠ k := fun h => hb (by rw [h])
    rw [modify, find_update_of_ne hb, if_neg hx]

lemma find_insert : find key bucket (insert key bucket t e) x = if x = key e then some e else find key bucket t x := by
  by_cases hb : bucket x = bucket (key e)
  · rw [find, insert, hb, Function.update_self, List.find?_cons]
    by_cases hx : x = key e
    · simp [hx]
    · simp [find, hb, Ne.symm hx, hx]
  · have hx : x ≠ key e := fun h => hb (by rw [h])
    rw [insert, find_update_of_ne hb, if_neg hx]

lemma find?_eraseP {l : List E} (hl : (l.map key).Nodup) :
    ((l.eraseP fun d => key d = k).find? fun d => key d = x) = if x = k then none else l.find? fun d => key d = x := by
  induction l with
  | nil => simp
  | cons d l ih =>
    rw [List.map_cons, List.nodup_cons] at hl
    by_cases hd : key d = k
    · rw [List.eraseP_cons_of_pos (by simpa using hd)]
      split
      · rename_i hx
        rw [List.find?_eq_none]
        intro e he
        have : key e ≠ key d := fun h => hl.1 (h ▸ List.mem_map_of_mem he)
        simpa [hx, ← hd] using this
      · rename_i hx
        rw [List.find?_cons_of_neg (by simpa [hd] using Ne.symm hx)]
    · rw [List.eraseP_cons_of_neg (by simpa using hd)]
      by_cases hx : key d = x
      · have hxk : x ≠ k := fun h => hd (hx.trans h)
        simp [hx, hxk]
      · rw [List.find?_cons_of_neg (by simpa using hx), ih hl.2, List.find?_cons_of_neg (by simpa using hx)]

lemma find_erase (h : Valid key bucket t) :
    find key bucket (erase key bucket t k) x = if x = k then none else find key bucket t x := by
  by_cases hb : bucket x = bucket k
  · rw [find, erase, hb, Function.update_self, find?_eraseP (h.nodup _), find, hb]
  · have hx : x ≠ k := fun h => hb (by rw [h])
    rw [erase, find_update_of_ne hb, if_neg hx]

omit [DecidableEq I] [DecidableEq K] in
lemma Valid.empty : Valid key bucket fun _ => [] := ⟨fun h => (by cases h), fun _ => List.nodup_nil⟩

omit [DecidableEq K] in
lemma Valid.update (h : Valid key bucket t) {i : I} {l : List E} (hb : ∀ e ∈ l, bucket (key e) = i)
    (hn : (l.map key).Nodup) : Valid key bucket (Function.update t i l) := by
  refine ⟨fun {j e} he => ?_, fun j => ?_⟩ <;> by_cases hj : j = i
  · subst hj
    rw [Function.update_self] at he
    exact hb e he
  · rw [Function.update_of_ne hj] at he
    exact h.bucket_eq he
  · subst hj
    rwa [Function.update_self]
  · rw [Function.update_of_ne hj]
    exact h.nodup j

lemma Valid.modify (h : Valid key bucket t) (k : K) (hg : ∀ e, key (g e) = key e) :
    Valid key bucket (modify key bucket t k g) := by
  have hkey (d : E) : key (if key d = k then g d else d) = key d := by
    split
    · exact hg d
    · rfl
  refine h.update (fun e he => ?_) ?_
  · obtain ⟨d, hd, rfl⟩ := List.mem_map.1 he
    rw [hkey]
    exact h.bucket_eq hd
  · rw [List.map_map]
    simpa only [Function.comp_def, hkey] using h.nodup (bucket k)

lemma Valid.insert (h : Valid key bucket t) (hf : find key bucket t (key e) = none) :
    Valid key bucket (insert key bucket t e) := by
  refine h.update (fun d hd => ?_) ?_
  · obtain rfl | hd := List.mem_cons.1 hd
    · rfl
    · exact h.bucket_eq hd
  · rw [List.map_cons, List.nodup_cons]
    refine ⟨fun hm => ?_, h.nodup _⟩
    obtain ⟨d, hd, hk⟩ := List.mem_map.1 hm
    exact find_eq_none.1 hf d hd hk

lemma Valid.erase (h : Valid key bucket t) (k : K) : Valid key bucket (erase key bucket t k) := by
  refine h.update (fun d hd => h.bucket_eq (List.mem_of_mem_eraseP hd)) ?_
  exact (h.nodup _).sublist (List.eraseP_sublist.map key)

end HashTable
