import Mathlib

/-! Direct-mapped caches of a pure function. An entry carries the key it was
computed from, so a lookup never trusts the slot: it compares the key and
recomputes on a mismatch. -/
namespace DirectCache

variable {I K E : Type*} [DecidableEq I] [DecidableEq K] (key : E → K) (fill : K → E)

/-- The entry for `k` at slot `i`, and the cache afterwards. -/
def lookup (cache : I → E) (i : I) (k : K) : E × (I → E) :=
  if key (cache i) = k then (cache i, cache) else (fill k, Function.update cache i (fill k))

/-- The contents that fills at any slots, in any order, can leave. -/
inductive Reachable (init : I → E) : (I → E) → Prop
  | init : Reachable init init
  | fill {cache : I → E} (i : I) (k : K) :
      Reachable init cache → Reachable init (Function.update cache i (fill k))

def Coherent (cache : I → E) : Prop := ∀ i, cache i = fill (key (cache i))

variable {key fill} {init cache : I → E}

omit [DecidableEq K] in
theorem Reachable.coherent (hinit : Coherent key fill init) (hfill : ∀ k, key (fill k) = k)
    (h : Reachable fill init cache) : Coherent key fill cache := by
  induction h with
  | init => exact hinit
  | fill i k _ ih =>
    intro j
    by_cases hj : j = i
    · subst hj
      rw [Function.update_self, hfill]
    · rw [Function.update_of_ne hj]
      exact ih j

theorem lookup_entry (h : Coherent key fill cache) (i : I) (k : K) :
    (lookup key fill cache i k).1 = fill k := by
  unfold lookup
  split
  · rename_i hk
    rw [← hk]
    exact h i
  · rfl

theorem Reachable.lookup (h : Reachable fill init cache) (i : I) (k : K) :
    Reachable fill init (lookup key fill cache i k).2 := by
  unfold DirectCache.lookup
  split
  · exact h
  · exact h.fill i k

end DirectCache
